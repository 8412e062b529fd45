import RmwCyclonedds.Serialization.Bounds

/-! Which types have a bound: the walk that computes it comes to its end. -/
namespace RmwCyclonedds
open Library

/-- Elements one after another move the offset. -/
def TakesRoom (f : Nat → Nat) : Prop := f 0 < f (f 0)

section
variable (what : SampleOrKey) (mm : MinOrMax)

mutual
/-- Elements that are counted and not all measured take room. -/
def ValueType.Roomy : ValueType → Prop
  | .struct _ ms => ms.Roomy (allFields what ms)
  | .array t n => (n ≠ 0 → t.Roomy) ∧ (1 < n → TakesRoom fun off => t.extent 2 what mm off)
  | .spanSequence _ t b =>
    (mm.count b ≠ 0 → t.Roomy) ∧ (1 < mm.count b → TakesRoom fun off => t.extent 2 what mm off)
  | _ => True

def Members.Roomy (all : Bool) : Members → Prop
  | .nil => True
  | .cons _ isKey t ms => (all || isKey → t.Roomy) ∧ ms.Roomy all
end

end

namespace CheckingSizeCursor
variable {c : CheckingSizeCursor} {n : Nat}

theorem advance_ok (h : c.offset + n ≤ uint32Max) : c.advance n = .ok ⟨c.offset + n⟩ :=
  if_neg (by omega)

theorem align_ok (h : alignUp n c.offset ≤ uint32Max) : c.align n = .ok ⟨alignUp n c.offset⟩ := by
  unfold align
  split
  · next hn =>
    rcases hn with rfl | hn
    · rw [alignUp, padding_one, Nat.add_zero]
    · rw [alignUp, padding, if_pos hn, Nat.add_zero]
  · next hn =>
    have hpad : alignUp n c.offset = c.offset + (n - c.offset % n) := by
      rw [alignUp, padding, if_neg fun h => hn (.inr h)]
    rw [hpad] at h ⊢
    exact advance_ok h

theorem serializeU32_ok (h : alignUp 4 c.offset + 4 ≤ uint32Max) :
    c.serializeU32 = .ok ⟨alignUp 4 c.offset + 4⟩ := by
  rw [serializeU32, align_ok ((Nat.le_add_right _ _).trans h)]
  exact advance_ok (c := ⟨alignUp 4 c.offset⟩) h

end CheckingSizeCursor

open CheckingSizeCursor

/-! ### Where the walk has room, it comes to an end -/

section
variable {bound : CheckingSizeCursor → Outcome (CheckingSizeCursor × Bool)} {f : Nat → Nat} {n : Nat}

/-- Elements that take room and have it are neither too many nor without a size. -/
private theorem serializeSizeBoundMany_ends (hf : ∃ k, Extent k f) (hroom : 1 < n → TakesRoom f)
    (hb : n ≠ 0 → ∀ c, f c.offset ≤ uint32Max → bound c = .ok (⟨f c.offset⟩,true)) {c : CheckingSizeCursor}
    (h : manyExtent 2 f n c.offset ≤ uint32Max) :
    serializeSizeBoundMany bound n c = .ok (⟨manyExtent 2 f n c.offset⟩,true) := by
  obtain ⟨k,hf⟩ := hf
  unfold serializeSizeBoundMany
  match n with
  | 0 => rfl
  | 1 =>
    rw [if_neg (by decide), if_neg (by decide), hb (by decide) c h]
    rfl
  | n + 2 =>
    have hstride := hf.stride_const c.offset 0
    have hfirst : f 0 < f (f 0) := hroom (by omega)
    have hle := hf.le (f c.offset)
    have hrun : f (f c.offset) + (n + 2) * (f (f c.offset) - f c.offset) ≤ uint32Max := h
    have hcount : n + 2 ≤ (n + 2) * (f (f c.offset) - f c.offset) := Nat.le_mul_of_pos_right _ (by omega)
    have hquot : ¬n + 2 > sizeMax / (f (f c.offset) - f c.offset) := by
      rw [Nat.not_lt, Nat.le_div_iff_mul_le (by omega)]
      exact ((Nat.le_add_left _ _).trans hrun).trans (by decide)
    have hone : bound c = .ok (⟨f c.offset⟩,true) := hb (by omega) c (by omega)
    have htwo : bound ⟨f c.offset⟩ = .ok (⟨f (f c.offset)⟩,true) := hb (by omega) ⟨f c.offset⟩ (by dsimp only; omega)
    have hrest := advance_ok (c := ⟨f (f c.offset)⟩) hrun
    have hzero : ¬f (f c.offset) - f c.offset = 0 := by omega
    rw [if_neg (by omega), if_neg (by omega), hone]
    simp only [bind, Except.bind, Bool.not_true, Bool.false_eq_true, if_false, htwo, if_neg hzero, if_neg hquot,
      show n + 2 > 1 from by omega, if_true, putBytes, hrest]
    rfl

/-- A walk that ends has found room for its elements. -/
private theorem takesRoom_of_many (hf : ∃ k, Extent k f)
    (hb : ∀ {c c' : CheckingSizeCursor}, bound c = .ok (c',true) → c'.offset = f c.offset) {c c' : CheckingSizeCursor}
    (h : serializeSizeBoundMany bound n c = .ok (c',true)) :
    (n ≠ 0 → ∃ c c', bound c = .ok (c',true)) ∧ (1 < n → TakesRoom f) := by
  obtain ⟨k,hf⟩ := hf
  rcases serializeSizeBoundMany_inv h with ⟨rfl,h0⟩ | ⟨hd,h1⟩ | ⟨d,d',ok',hd,hd',⟨_,hno⟩ | ⟨hn,rfl,hlt,_⟩⟩
  · have hnone := h0 rfl
    exact ⟨fun h => absurd hnone h,fun h => by omega⟩
  · have hone := h1 rfl
    exact ⟨fun _ => ⟨_,_,hd⟩,fun h => by omega⟩
  · cases hno
  · refine ⟨fun _ => ⟨_,_,hd⟩,fun _ => ?_⟩
    rw [hb hd', hb hd] at hlt
    have hstride := hf.stride_const c.offset 0
    unfold TakesRoom
    omega

end

section
variable (what : SampleOrKey) (mm : MinOrMax)

mutual
theorem serializeSizeBound_ends : ∀ {t : ValueType}, t.WellFormed → t.Roomy what mm → ∀ c : CheckingSizeCursor,
    t.extent 2 what mm c.offset ≤ uint32Max → serializeSizeBound what mm t c = .ok (⟨t.extent 2 what mm c.offset⟩,true)
  | .primitive k, _, _, c, h => by
    rw [ValueType.extent] at h
    rw [serializeSizeBound, TypeKind.cdralignofType_eq, TypeKind.cdrsizeofType_eq, align_ok ((Nat.le_add_right _ _).trans h)]
    simp only [bind, Except.bind, putBytes, advance_ok (c := ⟨alignUp k.width.bytes c.offset⟩) h]
    rfl
  | .u8string _ b, _, _, c, h => by
    rw [ValueType.extent] at h
    have hchars := advance_ok (c := ⟨alignUp 4 c.offset + 4⟩) (n := mm.count b) (by dsimp only; omega)
    have hterminator := advance_ok (c := ⟨alignUp 4 c.offset + 4 + mm.count b⟩) (n := 1) h
    rw [serializeSizeBound, serializeU32_ok (by omega)]
    simp only [bind, Except.bind, putBytes, hchars, hterminator]
    rfl
  | .u16string _ b, _, _, c, h => by
    rw [ValueType.extent] at h
    have hcount : 2 * mm.count b < 2 ^ 32 := by
      unfold uint32Max at h
      omega
    have hchars := advance_ok (c := ⟨alignUp 4 c.offset + 4⟩) (n := 2 * mm.count b) h
    rw [serializeSizeBound, serializeU32_ok (by omega)]
    simp only [bind, Except.bind, putBytes, Nat.mod_eq_of_lt hcount, hchars]
    rfl
  | .struct _ ms, hw, hr, c, h => serializeSizeBoundMembers_ends (allFields what ms) hw hr c h
  | .array t n, hw, hr, c, h =>
    serializeSizeBoundMany_ends (t.extent_extent 2 what mm) hr.2 (fun hn => serializeSizeBound_ends hw.2 (hr.1 hn)) h
  | .spanSequence _ t b, hw, hr, c, h => by
    rw [ValueType.extent] at h
    obtain ⟨_,hrun⟩ := (ValueType.array t (mm.count b)).extent_extent 2 what mm
    rw [serializeSizeBound, serializeU32_ok ((hrun.le _).trans h)]
    exact serializeSizeBoundMany_ends (c := ⟨alignUp 4 c.offset + 4⟩) (t.extent_extent 2 what mm) hr.2
      (fun hn => serializeSizeBound_ends hw.2.1 (hr.1 hn)) h
  | .boolVector _ b, _, _, c, h => by
    rw [ValueType.extent] at h
    have hflags := advance_ok (c := ⟨alignUp 4 c.offset + 4⟩) (n := mm.count b) h
    rw [serializeSizeBound, serializeU32_ok (by omega)]
    simp only [bind, Except.bind, putBytes, hflags]
    rfl

theorem serializeSizeBoundMembers_ends (all : Bool) : ∀ {ms : Members}, ms.WellFormed → ms.Roomy what mm all →
    ∀ c : CheckingSizeCursor, ms.extent 2 what mm all c.offset ≤ uint32Max →
      serializeSizeBoundMembers what mm all ms c = .ok (⟨ms.extent 2 what mm all c.offset⟩,true)
  | .nil, _, _, _, _ => rfl
  | .cons _ isKey t ms, hw, hr, c, h => by
    rw [Members.extent] at h ⊢
    rw [serializeSizeBoundMembers]
    split at h
    · next hchosen =>
      obtain ⟨_,hms⟩ := ms.extent_extent 2 what mm all
      rw [if_pos hchosen, if_pos hchosen, serializeSizeBound_ends hw.1 (hr.1 hchosen) c ((hms.le _).trans h)]
      exact serializeSizeBoundMembers_ends all hw.2 hr.2 ⟨t.extent 2 what mm c.offset⟩ h
    · next hchosen =>
      rw [if_neg hchosen, if_neg hchosen]
      exact serializeSizeBoundMembers_ends all hw.2 hr.2 c h
end

mutual
theorem roomy_of_serializeSizeBound : ∀ {t : ValueType}, t.WellFormed → ∀ {c c' : CheckingSizeCursor},
    serializeSizeBound what mm t c = .ok (c',true) → t.Roomy what mm
  | .primitive _, _, _, _, _ => True.intro
  | .u8string _ _, _, _, _, _ => True.intro
  | .u16string _ _, _, _, _, _ => True.intro
  | .struct _ ms, hw, _, _, h => roomy_of_serializeSizeBoundMembers (allFields what ms) hw h
  | .array t n, hw, _, _, h => by
    rw [serializeSizeBound] at h
    obtain ⟨helement,hroom⟩ := takesRoom_of_many (t.extent_extent 2 what mm)
      (fun h => serializeSizeBound_offset what mm hw.2 h) h
    refine ⟨fun hn => ?_,hroom⟩
    obtain ⟨d,d',hd⟩ := helement hn
    exact roomy_of_serializeSizeBound hw.2 hd
  | .spanSequence _ t b, hw, _, _, h => by
    rw [serializeSizeBound] at h
    obtain ⟨e,_,h⟩ := Outcome.bind_eq_ok h
    obtain ⟨helement,hroom⟩ := takesRoom_of_many (t.extent_extent 2 what mm)
      (fun h => serializeSizeBound_offset what mm hw.2.1 h) h
    refine ⟨fun hn => ?_,hroom⟩
    obtain ⟨d,d',hd⟩ := helement hn
    exact roomy_of_serializeSizeBound hw.2.1 hd
  | .boolVector _ _, _, _, _, _ => True.intro

theorem roomy_of_serializeSizeBoundMembers (all : Bool) : ∀ {ms : Members}, ms.WellFormed →
    ∀ {c c' : CheckingSizeCursor}, serializeSizeBoundMembers what mm all ms c = .ok (c',true) → ms.Roomy what mm all
  | .nil, _, _, _, _ => True.intro
  | .cons _ isKey t ms, hw, _, _, h => by
    rw [serializeSizeBoundMembers] at h
    split at h
    · obtain ⟨⟨d,ok⟩,hd,h⟩ := Outcome.bind_eq_ok h
      cases ok with
      | false => cases h
      | true =>
        exact ⟨fun _ => roomy_of_serializeSizeBound hw.1 hd,roomy_of_serializeSizeBoundMembers all hw.2 h⟩
    · next hother => exact ⟨fun hchosen => absurd hchosen hother,roomy_of_serializeSizeBoundMembers all hw.2 h⟩
end

/-- The walk comes to its end exactly where elements take room and all of them have it. -/
theorem serializeSizeBound_iff {t : ValueType} (hw : t.WellFormed) {c : CheckingSizeCursor} (hc : c.offset ≤ uint32Max)
    (c' : CheckingSizeCursor) : serializeSizeBound what mm t c = .ok (c',true) ↔
      t.Roomy what mm ∧ t.extent 2 what mm c.offset ≤ uint32Max ∧ c' = ⟨t.extent 2 what mm c.offset⟩ := by
  constructor
  · intro h
    have hoffset := serializeSizeBound_offset what mm hw h
    refine ⟨roomy_of_serializeSizeBound what mm hw h,?_,?_⟩
    · rw [← hoffset]
      exact serializeSizeBound_le what mm hc h
    · cases c'
      exact congrArg CheckingSizeCursor.mk hoffset
  · rintro ⟨hr,hfits,rfl⟩
    exact serializeSizeBound_ends what mm hw hr c hfits

end
end RmwCyclonedds
