import RmwCyclonedds.Serialization.KeyWalk
import RmwCyclonedds.Serialization.NonKey
import RmwCyclonedds.Serialization.Typesupports

/-! Keys that end at the same offset whatever they say, and others that may be of any length. -/
namespace RmwCyclonedds
open Library DeserializeCursor

mutual
/-- The key holds no string and no sequence. -/
def ValueType.fixedKey : ValueType → Bool
  | .primitive _ => true
  | .struct _ ms => ms.fixedKey (allFields .key ms)
  | .array t _ => t.fixedKey
  | _ => false

def Members.fixedKey (all : Bool) : Members → Bool
  | .nil => true
  | .cons _ isKey t ms => (!(all || isKey) || t.fixedKey) && ms.fixedKey all
end

/-! ### Where a key of fixed length ends -/

/-- A reader went from one place of the stream to another, that of the given offset. -/
def ReadsUpTo (c c' : DeserializeCursor) (off : Nat) : Prop := ∃ bs, Reads c bs c' ∧ c.offset + bs.length = off

namespace ReadsUpTo
variable {c d c' : DeserializeCursor} {off off' : Nat}

theorem refl (c : DeserializeCursor) : ReadsUpTo c c c.offset := ⟨[],Reads.refl c,rfl⟩

theorem offset_eq (h : ReadsUpTo c d off) : d.offset = off := by
  obtain ⟨bs,hr,hlen⟩ := h
  rw [hr.offset_eq, hlen]

theorem trans (h : ReadsUpTo c d off) (h' : ReadsUpTo d c' off') : ReadsUpTo c c' off' := by
  have hd := h.offset_eq
  obtain ⟨as,ha,hlen⟩ := h
  obtain ⟨bs,hb,hlen'⟩ := h'
  refine ⟨as ++ bs,ha.trans hb,?_⟩
  rw [List.length_append]
  omega

end ReadsUpTo

/-- The copies of whole elements that a reader takes. -/
def Takes (bswapSrc : Bool) (lookup : Lookup) (whole : WholeCopies) (t : ValueType) : Prop :=
  (∀ off, whole off t = true → t.trivialMany off = true) ∧ (t.Sized → ∀ off,
    (if bswapSrc then pure false else lookupManyTriviallySerialized lookup off t : Outcome Bool) = .ok (whole off t))

theorem takes_swapped (lookup : Lookup) (t : ValueType) : Takes true lookup neverWhole t :=
  ⟨fun _ h => Bool.noConfusion h,fun _ _ => rfl⟩

theorem Sound.takes {lookup : Lookup} {whole : WholeCopies} {t : ValueType} (h : Sound lookup whole t) :
    Takes false lookup whole t := ⟨h.whole,h.many⟩

section
variable (host : Endian) {lookup : Lookup} {runtime : Runtime} (bswapSrc : Bool) {whole : WholeCopies}

private theorem deserializePrimitive_end (w : Width) {c c' : DeserializeCursor} {v : Value}
    (h : deserializePrimitive host bswapSrc w c = .ok (v,c')) : ReadsUpTo c c' (alignUp w.bytes c.offset + w.bytes) := by
  obtain ⟨d,hd,h⟩ := Outcome.bind_eq_ok h
  obtain ⟨⟨bs,e⟩,hget,h⟩ := Outcome.bind_eq_ok h
  cases h
  obtain ⟨pad,hpad,hr⟩ := reads_of_align hd
  obtain ⟨hlen,hr'⟩ := reads_of_getBytes hget
  refine ⟨pad ++ bs,hr.trans hr',?_⟩
  rw [List.length_append, hpad, hlen, ← Nat.add_assoc]
  rfl

section
variable {t : ValueType} {view : Value → Nat → Value} {f : DeserializeCursor → Outcome (Value × DeserializeCursor)}
  (hf : ∀ {v w : Value} {c c' : DeserializeCursor}, t.Has v → f c = .ok (w,c') →
    ReadsUpTo c c' ((view v c.offset).finish c.offset))
include hf

private theorem deserializeEach_end : ∀ {vs ws : List Value} {c c' : DeserializeCursor}, (∀ v ∈ vs, t.Has v) →
    deserializeEach f vs.length c = .ok (ws,c') → ReadsUpTo c c' (Value.finishAll (viewEach view vs c.offset) c.offset)
  | [], _, c, _, _, h => by
    cases h
    exact ReadsUpTo.refl c
  | v :: vs, _, c, c', hv, h => by
    obtain ⟨⟨x,d⟩,hone,h⟩ := Outcome.bind_eq_ok h
    obtain ⟨⟨xs,d'⟩,hrest,h⟩ := Outcome.bind_eq_ok h
    cases h
    have hhead := hf (hv v List.mem_cons_self) hone
    have htail := deserializeEach_end (fun w hw => hv w (List.mem_cons_of_mem v hw)) hrest
    rw [hhead.offset_eq] at htail
    exact hhead.trans htail

private theorem deserializeMany_end (hs : t.Sized) (ht : Takes bswapSrc lookup whole t) {vs ws : List Value}
    {c c' : DeserializeCursor} (hv : ∀ v ∈ vs, t.Has v)
    (h : deserializeMany host lookup bswapSrc f t vs.length c = .ok (ws,c')) :
    ReadsUpTo c c' (Value.finishAll (viewMany view (fun o => whole o t) vs c.offset) c.offset) := by
  match vs with
  | [] =>
    cases h
    exact ReadsUpTo.refl c
  | [v] =>
    obtain ⟨⟨x,d⟩,hone,h⟩ := Outcome.bind_eq_ok h
    cases h
    have hhead := hf (hv v List.mem_cons_self) hone
    rw [viewMany, viewEach, ite_self]
    exact hhead
  | v :: u :: us =>
    obtain ⟨⟨x,d⟩,hone,h⟩ := Outcome.bind_eq_ok h
    have hhead := hf (hv v List.mem_cons_self) hone
    have hvs : ∀ w ∈ u :: us, t.Has w := fun w hw => hv w (List.mem_cons_of_mem v hw)
    have hlen : (v :: u :: us).length - 1 = (u :: us).length := rfl
    have hne : (u :: us).length ≠ 0 := Nat.succ_ne_zero _
    dsimp only at h
    rw [hlen, if_neg hne, ValueType.sizeofType_of_sized hs] at h
    simp only [bind, Except.bind, ht.2 hs d.offset] at h
    rw [viewMany, ← hhead.offset_eq]
    refine hhead.trans ?_
    cases hw : whole d.offset t with
    | true =>
      simp only [hw, if_true] at h
      rw [if_pos rfl, Value.finishAll, ← hhead.offset_eq]
      obtain ⟨⟨bs,e⟩,hget,h⟩ := Outcome.bind_eq_ok h
      cases h
      obtain ⟨hbytes,hr⟩ := reads_of_getBytes hget
      refine ⟨bs,hr,?_⟩
      rw [hbytes, ← encodeAll_length_of_trivialMany host (ht.1 _ hw) hvs]
      exact Value.encodeAll_length host _ _
    | false =>
      simp only [hw, Bool.false_eq_true, if_false] at h
      rw [if_neg Bool.false_ne_true, Value.finishAll, ← hhead.offset_eq]
      obtain ⟨⟨xs,e⟩,hrest,h⟩ := Outcome.bind_eq_ok h
      cases h
      exact deserializeEach_end hf hvs hrest

end

mutual
/-- All keys of such a type end where the key of any one value does. -/
theorem deserialize_fixedKey : ∀ {t : ValueType}, t.fixedKey = true → t.WellFormed →
    t.Everywhere (Takes bswapSrc lookup whole) → ∀ {v w : Value} {c c' : DeserializeCursor}, t.Has v →
      deserialize host lookup runtime bswapSrc .key t c = .ok (w,c') →
      ReadsUpTo c c' ((t.view whole .key v c.offset).finish c.offset)
  | .primitive k, _, _, _, _, _, _, _, hv, h => by
    obtain ⟨n,_,rfl⟩ := hv
    rw [deserialize, deserializeAny_key] at h
    exact deserializePrimitive_end host bswapSrc k.width h
  | .struct _ ms, hfix, hw, ht, _, _, _, _, hv, h => by
    obtain ⟨vs,rfl,hvs⟩ := hv
    rw [deserialize, deserializeAny_key] at h
    obtain ⟨⟨ws,d⟩,hms,h⟩ := Outcome.bind_eq_ok h
    cases h
    exact deserializeMembers_fixedKey (allFields .key ms) hfix hw ht.2 hvs hms
  | .array t n, hfix, hw, ht, _, _, _, _, hv, h => by
    obtain ⟨vs,rfl,rfl,hvs⟩ := hv
    rw [deserialize, deserializeAny_key] at h
    obtain ⟨⟨ws,d⟩,hmany,h⟩ := Outcome.bind_eq_ok h
    cases h
    exact deserializeMany_end host bswapSrc (fun hv h => deserialize_fixedKey (t := t) hfix hw.2 ht.2 hv h) hw.1
      ht.2.here hvs hmany
  | .u8string _ _, hfix, _, _, _, _, _, _, _, _ => Bool.noConfusion hfix
  | .u16string _ _, hfix, _, _, _, _, _, _, _, _ => Bool.noConfusion hfix
  | .spanSequence _ _ _, hfix, _, _, _, _, _, _, _, _ => Bool.noConfusion hfix
  | .boolVector _ _, hfix, _, _, _, _, _, _, _, _ => Bool.noConfusion hfix

theorem deserializeMembers_fixedKey (all : Bool) : ∀ {ms : Members}, ms.fixedKey all = true → ms.WellFormed →
    ms.Everywhere (Takes bswapSrc lookup whole) → ∀ {vs ws : List Value} {c c' : DeserializeCursor}, ms.Have vs →
      deserializeMembers host lookup runtime bswapSrc .key all ms c = .ok (ws,c') →
      ReadsUpTo c c' (Value.finishAll (ms.view whole .key all vs c.offset) c.offset)
  | .nil, _, _, _, _, _, c, _, _, h => by
    cases h
    exact ReadsUpTo.refl c
  | .cons _ isKey t ms, hfix, hw, ht, _, _, c, c', hv, h => by
    obtain ⟨v,vs,rfl,hv,hvs⟩ := hv
    rw [Members.fixedKey, Bool.and_eq_true] at hfix
    rw [deserializeMembers] at h
    rw [Members.view]
    cases hchosen : all || isKey with
    | false =>
      rw [hchosen, if_neg Bool.false_ne_true] at h
      rw [if_neg Bool.false_ne_true]
      exact deserializeMembers_fixedKey all hfix.2 hw.2 ht.2 hvs h
    | true =>
      rw [hchosen] at h hfix
      rw [if_pos rfl] at h ⊢
      obtain ⟨⟨x,d⟩,hone,h⟩ := Outcome.bind_eq_ok h
      obtain ⟨⟨xs,d'⟩,hrest,h⟩ := Outcome.bind_eq_ok h
      cases h
      have hhead := deserialize_fixedKey (t := t) hfix.1 hw.1 ht.1 hv hone
      have htail := deserializeMembers_fixedKey all hfix.2 hw.2 ht.2 hvs hrest
      rw [hhead.offset_eq] at htail
      exact hhead.trans htail
end

end

/-! ### Keys of other types may be long -/

theorem ValueType.exists_fits (t : ValueType) (hw : t.WellFormed) : ∃ v, t.Has v ∧ v.Fits :=
  ⟨_,Memory.empty.value_has .little t Memory.base,
    ValueType.fits_of_inBounds hw (Memory.empty.value_has _ _ _) (ValueType.inBounds_empty _ _ _)⟩

theorem Members.exists_fits (ms : Members) (hw : ms.WellFormed) : ∃ vs, ms.Have vs ∧ Value.FitsAll vs :=
  ⟨_,Memory.empty.values_have .little ms Memory.base,
    Members.fits_of_inBounds hw (Memory.empty.values_have _ _ _) (Members.inBounds_empty _ _ _)⟩

private theorem lt_alignUp_add {n : Nat} (hn : 0 < n) (k off : Nat) : off < alignUp k off + n := by
  have h := le_alignUp k off
  omega

section
variable {view : Value → Nat → Value}

variable (view) in
private theorem add_length_le_each : ∀ {vs : List Value}, (∀ v ∈ vs, ∀ off, off < (view v off).finish off) → ∀ off,
    off + vs.length ≤ Value.finishAll (viewEach view vs off) off
  | [], _, _ => Nat.le_refl _
  | v :: vs, h, off => by
    have hhead := h v List.mem_cons_self off
    have htail := add_length_le_each (fun w hw => h w (List.mem_cons_of_mem v hw)) ((view v off).finish off)
    rw [viewEach, Value.finishAll, List.length_cons]
    omega

private theorem viewEach_plain (vs : List Value) (off : Nat) : viewEach (fun v _ => v) vs off = vs := by
  induction vs generalizing off with
  | nil => rfl
  | cons v vs ih => rw [viewEach, ih]

variable (view) in
/-- Every element takes at least a byte, copied whole or not. -/
private theorem add_length_le_many (whole : Nat → Bool) {vs : List Value}
    (h : ∀ v ∈ vs, ∀ off, off < (view v off).finish off) (h' : ∀ v ∈ vs, ∀ off, off < v.finish off) (off : Nat) :
    off + vs.length ≤ Value.finishAll (viewMany view whole vs off) off := by
  cases vs with
  | nil => exact Nat.le_refl _
  | cons v vs =>
    have hhead := h v List.mem_cons_self off
    rw [viewMany, Value.finishAll, List.length_cons]
    split
    · have htail := add_length_le_each (fun v _ => v) (fun w hw => h' w (List.mem_cons_of_mem v hw))
        ((view v off).finish off)
      rw [viewEach_plain] at htail
      omega
    · have htail := add_length_le_each view (fun w hw => h w (List.mem_cons_of_mem v hw)) ((view v off).finish off)
      omega

end

section
variable (whole : WholeCopies)

mutual
/-- No value is without bytes, not even its key. -/
theorem ValueType.lt_finish (what : SampleOrKey) : ∀ {t : ValueType}, t.Solid → ∀ {v : Value}, t.Has v → ∀ off,
    off < (t.view whole what v off).finish off
  | .primitive k, _, _, h, off => by
    obtain ⟨n,_,rfl⟩ := h
    exact lt_alignUp_add k.width.bytes_pos _ off
  | .u8string _ _, _, _, h, off => by
    obtain ⟨cs,rfl⟩ := h
    exact (lt_alignUp_add (by decide) 4 off).trans_le (Nat.le_add_right _ _)
  | .u16string _ _, _, _, h, off => by
    obtain ⟨us,rfl⟩ := h
    exact (lt_alignUp_add (by decide) 4 off).trans_le (Nat.le_add_right _ _)
  | .struct _ ms, hs, _, h, off => by
    obtain ⟨vs,rfl,hvs⟩ := h
    refine Members.lt_finish what (allFields what ms) hs.2 hvs ?_ off
    cases what with
    | sample => exact .inl ⟨rfl,hs.1⟩
    | key =>
      cases hk : ms.hasKeys with
      | true => exact .inr rfl
      | false => exact .inl ⟨by rw [allFields_key, hk]; rfl,hs.1⟩
  | .array t _, hs, _, h, off => by
    obtain ⟨vs,rfl,rfl,hvs⟩ := h
    obtain ⟨v,vs,rfl⟩ := List.exists_cons_of_length_pos hs.1
    rw [ValueType.view, viewMany, Value.finish, Value.finishAll]
    exact (ValueType.lt_finish what hs.2 (hvs v List.mem_cons_self) off).trans_le ((Value.finishAll_extent _).le _)
  | .spanSequence _ t _, _, _, h, off => by
    obtain ⟨vs,rfl,_⟩ := h
    exact (lt_alignUp_add (by decide) 4 off).trans_le ((Value.finishAll_extent _).le _)
  | .boolVector _ _, _, _, h, off => by
    obtain ⟨bits,rfl⟩ := h
    exact (lt_alignUp_add (by decide) 4 off).trans_le ((Value.finishAll_extent _).le _)

theorem Members.lt_finish (what : SampleOrKey) (all : Bool) : ∀ {ms : Members}, ms.Solid → ∀ {vs : List Value},
    ms.Have vs → (all = true ∧ ms ≠ .nil) ∨ ms.hasKeys = true → ∀ off,
      off < Value.finishAll (ms.view whole what all vs off) off
  | .nil, _, _, _, h, _ => by
    rcases h with h | h
    · exact absurd rfl h.2
    · cases h
  | .cons _ isKey t ms, hs, _, hv, h, off => by
    obtain ⟨v,vs,rfl,hv,hvs⟩ := hv
    rw [Members.view]
    cases hchosen : all || isKey with
    | true =>
      rw [if_pos rfl, Value.finishAll]
      exact (ValueType.lt_finish what hs.1 hv off).trans_le ((Value.finishAll_extent _).le _)
    | false =>
      rw [if_neg Bool.false_ne_true]
      obtain ⟨rfl,rfl⟩ := Bool.or_eq_false_iff.mp hchosen
      refine Members.lt_finish what false hs.2 hvs (.inr ?_) off
      rcases h with h | h
      · cases h.1
      · exact h
end

mutual
/-- If the key holds a string or a sequence, it may be longer than any key hash. -/
theorem ValueType.exists_beyond : ∀ {t : ValueType}, t.Solid → t.WellFormed → t.fixedKey = false → ∀ off,
    ∃ v, t.Has v ∧ v.Fits ∧ off + 17 ≤ (t.view whole .key v off).finish off
  | .primitive _, _, _, hfix, _ => Bool.noConfusion hfix
  | .u8string _ _, _, _, _, off => by
    have hle := le_alignUp 4 off
    refine ⟨.u8string (List.replicate 16 0),⟨_,rfl⟩,(by decide : (List.replicate 16 (0 : Byte)).length + 1 < 2 ^ 32),?_⟩
    show off + 17 ≤ alignUp 4 off + 4 + ((List.replicate 16 (0 : Byte)).length + 1)
    rw [List.length_replicate]
    omega
  | .u16string _ _, _, _, _, off => by
    have hle := le_alignUp 4 off
    refine ⟨.u16string (List.replicate 8 0),⟨_,rfl⟩,(by decide : 2 * (List.replicate 8 (0 : UInt16)).length < 2 ^ 32),?_⟩
    show off + 17 ≤ alignUp 4 off + 4 + 2 * (List.replicate 8 (0 : UInt16)).length
    rw [List.length_replicate]
    omega
  | .boolVector _ _, _, _, _, off => by
    have hle := le_alignUp 4 off
    refine ⟨.sequence ((List.replicate 13 false).map boolValue),⟨_,rfl⟩,⟨by decide,?_⟩,?_⟩
    · refine (Value.fitsAll_iff _).mpr fun v hv => ?_
      obtain ⟨_,_,rfl⟩ := List.mem_map.mp hv
      exact True.intro
    · show off + 17 ≤ Value.finishAll ((List.replicate 13 false).map boolValue) (alignUp 4 off + 4)
      rw [finishAll_boolValue, List.length_replicate]
      omega
  | .spanSequence _ t _, hs, hw, _, off => by
    have hle := le_alignUp 4 off
    obtain ⟨x,hx,hf⟩ := t.exists_fits hw.2.1
    have hall : ∀ v ∈ List.replicate 13 x, v = x := fun v hv => List.eq_of_mem_replicate hv
    have hlong := add_length_le_many (fun v o => t.view whole .key v o) (fun o => whole o t)
      (fun v hv off => hall v hv ▸ ValueType.lt_finish whole .key (t := t) hs hx off)
      (fun v hv off => by
        have hplain := ValueType.lt_finish whole .sample (t := t) hs hx off
        rw [ValueType.view_sample whole hx] at hplain
        exact hall v hv ▸ hplain) (alignUp 4 off + 4)
    rw [List.length_replicate] at hlong
    refine ⟨.sequence (List.replicate 13 x),⟨_,rfl,fun v hv => hall v hv ▸ hx⟩,⟨?_,?_⟩,?_⟩
    · rw [List.length_replicate]
      decide
    · exact (Value.fitsAll_iff _).mpr fun v hv => hall v hv ▸ hf
    · rw [ValueType.view, Value.finish]
      omega
  | .struct _ ms, hs, hw, hfix, off => by
    obtain ⟨vs,hvs,hf,hlong⟩ := Members.exists_beyond (allFields .key ms) hs.2 hw hfix off
    exact ⟨.struct vs,⟨vs,rfl,hvs⟩,hf,hlong⟩
  | .array t n, hs, hw, hfix, off => by
    obtain ⟨v,hv,hf,hlong⟩ := ValueType.exists_beyond (t := t) hs.2 hw.2 hfix off
    obtain ⟨x,hx,hfx⟩ := t.exists_fits hw.2
    obtain ⟨k,rfl⟩ := Nat.exists_eq_succ_of_ne_zero (Nat.pos_iff_ne_zero.mp hs.1)
    have hall : ∀ w ∈ List.replicate k x, w = x := fun w hw => List.eq_of_mem_replicate hw
    refine ⟨.array (v :: List.replicate k x),⟨_,rfl,by rw [List.length_cons, List.length_replicate],?_⟩,⟨hf,?_⟩,?_⟩
    · intro w hw
      rcases List.mem_cons.mp hw with rfl | hw
      · exact hv
      · exact hall w hw ▸ hx
    · exact (Value.fitsAll_iff _).mpr fun w hw => hall w hw ▸ hfx
    · rw [ValueType.view, viewMany, Value.finish, Value.finishAll]
      exact hlong.trans ((Value.finishAll_extent _).le _)

theorem Members.exists_beyond (all : Bool) : ∀ {ms : Members}, ms.Solid → ms.WellFormed → ms.fixedKey all = false →
    ∀ off, ∃ vs, ms.Have vs ∧ Value.FitsAll vs ∧ off + 17 ≤ Value.finishAll (ms.view whole .key all vs off) off
  | .nil, _, _, hfix, _ => Bool.noConfusion hfix
  | .cons _ isKey t ms, hs, hw, hfix, off => by
    rw [Members.fixedKey, Bool.and_eq_false_iff] at hfix
    by_cases hhead : (!(all || isKey) || t.fixedKey) = false
    · obtain ⟨hchosen,ht⟩ := Bool.or_eq_false_iff.mp hhead
      rw [Bool.not_eq_false'] at hchosen
      obtain ⟨v,hv,hf,hlong⟩ := ValueType.exists_beyond hs.1 hw.1 ht off
      obtain ⟨vs,hvs,hfs⟩ := ms.exists_fits hw.2
      refine ⟨v :: vs,⟨v,vs,rfl,hv,hvs⟩,⟨hf,hfs⟩,?_⟩
      rw [Members.view, if_pos hchosen, Value.finishAll]
      exact hlong.trans ((Value.finishAll_extent _).le _)
    · obtain ⟨v,hv,hf⟩ := t.exists_fits hw.1
      have hle := (Value.finish_extent (t.view whole .key v off)).le off
      cases hchosen : all || isKey with
      | true =>
        obtain ⟨vs,hvs,hfs,hlong⟩ := Members.exists_beyond all hs.2 hw.2 (hfix.resolve_left hhead)
          ((t.view whole .key v off).finish off)
        refine ⟨v :: vs,⟨v,vs,rfl,hv,hvs⟩,⟨hf,hfs⟩,?_⟩
        rw [Members.view, hchosen, if_pos rfl, Value.finishAll]
        omega
      | false =>
        obtain ⟨vs,hvs,hfs,hlong⟩ := Members.exists_beyond all hs.2 hw.2 (hfix.resolve_left hhead) off
        refine ⟨v :: vs,⟨v,vs,rfl,hv,hvs⟩,⟨hf,hfs⟩,?_⟩
        rw [Members.view, hchosen, if_neg Bool.false_ne_true]
        exact hlong
end

end
end RmwCyclonedds
