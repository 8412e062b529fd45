import RmwCyclonedds.Library.Traced
import RmwCyclonedds.Serialization.SerializedSize

/-! The largest size of a type: the arithmetic on the way to it, and the samples below it. -/
namespace RmwCyclonedds
open Library

/-- An addition or multiplication: the width it is done in, and its exact result. -/
structure Arithmetic where
  bits : Nat
  exact : Nat
  deriving DecidableEq, Repr

def Arithmetic.Fits (op : Arithmetic) : Prop := op.exact < 2 ^ op.bits

abbrev Walk := Traced Arithmetic Stop

namespace CheckingSizeCursor

def advanceNoted (c : CheckingSizeCursor) (nBytes : Nat) : Walk CheckingSizeCursor := do
  let dst ← Traced.quiet (c.advance nBytes)
  Traced.note ⟨64,c.offset + nBytes⟩
  return dst

def putBytesNoted (c : CheckingSizeCursor) (nBytes : Nat) : Walk CheckingSizeCursor := c.advanceNoted nBytes

def alignNoted (c : CheckingSizeCursor) (nBytes : Nat) : Walk CheckingSizeCursor :=
  if nBytes = 1 ∨ c.offset % nBytes = 0 then return c else c.advanceNoted (nBytes - c.offset % nBytes)

def rebaseNoted (c : CheckingSizeCursor) (relativeOrigin : Int) : Walk CheckingSizeCursor := do
  Traced.note ⟨64,(c.rebase relativeOrigin).offset⟩
  return c.rebase relativeOrigin

def serializeU32Noted (dst : CheckingSizeCursor) : Walk CheckingSizeCursor := do
  (← dst.alignNoted 4).putBytesNoted 4

end CheckingSizeCursor

/-! ### The walk with its arithmetic -/

def serializeSizeBoundManyNoted (bound : CheckingSizeCursor → Walk (CheckingSizeCursor × Bool)) (count : Nat)
    (dst : CheckingSizeCursor) : Walk (CheckingSizeCursor × Bool) := do
  if count = 0 then return (dst,true)
  if count ≥ uint32Max then return (dst,false)
  let (dst,ok) ← bound dst
  if !ok then return (dst,false)
  if count > 1 then
    let offset := dst.offset
    let (dst,ok) ← bound dst
    if !ok then return (dst,false)
    let eltSize := dst.offset - offset
    if eltSize = 0 then Traced.quiet (throw .undefined)
    if count > sizeMax / eltSize then return (dst,false)
    Traced.note ⟨64,count * eltSize⟩
    return (← dst.putBytesNoted (count * eltSize),true)
  return (dst,true)

section
variable (what : SampleOrKey) (mm : MinOrMax)

mutual
def serializeSizeBoundNoted : ValueType → CheckingSizeCursor → Walk (CheckingSizeCursor × Bool)
  | .primitive k, dst => do
    return (← (← dst.alignNoted k.cdralignofType).putBytesNoted k.cdrsizeofType,true)
  | .u8string _ b, dst => do
    return (← (← (← dst.serializeU32Noted).putBytesNoted (mm.count b)).putBytesNoted 1,true)
  | .u16string _ b, dst => do
    let dst ← dst.serializeU32Noted
    Traced.note ⟨32,2 * mm.count b⟩
    return (← dst.putBytesNoted (2 * mm.count b % 2 ^ 32),true)
  | .struct _ ms, dst => serializeSizeBoundMembersNoted (allFields what ms) ms dst
  | .array t n, dst => serializeSizeBoundManyNoted (fun dst => serializeSizeBoundNoted t dst) n dst
  | .spanSequence _ t b, dst => do
    serializeSizeBoundManyNoted (fun dst => serializeSizeBoundNoted t dst) (mm.count b) (← dst.serializeU32Noted)
  | .boolVector _ b, dst => do
    return (← (← dst.serializeU32Noted).putBytesNoted (mm.count b),true)

def serializeSizeBoundMembersNoted (all : Bool) : Members → CheckingSizeCursor → Walk (CheckingSizeCursor × Bool)
  | .nil, dst => return (dst,true)
  | .cons _ isKey t ms, dst => do
    if all || isKey then
      let (dst,ok) ← serializeSizeBoundNoted t dst
      if !ok then return (dst,false)
      serializeSizeBoundMembersNoted all ms dst
    else serializeSizeBoundMembersNoted all ms dst
end

end

def serializeSizeBoundTopLevelNoted (root : StructValueType) (variant : SampleOrRequest) (what : SampleOrKey)
    (mm : MinOrMax) (dst : CheckingSizeCursor) : Walk (CheckingSizeCursor × Bool) := do
  let dst ← dst.putBytesNoted 4
  let dst ← dst.rebaseNoted 4
  let dst ← (if what = .sample ∧ variant = .request then do (← dst.putBytesNoted 8).putBytesNoted 8 else pure dst)
  let (dst,fixed) ← (if what = .sample ∨ root.hasKeys then serializeSizeBoundNoted what mm root.toValueType dst
    else pure (dst,true))
  return (← dst.rebaseNoted (-4),fixed)

/-- Every addition and multiplication that is done for a bound. -/
def boundArithmetic (root : StructValueType) (variant : SampleOrRequest) (what : SampleOrKey) (mm : MinOrMax) :
    List Arithmetic := (serializeSizeBoundTopLevelNoted root variant what mm ⟨0⟩).events

/-! ### The arithmetic is that of the walk -/

namespace CheckingSizeCursor

@[simp] theorem advanceNoted_result (c : CheckingSizeCursor) (n : Nat) : (c.advanceNoted n).result = c.advance n := by
  simp only [advanceNoted, Traced.result_bind, Traced.result_quiet]
  cases c.advance n <;> rfl

@[simp] theorem putBytesNoted_result (c : CheckingSizeCursor) (n : Nat) : (c.putBytesNoted n).result = c.putBytes n :=
  advanceNoted_result c n

@[simp] theorem alignNoted_result (c : CheckingSizeCursor) (n : Nat) : (c.alignNoted n).result = c.align n := by
  simp only [alignNoted, align, Traced.result_ite, Traced.result_pure, advanceNoted_result]

@[simp] theorem rebaseNoted_result (c : CheckingSizeCursor) (relativeOrigin : Int) :
    (c.rebaseNoted relativeOrigin).result = .ok (c.rebase relativeOrigin) := rfl

@[simp] theorem serializeU32Noted_result (c : CheckingSizeCursor) : c.serializeU32Noted.result = c.serializeU32 := by
  simp only [serializeU32Noted, serializeU32, Traced.result_bind, alignNoted_result, putBytesNoted_result]

end CheckingSizeCursor

private theorem serializeSizeBoundManyNoted_result {noted : CheckingSizeCursor → Walk (CheckingSizeCursor × Bool)}
    {bound : CheckingSizeCursor → Outcome (CheckingSizeCursor × Bool)} (h : ∀ c, (noted c).result = bound c) (count : Nat)
    (dst : CheckingSizeCursor) :
    (serializeSizeBoundManyNoted noted count dst).result = serializeSizeBoundMany bound count dst := by
  unfold serializeSizeBoundManyNoted serializeSizeBoundMany
  simp only [Traced.result_ite, Traced.result_pure, Traced.result_bind, Traced.result_quiet, Traced.result_note, h,
    CheckingSizeCursor.putBytesNoted_result]
  rfl

section
variable (what : SampleOrKey) (mm : MinOrMax)

mutual
theorem serializeSizeBoundNoted_result : ∀ (t : ValueType) (dst : CheckingSizeCursor),
    (serializeSizeBoundNoted what mm t dst).result = serializeSizeBound what mm t dst
  | .primitive k, dst => by
    simp [serializeSizeBoundNoted, serializeSizeBound]
    rfl
  | .u8string _ b, dst => by
    simp [serializeSizeBoundNoted, serializeSizeBound]
    rfl
  | .u16string _ b, dst => by
    simp [serializeSizeBoundNoted, serializeSizeBound]
    rfl
  | .struct _ ms, dst => serializeSizeBoundMembersNoted_result (allFields what ms) ms dst
  | .array t n, dst => serializeSizeBoundManyNoted_result (serializeSizeBoundNoted_result t) n dst
  | .spanSequence _ t b, dst => by
    simp only [serializeSizeBoundNoted, serializeSizeBound, Traced.result_bind, CheckingSizeCursor.serializeU32Noted_result,
      serializeSizeBoundManyNoted_result (serializeSizeBoundNoted_result t)]
  | .boolVector _ b, dst => by
    simp [serializeSizeBoundNoted, serializeSizeBound]
    rfl

theorem serializeSizeBoundMembersNoted_result (all : Bool) : ∀ (ms : Members) (dst : CheckingSizeCursor),
    (serializeSizeBoundMembersNoted what mm all ms dst).result = serializeSizeBoundMembers what mm all ms dst
  | .nil, dst => rfl
  | .cons _ isKey t ms, dst => by
    simp only [serializeSizeBoundMembersNoted, serializeSizeBoundMembers, Traced.result_ite, Traced.result_bind,
      serializeSizeBoundNoted_result t, serializeSizeBoundMembersNoted_result all ms, Traced.result_pure]
    rfl
end

end

theorem serializeSizeBoundTopLevelNoted_result (root : StructValueType) (variant : SampleOrRequest) (what : SampleOrKey)
    (mm : MinOrMax) (dst : CheckingSizeCursor) : (serializeSizeBoundTopLevelNoted root variant what mm dst).result =
      serializeSizeBoundTopLevel root variant what mm dst := by
  simp [serializeSizeBoundTopLevelNoted, serializeSizeBoundTopLevel, serializeSizeBoundNoted_result]
  rfl

/-! ### No overflow -/

open Traced

private theorem fits_sizeT {n : Nat} (h : n ≤ sizeMax) : Arithmetic.Fits ⟨64,n⟩ :=
  Nat.lt_of_le_of_lt h (show sizeMax < 2 ^ 64 by decide)

namespace CheckingSizeCursor
variable {c : CheckingSizeCursor}

theorem advanceNoted_fits (hc : c.offset ≤ uint32Max) (n : Nat) : Along Arithmetic.Fits (c.advanceNoted n) := by
  refine Along.bind (Along.quiet _) fun d hd => ?_
  have hle := advance_le hc hd
  rw [advance_offset hd] at hle
  have hfits := fits_sizeT (hle.trans (show uint32Max ≤ sizeMax by decide))
  exact Along.bind (Along.note hfits) fun _ _ => Along.pure _

theorem alignNoted_fits (hc : c.offset ≤ uint32Max) (n : Nat) : Along Arithmetic.Fits (c.alignNoted n) :=
  Along.ite (fun _ => Along.pure _) fun _ => advanceNoted_fits hc _

theorem serializeU32Noted_fits (hc : c.offset ≤ uint32Max) : Along Arithmetic.Fits c.serializeU32Noted := by
  refine Along.bind (alignNoted_fits hc 4) fun d hd => ?_
  rw [alignNoted_result] at hd
  exact advanceNoted_fits (align_le hc hd) 4

end CheckingSizeCursor

open CheckingSizeCursor

private theorem serializeSizeBoundManyNoted_fits {bound : CheckingSizeCursor → Walk (CheckingSizeCursor × Bool)}
    (hb : ∀ {c : CheckingSizeCursor}, c.offset ≤ uint32Max → Along Arithmetic.Fits (bound c) ∧
      ∀ c' ok, (bound c).result = .ok (c',ok) → c'.offset ≤ uint32Max)
    (n : Nat) {c : CheckingSizeCursor} (hc : c.offset ≤ uint32Max) :
    Along Arithmetic.Fits (serializeSizeBoundManyNoted bound n c) := by
  refine Along.ite (fun _ => Along.pure _) fun _ => ?_
  refine Along.ite (fun _ => Along.pure _) fun _ => ?_
  refine Along.bind (hb hc).1 fun ⟨d,ok⟩ hd => ?_
  have hdle := (hb hc).2 d ok hd
  refine Along.ite (fun _ => Along.pure _) fun _ => ?_
  refine Along.ite (fun _ => ?_) fun _ => Along.pure _
  refine Along.bind (hb hdle).1 fun ⟨d',ok'⟩ hd' => ?_
  have hdle' := (hb hdle).2 d' ok' hd'
  refine Along.ite (fun _ => Along.pure _) fun _ => ?_
  refine Along.ite (fun _ => ?_) fun hne => ?_
  · exact Along.bind (Along.quiet _) fun _ h => by cases h
  · refine Along.ite (fun _ => Along.pure _) fun hcount => ?_
    -- the multiplication has been checked against SIZE_MAX
    have hfits := fits_sizeT (Nat.mul_le_of_le_div _ _ _ (Nat.not_lt.mp hcount))
    refine Along.bind (Along.note hfits) fun _ _ => ?_
    exact Along.bind (advanceNoted_fits hdle' _) fun _ _ => Along.pure _

section
variable (what : SampleOrKey) (mm : MinOrMax)

mutual
theorem serializeSizeBoundNoted_fits : ∀ {t : ValueType}, t.WellFormed → ∀ {c : CheckingSizeCursor},
    c.offset ≤ uint32Max → Along Arithmetic.Fits (serializeSizeBoundNoted what mm t c)
  | .primitive k, _, c, hc => by
    refine Along.bind (alignNoted_fits hc _) fun d hd => ?_
    rw [alignNoted_result] at hd
    exact Along.bind (advanceNoted_fits (align_le hc hd) _) fun _ _ => Along.pure _
  | .u8string _ b, _, c, hc => by
    refine Along.bind (serializeU32Noted_fits hc) fun d hd => ?_
    rw [serializeU32Noted_result] at hd
    have hdle := serializeU32_le hc hd
    refine Along.bind (advanceNoted_fits hdle _) fun d' hd' => ?_
    rw [putBytesNoted_result] at hd'
    exact Along.bind (advanceNoted_fits (advance_le hdle hd') _) fun _ _ => Along.pure _
  | .u16string _ b, hw, c, hc => by
    refine Along.bind (serializeU32Noted_fits hc) fun d hd => ?_
    rw [serializeU32Noted_result] at hd
    have hfits : Arithmetic.Fits ⟨32,2 * mm.count b⟩ := by
      unfold ValueType.WellFormed uint32Max at hw
      unfold MinOrMax.count Arithmetic.Fits
      dsimp only
      split <;> omega
    refine Along.bind (Along.note hfits) fun _ _ => ?_
    exact Along.bind (advanceNoted_fits (serializeU32_le hc hd) _) fun _ _ => Along.pure _
  | .struct _ ms, hw, c, hc => serializeSizeBoundMembersNoted_fits hw hc
  | .array t n, hw, c, hc => by
    refine serializeSizeBoundManyNoted_fits (fun hc => ⟨serializeSizeBoundNoted_fits hw.2 hc,?_⟩) n hc
    intro c' ok h
    rw [serializeSizeBoundNoted_result] at h
    exact serializeSizeBound_le what mm hc h
  | .spanSequence _ t b, hw, c, hc => by
    refine Along.bind (serializeU32Noted_fits hc) fun d hd => ?_
    rw [serializeU32Noted_result] at hd
    refine serializeSizeBoundManyNoted_fits (fun hc => ⟨serializeSizeBoundNoted_fits hw.2.1 hc,?_⟩) _ (serializeU32_le hc hd)
    intro c' ok h
    rw [serializeSizeBoundNoted_result] at h
    exact serializeSizeBound_le what mm hc h
  | .boolVector _ b, _, c, hc => by
    refine Along.bind (serializeU32Noted_fits hc) fun d hd => ?_
    rw [serializeU32Noted_result] at hd
    exact Along.bind (advanceNoted_fits (serializeU32_le hc hd) _) fun _ _ => Along.pure _

theorem serializeSizeBoundMembersNoted_fits {all : Bool} : ∀ {ms : Members}, ms.WellFormed → ∀ {c : CheckingSizeCursor},
    c.offset ≤ uint32Max → Along Arithmetic.Fits (serializeSizeBoundMembersNoted what mm all ms c)
  | .nil, _, c, hc => Along.pure _
  | .cons _ isKey t ms, hw, c, hc => by
    refine Along.ite (fun _ => ?_) fun _ => serializeSizeBoundMembersNoted_fits hw.2 hc
    refine Along.bind (serializeSizeBoundNoted_fits hw.1 hc) fun ⟨d,ok⟩ hd => ?_
    rw [serializeSizeBoundNoted_result] at hd
    exact Along.ite (fun _ => Along.pure _) fun _ =>
      serializeSizeBoundMembersNoted_fits hw.2 (serializeSizeBound_le what mm hc hd)
end

end

private theorem rebaseNoted_fits {c : CheckingSizeCursor} {relativeOrigin : Int}
    (h : (c.rebase relativeOrigin).offset ≤ sizeMax) : Along Arithmetic.Fits (c.rebaseNoted relativeOrigin) :=
  Along.bind (Along.note (fits_sizeT h)) fun _ _ => Along.pure _

theorem boundArithmetic_fits (root : StructValueType) (variant : SampleOrRequest) (what : SampleOrKey) (mm : MinOrMax) :
    ∀ op ∈ boundArithmetic root variant what mm, op.Fits := by
  have hmax : uint32Max ≤ sizeMax := by decide
  have hstart : (⟨0⟩ : CheckingSizeCursor).offset ≤ uint32Max := Nat.zero_le _
  refine Along.bind (advanceNoted_fits hstart 4) fun d hd => ?_
  obtain rfl : d = ⟨4⟩ := by
    cases hd
    rfl
  refine Along.bind (rebaseNoted_fits (Nat.zero_le _)) fun d hd => ?_
  obtain rfl : d = ⟨0⟩ := by
    cases hd
    rfl
  have hheader : (⟨8⟩ : CheckingSizeCursor).offset ≤ uint32Max := by decide
  refine Along.bind (Along.ite (fun _ => ?_) fun _ => Along.pure _) fun d hd => ?_
  · refine Along.bind (advanceNoted_fits hstart 8) fun d hd => ?_
    obtain rfl : d = ⟨8⟩ := by
      cases hd
      rfl
    exact advanceNoted_fits hheader 8
  have hle : d.offset ≤ uint32Max := by
    split at hd
    · cases hd
      show 16 ≤ uint32Max
      decide
    · cases hd
      exact hstart
  have hwalk := serializeSizeBoundNoted_fits what mm (t := root.toValueType) root.wellFormed hle
  refine Along.bind (Along.ite (fun _ => hwalk) fun _ => Along.pure _)
    fun ⟨e,fixed⟩ he => ?_
  have hend : e.offset ≤ uint32Max := by
    split at he
    · rw [serializeSizeBoundNoted_result] at he
      exact serializeSizeBound_le what mm hle he
    · cases he
      exact hle
  have hrebase : (e.rebase (-4)).offset ≤ sizeMax := by
    rw [CheckingSizeCursor.rebase_offset]
    unfold uint32Max at hend
    unfold sizeMax
    omega
  exact Along.bind (rebaseNoted_fits hrebase) fun _ _ => Along.pure _

/-! ### Samples below the bound -/

mutual
/-- No sequence is longer than the bound its type stores. The bounds of strings are those of the type that stores
them, unless it stores the largest one for any string. -/
def ValueType.SequencesInBounds : ValueType → Value → Prop
  | .u8string _ b, .u8string cs => b = uint32Max - 1 ∨ cs.length ≤ b
  | .u16string _ b, .u16string us => b = uint32Max / 2 ∨ us.length ≤ b
  | .struct _ ms, .struct vs => ms.SequencesInBounds vs
  | .array t _, .array vs => ∀ x ∈ vs, t.SequencesInBounds x
  | .spanSequence _ t b, .sequence vs => vs.length ≤ b ∧ ∀ x ∈ vs, t.SequencesInBounds x
  | .boolVector _ b, .sequence vs => vs.length ≤ b
  | _, _ => True

def Members.SequencesInBounds : Members → List Value → Prop
  | .cons _ _ t ms, v :: vs => t.SequencesInBounds v ∧ ms.SequencesInBounds vs
  | _, _ => True
end

private theorem CheckingSizeCursor.advance_room {c c' : CheckingSizeCursor} {n : Nat} (h : c.advance n = .ok c') :
    n ≤ uint32Max - c.offset := by
  unfold CheckingSizeCursor.advance at h
  split at h
  · cases h
  · omega

/-- What is counted fits behind its length. -/
private theorem counted_room {α : Type} {c : CheckingSizeCursor} {n : Nat} {rest : CheckingSizeCursor → Outcome α} {a : α}
    (h : (do rest (← (← c.serializeU32).putBytes n)) = .ok a) : n ≤ uint32Max - 4 := by
  obtain ⟨d,hd,h⟩ := Outcome.bind_eq_ok h
  obtain ⟨d',hd',_⟩ := Outcome.bind_eq_ok h
  have hoff := CheckingSizeCursor.serializeU32_offset hd
  have hle := CheckingSizeCursor.advance_room hd'
  omega

/-- Elements that are measured have a bound. -/
private theorem serializeSizeBoundMany_measures {bound : CheckingSizeCursor → Outcome (CheckingSizeCursor × Bool)}
    {n : Nat} {c c' : CheckingSizeCursor} (hn : n ≠ 0) (h : serializeSizeBoundMany bound n c = .ok (c',true)) :
    ∃ d, bound c = .ok (d,true) := by
  unfold serializeSizeBoundMany at h
  rw [if_neg hn] at h
  split at h
  · cases h
  · obtain ⟨⟨d,ok⟩,hd,h⟩ := Outcome.bind_eq_ok h
    cases ok with
    | false => cases h
    | true => exact ⟨d,hd⟩

mutual
/-- A type with an unbounded string has no largest size; where the walk ends, sequences decide. -/
theorem ValueType.inBounds_of_bound : ∀ {t : ValueType} {v : Value}, t.Has v → t.SequencesInBounds v →
    ∀ {c c' : CheckingSizeCursor}, serializeSizeBound .sample .max t c = .ok (c',true) → t.InBounds v
  | .primitive _, _, h, _, _, _, _ => by
    obtain ⟨_,_,rfl⟩ := h
    exact True.intro
  | .u8string _ b, _, h, hb, c, c', hw => by
    obtain ⟨cs,rfl⟩ := h
    rcases hb with hb | hb
    · rw [serializeSizeBound] at hw
      have hroom := counted_room hw
      simp only [MinOrMax.count, reduceCtorEq, if_false] at hroom
      unfold uint32Max at hb hroom
      omega
    · exact hb
  | .u16string _ b, _, h, hb, c, c', hw => by
    obtain ⟨us,rfl⟩ := h
    rcases hb with hb | hb
    · rw [serializeSizeBound] at hw
      have hroom := counted_room hw
      simp only [MinOrMax.count, reduceCtorEq, if_false] at hroom
      unfold uint32Max at hb hroom
      omega
    · exact hb
  | .struct _ ms, _, h, hb, _, _, hw => by
    obtain ⟨vs,rfl,hvs⟩ := h
    exact Members.inBounds_of_bound hvs hb hw
  | .array t n, _, h, hb, _, _, hw => by
    obtain ⟨vs,rfl,rfl,hvs⟩ := h
    rw [serializeSizeBound] at hw
    intro x hx
    obtain ⟨d,hd⟩ := serializeSizeBoundMany_measures (List.length_pos_of_mem hx).ne' hw
    exact ValueType.inBounds_of_bound (hvs x hx) (hb x hx) hd
  | .spanSequence _ t b, _, h, hb, _, _, hw => by
    obtain ⟨vs,rfl,hvs⟩ := h
    rw [serializeSizeBound] at hw
    obtain ⟨e,_,hw⟩ := Outcome.bind_eq_ok hw
    refine ⟨hb.1,fun x hx => ?_⟩
    have hpos : b ≠ 0 := by
      have hmem := List.length_pos_of_mem hx
      have hlen := hb.1
      omega
    obtain ⟨d,hd⟩ := serializeSizeBoundMany_measures hpos hw
    exact ValueType.inBounds_of_bound (hvs x hx) (hb.2 x hx) hd
  | .boolVector _ b, _, h, hb, _, _, _ => by
    obtain ⟨bits,rfl⟩ := h
    exact hb

theorem Members.inBounds_of_bound : ∀ {ms : Members} {vs : List Value}, ms.Have vs → ms.SequencesInBounds vs →
    ∀ {c c' : CheckingSizeCursor}, serializeSizeBoundMembers .sample .max true ms c = .ok (c',true) → ms.InBounds vs
  | .nil, _, h, _, _, _, _ => by
    rw [h]
    exact True.intro
  | .cons _ isKey t ms, _, h, hb, _, _, hw => by
    obtain ⟨v,vs,rfl,hv,hvs⟩ := h
    rw [serializeSizeBoundMembers, Bool.true_or, if_pos rfl] at hw
    obtain ⟨⟨d,ok⟩,hd,hw⟩ := Outcome.bind_eq_ok hw
    cases ok with
    | false => cases hw
    | true => exact ⟨ValueType.inBounds_of_bound hv hb.1 hd,Members.inBounds_of_bound hvs hb.2 hw⟩
end

namespace CDRWriter
variable {host : Endian} {root : StructValueType} {variant : SampleOrRequest} (w : CDRWriter host root variant)

/-- The walk for the largest sample has come to an end, if there is a largest sample. -/
private theorem bound_walk (h : w.getMaxSerializedSize .sample ≠ sizeMax) :
    ∃ c c', serializeSizeBound .sample .max root.toValueType c = .ok (c',true) := by
  have hmax := w.maxData_eq
  unfold computeSerializedSizeBound at hmax
  split at hmax
  · next c hc =>
    obtain ⟨d,_,hc⟩ := Outcome.bind_eq_ok hc
    obtain ⟨e,_,hc⟩ := Outcome.bind_eq_ok hc
    obtain ⟨⟨f,fixed⟩,hf,hc⟩ := Outcome.bind_eq_ok hc
    cases hc
    rw [if_pos (.inl rfl)] at hf
    exact ⟨e,f,hf⟩
  · exact absurd (Except.ok.inj hmax).symm h
  · exact absurd (Except.ok.inj hmax).symm h
  · cases hmax

/-- Samples whose sequences respect their bounds are no longer than the largest size, and on the way to a bound
no addition or multiplication overflows. -/
theorem maxSerializedSize_sound :
    (∀ (m : Memory) (src : Address), root.toValueType.SequencesInBounds (sourceValue host root variant m src .sample) →
      ∃ bytes, w.serialize m src .sample = .ok bytes ∧
        (w.getMaxSerializedSize .sample = sizeMax ∨ bytes.length ≤ w.getMaxSerializedSize .sample)) ∧
    ∀ (what : SampleOrKey) (mm : MinOrMax),
      (serializeSizeBoundTopLevelNoted root variant what mm ⟨0⟩).result = serializeSizeBoundTopLevel root variant what mm ⟨0⟩ ∧
      ∀ op ∈ boundArithmetic root variant what mm, op.Fits := by
  refine ⟨fun m src hb => ⟨_,w.serialize_eq m src .sample,?_⟩,fun what mm => ?_⟩
  · by_cases hmax : w.getMaxSerializedSize .sample = sizeMax
    · exact .inl hmax
    right
    obtain ⟨c,c',hwalk⟩ := w.bound_walk hmax
    have hin := ValueType.inBounds_of_bound (m.value_has host root.toValueType _) hb hwalk
    have hlen := length_le_max host root variant m src .sample (ValueType.copyFree_sample cachedWhole _ _ _) hin
    rw [(w.max_eq .sample).resolve_left hmax, List.length_append]
    exact Nat.add_le_add_left hlen 4
  · exact ⟨serializeSizeBoundTopLevelNoted_result root variant what mm ⟨0⟩,boundArithmetic_fits root variant what mm⟩

/-- `sequence<uint32,3> codes`. -/
def codes : StructValueType where
  sizeofStruct := 24
  members := .cons 0 false (.spanSequence .callback (.primitive .uint32) 3) .nil
  wellFormed := ⟨⟨True.intro,True.intro,show 3 ≤ uint32Max by decide⟩,True.intro⟩

/-- An object with two codes. -/
def codesMemory : Memory := {Memory.empty with sequenceSize := fun _ => 2}

theorem codes_bounded : ∃ w : CDRWriter .little codes .sample, w.getMaxSerializedSize .sample = 28 ∧
    ∃ bytes, w.serialize codesMemory Memory.base .sample = .ok bytes ∧
      (w.getMaxSerializedSize .sample = sizeMax ∨ bytes.length ≤ w.getMaxSerializedSize .sample) := by
  obtain ⟨w,_,_,hmax,_⟩ := exists_of_bounds .little codes .sample rfl rfl rfl rfl
  have hb : codes.toValueType.SequencesInBounds (sourceValue .little codes .sample codesMemory Memory.base .sample) := by
    refine ⟨⟨show 2 ≤ 3 by decide,?_⟩,True.intro⟩
    intro x hx
    obtain ⟨a,rfl⟩ := Memory.strided_mem hx
    exact True.intro
  exact ⟨w,hmax,w.maxSerializedSize_sound.1 codesMemory Memory.base hb⟩

end CDRWriter
end RmwCyclonedds
