import Mathlib.Order.Bounds.Defs
import RmwCyclonedds.Serialization.FixedKey
import RmwCyclonedds.Serialization.SerializedSize
import RmwCyclonedds.TypeSupport.SameIdl

/-! The longest key that the values of a type have, and that it does not depend on the typesupport. -/
namespace RmwCyclonedds
open Library

mutual
/-- A value in which every string and sequence is as long as its type allows. -/
def ValueType.fullest : ValueType → Value
  | .primitive k => .primitive k.width 0
  | .u8string _ b => .u8string (List.replicate b 0)
  | .u16string _ b => .u16string (List.replicate b 0)
  | .struct _ ms => .struct ms.fullest
  | .array t n => .array (List.replicate n t.fullest)
  | .spanSequence _ t b => .sequence (List.replicate b t.fullest)
  | .boolVector _ b => .sequence ((List.replicate b false).map boolValue)

def Members.fullest : Members → List Value
  | .nil => []
  | .cons _ _ t ms => t.fullest :: ms.fullest
end

mutual
theorem ValueType.fullest_has : ∀ t : ValueType, t.Has t.fullest
  | .primitive k => ⟨0,Nat.pow_pos (by decide),rfl⟩
  | .u8string _ _ => ⟨_,rfl⟩
  | .u16string _ _ => ⟨_,rfl⟩
  | .struct _ ms => ⟨_,rfl,ms.fullest_have⟩
  | .array t _ => ⟨_,rfl,List.length_replicate,fun _ hx => List.eq_of_mem_replicate hx ▸ t.fullest_has⟩
  | .spanSequence _ t _ => ⟨_,rfl,fun _ hx => List.eq_of_mem_replicate hx ▸ t.fullest_has⟩
  | .boolVector _ _ => ⟨_,rfl⟩

theorem Members.fullest_have : ∀ ms : Members, ms.Have ms.fullest
  | .nil => rfl
  | .cons _ _ t ms => ⟨_,_,rfl,t.fullest_has,ms.fullest_have⟩
end

mutual
theorem ValueType.fullest_inBounds : ∀ t : ValueType, t.InBounds t.fullest
  | .primitive _ => True.intro
  | .u8string _ _ => List.length_replicate.le
  | .u16string _ _ => List.length_replicate.le
  | .struct _ ms => ms.fullest_inBounds
  | .array t _ => fun _ hx => List.eq_of_mem_replicate hx ▸ t.fullest_inBounds
  | .spanSequence _ t _ => ⟨List.length_replicate.le,fun _ hx => List.eq_of_mem_replicate hx ▸ t.fullest_inBounds⟩
  | .boolVector _ _ => (List.length_map _).le.trans List.length_replicate.le

theorem Members.fullest_inBounds : ∀ ms : Members, ms.InBounds ms.fullest
  | .nil => True.intro
  | .cons _ _ t ms => ⟨t.fullest_inBounds,ms.fullest_inBounds⟩
end

private theorem finishAll_replicate {v : Value} {f : Nat → Nat} (h : ∀ off, v.finish off = f off) (n off : Nat) :
    Value.finishAll (List.replicate n v) off = f^[n] off := by
  induction n generalizing off with
  | zero => rfl
  | succ n ih => rw [List.replicate_succ, Value.finishAll, h, ih, Function.iterate_succ_apply]

section
variable (what : SampleOrKey)

mutual
theorem ValueType.finish_fullest : ∀ (t : ValueType) (off : Nat),
    (t.project what t.fullest).finish off = t.extent 0 what .max off
  | .primitive _, _ => rfl
  | .u8string _ b, off => by
    show alignUp 4 off + 4 + ((List.replicate b (0 : Byte)).length + 1) = alignUp 4 off + 4 + (b + 1)
    rw [List.length_replicate]
  | .u16string _ b, off => by
    show alignUp 4 off + 4 + 2 * (List.replicate b (0 : UInt16)).length = alignUp 4 off + 4 + 2 * b
    rw [List.length_replicate]
  | .struct _ ms, off => Members.finish_fullest (allFields what ms) ms off
  | .array t n, off => by
    obtain ⟨k,ht⟩ := t.extent_extent 0 what .max
    rw [ValueType.fullest, ValueType.project, List.map_replicate, ValueType.extent, manyExtent_zero ht]
    exact finishAll_replicate (ValueType.finish_fullest t) n off
  | .spanSequence _ t b, off => by
    obtain ⟨k,ht⟩ := t.extent_extent 0 what .max
    rw [ValueType.fullest, ValueType.project, List.map_replicate, ValueType.extent, manyExtent_zero ht]
    exact finishAll_replicate (ValueType.finish_fullest t) b _
  | .boolVector _ b, off => by
    show Value.finishAll ((List.replicate b false).map boolValue) (alignUp 4 off + 4) = alignUp 4 off + 4 + b
    rw [finishAll_boolValue, List.length_replicate]

theorem Members.finish_fullest (all : Bool) : ∀ (ms : Members) (off : Nat),
    Value.finishAll (ms.project what all ms.fullest) off = ms.extent 0 what .max all off
  | .nil, _ => rfl
  | .cons _ isKey t ms, off => by
    rw [Members.fullest, Members.project, Members.extent]
    split
    · rw [Value.finishAll, ValueType.finish_fullest t, Members.finish_fullest all ms]
    · exact Members.finish_fullest all ms off
end

end

namespace StructValueType
variable (root : StructValueType)

/-- The key members of a value in big-endian order. -/
def keyBody (v : Value) : List Byte := (root.toValueType.project .key v).encode .big 0

def longestKey : Nat := root.toValueType.extent 0 .key .max 0

theorem keyBody_length (v : Value) : (root.keyBody v).length = (root.toValueType.project .key v).finish 0 := by
  have hlen := Value.encode_length .big (root.toValueType.project .key v) 0
  rwa [Nat.zero_add] at hlen

theorem longestKey_isGreatest : IsGreatest
    {n | ∃ v, root.toValueType.Has v ∧ root.toValueType.InBounds v ∧ (root.keyBody v).length = n} root.longestKey := by
  constructor
  · refine ⟨root.toValueType.fullest,root.toValueType.fullest_has,root.toValueType.fullest_inBounds,?_⟩
    rw [keyBody_length, longestKey]
    exact ValueType.finish_fullest .key root.toValueType 0
  · rintro n ⟨v,hv,hb,rfl⟩
    have hle := ValueType.finish_le_max .key hv hb 0
    rw [ValueType.view_never .key hv] at hle
    rwa [keyBody_length]

end StructValueType

/-! ### The typesupports agree -/

theorem MessageMember.SameIdl.sequenceBound_eq {member member' : MessageMember} (h : member.SameIdl member') :
    member'.sequenceBound = member.sequenceBound := by
  rw [h]
  rfl

private theorem iterate_byte (n off : Nat) : (fun o => alignUp 1 o + 1)^[n] off = off + n := by
  induction n generalizing off with
  | zero => rfl
  | succ n ih =>
    rw [Function.iterate_succ_apply, ih, alignUp, padding_one]
    omega

section
variable (o o' : ObjectLayout) (what : SampleOrKey)

/-- A vector of bits is as long as a sequence of booleans. -/
private theorem sequence_extent {member : MessageMember} (member' : MessageMember) {type type' : MemberType}
    (h : type.SameIdl type') {t t' : ValueType} (ht : elementValueType (rosidlC o) type = .ok t)
    (hext : ∀ off, t.extent 0 what .max off = t'.extent 0 what .max off) (b off : Nat) :
    ((rosidlC o).sequenceValueType member type t b).extent 0 what .max off =
      ((rosidlCpp o').sequenceValueType member' type' t' b).extent 0 what .max off := by
  obtain ⟨kind,hkind,⟨size,hcpp,rfl⟩ | ⟨kind',hcpp⟩⟩ := sequence_cases o o' member member' h ht t' b b
  · rw [hkind, hcpp, ValueType.extent]
    exact (manyExtent_zero ((Extent.align 0).comp (Extent.add 1)) b _).trans (iterate_byte b _)
  · rw [hkind, hcpp]
    have hfun : (fun off => t.extent 0 what .max off) = fun off => t'.extent 0 what .max off := funext hext
    rw [ValueType.extent, ValueType.extent, hfun]

mutual
private theorem valueMembers_extent : ∀ {members members' : MemberArray}, members.SameIdl members' → ∀ {ms ms' : Members},
    valueMembers (rosidlC o) members = .ok ms → valueMembers (rosidlCpp o') members' = .ok ms' →
      ms.hasKeys = ms'.hasKeys ∧ ∀ all off, ms.extent 0 what .max all off = ms'.extent 0 what .max all off
  | .nil, .nil, _, _, _, h, h' => by
    cases h
    cases h'
    exact ⟨rfl,fun _ _ => rfl⟩
  | .cons member type rest, .cons member' type' rest', hs, _, _, h, h' => by
    obtain ⟨element,t,ms,helement,ht,hms,rfl⟩ := valueMembers_cons h
    obtain ⟨element',t',ms',helement',ht',hms',rfl⟩ := valueMembers_cons h'
    have hone := elementValueType_extent hs.2.1 helement helement'
    obtain ⟨hkeys,hrest⟩ := valueMembers_extent hs.2.2 hms hms'
    have harr := hs.1.isArray_eq
    have hfix := hs.1.isFixed_eq
    have hmember : ∀ off, t.extent 0 what .max off = t'.extent 0 what .max off := by
      intro off
      rcases memberValueType_cases ht with ⟨ha,rfl⟩ | ⟨ha,hf,rfl⟩ | ⟨ha,hf,_,rfl⟩ <;>
        rcases memberValueType_cases ht' with ⟨ha',rfl⟩ | ⟨ha',hf',rfl⟩ | ⟨ha',hf',_,rfl⟩
      · exact hone off
      · simp [harr, ha] at ha'
      · simp [harr, ha] at ha'
      · simp [harr, ha] at ha'
      · have hfun : (fun off => element.extent 0 what .max off) = fun off => element'.extent 0 what .max off := funext hone
        rw [ValueType.extent, ValueType.extent, hfun, hs.1.arraySize_eq]
      · simp [hfix, hf] at hf'
      · simp [harr, ha] at ha'
      · simp [hfix, hf] at hf'
      · rw [hs.1.sequenceBound_eq]
        exact sequence_extent o o' what member' hs.2.1 helement hone _ off
    refine ⟨?_,fun all off => ?_⟩
    · rw [Members.hasKeys, Members.hasKeys, hs.1.isKey_eq, hkeys]
    · rw [Members.extent, Members.extent, hs.1.isKey_eq, hmember, hrest]

private theorem elementValueType_extent : ∀ {type type' : MemberType}, type.SameIdl type' → ∀ {t t' : ValueType},
    elementValueType (rosidlC o) type = .ok t → elementValueType (rosidlCpp o') type' = .ok t' →
      ∀ off, t.extent 0 what .max off = t'.extent 0 what .max off
  | .primitive k, .primitive k', hs, _, _, h, h', off => by
    cases hs
    cases h
    cases h'
    rfl
  | .string, .string, _, _, _, h, h', off => by
    cases h
    cases h'
    rfl
  | .wstring, .wstring, _, _, _, h, h', off => by
    cases h
    cases h'
    rfl
  | .message (.mk _ _ s ms), .message (.mk _ _ s' ms'), hs, _, _, h, h', off => by
    rw [elementValueType] at h h'
    obtain ⟨members,hmembers,h⟩ := Outcome.bind_eq_ok h
    obtain ⟨members',hmembers',h'⟩ := Outcome.bind_eq_ok h'
    cases h
    cases h'
    obtain ⟨hkeys,hext⟩ := @valueMembers_extent ms ms' hs members members' hmembers hmembers'
    rw [ValueType.extent, ValueType.extent, hext, allFields, allFields, hkeys]
end

end

/-- The C and the C++ value types of one message. -/
def StructValueType.OneIdl (root root' : StructValueType) : Prop := ∃ (o o' : ObjectLayout) (c cpp : MessageMembers),
  c.members.SameIdl cpp.members ∧ rosidlcStructValueType o c = .ok root ∧ rosidlcppStructValueType o' cpp = .ok root'

namespace StructValueType.OneIdl
variable {root root' : StructValueType}

theorem hasKeys_eq (h : root.OneIdl root') : root.hasKeys = root'.hasKeys := by
  obtain ⟨o,o',c,cpp,same,hc,hcpp⟩ := h
  exact (valueMembers_extent o o' .key same (structValueType_ok hc).2 (structValueType_ok hcpp).2).1

theorem longestKey_eq (h : root.OneIdl root') : root.longestKey = root'.longestKey := by
  have hkeys : root.members.hasKeys = root'.members.hasKeys := h.hasKeys_eq
  obtain ⟨o,o',c,cpp,same,hc,hcpp⟩ := h
  obtain ⟨_,hext⟩ := valueMembers_extent o o' .key same (structValueType_ok hc).2 (structValueType_ok hcpp).2
  rw [longestKey, longestKey, ValueType.extent, ValueType.extent, hext, allFields, allFields, hkeys]

end StructValueType.OneIdl

/-! ### Types whose values take room -/

section
variable (what : SampleOrKey) (mm : MinOrMax)

/-- Every element takes room, its shortest value as well. -/
theorem ValueType.lt_extent (surplus : Nat) {t : ValueType} (hs : t.Solid) (off : Nat) :
    off < t.extent surplus what mm off := by
  cases mm with
  | max =>
    calc
      off < (t.view neverWhole what t.fullest off).finish off := ValueType.lt_finish neverWhole what hs t.fullest_has off
      _ ≤ t.extent 0 what .max off := ValueType.finish_le_max what t.fullest_has t.fullest_inBounds off
      _ ≤ t.extent surplus what .max off := t.extent_le_surplus surplus what .max off
  | min =>
    have hempty := Memory.empty.value_has .little t Memory.base
    calc
      off < (t.view neverWhole what (Memory.empty.value .little t Memory.base) off).finish off :=
        ValueType.lt_finish neverWhole what hs hempty off
      _ = t.extent 0 what .min off := ValueType.finish_empty .little what t Memory.base off
      _ ≤ t.extent surplus what .min off := t.extent_le_surplus surplus what .min off

mutual
theorem ValueType.roomy_of_solid : ∀ {t : ValueType}, t.Solid → t.Roomy what mm
  | .primitive _, _ => True.intro
  | .u8string _ _, _ => True.intro
  | .u16string _ _, _ => True.intro
  | .struct _ ms, hs => Members.roomy_of_solid (allFields what ms) hs.2
  | .array _ _, hs => ⟨fun _ => ValueType.roomy_of_solid hs.2,fun _ => ValueType.lt_extent what mm 2 hs.2 _⟩
  | .spanSequence _ t _, hs =>
    have ht : t.Solid := hs
    ⟨fun _ => ValueType.roomy_of_solid ht,fun _ => ValueType.lt_extent what mm 2 ht _⟩
  | .boolVector _ _, _ => True.intro

theorem Members.roomy_of_solid (all : Bool) : ∀ {ms : Members}, ms.Solid → ms.Roomy what mm all
  | .nil, _ => True.intro
  | .cons _ _ _ _, hs => ⟨fun _ => ValueType.roomy_of_solid hs.1,Members.roomy_of_solid all hs.2⟩
end

end

end RmwCyclonedds
