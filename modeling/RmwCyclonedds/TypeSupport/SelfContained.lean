import RmwCyclonedds.TypeSupport.Introspection

/-! Whether a message is self-contained: what the value types answer, and what the
introspection data say. -/
namespace RmwCyclonedds
open Library

/-- What the memory of `m_is_self_contained` held when the array value type at a path of
member indices was allocated. -/
abbrev Leftover := List Nat → Bool

section
variable (leftover : Leftover)

mutual
/-- The flag of an array is never assigned. -/
def ValueType.isSelfContained : ValueType → List Nat → Bool
  | .primitive _, _ => true
  | .u8string _ _, _ => false
  | .u16string _ _, _ => false
  | .struct _ ms, path => ms.areSelfContained path 0 true
  | .array _ _, path => leftover path
  | .spanSequence _ _ _, _ => false
  | .boolVector _ _, _ => false

/-- The constructor's loop over members, from member `index` on. -/
def Members.areSelfContained : Members → List Nat → Nat → Bool → Bool
  | .nil, _, _, isSelfContained => isSelfContained
  | .cons _ _ t ms, path, index, isSelfContained =>
    ms.areSelfContained path (index + 1)
      (if !t.isSelfContained (path ++ [index]) then false else isSelfContained)
end

end

def StructValueType.isSelfContained (root : StructValueType) (leftover : Leftover) : Bool :=
  root.toValueType.isSelfContained leftover []

mutual
/-- No string, wide string or sequence at any depth. -/
def MemberArray.selfContained : MemberArray → Bool
  | .nil => true
  | .cons member type rest =>
    (if member.isArray && !member.isFixed then false else type.selfContained) && rest.selfContained

def MemberType.selfContained : MemberType → Bool
  | .primitive _ => true
  | .string => false
  | .wstring => false
  | .message (.mk _ _ _ ms) => ms.selfContained
end

mutual
/-- Fixed arrays that are not inside another one. -/
def MemberArray.hasArrays : MemberArray → Bool
  | .nil => false
  | .cons member type rest =>
    (if member.isArray then member.isFixed else type.hasArrays) || rest.hasArrays

def MemberType.hasArrays : MemberType → Bool
  | .message (.mk _ _ _ ms) => ms.hasArrays
  | _ => false
end

mutual
/-- Strings, wide strings and sequences that are not inside a fixed array. -/
def MemberArray.hasDynamic : MemberArray → Bool
  | .nil => false
  | .cons member type rest =>
    (if member.isArray then !member.isFixed else type.hasDynamic) || rest.hasDynamic

def MemberType.hasDynamic : MemberType → Bool
  | .primitive _ => false
  | .string => true
  | .wstring => true
  | .message (.mk _ _ _ ms) => ms.hasDynamic
end

/-! ### The flag, read off the introspection data -/

/-- Strings and sequences answer that they are not self-contained. -/
structure Generator.Honest (g : Generator) : Prop where
  string : ∀ leftover path, g.stringValueType.isSelfContained leftover path = false
  wstring : ∀ leftover path, g.wstringValueType.isSelfContained leftover path = false
  sequence : ∀ member type element bound leftover path,
    (g.sequenceValueType member type element bound).isSelfContained leftover path = false

theorem rosidlC_honest (o : ObjectLayout) : (rosidlC o).Honest where
  string _ _ := rfl
  wstring _ _ := rfl
  sequence member type element bound leftover path := by
    simp only [rosidlC]
    split <;> rfl

theorem rosidlCpp_honest (o : ObjectLayout) : (rosidlCpp o).Honest where
  string _ _ := rfl
  wstring _ _ := rfl
  sequence member type element bound leftover path := by
    simp only [rosidlCpp]
    split <;> rfl

private theorem areSelfContained_false (leftover : Leftover) : ∀ (ms : Members) (path : List Nat) (index : Nat),
    ms.areSelfContained leftover path index false = false
  | .nil, _, _ => rfl
  | .cons _ _ t ms, path, index => by
    rw [Members.areSelfContained, ite_self, areSelfContained_false leftover ms path (index + 1)]

/-- The loop is the conjunction over the members. -/
theorem Members.areSelfContained_cons (leftover : Leftover) (memberOffset : Nat) (isKey : Bool) (t : ValueType)
    (ms : Members) (path : List Nat) (index : Nat) :
    (Members.cons memberOffset isKey t ms).areSelfContained leftover path index true =
      (t.isSelfContained leftover (path ++ [index]) && ms.areSelfContained leftover path (index + 1) true) := by
  rw [Members.areSelfContained]
  cases t.isSelfContained leftover (path ++ [index]) with
  | false => exact areSelfContained_false leftover ms path (index + 1)
  | true => rfl

/-- What a flag can be, given whether there are strings or sequences outside of arrays, and
whether there are arrays. -/
structure FlagOf (dynamic arrays : Bool) (leftover : Leftover) (flag : Bool) : Prop where
  of_dynamic : dynamic = true → flag = false
  of_set : dynamic = false → (∀ path, leftover path = true) → flag = true
  of_clear : dynamic = false → (∀ path, leftover path = false) → flag = !arrays
  of_plain : dynamic = false → arrays = false → flag = true

namespace FlagOf
variable {leftover : Leftover} {dynamic dynamic' arrays arrays' flag flag' : Bool}

theorem clear : FlagOf true false leftover false := ⟨fun _ => rfl,nofun,nofun,nofun⟩

theorem set : FlagOf false false leftover true := ⟨nofun,fun _ _ => rfl,fun _ _ => rfl,fun _ _ => rfl⟩

theorem array (path : List Nat) : FlagOf false true leftover (leftover path) :=
  ⟨nofun,fun _ h => h path,fun _ h => h path,fun _ h => Bool.noConfusion h⟩

theorem and (h : FlagOf dynamic arrays leftover flag) (h' : FlagOf dynamic' arrays' leftover flag') :
    FlagOf (dynamic || dynamic') (arrays || arrays') leftover (flag && flag') where
  of_dynamic hd := by
    rcases Bool.or_eq_true_iff.mp hd with hd | hd
    · rw [h.of_dynamic hd, Bool.false_and]
    · rw [h'.of_dynamic hd, Bool.and_false]
  of_set hd hset := by
    obtain ⟨hd,hd'⟩ := Bool.or_eq_false_iff.mp hd
    rw [h.of_set hd hset, h'.of_set hd' hset, Bool.and_true]
  of_clear hd hclear := by
    obtain ⟨hd,hd'⟩ := Bool.or_eq_false_iff.mp hd
    rw [h.of_clear hd hclear, h'.of_clear hd' hclear, Bool.not_or]
  of_plain hd ha := by
    obtain ⟨hd,hd'⟩ := Bool.or_eq_false_iff.mp hd
    obtain ⟨ha,ha'⟩ := Bool.or_eq_false_iff.mp ha
    rw [h.of_plain hd ha, h'.of_plain hd' ha', Bool.and_true]

end FlagOf

section
variable {g : Generator} (hg : g.Honest)
include hg

mutual
/-- The flag that the constructors compute, from the introspection data. -/
theorem valueMembers_flag : ∀ {members : MemberArray} {ms : Members}, valueMembers g members = .ok ms →
    ∀ (leftover : Leftover) (path : List Nat) (index : Nat),
      FlagOf members.hasDynamic members.hasArrays leftover (ms.areSelfContained leftover path index true)
  | .nil, _, h, leftover, path, index => by
    cases h
    exact FlagOf.set
  | .cons member type rest, _, h, leftover, path, index => by
    obtain ⟨element,t,ms,helement,ht,hms,rfl⟩ := valueMembers_cons h
    rw [Members.areSelfContained_cons, MemberArray.hasDynamic, MemberArray.hasArrays]
    refine FlagOf.and ?_ (valueMembers_flag hms leftover path (index + 1))
    rcases memberValueType_cases ht with ⟨harray,rfl⟩ | ⟨harray,hfixed,rfl⟩ | ⟨harray,hfixed,_,rfl⟩
    · rw [if_neg (by simp [harray]), if_neg (by simp [harray])]
      exact elementValueType_flag helement leftover (path ++ [index])
    · rw [if_pos harray, if_pos harray, hfixed]
      exact FlagOf.array (path ++ [index])
    · rw [if_pos harray, if_pos harray, hfixed, hg.sequence]
      exact FlagOf.clear

theorem elementValueType_flag : ∀ {type : MemberType} {t : ValueType}, elementValueType g type = .ok t →
    ∀ (leftover : Leftover) (path : List Nat),
      FlagOf type.hasDynamic type.hasArrays leftover (t.isSelfContained leftover path)
  | .primitive _, _, h, leftover, path => by
    cases h
    exact FlagOf.set
  | .string, _, h, leftover, path => by
    cases h
    rw [hg.string]
    exact FlagOf.clear
  | .wstring, _, h, leftover, path => by
    cases h
    rw [hg.wstring]
    exact FlagOf.clear
  | .message (.mk _ _ s ms), _, h, leftover, path => by
    rw [elementValueType] at h
    obtain ⟨members,hmembers,h⟩ := Outcome.bind_eq_ok h
    cases h
    exact @valueMembers_flag ms members hmembers leftover path 0
end

end

mutual
/-- Strings and sequences outside of arrays count; without arrays there are no others. -/
theorem MemberArray.selfContained_cases : ∀ members : MemberArray,
    (members.hasDynamic = true → members.selfContained = false) ∧
      (members.hasDynamic = false → members.hasArrays = false → members.selfContained = true)
  | .nil => ⟨fun h => Bool.noConfusion h,fun _ _ => rfl⟩
  | .cons member type rest => by
    obtain ⟨hdyn,hplain⟩ := MemberArray.selfContained_cases rest
    obtain ⟨htdyn,htplain⟩ := MemberType.selfContained_cases type
    rw [MemberArray.hasDynamic, MemberArray.hasArrays, MemberArray.selfContained]
    refine ⟨fun h => ?_,fun h ha => ?_⟩
    · rcases Bool.or_eq_true_iff.mp h with h | h
      · cases harray : member.isArray <;> simp_all
      · rw [hdyn h, Bool.and_false]
    · obtain ⟨h,hrest⟩ := Bool.or_eq_false_iff.mp h
      obtain ⟨ha,harest⟩ := Bool.or_eq_false_iff.mp ha
      rw [hplain hrest harest, Bool.and_true]
      cases harray : member.isArray <;> simp_all

theorem MemberType.selfContained_cases : ∀ type : MemberType,
    (type.hasDynamic = true → type.selfContained = false) ∧
      (type.hasDynamic = false → type.hasArrays = false → type.selfContained = true)
  | .primitive _ => ⟨fun h => Bool.noConfusion h,fun _ _ => rfl⟩
  | .string => ⟨fun _ => rfl,fun h => Bool.noConfusion h⟩
  | .wstring => ⟨fun _ => rfl,fun h => Bool.noConfusion h⟩
  | .message (.mk _ _ _ ms) => MemberArray.selfContained_cases ms
end

/-- The flag is right whatever the memory held exactly where it does not rest on an array. -/
theorem isSelfContained_iff {g : Generator} (hg : (∃ o, g = rosidlC o) ∨ ∃ o, g = rosidlCpp o) {m : MessageMembers}
    {root : StructValueType} (h : structValueType g m = .ok root) :
    (∀ leftover, root.isSelfContained leftover = m.members.selfContained) ↔
      m.members.hasArrays = false ∨ m.members.hasDynamic = true := by
  have honest : g.Honest := by
    rcases hg with ⟨o,rfl⟩ | ⟨o,rfl⟩
    · exact rosidlC_honest o
    · exact rosidlCpp_honest o
  have hflag := fun leftover => valueMembers_flag honest (structValueType_ok h).2 leftover [] 0
  obtain ⟨hdyn,hplain⟩ := m.members.selfContained_cases
  constructor
  · intro hright
    by_contra hcond
    obtain ⟨harrays,hdynamic⟩ := not_or.mp hcond
    rw [Bool.not_eq_true] at hdynamic
    rw [Bool.not_eq_false] at harrays
    -- one and the same description, but the memory decides
    have hset := (hflag fun _ => true).of_set hdynamic fun _ => rfl
    have hclear := (hflag fun _ => false).of_clear hdynamic fun _ => rfl
    have hone : root.isSelfContained (fun _ => true) = true := hset
    have hother : root.isSelfContained (fun _ => false) = false := by
      rw [harrays] at hclear
      exact hclear
    rw [hright] at hone hother
    exact Bool.noConfusion (hone.symm.trans hother)
  · intro hcond leftover
    cases hdynamic : m.members.hasDynamic with
    | true =>
      rw [hdyn hdynamic]
      exact (hflag leftover).of_dynamic hdynamic
    | false =>
      have harrays := hcond.resolve_right (by simp [hdynamic])
      rw [hplain hdynamic harrays]
      exact (hflag leftover).of_plain hdynamic harrays

/-- `uint8[2] pair`. -/
def pairMessage : MessageMembers := .mk "example::msg".toList "Pair".toList 2
  (.cons ⟨"pair".toList,0,false,true,2,false,0,false⟩ (.primitive .uint8) .nil)

/-- `string[2] names`. -/
def namesMessage : MessageMembers := .mk "example::msg".toList "Names".toList 64
  (.cons ⟨"names".toList,0,false,true,2,false,0,false⟩ .string .nil)

/-- Plain bytes are denied, and pointers pass for plain bytes. -/
theorem arrays_misjudged :
    (∃ root, rosidlcppStructValueType ⟨32,8,32,8,24,8,40,8⟩ pairMessage = .ok root ∧
      root.isSelfContained (fun _ => false) = false ∧ pairMessage.members.selfContained = true) ∧
    ∃ root, rosidlcppStructValueType ⟨32,8,32,8,24,8,40,8⟩ namesMessage = .ok root ∧
      root.isSelfContained (fun _ => true) = true ∧ namesMessage.members.selfContained = false :=
  ⟨⟨_,rfl,rfl,rfl⟩,⟨_,rfl,rfl,rfl⟩⟩

/-- `float64 x; float64 y`. -/
def pointMessage : MessageMembers := .mk "example::msg".toList "Point".toList 16
  (.cons ⟨"x".toList,0,false,false,0,false,0,false⟩ (.primitive .double)
    (.cons ⟨"y".toList,0,false,false,0,false,8,false⟩ (.primitive .double) .nil))

theorem point_selfContained : ∃ root, rosidlcppStructValueType ⟨32,8,32,8,24,8,40,8⟩ pointMessage = .ok root ∧
    ∀ leftover, root.isSelfContained leftover = pointMessage.members.selfContained := by
  refine ⟨_,rfl,?_⟩
  exact (isSelfContained_iff (.inr ⟨⟨32,8,32,8,24,8,40,8⟩,rfl⟩) rfl).mpr (.inl rfl)

end RmwCyclonedds
