import RmwCyclonedds.TypeSupport.ValueType

/-! The introspection data of messages, and the value types that are made from them. -/
namespace RmwCyclonedds
open Library

/-- What the introspection data say of a member besides its type. -/
structure MessageMember where
  name : Text
  stringUpperBound : Nat
  isKey : Bool
  isArray : Bool
  arraySize : Nat
  isUpperBound : Bool
  offset : Nat
  /-- Whether there is a `size_function`. -/
  sizeFunction : Bool
  deriving DecidableEq

mutual
inductive MessageMembers where
  | mk (messageNamespace messageName : Text) (sizeOf : Nat) (members : MemberArray)

inductive MemberArray where
  | nil
  | cons (member : MessageMember) (type : MemberType) (rest : MemberArray)

/-- The `type_id` of a member, with the description that a message refers to. -/
inductive MemberType where
  | primitive (kind : TypeKind)
  | string
  | wstring
  | message (members : MessageMembers)
end

namespace MessageMembers

def messageNamespace : MessageMembers → Text
  | .mk ns _ _ _ => ns

def messageName : MessageMembers → Text
  | .mk _ name _ _ => name

def sizeOf : MessageMembers → Nat
  | .mk _ _ s _ => s

def members : MessageMembers → MemberArray
  | .mk _ _ _ ms => ms

end MessageMembers

structure ServiceMembers where
  serviceNamespace : Text
  serviceName : Text
  requestMembers : MessageMembers
  responseMembers : MessageMembers

/-! ### The constructors -/

/-- What the constructors of the two typesupports differ in: their strings and sequences. -/
structure Generator where
  stringValueType : ValueType
  wstringValueType : ValueType
  sequenceValueType : MessageMember → MemberType → ValueType → Nat → ValueType
  string_wellFormed : stringValueType.Sized ∧ stringValueType.WellFormed
  wstring_wellFormed : wstringValueType.Sized ∧ wstringValueType.WellFormed
  sequence_wellFormed : ∀ member type element bound, element.Sized → element.WellFormed → bound ≤ uint32Max →
    (sequenceValueType member type element bound).WellFormed

/-- A fixed array has a size that is not an upper bound. -/
def MessageMember.isFixed (member : MessageMember) : Bool := member.arraySize ≠ 0 && !member.isUpperBound

def MessageMember.sequenceBound (member : MessageMember) : Nat :=
  if member.isArray && (member.arraySize ≠ 0 && member.isUpperBound) then member.arraySize else uint32Max

section
variable (g : Generator)

/-- The choice of the value type of a member, given that of its elements. -/
def memberValueType (member : MessageMember) (type : MemberType) (element : ValueType) : Outcome ValueType :=
  if member.isArray && member.arraySize > uint32Max then
    .error (.throws (.lengthError "arrays > UINT32_MAX not supported"))
  else if !member.isArray then .ok element
  else if member.isFixed then .ok (.array element member.arraySize)
  else .ok (g.sequenceValueType member type element member.sequenceBound)

mutual
/-- The member loop. -/
def valueMembers : MemberArray → Outcome Members
  | .nil => .ok .nil
  | .cons member type rest => do
    let element ← elementValueType type
    let valueType ← memberValueType g member type element
    return .cons member.offset member.isKey valueType (← valueMembers rest)

def elementValueType : MemberType → Outcome ValueType
  | .primitive k => .ok (.primitive k)
  | .string => .ok g.stringValueType
  | .wstring => .ok g.wstringValueType
  | .message (.mk _ _ s ms) => do return .struct s (← valueMembers ms)
end

end

/-- Sizes and alignments of the objects that hold strings and sequences. -/
structure ObjectLayout where
  stringSize : Nat
  stringAlign : Nat
  wstringSize : Nat
  wstringAlign : Nat
  sequenceSize : Nat
  sequenceAlign : Nat
  boolVectorSize : Nat
  boolVectorAlign : Nat

def rosidlC (o : ObjectLayout) : Generator where
  stringValueType := .u8string o.stringSize (uint32Max - 1)
  wstringValueType := .u16string o.wstringSize (uint32Max / 2)
  sequenceValueType member _ element bound :=
    if member.sizeFunction then .spanSequence .callback element bound else .spanSequence .rosidlc element bound
  string_wellFormed := ⟨True.intro,Nat.le_refl _⟩
  wstring_wellFormed := ⟨True.intro,Nat.le_refl _⟩
  sequence_wellFormed member _ element bound hs hw hb := by
    split <;> exact ⟨hs,hw,hb⟩

def rosidlCpp (o : ObjectLayout) : Generator where
  stringValueType := .u8string o.stringSize (uint32Max - 1)
  wstringValueType := .u16string o.wstringSize (uint32Max / 2)
  sequenceValueType _ type element bound :=
    match type with
    | .primitive .boolean => .boolVector o.boolVectorSize bound
    | _ => .spanSequence .callback element bound
  string_wellFormed := ⟨True.intro,Nat.le_refl _⟩
  wstring_wellFormed := ⟨True.intro,Nat.le_refl _⟩
  sequence_wellFormed _ type element bound hs hw hb := by
    split
    · exact hb
    · exact ⟨hs,hw,hb⟩

private theorem sequenceBound_le {member : MessageMember} (h : ¬ (member.isArray && member.arraySize > uint32Max) = true) :
    member.sequenceBound ≤ uint32Max := by
  unfold MessageMember.sequenceBound
  split
  case isTrue hb =>
    simp only [Bool.and_eq_true, decide_eq_true_eq] at h hb
    exact Nat.le_of_not_lt fun hlt => h ⟨hb.1,hlt⟩
  case isFalse => exact Nat.le_refl _

theorem memberValueType_cases {g : Generator} {member : MessageMember} {type : MemberType} {element t : ValueType}
    (h : memberValueType g member type element = .ok t) :
    (member.isArray = false ∧ t = element) ∨
    (member.isArray = true ∧ member.isFixed = true ∧ t = .array element member.arraySize) ∨
    (member.isArray = true ∧ member.isFixed = false ∧ member.sequenceBound ≤ uint32Max ∧
      t = g.sequenceValueType member type element member.sequenceBound) := by
  unfold memberValueType at h
  split at h
  · cases h
  case isFalse hsize =>
    split at h
    case isTrue harray =>
      cases h
      exact .inl ⟨by simpa using harray,rfl⟩
    case isFalse harray =>
      have harray' : member.isArray = true := by simpa using harray
      split at h
      case isTrue hfixed =>
        cases h
        exact .inr (.inl ⟨harray',hfixed,rfl⟩)
      case isFalse hfixed =>
        cases h
        exact .inr (.inr ⟨harray',by simpa using hfixed,sequenceBound_le hsize,rfl⟩)

/-- A member that is read has an element type, of which its own type is made. -/
theorem valueMembers_cons {g : Generator} {member : MessageMember} {type : MemberType} {rest : MemberArray} {ms : Members}
    (h : valueMembers g (.cons member type rest) = .ok ms) : ∃ element t ms', elementValueType g type = .ok element ∧
      memberValueType g member type element = .ok t ∧ valueMembers g rest = .ok ms' ∧
      ms = .cons member.offset member.isKey t ms' := by
  rw [valueMembers] at h
  obtain ⟨element,helement,h⟩ := Outcome.bind_eq_ok h
  obtain ⟨t,ht,h⟩ := Outcome.bind_eq_ok h
  obtain ⟨ms',hms,h⟩ := Outcome.bind_eq_ok h
  cases h
  exact ⟨element,t,ms',helement,ht,hms,rfl⟩

mutual
theorem valueMembers_wellFormed {g : Generator} : ∀ {members : MemberArray} {ms : Members},
    valueMembers g members = .ok ms → ms.WellFormed
  | .nil, _, h => by
    cases h
    exact True.intro
  | .cons member type rest, _, h => by
    obtain ⟨element,t,ms,helement,ht,hms,rfl⟩ := valueMembers_cons h
    obtain ⟨hs,hw⟩ := elementValueType_wellFormed helement
    refine ⟨?_,valueMembers_wellFormed hms⟩
    rcases memberValueType_cases ht with ⟨_,rfl⟩ | ⟨_,_,rfl⟩ | ⟨_,_,hb,rfl⟩
    · exact hw
    · exact ⟨hs,hw⟩
    · exact g.sequence_wellFormed member type element _ hs hw hb

theorem elementValueType_wellFormed {g : Generator} : ∀ {type : MemberType} {t : ValueType},
    elementValueType g type = .ok t → t.Sized ∧ t.WellFormed
  | .primitive _, _, h => by
    cases h
    exact ⟨True.intro,True.intro⟩
  | .string, _, h => by
    cases h
    exact g.string_wellFormed
  | .wstring, _, h => by
    cases h
    exact g.wstring_wellFormed
  | .message (.mk _ _ s ms), _, h => by
    rw [elementValueType] at h
    obtain ⟨members,hmembers,h⟩ := Outcome.bind_eq_ok h
    cases h
    exact ⟨True.intro,@valueMembers_wellFormed g ms members hmembers⟩
end

/-- The root type of a message. -/
def structValueType (g : Generator) (m : MessageMembers) : Outcome StructValueType := do
  let ⟨ms,h⟩ ← (valueMembers g m.members).attach
  return ⟨m.sizeOf,ms,valueMembers_wellFormed h⟩

def rosidlcStructValueType (o : ObjectLayout) (m : MessageMembers) : Outcome StructValueType := structValueType (rosidlC o) m

def rosidlcppStructValueType (o : ObjectLayout) (m : MessageMembers) : Outcome StructValueType := structValueType (rosidlCpp o) m

theorem structValueType_ok {g : Generator} {m : MessageMembers} {root : StructValueType} (h : structValueType g m = .ok root) :
    root.sizeofStruct = m.sizeOf ∧ valueMembers g m.members = .ok root.members := by
  unfold structValueType at h
  obtain ⟨⟨ms,hms⟩,_,h⟩ := Outcome.bind_eq_ok h
  cases h
  exact ⟨rfl,hms⟩

end RmwCyclonedds
