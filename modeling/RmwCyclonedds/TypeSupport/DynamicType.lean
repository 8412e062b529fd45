import RmwCyclonedds.Names.TypeName
import RmwCyclonedds.TypeSupport.Introspection

/-! The types that are registered with DDS, against the value types that writers walk. -/
namespace RmwCyclonedds
open Library

/-- The kinds of primitive members (`DDS_DYNAMIC_…`). -/
inductive DynamicKind where
  | boolean
  | uint8
  | char16
  | int8
  | float32
  | float64
  | int16
  | uint16
  | int32
  | uint32
  | int64
  | uint64
  deriving DecidableEq, Repr

mutual
/-- Types built with `dds_dynamic_type_create`. Strings and sequences without a bound are unbounded. -/
inductive DynamicType where
  | primitive (kind : DynamicKind)
  | string8 (bound : Option Nat)
  | string16 (bound : Option Nat)
  | structure (name : Text) (members : DynamicMembers)
  | array (name : Text) (bound : Nat) (element : DynamicType)
  | sequence (name : Text) (bound : Option Nat) (element : DynamicType)

inductive DynamicMembers where
  | nil
  | cons (name : Text) (isKey : Bool) (type : DynamicType) (rest : DynamicMembers)
end

def createTypeName (messageNamespace messageName : Text) : Text := getTypeNameImpl messageNamespace messageName []

/-- ROS2 appears to have mapped CHAR to UINT8. -/
def dynamicKind : TypeKind → DynamicKind
  | .boolean => .boolean
  | .octet => .uint8
  | .uint8 => .uint8
  | .char => .uint8
  | .wchar => .char16
  | .int8 => .int8
  | .float => .float32
  | .double => .float64
  | .int16 => .int16
  | .uint16 => .uint16
  | .int32 => .int32
  | .uint32 => .uint32
  | .int64 => .int64
  | .uint64 => .uint64

/-- `static_cast<uint32_t>`. -/
def toUint32 (n : Nat) : Nat := n % 2 ^ 32

/-- `dynamic_type_add_array` and `dynamic_type_add_array_prim`. -/
def dynamicTypeAddArray (member : MessageMember) (element : DynamicType) : DynamicType :=
  if member.arraySize ≠ 0 then
    let arraySize := toUint32 member.arraySize
    if !member.isUpperBound then .array member.name arraySize element
    else .sequence member.name (some arraySize) element
  else .sequence member.name none element

def stringBound (member : MessageMember) : Option Nat :=
  if member.stringUpperBound ≠ 0 then some (toUint32 member.stringUpperBound) else none

mutual
def constructDdsDynamicType : MemberArray → DynamicMembers
  | .nil => .nil
  | .cons member type rest =>
    let element := dynamicElement member type
    .cons member.name member.isKey (if !member.isArray then element else dynamicTypeAddArray member element)
      (constructDdsDynamicType rest)

/-- The switch over the type of a member. -/
def dynamicElement (member : MessageMember) : MemberType → DynamicType
  | .primitive k => .primitive (dynamicKind k)
  | .string => .string8 (stringBound member)
  | .wstring => .string16 (stringBound member)
  | .message (.mk ns name _ ms) => .structure (createTypeName ns name) (constructDdsDynamicType ms)
end

def createMsgDdsDynamicType (m : MessageMembers) : DynamicType :=
  .structure (createTypeName m.messageNamespace m.messageName) (constructDdsDynamicType m.members)

/-- The description of the service is read as that of a message, which has its names in the same places. -/
def createReqDdsDynamicType (svc : ServiceMembers) : DynamicType :=
  .structure (createTypeName svc.serviceNamespace svc.serviceName) (constructDdsDynamicType svc.requestMembers.members)

def createResDdsDynamicType (svc : ServiceMembers) : DynamicType :=
  .structure (createTypeName svc.serviceNamespace svc.serviceName) (constructDdsDynamicType svc.responseMembers.members)

/-- What a sertype is made for. -/
inductive Described where
  | message (m : MessageMembers)
  | request (svc : ServiceMembers)
  | response (svc : ServiceMembers)

namespace Described

def body : Described → MessageMembers
  | message m => m
  | request svc => svc.requestMembers
  | response svc => svc.responseMembers

/-- The type name of the sertype. -/
def typeName : Described → Text
  | message m => getMessageTypeNameImpl m.messageNamespace m.messageName
  | request svc => getRequestTypeNameImpl svc.serviceNamespace svc.serviceName
  | response svc => getResponseTypeNameImpl svc.serviceNamespace svc.serviceName

def registered : Described → DynamicType
  | message m => createMsgDdsDynamicType m
  | request svc => createReqDdsDynamicType svc
  | response svc => createResDdsDynamicType svc

/-- The members a writer emits: for requests and responses behind the guid and the sequence number. -/
def wire : Described → StructValueType → Members
  | message _, root => root.members
  | request _, root | response _, root =>
    .cons 0 false (.primitive .uint64) (.cons 8 false (.primitive .int64) root.members)

end Described

/-! ### What a declared type says of the wire -/

/-- The primitives that a declared kind stands for. -/
def DynamicKind.stands : DynamicKind → List TypeKind
  | boolean => [.boolean]
  | uint8 => [.uint8,.octet,.char]
  | char16 => [.wchar]
  | int8 => [.int8]
  | float32 => [.float]
  | float64 => [.double]
  | int16 => [.int16]
  | uint16 => [.uint16]
  | int32 => [.int32]
  | uint32 => [.uint32]
  | int64 => [.int64]
  | uint64 => [.uint64]

mutual
/-- Equal structures. A declared type without a bound has the largest one that value types know. -/
def DynamicType.Describes : DynamicType → ValueType → Prop
  | .primitive kind, .primitive k => k ∈ kind.stands
  | .string8 bound, .u8string _ b => bound.getD (uint32Max - 1) = b
  | .string16 bound, .u16string _ b => bound.getD (uint32Max / 2) = b
  | .structure _ members, .struct _ ms => members.Describes ms
  | .array _ n element, .array t k => n = k ∧ element.Describes t
  | .sequence _ bound element, .spanSequence _ t b => bound.getD uint32Max = b ∧ element.Describes t
  | .sequence _ bound element, .boolVector _ b => bound.getD uint32Max = b ∧ element.Describes (.primitive .boolean)
  | _, _ => False

def DynamicMembers.Describes : DynamicMembers → Members → Prop
  | .nil, .nil => True
  | .cons _ isKey type rest, .cons _ k t ms => isKey = k ∧ type.Describes t ∧ rest.Describes ms
  | _, _ => False
end

/-- The registered type has the name of the sertype and the structure of what the writer emits. -/
def Described.RegisteredRight (d : Described) (root : StructValueType) : Prop :=
  ∃ members, d.registered = .structure d.typeName members ∧ members.Describes (d.wire root)

mutual
/-- No string has a bound, short of the one that its value type has. -/
def MemberArray.StringsUnbounded : MemberArray → Prop
  | .nil => True
  | .cons member type rest => type.StringsUnbounded member ∧ rest.StringsUnbounded

def MemberType.StringsUnbounded (member : MessageMember) : MemberType → Prop
  | .primitive _ => True
  | .string => member.stringUpperBound = 0 ∨ toUint32 member.stringUpperBound = uint32Max - 1
  | .wstring => member.stringUpperBound = 0 ∨ toUint32 member.stringUpperBound = uint32Max / 2
  | .message (.mk _ _ _ ms) => ms.StringsUnbounded
end

def Described.IsMessage : Described → Prop
  | message _ => True
  | _ => False

inductive Typesupport where
  | c
  | cpp

def Typesupport.generator (o : ObjectLayout) : Typesupport → Generator
  | c => rosidlC o
  | cpp => rosidlCpp o

private theorem stands_dynamicKind (k : TypeKind) : k ∈ (dynamicKind k).stands := by cases k <;> decide

private theorem stringBound_iff {member : MessageMember} {b : Nat} :
    (stringBound member).getD b = b ↔ member.stringUpperBound = 0 ∨ toUint32 member.stringUpperBound = b := by
  unfold stringBound
  split
  case isTrue h => simp [h]
  case isFalse h => simp [not_not.mp h]

/-- A sequence is declared right iff its elements are. -/
private theorem describes_sequence (o : ObjectLayout) (ts : Typesupport) {member : MessageMember} {type : MemberType}
    {element : ValueType} (h : elementValueType (ts.generator o) type = .ok element) (name : Text) (bound : Option Nat)
    (declared : DynamicType) (b : Nat) :
    (DynamicType.sequence name bound declared).Describes ((ts.generator o).sequenceValueType member type element b) ↔
      bound.getD uint32Max = b ∧ declared.Describes element := by
  cases ts with
  | c =>
    simp only [Typesupport.generator, rosidlC]
    split <;> rw [DynamicType.Describes]
  | cpp =>
    simp only [Typesupport.generator, rosidlCpp]
    split
    · cases h
      rw [DynamicType.Describes]
    · rw [DynamicType.Describes]

private theorem toUint32_of_le {n : Nat} (h : n ≤ uint32Max) : toUint32 n = n := Nat.mod_eq_of_lt (Nat.lt_of_le_pred (by decide) h)

/-- A member is declared right iff its elements are. -/
private theorem describes_member (o : ObjectLayout) (ts : Typesupport) {member : MessageMember} {type : MemberType}
    {element t : ValueType} (helement : elementValueType (ts.generator o) type = .ok element)
    (ht : memberValueType (ts.generator o) member type element = .ok t) (declared : DynamicType) :
    (if !member.isArray then declared else dynamicTypeAddArray member declared).Describes t ↔ declared.Describes element := by
  have hsize : member.isArray = true → member.arraySize ≤ uint32Max := by
    intro harray
    unfold memberValueType at ht
    split at ht
    · cases ht
    case isFalse h =>
      simp only [harray, Bool.true_and, decide_eq_true_eq] at h
      exact Nat.le_of_not_lt h
  rcases memberValueType_cases ht with ⟨harray,rfl⟩ | ⟨harray,hfixed,rfl⟩ | ⟨harray,hfixed,_,rfl⟩
  · rw [harray]
    rfl
  · simp only [MessageMember.isFixed, Bool.and_eq_true, decide_eq_true_eq, Bool.not_eq_true'] at hfixed
    simp only [harray, Bool.not_true, dynamicTypeAddArray, ne_eq, hfixed.1, not_false_eq_true, hfixed.2, Bool.not_false, if_true,
      Bool.false_eq_true, if_false]
    rw [DynamicType.Describes, toUint32_of_le (hsize harray)]
    exact and_iff_right rfl
  · simp only [harray, Bool.not_true, Bool.false_eq_true, if_false, dynamicTypeAddArray]
    by_cases hzero : member.arraySize = 0
    · simp only [hzero, ne_eq, not_true_eq_false, if_false]
      rw [describes_sequence o ts helement]
      have hbound : member.sequenceBound = uint32Max := by simp [MessageMember.sequenceBound, hzero]
      exact and_iff_right hbound.symm
    · have hupper : member.isUpperBound = true := by simpa [MessageMember.isFixed, hzero] using hfixed
      simp only [ne_eq, hzero, not_false_eq_true, if_true, hupper, Bool.not_true, Bool.false_eq_true, if_false]
      rw [describes_sequence o ts helement]
      have hbound : member.sequenceBound = member.arraySize := by simp [MessageMember.sequenceBound, harray, hzero, hupper]
      rw [hbound, toUint32_of_le (hsize harray)]
      exact and_iff_right rfl

mutual
/-- The two walks over the introspection data stay in step up to the bounds of strings. -/
theorem construct_describes_iff (o : ObjectLayout) (ts : Typesupport) : ∀ {members : MemberArray} {ms : Members},
    valueMembers (ts.generator o) members = .ok ms →
    ((constructDdsDynamicType members).Describes ms ↔ members.StringsUnbounded)
  | .nil, _, h => by
    cases h
    exact Iff.rfl
  | .cons member type rest, _, h => by
    obtain ⟨element,t,ms,helement,ht,hms,rfl⟩ := valueMembers_cons h
    rw [constructDdsDynamicType, DynamicMembers.Describes, MemberArray.StringsUnbounded]
    rw [describes_member o ts helement ht, dynamicElement_describes_iff o ts member helement,
      construct_describes_iff o ts hms]
    exact and_iff_right rfl

theorem dynamicElement_describes_iff (o : ObjectLayout) (ts : Typesupport) (member : MessageMember) :
    ∀ {type : MemberType} {element : ValueType}, elementValueType (ts.generator o) type = .ok element →
    ((dynamicElement member type).Describes element ↔ type.StringsUnbounded member)
  | .primitive k, _, h => by
    cases h
    exact iff_of_true (stands_dynamicKind k) True.intro
  | .string, _, h => by
    cases ts <;> cases h <;> exact stringBound_iff
  | .wstring, _, h => by
    cases ts <;> cases h <;> exact stringBound_iff
  | .message (.mk ns name s ms), _, h => by
    rw [elementValueType] at h
    obtain ⟨members,hmembers,h⟩ := Outcome.bind_eq_ok h
    cases h
    exact @construct_describes_iff o ts ms members hmembers
end

def DynamicMembers.count : DynamicMembers → Nat
  | .nil => 0
  | .cons _ _ _ rest => rest.count + 1

def Members.count : Members → Nat
  | .nil => 0
  | .cons _ _ _ ms => ms.count + 1

private theorem count_of_describes : ∀ {members : DynamicMembers} {ms : Members}, members.Describes ms → members.count = ms.count
  | .nil, .nil, _ => rfl
  | .cons _ _ _ _, .cons _ _ _ _, h => congrArg (· + 1) (count_of_describes h.2.2)

private theorem construct_count {g : Generator} (members : MemberArray) {ms : Members} (h : valueMembers g members = .ok ms) :
    (constructDdsDynamicType members).count = ms.count := by
  cases members with
  | nil =>
    rw [valueMembers] at h
    rw [← Except.ok.inj h]
    rfl
  | cons member type rest =>
    rw [valueMembers] at h
    obtain ⟨element,_,h⟩ := Outcome.bind_eq_ok h
    obtain ⟨t,_,h⟩ := Outcome.bind_eq_ok h
    obtain ⟨ms,hms,h⟩ := Outcome.bind_eq_ok h
    rw [← Except.ok.inj h]
    exact congrArg (· + 1) (construct_count rest hms)

/-- What is declared of a request or response has no place for the header. -/
private theorem header_undescribed {g : Generator} {members : MemberArray} {ms : Members} (h : valueMembers g members = .ok ms) :
    ¬ (constructDdsDynamicType members).Describes
      (.cons 0 false (.primitive .uint64) (.cons 8 false (.primitive .int64) ms)) := by
  intro hd
  have hcount := (construct_count members h).symm.trans (count_of_describes hd)
  simp only [Members.count] at hcount
  omega

private theorem getTypeNameImpl_suffix (ns name suffix : Text) :
    getTypeNameImpl ns name suffix = createTypeName ns name ++ suffix := by
  simp only [createTypeName, getTypeNameImpl, List.append_nil, List.append_assoc]

/-- A request is declared under the name of its service. -/
theorem request_misnamed (svc : ServiceMembers) (members : DynamicMembers) :
    (Described.request svc).registered ≠ .structure (Described.request svc).typeName members := by
  intro heq
  have hname := (DynamicType.structure.inj heq).1
  rw [Described.typeName, getRequestTypeNameImpl, getTypeNameImpl_suffix] at hname
  exact absurd (List.self_eq_append_right.mp hname) (by decide)

/-- The registered type is right exactly for messages none of whose strings has a bound. -/
theorem Described.registeredRight_iff (o : ObjectLayout) (ts : Typesupport) (d : Described) {root : StructValueType}
    (h : structValueType (ts.generator o) d.body = .ok root) :
    d.RegisteredRight root ↔ d.IsMessage ∧ d.body.members.StringsUnbounded := by
  obtain ⟨_,hms⟩ := structValueType_ok h
  cases d with
  | message m =>
    constructor
    · rintro ⟨members,heq,hd⟩
      cases heq
      exact ⟨True.intro,(construct_describes_iff o ts hms).mp hd⟩
    · rintro ⟨_,hu⟩
      exact ⟨_,rfl,(construct_describes_iff o ts hms).mpr hu⟩
  | request svc =>
    refine iff_of_false ?_ fun hm => hm.1
    rintro ⟨members,heq,hd⟩
    cases (DynamicType.structure.inj heq).2
    exact header_undescribed hms hd
  | response svc =>
    refine iff_of_false ?_ fun hm => hm.1
    rintro ⟨members,heq,hd⟩
    cases (DynamicType.structure.inj heq).2
    exact header_undescribed hms hd

/-! ### Concrete types -/

/-- The C++ objects of a 64-bit host. -/
def cppObjects : ObjectLayout := ⟨32,8,32,8,24,8,40,8⟩

/-- A member that is neither key nor array. -/
def plainMember (name : Text) (offset : Nat) : MessageMember := ⟨name,0,false,false,0,false,offset,false⟩

/-- `int64 a; int64 b` and `int64 sum`. -/
def addTwoInts : ServiceMembers where
  serviceNamespace := "example_interfaces::srv".toList
  serviceName := "AddTwoInts".toList
  requestMembers := .mk "example_interfaces::srv".toList "AddTwoInts_Request".toList 16
    (.cons (plainMember "a".toList 0) (.primitive .int64) (.cons (plainMember "b".toList 8) (.primitive .int64) .nil))
  responseMembers := .mk "example_interfaces::srv".toList "AddTwoInts_Response".toList 8
    (.cons (plainMember "sum".toList 0) (.primitive .int64) .nil)

/-- `string<=8 text`. -/
def shortText : MessageMembers := .mk "example_interfaces::msg".toList "ShortText".toList 32
  (.cons { plainMember "text".toList 0 with stringUpperBound := 8 } .string .nil)

/-- The request is declared without its header and under the name of the service; the short text with a bound that its
value type does not have. -/
theorem addTwoInts_misdeclared :
    (∃ root, rosidlcppStructValueType cppObjects addTwoInts.requestMembers = .ok root ∧
      ¬ (Described.request addTwoInts).RegisteredRight root ∧
      ∀ members, (Described.request addTwoInts).registered ≠ .structure (Described.request addTwoInts).typeName members) ∧
    ∃ root, rosidlcppStructValueType cppObjects shortText = .ok root ∧ ¬ (Described.message shortText).RegisteredRight root := by
  refine ⟨⟨_,rfl,?_,request_misnamed addTwoInts⟩,⟨_,rfl,?_⟩⟩
  · rintro ⟨members,heq,_⟩
    exact request_misnamed addTwoInts members heq
  · rintro ⟨members,heq,hd⟩
    cases (DynamicType.structure.inj heq).2
    have hbound : 8 = uint32Max - 1 := hd.2.1
    exact absurd hbound (by decide)

/-- `geometry_msgs/Point` with the C++ typesupport. -/
def point : MessageMembers := .mk "geometry_msgs::msg".toList "Point".toList 24
  (.cons (plainMember "x".toList 0) (.primitive .double) (.cons (plainMember "y".toList 8) (.primitive .double)
    (.cons (plainMember "z".toList 16) (.primitive .double) .nil)))

theorem point_registered : ∃ root, rosidlcppStructValueType cppObjects point = .ok root ∧
    (Described.message point).RegisteredRight root :=
  ⟨_,rfl,((Described.message point).registeredRight_iff cppObjects .cpp rfl).mpr
    ⟨True.intro,True.intro,True.intro,True.intro,True.intro⟩⟩

end RmwCyclonedds
