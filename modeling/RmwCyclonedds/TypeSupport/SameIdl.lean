import RmwCyclonedds.Serialization.TrivSerCache
import RmwCyclonedds.TypeSupport.Introspection

/-! Descriptions of one interface by two typesupports, and how far their value types agree. -/
namespace RmwCyclonedds
open Library

def MessageMember.SameIdl (member member' : MessageMember) : Prop :=
  member' = { member with offset := member'.offset, sizeFunction := member'.sizeFunction }

mutual
/-- The same members in the same order, wherever they lie in memory. -/
def MemberArray.SameIdl : MemberArray → MemberArray → Prop
  | .nil, .nil => True
  | .cons member type rest, .cons member' type' rest' => member.SameIdl member' ∧ type.SameIdl type' ∧ rest.SameIdl rest'
  | _, _ => False

def MemberType.SameIdl : MemberType → MemberType → Prop
  | .primitive k, .primitive k' => k = k'
  | .string, .string => True
  | .wstring, .wstring => True
  | .message (.mk _ _ _ ms), .message (.mk _ _ _ ms') => ms.SameIdl ms'
  | _, _ => False
end

/-! ### The layout of structs -/

section
variable (align : TypeKind → Nat) (o : ObjectLayout)

def MemberType.size : MemberType → Nat
  | .primitive k => k.sizeofType
  | .string => o.stringSize
  | .wstring => o.wstringSize
  | .message m => m.sizeOf

/-- Size and alignment of the object that holds a sequence. -/
def sequenceLayout : MemberType → Nat × Nat
  | .primitive .boolean => (o.boolVectorSize,o.boolVectorAlign)
  | _ => (o.sequenceSize,o.sequenceAlign)

def memberSize (member : MessageMember) (type : MemberType) : Nat :=
  if !member.isArray then type.size o
  else if member.isFixed then member.arraySize * type.size o
  else (sequenceLayout o type).1

mutual
/-- A struct is aligned like the strictest of its members. -/
def MemberArray.alignment : MemberArray → Nat
  | .nil => 1
  | .cons member type rest =>
    max (if member.isArray && !member.isFixed then (sequenceLayout o type).2 else type.alignment) rest.alignment

def MemberType.alignment : MemberType → Nat
  | .primitive k => align k
  | .string => o.stringAlign
  | .wstring => o.wstringAlign
  | .message (.mk _ _ _ ms) => ms.alignment
end

def memberAlignment (member : MessageMember) (type : MemberType) : Nat :=
  if member.isArray && !member.isFixed then (sequenceLayout o type).2 else type.alignment align o

/-- Where the last member ends. -/
def MemberArray.finish : MemberArray → Nat → Nat
  | .nil, pos => pos
  | .cons member type rest, _ => rest.finish (member.offset + memberSize o member type)

mutual
/-- Offsets and sizes are those of the compiler: every member lies at the next place that suits its alignment, and a
struct ends where its alignment allows another one. -/
def MemberArray.LaidOut : MemberArray → Nat → Prop
  | .nil, _ => True
  | .cons member type rest, pos =>
    member.offset = alignUp (memberAlignment align o member type) pos ∧ type.LaidOut ∧
      rest.LaidOut (member.offset + memberSize o member type)

def MemberType.LaidOut : MemberType → Prop
  | .message (.mk _ _ s ms) => ms.LaidOut 0 ∧ s = alignUp (ms.alignment align o) (ms.finish o 0)
  | _ => True
end

end

mutual
/-- Without strings and sequences. -/
def MemberArray.Plain : MemberArray → Prop
  | .nil => True
  | .cons member type rest => (member.isArray = false ∨ member.isFixed = true) ∧ type.Plain ∧ rest.Plain

def MemberType.Plain : MemberType → Prop
  | .primitive _ => True
  | .message (.mk _ _ _ ms) => ms.Plain
  | _ => False
end

namespace MessageMember.SameIdl
variable {member member' : MessageMember}

theorem isKey_eq (h : member.SameIdl member') : member'.isKey = member.isKey := by rw [h]

theorem isArray_eq (h : member.SameIdl member') : member'.isArray = member.isArray := by rw [h]

theorem arraySize_eq (h : member.SameIdl member') : member'.arraySize = member.arraySize := by rw [h]

theorem isFixed_eq (h : member.SameIdl member') : member'.isFixed = member.isFixed := by
  rw [h]
  rfl

end MessageMember.SameIdl

section
variable {align : TypeKind → Nat} {o o' : ObjectLayout}

private theorem memberAlignment_plain {member member' : MessageMember} (hm : member.SameIdl member') {type type' : MemberType}
    (hplain : member.isArray = false ∨ member.isFixed = true) (h : type.alignment align o = type'.alignment align o') :
    memberAlignment align o member type = memberAlignment align o' member' type' := by
  have hno : (member.isArray && !member.isFixed) = false := by
    rcases hplain with hp | hp <;> simp [hp]
  rw [memberAlignment, memberAlignment, hm.isArray_eq, hm.isFixed_eq, hno]
  exact h

mutual
private theorem alignment_plain : ∀ {members members' : MemberArray}, members.SameIdl members' → members.Plain →
    members.alignment align o = members'.alignment align o'
  | .nil, .nil, _, _ => rfl
  | .cons member type rest, .cons member' type' rest', h, hp => by
    rw [MemberArray.alignment, MemberArray.alignment, alignment_plain h.2.2 hp.2.2]
    exact congrArg (max · _) (memberAlignment_plain h.1 hp.1 (typeAlignment_plain h.2.1 hp.2.1))

private theorem typeAlignment_plain : ∀ {type type' : MemberType}, type.SameIdl type' → type.Plain →
    type.alignment align o = type'.alignment align o'
  | .primitive _, .primitive _, h, _ => congrArg align h
  | .message (.mk _ _ _ ms), .message (.mk _ _ _ ms'), h, hp => @alignment_plain ms ms' h hp
end

private theorem memberSize_plain {member member' : MessageMember} (hm : member.SameIdl member') {type type' : MemberType}
    (hplain : member.isArray = false ∨ member.isFixed = true) (h : type.size o = type'.size o') :
    memberSize o member type = memberSize o' member' type' := by
  rw [memberSize, memberSize, hm.isArray_eq, hm.isFixed_eq, hm.arraySize_eq, h]
  rcases hplain with hp | hp <;> simp [hp]

private theorem memberValueType_plain (g g' : Generator) {member member' : MessageMember} (hm : member.SameIdl member')
    (type type' : MemberType) (element : ValueType) (hplain : member.isArray = false ∨ member.isFixed = true) :
    memberValueType g member type element = memberValueType g' member' type' element := by
  simp only [memberValueType, hm.isArray_eq, hm.isFixed_eq, hm.arraySize_eq]
  rcases hplain with hp | hp <;> simp [hp]

mutual
/-- Structs without strings and sequences have one layout in both languages, and one value type. -/
theorem valueMembers_plain (g g' : Generator) : ∀ {members members' : MemberArray} {pos : Nat}, members.SameIdl members' →
    members.Plain → members.LaidOut align o pos → members'.LaidOut align o' pos →
    valueMembers g members = valueMembers g' members' ∧ members.finish o pos = members'.finish o' pos
  | .nil, .nil, _, _, _, _, _ => ⟨rfl,rfl⟩
  | .cons member type rest, .cons member' type' rest', pos, h, hp, hl, hl' => by
    obtain ⟨hm,ht,hr⟩ := h
    obtain ⟨hplain,htp,hrp⟩ := hp
    obtain ⟨hoff,htl,hrl⟩ := hl
    obtain ⟨hoff',htl',hrl'⟩ := hl'
    obtain ⟨hvalue,hsize⟩ := elementValueType_plain g g' ht htp htl htl'
    have hoffset : member'.offset = member.offset := by
      rw [hoff, hoff', memberAlignment_plain hm hplain (typeAlignment_plain ht htp)]
    have hnext := memberSize_plain hm hplain hsize
    rw [hoffset, ← hnext] at hrl'
    obtain ⟨hrest,hfinish⟩ := valueMembers_plain g g' hr hrp hrl hrl'
    constructor
    · have hmember := fun element => memberValueType_plain g g' hm type type' element hplain
      simp only [valueMembers, hvalue, hmember, hrest, hoffset, hm.isKey_eq]
    · rw [MemberArray.finish, MemberArray.finish, hfinish, hoffset, hnext]

theorem elementValueType_plain (g g' : Generator) : ∀ {type type' : MemberType}, type.SameIdl type' → type.Plain →
    type.LaidOut align o → type'.LaidOut align o' →
    elementValueType g type = elementValueType g' type' ∧ type.size o = type'.size o'
  | .primitive k, .primitive k', h, _, _, _ => by
    cases h
    exact ⟨rfl,rfl⟩
  | .message (.mk _ _ s ms), .message (.mk _ _ s' ms'), h, hp, hl, hl' => by
    obtain ⟨hvalue,hfinish⟩ := @valueMembers_plain g g' ms ms' 0 h hp hl.1 hl'.1
    have hsize : s = s' := by
      rw [hl.2, hl'.2, hfinish, @alignment_plain align o o' ms ms' h hp]
    exact ⟨by rw [elementValueType, elementValueType, hvalue, hsize],hsize⟩
end

end

/-! ### Types that are never copied whole -/

/-- Strings and sequences are not trivially serialized. -/
structure Generator.Scattered (g : Generator) : Prop where
  string : ∀ off, g.stringValueType.trivial off = false
  wstring : ∀ off, g.wstringValueType.trivial off = false
  sequence : ∀ member type element bound off, (g.sequenceValueType member type element bound).trivial off = false

theorem rosidlC_scattered (o : ObjectLayout) : (rosidlC o).Scattered where
  string _ := rfl
  wstring _ := rfl
  sequence member type element bound off := by
    simp only [rosidlC]
    split <;> rfl

theorem rosidlCpp_scattered (o : ObjectLayout) : (rosidlCpp o).Scattered where
  string _ := rfl
  wstring _ := rfl
  sequence member type element bound off := by
    simp only [rosidlCpp]
    split <;> rfl

section
variable {g : Generator} (hg : g.Scattered)
include hg

mutual
private theorem valueMembers_scattered : ∀ {members : MemberArray} {ms : Members}, valueMembers g members = .ok ms →
    ¬ members.Plain → ∀ s off pos, ms.trivial s off pos = false
  | .nil, _, _, hp, _, _, _ => absurd True.intro hp
  | .cons member type rest, _, h, hp, s, off, pos => by
    obtain ⟨element,t,ms,helement,ht,hms,rfl⟩ := valueMembers_cons h
    rw [Members.trivial, Bool.and_eq_false_iff]
    by_cases hrest : rest.Plain
    · left
      rw [Bool.and_eq_false_iff]
      right
      by_cases htype : type.Plain
      · rcases memberValueType_cases ht with ⟨harray,_⟩ | ⟨_,hfixed,_⟩ | ⟨_,_,_,rfl⟩
        · exact absurd ⟨.inl harray,htype,hrest⟩ hp
        · exact absurd ⟨.inr hfixed,htype,hrest⟩ hp
        · exact hg.sequence member type element _ _
      · have hscattered := elementValueType_scattered helement htype
        rcases memberValueType_cases ht with ⟨_,rfl⟩ | ⟨_,_,rfl⟩ | ⟨_,_,_,rfl⟩
        · exact hscattered _
        · rw [ValueType.trivial, hscattered, Bool.false_and]
        · exact hg.sequence member type element _ _
    · exact .inr (valueMembers_scattered hms hrest s off _)

/-- What contains a string or a sequence is not trivially serialized. -/
private theorem elementValueType_scattered : ∀ {type : MemberType} {t : ValueType}, elementValueType g type = .ok t →
    ¬ type.Plain → ∀ off, t.trivial off = false
  | .primitive _, _, _, hp, _ => absurd True.intro hp
  | .string, _, h, _, off => by
    cases h
    exact hg.string off
  | .wstring, _, h, _, off => by
    cases h
    exact hg.wstring off
  | .message (.mk _ _ s ms), _, h, hp, off => by
    rw [elementValueType] at h
    obtain ⟨members,hmembers,h⟩ := Outcome.bind_eq_ok h
    cases h
    exact @valueMembers_scattered ms members hmembers hp s off 0
end

end

mutual
private theorem members_plain_of_same : ∀ {members members' : MemberArray}, members.SameIdl members' → members'.Plain →
    members.Plain
  | .nil, .nil, _, _ => True.intro
  | .cons member type rest, .cons member' type' rest', h, hp => by
    refine ⟨?_,type_plain_of_same h.2.1 hp.2.1,members_plain_of_same h.2.2 hp.2.2⟩
    rw [← h.1.isArray_eq, ← h.1.isFixed_eq]
    exact hp.1

private theorem type_plain_of_same : ∀ {type type' : MemberType}, type.SameIdl type' → type'.Plain → type.Plain
  | .primitive _, .primitive _, _, _ => True.intro
  | .string, .string, _, hp => hp.elim
  | .wstring, .wstring, _, hp => hp.elim
  | .message (.mk _ _ _ ms), .message (.mk _ _ _ ms'), h, hp => @members_plain_of_same ms ms' h hp
end

/-- Two descriptions of one type are copied whole at the same offsets. -/
private theorem trivialMany_same {align : TypeKind → Nat} {o o' : ObjectLayout} {g g' : Generator} (hg : g.Scattered)
    (hg' : g'.Scattered) {type type' : MemberType} (h : type.SameIdl type') (hl : type.LaidOut align o)
    (hl' : type'.LaidOut align o') {t t' : ValueType} (ht : elementValueType g type = .ok t)
    (ht' : elementValueType g' type' = .ok t') (off : Nat) : t.trivialMany off = t'.trivialMany off := by
  by_cases hp : type.Plain
  · rw [(elementValueType_plain g g' h hp hl hl').1, ht', Except.ok.injEq] at ht
    rw [ht]
  · have hp' : ¬ type'.Plain := fun hplain => hp (type_plain_of_same h hplain)
    rw [ValueType.trivialMany, ValueType.trivialMany, elementValueType_scattered hg ht hp,
      elementValueType_scattered hg' ht' hp']
    rfl

/-! ### Alike value types -/

mutual
/-- The same logical shape, with whole copies at the same offsets. A sequence of booleans may be a bit vector. -/
def ValueType.Alike : ValueType → ValueType → Prop
  | .primitive k, .primitive k' => k = k'
  | .u8string _ _, .u8string _ _ => True
  | .u16string _ _, .u16string _ _ => True
  | .struct _ ms, .struct _ ms' => ms.Alike ms'
  | .array t n, .array t' n' => n = n' ∧ t.Alike t' ∧ ∀ off, t.trivialMany off = t'.trivialMany off
  | .spanSequence _ t _, .spanSequence _ t' _ => t.Alike t' ∧ ∀ off, t.trivialMany off = t'.trivialMany off
  | .spanSequence _ t _, .boolVector _ _ => t = .primitive .boolean
  | _, _ => False

def Members.Alike : Members → Members → Prop
  | .nil, .nil => True
  | .cons _ isKey t ms, .cons _ isKey' t' ms' => isKey = isKey' ∧ t.Alike t' ∧ ms.Alike ms'
  | _, _ => False
end

theorem Members.Alike.hasKeys_eq : ∀ {ms ms' : Members}, ms.Alike ms' → ms.hasKeys = ms'.hasKeys
  | .nil, .nil, _ => rfl
  | .cons _ isKey _ ms, .cons _ isKey' _ ms', h => by
    rw [Members.hasKeys, Members.hasKeys, h.1, hasKeys_eq h.2.2]

section
variable {align : TypeKind → Nat} {o o' : ObjectLayout}

variable (o o') in
/-- The sequences of C and C++: both have elements in a row, but for the vectors of bits of C++. -/
theorem sequence_cases (member member' : MessageMember) {type type' : MemberType} (h : type.SameIdl type') {t : ValueType}
    (ht : elementValueType (rosidlC o) type = .ok t) (t' : ValueType) (b b' : Nat) :
    ∃ kind, (rosidlC o).sequenceValueType member type t b = .spanSequence kind t b ∧
      ((∃ size, (rosidlCpp o').sequenceValueType member' type' t' b' = .boolVector size b' ∧ t = .primitive .boolean) ∨
        ∃ kind', (rosidlCpp o').sequenceValueType member' type' t' b' = .spanSequence kind' t' b') := by
  obtain ⟨kind,hkind⟩ : ∃ kind, (rosidlC o).sequenceValueType member type t b = .spanSequence kind t b := by
    simp only [rosidlC]
    split
    · exact ⟨_,rfl⟩
    · exact ⟨_,rfl⟩
  refine ⟨kind,hkind,?_⟩
  simp only [rosidlCpp]
  split
  case h_1 =>
    cases type with
    | primitive k =>
      cases h
      cases ht
      exact .inl ⟨_,rfl,rfl⟩
    | string => cases h
    | wstring => cases h
    | message m =>
      cases m
      cases h
  case h_2 => exact .inr ⟨_,rfl⟩

private theorem sequence_alike {member : MessageMember} (member' : MessageMember) {type type' : MemberType}
    (h : type.SameIdl type') {t t' : ValueType} (ht : elementValueType (rosidlC o) type = .ok t)
    (halike : t.Alike t') (hmany : ∀ off, t.trivialMany off = t'.trivialMany off) (b b' : Nat) :
    ((rosidlC o).sequenceValueType member type t b).Alike ((rosidlCpp o').sequenceValueType member' type' t' b') := by
  obtain ⟨kind,hkind,⟨size,hcpp,rfl⟩ | ⟨kind',hcpp⟩⟩ := sequence_cases o o' member member' h ht t' b b'
  · rw [hkind, hcpp]
    rfl
  · rw [hkind, hcpp]
    exact ⟨halike,hmany⟩

mutual
theorem valueMembers_alike : ∀ {members members' : MemberArray} {pos pos' : Nat}, members.SameIdl members' →
    members.LaidOut align o pos → members'.LaidOut align o' pos' → ∀ {ms ms' : Members},
    valueMembers (rosidlC o) members = .ok ms → valueMembers (rosidlCpp o') members' = .ok ms' → ms.Alike ms'
  | .nil, .nil, _, _, _, _, _, _, _, h, h' => by
    cases h
    cases h'
    exact True.intro
  | .cons member type rest, .cons member' type' rest', pos, pos', hs, hl, hl', _, _, h, h' => by
    obtain ⟨element,t,ms,helement,ht,hms,rfl⟩ := valueMembers_cons h
    obtain ⟨element',t',ms',helement',ht',hms',rfl⟩ := valueMembers_cons h'
    have halike := elementValueType_alike hs.2.1 hl.2.1 hl'.2.1 helement helement'
    have hmany := trivialMany_same (rosidlC_scattered o) (rosidlCpp_scattered o') hs.2.1 hl.2.1 hl'.2.1 helement helement'
    refine ⟨hs.1.isKey_eq.symm,?_,valueMembers_alike hs.2.2 hl.2.2 hl'.2.2 hms hms'⟩
    have harr := hs.1.isArray_eq
    have hfix := hs.1.isFixed_eq
    rcases memberValueType_cases ht with ⟨ha,rfl⟩ | ⟨ha,hf,rfl⟩ | ⟨ha,hf,_,rfl⟩ <;>
      rcases memberValueType_cases ht' with ⟨ha',rfl⟩ | ⟨ha',hf',rfl⟩ | ⟨ha',hf',_,rfl⟩
    · exact halike
    · simp [harr, ha] at ha'
    · simp [harr, ha] at ha'
    · simp [harr, ha] at ha'
    · exact ⟨hs.1.arraySize_eq.symm,halike,hmany⟩
    · simp [hfix, hf] at hf'
    · simp [harr, ha] at ha'
    · simp [hfix, hf] at hf'
    · exact sequence_alike member' hs.2.1 helement halike hmany _ _

theorem elementValueType_alike : ∀ {type type' : MemberType}, type.SameIdl type' → type.LaidOut align o →
    type'.LaidOut align o' → ∀ {t t' : ValueType}, elementValueType (rosidlC o) type = .ok t →
    elementValueType (rosidlCpp o') type' = .ok t' → t.Alike t'
  | .primitive k, .primitive k', hs, _, _, _, _, h, h' => by
    cases h
    cases h'
    exact hs
  | .string, .string, _, _, _, _, _, h, h' => by
    cases h
    cases h'
    exact True.intro
  | .wstring, .wstring, _, _, _, _, _, h, h' => by
    cases h
    cases h'
    exact True.intro
  | .message (.mk _ _ s ms), .message (.mk _ _ s' ms'), hs, hl, hl', _, _, h, h' => by
    rw [elementValueType] at h h'
    obtain ⟨members,hmembers,h⟩ := Outcome.bind_eq_ok h
    obtain ⟨members',hmembers',h'⟩ := Outcome.bind_eq_ok h'
    cases h
    cases h'
    exact @valueMembers_alike ms ms' 0 0 hs hl.1 hl'.1 members members' hmembers hmembers'
end

end

end RmwCyclonedds
