import RmwCyclonedds.Bytewise
import RmwCyclonedds.Library.Cdr

/-! The value types that describe a message: its logical shape together with the
way its parts lie in memory. -/
namespace RmwCyclonedds
open Library

/-- The type kinds of a `PrimitiveValueType`; strings and messages have their own value types. -/
inductive TypeKind where
  | float
  | double
  | char
  | wchar
  | boolean
  | octet
  | uint8
  | int8
  | uint16
  | int16
  | uint32
  | int32
  | uint64
  | int64
  deriving DecidableEq, Repr

namespace TypeKind

def sizeofType : TypeKind → Nat
  | float => 4
  | double => 8
  | char => 1
  | wchar => 2
  | boolean => 1
  | octet => 1
  | uint8 => 1
  | int8 => 1
  | uint16 => 2
  | int16 => 2
  | uint32 => 4
  | int32 => 4
  | uint64 => 8
  | int64 => 8

def cdrsizeofType : TypeKind → Nat
  | boolean | octet | uint8 | int8 | char => 1
  | uint16 | int16 | wchar => 2
  | uint32 | int32 | float => 4
  | uint64 | int64 | double => 8

def cdralignofType (k : TypeKind) : Nat := k.cdrsizeofType

def width : TypeKind → Width
  | boolean | octet | uint8 | int8 | char => .one
  | uint16 | int16 | wchar => .two
  | uint32 | int32 | float => .four
  | uint64 | int64 | double => .eight

@[simp] theorem sizeofType_eq (k : TypeKind) : k.sizeofType = k.width.bytes := by cases k <;> rfl

@[simp] theorem cdrsizeofType_eq (k : TypeKind) : k.cdrsizeofType = k.width.bytes := by cases k <;> rfl

@[simp] theorem cdralignofType_eq (k : TypeKind) : k.cdralignofType = k.width.bytes := k.cdrsizeofType_eq

end TypeKind

/-- Sequences reached through accessor callbacks, and C sequence objects. -/
inductive SpanKind where
  | callback
  | rosidlc
  deriving DecidableEq, Repr

mutual
/-- Strings and bit vectors carry the size of the object that holds them; structs carry
their size and, for every member, its offset. -/
inductive ValueType where
  | primitive (kind : TypeKind)
  | u8string (sizeofObject stringBound : Nat)
  | u16string (sizeofObject stringBound : Nat)
  | struct (sizeofStruct : Nat) (members : Members)
  | array (elementValueType : ValueType) (arraySize : Nat)
  | spanSequence (kind : SpanKind) (elementValueType : ValueType) (sequenceBound : Nat)
  | boolVector (sizeofObject sequenceBound : Nat)

inductive Members where
  | nil
  | cons (memberOffset : Nat) (isKey : Bool) (valueType : ValueType) (rest : Members)
end

deriving instance DecidableEq for ValueType, Members

/-- A struct has keys when one of its own members is marked. -/
def Members.hasKeys : Members → Bool
  | nil => false
  | cons _ isKey _ rest => isKey || rest.hasKeys

namespace ValueType

/-- Size in memory. Callback sequences do not implement it. -/
def sizeofType : ValueType → Outcome Nat
  | primitive k => .ok k.sizeofType
  | u8string s _ => .ok s
  | u16string s _ => .ok s
  | struct s _ => .ok s
  | array t n => do return n * (← t.sizeofType)
  | spanSequence .callback _ _ => .error (.throws (.logicError "not implemented"))
  | spanSequence .rosidlc _ _ => .ok 24
  | boolVector s _ => .ok s

def size : ValueType → Nat
  | primitive k => k.width.bytes
  | u8string s _ => s
  | u16string s _ => s
  | struct s _ => s
  | array t n => n * t.size
  | spanSequence .callback _ _ => 0
  | spanSequence .rosidlc _ _ => 24
  | boolVector s _ => s

/-- Types that implement `sizeof_type`. -/
def Sized : ValueType → Prop
  | array t _ => t.Sized
  | spanSequence .callback _ _ => False
  | _ => True

theorem sizeofType_of_sized : ∀ {t : ValueType}, t.Sized → t.sizeofType = .ok t.size
  | primitive k, _ => by simp [sizeofType, size]
  | u8string _ _, _ => rfl
  | u16string _ _, _ => rfl
  | struct _ _, _ => rfl
  | array t n, h => by
    have ht : t.sizeofType = .ok t.size := sizeofType_of_sized h
    rw [sizeofType, ht]
    rfl
  | spanSequence .rosidlc _ _, _ => rfl
  | boolVector _ _, _ => rfl

end ValueType

mutual
/-- What the value-type constructors build: bounds fit 32 bits, also in bytes, and the
elements of arrays and sequences lie next to each other, so their types have a size. -/
def ValueType.WellFormed : ValueType → Prop
  | .primitive _ => True
  | .u8string _ b => b ≤ uint32Max - 1
  | .u16string _ b => b ≤ uint32Max / 2
  | .struct _ ms => ms.WellFormed
  | .array t _ => t.Sized ∧ t.WellFormed
  | .spanSequence _ t b => t.Sized ∧ t.WellFormed ∧ b ≤ uint32Max
  | .boolVector _ b => b ≤ uint32Max

def Members.WellFormed : Members → Prop
  | .nil => True
  | .cons _ _ t ms => t.WellFormed ∧ ms.WellFormed
end

mutual
/-- A property of a type and of every type inside it. -/
def ValueType.Everywhere (P : ValueType → Prop) : ValueType → Prop
  | .primitive k => P (.primitive k)
  | .u8string s b => P (.u8string s b)
  | .u16string s b => P (.u16string s b)
  | .struct s ms => P (.struct s ms) ∧ ms.Everywhere P
  | .array t n => P (.array t n) ∧ t.Everywhere P
  | .spanSequence k t b => P (.spanSequence k t b) ∧ t.Everywhere P
  | .boolVector s b => P (.boolVector s b)

def Members.Everywhere (P : ValueType → Prop) : Members → Prop
  | .nil => True
  | .cons _ _ t ms => t.Everywhere P ∧ ms.Everywhere P
end

theorem ValueType.Everywhere.here {P : ValueType → Prop} : ∀ {t : ValueType}, t.Everywhere P → P t
  | .primitive _, h => h
  | .u8string _ _, h => h
  | .u16string _ _, h => h
  | .struct _ _, h => h.1
  | .array _ _, h => h.1
  | .spanSequence _ _ _, h => h.1
  | .boolVector _ _, h => h

mutual
theorem ValueType.Everywhere.imp {P Q : ValueType → Prop} (hpq : ∀ t, P t → Q t) :
    ∀ {t : ValueType}, t.Everywhere P → t.Everywhere Q
  | .primitive _, h => hpq _ h
  | .u8string _ _, h => hpq _ h
  | .u16string _ _, h => hpq _ h
  | .struct _ _, h => ⟨hpq _ h.1,Members.Everywhere.imp hpq h.2⟩
  | .array _ _, h => ⟨hpq _ h.1,ValueType.Everywhere.imp hpq h.2⟩
  | .spanSequence _ _ _, h => ⟨hpq _ h.1,ValueType.Everywhere.imp hpq h.2⟩
  | .boolVector _ _, h => hpq _ h

theorem Members.Everywhere.imp {P Q : ValueType → Prop} (hpq : ∀ t, P t → Q t) :
    ∀ {ms : Members}, ms.Everywhere P → ms.Everywhere Q
  | .nil, _ => True.intro
  | .cons _ _ _ _, h => ⟨ValueType.Everywhere.imp hpq h.1,Members.Everywhere.imp hpq h.2⟩
end

mutual
theorem ValueType.everywhere_of_forall {P : ValueType → Prop} (h : ∀ t, P t) : ∀ t : ValueType, t.Everywhere P
  | .primitive _ | .u8string _ _ | .u16string _ _ | .boolVector _ _ => h _
  | .struct _ ms => ⟨h _,Members.everywhere_of_forall h ms⟩
  | .array t _ => ⟨h _,ValueType.everywhere_of_forall h t⟩
  | .spanSequence _ t _ => ⟨h _,ValueType.everywhere_of_forall h t⟩

theorem Members.everywhere_of_forall {P : ValueType → Prop} (h : ∀ t, P t) : ∀ ms : Members, ms.Everywhere P
  | .nil => True.intro
  | .cons _ _ t ms => ⟨ValueType.everywhere_of_forall h t,Members.everywhere_of_forall h ms⟩
end

mutual
/-- Well-formedness and a property of everything inside hold of every type inside. -/
theorem ValueType.everywhere_inside {P : ValueType → Prop} : ∀ {t : ValueType}, t.WellFormed → t.Everywhere P →
    t.Everywhere fun s => s.WellFormed ∧ s.Everywhere P
  | .primitive _, hw, h => ⟨hw,h⟩
  | .u8string _ _, hw, h => ⟨hw,h⟩
  | .u16string _ _, hw, h => ⟨hw,h⟩
  | .struct _ _, hw, h => ⟨⟨hw,h⟩,Members.everywhere_inside hw h.2⟩
  | .array _ _, hw, h => ⟨⟨hw,h⟩,ValueType.everywhere_inside hw.2 h.2⟩
  | .spanSequence _ _ _, hw, h => ⟨⟨hw,h⟩,ValueType.everywhere_inside hw.2.1 h.2⟩
  | .boolVector _ _, hw, h => ⟨hw,h⟩

theorem Members.everywhere_inside {P : ValueType → Prop} : ∀ {ms : Members}, ms.WellFormed → ms.Everywhere P →
    ms.Everywhere fun s => s.WellFormed ∧ s.Everywhere P
  | .nil, _, _ => True.intro
  | .cons _ _ _ _, hw, h => ⟨ValueType.everywhere_inside hw.1 h.1,Members.everywhere_inside hw.2 h.2⟩
end

/-- A root type, as the typesupport hands it to readers and writers. -/
structure StructValueType where
  sizeofStruct : Nat
  members : Members
  wellFormed : members.WellFormed

namespace StructValueType

abbrev toValueType (root : StructValueType) : ValueType := .struct root.sizeofStruct root.members

def hasKeys (root : StructValueType) : Bool := root.members.hasKeys

end StructValueType

/-- A boolean as an IDL value, whichever container holds it. -/
def boolValue (b : Bool) : Value := .primitive .one (if b then 1 else 0)

mutual
/-- The values of a type. -/
def ValueType.Has : ValueType → Value → Prop
  | .primitive k, v => ∃ n < 256 ^ k.width.bytes, v = .primitive k.width n
  | .u8string _ _, v => ∃ cs, v = .u8string cs
  | .u16string _ _, v => ∃ us, v = .u16string us
  | .struct _ ms, v => ∃ vs, v = .struct vs ∧ ms.Have vs
  | .array t n, v => ∃ vs, v = .array vs ∧ vs.length = n ∧ ∀ x ∈ vs, t.Has x
  | .spanSequence _ t _, v => ∃ vs, v = .sequence vs ∧ ∀ x ∈ vs, t.Has x
  | .boolVector _ _, v => ∃ bs : List Bool, v = .sequence (bs.map boolValue)

def Members.Have : Members → List Value → Prop
  | .nil, vs => vs = []
  | .cons _ _ t ms, vs => ∃ v ws, vs = v :: ws ∧ t.Has v ∧ ms.Have ws
end

mutual
/-- No string or sequence is longer than the bound its type declares. -/
def ValueType.InBounds : ValueType → Value → Prop
  | .u8string _ b, .u8string cs => cs.length ≤ b
  | .u16string _ b, .u16string us => us.length ≤ b
  | .struct _ ms, .struct vs => ms.InBounds vs
  | .array t _, .array vs => ∀ x ∈ vs, t.InBounds x
  | .spanSequence _ t b, .sequence vs => vs.length ≤ b ∧ ∀ x ∈ vs, t.InBounds x
  | .boolVector _ b, .sequence vs => vs.length ≤ b
  | _, _ => True

def Members.InBounds : Members → List Value → Prop
  | .cons _ _ t ms, v :: vs => t.InBounds v ∧ ms.InBounds vs
  | _, _ => True
end

end RmwCyclonedds
