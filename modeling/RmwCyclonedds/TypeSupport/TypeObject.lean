import RmwCyclonedds.TypeSupport.ValueType

/-! Value types as objects: each has an identity beside what it describes. -/
namespace RmwCyclonedds
open Library

mutual
inductive TypeObject (Id : Type) where
  | primitive (id : Id) (kind : TypeKind)
  | u8string (id : Id) (sizeofObject stringBound : Nat)
  | u16string (id : Id) (sizeofObject stringBound : Nat)
  | struct (id : Id) (sizeofStruct : Nat) (members : MemberObjects Id)
  | array (id : Id) (elementValueType : TypeObject Id) (arraySize : Nat)
  | spanSequence (id : Id) (kind : SpanKind) (elementValueType : TypeObject Id) (sequenceBound : Nat)
  | boolVector (id : Id) (sizeofObject sequenceBound : Nat)

inductive MemberObjects (Id : Type) where
  | nil
  | cons (memberOffset : Nat) (isKey : Bool) (valueType : TypeObject Id) (rest : MemberObjects Id)
end

section
variable {Id : Type}

def TypeObject.id : TypeObject Id → Id
  | primitive id _ => id
  | u8string id _ _ => id
  | u16string id _ _ => id
  | struct id _ _ => id
  | array id _ _ => id
  | spanSequence id _ _ _ => id
  | boolVector id _ _ => id

mutual
/-- What an object describes. -/
def TypeObject.type : TypeObject Id → ValueType
  | .primitive _ k => .primitive k
  | .u8string _ s b => .u8string s b
  | .u16string _ s b => .u16string s b
  | .struct _ s ms => .struct s ms.types
  | .array _ t n => .array t.type n
  | .spanSequence _ k t b => .spanSequence k t.type b
  | .boolVector _ s b => .boolVector s b

def MemberObjects.types : MemberObjects Id → Members
  | .nil => .nil
  | .cons memberOffset isKey t ms => .cons memberOffset isKey t.type ms.types
end

mutual
/-- A property of an object and of every object inside it. -/
def TypeObject.Everywhere (P : TypeObject Id → Prop) : TypeObject Id → Prop
  | .primitive id k => P (.primitive id k)
  | .u8string id s b => P (.u8string id s b)
  | .u16string id s b => P (.u16string id s b)
  | .struct id s ms => P (.struct id s ms) ∧ ms.Everywhere P
  | .array id t n => P (.array id t n) ∧ t.Everywhere P
  | .spanSequence id k t b => P (.spanSequence id k t b) ∧ t.Everywhere P
  | .boolVector id s b => P (.boolVector id s b)

def MemberObjects.Everywhere (P : TypeObject Id → Prop) : MemberObjects Id → Prop
  | .nil => True
  | .cons _ _ t ms => t.Everywhere P ∧ ms.Everywhere P
end

mutual
/-- The number of objects in a tree; an object is larger than what is inside it. -/
def TypeObject.count : TypeObject Id → Nat
  | .struct _ _ ms => ms.count + 1
  | .array _ t _ => t.count + 1
  | .spanSequence _ _ t _ => t.count + 1
  | _ => 1

def MemberObjects.count : MemberObjects Id → Nat
  | .nil => 0
  | .cons _ _ t ms => t.count + ms.count
end

theorem TypeObject.Everywhere.here {P : TypeObject Id → Prop} : ∀ {t : TypeObject Id}, t.Everywhere P → P t
  | .primitive _ _, h => h
  | .u8string _ _ _, h => h
  | .u16string _ _ _, h => h
  | .struct _ _ _, h => h.1
  | .array _ _ _, h => h.1
  | .spanSequence _ _ _ _, h => h.1
  | .boolVector _ _ _, h => h

mutual
theorem TypeObject.Everywhere.imp {P Q : TypeObject Id → Prop} (hpq : ∀ t, P t → Q t) :
    ∀ {t : TypeObject Id}, t.Everywhere P → t.Everywhere Q
  | .primitive _ _, h => hpq _ h
  | .u8string _ _ _, h => hpq _ h
  | .u16string _ _ _, h => hpq _ h
  | .struct _ _ _, h => ⟨hpq _ h.1,MemberObjects.Everywhere.imp hpq h.2⟩
  | .array _ _ _, h => ⟨hpq _ h.1,TypeObject.Everywhere.imp hpq h.2⟩
  | .spanSequence _ _ _ _, h => ⟨hpq _ h.1,TypeObject.Everywhere.imp hpq h.2⟩
  | .boolVector _ _ _, h => hpq _ h

theorem MemberObjects.Everywhere.imp {P Q : TypeObject Id → Prop} (hpq : ∀ t, P t → Q t) :
    ∀ {ms : MemberObjects Id}, ms.Everywhere P → ms.Everywhere Q
  | .nil, _ => True.intro
  | .cons _ _ _ _, h => ⟨TypeObject.Everywhere.imp hpq h.1,MemberObjects.Everywhere.imp hpq h.2⟩
end

mutual
/-- What holds everywhere in an object holds everywhere in what is inside it. -/
theorem TypeObject.Everywhere.inside {P : TypeObject Id → Prop} :
    ∀ {t : TypeObject Id}, t.Everywhere P → t.Everywhere fun s => s.Everywhere P
  | .primitive _ _, h => h
  | .u8string _ _ _, h => h
  | .u16string _ _ _, h => h
  | .struct _ _ _, h => ⟨h,MemberObjects.Everywhere.inside h.2⟩
  | .array _ _ _, h => ⟨h,TypeObject.Everywhere.inside h.2⟩
  | .spanSequence _ _ _ _, h => ⟨h,TypeObject.Everywhere.inside h.2⟩
  | .boolVector _ _ _, h => h

theorem MemberObjects.Everywhere.inside {P : TypeObject Id → Prop} :
    ∀ {ms : MemberObjects Id}, ms.Everywhere P → ms.Everywhere fun s => s.Everywhere P
  | .nil, _ => True.intro
  | .cons _ _ _ _, h => ⟨TypeObject.Everywhere.inside h.1,MemberObjects.Everywhere.inside h.2⟩
end

mutual
theorem TypeObject.everywhere_forall {ι : Sort*} {P : ι → TypeObject Id → Prop} :
    ∀ {t : TypeObject Id}, (∀ i, t.Everywhere (P i)) → t.Everywhere fun s => ∀ i, P i s
  | .primitive _ _, h => h
  | .u8string _ _ _, h => h
  | .u16string _ _ _, h => h
  | .struct _ _ _, h => ⟨fun i => (h i).1,MemberObjects.everywhere_forall fun i => (h i).2⟩
  | .array _ _ _, h => ⟨fun i => (h i).1,TypeObject.everywhere_forall fun i => (h i).2⟩
  | .spanSequence _ _ _ _, h => ⟨fun i => (h i).1,TypeObject.everywhere_forall fun i => (h i).2⟩
  | .boolVector _ _ _, h => h

theorem MemberObjects.everywhere_forall {ι : Sort*} {P : ι → TypeObject Id → Prop} :
    ∀ {ms : MemberObjects Id}, (∀ i, ms.Everywhere (P i)) → ms.Everywhere fun s => ∀ i, P i s
  | .nil, _ => True.intro
  | .cons _ _ _ _, h =>
    ⟨TypeObject.everywhere_forall fun i => (h i).1,MemberObjects.everywhere_forall fun i => (h i).2⟩
end

/-- Objects among which an identity belongs to one object only, and what is inside of which is among them too. -/
structure Universe (U : TypeObject Id → Prop) : Prop where
  inside : ∀ t, U t → t.Everywhere U
  one : ∀ s t, U s → U t → s.id = t.id → s = t

/-- An object in which an identity belongs to one object only, however often it occurs. -/
def TypeObject.Consistent (t : TypeObject Id) : Prop :=
  t.Everywhere fun s => t.Everywhere fun s' => s.id = s'.id → s = s'

/-- What is inside an object. -/
def TypeObject.Within (t s : TypeObject Id) : Prop := ∀ P : TypeObject Id → Prop, t.Everywhere P → P s

theorem TypeObject.within_everywhere (t : TypeObject Id) : t.Everywhere t.Within := by
  apply TypeObject.everywhere_forall
  intro P
  apply TypeObject.everywhere_forall
  exact fun h => h

theorem TypeObject.Consistent.universe {t : TypeObject Id} (h : t.Consistent) : Universe t.Within where
  inside _ hs := hs _ t.within_everywhere.inside
  one _ _ hs hs' := hs' _ (hs _ h)

/-! ### Types as objects of their own -/

mutual
/-- The object whose identity is what it describes, everywhere inside it. -/
def TypeObject.ofType : ValueType → TypeObject ValueType
  | .primitive k => .primitive (.primitive k) k
  | .u8string s b => .u8string (.u8string s b) s b
  | .u16string s b => .u16string (.u16string s b) s b
  | .struct s ms => .struct (.struct s ms) s (MemberObjects.ofTypes ms)
  | .array t n => .array (.array t n) (TypeObject.ofType t) n
  | .spanSequence k t b => .spanSequence (.spanSequence k t b) k (TypeObject.ofType t) b
  | .boolVector s b => .boolVector (.boolVector s b) s b

def MemberObjects.ofTypes : Members → MemberObjects ValueType
  | .nil => .nil
  | .cons memberOffset isKey t ms => .cons memberOffset isKey (TypeObject.ofType t) (MemberObjects.ofTypes ms)
end

theorem TypeObject.ofType_id (t : ValueType) : (TypeObject.ofType t).id = t := by cases t <;> rfl

mutual
theorem TypeObject.ofType_type : ∀ t : ValueType, (TypeObject.ofType t).type = t
  | .primitive _ | .u8string _ _ | .u16string _ _ | .boolVector _ _ => rfl
  | .struct s ms => congrArg (ValueType.struct s) (MemberObjects.ofTypes_types ms)
  | .array t n => congrArg (ValueType.array · n) (TypeObject.ofType_type t)
  | .spanSequence k t b => congrArg (ValueType.spanSequence k · b) (TypeObject.ofType_type t)

theorem MemberObjects.ofTypes_types : ∀ ms : Members, (MemberObjects.ofTypes ms).types = ms
  | .nil => rfl
  | .cons memberOffset isKey t ms =>
    congrArg₂ (Members.cons memberOffset isKey) (TypeObject.ofType_type t) (MemberObjects.ofTypes_types ms)
end

mutual
theorem TypeObject.everywhere_ofType (P : TypeObject ValueType → Prop) :
    ∀ t : ValueType, (TypeObject.ofType t).Everywhere P ↔ t.Everywhere fun s => P (TypeObject.ofType s)
  | .primitive _ | .u8string _ _ | .u16string _ _ | .boolVector _ _ => Iff.rfl
  | .struct _ ms => and_congr_right' (MemberObjects.everywhere_ofTypes P ms)
  | .array t _ => and_congr_right' (TypeObject.everywhere_ofType P t)
  | .spanSequence _ t _ => and_congr_right' (TypeObject.everywhere_ofType P t)

theorem MemberObjects.everywhere_ofTypes (P : TypeObject ValueType → Prop) :
    ∀ ms : Members, (MemberObjects.ofTypes ms).Everywhere P ↔ ms.Everywhere fun s => P (TypeObject.ofType s)
  | .nil => Iff.rfl
  | .cons _ _ t ms => and_congr (TypeObject.everywhere_ofType P t) (MemberObjects.everywhere_ofTypes P ms)
end

end

end RmwCyclonedds
