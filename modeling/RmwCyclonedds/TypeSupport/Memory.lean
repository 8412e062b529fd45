import RmwCyclonedds.TypeSupport.ValueType

/-! Message objects in memory, and the value an object stands for. -/
namespace RmwCyclonedds
open Library

/-- A place inside one allocated block. -/
structure Address where
  block : Nat
  offset : Nat
  deriving DecidableEq, Repr

instance : HAdd Address Nat Address where
  hAdd a n := ⟨a.block,a.offset + n⟩

@[simp] theorem Address.add_zero (a : Address) : a + 0 = a := rfl

@[simp] theorem Address.add_add (a : Address) (n k : Nat) : a + n + k = a + (n + k) := by
  show Address.mk a.block (a.offset + n + k) = ⟨a.block,a.offset + (n + k)⟩
  rw [Nat.add_assoc]

/-- The bytes of every object, the target of a pointer, and what the runtime reports about
the string, bit vector or sequence object at an address: its contents or where they start. The bytes such an
object is made of are not tied to these. -/
structure Memory where
  byte : Address → Byte
  pointer : Address → Address
  u8string : Address → List Byte
  u16string : Address → List UInt16
  bits : Address → List Bool
  sequenceSize : Address → Nat
  sequenceContents : Address → Address

namespace Memory
variable (m : Memory)

def read (a : Address) (n : Nat) : List Byte := (List.range n).map fun i => m.byte (a + i)

@[simp] theorem read_length (a : Address) (n : Nat) : (m.read a n).length = n := by
  simp only [read, List.length_map, List.length_range]

theorem read_add (a : Address) (n k : Nat) : m.read a (n + k) = m.read a n ++ m.read (a + n) k := by
  simp only [read, List.range_add, List.map_append, List.map_map, Address.add_add]
  rfl

/-- A block holding the given bytes and no other object. -/
def ofBytes (bs : List Byte) : Memory where
  byte a := bs.getD a.offset 0
  pointer a := a
  u8string _ := []
  u16string _ := []
  bits _ := []
  sequenceSize _ := 0
  sequenceContents a := a

/-- The start of the block `ofBytes` makes. -/
def base : Address := ⟨0,0⟩

theorem read_ofBytes (bs : List Byte) : (ofBytes bs).read base bs.length = bs := by
  apply List.ext_getElem
  · simp
  · intro i _ hi
    simp only [read, List.getElem_map, List.getElem_range, ofBytes]
    show bs.getD (0 + i) 0 = bs[i]
    rw [Nat.zero_add, List.getD_eq_getElem?_getD, List.getElem?_eq_getElem hi, Option.getD_some]

/-- Consecutive objects, one stride apart. -/
def strided {α : Type} (f : Address → α) (a : Address) (stride n : Nat) : List α :=
  (List.range n).map fun i => f (a + i * stride)

@[simp] theorem strided_length {α : Type} (f : Address → α) (a : Address) (stride n : Nat) :
    (strided f a stride n).length = n := by
  simp only [strided, List.length_map, List.length_range]

theorem strided_succ {α : Type} (f : Address → α) (a : Address) (stride n : Nat) :
    strided f a stride (n + 1) = f a :: strided f (a + stride) stride n := by
  simp only [strided, List.range_succ_eq_map, List.map_cons, List.map_map, Nat.zero_mul, Address.add_zero,
    Address.add_add]
  congr 1
  apply List.map_congr_left
  intro i _
  show f (a + (i + 1) * stride) = f (a + (stride + i * stride))
  rw [Nat.succ_mul, Nat.add_comm]

theorem strided_mem {α : Type} {f : Address → α} {a : Address} {stride n : Nat} {x : α}
    (h : x ∈ strided f a stride n) : ∃ b, x = f b := by
  obtain ⟨i,_,hi⟩ := List.mem_map.mp h
  exact ⟨_,hi.symm⟩

mutual
/-- The value of the object of the given type at an address. -/
def value (host : Endian) : ValueType → Address → Value
  | .primitive k, a => .primitive k.width (host.decode (m.read a k.sizeofType))
  | .u8string _ _, a => .u8string (m.u8string a)
  | .u16string _ _, a => .u16string (m.u16string a)
  | .struct _ ms, a => .struct (values host ms a)
  | .array t n, a => .array (strided (value host t) a t.size n)
  | .spanSequence _ t _, a =>
    .sequence (strided (value host t) (m.sequenceContents a) t.size (m.sequenceSize a))
  | .boolVector _ _, a => .sequence ((m.bits a).map boolValue)

def values (host : Endian) : Members → Address → List Value
  | .nil, _ => []
  | .cons off _ t ms, a => value host t (a + off) :: values host ms a
end

mutual
theorem value_has (host : Endian) : ∀ (t : ValueType) (a : Address), t.Has (m.value host t a)
  | .primitive k, a => by
    have h := host.decode_lt (m.read a k.sizeofType)
    rw [read_length, TypeKind.sizeofType_eq] at h
    exact ⟨_,h,by rw [value, TypeKind.sizeofType_eq]⟩
  | .u8string _ _, _ => ⟨_,rfl⟩
  | .u16string _ _, _ => ⟨_,rfl⟩
  | .struct _ ms, a => ⟨_,rfl,values_have host ms a⟩
  | .array t n, a => by
    refine ⟨_,rfl,strided_length _ _ _ _,?_⟩
    intro x hx
    obtain ⟨b,rfl⟩ := strided_mem hx
    exact value_has host t b
  | .spanSequence _ t _, a => by
    refine ⟨_,rfl,?_⟩
    intro x hx
    obtain ⟨b,rfl⟩ := strided_mem hx
    exact value_has host t b
  | .boolVector _ _, _ => ⟨_,rfl⟩

theorem values_have (host : Endian) : ∀ (ms : Members) (a : Address), ms.Have (m.values host ms a)
  | .nil, _ => rfl
  | .cons off _ t ms, a => ⟨_,_,rfl,value_has host t (a + off),values_have host ms a⟩
end

/-! ### Objects of one memory in another -/

/-- Objects of one memory at the places `place` gives them in another. -/
structure Placed (m m' : Memory) (place : Address → Address) : Prop where
  add : ∀ (a : Address) (n : Nat), place (a + n) = place a + n
  byte : ∀ a, m'.byte (place a) = m.byte a
  u8string : ∀ a, m'.u8string (place a) = m.u8string a
  u16string : ∀ a, m'.u16string (place a) = m.u16string a
  bits : ∀ a, m'.bits (place a) = m.bits a
  sequenceSize : ∀ a, m'.sequenceSize (place a) = m.sequenceSize a
  sequenceContents : ∀ a, m'.sequenceContents (place a) = place (m.sequenceContents a)

section
variable {m m' : Memory} {place : Address → Address}

private theorem strided_placed {α : Type} (h : Placed m m' place) {f g : Address → α}
    (hf : ∀ a, g (place a) = f a) (a : Address) (stride n : Nat) :
    strided g (place a) stride n = strided f a stride n := by
  apply List.map_congr_left
  intro i _
  rw [← h.add, hf]

mutual
theorem value_placed (h : Placed m m' place) (host : Endian) : ∀ (t : ValueType) (a : Address),
    m'.value host t (place a) = m.value host t a
  | .primitive k, a => by
    have hread : m'.read (place a) k.sizeofType = m.read a k.sizeofType := by
      apply List.map_congr_left
      intro i _
      rw [← h.add, h.byte]
    rw [value, value, hread]
  | .u8string _ _, a => congrArg Value.u8string (h.u8string a)
  | .u16string _ _, a => congrArg Value.u16string (h.u16string a)
  | .struct _ ms, a => congrArg Value.struct (values_placed h host ms a)
  | .array t n, a => congrArg Value.array (strided_placed h (value_placed h host t) a t.size n)
  | .spanSequence _ t _, a => by
    rw [value, value, h.sequenceContents, h.sequenceSize, strided_placed h (value_placed h host t)]
  | .boolVector _ _, a => by rw [value, value, h.bits]

theorem values_placed (h : Placed m m' place) (host : Endian) : ∀ (ms : Members) (a : Address),
    m'.values host ms (place a) = m.values host ms a
  | .nil, _ => rfl
  | .cons off _ t ms, a => by
    rw [values, values, ← h.add, value_placed h host t, values_placed h host ms]
end

end

theorem value_pointer (pointer : Address → Address) (host : Endian) (t : ValueType) (a : Address) :
    ({m with pointer := pointer} : Memory).value host t a = m.value host t a := by
  have hplaced : Placed m {m with pointer := pointer} id :=
    ⟨fun _ _ => rfl,fun _ => rfl,fun _ => rfl,fun _ => rfl,fun _ => rfl,fun _ => rfl,fun _ => rfl⟩
  exact value_placed hplaced host t a

end Memory

/-- Every value of the type is that of some object. -/
def StructValueType.Representable (root : StructValueType) : Prop := ∀ (host : Endian) (v : Value),
  root.toValueType.Has v → ∃ (m : Memory) (src : Address), m.value host root.toValueType src = v

end RmwCyclonedds
