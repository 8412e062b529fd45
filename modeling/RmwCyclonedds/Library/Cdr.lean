import RmwCyclonedds.Library.ByteOrder
import RmwCyclonedds.Library.Extent

/-! Plain CDR: what a value looks like on the wire. Every primitive is aligned to its
own width relative to the start of the stream; strings and sequences carry a 32-bit count. -/
namespace RmwCyclonedds.Library

inductive Width where
  | one
  | two
  | four
  | eight
  deriving DecidableEq, Repr

def Width.log : Width → Nat
  | one => 0
  | two => 1
  | four => 2
  | eight => 3

def Width.bytes (w : Width) : Nat := 2 ^ w.log

theorem Width.bytes_pos (w : Width) : 0 < w.bytes := Nat.two_pow_pos _

/-- A message value, free of any memory layout. Structs and arrays are laid out alike. -/
inductive Value where
  | primitive (width : Width) (number : Nat)
  | u8string (chars : List Byte)
  | u16string (units : List UInt16)
  | struct (members : List Value)
  | array (elements : List Value)
  | sequence (elements : List Value)

namespace Value

def encodeU32 (e : Endian) (n off : Nat) : List Byte :=
  List.replicate (padding 4 off) 0 ++ e.encode 4 n

def encodeUnits (e : Endian) (units : List UInt16) : List Byte :=
  units.flatMap fun u => e.encode 2 u.toNat

mutual
/-- The bytes a value adds to a stream whose next byte has the given offset. -/
def encode (e : Endian) : Value → Nat → List Byte
  | primitive w n, off => List.replicate (padding w.bytes off) 0 ++ e.encode w.bytes n
  | u8string cs, off => encodeU32 e (cs.length + 1) off ++ (cs ++ [0])
  | u16string us, off => encodeU32 e (2 * us.length) off ++ encodeUnits e us
  | struct vs, off => encodeAll e vs off
  | array vs, off => encodeAll e vs off
  | sequence vs, off => encodeU32 e vs.length off ++ encodeAll e vs (alignUp 4 off + 4)

def encodeAll (e : Endian) : List Value → Nat → List Byte
  | [], _ => []
  | v :: vs, off => encode e v off ++ encodeAll e vs (off + (encode e v off).length)
end

mutual
/-- The offset at which the encoding ends; it does not depend on the byte order. -/
def finish : Value → Nat → Nat
  | primitive w _, off => alignUp w.bytes off + w.bytes
  | u8string cs, off => alignUp 4 off + 4 + (cs.length + 1)
  | u16string us, off => alignUp 4 off + 4 + 2 * us.length
  | struct vs, off => finishAll vs off
  | array vs, off => finishAll vs off
  | sequence vs, off => finishAll vs (alignUp 4 off + 4)

def finishAll : List Value → Nat → Nat
  | [], off => off
  | v :: vs, off => finishAll vs (finish v off)
end

mutual
/-- Logarithm of the strictest alignment a value meets. -/
def alignLog : Value → Nat
  | primitive w _ => w.log
  | u8string _ => 2
  | u16string _ => 2
  | struct vs => alignLogAll vs
  | array vs => alignLogAll vs
  | sequence vs => max 2 (alignLogAll vs)

def alignLogAll : List Value → Nat
  | [] => 0
  | v :: vs => max (alignLog v) (alignLogAll vs)
end

mutual
/-- The counts of all strings and sequences fit their 32-bit length fields. -/
def Fits : Value → Prop
  | primitive _ _ => True
  | u8string cs => cs.length + 1 < 2 ^ 32
  | u16string us => 2 * us.length < 2 ^ 32
  | struct vs => FitsAll vs
  | array vs => FitsAll vs
  | sequence vs => vs.length < 2 ^ 32 ∧ FitsAll vs

def FitsAll : List Value → Prop
  | [] => True
  | v :: vs => Fits v ∧ FitsAll vs
end

theorem encodeU32_length (e : Endian) (n off : Nat) : off + (encodeU32 e n off).length = alignUp 4 off + 4 := by
  simp only [encodeU32, List.length_append, List.length_replicate, Endian.encode_length, alignUp]
  omega

theorem encodeUnits_length (e : Endian) (us : List UInt16) : (encodeUnits e us).length = 2 * us.length := by
  induction us with
  | nil => rfl
  | cons u us ih =>
    simp only [encodeUnits, List.flatMap_cons, List.length_append, Endian.encode_length, List.length_cons] at ih ⊢
    omega

mutual
theorem encode_length (e : Endian) : ∀ (v : Value) (off : Nat), off + (encode e v off).length = v.finish off
  | primitive w n, off => by
    simp only [encode, finish, List.length_append, List.length_replicate, Endian.encode_length, alignUp]
    omega
  | u8string cs, off => by
    have := encodeU32_length e (cs.length + 1) off
    simp only [encode, finish, List.length_append, List.length_singleton]
    omega
  | u16string us, off => by
    have := encodeU32_length e (2 * us.length) off
    simp only [encode, finish, List.length_append, encodeUnits_length]
    omega
  | struct vs, off => encodeAll_length e vs off
  | array vs, off => encodeAll_length e vs off
  | sequence vs, off => by
    have := encodeU32_length e vs.length off
    have := encodeAll_length e vs (alignUp 4 off + 4)
    simp only [encode, finish, List.length_append]
    omega

theorem encodeAll_length (e : Endian) :
    ∀ (vs : List Value) (off : Nat), off + (encodeAll e vs off).length = finishAll vs off
  | [], _ => rfl
  | v :: vs, off => by
    have hv := encode_length e v off
    have hvs := encodeAll_length e vs (v.finish off)
    simp only [encodeAll, finishAll, List.length_append, hv]
    omega
end

theorem encodeAll_cons (e : Endian) (v : Value) (vs : List Value) (off : Nat) :
    encodeAll e (v :: vs) off = encode e v off ++ encodeAll e vs (v.finish off) := by
  rw [encodeAll, encode_length]

private theorem counted_extent {k : Nat} {f : Nat → Nat} (hf : Extent k f) :
    Extent (max 2 k) fun off => f (alignUp 4 off + 4) := by
  have h := ((Extent.align 2).comp (Extent.add 4)).comp hf
  rwa [Nat.max_eq_left (Nat.zero_le 2)] at h

mutual
theorem finish_extent : ∀ v : Value, Extent v.alignLog v.finish
  | primitive w n => by
    have h := (Extent.align w.log).comp (Extent.add w.bytes)
    rwa [Nat.max_eq_left (Nat.zero_le _)] at h
  | u8string cs => by
    have h := counted_extent (Extent.add (cs.length + 1))
    rwa [Nat.max_eq_left (Nat.zero_le _)] at h
  | u16string us => by
    have h := counted_extent (Extent.add (2 * us.length))
    rwa [Nat.max_eq_left (Nat.zero_le _)] at h
  | struct vs => finishAll_extent vs
  | array vs => finishAll_extent vs
  | sequence vs => counted_extent (finishAll_extent vs)

theorem finishAll_extent : ∀ vs : List Value, Extent (alignLogAll vs) (finishAll vs)
  | [] => Extent.id
  | v :: vs => (finish_extent v).comp (finishAll_extent vs)
end

private theorem mod_two_pow {k l a b : Nat} (hkl : k ≤ l) (h : a % 2 ^ l = b % 2 ^ l) :
    a % 2 ^ k = b % 2 ^ k :=
  Nat.ModEq.of_dvd (Nat.pow_dvd_pow 2 hkl) h

private theorem encodeU32_congr (e : Endian) (n : Nat) {a b : Nat} (h : a % 4 = b % 4) :
    encodeU32 e n a = encodeU32 e n b := by
  rw [encodeU32, encodeU32, padding_congr h]

mutual
/-- The encoding depends on its offset only through the strictest alignment met. -/
theorem encode_congr (e : Endian) : ∀ (v : Value) {k a b : Nat}, v.alignLog ≤ k → a % 2 ^ k = b % 2 ^ k →
    encode e v a = encode e v b
  | primitive w n, k, a, b, hk, h => by
    have hp : padding w.bytes a = padding w.bytes b := padding_congr (mod_two_pow hk h)
    rw [encode, encode, hp]
  | u8string cs, k, a, b, hk, h => by
    rw [encode, encode, encodeU32_congr e _ (mod_two_pow hk h)]
  | u16string us, k, a, b, hk, h => by
    rw [encode, encode, encodeU32_congr e _ (mod_two_pow hk h)]
  | struct vs, k, a, b, hk, h => encodeAll_congr e vs hk h
  | array vs, k, a, b, hk, h => encodeAll_congr e vs hk h
  | sequence vs, k, a, b, hk, h => by
    have hk2 : 2 ≤ k := (Nat.le_max_left _ _).trans hk
    have hstart : (alignUp 4 a + 4) % 2 ^ k = (alignUp 4 b + 4) % 2 ^ k :=
      ((Extent.align 2).comp (Extent.add 4)).mod_congr hk2 h
    rw [encode, encode, encodeU32_congr e _ (mod_two_pow hk2 h),
      encodeAll_congr e vs ((Nat.le_max_right _ _).trans hk) hstart]

theorem encodeAll_congr (e : Endian) : ∀ (vs : List Value) {k a b : Nat}, alignLogAll vs ≤ k →
    a % 2 ^ k = b % 2 ^ k → encodeAll e vs a = encodeAll e vs b
  | [], _, _, _, _, _ => rfl
  | v :: vs, k, a, b, hk, h => by
    have hv : v.alignLog ≤ k := (Nat.le_max_left _ _).trans hk
    rw [encodeAll_cons, encodeAll_cons, encode_congr e v hv h,
      encodeAll_congr e vs ((Nat.le_max_right _ _).trans hk) ((finish_extent v).mod_congr hv h)]
end

theorem fitsAll_iff (vs : List Value) : FitsAll vs ↔ ∀ v ∈ vs, Fits v := by
  induction vs with
  | nil => simp [FitsAll]
  | cons v vs ih => simp [FitsAll, ih]

end Value
end RmwCyclonedds.Library
