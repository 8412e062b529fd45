import Mathlib.Algebra.Group.Nat.Defs
import Mathlib.Data.Nat.Basic

/-! Numbers of a fixed width as byte strings, least or most significant byte first. -/
namespace RmwCyclonedds.Library

abbrev Byte := UInt8

inductive Endian where
  | little
  | big
  deriving DecidableEq, Repr

private def littleBytes : Nat → Nat → List Byte
  | 0, _ => []
  | width + 1, n => UInt8.ofNat n :: littleBytes width (n / 256)

private def littleValue : List Byte → Nat
  | [] => 0
  | b :: bs => b.toNat + 256 * littleValue bs

private theorem littleBytes_length (width n : Nat) : (littleBytes width n).length = width := by
  induction width generalizing n with
  | zero => rfl
  | succ width ih => simp only [littleBytes, List.length_cons, ih]

private theorem littleValue_littleBytes (width n : Nat) :
    littleValue (littleBytes width n) = n % 256 ^ width := by
  induction width generalizing n with
  | zero => simp only [littleBytes, littleValue, Nat.pow_zero, Nat.mod_one]
  | succ width ih =>
    have hpow : 256 ^ (width + 1) = 256 * 256 ^ width := Nat.pow_succ'
    rw [littleBytes, littleValue, ih, UInt8.toNat_ofNat', hpow]
    exact Nat.mod_mul.symm

private theorem littleValue_lt (bs : List Byte) : littleValue bs < 256 ^ bs.length := by
  induction bs with
  | nil => simp only [littleValue, List.length_nil, Nat.pow_zero, Nat.lt_one_iff]
  | cons b bs ih =>
    have hb : b.toNat < 256 := b.toNat_lt
    simp only [littleValue, List.length_cons, Nat.pow_succ]
    omega

private theorem littleBytes_littleValue (bs : List Byte) :
    littleBytes bs.length (littleValue bs) = bs := by
  induction bs with
  | nil => rfl
  | cons b bs ih =>
    have hb : b.toNat < 256 := b.toNat_lt
    have hlow : UInt8.ofNat (b.toNat + 256 * littleValue bs) = b := by
      apply UInt8.toNat_inj.mp
      rw [UInt8.toNat_ofNat', Nat.add_mul_mod_self_left, Nat.mod_eq_of_lt hb]
    have hhigh : (b.toNat + 256 * littleValue bs) / 256 = littleValue bs := by omega
    rw [List.length_cons, littleValue, littleBytes, hlow, hhigh, ih]

private theorem littleBytes_mod (width n : Nat) :
    littleBytes width (n % 256 ^ width) = littleBytes width n := by
  have h := littleBytes_littleValue (littleBytes width n)
  rwa [littleBytes_length, littleValue_littleBytes] at h

private theorem littleBytes_getElem (width n i : Nat) (h : i < (littleBytes width n).length) :
    (littleBytes width n)[i] = UInt8.ofNat (n / 256 ^ i) := by
  induction width generalizing n i with
  | zero => simp [littleBytes] at h
  | succ width ih =>
    cases i with
    | zero => simp [littleBytes]
    | succ i =>
      have hi : i < (littleBytes width (n / 256)).length := by simpa [littleBytes] using h
      simp only [littleBytes, List.getElem_cons_succ, ih _ _ hi, Nat.div_div_eq_div_mul]
      rw [← Nat.pow_succ']

private theorem byte_testBit (n i j : Nat) (hj : j < 8) :
    (UInt8.ofNat (n / 256 ^ i)).toNat.testBit j = n.testBit (8 * i + j) := by
  have hpow : 256 ^ i = 2 ^ (8 * i) := (Nat.pow_mul 2 8 i).symm
  rw [UInt8.toNat_ofNat', Nat.testBit_mod_two_pow, hpow, Nat.testBit_div_two_pow]
  simp only [hj, decide_true, Bool.true_and]
  rw [Nat.add_comm]

private theorem byte_ext {a b : Byte} (h : ∀ j < 8, a.toNat.testBit j = b.toNat.testBit j) : a = b := by
  apply UInt8.toNat_inj.mp
  apply Nat.eq_of_testBit_eq
  intro j
  by_cases hj : j < 8
  · exact h j hj
  · have hpow : 2 ^ 8 ≤ 2 ^ j := Nat.pow_le_pow_right (by decide) (by omega)
    rw [Nat.testBit_lt_two_pow (Nat.lt_of_lt_of_le a.toNat_lt hpow),
      Nat.testBit_lt_two_pow (Nat.lt_of_lt_of_le b.toNat_lt hpow)]

namespace Endian

def opposite : Endian → Endian
  | little => big
  | big => little

@[simp] theorem opposite_opposite (e : Endian) : e.opposite.opposite = e := by cases e <;> rfl

theorem opposite_ne (e : Endian) : e.opposite ≠ e := by cases e <;> decide

theorem eq_or_opposite (e f : Endian) : f = e ∨ f = e.opposite := by cases e <;> cases f <;> decide

/-- The `width` bytes of a number; higher digits are dropped. -/
def encode : Endian → Nat → Nat → List Byte
  | little, width, n => littleBytes width n
  | big, width, n => (littleBytes width n).reverse

def decode : Endian → List Byte → Nat
  | little, bs => littleValue bs
  | big, bs => littleValue bs.reverse

@[simp] theorem encode_length (e : Endian) (width n : Nat) : (e.encode width n).length = width := by
  cases e <;> simp [encode, littleBytes_length]

theorem decode_encode_mod (e : Endian) (width n : Nat) :
    e.decode (e.encode width n) = n % 256 ^ width := by
  cases e <;> simp [encode, decode, littleValue_littleBytes]

theorem decode_encode (e : Endian) {width n : Nat} (h : n < 256 ^ width) :
    e.decode (e.encode width n) = n := by
  rw [decode_encode_mod, Nat.mod_eq_of_lt h]

theorem encode_decode (e : Endian) (bs : List Byte) : e.encode bs.length (e.decode bs) = bs := by
  cases e with
  | little => exact littleBytes_littleValue bs
  | big =>
    have h := littleBytes_littleValue bs.reverse
    rw [List.length_reverse] at h
    simp only [encode, decode, h, List.reverse_reverse]

theorem decode_lt (e : Endian) (bs : List Byte) : e.decode bs < 256 ^ bs.length := by
  cases e with
  | little => exact littleValue_lt bs
  | big => simpa only [decode, List.length_reverse] using littleValue_lt bs.reverse

/-- A byte string of the right width is determined by the number it stands for. -/
theorem decode_injective (e : Endian) {as bs : List Byte} (hlen : as.length = bs.length)
    (h : e.decode as = e.decode bs) : as = bs := by
  rw [← e.encode_decode as, ← e.encode_decode bs, hlen, h]

theorem encode_injective (e : Endian) {width n k : Nat} (hn : n < 256 ^ width) (hk : k < 256 ^ width)
    (h : e.encode width n = e.encode width k) : n = k := by
  rw [← e.decode_encode hn, ← e.decode_encode hk, h]

theorem encode_mod (e : Endian) (width n : Nat) : e.encode width (n % 256 ^ width) = e.encode width n := by
  cases e <;> simp only [encode, littleBytes_mod]

/-- Reversing the bytes changes the byte order and nothing else. -/
theorem encode_reverse (e : Endian) (width n : Nat) :
    (e.encode width n).reverse = e.opposite.encode width n := by
  cases e <;> simp [encode, opposite]

theorem decode_reverse (e : Endian) (bs : List Byte) : e.decode bs.reverse = e.opposite.decode bs := by
  cases e <;> simp [decode, opposite]

/-- Two numbers whose bytes come in opposite orders have mutually reversed encodings. -/
theorem encode_eq_reverse (e : Endian) {width x y : Nat}
    (h : ∀ i < width, ∀ j < 8, y.testBit (8 * i + j) = x.testBit (8 * (width - 1 - i) + j)) :
    e.encode width y = (e.encode width x).reverse := by
  have hl : littleBytes width y = (littleBytes width x).reverse := by
    apply List.ext_getElem
    · simp only [List.length_reverse, littleBytes_length]
    · intro i hi hr
      rw [List.getElem_reverse, littleBytes_getElem, littleBytes_getElem]
      apply byte_ext
      intro j hj
      rw [littleBytes_length] at hi
      rw [byte_testBit _ _ _ hj, byte_testBit _ _ _ hj, h i hi j hj, littleBytes_length]
  cases e
  · exact hl
  · simp only [encode, hl]

end Endian
end RmwCyclonedds.Library
