import RmwCyclonedds.Library.ByteOrder
import Mathlib.Tactic.IntervalCases

/-! Byte swapping of fixed-width words, and the outcomes of a call. -/
namespace RmwCyclonedds
open Library

inductive Exception where
  | runtimeError (what : String)
  | logicError (what : String)
  | overflowError (what : String)
  | lengthError (what : String)
  | outOfRange
  | badAlloc
  deriving DecidableEq, Repr

/-- The ways a call ends without returning. `undefined` is behaviour that the
language leaves undefined, such as a read outside a buffer. -/
inductive Stop where
  | throws (e : Exception)
  | terminates
  | undefined
  deriving DecidableEq, Repr

abbrev Outcome := Except Stop

theorem Outcome.bind_eq_ok {ε α β : Type} {x : Except ε α} {f : α → Except ε β} {r : β} (h : x >>= f = .ok r) :
    ∃ a, x = .ok a ∧ f a = .ok r := by
  cases x with
  | error e => cases h
  | ok a => exact ⟨a,rfl,h⟩

/-- A result together with the fact that the call returned it. -/
def Outcome.attach {α : Type} (x : Outcome α) : Outcome {a // x = .ok a} :=
  match x with
  | .ok a => .ok ⟨a,rfl⟩
  | .error e => .error e

theorem Outcome.attach_ok {α : Type} {x : Outcome α} {a : α} (h : x = .ok a) : x.attach = .ok ⟨a,h⟩ := by
  subst h
  rfl

/-- `catch (std::exception &)`: the call ends with the fallback. -/
def Outcome.caught {α : Type} (x : Outcome α) (fallback : α) : Outcome α :=
  match x with
  | .error (.throws _) => .ok fallback
  | x => x

/-- The characters of a `std::string`. -/
abbrev Text := List Char

def uint32Max : Nat := 2 ^ 32 - 1

def sizeMax : Nat := 2 ^ 64 - 1

def bswap16 (u : BitVec 16) : BitVec 16 := (u >>> 8) ||| (u <<< 8)

def bswap32 (u : BitVec 32) : BitVec 32 :=
  (u >>> 24) ||| ((u &&& 0x00ff0000#32) >>> 8) ||| ((u &&& 0x0000ff00#32) <<< 8) ||| (u <<< 24)

def bswap64 (u : BitVec 64) : BitVec 64 :=
  (u >>> 56) |||
  ((u &&& 0x00ff000000000000#64) >>> 40) |||
  ((u &&& 0x0000ff0000000000#64) >>> 24) |||
  ((u &&& 0x000000ff00000000#64) >>> 8) |||
  ((u &&& 0x00000000ff000000#64) <<< 8) |||
  ((u &&& 0x0000000000ff0000#64) <<< 24) |||
  ((u &&& 0x000000000000ff00#64) <<< 40) |||
  (u <<< 56)

/-- `bswapN<n>`: copy the bytes into a word of the host, swap it, copy them back. -/
def bswapN (host : Endian) (n : Nat) (x : List Byte) : List Byte :=
  match n with
  | 2 => host.encode 2 (bswap16 (BitVec.ofNat 16 (host.decode x))).toNat
  | 4 => host.encode 4 (bswap32 (BitVec.ofNat 32 (host.decode x))).toNat
  | 8 => host.encode 8 (bswap64 (BitVec.ofNat 64 (host.decode x))).toNat
  | _ => x

private theorem bswap16_bit (u : BitVec 16) (i : Nat) (hi : i < 2) (j : Nat) (hj : j < 8) :
    (bswap16 u).getLsbD (8 * i + j) = u.getLsbD (8 * (2 - 1 - i) + j) := by
  interval_cases i <;> interval_cases j <;> simp [bswap16]

private theorem bswap32_bit (u : BitVec 32) (i : Nat) (hi : i < 4) (j : Nat) (hj : j < 8) :
    (bswap32 u).getLsbD (8 * i + j) = u.getLsbD (8 * (4 - 1 - i) + j) := by
  interval_cases i <;> interval_cases j <;> simp [bswap32]

private theorem bswap64_bit (u : BitVec 64) (i : Nat) (hi : i < 8) (j : Nat) (hj : j < 8) :
    (bswap64 u).getLsbD (8 * i + j) = u.getLsbD (8 * (8 - 1 - i) + j) := by
  interval_cases i <;> interval_cases j <;> simp [bswap64]

private theorem swap_bytes {width bits : Nat} (host : Endian) (swap : BitVec bits → BitVec bits)
    (hbits : 256 ^ width = 2 ^ bits)
    (hswap : ∀ u : BitVec bits, ∀ i < width, ∀ j < 8,
      (swap u).getLsbD (8 * i + j) = u.getLsbD (8 * (width - 1 - i) + j))
    (x : List Byte) (hx : x.length = width) :
    host.encode width (swap (BitVec.ofNat bits (host.decode x))).toNat = x.reverse := by
  have hlt : host.decode x < 2 ^ bits := by
    rw [← hbits, ← hx]
    exact host.decode_lt x
  have h := host.encode_eq_reverse (hswap (BitVec.ofNat bits (host.decode x)))
  rw [h, BitVec.toNat_ofNat, Nat.mod_eq_of_lt hlt, ← hx, host.encode_decode]

/-- Swapping a word of the host reverses its bytes, on either kind of host. -/
theorem bswapN_eq_reverse (host : Endian) {n : Nat} (hn : n = 1 ∨ n = 2 ∨ n = 4 ∨ n = 8)
    (x : List Byte) (hx : x.length = n) : bswapN host n x = x.reverse := by
  rcases hn with rfl | rfl | rfl | rfl
  · obtain ⟨b,rfl⟩ := List.length_eq_one_iff.mp hx
    rfl
  · exact swap_bytes host bswap16 rfl bswap16_bit x hx
  · exact swap_bytes host bswap32 rfl bswap32_bit x hx
  · exact swap_bytes host bswap64 rfl bswap64_bit x hx

end RmwCyclonedds
