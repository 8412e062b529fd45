import Mathlib.Data.Nat.ModEq
import Mathlib.Order.Iterate

/-! Offsets moved by laying out aligned data. An extent sends the offset where a
piece of data starts to the offset where it ends; padding makes it depend on the
start only through a power of two. -/
namespace RmwCyclonedds.Library

/-- Bytes skipped to bring an offset to a multiple of `n`. -/
def padding (n off : Nat) : Nat := if off % n = 0 then 0 else n - off % n

def alignUp (n off : Nat) : Nat := off + padding n off

theorem padding_lt {n : Nat} (hn : 0 < n) (off : Nat) : padding n off < n := by
  unfold padding
  split <;> omega

@[simp] theorem padding_one (off : Nat) : padding 1 off = 0 := by
  simp only [padding, Nat.mod_one, if_true]

theorem padding_of_dvd {n off : Nat} (h : n ∣ off) : padding n off = 0 := by
  rw [padding, if_pos (Nat.mod_eq_zero_of_dvd h)]

theorem padding_congr {n a b : Nat} (h : a % n = b % n) : padding n a = padding n b := by
  simp only [padding, h]

theorem le_alignUp (n off : Nat) : off ≤ alignUp n off := Nat.le_add_right _ _

theorem dvd_alignUp {n : Nat} (hn : 0 < n) (off : Nat) : n ∣ alignUp n off := by
  apply Nat.dvd_of_mod_eq_zero
  unfold alignUp padding
  split
  · assumption
  · have hlt := Nat.mod_lt off hn
    have he : off + (n - off % n) = n * (off / n) + n := by
      have := Nat.div_add_mod off n
      omega
    rw [he, Nat.add_mod_right, Nat.mul_mod_right]

/-- The aligned offset is the least multiple that is not behind the offset. -/
theorem alignUp_le {n a b : Nat} (hn : 0 < n) (hb : n ∣ b) (h : a ≤ b) : alignUp n a ≤ b := by
  obtain ⟨p,hp⟩ := dvd_alignUp hn a
  obtain ⟨q,rfl⟩ := hb
  have hlt : alignUp n a < n * (q + 1) := by
    have := padding_lt hn a
    rw [alignUp, Nat.mul_succ]
    omega
  rw [hp] at hlt ⊢
  exact Nat.mul_le_mul_left n (Nat.le_of_lt_succ (Nat.lt_of_mul_lt_mul_left hlt))

theorem alignUp_mono {n a b : Nat} (hn : 0 < n) (h : a ≤ b) : alignUp n a ≤ alignUp n b :=
  alignUp_le hn (dvd_alignUp hn b) (h.trans (le_alignUp n b))

/-- A layout function of alignment `2^k`: it never moves back, keeps the order of
offsets, commutes with whole steps of `2^k`, and ends at one residue of `2^k`
wherever it started. -/
structure Extent (k : Nat) (f : Nat → Nat) : Prop where
  le : ∀ a, a ≤ f a
  mono : ∀ {a b}, a ≤ b → f a ≤ f b
  shift : ∀ a, f (a + 2 ^ k) = f a + 2 ^ k
  settle : ∀ a b, f a % 2 ^ k = f b % 2 ^ k

namespace Extent
variable {k l : Nat} {f g : Nat → Nat}

theorem id : Extent 0 fun a => a :=
  ⟨fun _ => Nat.le_refl _, fun h => h, fun _ => rfl, fun _ _ => by simp only [Nat.pow_zero, Nat.mod_one]⟩

theorem add (n : Nat) : Extent 0 fun a => a + n :=
  ⟨fun _ => Nat.le_add_right _ _, fun h => Nat.add_le_add_right h n, fun a => by omega,
    fun _ _ => by simp only [Nat.pow_zero, Nat.mod_one]⟩

theorem align (k : Nat) : Extent k (alignUp (2 ^ k)) where
  le := le_alignUp _
  mono := alignUp_mono (Nat.two_pow_pos k)
  shift a := by
    have hp : padding (2 ^ k) (a + 2 ^ k) = padding (2 ^ k) a :=
      padding_congr (Nat.add_mod_right _ _)
    simp only [alignUp, hp]
    omega
  settle a b := by
    have hpos := Nat.two_pow_pos k
    rw [Nat.mod_eq_zero_of_dvd (dvd_alignUp hpos a), Nat.mod_eq_zero_of_dvd (dvd_alignUp hpos b)]

theorem shift_mul (hf : Extent k f) (a n : Nat) : f (a + 2 ^ k * n) = f a + 2 ^ k * n := by
  induction n with
  | zero => rfl
  | succ n ih => rw [Nat.mul_succ, ← Nat.add_assoc, hf.shift, ih, Nat.add_assoc]

theorem shift_dvd (hf : Extent k f) (a : Nat) {n : Nat} (h : 2 ^ k ∣ n) : f (a + n) = f a + n := by
  obtain ⟨m,rfl⟩ := h
  exact hf.shift_mul a m

/-- Starts with one residue are moved by the same amount. -/
theorem congr (hf : Extent k f) {a b : Nat} (h : a % 2 ^ k = b % 2 ^ k) : f a + b = f b + a := by
  rcases Nat.le_total a b with hab | hba
  · have hd := (Nat.modEq_iff_dvd' hab).mp h
    have he := hf.shift_dvd a hd
    rw [Nat.add_sub_cancel' hab] at he
    omega
  · have hd := (Nat.modEq_iff_dvd' hba).mp h.symm
    have he := hf.shift_dvd b hd
    rw [Nat.add_sub_cancel' hba] at he
    omega

private theorem mod_of_mod {a b : Nat} (hkl : k ≤ l) (h : a % 2 ^ l = b % 2 ^ l) : a % 2 ^ k = b % 2 ^ k :=
  Nat.ModEq.of_dvd (Nat.pow_dvd_pow 2 hkl) h

/-- Starts with one residue end with one residue, for every coarser alignment. -/
theorem mod_congr (hf : Extent k f) (hkl : k ≤ l) {a b : Nat} (h : a % 2 ^ l = b % 2 ^ l) :
    f a % 2 ^ l = f b % 2 ^ l := by
  have he := hf.congr (mod_of_mod hkl h)
  have hm : (f a + b) % 2 ^ l = (f b + b) % 2 ^ l := by
    rw [he]
    exact Nat.ModEq.add_left (f b) h
  exact Nat.ModEq.add_right_cancel' b hm

/-- Starts that agree up to an alignment, or any starts and an alignment that is met on the way. -/
theorem agree (hf : Extent k f) {a b : Nat} (h : l ≤ k ∨ a % 2 ^ l = b % 2 ^ l) : f a % 2 ^ l = f b % 2 ^ l := by
  rcases Nat.le_total l k with hlk | hkl
  · exact mod_of_mod hlk (hf.settle a b)
  · rcases h with hlk | h
    · exact mod_of_mod hlk (hf.settle a b)
    · exact hf.mod_congr hkl h

theorem comp (hf : Extent k f) (hg : Extent l g) : Extent (max k l) fun a => g (f a) where
  le a := (hf.le a).trans (hg.le _)
  mono h := hg.mono (hf.mono h)
  shift a := by
    rw [hf.shift_dvd a (Nat.pow_dvd_pow 2 (Nat.le_max_left k l)),
      hg.shift_dvd _ (Nat.pow_dvd_pow 2 (Nat.le_max_right k l))]
  settle a b := by
    rcases Nat.le_total k l with hkl | hlk
    · rw [Nat.max_eq_right hkl]
      exact hg.settle _ _
    · rw [Nat.max_eq_left hlk]
      exact hg.mod_congr hlk (hf.settle a b)

/-- From the second repetition on, every repetition moves by one constant stride. -/
theorem stride (hf : Extent k f) (a n : Nat) : f^[n + 1] a = f a + n * (f (f a) - f a) := by
  have hle := hf.le (f a)
  have hd : 2 ^ k ∣ f (f a) - f a := (Nat.modEq_iff_dvd' hle).mp (hf.settle _ _)
  induction n with
  | zero => simp
  | succ n ih =>
    rw [Function.iterate_succ_apply', ih, hf.shift_dvd (f a) (Dvd.dvd.mul_left hd n), Nat.succ_mul]
    omega

/-- The stride is the same wherever the run starts. -/
theorem stride_const (hf : Extent k f) (a b : Nat) : f (f a) - f a = f (f b) - f b := by
  have he := hf.congr (hf.settle a b)
  have := hf.le (f a)
  have := hf.le (f b)
  omega

theorem iterate_le_iterate (hf : Extent k f) {n n' : Nat} (h : n ≤ n') (a : Nat) : f^[n] a ≤ f^[n'] a :=
  Function.monotone_iterate_of_id_le hf.le h a

theorem iterate_mono (hf : Extent k f) (hfg : ∀ a, f a ≤ g a) (n a : Nat) : f^[n] a ≤ g^[n] a :=
  Monotone.iterate_le_of_le (fun _ _ h => hf.mono h) hfg n a

end Extent
end RmwCyclonedds.Library
