import Mathlib.Data.List.Basic
import Mathlib.Data.List.Nodup
import Mathlib.Data.List.Perm.Basic

/-! Walking along a list beside an ascending list of the numbers of some of its entries. -/
namespace RmwCyclonedds.Library
variable {α β : Type}

/-- The entries with their numbers, from `n` on. -/
def numbered : Nat → List α → List (α × Int)
  | _, [] => []
  | n, x :: xs => (x,n) :: numbered (n+1) xs

@[simp] theorem numbered_length (n : Nat) (xs : List α) : (numbered n xs).length = xs.length := by
  induction xs generalizing n with
  | nil => rfl
  | cons x xs ih => simp only [numbered, List.length_cons, ih]

@[simp] theorem numbered_fst (n : Nat) (xs : List α) : (numbered n xs).map Prod.fst = xs := by
  induction xs generalizing n with
  | nil => rfl
  | cons x xs ih => simp only [numbered, List.map_cons, ih]

theorem mem_numbered {n : Nat} {xs : List α} {p : α × Int} :
    p ∈ numbered n xs ↔ ∃ i, ∃ h : i < xs.length, p = (xs[i], ((n + i : Nat) : Int)) := by
  induction xs generalizing n with
  | nil => simp [numbered]
  | cons x xs ih =>
    rw [numbered, List.mem_cons, ih]
    constructor
    · rintro (rfl | ⟨i,hi,rfl⟩)
      · exact ⟨0,Nat.succ_pos _,rfl⟩
      · exact ⟨i+1,Nat.succ_lt_succ hi,by simp [Nat.add_assoc, Nat.add_comm 1 i]⟩
    · rintro ⟨i,hi,rfl⟩
      cases i with
      | zero => exact .inl rfl
      | succ i => exact .inr ⟨i,Nat.lt_of_succ_lt_succ hi,by simp [Nat.add_assoc, Nat.add_comm 1 i]⟩

theorem numbered_snd_le {n : Nat} {xs : List α} {k : Int} (h : k ∈ (numbered n xs).map Prod.snd) :
    (n : Int) ≤ k ∧ k < n + xs.length := by
  obtain ⟨p,hp,rfl⟩ := List.mem_map.mp h
  obtain ⟨i,hi,rfl⟩ := mem_numbered.mp hp
  constructor <;> simp only <;> omega

theorem numbered_snd_nodup (n : Nat) (xs : List α) : ((numbered n xs).map Prod.snd).Nodup := by
  induction xs generalizing n with
  | nil => exact List.nodup_nil
  | cons x xs ih =>
    rw [numbered, List.map_cons, List.nodup_cons]
    refine ⟨fun h => ?_,ih (n+1)⟩
    have hn := (numbered_snd_le h).1
    omega

/-- Keeps an entry iff the next number of the list is its own. -/
def sweep : Nat → List α → List Int → List (Option α) × List Int
  | _, [], trigs => ([],trigs)
  | n, x :: xs, trigs =>
    if trigs.head? = some (n : Int) then
      let (kept,rest) := sweep (n+1) xs trigs.tail
      (some x :: kept,rest)
    else
      let (kept,rest) := sweep (n+1) xs trigs
      (none :: kept,rest)

private theorem eq_cons_of_mem {n : Int} {trigs : List Int} (sorted : trigs.Pairwise (· < ·)) (bound : ∀ t ∈ trigs, n ≤ t)
    (h : n ∈ trigs) : ∃ rest, trigs = n :: rest ∧ rest.Pairwise (· < ·) ∧ ∀ t ∈ rest, n < t := by
  cases trigs with
  | nil => cases h
  | cons t rest =>
    rw [List.pairwise_cons] at sorted
    rcases List.mem_cons.mp h with rfl | hr
    · exact ⟨rest,rfl,sorted.2,sorted.1⟩
    · have hlt := sorted.1 n hr
      have hle := bound t List.mem_cons_self
      omega

private theorem head_ne_of_not_mem {n : Nat} {trigs : List Int} (h : (n : Int) ∉ trigs) :
    ¬ (trigs ++ [-1]).head? = some (n : Int) := by
  cases trigs with
  | nil =>
    simp only [List.nil_append, List.head?_cons, Option.some.injEq]
    omega
  | cons t rest =>
    simp only [List.cons_append, List.head?_cons, Option.some.injEq]
    rintro rfl
    exact h List.mem_cons_self

/-- On an ascending list of numbers, closed by a negative one, the sweep keeps the entries whose numbers occur. -/
theorem sweep_eq (p : α → Bool) {xs : List α} {n : Nat} {trigs : List Int} (sorted : trigs.Pairwise (· < ·))
    (bound : ∀ t ∈ trigs, (n : Int) ≤ t) (hp : ∀ i (h : i < xs.length), ((n + i : Nat) : Int) ∈ trigs ↔ p xs[i] = true) :
    sweep n xs (trigs ++ [-1]) =
      (xs.map fun x => if p x then some x else none, trigs.filter (fun t => ((n + xs.length : Nat) : Int) ≤ t) ++ [-1]) := by
  induction xs generalizing n trigs with
  | nil =>
    have : trigs.filter (fun t => ((n + 0 : Nat) : Int) ≤ t) = trigs := by
      apply List.filter_eq_self.mpr
      intro t ht
      exact decide_eq_true (bound t ht)
    simp only [sweep, List.map_nil, List.length_nil, this]
  | cons x xs ih =>
    have hx : (n : Int) ∈ trigs ↔ p x = true := hp 0 (Nat.succ_pos _)
    have hxs (i : Nat) (hi : i < xs.length) : ((n + 1 + i : Nat) : Int) ∈ trigs ↔ p xs[i] = true := by
      have := hp (i+1) (Nat.succ_lt_succ hi)
      rwa [List.getElem_cons_succ, show n + (i + 1) = n + 1 + i by omega] at this
    have hlen : n + (x :: xs).length = n + 1 + xs.length := by
      rw [List.length_cons]
      omega
    by_cases hmem : (n : Int) ∈ trigs
    · obtain ⟨rest,rfl,hsorted,hrest⟩ := eq_cons_of_mem sorted bound hmem
      have hbound (u : Int) (hu : u ∈ rest) : ((n + 1 : Nat) : Int) ≤ u := by
        have := hrest u hu
        omega
      have hxs' (i : Nat) (hi : i < xs.length) : ((n + 1 + i : Nat) : Int) ∈ rest ↔ p xs[i] = true := by
        rw [← hxs i hi, List.mem_cons]
        constructor
        · exact .inr
        · rintro (h | h)
          · omega
          · exact h
      have hf : ¬ ((n + 1 + xs.length : Nat) : Int) ≤ (n : Int) := by omega
      rw [sweep, if_pos (by rfl), List.cons_append, List.tail_cons, ih hsorted hbound hxs', hlen,
        List.filter_cons_of_neg (by simpa only [decide_eq_true_eq] using hf)]
      simp only [List.map_cons, hx.mp hmem, ↓reduceIte]
    · have hn : ¬ p x = true := fun h => hmem (hx.mpr h)
      have hbound (u : Int) (hu : u ∈ trigs) : ((n + 1 : Nat) : Int) ≤ u := by
        have hle := bound u hu
        have hne : u ≠ n := fun h => hmem (h ▸ hu)
        omega
      rw [sweep, if_neg (head_ne_of_not_mem hmem), ih sorted hbound hxs, hlen]
      simp only [List.map_cons, hn]
      rfl

end RmwCyclonedds.Library
