import Mathlib.Data.List.Infix

/-! Searching and rewriting lists, with positions counted from the left. -/
namespace RmwCyclonedds.Library.Search
open List

section
variable {α : Type} [DecidableEq α] {p s a b : List α} {i n : Nat}

/-- The position of the first occurrence of `p`. -/
def find (p : List α) : List α → Option Nat
  | [] => if p = [] then some 0 else none
  | x :: s => if p.isPrefixOf (x :: s) then some 0 else (find p s).map (· + 1)

/-- The position of the first occurrence of `p` that is not before `pos`. -/
def findFrom (p s : List α) (pos : Nat) : Option Nat :=
  if s.length < pos then none else (find p (s.drop pos)).map (pos + ·)

/-- The position of the last occurrence of `p` that is not behind the given one. -/
def lastAt (p s : List α) : Nat → Option Nat
  | 0 => if p.isPrefixOf s then some 0 else none
  | n + 1 => if p.isPrefixOf (s.drop (n + 1)) then some (n + 1) else lastAt p s n

def rfind (p s : List α) : Option Nat := lastAt p s s.length

/-! ### First occurrences -/

theorem begins_iff : p.isPrefixOf s = true ↔ p <+: s := isPrefixOf_iff_prefix

private theorem find_zero (h : p <+: s) : find p s = some 0 := by
  cases s with
  | nil => rw [find, if_pos (prefix_nil.mp h)]
  | cons x s => rw [find, if_pos (begins_iff.mpr h)]

private theorem find_cons {x : α} (h : ¬p <+: x :: s) : find p (x :: s) = (find p s).map (· + 1) := by
  rw [find, if_neg (fun hp => h (begins_iff.mp hp))]

/-- An occurrence is the first one if none begins in what is before it. -/
theorem find_append (hp : p ≠ []) (h : ¬p <:+: a ++ p.dropLast) : find p (a ++ (p ++ b)) = some a.length := by
  induction a with
  | nil => exact find_zero (prefix_append p b)
  | cons x a ih =>
    have hx : ¬p <+: x :: (a ++ (p ++ b)) := by
      intro hpre
      have hinit : x :: a ++ p.dropLast <+: x :: (a ++ (p ++ b)) := by
        obtain ⟨r,hr⟩ := ( dropLast_prefix p).trans (prefix_append p b)
        exact ⟨r,by rw [← hr]; simp only [cons_append, append_assoc]⟩
      have hlen : p.length ≤ (x :: a ++ p.dropLast).length := by
        have := length_pos_iff.mpr hp
        simp only [length_append, length_cons, length_dropLast]
        omega
      exact h (prefix_of_prefix_length_le hpre hinit hlen).isInfix
    have ha : ¬p <:+: a ++ p.dropLast := fun hin => h (hin.trans (suffix_cons x _).isInfix)
    rw [cons_append, find_cons hx, ih ha]
    rfl

theorem find_some (h : find p s = some i) : s = s.take i ++ (p ++ s.drop (i + p.length)) := by
  induction s generalizing i with
  | nil =>
    rw [find] at h
    split at h
    · next hp => rw [hp]; simp only [take_nil, drop_nil, nil_append]
    · cases h
  | cons x s ih =>
    by_cases hx : p <+: x :: s
    · rw [find_zero hx] at h
      cases h
      obtain ⟨r,hr⟩ := hx
      rw [← hr, Nat.zero_add, drop_left, take_zero, nil_append]
    · rw [find_cons hx] at h
      obtain ⟨j,hj,rfl⟩ := Option.map_eq_some_iff.mp h
      have hn : j + 1 + p.length = (j + p.length) + 1 := by omega
      rw [take_succ_cons, hn, drop_succ_cons, cons_append, ← ih hj]

theorem find_none (h : find p s = none) : ¬p <:+: s := by
  induction s with
  | nil =>
    intro hin
    rw [find, if_pos (infix_nil.mp hin)] at h
    cases h
  | cons x s ih =>
    intro hin
    by_cases hx : p <+: x :: s
    · rw [find_zero hx] at h
      cases h
    · rw [find_cons hx] at h
      exact ih (Option.map_eq_none_iff.mp h) ((infix_cons_iff.mp hin).resolve_left hx)

theorem find_le (hp : p ≠ []) (h : find p s = some i) : i + p.length ≤ s.length := by
  have hs := congrArg length (find_some h)
  have hpos := length_pos_iff.mpr hp
  simp only [length_append, length_take, length_drop] at hs
  omega

/-! ### Last occurrences -/

theorem lastAt_some (h : lastAt p s n = some i) : i ≤ n ∧ p <+: s.drop i := by
  induction n with
  | zero =>
    rw [lastAt] at h
    split at h
    · next hp =>
      cases h
      exact ⟨le_rfl,begins_iff.mp hp⟩
    · cases h
  | succ n ih =>
    rw [lastAt] at h
    split at h
    · next hp =>
      cases h
      exact ⟨le_rfl,begins_iff.mp hp⟩
    · exact ⟨(ih h).1.trans n.le_succ,(ih h).2⟩

/-- An occurrence is the last one if none begins behind it. -/
theorem lastAt_eq (hi : i ≤ n) (h : p <+: s.drop i) (hlast : ∀ j, i < j → j ≤ n → ¬p <+: s.drop j) :
    lastAt p s n = some i := by
  induction n with
  | zero =>
    cases Nat.le_zero.mp hi
    exact if_pos (begins_iff.mpr h)
  | succ n ih =>
    rw [lastAt]
    by_cases he : i = n + 1
    · subst he
      rw [if_pos (begins_iff.mpr h)]
    · have hle : i ≤ n := by omega
      rw [if_neg (fun hp => hlast (n + 1) (by omega) le_rfl (begins_iff.mp hp)),
        ih hle (fun j hij hj => hlast j hij (by omega))]

theorem lastAt_zero_iff : lastAt p s 0 = some 0 ↔ p <+: s := by
  rw [lastAt]
  constructor
  · intro h
    split at h
    · next hp => exact begins_iff.mp hp
    · cases h
  · intro h
    rw [if_pos (begins_iff.mpr h)]

theorem rfind_append (hp : p ≠ []) : rfind p (a ++ p) = some a.length := by
  apply lastAt_eq
  · rw [length_append]
    exact Nat.le_add_right _ _
  · rw [drop_left]
  · intro j hj hjn hpre
    have hlen := hpre.length_le
    have hpos := length_pos_iff.mpr hp
    rw [length_drop, length_append] at hlen
    rw [length_append] at hjn
    omega

theorem lastAt_none (h : lastAt p s n = none) (hi : i ≤ n) : ¬p <+: s.drop i := by
  induction n with
  | zero =>
    rw [lastAt] at h
    split at h
    · cases h
    · next hp =>
      cases Nat.le_zero.mp hi
      rwa [drop_zero, ← begins_iff]
  | succ n ih =>
    rw [lastAt] at h
    split at h
    · cases h
    · next hp =>
      rcases Nat.le_succ_iff.mp hi with hle | rfl
      · exact ih h hle
      · rwa [← begins_iff]

theorem rfind_none_iff : rfind p s = none ↔ ¬p <:+: s := by
  constructor
  · rintro h ⟨a,b,rfl⟩
    have hle : a.length ≤ (a ++ p ++ b).length := by
      simp only [length_append]
      omega
    apply lastAt_none h hle
    rw [append_assoc, drop_left]
    exact prefix_append p b
  · intro h
    cases hi : rfind p s with
    | none => rfl
    | some i => exact absurd ((lastAt_some hi).2.isInfix.trans (drop_suffix i s).isInfix) h

/-- A last occurrence that reaches the end. -/
theorem rfind_at_end (h : rfind p s = some i) (hend : s.length - i - p.length = 0) : s = s.take i ++ p := by
  have hpre := (lastAt_some h).2
  have hlen := hpre.length_le
  rw [length_drop] at hlen
  have he : p = s.drop i := hpre.eq_of_length (by rw [length_drop]; omega)
  conv_lhs => rw [← take_append_drop i s]
  rw [← he]

end

/-! ### Replacing every occurrence -/

section
variable {α : Type} [DecidableEq α] {p q s a b : List α} {i : Nat}

/-- Walks over a list and writes `q` where `p` begins; the next `skip` elements are dropped. -/
def replaceSkipping (p q : List α) : Nat → List α → List α
  | _, [] => []
  | skip + 1, _ :: s => replaceSkipping p q skip s
  | 0, x :: s =>
    if p.isPrefixOf (x :: s) then q ++ replaceSkipping p q (p.length - 1) s else x :: replaceSkipping p q 0 s

/-- Every occurrence of `p`, from the left and without overlaps, replaced by `q`. -/
def replaceAll (p q s : List α) : List α := replaceSkipping p q 0 s

private theorem replaceSkipping_drop (k : Nat) : replaceSkipping p q k s = replaceAll p q (s.drop k) := by
  induction s generalizing k with
  | nil => rw [drop_nil, replaceSkipping, replaceAll, replaceSkipping]
  | cons x s ih =>
    cases k with
    | zero => rfl
    | succ k => rw [replaceSkipping, drop_succ_cons, ih]

private theorem replaceAll_cons {x : α} (h : ¬p <+: x :: s) : replaceAll p q (x :: s) = x :: replaceAll p q s := by
  rw [replaceAll, replaceSkipping, if_neg (fun hp => h (begins_iff.mp hp)), replaceAll]

theorem replaceAll_here (hp : p ≠ []) (s : List α) : replaceAll p q (p ++ s) = q ++ replaceAll p q s := by
  cases p with
  | nil => exact absurd rfl hp
  | cons x p =>
    have hpre : (x :: p).isPrefixOf (x :: (p ++ s)) := begins_iff.mpr (prefix_append (x :: p) s)
    rw [replaceAll, cons_append, replaceSkipping, if_pos hpre, replaceSkipping_drop, length_cons, Nat.add_sub_cancel,
      drop_left]

theorem replaceAll_absent (h : ¬p <:+: s) : replaceAll p q s = s := by
  induction s with
  | nil => rw [replaceAll, replaceSkipping]
  | cons x s ih =>
    have hs : ¬p <:+: s := fun hin => h (hin.trans (suffix_cons x s).isInfix)
    rw [replaceAll_cons (fun hpre => h hpre.isInfix), ih hs]

/-- Up to the first occurrence nothing changes. -/
theorem replaceAll_first (hp : p ≠ []) (h : ¬p <:+: a ++ p.dropLast) :
    replaceAll p q (a ++ (p ++ b)) = a ++ (q ++ replaceAll p q b) := by
  induction a with
  | nil => exact replaceAll_here hp b
  | cons x a ih =>
    have hx : ¬p <+: x :: (a ++ (p ++ b)) := by
      intro hpre
      have hf := find_append (b := b) hp h
      rw [cons_append, find_zero hpre] at hf
      cases hf
    have ha : ¬p <:+: a ++ p.dropLast := fun hin => h (hin.trans (suffix_cons x _).isInfix)
    rw [cons_append, replaceAll_cons hx, ih ha, cons_append]

/-- Searches from `pos` on and overwrites, until nothing more is found. -/
def replaceFrom (p q : List α) (hp : p ≠ []) (s : List α) (pos : Nat) : List α :=
  match _h : findFrom p s pos with
  | none => s
  | some i => replaceFrom p q hp (s.take i ++ (q ++ s.drop (i + p.length))) (i + q.length)
termination_by s.length - pos
decreasing_by
  have h := _h
  rw [findFrom] at h
  split at h
  · cases h
  · obtain ⟨j,hj,rfl⟩ := Option.map_eq_some_iff.mp h
    have hle := find_le hp hj
    have hpos := length_pos_iff.mpr hp
    simp only [length_drop] at hle
    simp only [length_append, length_take, length_drop]
    omega

private theorem replaceAll_found (hp : p ≠ []) (h : find p s = some i) :
    replaceAll p q s = s.take i ++ (q ++ replaceAll p q (s.drop (i + p.length))) := by
  induction s generalizing i with
  | nil =>
    have := find_le hp h
    have hpos := length_pos_iff.mpr hp
    rw [length_nil] at this
    omega
  | cons x s ih =>
    by_cases hx : p <+: x :: s
    · rw [find_zero hx] at h
      cases h
      obtain ⟨r,hr⟩ := hx
      rw [← hr, replaceAll_here hp, Nat.zero_add, drop_left, take_zero, nil_append]
    · rw [find_cons hx] at h
      obtain ⟨j,hj,rfl⟩ := Option.map_eq_some_iff.mp h
      have hn : j + 1 + p.length = (j + p.length) + 1 := by omega
      rw [replaceAll_cons hx, ih hj, take_succ_cons, hn, drop_succ_cons, cons_append]

/-- The loop leaves what is before its start and replaces every occurrence in the rest. -/
theorem replaceFrom_eq (hp : p ≠ []) (s : List α) (pos : Nat) (hpos : pos ≤ s.length) :
    replaceFrom p q hp s pos = s.take pos ++ replaceAll p q (s.drop pos) := by
  induction s, pos using replaceFrom.induct p q hp with
  | case1 s pos h =>
    rw [findFrom, if_neg (Nat.not_lt.mpr hpos)] at h
    have habs := find_none (Option.map_eq_none_iff.mp h)
    rw [replaceFrom, findFrom, if_neg (Nat.not_lt.mpr hpos), h, replaceAll_absent habs, take_append_drop]
  | case2 s pos i h ih =>
    have hfrom := h
    rw [findFrom, if_neg (Nat.not_lt.mpr hpos)] at h
    obtain ⟨j,hj,rfl⟩ := Option.map_eq_some_iff.mp h
    have hle := find_le hp hj
    rw [length_drop] at hle
    have htake : (s.take (pos + j)).length = pos + j := by
      rw [length_take]
      omega
    have hend : pos + j + q.length ≤ (s.take (pos + j) ++ (q ++ s.drop (pos + j + p.length))).length := by
      simp only [length_append, htake]
      omega
    have hdone : (s.take (pos + j) ++ q).length = pos + j + q.length := by rw [length_append, htake]
    rw [replaceFrom, hfrom]
    simp only
    rw [ih hend, ← append_assoc, ← hdone, take_left, drop_left, replaceAll_found hp hj, take_add, drop_drop]
    simp only [append_assoc, Nat.add_assoc]

/-- What is expected of a function that replaces every occurrence. -/
structure ReplacesAll (replace : List α → List α → List α → List α) : Prop where
  absent : ∀ {s p : List α} (q : List α), find p s = none → replace s p q = s
  first : ∀ {s p : List α} {i : Nat} (q : List α), p ≠ [] → find p s = some i →
    replace s p q = s.take i ++ (q ++ replace (s.drop (i + p.length)) p q)

theorem replacesAll_replaceAll : ReplacesAll fun s p q : List α => if p = [] then s else replaceAll p q s where
  absent {s p} q h := by
    split
    · rfl
    · exact replaceAll_absent (find_none h)
  first q hp h := by
    rw [if_neg hp, if_neg hp, replaceAll_found hp h]

theorem ReplacesAll.eq_replaceAll {replace : List α → List α → List α → List α} (h : ReplacesAll replace)
    (hp : p ≠ []) (s : List α) : replace s p q = replaceAll p q s := by
  induction hn : s.length using Nat.strong_induction_on generalizing s with
  | h n ih =>
    subst hn
    cases hf : find p s with
    | none => rw [h.absent q hf, replaceAll_absent (find_none hf)]
    | some i =>
      have hle := find_le hp hf
      have hpos := length_pos_iff.mpr hp
      have hlt : (s.drop (i + p.length)).length < s.length := by
        rw [length_drop]
        omega
      rw [h.first q hp hf, replaceAll_found hp hf, ih _ hlt _ rfl]

end
end RmwCyclonedds.Library.Search
