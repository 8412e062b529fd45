import Mathlib.Algebra.GroupWithZero.Nat
import Mathlib.Data.List.Induction

/-! Machines that move by labelled steps, and what holds along their runs. -/
namespace RmwCyclonedds.Library

/-- A step that is not enabled leads nowhere. -/
structure Machine (State Label : Type) where
  start : State
  next : State → Label → Option State

namespace Machine
variable {State Label : Type} (m : Machine State Label)

/-- The state that a sequence of steps leads to. -/
def run (labels : List Label) : Option State := labels.foldlM m.next m.start

theorem run_concat (labels : List Label) (l : Label) : m.run (labels ++ [l]) = (m.run labels).bind (m.next · l) := by
  unfold run
  rw [List.foldlM_append]
  cases labels.foldlM m.next m.start with
  | none => rfl
  | some s => exact bind_pure (m.next s l)

theorem run_concat_eq_some {labels : List Label} {l : Label} {s' : State} (h : m.run (labels ++ [l]) = some s') :
    ∃ s, m.run labels = some s ∧ m.next s l = some s' := by
  rw [run_concat] at h
  exact Option.bind_eq_some_iff.mp h

variable {m}

@[simp] theorem run_nil : m.run [] = some m.start := rfl

theorem run_next {labels : List Label} {s s' : State} {l : Label} (h : m.run labels = some s) (hl : m.next s l = some s') :
    m.run (labels ++ [l]) = some s' := by
  rw [run_concat, h]
  exact hl

/-- Induction over the steps of a run. -/
@[elab_as_elim]
theorem run_induction {motive : ∀ {labels : List Label} {s : State}, m.run labels = some s → Prop}
    (start : motive run_nil)
    (step : ∀ {labels s l s'} (h : m.run labels = some s) (hl : m.next s l = some s'), motive h → motive (run_next h hl))
    {labels : List Label} {s : State} (h : m.run labels = some s) : motive h := by
  induction labels using List.reverseRecOn generalizing s with
  | nil =>
    cases h
    exact start
  | append_singleton labels l ih =>
    obtain ⟨r,hr,hl⟩ := m.run_concat_eq_some h
    exact step hr hl (ih hr)

/-- An invariant of the states. -/
theorem invariant {I : State → Prop} (start : I m.start) (step : ∀ {s l s'}, I s → m.next s l = some s' → I s')
    {labels : List Label} {s : State} (h : m.run labels = some s) : I s := by
  induction h using run_induction with
  | start => exact start
  | step _ hl ih => exact step ih hl

/-! ### Sums along a run -/

private def historyFrom (next : State → Label → Option State) : State → List Label → List (State × Label)
  | _, [] => []
  | s, l :: labels => (s,l) :: match next s l with
    | none => []
    | some s' => historyFrom next s' labels

/-- The steps of a sequence, each with the state it is taken in. -/
def history (m : Machine State Label) (labels : List Label) : List (State × Label) := historyFrom m.next m.start labels

private theorem historyFrom_concat {next : State → Label → Option State} (l : Label) {labels : List Label} {r s : State}
    (h : labels.foldlM next r = some s) : historyFrom next r (labels ++ [l]) = historyFrom next r labels ++ [(s,l)] := by
  induction labels generalizing r with
  | nil =>
    cases h
    simp only [historyFrom, List.nil_append]
    split <;> rfl
  | cons k labels ih =>
    rw [List.foldlM_cons] at h
    obtain ⟨r',hr,hs⟩ := Option.bind_eq_some_iff.mp h
    simp only [List.cons_append, historyFrom, hr, ih hs]

theorem history_concat {labels : List Label} {s : State} (h : m.run labels = some s) (l : Label) :
    m.history (labels ++ [l]) = m.history labels ++ [(s,l)] := historyFrom_concat l h

/-- A condition that every step of a sequence meets in the state it is taken in. -/
def Along (m : Machine State Label) (C : State → Label → Prop) (labels : List Label) : Prop :=
  ∀ p ∈ m.history labels, C p.1 p.2

@[simp] theorem along_nil (C : State → Label → Prop) : m.Along C [] := nofun

theorem along_concat {C : State → Label → Prop} {labels : List Label} {s : State} (h : m.run labels = some s) (l : Label) :
    m.Along C (labels ++ [l]) ↔ m.Along C labels ∧ C s l := by
  simp only [Along, history_concat h, List.forall_mem_append, List.forall_mem_singleton]

/-- An invariant that steps keep under a condition, and what every step then satisfies. -/
theorem along_of_invariant {I : State → Prop} {C P : State → Label → Prop} (start : I m.start)
    (step : ∀ {s l s'}, I s → C s l → m.next s l = some s' → I s' ∧ P s l) {labels : List Label} {s : State}
    (h : m.run labels = some s) (condition : m.Along C labels) : I s ∧ m.Along P labels := by
  induction h using run_induction with
  | start => exact ⟨start,along_nil P⟩
  | @step labels s l s' h hl ih =>
    rw [along_concat h] at condition
    obtain ⟨hs,hlabels⟩ := ih condition.1
    obtain ⟨hs',hp⟩ := step hs condition.2 hl
    exact ⟨hs',(along_concat h l).mpr ⟨hlabels,hp⟩⟩

/-- What the steps of a sequence contribute altogether. -/
def tally (m : Machine State Label) (f : State → Label → Nat) (labels : List Label) : Nat :=
  ((m.history labels).map fun p => f p.1 p.2).sum

theorem tally_concat (f : State → Label → Nat) {labels : List Label} {s : State} (h : m.run labels = some s) (l : Label) :
    m.tally f (labels ++ [l]) = m.tally f labels + f s l := by
  rw [tally, tally, history_concat h, List.map_append, List.sum_append, List.map_singleton, List.sum_singleton]

end Machine
end RmwCyclonedds.Library
