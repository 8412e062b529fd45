import Mathlib.Data.List.Forall2
import RmwCyclonedds.Library.Runs
import RmwCyclonedds.Library.Topic

/-! Machines that do nothing which another could not do, and topics with corresponding messages. -/
namespace RmwCyclonedds.Library

namespace Machine
variable {State Label State' Label' : Type}

/-- The state that a sequence of steps leads to from another one. -/
def runFrom (m : Machine State Label) (s : State) (labels : List Label) : Option State := labels.foldlM m.next s

theorem runFrom_append (m : Machine State Label) {s s' : State} {labels : List Label} (h : m.runFrom s labels = some s')
    (more : List Label) : m.runFrom s (labels ++ more) = m.runFrom s' more := by
  rw [runFrom] at h
  rw [runFrom, List.foldlM_append, h]
  rfl

@[simp] theorem runFrom_single (m : Machine State Label) (s : State) (l : Label) : m.runFrom s [l] = m.next s l := by
  rw [runFrom, List.foldlM_cons]
  exact bind_pure (m.next s l)

/-- Each step of one machine is some steps of the other, in related states. -/
structure SimulatedBy (m : Machine State Label) (n : Machine State' Label') (R : State → State' → Prop) : Prop where
  start : R m.start n.start
  step : ∀ {s l s' t}, R s t → m.next s l = some s' → ∃ labels t', n.runFrom t labels = some t' ∧ R s' t'

/-- Then each run of the one is a run of the other. -/
theorem SimulatedBy.run {m : Machine State Label} {n : Machine State' Label'} {R : State → State' → Prop}
    (h : m.SimulatedBy n R) {labels : List Label} {s : State} (hs : m.run labels = some s) :
    ∃ labels' t, n.run labels' = some t ∧ R s t := by
  induction hs using run_induction with
  | start => exact ⟨[],n.start,rfl,h.start⟩
  | step _ hl ih =>
    obtain ⟨done,t,ht,hr⟩ := ih
    obtain ⟨more,t',ht',hr'⟩ := h.step hr hl
    exact ⟨done ++ more,t',(n.runFrom_append ht more).trans ht',hr'⟩

end Machine

/-! ### Lists -/

section
variable {α β : Type} {R : α → β → Prop}

theorem forall₂_getElem? {as : List α} {bs : List β} (h : List.Forall₂ R as bs) {i : Nat} {a : α} (ha : as[i]? = some a) :
    ∃ b, bs[i]? = some b ∧ R a b := by
  induction h generalizing i with
  | nil => cases ha
  | cons hab _ ih =>
    cases i with
    | zero =>
      cases ha
      exact ⟨_,rfl,hab⟩
    | succ i => exact ih ha

theorem forall₂_eraseIdx {as : List α} {bs : List β} (h : List.Forall₂ R as bs) (i : Nat) :
    List.Forall₂ R (as.eraseIdx i) (bs.eraseIdx i) := by
  induction h generalizing i with
  | nil => exact .nil
  | cons hab htail ih =>
    cases i with
    | zero => exact htail
    | succ i => exact .cons hab (ih i)

theorem forall₂_concat {as : List α} {bs : List β} (h : List.Forall₂ R as bs) {a : α} {b : β} (hab : R a b) :
    List.Forall₂ R (as ++ [a]) (bs ++ [b]) := List.rel_append h (.cons hab .nil)

/-- Elements of the one list have partners in the other. -/
theorem exists_of_forall₂ {as : List α} {bs : List β} (h : List.Forall₂ R as bs) {a : α} (ha : a ∈ as) : ∃ b ∈ bs, R a b := by
  obtain ⟨i,hi⟩ := List.mem_iff_getElem?.mp ha
  obtain ⟨b,hb,hab⟩ := forall₂_getElem? h hi
  exact ⟨b,List.mem_of_getElem? hb,hab⟩

end

/-! ### Topics -/

namespace Topic
variable {Reader Msg Msg' : Type} {R : Msg → Msg' → Prop}

/-- Message by message the same, in another form. -/
structure Rel (R : Msg → Msg' → Prop) (t : Topic Reader Msg) (u : Topic Reader Msg') : Prop where
  flight : ∀ r, List.Forall₂ R (t.flight r) (u.flight r)
  queue : ∀ r, List.Forall₂ R (t.queue r) (u.queue r)

variable {t : Topic Reader Msg} {u : Topic Reader Msg'}

theorem rel_empty : Rel R (.empty : Topic Reader Msg) (.empty : Topic Reader Msg') := ⟨fun _ => .nil,fun _ => .nil⟩

theorem Rel.write (h : Rel R t u) {m : Msg} {m' : Msg'} (hm : R m m') : Rel R (t.write m) (u.write m') :=
  {h with flight := fun r => .cons hm (h.flight r)}

variable [DecidableEq Reader]

private theorem forall₂_update {f : Reader → List Msg} {g : Reader → List Msg'} (h : ∀ r, List.Forall₂ R (f r) (g r))
    (r : Reader) {l : List Msg} {l' : List Msg'} (hl : List.Forall₂ R l l') (r' : Reader) :
    List.Forall₂ R (Function.update f r l r') (Function.update g r l' r') := by
  by_cases he : r' = r
  · subst he
    rw [Function.update_self, Function.update_self]
    exact hl
  · rw [Function.update_of_ne he, Function.update_of_ne he]
    exact h r'

theorem Rel.setQueue (h : Rel R t u) (r : Reader) {l : List Msg} {l' : List Msg'} (hl : List.Forall₂ R l l') :
    Rel R (t.setQueue r l) (u.setQueue r l') := {h with queue := forall₂_update h.queue r hl}

theorem Rel.lose (h : Rel R t u) (r : Reader) (i : Nat) : Rel R (t.move (.lose r i)) (u.move (.lose r i)) :=
  {h with flight := forall₂_update h.flight r (forall₂_eraseIdx (h.flight r) i)}

theorem Rel.evict (h : Rel R t u) (r : Reader) (i : Nat) : Rel R (t.move (.evict r i)) (u.move (.evict r i)) :=
  {h with queue := forall₂_update h.queue r (forall₂_eraseIdx (h.queue r) i)}

/-- A message that is delivered is taken from the ones under way and put behind those that wait. -/
theorem move_deliver {t : Topic Reader Msg} {r : Reader} {i : Nat} {m : Msg} (hm : (t.flight r)[i]? = some m) :
    t.move (.deliver r i) = (t.move (.lose r i)).setQueue r (t.queue r ++ [m]) := by
  rw [move, hm]
  rfl

/-- A message that arrives in another form is still the same message. -/
theorem Rel.deliver (h : Rel R t u) (r : Reader) {i : Nat} {m' : Msg'} (hm' : (u.flight r)[i]? = some m') {m : Msg}
    (hm : R m m') : Rel R ((t.move (.lose r i)).setQueue r (t.queue r ++ [m])) (u.move (.deliver r i)) := by
  rw [move_deliver hm']
  exact (h.lose r i).setQueue r (forall₂_concat (h.queue r) hm)

/-- A reader that loses the front of its queue has had its samples evicted. -/
theorem foldl_evict (u : Topic Reader Msg') (r : Reader) (k : Nat) :
    (List.replicate k (Move.evict r 0)).foldl move u = u.setQueue r ((u.queue r).drop k) := by
  induction k generalizing u with
  | zero => exact congrArg (Topic.mk u.flight) (Function.update_eq_self r u.queue).symm
  | succ k ih =>
    have htail : (u.queue r).eraseIdx 0 = (u.queue r).tail := by
      cases u.queue r <;> rfl
    rw [List.replicate_succ, List.foldl_cons, ih]
    simp only [move, setQueue, Function.update_self, Function.update_idem, htail, List.drop_tail]

end Topic
end RmwCyclonedds.Library
