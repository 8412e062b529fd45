/-! Computations that may stop, with a record of what they do: an event that has been noted stays noted when
the computation stops later. -/
namespace RmwCyclonedds.Library

structure Traced (ε σ α : Type) where
  result : Except σ α
  events : List ε

namespace Traced
variable {ε σ α β : Type}

def andThen (x : Traced ε σ α) (f : α → Traced ε σ β) : Traced ε σ β :=
  match x.result with
  | .ok a => ⟨(f a).result,x.events ++ (f a).events⟩
  | .error s => ⟨.error s,x.events⟩

instance : Monad (Traced ε σ) where
  pure a := ⟨.ok a,[]⟩
  bind := andThen

/-- A computation that notes nothing. -/
def quiet (x : Except σ α) : Traced ε σ α := ⟨x,[]⟩

def note (e : ε) : Traced ε σ Unit := ⟨.ok (),[e]⟩

@[simp] theorem result_pure (a : α) : (pure a : Traced ε σ α).result = .ok a := rfl

@[simp] theorem result_quiet (x : Except σ α) : (quiet x : Traced ε σ α).result = x := rfl

@[simp] theorem result_note (e : ε) : (note e : Traced ε σ Unit).result = .ok () := rfl

/-- Forgetting the record leaves the computation. -/
@[simp] theorem result_bind (x : Traced ε σ α) (f : α → Traced ε σ β) :
    (x >>= f).result = x.result >>= fun a => (f a).result := by
  show (x.andThen f).result = _
  unfold andThen
  cases x.result <;> rfl

@[simp] theorem result_ite (p : Prop) [Decidable p] (x y : Traced ε σ α) :
    (if p then x else y).result = if p then x.result else y.result := apply_ite result p x y

theorem events_bind_ok {x : Traced ε σ α} {a : α} (h : x.result = .ok a) (f : α → Traced ε σ β) :
    (x >>= f).events = x.events ++ (f a).events := by
  show (x.andThen f).events = _
  unfold andThen
  rw [h]

theorem events_bind_error {x : Traced ε σ α} {s : σ} (h : x.result = .error s) (f : α → Traced ε σ β) :
    (x >>= f).events = x.events := by
  show (x.andThen f).events = _
  unfold andThen
  rw [h]

theorem mem_events_bind {x : Traced ε σ α} {e : ε} (h : e ∈ x.events) (f : α → Traced ε σ β) :
    e ∈ (x >>= f).events := by
  cases hx : x.result with
  | ok a =>
    rw [events_bind_ok hx]
    exact List.mem_append_left _ h
  | error s =>
    rw [events_bind_error hx]
    exact h

theorem mem_events_bind_ok {x : Traced ε σ α} {a : α} (hx : x.result = .ok a) {f : α → Traced ε σ β} {e : ε}
    (h : e ∈ (f a).events) : e ∈ (x >>= f).events := by
  rw [events_bind_ok hx]
  exact List.mem_append_right _ h

/-- Every event that is noted has the property. -/
def Along (P : ε → Prop) (x : Traced ε σ α) : Prop := ∀ e ∈ x.events, P e

namespace Along
variable {P : ε → Prop}

theorem pure (a : α) : Along P (Pure.pure a : Traced ε σ α) := by
  intro e he
  cases he

theorem quiet (x : Except σ α) : Along P (Traced.quiet x : Traced ε σ α) := by
  intro e he
  cases he

theorem note {e : ε} (h : P e) : Along P (Traced.note e : Traced ε σ Unit) := by
  intro e' he
  rw [List.mem_singleton.mp he]
  exact h

/-- What comes later is considered only where the first part returns. -/
theorem bind {x : Traced ε σ α} {f : α → Traced ε σ β} (hx : Along P x)
    (hf : ∀ a, x.result = .ok a → Along P (f a)) : Along P (x >>= f) := by
  intro e he
  cases h : x.result with
  | error s =>
    rw [events_bind_error h] at he
    exact hx e he
  | ok a =>
    rw [events_bind_ok h] at he
    rcases List.mem_append.mp he with he | he
    · exact hx e he
    · exact hf a h e he

theorem ite {p : Prop} [Decidable p] {x y : Traced ε σ α} (hx : p → Along P x) (hy : ¬p → Along P y) :
    Along P (if p then x else y) := by
  split
  · next h => exact hx h
  · next h => exact hy h

end Along

/-- The computation stops in the given way if and only if it notes an event with the property. -/
def StopsOn (P : ε → Prop) (s : σ) (x : Traced ε σ α) : Prop := (∃ e ∈ x.events, P e) ↔ x.result = .error s

namespace StopsOn
variable {P : ε → Prop} {s : σ}

theorem pure (a : α) : StopsOn P s (Pure.pure a : Traced ε σ α) := by
  refine ⟨?_,fun h => by cases h⟩
  rintro ⟨e,he,_⟩
  cases he

theorem quiet {x : Except σ α} (h : x ≠ .error s) : StopsOn P s (Traced.quiet x : Traced ε σ α) := by
  refine ⟨?_,fun hx => absurd hx h⟩
  rintro ⟨e,he,_⟩
  cases he

theorem note {e : ε} (h : ¬P e) : StopsOn P s (Traced.note e : Traced ε σ Unit) := by
  refine ⟨?_,fun hx => by cases hx⟩
  rintro ⟨e',he,hP⟩
  rw [List.mem_singleton.mp he] at hP
  exact absurd hP h

theorem bind {x : Traced ε σ α} {f : α → Traced ε σ β} (hx : StopsOn P s x)
    (hf : ∀ a, x.result = .ok a → StopsOn P s (f a)) : StopsOn P s (x >>= f) := by
  cases h : x.result with
  | error s' =>
    unfold StopsOn
    rw [events_bind_error h, result_bind, h]
    refine Iff.trans hx ?_
    rw [h]
    exact ⟨fun he => congrArg Except.error (Except.error.inj he),fun he => congrArg Except.error (Except.error.inj he)⟩
  | ok a =>
    have hnone : ¬∃ e ∈ x.events, P e := by
      intro he
      have hstop := hx.mp he
      rw [h] at hstop
      cases hstop
    unfold StopsOn
    rw [events_bind_ok h, result_bind, h]
    refine Iff.trans ⟨?_,?_⟩ (hf a h)
    · rintro ⟨e,he,hP⟩
      rcases List.mem_append.mp he with he | he
      · exact absurd ⟨e,he,hP⟩ hnone
      · exact ⟨e,he,hP⟩
    · rintro ⟨e,he,hP⟩
      exact ⟨e,List.mem_append_right _ he,hP⟩

/-- A request is noted, and the answer to it may be what stops the computation. -/
theorem request {e : ε} {y : Except σ α} {rest : α → Traced ε σ β} (h : P e ↔ y = .error s)
    (hrest : ∀ a, StopsOn P s (rest a)) : StopsOn P s (do Traced.note e; let a ← Traced.quiet y; rest a) := by
  cases y with
  | error s' =>
    constructor
    · rintro ⟨e',he,hP⟩
      rw [List.mem_singleton.mp he] at hP
      exact congrArg Except.error (Except.error.inj (h.mp hP))
    · intro hstop
      exact ⟨e,List.mem_singleton_self e,h.mpr (congrArg Except.error (Except.error.inj hstop))⟩
  | ok a =>
    have hno : ¬P e := fun hP => by cases h.mp hP
    exact bind (note hno) fun _ _ => bind (quiet fun he => by cases he) fun a _ => hrest a

theorem ite {p : Prop} [Decidable p] {x y : Traced ε σ α} (hx : p → StopsOn P s x) (hy : ¬p → StopsOn P s y) :
    StopsOn P s (if p then x else y) := by
  split
  · next h => exact hx h
  · next h => exact hy h

end StopsOn
end Traced
end RmwCyclonedds.Library
