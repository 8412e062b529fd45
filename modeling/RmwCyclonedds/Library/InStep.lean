/-! Computations that may stop, run side by side. -/
namespace RmwCyclonedds.Library

/-- Both stop in the same way, or both return, and then what they return is related. -/
def InStep {σ α β : Type} (R : α → β → Prop) : Except σ α → Except σ β → Prop
  | .ok a, .ok b => R a b
  | .error s, .error s' => s = s'
  | _, _ => False

namespace InStep
variable {σ α β γ δ : Type} {R : α → β → Prop} {S : γ → δ → Prop} {x : Except σ α} {y : Except σ β}

theorem ret {a : α} {b : β} (h : R a b) : InStep R (pure a : Except σ α) (pure b) := h

theorem stop (s : σ) : InStep R (.error s) (.error s) := rfl

theorem bind {f : α → Except σ γ} {g : β → Except σ δ} (h : InStep R x y)
    (hfg : ∀ a b, y = .ok b → R a b → InStep S (f a) (g b)) : InStep S (x >>= f) (y >>= g) := by
  cases x with
  | error s =>
    cases y with
    | error s' => exact h
    | ok b => exact h.elim
  | ok a =>
    cases y with
    | error s' => exact h.elim
    | ok b => exact hfg a b rfl h

theorem map {f : α → γ} {T : γ → β → Prop} (h : InStep R x y) (hf : ∀ a b, R a b → T (f a) b) :
    InStep T (do return f (← x)) y := by
  rw [← bind_pure y]
  exact bind h fun a b _ hab => ret (hf a b hab)

/-- The same computation on both sides. -/
theorem same {f : α → Except σ γ} {g : α → Except σ δ} (x : Except σ α) (hfg : ∀ a, x = .ok a → InStep S (f a) (g a)) :
    InStep S (x >>= f) (x >>= g) := by
  cases x with
  | error s => exact stop s
  | ok a => exact hfg a rfl

theorem ite {p : Prop} [Decidable p] {x' : Except σ α} {y' : Except σ β} (h : p → InStep R x y)
    (h' : ¬p → InStep R x' y') : InStep R (if p then x else x') (if p then y else y') := by
  split
  · next hp => exact h hp
  · next hp => exact h' hp

theorem imp {R' : α → β → Prop} (h : InStep R x y) (hR : ∀ a b, R a b → R' a b) : InStep R' x y := by
  rw [← bind_pure x]
  exact map h hR

theorem trans {z : Except σ γ} {T : β → γ → Prop} (h : InStep R x y) (h' : InStep T y z) :
    InStep (fun a c => ∃ b, R a b ∧ T b c) x z := by
  cases y with
  | error s =>
    cases x with
    | error s' =>
      cases h
      cases z with
      | error s => exact h'
      | ok c => exact h'.elim
    | ok a => exact h.elim
  | ok b =>
    cases x with
    | error s => exact h.elim
    | ok a =>
      cases z with
      | error s => exact h'.elim
      | ok c => exact ⟨b,h,h'⟩

theorem right_error {s : σ} (h : InStep R x y) (hy : y = .error s) : x = .error s := by
  subst hy
  cases x with
  | error s' => exact congrArg Except.error h
  | ok a => exact h.elim

theorem left_ok {a : α} (h : InStep R x y) (hx : x = .ok a) : ∃ b, y = .ok b ∧ R a b := by
  subst hx
  cases y with
  | error s => exact h.elim
  | ok b => exact ⟨b,rfl,h⟩

theorem right_ok {b : β} (h : InStep R x y) (hy : y = .ok b) : ∃ a, x = .ok a ∧ R a b := by
  subst hy
  cases x with
  | error s => exact h.elim
  | ok a => exact ⟨a,rfl,h⟩

end InStep
end RmwCyclonedds.Library
