import Mathlib.Data.List.Basic

/-! A ledger of what is held: things of several kinds, acquired one after the other and released in any order. -/
namespace RmwCyclonedds.Library

/-- Each thing that is held, by its kind and the number of its acquisition. -/
structure Ledger (Kind : Type) where
  next : Nat
  held : List (Kind × Nat)
  fresh : ∀ r ∈ held, r.2 < next

namespace Ledger
variable {Kind : Type} [DecidableEq Kind]

def empty : Ledger Kind := ⟨0,[],fun _ h => absurd h List.not_mem_nil⟩

/-- The ledger with one more thing, and its number. -/
def acquire (l : Ledger Kind) (k : Kind) : Ledger Kind × Nat :=
  (⟨l.next + 1,(k,l.next) :: l.held,by
    intro r hr
    rcases List.mem_cons.mp hr with rfl | hr
    · exact Nat.lt_succ_self _
    · exact Nat.lt_succ_of_lt (l.fresh r hr)⟩,l.next)

def release (l : Ledger Kind) (r : Kind × Nat) : Ledger Kind :=
  ⟨l.next,l.held.erase r,fun q hq => l.fresh q (List.mem_of_mem_erase hq)⟩

/-- The same things are held. -/
def SameHeld (l l' : Ledger Kind) : Prop := ∀ r, r ∈ l'.held ↔ r ∈ l.held

omit [DecidableEq Kind] in
theorem SameHeld.refl (l : Ledger Kind) : l.SameHeld l := fun _ => Iff.rfl

omit [DecidableEq Kind] in
theorem acquired_held (l : Ledger Kind) (k : Kind) : (k,(l.acquire k).2) ∈ (l.acquire k).1.held := List.mem_cons_self

omit [DecidableEq Kind] in
theorem held_acquire {l : Ledger Kind} {r : Kind × Nat} (h : r ∈ l.held) (k : Kind) : r ∈ (l.acquire k).1.held :=
  List.mem_cons_of_mem _ h

theorem held_release {l : Ledger Kind} {r q : Kind × Nat} (h : r ∈ l.held) (hne : r.1 ≠ q.1) : r ∈ (l.release q).held :=
  (List.mem_erase_of_ne fun heq => hne (congrArg Prod.fst heq)).mpr h

omit [DecidableEq Kind] in
/-- What is acquired later was not held before. -/
theorem not_sameHeld {l l' : Ledger Kind} {r : Kind × Nat} (hr : r ∈ l'.held) (hnew : l.next ≤ r.2) : ¬l.SameHeld l' :=
  fun h => absurd (l.fresh r ((h r).mp hr)) (Nat.not_lt.mpr hnew)

/-- Acquired and released, a thing leaves what was held as it was. -/
theorem held_release_acquire (l : Ledger Kind) (k : Kind) : ((l.acquire k).1.release (k,(l.acquire k).2)).held = l.held :=
  List.erase_cons_head _ _

end Ledger

end RmwCyclonedds.Library
