import Mathlib.Data.List.Perm.Subperm
import Mathlib.Logic.Function.Basic

/-! Topics: what is written reaches every reader at most once, in any order, or not at all. -/
namespace RmwCyclonedds.Library

/-- For each reader the messages under way to it and those that wait to be taken. -/
structure Topic (Reader Msg : Type) where
  flight : Reader → List Msg
  queue : Reader → List Msg

namespace Topic
variable {Reader Msg : Type} [DecidableEq Reader]

def empty : Topic Reader Msg := ⟨fun _ => [],fun _ => []⟩

def write (t : Topic Reader Msg) (m : Msg) : Topic Reader Msg := {t with flight := fun r => m :: t.flight r}

/-- What happens to the messages of a reader without its doing. -/
inductive Move (Reader : Type) where
  | deliver (r : Reader) (i : Nat)
  | lose (r : Reader) (i : Nat)
  | evict (r : Reader) (i : Nat)

def move (t : Topic Reader Msg) : Move Reader → Topic Reader Msg
  | .deliver r i => match (t.flight r)[i]? with
    | none => t
    | some m => ⟨Function.update t.flight r ((t.flight r).eraseIdx i),Function.update t.queue r (t.queue r ++ [m])⟩
  | .lose r i => {t with flight := Function.update t.flight r ((t.flight r).eraseIdx i)}
  | .evict r i => {t with queue := Function.update t.queue r ((t.queue r).eraseIdx i)}

def setQueue (t : Topic Reader Msg) (r : Reader) (queue : List Msg) : Topic Reader Msg :=
  {t with queue := Function.update t.queue r queue}

/-- The messages that a reader may still take. -/
def pending (t : Topic Reader Msg) (r : Reader) : List Msg := t.flight r ++ t.queue r

omit [DecidableEq Reader] in
@[simp] theorem pending_write (t : Topic Reader Msg) (m : Msg) (r : Reader) :
    (t.write m).pending r = m :: t.pending r := rfl

private theorem update_sublist {f : Reader → List Msg} {r : Reader} {l : List Msg} (h : l.Sublist (f r)) (r' : Reader) :
    (Function.update f r l r').Sublist (f r') := by
  by_cases he : r' = r
  · subst he
    rw [Function.update_self]
    exact h
  · rw [Function.update_of_ne he]

private theorem deliver_perm {l q : List Msg} {i : Nat} {m : Msg} (h : l[i]? = some m) :
    (l.eraseIdx i ++ (q ++ [m])).Perm (l ++ q) := by
  obtain ⟨hi,rfl⟩ := List.getElem?_eq_some_iff.mp h
  have hl : (l[i] :: l.eraseIdx i).Perm l := List.getElem_cons_eraseIdx_perm hi
  have hswap : (l.eraseIdx i ++ q ++ [l[i]]).Perm ([l[i]] ++ (l.eraseIdx i ++ q)) := List.perm_append_comm
  rw [← List.append_assoc]
  exact hswap.trans (hl.append_right q)

/-- Messages are moved or dropped, never copied. -/
theorem pending_move (t : Topic Reader Msg) (m : Move Reader) (r : Reader) :
    ((t.move m).pending r).Subperm (t.pending r) := by
  cases m with
  | deliver r' i =>
    rw [move]
    split
    · exact List.Subperm.refl _
    · next msg hm =>
      by_cases he : r = r'
      · subst he
        simp only [pending, Function.update_self]
        exact (deliver_perm hm).subperm
      · simp only [pending, Function.update_of_ne he]
        exact List.Subperm.refl _
  | lose r' i => exact ((update_sublist (List.eraseIdx_sublist _ _) r).append (List.Sublist.refl _)).subperm
  | evict r' i => exact ((List.Sublist.refl _).append (update_sublist (List.eraseIdx_sublist _ _) r)).subperm

theorem pending_setQueue (t : Topic Reader Msg) (r : Reader) (queue : List Msg) :
    (t.setQueue r queue).pending r = t.flight r ++ queue := by
  have hq : Function.update t.queue r queue r = queue := Function.update_self _ _ _
  exact congrArg (t.flight r ++ ·) hq

/-- A reader that takes messages changes nothing for the others. -/
theorem pending_setQueue_of_ne (t : Topic Reader Msg) {r r' : Reader} (h : r' ≠ r) (queue : List Msg) :
    (t.setQueue r queue).pending r' = t.pending r' := by
  have hq : Function.update t.queue r queue r' = t.queue r' := Function.update_of_ne h _ _
  exact congrArg (t.flight r' ++ ·) hq

theorem pending_setQueue_sublist (t : Topic Reader Msg) {r : Reader} {queue : List Msg} (h : queue.Sublist (t.queue r))
    (r' : Reader) : ((t.setQueue r queue).pending r').Sublist (t.pending r') :=
  (List.Sublist.refl _).append (update_sublist h r')

section
variable {t : Topic Reader Msg} {r : Reader} {skipped rest : List Msg} {m : Msg}

omit [DecidableEq Reader] in
theorem mem_pending_of_queue (h : t.queue r = skipped ++ m :: rest) : m ∈ t.pending r := by
  rw [pending, h]
  apply List.mem_append_right
  exact List.mem_append_right _ List.mem_cons_self

/-- A reader takes a message and passes over the ones before it. -/
theorem pending_taken (h : t.queue r = skipped ++ m :: rest) (r' : Reader) :
    ((t.setQueue r rest).pending r').Sublist (t.pending r') := by
  apply t.pending_setQueue_sublist
  rw [h]
  exact (List.sublist_cons_self m _).trans (List.sublist_append_right skipped _)

end

end Topic
end RmwCyclonedds.Library
