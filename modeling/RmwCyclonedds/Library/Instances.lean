import Mathlib.Data.List.Basic

/-! Queues of items that belong to instances, and the latest of what concerns somebody. -/
namespace RmwCyclonedds.Library

/-- The items of an instance leave in the order they came in; between instances there is no order. -/
structure InstanceQueue (Key Item : Type) where
  items : List (Key × Item)

namespace InstanceQueue
variable {Key Item : Type} [DecidableEq Key]

def empty : InstanceQueue Key Item := ⟨[]⟩

/-- The items of an instance, the oldest first. -/
def of (q : InstanceQueue Key Item) (k : Key) : List Item := (q.items.filter (·.1 = k)).map Prod.snd

/-- A new item, which may replace all items of its instance. -/
def push (q : InstanceQueue Key Item) (replaces : Bool) (k : Key) (x : Item) : InstanceQueue Key Item :=
  ⟨(if replaces then q.items.filter (·.1 ≠ k) else q.items) ++ [(k,x)]⟩

def pop (k : Key) : List (Key × Item) → Option (Item × List (Key × Item))
  | [] => none
  | (l,x) :: rest => if l = k then some (x,rest) else (pop k rest).map fun (y,rest) => (y,(l,x) :: rest)

/-- The oldest item of an instance, and the queue without it. -/
def take (q : InstanceQueue Key Item) (k : Key) : Option (Item × InstanceQueue Key Item) :=
  (pop k q.items).map fun (x,rest) => (x,⟨rest⟩)

@[simp] theorem of_empty (k : Key) : (empty : InstanceQueue Key Item).of k = [] := rfl

/-- The last item of an instance is the one that was pushed last. -/
theorem getLast_of_push (q : InstanceQueue Key Item) (replaces : Bool) (k : Key) (x : Item) :
    ((q.push replaces k x).of k).getLast? = some x := by
  simp [of, push]

theorem of_push_of_ne (q : InstanceQueue Key Item) (replaces : Bool) {k l : Key} (h : l ≠ k) (x : Item) :
    (q.push replaces k x).of l = q.of l := by
  have hkept : (q.items.filter (·.1 ≠ k)).filter (·.1 = l) = q.items.filter (·.1 = l) := by
    rw [List.filter_filter]
    apply List.filter_congr
    intro p _
    by_cases hp : p.1 = l
    · simp [hp, h]
    · simp [hp]
  have hnew : ([(k,x)] : List (Key × Item)).filter (·.1 = l) = [] := by
    simp [h.symm]
  unfold of push
  rw [List.filter_append, hnew, List.append_nil]
  cases replaces with
  | false => rfl
  | true => exact congrArg (List.map Prod.snd) hkept

theorem length_push_le (q : InstanceQueue Key Item) (replaces : Bool) (k : Key) (x : Item) :
    (q.push replaces k x).items.length ≤ q.items.length + 1 := by
  rw [push, List.length_append, List.length_singleton]
  cases replaces with
  | false => exact Nat.le_refl _
  | true => exact Nat.succ_le_succ (List.length_filter_le _ _)

private theorem pop_eq_some {k : Key} {items rest : List (Key × Item)} {x : Item} (h : pop k items = some (x,rest)) :
    (items.filter (·.1 = k)).map Prod.snd = x :: (rest.filter (·.1 = k)).map Prod.snd ∧
      (∀ l ≠ k, items.filter (·.1 = l) = rest.filter (·.1 = l)) ∧ items.length = rest.length + 1 := by
  induction items generalizing rest with
  | nil => cases h
  | cons p items ih =>
    obtain ⟨l,y⟩ := p
    rw [pop] at h
    by_cases hl : l = k
    · rw [if_pos hl] at h
      cases h
      refine ⟨?_,?_,rfl⟩
      · simp [hl]
      · intro l' hl'
        have hne : ¬l = l' := fun heq => hl' (heq.symm.trans hl)
        simp [hne]
    · rw [if_neg hl] at h
      obtain ⟨⟨z,before⟩,hpop,heq⟩ := Option.map_eq_some_iff.mp h
      cases heq
      obtain ⟨hk,hothers,hlen⟩ := ih hpop
      refine ⟨?_,?_,?_⟩
      · simp [hl, hk]
      · intro l' hl'
        simp only [List.filter_cons, hothers l' hl']
      · rw [List.length_cons, hlen, List.length_cons]

theorem take_eq_some {q q' : InstanceQueue Key Item} {k : Key} {x : Item} (h : q.take k = some (x,q')) :
    q.of k = x :: q'.of k ∧ (∀ l ≠ k, q'.of l = q.of l) ∧ q.items.length = q'.items.length + 1 := by
  obtain ⟨⟨y,rest⟩,hpop,heq⟩ := Option.map_eq_some_iff.mp h
  cases heq
  obtain ⟨hk,hothers,hlen⟩ := pop_eq_some hpop
  exact ⟨hk,fun l hl => congrArg (List.map Prod.snd) (hothers l hl).symm,hlen⟩

private theorem pop_isSome {items : List (Key × Item)} {p : Key × Item} (h : p ∈ items) : (pop p.1 items).isSome := by
  induction items with
  | nil => cases h
  | cons q items ih =>
    rw [pop]
    split
    · rfl
    · next hne =>
      have hmem : p ∈ items := (List.mem_cons.mp h).resolve_left fun heq => hne (congrArg Prod.fst heq.symm)
      rw [Option.isSome_map]
      exact ih hmem

/-- Of a queue that is not empty something can be taken. -/
theorem exists_take {q : InstanceQueue Key Item} (h : q.items ≠ []) : ∃ k x q', q.take k = some (x,q') := by
  obtain ⟨p,hp⟩ := List.exists_mem_of_ne_nil _ h
  obtain ⟨⟨x,rest⟩,hpop⟩ := Option.isSome_iff_exists.mp (pop_isSome hp)
  exact ⟨p.1,x,⟨rest⟩,by rw [take, hpop]; rfl⟩

end InstanceQueue

/-! ### The latest -/

section
variable {Item Subject : Type} [DecidableEq Subject]

/-- The last item of a history that concerns `x`. -/
def latest (subject : Item → Option Subject) (x : Subject) (history : List Item) : Option Item :=
  (history.filter (subject · = some x)).getLast?

variable {subject : Item → Option Subject} {x : Subject}

@[simp] theorem latest_nil : latest subject x [] = none := rfl

theorem latest_concat (history : List Item) (item : Item) :
    latest subject x (history ++ [item]) = if subject item = some x then some item else latest subject x history := by
  unfold latest
  rw [List.filter_append]
  by_cases h : subject item = some x
  · simp [h]
  · simp [h]

theorem latest_concat_self (history : List Item) {item : Item} (h : subject item = some x) :
    latest subject x (history ++ [item]) = some item := by rw [latest_concat, if_pos h]

theorem latest_concat_of_ne (history : List Item) {item : Item} (h : subject item ≠ some x) :
    latest subject x (history ++ [item]) = latest subject x history := by rw [latest_concat, if_neg h]

end

end RmwCyclonedds.Library
