import Mathlib.Data.Finset.Basic
import RmwCyclonedds.Library.Traced

/-! Computations that acquire and release things that need each other, and estimates of what they hold. -/
namespace RmwCyclonedds.Library

inductive Move (Thing : Type) where
  | acquire (t : Thing)
  | release (t : Thing)
  deriving DecidableEq

section
variable {Thing : Type} [DecidableEq Thing] (needs : Thing → Finset Thing)

namespace Move

def apply (held : Finset Thing) : Move Thing → Finset Thing
  | acquire t => insert t held
  | release t => held.erase t

/-- A thing is acquired once, after what it needs, and released before that. -/
def InOrder (held : Finset Thing) : Move Thing → Prop
  | acquire t => t ∉ held ∧ needs t ⊆ held
  | release t => t ∈ held ∧ ∀ d ∈ held, t ∉ needs d

end Move

def moveAll (held : Finset Thing) (moves : List (Move Thing)) : Finset Thing := moves.foldl Move.apply held

@[simp] theorem moveAll_nil (held : Finset Thing) : moveAll held [] = held := rfl

@[simp] theorem moveAll_cons (held : Finset Thing) (m : Move Thing) (moves : List (Move Thing)) :
    moveAll held (m :: moves) = moveAll (m.apply held) moves := rfl

theorem moveAll_append (held : Finset Thing) (moves more : List (Move Thing)) :
    moveAll held (moves ++ more) = moveAll (moveAll held moves) more := List.foldl_append

def AllInOrder (held : Finset Thing) : List (Move Thing) → Prop
  | [] => True
  | m :: moves => m.InOrder needs held ∧ AllInOrder (m.apply held) moves

/-- What is held has all that it needs. -/
def Provided (held : Finset Thing) : Prop := ∀ t ∈ held, needs t ⊆ held

variable {needs}

theorem allInOrder_append {held : Finset Thing} {moves more : List (Move Thing)} :
    AllInOrder needs held (moves ++ more) ↔
      AllInOrder needs held moves ∧ AllInOrder needs (moveAll held moves) more := by
  induction moves generalizing held with
  | nil => exact (true_and _).symm.to_iff
  | cons m moves ih =>
    rw [List.cons_append, AllInOrder, ih, AllInOrder, moveAll_cons, and_assoc]

/-- Moves in order leave nothing without what it needs. -/
theorem Move.InOrder.provided {held : Finset Thing} {m : Move Thing} (h : m.InOrder needs held)
    (hheld : Provided needs held) : Provided needs (m.apply held) := by
  intro t ht
  cases m with
  | acquire new =>
    rcases Finset.mem_insert.mp ht with rfl | ht
    · exact h.2.trans (Finset.subset_insert _ _)
    · exact (hheld t ht).trans (Finset.subset_insert _ _)
  | release old =>
    have hkept : t ∈ held := Finset.mem_of_mem_erase ht
    intro n hn
    refine Finset.mem_erase.mpr ⟨?_,hheld t hkept hn⟩
    rintro rfl
    exact h.2 t hkept hn

end

/-! ### Estimates -/

/-- What is held at least, and what is held at most. -/
structure Estimate (Thing : Type) where
  least : Finset Thing
  most : Finset Thing

namespace Estimate
variable {Thing : Type}

def exact (held : Finset Thing) : Estimate Thing := ⟨held,held⟩

def Fits (e : Estimate Thing) (held : Finset Thing) : Prop := e.least ⊆ held ∧ held ⊆ e.most

/-- An estimate that says no more than another. -/
def Covers (e' e : Estimate Thing) : Prop := e'.least ⊆ e.least ∧ e.most ⊆ e'.most

theorem fits_exact {held held' : Finset Thing} : (exact held).Fits held' ↔ held' = held :=
  ⟨fun h => h.2.antisymm h.1,by rintro rfl; exact ⟨subset_rfl,subset_rfl⟩⟩

theorem Covers.fits {e e' : Estimate Thing} (h : e'.Covers e) {held : Finset Thing} (hfits : e.Fits held) :
    e'.Fits held :=
  ⟨h.1.trans hfits.1,hfits.2.trans h.2⟩

variable [DecidableEq Thing]

instance (e' e : Estimate Thing) : Decidable (e'.Covers e) :=
  inferInstanceAs (Decidable (e'.least ⊆ e.least ∧ e.most ⊆ e'.most))

variable (needs : Thing → Finset Thing)

def after (e : Estimate Thing) (m : Move Thing) : Estimate Thing := ⟨m.apply e.least,m.apply e.most⟩

def afterAll (e : Estimate Thing) (moves : List (Move Thing)) : Estimate Thing := moves.foldl after e

/-- Whatever is held, the move is in order. -/
def Allows (e : Estimate Thing) : Move Thing → Prop
  | .acquire t => t ∉ e.most ∧ needs t ⊆ e.least
  | .release t => t ∈ e.least ∧ ∀ d ∈ e.most, t ∉ needs d

instance (e : Estimate Thing) : (m : Move Thing) → Decidable (e.Allows needs m)
  | .acquire t => inferInstanceAs (Decidable (t ∉ e.most ∧ needs t ⊆ e.least))
  | .release t => inferInstanceAs (Decidable (t ∈ e.least ∧ ∀ d ∈ e.most, t ∉ needs d))

def AllowsAll (e : Estimate Thing) : List (Move Thing) → Prop
  | [] => True
  | m :: moves => e.Allows needs m ∧ (e.after m).AllowsAll moves

instance decidableAllowsAll (e : Estimate Thing) : (moves : List (Move Thing)) → Decidable (e.AllowsAll needs moves)
  | [] => inferInstanceAs (Decidable True)
  | m :: moves =>
    have := decidableAllowsAll (e.after m) moves
    inferInstanceAs (Decidable (e.Allows needs m ∧ (e.after m).AllowsAll needs moves))

variable {needs} {e : Estimate Thing} {held : Finset Thing}

theorem Fits.after (h : e.Fits held) (m : Move Thing) : (e.after m).Fits (m.apply held) := by
  cases m with
  | acquire t => exact ⟨Finset.insert_subset_insert t h.1,Finset.insert_subset_insert t h.2⟩
  | release t => exact ⟨Finset.erase_subset_erase t h.1,Finset.erase_subset_erase t h.2⟩

omit [DecidableEq Thing] in
theorem Allows.inOrder {m : Move Thing} (h : e.Allows needs m) (hfits : e.Fits held) : m.InOrder needs held := by
  cases m with
  | acquire t => exact ⟨fun ht => h.1 (hfits.2 ht),h.2.trans hfits.1⟩
  | release t => exact ⟨hfits.1 h.1,fun d hd => h.2 d (hfits.2 hd)⟩

theorem AllowsAll.allInOrder {moves : List (Move Thing)} (h : e.AllowsAll needs moves) (hfits : e.Fits held) :
    AllInOrder needs held moves ∧ (e.afterAll moves).Fits (moveAll held moves) := by
  induction moves generalizing e held with
  | nil => exact ⟨trivial,hfits⟩
  | cons m moves ih =>
    obtain ⟨hm,hmoves⟩ := h
    obtain ⟨horder,hafter⟩ := ih hmoves (hfits.after m)
    exact ⟨⟨hm.inOrder hfits,horder⟩,hafter⟩

end Estimate

/-! ### Computations that clean up -/

namespace Traced
variable {ε σ α : Type}

def noteAll (es : List ε) : Traced ε σ Unit := ⟨.ok (),es⟩

/-- What is done if the computation stops. -/
def scopeExit (cleanup : List ε) (x : Traced ε σ α) : Traced ε σ α :=
  match x.result with
  | .ok _ => x
  | .error s => ⟨.error s,x.events ++ cleanup⟩

/-- The computation, which stops with something else. -/
def mapStop {τ : Type} (f : σ → τ) (x : Traced ε σ α) : Traced ε τ α := ⟨x.result.mapError f,x.events⟩

@[simp] theorem result_noteAll (es : List ε) : (noteAll es : Traced ε σ Unit).result = .ok () := rfl

@[simp] theorem result_scopeExit (cleanup : List ε) (x : Traced ε σ α) : (x.scopeExit cleanup).result = x.result := by
  unfold scopeExit
  cases h : x.result with
  | ok a => exact h
  | error s => rfl

@[simp] theorem result_mapStop {τ : Type} (f : σ → τ) (x : Traced ε σ α) :
    (x.mapStop f).result = x.result.mapError f := rfl

end Traced

/-- From what fits `pre` the computation moves in order; what is held then fits `post`, or `stopped` if it stops. -/
def Orderly {Thing σ α : Type} [DecidableEq Thing] (needs : Thing → Finset Thing) (pre : Estimate Thing)
    (x : Traced (Move Thing) σ α) (stopped post : Estimate Thing) : Prop :=
  ∀ held, pre.Fits held → AllInOrder needs held x.events ∧
    match x.result with
    | .ok _ => post.Fits (moveAll held x.events)
    | .error _ => stopped.Fits (moveAll held x.events)

namespace Orderly
variable {Thing σ α β : Type} [DecidableEq Thing] {needs : Thing → Finset Thing} {pre mid stopped post : Estimate Thing}

theorem returns (a : α) : Orderly needs pre (.quiet (.ok a) : Traced (Move Thing) σ α) stopped pre :=
  fun _ hfits => ⟨trivial,hfits⟩

theorem quiet (x : Except σ α) (h : stopped.Covers pre) :
    Orderly needs pre (.quiet x : Traced (Move Thing) σ α) stopped pre := by
  intro held hfits
  refine ⟨trivial,?_⟩
  cases x with
  | ok a => exact hfits
  | error s => exact h.fits hfits

theorem stops (s : σ) (h : stopped.Covers pre) :
    Orderly needs pre (.quiet (.error s) : Traced (Move Thing) σ α) stopped post :=
  fun _ hfits => ⟨trivial,h.fits hfits⟩

theorem noteAll {moves : List (Move Thing)} (h : pre.AllowsAll needs moves) :
    Orderly needs pre (.noteAll moves : Traced (Move Thing) σ Unit) stopped (pre.afterAll moves) :=
  fun _ hfits => h.allInOrder hfits

theorem note {m : Move Thing} (h : pre.Allows needs m) :
    Orderly needs pre (.note m : Traced (Move Thing) σ Unit) stopped (pre.after m) :=
  fun _ hfits => ⟨⟨h.inOrder hfits,trivial⟩,hfits.after m⟩

theorem bind {x : Traced (Move Thing) σ α} {f : α → Traced (Move Thing) σ β} (hx : Orderly needs pre x stopped mid)
    (hf : ∀ a, Orderly needs mid (f a) stopped post) : Orderly needs pre (x >>= f) stopped post := by
  intro held hfits
  obtain ⟨horder,hend⟩ := hx held hfits
  cases h : x.result with
  | ok a =>
    rw [h] at hend
    obtain ⟨hrest,hpost⟩ := hf a _ hend
    rw [Traced.events_bind_ok h, allInOrder_append, moveAll_append, Traced.result_bind, h]
    exact ⟨⟨horder,hrest⟩,hpost⟩
  | error s =>
    rw [h] at hend
    rw [Traced.events_bind_error h, Traced.result_bind, h]
    exact ⟨horder,hend⟩

/-- What would come after a stop does not matter. -/
theorem stops_bind (s : σ) (f : α → Traced (Move Thing) σ β) (h : stopped.Covers pre) :
    Orderly needs pre ((.quiet (.error s) : Traced (Move Thing) σ α) >>= f) stopped post :=
  fun _ hfits => ⟨trivial,h.fits hfits⟩

/-- The moves of the cleanup follow where the computation stops. -/
theorem scopeExit (within : Estimate Thing) {cleanup : List (Move Thing)} {x : Traced (Move Thing) σ α}
    (hcleanup : within.AllowsAll needs cleanup) (hstopped : stopped.Covers (within.afterAll cleanup))
    (hx : Orderly needs pre x within post) : Orderly needs pre (x.scopeExit cleanup) stopped post := by
  intro held hfits
  obtain ⟨horder,hend⟩ := hx held hfits
  unfold Traced.scopeExit
  cases h : x.result with
  | ok a =>
    simp only [h] at hend ⊢
    exact ⟨horder,hend⟩
  | error s =>
    simp only [h] at hend ⊢
    obtain ⟨hrest,hafter⟩ := hcleanup.allInOrder hend
    rw [allInOrder_append, moveAll_append]
    exact ⟨⟨horder,hrest⟩,hstopped.fits hafter⟩

theorem ite {p : Prop} [Decidable p] {x y : Traced (Move Thing) σ α} (hx : p → Orderly needs pre x stopped post)
    (hy : ¬p → Orderly needs pre y stopped post) : Orderly needs pre (if p then x else y) stopped post := by
  split
  · next h => exact hx h
  · next h => exact hy h

theorem mapStop {τ : Type} (f : σ → τ) {x : Traced (Move Thing) σ α} (hx : Orderly needs pre x stopped post) :
    Orderly needs pre (x.mapStop f) stopped post := by
  intro held hfits
  obtain ⟨horder,hend⟩ := hx held hfits
  refine ⟨horder,?_⟩
  rw [Traced.result_mapStop]
  cases hr : x.result with
  | ok a =>
    rw [hr] at hend
    exact hend
  | error s =>
    rw [hr] at hend
    exact hend

/-- A part that cleans up, and what follows it. -/
theorem scopeExit_bind (within mid : Estimate Thing) {cleanup : List (Move Thing)} {x : Traced (Move Thing) σ α}
    {f : α → Traced (Move Thing) σ β} (hcleanup : within.AllowsAll needs cleanup)
    (hstopped : stopped.Covers (within.afterAll cleanup)) (hx : Orderly needs pre x within mid)
    (hf : ∀ a, Orderly needs mid (f a) stopped post) : Orderly needs pre (x.scopeExit cleanup >>= f) stopped post :=
  (scopeExit within hcleanup hstopped hx).bind hf

theorem narrow {x : Traced (Move Thing) σ α} {pre' : Estimate Thing} (hx : Orderly needs pre' x stopped post)
    (h : pre'.Covers pre) : Orderly needs pre x stopped post := fun held hfits => hx held (h.fits hfits)

theorem weaken {x : Traced (Move Thing) σ α} {post' : Estimate Thing} (hx : Orderly needs pre x stopped post)
    (h : post'.Covers post) : Orderly needs pre x stopped post' := by
  intro held hfits
  obtain ⟨horder,hend⟩ := hx held hfits
  refine ⟨horder,?_⟩
  cases hr : x.result with
  | ok a =>
    rw [hr] at hend
    exact h.fits hend
  | error s =>
    rw [hr] at hend
    exact hend

end Orderly

end RmwCyclonedds.Library
