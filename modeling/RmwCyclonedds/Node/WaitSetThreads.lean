import RmwCyclonedds.Node.WaitSetCache
import Mathlib.Data.Fintype.Basic

/-! Threads that wait on wait sets while others destroy what the wait sets have cached. -/
namespace RmwCyclonedds
open Library

/-- Where the thread in `rmw_wait` on a wait set stands. -/
inductive WaitPhase where
  | idle
  | taken (args : WaitArgs)
  | refreshed (args : WaitArgs)
  | waited (args : WaitArgs)

/-- The objects in the arrays of a call. -/
def WaitArgs.entities (args : WaitArgs) : List CddsObject := args.objects ++ args.evs.map RmwEvent.data

def WaitPhase.entities : WaitPhase → List CddsObject
  | .idle => []
  | .taken args | .refreshed args | .waited args => args.entities

variable {W : Type}

/-- Of each object being destroyed the thread stands before, in or behind `clean_waitset_caches`, inside which it holds the
lock of `gcdds()` and still has some wait sets to visit. -/
structure WaitThreads (W : Type) extends CddsWaitsets W where
  phase : W → WaitPhase
  destroying : List CddsObject
  cleaning : Option (CddsObject × Finset W)
  cleaned : List CddsObject

inductive WaitStep (W : Type) where
  | create (x : CddsObject) (mask : Finset DdsStatusId)
  | takeInuse (w : W) (args : WaitArgs)
  | refresh (w : W) (env : Surroundings)
  | wait (w : W)
  | releaseInuse (w : W)
  | enterDestroy (x : CddsObject)
  | lockCaches (x : CddsObject)
  | clean (w : W)
  | unlockCaches
  | delete (x : CddsObject)

variable [DecidableEq W] [Fintype W]

def WaitThreads.initial : WaitThreads W := ⟨.initial,fun _ => .idle,[],none,[]⟩

/-- The steps. Arrays hold objects that are alive and not being destroyed, and nothing is destroyed that is in the arrays
of a call in progress or being destroyed already. -/
def WaitStep.next (s : WaitThreads W) : WaitStep W → Option (WaitThreads W)
  | .create x mask =>
    if Unused s.toCddsWaitsets x then some { s with toCddsWaitsets := RmwCyclonedds.create s.toCddsWaitsets x mask } else none
  | .takeInuse w args =>
    if args.Valid s.live ∧ ∀ x ∈ args.entities, x ∉ s.destroying then
      -- A concurrent call is refused.
      if (s.waitsets w).inuse then some s
      else some { s with
        waitsets := Function.update s.waitsets w (s.waitsets w).takeInuse
        phase := Function.update s.phase w (.taken args) }
    else none
  | .refresh w env =>
    match s.phase w with
    | .taken args =>
      let (ws,mask,done) := RmwCyclonedds.refresh (s.waitsets w) args env s.mask
      -- A call that fails leaves the wait set in use.
      some { s with
        waitsets := Function.update s.waitsets w ws, mask
        phase := Function.update s.phase w (if done then .refreshed args else .idle) }
    | _ => none
  | .wait w =>
    match s.phase w with
    | .refreshed args => some { s with phase := Function.update s.phase w (.waited args) }
    | _ => none
  | .releaseInuse w =>
    match s.phase w with
    | .waited _ => some { s with
        waitsets := Function.update s.waitsets w { s.waitsets w with inuse := false }
        phase := Function.update s.phase w .idle }
    | _ => none
  | .enterDestroy x =>
    if x ∈ s.live ∧ x.kind ≠ .publisher ∧ x ∉ s.destroying ∧ ∀ w, x ∉ (s.phase w).entities then
      some { s with destroying := x :: s.destroying }
    else none
  | .lockCaches x =>
    if x ∈ s.destroying ∧ x ∉ s.cleaned ∧ s.cleaning = none then some { s with cleaning := some (x,Finset.univ) } else none
  | .clean w =>
    match s.cleaning with
    | some (x,rest) =>
      if w ∈ rest then some { s with
        waitsets := Function.update s.waitsets w (cleanWaitset (s.waitsets w))
        cleaning := some (x,rest.erase w) }
      else none
    | none => none
  | .unlockCaches =>
    match s.cleaning with
    | some (x,rest) => if rest = ∅ then some { s with cleaning := none, cleaned := x :: s.cleaned } else none
    | none => none
  | .delete x =>
    if x ∈ s.cleaned then some { s with
      toCddsWaitsets := deleteObject s.toCddsWaitsets x
      destroying := s.destroying.erase x
      cleaned := s.cleaned.erase x }
    else none

def waitThreads (W : Type) [DecidableEq W] [Fintype W] : Machine (WaitThreads W) (WaitStep W) := ⟨.initial,WaitStep.next⟩

/-- The cached objects that a step dereferences in `waitset_detach`. -/
def WaitStep.dereferenced (s : WaitThreads W) : WaitStep W → List CddsObject
  | .refresh w _ =>
    match s.phase w with
    | .taken args => if differs (s.waitsets w) args then (s.waitsets w).cached.objects else []
    | _ => []
  | .clean w => if (s.waitsets w).inuse then [] else (s.waitsets w).cached.objects
  | _ => []

/-- Every cached object that is used is still alive. -/
def UsesAlive (s : WaitThreads W) (l : WaitStep W) : Prop := ∀ x ∈ l.dereferenced s, x ∈ s.live

/-- A call that has not yet compared its arrays. -/
def WaitPhase.isTaken : WaitPhase → Bool
  | .taken _ => true
  | _ => false

/-- An object is not deleted while a call on a wait set that has it cached is between taking the wait set and comparing
its arrays with the cache. -/
def DeletedApart (s : WaitThreads W) : WaitStep W → Prop
  | .delete x => ∀ w, (s.phase w).isTaken = true → x ∉ (s.waitsets w).cached.objects
  | _ => True

instance (s : WaitThreads W) (l : WaitStep W) : Decidable (DeletedApart s l) := by
  cases l <;> unfold DeletedApart <;> infer_instance

/-! ### Invariants -/

/-- The cache of a wait set in each phase. -/
def Kept (live : List CddsObject) (ws : CddsWaitset) : WaitPhase → Prop
  | .idle => ws.inuse = false → ∀ x ∈ ws.cached.objects, x ∈ live
  | .taken args => ws.inuse = true ∧ (∀ x ∈ ws.cached.objects, x ∈ live) ∧ ∀ x ∈ args.objects, x ∈ live
  | .refreshed args | .waited args => ws.inuse = true ∧ ws.cached.objects = args.objects ∧ ∀ x ∈ args.objects, x ∈ live

/-- An object may only be cached by a call that is yet to compare its arrays, or by a wait set that a failed call has
left in use. -/
def Cleared (ws : CddsWaitset) (phase : WaitPhase) (x : CddsObject) : Prop :=
  x ∈ ws.cached.objects → (∃ args, phase = .taken args) ∨ phase = .idle ∧ ws.inuse = true

structure ThreadsSound (s : WaitThreads W) : Prop where
  distinct : Distinct s.live
  kept : ∀ w, Kept s.live (s.waitsets w) (s.phase w)
  destroying : s.destroying.Nodup ∧ ∀ x ∈ s.destroying, x ∈ s.live ∧ ∀ w, x ∉ (s.phase w).entities
  once : s.cleaned.Nodup
  cleaning : ∀ x rest, s.cleaning = some (x,rest) →
    x ∉ s.cleaned ∧ x ∈ s.destroying ∧ ∀ w, w ∉ rest → Cleared (s.waitsets w) (s.phase w) x
  cleaned : ∀ x ∈ s.cleaned, x ∈ s.destroying ∧ ∀ w, Cleared (s.waitsets w) (s.phase w) x

omit [DecidableEq W] [Fintype W]

/-- Whatever comes of it, a call leaves its own arrays in the cache. -/
private theorem refresh_objects {live : List CddsObject} (hd : Distinct live) {ws : CddsWaitset}
    (hc : ∀ x ∈ ws.cached.objects, x ∈ live) {args : WaitArgs} (hv : ∀ x ∈ args.objects, x ∈ live) (env : Surroundings)
    (mask : StatusMasks) : (refresh ws args env mask).1.cached.objects = args.objects := by
  unfold refresh
  split
  case isTrue =>
    unfold reattach
    split <;> rfl
  case isFalse hdiff =>
    rw [Bool.not_eq_true] at hdiff
    obtain ⟨hsubs,hgcs,hsrvs,hcls,_⟩ := cached_of_not_differs hd hc hv hdiff
    simp only [CddsWaitset.cached, WaitArgs.objects, hsubs, hgcs, hsrvs, hcls]

private theorem WaitArgs.objects_subset {args : WaitArgs} {x : CddsObject} (h : x ∈ args.objects) : x ∈ args.entities :=
  List.mem_append_left _ h

namespace Kept
variable {live live' : List CddsObject} {ws : CddsWaitset} {phase : WaitPhase}

/-- Objects that leave must not be cached, unless the wait set is left in use. -/
private theorem mono (h : Kept live ws phase)
    (cached : ∀ x ∈ ws.cached.objects, x ∈ live → (phase = .idle → ws.inuse = false) → x ∈ live')
    (entities : ∀ x ∈ phase.entities, x ∈ live → x ∈ live') : Kept live' ws phase := by
  cases phase with
  | idle =>
    intro hfree x hx
    exact cached x hx (h hfree x hx) fun _ => hfree
  | taken args =>
    obtain ⟨hin,hc,ha⟩ := h
    exact ⟨hin,fun x hx => cached x hx (hc x hx) nofun,fun x hx => entities x (WaitArgs.objects_subset hx) (ha x hx)⟩
  | refreshed args =>
    obtain ⟨hin,heq,ha⟩ := h
    exact ⟨hin,heq,fun x hx => entities x (WaitArgs.objects_subset hx) (ha x hx)⟩
  | waited args =>
    obtain ⟨hin,heq,ha⟩ := h
    exact ⟨hin,heq,fun x hx => entities x (WaitArgs.objects_subset hx) (ha x hx)⟩

private theorem idle_of_free (h : Kept live ws phase) (hfree : ws.inuse = false) : phase = .idle := by
  cases phase with
  | idle => rfl
  | taken args => exact absurd h.1 (by simp [hfree])
  | refreshed args => exact absurd h.1 (by simp [hfree])
  | waited args => exact absurd h.1 (by simp [hfree])

end Kept

/-- Cleaning clears everything unless a call is in progress. -/
private theorem cleared_of_used {ws : CddsWaitset} {phase : WaitPhase} {x : CddsObject}
    (h : ws.inuse = true → Cleared ws phase x) : Cleared (cleanWaitset ws) phase x := by
  intro hmem
  unfold cleanWaitset at hmem ⊢
  split at hmem
  case isFalse => cases hmem
  case isTrue hin =>
    rw [if_pos hin]
    exact h hin hmem

/-- Cleaning a wait set, or finding it in use, clears an object that no call in progress has in its arrays. -/
private theorem cleared_clean {live : List CddsObject} {ws : CddsWaitset} {phase : WaitPhase} (h : Kept live ws phase)
    {x : CddsObject} (hx : x ∉ phase.entities) : Cleared (cleanWaitset ws) phase x := by
  apply cleared_of_used
  intro hin hmem
  cases phase with
  | idle => exact .inr ⟨rfl,hin⟩
  | taken args => exact .inl ⟨args,rfl⟩
  | refreshed args => exact absurd (WaitArgs.objects_subset (h.2.1 ▸ hmem)) hx
  | waited args => exact absurd (WaitArgs.objects_subset (h.2.1 ▸ hmem)) hx

private theorem kept_clean {live : List CddsObject} {ws : CddsWaitset} {phase : WaitPhase} (h : Kept live ws phase) :
    Kept live (cleanWaitset ws) phase := by
  unfold cleanWaitset
  split
  case isTrue => exact h
  case isFalse hfree =>
    rw [Bool.not_eq_true] at hfree
    rw [h.idle_of_free hfree]
    intro _ x hx
    cases hx

private theorem Cleared.clean {ws : CddsWaitset} {phase : WaitPhase} {x : CddsObject} (h : Cleared ws phase x) :
    Cleared (cleanWaitset ws) phase x := cleared_of_used fun _ => h

namespace ThreadsSound
variable {s s' : WaitThreads W}

private theorem kept_in (h : ThreadsSound s) {w : W} {phase : WaitPhase} (hphase : s.phase w = phase) :
    Kept s.live (s.waitsets w) phase := hphase ▸ h.kept w

private theorem unused_in (h : ThreadsSound s) {w : W} {phase : WaitPhase} (hphase : s.phase w = phase) {x : CddsObject}
    (hx : x ∈ s.destroying) : x ∉ phase.entities := hphase ▸ (h.destroying.2 x hx).2 w

/-- A step of one call changes its wait set and its phase. -/
private theorem changed (h : ThreadsSound s) (w : W) (live : s'.live = s.live) (destroying : s'.destroying = s.destroying)
    (cleaning : s'.cleaning = s.cleaning) (cleaned : s'.cleaned = s.cleaned)
    (others : ∀ v, v ≠ w → s'.waitsets v = s.waitsets v ∧ s'.phase v = s.phase v)
    (kept : Kept s.live (s'.waitsets w) (s'.phase w)) (entities : ∀ x ∈ s.destroying, x ∉ (s'.phase w).entities)
    (cleared : ∀ x ∈ s.destroying, Cleared (s.waitsets w) (s.phase w) x → Cleared (s'.waitsets w) (s'.phase w) x) :
    ThreadsSound s' := by
  have hcleared (x : CddsObject) (hx : x ∈ s.destroying) (v : W) (hv : Cleared (s.waitsets v) (s.phase v) x) :
      Cleared (s'.waitsets v) (s'.phase v) x := by
    by_cases hvw : v = w
    · subst hvw
      exact cleared x hx hv
    · rw [(others v hvw).1, (others v hvw).2]
      exact hv
  refine ⟨live ▸ h.distinct,fun v => ?_,⟨destroying ▸ h.destroying.1,fun x hx => ?_⟩,cleaned ▸ h.once,
    fun x rest hx => ?_,fun x hx => ?_⟩
  · rw [live]
    by_cases hvw : v = w
    · subst hvw
      exact kept
    · rw [(others v hvw).1, (others v hvw).2]
      exact h.kept v
  · rw [destroying] at hx
    rw [live]
    refine ⟨(h.destroying.2 x hx).1,fun v => ?_⟩
    by_cases hvw : v = w
    · subst hvw
      exact entities x hx
    · rw [(others v hvw).2]
      exact (h.destroying.2 x hx).2 v
  · rw [cleaning] at hx
    rw [destroying, cleaned]
    obtain ⟨hnot,hmem,hrest⟩ := h.cleaning x rest hx
    exact ⟨hnot,hmem,fun v hv => hcleared x hmem v (hrest v hv)⟩
  · rw [cleaned] at hx
    rw [destroying]
    obtain ⟨hmem,hall⟩ := h.cleaned x hx
    exact ⟨hmem,fun v => hcleared x hmem v (hall v)⟩

private theorem create (h : ThreadsSound s) {x : CddsObject} (hx : Unused s.toCddsWaitsets x) (mask : Finset DdsStatusId) :
    ThreadsSound { s with toCddsWaitsets := RmwCyclonedds.create s.toCddsWaitsets x mask } := by
  refine ⟨h.distinct.concat ⟨hx.2.1,hx.2.2.1⟩ hx.2.2.2,fun w => ?_,⟨h.destroying.1,fun y hy => ?_⟩,h.once,h.cleaning,h.cleaned⟩
  · exact (h.kept w).mono (fun y _ hy _ => List.mem_append_left [x] hy) fun y _ hy => List.mem_append_left [x] hy
  · exact ⟨List.mem_append_left [x] (h.destroying.2 y hy).1,(h.destroying.2 y hy).2⟩

private theorem enterDestroy (h : ThreadsSound s) {x : CddsObject} (hx : x ∈ s.live) (hnew : x ∉ s.destroying)
    (hunused : ∀ w, x ∉ (s.phase w).entities) : ThreadsSound { s with destroying := x :: s.destroying } where
  distinct := h.distinct
  kept := h.kept
  destroying := ⟨List.nodup_cons.mpr ⟨hnew,h.destroying.1⟩,List.forall_mem_cons.mpr ⟨⟨hx,hunused⟩,h.destroying.2⟩⟩
  once := h.once
  cleaning y rest hy := by
    obtain ⟨hnot,hmem,hrest⟩ := h.cleaning y rest hy
    exact ⟨hnot,List.mem_cons_of_mem x hmem,hrest⟩
  cleaned y hy := ⟨List.mem_cons_of_mem x (h.cleaned y hy).1,(h.cleaned y hy).2⟩

private theorem lockCaches [Fintype W] (h : ThreadsSound s) {x : CddsObject} (hx : x ∈ s.destroying)
    (hnot : x ∉ s.cleaned) : ThreadsSound { s with cleaning := some (x,Finset.univ) } where
  distinct := h.distinct
  kept := h.kept
  destroying := h.destroying
  once := h.once
  cleaning y rest hy := by
    cases hy
    exact ⟨hnot,hx,fun w hw => absurd (Finset.mem_univ w) hw⟩
  cleaned := h.cleaned

private theorem unlockCaches (h : ThreadsSound s) {x : CddsObject} (hx : s.cleaning = some (x,∅)) :
    ThreadsSound { s with cleaning := none, cleaned := x :: s.cleaned } where
  distinct := h.distinct
  kept := h.kept
  destroying := h.destroying
  once := List.nodup_cons.mpr ⟨(h.cleaning x ∅ hx).1,h.once⟩
  cleaning y rest hy := nomatch hy
  cleaned := by
    obtain ⟨_,hmem,hall⟩ := h.cleaning x ∅ hx
    exact List.forall_mem_cons.mpr ⟨⟨hmem,fun w => hall w (Finset.notMem_empty w)⟩,h.cleaned⟩

private theorem clean [DecidableEq W] (h : ThreadsSound s) {x : CddsObject} {rest : Finset W} (hx : s.cleaning = some (x,rest))
    (w : W) : ThreadsSound { s with
      waitsets := Function.update s.waitsets w (cleanWaitset (s.waitsets w))
      cleaning := some (x,rest.erase w) } := by
  have hvisited : ThreadsSound { s with waitsets := Function.update s.waitsets w (cleanWaitset (s.waitsets w)) } := by
    refine h.changed w rfl rfl rfl rfl (fun v hv => ⟨Function.update_of_ne hv _ _,rfl⟩) ?_ (fun y hy => (h.destroying.2 y hy).2 w) ?_
    · simp only [Function.update_self]
      exact kept_clean (h.kept w)
    · intro y _ hy
      simp only [Function.update_self]
      exact hy.clean
  refine { hvisited with cleaning := fun y rest' hy => ?_ }
  cases hy
  obtain ⟨hnot,hmem,hrest⟩ := hvisited.cleaning x rest hx
  refine ⟨hnot,hmem,fun v hv => ?_⟩
  by_cases hvw : v = w
  · subst hvw
    simp only [Function.update_self]
    exact cleared_clean (h.kept v) ((h.destroying.2 x hmem).2 v)
  · exact hrest v fun hin => hv (Finset.mem_erase.mpr ⟨hvw,hin⟩)

/-- Deleting an object that no call has cached between taking its wait set and comparing. -/
private theorem delete (h : ThreadsSound s) {x : CddsObject} (hx : x ∈ s.cleaned)
    (apart : ∀ w, (s.phase w).isTaken = true → x ∉ (s.waitsets w).cached.objects) :
    ThreadsSound { s with
      toCddsWaitsets := deleteObject s.toCddsWaitsets x
      destroying := s.destroying.erase x
      cleaned := s.cleaned.erase x } := by
  obtain ⟨hmem,hcleared⟩ := h.cleaned x hx
  have hunused := (h.destroying.2 x hmem).2
  have stays {y : CddsObject} (hne : y ≠ x) (hy : y ∈ s.live) : y ∈ s.live.erase x := (List.mem_erase_of_ne hne).mpr hy
  refine ⟨h.distinct.erase x,fun w => ?_,⟨h.destroying.1.erase x,fun y hy => ?_⟩,h.once.erase x,fun y rest hy => ?_,fun y hy => ?_⟩
  · refine (h.kept w).mono (fun y hy hl hfree => stays ?_ hl) (fun y hy hl => stays ?_ hl)
    · rintro rfl
      rcases hcleared w hy with ⟨args,hphase⟩ | ⟨hidle,hin⟩
      · exact apart w (hphase ▸ rfl) hy
      · exact Bool.noConfusion ((hfree hidle).symm.trans hin)
    · rintro rfl
      exact hunused w hy
  · obtain ⟨hne,hd⟩ := (h.destroying.1.mem_erase_iff).mp hy
    exact ⟨stays hne (h.destroying.2 y hd).1,(h.destroying.2 y hd).2⟩
  · obtain ⟨hnot,hd,hrest⟩ := h.cleaning y rest hy
    have hne : y ≠ x := by
      rintro rfl
      exact hnot hx
    exact ⟨fun hin => hnot (List.mem_of_mem_erase hin),(List.mem_erase_of_ne hne).mpr hd,hrest⟩
  · obtain ⟨hne,hin⟩ := (h.once.mem_erase_iff).mp hy
    exact ⟨(List.mem_erase_of_ne hne).mpr (h.cleaned y hin).1,(h.cleaned y hin).2⟩

private theorem initial : ThreadsSound (WaitThreads.initial : WaitThreads W) where
  distinct := ⟨.nil,nofun,nofun,nofun⟩
  kept _ _ := nofun
  destroying := ⟨.nil,nofun⟩
  once := .nil
  cleaning := nofun
  cleaned := nofun

private theorem takeInuse [DecidableEq W] (h : ThreadsSound s) {w : W} (hfree : (s.waitsets w).inuse = false) {args : WaitArgs}
    (hv : args.Valid s.live) (hunused : ∀ x ∈ args.entities, x ∉ s.destroying) :
    ThreadsSound { s with
      waitsets := Function.update s.waitsets w (s.waitsets w).takeInuse
      phase := Function.update s.phase w (.taken args) } := by
  refine h.changed w rfl rfl rfl rfl (fun v hv => ⟨Function.update_of_ne hv _ _,Function.update_of_ne hv _ _⟩) ?_ ?_ ?_
  · simp only [Function.update_self]
    exact ⟨rfl,h.kept_in ((h.kept w).idle_of_free hfree) hfree,fun x hx => (hv.objects hx).1⟩
  · intro x hx
    simp only [Function.update_self]
    exact fun hin => hunused x hin hx
  · intro x _ _ _
    simp only [Function.update_self]
    exact .inl ⟨args,rfl⟩

/-- The phase after comparing and attaching. -/
private theorem refresh [DecidableEq W] (h : ThreadsSound s) {w : W} {args : WaitArgs} (hphase : s.phase w = .taken args)
    (env : Surroundings) : ThreadsSound { s with
      waitsets := Function.update s.waitsets w (RmwCyclonedds.refresh (s.waitsets w) args env s.mask).1
      mask := (RmwCyclonedds.refresh (s.waitsets w) args env s.mask).2.1
      phase := Function.update s.phase w
        (if (RmwCyclonedds.refresh (s.waitsets w) args env s.mask).2.2 then .refreshed args else .idle) } := by
  obtain ⟨hin,hc,ha⟩ := h.kept_in hphase
  have hobjects := refresh_objects h.distinct hc ha env s.mask
  have hinuse := (refresh_inuse (s.waitsets w) args env s.mask).trans hin
  refine h.changed w rfl rfl rfl rfl (fun v hv => ⟨Function.update_of_ne hv _ _,Function.update_of_ne hv _ _⟩) ?_ ?_ ?_
  · simp only [Function.update_self]
    split
    · exact ⟨hinuse,hobjects,ha⟩
    · exact fun hfree => Bool.noConfusion (hfree.symm.trans hinuse)
  · intro x hx
    simp only [Function.update_self]
    split
    · exact h.unused_in hphase hx
    · exact List.not_mem_nil
  · intro x hx _ hcached
    simp only [Function.update_self, hobjects] at hcached
    exact absurd (WaitArgs.objects_subset hcached) (h.unused_in hphase hx)

private theorem wait [DecidableEq W] (h : ThreadsSound s) {w : W} {args : WaitArgs} (hphase : s.phase w = .refreshed args) :
    ThreadsSound { s with phase := Function.update s.phase w (.waited args) } := by
  have hkept := h.kept_in hphase
  refine h.changed w rfl rfl rfl rfl (fun v hv => ⟨rfl,Function.update_of_ne hv _ _⟩) ?_ ?_ ?_
  · simp only [Function.update_self]
    exact hkept
  · intro x hx
    simp only [Function.update_self]
    exact h.unused_in hphase hx
  · intro x hx _ hcached
    rw [hkept.2.1] at hcached
    exact absurd (WaitArgs.objects_subset hcached) (h.unused_in hphase hx)

private theorem releaseInuse [DecidableEq W] (h : ThreadsSound s) {w : W} {args : WaitArgs} (hphase : s.phase w = .waited args) :
    ThreadsSound { s with
      waitsets := Function.update s.waitsets w { s.waitsets w with inuse := false }
      phase := Function.update s.phase w .idle } := by
  have hkept := h.kept_in hphase
  refine h.changed w rfl rfl rfl rfl (fun v hv => ⟨Function.update_of_ne hv _ _,Function.update_of_ne hv _ _⟩) ?_ ?_ ?_
  · simp only [Function.update_self]
    intro _ x hx
    exact hkept.2.2 x (hkept.2.1 ▸ hx)
  · intro x _
    simp only [Function.update_self]
    exact List.not_mem_nil
  · intro x hx _ hcached
    simp only [Function.update_self] at hcached
    exact absurd (WaitArgs.objects_subset (hkept.2.1 ▸ hcached)) (h.unused_in hphase hx)

private theorem usesAlive (h : ThreadsSound s) (l : WaitStep W) : UsesAlive s l := by
  intro x hx
  cases l with
  | refresh w env =>
    simp only [WaitStep.dereferenced] at hx
    split at hx
    case h_1 args hphase =>
      split at hx
      · exact (h.kept_in hphase).2.1 x hx
      · cases hx
    case h_2 => cases hx
  | clean w =>
    simp only [WaitStep.dereferenced] at hx
    split at hx
    · cases hx
    case isFalse hfree =>
      rw [Bool.not_eq_true] at hfree
      exact h.kept_in ((h.kept w).idle_of_free hfree) hfree x hx
  | create | takeInuse | wait | releaseInuse | enterDestroy | lockCaches | unlockCaches | delete => cases hx

variable [DecidableEq W] [Fintype W]

private theorem next (h : ThreadsSound s) {l : WaitStep W} (apart : DeletedApart s l) (hl : l.next s = some s') : ThreadsSound s' := by
  cases l with
  | create x mask =>
    obtain ⟨hx,heq⟩ := Option.ite_none_right_eq_some.mp hl
    exact Option.some.inj heq ▸ h.create hx mask
  | takeInuse w args =>
    obtain ⟨⟨hv,hunused⟩,heq⟩ := Option.ite_none_right_eq_some.mp hl
    cases hin : (s.waitsets w).inuse with
    | true =>
      rw [if_pos hin] at heq
      exact Option.some.inj heq ▸ h
    | false =>
      rw [if_neg (by simp [hin])] at heq
      exact Option.some.inj heq ▸ h.takeInuse hin hv hunused
  | refresh w env =>
    simp only [WaitStep.next] at hl
    split at hl
    case h_1 args hphase => exact Option.some.inj hl ▸ h.refresh hphase env
    case h_2 => cases hl
  | wait w =>
    simp only [WaitStep.next] at hl
    split at hl
    case h_1 args hphase => exact Option.some.inj hl ▸ h.wait hphase
    case h_2 => cases hl
  | releaseInuse w =>
    simp only [WaitStep.next] at hl
    split at hl
    case h_1 args hphase => exact Option.some.inj hl ▸ h.releaseInuse hphase
    case h_2 => cases hl
  | enterDestroy x =>
    obtain ⟨⟨hx,_,hnew,hunused⟩,heq⟩ := Option.ite_none_right_eq_some.mp hl
    exact Option.some.inj heq ▸ h.enterDestroy hx hnew hunused
  | lockCaches x =>
    obtain ⟨⟨hx,hnot,_⟩,heq⟩ := Option.ite_none_right_eq_some.mp hl
    exact Option.some.inj heq ▸ h.lockCaches hx hnot
  | clean w =>
    simp only [WaitStep.next] at hl
    split at hl
    case h_1 x rest hx =>
      obtain ⟨_,heq⟩ := Option.ite_none_right_eq_some.mp hl
      exact Option.some.inj heq ▸ h.clean hx w
    case h_2 => cases hl
  | unlockCaches =>
    simp only [WaitStep.next] at hl
    split at hl
    case h_1 x rest hx =>
      obtain ⟨hrest,heq⟩ := Option.ite_none_right_eq_some.mp hl
      exact Option.some.inj heq ▸ h.unlockCaches (hrest ▸ hx)
    case h_2 => cases hl
  | delete x =>
    obtain ⟨hx,heq⟩ := Option.ite_none_right_eq_some.mp hl
    exact Option.some.inj heq ▸ h.delete hx apart

end ThreadsSound

/-- No wait set uses an object after its destruction, in runs that delete objects apart from calls that have them cached
and are yet to compare their arrays. -/
theorem waitThreads_useAlive [DecidableEq W] [Fintype W] {steps : List (WaitStep W)} {s : WaitThreads W}
    (h : (waitThreads W).run steps = some s) (apart : (waitThreads W).Along DeletedApart steps) :
    (waitThreads W).Along UsesAlive steps := by
  suffices ThreadsSound s ∧ (waitThreads W).Along UsesAlive steps from this.2
  apply Machine.along_of_invariant .initial (C := DeletedApart) _ h apart
  intro s l s' hs apart hnext
  exact ⟨hs.next apart hnext,hs.usesAlive l⟩

/-! ### Counterexample -/

def stopCondition : CddsObject := ⟨.guardCondition,0,1000,0,1⟩

/-- A call that waits for the guard condition, and one with empty arrays that has just taken the wait set when the guard
condition is destroyed. -/
def destroyedBetween : List (WaitStep Unit) :=
  [.create stopCondition ∅,.takeInuse () ⟨[],[stopCondition],[],[],[]⟩,
    .refresh () (raising ∅ (Finset.notMem_empty _)),.wait (),.releaseInuse (),
    .takeInuse () ⟨[],[],[],[],[]⟩,
    .enterDestroy stopCondition,.lockCaches stopCondition,.clean (),.unlockCaches,.delete stopCondition]

/-- The call compares its arrays with the cache. -/
def comparesLate : WaitStep Unit := .refresh () (raising ∅ (Finset.notMem_empty _))

private theorem comparesLate_dereferenced : ((waitThreads Unit).run destroyedBetween).map (fun s =>
    (comparesLate.dereferenced s,s.live)) = some ([stopCondition],[]) := by
  decide

/-- The deleted guard condition is dereferenced. -/
theorem comparesLate_dangling : (∃ s, (waitThreads Unit).run (destroyedBetween ++ [comparesLate]) = some s) ∧
    ¬ (waitThreads Unit).Along UsesAlive (destroyedBetween ++ [comparesLate]) := by
  obtain ⟨s,hs⟩ : ∃ s, (waitThreads Unit).run destroyedBetween = some s := ⟨_,rfl⟩
  refine ⟨⟨_,rfl⟩,fun h => ?_⟩
  have hstale := comparesLate_dereferenced
  rw [hs, Option.map_some, Option.some.injEq, Prod.mk.injEq] at hstale
  have hlast := ((Machine.along_concat hs comparesLate).mp h).2
  have hmem := hlast stopCondition (hstale.1 ▸ List.mem_singleton.mpr rfl)
  rw [hstale.2] at hmem
  cases hmem

/-- The call compares its arrays while the other thread is still cleaning caches. -/
def comparedBetween : List (WaitStep Unit) :=
  [.create stopCondition ∅,.takeInuse () ⟨[],[stopCondition],[],[],[]⟩,
    .refresh () (raising ∅ (Finset.notMem_empty _)),.wait (),.releaseInuse (),
    .takeInuse () ⟨[],[],[],[],[]⟩,
    .enterDestroy stopCondition,.lockCaches stopCondition,.clean (),comparesLate,.unlockCaches,.delete stopCondition]

theorem comparedBetween_alive : (waitThreads Unit).Along UsesAlive comparedBetween := by
  refine waitThreads_useAlive (s := ((waitThreads Unit).run comparedBetween).get rfl) (Option.some_get _).symm ?_
  unfold Machine.Along
  decide

end RmwCyclonedds
