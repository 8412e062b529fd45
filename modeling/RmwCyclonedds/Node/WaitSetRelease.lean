import RmwCyclonedds.Node.WaitSetCache

/-! Calls that leave their wait set in use. -/
namespace RmwCyclonedds
open Library

/-- How a call ends: with the error about concurrent calls, with another result, or with an exception. -/
inductive WaitEnding where
  | concurrent
  | returned (outcome : WaitOutcome)
  | throws

/-- The outcome of a call that returns. -/
def WaitEnding.outcome (args : WaitArgs) : WaitEnding → Option WaitOutcome
  | concurrent => some args.refused
  | returned outcome => some outcome
  | throws => none

section
variable {W : Type} [DecidableEq W]

/-- `rmw_wait` where `dds_waitset_wait` may fail: a negative number of triggers is no size for a vector. -/
def rmwWaitEnding (s : CddsWaitsets W) (w : W) (args : WaitArgs) (env : Surroundings) (waitFails : Bool) :
    CddsWaitsets W × WaitEnding :=
  let ws := s.waitsets w
  if ws.inuse then (s,.concurrent)
  else
    match refresh ws.takeInuse args env s.mask with
    | (ws,mask,false) => ({ s with waitsets := Function.update s.waitsets w ws, mask },.returned args.refused)
    | (ws,mask,true) =>
      if waitFails then ({ s with waitsets := Function.update s.waitsets w ws, mask },.throws)
      else ({ s with waitsets := Function.update s.waitsets w { ws with inuse := false }, mask },
        .returned (waitAndReport ws mask args env))

/-- Where the wait does not fail, this is the call without that possibility. -/
theorem rmwWaitEnding_of_waits (s : CddsWaitsets W) (w : W) (args : WaitArgs) (env : Surroundings) :
    ((rmwWaitEnding s w args env false).1,(rmwWaitEnding s w args env false).2.outcome args) =
      ((rmwWait s w args env).1,some (rmwWait s w args env).2) := by
  unfold rmwWaitEnding rmwWait
  cases hin : (s.waitsets w).inuse with
  | true => simp only [hin, if_true, WaitEnding.outcome]
  | false =>
    rcases hr : refresh (s.waitsets w).takeInuse args env s.mask with ⟨ws,mask,_ | _⟩ <;>
      simp only [hin, hr, Bool.false_eq_true, if_false, WaitEnding.outcome]

/-- What happens between the calls: objects come and go, whatever the arrays of the calls hold. -/
inductive WaitUse (W : Type) where
  | create (x : CddsObject) (mask : Finset DdsStatusId)
  | destroy (x : CddsObject)
  | wait (w : W) (args : WaitArgs) (env : Surroundings) (waitFails : Bool)

def WaitUse.next (s : CddsWaitsets W) : WaitUse W → CddsWaitsets W
  | create x mask => RmwCyclonedds.create s x mask
  | destroy x => RmwCyclonedds.destroy s x
  | wait w args env waitFails => (rmwWaitEnding s w args env waitFails).1

/-- Calls on wait sets one after another. -/
def waitUses (W : Type) [DecidableEq W] : Machine (CddsWaitsets W) (WaitUse W) := ⟨.initial,fun s l => some (l.next s)⟩

def AllFree (s : CddsWaitsets W) : Prop := ∀ w, (s.waitsets w).inuse = false

/-- Afterwards no wait set is in use, and the call was not mistaken for a concurrent one. -/
def Releases (s : CddsWaitsets W) (l : WaitUse W) : Prop :=
  AllFree (l.next s) ∧ match l with
    | .wait w args env waitFails => (rmwWaitEnding s w args env waitFails).2 ≠ .concurrent
    | _ => True

/-- The wait does not fail, and events that differ from the cached ones have valid handles and masks that can be set. -/
def ReachesRelease (s : CddsWaitsets W) : WaitUse W → Prop
  | .wait w args env waitFails => waitFails = false ∧ (differs (s.waitsets w) args = true →
      (∀ e ∈ args.evs, 0 < e.data.enth) ∧ ∀ h ∈ args.watched, env.setsMask h (args.wanted h) = true)
  | _ => True

instance (s : CddsWaitsets W) (l : WaitUse W) : Decidable (ReachesRelease s l) := by
  cases l <;> unfold ReachesRelease <;> infer_instance

end

/-! ### One call -/

private theorem reattach_done (ws : CddsWaitset) (args : WaitArgs) (env : Surroundings) (mask : StatusMasks) :
    (reattach ws args env mask).2.2 = (gatherEventEntities args.evs env mask).2.isSome := by
  unfold reattach
  split
  case h_1 heq =>
    rw [heq]
    rfl
  case h_2 heq =>
    rw [heq]
    rfl

private theorem refresh_done_iff (ws : CddsWaitset) (args : WaitArgs) (env : Surroundings) (mask : StatusMasks) :
    (refresh ws.takeInuse args env mask).2.2 = true ↔ (differs ws args = true →
      (∀ e ∈ args.evs, 0 < e.data.enth) ∧ ∀ h ∈ args.watched, env.setsMask h (args.wanted h) = true) := by
  have hdiffers : differs ws.takeInuse args = differs ws args := rfl
  rw [refresh, hdiffers]
  cases hd : differs ws args with
  | false => exact ⟨fun _ => nofun,fun _ => rfl⟩
  | true =>
    rw [if_pos rfl, reattach_done, gatherEventEntities_isSome_iff]
    exact ⟨fun h _ => h,fun h => h rfl⟩

section
variable {W : Type} [DecidableEq W] {s : CddsWaitsets W}

private theorem allFree_update {w : W} {ws : CddsWaitset} {mask : StatusMasks} (h : AllFree s) :
    AllFree { s with waitsets := Function.update s.waitsets w ws, mask } ↔ ws.inuse = false := by
  constructor
  · intro hfree
    have hw : (Function.update s.waitsets w ws w).inuse = false := hfree w
    rwa [Function.update_self] at hw
  · intro hws k
    show (Function.update s.waitsets w ws k).inuse = false
    by_cases hk : k = w
    · subst hk
      rwa [Function.update_self]
    · rw [Function.update_of_ne hk]
      exact h k

private theorem waitsetDetach_inuse (ws : CddsWaitset) : (cleanWaitset ws).inuse = ws.inuse := by
  unfold cleanWaitset
  split <;> rfl

omit [DecidableEq W] in
private theorem AllFree.destroy (h : AllFree s) (x : CddsObject) : AllFree (RmwCyclonedds.destroy s x) := by
  have hclean : AllFree (deleteObject (cleanWaitsetCaches s) x) := fun w => (waitsetDetach_inuse (s.waitsets w)).trans (h w)
  unfold RmwCyclonedds.destroy
  cases x.kind with
  | publisher => exact h
  | subscription | guardCondition | service | client => exact hclean

/-- A call on a free wait set frees it again if it gets as far as that. -/
private theorem releases_wait_iff (h : AllFree s) (w : W) (args : WaitArgs) (env : Surroundings) (waitFails : Bool) :
    Releases s (.wait w args env waitFails) ↔ ReachesRelease s (.wait w args env waitFails) := by
  have hdone := refresh_done_iff (s.waitsets w) args env s.mask
  have hinuse : (refresh (s.waitsets w).takeInuse args env s.mask).1.inuse = true := refresh_inuse _ args env s.mask
  rw [ReachesRelease, ← hdone]
  simp only [Releases, WaitUse.next, rmwWaitEnding, h w]
  rcases hr : refresh (s.waitsets w).takeInuse args env s.mask with ⟨ws,mask,_ | _⟩
  · rw [hr] at hinuse
    simp only [Bool.false_eq_true, if_false, and_false, iff_false]
    exact fun hreleases => nomatch hinuse.symm.trans ((allFree_update h).mp hreleases.1)
  · rw [hr] at hinuse
    cases waitFails with
    | true =>
      simp only [Bool.false_eq_true, if_false, if_true, Bool.true_eq_false, false_and, iff_false]
      exact fun hreleases => nomatch hinuse.symm.trans ((allFree_update h).mp hreleases.1)
    | false =>
      simp only [Bool.false_eq_true, if_false, allFree_update h]
      exact ⟨fun _ => ⟨trivial,trivial⟩,fun _ => ⟨trivial,nofun⟩⟩

private theorem releases_iff (h : AllFree s) (l : WaitUse W) : Releases s l ↔ ReachesRelease s l := by
  cases l with
  | create x mask => exact ⟨fun _ => True.intro,fun _ => ⟨h,True.intro⟩⟩
  | destroy x => exact ⟨fun _ => True.intro,fun _ => ⟨h.destroy x,True.intro⟩⟩
  | wait w args env waitFails => exact releases_wait_iff h w args env waitFails

private theorem run_releases {labels : List (WaitUse W)} (h : (waitUses W).run labels = some s) :
    ((waitUses W).Along Releases labels ↔ (waitUses W).Along ReachesRelease labels) ∧
      ((waitUses W).Along Releases labels → AllFree s) := by
  induction h using Machine.run_induction with
  | start => exact ⟨⟨fun _ => Machine.along_nil _,fun _ => Machine.along_nil _⟩,fun _ _ => rfl⟩
  | @step labels s l s' hrun hl ih =>
    rw [Machine.along_concat hrun, Machine.along_concat hrun, ← ih.1]
    refine ⟨and_congr_right fun hlabels => releases_iff (ih.2 hlabels) l,fun h => ?_⟩
    cases hl
    exact h.2.1

/-- In a run every call leaves its wait set free if every call gathers its events and its wait does not fail. -/
theorem waitUses_release_iff {labels : List (WaitUse W)} (h : (waitUses W).run labels = some s) :
    (waitUses W).Along Releases labels ↔ (waitUses W).Along ReachesRelease labels := (run_releases h).1

end

private theorem none_raised : DdsStatusId.inconsistentTopic ∉ (∅ : Finset DdsStatusId) := by decide

/-- A wait for an event of a publisher and the same wait again. -/
def talkerTwice : List (WaitUse Unit) :=
  [.create talker ∅,.wait () (talkerEvent .livelinessLost) (raising ∅ none_raised) false,
    .wait () (talkerEvent .livelinessLost) (raising ∅ none_raised) false]

theorem talkerTwice_releases : (waitUses Unit).Along Releases talkerTwice := by
  refine (waitUses_release_iff (s := ((waitUses Unit).run talkerTwice).get rfl) (Option.some_get _).symm).mpr ?_
  unfold Machine.Along
  decide

/-- What a call sees when no status mask can be set. -/
def refusingMasks : Surroundings := { raising ∅ none_raised with setsMask := fun _ _ => false }

/-- An event for readers has been made for a publisher, and Cyclone refuses its mask: that wait fails, and every later one
as a concurrent call. -/
theorem readerEvent_blocks :
    ∃ s, (waitUses Unit).run [.create talker ∅,.wait () (talkerEvent .livelinessChanged) refusingMasks false] = some s ∧
      (∀ args env waitFails, (rmwWaitEnding s () args env waitFails).2 = .concurrent) ∧
      ¬(waitUses Unit).Along Releases [.create talker ∅,.wait () (talkerEvent .livelinessChanged) refusingMasks false] := by
  refine ⟨_,rfl,fun _ _ _ => rfl,fun h => ?_⟩
  have hfree := (h _ (List.mem_cons_of_mem _ (List.mem_singleton.mpr rfl))).1 ()
  cases hfree

end RmwCyclonedds
