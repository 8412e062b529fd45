import RmwCyclonedds.Library.Runs
import RmwCyclonedds.Node.WaitSet
import Mathlib.Data.Finset.Lattice.Lemmas
import Mathlib.Data.Finset.Option
import Mathlib.Data.List.Perm.Lattice

/-! A wait against the same wait without a cache. -/
namespace RmwCyclonedds
open Library

/-! ### A wait without a cache -/

/-- The entities with an event that is supported. -/
def eventEntities (events : List RmwEvent) : List DdsEntity :=
  ((events.filter fun e => isEventSupported e.eventType).map fun e => e.data.enth).dedup

/-- The statuses that the events of an entity stand for. -/
def eventKinds (events : List RmwEvent) (h : DdsEntity) : Finset DdsStatusId :=
  ((events.filter fun e => e.data.enth = h).filterMap fun e => maskMap e.eventType).toFinset.erase .inconsistentTopic

namespace WaitArgs
variable (args : WaitArgs)

/-- The conditions of a call, in the order of its arrays. -/
def conds : List DdsEntity := args.objects.map CddsObject.condh

def watched : List DdsEntity := eventEntities args.evs

def wanted (h : DdsEntity) : Finset DdsStatusId := eventKinds args.evs h

/-- The status masks of a call set anew. -/
def freshMask (mask : StatusMasks) : StatusMasks := fun h => if h ∈ args.watched then args.wanted h else mask h

/-- Waits for exactly the arrays of the call. An entry is kept iff its own entity triggered when the call was woken. -/
def freshWait (mask : StatusMasks) (env : Surroundings) : WaitOutcome :=
  let mask := args.freshMask mask
  let woken := env.moments.find? fun m => (args.conds ++ args.watched).any (m.triggers mask)
  let triggered (h : DdsEntity) : Bool := woken.any fun m => m.triggers mask h
  let kept (x : CddsObject) : Option CddsObject := if triggered x.condh then some x else none
  { ret := if woken.isSome then .ok else .timeout
    subs := args.subs.map kept
    gcs := args.gcs.map kept
    srvs := args.srvs.map kept
    cls := args.cls.map kept
    evs := args.evs.map fun e => if (maskMap e.eventType).any (· ∈ env.later.statusChanges mask e.data.enth) then some e else none
    taken := (args.gcs.map CddsObject.condh).filter triggered }

end WaitArgs

/-! ### Runs -/

inductive WaitSetCall (W : Type) where
  | create (x : CddsObject) (mask : Finset DdsStatusId)
  | destroy (x : CddsObject)
  | wait (w : W) (args : WaitArgs) (env : Surroundings)

section
variable {W : Type} [DecidableEq W]

def CddsWaitset.initial : CddsWaitset := ⟨false,0,[],[],[],[],[],[]⟩

def CddsWaitsets.initial : CddsWaitsets W := ⟨0,[],fun _ => .initial,fun _ => ∅⟩

def WaitSetCall.next (s : CddsWaitsets W) : WaitSetCall W → Option (CddsWaitsets W)
  | .create x mask => if Unused s x then some (RmwCyclonedds.create s x mask) else none
  | .destroy x => if x ∈ s.live then some (RmwCyclonedds.destroy s x) else none
  | .wait w args env => if args.Valid s.live then some (rmwWait s w args env).1 else none

/-- Sequences of calls on any number of wait sets. -/
def waitSetCalls (W : Type) [DecidableEq W] : Machine (CddsWaitsets W) (WaitSetCall W) := ⟨.initial,WaitSetCall.next⟩

/-- A status occurs on a reader or writer. -/
def Moment.Occurs (m : Moment) (h : DdsEntity) (kind : DdsStatusId) : Prop := ∃ raised, m.state h = .entity raised ∧ kind ∈ raised

/-- A successful wait acts like one without a cache, and is woken when the status of one of its events occurs. -/
def Transparent (s : CddsWaitsets W) : WaitSetCall W → Prop
  | .wait w args env =>
    let outcome := (rmwWait s w args env).2
    outcome.ret ≠ .error →
      outcome = args.freshWait s.mask env ∧
      ∀ e ∈ args.evs, ∀ kind ∈ maskMap e.eventType, (∃ m ∈ env.moments, m.Occurs e.data.enth kind) → outcome.ret = .ok
  | _ => True

/-- A wait on arrays that agree with the cache finds the entities of its events still attached and still with the masks
that these events need. -/
def MasksCurrent (s : CddsWaitsets W) : WaitSetCall W → Prop
  | .wait w args _ => (s.waitsets w).inuse = false → differs (s.waitsets w) args = false →
      ∀ h ∈ args.watched, h ∈ (s.waitsets w).attached.map Prod.fst ∧ s.mask h = args.wanted h
  | _ => True

instance (s : CddsWaitsets W) (l : WaitSetCall W) : Decidable (MasksCurrent s l) := by
  cases l <;> unfold MasksCurrent <;> infer_instance

end

/-! ### Attaching and detaching -/

private theorem foldl_detach {α : Type} (f : α → DdsEntity) (xs : List α) (l : Attachments) :
    xs.foldl (fun l x => detach (f x) l) l = l.filter fun p => p.1 ∉ xs.map f := by
  induction xs generalizing l with
  | nil => simp
  | cons x xs ih =>
    rw [List.foldl_cons, ih, detach, List.filter_filter]
    apply List.filter_congr
    intro p _
    simp only [List.map_cons, List.mem_cons, not_or, Bool.decide_and, Bool.and_comm, ne_eq]

private theorem waitsetDetach_attached (ws : CddsWaitset) :
    (waitsetDetach ws).attached = ws.attached.filter fun p => p.1 ∉ ws.cached.conds ++ ws.evs.map CddsEvent.enth := by
  simp only [waitsetDetach, foldl_detach, List.filter_filter]
  apply List.filter_congr
  intro p _
  simp only [WaitArgs.conds, WaitArgs.objects, CddsWaitset.cached, List.map_append, List.mem_append, not_or, Bool.decide_and]
  ac_rfl

private theorem attachAll_append (hs ks : List DdsEntity) (r : Attachments × Nat) :
    attachAll (hs ++ ks) r = attachAll ks (attachAll hs r) := by
  induction hs generalizing r with
  | nil => rfl
  | cons h hs ih =>
    obtain ⟨l,n⟩ := r
    rw [List.cons_append, attachAll, attachAll, ih]

/-- Entities that are not attached yet get the numbers from `n` on. -/
private theorem attachAll_eq {hs : List DdsEntity} (nodup : hs.Nodup) {l : Attachments} (n : Nat)
    (apart : ∀ h ∈ hs, h ∉ l.map Prod.fst) : attachAll hs (l,n) = (l ++ numbered n hs,n + hs.length) := by
  induction hs generalizing l n with
  | nil => simp [attachAll, numbered]
  | cons h hs ih =>
    rw [List.nodup_cons] at nodup
    rw [attachAll, attach, if_neg (apart h List.mem_cons_self), ih nodup.2]
    · simp only [numbered, List.append_assoc, List.singleton_append, List.length_cons]
      congr 1
      omega
    · intro k hk
      rw [List.map_append, List.mem_append, not_or]
      refine ⟨apart k (List.mem_cons_of_mem _ hk),fun heq => nodup.1 ?_⟩
      rwa [List.mem_singleton.mp heq] at hk

/-! ### Gathering the masks -/

private theorem eventKinds_cons (e : RmwEvent) (events : List RmwEvent) (h : DdsEntity) :
    eventKinds (e :: events) h =
      (if e.data.enth = h then (maskMap e.eventType).toFinset.erase .inconsistentTopic else ∅) ∪ eventKinds events h := by
  unfold eventKinds
  by_cases he : e.data.enth = h
  · rw [List.filter_cons_of_pos (by simpa using he), List.filterMap_cons, if_pos he]
    cases maskMap e.eventType with
    | none => simp
    | some kind =>
      simp only [List.toFinset_cons, Option.toFinset_some]
      rw [Finset.insert_eq, Finset.erase_union_distrib]
  · rw [List.filter_cons_of_neg (by simpa using he), if_neg he, Finset.empty_union]

private theorem mem_eventEntities_cons (e : RmwEvent) (events : List RmwEvent) (h : DdsEntity) :
    h ∈ eventEntities (e :: events) ↔ (isEventSupported e.eventType = true ∧ h = e.data.enth) ∨ h ∈ eventEntities events := by
  simp only [eventEntities, List.mem_dedup, List.mem_map, List.mem_filter, List.mem_cons]
  grind

/-- The mask in the map, empty for an entity that is not in it. -/
private def StatusMaskMap.get (m : StatusMaskMap) (h : DdsEntity) : Finset DdsStatusId := if h ∈ m.keys then m.mask h else ∅

private theorem mem_add_keys (m : StatusMaskMap) (h k : DdsEntity) (kind : DdsStatusId) :
    k ∈ (m.add h kind).keys ↔ k = h ∨ k ∈ m.keys := by
  simp only [StatusMaskMap.add]
  split <;> split <;> grind

private theorem add_nodup {m : StatusMaskMap} (hm : m.keys.Nodup) (h : DdsEntity) (kind : DdsStatusId) :
    (m.add h kind).keys.Nodup := by
  simp only [StatusMaskMap.add]
  split <;> split <;> grind [List.nodup_append]

private theorem add_get (m : StatusMaskMap) (h k : DdsEntity) (kind : DdsStatusId) :
    (m.add h kind).get k = (if h = k then ({kind} : Finset DdsStatusId).erase .inconsistentTopic else ∅) ∪ m.get k := by
  simp only [StatusMaskMap.get, mem_add_keys]
  simp only [StatusMaskMap.add]
  by_cases hk : h = k
  · subst hk
    by_cases hkind : kind = .inconsistentTopic
    · by_cases hin : h ∈ m.keys <;> simp [hin, hkind]
    · have herase : ({kind} : Finset DdsStatusId).erase .inconsistentTopic = {kind} :=
        Finset.erase_eq_of_notMem (by simpa using Ne.symm hkind)
      by_cases hin : h ∈ m.keys <;> simp [hin, hkind, herase, Finset.union_comm]
  · have hk' : k ≠ h := Ne.symm hk
    by_cases hin : h ∈ m.keys <;> by_cases hkind : kind = .inconsistentTopic <;>
      simp [hin, hkind, hk, hk', Function.update_of_ne]

private theorem statusMaskMap_spec {events : List RmwEvent} {m m' : StatusMaskMap} (h : statusMaskMap events m = some m')
    (nodup : m.keys.Nodup) :
    m'.keys.Nodup ∧ (∀ k, k ∈ m'.keys ↔ k ∈ eventEntities events ∨ k ∈ m.keys) ∧
      ∀ k, m'.get k = eventKinds events k ∪ m.get k := by
  induction events generalizing m with
  | nil =>
    cases h
    exact ⟨nodup,fun k => (or_iff_right List.not_mem_nil).symm,fun k => (Finset.empty_union _).symm⟩
  | cons e events ih =>
    rw [statusMaskMap] at h
    split at h
    · cases h
    · cases hkind : maskMap e.eventType with
      | none =>
        rw [hkind] at h
        obtain ⟨hnodup,hkeys,hget⟩ := ih h nodup
        have hs : ¬ isEventSupported e.eventType = true := by simp [isEventSupported, hkind]
        refine ⟨hnodup,fun k => ?_,fun k => ?_⟩
        · rw [hkeys, mem_eventEntities_cons]
          tauto
        · rw [hget, eventKinds_cons, hkind]
          simp
      | some kind =>
        rw [hkind] at h
        obtain ⟨hnodup,hkeys,hget⟩ := ih h (add_nodup nodup e.data.enth kind)
        have hs : isEventSupported e.eventType = true := by simp [isEventSupported, hkind]
        refine ⟨hnodup,fun k => ?_,fun k => ?_⟩
        · rw [hkeys, mem_eventEntities_cons, mem_add_keys]
          tauto
        · rw [hget, add_get, eventKinds_cons, hkind]
          simp only [Option.toFinset_some]
          ac_rfl

private theorem setStatusMasks_true {sets : DdsEntity → Finset DdsStatusId → Bool} {masks : StatusMasks} {hs : List DdsEntity}
    {mask mask' : StatusMasks} (h : setStatusMasks sets masks hs mask = (mask',true)) :
    mask' = fun k => if k ∈ hs then masks k else mask k := by
  induction hs generalizing mask with
  | nil =>
    cases h
    funext k
    simp
  | cons x hs ih =>
    rw [setStatusMasks] at h
    split at h
    · rw [ih h]
      funext k
      by_cases hk : k = x
      · subst hk
        simp
      · simp [hk, Function.update_of_ne]
    · cases h

private theorem gatherEventEntities_some {events : List RmwEvent} {env : Surroundings} {mask mask' : StatusMasks}
    {entities : List DdsEntity} (h : gatherEventEntities events env mask = (mask',some entities)) :
    entities.Perm (eventEntities events) ∧
      mask' = fun k => if k ∈ eventEntities events then eventKinds events k else mask k := by
  rw [gatherEventEntities] at h
  cases hm : statusMaskMap events ⟨[],fun _ => ∅⟩ with
  | none =>
    rw [hm] at h
    cases h
  | some m =>
    rw [hm] at h
    obtain ⟨nodup,hkeys,hget⟩ := statusMaskMap_spec hm List.nodup_nil
    have hperm : (env.mapOrder m.keys).Perm (eventEntities events) := by
      refine (env.mapOrder_perm m.keys).trans ?_
      apply (List.perm_ext_iff_of_nodup nodup (List.nodup_dedup _)).mpr
      intro k
      rw [hkeys]
      exact or_iff_left List.not_mem_nil
    cases hset : setStatusMasks env.setsMask m.mask (env.mapOrder m.keys) mask with
    | mk mask'' done =>
      simp only [hset] at h
      cases done with
      | false => cases h
      | true =>
        cases h
        refine ⟨hperm,?_⟩
        rw [setStatusMasks_true hset]
        funext k
        simp only [hperm.mem_iff]
        split
        case isTrue hk =>
          have hmem : k ∈ m.keys := (hkeys k).mpr (.inl hk)
          have hmask := hget k
          simp only [StatusMaskMap.get, hmem, ↓reduceIte, List.not_mem_nil, Finset.union_empty] at hmask
          exact hmask
        case isFalse => rfl

private theorem statusMaskMap_isSome_iff (events : List RmwEvent) (m : StatusMaskMap) :
    (statusMaskMap events m).isSome = true ↔ ∀ e ∈ events, 0 < e.data.enth := by
  induction events generalizing m with
  | nil => exact ⟨fun _ => nofun,fun _ => rfl⟩
  | cons e events ih =>
    rw [List.forall_mem_cons, statusMaskMap]
    by_cases he : e.data.enth ≤ 0
    · rw [if_pos he]
      exact ⟨nofun,fun h => absurd he (Int.not_le.mpr h.1)⟩
    · rw [if_neg he]
      have hpos := Int.not_le.mp he
      cases maskMap e.eventType with
      | none => exact (ih m).trans ⟨fun h => ⟨hpos,h⟩,fun h => h.2⟩
      | some kind => exact (ih _).trans ⟨fun h => ⟨hpos,h⟩,fun h => h.2⟩

private theorem setStatusMasks_done_iff (sets : DdsEntity → Finset DdsStatusId → Bool) (masks : StatusMasks)
    (hs : List DdsEntity) (mask : StatusMasks) :
    (setStatusMasks sets masks hs mask).2 = true ↔ ∀ h ∈ hs, sets h (masks h) = true := by
  induction hs generalizing mask with
  | nil => exact ⟨fun _ => nofun,fun _ => rfl⟩
  | cons h hs ih =>
    rw [List.forall_mem_cons, setStatusMasks]
    by_cases hset : sets h (masks h) = true
    · rw [if_pos hset]
      exact (ih _).trans ⟨fun hall => ⟨hset,hall⟩,fun hall => hall.2⟩
    · rw [if_neg hset]
      exact ⟨nofun,fun hall => absurd hall.1 hset⟩

/-- Events are gathered if their handles are valid and the masks they need can be set. -/
theorem gatherEventEntities_isSome_iff (events : List RmwEvent) (env : Surroundings) (mask : StatusMasks) :
    (gatherEventEntities events env mask).2.isSome = true ↔
      (∀ e ∈ events, 0 < e.data.enth) ∧ ∀ h ∈ eventEntities events, env.setsMask h (eventKinds events h) = true := by
  have hhandles := statusMaskMap_isSome_iff events ⟨[],fun _ => ∅⟩
  rw [gatherEventEntities]
  cases hm : statusMaskMap events ⟨[],fun _ => ∅⟩ with
  | none =>
    rw [hm] at hhandles
    exact ⟨nofun,fun h => nomatch hhandles.mpr h.1⟩
  | some m =>
    rw [hm] at hhandles
    obtain ⟨_,hkeys,hget⟩ := statusMaskMap_spec hm List.nodup_nil
    have hdone := setStatusMasks_done_iff env.setsMask m.mask (env.mapOrder m.keys) mask
    have hmasks : (∀ h ∈ env.mapOrder m.keys, env.setsMask h (m.mask h) = true) ↔
        ∀ h ∈ eventEntities events, env.setsMask h (eventKinds events h) = true := by
      have hmem (h : DdsEntity) : h ∈ env.mapOrder m.keys ↔ h ∈ eventEntities events := by
        rw [(env.mapOrder_perm m.keys).mem_iff, hkeys]
        exact or_iff_left List.not_mem_nil
      refine forall_congr' fun h => ?_
      rw [hmem]
      refine forall_congr' fun hin => ?_
      have hmask := hget h
      simp only [StatusMaskMap.get, (hkeys h).mpr (.inl hin), ↓reduceIte, List.not_mem_nil, Finset.union_empty] at hmask
      rw [hmask]
    rw [← hmasks, ← hdone]
    cases hset : setStatusMasks env.setsMask m.mask (env.mapOrder m.keys) mask with
    | mk mask' done =>
      simp only [hset]
      cases done with
      | false => exact ⟨nofun,fun h => nomatch h.2⟩
      | true => exact ⟨fun _ => ⟨hhandles.mp rfl,rfl⟩,fun _ => rfl⟩

/-! ### Reporting -/

/-- The attachments that a call needs: its conditions with their places in the arrays, and behind them the entities of
its events. -/
structure AttachedFor (args : WaitArgs) (attached behind : Attachments) : Prop where
  attached_eq : attached = numbered 0 args.conds ++ behind
  entities : (behind.map Prod.fst).Perm args.watched
  values : (behind.map Prod.snd).Nodup
  above : ∀ k ∈ behind.map Prod.snd, (args.conds.length : Int) ≤ k

private theorem insertionSort_pairwise {l : List Int} (h : l.Nodup) : (l.insertionSort (· ≤ ·)).Pairwise (· < ·) := by
  have hsorted := List.pairwise_insertionSort (· ≤ ·) l
  have hnodup : (l.insertionSort (· ≤ ·)).Nodup := (List.perm_insertionSort (· ≤ ·) l).nodup_iff.mpr h
  exact (hsorted.and hnodup).imp fun hab => lt_of_le_of_ne hab.1 hab.2

namespace AttachedFor
variable {args : WaitArgs} {attached behind : Attachments}

private theorem nodup (h : AttachedFor args attached behind) : (attached.map Prod.snd).Nodup := by
  rw [h.attached_eq, List.map_append, List.nodup_append]
  refine ⟨numbered_snd_nodup 0 _,h.values,fun k hk k' hk' heq => ?_⟩
  have hlt := (numbered_snd_le hk).2
  have hle := h.above k' hk'
  omega

private theorem nonneg (h : AttachedFor args attached behind) {k : Int} (hk : k ∈ attached.map Prod.snd) : 0 ≤ k := by
  rw [h.attached_eq, List.map_append, List.mem_append] at hk
  rcases hk with hk | hk
  · exact (numbered_snd_le hk).1
  · have := h.above k hk
    omega

private theorem any_eq (h : AttachedFor args attached behind) (p : DdsEntity → Bool) :
    attached.any (fun a => p a.1) = (args.conds ++ args.watched).any p := by
  have hnumbered : (numbered 0 args.conds).any (fun a => p a.1) = args.conds.any p := by
    conv_rhs => rw [← numbered_fst 0 args.conds, List.any_map]
    rfl
  have hbehind : behind.any (fun a => p a.1) = args.watched.any p := by
    rw [← h.entities.any_eq, List.any_map]
    rfl
  rw [h.attached_eq, List.any_append, List.any_append, hnumbered, hbehind]

/-- The number of a condition is among those that are picked iff the condition is. -/
private theorem mem_filter_iff (h : AttachedFor args attached behind) (p : DdsEntity → Bool) (i : Nat) (hi : i < args.conds.length) :
    (i : Int) ∈ (attached.filter fun a => p a.1).map Prod.snd ↔ p args.conds[i] = true := by
  constructor
  · intro hmem
    obtain ⟨a,ha,hai⟩ := List.mem_map.mp hmem
    rw [List.mem_filter, h.attached_eq, List.mem_append] at ha
    obtain ⟨hin | hin,hp⟩ := ha
    · obtain ⟨j,hj,rfl⟩ := mem_numbered.mp hin
      simp only [Nat.zero_add, Int.natCast_inj] at hai
      subst hai
      exact hp
    · have := h.above a.2 (List.mem_map_of_mem hin)
      omega
  · intro hp
    refine List.mem_map.mpr ⟨(args.conds[i],(i : Int)),?_,rfl⟩
    rw [List.mem_filter, h.attached_eq, List.mem_append]
    exact ⟨.inl (mem_numbered.mpr ⟨i,hi,by rw [Nat.zero_add]⟩),hp⟩

/-- The moment at which the call is woken, if it is. -/
private def woken (args : WaitArgs) (mask : StatusMasks) (env : Surroundings) : Option Moment :=
  env.moments.find? fun m => (args.conds ++ args.watched).any (m.triggers mask)

private theorem ddsWaitsetWait_eq (h : AttachedFor args attached behind) (mask : StatusMasks) (env : Surroundings) :
    ddsWaitsetWait attached mask env = match woken args mask env with
      | none => []
      | some m => env.reportOrder ((attached.filter fun p => m.triggers mask p.1).map Prod.snd) := by
  have hany : (fun m : Moment => attached.any fun p => m.triggers mask p.1) =
      fun m => (args.conds ++ args.watched).any (m.triggers mask) := by
    funext m
    exact h.any_eq (m.triggers mask)
  have hfind : env.moments.find? (fun m => attached.any fun p => m.triggers mask p.1) = woken args mask env := by
    rw [hany, woken]
  unfold ddsWaitsetWait
  cases hw : woken args mask env with
  | none => simp only [hfind, hw]
  | some m => simp only [hfind, hw]

private theorem filter_sublist (p : DdsEntity → Bool) :
    ((attached.filter fun a => p a.1).map Prod.snd).Sublist (attached.map Prod.snd) :=
  List.filter_sublist.map Prod.snd

/-- The triggers reported, without an order. -/
private theorem reported (h : AttachedFor args attached behind) (mask : StatusMasks) (env : Surroundings) :
    ∃ l, (ddsWaitsetWait attached mask env).Perm l ∧ l.Sublist (attached.map Prod.snd) ∧
      (∀ i (hi : i < args.conds.length), (i : Int) ∈ l ↔
        ((woken args mask env).any fun m => m.triggers mask args.conds[i]) = true) ∧
      (l = [] ↔ woken args mask env = none) := by
  rw [h.ddsWaitsetWait_eq]
  cases hw : woken args mask env with
  | none => exact ⟨[],.refl _,List.nil_sublist _,fun i hi => by simp,by simp⟩
  | some m =>
    refine ⟨_,env.reportOrder_perm _,filter_sublist (m.triggers mask),fun i hi => ?_,?_⟩
    · rw [h.mem_filter_iff, Option.any_some]
    · have hm := List.find?_some hw
      rw [← h.any_eq, List.any_eq_true] at hm
      obtain ⟨a,ha,ht⟩ := hm
      simp only [List.map_eq_nil_iff, List.filter_eq_nil_iff, reduceCtorEq, iff_false]
      exact fun hnone => hnone a ha ht

end AttachedFor

/-- The sweep over one array, in the midst of the others. -/
private theorem sweep_segment {p : DdsEntity → Bool} {conds : List DdsEntity} {trigs : List Int} (sorted : trigs.Pairwise (· < ·))
    (hp : ∀ i (hi : i < conds.length), (i : Int) ∈ trigs ↔ p conds[i] = true) (before xs behind : List CddsObject)
    (h : conds = (before ++ xs ++ behind).map CddsObject.condh) :
    sweep before.length xs (trigs.filter (fun t => (before.length : Int) ≤ t) ++ [-1]) =
      (xs.map fun x => if p x.condh then some x else none,
        trigs.filter (fun t => ((before.length + xs.length : Nat) : Int) ≤ t) ++ [-1]) := by
  subst h
  rw [sweep_eq (fun x => p x.condh) (sorted.filter _)]
  · rw [List.filter_filter]
    congr 2
    apply List.filter_congr
    intro t _
    rw [← Bool.decide_and, decide_eq_decide]
    omega
  · intro t ht
    exact of_decide_eq_true (List.mem_filter.mp ht).2
  · intro i hi
    have hlt : before.length + i < ((before ++ xs ++ behind).map CddsObject.condh).length := by
      simp only [List.length_map, List.length_append]
      omega
    have hget : ((before ++ xs ++ behind).map CddsObject.condh)[before.length + i] = xs[i].condh := by
      simp [hi]
    rw [List.mem_filter, hp _ hlt, hget]
    simp

private theorem taken_eq (p : DdsEntity → Bool) (xs : List CddsObject) :
    ((xs.map fun x => if p x.condh then some x else none).filterMap id).map CddsObject.condh =
      (xs.map CddsObject.condh).filter p := by
  induction xs with
  | nil => rfl
  | cons x xs ih =>
    by_cases hx : p x.condh = true
    · rw [List.map_cons, if_pos hx, List.filterMap_cons_some (show id (some x) = some x from rfl), List.map_cons, ih,
        List.map_cons, List.filter_cons_of_pos hx]
    · rw [List.map_cons, if_neg hx, List.filterMap_cons_none (show id (none : Option CddsObject) = none from rfl), ih,
        List.map_cons, List.filter_cons_of_neg hx]

private theorem handleActiveEvents_eq (mask : StatusMasks) (later : Moment) {events : List RmwEvent}
    (positive : ∀ e ∈ events, 0 < e.data.enth) :
    handleActiveEvents mask later events =
      events.map fun e => if (maskMap e.eventType).any (· ∈ later.statusChanges mask e.data.enth) then some e else none := by
  induction events with
  | nil => rfl
  | cons e events ih =>
    have he := positive e List.mem_cons_self
    rw [handleActiveEvents, if_neg (Int.not_le.mpr he), ih fun e' he' => positive e' (List.mem_cons_of_mem _ he'), List.map_cons]
    cases maskMap e.eventType <;> rfl

private theorem nonneg_filter {trigs : List Int} (h : ∀ t ∈ trigs, 0 ≤ t) :
    trigs.filter (fun t => ((([] : List CddsObject).length : Nat) : Int) ≤ t) = trigs := by
  apply List.filter_eq_self.mpr
  intro t ht
  exact decide_eq_true (h t ht)

/-- With the right attachments and masks, the report is that of a wait without a cache. -/
private theorem waitAndReport_eq {ws : CddsWaitset} {args : WaitArgs} {behind : Attachments}
    (h : AttachedFor args ws.attached behind) (room : ws.attached.length ≤ ws.nelems)
    (positive : ∀ e ∈ args.evs, 0 < e.data.enth) (mask : StatusMasks) (env : Surroundings) :
    waitAndReport ws (args.freshMask mask) args env = args.freshWait mask env := by
  obtain ⟨l,hperm,hsub,hmem,hnil⟩ := h.reported (args.freshMask mask) env
  have hlen : (ddsWaitsetWait ws.attached (args.freshMask mask) env).length ≤ ws.nelems := by
    rw [hperm.length_eq]
    exact (hsub.length_le.trans_eq (List.length_map _)).trans room
  have hbuffer : (ddsWaitsetWait ws.attached (args.freshMask mask) env).take (ws.nelems + 1) ++
      List.replicate ((ddsWaitsetWait ws.attached (args.freshMask mask) env).length - (ws.nelems + 1)) 0 =
      ddsWaitsetWait ws.attached (args.freshMask mask) env := by
    rw [List.take_of_length_le (by omega), Nat.sub_eq_zero_of_le (by omega), List.replicate_zero, List.append_nil]
  have hsort := (List.perm_insertionSort (· ≤ ·) (ddsWaitsetWait ws.attached (args.freshMask mask) env)).trans hperm
  have hnodup : (ddsWaitsetWait ws.attached (args.freshMask mask) env).Nodup :=
    hperm.nodup_iff.mpr (h.nodup.sublist hsub)
  have hsorted := insertionSort_pairwise hnodup
  generalize htrigs : (ddsWaitsetWait ws.attached (args.freshMask mask) env).insertionSort (· ≤ ·) = trigs at hsort hsorted
  have hnonneg (t : Int) (ht : t ∈ trigs) : 0 ≤ t := h.nonneg (hsub.subset (hsort.mem_iff.mp ht))
  let triggered (k : DdsEntity) : Bool :=
    (AttachedFor.woken args (args.freshMask mask) env).any fun m => m.triggers (args.freshMask mask) k
  have hp (i : Nat) (hi : i < args.conds.length) : (i : Int) ∈ trigs ↔ triggered args.conds[i] = true :=
    hsort.mem_iff.trans (hmem i hi)
  have hsubs := sweep_segment hsorted hp [] args.subs (args.gcs ++ args.srvs ++ args.cls) (by simp [WaitArgs.conds, WaitArgs.objects])
  have hgcs := sweep_segment hsorted hp args.subs args.gcs (args.srvs ++ args.cls) (by simp [WaitArgs.conds, WaitArgs.objects])
  have hsrvs := sweep_segment hsorted hp (args.subs ++ args.gcs) args.srvs args.cls (by simp [WaitArgs.conds, WaitArgs.objects])
  have hcls := sweep_segment hsorted hp (args.subs ++ args.gcs ++ args.srvs) args.cls [] (by simp [WaitArgs.conds, WaitArgs.objects])
  rw [nonneg_filter hnonneg] at hsubs
  simp only [List.length_nil, Nat.zero_add, List.length_append] at hsubs hgcs hsrvs hcls
  have hlength : (trigs ++ [-1]).length = 1 ↔ AttachedFor.woken args (args.freshMask mask) env = none := by
    rw [← hnil, List.length_append, List.length_singleton, Nat.add_eq_right, hsort.length_eq, List.length_eq_zero_iff]
  have hret : (if (trigs ++ [-1]).length = 1 then RmwRet.timeout else .ok) =
      if (AttachedFor.woken args (args.freshMask mask) env).isSome then .ok else .timeout := by
    cases hw : AttachedFor.woken args (args.freshMask mask) env with
    | none => exact if_pos (hlength.mpr hw)
    | some m => exact if_neg fun hone => nomatch hw.symm.trans (hlength.mp hone)
  simp only [waitAndReport, hbuffer, htrigs, hsubs, hgcs, hsrvs, hcls, hret, taken_eq,
    handleActiveEvents_eq (args.freshMask mask) env.later positive]
  rfl

/-! ### Objects alive -/

/-- Objects alive at the same time have different addresses and handles. -/
structure Distinct (live : List CddsObject) : Prop where
  nodup : live.Nodup
  addr : ∀ x ∈ live, ∀ y ∈ live, x.addr = y.addr → x = y
  handles : ∀ x ∈ live, ∀ y ∈ live, ∀ h ∈ x.handles, h ∈ y.handles → x = y
  own : ∀ x ∈ live, x.handles.Nodup ∧ ∀ h ∈ x.handles, 0 < h

namespace Distinct
variable {live : List CddsObject}

theorem erase (hd : Distinct live) (x : CddsObject) : Distinct (live.erase x) where
  nodup := hd.nodup.erase x
  addr y hy z hz := hd.addr y (List.mem_of_mem_erase hy) z (List.mem_of_mem_erase hz)
  handles y hy z hz := hd.handles y (List.mem_of_mem_erase hy) z (List.mem_of_mem_erase hz)
  own y hy := hd.own y (List.mem_of_mem_erase hy)

theorem concat (hd : Distinct live) {x : CddsObject} (own : x.handles.Nodup ∧ ∀ h ∈ x.handles, 0 < h)
    (apart : ∀ y ∈ live, y.addr ≠ x.addr ∧ ∀ h ∈ x.handles, h ∉ y.handles) : Distinct (live ++ [x]) where
  nodup := by
    rw [List.nodup_append]
    refine ⟨hd.nodup,List.nodup_singleton x,fun y hy z hz heq => ?_⟩
    rw [List.mem_singleton.mp hz] at heq
    exact (apart y hy).1 (congrArg CddsObject.addr heq)
  addr y hy z hz heq := by
    rcases List.mem_append.mp hy with hy | hy <;> rcases List.mem_append.mp hz with hz | hz
    · exact hd.addr y hy z hz heq
    · exact absurd (List.mem_singleton.mp hz ▸ heq) (apart y hy).1
    · exact absurd (List.mem_singleton.mp hy ▸ heq.symm) (apart z hz).1
    · exact (List.mem_singleton.mp hy).trans (List.mem_singleton.mp hz).symm
  handles y hy z hz h hhy hhz := by
    rcases List.mem_append.mp hy with hy | hy <;> rcases List.mem_append.mp hz with hz | hz
    · exact hd.handles y hy z hz h hhy hhz
    · exact absurd hhy ((apart y hy).2 h (List.mem_singleton.mp hz ▸ hhz))
    · exact absurd hhz ((apart z hz).2 h (List.mem_singleton.mp hy ▸ hhy))
    · exact (List.mem_singleton.mp hy).trans (List.mem_singleton.mp hz).symm
  own y hy := by
    rcases List.mem_append.mp hy with hy | hy
    · exact hd.own y hy
    · exact List.mem_singleton.mp hy ▸ own

end Distinct

private theorem condh_mem {x : CddsObject} (h : x.kind ≠ .publisher) : x.condh ∈ x.handles := by
  unfold CddsObject.handles
  cases hk : x.kind <;> simp_all

private theorem enth_mem {x : CddsObject} (h : x.kind = .publisher ∨ x.kind = .subscription) : x.enth ∈ x.handles := by
  unfold CddsObject.handles
  rcases h with h | h <;> simp [h]

namespace WaitArgs.Valid
variable {args : WaitArgs} {live : List CddsObject}

theorem objects (hv : args.Valid live) {x : CddsObject} (hx : x ∈ args.objects) : x ∈ live ∧ x.kind ≠ .publisher := by
  obtain ⟨⟨_,hsubs⟩,⟨_,hgcs⟩,⟨_,hsrvs⟩,⟨_,hcls⟩,_⟩ := hv
  simp only [WaitArgs.objects, List.mem_append] at hx
  rcases hx with ((hx | hx) | hx) | hx
  · exact ⟨(hsubs x hx).1,by simp [(hsubs x hx).2]⟩
  · exact ⟨(hgcs x hx).1,by simp [(hgcs x hx).2]⟩
  · exact ⟨(hsrvs x hx).1,by simp [(hsrvs x hx).2]⟩
  · exact ⟨(hcls x hx).1,by simp [(hcls x hx).2]⟩

private theorem objects_nodup (hv : args.Valid live) : args.objects.Nodup := by
  obtain ⟨⟨nsubs,hsubs⟩,⟨ngcs,hgcs⟩,⟨nsrvs,hsrvs⟩,⟨ncls,hcls⟩,_⟩ := hv
  -- Arrays of different kinds share no object.
  have apart {xs ys : List CddsObject} {k : ObjectKind} (hxs : ∀ x ∈ xs, x.kind ≠ k) (hys : ∀ y ∈ ys, y.kind = k) :
      ∀ x ∈ xs, ∀ y ∈ ys, x ≠ y := by
    rintro x hx y hy rfl
    exact hxs x hx (hys x hy)
  rw [WaitArgs.objects, List.nodup_append, List.nodup_append, List.nodup_append]
  refine ⟨⟨⟨nsubs,ngcs,apart ?_ fun y hy => (hgcs y hy).2⟩,nsrvs,apart ?_ fun y hy => (hsrvs y hy).2⟩,ncls,
    apart ?_ fun y hy => (hcls y hy).2⟩
  all_goals grind

private theorem conds_nodup (hv : args.Valid live) (hd : Distinct live) : args.conds.Nodup := by
  apply List.Nodup.map_on _ hv.objects_nodup
  intro x hx y hy heq
  obtain ⟨hxl,hxk⟩ := hv.objects hx
  obtain ⟨hyl,hyk⟩ := hv.objects hy
  exact hd.handles x hxl y hyl x.condh (condh_mem hxk) (heq ▸ condh_mem hyk)

private theorem watched_not_conds (hv : args.Valid live) (hd : Distinct live) {h : DdsEntity} (hw : h ∈ args.watched) :
    h ∉ args.conds := by
  intro hc
  obtain ⟨x,hx,rfl⟩ := List.mem_map.mp hc
  obtain ⟨hxl,hxk⟩ := hv.objects hx
  simp only [WaitArgs.watched, eventEntities, List.mem_dedup, List.mem_map, List.mem_filter] at hw
  obtain ⟨e,⟨he,_⟩,heq⟩ := hw
  obtain ⟨hel,hek⟩ := hv.2.2.2.2 e he
  have hsame := hd.handles x hxl e.data hel x.condh (condh_mem hxk) (heq ▸ enth_mem hek)
  subst hsame
  have hown := (hd.own e.data hel).1
  rcases hek with hek | hek
  · exact hxk hek
  · simp [CddsObject.handles, hek, heq] at hown

end WaitArgs.Valid

/-! ### The cache between calls -/

/-- What a wait set has cached and attached, when it is not in use: its objects are alive, their conditions are attached
with their places in the arrays, and behind them what is left of the entities of its events. -/
structure CachedWith (live : List CddsObject) (ws : CddsWaitset) (behind : Attachments) : Prop where
  valid : ws.cached.Valid live
  attached_eq : ws.attached = numbered 0 ws.cached.conds ++ behind
  entities : (behind.map Prod.fst).Nodup
  events : ∀ h ∈ behind.map Prod.fst, ∃ e ∈ ws.evs, e.enth = h ∧ isEventSupported e.eventType = true
  values : (behind.map Prod.snd).Nodup
  above : ∀ k ∈ behind.map Prod.snd, (ws.cached.conds.length : Int) ≤ k
  room : ws.attached.length ≤ ws.nelems

def Cached (live : List CddsObject) (ws : CddsWaitset) : Prop := ∃ behind, CachedWith live ws behind

private theorem cachedWith_empty (live : List CddsObject) {ws : CddsWaitset} (subs : ws.subs = []) (gcs : ws.gcs = [])
    (srvs : ws.srvs = []) (cls : ws.cls = []) (attached : ws.attached = []) : CachedWith live ws [] := by
  have hcached : ws.cached = ⟨[],[],[],[],[]⟩ := by rw [CddsWaitset.cached, subs, gcs, srvs, cls]
  exact {
    valid := by
      rw [hcached]
      exact ⟨⟨.nil,nofun⟩,⟨.nil,nofun⟩,⟨.nil,nofun⟩,⟨.nil,nofun⟩,nofun⟩
    attached_eq := by
      rw [attached, hcached]
      rfl
    entities := .nil
    events := nofun
    values := .nil
    above := nofun
    room := by
      rw [attached]
      exact Nat.zero_le _ }

theorem Cached.detached {live : List CddsObject} {ws : CddsWaitset} (h : Cached live ws) : (waitsetDetach ws).attached = [] := by
  obtain ⟨behind,hc⟩ := h
  rw [waitsetDetach_attached, List.filter_eq_nil_iff]
  intro p hp
  rw [hc.attached_eq, List.mem_append] at hp
  simp only [decide_not, Bool.not_eq_eq_eq_not, Bool.not_true, decide_eq_false_iff_not, not_not, List.mem_append]
  rcases hp with hp | hp
  · left
    rw [← numbered_fst 0 ws.cached.conds]
    exact List.mem_map_of_mem hp
  · right
    obtain ⟨e,he,heq,_⟩ := hc.events p.1 (List.mem_map_of_mem hp)
    exact List.mem_map.mpr ⟨e,he,heq⟩

/-- A wait set that a call leaves behind, with the masks: everything is as the call needs it. -/
structure Refreshed (live : List CddsObject) (args : WaitArgs) (mask : StatusMasks) (ws' : CddsWaitset) (mask' : StatusMasks) :
    Prop where
  mask_eq : mask' = args.freshMask mask
  attachments : ∃ behind, AttachedFor args ws'.attached behind
  room : ws'.attached.length ≤ ws'.nelems
  cached : Cached live ws'

private theorem reattach_refreshed {live : List CddsObject} (hd : Distinct live) {args : WaitArgs} (hv : args.Valid live)
    {ws ws' : CddsWaitset} (detached : (waitsetDetach ws).attached = []) {env : Surroundings} {mask mask' : StatusMasks}
    (h : reattach ws args env mask = (ws',mask',true)) : Refreshed live args mask ws' mask' := by
  have hconds : attachAll (args.cls.map CddsObject.condh) (attachAll (args.srvs.map CddsObject.condh)
      (attachAll (args.gcs.map CddsObject.condh) (attachAll (args.subs.map CddsObject.condh) ([],0)))) =
      (numbered 0 args.conds,args.conds.length) := by
    rw [← attachAll_append, ← attachAll_append, ← attachAll_append]
    have := attachAll_eq (hv.conds_nodup hd) (l := []) 0 (fun _ _ => List.not_mem_nil)
    simpa [WaitArgs.conds, WaitArgs.objects] using this
  simp only [reattach, detached, hconds] at h
  cases hg : gatherEventEntities args.evs env mask with
  | mk mask'' gathered =>
    cases gathered with
    | none => simp [hg] at h
    | some entities =>
      obtain ⟨hperm,hmask⟩ := gatherEventEntities_some hg
      have hset := (env.setOrder_perm entities).trans hperm
      have hbehind : attachAll (env.setOrder entities) (numbered 0 args.conds,args.conds.length) =
          (numbered 0 args.conds ++ numbered args.conds.length (env.setOrder entities),
            args.conds.length + (env.setOrder entities).length) := by
        apply attachAll_eq (hset.nodup_iff.mpr (List.nodup_dedup _))
        intro k hk
        rw [numbered_fst]
        exact hv.watched_not_conds hd (hset.mem_iff.mp hk)
      simp only [hg, hbehind, Prod.mk.injEq, and_true] at h
      obtain ⟨rfl,rfl⟩ := h
      have hlen : (numbered 0 args.conds ++ numbered args.conds.length (env.setOrder entities)).length ≤
          args.conds.length + (env.setOrder entities).length := by
        rw [List.length_append, numbered_length, numbered_length]
      refine ⟨hmask,⟨_,rfl,?_,numbered_snd_nodup _ _,fun k hk => (numbered_snd_le hk).1⟩,hlen,_,?_,rfl,?_,?_,
        numbered_snd_nodup _ _,fun k hk => (numbered_snd_le hk).1,hlen⟩
      · rw [numbered_fst]
        exact hset
      · exact ⟨hv.1,hv.2.1,hv.2.2.1,hv.2.2.2.1,nofun⟩
      · rw [numbered_fst]
        exact hset.nodup_iff.mpr (List.nodup_dedup _)
      · intro k hk
        rw [numbered_fst, hset.mem_iff] at hk
        simp only [eventEntities, List.mem_dedup, List.mem_map, List.mem_filter] at hk
        obtain ⟨e,⟨he,hs⟩,heq⟩ := hk
        exact ⟨_,List.mem_map_of_mem he,heq,hs⟩

private theorem map_addr_inj {live : List CddsObject} (hd : Distinct live) {xs ys : List CddsObject} (hxs : ∀ x ∈ xs, x ∈ live)
    (hys : ∀ y ∈ ys, y ∈ live) (h : xs.map CddsObject.addr = ys.map CddsObject.addr) : xs = ys := by
  induction xs generalizing ys with
  | nil =>
    cases ys with
    | nil => rfl
    | cons y ys => cases h
  | cons x xs ih =>
    cases ys with
    | nil => cases h
    | cons y ys =>
      simp only [List.map_cons, List.cons.injEq] at h
      rw [List.forall_mem_cons] at hxs hys
      rw [hd.addr x hxs.1 y hys.1 h.1, ih hxs.2 hys.2 h.2]

private theorem requireReattach_false {cached ary : List CddsObject} (h : requireReattach cached ary = false) :
    cached.map CddsObject.addr = ary.map CddsObject.addr := by
  unfold requireReattach at h
  split at h
  case isTrue hlen =>
    have hcached : cached.length = 0 := by simpa using h
    rw [List.length_eq_zero_iff] at hlen hcached
    rw [hlen, hcached]
  case isFalse =>
    split at h
    · cases h
    · simpa using h

private theorem eventsDiffer_false {cached : List CddsEvent} {events : List RmwEvent} (hlen : events.length = cached.length)
    (h : eventsDiffer cached events = false) : cached = events.map fun e => ⟨e.data.enth,e.eventType⟩ := by
  induction events generalizing cached with
  | nil => exact List.length_eq_zero_iff.mp hlen.symm
  | cons e events ih =>
    cases cached with
    | nil => cases hlen
    | cons c cached =>
      rw [eventsDiffer] at h
      split at h
      · cases h
      case isFalse heq =>
        rw [not_or, not_not, not_not] at heq
        rw [List.map_cons, ih (Nat.succ_inj.mp hlen) h, ← heq.1, ← heq.2]

private theorem requireReattachEvents_false {cached : List CddsEvent} {events : List RmwEvent}
    (h : requireReattachEvents cached events = false) : cached = events.map fun e => ⟨e.data.enth,e.eventType⟩ := by
  unfold requireReattachEvents at h
  split at h
  case isTrue hlen =>
    have hcached : cached.length = 0 := by simpa using h
    rw [List.length_eq_zero_iff] at hlen hcached
    rw [hlen, hcached]
    rfl
  case isFalse =>
    split at h
    · cases h
    case isFalse hlen => exact eventsDiffer_false (not_not.mp hlen) h

/-- When nothing differs, what is cached are the arrays of the call. -/
theorem cached_of_not_differs {live : List CddsObject} (hd : Distinct live) {ws : CddsWaitset}
    (hc : ∀ x ∈ ws.cached.objects, x ∈ live) {args : WaitArgs} (hv : ∀ x ∈ args.objects, x ∈ live) (h : differs ws args = false) :
    ws.subs = args.subs ∧ ws.gcs = args.gcs ∧ ws.srvs = args.srvs ∧ ws.cls = args.cls ∧
      ws.evs = args.evs.map fun e => ⟨e.data.enth,e.eventType⟩ := by
  simp only [differs, Bool.or_eq_false_iff] at h
  obtain ⟨⟨⟨⟨hsubs,hgcs⟩,hsrvs⟩,hcls⟩,hevs⟩ := h
  simp only [WaitArgs.objects, CddsWaitset.cached, List.forall_mem_append] at hc hv
  refine ⟨?_,?_,?_,?_,requireReattachEvents_false hevs⟩
  · exact map_addr_inj hd hc.1.1.1 hv.1.1.1 (requireReattach_false hsubs)
  · exact map_addr_inj hd hc.1.1.2 hv.1.1.2 (requireReattach_false hgcs)
  · exact map_addr_inj hd hc.1.2 hv.1.2 (requireReattach_false hsrvs)
  · exact map_addr_inj hd hc.2 hv.2 (requireReattach_false hcls)

/-- The attachments of the call before serve again when the events still have theirs, and the masks they need. -/
private theorem kept_refreshed {live : List CddsObject} (hd : Distinct live) {args : WaitArgs} (hv : args.Valid live)
    {ws : CddsWaitset} (hc : Cached live ws) {mask : StatusMasks} (hdiff : differs ws args = false)
    (current : ∀ h ∈ args.watched, h ∈ ws.attached.map Prod.fst ∧ mask h = args.wanted h) :
    Refreshed live args mask ws mask := by
  have hcached := hc
  obtain ⟨behind,hb⟩ := hc
  obtain ⟨hsubs,hgcs,hsrvs,hcls,hevs⟩ :=
    cached_of_not_differs hd (fun _ hx => (hb.valid.objects hx).1) (fun _ hx => (hv.objects hx).1) hdiff
  have hconds : ws.cached.conds = args.conds := by
    simp only [WaitArgs.conds, WaitArgs.objects, CddsWaitset.cached, hsubs, hgcs, hsrvs, hcls]
  have hattached := hconds ▸ hb.attached_eq
  refine ⟨?_,⟨behind,hattached,?_,hb.values,hconds ▸ hb.above⟩,hb.room,hcached⟩
  · funext h
    rw [WaitArgs.freshMask]
    split
    case isTrue hw => exact (current h hw).2
    case isFalse => rfl
  · apply (List.perm_ext_iff_of_nodup hb.entities (List.nodup_dedup _)).mpr
    intro h
    constructor
    · intro hmem
      obtain ⟨e,he,heq,hs⟩ := hb.events h hmem
      rw [hevs] at he
      obtain ⟨e',he',rfl⟩ := List.mem_map.mp he
      exact List.mem_dedup.mpr (List.mem_map.mpr ⟨e',List.mem_filter.mpr ⟨he',hs⟩,heq⟩)
    · intro hw
      have hmem := (current h hw).1
      rw [hattached, List.map_append, List.mem_append, numbered_fst] at hmem
      exact hmem.resolve_left (hv.watched_not_conds hd hw)

private theorem refresh_refreshed {live : List CddsObject} (hd : Distinct live) {args : WaitArgs} (hv : args.Valid live)
    {ws ws' : CddsWaitset} (hc : Cached live ws) {env : Surroundings} {mask mask' : StatusMasks}
    (current : differs ws args = false → ∀ h ∈ args.watched, h ∈ ws.attached.map Prod.fst ∧ mask h = args.wanted h)
    (h : refresh ws args env mask = (ws',mask',true)) : Refreshed live args mask ws' mask' := by
  unfold refresh at h
  split at h
  case isTrue => exact reattach_refreshed hd hv hc.detached h
  case isFalse hdiff =>
    rw [Bool.not_eq_true] at hdiff
    cases h
    exact kept_refreshed hd hv hc hdiff (current hdiff)

/-- The cache is sound again in any case. -/
private theorem refresh_cached {live : List CddsObject} (hd : Distinct live) {args : WaitArgs} (hv : args.Valid live)
    {ws ws' : CddsWaitset} (hc : Cached live ws) {env : Surroundings} {mask mask' : StatusMasks}
    (h : refresh ws args env mask = (ws',mask',true)) : Cached live ws' := by
  unfold refresh at h
  split at h
  case isTrue => exact (reattach_refreshed hd hv hc.detached h).cached
  case isFalse =>
    cases h
    exact hc

/-! ### Steps and runs -/

variable {W : Type}

structure CachesSound (s : CddsWaitsets W) : Prop where
  distinct : Distinct s.live
  cached : ∀ w, (s.waitsets w).inuse = false → Cached s.live (s.waitsets w)

/-- A call is refused by a wait set in use, fails with the wait set staying in use, or succeeds. -/
theorem rmwWait_cases [DecidableEq W] (s : CddsWaitsets W) (w : W) (args : WaitArgs) (env : Surroundings) :
    ((s.waitsets w).inuse = true ∧ rmwWait s w args env = (s,args.refused)) ∨
    ((s.waitsets w).inuse = false ∧ ∃ ws mask, refresh (s.waitsets w).takeInuse args env s.mask = (ws,mask,false) ∧
      rmwWait s w args env = ({ s with waitsets := Function.update s.waitsets w ws, mask },args.refused)) ∨
    ((s.waitsets w).inuse = false ∧ ∃ ws mask, refresh (s.waitsets w).takeInuse args env s.mask = (ws,mask,true) ∧
      rmwWait s w args env = ({ s with waitsets := Function.update s.waitsets w { ws with inuse := false }, mask },
        waitAndReport ws mask args env)) := by
  unfold rmwWait
  cases hin : (s.waitsets w).inuse with
  | true =>
    left
    simp [hin]
  | false =>
    right
    rcases hr : refresh (s.waitsets w).takeInuse args env s.mask with ⟨ws,mask,_ | _⟩
    · left
      refine ⟨rfl,ws,mask,rfl,?_⟩
      simp [hin, hr]
    · right
      refine ⟨rfl,ws,mask,rfl,?_⟩
      simp [hin, hr]

private theorem reattach_inuse (ws : CddsWaitset) (args : WaitArgs) (env : Surroundings) (mask : StatusMasks) :
    (reattach ws args env mask).1.inuse = ws.inuse := by
  unfold reattach
  split
  case h_1 heq => rfl
  case h_2 heq => rfl

theorem refresh_inuse (ws : CddsWaitset) (args : WaitArgs) (env : Surroundings) (mask : StatusMasks) :
    (refresh ws args env mask).1.inuse = ws.inuse := by
  unfold refresh
  split
  · exact reattach_inuse ws args env mask
  · rfl

/-- Nothing that is cached depends on whether the wait set is in use. -/
private theorem Cached.setInuse {live : List CddsObject} {ws : CddsWaitset} (h : Cached live ws) (b : Bool) :
    Cached live { ws with inuse := b } := by
  obtain ⟨behind,hb⟩ := h
  exact ⟨behind,hb.valid,hb.attached_eq,hb.entities,hb.events,hb.values,hb.above,hb.room⟩

private theorem WaitArgs.Valid.mono {args : WaitArgs} {live live' : List CddsObject} (h : args.Valid live) (hevs : args.evs = [])
    (keeps : ∀ x ∈ args.objects, x ∈ live') : args.Valid live' := by
  obtain ⟨⟨nsubs,hsubs⟩,⟨ngcs,hgcs⟩,⟨nsrvs,hsrvs⟩,⟨ncls,hcls⟩,_⟩ := h
  simp only [WaitArgs.objects, List.mem_append] at keeps
  refine ⟨⟨nsubs,fun x hx => ⟨keeps x ?_,(hsubs x hx).2⟩⟩,⟨ngcs,fun x hx => ⟨keeps x ?_,(hgcs x hx).2⟩⟩,
    ⟨nsrvs,fun x hx => ⟨keeps x ?_,(hsrvs x hx).2⟩⟩,⟨ncls,fun x hx => ⟨keeps x ?_,(hcls x hx).2⟩⟩,?_⟩
  · exact .inl (.inl (.inl hx))
  · exact .inl (.inl (.inr hx))
  · exact .inl (.inr hx)
  · exact .inr hx
  · rw [hevs]
    nofun

namespace CachesSound
variable {s : CddsWaitsets W}

private theorem create (h : CachesSound s) {x : CddsObject} (hx : Unused s x) (mask : Finset DdsStatusId) :
    CachesSound (RmwCyclonedds.create s x mask) := by
  refine ⟨h.distinct.concat ⟨hx.2.1,hx.2.2.1⟩ hx.2.2.2,fun w hfree => ?_⟩
  obtain ⟨behind,hb⟩ := h.cached w hfree
  refine ⟨behind,?_,hb.attached_eq,hb.entities,hb.events,hb.values,hb.above,hb.room⟩
  exact hb.valid.mono rfl fun y hy => List.mem_append_left [x] (hb.valid.objects hy).1

/-- A clean wait set has nothing to lose. -/
private theorem clean (h : CachesSound s) (x : CddsObject) : CachesSound (deleteObject (cleanWaitsetCaches s) x) := by
  refine ⟨h.distinct.erase x,fun w hfree => ⟨[],?_⟩⟩
  have hin : (s.waitsets w).inuse = false := by
    by_contra hne
    rw [Bool.not_eq_false] at hne
    simp [deleteObject, cleanWaitsetCaches, cleanWaitset, hne] at hfree
  have hws : (cleanWaitsetCaches s).waitsets w = waitsetDetach (s.waitsets w) := by
    simp [cleanWaitsetCaches, cleanWaitset, hin]
  apply cachedWith_empty <;> simp only [deleteObject, hws]
  · rfl
  · rfl
  · rfl
  · rfl
  · rw [(h.cached w hin).detached]
    rfl

private theorem deletePublisher (h : CachesSound s) {x : CddsObject} (hx : x ∈ s.live) (hk : x.kind = .publisher) :
    CachesSound (deleteObject s x) := by
  refine ⟨h.distinct.erase x,fun w hfree => ?_⟩
  obtain ⟨behind,hb⟩ := h.cached w hfree
  have hconds (p : DdsEntity × Int) (hp : p ∈ numbered 0 (s.waitsets w).cached.conds) : p.1 ∉ x.handles := by
    intro hmem
    have hp1 : p.1 ∈ (s.waitsets w).cached.conds := by
      rw [← numbered_fst 0 (s.waitsets w).cached.conds]
      exact List.mem_map_of_mem hp
    obtain ⟨y,hy,heq⟩ := List.mem_map.mp hp1
    obtain ⟨hyl,hyk⟩ := hb.valid.objects hy
    have hsame := h.distinct.handles y hyl x hx p.1 (heq ▸ condh_mem hyk) hmem
    exact hyk (hsame ▸ hk)
  have hsub : (behind.filter fun p => p.1 ∉ x.handles).Sublist behind := List.filter_sublist
  refine ⟨behind.filter fun p => p.1 ∉ x.handles,?_,?_,hb.entities.sublist (hsub.map _),fun k hk => hb.events k ?_,
    hb.values.sublist (hsub.map _),fun k hk => hb.above k ((hsub.map _).subset hk),?_⟩
  · apply hb.valid.mono rfl
    intro y hy
    obtain ⟨hyl,hyk⟩ := hb.valid.objects hy
    refine (List.mem_erase_of_ne ?_).mpr hyl
    rintro rfl
    exact hyk hk
  · show (s.waitsets w).attached.filter _ = _
    rw [hb.attached_eq, List.filter_append]
    congr 1
    apply List.filter_eq_self.mpr
    intro p hp
    exact decide_eq_true (hconds p hp)
  · exact (hsub.map _).subset hk
  · exact (List.length_filter_le _ _).trans hb.room

private theorem destroy (h : CachesSound s) {x : CddsObject} (hx : x ∈ s.live) : CachesSound (RmwCyclonedds.destroy s x) := by
  unfold RmwCyclonedds.destroy
  cases hk : x.kind with
  | publisher => exact h.deletePublisher hx hk
  | subscription => exact h.clean x
  | guardCondition => exact h.clean x
  | service => exact h.clean x
  | client => exact h.clean x

private theorem initial : CachesSound (CddsWaitsets.initial : CddsWaitsets W) where
  distinct := ⟨.nil,nofun,nofun,nofun⟩
  cached _ _ := ⟨[],cachedWith_empty [] rfl rfl rfl rfl rfl⟩

variable [DecidableEq W]

private theorem wait (h : CachesSound s) (w : W) {args : WaitArgs} (hv : args.Valid s.live) (env : Surroundings) :
    CachesSound (rmwWait s w args env).1 := by
  rcases rmwWait_cases s w args env with ⟨_,heq⟩ | ⟨hin,ws,mask,hr,heq⟩ | ⟨hin,ws,mask,hr,heq⟩
  · rw [heq]
    exact h
  · rw [heq]
    refine ⟨h.distinct,fun v hfree => ?_⟩
    by_cases hvw : v = w
    · subst hvw
      have hinuse := refresh_inuse (s.waitsets v).takeInuse args env s.mask
      rw [hr] at hinuse
      simp only [Function.update_self] at hfree
      exact Bool.noConfusion (hfree.symm.trans hinuse)
    · simp only [Function.update_of_ne hvw] at hfree ⊢
      exact h.cached v hfree
  · rw [heq]
    refine ⟨h.distinct,fun v hfree => ?_⟩
    by_cases hvw : v = w
    · subst hvw
      simp only [Function.update_self]
      exact (refresh_cached h.distinct hv ((h.cached v hin).setInuse true) hr).setInuse false
    · simp only [Function.update_of_ne hvw] at hfree ⊢
      exact h.cached v hfree

private theorem next (h : CachesSound s) {l : WaitSetCall W} {s' : CddsWaitsets W} (hl : l.next s = some s') : CachesSound s' := by
  cases l with
  | create x mask =>
    obtain ⟨hx,heq⟩ := Option.ite_none_right_eq_some.mp hl
    exact Option.some.inj heq ▸ h.create hx mask
  | destroy x =>
    obtain ⟨hx,heq⟩ := Option.ite_none_right_eq_some.mp hl
    exact Option.some.inj heq ▸ h.destroy hx
  | wait w args env =>
    obtain ⟨hv,heq⟩ := Option.ite_none_right_eq_some.mp hl
    exact Option.some.inj heq ▸ h.wait w hv env

end CachesSound

private theorem mem_wanted {args : WaitArgs} {e : RmwEvent} (he : e ∈ args.evs) {kind : DdsStatusId}
    (hkind : kind ∈ maskMap e.eventType) (hne : kind ≠ .inconsistentTopic) : kind ∈ args.wanted e.data.enth := by
  refine Finset.mem_erase.mpr ⟨hne,List.mem_toFinset.mpr (List.mem_filterMap.mpr ⟨e,?_,hkind⟩)⟩
  exact List.mem_filter.mpr ⟨he,decide_eq_true rfl⟩

private theorem mem_watched {args : WaitArgs} {e : RmwEvent} (he : e ∈ args.evs) {kind : DdsStatusId}
    (hkind : kind ∈ maskMap e.eventType) : e.data.enth ∈ args.watched := by
  refine List.mem_dedup.mpr (List.mem_map.mpr ⟨e,List.mem_filter.mpr ⟨he,?_⟩,rfl⟩)
  rw [isEventSupported, Option.mem_def.mp hkind]
  rfl

/-- With its masks set, an event wakes the call. -/
theorem WaitArgs.freshWait_woken {args : WaitArgs} (mask : StatusMasks) {env : Surroundings} {e : RmwEvent} (he : e ∈ args.evs)
    {kind : DdsStatusId} (hkind : kind ∈ maskMap e.eventType) {m : Moment} (hm : m ∈ env.moments)
    (occurs : m.Occurs e.data.enth kind) : (args.freshWait mask env).ret = .ok := by
  obtain ⟨raised,hraised,hmem⟩ := occurs
  have hne : kind ≠ .inconsistentTopic := by
    rintro rfl
    exact m.topics_apart _ _ hraised hmem
  have hwatched := mem_watched he hkind
  have htriggers : m.triggers (args.freshMask mask) e.data.enth = true := by
    have hchange : kind ∈ m.statusChanges (args.freshMask mask) e.data.enth := by
      simp only [Moment.statusChanges, hraised, Finset.mem_inter]
      refine ⟨hmem,?_⟩
      rw [WaitArgs.freshMask, if_pos hwatched]
      exact mem_wanted he hkind hne
    simp only [Moment.triggers, hraised]
    exact decide_eq_true (Finset.ne_empty_of_mem hchange)
  have hsome : (env.moments.find? fun m => (args.conds ++ args.watched).any (m.triggers (args.freshMask mask))).isSome = true := by
    rw [List.find?_isSome]
    exact ⟨m,hm,List.any_eq_true.mpr ⟨_,List.mem_append_right _ hwatched,htriggers⟩⟩
  exact if_pos hsome

private theorem wait_transparent [DecidableEq W] {s : CddsWaitsets W} (h : CachesSound s) {w : W} {args : WaitArgs}
    {env : Surroundings} (hv : args.Valid s.live) (current : MasksCurrent s (.wait w args env)) :
    Transparent s (.wait w args env) := by
  intro hret
  rcases rmwWait_cases s w args env with ⟨_,heq⟩ | ⟨_,ws,mask,_,heq⟩ | ⟨hin,ws,mask,hr,heq⟩
  · exact absurd (congrArg (·.2.ret) heq) hret
  · exact absurd (congrArg (·.2.ret) heq) hret
  · have hrefreshed := refresh_refreshed h.distinct hv ((h.cached w hin).setInuse true) (current hin) hr
    obtain ⟨behind,hb⟩ := hrefreshed.attachments
    have positive (e : RmwEvent) (he : e ∈ args.evs) : 0 < e.data.enth := by
      obtain ⟨hl,hk⟩ := hv.2.2.2.2 e he
      exact (h.distinct.own _ hl).2 _ (enth_mem hk)
    have hfresh : (rmwWait s w args env).2 = args.freshWait s.mask env := by
      rw [← waitAndReport_eq hb hrefreshed.room positive, ← hrefreshed.mask_eq]
      exact congrArg (·.2) heq
    refine ⟨hfresh,fun e he kind hkind ⟨m,hm,occurs⟩ => ?_⟩
    rw [hfresh]
    exact WaitArgs.freshWait_woken s.mask he hkind hm occurs

/-- The attachment cache is transparent in runs whose waits on cached arrays find the masks of their events unchanged. -/
theorem waitSetCalls_transparent [DecidableEq W] {labels : List (WaitSetCall W)} {s : CddsWaitsets W}
    (h : (waitSetCalls W).run labels = some s) (current : (waitSetCalls W).Along MasksCurrent labels) :
    (waitSetCalls W).Along Transparent labels := by
  suffices CachesSound s ∧ (waitSetCalls W).Along Transparent labels from this.2
  apply Machine.along_of_invariant .initial (C := MasksCurrent) _ h current
  intro s l s' hs current hnext
  refine ⟨hs.next hnext,?_⟩
  cases l with
  | create x mask => trivial
  | destroy x => trivial
  | wait w args env => exact wait_transparent hs (Option.ite_none_right_eq_some.mp hnext).1 current

/-! ### One publisher, two wait sets -/

def talker : CddsObject := ⟨.publisher,0,1000,1,0⟩

/-- A call that waits for one event of the publisher. -/
def talkerEvent (t : RmwEventType) : WaitArgs := ⟨[],[],[],[],[⟨talker,t⟩]⟩

/-- What a call sees while some statuses are raised on the publisher. -/
def raising (raised : Finset DdsStatusId) (apart : .inconsistentTopic ∉ raised) : Surroundings where
  setsMask _ _ := true
  mapOrder := id
  mapOrder_perm _ := .rfl
  setOrder := id
  setOrder_perm _ := .rfl
  moments := [⟨fun _ => .entity raised,fun _ _ h => TriggerState.entity.inj h ▸ apart⟩]
  reportOrder := id
  reportOrder_perm _ := .rfl
  later := ⟨fun _ => .entity raised,fun _ _ h => TriggerState.entity.inj h ▸ apart⟩

/-- The wait set `false` waits for lost liveliness, then `true` for missed deadlines. -/
def bothWaited : List (WaitSetCall Bool) :=
  [.create talker ∅,.wait false (talkerEvent .livelinessLost) (raising ∅ (by decide)),
    .wait true (talkerEvent .offeredDeadlineMissed) (raising ∅ (by decide))]

/-- Liveliness is lost while `false` waits again. -/
def waitsAgain : WaitSetCall Bool := .wait false (talkerEvent .livelinessLost) (raising {.livelinessLost} (by decide))

/-- The call runs into its timeout. -/
private theorem waitsAgain_timeout : ((waitSetCalls Bool).run bothWaited).map (fun s =>
    (rmwWait s false (talkerEvent .livelinessLost) (raising {.livelinessLost} (by decide))).2.ret) = some .timeout := by
  decide

theorem waitsAgain_starved : (∃ s, (waitSetCalls Bool).run (bothWaited ++ [waitsAgain]) = some s) ∧
    ¬ (waitSetCalls Bool).Along Transparent (bothWaited ++ [waitsAgain]) := by
  obtain ⟨s,hs⟩ : ∃ s, (waitSetCalls Bool).run bothWaited = some s := ⟨_,rfl⟩
  refine ⟨⟨_,rfl⟩,fun h => ?_⟩
  have htimeout := waitsAgain_timeout
  rw [hs, Option.map_some, Option.some.injEq] at htimeout
  have hlast := ((Machine.along_concat hs waitsAgain).mp h).2
  obtain ⟨_,hwoken⟩ := hlast (by rw [htimeout]; decide)
  have hok := hwoken ⟨talker,.livelinessLost⟩ (by decide) .livelinessLost rfl
    ⟨_,List.mem_singleton.mpr rfl,_,rfl,Finset.mem_singleton_self _⟩
  rw [htimeout] at hok
  cases hok

/-- Both wait sets wait for lost liveliness, and `false` finds it lost on its cached arrays. -/
def agreeing : List (WaitSetCall Bool) :=
  [.create talker ∅,.wait false (talkerEvent .livelinessLost) (raising ∅ (by decide)),
    .wait true (talkerEvent .livelinessLost) (raising ∅ (by decide)),waitsAgain]

theorem agreeing_transparent : (waitSetCalls Bool).Along Transparent agreeing := by
  refine waitSetCalls_transparent (s := ((waitSetCalls Bool).run agreeing).get rfl) (Option.some_get _).symm ?_
  unfold Machine.Along
  decide

end RmwCyclonedds
