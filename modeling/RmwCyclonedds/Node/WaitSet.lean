import RmwCyclonedds.Library.Sweep
import RmwCyclonedds.Node.Events
import Mathlib.Data.List.Sort
import Mathlib.Logic.Function.Basic

/-! Wait sets: `rmw_wait` and the attachments that it keeps from one call to the next. -/
namespace RmwCyclonedds
open Library

/-- A handle of Cyclone (`dds_entity_t`). -/
abbrev DdsEntity := Int

inductive ObjectKind where
  | publisher
  | subscription
  | guardCondition
  | service
  | client
  deriving DecidableEq, Repr

/-- An object that a `void *` of the wait arrays points to. Addresses are used again after a deletion, serial numbers
are not. -/
structure CddsObject where
  kind : ObjectKind
  serial : Nat
  addr : Nat
  /-- The reader or writer of a subscription or publisher. -/
  enth : DdsEntity
  /-- `gcondh` of a guard condition, otherwise `rdcondh`. -/
  condh : DdsEntity
  deriving DecidableEq, Repr

/-- The handles that go with an object. -/
def CddsObject.handles (x : CddsObject) : List DdsEntity :=
  match x.kind with
  | .publisher => [x.enth]
  | .subscription => [x.enth,x.condh]
  | .guardCondition | .service | .client => [x.condh]

structure RmwEvent where
  data : CddsObject
  eventType : RmwEventType
  deriving DecidableEq

structure CddsEvent where
  enth : DdsEntity
  eventType : RmwEventType
  deriving DecidableEq

/-- The entities attached behind `waitseth`, with their `dds_attach_t`. The guard condition for empty wait sets is never
triggered and is left out. -/
abbrev Attachments := List (DdsEntity × Int)

structure CddsWaitset where
  inuse : Bool
  nelems : Nat
  subs : List CddsObject
  gcs : List CddsObject
  srvs : List CddsObject
  cls : List CddsObject
  evs : List CddsEvent
  attached : Attachments

/-- The arrays of a call. One that is not passed is empty. -/
structure WaitArgs where
  subs : List CddsObject
  gcs : List CddsObject
  srvs : List CddsObject
  cls : List CddsObject
  evs : List RmwEvent

/-- The objects of a call whose conditions are waited on. -/
def WaitArgs.objects (args : WaitArgs) : List CddsObject := args.subs ++ args.gcs ++ args.srvs ++ args.cls

/-- The arrays in the cache. -/
def CddsWaitset.cached (ws : CddsWaitset) : WaitArgs := ⟨ws.subs,ws.gcs,ws.srvs,ws.cls,[]⟩

abbrev StatusMasks := DdsEntity → Finset DdsStatusId

/-- What Cyclone knows of a handle: whether a condition is triggered, or what statuses are raised on a reader or writer. -/
inductive TriggerState where
  | condition (triggered : Bool)
  | entity (raised : Finset DdsStatusId)

/-- Inconsistent topic is a status of topics, which Cyclone does not report on readers and writers. -/
structure Moment where
  state : DdsEntity → TriggerState
  topics_apart : ∀ h raised, state h = .entity raised → .inconsistentTopic ∉ raised

namespace Moment

/-- `dds_get_status_changes`. -/
def statusChanges (m : Moment) (mask : StatusMasks) (h : DdsEntity) : Finset DdsStatusId :=
  match m.state h with
  | .condition _ => ∅
  | .entity raised => raised ∩ mask h

def triggers (m : Moment) (mask : StatusMasks) (h : DdsEntity) : Bool :=
  match m.state h with
  | .condition triggered => triggered
  | .entity _ => decide (m.statusChanges mask h ≠ ∅)

end Moment

/-- What is decided outside of a call: the answers of `dds_set_status_mask`, the orders in which unordered containers
are iterated and triggers are reported, the moments until the timeout, and the one after the wait. -/
structure Surroundings where
  setsMask : DdsEntity → Finset DdsStatusId → Bool
  mapOrder : List DdsEntity → List DdsEntity
  mapOrder_perm : ∀ l, (mapOrder l).Perm l
  setOrder : List DdsEntity → List DdsEntity
  setOrder_perm : ∀ l, (setOrder l).Perm l
  moments : List Moment
  reportOrder : List Int → List Int
  reportOrder_perm : ∀ l, (reportOrder l).Perm l
  later : Moment

/-! ### The cache -/

def requireReattach (cached ary : List CddsObject) : Bool :=
  if ary.length = 0 then cached.length ≠ 0
  else if ary.length ≠ cached.length then true
  else cached.map CddsObject.addr ≠ ary.map CddsObject.addr

def eventsDiffer : List CddsEvent → List RmwEvent → Bool
  | c :: cached, e :: events =>
    if c.enth ≠ e.data.enth ∨ c.eventType ≠ e.eventType then true else eventsDiffer cached events
  | _, _ => false

def requireReattachEvents (cached : List CddsEvent) (events : List RmwEvent) : Bool :=
  if events.length = 0 then cached.length ≠ 0
  else if events.length ≠ cached.length then true
  else eventsDiffer cached events

/-- `dds_waitset_detach`. -/
def detach (h : DdsEntity) (l : Attachments) : Attachments := l.filter (·.1 ≠ h)

/-- `dds_waitset_attach` refuses what is attached already. -/
def attach (h : DdsEntity) (x : Int) (l : Attachments) : Attachments :=
  if h ∈ l.map Prod.fst then l else l ++ [(h,x)]

def waitsetDetach (ws : CddsWaitset) : CddsWaitset :=
  let l := ws.subs.foldl (fun l x => detach x.condh l) ws.attached
  let l := ws.gcs.foldl (fun l x => detach x.condh l) l
  let l := ws.srvs.foldl (fun l x => detach x.condh l) l
  let l := ws.cls.foldl (fun l x => detach x.condh l) l
  let l := ws.evs.foldl (fun l x => detach x.enth l) l
  { ws with subs := [], gcs := [], srvs := [], cls := [], evs := [], nelems := 0, attached := l }

/-- What `clean_waitset_caches` does to one wait set. -/
def cleanWaitset (ws : CddsWaitset) : CddsWaitset := if ws.inuse then ws else waitsetDetach ws

/-! ### Status masks -/

/-- The map of `gather_event_entities` from entities to masks. -/
structure StatusMaskMap where
  keys : List DdsEntity
  mask : StatusMasks

def StatusMaskMap.add (m : StatusMaskMap) (h : DdsEntity) (kind : DdsStatusId) : StatusMaskMap :=
  let m := if h ∈ m.keys then m else ⟨m.keys ++ [h],Function.update m.mask h ∅⟩
  -- Cyclone does not report inconsistent topics as events.
  if kind ≠ .inconsistentTopic then { m with mask := Function.update m.mask h (m.mask h ∪ {kind}) } else m

def statusMaskMap : List RmwEvent → StatusMaskMap → Option StatusMaskMap
  | [], m => some m
  | e :: events, m =>
    if e.data.enth ≤ 0 then none
    else match maskMap e.eventType with
      | none => statusMaskMap events m
      | some kind => statusMaskMap events (m.add e.data.enth kind)

/-- Stops at the first mask that is refused. -/
def setStatusMasks (sets : DdsEntity → Finset DdsStatusId → Bool) (masks : StatusMasks) :
    List DdsEntity → StatusMasks → StatusMasks × Bool
  | [], mask => (mask,true)
  | h :: hs, mask =>
    if sets h (masks h) then setStatusMasks sets masks hs (Function.update mask h (masks h)) else (mask,false)

/-- The status masks afterwards and, unless it fails, the entities to attach. -/
def gatherEventEntities (events : List RmwEvent) (env : Surroundings) (mask : StatusMasks) :
    StatusMasks × Option (List DdsEntity) :=
  match statusMaskMap events ⟨[],fun _ => ∅⟩ with
  | none => (mask,none)
  | some m =>
    let entities := env.mapOrder m.keys
    let (mask,done) := setStatusMasks env.setsMask m.mask entities mask
    (mask,if done then some entities else none)

/-! ### The call -/

/-- A loop of `dds_waitset_attach`, with the running `nelems`. -/
def attachAll : List DdsEntity → Attachments × Nat → Attachments × Nat
  | [], r => r
  | h :: hs, (l,nelems) => attachAll hs (attach h nelems l,nelems + 1)

/-- The wait set, the status masks, and whether it succeeds. -/
def reattach (ws : CddsWaitset) (args : WaitArgs) (env : Surroundings) (mask : StatusMasks) :
    CddsWaitset × StatusMasks × Bool :=
  let ws := waitsetDetach ws
  let r := attachAll (args.subs.map CddsObject.condh) (ws.attached,0)
  let r := attachAll (args.gcs.map CddsObject.condh) r
  let r := attachAll (args.srvs.map CddsObject.condh) r
  let r := attachAll (args.cls.map CddsObject.condh) r
  let ws := { ws with subs := args.subs, gcs := args.gcs, srvs := args.srvs, cls := args.cls, attached := r.1 }
  match gatherEventEntities args.evs env mask with
  | (mask,none) => (ws,mask,false)
  | (mask,some entities) =>
    let (attached,nelems) := attachAll (env.setOrder entities) r
    ({ ws with evs := args.evs.map fun e => ⟨e.data.enth,e.eventType⟩, attached, nelems },mask,true)

def differs (ws : CddsWaitset) (args : WaitArgs) : Bool :=
  requireReattach ws.subs args.subs || requireReattach ws.gcs args.gcs || requireReattach ws.srvs args.srvs ||
    requireReattach ws.cls args.cls || requireReattachEvents ws.evs args.evs

/-- Compares the arrays with the cache, and attaches them anew when they differ. -/
def refresh (ws : CddsWaitset) (args : WaitArgs) (env : Surroundings) (mask : StatusMasks) :
    CddsWaitset × StatusMasks × Bool :=
  if differs ws args then reattach ws args env mask else (ws,mask,true)

/-- `dds_waitset_wait`: returns at the first moment at which something attached triggers, or at the timeout with nothing. -/
def ddsWaitsetWait (attached : Attachments) (mask : StatusMasks) (env : Surroundings) : List Int :=
  match env.moments.find? fun m => attached.any fun p => m.triggers mask p.1 with
  | none => []
  | some m => env.reportOrder ((attached.filter fun p => m.triggers mask p.1).map Prod.snd)

def handleActiveEvents (mask : StatusMasks) (later : Moment) : List RmwEvent → List (Option RmwEvent)
  | [] => []
  | e :: events =>
    if e.data.enth ≤ 0 then (e :: events).map some
    else
      let kept := match maskMap e.eventType with
        | none => false
        | some kind => decide (kind ∈ later.statusChanges mask e.data.enth)
      (if kept then some e else none) :: handleActiveEvents mask later events

/-- What a call leaves behind: entries that are set to null are `none`. -/
structure WaitOutcome where
  ret : RmwRet
  subs : List (Option CddsObject)
  gcs : List (Option CddsObject)
  srvs : List (Option CddsObject)
  cls : List (Option CddsObject)
  evs : List (Option RmwEvent)
  /-- The guard conditions that are taken. -/
  taken : List DdsEntity

/-- The outcome of a call that returns early. -/
def WaitArgs.refused (args : WaitArgs) : WaitOutcome where
  ret := .error
  subs := args.subs.map some
  gcs := args.gcs.map some
  srvs := args.srvs.map some
  cls := args.cls.map some
  evs := args.evs.map some
  taken := []

/-- From the wait to the end of the call. -/
def waitAndReport (ws : CddsWaitset) (mask : StatusMasks) (args : WaitArgs) (env : Surroundings) : WaitOutcome :=
  let reported := ddsWaitsetWait ws.attached mask env
  -- The buffer has room for `nelems + 1` triggers and is resized to the number of all.
  let trigs := reported.take (ws.nelems + 1) ++ List.replicate (reported.length - (ws.nelems + 1)) 0
  let trigs := trigs.insertionSort (· ≤ ·) ++ [-1]
  let (subs,t) := sweep 0 args.subs trigs
  let nelems := args.subs.length
  let (gcs,t) := sweep nelems args.gcs t
  let nelems := nelems + args.gcs.length
  let (srvs,t) := sweep nelems args.srvs t
  let nelems := nelems + args.srvs.length
  let (cls,_) := sweep nelems args.cls t
  { ret := if trigs.length = 1 then .timeout else .ok
    subs, gcs, srvs, cls
    evs := handleActiveEvents mask env.later args.evs
    taken := (gcs.filterMap id).map CddsObject.condh }

/-- The wait sets of the process, the objects alive, the number of objects created, and the status masks. -/
structure CddsWaitsets (W : Type) where
  born : Nat
  live : List CddsObject
  waitsets : W → CddsWaitset
  mask : StatusMasks

variable {W : Type} [DecidableEq W]

/-- A wait set that a call has taken. -/
def CddsWaitset.takeInuse (ws : CddsWaitset) : CddsWaitset := { ws with inuse := true }

def rmwWait (s : CddsWaitsets W) (w : W) (args : WaitArgs) (env : Surroundings) : CddsWaitsets W × WaitOutcome :=
  let ws := s.waitsets w
  if ws.inuse then (s,args.refused)
  else
    match refresh ws.takeInuse args env s.mask with
    -- The wait set stays in use.
    | (ws,mask,false) => ({ s with waitsets := Function.update s.waitsets w ws, mask },args.refused)
    | (ws,mask,true) =>
      ({ s with waitsets := Function.update s.waitsets w { ws with inuse := false }, mask },waitAndReport ws mask args env)

/-! ### Creating and destroying -/

def cleanWaitsetCaches (s : CddsWaitsets W) : CddsWaitsets W :=
  { s with waitsets := fun w => cleanWaitset (s.waitsets w) }

/-- `dds_delete` of the handles of an object, which also leave the wait sets they are attached to. -/
def deleteObject (s : CddsWaitsets W) (x : CddsObject) : CddsWaitsets W :=
  { s with
    live := s.live.erase x
    waitsets := fun w =>
      { s.waitsets w with attached := (s.waitsets w).attached.filter fun p => p.1 ∉ x.handles } }

def destroySubscription (s : CddsWaitsets W) (x : CddsObject) : CddsWaitsets W := deleteObject (cleanWaitsetCaches s) x

def destroyGuardCondition (s : CddsWaitsets W) (x : CddsObject) : CddsWaitsets W := deleteObject (cleanWaitsetCaches s) x

def rmwDestroyService (s : CddsWaitsets W) (x : CddsObject) : CddsWaitsets W := deleteObject (cleanWaitsetCaches s) x

def rmwDestroyClient (s : CddsWaitsets W) (x : CddsObject) : CddsWaitsets W := deleteObject (cleanWaitsetCaches s) x

/-- Leaves the caches alone. -/
def destroyPublisher (s : CddsWaitsets W) (x : CddsObject) : CddsWaitsets W := deleteObject s x

def destroy (s : CddsWaitsets W) (x : CddsObject) : CddsWaitsets W :=
  match x.kind with
  | .publisher => destroyPublisher s x
  | .subscription => destroySubscription s x
  | .guardCondition => destroyGuardCondition s x
  | .service => rmwDestroyService s x
  | .client => rmwDestroyClient s x

/-- A new object gets an unused address and unused positive handles, whose initial status masks Cyclone chooses. -/
def Unused (s : CddsWaitsets W) (x : CddsObject) : Prop :=
  x.serial = s.born ∧ x.handles.Nodup ∧ (∀ h ∈ x.handles, 0 < h) ∧
    ∀ y ∈ s.live, y.addr ≠ x.addr ∧ ∀ h ∈ x.handles, h ∉ y.handles

instance (s : CddsWaitsets W) (x : CddsObject) : Decidable (Unused s x) := inferInstanceAs (Decidable (_ ∧ _))

def create (s : CddsWaitsets W) (x : CddsObject) (mask : Finset DdsStatusId) : CddsWaitsets W :=
  { s with born := s.born + 1, live := s.live ++ [x], mask := fun h => if h ∈ x.handles then mask else s.mask h }

/-- The arrays hold objects that are alive, each of its kind and none twice; events are of publishers and subscriptions. -/
def WaitArgs.Valid (args : WaitArgs) (live : List CddsObject) : Prop :=
  (args.subs.Nodup ∧ ∀ x ∈ args.subs, x ∈ live ∧ x.kind = .subscription) ∧
  (args.gcs.Nodup ∧ ∀ x ∈ args.gcs, x ∈ live ∧ x.kind = .guardCondition) ∧
  (args.srvs.Nodup ∧ ∀ x ∈ args.srvs, x ∈ live ∧ x.kind = .service) ∧
  (args.cls.Nodup ∧ ∀ x ∈ args.cls, x ∈ live ∧ x.kind = .client) ∧
  ∀ e ∈ args.evs, e.data ∈ live ∧ (e.data.kind = .publisher ∨ e.data.kind = .subscription)

instance (args : WaitArgs) (live : List CddsObject) : Decidable (args.Valid live) := by
  unfold WaitArgs.Valid
  infer_instance

end RmwCyclonedds
