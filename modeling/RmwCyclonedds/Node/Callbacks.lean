import RmwCyclonedds.Library.Runs
import RmwCyclonedds.Node.Events
import Mathlib.Logic.Function.Basic

/-! Callbacks of the user on new data and on events, and the events that come before them. -/
namespace RmwCyclonedds
open Library

/-- A call of a user's callback. -/
structure Call (Callback Data : Type) where
  callback : Callback
  userData : Option Data
  count : Nat

/-- The counts are of events of one process and do not wrap. -/
structure UserCallbackData (Callback Data : Type) where
  callback : Option Callback
  userData : Option Data
  unreadCount : Nat
  eventCallback : DdsStatusId → Option Callback
  eventData : DdsStatusId → Option Data
  eventUnreadCount : DdsStatusId → Nat

/-- The two kinds of counters in the data of an entity. -/
inductive Channel where
  | newData
  | status (id : DdsStatusId)
  deriving DecidableEq

namespace UserCallbackData
variable {Callback Data : Type}

def initial : UserCallbackData Callback Data := ⟨none,none,0,fun _ => none,fun _ => none,fun _ => 0⟩

/-- What a function does to the data, and the calls it makes meanwhile. -/
abbrev Effect (Callback Data : Type) := UserCallbackData Callback Data × List (Call Callback Data)

def ddsListenerCallback (data : UserCallbackData Callback Data) : Effect Callback Data :=
  match data.callback with
  | some callback => (data,[⟨callback,data.userData,1⟩])
  | none => ({data with unreadCount := data.unreadCount + 1},[])

/-- The function that the macro for event listeners makes. -/
def onEventFn (id : DdsStatusId) (data : UserCallbackData Callback Data) : Effect Callback Data :=
  match data.eventCallback id with
  | some cb => (data,[⟨cb,data.eventData id,1⟩])
  | none =>
    ({data with eventUnreadCount := Function.update data.eventUnreadCount id (data.eventUnreadCount id + 1)},[])

/-- The depth is that of the reader's history, if its QoS can be read. -/
def rmwSubscriptionSetOnNewMessageCallback (data : UserCallbackData Callback Data) (callback : Option Callback)
    (userData : Option Data) (depth : Option Nat) : RmwRet × Effect Callback Data :=
  let data := {data with callback := callback, userData := userData}
  match callback with
  | none => (.ok,data,[])
  | some cb =>
    if data.unreadCount = 0 then (.ok,data,[])
    else match depth with
      | none => (.error,data,[])
      | some depth =>
        let events := if depth > 0 then min data.unreadCount depth else data.unreadCount
        (.ok,{data with unreadCount := 0},[⟨cb,userData,events⟩])

/-- The common body of the setters for services and clients. -/
def setOnNewCallback (data : UserCallbackData Callback Data) (callback : Option Callback) (userData : Option Data) :
    RmwRet × Effect Callback Data :=
  let data := {data with callback := callback, userData := userData}
  match callback with
  | none => (.ok,data,[])
  | some cb =>
    if data.unreadCount = 0 then (.ok,data,[])
    else (.ok,{data with unreadCount := 0},[⟨cb,userData,data.unreadCount⟩])

def rmwServiceSetOnNewRequestCallback (data : UserCallbackData Callback Data) (callback : Option Callback)
    (userData : Option Data) : RmwRet × Effect Callback Data := setOnNewCallback data callback userData

def rmwClientSetOnNewResponseCallback (data : UserCallbackData Callback Data) (callback : Option Callback)
    (userData : Option Data) : RmwRet × Effect Callback Data := setOnNewCallback data callback userData

def eventSetCallback (data : UserCallbackData Callback Data) (statusId : DdsStatusId) (callback : Option Callback)
    (userData : Option Data) : Effect Callback Data :=
  let data := {data with
    eventCallback := Function.update data.eventCallback statusId callback
    eventData := Function.update data.eventData statusId userData}
  match callback with
  | none => (data,[])
  | some cb =>
    if data.eventUnreadCount statusId = 0 then (data,[])
    else ({data with eventUnreadCount := Function.update data.eventUnreadCount statusId 0},
      [⟨cb,userData,data.eventUnreadCount statusId⟩])

def rmwEventSetCallback (data : UserCallbackData Callback Data) (eventType : RmwEventType) (callback : Option Callback)
    (userData : Option Data) : RmwRet × Effect Callback Data :=
  match eventType with
  | .livelinessChanged => (.ok,eventSetCallback data .livelinessChanged callback userData)
  | .requestedDeadlineMissed => (.ok,eventSetCallback data .requestedDeadlineMissed callback userData)
  | .requestedQosIncompatible => (.ok,eventSetCallback data .requestedIncompatibleQos callback userData)
  | .messageLost => (.ok,eventSetCallback data .sampleLost callback userData)
  | .subscriptionMatched => (.ok,eventSetCallback data .subscriptionMatched callback userData)
  | .livelinessLost => (.ok,eventSetCallback data .livelinessLost callback userData)
  | .offeredDeadlineMissed => (.ok,eventSetCallback data .offeredDeadlineMissed callback userData)
  | .offeredQosIncompatible => (.ok,eventSetCallback data .offeredIncompatibleQos callback userData)
  | .publisherIncompatibleType => (.ok,eventSetCallback data .inconsistentTopic callback userData)
  | .subscriptionIncompatibleType => (.ok,eventSetCallback data .inconsistentTopic callback userData)
  | .publicationMatched => (.ok,eventSetCallback data .publicationMatched callback userData)
  | .invalid | .typeMax => (.invalidArgument,data,[])

theorem rmwEventSetCallback_eq (data : UserCallbackData Callback Data) (eventType : RmwEventType)
    (callback : Option Callback) (userData : Option Data) :
    rmwEventSetCallback data eventType callback userData = match maskMap eventType with
      | some id => (.ok,eventSetCallback data id callback userData)
      | none => (.invalidArgument,data,[]) := by
  cases eventType <;> rfl

def unread (data : UserCallbackData Callback Data) : Channel → Nat
  | .newData => data.unreadCount
  | .status id => data.eventUnreadCount id

end UserCallbackData

inductive EntityKind where
  | publisher
  | subscription
  | client
  | service
  deriving DecidableEq

/-- What happens to the data of an entity: an invocation of a listener, or a setter. -/
inductive Operation (Callback Data : Type) where
  | dataAvailable
  | event (id : DdsStatusId)
  | setOnNewMessage (callback : Option Callback) (userData : Option Data) (depth : Option Nat)
  | setOnNewRequest (callback : Option Callback) (userData : Option Data)
  | setOnNewResponse (callback : Option Callback) (userData : Option Data)
  | setEvent (eventType : RmwEventType) (callback : Option Callback) (userData : Option Data)

namespace Operation
open UserCallbackData
variable {Callback Data : Type}

/-- The listeners that an entity is created with, and the setters that take it. -/
def allowed : Operation Callback Data → EntityKind → Bool
  | dataAvailable, kind => kind != .publisher
  | event _, kind => kind == .publisher || kind == .subscription
  | setOnNewMessage _ _ _, kind => kind == .subscription
  | setOnNewRequest _ _, kind => kind == .service
  | setOnNewResponse _ _, kind => kind == .client
  | setEvent _ _ _, kind => kind == .publisher || kind == .subscription

def apply : Operation Callback Data → UserCallbackData Callback Data → Effect Callback Data
  | dataAvailable, data => ddsListenerCallback data
  | event id, data => onEventFn id data
  | setOnNewMessage callback userData depth, data =>
    (rmwSubscriptionSetOnNewMessageCallback data callback userData depth).2
  | setOnNewRequest callback userData, data => (rmwServiceSetOnNewRequestCallback data callback userData).2
  | setOnNewResponse callback userData, data => (rmwClientSetOnNewResponseCallback data callback userData).2
  | setEvent eventType callback userData, data => (rmwEventSetCallback data eventType callback userData).2

/-- The channel that an operation is about. -/
def channel : Operation Callback Data → Option Channel
  | dataAvailable | setOnNewMessage _ _ _ | setOnNewRequest _ _ | setOnNewResponse _ _ => some .newData
  | event id => some (.status id)
  | setEvent eventType _ _ => (maskMap eventType).map .status

/-- Whether the operation is an invocation of the listener of a channel. -/
def notifies : Operation Callback Data → Channel → Bool
  | dataAvailable, .newData => true
  | event id, .status id' => id = id'
  | _, _ => false

/-- The sum of the counts that the operation passes to callbacks of a channel. -/
def passed (op : Operation Callback Data) (data : UserCallbackData Callback Data) (ch : Channel) : Nat :=
  if op.channel = some ch then ((op.apply data).2.map Call.count).sum else 0

/-- What a successful setter for new messages leaves out because of the history depth. -/
def clipped : Operation Callback Data → UserCallbackData Callback Data → Nat
  | setOnNewMessage (some _) _ (some depth), data =>
    if depth > 0 then data.unreadCount - min data.unreadCount depth else 0
  | _, _ => 0

end Operation

/-! ### One step -/

/-- An effect on one channel: what it passes on, keeps and leaves out is what was there and what came. -/
private structure Balanced {Callback Data : Type} (data : UserCallbackData Callback Data)
    (effect : UserCallbackData.Effect Callback Data) (ch : Channel) (came leftOut : Nat) : Prop where
  sum : effect.1.unread ch + (effect.2.map Call.count).sum + leftOut = data.unread ch + came
  frame : ∀ ch' ≠ ch, effect.1.unread ch' = data.unread ch'

namespace UserCallbackData
variable {Callback Data : Type} (data : UserCallbackData Callback Data)

private theorem unread_newData {data data' : UserCallbackData Callback Data}
    (h : data'.eventUnreadCount = data.eventUnreadCount) : ∀ ch ≠ Channel.newData, data'.unread ch = data.unread ch := by
  intro ch hch
  cases ch with
  | newData => exact absurd rfl hch
  | status id => exact congrFun h id

private theorem unread_status {data data' : UserCallbackData Callback Data} {id : DdsStatusId} {n : Nat}
    (h : data'.unreadCount = data.unreadCount)
    (he : data'.eventUnreadCount = Function.update data.eventUnreadCount id n) :
    ∀ ch ≠ Channel.status id, data'.unread ch = data.unread ch := by
  intro ch hch
  cases ch with
  | newData => exact h
  | status id' =>
    rw [unread, he]
    exact Function.update_of_ne (fun hid => hch (congrArg Channel.status hid)) n data.eventUnreadCount

private theorem listener_balanced : Balanced data data.ddsListenerCallback .newData 1 0 := by
  unfold ddsListenerCallback
  cases h : data.callback with
  | none => exact ⟨rfl,unread_newData rfl⟩
  | some cb => exact ⟨rfl,fun _ _ => rfl⟩

private theorem onEventFn_balanced (id : DdsStatusId) : Balanced data (data.onEventFn id) (.status id) 1 0 := by
  unfold onEventFn
  cases h : data.eventCallback id with
  | none =>
    refine ⟨?_,unread_status rfl rfl⟩
    simp only [unread, Function.update_self, List.map_nil, List.sum_nil, Nat.add_zero]
  | some cb => exact ⟨rfl,fun _ _ => rfl⟩

private theorem setOnNewMessage_balanced (callback : Option Callback) (userData : Option Data) (depth : Option Nat) :
    Balanced data (data.rmwSubscriptionSetOnNewMessageCallback callback userData depth).2 .newData 0
      ((Operation.setOnNewMessage callback userData depth).clipped data) := by
  unfold rmwSubscriptionSetOnNewMessageCallback
  cases callback with
  | none => exact ⟨rfl,unread_newData rfl⟩
  | some cb =>
    by_cases h : data.unreadCount = 0
    · simp only
      rw [if_pos h]
      refine ⟨?_,unread_newData rfl⟩
      cases depth with
      | none => rfl
      | some d =>
        simp only [Operation.clipped, unread, h, Nat.zero_min, List.map_nil, List.sum_nil, ite_self, Nat.sub_self, Nat.add_zero]
    · simp only
      rw [if_neg h]
      cases depth with
      | none => exact ⟨rfl,unread_newData rfl⟩
      | some d =>
        refine ⟨?_,unread_newData rfl⟩
        simp only [Operation.clipped, unread, List.map_cons, List.map_nil, List.sum_singleton]
        split <;> omega

private theorem setOnNew_balanced (callback : Option Callback) (userData : Option Data) :
    Balanced data (data.setOnNewCallback callback userData).2 .newData 0 0 := by
  unfold setOnNewCallback
  cases callback with
  | none => exact ⟨rfl,unread_newData rfl⟩
  | some cb =>
    by_cases h : data.unreadCount = 0
    · simp only
      rw [if_pos h]
      exact ⟨rfl,unread_newData rfl⟩
    · simp only
      rw [if_neg h]
      refine ⟨?_,unread_newData rfl⟩
      simp only [unread, List.map_cons, List.map_nil, List.sum_singleton]
      omega

private theorem eventSet_balanced (id : DdsStatusId) (callback : Option Callback) (userData : Option Data) :
    Balanced data (data.eventSetCallback id callback userData) (.status id) 0 0 := by
  have hsame : ∀ {data' : UserCallbackData Callback Data}, data'.unreadCount = data.unreadCount →
      data'.eventUnreadCount = data.eventUnreadCount → ∀ ch, data'.unread ch = data.unread ch := by
    intro data' hu he ch
    cases ch with
    | newData => exact hu
    | status id' => exact congrFun he id'
  unfold eventSetCallback
  cases callback with
  | none => exact ⟨rfl,fun ch _ => hsame rfl rfl ch⟩
  | some cb =>
    by_cases h : data.eventUnreadCount id = 0
    · simp only
      rw [if_pos h]
      exact ⟨rfl,fun ch _ => hsame rfl rfl ch⟩
    · simp only
      rw [if_neg h]
      refine ⟨?_,unread_status rfl rfl⟩
      simp only [unread, Function.update_self, List.map_cons, List.map_nil, List.sum_singleton]
      omega

end UserCallbackData

namespace Operation
open UserCallbackData
variable {Callback Data : Type}

private theorem balanced_total (op : Operation Callback Data) {data : UserCallbackData Callback Data} {c : Channel}
    {came leftOut : Nat} (h : Balanced data (op.apply data) c came leftOut) (hc : op.channel = some c) (ch : Channel) :
    (op.apply data).1.unread ch + op.passed data ch + (if ch = c then leftOut else 0) =
      data.unread ch + if ch = c then came else 0 := by
  by_cases he : ch = c
  · subst he
    rw [passed, if_pos hc, if_pos rfl, if_pos rfl]
    exact h.sum
  · have hne : op.channel ≠ some ch := fun hs => he (Option.some.inj (hs.symm.trans hc))
    rw [passed, if_neg hne, if_neg he, if_neg he, h.frame ch he]

private theorem notifies_event (id id' : DdsStatusId) :
    ((event id : Operation Callback Data).notifies (.status id')).toNat = if Channel.status id' = .status id then 1 else 0 := by
  by_cases h : id = id'
  · subst h
    simp only [notifies, decide_true, Bool.toNat_true, if_true]
  · have hne : Channel.status id' ≠ .status id := fun hs => h (Channel.status.inj hs).symm
    simp only [notifies, h, hne, decide_false, Bool.toNat_false, if_false]

/-- What an operation passes on, keeps and leaves out is what was there and what came. -/
theorem balance (op : Operation Callback Data) (data : UserCallbackData Callback Data) (ch : Channel) :
    (op.apply data).1.unread ch + op.passed data ch + (if ch = .newData then op.clipped data else 0) =
      data.unread ch + (op.notifies ch).toNat := by
  cases op with
  | dataAvailable =>
    have h := balanced_total .dataAvailable data.listener_balanced rfl ch
    cases ch <;> exact h
  | event id =>
    have h := balanced_total (.event id) (data.onEventFn_balanced id) rfl ch
    cases ch with
    | newData => exact h
    | status id' =>
      rw [notifies_event, ← h, ite_self]
      rfl
  | setOnNewMessage callback userData depth =>
    have h := balanced_total (.setOnNewMessage callback userData depth)
      (data.setOnNewMessage_balanced callback userData depth) rfl ch
    cases ch <;> exact h
  | setOnNewRequest callback userData =>
    have h := balanced_total (.setOnNewRequest callback userData) (data.setOnNew_balanced callback userData) rfl ch
    cases ch <;> exact h
  | setOnNewResponse callback userData =>
    have h := balanced_total (.setOnNewResponse callback userData) (data.setOnNew_balanced callback userData) rfl ch
    cases ch <;> exact h
  | setEvent eventType callback userData =>
    have happly : (setEvent eventType callback userData).apply data =
        (rmwEventSetCallback data eventType callback userData).2 := rfl
    have hclip : (if ch = .newData then (setEvent eventType callback userData).clipped data else 0) = 0 := ite_self 0
    have hno : ∀ c, ((setEvent eventType callback userData).notifies c).toNat = 0 := by
      intro c
      cases c <;> rfl
    rw [hclip, hno]
    cases hm : maskMap eventType with
    | none =>
      have hch : (setEvent eventType callback userData).channel ≠ some ch := by
        rw [channel, hm]
        exact nofun
      rw [passed, if_neg hch, happly, rmwEventSetCallback_eq, hm]
    | some id =>
      have hb : Balanced data ((setEvent eventType callback userData).apply data) (.status id) 0 0 := by
        rw [happly, rmwEventSetCallback_eq, hm]
        exact data.eventSet_balanced id callback userData
      have hc : (setEvent eventType callback userData).channel = some (.status id) := by
        rw [channel, hm]
        rfl
      have h := balanced_total (.setEvent eventType callback userData) hb hc ch
      rwa [ite_self] at h

end Operation

/-! ### Runs -/

section
variable {Entity Callback Data : Type} [DecidableEq Entity] (kind : Entity → EntityKind)

/-- The data of all entities, each behind its own mutex. -/
def callbackMachine : Machine (Entity → UserCallbackData Callback Data) (Entity × Operation Callback Data) where
  start := fun _ => .initial
  next s l := if l.2.allowed (kind l.1) then some (Function.update s l.1 (l.2.apply (s l.1)).1) else none

/-- A contribution of the operations on one entity. -/
def ofEntity (e : Entity) (f : Operation Callback Data → UserCallbackData Callback Data → Nat)
    (s : Entity → UserCallbackData Callback Data) (l : Entity × Operation Callback Data) : Nat :=
  if l.1 = e then f l.2 (s e) else 0

variable {kind}

private theorem next_some {s s' : Entity → UserCallbackData Callback Data} {l : Entity × Operation Callback Data}
    (h : (callbackMachine kind).next s l = some s') :
    l.2.allowed (kind l.1) = true ∧ s' = Function.update s l.1 (l.2.apply (s l.1)).1 := by
  simp only [callbackMachine] at h
  split at h
  · next ha => exact ⟨ha,(Option.some.inj h).symm⟩
  · cases h

private theorem run_balance {labels : List (Entity × Operation Callback Data)} {s : Entity → UserCallbackData Callback Data}
    (h : (callbackMachine kind).run labels = some s) (e : Entity) (ch : Channel) :
    (callbackMachine kind).tally (ofEntity e fun op data => op.passed data ch) labels + (s e).unread ch +
      (if ch = .newData then (callbackMachine kind).tally (ofEntity e Operation.clipped) labels else 0) =
      (callbackMachine kind).tally (ofEntity e fun op _ => (op.notifies ch).toNat) labels := by
  induction h using Machine.run_induction with
  | start =>
    cases ch <;> rfl
  | @step labels s l s' hrun hnext ih =>
    obtain ⟨-,rfl⟩ := next_some hnext
    rw [Machine.tally_concat _ hrun, Machine.tally_concat _ hrun, Machine.tally_concat _ hrun]
    by_cases he : l.1 = e
    · subst he
      have hb := l.2.balance (s l.1) ch
      simp only [ofEntity, if_true, Function.update_self]
      by_cases hch : ch = .newData
      · rw [if_pos hch] at hb ih ⊢
        omega
      · rw [if_neg hch] at hb ih ⊢
        omega
    · have hs : Function.update s l.1 (l.2.apply (s l.1)).1 e = s e := Function.update_of_ne (Ne.symm he) _ s
      simp only [ofEntity, he, if_false, hs, Nat.add_zero]
      exact ih

private theorem not_clipped {labels : List (Entity × Operation Callback Data)} {s : Entity → UserCallbackData Callback Data}
    (h : (callbackMachine kind).run labels = some s) {e : Entity} (hk : kind e ≠ .subscription) :
    (callbackMachine kind).tally (ofEntity e Operation.clipped) labels = 0 := by
  induction h using Machine.run_induction with
  | start => rfl
  | @step labels s l s' hrun hnext ih =>
    rw [Machine.tally_concat _ hrun, ih, ofEntity]
    split
    · next he =>
      have hallowed := (next_some hnext).1
      rw [he] at hallowed
      cases hop : l.2 with
      | setOnNewMessage callback userData depth =>
        rw [hop] at hallowed
        exact absurd (beq_iff_eq.mp hallowed) hk
      | _ => rfl
    · rfl

/-- On every channel the counts passed on, the unread ones and those that a subscription's history depth
leaves out are the invocations of the channel's listener. -/
theorem notifications_accounted {labels : List (Entity × Operation Callback Data)}
    {s : Entity → UserCallbackData Callback Data} (h : (callbackMachine kind).run labels = some s) (e : Entity) :
    (∀ ch, ch ≠ .newData ∨ kind e ≠ .subscription →
      (callbackMachine kind).tally (ofEntity e fun op data => op.passed data ch) labels + (s e).unread ch =
        (callbackMachine kind).tally (ofEntity e fun op _ => (op.notifies ch).toNat) labels) ∧
    (kind e = .subscription →
      (callbackMachine kind).tally (ofEntity e fun op data => op.passed data .newData) labels + (s e).unread .newData +
        (callbackMachine kind).tally (ofEntity e Operation.clipped) labels =
        (callbackMachine kind).tally (ofEntity e fun op _ => (op.notifies .newData).toNat) labels) := by
  constructor
  · intro ch hch
    have hb := run_balance h e ch
    have hclip : (if ch = .newData then (callbackMachine kind).tally (ofEntity e Operation.clipped) labels else 0) = 0 := by
      split
      · next hn => exact not_clipped h (hch.resolve_left (not_not.mpr hn))
      · rfl
    rwa [hclip, Nat.add_zero] at hb
  · intro _
    exact run_balance h e .newData

end

/-- Three messages before a callback is set on a subscription with history depth two. -/
def threeMessages : List (Unit × Operation Unit Unit) :=
  [((),.dataAvailable),((),.dataAvailable),((),.dataAvailable),((),.setOnNewMessage (some ()) (some ()) (some 2))]

theorem threeMessages_accounted :
    ∃ s, (callbackMachine fun _ => .subscription).run threeMessages = some s ∧
      (callbackMachine fun _ => .subscription).tally (ofEntity () fun op data => op.passed data .newData) threeMessages +
        (s ()).unread .newData +
        (callbackMachine fun _ => .subscription).tally (ofEntity () Operation.clipped) threeMessages = 3 := by
  obtain ⟨s,hs⟩ : ∃ s, (callbackMachine fun _ => .subscription).run threeMessages = some s := ⟨_,rfl⟩
  exact ⟨s,hs,((notifications_accounted hs ()).2 rfl).trans rfl⟩

/-! ### Registrations that are refused -/

namespace UserCallbackData
variable {Callback Data : Type} (data : UserCallbackData Callback Data)

/-- A sequence of data-available events. -/
def notified (data : UserCallbackData Callback Data) : Nat → Effect Callback Data
  | 0 => (data,[])
  | n + 1 =>
    let (data,calls) := ddsListenerCallback data
    let (data,later) := notified data n
    (data,calls ++ later)

/-- A registration that is reported as failed changes nothing, and later events go where they went before. -/
def RefusedWithoutEffect (callback : Option Callback) (userData : Option Data) (depth : Option Nat) : Prop :=
  let (ret,after,calls) := data.rmwSubscriptionSetOnNewMessageCallback callback userData depth
  ret = .error → after.callback = data.callback ∧ after.userData = data.userData ∧
    after.unreadCount = data.unreadCount ∧ calls = [] ∧ ∀ n, (after.notified n).2 = (data.notified n).2

/-- It fails with a callback and a backlog, if the QoS cannot be read. -/
private theorem setOnNewMessage_error_iff (callback : Option Callback) (userData : Option Data) (depth : Option Nat) :
    (data.rmwSubscriptionSetOnNewMessageCallback callback userData depth).1 = .error ↔
      callback ≠ none ∧ data.unreadCount ≠ 0 ∧ depth = none := by
  unfold rmwSubscriptionSetOnNewMessageCallback
  cases callback with
  | none => exact ⟨nofun,fun h => absurd rfl h.1⟩
  | some cb =>
    by_cases h0 : data.unreadCount = 0
    · simp only
      rw [if_pos h0]
      exact ⟨nofun,fun h => absurd h0 h.2.1⟩
    · simp only
      rw [if_neg h0]
      cases depth with
      | none => exact ⟨fun _ => ⟨nofun,h0,rfl⟩,fun _ => rfl⟩
      | some d => exact ⟨nofun,fun h => nomatch h.2.2⟩

/-- A failed call has stored its arguments and done nothing else. -/
private theorem setOnNewMessage_of_error {callback : Option Callback} {userData : Option Data} {depth : Option Nat}
    (h : (data.rmwSubscriptionSetOnNewMessageCallback callback userData depth).1 = .error) :
    data.rmwSubscriptionSetOnNewMessageCallback callback userData depth =
      (.error,{data with callback := callback, userData := userData},[]) := by
  obtain ⟨hcallback,hunread,rfl⟩ := (data.setOnNewMessage_error_iff callback userData depth).mp h
  obtain ⟨cb,rfl⟩ := Option.ne_none_iff_exists'.mp hcallback
  simp only [rmwSubscriptionSetOnNewMessageCallback, hunread, if_false]

/-- With a callback installed every event goes to it. -/
private theorem notified_of_some {data : UserCallbackData Callback Data} {cb : Callback} (h : data.callback = some cb) (n : Nat) :
    data.notified n = (data,List.replicate n ⟨cb,data.userData,1⟩) := by
  induction n with
  | zero => rfl
  | succ n ih =>
    have hone : data.ddsListenerCallback = (data,[⟨cb,data.userData,1⟩]) := by rw [ddsListenerCallback, h]
    simp only [notified, hone, ih]
    rfl

/-- The callback whose registration has failed gets all later events. -/
theorem notified_of_refused {callback : Option Callback} {userData : Option Data} {depth : Option Nat}
    (h : (data.rmwSubscriptionSetOnNewMessageCallback callback userData depth).1 = .error) : ∃ cb, callback = some cb ∧
      ∀ n, ((data.rmwSubscriptionSetOnNewMessageCallback callback userData depth).2.1.notified n).2 =
        List.replicate n ⟨cb,userData,1⟩ := by
  obtain ⟨hcallback,_⟩ := (data.setOnNewMessage_error_iff callback userData depth).mp h
  obtain ⟨cb,rfl⟩ := Option.ne_none_iff_exists'.mp hcallback
  refine ⟨cb,rfl,fun n => ?_⟩
  rw [data.setOnNewMessage_of_error h, notified_of_some rfl]

/-- A refused registration is without effect if it does not differ from the one before. -/
theorem refusedWithoutEffect_iff (callback : Option Callback) (userData : Option Data) (depth : Option Nat) :
    data.RefusedWithoutEffect callback userData depth ↔
      callback = none ∨ data.unreadCount = 0 ∨ depth ≠ none ∨
        data.callback = callback ∧ data.userData = userData := by
  by_cases herror : (data.rmwSubscriptionSetOnNewMessageCallback callback userData depth).1 = .error
  · obtain ⟨hcallback,hunread,hdepth⟩ := (data.setOnNewMessage_error_iff callback userData depth).mp herror
    unfold RefusedWithoutEffect
    rw [data.setOnNewMessage_of_error herror]
    constructor
    · intro h
      obtain ⟨hsame,huser,_⟩ := h rfl
      exact .inr (.inr (.inr ⟨hsame.symm,huser.symm⟩))
    · rintro (hnone | hzero | hsome | ⟨rfl,rfl⟩)
      · exact absurd hnone hcallback
      · exact absurd hzero hunread
      · exact absurd hdepth hsome
      · exact fun _ => ⟨rfl,rfl,rfl,rfl,fun _ => rfl⟩
  · refine ⟨fun _ => ?_,fun _ h => absurd h herror⟩
    rw [setOnNewMessage_error_iff] at herror
    by_contra hne
    obtain ⟨hcallback,hunread,hdepth,_⟩ := not_or.mp hne |>.imp_right fun h => (not_or.mp h).imp_right not_or.mp
    exact herror ⟨hcallback,hunread,not_not.mp hdepth⟩

/-- One message has come before a callback is registered and the QoS cannot be read: later messages go to the callback
all the same. -/
theorem refused_callback_called : let data : UserCallbackData Unit Unit := (initial.notified 1).1
    ∃ after, data.rmwSubscriptionSetOnNewMessageCallback (some ()) (some ()) none = (.error,after,[]) ∧
      (after.notified 1).2 = [⟨(),some (),1⟩] ∧ ¬data.RefusedWithoutEffect (some ()) (some ()) none := by
  refine ⟨_,rfl,rfl,fun h => ?_⟩
  obtain ⟨hsame,_⟩ := h rfl
  cases hsame

end UserCallbackData
end RmwCyclonedds
