import RmwCyclonedds.Library.Runs
import RmwCyclonedds.Node.Discovery

/-! The thread that keeps the graph cache of a context up to date, from its start to its end in `clean_up`. -/
namespace RmwCyclonedds
open Library

/-- What the wait set of the thread waits for, in the order of `entries`. -/
inductive DiscoveryEntry where
  | guardCondition
  | entities
  | builtin (t : BuiltinTopic)
  deriving DecidableEq

def discoveryEntries : List DiscoveryEntry :=
  [.guardCondition,.entities,.builtin .participant,.builtin .subscription,.builtin .publication]

theorem mem_discoveryEntries (e : DiscoveryEntry) : e ∈ discoveryEntries := by
  cases e with
  | guardCondition | entities => decide
  | builtin t => cases t <;> decide

/-- What `clean_up` destroys. The readers of the built-in topics go with their participant. -/
inductive DiscoveryObject where
  | listenerThreadGc
  | graphGuardCondition
  | pub
  | sub
  | ppant
  deriving DecidableEq

def DiscoveryEntry.object : DiscoveryEntry → DiscoveryObject
  | guardCondition => .listenerThreadGc
  | entities => .sub
  | builtin _ => .ppant

/-- Where the thread stands. A reader that is handled stays at the head of the list until nothing is found. -/
inductive DiscoveryThread (Call : Type) where
  | notStarted
  | created
  | attaching (rest : List DiscoveryEntry)
  | testing
  | waiting
  | handling (xs : List DiscoveryEntry)
  | updating (c : Option Call) (xs : List DiscoveryEntry)
  | ended

namespace DiscoveryThread
variable {Call : Type}

/-- What the next step of the thread uses. A change of the graph cache triggers the graph guard condition. -/
def uses : DiscoveryThread Call → List DiscoveryObject
  | created => [.sub,.listenerThreadGc]
  | attaching (x :: _) => [x.object]
  | waiting => discoveryEntries.map DiscoveryEntry.object
  | handling (.guardCondition :: _) => []
  | handling (x :: _) => [x.object]
  | updating (some _) _ => [.graphGuardCondition]
  | _ => []

/-- The call that the thread has in hand. -/
def inHand : DiscoveryThread Call → List Call
  | updating c _ => c.toList
  | _ => []

/-- The entries that the thread is about to handle. -/
def toHandle : DiscoveryThread Call → List DiscoveryEntry
  | handling xs | updating _ xs => xs
  | _ => []

end DiscoveryThread

/-- The next step of `clean_up`. -/
inductive CleanUp where
  | notCalled
  | stopping
  | joining
  | joined
  | stopped
  | callbackCleared
  | graphGuardConditionGone
  | pubGone
  | subGone
  | done
  deriving DecidableEq

/-- A built-in reader: which instances are alive, and the samples that have not been taken. A sample without data tells of
its instance only. -/
structure BuiltinReader where
  alive : DdsGuid → Bool
  pending : InstanceQueue DdsGuid (Option Discovered)

/-- A context with its discovery thread. -/
structure DiscoveryState (TypeHash Message : Type) where
  readers : BuiltinTopic → BuiltinReader
  messages : List (Option Message)
  /-- The data available statuses, and whether the guard condition is triggered. -/
  triggered : DiscoveryEntry → Bool
  threadIsRunning : Bool
  thread : DiscoveryThread (GraphCall TypeHash Message)
  cleanUp : CleanUp
  alive : DiscoveryObject → Bool
  onChangeCallback : Bool
  /-- The calls of the thread so far. -/
  calls : List (GraphCall TypeHash Message)

inductive StartOutcome where
  | ok
  | noGuardCondition
  | noThread
  deriving DecidableEq

/-- What the DDS call of a step of the thread answers. -/
inductive ThreadAnswer where
  | ok
  | fails
  | triggered (xs : List DiscoveryEntry)
  | takes (key : DdsGuid)

inductive Arrival where
  | written (d : Discovered)
  | gone (t : BuiltinTopic) (key : DdsGuid)

namespace Arrival

def topic : Arrival → BuiltinTopic
  | written d => d.topic
  | gone t _ => t

def key : Arrival → DdsGuid
  | written d => d.key
  | gone _ key => key

def alive : Arrival → Bool
  | written _ => true
  | gone _ _ => false

def data : Arrival → Option Discovered
  | written d => some d
  | gone _ _ => none

end Arrival

inductive DiscoveryStep (Message : Type) where
  | arrive (a : Arrival) (replaces : Bool)
  | receive (m : Option Message)
  | start (outcome : StartOutcome)
  | thread (answer : ThreadAnswer)
  | cleanUp

namespace DiscoveryState
variable {TypeHash Message : Type}

/-- Before `discovery_thread_start`. -/
def initial : DiscoveryState TypeHash Message where
  readers _ := ⟨fun _ => false,.empty⟩
  messages := []
  triggered _ := false
  threadIsRunning := false
  thread := .notStarted
  cleanUp := .notCalled
  alive o := o ≠ .listenerThreadGc
  onChangeCallback := true
  calls := []

variable (ctx : DiscoveryContext TypeHash) (s : DiscoveryState TypeHash Message)

def arrive (a : Arrival) (replaces : Bool) : DiscoveryState TypeHash Message :=
  let r := s.readers a.topic
  {s with
    readers := Function.update s.readers a.topic
      ⟨Function.update r.alive a.key a.alive,r.pending.push replaces a.key a.data⟩
    triggered := Function.update s.triggered (.builtin a.topic) true}

def receive (m : Option Message) : DiscoveryState TypeHash Message :=
  {s with messages := s.messages ++ [m], triggered := Function.update s.triggered .entities true}

/-- `discovery_thread_start`. -/
def start : StartOutcome → DiscoveryState TypeHash Message
  | .ok => {s with
      threadIsRunning := true
      alive := Function.update s.alive .listenerThreadGc true
      triggered := Function.update s.triggered .guardCondition false
      thread := .created}
  | .noGuardCondition => {s with threadIsRunning := false}
  | .noThread => {s with
      threadIsRunning := false
      alive := Function.update s.alive .listenerThreadGc false}

/-- `dds_take` for a reader resets its status. -/
def handled (x : DiscoveryEntry) (thread : DiscoveryThread (GraphCall TypeHash Message)) : DiscoveryState TypeHash Message :=
  {s with triggered := Function.update s.triggered x false, thread}

/-- One round of the loop of a handler. -/
def handleStep (x : DiscoveryEntry) (xs : List DiscoveryEntry) (answer : ThreadAnswer) :
    Option (DiscoveryState TypeHash Message) :=
  match x,answer with
  | .guardCondition, .ok => some {s with thread := .handling xs}
  | .entities, .fails => some (s.handled .entities (.handling xs))
  | .entities, .ok =>
    match s.messages with
    | [] => some (s.handled .entities (.handling xs))
    | m :: messages =>
      some {s.handled .entities (.updating (m.map .updateParticipantEntities) (.entities :: xs)) with messages}
  | .builtin t, .fails => some (s.handled (.builtin t) (.handling xs))
  | .builtin t, .ok =>
    if (s.readers t).pending.items = [] then some (s.handled (.builtin t) (.handling xs)) else none
  | .builtin t, .takes key =>
    match (s.readers t).pending.take key with
    | some (data,pending) =>
      let c := ctx.handle Message t key ((s.readers t).alive key) data
      some {s.handled (.builtin t) (.updating c (.builtin t :: xs)) with
        readers := Function.update s.readers t {s.readers t with pending}}
    | none => none
  | _, _ => none

/-- `discovery_thread`. -/
def threadStep (answer : ThreadAnswer) : Option (DiscoveryState TypeHash Message) :=
  match s.thread,answer with
  | .created, .fails => some {s with thread := .ended}
  | .created, .ok => some {s with thread := .attaching discoveryEntries}
  | .attaching [], .ok => some {s with thread := .testing}
  | .attaching (_ :: _), .fails => some {s with thread := .ended}
  | .attaching (_ :: rest), .ok => some {s with thread := .attaching rest}
  | .testing, .ok => some {s with thread := if s.threadIsRunning then .waiting else .ended}
  | .waiting, .fails => some {s with thread := .ended}
  | .waiting, .triggered xs =>
    if xs ≠ [] ∧ xs.Nodup ∧ ∀ x ∈ discoveryEntries, x ∈ xs ↔ s.triggered x = true then some {s with thread := .handling xs}
    else none
  | .handling [], .ok => some {s with thread := .testing}
  | .handling (x :: xs), answer => s.handleStep ctx x xs answer
  | .updating c xs, .ok => some {s with calls := s.calls ++ c.toList, thread := .handling xs}
  | _, _ => none

def destroy (o : DiscoveryObject) (next : CleanUp) : DiscoveryState TypeHash Message :=
  {s with alive := Function.update s.alive o false, cleanUp := next}

/-- `clean_up`, with `discovery_thread_stop` at its start. -/
def cleanUpStep : Option (DiscoveryState TypeHash Message) :=
  match s.cleanUp with
  | .notCalled =>
    if s.threadIsRunning then some {s with threadIsRunning := false, cleanUp := .stopping}
    else some {s with cleanUp := .stopped}
  | .stopping => some {s with triggered := Function.update s.triggered .guardCondition true, cleanUp := .joining}
  | .joining =>
    match s.thread with
    | .ended => some {s with cleanUp := .joined}
    | _ => none
  | .joined => some (s.destroy .listenerThreadGc .stopped)
  | .stopped => some {s with onChangeCallback := false, cleanUp := .callbackCleared}
  | .callbackCleared => some (s.destroy .graphGuardCondition .graphGuardConditionGone)
  | .graphGuardConditionGone => some (s.destroy .pub .pubGone)
  | .pubGone => some (s.destroy .sub .subGone)
  | .subGone => some (s.destroy .ppant .done)
  | .done => none

def next : DiscoveryStep Message → Option (DiscoveryState TypeHash Message)
  | .arrive a replaces => some (s.arrive a replaces)
  | .receive m => some (s.receive m)
  | .start outcome =>
    match s.thread,s.cleanUp with
    | .notStarted, .notCalled => some (s.start outcome)
    | _, _ => none
  | .thread answer => s.threadStep ctx answer
  | .cleanUp => s.cleanUpStep

end DiscoveryState

/-- Samples arrive, the context starts and stops its thread, and the thread runs, in any order. -/
def discoveryMachine {TypeHash : Type} (Message : Type) (ctx : DiscoveryContext TypeHash) :
    Machine (DiscoveryState TypeHash Message) (DiscoveryStep Message) := ⟨.initial,fun s => s.next ctx⟩

variable {TypeHash Message : Type} {ctx : DiscoveryContext TypeHash} {s s' : DiscoveryState TypeHash Message}

/-! ### What a step of the thread does -/

namespace DiscoveryState

/-- The calls made, and the one that the thread has in hand. -/
def answered (s : DiscoveryState TypeHash Message) : List (GraphCall TypeHash Message) := s.calls ++ s.thread.inHand

/-- What a step of the thread leaves alone. -/
structure KeepsContext (s s' : DiscoveryState TypeHash Message) : Prop where
  threadIsRunning : s'.threadIsRunning = s.threadIsRunning
  cleanUp : s'.cleanUp = s.cleanUp
  alive : s'.alive = s.alive
  onChangeCallback : s'.onChangeCallback = s.onChangeCallback
  guardCondition : s'.triggered .guardCondition = s.triggered .guardCondition

/-- Nothing is taken. -/
structure TakesNothing (s s' : DiscoveryState TypeHash Message) : Prop where
  readers : s'.readers = s.readers
  messages : s'.messages = s.messages
  answered : s'.answered = s.answered

structure TakesMessage (s s' : DiscoveryState TypeHash Message) (m : Option Message) : Prop where
  readers : s'.readers = s.readers
  messages : s.messages = m :: s'.messages
  answered : s'.answered = s.answered ++ (m.map GraphCall.updateParticipantEntities).toList

structure TakesSample (ctx : DiscoveryContext TypeHash) (s s' : DiscoveryState TypeHash Message)
    (t : BuiltinTopic) (key : DdsGuid) (data : Option Discovered) (pending : InstanceQueue DdsGuid (Option Discovered)) :
    Prop where
  take : (s.readers t).pending.take key = some (data,pending)
  readers : s'.readers = Function.update s.readers t {s.readers t with pending}
  messages : s'.messages = s.messages
  answered : s'.answered = s.answered ++ (ctx.handle Message t key ((s.readers t).alive key) data).toList

def Takes (ctx : DiscoveryContext TypeHash) (s s' : DiscoveryState TypeHash Message) : Prop :=
  TakesNothing s s' ∨ (∃ m, TakesMessage s s' m) ∨ ∃ t key data pending, TakesSample ctx s s' t key data pending

private theorem handleStep_effect {x : DiscoveryEntry} {xs : List DiscoveryEntry} {answer : ThreadAnswer}
    (hanswered : s.answered = s.calls) (h : s.handleStep ctx x xs answer = some s') :
    Takes ctx s s' ∧ KeepsContext s s' ∧ s'.thread ≠ .notStarted := by
  have hquiet (x : DiscoveryEntry) : TakesNothing s (s.handled x (.handling xs)) :=
    ⟨rfl,rfl,(List.append_nil _).trans hanswered.symm⟩
  have hentities : Function.update s.triggered .entities false .guardCondition = s.triggered .guardCondition :=
    Function.update_of_ne (by decide) _ _
  have hbuiltin (t : BuiltinTopic) :
      Function.update s.triggered (.builtin t) false .guardCondition = s.triggered .guardCondition := by
    rw [Function.update_of_ne]
    nofun
  unfold handleStep at h
  split at h
  case h_1 =>
    cases h
    exact ⟨.inl ⟨rfl,rfl,(List.append_nil _).trans hanswered.symm⟩,⟨rfl,rfl,rfl,rfl,rfl⟩,nofun⟩
  case h_2 =>
    cases h
    exact ⟨.inl (hquiet .entities),⟨rfl,rfl,rfl,rfl,hentities⟩,nofun⟩
  case h_3 =>
    split at h
    · cases h
      exact ⟨.inl (hquiet .entities),⟨rfl,rfl,rfl,rfl,hentities⟩,nofun⟩
    · next m messages hm =>
      cases h
      exact ⟨.inr (.inl ⟨m,rfl,hm,hanswered.symm ▸ rfl⟩),⟨rfl,rfl,rfl,rfl,hentities⟩,nofun⟩
  case h_4 t =>
    cases h
    exact ⟨.inl (hquiet (.builtin t)),⟨rfl,rfl,rfl,rfl,hbuiltin t⟩,nofun⟩
  case h_5 t =>
    split at h
    · cases h
      exact ⟨.inl (hquiet (.builtin t)),⟨rfl,rfl,rfl,rfl,hbuiltin t⟩,nofun⟩
    · cases h
  case h_6 t key =>
    split at h
    · next data pending htake =>
      cases h
      exact ⟨.inr (.inr ⟨t,key,data,pending,htake,rfl,rfl,hanswered.symm ▸ rfl⟩),
        ⟨rfl,rfl,rfl,rfl,hbuiltin t⟩,nofun⟩
    · cases h
  case h_7 => cases h

private theorem moves_effect {thread : DiscoveryThread (GraphCall TypeHash Message)} (hidle : s.thread.inHand = [])
    (hnext : thread.inHand = []) : Takes ctx s {s with thread} ∧ KeepsContext s {s with thread} := by
  refine ⟨.inl ⟨rfl,rfl,?_⟩,⟨rfl,rfl,rfl,rfl,rfl⟩⟩
  simp only [answered, hidle, hnext]

theorem threadStep_effect {answer : ThreadAnswer} (h : s.threadStep ctx answer = some s') :
    (Takes ctx s s' ∧ KeepsContext s s') ∧ s.thread ≠ .notStarted ∧ s.thread ≠ .ended ∧ s'.thread ≠ .notStarted := by
  unfold threadStep at h
  split at h
  case h_6 ht =>
    cases h
    refine ⟨moves_effect (by rw [ht]; rfl) ?_,by rw [ht]; nofun,by rw [ht]; nofun,?_⟩
    · split <;> rfl
    · show (if s.threadIsRunning then DiscoveryThread.waiting else .ended) ≠ .notStarted
      split <;> nofun
  case h_8 xs ht =>
    split at h
    · cases h
      exact ⟨moves_effect (by rw [ht]; rfl) rfl,by rw [ht]; nofun,by rw [ht]; nofun,nofun⟩
    · cases h
  case h_10 x xs ht =>
    have hanswered : s.answered = s.calls := by
      rw [answered, ht]
      exact List.append_nil _
    obtain ⟨htakes,hkeeps,hstarted⟩ := handleStep_effect hanswered h
    exact ⟨⟨htakes,hkeeps⟩,by rw [ht]; nofun,by rw [ht]; nofun,hstarted⟩
  case h_11 c xs ht =>
    cases h
    refine ⟨⟨.inl ⟨rfl,rfl,?_⟩,⟨rfl,rfl,rfl,rfl,rfl⟩⟩,by rw [ht]; nofun,by rw [ht]; nofun,nofun⟩
    have hanswered : s.answered = s.calls ++ c.toList := by rw [answered, ht]; rfl
    exact (List.append_nil _).trans hanswered.symm
  case h_12 => cases h
  all_goals
    next ht =>
      cases h
      exact ⟨moves_effect (by rw [ht]; rfl) rfl,by rw [ht]; nofun,by rw [ht]; nofun,nofun⟩

/-- `clean_up` leaves the samples and the thread alone. -/
theorem cleanUpStep_keeps (h : s.cleanUpStep = some s') : TakesNothing s s' ∧ s'.thread = s.thread ∧
    (∀ x ≠ .guardCondition, s'.triggered x = s.triggered x) ∧ (s.threadIsRunning = false → s'.threadIsRunning = false) := by
  unfold DiscoveryState.cleanUpStep at h
  split at h
  case h_1 | h_3 =>
    split at h
    all_goals
      cases h
      try exact ⟨⟨rfl,rfl,rfl⟩,rfl,fun _ _ => rfl,fun h => by first | rfl | exact h⟩
  case h_2 =>
    cases h
    exact ⟨⟨rfl,rfl,rfl⟩,rfl,fun x hx => Function.update_of_ne hx _ _,id⟩
  all_goals
    cases h
    try exact ⟨⟨rfl,rfl,rfl⟩,rfl,fun _ _ => rfl,fun h => by first | rfl | exact h⟩

theorem next_start {outcome : StartOutcome} (h : s.next ctx (.start outcome) = some s') :
    s.thread = .notStarted ∧ s.cleanUp = .notCalled ∧ s' = s.start outcome := by
  rw [next] at h
  split at h
  case h_1 ht hc =>
    cases h
    exact ⟨ht,hc,rfl⟩
  case h_2 => cases h

end DiscoveryState

/-! ### What the thread uses -/

/-- What has been destroyed before the step. -/
def CleanUp.gone : CleanUp → List DiscoveryObject
  | notCalled | stopping | joining | joined => []
  | stopped | callbackCleared => [.listenerThreadGc]
  | graphGuardConditionGone => [.graphGuardCondition,.listenerThreadGc]
  | pubGone => [.pub,.graphGuardCondition,.listenerThreadGc]
  | subGone => [.sub,.pub,.graphGuardCondition,.listenerThreadGc]
  | done => [.ppant,.sub,.pub,.graphGuardCondition,.listenerThreadGc]

/-- Until `clean_up` clears it, the graph cache has its callback. -/
def CleanUp.callbackSet : CleanUp → Bool
  | notCalled | stopping | joining | joined | stopped => true
  | _ => false

namespace DiscoveryState

/-- The thread runs from `discovery_thread_start` to the join in `discovery_thread_stop`. -/
def Staged (s : DiscoveryState TypeHash Message) : Prop :=
  match s.cleanUp with
  | .notCalled => s.threadIsRunning = true ↔ s.thread ≠ .notStarted
  | .stopping | .joining => s.threadIsRunning = false ∧ s.thread ≠ .notStarted
  | .joined => s.threadIsRunning = false ∧ s.thread = .ended
  | _ => s.threadIsRunning = false ∧ (s.thread = .notStarted ∨ s.thread = .ended)

structure Safe (s : DiscoveryState TypeHash Message) : Prop where
  staged : s.Staged
  alive : ∀ o, s.alive o = true ↔ o ∉ s.cleanUp.gone ∧ (o = .listenerThreadGc → s.thread ≠ .notStarted)
  callback : s.onChangeCallback = s.cleanUp.callbackSet
  joining : s.cleanUp = .joining → s.triggered .guardCondition = true

private theorem Safe.initial : Safe (initial : DiscoveryState TypeHash Message) where
  staged := ⟨nofun,fun h => absurd rfl h⟩
  alive o := by
    cases o with
    | listenerThreadGc => exact ⟨nofun,fun h => absurd rfl (h.2 rfl)⟩
    | graphGuardCondition | pub | sub | ppant => exact ⟨fun _ => ⟨List.not_mem_nil,nofun⟩,fun _ => rfl⟩
  callback := rfl
  joining := nofun

/-- Before the thread has ended nothing is destroyed. -/
private theorem Staged.gone_nil (h : s.Staged) (hn : s.thread ≠ .notStarted) (he : s.thread ≠ .ended) :
    s.cleanUp.gone = [] := by
  unfold Staged at h
  cases hc : s.cleanUp <;> rw [hc] at h
  case notCalled | stopping | joining | joined => rfl
  all_goals exact absurd h.2 (not_or.mpr ⟨hn,he⟩)

private theorem Safe.threadStep {answer : ThreadAnswer} (hs : Safe s) (h : s.threadStep ctx answer = some s') : Safe s' := by
  obtain ⟨⟨_,hkeeps⟩,hn,he,hn'⟩ := threadStep_effect h
  have hstaged := hs.staged
  refine ⟨?_,fun o => ?_,?_,?_⟩
  · unfold Staged at hstaged ⊢
    rw [hkeeps.cleanUp, hkeeps.threadIsRunning]
    cases hc : s.cleanUp <;> rw [hc] at hstaged
    case notCalled => exact ⟨fun _ => hn',fun _ => hstaged.mpr hn⟩
    case stopping | joining => exact ⟨hstaged.1,hn'⟩
    case joined => exact absurd hstaged.2 he
    all_goals exact absurd hstaged.2 (not_or.mpr ⟨hn,he⟩)
  · rw [hkeeps.alive, hkeeps.cleanUp, hs.alive o]
    exact and_congr_right fun _ => ⟨fun _ _ => hn',fun _ _ => hn⟩
  · rw [hkeeps.onChangeCallback, hkeeps.cleanUp]
    exact hs.callback
  · rw [hkeeps.guardCondition, hkeeps.cleanUp]
    exact hs.joining

/-- To start the thread either succeeds or leaves no guard condition behind. -/
private theorem start_cases (halive : s.alive .listenerThreadGc = false) (outcome : StartOutcome) :
    (s.start outcome).cleanUp = s.cleanUp ∧ (s.start outcome).onChangeCallback = s.onChangeCallback ∧
      (∀ o ≠ .listenerThreadGc, (s.start outcome).alive o = s.alive o) ∧
      ((s.start outcome).threadIsRunning = true ∧ (s.start outcome).thread = .created ∧
          (s.start outcome).alive .listenerThreadGc = true ∨
        (s.start outcome).threadIsRunning = false ∧ (s.start outcome).thread = s.thread ∧
          (s.start outcome).alive .listenerThreadGc = false) := by
  cases outcome with
  | ok => exact ⟨rfl,rfl,fun o ho => Function.update_of_ne ho _ _,.inl ⟨rfl,rfl,by simp [start]⟩⟩
  | noGuardCondition => exact ⟨rfl,rfl,fun _ _ => rfl,.inr ⟨rfl,rfl,halive⟩⟩
  | noThread => exact ⟨rfl,rfl,fun o ho => Function.update_of_ne ho _ _,.inr ⟨rfl,rfl,by simp [start]⟩⟩

private theorem Safe.start (hs : Safe s) (ht : s.thread = .notStarted) (hc : s.cleanUp = .notCalled)
    (outcome : StartOutcome) : Safe (s.start outcome) := by
  have hgc : s.alive .listenerThreadGc = false := by
    rw [← Bool.not_eq_true, hs.alive]
    exact fun h => h.2 rfl ht
  obtain ⟨hcleanUp,hcallback,hothers,hlistener⟩ := start_cases hgc outcome
  rw [hc] at hcleanUp
  refine ⟨?_,fun o => ?_,?_,?_⟩
  · unfold Staged
    rw [hcleanUp]
    rcases hlistener with ⟨hrun,hthread,_⟩ | ⟨hrun,hthread,_⟩
    · rw [hrun, hthread]
      exact ⟨fun _ => nofun,fun _ => rfl⟩
    · rw [hrun, hthread, ht]
      exact ⟨nofun,fun h => absurd rfl h⟩
  · rw [hcleanUp]
    by_cases ho : o = .listenerThreadGc
    · subst ho
      rcases hlistener with ⟨_,hthread,halive⟩ | ⟨_,hthread,halive⟩
      · rw [halive, hthread]
        exact ⟨fun _ => ⟨List.not_mem_nil,fun _ => nofun⟩,fun _ => rfl⟩
      · rw [halive, hthread, ht]
        exact ⟨nofun,fun h => absurd rfl (h.2 rfl)⟩
    · rw [hothers o ho, hs.alive o, hc]
      exact and_congr_right fun _ => ⟨fun _ h => absurd h ho,fun _ h => absurd h ho⟩
  · have hbefore := hs.callback
    rw [hc] at hbefore
    rw [hcallback, hcleanUp, hbefore]
  · rw [hcleanUp]
    nofun

/-- Destroying the next object. -/
private theorem Safe.destroy (hs : Safe s) {o : DiscoveryObject} {next : CleanUp}
    (hend : s.threadIsRunning = false ∧ (s.thread = .notStarted ∨ s.thread = .ended))
    (hgone : ∀ x, x ∈ next.gone ↔ x = o ∨ x ∈ s.cleanUp.gone)
    (hcallback : s.cleanUp.callbackSet = next.callbackSet)
    (hlate : next ∉ [.notCalled,.stopping,.joining,.joined]) : Safe (s.destroy o next) where
  staged := by
    show match next with | _ => _
    cases next <;> first | exact hend | exact absurd (by decide) hlate
  alive x := by
    show Function.update s.alive o false x = true ↔ x ∉ next.gone ∧ _
    rw [hgone x]
    by_cases hx : x = o
    · subst hx
      rw [Function.update_self]
      exact ⟨nofun,fun h => absurd (.inl rfl) h.1⟩
    · rw [Function.update_of_ne hx, hs.alive x, or_iff_right hx]
      rfl
  callback := hs.callback.trans hcallback
  joining h := by
    cases h
    exact absurd (by decide) hlate

private theorem Safe.cleanUpStep (hs : Safe s) (h : s.cleanUpStep = some s') : Safe s' := by
  have hstaged := hs.staged
  have halive := hs.alive
  have hcallback := hs.callback
  unfold Staged at hstaged
  unfold DiscoveryState.cleanUpStep at h
  cases hc : s.cleanUp <;> rw [hc] at h hstaged halive hcallback <;> dsimp only at h hstaged
  case notCalled =>
    split at h
    case isTrue hrun =>
      cases h
      exact ⟨⟨rfl,hstaged.mp hrun⟩,halive,hcallback,nofun⟩
    case isFalse hrun =>
      have ht : s.thread = .notStarted := not_not.mp fun hne => hrun (hstaged.mpr hne)
      cases h
      refine ⟨⟨Bool.not_eq_true _ ▸ hrun,.inl ht⟩,fun o => ?_,hcallback,nofun⟩
      show s.alive o = true ↔ o ∉ [.listenerThreadGc] ∧ (o = .listenerThreadGc → s.thread ≠ .notStarted)
      rw [halive o]
      exact ⟨fun h => ⟨fun hmem => h.2 (List.mem_singleton.mp hmem) ht,h.2⟩,fun h => ⟨List.not_mem_nil,h.2⟩⟩
  case stopping =>
    cases h
    exact ⟨hstaged,halive,hcallback,fun _ => by simp⟩
  case joining =>
    split at h
    case h_1 ht =>
      cases h
      exact ⟨⟨hstaged.1,ht⟩,halive,hcallback,nofun⟩
    case h_2 => cases h
  case joined =>
    cases h
    exact hs.destroy ⟨hstaged.1,.inr hstaged.2⟩ (fun x => by rw [hc]; exact List.mem_cons) (by rw [hc]; rfl) (by decide)
  case stopped =>
    cases h
    exact ⟨hstaged,halive,rfl,nofun⟩
  case done => cases h
  all_goals
    cases h
    exact hs.destroy hstaged (fun x => by rw [hc]; exact List.mem_cons) (by rw [hc]; rfl) (by decide)

private theorem next_safe {step : DiscoveryStep Message} (hs : Safe s) (h : s.next ctx step = some s') : Safe s' := by
  cases step with
  | arrive a replaces =>
    cases h
    refine ⟨hs.staged,hs.alive,hs.callback,fun hc => ?_⟩
    show Function.update s.triggered (.builtin a.topic) true .guardCondition = true
    rw [Function.update_of_ne]
    · exact hs.joining hc
    · nofun
  | receive m =>
    cases h
    refine ⟨hs.staged,hs.alive,hs.callback,fun hc => ?_⟩
    show Function.update s.triggered .entities true .guardCondition = true
    rw [Function.update_of_ne]
    · exact hs.joining hc
    · nofun
  | start outcome =>
    obtain ⟨ht,hc,rfl⟩ := next_start h
    exact hs.start ht hc outcome
  | thread answer => exact hs.threadStep h
  | cleanUp => exact hs.cleanUpStep h

theorem run_safe {steps : List (DiscoveryStep Message)} (h : (discoveryMachine Message ctx).run steps = some s) :
    Safe s := by
  refine Machine.invariant Safe.initial ?_ h
  intro s step s' hs hl
  exact next_safe hs hl

end DiscoveryState

open DiscoveryState

/-- Whatever arrives, and whenever the context is torn down, the thread only uses what has not been destroyed, the graph
cache never calls back to a guard condition that is gone, and in the end the thread has ended and everything is
destroyed. -/
theorem discoveryThread_usesAlive {steps : List (DiscoveryStep Message)}
    (h : (discoveryMachine Message ctx).run steps = some s) :
    (∀ o ∈ s.thread.uses, s.alive o = true) ∧ (s.onChangeCallback = true → s.alive .graphGuardCondition = true) ∧
      (s.cleanUp = .done → (s.thread = .notStarted ∨ s.thread = .ended) ∧ ∀ o, s.alive o = false) := by
  have hs := run_safe h
  refine ⟨fun o ho => ?_,fun hcallback => ?_,fun hdone => ?_⟩
  · have hn : s.thread ≠ .notStarted := fun ht => by rw [ht] at ho; cases ho
    have he : s.thread ≠ .ended := fun ht => by rw [ht] at ho; cases ho
    rw [hs.alive, hs.staged.gone_nil hn he]
    exact ⟨List.not_mem_nil,fun _ => hn⟩
  · rw [hs.callback] at hcallback
    rw [hs.alive]
    refine ⟨?_,nofun⟩
    cases hc : s.cleanUp <;> rw [hc] at hcallback <;> first | decide | cases hcallback
  · have hstaged := hs.staged
    unfold Staged at hstaged
    rw [hdone] at hstaged
    refine ⟨hstaged.2,fun o => ?_⟩
    rw [← Bool.not_eq_true, hs.alive, hdone]
    intro hlive
    apply hlive.1
    cases o <;> decide

/-- A thread that is started, waits and is told to stop. -/
def shortLife : List (DiscoveryStep Unit) :=
  .start .ok :: List.replicate 8 (.thread .ok) ++
    [.cleanUp,.cleanUp,.thread (.triggered [.guardCondition]),.thread .ok,.thread .ok,.thread .ok] ++ List.replicate 7 .cleanUp

def chatterGuid : DdsGuid := ⟨List.replicate 16 1,rfl⟩

/-- A context in which no user data is read. -/
def quietDiscovery : DiscoveryContext Unit where
  commonGid := convertGuidToGid 16 ⟨List.replicate 16 0,rfl⟩
  gidSize := 16
  time := saturatingTime
  get := ddsQosGet
  parseKeyValue _ _ := none
  parseTypeHashFromUserData _ := none
  parseSertypeHashFromUserData _ := none
  zeroInitializedTypeHash := ()

theorem shortLife_usesAlive : ∃ s, (discoveryMachine Unit quietDiscovery).run shortLife = some s ∧ s.cleanUp = .done ∧
    ∀ o, s.alive o = false := by
  have hrun : (discoveryMachine Unit quietDiscovery).run shortLife = some _ := rfl
  exact ⟨_,hrun,rfl,((discoveryThread_usesAlive hrun).2.2 rfl).2⟩

end RmwCyclonedds
