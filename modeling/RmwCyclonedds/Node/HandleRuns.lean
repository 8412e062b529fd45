import RmwCyclonedds.Library.Runs
import RmwCyclonedds.Node.Handles
import RmwCyclonedds.Node.QosRoundTrip

/-! Handles that are created and destroyed by calls whose steps interleave, and what is held meanwhile. -/
namespace RmwCyclonedds
open Library

/-! ### Calls in order -/

/-- What may be left of a creation that fails. -/
def leftovers : Finset HandlePart := {.listener,.qos .pub,.qos .sub,.sertype .sub}

section
variable (time : RmwTimeFunctions)

private theorem attempt_orderly {σ : Type} {role : Role} {pre stopped : Estimate HandlePart} (fails : Bool) (stop : σ)
    {part : HandlePart} (hacquire : pre.Allows role.needs (.acquire part)) (hstop : stopped.Covers pre) :
    Orderly role.needs pre (attempt fails stop part) stopped (pre.after (.acquire part)) :=
  .ite (fun _ => .stops _ hstop) fun _ => .note hacquire

private theorem acquireQos_orderly {role : Role} {side : Side} {pre stopped : Estimate HandlePart}
    (hmoves : pre.AllowsAll role.needs [.acquire (.qos side),.release (.qos side)])
    (hdepth : stopped.Covers (pre.afterAll [.acquire (.qos side),.release (.qos side)]))
    (hother : stopped.Covers (pre.after (.acquire (.qos side)))) (qosPolicies : RmwQosProfile) (typehash : Option Text)
    (ignoreLocalPublications : Bool) (extraUserData : Text) :
    Orderly role.needs pre (acquireQos time side qosPolicies typehash ignoreLocalPublications extraUserData) stopped
      (pre.after (.acquire (.qos side))) := by
  unfold acquireQos
  refine (Orderly.note hmoves.1).bind fun _ => ?_
  split
  · exact .quiet _ hother
  · exact (Orderly.note hmoves.2.1).bind fun _ => .stops _ hdepth
  · exact .stops _ hother

private theorem acquireEnth_orderly (role : Role) {side : Side} {lastMakesEntity : Bool}
    (hside : lastMakesEntity = true → side = .sub) (endpointMessage lastMessage : Text) (fails : EndpointFailures) :
    Orderly role.needs (.exact {.data,.topic side,.listener,.qos side})
      (acquireEnth (fun _ => false) side lastMakesEntity endpointMessage lastMessage fails)
      (.exact {.data,.topic side,.listener,.qos side})
      (.exact ({.data,.topic side,.listener,.qos side} ∪ enthParts side lastMakesEntity)) := by
  refine (attempt_orderly _ _ (by decide +revert) (by decide +revert)).bind fun _ => ?_
  refine .scopeExit (.exact {.data,.topic side,.listener,.qos side,.enth side}) (by decide +revert)
    (by decide +revert) ?_
  refine (Orderly.quiet _ (by decide +revert)).bind fun _ => ?_
  exact .weaken (.noteAll (by decide +revert)) (by decide +revert)

private theorem acquireEndpoint_orderly (role : Role) (side : Side) (lastMakesEntity : Bool)
    (hside : lastMakesEntity = true → side = .sub) (ignoreLocalPublications : Bool) (endpointMessage lastMessage : Text)
    (args : EndpointArguments) (fails : EndpointFailures) :
    Orderly role.needs (.exact ∅)
      (acquireEndpoint (fun _ => false) time side lastMakesEntity ignoreLocalPublications endpointMessage lastMessage
        args fails)
      ⟨∅,leftovers⟩ (.exact (insert .data (enthParts side lastMakesEntity))) := by
  unfold acquireEndpoint
  refine (Orderly.quiet _ (by decide +revert)).bind fun checked => ?_
  refine (Orderly.note (by decide +revert)).bind fun _ => ?_
  refine .scopeExit ⟨{.data},{.data,.listener,.qos side}⟩ (by decide +revert) (by decide +revert) ?_
  refine (Orderly.noteAll (by decide +revert)).bind fun _ => ?_
  cases fails.topic with
  | some code =>
    simp only [reduceCtorEq, if_false, List.nil_append]
    refine (Orderly.noteAll (by decide +revert)).bind fun _ => ?_
    exact .stops_bind _ _ (by decide +revert)
  | none =>
    refine (Orderly.noteAll (by decide +revert)).bind fun _ => ?_
    refine (Orderly.returns ()).bind fun _ => ?_
    exact .scopeExit_bind ⟨{.data,.topic side,.listener},{.data,.topic side,.listener,.qos side}⟩ _
      (by decide +revert) (by decide +revert)
      ((acquireQos_orderly time (by decide +revert) (by decide +revert) (by decide +revert) _ _ _ _).bind fun _ =>
        .scopeExit _ (by decide +revert) (by decide +revert)
          ((acquireEnth_orderly role hside _ _ _).narrow (by decide +revert)))
      fun _ => .weaken (.noteAll (by decide +revert)) (by decide +revert)

private theorem acquireHandle_orderly (role : Role) (side : Side) (lastMakesEntity : Bool)
    (hside : lastMakesEntity = true → side = .sub) {endpoint : HandleCall} (handleMessage nameMessage : Text)
    (fails : HandleFailures) (hendpoint : Orderly role.needs (.exact ∅) endpoint ⟨∅,leftovers⟩
      (.exact (insert .data (enthParts side lastMakesEntity)))) :
    Orderly role.needs (.exact ∅)
      (acquireHandle endpoint ((if lastMakesEntity then [.release .rdcondh] else []) ++ [.release (.enth side)])
        handleMessage nameMessage fails)
      ⟨∅,leftovers⟩ (.exact ({.data,.handle,.name} ∪ enthParts side lastMakesEntity)) := by
  refine hendpoint.bind fun _ => ?_
  clear hendpoint
  refine .scopeExit (.exact (insert .data (enthParts side lastMakesEntity))) (by decide +revert) (by decide +revert) ?_
  refine (attempt_orderly _ _ (by decide +revert) (by decide +revert)).bind fun _ => ?_
  refine .scopeExit (.exact (insert .handle (insert .data (enthParts side lastMakesEntity)))) (by decide +revert)
    (by decide +revert) ?_
  exact .weaken (attempt_orderly _ _ (by decide +revert) (by decide +revert)) (by decide +revert)

variable (validate : Text → RmwRet × Option Text) (adapt : Text → RmwQosProfile → Option RmwQosProfile)

theorem rmwCreatePublisher_orderly (strictlyRequired : Bool) (args : EndpointArguments)
    (endpointFails : EndpointFailures) (fails : HandleFailures) :
    Orderly Role.publisher.needs (.exact ∅)
      (rmwCreatePublisher (fun _ => false) time validate adapt strictlyRequired args endpointFails fails)
      ⟨∅,leftovers⟩ (.exact Role.publisher.parts) := by
  refine (Orderly.quiet _ (by decide)).bind fun args => ?_
  have hendpoint := acquireEndpoint_orderly time .publisher .pub false (by simp) false
    "failed to create writer".toList "failed to get instance handle for writer".toList args endpointFails
  refine (acquireHandle_orderly .publisher .pub false (by simp) _ _ _ hendpoint).bind fun _ => ?_
  refine .scopeExit (.exact {.data,.enth .pub,.handle,.name}) (by decide) (by decide) ?_
  exact .weaken (attempt_orderly _ _ (by decide) (by decide)) (by decide)

theorem rmwCreateSubscription_orderly (ignoreLocalPublications strictlyRequired : Bool) (args : EndpointArguments)
    (endpointFails : EndpointFailures) (fails : HandleFailures) :
    Orderly Role.subscription.needs (.exact ∅)
      (rmwCreateSubscription (fun _ => false) time validate adapt ignoreLocalPublications strictlyRequired args
        endpointFails fails)
      ⟨∅,leftovers⟩ (.exact Role.subscription.parts) := by
  refine (Orderly.quiet _ (by decide)).bind fun args => ?_
  have hendpoint := acquireEndpoint_orderly time .subscription .sub true (fun _ => rfl) ignoreLocalPublications
    "failed to create reader".toList "failed to create readcondition".toList args endpointFails
  refine (acquireHandle_orderly .subscription .sub true (fun _ => rfl) _ _ _ hendpoint).bind fun _ => ?_
  refine .scopeExit (.exact {.data,.enth .sub,.rdcondh,.handle,.name}) (by decide) (by decide) ?_
  exact .weaken (attempt_orderly _ _ (by decide) (by decide)) (by decide)

/-- What `rmw_init_cs` holds before it makes its endpoints. -/
private def csBase : Finset HandlePart :=
  {.data,.cdds .pub,.cdds .sub,.listener,.topic .pub,.topic .sub,.qos .pub,.qos .sub}

private theorem acquireCsEndpoints_orderly (role : Role) (fails : ServiceFailures) :
    Orderly role.needs (.exact csBase) (acquireCsEndpoints (fun _ => false) fails) (.exact csBase)
      (.exact (csBase ∪ {.enth .pub,.enth .sub,.rdcondh})) := by
  refine (attempt_orderly _ _ (by decide +revert) (by decide)).bind fun _ => ?_
  refine .scopeExit (.exact (insert (.enth .pub) csBase)) (by decide +revert) (by decide) ?_
  refine (attempt_orderly _ _ (by decide +revert) (by decide)).bind fun _ => ?_
  refine .scopeExit (.exact (insert (.enth .sub) (insert (.enth .pub) csBase))) (by decide +revert) (by decide) ?_
  refine (attempt_orderly _ _ (by decide +revert) (by decide)).bind fun _ => ?_
  refine .scopeExit (.exact (csBase ∪ {.enth .pub,.enth .sub,.rdcondh})) (by decide +revert) (by decide) ?_
  exact .weaken (.quiet _ (by decide)) (by decide)

private theorem acquireCs_orderly (role : Role) (isService : Bool) (args : ServiceArguments) (fails : ServiceFailures) :
    Orderly role.needs (.exact {.data}) (acquireCs (fun _ => false) time validate isService args fails)
      ⟨{.data},insert .data leftovers⟩ (.exact {.data,.cdds .pub,.cdds .sub,.enth .pub,.enth .sub,.rdcondh}) := by
  refine (Orderly.quiet _ (by decide)).bind fun checked => ?_
  refine (Orderly.noteAll (by decide +revert)).bind fun _ => ?_
  refine .scopeExit ⟨{.data,.cdds .pub,.cdds .sub},{.data,.cdds .pub,.cdds .sub} ∪ leftovers⟩ (by decide +revert)
    (by decide) ?_
  refine (Orderly.noteAll (by decide +revert)).bind fun _ => ?_
  refine (Orderly.quiet _ (by decide)).bind fun _ => ?_
  refine (Orderly.note (by decide +revert)).bind fun _ => ?_
  refine .scopeExit_bind ⟨csBase \ {.topic .sub,.qos .pub,.qos .sub},csBase \ {.topic .sub}⟩
    (.exact (csBase ∪ {.enth .pub,.enth .sub,.rdcondh})) (by decide +revert) (by decide) ?_ fun _ =>
      .weaken (.noteAll (by decide +revert)) (by decide)
  refine (Orderly.note (by decide +revert)).bind fun _ => ?_
  refine (Orderly.quiet _ (by decide)).bind fun _ => ?_
  refine (Orderly.note (by decide +revert)).bind fun _ => ?_
  refine .scopeExit ⟨csBase \ {.qos .pub,.qos .sub},csBase⟩ (by decide +revert) (by decide) ?_
  refine (Orderly.mapStop _ (acquireQos_orderly time (by decide +revert) (by decide) (by decide) _ _ _ _)).bind
    fun _ => ?_
  refine .scopeExit ⟨csBase \ {.qos .sub},csBase⟩ (by decide +revert) (by decide) ?_
  refine (Orderly.mapStop _ (acquireQos_orderly time (by decide +revert) (by decide) (by decide) _ _ _ _)).bind
    fun _ => ?_
  exact .scopeExit (.exact csBase) (by decide +revert) (by decide)
    ((acquireCsEndpoints_orderly role fails).narrow (by decide))

theorem rmwCreateCs_orderly {role : Role} (hrole : role = .client ∨ role = .service)
    (update : RmwQosProfile → RmwQosProfile) (isService : Bool) (args : ServiceArguments) (csFails : ServiceFailures)
    (fails : HandleFailures) :
    Orderly role.needs (.exact ∅) (rmwCreateCs (fun _ => false) time validate update isService args csFails fails)
      ⟨∅,leftovers⟩ (.exact role.parts) := by
  refine (Orderly.quiet _ (by decide)).bind fun qosPolicies => ?_
  refine (Orderly.note (by decide +revert)).bind fun _ => ?_
  refine .scopeExit ⟨{.data},insert .data leftovers⟩ (by decide +revert) (by decide) ?_
  refine (Orderly.mapStop _ ((acquireCs_orderly time validate role _ _ _).narrow (by decide))).bind fun _ => ?_
  refine .scopeExit (.exact {.data,.cdds .pub,.cdds .sub,.enth .pub,.enth .sub,.rdcondh}) (by decide +revert)
    (by decide) ?_
  refine (attempt_orderly _ _ (by decide +revert) (by decide)).bind fun _ => ?_
  refine .scopeExit (.exact {.data,.cdds .pub,.cdds .sub,.enth .pub,.enth .sub,.rdcondh,.handle}) (by decide +revert)
    (by decide) ?_
  refine (attempt_orderly _ _ (by decide +revert) (by decide)).bind fun _ => ?_
  refine .scopeExit (.exact {.data,.cdds .pub,.cdds .sub,.enth .pub,.enth .sub,.rdcondh,.handle,.name})
    (by decide +revert) (by decide) ?_
  exact .weaken (attempt_orderly _ _ (by decide +revert) (by decide)) (by decide +revert)

private theorem rmwCreateNode_orderly (args : NodeArguments) (fails : NodeFailures) :
    Orderly Role.node.needs (.exact ∅) (rmwCreateNode true args fails) (.exact ∅) (.exact Role.node.parts) := by
  refine (Orderly.quiet _ (by decide)).bind fun _ => ?_
  refine (attempt_orderly _ _ (by decide) (by decide)).bind fun _ => ?_
  refine .scopeExit (.exact {.participation}) (by decide) (by decide) ?_
  refine (attempt_orderly _ _ (by decide) (by decide)).bind fun _ => ?_
  refine .scopeExit (.exact {.participation,.data}) (by decide) (by decide) ?_
  refine (attempt_orderly _ _ (by decide) (by decide)).bind fun _ => ?_
  refine .scopeExit (.exact {.participation,.data,.handle}) (by decide) (by decide) ?_
  refine .scopeExit_bind (.exact {.participation,.data,.handle}) (.exact {.participation,.data,.handle,.name})
    (by decide) (by decide) (.weaken (attempt_orderly _ _ (by decide) (by decide)) (by decide)) fun _ => ?_
  refine .scopeExit_bind (.exact {.participation,.data,.handle,.name})
    (.exact {.participation,.data,.handle,.name,.namespace_}) (by decide) (by decide)
    (.weaken (attempt_orderly _ _ (by decide) (by decide)) (by decide)) fun _ => ?_
  refine .scopeExit (.exact {.participation,.data,.handle,.name,.namespace_}) (by decide) (by decide) ?_
  exact .weaken (attempt_orderly _ _ (by decide) (by decide)) (by decide)

/-- What is in the place of the namespace matters only where the name is refused. -/
private theorem rmwCreateNode_eq {nullNames : Bool} {args : NodeArguments} {fails : NodeFailures}
    (h : args.losesName fails = true → nullNames = true) :
    rmwCreateNode nullNames args fails = rmwCreateNode true args fails := by
  cases nullNames with
  | true => rfl
  | false =>
    obtain ⟨init,nodeImpl,node,name,namespace_,association⟩ := fails
    simp only [NodeArguments.losesName] at h
    unfold rmwCreateNode
    cases hcheck : args.check with
    | error message => rfl
    | ok _ =>
      rw [hcheck] at h
      cases init with
      | true => rfl
      | false =>
        cases nodeImpl with
        | true => rfl
        | false =>
          cases node with
          | true => rfl
          | false =>
            cases name with
            | true => exact absurd (h rfl) Bool.false_ne_true
            | false => rfl

/-- The creation of a node frees a namespace that it has not allocated exactly where the name is refused and the node
has no null names. -/
theorem rmwCreateNode_inOrder_iff (nullNames : Bool) (args : NodeArguments) (fails : NodeFailures) :
    AllInOrder Role.node.needs ∅ (rmwCreateNode nullNames args fails).events ↔
      (args.losesName fails = true → nullNames = true) := by
  constructor
  · intro horder hloses
    obtain ⟨init,nodeImpl,node,name,namespace_,association⟩ := fails
    simp only [NodeArguments.losesName, Bool.and_eq_true, Bool.not_eq_true'] at hloses
    obtain ⟨⟨⟨⟨hcheck,rfl⟩,rfl⟩,rfl⟩,rfl⟩ := hloses
    cases nullNames with
    | true => rfl
    | false =>
      unfold rmwCreateNode at horder
      cases hargs : args.check with
      | error message =>
        rw [hargs] at hcheck
        cases hcheck
      | ok _ =>
        rw [hargs] at horder
        -- the fourth move releases the namespace
        obtain ⟨_,_,_,⟨hheld,_⟩,_⟩ := horder
        exact absurd hheld (by decide)
  · intro h
    rw [rmwCreateNode_eq h]
    exact (rmwCreateNode_orderly args fails ∅ (Estimate.fits_exact.mpr rfl)).1

end

/-! ### Calls and handles -/

/-- What the calls use of rmw and rmw_dds_common; `nullNames` is whether `rmw_node_allocate` hands out a node with null
names. -/
structure CreationEnvironment where
  nullNames : Bool
  time : RmwTimeFunctions
  validate : Text → RmwRet × Option Text
  adapt : Text → RmwQosProfile → Option RmwQosProfile
  update : RmwQosProfile → RmwQosProfile

/-- The arguments of a call that creates a handle, and what fails in it. -/
inductive Creation where
  | node (args : NodeArguments) (fails : NodeFailures)
  | publisher (strictlyRequired : Bool) (args : EndpointArguments) (endpointFails : EndpointFailures)
    (fails : HandleFailures)
  | subscription (ignoreLocalPublications strictlyRequired : Bool) (args : EndpointArguments)
    (endpointFails : EndpointFailures) (fails : HandleFailures)
  | client (args : ServiceArguments) (csFails : ServiceFailures) (fails : HandleFailures)
  | service (args : ServiceArguments) (csFails : ServiceFailures) (fails : HandleFailures)

def Creation.role : Creation → Role
  | node .. => .node
  | publisher .. => .publisher
  | subscription .. => .subscription
  | client .. => .client
  | service .. => .service

/-- The creation of a node that frees what stands for its namespace, before there is one. -/
def Creation.losesName : Creation → Bool
  | node args fails => args.losesName fails
  | _ => false

def Creation.call (env : CreationEnvironment) (undeleted : HandlePart → Bool) : Creation → HandleCall
  | node args fails => rmwCreateNode env.nullNames args fails
  | publisher strictlyRequired args endpointFails fails =>
    rmwCreatePublisher undeleted env.time env.validate env.adapt strictlyRequired args endpointFails fails
  | subscription ignoreLocalPublications strictlyRequired args endpointFails fails =>
    rmwCreateSubscription undeleted env.time env.validate env.adapt ignoreLocalPublications strictlyRequired args
      endpointFails fails
  | client args csFails fails => rmwCreateCs undeleted env.time env.validate env.update false args csFails fails
  | service args csFails fails => rmwCreateCs undeleted env.time env.validate env.update true args csFails fails

def Role.destroy (undeleted : HandlePart → Bool) (removed : RmwRet) : Role → List (Move HandlePart) × RmwRet
  | node => rmwDestroyNode removed
  | publisher => rmwDestroyPublisher undeleted removed
  | subscription => rmwDestroySubscription undeleted removed
  | client | service => rmwDestroyCs undeleted

/-- What is held for a handle; the moves that are left of a call that is under way, and whether the handle is there
after it; and whether it may be used. -/
structure HandleState where
  held : Finset HandlePart
  call : Option (List (Move HandlePart) × Bool)
  alive : Bool

/-- No call is under way and the handle may be used. -/
def HandleState.Ready (h : HandleState) : Prop := h.alive = true ∧ h.call = none

instance (h : HandleState) : Decidable h.Ready := inferInstanceAs (Decidable (h.alive = true ∧ h.call = none))

section
variable {Handle : Type} [DecidableEq Handle]

/-- The role of each handle, and the node that it is created on. -/
structure HandleLayout (Handle : Type) where
  role : Handle → Role
  node : Handle → Handle
  node_role : ∀ x, role (node x) = .node

/-- The handles that are there or on the way, and those for which there has been a call. -/
structure HandlesState (Handle : Type) where
  state : Handle → HandleState
  inUse : Finset Handle
  used : Finset Handle

inductive HandleStep (Handle : Type) where
  | create (x : Handle) (creation : Creation) (undeleted : HandlePart → Bool)
  | destroy (x : Handle) (undeleted : HandlePart → Bool) (removed : RmwRet)
  | move (x : Handle)
  | finish (x : Handle)

/-- No entity refuses to be deleted, and a node that loses its name has null names. -/
def HandleStep.Deletes (env : CreationEnvironment) : HandleStep Handle → Prop
  | create _ creation undeleted =>
    (∀ part, undeleted part = false) ∧ (creation.losesName = true → env.nullNames = true)
  | destroy _ undeleted _ => ∀ part, undeleted part = false
  | _ => True

namespace HandlesState

def initial : HandlesState Handle := ⟨fun _ => ⟨∅,none,false⟩,∅,∅⟩

def set (s : HandlesState Handle) (x : Handle) (h : HandleState) : HandlesState Handle :=
  {s with state := Function.update s.state x h}

variable (env : CreationEnvironment) (layout : HandleLayout Handle) (s : HandlesState Handle)

/-- An endpoint is created on a node that may be used. -/
def create (x : Handle) (creation : Creation) (undeleted : HandlePart → Bool) : Option (HandlesState Handle) :=
  let call := creation.call env undeleted
  if x ∉ s.used ∧ creation.role = layout.role x ∧ (layout.role x ≠ .node → (s.state (layout.node x)).Ready) then
    some {s.set x {s.state x with call := some (call.events,call.result.isOk)} with
      inUse := insert x s.inUse
      used := insert x s.used}
  else none

/-- A node is destroyed when none of its endpoints is left. -/
def destroy (x : Handle) (undeleted : HandlePart → Bool) (removed : RmwRet) : Option (HandlesState Handle) :=
  if (s.state x).Ready ∧ (layout.role x = .node → ∀ y ∈ s.inUse, layout.role y ≠ .node → layout.node y ≠ x) then
    some (s.set x {s.state x with
      alive := false
      call := some (((layout.role x).destroy undeleted removed).1,false)})
  else none

def move (x : Handle) : Option (HandlesState Handle) :=
  match (s.state x).call with
  | some (m :: moves,there) => some (s.set x {s.state x with
      held := m.apply (s.state x).held
      call := some (moves,there)})
  | _ => none

def finish (x : Handle) : Option (HandlesState Handle) :=
  match (s.state x).call with
  | some ([],there) => some {s.set x {s.state x with
      alive := there
      call := none} with
      inUse := if there then s.inUse else s.inUse.erase x}
  | _ => none

def next : HandleStep Handle → Option (HandlesState Handle)
  | .create x creation undeleted => s.create env layout x creation undeleted
  | .destroy x undeleted removed => s.destroy layout x undeleted removed
  | .move x => s.move x
  | .finish x => s.finish x

end HandlesState

/-- Every call on a handle takes its steps in turn with the calls on other handles. -/
def handleMachine (env : CreationEnvironment) (layout : HandleLayout Handle) :
    Machine (HandlesState Handle) (HandleStep Handle) :=
  ⟨.initial,HandlesState.next env layout⟩

/-! ### What holds between the steps -/

/-- A call that is under way moves in order, to a whole handle or to next to nothing; so it was with the last one. -/
private structure HandleState.Fine (role : Role) (h : HandleState) : Prop where
  provided : Provided role.needs h.held
  underWay : ∀ moves there, h.call = some (moves,there) → AllInOrder role.needs h.held moves ∧
    if there then moveAll h.held moves = role.parts else moveAll h.held moves ⊆ leftovers
  between : h.call = none → if h.alive then h.held = role.parts else h.held ⊆ leftovers

omit [DecidableEq Handle] in
private theorem HandlesState.fine_initial (layout : HandleLayout Handle) (x : Handle) :
    ((initial : HandlesState Handle).state x).Fine (layout.role x) :=
  ⟨fun _ h => absurd h (Finset.notMem_empty _),fun _ _ h => (by cases h),fun _ => Finset.empty_subset _⟩

/-- Every path through a creation is in order. -/
private theorem Creation.moves (env : CreationEnvironment) (creation : Creation) {undeleted : HandlePart → Bool}
    (hdeleted : ∀ part, undeleted part = false) (hnames : creation.losesName = true → env.nullNames = true) :
    let call := creation.call env undeleted
    AllInOrder creation.role.needs ∅ call.events ∧ if call.result.isOk then moveAll ∅ call.events = creation.role.parts
      else moveAll ∅ call.events ⊆ leftovers := by
  obtain rfl : undeleted = fun _ => false := funext hdeleted
  have horderly : ∃ stopped : Estimate HandlePart, stopped.most ⊆ leftovers ∧ Orderly creation.role.needs (.exact ∅)
      (creation.call env fun _ => false) stopped (.exact creation.role.parts) := by
    cases creation with
    | node args fails =>
      have horderly := rmwCreateNode_orderly args fails
      rw [← rmwCreateNode_eq hnames] at horderly
      exact ⟨_,Finset.empty_subset _,horderly⟩
    | publisher strictlyRequired args endpointFails fails =>
      exact ⟨_,subset_rfl,rmwCreatePublisher_orderly _ _ _ strictlyRequired args endpointFails fails⟩
    | subscription ignoreLocalPublications strictlyRequired args endpointFails fails =>
      exact ⟨_,subset_rfl,rmwCreateSubscription_orderly _ _ _ ignoreLocalPublications strictlyRequired args
        endpointFails fails⟩
    | client args csFails fails =>
      exact ⟨_,subset_rfl,rmwCreateCs_orderly _ _ (.inl rfl) env.update false args csFails fails⟩
    | service args csFails fails =>
      exact ⟨_,subset_rfl,rmwCreateCs_orderly _ _ (.inr rfl) env.update true args csFails fails⟩
  obtain ⟨stopped,hstopped,horderly⟩ := horderly
  obtain ⟨hmoves,hend⟩ := horderly ∅ (Estimate.fits_exact.mpr rfl)
  refine ⟨hmoves,?_⟩
  cases hresult : (creation.call env fun _ => false).result with
  | ok a =>
    rw [hresult] at hend
    exact Estimate.fits_exact.mp hend
  | error message =>
    rw [hresult] at hend
    exact hend.2.trans hstopped

private theorem Role.destroy_moves (role : Role) {undeleted : HandlePart → Bool}
    (hdeleted : ∀ part, undeleted part = false) (removed : RmwRet) :
    AllInOrder role.needs role.parts (role.destroy undeleted removed).1 ∧
      moveAll role.parts (role.destroy undeleted removed).1 = ∅ := by
  obtain rfl : undeleted = fun _ => false := funext hdeleted
  have hmoves : (role.destroy (fun _ => false) removed).1 = (role.destroy (fun _ => false) .ok).1 := by
    cases role <;> rfl
  have hallowed : (Estimate.exact role.parts).AllowsAll role.needs (role.destroy (fun _ => false) .ok).1 := by
    cases role <;> decide
  rw [hmoves]
  refine ⟨(hallowed.allInOrder (Estimate.fits_exact.mpr rfl)).1,?_⟩
  cases role <;> decide

variable {env : CreationEnvironment} {layout : HandleLayout Handle} {s s' : HandlesState Handle}

/-- The handles are fine one by one, and an endpoint that is in use has a node that nobody works on. -/
private structure HandlesState.Sound (layout : HandleLayout Handle) (s : HandlesState Handle) : Prop where
  fine : ∀ x, (s.state x).Fine (layout.role x)
  unused : ∀ x ∉ s.used, s.state x = ⟨∅,none,false⟩
  idle : ∀ x ∉ s.inUse, (s.state x).alive = false ∧ (s.state x).call = none
  based : ∀ x ∈ s.inUse, layout.role x ≠ .node → (s.state (layout.node x)).Ready

namespace HandlesState

@[simp] private theorem set_state (x y : Handle) (h : HandleState) :
    (s.set x h).state y = if y = x then h else s.state y := Function.update_apply _ _ _ _

private theorem Sound.fine_set (hs : s.Sound layout) {x : Handle} {h : HandleState} (hfine : h.Fine (layout.role x))
    (y : Handle) : ((s.set x h).state y).Fine (layout.role y) := by
  rw [set_state]
  split
  · next heq => exact heq ▸ hfine
  · exact hs.fine y

/-- Where nobody relies on a handle its state may change. -/
private theorem Sound.based_set (hs : s.Sound layout) {x : Handle} {h : HandleState}
    (hx : ∀ y ∈ s.inUse, layout.role y ≠ .node → layout.node y ≠ x) {y : Handle} (hy : y ∈ s.inUse)
    (hrole : layout.role y ≠ .node) : ((s.set x h).state (layout.node y)).Ready := by
  rw [set_state, if_neg (hx y hy hrole)]
  exact hs.based y hy hrole

omit [DecidableEq Handle] in
/-- Nobody relies on a handle that is not ready. -/
private theorem Sound.not_based (hs : s.Sound layout) {x : Handle} (hx : ¬(s.state x).Ready) {y : Handle}
    (hy : y ∈ s.inUse) (hrole : layout.role y ≠ .node) : layout.node y ≠ x :=
  fun heq => hx (heq ▸ hs.based y hy hrole)

omit [DecidableEq Handle] in
private theorem Sound.busy (hs : s.Sound layout) {x : Handle} {call : List (Move HandlePart) × Bool}
    (hcall : (s.state x).call = some call) : ¬(s.state x).Ready ∧ x ∈ s.inUse ∧ x ∈ s.used := by
  refine ⟨fun hready => ?_,?_,?_⟩
  · rw [hready.2] at hcall
    cases hcall
  · by_contra hx
    rw [(hs.idle x hx).2] at hcall
    cases hcall
  · by_contra hx
    rw [hs.unused x hx] at hcall
    cases hcall

private theorem Sound.unused_set (hs : s.Sound layout) {x : Handle} (hused : x ∈ s.used) {h : HandleState} {y : Handle}
    (hy : y ∉ s.used) : (s.set x h).state y = ⟨∅,none,false⟩ := by
  have hne : y ≠ x := fun heq => hy (heq ▸ hused)
  rw [set_state, if_neg hne]
  exact hs.unused y hy

private theorem Sound.create (hs : s.Sound layout) {x : Handle} {creation : Creation} {undeleted : HandlePart → Bool}
    (hdeleted : ∀ part, undeleted part = false) (hnames : creation.losesName = true → env.nullNames = true)
    (h : s.create env layout x creation undeleted = some s') : s'.Sound layout := by
  unfold HandlesState.create at h
  split at h
  · next henabled =>
    cases h
    obtain ⟨hfresh,hrole,hnode⟩ := henabled
    have hunused := hs.unused x hfresh
    have hnotready : ¬(s.state x).Ready := by
      rw [hunused]
      rintro ⟨halive,_⟩
      cases halive
    refine ⟨hs.fine_set ⟨?_,?_,?_⟩,?_,?_,?_⟩
    · exact (hs.fine x).provided
    · rintro moves there hcall
      cases hcall
      rw [hunused, ← hrole]
      exact creation.moves env hdeleted hnames
    · intro hcall
      cases hcall
    · intro y hy
      obtain ⟨hne,hy⟩ := not_or.mp (fun h => hy (Finset.mem_insert.mpr h))
      exact (set_state x y _).trans ((if_neg hne).trans (hs.unused y hy))
    · intro y hy
      obtain ⟨hne,hy⟩ := not_or.mp (fun h => hy (Finset.mem_insert.mpr h))
      show ((s.set x _).state y).alive = false ∧ _
      rw [set_state, if_neg hne]
      exact hs.idle y hy
    · intro y hy hrole'
      rcases Finset.mem_insert.mp hy with rfl | hy
      · have hne : layout.node y ≠ y := fun heq => hrole' (heq ▸ layout.node_role y)
        show ((s.set y _).state (layout.node y)).Ready
        rw [set_state, if_neg hne]
        exact hnode hrole'
      · exact hs.based_set (fun z => hs.not_based hnotready) hy hrole'
  · cases h

private theorem Sound.destroy (hs : s.Sound layout) {x : Handle} {undeleted : HandlePart → Bool} {removed : RmwRet}
    (hdeleted : ∀ part, undeleted part = false) (h : s.destroy layout x undeleted removed = some s') :
    s'.Sound layout := by
  unfold HandlesState.destroy at h
  split at h
  · next henabled =>
    cases h
    obtain ⟨⟨halive,hcall⟩,hendpoints⟩ := henabled
    have hheld := (hs.fine x).between hcall
    rw [halive, if_pos rfl] at hheld
    have hinUse : x ∈ s.inUse := by
      by_contra hx
      rw [(hs.idle x hx).1] at halive
      cases halive
    have hused : x ∈ s.used := by
      by_contra hx
      rw [hs.unused x hx] at halive
      cases halive
    refine ⟨hs.fine_set ⟨?_,?_,?_⟩,?_,?_,?_⟩
    · exact (hs.fine x).provided
    · rintro moves there hmoves
      cases hmoves
      obtain ⟨horder,hend⟩ := (layout.role x).destroy_moves hdeleted removed
      show AllInOrder _ (s.state x).held _ ∧ moveAll (s.state x).held _ ⊆ leftovers
      rw [hheld, hend]
      exact ⟨horder,Finset.empty_subset _⟩
    · intro hcall
      cases hcall
    · exact fun y => hs.unused_set hused
    · intro y hy
      have hne : y ≠ x := fun heq => hy (heq ▸ hinUse)
      show ((s.set x _).state y).alive = false ∧ _
      rw [set_state, if_neg hne]
      exact hs.idle y hy
    · intro y hy hrole
      refine hs.based_set (fun z hz hzrole heq => ?_) hy hrole
      by_cases hx : layout.role x = .node
      · exact hendpoints hx z hz hzrole heq
      · exact hx (heq ▸ layout.node_role z)
  · cases h

private theorem Sound.move (hs : s.Sound layout) {x : Handle} (h : s.move x = some s') : s'.Sound layout := by
  unfold HandlesState.move at h
  split at h
  · next m moves there hcall =>
    cases h
    obtain ⟨⟨horder,hmoves⟩,hend⟩ := (hs.fine x).underWay _ _ hcall
    obtain ⟨hnotready,hinUse,hused⟩ := hs.busy hcall
    refine ⟨hs.fine_set ⟨?_,?_,?_⟩,?_,?_,?_⟩
    · exact horder.provided (hs.fine x).provided
    · rintro moves' there' hcall'
      cases hcall'
      exact ⟨hmoves,hend⟩
    · intro hcall'
      cases hcall'
    · exact fun y => hs.unused_set hused
    · intro y hy
      have hne : y ≠ x := fun heq => hy (heq ▸ hinUse)
      rw [set_state, if_neg hne]
      exact hs.idle y hy
    · intro y hy hrole
      exact hs.based_set (fun z => hs.not_based hnotready) hy hrole
  · cases h

private theorem Sound.finish (hs : s.Sound layout) {x : Handle} (h : s.finish x = some s') : s'.Sound layout := by
  unfold HandlesState.finish at h
  split at h
  · next there hcall =>
    cases h
    obtain ⟨_,hend⟩ := (hs.fine x).underWay _ _ hcall
    obtain ⟨hnotready,hinUse,hused⟩ := hs.busy hcall
    refine ⟨hs.fine_set ⟨?_,?_,?_⟩,?_,?_,?_⟩
    · exact (hs.fine x).provided
    · intro moves' there' hcall'
      cases hcall'
    · intro _
      exact hend
    · exact fun y => hs.unused_set hused
    · intro y hy
      show ((s.set x _).state y).alive = false ∧ ((s.set x _).state y).call = none
      rw [set_state]
      cases there with
      | true =>
        have hne : y ≠ x := fun heq => hy (heq ▸ hinUse)
        rw [if_neg hne]
        exact hs.idle y hy
      | false =>
        split
        · exact ⟨rfl,rfl⟩
        · next hne => exact hs.idle y fun hmem => hy (Finset.mem_erase.mpr ⟨hne,hmem⟩)
    · intro y hy hrole
      refine hs.based_set (fun z => hs.not_based hnotready) ?_ hrole
      cases there with
      | true => exact hy
      | false => exact Finset.mem_of_mem_erase hy
  · cases h

private theorem Sound.next (hs : s.Sound layout) {step : HandleStep Handle} (hdeletes : step.Deletes env)
    (h : s.next env layout step = some s') : s'.Sound layout := by
  cases step with
  | create x creation undeleted => exact hs.create hdeletes.1 hdeletes.2 h
  | destroy x undeleted removed => exact hs.destroy hdeletes h
  | move x => exact hs.move h
  | finish x => exact hs.finish h

omit [DecidableEq Handle] in
private theorem Sound.initial : (HandlesState.initial : HandlesState Handle).Sound layout where
  fine := fine_initial layout
  unused _ _ := rfl
  idle _ _ := ⟨rfl,rfl⟩
  based x hx := absurd hx (Finset.notMem_empty x)

private theorem needsOfNode_parts (role : Role) (part : HandlePart) : role.needsOfNode part ⊆ Role.node.parts := by
  cases role <;> cases part <;> decide +revert

private theorem needsOfNode_leftovers (role : Role) : ∀ part ∈ leftovers, role.needsOfNode part = ∅ := by
  decide +revert

omit [DecidableEq Handle] in
/-- The node of what is held for an endpoint holds what that needs of it. -/
private theorem Sound.needsOfNode (hs : s.Sound layout) {x : Handle} {part : HandlePart}
    (hpart : part ∈ (s.state x).held) :
    (layout.role x).needsOfNode part ⊆ (s.state (layout.node x)).held := by
  by_cases hrole : layout.role x = .node
  · rw [hrole]
    exact Finset.empty_subset _
  by_cases hx : x ∈ s.inUse
  · obtain ⟨halive,hcall⟩ := hs.based x hx hrole
    have hheld := (hs.fine (layout.node x)).between hcall
    rw [halive, if_pos rfl, layout.node_role] at hheld
    rw [hheld]
    exact needsOfNode_parts _ _
  · obtain ⟨halive,hcall⟩ := hs.idle x hx
    have hheld := (hs.fine x).between hcall
    rw [halive, if_neg Bool.false_ne_true] at hheld
    rw [needsOfNode_leftovers _ part (hheld hpart)]
    exact Finset.empty_subset _

end HandlesState

/-- Whatever calls interleave, each part is acquired after and released before what it needs, at its handle and at the
node; a handle is whole between calls, and one that is gone leaves at most what its failed creation leaves. -/
theorem handles_inOrder {steps : List (HandleStep Handle)} (h : (handleMachine env layout).run steps = some s)
    (hdeletes : ∀ step ∈ steps, step.Deletes env) (x : Handle) :
    Provided (layout.role x).needs (s.state x).held ∧
    (∀ part ∈ (s.state x).held, (layout.role x).needsOfNode part ⊆ (s.state (layout.node x)).held) ∧
    (∀ m moves there, (s.state x).call = some (m :: moves,there) → m.InOrder (layout.role x).needs (s.state x).held) ∧
    ((s.state x).call = none → if (s.state x).alive then (s.state x).held = (layout.role x).parts
      else (s.state x).held ⊆ leftovers) := by
  have hsound : s.Sound layout := by
    induction h using Machine.run_induction with
    | start => exact .initial
    | step _ hl ih =>
      have hlast := hdeletes _ (List.mem_append_right _ (List.mem_singleton_self _))
      exact (ih fun step hstep => hdeletes step (List.mem_append_left _ hstep)).next hlast hl
  have hfine := hsound.fine x
  refine ⟨hfine.provided,fun part => hsound.needsOfNode,?_,hfine.between⟩
  intro m moves there hcall
  exact (hfine.underWay _ _ hcall).1.1

end

/-- A node, and a publisher on it. -/
def nodeAndPublisher : HandleLayout Bool := ⟨fun x => if x then .publisher else .node,fun _ => false,fun _ => rfl⟩

/-- Every name is valid, and every profile is taken as it is; the memory of a node is as it was. -/
def lenientEnvironment : CreationEnvironment where
  nullNames := false
  time := saturatingTime
  validate _ := (.ok,none)
  adapt _ qosPolicies := some qosPolicies
  update := id

def reliableProfile : RmwQosProfile :=
  ⟨.keepLast,10,.reliable,.volatile,.unspecified,.unspecified,.automatic,.unspecified,false⟩

/-- A node is created, then a publisher on it. -/
def createBoth : List (HandleStep Bool) :=
  .create false (.node ⟨false,(.ok,none),(.ok,none)⟩ ⟨false,false,false,false,false,false⟩) (fun _ => false) ::
    List.replicate 6 (.move false) ++ .finish false ::
    .create true (.publisher false ⟨some "chatter".toList,some reliableProfile,some "String".toList,none⟩
      ⟨none,false,false,fun _ => false⟩ ⟨false,false,false⟩) (fun _ => false) :: List.replicate 13 (.move true) ++
    [.finish true]

theorem createBoth_inOrder : ∃ s, (handleMachine lenientEnvironment nodeAndPublisher).run createBoth = some s ∧
    (s.state true).held = Role.publisher.parts := by
  have hrun : (handleMachine lenientEnvironment nodeAndPublisher).run createBoth = some _ := rfl
  refine ⟨_,hrun,(handles_inOrder hrun ?_ true).2.2.2 rfl⟩
  simp [createBoth, HandleStep.Deletes, Creation.losesName, NodeArguments.losesName]

end RmwCyclonedds
