import Mathlib.Data.Fintype.Defs
import RmwCyclonedds.Library.Holdings
import RmwCyclonedds.Node.EndpointCreation

/-! The handles of nodes, publishers, subscriptions, clients and services: what is acquired and released, call by call,
when they are created and destroyed. -/
namespace RmwCyclonedds
open Library

inductive Side where
  | pub
  | sub
  deriving DecidableEq

instance : Fintype Side := ⟨{.pub,.sub},fun side => by cases side <;> decide⟩

/-- What makes up a handle, and what is held only while it is created. -/
inductive HandlePart where
  /-- The share of a node in the participant of its context. -/
  | participation
  /-- The object that `data` of the handle points to, with the data for the callbacks of its listeners. -/
  | data
  /-- The `CddsPublisher` or `CddsSubscription` of a client or a service. -/
  | cdds (side : Side)
  | sertype (side : Side)
  | topic (side : Side)
  | listener
  | qos (side : Side)
  /-- The writer or the reader. -/
  | enth (side : Side)
  | rdcondh
  | handle
  | name
  | namespace_
  /-- The entry in the graph, made by `add_node_graph`, `add_publisher_graph` and so on. -/
  | association
  deriving DecidableEq

inductive Role where
  | node
  | publisher
  | subscription
  | client
  | service
  deriving DecidableEq

instance : Fintype Role := ⟨{.node,.publisher,.subscription,.client,.service},fun role => by cases role <;> decide⟩

/-- What a part relies on: listeners call with a pointer into `data`, a condition belongs to its reader, and the graph
names endpoints that are there. -/
def Role.needs (role : Role) : HandlePart → Finset HandlePart
  | .enth _ => {.data}
  | .rdcondh => {.enth .sub}
  | .name | .namespace_ => {.handle}
  | .association =>
    match role with
    | .node => {.participation}
    | .publisher => {.enth .pub}
    | .subscription => {.enth .sub}
    | .client | .service => {.cdds .pub,.cdds .sub,.enth .pub,.enth .sub}
  | _ => ∅

/-- What a part of an endpoint relies on at its node. -/
def Role.needsOfNode : Role → HandlePart → Finset HandlePart
  | .node, _ => ∅
  | _, .topic _ | _, .enth _ | _, .rdcondh => {.participation}
  | _, .association => {.association}
  | _, _ => ∅

/-- What a handle consists of. -/
def Role.parts : Role → Finset HandlePart
  | .node => {.participation,.data,.handle,.name,.namespace_,.association}
  | .publisher => {.data,.enth .pub,.handle,.name,.association}
  | .subscription => {.data,.enth .sub,.rdcondh,.handle,.name,.association}
  | .client | .service =>
    {.data,.cdds .pub,.cdds .sub,.enth .pub,.enth .sub,.rdcondh,.handle,.name,.association}

/-- A call that may stop, with the message that it sets. -/
abbrev HandleCall := Traced (Move HandlePart) (Option Text) Unit

section
variable (undeleted : HandlePart → Bool)

/-- Deleting an entity has no effect if that fails. -/
def ddsDelete (entity : HandlePart) : List (Move HandlePart) := if undeleted entity then [] else [.release entity]

/-- A part is acquired, or the call stops. -/
def attempt {σ : Type} (fails : Bool) (stop : σ) (part : HandlePart) : Traced (Move HandlePart) σ Unit :=
  if fails then .quiet (.error stop) else .note (.acquire part)

def checkTopic (failure : Option TopicFailure) (topicName : Text) : Except (Option Text) Unit :=
  match failure with
  | some code => .error (some (errorMessageFromCreateTopic code topicName))
  | none => .ok ()

variable (time : RmwTimeFunctions)

/-! ### Publishers and subscriptions -/

/-- The profile that is refused for its depth leaves no object. -/
def acquireQos (side : Side) (qosPolicies : RmwQosProfile) (typehash : Option Text) (ignoreLocalPublications : Bool)
    (extraUserData : Text) : HandleCall := do
  .note (.acquire (.qos side))
  match readwriteQos time qosPolicies typehash ignoreLocalPublications extraUserData with
  | .ok _ => .quiet (.ok ())
  | .error .depth =>
    .note (.release (.qos side))
    .quiet (.error (some "unsupported history depth".toList))
  | .error _ => .quiet (.error none)

/-- The writer, or the reader with its condition. -/
def enthParts (side : Side) (lastMakesEntity : Bool) : Finset HandlePart :=
  if lastMakesEntity then {.enth side,.rdcondh} else {.enth side}

/-- The creation of the endpoint, and the call after that. -/
def acquireEnth (side : Side) (lastMakesEntity : Bool) (endpointMessage lastMessage : Text) (fails : EndpointFailures) :
    HandleCall := do
  attempt fails.endpoint (some endpointMessage) (.enth side)
  .scopeExit (ddsDelete undeleted (.enth side)) do
    .quiet (if fails.last then .error (some lastMessage) else .ok ())
    .noteAll (if lastMakesEntity then [.acquire .rdcondh] else [])

/-- `createEndpoint` with the object for the endpoint, step by step. -/
def acquireEndpoint (side : Side) (lastMakesEntity ignoreLocalPublications : Bool) (endpointMessage lastMessage : Text)
    (args : EndpointArguments) (fails : EndpointFailures) : HandleCall := do
  let (topicName,qosPolicies) ← .quiet args.check
  let fqtopicName := makeFqtopic rosTopicPrefix topicName [] qosPolicies.avoidRosNamespaceConventions
  .note (.acquire .data)
  .scopeExit [.release .data] do
    .noteAll [.acquire (.sertype side),.release (.sertype side)]
    -- the listener is there before the topic is looked at
    .noteAll ((if fails.topic = none then [.acquire (.topic side)] else []) ++ [.acquire .listener])
    .quiet (checkTopic fails.topic fqtopicName)
    .scopeExit (ddsDelete undeleted (.topic side)) do
      acquireQos time side qosPolicies args.typehash ignoreLocalPublications []
      .scopeExit [.release (.qos side)] (acquireEnth undeleted side lastMakesEntity endpointMessage lastMessage fails)
    .noteAll ([.release .listener,.release (.qos side)] ++ ddsDelete undeleted (.topic side))

def acquireCddsPublisher (args : EndpointArguments) (fails : EndpointFailures) : HandleCall :=
  acquireEndpoint undeleted time .pub false false "failed to create writer".toList
    "failed to get instance handle for writer".toList args fails

def acquireCddsSubscription (ignoreLocalPublications : Bool) (args : EndpointArguments) (fails : EndpointFailures) :
    HandleCall :=
  acquireEndpoint undeleted time .sub true ignoreLocalPublications "failed to create reader".toList
    "failed to create readcondition".toList args fails

/-- What else fails in making a handle: the two allocations, and the entry in the graph. -/
structure HandleFailures where
  handle : Bool
  name : Bool
  association : Bool

/-- `create_publisher` and `create_subscription`: the handle around the endpoint, which `cleanup` deletes. -/
def acquireHandle (endpoint : HandleCall) (cleanup : List (Move HandlePart)) (handleMessage nameMessage : Text)
    (fails : HandleFailures) : HandleCall := do
  endpoint
  .scopeExit (cleanup ++ [.release .data]) do
    attempt fails.handle (some handleMessage) .handle
    -- only the handle is there to be freed: the name is the last thing that can fail
    .scopeExit [.release .handle] do
      attempt fails.name (some nameMessage) .name

/-- The moves of `destroy_publisher` and `destroy_subscription` on the entities in the order they are deleted, and
whether all are deleted. -/
def HandlePart.destroyEndpoint (entities : List HandlePart) : List (Move HandlePart) × RmwRet :=
  (entities.flatMap (ddsDelete undeleted) ++ [.release .data,.release .name,.release .handle],
    if entities.any undeleted then .error else .ok)

def HandlePart.destroyPublisher : List (Move HandlePart) × RmwRet := destroyEndpoint undeleted [.enth .pub]

def HandlePart.destroySubscription : List (Move HandlePart) × RmwRet :=
  destroyEndpoint undeleted [.rdcondh,.enth .sub]

/-- The arguments as `rmw_create_publisher` and `rmw_create_subscription` check them and settle on a profile. -/
def EndpointArguments.settle (validate : Text → RmwRet × Option Text)
    (adapt : Text → RmwQosProfile → Option RmwQosProfile) (strictlyRequired : Bool) (invalid strict : Text)
    (args : EndpointArguments) : Except (Option Text) EndpointArguments :=
  match args.topicName with
  | none => .error (some "topic_name argument is null".toList)
  | some [] => .error (some "topic_name argument is an empty string".toList)
  | some topicName =>
    match args.qosPolicies with
    | none => .error (some "qos_policies argument is null".toList)
    | some qosPolicies =>
      let validation := if qosPolicies.avoidRosNamespaceConventions then (.ok,none) else validate topicName
      if validation.1 ≠ .ok then .error none else
      match validation.2 with
      | some reason => .error (some (invalid ++ reason))
      | none =>
        match adapt topicName qosPolicies with
        | none => .error none
        | some adapted => if strictlyRequired then .error (some strict) else .ok {args with qosPolicies := some adapted}

variable (validate : Text → RmwRet × Option Text) (adapt : Text → RmwQosProfile → Option RmwQosProfile)

def rmwCreatePublisher (strictlyRequired : Bool) (args : EndpointArguments) (endpointFails : EndpointFailures)
    (fails : HandleFailures) : HandleCall := do
  let args ← .quiet (args.settle validate adapt strictlyRequired "invalid topic name: ".toList
    "Strict requirement on unique network flow endpoints for publishers not supported".toList)
  acquireHandle (acquireCddsPublisher undeleted time args endpointFails) (ddsDelete undeleted (.enth .pub))
    "failed to allocate rmw_publisher".toList "failed to allocate rmw_publisher->topic_name".toList fails
  .scopeExit (HandlePart.destroyPublisher undeleted).1 do
    attempt fails.association none .association

def rmwCreateSubscription (ignoreLocalPublications strictlyRequired : Bool) (args : EndpointArguments)
    (endpointFails : EndpointFailures) (fails : HandleFailures) : HandleCall := do
  let args ← .quiet (args.settle validate adapt strictlyRequired "invalid topic_name argument: ".toList
    "Strict requirement on unique network flow endpoints for subscriptions not supported".toList)
  acquireHandle (acquireCddsSubscription undeleted time ignoreLocalPublications args endpointFails)
    (ddsDelete undeleted .rdcondh ++ ddsDelete undeleted (.enth .sub))
    "failed to allocate rmw_subscription".toList "failed to allocate rmw_subscription->topic_name".toList fails
  .scopeExit (HandlePart.destroySubscription undeleted).1 do
    attempt fails.association none .association

/-- The entry in the graph is gone even where that cannot be announced; `removed` is what comes of it. -/
def rmwDestroyPublisher (removed : RmwRet) : List (Move HandlePart) × RmwRet :=
  let (moves,innerRet) := HandlePart.destroyPublisher undeleted
  (.release .association :: moves,if removed ≠ .ok then removed else innerRet)

def rmwDestroySubscription (removed : RmwRet) : List (Move HandlePart) × RmwRet :=
  let (moves,localRet) := HandlePart.destroySubscription undeleted
  (.release .association :: moves,if localRet ≠ .ok then localRet else removed)

/-! ### Clients and services -/

/-- The writer, the reader and its condition of `rmw_init_cs`. -/
def acquireCsEndpoints (fails : ServiceFailures) : Traced (Move HandlePart) (RmwRet × Option Text) Unit := do
  attempt fails.writer (.error,some "failed to create writer".toList) (.enth .pub)
  .scopeExit (ddsDelete undeleted (.enth .pub)) do
    attempt fails.reader (.error,some "failed to create reader".toList) (.enth .sub)
    .scopeExit (ddsDelete undeleted (.enth .sub)) do
      attempt fails.readcond (.error,some "failed to create readcondition".toList) .rdcondh
      .scopeExit (ddsDelete undeleted .rdcondh) (.quiet (if fails.instanceHandle then
        .error (.error,some "failed to get instance handle for writer".toList) else .ok ()))

/-- `rmwInitCs` with the objects for its endpoints, step by step; it stops with its result and a message. -/
def acquireCs (isService : Bool) (args : ServiceArguments) (fails : ServiceFailures) :
    Traced (Move HandlePart) (RmwRet × Option Text) Unit := do
  let (serviceName,qosPolicies) ← .quiet (args.check validate)
  let requestTopicName := makeFqtopic rosServiceRequesterPrefix serviceName "Request".toList
    qosPolicies.avoidRosNamespaceConventions
  let replyTopicName := makeFqtopic rosServiceResponsePrefix serviceName "Reply".toList
    qosPolicies.avoidRosNamespaceConventions
  let (pubtopicName,subtopicName) := if isService then (replyTopicName,requestTopicName)
    else (requestTopicName,replyTopicName)
  let (pubHash,subHash) := if isService then (args.responseHash,args.requestHash)
    else (args.requestHash,args.responseHash)
  let userData := (if isService then "serviceid=".toList else "clientid=".toList) ++ args.csid ++ ";".toList ++
    args.serviceHash.getD []
  .noteAll [.acquire (.cdds .pub),.acquire (.cdds .sub)]
  .scopeExit [.release (.cdds .sub),.release (.cdds .pub)] do
    .noteAll [.acquire .listener,.acquire (.sertype .pub),.acquire (.sertype .sub),.release (.sertype .pub)]
    .quiet ((checkTopic fails.pubtopic pubtopicName).mapError (RmwRet.error,·))
    .note (.acquire (.topic .pub))
    .scopeExit (ddsDelete undeleted (.topic .pub)) do
      .note (.release (.sertype .sub))
      .quiet ((checkTopic fails.subtopic subtopicName).mapError (RmwRet.error,·))
      .note (.acquire (.topic .sub))
      .scopeExit (ddsDelete undeleted (.topic .sub)) do
        (acquireQos time .pub qosPolicies pubHash false userData).mapStop (RmwRet.error,·)
        .scopeExit [.release (.qos .pub)] do
          (acquireQos time .sub qosPolicies subHash false userData).mapStop (RmwRet.error,·)
          .scopeExit [.release (.qos .sub)] (acquireCsEndpoints undeleted fails)
    .noteAll ([.release .listener,.release (.qos .pub),.release (.qos .sub)] ++ ddsDelete undeleted (.topic .sub) ++
      ddsDelete undeleted (.topic .pub))

def rmwFiniCs : List (Move HandlePart) :=
  ddsDelete undeleted .rdcondh ++ ddsDelete undeleted (.enth .sub) ++ ddsDelete undeleted (.enth .pub)

/-- `rmw_create_client` and `rmw_create_service`; `update` is `qos_profile_update_best_available_for_services`. -/
def rmwCreateCs (update : RmwQosProfile → RmwQosProfile) (isService : Bool) (args : ServiceArguments)
    (csFails : ServiceFailures) (fails : HandleFailures) : HandleCall := do
  let qosPolicies ← .quiet (args.qosPolicies.elim (.error (some "qos_policies argument is null".toList)) .ok)
  .note (.acquire .data)
  .scopeExit [.release .data] do
    (acquireCs undeleted time validate isService {args with qosPolicies := some (update qosPolicies)} csFails).mapStop
      Prod.snd
    -- the objects for the endpoints are deleted with the object that they are in
    .scopeExit (rmwFiniCs undeleted ++ [.release (.cdds .sub),.release (.cdds .pub)]) do
      attempt fails.handle none .handle
      .scopeExit [.release .handle] do
        attempt fails.name none .name
        .scopeExit [.release .name] do
          attempt fails.association none .association

/-- `rmw_destroy_client` and `rmw_destroy_service`, which report nothing. -/
def rmwDestroyCs : List (Move HandlePart) × RmwRet :=
  (.release .association :: rmwFiniCs undeleted ++
    [.release (.cdds .sub),.release (.cdds .pub),.release .data,.release .name,.release .handle],.ok)

end

/-! ### Nodes -/

/-- The node name and the namespace, as `rmw_validate_node_name` and `rmw_validate_namespace` find them. -/
structure NodeArguments where
  isShutdown : Bool
  name : RmwRet × Option Text
  namespace_ : RmwRet × Option Text

def NodeArguments.check (args : NodeArguments) : Except (Option Text) Unit :=
  if args.isShutdown then .error (some "context has been shutdown".toList) else
  if args.name.1 ≠ .ok then .error none else
  match args.name.2 with
  | some reason => .error (some ("invalid node name: ".toList ++ reason))
  | none =>
    if args.namespace_.1 ≠ .ok then .error none else
    match args.namespace_.2 with
    | some reason => .error (some ("invalid node namespace: ".toList ++ reason))
    | none => .ok ()

/-- What fails in making a node: `init` of its context, the four allocations, and the entry in the graph. -/
structure NodeFailures where
  init : Bool
  nodeImpl : Bool
  node : Bool
  name : Bool
  namespace_ : Bool
  association : Bool

/-- The name is refused to a node that is there. -/
def NodeArguments.losesName (args : NodeArguments) (fails : NodeFailures) : Bool :=
  args.check.isOk && !fails.init && !fails.nodeImpl && !fails.node && fails.name

/-- The cleanup frees both names. Without the name the namespace is what `rmw_node_allocate` leaves there, which is no
string, and null if `nullNames`. -/
def rmwCreateNode (nullNames : Bool) (args : NodeArguments) (fails : NodeFailures) : HandleCall := do
  .quiet args.check
  attempt fails.init none .participation
  .scopeExit [.release .participation] do
    attempt fails.nodeImpl (some "failed to allocate node_impl".toList) .data
    .scopeExit [.release .data] do
      attempt fails.node (some "failed to allocate node".toList) .handle
      .scopeExit [.release .handle] do
        -- the name is null where it is refused, and freeing that has no effect
        .scopeExit (if nullNames then [] else [.release .namespace_])
          (attempt fails.name (some "failed to allocate node->name".toList) .name)
        .scopeExit [.release .name]
          (attempt fails.namespace_ (some "failed to allocate node->namespace_".toList) .namespace_)
        .scopeExit [.release .name,.release .namespace_] (attempt fails.association none .association)

def rmwDestroyNode (removed : RmwRet) : List (Move HandlePart) × RmwRet :=
  ([.release .association,.release .name,.release .namespace_,.release .handle,.release .data,.release .participation],
    removed)

/-! ### The same outcome as in one step -/

section
variable (undeleted : HandlePart → Bool) (time : RmwTimeFunctions)

private theorem attempt_result {σ : Type} (fails : Bool) (stop : σ) (part : HandlePart) :
    (attempt fails stop part).result = if fails then .error stop else .ok () := by
  cases fails <;> rfl

private theorem acquireQos_result (side : Side) (qosPolicies : RmwQosProfile) (typehash : Option Text)
    (ignoreLocalPublications : Bool) (extraUserData : Text) :
    (acquireQos time side qosPolicies typehash ignoreLocalPublications extraUserData).result =
      match readwriteQos time qosPolicies typehash ignoreLocalPublications extraUserData with
      | .ok _ => .ok ()
      | .error .depth => .error (some "unsupported history depth".toList)
      | .error _ => .error none := by
  unfold acquireQos
  cases readwriteQos time qosPolicies typehash ignoreLocalPublications extraUserData with
  | ok value => rfl
  | error refusal => cases refusal <;> rfl

private theorem ok_andThen {σ α β : Type} (a : α) (f : α → Except σ β) : (Except.ok a >>= f) = f a := rfl

/-- The same calls fail, with the same messages. -/
theorem acquireEndpoint_result (side : Side) (lastMakesEntity ignoreLocalPublications : Bool)
    (endpointMessage lastMessage : Text) (args : EndpointArguments) (fails : EndpointFailures)
    (l : Ledger ResourceKind) :
    let created := createEndpoint time lastMakesEntity ignoreLocalPublications endpointMessage lastMessage args fails l
    (acquireEndpoint undeleted time side lastMakesEntity ignoreLocalPublications endpointMessage lastMessage args
        fails).result = match created.entity with
      | some _ => .ok ()
      | none => .error created.message := by
  intro created
  simp only [created, acquireEndpoint, createEndpoint, acquireEnth]
  cases args.check with
  | error message => rfl
  | ok checked =>
    obtain ⟨topicName,qosPolicies⟩ := checked
    cases htopic : fails.topic with
    | some code => rfl
    | none =>
      simp only [Traced.result_bind, Traced.result_scopeExit, Traced.result_quiet, Traced.result_note,
        Traced.result_noteAll, attempt_result, acquireQos_result, checkTopic, createTopic, createReadwriteQos,
        ok_andThen]
      cases readwriteQos time qosPolicies args.typehash ignoreLocalPublications [] with
      | error refusal => cases refusal <;> rfl
      | ok value => cases fails.endpoint <;> cases fails.last <;> rfl

private theorem acquireCsEndpoints_result (fails : ServiceFailures) : (acquireCsEndpoints undeleted fails).result =
    if fails.writer then .error (.error,some "failed to create writer".toList) else
    if fails.reader then .error (.error,some "failed to create reader".toList) else
    if fails.readcond then .error (.error,some "failed to create readcondition".toList) else
    if fails.instanceHandle then .error (.error,some "failed to get instance handle for writer".toList)
    else .ok () := by
  simp only [acquireCsEndpoints, Traced.result_bind, Traced.result_scopeExit, Traced.result_quiet, attempt_result]
  cases fails.writer <;> cases fails.reader <;> cases fails.readcond <;> rfl

theorem acquireCs_result (validate : Text → RmwRet × Option Text) (isService : Bool) (args : ServiceArguments)
    (fails : ServiceFailures) (l : Ledger ResourceKind) :
    let created := rmwInitCs time validate isService args fails l
    let result := (acquireCs undeleted time validate isService args fails).result
    (result = .ok () ∧ created.ret = .ok) ∨ result = .error (created.ret,created.message) := by
  intro created result
  simp only [created, result, acquireCs, rmwInitCs]
  cases args.check validate with
  | error refused => exact .inr rfl
  | ok checked =>
    obtain ⟨serviceName,qosPolicies⟩ := checked
    simp only [Traced.result_bind, Traced.result_scopeExit, Traced.result_quiet, Traced.result_note,
      Traced.result_noteAll, Traced.result_mapStop, acquireQos_result, checkTopic, createTopic, createReadwriteQos,
      ok_andThen, acquireCsEndpoints_result]
    generalize (if isService = true then (args.responseHash,args.requestHash)
      else (args.requestHash,args.responseHash)) = hashes
    generalize (if isService = true then "serviceid=".toList else "clientid=".toList) ++ args.csid ++ ";".toList ++
      args.serviceHash.getD [] = userData
    cases fails.pubtopic with
    | some code => exact .inr rfl
    | none =>
      cases fails.subtopic with
      | some code => exact .inr rfl
      | none =>
        cases readwriteQos time qosPolicies hashes.1 false userData with
        | error refusal => cases refusal <;> exact .inr rfl
        | ok pubQos =>
          cases readwriteQos time qosPolicies hashes.2 false userData with
          | error refusal => cases refusal <;> exact .inr rfl
          | ok subQos =>
            cases fails.writer with
            | true => exact .inr rfl
            | false =>
              cases fails.reader with
              | true => exact .inr rfl
              | false =>
                cases fails.readcond with
                | true => exact .inr rfl
                | false =>
                  cases fails.instanceHandle with
                  | true => exact .inr rfl
                  | false => exact .inl ⟨rfl,rfl⟩

end

end RmwCyclonedds
