import RmwCyclonedds.Library.Ledger
import RmwCyclonedds.Names.Demangle
import RmwCyclonedds.Node.Qos

/-! What publishers, subscriptions, clients and services acquire when they are created, and what is left of it when that
fails. -/
namespace RmwCyclonedds
open Library

inductive ResourceKind where
  | entity
  | listener
  | qos
  | sertype
  deriving DecidableEq, Repr

/-- The failures of `dds_create_topic_sertype` that are told apart. -/
inductive TopicFailure where
  | badParameter
  | inconsistentPolicy
  | preconditionNotMet
  | other
  deriving DecidableEq, Repr

def errorMessageFromCreateTopic (topic : TopicFailure) (topicName : Text) : Text :=
  match topic with
  | .badParameter =>
    "failed to create topic [".toList ++ topicName ++ "] because the function was given invalid parameters".toList
  | .inconsistentPolicy => "failed to create topic [".toList ++ topicName ++
    "] because it's already in use in this context with incompatible QoS settings".toList
  | .preconditionNotMet => "failed to create topic [".toList ++ topicName ++
    "] because it's already in use in this context with a different message type".toList
  | .other => "failed to create topic [".toList ++ topicName ++ "] for unknown reasons".toList

/-- What is deleted in cleaning up; a DDS entity takes its children with it. -/
inductive Deletion where
  | entity (e : Nat) (children : List Nat)
  | listener (n : Nat)
  | qos (n : Nat)

/-- Entities may refuse to be deleted. -/
def Deletion.apply (undeleted : Nat → Bool) (l : Ledger ResourceKind) : Deletion → Ledger ResourceKind
  | .entity e children =>
    if undeleted e then l else children.foldl (fun l c => l.release (.entity,c)) (l.release (.entity,e))
  | .listener n => l.release (.listener,n)
  | .qos n => l.release (.qos,n)

def cleanup (undeleted : Nat → Bool) (l : Ledger ResourceKind) (deletions : List Deletion) : Ledger ResourceKind :=
  deletions.foldl (Deletion.apply undeleted) l

/-- The reference to the sertype is dropped, or goes over to the topic. -/
def createTopic (failure : Option TopicFailure) (sertype : Nat) (l : Ledger ResourceKind) :
    Ledger ResourceKind × Except TopicFailure Nat :=
  let l := l.release (.sertype,sertype)
  match failure with
  | some code => (l,.error code)
  | none =>
    let (l,topic) := l.acquire .entity
    (l,.ok topic)

section
variable (time : RmwTimeFunctions)

/-- Only an unsupported depth deletes the object that is not returned; a message is set then too. -/
def createReadwriteQos (qosPolicies : RmwQosProfile) (typehash : Option Text) (ignoreLocalPublications : Bool)
    (extraUserData : Text) (l : Ledger ResourceKind) : Ledger ResourceKind × Except (Option Text) (Nat × DdsQos) :=
  let (l,qos) := l.acquire .qos
  match readwriteQos time qosPolicies typehash ignoreLocalPublications extraUserData with
  | .ok value => (l,.ok (qos,value))
  | .error .depth => (l.release (.qos,qos),.error (some "unsupported history depth".toList))
  | .error _ => (l,.error none)

/-- The arguments for a publisher or a subscription, with what their type support gives: the name of the type, and its
hash if it can be encoded. -/
structure EndpointArguments where
  topicName : Option Text
  qosPolicies : Option RmwQosProfile
  typeName : Option Text
  typehash : Option Text

/-- The checks at the start; a refusal may set a message. -/
def EndpointArguments.check (args : EndpointArguments) : Except (Option Text) (Text × RmwQosProfile) :=
  match args.topicName with
  | none | some [] => .error (some "topic_name is null or empty string".toList)
  | some topicName =>
    match args.qosPolicies with
    | none => .error (some "qos_policies is null".toList)
    | some qosPolicies =>
      match args.typeName with
      | none => .error (some "type_support is null".toList)
      | some [] => .error none
      | some _ => .ok (topicName,qosPolicies)

/-- The DDS calls that fail: the creation of the topic, of the writer or reader, and the call after that. -/
structure EndpointFailures where
  topic : Option TopicFailure
  endpoint : Bool
  last : Bool
  undeleted : Nat → Bool

/-- None of the calls fails on which the creation depends. -/
structure EndpointFailures.None (fails : EndpointFailures) : Prop where
  topic : fails.topic = none
  endpoint : fails.endpoint = false
  last : fails.last = false

/-- What is held afterwards, the writer or reader, and the message if one is set. -/
structure Created where
  ledger : Ledger ResourceKind
  entity : Option Nat
  message : Option Text

/-- `create_cdds_publisher` and `create_cdds_subscription`. They differ in the call after the creation of the endpoint,
which for a subscription makes one more entity. -/
def createEndpoint (lastMakesEntity ignoreLocalPublications : Bool) (endpointMessage lastMessage : Text)
    (args : EndpointArguments) (fails : EndpointFailures) (l : Ledger ResourceKind) : Created :=
  match args.check with
  | .error message => ⟨l,none,message⟩
  | .ok (topicName,qosPolicies) =>
    let fqtopicName := makeFqtopic rosTopicPrefix topicName [] qosPolicies.avoidRosNamespaceConventions
    let (l,sertype) := l.acquire .sertype
    let (l,topic) := createTopic fails.topic sertype l
    -- the listener is there before the topic is looked at, and in none of the lists
    let (l,listener) := l.acquire .listener
    let failTopic : List Deletion := []
    match topic with
    | .error code => ⟨cleanup fails.undeleted l failTopic,none,some (errorMessageFromCreateTopic code fqtopicName)⟩
    | .ok topic =>
      let failQos : List Deletion := .entity topic [] :: failTopic
      let (l,qos) := createReadwriteQos time qosPolicies args.typehash ignoreLocalPublications [] l
      match qos with
      | .error message => ⟨cleanup fails.undeleted l failQos,none,message⟩
      | .ok (qos,_) =>
        -- fail_writer, fail_reader
        let failEndpoint : List Deletion := .qos qos :: failQos
        if fails.endpoint then ⟨cleanup fails.undeleted l failEndpoint,none,some endpointMessage⟩ else
        let (l,enth) := l.acquire .entity
        -- fail_instance_handle, fail_readcond
        let failLast : List Deletion := .entity enth [] :: failEndpoint
        if fails.last then ⟨cleanup fails.undeleted l failLast,none,some lastMessage⟩ else
        let l := if lastMakesEntity then (l.acquire .entity).1 else l
        ⟨cleanup fails.undeleted l [.listener listener,.qos qos,.entity topic []],some enth,none⟩

def createCddsPublisher (args : EndpointArguments) (fails : EndpointFailures) (l : Ledger ResourceKind) : Created :=
  createEndpoint time false false "failed to create writer".toList "failed to get instance handle for writer".toList
    args fails l

def createCddsSubscription (ignoreLocalPublications : Bool) (args : EndpointArguments) (fails : EndpointFailures)
    (l : Ledger ResourceKind) : Created :=
  createEndpoint time true ignoreLocalPublications "failed to create reader".toList
    "failed to create readcondition".toList args fails l

/-- The arguments for a client or a service, with what their type support gives: the names of the two types, the hashes
that can be encoded, and the id that is made for it. -/
structure ServiceArguments where
  typeSupports : Bool
  serviceName : Option Text
  qosPolicies : Option RmwQosProfile
  typeNames : Option (Text × Text)
  requestHash : Option Text
  responseHash : Option Text
  serviceHash : Option Text
  csid : Text

/-- The checks at the start; `validate` gives its result, and a reason if the name is not valid. -/
def ServiceArguments.check (validate : Text → RmwRet × Option Text) (args : ServiceArguments) :
    Except (RmwRet × Option Text) (Text × RmwQosProfile) :=
  if args.typeSupports = false then .error (.invalidArgument,some "type_supports argument is null".toList) else
  match args.serviceName with
  | none => .error (.invalidArgument,some "service_name argument is null".toList)
  | some [] => .error (.invalidArgument,some "service_name argument is an empty string".toList)
  | some serviceName =>
    match args.qosPolicies with
    | none => .error (.invalidArgument,some "qos_policies argument is null".toList)
    | some qosPolicies =>
      let validation := if qosPolicies.avoidRosNamespaceConventions then (.ok,none) else validate serviceName
      if validation.1 ≠ .ok then .error (validation.1,none) else
      match validation.2 with
      | some reason => .error (.invalidArgument,some ("service_name argument is invalid: ".toList ++ reason))
      | none =>
        match args.typeNames with
        | none => .error (.error,some "type_support is null".toList)
        | some (requestTypeName,responseTypeName) =>
          if requestTypeName = [] ∨ responseTypeName = [] then .error (.error,none) else .ok (serviceName,qosPolicies)

/-- The DDS calls that fail. -/
structure ServiceFailures where
  pubtopic : Option TopicFailure
  subtopic : Option TopicFailure
  writer : Bool
  reader : Bool
  readcond : Bool
  instanceHandle : Bool
  undeleted : Nat → Bool

/-- None of the calls fails on which the creation depends. -/
structure ServiceFailures.None (fails : ServiceFailures) : Prop where
  pubtopic : fails.pubtopic = none
  subtopic : fails.subtopic = none
  writer : fails.writer = false
  reader : fails.reader = false
  readcond : fails.readcond = false
  instanceHandle : fails.instanceHandle = false

/-- What is held afterwards, the result, and the message if one is set. -/
structure ServiceCreated where
  ledger : Ledger ResourceKind
  ret : RmwRet
  message : Option Text

def rmwInitCs (validate : Text → RmwRet × Option Text) (isService : Bool) (args : ServiceArguments)
    (fails : ServiceFailures) (l : Ledger ResourceKind) : ServiceCreated :=
  match args.check validate with
  | .error (ret,message) => ⟨l,ret,message⟩
  | .ok (serviceName,qosPolicies) =>
    let requestTopicName := makeFqtopic rosServiceRequesterPrefix serviceName "Request".toList
      qosPolicies.avoidRosNamespaceConventions
    let replyTopicName := makeFqtopic rosServiceResponsePrefix serviceName "Reply".toList
      qosPolicies.avoidRosNamespaceConventions
    let (pubtopicName,subtopicName) := if isService then (replyTopicName,requestTopicName)
      else (requestTopicName,replyTopicName)
    let (pubHash,subHash) := if isService then (args.responseHash,args.requestHash)
      else (args.requestHash,args.responseHash)
    let (l,listener) := l.acquire .listener
    let (l,pubSt) := l.acquire .sertype
    let (l,subSt) := l.acquire .sertype
    let (l,pubtopic) := createTopic fails.pubtopic pubSt l
    let failPubtopic : List Deletion := []
    match pubtopic with
    | .error code =>
      ⟨cleanup fails.undeleted l failPubtopic,.error,some (errorMessageFromCreateTopic code pubtopicName)⟩
    | .ok pubtopic =>
      let failSubtopic : List Deletion := .entity pubtopic [] :: failPubtopic
      let (l,subtopic) := createTopic fails.subtopic subSt l
      match subtopic with
      | .error code =>
        ⟨cleanup fails.undeleted l failSubtopic,.error,some (errorMessageFromCreateTopic code subtopicName)⟩
      | .ok subtopic =>
        let failPubQos : List Deletion := .entity subtopic [] :: failSubtopic
        let userData := (if isService then "serviceid=".toList else "clientid=".toList) ++ args.csid ++ ";".toList ++
          args.serviceHash.getD []
        let (l,pubQos) := createReadwriteQos time qosPolicies pubHash false userData l
        match pubQos with
        | .error message => ⟨cleanup fails.undeleted l failPubQos,.error,message⟩
        | .ok (pubQos,_) =>
          let failSubQos : List Deletion := .qos pubQos :: failPubQos
          let (l,subQos) := createReadwriteQos time qosPolicies subHash false userData l
          match subQos with
          | .error message => ⟨cleanup fails.undeleted l failSubQos,.error,message⟩
          | .ok (subQos,_) =>
            let failWriter : List Deletion := .qos subQos :: failSubQos
            if fails.writer then
              ⟨cleanup fails.undeleted l failWriter,.error,some "failed to create writer".toList⟩ else
            let (l,pub) := l.acquire .entity
            let failReader : List Deletion := .entity pub [] :: failWriter
            if fails.reader then
              ⟨cleanup fails.undeleted l failReader,.error,some "failed to create reader".toList⟩ else
            let (l,sub) := l.acquire .entity
            let failReadcond (conditions : List Nat) : List Deletion := .entity sub conditions :: failReader
            if fails.readcond then
              ⟨cleanup fails.undeleted l (failReadcond []),.error,some "failed to create readcondition".toList⟩ else
            let (l,rdcondh) := l.acquire .entity
            let failInstanceHandle : List Deletion := .entity rdcondh [] :: failReadcond [rdcondh]
            if fails.instanceHandle then
              ⟨cleanup fails.undeleted l failInstanceHandle,.error,
                some "failed to get instance handle for writer".toList⟩ else
            ⟨cleanup fails.undeleted l
              [.listener listener,.qos pubQos,.qos subQos,.entity subtopic [],.entity pubtopic []],.ok,none⟩

end

/-! ### What is held after a success, and after a refusal -/

section
variable (time : RmwTimeFunctions) {qosPolicies : RmwQosProfile}

/-- An endpoint that is created is all that is left of the call. -/
theorem createEndpoint_held (lastMakesEntity ignoreLocalPublications : Bool) (endpointMessage lastMessage : Text)
    {args : EndpointArguments} {fails : EndpointFailures} (l : Ledger ResourceKind) {topicName : Text}
    (hcheck : args.check = .ok (topicName,qosPolicies)) (hsupported : qosPolicies.Supported) (hnone : fails.None)
    (hdeleted : ∀ e, fails.undeleted e = false) :
    (createEndpoint time lastMakesEntity ignoreLocalPublications endpointMessage lastMessage args fails l).ledger.held =
      (if lastMakesEntity then [(.entity,l.next + 5)] else []) ++ (.entity,l.next + 4) :: l.held := by
  obtain ⟨value,hqos⟩ := (readwriteQos_ok_iff time qosPolicies args.typehash ignoreLocalPublications []).mpr hsupported
  obtain ⟨htopic,hendpoint,hlast⟩ := hnone
  simp only [createEndpoint, hcheck, createTopic, htopic, hendpoint, hlast, createReadwriteQos, hqos, Bool.false_eq_true,
    if_false]
  cases lastMakesEntity <;> simp [cleanup, Deletion.apply, Ledger.acquire, Ledger.release, hdeleted, Nat.add_assoc]

/-- Of a client or a service the writer, the reader and its condition are left. -/
theorem rmwInitCs_held (validate : Text → RmwRet × Option Text) (isService : Bool) {args : ServiceArguments}
    {fails : ServiceFailures} (l : Ledger ResourceKind) {serviceName : Text}
    (hcheck : args.check validate = .ok (serviceName,qosPolicies)) (hsupported : qosPolicies.Supported) (hnone : fails.None)
    (hdeleted : ∀ e, fails.undeleted e = false) :
    (rmwInitCs time validate isService args fails l).ledger.held =
      [(.entity,l.next + 9),(.entity,l.next + 8),(.entity,l.next + 7)] ++ l.held := by
  have hqos (typehash : Option Text) (userData : Text) :=
    (readwriteQos_ok_iff time qosPolicies typehash false userData).mpr hsupported
  obtain ⟨hpubtopic,hsubtopic,hwriter,hreader,hreadcond,hhandle⟩ := hnone
  simp only [rmwInitCs, hcheck, createTopic, hpubtopic, hsubtopic, createReadwriteQos]
  generalize (if isService = true then (args.responseHash,args.requestHash) else (args.requestHash,args.responseHash)) = hashes
  generalize (if isService = true then "serviceid=".toList else "clientid=".toList) ++ args.csid ++ ";".toList ++
    args.serviceHash.getD [] = userData
  obtain ⟨pubQos,hpub⟩ := hqos hashes.1 userData
  obtain ⟨subQos,hsub⟩ := hqos hashes.2 userData
  simp only [hpub, hsub, hwriter, hreader, hreadcond, hhandle, Bool.false_eq_true, if_false]
  simp [cleanup, Deletion.apply, Ledger.acquire, Ledger.release, hdeleted, Nat.add_assoc]

/-- A refused profile leaves nothing if it is refused for its depth; for an unknown policy the object is left. -/
theorem createReadwriteQos_refused_iff {typehash : Option Text} {ignoreLocalPublications : Bool} {extraUserData : Text}
    (l : Ledger ResourceKind) {refusal : QosRefusal}
    (h : readwriteQos time qosPolicies typehash ignoreLocalPublications extraUserData = .error refusal) :
    l.SameHeld (createReadwriteQos time qosPolicies typehash ignoreLocalPublications extraUserData l).1 ↔ refusal = .depth := by
  have hleft : ¬l.SameHeld (l.acquire .qos).1 := Ledger.not_sameHeld (l.acquired_held .qos) (Nat.le_refl _)
  simp only [createReadwriteQos, h]
  cases refusal with
  | depth =>
    refine ⟨fun _ => rfl,fun _ r => ?_⟩
    rw [Ledger.held_release_acquire]
  | history => exact ⟨fun h => absurd h hleft,fun h => by cases h⟩
  | reliability => exact ⟨fun h => absurd h hleft,fun h => by cases h⟩
  | durability => exact ⟨fun h => absurd h hleft,fun h => by cases h⟩
  | liveliness => exact ⟨fun h => absurd h hleft,fun h => by cases h⟩

end

/-! ### The listener of a call that fails -/

section
variable {l : Ledger ResourceKind} {n : Nat}

private theorem listener_release {k : ResourceKind} {m : Nat} (h : (.listener,n) ∈ l.held) (hk : k ≠ .listener) :
    (.listener,n) ∈ (l.release (k,m)).held := Ledger.held_release h hk.symm

private theorem listener_children {children : List Nat} (h : (.listener,n) ∈ l.held) :
    (.listener,n) ∈ (children.foldl (fun l c => l.release (.entity,c)) l).held := by
  induction children generalizing l with
  | nil => exact h
  | cons c children ih =>
    apply ih
    exact listener_release h (by decide)

/-- Deleting other things leaves a listener. -/
private theorem listener_cleanup {undeleted : Nat → Bool} {deletions : List Deletion} (h : (.listener,n) ∈ l.held)
    (hother : ∀ m, .listener m ∉ deletions) : (.listener,n) ∈ (cleanup undeleted l deletions).held := by
  induction deletions generalizing l with
  | nil => exact h
  | cons d deletions ih =>
    apply ih ?_ fun m hm => hother m (List.mem_cons_of_mem d hm)
    cases d with
    | entity e children =>
      simp only [Deletion.apply]
      split
      · exact h
      · exact listener_children (listener_release h (by decide))
    | listener m => exact absurd List.mem_cons_self (hother m)
    | qos q => exact listener_release h (by decide)

end

/-- A later ledger that has the listeners of an earlier one. -/
private structure KeepsListeners (l l' : Ledger ResourceKind) : Prop where
  next : l.next ≤ l'.next
  listener : ∀ n, (.listener,n) ∈ l.held → (.listener,n) ∈ l'.held

private theorem keepsListeners_acquire (l : Ledger ResourceKind) (k : ResourceKind) : KeepsListeners l (l.acquire k).1 :=
  ⟨Nat.le_succ _,fun _ h => Ledger.held_acquire h k⟩

private theorem keepsListeners_release (l : Ledger ResourceKind) {k : ResourceKind} (hk : k ≠ .listener) (m : Nat) :
    KeepsListeners l (l.release (k,m)) := ⟨Nat.le_refl _,fun _ h => listener_release h hk⟩

private theorem KeepsListeners.trans {l l' l'' : Ledger ResourceKind} (h : KeepsListeners l l')
    (h' : KeepsListeners l' l'') : KeepsListeners l l'' :=
  ⟨h.next.trans h'.next,fun n hn => h'.listener n (h.listener n hn)⟩

/-- There is a topic if the call does not fail. -/
private theorem createTopic_step (failure : Option TopicFailure) (sertype : Nat) (l : Ledger ResourceKind) :
    ∃ l', KeepsListeners l l' ∧ ((∃ code, failure = some code ∧ createTopic failure sertype l = (l',.error code)) ∨
      (failure = none ∧ ∃ topic, createTopic failure sertype l = (l',.ok topic))) := by
  have hrelease : KeepsListeners l (l.release (.sertype,sertype)) := keepsListeners_release l (by decide) sertype
  cases failure with
  | some code => exact ⟨_,hrelease,.inl ⟨code,rfl,rfl⟩⟩
  | none => exact ⟨_,hrelease.trans (keepsListeners_acquire _ .entity),.inr ⟨rfl,_,rfl⟩⟩

/-- The profile decides whether there is an object. -/
private theorem createReadwriteQos_step (time : RmwTimeFunctions) (qosPolicies : RmwQosProfile) (typehash : Option Text)
    (ignoreLocalPublications : Bool) (extraUserData : Text) (l : Ledger ResourceKind) :
    let made := createReadwriteQos time qosPolicies typehash ignoreLocalPublications extraUserData l
    ∃ l', KeepsListeners l l' ∧ ((¬qosPolicies.Supported ∧ ∃ message, made = (l',.error message)) ∨
      (qosPolicies.Supported ∧ ∃ qos, made = (l',.ok qos))) := by
  intro made
  have hsupported := readwriteQos_ok_iff time qosPolicies typehash ignoreLocalPublications extraUserData
  have hacquire := keepsListeners_acquire l .qos
  simp only [made, createReadwriteQos]
  cases h : readwriteQos time qosPolicies typehash ignoreLocalPublications extraUserData with
  | ok value => exact ⟨_,hacquire,.inr ⟨hsupported.mp ⟨value,h⟩,_,rfl⟩⟩
  | error refusal =>
    have hrefused : ¬qosPolicies.Supported := by
      intro hs
      obtain ⟨value,hok⟩ := hsupported.mpr hs
      cases h.symm.trans hok
    cases refusal with
    | depth => exact ⟨_,hacquire.trans (keepsListeners_release _ (by decide) _),.inl ⟨hrefused,_,rfl⟩⟩
    | history | reliability | durability | liveliness => exact ⟨_,hacquire,.inl ⟨hrefused,_,rfl⟩⟩

section
variable (time : RmwTimeFunctions)

/-- The arguments are refused, or the endpoint is created, or the listener made for it is left. -/
private theorem createEndpoint_cases (lastMakesEntity ignoreLocalPublications : Bool) (endpointMessage lastMessage : Text)
    (args : EndpointArguments) (fails : EndpointFailures) (l : Ledger ResourceKind) :
    let created := createEndpoint time lastMakesEntity ignoreLocalPublications endpointMessage lastMessage args fails l
    (∃ message, args.check = .error message ∧ created = ⟨l,none,message⟩) ∨
    ∃ topicName qosPolicies, args.check = .ok (topicName,qosPolicies) ∧
      ((qosPolicies.Supported ∧ fails.None ∧ created.entity ≠ none) ∨
        (¬(qosPolicies.Supported ∧ fails.None) ∧ created.entity = none ∧
          ∃ n, l.next ≤ n ∧ (.listener,n) ∈ created.ledger.held)) := by
  intro created
  cases hcheck : args.check with
  | error message =>
    refine .inl ⟨message,rfl,?_⟩
    simp only [created, createEndpoint, hcheck]
  | ok checked =>
    obtain ⟨topicName,qosPolicies⟩ := checked
    refine .inr ⟨topicName,qosPolicies,rfl,?_⟩
    simp only [created, createEndpoint, hcheck]
    obtain ⟨l1,hl1,htopic⟩ := createTopic_step fails.topic (l.acquire .sertype).2 (l.acquire .sertype).1
    have hlistener := Ledger.acquired_held l1 .listener
    have hle : l.next ≤ (l1.acquire .listener).2 := ((keepsListeners_acquire l .sertype).trans hl1).next
    rcases htopic with ⟨code,hfail,heq⟩ | ⟨hnone,topic,heq⟩
    · simp only [heq]
      refine .inr ⟨fun h => ?_,trivial,_,hle,hlistener⟩
      cases hfail.symm.trans h.2.topic
    obtain ⟨l2,hl2,hqos⟩ := createReadwriteQos_step time qosPolicies args.typehash ignoreLocalPublications []
      (l1.acquire .listener).1
    have hkept := hl2.listener _ hlistener
    simp only [heq]
    rcases hqos with ⟨hrefused,message,heq⟩ | ⟨hsupported,qos,heq⟩
    · simp only [heq]
      exact .inr ⟨fun h => hrefused h.1,trivial,_,hle,listener_cleanup hkept (by simp)⟩
    simp only [heq]
    cases hendpoint : fails.endpoint with
    | true =>
      refine .inr ⟨fun h => ?_,rfl,_,hle,listener_cleanup hkept (by simp)⟩
      cases hendpoint.symm.trans h.2.endpoint
    | false =>
      have hheld := Ledger.held_acquire hkept .entity
      cases hlast : fails.last with
      | true =>
        refine .inr ⟨fun h => ?_,rfl,_,hle,listener_cleanup hheld (by simp)⟩
        cases hlast.symm.trans h.2.last
      | false => exact .inl ⟨hsupported,⟨hnone,hendpoint,hlast⟩,Option.some_ne_none _⟩

private theorem rmwInitCs_cases (validate : Text → RmwRet × Option Text) (isService : Bool) (args : ServiceArguments)
    (fails : ServiceFailures) (l : Ledger ResourceKind) :
    let created := rmwInitCs time validate isService args fails l
    (∃ ret message, args.check validate = .error (ret,message) ∧ created = ⟨l,ret,message⟩) ∨
    ∃ serviceName qosPolicies, args.check validate = .ok (serviceName,qosPolicies) ∧
      ((qosPolicies.Supported ∧ fails.None ∧ created.ret = .ok) ∨
        (¬(qosPolicies.Supported ∧ fails.None) ∧ created.ret = .error ∧
          ∃ n, l.next ≤ n ∧ (.listener,n) ∈ created.ledger.held)) := by
  intro created
  cases hcheck : args.check validate with
  | error refused =>
    obtain ⟨ret,message⟩ := refused
    refine .inl ⟨ret,message,rfl,?_⟩
    simp only [created, rmwInitCs, hcheck]
  | ok checked =>
    obtain ⟨serviceName,qosPolicies⟩ := checked
    refine .inr ⟨serviceName,qosPolicies,rfl,?_⟩
    simp only [created, rmwInitCs, hcheck]
    generalize (if isService = true then (args.responseHash,args.requestHash) else (args.requestHash,args.responseHash)) = hashes
    generalize (if isService = true then "serviceid=".toList else "clientid=".toList) ++ args.csid ++ ";".toList ++
      args.serviceHash.getD [] = userData
    have hle : l.next ≤ (l.acquire .listener).2 := Nat.le_refl _
    have hlistener := Ledger.acquired_held l .listener
    generalize l.acquire .listener = made at hle hlistener ⊢
    obtain ⟨l1,listener⟩ := made
    have hsertypes := (keepsListeners_acquire l1 .sertype).trans (keepsListeners_acquire _ .sertype)
    obtain ⟨l2,hl2,hpubtopic⟩ := createTopic_step fails.pubtopic (l1.acquire .sertype).2
      ((l1.acquire .sertype).1.acquire .sertype).1
    have hpub := (hsertypes.trans hl2).listener listener hlistener
    rcases hpubtopic with ⟨code,hfail,heq⟩ | ⟨hnopub,pubtopic,heq⟩
    · simp only [heq]
      refine .inr ⟨fun h => ?_,trivial,listener,hle,hpub⟩
      cases hfail.symm.trans h.2.pubtopic
    simp only [heq]
    obtain ⟨l3,hl3,hsubtopic⟩ := createTopic_step fails.subtopic ((l1.acquire .sertype).1.acquire .sertype).2 l2
    have hsub := hl3.listener listener hpub
    rcases hsubtopic with ⟨code,hfail,heq⟩ | ⟨hnosub,subtopic,heq⟩
    · simp only [heq]
      refine .inr ⟨fun h => ?_,trivial,listener,hle,listener_cleanup hsub (by simp)⟩
      cases hfail.symm.trans h.2.subtopic
    simp only [heq]
    obtain ⟨l4,hl4,hpubQos⟩ := createReadwriteQos_step time qosPolicies hashes.1 false userData l3
    have hpubQosHeld := hl4.listener listener hsub
    rcases hpubQos with ⟨hrefused,message,heq⟩ | ⟨hsupported,pubQos,heq⟩
    · simp only [heq]
      exact .inr ⟨fun h => hrefused h.1,trivial,listener,hle,listener_cleanup hpubQosHeld (by simp)⟩
    simp only [heq]
    obtain ⟨l5,hl5,⟨hrefused,_⟩ | ⟨_,subQos,heq⟩⟩ := createReadwriteQos_step time qosPolicies hashes.2 false userData l4
    · exact absurd hsupported hrefused
    simp only [heq]
    have hsubQos := hl5.listener listener hpubQosHeld
    cases hwriter : fails.writer with
    | true =>
      refine .inr ⟨fun h => ?_,rfl,listener,hle,listener_cleanup hsubQos (by simp)⟩
      cases hwriter.symm.trans h.2.writer
    | false =>
      have hpub := Ledger.held_acquire hsubQos .entity
      cases hreader : fails.reader with
      | true =>
        refine .inr ⟨fun h => ?_,rfl,listener,hle,listener_cleanup hpub (by simp)⟩
        cases hreader.symm.trans h.2.reader
      | false =>
        have hsub := Ledger.held_acquire hpub .entity
        cases hreadcond : fails.readcond with
        | true =>
          refine .inr ⟨fun h => ?_,rfl,listener,hle,listener_cleanup hsub (by simp)⟩
          cases hreadcond.symm.trans h.2.readcond
        | false =>
          have hrdcondh := Ledger.held_acquire hsub .entity
          cases hhandle : fails.instanceHandle with
          | true =>
            refine .inr ⟨fun h => ?_,rfl,listener,hle,listener_cleanup hrdcondh (by simp)⟩
            cases hhandle.symm.trans h.2.instanceHandle
          | false => exact .inl ⟨hsupported,⟨hnopub,hnosub,hwriter,hreader,hreadcond,hhandle⟩,rfl⟩

/-- A call that fails leaves what is held as it was. -/
def Created.LeavesNothing (l : Ledger ResourceKind) (created : Created) : Prop :=
  created.entity = none → l.SameHeld created.ledger

def ServiceCreated.LeavesNothing (l : Ledger ResourceKind) (created : ServiceCreated) : Prop :=
  created.ret ≠ .ok → l.SameHeld created.ledger

private theorem createEndpoint_leavesNothing_iff (lastMakesEntity ignoreLocalPublications : Bool)
    (endpointMessage lastMessage : Text) (args : EndpointArguments) (fails : EndpointFailures) (l : Ledger ResourceKind) :
    (createEndpoint time lastMakesEntity ignoreLocalPublications endpointMessage lastMessage args fails l).LeavesNothing l ↔
      ∀ topicName qosPolicies, args.check = .ok (topicName,qosPolicies) → qosPolicies.Supported ∧ fails.None := by
  rcases createEndpoint_cases time lastMakesEntity ignoreLocalPublications endpointMessage lastMessage args fails l with
    ⟨message,hcheck,hcreated⟩ | ⟨topicName,qosPolicies,hcheck,⟨hsupported,hnone,hmade⟩ | ⟨hfails,hnull,n,hn,hheld⟩⟩
  · rw [hcreated, hcheck]
    refine ⟨fun _ _ _ h => ?_,fun _ _ => .refl l⟩
    cases h
  · refine ⟨fun _ _ _ h => ?_,fun _ hnull => absurd hnull hmade⟩
    cases hcheck.symm.trans h
    exact ⟨hsupported,hnone⟩
  · exact ⟨fun h => absurd (h hnull) (Ledger.not_sameHeld hheld hn),fun h => absurd (h _ _ hcheck) hfails⟩

private theorem rmwInitCs_leavesNothing_iff (validate : Text → RmwRet × Option Text) (isService : Bool)
    (args : ServiceArguments) (fails : ServiceFailures) (l : Ledger ResourceKind) :
    (rmwInitCs time validate isService args fails l).LeavesNothing l ↔
      ∀ serviceName qosPolicies, args.check validate = .ok (serviceName,qosPolicies) →
        qosPolicies.Supported ∧ fails.None := by
  rcases rmwInitCs_cases time validate isService args fails l with
    ⟨ret,message,hcheck,hcreated⟩ | ⟨serviceName,qosPolicies,hcheck,⟨hsupported,hnone,hok⟩ | ⟨hfails,herror,n,hn,hheld⟩⟩
  · rw [hcreated, hcheck]
    refine ⟨fun _ _ _ h => ?_,fun _ _ => .refl l⟩
    cases h
  · refine ⟨fun _ _ _ h => ?_,fun _ hne => absurd hok hne⟩
    cases hcheck.symm.trans h
    exact ⟨hsupported,hnone⟩
  · refine ⟨fun h => absurd (h ?_) (Ledger.not_sameHeld hheld hn),fun h => absurd (h _ _ hcheck) hfails⟩
    rw [herror]
    decide

end

/-- A creation that fails leaves nothing behind only if the arguments are refused, before anything is acquired. -/
theorem failedCreation_leavesNothing_iff (time : RmwTimeFunctions) (l : Ledger ResourceKind) :
    (∀ args fails, (createCddsPublisher time args fails l).LeavesNothing l ↔
      ∀ topicName qosPolicies, args.check = .ok (topicName,qosPolicies) → qosPolicies.Supported ∧ fails.None) ∧
    (∀ ignoreLocalPublications args fails,
      (createCddsSubscription time ignoreLocalPublications args fails l).LeavesNothing l ↔
        ∀ topicName qosPolicies, args.check = .ok (topicName,qosPolicies) → qosPolicies.Supported ∧ fails.None) ∧
    ∀ validate isService args fails, (rmwInitCs time validate isService args fails l).LeavesNothing l ↔
      ∀ serviceName qosPolicies, args.check validate = .ok (serviceName,qosPolicies) →
        qosPolicies.Supported ∧ fails.None :=
  ⟨fun args fails => createEndpoint_leavesNothing_iff time false false _ _ args fails l,
    fun ignoreLocalPublications args fails =>
      createEndpoint_leavesNothing_iff time true ignoreLocalPublications _ _ args fails l,
    fun validate isService args fails => rmwInitCs_leavesNothing_iff time validate isService args fails l⟩

/-- A writer that cannot be created leaves the listener, a service whose reply topic cannot be created leaves a sertype
too, and an unknown reliability leaves the QoS object. -/
theorem failed_creation_leaves :
    let total (t : RmwTime) : Int := min (t.sec.toNat * 10 ^ 9 + t.nsec.toNat) (2 ^ 63 - 1)
    let time : RmwTimeFunctions :=
      ⟨total,fun n => ⟨BitVec.ofInt 64 (n / 10 ^ 9),BitVec.ofInt 64 (n % 10 ^ 9)⟩,fun a b => total a = total b⟩
    let profile : RmwQosProfile := ⟨.keepLast,10,.reliable,.volatile,.unspecified,.unspecified,.automatic,.unspecified,false⟩
    let unknown : RmwQosProfile := {profile with reliability := .unknown}
    let args (profile : RmwQosProfile) : EndpointArguments :=
      ⟨some "/chatter".toList,some profile,some "std_msgs::msg::dds_::String_".toList,none⟩
    let service : ServiceArguments := ⟨true,some "/add".toList,some profile,
      some ("srv::dds_::Add_Request_".toList,"srv::dds_::Add_Response_".toList),none,none,none,"0.1".toList⟩
    let noWriter := createCddsPublisher time (args profile) ⟨none,true,false,fun _ => false⟩ .empty
    let noProfile := createCddsPublisher time (args unknown) ⟨none,false,false,fun _ => false⟩ .empty
    let noTopic := rmwInitCs time (fun _ => (.ok,none)) true service
      ⟨some .preconditionNotMet,none,false,false,false,false,fun _ => false⟩ .empty
    (noWriter.entity = none ∧ noWriter.ledger.held = [(.listener,2)] ∧ ¬noWriter.LeavesNothing .empty) ∧
      (noProfile.entity = none ∧ noProfile.ledger.held = [(.qos,3),(.listener,2)]) ∧
      noTopic.ret = .error ∧ noTopic.ledger.held = [(.sertype,2),(.listener,0)] := by
  refine ⟨⟨rfl,rfl,fun h => ?_⟩,⟨rfl,rfl⟩,rfl,rfl⟩
  exact List.not_mem_nil ((h rfl (.listener,2)).mp List.mem_cons_self)

end RmwCyclonedds
