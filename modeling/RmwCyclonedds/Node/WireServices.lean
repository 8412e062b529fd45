import RmwCyclonedds.Node.RequestWrapper

/-! Clients and services of one service name, with the serdata that their requests and responses travel in. -/
namespace RmwCyclonedds
open Library

/-- A typesupport that a process has loaded for requests or for responses, with memory for whatever it needs. -/
structure WireType (host : Endian) where
  root : StructValueType
  sertype : Sertype host root .request
  heap : Heap
  runtime : Runtime
  provides : ∀ n, heap.provides n = true
  provided : ∀ position size, runtime position size = .provided

/-- A sample in a reader or on its way to one, with the process that wrote it. -/
structure WireSample (Process : Type) where
  process : Process
  validData : Bool
  serdata : HeldSerdata
  number : Nat
  sourceTimestamp : Int

/-- The output arguments as they are left, the sample that sets `*taken`, and what stays in the reader. -/
structure WireTaken (Process : Type) where
  taken : Option (WireSample Process)
  output : Option (RmwServiceInfo × Value)
  rest : List (WireSample Process)

section
variable {Process : Type} {host : Endian} {root : StructValueType}

/-- The loop of `rmw_take_response_request`, which ends where `dds_take` fails. -/
def Sertype.rmwTakeResponseRequest (s : Sertype host root .request) (heap : Heap) (runtime : Runtime)
    (publicationHandle : Nat → InstanceHandle) (srcfilter : InstanceHandle) :
    List (WireSample Process) → Option (RmwServiceInfo × Value) → Outcome (WireTaken Process)
  | [], output => .ok ⟨none,output,[]⟩
  | m :: samples, output => do
    match ← s.toSampleImpl heap runtime m.serdata with
    | none => return ⟨none,output,samples⟩
    | some wrap =>
      if m.validData then
        match wrap.header, wrap.value with
        | some header, some data =>
          let header := CddsRequestHeader.ofRead header
          let requestId := ⟨writerGuid host header.guid (publicationHandle m.number),header.seq⟩
          let output := some (⟨m.sourceTimestamp,requestId⟩,data)
          if srcfilter = 0 ∨ srcfilter = header.guid then return ⟨some m,output,samples⟩
          else rmwTakeResponseRequest s heap runtime publicationHandle srcfilter samples output
        | _, _ => throw .undefined
      else rmwTakeResponseRequest s heap runtime publicationHandle srcfilter samples output

end

/-! ### Messages under way -/

/-- What happens to the messages of a reader without its doing. On the wire a payload may come in any fragments. -/
inductive WireMove where
  | deliverLocal (i : Nat)
  | deliver (i : Nat) (payload : List Byte) (chain : FragmentChain payload)
  | lose (i : Nat)
  | evict (i : Nat)
  | notify (key : List Byte)

section
variable {Reader Process : Type} [DecidableEq Reader] [DecidableEq Process]

/-- A serdata is shared within a process. -/
def wireMove {host : Endian} (type : WireType host) (r : Reader) (p : Process) (t : Topic Reader (WireSample Process)) :
    WireMove → Option (Topic Reader (WireSample Process))
  | .deliverLocal i =>
    match (t.flight r)[i]? with
    | none => none
    | some m => if m.process = p then some (t.move (.deliver r i)) else none
  | .deliver i payload chain =>
    match (t.flight r)[i]? with
    | none => none
    | some m =>
      if m.serdata.data = payload then
        match type.sertype.fromSer type.heap .data chain.fragments payload.length with
        | .error _ => none
        | .ok none => some (t.move (.lose r i))
        | .ok (some d) => some ((t.move (.lose r i)).setQueue r (t.queue r ++ [{m with serdata := d.held}]))
      else none
  | .lose i => some (t.move (.lose r i))
  | .evict i => some (t.move (.evict r i))
  | .notify key => some (t.setQueue r (t.queue r ++ [⟨p,false,⟨⟨.key,[],key⟩,false,none⟩,0,0⟩]))

end

/-! ### Calls -/

/-- A message that an application hands in respects the bounds of its type, and its value is one of the type in every
process. -/
structure WireMessage {Process : Type} {host : Process → Endian} (types : ∀ p, WireType (host p)) (p : Process) where
  memory : Memory
  address : Address
  inBounds : (types p).root.toValueType.InBounds (memory.value (host p) (types p).root.toValueType address)
  shared : ∀ p', (types p').root.toValueType.Has (memory.value (host p) (types p).root.toValueType address)

/-- The value of a message that is handed in. -/
def WireMessage.value {Process : Type} {host : Process → Endian} {types : ∀ p, WireType (host p)} {p : Process}
    (message : WireMessage types p) : Value := message.memory.value (host p) (types p).root.toValueType message.address

/-- The typesupports for one service in every process. -/
structure WireTypes {Client Service Process : Type} (d : Deployment Client Service Process) where
  request : ∀ p, WireType (d.host p)
  response : ∀ p, WireType (d.host p)

/-- The counters of the processes, the two topics, and the calls so far. -/
structure WireState (Client Service Process : Type) where
  nextRequestId : Process → BitVec 32
  requests : Topic Service (WireSample Process)
  responses : Topic Client (WireSample Process)
  sentRequests : List (SentRequest Client Value)
  takenRequests : List (TakenRequest Service Value)
  sentResponses : List (SentResponse Service Value)
  takenResponses : List (TakenResponse Client Value)

section
variable {Client Service Process : Type} {d : Deployment Client Service Process}

inductive WireStep (types : WireTypes d) where
  | sendRequest (c : Client) (message : WireMessage types.request (d.clientProcess c)) (writes : Bool) (timestamp : Int)
  | takeRequest (v : Service)
  | sendResponse (v : Service) (requestId : RmwRequestId) (message : WireMessage types.response (d.serviceProcess v))
    (present : InstanceHandle → ClientPresent) (writes : Bool) (timestamp : Int)
  | takeResponse (c : Client)
  | moveRequests (v : Service) (m : WireMove)
  | moveResponses (c : Client) (m : WireMove)

namespace WireState
variable (types : WireTypes d) (s : WireState Client Service Process) [DecidableEq Client] [DecidableEq Service]
  [DecidableEq Process]

def initial : WireState Client Service Process := ⟨fun _ => 0,.empty,.empty,[],[],[],[]⟩

omit [DecidableEq Client] [DecidableEq Service] in
def sendRequest (c : Client) (message : WireMessage types.request (d.clientProcess c)) (writes : Bool) (timestamp : Int) :
    Option (WireState Client Service Process) :=
  let type := types.request (d.clientProcess c)
  let next := s.nextRequestId (d.clientProcess c) + 1
  let seq : Int := next.toNat
  match type.sertype.rmwSendResponseRequest type.heap writes ⟨d.pubiid c,seq⟩ message.memory message.address with
  | .error _ => none
  | .ok (_,written) =>
    let s := {s with nextRequestId := Function.update s.nextRequestId (d.clientProcess c) next}
    match written with
    | none => some s
    | some serdata => some {s with
        requests := s.requests.write ⟨d.clientProcess c,true,serdata,s.sentRequests.length,timestamp⟩
        sentRequests := ⟨s.sentRequests.length,c,seq,message.value⟩ :: s.sentRequests}

omit [DecidableEq Client] [DecidableEq Process] in
def takeRequest (v : Service) : Option (WireState Client Service Process) :=
  let type := types.request (d.serviceProcess v)
  match type.sertype.rmwTakeResponseRequest type.heap type.runtime (d.requestWriter v) 0 (s.requests.queue v) none with
  | .error _ => none
  | .ok result =>
    let s := {s with requests := s.requests.setQueue v result.rest}
    match result.taken, result.output with
    | some m, some (info,data) => some {s with takenRequests := ⟨m.number,v,info.requestId,data⟩ :: s.takenRequests}
    | _, _ => some s

/-- The request id was obtained in the same process. -/
def Obtained (d : Deployment Client Service Process) (v : Service) (requestId : RmwRequestId) : Prop :=
  ∃ q ∈ s.takenRequests, q.requestId = requestId ∧ d.serviceProcess q.service = d.serviceProcess v

instance (v : Service) (requestId : RmwRequestId) : Decidable (s.Obtained d v requestId) :=
  inferInstanceAs (Decidable (∃ q ∈ s.takenRequests, q.requestId = requestId ∧ d.serviceProcess q.service = d.serviceProcess v))

/-- The response is serialized if the client is there. -/
def sendResponse (v : Service) (requestId : RmwRequestId) (message : WireMessage types.response (d.serviceProcess v))
    (present : InstanceHandle → ClientPresent) (writes : Bool) (timestamp : Int) : Option (WireState Client Service Process) :=
  if s.Obtained d v requestId then
    match (rmwSendResponse (d.host (d.serviceProcess v)) present true requestId ()).2 with
    | none => some s
    | some wrap =>
      let type := types.response (d.serviceProcess v)
      match type.sertype.rmwSendResponseRequest type.heap writes wrap.header message.memory message.address with
      | .error _ => none
      | .ok (_,none) => some s
      | .ok (_,some serdata) => some {s with
          responses := s.responses.write ⟨d.serviceProcess v,true,serdata,s.sentResponses.length,timestamp⟩
          sentResponses := ⟨s.sentResponses.length,v,requestId,message.value⟩ :: s.sentResponses}
  else none

omit [DecidableEq Service] [DecidableEq Process] in
def takeResponse (c : Client) : Option (WireState Client Service Process) :=
  let type := types.response (d.clientProcess c)
  match type.sertype.rmwTakeResponseRequest type.heap type.runtime (d.responseWriter c) (d.pubiid c) (s.responses.queue c)
    none with
  | .error _ => none
  | .ok result =>
    let s := {s with responses := s.responses.setQueue c result.rest}
    match result.taken, result.output with
    | some m, some (info,data) => some {s with
        takenResponses := ⟨m.number,c,info.requestId.sequenceNumber,data⟩ :: s.takenResponses}
    | _, _ => some s

/-- A call that does not return leads nowhere. -/
def next : WireStep types → Option (WireState Client Service Process)
  | .sendRequest c message writes timestamp => s.sendRequest types c message writes timestamp
  | .takeRequest v => s.takeRequest types v
  | .sendResponse v requestId message present writes timestamp =>
    s.sendResponse types v requestId message present writes timestamp
  | .takeResponse c => s.takeResponse types c
  | .moveRequests v m => do
    return {s with requests := ← wireMove (types.request (d.serviceProcess v)) v (d.serviceProcess v) s.requests m}
  | .moveResponses c m => do
    return {s with responses := ← wireMove (types.response (d.clientProcess c)) c (d.clientProcess c) s.responses m}

end WireState

variable [DecidableEq Client] [DecidableEq Service] [DecidableEq Process]

def wireMachine (types : WireTypes d) : Machine (WireState Client Service Process) (WireStep types) :=
  ⟨.initial,fun s step => s.next types step⟩

end
end RmwCyclonedds
