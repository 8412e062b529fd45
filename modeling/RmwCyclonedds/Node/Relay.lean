import RmwCyclonedds.Library.Runs
import RmwCyclonedds.Node.Take

/-! Messages of one topic on their way between processes, as objects or in their serialized form. -/
namespace RmwCyclonedds
open Library

/-- A process with the typesupport that it has loaded for the topic, and with memory for whatever it needs. -/
structure Peer where
  host : Endian
  root : StructValueType
  sertype : Sertype host root .sample
  heap : Heap
  runtime : Runtime
  resize : MessageResize
  describe : SampleInfo → MessageInfo
  provides : ∀ n, heap.provides n = true
  provided : ∀ position size, runtime position size = .provided

section
variable {Node : Type} (peers : Node → Peer)

/-- A message that an application hands in: it respects the bounds of its type, its value is one of the type in every
process, and 32 bits are enough for its padded size. -/
structure Outgoing (n : Node) where
  memory : Memory
  address : Address
  inBounds : (peers n).root.toValueType.InBounds (memory.value (peers n).host (peers n).root.toValueType address)
  shared : ∀ n', (peers n').root.toValueType.Has (memory.value (peers n).host (peers n).root.toValueType address)
  size : Nat
  size_eq : (peers n).sertype.cdrWriter.getSerializedSize memory address .sample = .ok size
  size_lt : size + 3 < 2 ^ 32

/-- The messages that writers have passed on, those that wait in readers, the serialized ones that applications have,
and what applications have handed in and been handed out. -/
structure RelayState (Node : Type) where
  written : List (Node × HeldSerdata)
  queue : Node → List QueuedSample
  kept : Node → List SerializedMessage
  sent : List Value
  received : List (Node × Message)

/-- Serialized messages are the ones that an application has been given. -/
inductive RelayStep where
  | publish (n : Node) (message : Outgoing peers n) (writes : Bool)
  | serialize (n : Node) (message : Outgoing peers n) (serializedMessage : SerializedMessage)
  | publishSerialized (n : Node) (serializedMessage : SerializedMessage) (writes : Bool)
  | deliverLocal (n : Node) (i : Nat) (info : SampleInfo)
  | deliver (n : Node) (payload : List Byte) (chain : FragmentChain payload) (info : SampleInfo)
  | notify (n : Node) (key : List Byte) (info : SampleInfo)
  | evict (n : Node) (i : Nat)
  | take (n : Node) (rosMessage : Option Message) (messageInfo : Option MessageInfo)
  | takeSerialized (n : Node) (serializedMessage : SerializedMessage) (messageInfo : Option MessageInfo)
  | deserialize (n : Node) (serializedMessage : SerializedMessage)

variable {peers}

/-- The value of a message that is handed in. -/
def Outgoing.value {n : Node} (message : Outgoing peers n) : Value :=
  message.memory.value (peers n).host (peers n).root.toValueType message.address

namespace RelayState
variable (s : RelayState Node)

def initial : RelayState Node := ⟨[],fun _ => [],fun _ => [],[],[]⟩

section
variable [DecidableEq Node]

def enqueue (n : Node) (sample : QueuedSample) : RelayState Node :=
  {s with queue := Function.update s.queue n (s.queue n ++ [sample])}

def keep (n : Node) (message : SerializedMessage) : RelayState Node :=
  {s with kept := Function.update s.kept n (message :: s.kept n)}

end

def write (n : Node) (written : Option HeldSerdata) : RelayState Node :=
  {s with written := s.written ++ (written.map fun d => (n,d)).toList}

def receive (n : Node) (message : Option Message) : RelayState Node :=
  {s with received := (message.map fun m => (n,m)).toList ++ s.received}

variable [DecidableEq Node]

section
variable (peers)

def publish (n : Node) (message : Outgoing peers n) (writes : Bool) : Option (RelayState Node) :=
  match (peers n).sertype.rmwPublish (peers n).heap writes message.memory message.address with
  | .error _ => none
  | .ok (_,written) => some ({s with sent := message.value :: s.sent}.write n written)

def serialize (n : Node) (message : Outgoing peers n) (serializedMessage : SerializedMessage) : Option (RelayState Node) :=
  match rmwSerialize (peers n).host (peers n).resize (.ok (peers n).root) message.memory message.address serializedMessage with
  | .error _ => none
  | .ok (ret,new) => if ret = .ok then some ({s with sent := message.value :: s.sent}.keep n new) else some s

def publishSerialized (n : Node) (serializedMessage : SerializedMessage) (writes : Bool) : Option (RelayState Node) :=
  if serializedMessage ∈ s.kept n then
    match (peers n).sertype.rmwPublishSerializedMessage (peers n).heap writes serializedMessage with
    | .error _ => none
    | .ok (_,written) => some (s.write n written)
  else none

def deliverLocal (n : Node) (i : Nat) (info : SampleInfo) : Option (RelayState Node) :=
  match s.written[i]? with
  | none => none
  | some (n',d) => if n' = n then some (s.enqueue n ({info with validData := true},d)) else none

/-- The payload of a message on the wire is the data of its serdata. -/
def deliver (n : Node) (payload : List Byte) (chain : FragmentChain payload) (info : SampleInfo) : Option (RelayState Node) :=
  if payload ∈ s.written.map fun p => p.2.data then
    match (peers n).sertype.fromSer (peers n).heap .data chain.fragments payload.length with
    | .error _ => none
    | .ok none => some s
    | .ok (some d) => some (s.enqueue n ({info with validData := true},d.held))
  else none

def take (n : Node) (rosMessage : Option Message) (messageInfo : Option MessageInfo) : Option (RelayState Node) :=
  match (peers n).sertype.rmwTakeInt (peers n).heap (peers n).runtime (peers n).describe (s.queue n) rosMessage
    messageInfo with
  | .error _ => none
  | .ok result =>
    some ({s with queue := Function.update s.queue n result.rest}.receive n (if result.taken then result.message else none))

def takeSerialized (n : Node) (serializedMessage : SerializedMessage) (messageInfo : Option MessageInfo) :
    Option (RelayState Node) :=
  match (peers n).sertype.rmwTakeSerInt (peers n).heap (peers n).resize (peers n).describe (s.queue n) serializedMessage
    messageInfo with
  | .error _ => none
  | .ok result =>
    let s := {s with queue := Function.update s.queue n result.rest}
    some (if result.taken then s.keep n result.message else s)

def deserialize (n : Node) (serializedMessage : SerializedMessage) : Option (RelayState Node) :=
  if serializedMessage ∈ s.kept n then
    match do rmwDeserialize (peers n).host (peers n).runtime (.ok (peers n).root) (← serializedMessage.contents) with
    | .error _ => none
    | .ok message => some (s.receive n message)
  else none

/-- A call that does not return leads nowhere. -/
def next : RelayStep peers → Option (RelayState Node)
  | .publish n message writes => s.publish peers n message writes
  | .serialize n message serializedMessage => s.serialize peers n message serializedMessage
  | .publishSerialized n serializedMessage writes => s.publishSerialized peers n serializedMessage writes
  | .deliverLocal n i info => s.deliverLocal n i info
  | .deliver n payload chain info => s.deliver peers n payload chain info
  | .notify n key info => some (s.enqueue n ({info with validData := false},⟨⟨.key,[],key⟩,false,none⟩))
  | .evict n i => some {s with queue := Function.update s.queue n ((s.queue n).eraseIdx i)}
  | .take n rosMessage messageInfo => s.take peers n rosMessage messageInfo
  | .takeSerialized n serializedMessage messageInfo => s.takeSerialized peers n serializedMessage messageInfo
  | .deserialize n serializedMessage => s.deserialize peers n serializedMessage

end

end RelayState

variable [DecidableEq Node]

variable (peers) in
def relayMachine : Machine (RelayState Node) (RelayStep peers) := ⟨RelayState.initial,fun s step => s.next peers step⟩

end
end RmwCyclonedds
