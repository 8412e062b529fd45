import RmwCyclonedds.Library.Instances
import RmwCyclonedds.Node.MatchedEndpoints
import RmwCyclonedds.Node.QosRoundTrip
import RmwCyclonedds.Node.TakeSequence

/-! What is discovered, and what the graph cache is told about it. -/
namespace RmwCyclonedds
open Library

abbrev DdsGuid := {v : List Byte // v.length = 16}

structure RmwGid where
  implementationIdentifier : Text
  data : List Byte
  deriving DecidableEq

/-- The rest of the gid is zeroed. -/
def convertGuidToGid (gidSize : Nat) (guid : DdsGuid) : RmwGid :=
  ⟨eclipseCycloneddsIdentifier,guid.val ++ List.replicate (gidSize - 16) 0⟩

theorem convertGuidToGid_injective (gidSize : Nat) : Function.Injective (convertGuidToGid gidSize) := by
  intro a b h
  apply Subtype.ext
  exact List.append_inj_left (congrArg RmwGid.data h) (a.property.trans b.property.symm)

inductive BuiltinTopic where
  | participant
  | subscription
  | publication
  deriving DecidableEq

structure BuiltintopicParticipant where
  key : DdsGuid
  qos : Option EndpointQos

/-- The user data is a part of the QoS. -/
structure BuiltintopicEndpoint where
  key : DdsGuid
  participantKey : DdsGuid
  topicName : Text
  typeName : Text
  qos : DdsQos
  userdata : Option (List Byte)

/-- The data of a sample of one of the built-in topics. -/
inductive Discovered where
  | participant (s : BuiltintopicParticipant)
  | subscription (s : BuiltintopicEndpoint)
  | publication (s : BuiltintopicEndpoint)

namespace Discovered

def topic : Discovered → BuiltinTopic
  | participant _ => .participant
  | subscription _ => .subscription
  | publication _ => .publication

def key : Discovered → DdsGuid
  | participant s => s.key
  | subscription s | publication s => s.key

def participant? : Discovered → Option BuiltintopicParticipant
  | participant s => some s
  | _ => none

def endpoint? : Discovered → Option BuiltintopicEndpoint
  | subscription s | publication s => some s
  | participant _ => none

end Discovered

def rmwQosProfileUnknown : RmwQosProfile where
  history := .unknown
  depth := 0
  reliability := .unknown
  durability := .unknown
  deadline := .unspecified
  lifespan := .unspecified
  liveliness := .unknown
  livelinessLeaseDuration := .unspecified
  avoidRosNamespaceConventions := false

/-- The calls that change the graph cache. -/
inductive GraphCall (TypeHash Message : Type) where
  | addParticipant (gid : RmwGid) (enclave : List Byte)
  | removeParticipant (gid : RmwGid)
  | addEntity (gid : RmwGid) (topicName typeName : Text) (typeHash : TypeHash) (ppgid : RmwGid) (qosProfile : RmwQosProfile)
      (isReader : Bool) (serTypeHash : Option TypeHash)
  | removeEntity (gid : RmwGid) (isReader : Bool)
  | updateParticipantEntities (msg : Message)

namespace GraphCall
variable {TypeHash Message : Type}

/-- The participant or endpoint that is added or removed. -/
def subject : GraphCall TypeHash Message → Option (BuiltinTopic × RmwGid)
  | addParticipant gid _ | removeParticipant gid => some (.participant,gid)
  | addEntity gid _ _ _ _ _ isReader _ | removeEntity gid isReader =>
    some (if isReader then .subscription else .publication,gid)
  | updateParticipantEntities _ => none

def message? : GraphCall TypeHash Message → Option Message
  | updateParticipantEntities msg => some msg
  | _ => none

end GraphCall

/-- The context as discovery sees it, and the functions that read user data and QoS objects. A hash that cannot be parsed
is `none`. -/
structure DiscoveryContext (TypeHash : Type) where
  commonGid : RmwGid
  gidSize : Nat
  time : RmwTimeFunctions
  get : DdsQosGet
  parseKeyValue : List Byte → Text → Option (List Byte)
  parseTypeHashFromUserData : List Byte → Option TypeHash
  parseSertypeHashFromUserData : List Byte → Option TypeHash
  zeroInitializedTypeHash : TypeHash

namespace DiscoveryContext
variable {TypeHash : Type} (ctx : DiscoveryContext TypeHash) (Message : Type)

def gid (guid : DdsGuid) : RmwGid := convertGuidToGid ctx.gidSize guid

/-- A sample of the participant `key`: whether its instance is alive, and its data if they are valid. -/
def handleDCPSParticipant (key : DdsGuid) (alive : Bool) (data : Option BuiltintopicParticipant) :
    Option (GraphCall TypeHash Message) :=
  if ctx.gid key = ctx.commonGid then none
  else if !alive then some (.removeParticipant (ctx.gid key))
  else match data with
    | some s => (getUserDataKey ctx.parseKeyValue s.qos "enclave".toList).map (.addParticipant (ctx.gid key))
    | none => none

/-- Policies that cannot be read are left unknown. -/
def endpointQosProfile (qos : DdsQos) : RmwQosProfile :=
  match ddsQosToRmwQos ctx.time ctx.get qos rmwQosProfileUnknown with
  | .ok qosProfile => qosProfile
  | .error e => e.written

def handleBuiltintopicEndpoint (isReader : Bool) (key : DdsGuid) (alive : Bool) (data : Option BuiltintopicEndpoint) :
    Option (GraphCall TypeHash Message) :=
  if !alive then some (.removeEntity (ctx.gid key) isReader)
  else match data with
    | some s =>
      if "DCPS".toList.isPrefixOf s.topicName then none
      else some (.addEntity (ctx.gid key) s.topicName s.typeName
        ((s.userdata.bind ctx.parseTypeHashFromUserData).getD ctx.zeroInitializedTypeHash) (ctx.gid s.participantKey)
        (ctx.endpointQosProfile s.qos) isReader (s.userdata.bind ctx.parseSertypeHashFromUserData))
    | none => none

/-- The handlers of the readers of the built-in topics. -/
def handle (t : BuiltinTopic) (key : DdsGuid) (alive : Bool) (data : Option Discovered) :
    Option (GraphCall TypeHash Message) :=
  match t with
  | .participant => ctx.handleDCPSParticipant Message key alive (data.bind Discovered.participant?)
  | .subscription => ctx.handleBuiltintopicEndpoint Message true key alive (data.bind Discovered.endpoint?)
  | .publication => ctx.handleBuiltintopicEndpoint Message false key alive (data.bind Discovered.endpoint?)

variable {Message}

private theorem handleDCPSParticipant_subject {key : DdsGuid} {alive : Bool} {data : Option BuiltintopicParticipant}
    {c : GraphCall TypeHash Message} (h : ctx.handleDCPSParticipant Message key alive data = some c) :
    c.subject = some (.participant,ctx.gid key) ∧ ctx.gid key ≠ ctx.commonGid := by
  unfold handleDCPSParticipant at h
  split at h
  · cases h
  · next hne =>
    refine ⟨?_,hne⟩
    split at h
    · cases h
      rfl
    · cases data with
      | none => cases h
      | some s =>
        obtain ⟨enclave,_,rfl⟩ := Option.map_eq_some_iff.mp h
        rfl

private theorem handleBuiltintopicEndpoint_subject {isReader : Bool} {key : DdsGuid} {alive : Bool}
    {data : Option BuiltintopicEndpoint} {c : GraphCall TypeHash Message}
    (h : ctx.handleBuiltintopicEndpoint Message isReader key alive data = some c) :
    c.subject = some (if isReader then .subscription else .publication,ctx.gid key) := by
  unfold handleBuiltintopicEndpoint at h
  split at h
  · cases h
    rfl
  · cases data with
    | none => cases h
    | some s =>
      dsimp only at h
      split at h
      · cases h
      · cases h
        rfl

/-- A handler speaks of what the sample is about, and never of the local participant. -/
theorem handle_subject {t : BuiltinTopic} {key : DdsGuid} {alive : Bool} {data : Option Discovered}
    {c : GraphCall TypeHash Message} (h : ctx.handle Message t key alive data = some c) :
    c.subject = some (t,ctx.gid key) ∧ (t,ctx.gid key) ≠ (.participant,ctx.commonGid) := by
  cases t with
  | participant =>
    obtain ⟨hsubject,hne⟩ := ctx.handleDCPSParticipant_subject h
    exact ⟨hsubject,fun heq => hne (Prod.mk.inj heq).2⟩
  | subscription => exact ⟨ctx.handleBuiltintopicEndpoint_subject h,fun heq => nomatch (Prod.mk.inj heq).1⟩
  | publication => exact ⟨ctx.handleBuiltintopicEndpoint_subject h,fun heq => nomatch (Prod.mk.inj heq).1⟩

/-- No handler passes a message on. -/
theorem handle_message {t : BuiltinTopic} {key : DdsGuid} {alive : Bool} {data : Option Discovered}
    {c : GraphCall TypeHash Message} (h : ctx.handle Message t key alive data = some c) : c.message? = none := by
  have hsubject := (ctx.handle_subject h).1
  cases c with
  | updateParticipantEntities msg => cases hsubject
  | _ => rfl

end DiscoveryContext
end RmwCyclonedds
