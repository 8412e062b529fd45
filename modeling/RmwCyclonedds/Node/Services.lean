import RmwCyclonedds.Library.ByteOrder
import RmwCyclonedds.Library.Runs
import RmwCyclonedds.Library.Topic
import RmwCyclonedds.Node.Events

/-! Requests and responses between the clients and the services of one service name. -/
namespace RmwCyclonedds
open Library

/-- An instance handle of a DDS entity; 0 is none. -/
abbrev InstanceHandle := BitVec 64

structure CddsRequestHeader where
  guid : InstanceHandle
  seq : Int

structure CddsRequestWrapper (Data : Type) where
  header : CddsRequestHeader
  data : Data

structure RmwRequestId where
  writerGuid : List Byte
  sequenceNumber : Int
  deriving DecidableEq

structure RmwServiceInfo where
  sourceTimestamp : Int
  requestId : RmwRequestId

/-- What `dds_take` finds: a sample with data comes from one write. -/
structure Sample (Data : Type) where
  content : Option (CddsRequestWrapper Data)
  number : Nat
  sourceTimestamp : Int

def Sample.invalid {Data : Type} : Sample Data := ⟨none,0,0⟩

/-- The numbers of the writes that samples with data come from. -/
def Sample.numbers {Data : Type} (samples : List (Sample Data)) : List Nat :=
  samples.filterMap fun m => m.content.map fun _ => m.number

/-- The output arguments as they are left, the sample that sets `*taken`, and what stays in the reader. -/
structure TakeResult (Data : Type) where
  taken : Option (Sample Data)
  output : Option (RmwServiceInfo × Data)
  rest : List (Sample Data)

section
variable {Data : Type} (host : Endian)

def writerGuid (guid publicationHandle : InstanceHandle) : List Byte :=
  host.encode 8 guid.toNat ++ host.encode 8 publicationHandle.toNat

/-- Every sample that is taken can be decoded; its writer has its own handle in every reader. -/
def rmwTakeResponseRequest (publicationHandle : Nat → InstanceHandle) (srcfilter : InstanceHandle) :
    List (Sample Data) → Option (RmwServiceInfo × Data) → TakeResult Data
  | [], output => ⟨none,output,[]⟩
  | m :: samples, output =>
    match m.content with
    | none => rmwTakeResponseRequest publicationHandle srcfilter samples output
    | some wrap =>
      let requestId := ⟨writerGuid host wrap.header.guid (publicationHandle m.number),wrap.header.seq⟩
      let output := some (⟨m.sourceTimestamp,requestId⟩,wrap.data)
      if srcfilter = 0 ∨ srcfilter = wrap.header.guid then ⟨some m,output,samples⟩
      else rmwTakeResponseRequest publicationHandle srcfilter samples output

def rmwTakeResponse (publicationHandle : Nat → InstanceHandle) (pubiid : InstanceHandle) (samples : List (Sample Data)) :
    TakeResult Data := rmwTakeResponseRequest host publicationHandle pubiid samples none

def rmwTakeRequest (publicationHandle : Nat → InstanceHandle) (samples : List (Sample Data)) : TakeResult Data :=
  rmwTakeResponseRequest host publicationHandle 0 samples none

inductive ClientPresent where
  | failure
  | maybe
  | yes
  | gone

def responseHeader (requestId : RmwRequestId) : CddsRequestHeader :=
  ⟨BitVec.ofNat 64 (host.decode (requestId.writerGuid.take 8)),requestId.sequenceNumber⟩

/-- `present` is the state of the client's reader after waiting for it. -/
def rmwSendResponse (present : InstanceHandle → ClientPresent) (writes : Bool) (requestId : RmwRequestId) (rosResponse : Data) :
    RmwRet × Option (CddsRequestWrapper Data) :=
  let reqwrih := BitVec.ofNat 64 (host.decode (requestId.writerGuid.drop 8))
  match present reqwrih with
  | .failure => (.error,none)
  | .maybe => (.timeout,none)
  | .yes => if writes then (.ok,some ⟨responseHeader host requestId,rosResponse⟩) else (.error,none)
  | .gone => (.ok,none)

end

/-- The result, the counter of the process, the sequence id for the caller, and what is written. -/
def rmwSendRequest {Data : Type} (pubiid : InstanceHandle) (nextRequestId : BitVec 32) (writes : Bool) (rosRequest : Data) :
    RmwRet × BitVec 32 × Int × Option (CddsRequestWrapper Data) :=
  let nextRequestId := nextRequestId + 1
  let seq : Int := nextRequestId.toNat
  if writes then (.ok,nextRequestId,seq,some ⟨⟨pubiid,seq⟩,rosRequest⟩) else (.error,nextRequestId,seq,none)

/-- The parties, with the handles of the clients' request writers. -/
structure Deployment (Client Service Process : Type) where
  clientProcess : Client → Process
  serviceProcess : Service → Process
  host : Process → Endian
  pubiid : Client → InstanceHandle
  distinct : Function.Injective pubiid
  valid : ∀ c, pubiid c ≠ 0
  /-- The handles that readers have for the writers of samples. -/
  requestWriter : Service → Nat → InstanceHandle
  responseWriter : Client → Nat → InstanceHandle

/-! ### Records of calls -/

structure SentRequest (Client Request : Type) where
  number : Nat
  client : Client
  seq : Int
  data : Request

structure TakenRequest (Service Request : Type) where
  number : Nat
  service : Service
  requestId : RmwRequestId
  data : Request

structure SentResponse (Service Response : Type) where
  number : Nat
  service : Service
  requestId : RmwRequestId
  data : Response

structure TakenResponse (Client Response : Type) where
  number : Nat
  client : Client
  seq : Int
  data : Response

/-- The counters of the processes, the two topics, and the calls so far. -/
structure ServiceState (Client Service Process Request Response : Type) where
  nextRequestId : Process → BitVec 32
  requests : Topic Service (Sample Request)
  responses : Topic Client (Sample Response)
  sentRequests : List (SentRequest Client Request)
  takenRequests : List (TakenRequest Service Request)
  sentResponses : List (SentResponse Service Response)
  takenResponses : List (TakenResponse Client Response)

inductive ServiceStep (Client Service Request Response : Type) where
  | sendRequest (c : Client) (data : Request) (writes : Bool) (timestamp : Int)
  | takeRequest (v : Service)
  | sendResponse (v : Service) (requestId : RmwRequestId) (data : Response) (present : InstanceHandle → ClientPresent)
    (writes : Bool) (timestamp : Int)
  | takeResponse (c : Client)
  | moveRequests (m : Topic.Move Service)
  | moveResponses (m : Topic.Move Client)
  | invalidRequest (v : Service)
  | invalidResponse (c : Client)

section
variable {Client Service Process Request Response : Type} [DecidableEq Client] [DecidableEq Service] [DecidableEq Process]
variable (d : Deployment Client Service Process)

namespace ServiceState
variable (s : ServiceState Client Service Process Request Response)

def initial : ServiceState Client Service Process Request Response :=
  ⟨fun _ => 0,.empty,.empty,[],[],[],[]⟩

def sendRequest (c : Client) (data : Request) (writes : Bool) (timestamp : Int) :
    ServiceState Client Service Process Request Response :=
  let (_,next,seq,written) := rmwSendRequest (d.pubiid c) (s.nextRequestId (d.clientProcess c)) writes data
  let s := {s with nextRequestId := Function.update s.nextRequestId (d.clientProcess c) next}
  match written with
  | none => s
  | some wrap => {s with
      requests := s.requests.write ⟨some wrap,s.sentRequests.length,timestamp⟩
      sentRequests := ⟨s.sentRequests.length,c,seq,data⟩ :: s.sentRequests}

def takeRequest (v : Service) : ServiceState Client Service Process Request Response :=
  let result := rmwTakeRequest (d.host (d.serviceProcess v)) (d.requestWriter v) (s.requests.queue v)
  let s := {s with requests := s.requests.setQueue v result.rest}
  match result.taken, result.output with
  | some m, some (info,data) => {s with takenRequests := ⟨m.number,v,info.requestId,data⟩ :: s.takenRequests}
  | _, _ => s

def sendResponse (v : Service) (requestId : RmwRequestId) (data : Response) (present : InstanceHandle → ClientPresent)
    (writes : Bool) (timestamp : Int) : ServiceState Client Service Process Request Response :=
  match (rmwSendResponse (d.host (d.serviceProcess v)) present writes requestId data).2 with
  | none => s
  | some wrap => {s with
      responses := s.responses.write ⟨some wrap,s.sentResponses.length,timestamp⟩
      sentResponses := ⟨s.sentResponses.length,v,requestId,data⟩ :: s.sentResponses}

def takeResponse (c : Client) : ServiceState Client Service Process Request Response :=
  let result := rmwTakeResponse (d.host (d.clientProcess c)) (d.responseWriter c) (d.pubiid c) (s.responses.queue c)
  let s := {s with responses := s.responses.setQueue c result.rest}
  match result.taken, result.output with
  | some m, some (info,data) => {s with
      takenResponses := ⟨m.number,c,info.requestId.sequenceNumber,data⟩ :: s.takenResponses}
  | _, _ => s

/-- The request id was obtained in the same process. -/
def Obtained (v : Service) (requestId : RmwRequestId) : Prop :=
  ∃ q ∈ s.takenRequests, q.requestId = requestId ∧ d.serviceProcess q.service = d.serviceProcess v

instance (v : Service) (requestId : RmwRequestId) : Decidable (s.Obtained d v requestId) :=
  inferInstanceAs (Decidable (∃ q ∈ s.takenRequests, q.requestId = requestId ∧ d.serviceProcess q.service = d.serviceProcess v))

end ServiceState

/-- The calls of all clients and services in any order, with what the network does in between. Responses
are sent with request ids that were obtained by taking. -/
def serviceMachine : Machine (ServiceState Client Service Process Request Response)
    (ServiceStep Client Service Request Response) where
  start := .initial
  next s
    | .sendRequest c data writes timestamp => some (s.sendRequest d c data writes timestamp)
    | .takeRequest v => some (s.takeRequest d v)
    | .sendResponse v requestId data present writes timestamp =>
      if s.Obtained d v requestId then some (s.sendResponse d v requestId data present writes timestamp) else none
    | .takeResponse c => some (s.takeResponse d c)
    | .moveRequests m => some {s with requests := s.requests.move m}
    | .moveResponses m => some {s with responses := s.responses.move m}
    | .invalidRequest v => some {s with requests := s.requests.setQueue v (s.requests.queue v ++ [.invalid])}
    | .invalidResponse c => some {s with responses := s.responses.setQueue c (s.responses.queue c ++ [.invalid])}

end

/-! ### Taking -/

section
variable {Data : Type}

@[simp] theorem Sample.numbers_append (as bs : List (Sample Data)) : numbers (as ++ bs) = numbers as ++ numbers bs :=
  List.filterMap_append

@[simp] theorem Sample.numbers_invalid : numbers [(Sample.invalid : Sample Data)] = [] := rfl

theorem Sample.numbers_cons {m : Sample Data} {w : CddsRequestWrapper Data} (h : m.content = some w)
    (samples : List (Sample Data)) : numbers (m :: samples) = m.number :: numbers samples := by
  rw [numbers, List.filterMap_cons, h]
  rfl

/-- Taking ends at a sample that passes the filter, or has emptied the reader. -/
theorem rmwTakeResponseRequest_cases (host : Endian) (publicationHandle : Nat → InstanceHandle) (srcfilter : InstanceHandle)
    (samples : List (Sample Data)) (output : Option (RmwServiceInfo × Data)) :
    let result := rmwTakeResponseRequest host publicationHandle srcfilter samples output
    (result.taken = none ∧ result.rest = []) ∨
    ∃ skipped m wrap, samples = skipped ++ m :: result.rest ∧ m.content = some wrap ∧
      (srcfilter = 0 ∨ srcfilter = wrap.header.guid) ∧ result.taken = some m ∧
      result.output = some (⟨m.sourceTimestamp,
        ⟨writerGuid host wrap.header.guid (publicationHandle m.number),wrap.header.seq⟩⟩,wrap.data) := by
  induction samples generalizing output with
  | nil => exact .inl ⟨rfl,rfl⟩
  | cons m samples ih =>
    cases hc : m.content with
    | none =>
      simp only [rmwTakeResponseRequest, hc]
      rcases ih output with h | ⟨skipped,k,wrap,hs,h⟩
      · exact .inl h
      · exact .inr ⟨m :: skipped,k,wrap,congrArg (m :: ·) hs,h⟩
    | some wrap =>
      simp only [rmwTakeResponseRequest, hc]
      split
      · next hf => exact .inr ⟨[],m,wrap,rfl,hc,hf,rfl,rfl⟩
      · rcases ih _ with h | ⟨skipped,k,wrap',hs,h⟩
        · exact .inl h
        · exact .inr ⟨m :: skipped,k,wrap',congrArg (m :: ·) hs,h⟩

theorem rmwSendResponse_written {host : Endian} {present : InstanceHandle → ClientPresent} {writes : Bool}
    {requestId : RmwRequestId} {rosResponse : Data} {wrap : CddsRequestWrapper Data}
    (h : (rmwSendResponse host present writes requestId rosResponse).2 = some wrap) :
    wrap = ⟨responseHeader host requestId,rosResponse⟩ := by
  unfold rmwSendResponse at h
  simp only at h
  split at h
  · cases h
  · cases h
  · split at h
    · exact (Option.some.inj h).symm
    · cases h
  · cases h

theorem writerGuid_take (host : Endian) (guid publicationHandle : InstanceHandle) :
    (writerGuid host guid publicationHandle).take 8 = host.encode 8 guid.toNat :=
  List.take_left' (host.encode_length 8 _)

/-- A service answers to the client whose handle is in the request id. -/
theorem responseHeader_guid {host : Endian} {requestId : RmwRequestId} {guid : InstanceHandle}
    (h : requestId.writerGuid.take 8 = host.encode 8 guid.toNat) : (responseHeader host requestId).guid = guid := by
  rw [responseHeader, h, host.decode_encode (guid.isLt.trans_eq rfl)]
  exact BitVec.eq_of_toNat_eq (by rw [BitVec.toNat_ofNat, Nat.mod_eq_of_lt guid.isLt])

end

/-! ### The route of a response -/

private theorem nodup_of_subperm {as bs : List Nat} (h : as.Subperm bs) (hn : bs.Nodup) : as.Nodup := by
  obtain ⟨cs,hp,hs⟩ := h
  exact hp.nodup_iff.mp (hs.nodup hn)

private theorem subperm_numbers {Data : Type} {as bs : List (Sample Data)} (h : as.Subperm bs) :
    (Sample.numbers as).Subperm (Sample.numbers bs) := by
  obtain ⟨cs,hp,hs⟩ := h
  exact ⟨Sample.numbers cs,hp.filterMap _,hs.filterMap _⟩

section
variable {Client Service Process Request Response : Type} [DecidableEq Client]
variable {d : Deployment Client Service Process}

namespace ServiceState

/-- The numbers of the responses that a client has taken. -/
def takenNumbers (s : ServiceState Client Service Process Request Response) (c : Client) : List Nat :=
  (s.takenResponses.filter fun t => t.client = c).map TakenResponse.number

/-- Each message under way and each record of a taken one goes back to the record of what was sent. -/
structure Routed (d : Deployment Client Service Process) (s : ServiceState Client Service Process Request Response) :
    Prop where
  request : ∀ v, ∀ m ∈ s.requests.pending v, ∀ wrap, m.content = some wrap →
    ∃ r ∈ s.sentRequests, r.number = m.number ∧ wrap.header = ⟨d.pubiid r.client,r.seq⟩
  obtained : ∀ q ∈ s.takenRequests, ∃ r ∈ s.sentRequests, r.number = q.number ∧ r.seq = q.requestId.sequenceNumber ∧
    q.requestId.writerGuid.take 8 = (d.host (d.serviceProcess q.service)).encode 8 (d.pubiid r.client).toNat
  sent : ∀ r ∈ s.sentResponses, s.Obtained d r.service r.requestId
  response : ∀ c, ∀ m ∈ s.responses.pending c, ∀ wrap, m.content = some wrap → ∃ r ∈ s.sentResponses,
    r.number = m.number ∧ wrap = ⟨responseHeader (d.host (d.serviceProcess r.service)) r.requestId,r.data⟩
  taken : ∀ t ∈ s.takenResponses, ∃ r ∈ s.sentResponses, r.number = t.number ∧ r.data = t.data ∧
    responseHeader (d.host (d.serviceProcess r.service)) r.requestId = ⟨d.pubiid t.client,t.seq⟩
  numbered : (s.sentResponses.map SentResponse.number).Nodup
  earlier : ∀ r ∈ s.sentResponses, r.number < s.sentResponses.length
  once : ∀ c, (s.takenNumbers c ++ Sample.numbers (s.responses.pending c)).Nodup

private theorem initial_routed : Routed d (initial : ServiceState Client Service Process Request Response) := by
  refine ⟨nofun,nofun,nofun,nofun,nofun,List.nodup_nil,nofun,fun c => List.nodup_nil⟩

variable {s : ServiceState Client Service Process Request Response}

private theorem Routed.moveRequests (h : Routed d s) {t : Topic Service (Sample Request)}
    (ht : ∀ v, ∀ m ∈ t.pending v, m.content = none ∨ m ∈ s.requests.pending v) : Routed d {s with requests := t} := by
  refine {h with request := ?_}
  intro v m hm wrap hw
  rcases ht v m hm with hnone | hm
  · rw [hnone] at hw
    cases hw
  · exact h.request v m hm wrap hw

private theorem Routed.moveResponses (h : Routed d s) {t : Topic Client (Sample Response)}
    (ht : ∀ c, ∀ m ∈ t.pending c, m.content = none ∨ m ∈ s.responses.pending c)
    (hn : ∀ c, (Sample.numbers (t.pending c)).Subperm (Sample.numbers (s.responses.pending c))) :
    Routed d {s with responses := t} := by
  refine {h with response := ?_, once := ?_}
  · intro c m hm wrap hw
    rcases ht c m hm with hnone | hm
    · rw [hnone] at hw
      cases hw
    · exact h.response c m hm wrap hw
  · intro c
    exact nodup_of_subperm ((List.subperm_append_left _).mpr (hn c)) (h.once c)

section
variable [DecidableEq Process]

private theorem Routed.sendRequest (h : Routed d s) (c : Client) (data : Request) (writes : Bool) (timestamp : Int) :
    Routed d (s.sendRequest d c data writes timestamp) := by
  cases writes with
  | false => exact {h with}
  | true =>
    refine {h with request := ?_, obtained := ?_}
    · intro v m hm wrap hw
      rcases List.mem_cons.mp hm with rfl | hm
      · cases hw
        exact ⟨_,List.mem_cons_self,rfl,rfl⟩
      · obtain ⟨r,hr,he⟩ := h.request v m hm wrap hw
        exact ⟨r,List.mem_cons_of_mem _ hr,he⟩
    · intro q hq
      obtain ⟨r,hr,he⟩ := h.obtained q hq
      exact ⟨r,List.mem_cons_of_mem _ hr,he⟩

end

section
variable [DecidableEq Service]

private theorem Routed.takeRequest (h : Routed d s) (v : Service) : Routed d (s.takeRequest d v) := by
  have hcases := rmwTakeResponseRequest_cases (d.host (d.serviceProcess v)) (d.requestWriter v) 0 (s.requests.queue v) none
  unfold ServiceState.takeRequest rmwTakeRequest
  generalize rmwTakeResponseRequest _ _ _ _ _ = result at hcases ⊢
  rcases hcases with ⟨htaken,hrest⟩ | ⟨skipped,m,wrap,hq,hc,-,htaken,hout⟩
  · simp only [htaken]
    apply h.moveRequests
    intro v' m hm
    rw [hrest] at hm
    exact .inr ((s.requests.pending_setQueue_sublist (List.nil_sublist _) v').subset hm)
  · simp only [htaken, hout]
    have hmoved := h.moveRequests (t := s.requests.setQueue v result.rest)
      fun v' k hk => .inr ((Topic.pending_taken hq v').subset hk)
    refine {hmoved with obtained := ?_, sent := ?_}
    · intro q hqm
      rcases List.mem_cons.mp hqm with rfl | hqm
      · obtain ⟨r,hr,hn,hw⟩ := h.request v m (Topic.mem_pending_of_queue hq) wrap hc
        refine ⟨r,hr,hn,?_,?_⟩
        · rw [hw]
        · rw [writerGuid_take, hw]
      · exact h.obtained q hqm
    · intro r hr
      obtain ⟨q,hqm,he⟩ := h.sent r hr
      exact ⟨q,List.mem_cons_of_mem _ hqm,he⟩

end

private theorem Routed.taken_earlier (h : Routed d s) {c : Client} {n : Nat} (hn : n ∈ s.takenNumbers c) :
    n < s.sentResponses.length := by
  obtain ⟨t,ht,rfl⟩ := List.mem_map.mp hn
  obtain ⟨r,hr,he,-⟩ := h.taken t (List.mem_filter.mp ht).1
  exact he ▸ h.earlier r hr

private theorem Routed.pending_earlier (h : Routed d s) {c : Client} {n : Nat}
    (hn : n ∈ Sample.numbers (s.responses.pending c)) : n < s.sentResponses.length := by
  obtain ⟨m,hm,he⟩ := List.mem_filterMap.mp hn
  obtain ⟨wrap,hw,rfl⟩ := Option.map_eq_some_iff.mp he
  obtain ⟨r,hr,hr',-⟩ := h.response c m hm wrap hw
  exact hr' ▸ h.earlier r hr

private theorem Routed.sendResponse (h : Routed d s) {v : Service} {requestId : RmwRequestId}
    (ho : s.Obtained d v requestId) (data : Response) (present : InstanceHandle → ClientPresent) (writes : Bool)
    (timestamp : Int) : Routed d (s.sendResponse d v requestId data present writes timestamp) := by
  unfold ServiceState.sendResponse
  cases hw : (rmwSendResponse (d.host (d.serviceProcess v)) present writes requestId data).2 with
  | none => exact h
  | some wrap =>
    refine {h with sent := ?_, response := ?_, taken := ?_, numbered := ?_, earlier := ?_, once := ?_}
    · intro r hr
      rcases List.mem_cons.mp hr with rfl | hr
      · exact ho
      · exact h.sent r hr
    · intro c m hm wrap' hw'
      rcases List.mem_cons.mp hm with rfl | hm
      · cases hw'
        exact ⟨_,List.mem_cons_self,rfl,rmwSendResponse_written hw⟩
      · obtain ⟨r,hr,he⟩ := h.response c m hm wrap' hw'
        exact ⟨r,List.mem_cons_of_mem _ hr,he⟩
    · intro t ht
      obtain ⟨r,hr,he⟩ := h.taken t ht
      exact ⟨r,List.mem_cons_of_mem _ hr,he⟩
    · refine List.nodup_cons.mpr ⟨fun hn => ?_,h.numbered⟩
      obtain ⟨r,hr,he⟩ := List.mem_map.mp hn
      exact absurd (h.earlier r hr) (he ▸ lt_irrefl _)
    · intro r hr
      rcases List.mem_cons.mp hr with rfl | hr
      · exact Nat.lt_succ_self _
      · exact (h.earlier r hr).trans (Nat.lt_succ_self _)
    · intro c
      have hnew : s.sentResponses.length ∉ s.takenNumbers c ++ Sample.numbers (s.responses.pending c) := by
        intro hn
        rcases List.mem_append.mp hn with hn | hn
        · exact lt_irrefl _ (h.taken_earlier hn)
        · exact lt_irrefl _ (h.pending_earlier hn)
      rw [Topic.pending_write, Sample.numbers_cons (w := wrap) rfl]
      exact List.perm_middle.nodup_iff.mpr (List.nodup_cons.mpr ⟨hnew,h.once c⟩)

/-- The number of a response moves from those under way to those taken. -/
private theorem Routed.once_taken (h : Routed d s) {c : Client} {skipped rest : List (Sample Response)} {m : Sample Response}
    {wrap : CddsRequestWrapper Response} (hq : s.responses.queue c = skipped ++ m :: rest) (hc : m.content = some wrap) :
    (m.number :: s.takenNumbers c ++ Sample.numbers (s.responses.flight c ++ rest)).Nodup := by
  have hold := h.once c
  rw [Topic.pending, hq, Sample.numbers_append, Sample.numbers_append, Sample.numbers_cons hc] at hold
  have hmiddle : (s.takenNumbers c ++ Sample.numbers (s.responses.flight c) ++ m.number :: Sample.numbers rest).Nodup := by
    rw [List.append_assoc]
    apply List.Sublist.nodup _ hold
    exact (List.Sublist.refl _).append ((List.Sublist.refl _).append (List.sublist_append_right _ _))
  have htook : m.number :: s.takenNumbers c ++ Sample.numbers (s.responses.flight c ++ rest) =
      m.number :: (s.takenNumbers c ++ Sample.numbers (s.responses.flight c) ++ Sample.numbers rest) := by
    simp only [Sample.numbers_append, List.cons_append, List.append_assoc]
  rw [htook]
  exact List.perm_middle.nodup_iff.mp hmiddle

private theorem takenNumbers_take (s : ServiceState Client Service Process Request Response)
    (responses : Topic Client (Sample Response)) (t : TakenResponse Client Response) (c : Client) :
    takenNumbers {s with responses, takenResponses := t :: s.takenResponses} c =
      if t.client = c then t.number :: s.takenNumbers c else s.takenNumbers c := by
  by_cases he : t.client = c
  · simp only [takenNumbers, List.filter_cons, he, decide_true, if_true, List.map_cons]
  · simp only [takenNumbers, List.filter_cons, he, decide_false, Bool.false_eq_true, if_false]

private theorem Routed.takeResponse (h : Routed d s) (c : Client) : Routed d (s.takeResponse d c) := by
  have hcases := rmwTakeResponseRequest_cases (d.host (d.clientProcess c)) (d.responseWriter c) (d.pubiid c)
    (s.responses.queue c) none
  unfold ServiceState.takeResponse rmwTakeResponse
  generalize rmwTakeResponseRequest _ _ _ _ _ = result at hcases ⊢
  rcases hcases with ⟨htaken,hrest⟩ | ⟨skipped,m,wrap,hq,hc,hfilter,htaken,hout⟩
  · simp only [htaken]
    have hsub : ∀ c', ((s.responses.setQueue c result.rest).pending c').Sublist (s.responses.pending c') := by
      rw [hrest]
      exact s.responses.pending_setQueue_sublist (List.nil_sublist _)
    apply h.moveResponses
    · exact fun c' k hk => .inr ((hsub c').subset hk)
    · exact fun c' => ((hsub c').filterMap _).subperm
  · simp only [htaken, hout]
    refine {h with response := ?_, taken := ?_, once := ?_}
    · intro c' k hk
      exact h.response c' k ((Topic.pending_taken hq c').subset hk)
    · intro t ht
      rcases List.mem_cons.mp ht with rfl | ht
      · obtain ⟨r,hr,hn,hw⟩ := h.response c m (Topic.mem_pending_of_queue hq) wrap hc
        have hguid := hfilter.resolve_left (d.valid c)
        refine ⟨r,hr,hn,by rw [hw],?_⟩
        rw [hguid, hw]
      · exact h.taken t ht
    · intro c'
      rw [takenNumbers_take]
      by_cases he : c = c'
      · subst he
        rw [if_pos rfl, Topic.pending_setQueue]
        exact h.once_taken hq hc
      · rw [if_neg he, Topic.pending_setQueue_of_ne _ (Ne.symm he)]
        exact h.once c'

private theorem Routed.invalidResponse (h : Routed d s) (c : Client) :
    Routed d {s with responses := s.responses.setQueue c (s.responses.queue c ++ [.invalid])} := by
  have hpending : ∀ c', (s.responses.setQueue c (s.responses.queue c ++ [.invalid])).pending c' = s.responses.pending c' ∨
      (s.responses.setQueue c (s.responses.queue c ++ [.invalid])).pending c' = s.responses.pending c' ++ [.invalid] := by
    intro c'
    by_cases he : c' = c
    · subst he
      rw [Topic.pending_setQueue, Topic.pending, List.append_assoc]
      exact .inr rfl
    · exact .inl (Topic.pending_setQueue_of_ne _ he _)
  apply h.moveResponses
  · intro c' m hm
    rcases hpending c' with hp | hp
    · exact .inr (hp ▸ hm)
    · rw [hp] at hm
      rcases List.mem_append.mp hm with hm | hm
      · exact .inr hm
      · rw [List.mem_singleton.mp hm]
        exact .inl rfl
  · intro c'
    rcases hpending c' with hp | hp
    · rw [hp]
    · rw [hp, Sample.numbers_append, Sample.numbers_invalid, List.append_nil]

/-! ### Runs -/

section
variable [DecidableEq Service]

private theorem Routed.invalidRequest (h : Routed d s) (v : Service) :
    Routed d {s with requests := s.requests.setQueue v (s.requests.queue v ++ [.invalid])} := by
  apply h.moveRequests
  intro v' m hm
  by_cases he : v' = v
  · subst he
    rw [Topic.pending_setQueue, ← List.append_assoc] at hm
    rcases List.mem_append.mp hm with hm | hm
    · exact .inr hm
    · rw [List.mem_singleton.mp hm]
      exact .inl rfl
  · rw [Topic.pending_setQueue_of_ne _ he] at hm
    exact .inr hm

variable [DecidableEq Process]

private theorem Routed.next (h : Routed d s) {step : ServiceStep Client Service Request Response}
    {s' : ServiceState Client Service Process Request Response} (hnext : (serviceMachine d).next s step = some s') :
    Routed d s' := by
  cases step with
  | sendRequest c data writes timestamp =>
    cases hnext
    exact h.sendRequest c data writes timestamp
  | takeRequest v =>
    cases hnext
    exact h.takeRequest v
  | sendResponse v requestId data present writes timestamp =>
    simp only [serviceMachine] at hnext
    split at hnext
    · next ho =>
      cases hnext
      exact h.sendResponse ho data present writes timestamp
    · cases hnext
  | takeResponse c =>
    cases hnext
    exact h.takeResponse c
  | moveRequests m =>
    cases hnext
    exact h.moveRequests fun v k hk => .inr ((s.requests.pending_move m v).subset hk)
  | moveResponses m =>
    cases hnext
    apply h.moveResponses
    · exact fun c k hk => .inr ((s.responses.pending_move m c).subset hk)
    · exact fun c => subperm_numbers (s.responses.pending_move m c)
  | invalidRequest v =>
    cases hnext
    exact h.invalidRequest v
  | invalidResponse c =>
    cases hnext
    exact h.invalidResponse c

private theorem run_routed {steps : List (ServiceStep Client Service Request Response)}
    {s : ServiceState Client Service Process Request Response} (h : (serviceMachine d).run steps = some s) : Routed d s := by
  apply Machine.invariant initial_routed _ h
  intro s step s' hrouted hnext
  exact hrouted.next hnext

omit [DecidableEq Service] [DecidableEq Process] in
private theorem Routed.same_client (h : Routed d s) {t u : TakenResponse Client Response} (ht : t ∈ s.takenResponses)
    (hu : u ∈ s.takenResponses) (hn : t.number = u.number) : t.client = u.client := by
  obtain ⟨r,hr,hrn,-,hrh⟩ := h.taken t ht
  obtain ⟨q,hq,hqn,-,hqh⟩ := h.taken u hu
  have he : r = q := List.inj_on_of_nodup_map h.numbered hr hq (hrn.trans (hn.trans hqn.symm))
  rw [he, hqh] at hrh
  exact d.distinct (congrArg CddsRequestHeader.guid hrh).symm

omit [DecidableEq Service] [DecidableEq Process] in
private theorem Routed.taken_once (h : Routed d s) : (s.takenResponses.map TakenResponse.number).Nodup := by
  rw [List.Nodup, List.pairwise_map, List.pairwise_iff_forall_sublist]
  intro t u hsub hn
  have ht := hsub.subset List.mem_cons_self
  have hu := hsub.subset (List.mem_cons_of_mem _ List.mem_cons_self)
  have hc := h.same_client ht hu hn
  have hnodup : (s.takenNumbers u.client).Nodup := (List.nodup_append.mp (h.once u.client)).1
  have hboth : [t.number,u.number].Sublist (s.takenNumbers u.client) := by
    have hfilter := (hsub.filter fun t => t.client = u.client).map TakenResponse.number
    simpa only [takenNumbers, List.filter_cons, hc, decide_true, if_true, List.filter_nil, List.map_cons, List.map_nil]
      using hfilter
  have hpair := hnodup.sublist hboth
  rw [hn] at hpair
  exact (List.nodup_cons.mp hpair).1 List.mem_cons_self

/-- Every response that a client takes was sent for a request that the client itself sent with the sequence
number it gets back, and no response is taken twice. -/
theorem responses_routed {steps : List (ServiceStep Client Service Request Response)}
    {s : ServiceState Client Service Process Request Response} (h : (serviceMachine d).run steps = some s) :
    (∀ t ∈ s.takenResponses, ∃ r ∈ s.sentResponses, r.number = t.number ∧ r.data = t.data ∧
      ∃ q ∈ s.takenRequests, q.requestId = r.requestId ∧
        ∃ p ∈ s.sentRequests, p.number = q.number ∧ p.client = t.client ∧ p.seq = t.seq) ∧
    (s.takenResponses.map TakenResponse.number).Nodup := by
  have hrouted := run_routed h
  refine ⟨?_,hrouted.taken_once⟩
  intro t ht
  obtain ⟨r,hr,hn,hdata,hheader⟩ := hrouted.taken t ht
  obtain ⟨q,hq,hid,hprocess⟩ := hrouted.sent r hr
  obtain ⟨p,hp,hpn,hseq,hguid⟩ := hrouted.obtained q hq
  refine ⟨r,hr,hn,hdata,q,hq,hid,p,hp,hpn,?_,?_⟩
  · rw [hid, hprocess] at hguid
    have hself := responseHeader_guid hguid
    rw [hheader] at hself
    exact (d.distinct hself).symm
  · rw [hseq, hid]
    exact congrArg CddsRequestHeader.seq hheader

end

end ServiceState
end

/-- One client and one service in one process. -/
def onePair : Deployment Unit Unit Unit where
  clientProcess := id
  serviceProcess := id
  host _ := .little
  pubiid _ := 1
  distinct _ _ _ := rfl
  valid _ := by decide
  requestWriter _ _ := 1
  responseWriter _ _ := 2

/-- A request is sent, delivered, taken and answered, and the answer is delivered and taken. -/
def oneExchange : List (ServiceStep Unit Unit Unit Unit) :=
  [.sendRequest () () true 0,.moveRequests (.deliver () 0),.takeRequest (),
    .sendResponse () ⟨writerGuid .little 1 1,1⟩ () (fun _ => .yes) true 0,.moveResponses (.deliver () 0),.takeResponse ()]

theorem oneExchange_routed : ∃ s, (serviceMachine onePair).run oneExchange = some s ∧
    ∀ t ∈ s.takenResponses, ∃ p ∈ s.sentRequests, p.client = t.client ∧ p.seq = t.seq := by
  obtain ⟨s,hs⟩ : ∃ s, (serviceMachine onePair).run oneExchange = some s := ⟨_,rfl⟩
  refine ⟨s,hs,fun t ht => ?_⟩
  obtain ⟨-,-,-,-,-,-,-,p,hp,-,he⟩ := (ServiceState.responses_routed hs).1 t ht
  exact ⟨p,hp,he⟩

end RmwCyclonedds
