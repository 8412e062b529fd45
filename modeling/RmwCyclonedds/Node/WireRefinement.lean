import RmwCyclonedds.Library.Simulation
import RmwCyclonedds.Node.WireServices

/-! What clients and services do with serdata, they could do with plain requests and responses. -/
namespace RmwCyclonedds
open Library

/-! ### Sequence numbers -/

/-- The number that a host finds in the bytes that a client's host has stored. -/
def seenFrom (client host : Endian) (x : BitVec 64) : BitVec 64 := BitVec.ofNat 64 (host.decode (client.encode 8 x.toNat))

theorem seenFrom_self (host : Endian) (x : BitVec 64) : seenFrom host host x = x := by
  rw [seenFrom, host.decode_encode (x.isLt.trans_eq rfl), BitVec.ofNat_toNat, BitVec.setWidth_eq]

/-- A host that passes a number on stores the bytes that it has found. -/
theorem encode_seenFrom (client host : Endian) (x : BitVec 64) :
    host.encode 8 (seenFrom client host x).toNat = client.encode 8 x.toNat := by
  have hlength := client.encode_length 8 x.toNat
  have hlt : host.decode (client.encode 8 x.toNat) < 2 ^ 64 := (host.decode_lt _).trans_eq (by rw [hlength]; rfl)
  have hencode := host.encode_decode (client.encode 8 x.toNat)
  rw [hlength] at hencode
  rw [seenFrom, BitVec.toNat_ofNat, Nat.mod_eq_of_lt hlt, hencode]

section
variable {Client Service Process : Type}

/-! ### The relation -/

section
variable (d : Deployment Client Service Process)

/-- A sample with data holds a header and a value, the sequence number in the byte order of the client's host. -/
structure Stands (types : ∀ p, WireType (d.host p)) (m : WireSample Process) (m' : Sample Value) : Prop where
  number : m.number = m'.number
  sourceTimestamp : m.sourceTimestamp = m'.sourceTimestamp
  invalid : m.validData = false → m'.content = none ∧ m.serdata.loan = none
  valid : m.validData = true → ∃ (c : Client) (x : BitVec 64) (v : Value), m'.content = some ⟨⟨d.pubiid c,x.toInt⟩,v⟩ ∧
    Bears m.serdata (d.pubiid c) ((d.host (d.clientProcess c)).encode 8 x.toNat) v ∧ v.Fits ∧
      ∀ p, (types p).root.toValueType.Has v

/-- Two ids of one request of a client; the sequence number of the first is the one that a host sees. -/
structure SameRequest (host : Endian) (c : Client) (id id' : RmwRequestId) : Prop where
  writerGuid : id.writerGuid = id'.writerGuid
  client : id.writerGuid.take 8 = host.encode 8 (d.pubiid c).toNat
  sequenceNumber : ∃ x : BitVec 64, id'.sequenceNumber = x.toInt ∧
    id.sequenceNumber = (seenFrom (d.host (d.clientProcess c)) host x).toInt

/-- The same calls with the same values. Only the sequence number in a request id may look different to a service, in
the byte order of its own host. -/
structure WireState.Refines (types : WireTypes d) (s : WireState Client Service Process)
    (t : ServiceState Client Service Process Value Value) : Prop where
  nextRequestId : s.nextRequestId = t.nextRequestId
  requests : s.requests.Rel (Stands d types.request) t.requests
  responses : s.responses.Rel (Stands d types.response) t.responses
  sentRequests : s.sentRequests = t.sentRequests
  takenRequests : List.Forall₂ (fun q q' => q.number = q'.number ∧ q.service = q'.service ∧ q.data = q'.data ∧
    ∃ c, SameRequest d (d.host (d.serviceProcess q.service)) c q.requestId q'.requestId) s.takenRequests t.takenRequests
  sentResponses : List.Forall₂ (fun r r' => r.number = r'.number ∧ r.service = r'.service ∧ r.data = r'.data ∧
    ∃ c, SameRequest d (d.host (d.serviceProcess r.service)) c r.requestId r'.requestId) s.sentResponses t.sentResponses
  takenResponses : s.takenResponses = t.takenResponses

end

variable {d : Deployment Client Service Process}

/-! ### Taking -/

section
variable {types : ∀ p, WireType (d.host p)} {samples : List (WireSample Process)} {samples' : List (Sample Value)}

/-- Whatever is in the reader, taking returns. -/
private theorem exists_take (p : Process) (publicationHandle : Nat → InstanceHandle) (srcfilter : InstanceHandle)
    (h : List.Forall₂ (Stands d types) samples samples') (output : Option (RmwServiceInfo × Value)) :
    ∃ result, (types p).sertype.rmwTakeResponseRequest (types p).heap (types p).runtime publicationHandle srcfilter samples
      output = .ok result := by
  induction h generalizing output with
  | nil => exact ⟨_,rfl⟩
  | @cons m m' samples samples' hm hsamples ih =>
    rw [Sertype.rmwTakeResponseRequest]
    cases hvalid : m.validData with
    | false =>
      have hd : m.serdata = ⟨m.serdata.toSerdataRmw,m.serdata.typed,none⟩ := by rw [← (hm.invalid hvalid).2]
      have hnever : NeverRefuses (types p).runtime := fun _ _ hr => by rw [(types p).provided] at hr; cases hr
      obtain ⟨o,ho⟩ := (types p).sertype.exists_toSampleImpl (types p).heap hnever m.serdata.toSerdataRmw m.serdata.typed
      rw [hd]
      simp only [ho, bind, Except.bind]
      cases o with
      | none => exact ⟨_,rfl⟩
      | some wrap => exact ih output
    | true =>
      obtain ⟨c,x,v,hcontent,hbears,hf,hv⟩ := hm.valid hvalid
      simp only [hbears.toSample (types p).sertype (types p).heap (types p).provided (hv p) hf, bind, Except.bind, if_true]
      split
      · exact ⟨_,rfl⟩
      · exact ih _

/-- What is taken of serdata is what would be taken of samples, unless `dds_take` has failed on the way. -/
private theorem take_simulated (p : Process) (publicationHandle : Nat → InstanceHandle) (srcfilter : InstanceHandle)
    (h : List.Forall₂ (Stands d types) samples samples') (output output' : Option (RmwServiceInfo × Value))
    {result : WireTaken Process} (hr : (types p).sertype.rmwTakeResponseRequest (types p).heap (types p).runtime
      publicationHandle srcfilter samples output = .ok result) :
    (result.taken = none ∧ ∃ k, List.Forall₂ (Stands d types) result.rest (samples'.drop k)) ∨
    ∃ m m' info info' v rest' c, result.taken = some m ∧ result.output = some (info,v) ∧ m.number = m'.number ∧
      rmwTakeResponseRequest (d.host p) publicationHandle srcfilter samples' output' = ⟨some m',some (info',v),rest'⟩ ∧
      List.Forall₂ (Stands d types) result.rest rest' ∧ (srcfilter = 0 ∨ srcfilter = d.pubiid c) ∧
      SameRequest d (d.host p) c info.requestId info'.requestId := by
  induction h generalizing output output' with
  | nil =>
    cases hr
    exact .inl ⟨rfl,0,.nil⟩
  | @cons m m' samples samples' hm hsamples ih =>
    rw [Sertype.rmwTakeResponseRequest] at hr
    obtain ⟨o,ho,hr⟩ := Outcome.bind_eq_ok hr
    cases hvalid : m.validData with
    | false =>
      have hnone := (hm.invalid hvalid).1
      cases o with
      | none =>
        cases hr
        exact .inl ⟨rfl,1,hsamples⟩
      | some wrap =>
        simp only [hvalid, Bool.false_eq_true, if_false] at hr
        simp only [rmwTakeResponseRequest, hnone]
        rcases ih output output' hr with ⟨htaken,k,hrest⟩ | htaken
        · exact .inl ⟨htaken,k + 1,hrest⟩
        · exact .inr htaken
    | true =>
      obtain ⟨c,x,v,hcontent,hbears,hf,hv⟩ := hm.valid hvalid
      rw [hbears.toSample (types p).sertype (types p).heap (types p).provided (hv p) hf] at ho
      cases ho
      have hguid : BitVec.ofNat 64 (d.pubiid c).toNat = d.pubiid c := by rw [BitVec.ofNat_toNat, BitVec.setWidth_eq]
      simp only [hvalid, if_true, CddsRequestHeader.ofRead, hguid] at hr
      simp only [rmwTakeResponseRequest, hcontent]
      by_cases hfilter : srcfilter = 0 ∨ srcfilter = d.pubiid c
      · rw [if_pos hfilter] at hr
        rw [if_pos hfilter]
        cases hr
        refine .inr ⟨_,_,_,_,_,_,c,rfl,rfl,hm.number,rfl,hsamples,hfilter,?_,?_,x,rfl,rfl⟩
        · rw [hm.number]
        · exact writerGuid_take _ _ _
      · rw [if_neg hfilter] at hr
        rw [if_neg hfilter]
        rcases ih _ _ hr with ⟨htaken,k,hrest⟩ | htaken
        · exact .inl ⟨htaken,k + 1,hrest⟩
        · exact .inr htaken

end

/-! ### Messages under way -/

section
variable {Reader : Type} [DecidableEq Reader] [DecidableEq Process] {types : ∀ p, WireType (d.host p)}
  {requests : Topic Reader (WireSample Process)} {requests' : Topic Reader (Sample Value)}

/-- On their way messages are delivered or lost, or an invalid sample is put behind those that wait. -/
private theorem move_simulated (h : requests.Rel (Stands d types) requests') {r : Reader} {p : Process} {m : WireMove}
    {moved : Topic Reader (WireSample Process)} (hm : wireMove (types p) r p requests m = some moved) :
    (∃ m', moved.Rel (Stands d types) (requests'.move m')) ∨
      moved.Rel (Stands d types) (requests'.setQueue r (requests'.queue r ++ [.invalid])) := by
  cases m with
  | lose i =>
    cases hm
    exact .inl ⟨_,h.lose r i⟩
  | evict i =>
    cases hm
    exact .inl ⟨_,h.evict r i⟩
  | notify key =>
    cases hm
    exact .inr (h.setQueue r (forall₂_concat (h.queue r) ⟨rfl,rfl,fun _ => ⟨rfl,rfl⟩,nofun⟩))
  | deliverLocal i =>
    cases hi : (requests.flight r)[i]? with
    | none =>
      rw [wireMove, hi] at hm
      cases hm
    | some sample =>
      obtain ⟨sample',hi',hsample⟩ := forall₂_getElem? (h.flight r) hi
      simp only [wireMove, hi] at hm
      split at hm
      · cases hm
        rw [Topic.move_deliver hi]
        exact .inl ⟨_,h.deliver r hi' hsample⟩
      · cases hm
  | deliver i payload chain =>
    cases hi : (requests.flight r)[i]? with
    | none =>
      rw [wireMove, hi] at hm
      cases hm
    | some sample =>
      obtain ⟨sample',hi',hsample⟩ := forall₂_getElem? (h.flight r) hi
      obtain ⟨e,he,hkind,hdata⟩ := (types p).sertype.exists_fromSer .data (types p).provides chain
      simp only [wireMove, hi, he] at hm
      split at hm
      · next hpayload =>
        cases hm
        refine .inl ⟨_,h.deliver r hi' {hsample with
          invalid := fun hinvalid => ⟨(hsample.invalid hinvalid).1,rfl⟩, valid := fun hvalid => ?_}⟩
        obtain ⟨c,x,v,hcontent,hbears,hread⟩ := hsample.valid hvalid
        rw [← hpayload] at hdata
        exact ⟨c,x,v,hcontent,hbears.delivered hkind hdata,hread⟩
      · cases hm

end

/-! ### Steps -/

section
variable [DecidableEq Client] [DecidableEq Service] [DecidableEq Process]

private theorem runFrom_moveRequests (moves : List (Topic.Move Service)) (t : ServiceState Client Service Process Value Value) :
    (serviceMachine d).runFrom t (moves.map .moveRequests) = some {t with requests := moves.foldl Topic.move t.requests} := by
  induction moves generalizing t with
  | nil => rfl
  | cons m moves ih => exact ih {t with requests := t.requests.move m}

private theorem runFrom_moveResponses (moves : List (Topic.Move Client)) (t : ServiceState Client Service Process Value Value) :
    (serviceMachine d).runFrom t (moves.map .moveResponses) =
      some {t with responses := moves.foldl Topic.move t.responses} := by
  induction moves generalizing t with
  | nil => rfl
  | cons m moves ih => exact ih {t with responses := t.responses.move m}

/-- A counter of 32 bits is stored in 64 bits as it is. -/
private theorem toInt_counter (n : BitVec 32) : (BitVec.ofInt 64 n.toNat).toInt = n.toNat := by
  have hlt := n.isLt
  rw [BitVec.toInt_ofInt]
  exact Int.bmod_eq_of_le (by omega) (by omega)

omit [DecidableEq Client] [DecidableEq Service] [DecidableEq Process] in
private theorem fits_message {host : Process → Endian} {types : ∀ p, WireType (host p)} {p : Process}
    (message : WireMessage types p) : message.value.Fits :=
  ValueType.fits_of_inBounds (t := (types p).root.toValueType) (types p).root.wellFormed (Memory.value_has _ _ _ _)
    message.inBounds

namespace WireState.Refines
variable {types : WireTypes d} {s s' : WireState Client Service Process}
  {t : ServiceState Client Service Process Value Value}

/-- Some steps of clients and services with plain requests and responses lead to a state in which the same has been done. -/
private def Matched (types : WireTypes d) (s' : WireState Client Service Process)
    (t : ServiceState Client Service Process Value Value) : Prop :=
  ∃ labels t', (serviceMachine d).runFrom t labels = some t' ∧ s'.Refines d types t'

private theorem single (l : ServiceStep Client Service Value Value) {t' : ServiceState Client Service Process Value Value}
    (hl : (serviceMachine d).next t l = some t') (h : s'.Refines d types t') : Matched types s' t :=
  ⟨[l],t',(Machine.runFrom_single _ t l).trans hl,h⟩

private theorem sendRequest (h : s.Refines d types t) {c : Client} {message : WireMessage types.request (d.clientProcess c)}
    {writes : Bool} {timestamp : Int} (hs : s.sendRequest types c message writes timestamp = some s') :
    Matched types s' t := by
  unfold WireState.sendRequest at hs
  simp only [h.nextRequestId, h.sentRequests] at hs
  split at hs
  · cases hs
  · next ret written heq =>
    cases written with
    | none =>
      cases hs
      exact single (.sendRequest c message.value false timestamp) rfl {h with nextRequestId := rfl, sentRequests := rfl}
    | some serdata =>
      cases hs
      have hbears := (types.request (d.clientProcess c)).sertype.rmwSendResponseRequest_bears
        (types.request (d.clientProcess c)).provides heq
      have hseq := toInt_counter (t.nextRequestId (d.clientProcess c) + 1)
      refine single (.sendRequest c message.value true timestamp) rfl
        {h with nextRequestId := rfl, requests := h.requests.write ?_, sentRequests := rfl}
      refine ⟨rfl,rfl,nofun,fun _ => ⟨c,_,_,?_,hbears,fits_message message,message.shared⟩⟩
      rw [hseq]
      rfl

private theorem takeRequest (h : s.Refines d types t) {v : Service} (hs : s.takeRequest types v = some s') :
    Matched types s' t := by
  unfold WireState.takeRequest at hs
  simp only at hs
  split at hs
  · cases hs
  · next result heq =>
    rcases take_simulated _ _ _ (h.requests.queue v) none none heq with
      ⟨htaken,k,hrest⟩ | ⟨m,m',info,info',data,rest',c,htaken,hout,hnumber,habstract,hrest,_,hsame⟩
    · rw [htaken] at hs
      cases hs
      refine ⟨(List.replicate k (Topic.Move.evict v 0)).map .moveRequests,_,runFrom_moveRequests _ _,?_⟩
      rw [Topic.foldl_evict]
      exact {h with requests := h.requests.setQueue v hrest}
    · rw [htaken, hout] at hs
      cases hs
      refine single (.takeRequest v) rfl ?_
      rw [ServiceState.takeRequest, rmwTakeRequest, habstract]
      exact {h with requests := h.requests.setQueue v hrest,
                    takenRequests := .cons ⟨hnumber,rfl,rfl,c,hsame⟩ h.takenRequests}

private theorem takeResponse (h : s.Refines d types t) {c : Client} (hs : s.takeResponse types c = some s') :
    Matched types s' t := by
  unfold WireState.takeResponse at hs
  simp only at hs
  split at hs
  · cases hs
  · next result heq =>
    rcases take_simulated _ _ _ (h.responses.queue c) none none heq with
      ⟨htaken,k,hrest⟩ | ⟨m,m',info,info',data,rest',c',htaken,hout,hnumber,habstract,hrest,hfilter,hsame⟩
    · rw [htaken] at hs
      cases hs
      refine ⟨(List.replicate k (Topic.Move.evict c 0)).map .moveResponses,_,runFrom_moveResponses _ _,?_⟩
      rw [Topic.foldl_evict]
      exact {h with responses := h.responses.setQueue c hrest}
    · rw [htaken, hout] at hs
      cases hs
      obtain rfl := d.distinct (hfilter.resolve_left (d.valid c))
      obtain ⟨x,hx',hx⟩ := hsame.sequenceNumber
      rw [seenFrom_self] at hx
      refine single (.takeResponse c) rfl ?_
      rw [ServiceState.takeResponse, rmwTakeResponse, habstract]
      refine {h with responses := h.responses.setQueue c hrest, takenResponses := ?_}
      simp only [hnumber, hx, hx', h.takenResponses]

/-- Whether the client is there does not depend on the sequence number. -/
private theorem rmwSendResponse_same {host : Endian} {present : InstanceHandle → ClientPresent} {id id' : RmwRequestId}
    (hid : id.writerGuid = id'.writerGuid) {wrap : CddsRequestWrapper Unit} {data : Value}
    (h : (rmwSendResponse host present true id ()).2 = some wrap) :
    (rmwSendResponse host present true id' data).2 = some ⟨responseHeader host id',data⟩ := by
  unfold rmwSendResponse at h ⊢
  simp only [hid] at h ⊢
  generalize present (BitVec.ofNat 64 (host.decode (id'.writerGuid.drop 8))) = st at h ⊢
  cases st with
  | yes => rfl
  | failure => cases h
  | maybe => cases h
  | gone => cases h

private theorem sendResponse (h : s.Refines d types t) {v : Service} {requestId : RmwRequestId}
    {message : WireMessage types.response (d.serviceProcess v)} {present : InstanceHandle → ClientPresent} {writes : Bool}
    {timestamp : Int} (hs : s.sendResponse types v requestId message present writes timestamp = some s') :
    Matched types s' t := by
  unfold WireState.sendResponse at hs
  split at hs
  swap
  · cases hs
  next hobtained =>
  obtain ⟨q,hq,rfl,hprocess⟩ := hobtained
  obtain ⟨q',hq',hnumber,hservice,hdata,c,hsame⟩ := exists_of_forall₂ h.takenRequests hq
  rw [hprocess] at hsame
  split at hs
  · cases hs
    exact ⟨[],t,rfl,h⟩
  next wrap hwrap =>
  obtain rfl := rmwSendResponse_written hwrap
  simp only at hs
  split at hs
  · cases hs
  · cases hs
    exact ⟨[],t,rfl,h⟩
  next ret serdata heq =>
  cases hs
  have hbears := (types.response (d.serviceProcess v)).sertype.rmwSendResponseRequest_bears
    (types.response (d.serviceProcess v)).provides heq
  obtain ⟨x,hx',hx⟩ := hsame.sequenceNumber
  have hguid : (responseHeader (d.host (d.serviceProcess v)) q.requestId).guid = d.pubiid c := responseHeader_guid hsame.client
  have hguid' : (responseHeader (d.host (d.serviceProcess v)) q'.requestId).guid = d.pubiid c :=
    responseHeader_guid (hsame.writerGuid ▸ hsame.client)
  have hseq : (responseHeader (d.host (d.serviceProcess v)) q.requestId).seq = _ := hx
  rw [hguid, hseq, BitVec.ofInt_toInt, encode_seenFrom] at hbears
  have hlength : s.sentResponses.length = t.sentResponses.length := h.sentResponses.length_eq
  have hobtained : t.Obtained d v q'.requestId := ⟨q',hq',rfl,hservice ▸ hprocess⟩
  refine single (.sendResponse v q'.requestId message.value present true timestamp) (if_pos hobtained) ?_
  rw [ServiceState.sendResponse, rmwSendResponse_same hsame.writerGuid hwrap]
  refine {h with responses := h.responses.write ?_, sentResponses := .cons ⟨hlength,rfl,rfl,c,hsame⟩ h.sentResponses}
  refine ⟨hlength,rfl,nofun,fun _ => ⟨c,x,_,?_,hbears,fits_message message,message.shared⟩⟩
  rw [← hguid', ← hx']
  rfl

end WireState.Refines

/-- Each step with serdata is some steps without. -/
private theorem simulated (types : WireTypes d) : (wireMachine types).SimulatedBy (serviceMachine d)
    fun s t => s.Refines d types t where
  start := {
    nextRequestId := rfl
    requests := Topic.rel_empty
    responses := Topic.rel_empty
    sentRequests := rfl
    takenRequests := .nil
    sentResponses := .nil
    takenResponses := rfl}
  step := by
    intro s step s' t h hs
    cases step with
    | sendRequest c message writes timestamp => exact h.sendRequest hs
    | takeRequest v => exact h.takeRequest hs
    | sendResponse v requestId message present writes timestamp => exact h.sendResponse hs
    | takeResponse c => exact h.takeResponse hs
    | moveRequests v m =>
      obtain ⟨requests,hm,hs⟩ := Option.bind_eq_some_iff.mp hs
      cases hs
      rcases move_simulated h.requests hm with ⟨m',hrel⟩ | hrel
      · exact WireState.Refines.single (.moveRequests m') rfl {h with requests := hrel}
      · exact WireState.Refines.single (.invalidRequest v) rfl {h with requests := hrel}
    | moveResponses c m =>
      obtain ⟨responses,hm,hs⟩ := Option.bind_eq_some_iff.mp hs
      cases hs
      rcases move_simulated h.responses hm with ⟨m',hrel⟩ | hrel
      · exact WireState.Refines.single (.moveResponses m') rfl {h with responses := hrel}
      · exact WireState.Refines.single (.invalidResponse c) rfl {h with responses := hrel}

/-- Whatever the byte orders of their hosts, whatever becomes of the messages on their way, what clients and services do
with serdata is what they could do with plain requests and responses: the same requests are sent, and clients take the
same responses under the same sequence numbers. Taking always returns. -/
theorem services_refine {types : WireTypes d} {steps : List (WireStep types)} {s : WireState Client Service Process}
    (h : (wireMachine types).run steps = some s) :
    (∃ steps' t, (serviceMachine d).run steps' = some t ∧ s.Refines d types t) ∧
    (∀ v, ∃ s', s.next types (.takeRequest v) = some s') ∧ ∀ c, ∃ s', s.next types (.takeResponse c) = some s' := by
  obtain ⟨steps',t,ht,hst⟩ := (simulated types).run h
  refine ⟨⟨steps',t,ht,hst⟩,fun v => ?_,fun c => ?_⟩
  · obtain ⟨result,hresult⟩ := exists_take (d.serviceProcess v) (d.requestWriter v) 0 (hst.requests.queue v) none
    show ∃ s', s.takeRequest types v = some s'
    simp only [WireState.takeRequest, hresult]
    split <;> exact ⟨_,rfl⟩
  · obtain ⟨result,hresult⟩ := exists_take (d.clientProcess c) (d.responseWriter c) (d.pubiid c) (hst.responses.queue c) none
    show ∃ s', s.takeResponse types c = some s'
    simp only [WireState.takeResponse, hresult]
    split <;> exact ⟨_,rfl⟩

end
end

/-- A client on a big-endian host and a service on a little-endian one. -/
def twoHosts : Deployment Unit Unit Bool where
  clientProcess _ := true
  serviceProcess _ := false
  host client := bif client then .big else .little
  pubiid _ := 5
  distinct _ _ _ := rfl
  valid _ := by decide
  requestWriter _ _ := 1
  responseWriter _ _ := 2

/-- Memory for whatever is needed. -/
def plenty : Heap := ⟨fun _ => true,fun _ => 0⟩

private theorem plenty_provides (n : Nat) : plenty.provides n = true := rfl

def plentyRuntime : Runtime := fun _ _ => .provided

private theorem plentyRuntime_provided (position size : Nat) : plentyRuntime position size = .provided := rfl

def twoHostsTypes (big : Sertype .big CDRReader.addTwoInts .request) (little : Sertype .little CDRReader.addTwoInts .request) :
    ∀ client, WireType (twoHosts.host client)
  | true => ⟨_,big,plenty,plentyRuntime,plenty_provides,plentyRuntime_provided⟩
  | false => ⟨_,little,plenty,plentyRuntime,plenty_provides,plentyRuntime_provided⟩

def onePlusTwo : Memory := Memory.ofBytes [0,0,0,0,0,0,0,1,0,0,0,0,0,0,0,2]

/-- The data of the first request, of `onePlusTwo`. -/
def onePlusTwoData : List Byte := [0,0,0,0,0,0,0,0,0,0,0,5,0,0,0,0,0,0,0,1,0,0,0,0,0,0,0,1,0,0,0,0,0,0,0,2]

def onePlusTwoChain : FragmentChain onePlusTwoData where
  fragments := [⟨0,36,onePlusTwoData⟩]
  nonempty := List.cons_ne_nil _ _
  narrow _ h := by
    obtain rfl := List.mem_singleton.mp h
    decide
  delivers := ⟨Nat.le_refl _,Nat.le_refl _,rfl,rfl⟩

private theorem onePlusTwo_written : ∃ big : Sertype .big CDRReader.addTwoInts .request,
    big.rmwSendResponseRequest plenty true ⟨5,1⟩ onePlusTwo Memory.base =
      .ok (.ok,some ⟨⟨.data,onePlusTwoData,[]⟩,true,none⟩) := by
  obtain ⟨big,hmin,_,hmax,_⟩ := Sertype.exists_of_bounds .big CDRReader.addTwoInts .request rfl rfl rfl rfl
  have hsize : big.cdrWriter.getSerializedSize (onePlusTwo.wrapper .big ⟨5,1⟩ Memory.base) wrapperAddress .sample = .ok 36 := by
    rw [big.cdrWriter.getSerializedSize_of_eq _ _ .sample (hmin.trans hmax.symm)]
    exact congrArg Except.ok hmax
  have hbytes : big.cdrWriter.serialize (onePlusTwo.wrapper .big ⟨5,1⟩ Memory.base) wrapperAddress .sample =
      .ok onePlusTwoData := by
    rw [big.cdrWriter.serialize_eq]
    rfl
  refine ⟨big,?_⟩
  have hset : big.setKeyFromSample plenty (SerdataRmw.make .data)
      (onePlusTwo.wrapper .big ⟨5,1⟩ Memory.base) wrapperAddress = .ok ⟨.data,[],[]⟩ := rfl
  have hinto : big.serializeInto plenty ⟨.data,[],[]⟩ (onePlusTwo.wrapper .big ⟨5,1⟩ Memory.base)
      wrapperAddress = .ok ⟨.data,onePlusTwoData,[]⟩ := by
    have hwhat : SerdataKind.what .data = .sample := rfl
    have hblank : SerdataRmw.resize plenty ⟨.data,[],[]⟩ 36 = .ok ⟨.data,List.replicate 36 0,[]⟩ := rfl
    simp only [Sertype.serializeInto, Sertype.resizeFor, hwhat, hsize, hblank, hbytes, bind, Except.bind]
    rfl
  simp only [Sertype.rmwSendResponseRequest, big.fromSample_ok _ _ _ .data hset hinto, bind, Except.bind]
  rfl

/-- The service takes the first request of the client as number 2 ^ 56. -/
theorem onePlusTwo_refines : ∃ (types : WireTypes twoHosts) (steps : List (WireStep types)) (s : WireState Unit Unit Bool),
    (wireMachine types).run steps = some s ∧ (∃ q ∈ s.takenRequests, q.requestId.sequenceNumber = 2 ^ 56) ∧
      ∃ steps' t, (serviceMachine twoHosts).run steps' = some t ∧ s.Refines twoHosts types t := by
  obtain ⟨big,hwritten⟩ := onePlusTwo_written
  obtain ⟨little,_⟩ := Sertype.exists_of_bounds .little CDRReader.addTwoInts .request rfl rfl rfl rfl
  let types : WireTypes twoHosts := ⟨twoHostsTypes big little,twoHostsTypes big little⟩
  let message : WireMessage types.request true := {
    memory := onePlusTwo
    address := Memory.base
    inBounds := ⟨True.intro,True.intro,True.intro⟩
    shared := fun client => by cases client <;> exact Memory.value_has _ _ _ _}
  let sample : WireSample Bool := ⟨true,true,⟨⟨.data,onePlusTwoData,[]⟩,true,none⟩,0,0⟩
  let sent : WireState Unit Unit Bool := ⟨Function.update (fun _ => 0) true 1,Topic.empty.write sample,.empty,
    [⟨0,(),1,message.value⟩],[],[],[]⟩
  have hsent : (wireMachine types).run ([] ++ [.sendRequest () message true 0]) = some sent := by
    refine Machine.run_next Machine.run_nil ?_
    show WireState.initial.sendRequest types () message true 0 = some sent
    have hpeer : (types.request (twoHosts.clientProcess ())).sertype.rmwSendResponseRequest
        (types.request (twoHosts.clientProcess ())).heap true ⟨twoHosts.pubiid (),
          ((WireState.initial : WireState Unit Unit Bool).nextRequestId (twoHosts.clientProcess ()) + 1).toNat⟩
        message.memory message.address = _ := hwritten
    simp only [WireState.sendRequest, hpeer]
    rfl
  obtain ⟨e,he,hkind,hdata⟩ : ∃ e, little.fromSer plenty .data onePlusTwoChain.fragments
      onePlusTwoData.length = .ok (some e) ∧ e.kind = .data ∧ e.data = SerdataRmw.padded onePlusTwoData :=
    little.exists_fromSer .data plenty_provides onePlusTwoChain
  let delivered : WireState Unit Unit Bool := {sent with
    requests := (sent.requests.move (.lose () 0)).setQueue () [{sample with serdata := e.held}]}
  have hdelivered : (wireMachine types).run ([] ++ [.sendRequest () message true 0] ++
      [.moveRequests () (.deliver 0 onePlusTwoData onePlusTwoChain)]) = some delivered := by
    refine Machine.run_next hsent ?_
    have hpeer : (types.request false).sertype.fromSer (types.request false).heap .data onePlusTwoChain.fragments
        onePlusTwoData.length = _ := he
    have hmove : wireMove (types.request false) () false sent.requests (.deliver 0 onePlusTwoData onePlusTwoChain) =
        some delivered.requests := by
      rw [wireMove, hpeer]
      rfl
    show (wireMove (types.request false) () false sent.requests (.deliver 0 onePlusTwoData onePlusTwoChain)).bind
      (fun requests => some {sent with requests := requests}) = some delivered
    rw [hmove]
    rfl
  have hbears := (big.rmwSendResponseRequest_bears plenty_provides hwritten).delivered hkind hdata
  have hread := hbears.toSample (types.request false).sertype (types.request false).heap (types.request false).provided
    (message.shared false) (fits_message message)
  let taken : WireState Unit Unit Bool := {delivered with
    requests := delivered.requests.setQueue () []
    takenRequests := [⟨0,(),⟨writerGuid .little 5 1,2 ^ 56⟩,message.value⟩]}
  have htaken : (wireMachine types).run ([] ++ [.sendRequest () message true 0] ++
      [.moveRequests () (.deliver 0 onePlusTwoData onePlusTwoChain)] ++ [.takeRequest ()]) = some taken := by
    refine Machine.run_next hdelivered ?_
    have hresult : (types.request (twoHosts.serviceProcess ())).sertype.rmwTakeResponseRequest
        (types.request (twoHosts.serviceProcess ())).heap (types.request (twoHosts.serviceProcess ())).runtime
        (twoHosts.requestWriter ()) 0 (delivered.requests.queue ()) none =
        .ok ⟨some {sample with serdata := e.held},some (⟨0,⟨writerGuid .little 5 1,2 ^ 56⟩⟩,message.value),[]⟩ := by
      show (types.request false).sertype.rmwTakeResponseRequest (types.request false).heap (types.request false).runtime
        (fun _ => 1) 0 [{sample with serdata := e.held}] none = _
      rw [Sertype.rmwTakeResponseRequest]
      simp only [hread, bind, Except.bind]
      rfl
    show delivered.takeRequest types () = some taken
    simp only [WireState.takeRequest, hresult]
    rfl
  exact ⟨types,_,taken,htaken,⟨_,List.mem_cons_self,rfl⟩,(services_refine htaken).1⟩

end RmwCyclonedds
