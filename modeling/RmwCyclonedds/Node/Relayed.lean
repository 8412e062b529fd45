import RmwCyclonedds.Node.Relay

/-! However messages are passed on, what is handed out is what was handed in. -/
namespace RmwCyclonedds
open Library

/-- A serdata whose data, padded and short enough for the wire, encode a message that was handed in. -/
structure Carries (sent : List Value) (d : HeldSerdata) : Prop where
  typed : d.typed = true
  loan : d.loan = none
  kind : d.kind = .data
  padded : d.data.length % 4 = 0
  small : d.data.length < 2 ^ 32
  encodes : ∃ v ∈ sent, Encodes d.data v

/-- A serialized message that encodes one that was handed in, and does so when it is padded on the wire. -/
def Retains (sent : List Value) (message : SerializedMessage) : Prop :=
  ∃ bytes, message.contents = .ok bytes ∧ (SerdataRmw.padded bytes).length < 2 ^ 32 ∧ ∃ v ∈ sent, Encodes bytes v

private theorem nPadBytes_dvd (n : Nat) (h : n < 2 ^ 64) : (n + SerdataRmw.nPadBytes n) % 4 = 0 := by
  unfold SerdataRmw.nPadBytes
  omega

section
variable {sent : List Value} {d : HeldSerdata} {e : SerdataRmw}

theorem Carries.eq_held (h : Carries sent d) : d = d.toSerdataRmw.held := by
  obtain ⟨htyped,hloan⟩ := And.intro h.typed h.loan
  obtain ⟨d,typed,loan⟩ := d
  cases htyped
  cases hloan
  rfl

theorem Carries.mono (h : Carries sent d) (v : Value) : Carries (v :: sent) d := by
  obtain ⟨w,hw,hbytes⟩ := h.encodes
  exact {h with encodes := ⟨w,List.mem_cons_of_mem v hw,hbytes⟩}

theorem Retains.mono {message : SerializedMessage} (h : Retains sent message) (v : Value) : Retains (v :: sent) message := by
  obtain ⟨bytes,hcontents,hsmall,w,hw,hbytes⟩ := h
  exact ⟨bytes,hcontents,hsmall,w,List.mem_cons_of_mem v hw,hbytes⟩

/-- A serdata that is made of an encoding, padded, carries it. -/
theorem carries_padded {payload : List Byte} (hkind : e.kind = .data) (hdata : e.data = SerdataRmw.padded payload)
    (hsmall : (SerdataRmw.padded payload).length < 2 ^ 32) {v : Value} (hv : v ∈ sent) (hbytes : Encodes payload v) :
    Carries sent e.held := by
  refine ⟨rfl,rfl,hkind,?_,?_,v,hv,?_⟩
  · show e.data.length % 4 = 0
    rw [SerdataRmw.padded_length] at hsmall
    rw [hdata, SerdataRmw.padded_length]
    exact nPadBytes_dvd _ (by omega)
  · show e.data.length < 2 ^ 32
    rw [hdata]
    exact hsmall
  · show Encodes e.data v
    rw [hdata]
    exact hbytes.padded

/-- The data of a serdata need no more padding. -/
theorem Carries.padded_length (h : Carries sent d) : (SerdataRmw.padded d.data).length = d.data.length := by
  have hpadded := h.padded
  have hsmall := h.small
  rw [SerdataRmw.padded_length]
  unfold SerdataRmw.nPadBytes
  omega

/-- What is taken in its serialized form is kept as it was carried. -/
theorem Carries.retains (h : Carries sent d) : Retains sent ⟨d.data,d.data.length⟩ := by
  refine ⟨d.data,?_,?_,h.encodes⟩
  · rw [SerializedMessage.contents, if_pos (Nat.le_refl _), List.take_length]
  · rw [h.padded_length]
    exact h.small

end

namespace Sertype
variable {host : Endian} {root : StructValueType} (s : Sertype host root .sample)
  {heap : Heap} (hprovides : ∀ n, heap.provides n = true)
include hprovides

/-- A message that is kept can be published, and is carried then. -/
theorem publishSerialized_carries {sent : List Value} {message : SerializedMessage} (h : Retains sent message) (writes : Bool) :
    ∃ ret written, s.rmwPublishSerializedMessage heap writes message = .ok (ret,written) ∧
      ∀ d, written = some d → Carries sent d := by
  obtain ⟨bytes,hcontents,hsmall,v,hv,hbytes⟩ := h
  have hflat : [bytes].flatten = bytes := List.append_nil _
  have hmax : (SerdataRmw.padded [bytes].flatten).length ≤ sizeMax := by
    rw [hflat]
    unfold sizeMax
    omega
  obtain ⟨e,he,hkind,hdata⟩ := s.exists_fromSerIov heap .data hprovides [bytes] hmax
  rw [hflat] at he hdata
  simp only [rmwPublishSerializedMessage, hcontents, fromSerializedMessage, he, bind, Except.bind]
  cases writes with
  | true =>
    refine ⟨.ok,some e.held,rfl,?_⟩
    rintro d ⟨⟩
    exact carries_padded hkind hdata hsmall hv hbytes
  | false =>
    refine ⟨.error,none,rfl,?_⟩
    rintro d ⟨⟩

end Sertype

section
variable {Node : Type} {peers : Node → Peer}

/-- A message that is published is carried. -/
theorem Outgoing.carries {n : Node} (message : Outgoing peers n) {writes : Bool} {ret : RmwRet} {d : HeldSerdata}
    (h : (peers n).sertype.rmwPublish (peers n).heap writes message.memory message.address = .ok (ret,some d))
    {sent : List Value} (hsent : message.value ∈ sent) : Carries sent d := by
  have hsmall := message.size_lt
  obtain ⟨bytes,hbytes,hencodes,hle⟩ := (peers n).sertype.cdrWriter.serialize_encodes message.memory message.address
    message.inBounds message.size_eq (fun hmax => by unfold sizeMax at hmax; omega)
  have hne : bytes ≠ [] := by
    obtain ⟨sender,rest,rfl⟩ := hencodes
    exact List.cons_ne_nil _ _
  obtain ⟨o,ho,h⟩ := Outcome.bind_eq_ok h
  obtain ⟨e,rest,rfl,hkind,hdata,hlength⟩ :=
    (peers n).sertype.fromSample_data (peers n).provides hbytes message.size_eq hne ho
  cases writes with
  | false => cases h
  | true =>
    cases h
    refine ⟨rfl,rfl,hkind,?_,?_,message.value,hsent,?_⟩
    · show e.data.length % 4 = 0
      rw [hlength]
      exact nPadBytes_dvd _ (by omega)
    · show e.data.length < 2 ^ 32
      rw [hlength]
      unfold SerdataRmw.nPadBytes
      omega
    · show Encodes e.data message.value
      rw [hdata]
      exact hencodes.append rest

/-- A message that is serialized is kept. -/
theorem Outgoing.retains {n : Node} (message : Outgoing peers n) (old : SerializedMessage) {sent : List Value}
    (hsent : message.value ∈ sent) : ∃ ret new, rmwSerialize (peers n).host (peers n).resize (.ok (peers n).root)
      message.memory message.address old = .ok (ret,new) ∧ (ret = .ok → Retains sent new) := by
  have hsmall := message.size_lt
  obtain ⟨ret,new,heq,_,hnew⟩ := rmwSerialize_encodes (peers n).sertype.cdrWriter (peers n).resize message.memory
    message.address old message.inBounds message.size_eq (fun hmax => by unfold sizeMax at hmax; omega)
  refine ⟨ret,new,heq,fun hret => ?_⟩
  obtain ⟨bytes,hcontents,hlength,hbytes⟩ := hnew hret
  refine ⟨bytes,hcontents,?_,message.value,hsent,hbytes⟩
  rw [SerdataRmw.padded_length, hlength]
  unfold SerdataRmw.nPadBytes
  omega

/-- The values that have been handed in are ones that every process can read. -/
def Readable (peers : Node → Peer) (v : Value) : Prop := v.Fits ∧ ∀ n, (peers n).root.toValueType.Has v

theorem Outgoing.readable {n : Node} (message : Outgoing peers n) : Readable peers message.value :=
  ⟨ValueType.fits_of_inBounds (t := (peers n).root.toValueType) (peers n).root.wellFormed (message.shared n)
    message.inBounds,message.shared⟩

/-- What is carried is handed out as the message that was handed in. -/
theorem Carries.toSample {sent : List Value} {d : HeldSerdata} (h : Carries sent d)
    (hsent : ∀ v ∈ sent, Readable peers v) (n : Node) : ∃ v ∈ sent,
      (peers n).sertype.toSampleImpl (peers n).heap (peers n).runtime d = .ok (some ⟨none,some v⟩) := by
  obtain ⟨v,hv,hbytes⟩ := h.encodes
  obtain ⟨hfits,hhas⟩ := hsent v hv
  refine ⟨v,hv,?_⟩
  have hkind : d.kind.what = .sample := by
    rw [h.kind]
    rfl
  have hload : (peers n).sertype.serializeIntoOnDemand (peers n).heap d = .ok d := by
    rw [Sertype.serializeIntoOnDemand, h.loan]
  simp only [Sertype.toSampleImpl, h.typed, if_true, hload, hkind, bind, Except.bind,
    hbytes.deserialize (peers n).sertype.cdrReader (peers n).provided (hhas n) hfits]
  rfl

/-! ### Whole runs -/

/-- What waits in a reader has no loan, and a valid sample is one that is carried. -/
def Waits (sent : List Value) (sample : QueuedSample) : Prop :=
  (sample.1.validData = true → Carries sent sample.2) ∧ ∃ d typed, sample.2 = ⟨d,typed,none⟩

/-- What is under way goes back to what was handed in. -/
structure Intact (peers : Node → Peer) (s : RelayState Node) : Prop where
  sent : ∀ v ∈ s.sent, Readable peers v
  written : ∀ p ∈ s.written, Carries s.sent p.2
  queue : ∀ n, ∀ sample ∈ s.queue n, Waits s.sent sample
  kept : ∀ n, ∀ message ∈ s.kept n, Retains s.sent message
  received : ∀ p ∈ s.received, ∃ v ∈ s.sent, p.2 = ⟨none,some v⟩

namespace Intact
variable {s : RelayState Node}

private theorem initial : Intact peers (RelayState.initial : RelayState Node) := ⟨nofun,nofun,nofun,nofun,nofun⟩

private theorem send (h : Intact peers s) {v : Value} (hv : Readable peers v) : Intact peers {s with sent := v :: s.sent} := by
  refine ⟨List.forall_mem_cons.mpr ⟨hv,h.sent⟩,fun p hp => (h.written p hp).mono v,?_,?_,?_⟩
  · intro n sample hsample
    obtain ⟨hvalid,hplain⟩ := h.queue n sample hsample
    exact ⟨fun hs => (hvalid hs).mono v,hplain⟩
  · exact fun n message hmessage => (h.kept n message hmessage).mono v
  · intro p hp
    obtain ⟨w,hw,he⟩ := h.received p hp
    exact ⟨w,List.mem_cons_of_mem v hw,he⟩

private theorem write (h : Intact peers s) (n : Node) {written : Option HeldSerdata}
    (hwritten : ∀ d, written = some d → Carries s.sent d) : Intact peers (s.write n written) := by
  refine {h with written := ?_}
  intro p hp
  rcases List.mem_append.mp hp with hp | hp
  · exact h.written p hp
  · cases written with
    | none => cases hp
    | some d =>
      obtain rfl := List.mem_singleton.mp hp
      exact hwritten d rfl

private theorem receive (h : Intact peers s) (n : Node) {message : Option Message}
    (hmessage : ∀ m, message = some m → ∃ v ∈ s.sent, m = ⟨none,some v⟩) : Intact peers (s.receive n message) := by
  refine {h with received := ?_}
  intro p hp
  rcases List.mem_append.mp hp with hp | hp
  · cases message with
    | none => cases hp
    | some m =>
      obtain rfl := List.mem_singleton.mp hp
      exact hmessage m rfl
  · exact h.received p hp

variable [DecidableEq Node]

private theorem forall_mem_update {α : Type} {P : α → Prop} {f : Node → List α} {l : List α} (n : Node)
    (hf : ∀ n, ∀ a ∈ f n, P a) (hl : ∀ a ∈ l, P a) : ∀ n', ∀ a ∈ Function.update f n l n', P a := by
  intro n' a ha
  by_cases he : n' = n
  · subst he
    rw [Function.update_self] at ha
    exact hl a ha
  · rw [Function.update_of_ne he] at ha
    exact hf n' a ha

private theorem setQueue (h : Intact peers s) (n : Node) {queue : List QueuedSample}
    (hqueue : ∀ sample ∈ queue, Waits s.sent sample) :
    Intact peers {s with queue := Function.update s.queue n queue} :=
  {h with queue := forall_mem_update n h.queue hqueue}

private theorem enqueue (h : Intact peers s) (n : Node) {sample : QueuedSample} (hsample : Waits s.sent sample) :
    Intact peers (s.enqueue n sample) := by
  apply h.setQueue n
  intro sample' hmem
  rcases List.mem_append.mp hmem with hmem | hmem
  · exact h.queue n sample' hmem
  · obtain rfl := List.mem_singleton.mp hmem
    exact hsample

private theorem keep (h : Intact peers s) (n : Node) {message : SerializedMessage} (hmessage : Retains s.sent message) :
    Intact peers (s.keep n message) :=
  {h with kept := forall_mem_update n h.kept (List.forall_mem_cons.mpr ⟨hmessage,h.kept n⟩)}

end Intact

section
variable [DecidableEq Node]

/-- The arguments of a step are there, and what an application publishes does not run over its key. -/
def RelayState.Possible (s : RelayState Node) : RelayStep peers → Prop
  | .publish n message writes =>
    ∃ result, (peers n).sertype.rmwPublish (peers n).heap writes message.memory message.address = .ok result
  | .publishSerialized n serializedMessage _ => serializedMessage ∈ s.kept n
  | .deserialize n serializedMessage => serializedMessage ∈ s.kept n
  | .deliverLocal n i _ => ∃ d, s.written[i]? = some (n,d)
  | .deliver _ payload _ _ => payload ∈ s.written.map fun p => p.2.data
  | _ => True

namespace Intact
variable {s : RelayState Node}

omit [DecidableEq Node] in
private theorem publish (h : Intact peers s) {n : Node} {message : Outgoing peers n} {writes : Bool}
    (hp : s.Possible (.publish n message writes)) :
    ∃ s', s.publish peers n message writes = some s' ∧ Intact peers s' := by
  obtain ⟨⟨ret,written⟩,heq⟩ := hp
  have hsend := h.send message.readable
  refine ⟨_,by rw [RelayState.publish, heq],hsend.write n ?_⟩
  rintro d rfl
  exact message.carries heq List.mem_cons_self

private theorem serialize (h : Intact peers s) (n : Node) (message : Outgoing peers n) (old : SerializedMessage) :
    ∃ s', s.serialize peers n message old = some s' ∧ Intact peers s' := by
  obtain ⟨ret,new,heq,hnew⟩ := message.retains old (List.mem_cons_self (a := message.value) (l := s.sent))
  by_cases hret : ret = .ok
  · refine ⟨_,by rw [RelayState.serialize, heq]; exact if_pos hret,?_⟩
    exact (h.send message.readable).keep n (hnew hret)
  · exact ⟨s,by rw [RelayState.serialize, heq]; exact if_neg hret,h⟩

omit [DecidableEq Node] in
private theorem publishSerialized (h : Intact peers s) {n : Node} {message : SerializedMessage} (writes : Bool)
    (hp : message ∈ s.kept n) :
    ∃ s', s.publishSerialized peers n message writes = some s' ∧ Intact peers s' := by
  obtain ⟨ret,written,heq,hwritten⟩ :=
    (peers n).sertype.publishSerialized_carries (peers n).provides (h.kept n message hp) writes
  exact ⟨_,by rw [RelayState.publishSerialized, if_pos hp, heq],h.write n hwritten⟩

private theorem deliverLocal (h : Intact peers s) {n : Node} {i : Nat} (info : SampleInfo)
    (hp : ∃ d, s.written[i]? = some (n,d)) :
    ∃ s', s.deliverLocal n i info = some s' ∧ Intact peers s' := by
  obtain ⟨d,hd⟩ := hp
  have hcarries := h.written (n,d) (List.mem_of_getElem? hd)
  refine ⟨_,by rw [RelayState.deliverLocal, hd]; exact if_pos rfl,h.enqueue n ⟨fun _ => hcarries,?_⟩⟩
  exact ⟨d.toSerdataRmw,true,hcarries.eq_held⟩

private theorem deliver (h : Intact peers s) {n : Node} {payload : List Byte} (chain : FragmentChain payload)
    (info : SampleInfo) (hp : payload ∈ s.written.map fun p => p.2.data) :
    ∃ s', s.deliver peers n payload chain info = some s' ∧ Intact peers s' := by
  obtain ⟨p,hmem,hdata⟩ := List.mem_map.mp hp
  have hcarries := h.written p hmem
  obtain ⟨v,hv,hbytes⟩ := hcarries.encodes
  have hlength := hcarries.padded_length
  obtain ⟨e,he,hkind,hpayload⟩ := (peers n).sertype.exists_fromSer .data (peers n).provides chain
  rw [hdata] at hbytes hlength
  refine ⟨_,by rw [RelayState.deliver, if_pos hp, he],h.enqueue n ⟨fun _ => ?_,e,true,rfl⟩⟩
  refine carries_padded hkind hpayload ?_ hv hbytes
  rw [hlength, ← hdata]
  exact hcarries.small

private theorem take (h : Intact peers s) (n : Node) (rosMessage : Option Message) (messageInfo : Option MessageInfo) :
    ∃ s', s.take peers n rosMessage messageInfo = some s' ∧ Intact peers s' := by
  have hreturns : ∀ sample ∈ s.queue n, ∃ o,
      (peers n).sertype.toSampleImpl (peers n).heap (peers n).runtime sample.2 = .ok o := by
    intro sample hsample
    obtain ⟨d,typed,hd⟩ := (h.queue n sample hsample).2
    rw [hd]
    exact (peers n).sertype.exists_toSampleImpl _ (fun _ _ hr => by rw [(peers n).provided] at hr; cases hr) d typed
  obtain ⟨result,hresult⟩ : ∃ result, (peers n).sertype.rmwTakeInt (peers n).heap (peers n).runtime (peers n).describe
      (s.queue n) rosMessage messageInfo = .ok result :=
    (peers n).sertype.exists_rmwTakeInt hreturns rosMessage messageInfo
  obtain ⟨hrest,htaken⟩ := (peers n).sertype.rmwTakeInt_taken hresult
  refine ⟨_,by rw [RelayState.take, hresult],?_⟩
  apply (h.setQueue n fun sample hsample => h.queue n sample (hrest.subset hsample)).receive n
  intro m hm
  split at hm
  · next ht =>
    obtain ⟨sample,hsample,hvalid,message,hmessage,hout⟩ := htaken ht
    obtain ⟨v,hv,hread⟩ := ((h.queue n sample hsample).1 hvalid).toSample h.sent n
    rw [hmessage] at hread
    rw [hout] at hm
    cases hread
    cases hm
    exact ⟨v,hv,rfl⟩
  · cases hm

private theorem takeSerialized (h : Intact peers s) (n : Node) (old : SerializedMessage) (messageInfo : Option MessageInfo) :
    ∃ s', s.takeSerialized peers n old messageInfo = some s' ∧ Intact peers s' := by
  have hplain : ∀ sample ∈ s.queue n, sample.1.validData = true → ∃ d : SerdataRmw, sample.2 = d.held ∧
      d.data.length < 2 ^ 32 := by
    intro sample hsample hvalid
    have hcarries := (h.queue n sample hsample).1 hvalid
    exact ⟨sample.2.toSerdataRmw,hcarries.eq_held,hcarries.small⟩
  obtain ⟨result,hresult,hrest,htaken⟩ : ∃ result, (peers n).sertype.rmwTakeSerInt (peers n).heap (peers n).resize
      (peers n).describe (s.queue n) old messageInfo = .ok result ∧ result.rest <:+ s.queue n ∧
      (result.taken = true → ∃ sample ∈ s.queue n, sample.1.validData = true ∧
        result.message = ⟨sample.2.data,sample.2.data.length⟩) :=
    (peers n).sertype.rmwTakeSerInt_taken (peers n).heap hplain old messageInfo
  have hleft := h.setQueue n fun sample hsample => h.queue n sample (hrest.subset hsample)
  refine ⟨_,by rw [RelayState.takeSerialized, hresult],?_⟩
  by_cases ht : result.taken = true
  · obtain ⟨sample,hsample,hvalid,hmessage⟩ := htaken ht
    rw [if_pos ht, hmessage]
    exact hleft.keep n ((h.queue n sample hsample).1 hvalid).retains
  · rw [if_neg ht]
    exact hleft

omit [DecidableEq Node] in
/-- A message that is kept is read as the message that was handed in. -/
private theorem deserialize (h : Intact peers s) {n : Node} {message : SerializedMessage} (hp : message ∈ s.kept n) :
    ∃ v ∈ s.sent, s.deserialize peers n message = some (s.receive n (some ⟨none,some v⟩)) := by
  obtain ⟨bytes,hcontents,_,v,hv,hbytes⟩ := h.kept n message hp
  obtain ⟨hfits,hhas⟩ := h.sent v hv
  refine ⟨v,hv,?_⟩
  simp only [RelayState.deserialize, if_pos hp, hcontents, bind, Except.bind,
    hbytes.rmwDeserialize (peers n).host (peers n).provided (hhas n) hfits]

/-- Every step that is possible is taken, and keeps what is under way intact. -/
private theorem possible (h : Intact peers s) {step : RelayStep peers} (hp : s.Possible step) :
    ∃ s', s.next peers step = some s' ∧ Intact peers s' := by
  cases step with
  | publish n message writes => exact h.publish hp
  | serialize n message old => exact h.serialize n message old
  | publishSerialized n message writes => exact h.publishSerialized writes hp
  | deliverLocal n i info => exact h.deliverLocal info hp
  | deliver n payload chain info => exact h.deliver chain info hp
  | notify n key info => exact ⟨_,rfl,h.enqueue n ⟨nofun,_,_,rfl⟩⟩
  | evict n i =>
    exact ⟨_,rfl,h.setQueue n fun sample hsample => h.queue n sample (List.mem_of_mem_eraseIdx hsample)⟩
  | take n rosMessage messageInfo => exact h.take n rosMessage messageInfo
  | takeSerialized n old messageInfo => exact h.takeSerialized n old messageInfo
  | deserialize n message =>
    obtain ⟨v,hv,heq⟩ := h.deserialize hp
    refine ⟨_,heq,h.receive n ?_⟩
    rintro m ⟨⟩
    exact ⟨v,hv,rfl⟩

end Intact

/-- Only a step that is possible is taken. -/
private theorem possible_of_next {s s' : RelayState Node} {step : RelayStep peers} (h : s.next peers step = some s') :
    s.Possible step := by
  cases step with
  | publish n message writes =>
    change s.publish peers n message writes = some s' at h
    rw [RelayState.publish] at h
    split at h
    · cases h
    · next heq => exact ⟨_,heq⟩
  | publishSerialized n message writes =>
    change s.publishSerialized peers n message writes = some s' at h
    rw [RelayState.publishSerialized] at h
    split at h
    · assumption
    · cases h
  | deserialize n message =>
    change s.deserialize peers n message = some s' at h
    rw [RelayState.deserialize] at h
    split at h
    · assumption
    · cases h
  | deliverLocal n i info =>
    change s.deliverLocal n i info = some s' at h
    rw [RelayState.deliverLocal] at h
    split at h
    · cases h
    · next n' d hd =>
      split at h
      · next he =>
        subst he
        exact ⟨d,hd⟩
      · cases h
  | deliver n payload chain info =>
    change s.deliver peers n payload chain info = some s' at h
    rw [RelayState.deliver] at h
    split at h
    · assumption
    · cases h
  | _ => exact True.intro

private theorem run_intact {steps : List (RelayStep peers)} {s : RelayState Node}
    (h : (relayMachine peers).run steps = some s) : Intact peers s := by
  apply Machine.invariant (m := relayMachine peers) Intact.initial _ h
  intro s step s' hs hnext
  obtain ⟨s'',hnext',hs''⟩ := hs.possible (possible_of_next hnext)
  rw [show s.next peers step = some s' from hnext] at hnext'
  cases hnext'
  exact hs''

/-- Whichever way messages take between processes, published as objects or relayed in their serialized form, what is
handed out is one of those handed in, unchanged; only the first publication of a message may not return; and what has
been kept, and what is first in a reader, is handed out. -/
theorem messages_relayed {steps : List (RelayStep peers)} {s : RelayState Node}
    (h : (relayMachine peers).run steps = some s) :
    (∀ p ∈ s.received, ∃ v ∈ s.sent, p.2 = ⟨none,some v⟩) ∧
    (∀ step, (∃ s', s.next peers step = some s') ↔ s.Possible step) ∧
    (∀ n, ∀ message ∈ s.kept n, ∃ v ∈ s.sent,
      s.next peers (.deserialize n message) = some (s.receive n (some ⟨none,some v⟩))) ∧
    ∀ n info d rest, s.queue n = (info,d) :: rest → info.validData = true → ∃ v ∈ s.sent, ∀ rosMessage messageInfo,
      s.next peers (.take n rosMessage messageInfo) =
        some ({s with queue := Function.update s.queue n rest}.receive n (some ⟨none,some v⟩)) := by
  have hs := run_intact h
  refine ⟨hs.received,fun step => ⟨?_,fun hp => ?_⟩,fun n message hp => hs.deserialize hp,?_⟩
  · rintro ⟨s',hnext⟩
    exact possible_of_next hnext
  · obtain ⟨s',hnext,_⟩ := hs.possible hp
    exact ⟨s',hnext⟩
  · intro n info d rest hqueue hvalid
    have hwaits := hs.queue n (info,d) (by rw [hqueue]; exact List.mem_cons_self)
    obtain ⟨v,hv,hread⟩ := (hwaits.1 hvalid).toSample hs.sent n
    refine ⟨v,hv,fun rosMessage messageInfo => ?_⟩
    show s.take peers n rosMessage messageInfo = _
    simp only [RelayState.take, hqueue, Sertype.rmwTakeInt, hread, hvalid, bind, Except.bind, if_true]
    rfl

end
end

/-- Two bytes go from a process of one byte order to one of the other. -/
def bytePairPeers (big : Sertype .big CDRWriter.bytePair .sample) (little : Sertype .little CDRWriter.bytePair .sample) :
    Bool → Peer
  | true => ⟨.big,CDRWriter.bytePair,big,⟨fun _ => true,fun _ => 0⟩,fun _ _ => .provided,anySize,
    messageInfoFromSampleInfo .big 24 0,fun _ => rfl,fun _ _ => rfl⟩
  | false => ⟨.little,CDRWriter.bytePair,little,⟨fun _ => true,fun _ => 0⟩,fun _ _ => .provided,anySize,
    messageInfoFromSampleInfo .little 24 0,fun _ => rfl,fun _ _ => rfl⟩

/-- The eight bytes of the data come as one fragment. -/
def bytePairChain : FragmentChain [0,0,0,0,7,9,0,0] where
  fragments := [⟨0,8,[0,0,0,0,7,9,0,0]⟩]
  nonempty := List.cons_ne_nil _ _
  narrow _ h := by
    obtain rfl := List.mem_singleton.mp h
    decide
  delivers := ⟨Nat.le_refl _,Nat.le_refl _,rfl,rfl⟩

theorem bytePair_relayed : ∃ (peers : Bool → Peer) (steps : List (RelayStep peers)) (s : RelayState Bool),
    (relayMachine peers).run steps = some s ∧ ∃ v ∈ s.sent, ∀ rosMessage messageInfo,
      s.next peers (.take false rosMessage messageInfo) =
        some ({s with queue := Function.update s.queue false []}.receive false (some ⟨none,some v⟩)) := by
  obtain ⟨big,hmin,_,hmax,_⟩ := Sertype.exists_of_bounds .big CDRWriter.bytePair .sample rfl rfl rfl rfl
  obtain ⟨little,_⟩ := Sertype.exists_of_bounds .little CDRWriter.bytePair .sample rfl rfl rfl rfl
  have hsize : big.cdrWriter.getSerializedSize (Memory.ofBytes [7,9]) Memory.base .sample = .ok 8 := by
    rw [big.cdrWriter.getSerializedSize_of_eq _ _ .sample (hmin.trans hmax.symm)]
    exact congrArg Except.ok hmax
  have hbytes : big.cdrWriter.serialize (Memory.ofBytes [7,9]) Memory.base .sample = .ok [0,0,0,0,7,9] := by
    rw [big.cdrWriter.serialize_eq]
    rfl
  let message : Outgoing (bytePairPeers big little) true := {
    memory := Memory.ofBytes [7,9]
    address := Memory.base
    inBounds := ⟨fun _ _ => by cases ‹Value› <;> exact True.intro,True.intro⟩
    shared := fun n' => by cases n' <;> exact Memory.value_has _ _ _ _
    size := 8
    size_eq := hsize
    size_lt := by decide}
  have hpublish : big.rmwPublish ⟨fun _ => true,fun _ => 0⟩ true (Memory.ofBytes [7,9]) Memory.base =
      .ok (.ok,some ⟨⟨.data,[0,0,0,0,7,9,0,0],[]⟩,true,none⟩) := by
    have hset : big.setKeyFromSample ⟨fun _ => true,fun _ => 0⟩ (SerdataRmw.make .data) (Memory.ofBytes [7,9])
        Memory.base = .ok ⟨.data,[],[]⟩ := rfl
    have hinto : big.serializeInto ⟨fun _ => true,fun _ => 0⟩ ⟨.data,[],[]⟩ (Memory.ofBytes [7,9]) Memory.base =
        .ok ⟨.data,[0,0,0,0,7,9,0,0],[]⟩ := by
      have hwhat : SerdataKind.what .data = .sample := rfl
      have hblank : SerdataRmw.resize ⟨fun _ => true,fun _ => 0⟩ ⟨.data,[],[]⟩ 8 = .ok ⟨.data,List.replicate 8 0,[]⟩ := rfl
      simp only [Sertype.serializeInto, Sertype.resizeFor, hwhat, hsize, hblank, hbytes, bind, Except.bind]
      rfl
    simp only [Sertype.rmwPublish, big.fromSample_ok _ _ _ .data hset hinto, bind, Except.bind]
    rfl
  let published : RelayState Bool := ⟨[(true,⟨⟨.data,[0,0,0,0,7,9,0,0],[]⟩,true,none⟩)],fun _ => [],fun _ => [],
    [message.value],[]⟩
  let delivered := published.enqueue false (⟨true,1,0⟩,⟨⟨.data,[0,0,0,0,7,9,0,0],[]⟩,true,none⟩)
  have hpublished : (relayMachine (bytePairPeers big little)).run ([] ++ [.publish true message true]) = some published := by
    refine Machine.run_next Machine.run_nil ?_
    show RelayState.initial.publish (bytePairPeers big little) true message true = some published
    have hpeer : (bytePairPeers big little true).sertype.rmwPublish (bytePairPeers big little true).heap true
        message.memory message.address = _ := hpublish
    rw [RelayState.publish, hpeer]
    rfl
  have hdelivered : (relayMachine (bytePairPeers big little)).run
      ([] ++ [.publish true message true] ++ [.deliver false _ bytePairChain ⟨true,1,0⟩]) = some delivered :=
    Machine.run_next hpublished rfl
  exact ⟨_,_,_,hdelivered,(messages_relayed hdelivered).2.2.2 false _ _ [] rfl rfl⟩

end RmwCyclonedds
