import RmwCyclonedds.Serialization.CDRReader

/-! Requests and responses: a header of the client's id and a sequence number, then the message. -/
namespace RmwCyclonedds
open Library DeserializeCursor

section
variable (sender : Endian) (m : Memory) (src : Address)

/-- The header that the writer finds in a request wrapper. -/
def wrapperHeader : Nat × Nat := (sender.decode (m.read src 8),sender.decode (m.read (src + 8) 8))

theorem requestHeader_sample : requestHeader .request m src .sample = m.read src 8 ++ m.read (src + 8) 8 :=
  m.read_add src 8 8

end

namespace CDRWriter
variable {sender : Endian} {root : StructValueType} (w : CDRWriter sender root .request) (m : Memory) (src : Address)

/-- The message starts behind the header, at an offset that keeps its alignment. -/
theorem requestBody_eq : streamBody sender root .request m src .sample = m.read src 8 ++ (m.read (src + 8) 8 ++
    (m.value sender root.toValueType (m.pointer (src + 16))).encode sender 16) := by
  have hview : root.toValueType.view cachedWhole .sample (sourceValue sender root .request m src .sample)
      (startOffset .request .sample) = m.value sender root.toValueType (m.pointer (src + 16)) :=
    ValueType.view_sample cachedWhole (m.value_has sender root.toValueType _)
  rw [streamBody, if_pos (.inl rfl), hview, requestHeader_sample, List.append_assoc]
  rfl

end CDRWriter

namespace CDRReader
variable {host : Endian} {root : StructValueType} (r : CDRReader host root .request)

theorem deserializeRequestHeader_eq {sender : Endian} {guid seq : List Byte} (hguid : guid.length = 8)
    (hseq : seq.length = 8) {bswapSrc : Bool} (hb : streamEndian host bswapSrc = sender) {c d e : DeserializeCursor}
    (h : Reads c guid d) (h' : Reads d seq e) :
    deserializeRequestHeader host bswapSrc c = .ok (some (sender.decode guid,host.decode seq),e) := by
  have hget := getBytes_of_reads h
  have hget' := getBytes_of_reads h'
  rw [hguid] at hget
  rw [hseq] at hget'
  have hswap := decode_swapped host bswapSrc (n := 8) (.inr (.inr (.inr rfl))) hguid
  rw [hb] at hswap
  simp only [deserializeRequestHeader, hget, hget', bind, Except.bind, hswap]
  rfl

/-- What a reader makes of a request: only the sequence number keeps the bytes of the sender. -/
theorem deserialize_request {runtime : Runtime} (hr : ∀ position size, runtime position size = .provided)
    (sender : Endian) {v : Value} (hv : root.toValueType.Has v) (hf : v.Fits) {guid seq : List Byte}
    (hguid : guid.length = 8) (hseq : seq.length = 8) :
    r.deserialize runtime (rtpsHeader sender ++ (guid ++ (seq ++ v.encode sender 16))) .sample =
      .ok ⟨some (sender.decode guid,host.decode seq),some v⟩ := by
  obtain ⟨c,c',hheader,hoff,hstream⟩ := reads_body (rtpsHeader sender) (guid ++ (seq ++ v.encode sender 16)) [] rfl
  rw [List.append_nil] at hheader
  obtain ⟨d,hreadguid,hstream⟩ := hstream.split
  obtain ⟨e,hreadseq,hbody⟩ := hstream.split
  have hstart : e.offset = 16 := by
    rw [hreadseq.offset_eq, hreadguid.offset_eq, hoff, hguid, hseq]
  have hview : root.toValueType.view (readerWhole (((rtpsHeader sender).getD 1 0 == 0) == (host == .little))) .sample
      v e.offset = v := ValueType.view_sample _ hv
  have hreads : Reads e ((root.toValueType.view
      (readerWhole (((rtpsHeader sender).getD 1 0 == 0) == (host == .little))) .sample v e.offset).encode
        (streamEndian host (((rtpsHeader sender).getD 1 0 == 0) == (host == .little))) e.offset) c' := by
    rw [streamEndian_header, hview, hstart]
    exact hbody
  have hvalue := deserialize_of_encode host (((rtpsHeader sender).getD 1 0 == 0) == (host == .little)) .sample hr
    root.toValueType root.wellFormed r.answersExactly hv (by rw [hview]; exact hf) hreads
  rw [hview] at hvalue
  have hrequest := deserializeRequestHeader_eq hguid hseq (streamEndian_header sender host) hreadguid hreadseq
  have hcond : SampleOrKey.sample ≠ .key ∨ root.hasKeys = true := .inl (by decide)
  simp only [deserialize, deserializeTopLevel, deserializeBehindHeader, hcond, if_true, hheader, bind, Except.bind,
    header_accepted, if_false, and_self, hrequest, true_or, deserializeValue, hvalue]
  rfl

/-- A number that reads the same in both byte orders has palindromic bytes. -/
private theorem decode_eq_iff (host sender : Endian) (bs : List Byte) :
    host.decode bs = sender.decode bs ↔ sender = host ∨ bs.reverse = bs := by
  rcases host.eq_or_opposite sender with rfl | rfl
  · exact ⟨fun _ => .inl rfl,fun _ => rfl⟩
  · rw [← host.decode_reverse]
    constructor
    · intro h
      exact .inr (host.decode_injective (by rw [List.length_reverse]) h).symm
    · rintro (h | h)
      · exact absurd h host.opposite_ne
      · rw [h]

/-- A request comes back as it was written exactly when the byte orders agree or the bytes of the
sequence number read the same in both. -/
theorem deserialize_request_iff {sender : Endian} (w : CDRWriter sender root .request) {runtime : Runtime}
    (hr : ∀ position size, runtime position size = .provided) (m : Memory) (src : Address)
    (hf : (m.value sender root.toValueType (m.pointer (src + 16))).Fits) :
    ∃ bytes, w.serialize m src .sample = .ok bytes ∧
      (r.deserialize runtime bytes .sample =
          .ok ⟨some (wrapperHeader sender m src),some (m.value sender root.toValueType (m.pointer (src + 16)))⟩ ↔
        sender = host ∨ (m.read (src + 8) 8).reverse = m.read (src + 8) 8) := by
  have hvalue := m.value_has sender root.toValueType (m.pointer (src + 16))
  have hread := r.deserialize_request hr sender hvalue hf (m.read_length src 8) (m.read_length (src + 8) 8)
  refine ⟨_,w.serialize_eq m src .sample,?_⟩
  rw [CDRWriter.requestBody_eq, hread, ← decode_eq_iff]
  constructor
  · intro h
    injection h with h
    injection h with h _
    exact (Prod.mk.inj (Option.some.inj h)).2
  · intro h
    rw [wrapperHeader, h]

/-- A request with two numbers: `int64 a; int64 b`. -/
def addTwoInts : StructValueType where
  sizeofStruct := 16
  members := .cons 0 false (.primitive .int64) (.cons 8 false (.primitive .int64) .nil)
  wellFormed := ⟨True.intro,True.intro,True.intro⟩

/-- A request in the byte order of a big-endian host, with sequence number one. -/
def firstRequest : Memory := {Memory.empty with byte := fun a => if a.block = 0 ∧ a.offset = 15 then 1 else 0
                                                pointer := fun _ => ⟨1,0⟩}

private theorem firstRequest_fits (host : Endian) :
    (firstRequest.value host addTwoInts.toValueType (firstRequest.pointer (Memory.base + 16))).Fits :=
  ⟨True.intro,True.intro,True.intro⟩

/-- Sent by a big-endian host, the first request arrives as number 2 ^ 56. -/
theorem firstRequest_misnumbered : ∃ (w : CDRWriter .big addTwoInts .request) (r : CDRReader .little addTwoInts .request)
    (bytes : List Byte) (v : Value), wrapperHeader .big firstRequest Memory.base = (0,1) ∧
      w.serialize firstRequest Memory.base .sample = .ok bytes ∧
      r.deserialize (fun _ _ => .provided) bytes .sample = .ok ⟨some (0,2 ^ 56),some v⟩ := by
  obtain ⟨w,_⟩ := CDRWriter.exists_of_bounds .big addTwoInts .request rfl rfl rfl rfl
  obtain ⟨c,hc,_⟩ := make_known addTwoInts.toValueType
  have hread := (CDRReader.mk c hc : CDRReader .little addTwoInts .request).deserialize_request
    (fun _ _ => rfl : ∀ position size, (fun _ _ => .provided : Runtime) position size = .provided) .big
    (firstRequest.value_has .big addTwoInts.toValueType _) (firstRequest_fits .big)
    (firstRequest.read_length Memory.base 8) (firstRequest.read_length (Memory.base + 8) 8)
  rw [← CDRWriter.requestBody_eq] at hread
  exact ⟨w,_,_,_,by decide,w.serialize_eq _ _ .sample,hread⟩

theorem firstRequest_round_trip : ∃ (w : CDRWriter .big addTwoInts .request) (r : CDRReader .big addTwoInts .request)
    (bytes : List Byte), w.serialize firstRequest Memory.base .sample = .ok bytes ∧
      r.deserialize (fun _ _ => .provided) bytes .sample = .ok ⟨some (wrapperHeader .big firstRequest Memory.base),
        some (firstRequest.value .big addTwoInts.toValueType (firstRequest.pointer (Memory.base + 16)))⟩ := by
  obtain ⟨w,_⟩ := CDRWriter.exists_of_bounds .big addTwoInts .request rfl rfl rfl rfl
  obtain ⟨c,hc,_⟩ := make_known addTwoInts.toValueType
  obtain ⟨bytes,hbytes,hread⟩ := (CDRReader.mk c hc : CDRReader .big addTwoInts .request).deserialize_request_iff w
    (fun _ _ => rfl : ∀ position size, (fun _ _ => .provided : Runtime) position size = .provided) firstRequest
    Memory.base (firstRequest_fits .big)
  exact ⟨w,_,bytes,hbytes,hread.mpr (.inl rfl)⟩

end CDRReader
end RmwCyclonedds
