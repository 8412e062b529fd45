import RmwCyclonedds.Node.Services
import RmwCyclonedds.Serdata.Reassembly
import RmwCyclonedds.Serdata.RequestKeys
import RmwCyclonedds.Serdata.ToSample

/-! Requests and responses as the middleware holds them, a header and a message in one serdata. -/
namespace RmwCyclonedds
open Library

namespace CddsRequestHeader

/-- The two members as they lie in memory. -/
def bytes (host : Endian) (header : CddsRequestHeader) : List Byte :=
  host.encode 8 header.guid.toNat ++ host.encode 8 (BitVec.ofInt 64 header.seq).toNat

/-- What a reader stores in the header of a wrapper. -/
def ofRead (header : Nat × Nat) : CddsRequestHeader := ⟨BitVec.ofNat 64 header.1,(BitVec.ofNat 64 header.2).toInt⟩

end CddsRequestHeader

/-- A `cdds_request_wrapper_t` beside the message that it points to. -/
def Memory.wrapper (m : Memory) (host : Endian) (header : CddsRequestHeader) (rosData : Address) : Memory :=
  sideBySide (fun second => if second then ofBytes (header.bytes host) else m) (side false rosData)

def wrapperAddress : Address := Memory.side true Memory.base

/-- Whether the middleware takes the sample is `writes`; the serdata is what it then has to deliver. -/
def Sertype.rmwSendResponseRequest {host : Endian} {root : StructValueType} (s : Sertype host root .request) (heap : Heap)
    (writes : Bool) (header : CddsRequestHeader) (m : Memory) (rosData : Address) : Outcome (RmwRet × Option HeldSerdata) := do
  match ← s.fromSample heap .data (m.wrapper host header rosData) wrapperAddress with
  | none => return (.error,none)
  | some d => return if writes then (.ok,some d.held) else (.error,none)

/-! ### The wrapper in memory -/

namespace Memory
variable (m : Memory) (host : Endian) (header : CddsRequestHeader) (rosData : Address)

theorem Placed.read {m m' : Memory} {place : Address → Address} (h : Placed m m' place) (a : Address) (n : Nat) :
    m'.read (place a) n = m.read a n := by
  apply List.map_congr_left
  intro i _
  rw [← h.add, h.byte]

private theorem wrapper_read : (m.wrapper host header rosData).read wrapperAddress 8 ++
    (m.wrapper host header rosData).read (wrapperAddress + 8) 8 = header.bytes host := by
  have hlength : (header.bytes host).length = 8 + 8 := by
    rw [CddsRequestHeader.bytes, List.length_append, host.encode_length, host.encode_length]
  have hplaced := sideBySide_placed (fun second => if second then ofBytes (header.bytes host) else m) (side false rosData) true
  have hread := hplaced.read base (8 + 8)
  rw [← read_add]
  exact hread.trans (hlength ▸ read_ofBytes (header.bytes host))

/-- The header and the message that a writer finds. -/
theorem wrapper_parts : (m.wrapper host header rosData).read wrapperAddress 8 = host.encode 8 header.guid.toNat ∧
    (m.wrapper host header rosData).read (wrapperAddress + 8) 8 = host.encode 8 (BitVec.ofInt 64 header.seq).toNat :=
  List.append_inj (wrapper_read m host header rosData) (by rw [read_length, host.encode_length])

theorem wrapper_value (t : ValueType) : (m.wrapper host header rosData).value host t
    ((m.wrapper host header rosData).pointer (wrapperAddress + 16)) = m.value host t rosData :=
  value_placed (sideBySide_placed (fun second => if second then ofBytes (header.bytes host) else m) (side false rosData) false)
    host t rosData

end Memory

/-! ### Requests in serdata -/

/-- A serdata that holds a request or a response: the client's handle in the byte order that the encoding names, eight
bytes for the sequence number, and a value. -/
structure Bears (d : HeldSerdata) (guid : InstanceHandle) (seq : List Byte) (v : Value) : Prop where
  typed : d.typed = true
  loan : d.loan = none
  kind : d.kind = .data
  seq_length : seq.length = 8
  frames : ∃ sender rest, d.data = rtpsHeader sender ++ (sender.encode 8 guid.toNat ++ (seq ++ v.encode sender 16)) ++ rest

namespace Sertype
variable {host : Endian} {root : StructValueType} (s : Sertype host root .request) {heap : Heap}
  (hprovides : ∀ n, heap.provides n = true)
include hprovides

/-- What is written for a header and a message. -/
theorem rmwSendResponseRequest_bears {writes : Bool} {header : CddsRequestHeader} {m : Memory} {rosData : Address} {ret : RmwRet}
    {d : HeldSerdata} (h : s.rmwSendResponseRequest heap writes header m rosData = .ok (ret,some d)) :
    Bears d header.guid (host.encode 8 (BitVec.ofInt 64 header.seq).toNat) (m.value host root.toValueType rosData) := by
  obtain ⟨o,ho,h⟩ := Outcome.bind_eq_ok h
  obtain ⟨size,hsize⟩ := s.cdrWriter.exists_getSerializedSize (m.wrapper host header rosData) wrapperAddress .sample
  obtain ⟨e,rest,rfl,hkind,hdata,_⟩ := s.fromSample_data hprovides (s.cdrWriter.serialize_eq _ _ .sample) hsize
    (List.cons_ne_nil _ _) ho
  obtain ⟨hguid,hseq⟩ := m.wrapper_parts host header rosData
  rw [CDRWriter.requestBody_eq, hguid, hseq, m.wrapper_value] at hdata
  cases writes with
  | false => cases h
  | true =>
    cases h
    exact ⟨rfl,rfl,hkind,host.encode_length 8 _,host,rest,hdata⟩

end Sertype

namespace Bears
variable {d : HeldSerdata} {guid : InstanceHandle} {seq : List Byte} {v : Value}

/-- On its way over the wire nothing is lost. -/
theorem delivered (h : Bears d guid seq v) {e : SerdataRmw} (hkind : e.kind = .data)
    (hdata : e.data = SerdataRmw.padded d.data) : Bears e.held guid seq v := by
  obtain ⟨sender,rest,hbytes⟩ := h.frames
  refine ⟨rfl,rfl,hkind,h.seq_length,sender,rest ++ List.replicate (SerdataRmw.nPadBytes d.data.length) 0,?_⟩
  rw [← List.append_assoc, ← hbytes]
  exact hdata

/-- A reader finds the client's handle and the value; the sequence number it reads in its own byte order. -/
theorem toSample (h : Bears d guid seq v) {host : Endian} {root : StructValueType} (s : Sertype host root .request)
    (heap : Heap) {runtime : Runtime} (hr : ∀ position size, runtime position size = .provided)
    (hv : root.toValueType.Has v) (hf : v.Fits) :
    s.toSampleImpl heap runtime d = .ok (some ⟨some (guid.toNat,host.decode seq),some v⟩) := by
  obtain ⟨sender,rest,hbytes⟩ := h.frames
  have hrequest := s.cdrReader.deserialize_request hr sender hv hf (sender.encode_length 8 guid.toNat) h.seq_length
  rw [sender.decode_encode (guid.isLt.trans_eq rfl)] at hrequest
  have hread := s.cdrReader.deserialize_append (fun _ _ hp => by rw [hr] at hp; cases hp) hrequest rest
  have hwhat : d.kind.what = .sample := by
    rw [h.kind]
    rfl
  have hheld : s.serializeIntoOnDemand heap d = .ok d := by
    rw [Sertype.serializeIntoOnDemand, h.loan]
  simp only [Sertype.toSampleImpl, h.typed, if_true, hheld, hwhat, hbytes, hread, bind, Except.bind]
  rfl

end Bears
end RmwCyclonedds
