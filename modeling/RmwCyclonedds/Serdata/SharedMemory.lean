import RmwCyclonedds.Serdata.Construction
import RmwCyclonedds.Serialization.LongestKey

/-! Samples that go through shared memory: loans, and what a sertype serializes into them. -/
namespace RmwCyclonedds
open Library

inductive LoanedSampleState where
  | uninitialized
  | rawKey
  | rawData
  | serializedKey
  | serializedData
  deriving DecidableEq, Repr

/-- A buffer of the exchange, with its metadata. -/
structure LoanedSample where
  sampleState : LoanedSampleState
  sampleSize : Nat
  memory : Memory
  samplePtr : Address

def LoanedSample.contents (loan : LoanedSample) : List Byte := loan.memory.read loan.samplePtr loan.sampleSize

def LoanedSampleState.toSerdataKind : LoanedSampleState → Option SerdataKind
  | rawKey | serializedKey => some .key
  | rawData | serializedData => some .data
  | uninitialized => none

/-- A serdata as the callbacks get it: with its type or without, and with its loan if it has one. -/
structure HeldSerdata extends SerdataRmw where
  typed : Bool
  loan : Option LoanedSample

def SerdataRmw.held (d : SerdataRmw) : HeldSerdata := ⟨d,true,none⟩

inductive EncodingIdentifier where
  | cdrLe
  | cdrBe
  deriving DecidableEq, Repr

/-- One size for all samples, computed with at least four bytes too many, or too large for a bound. -/
def StructValueType.LeavesRoom (root : StructValueType) (variant : SampleOrRequest) : Prop :=
  root.OneSize variant .sample ∧
    (root.Measurable variant .sample .max ∧
        boundExtent 0 root variant .sample .max + 4 ≤ boundExtent 2 root variant .sample .max ∨
      ¬root.Measurable variant .sample .max ∧ 4 + boundExtent 0 root variant .sample .max + 4 ≤ sizeMax)

namespace Sertype
variable {host : Endian} {root : StructValueType} {variant : SampleOrRequest} (s : Sertype host root variant)
  (heap : Heap)

def fromSerializedMessage (kind : SerdataKind) (raw : List Byte) : Outcome (Option SerdataRmw) :=
  s.fromSerIov heap kind [raw] raw.length

def fromPsmx (loan : LoanedSample) : Outcome (Option HeldSerdata) :=
  match loan.sampleState.toSerdataKind with
  | none => .ok none
  | some kind =>
    if loan.sampleState = .serializedKey ∨ loan.sampleState = .serializedData then do
      let d ← s.fromSerializedMessage heap kind loan.contents
      return d.map SerdataRmw.held
    else Outcome.caught (do
      let d ← s.setKeyFromSample heap (SerdataRmw.make kind) loan.memory loan.samplePtr
      return some ⟨d,true,some loan⟩) none

/-- `serdata_rmw_serialize_into_on_demand`; of an empty serdata the loan is the data. -/
def serializeIntoOnDemand (d : HeldSerdata) : Outcome HeldSerdata :=
  match d.loan with
  | none => .ok d
  | some loan =>
    if d.data ≠ [] then .ok d
    else match loan.sampleState with
      | .serializedData => do
        let r ← d.toSerdataRmw.resize heap loan.sampleSize
        let r ← r.put 0 loan.contents
        return {d with toSerdataRmw := r}
      | .rawData => do return {d with toSerdataRmw := ← s.serializeInto heap d.toSerdataRmw loan.memory loan.samplePtr}
      | _ => .ok d

/-- `serdata_rmw_to_sample_impl`; `none` is its answer `false`. -/
def toSampleImpl (runtime : Runtime) (d : HeldSerdata) : Outcome (Option Message) :=
  Outcome.caught (do
    if d.typed then
      let d ← s.serializeIntoOnDemand heap d
      return some (← s.cdrReader.deserialize runtime d.data d.kind.what)
    else return some (← s.cdrReader.deserialize runtime d.key d.kind.what)) none

/-- The key of a serdata alone, without its type. -/
def toUntyped (d : HeldSerdata) : Outcome HeldSerdata := do
  return ⟨← (SerdataRmw.make .key).setKey heap d.key,false,none⟩

def getSerializedSizeImpl (m : Memory) (sample : Address) : Outcome Nat :=
  (s.cdrWriter.getSerializedSize m sample .sample).caught 0

/-- The size without the encoding header, in a `size_t`. -/
def getSerializedSize (m : Memory) (sample : Address) : Outcome (Nat × EncodingIdentifier) := do
  let serializedSize ← s.getSerializedSizeImpl m sample
  return ((serializedSize + 2 ^ 64 - 4) % 2 ^ 64,if host = .little then .cdrLe else .cdrBe)

/-- What is stored in the buffer from its start on; outside of it this is undefined. -/
def serializeIntoBuffer (m : Memory) (sample : Address) (dstBuffer : List Byte) : Outcome (List Byte) :=
  Outcome.caught (do
    let bytes ← s.cdrWriter.serialize m sample .sample
    if dstBuffer.length < bytes.length then throw .undefined
    return bytes ++ dstBuffer.drop bytes.length) dstBuffer

/-! ### Reported and written sizes -/

/-- The size that is reported is that of what is stored, and a loan of that size yields the sample. The middleware
provides a buffer of the reported size, and nothing is lost for want of memory. -/
def SharedMemoryAgrees (m : Memory) (sample : Address) : Prop :=
  ∃ size encoding, s.getSerializedSize m sample = .ok (size,encoding) ∧
    ∀ dstBuffer : List Byte, dstBuffer.length = size →
      ∃ stored, s.serializeIntoBuffer m sample dstBuffer = .ok stored ∧ stored.length = size ∧
        ∀ loan : LoanedSample, loan.sampleState = .serializedData → loan.sampleSize = size → loan.contents = stored →
          ∀ heap : Heap, (∀ n, heap.provides n = true) →
          ∀ runtime : Runtime, (∀ position size, runtime position size = .provided) →
            ∃ d, s.fromPsmx heap loan = .ok (some d) ∧ s.toSampleImpl heap runtime d =
              .ok (some ⟨headerOf host host variant m sample,some (sourceValue host root variant m sample .sample)⟩)

section
variable (m : Memory) (sample : Address)

/-- The bytes of a sample with their encoding header. -/
private def sampleBytes (host : Endian) (root : StructValueType) (variant : SampleOrRequest) (m : Memory)
    (sample : Address) : List Byte := rtpsHeader host ++ streamBody host root variant m sample .sample

private theorem sampleBytes_length : (sampleBytes host root variant m sample).length =
    4 + (streamBody host root variant m sample .sample).length := by
  rw [sampleBytes, List.length_append]
  rfl

private theorem serializeIntoBuffer_eq (dstBuffer : List Byte) : s.serializeIntoBuffer m sample dstBuffer =
    if dstBuffer.length < (sampleBytes host root variant m sample).length then .error .undefined
    else .ok (sampleBytes host root variant m sample ++
      dstBuffer.drop (sampleBytes host root variant m sample).length) := by
  simp only [serializeIntoBuffer, s.cdrWriter.serialize_eq, bind, Except.bind]
  rw [← sampleBytes]
  split <;> rfl

/-- A loan of serialized data is taken in as it is, whatever it holds, and then read as a sample. -/
private theorem fromPsmx_taken {loan : LoanedSample} (hstate : loan.sampleState = .serializedData)
    (hsize : (SerdataRmw.padded loan.contents).length ≤ sizeMax) {heap : Heap}
    (hprovides : ∀ n, heap.provides n = true) (runtime : Runtime) :
    ∃ d, s.fromPsmx heap loan = .ok (some d) ∧ s.toSampleImpl heap runtime d =
      Outcome.caught (do return some (← s.cdrReader.deserialize runtime (SerdataRmw.padded loan.contents) .sample)) none := by
  have hflat : [loan.contents].flatten = loan.contents := List.append_nil _
  obtain ⟨d,hd,hkind,hdata⟩ := s.exists_fromSerIov heap .data hprovides [loan.contents] (by rw [hflat]; exact hsize)
  rw [hflat] at hd hdata
  refine ⟨d.held,?_,?_⟩
  · simp only [fromPsmx, hstate, LoanedSampleState.toSerdataKind, or_true, if_true, fromSerializedMessage, hd]
    rfl
  · have hwhat : d.held.kind.what = .sample := by
      show d.kind.what = .sample
      rw [hkind]
      rfl
    have hloan : s.serializeIntoOnDemand heap d.held = .ok d.held := rfl
    have hheld : d.held.data = SerdataRmw.padded loan.contents := hdata
    simp only [toSampleImpl, show d.held.typed = true from rfl, if_true, hloan, bind, Except.bind, hwhat, hheld]

/-- A loan with the sample in front yields the sample. -/
private theorem deserialize_loan (hf : (sourceValue host root variant m sample .sample).Fits) {contents rest : List Byte}
    (hcontents : contents = sampleBytes host root variant m sample ++ rest) {runtime : Runtime}
    (hr : ∀ position size, runtime position size = .provided) :
    s.cdrReader.deserialize runtime (SerdataRmw.padded contents) .sample =
      .ok ⟨headerOf host host variant m sample,some (sourceValue host root variant m sample .sample)⟩ := by
  have hwritten := s.cdrReader.deserialize_written host hr m sample hf
  have hread := s.cdrReader.deserialize_append (fun _ _ h => by rw [hr] at h; cases h) hwritten
    (rest ++ List.replicate (SerdataRmw.nPadBytes contents.length) 0)
  rwa [← sampleBytes, ← List.append_assoc, ← hcontents] at hread

private theorem sample_length : (sampleBytes host root variant m sample).length =
    4 + (sourceValue host root variant m sample .sample).finish (startOffset variant .sample) := by
  have hview : root.toValueType.view cachedWhole .sample (sourceValue host root variant m sample .sample)
      (startOffset variant .sample) = sourceValue host root variant m sample .sample :=
    ValueType.view_sample cachedWhole (m.value_has host root.toValueType _)
  have hlen := Value.encode_length host (sourceValue host root variant m sample .sample) (startOffset variant .sample)
  rw [sampleBytes_length, streamBody, if_pos (.inl rfl), hview, List.length_append, CDRWriter.requestHeader_length, hlen]

private theorem getSerializedSize_eq {size : Nat} (h : s.cdrWriter.getSerializedSize m sample .sample = .ok size) :
    s.getSerializedSize m sample = .ok ((size + 2 ^ 64 - 4) % 2 ^ 64,if host = .little then .cdrLe else .cdrBe) := by
  rw [getSerializedSize, getSerializedSizeImpl, h]
  rfl

/-- A size that is measured leaves no room for the encoding header. -/
private theorem not_agrees_of_ne (h : s.cdrWriter.minSerializedDataSize ≠ s.cdrWriter.maxSerializedDataSize) :
    ¬s.SharedMemoryAgrees m sample := by
  rintro ⟨size,_,hsize,hstore⟩
  have hmeasured := s.getSerializedSize_eq m sample (s.cdrWriter.getSerializedSize_of_ne m sample .sample h)
  rw [hmeasured] at hsize
  have hreported := (Prod.mk.inj (Except.ok.inj hsize)).1
  obtain ⟨stored,hstored,_⟩ := hstore (List.replicate size 0) List.length_replicate
  rw [s.serializeIntoBuffer_eq, List.length_replicate, sampleBytes_length, if_pos (by omega)] at hstored
  cases hstored

/-- The size reported for a sample of a type of fixed size. -/
private theorem reported_of_eq (h : s.cdrWriter.minSerializedDataSize = s.cdrWriter.maxSerializedDataSize) :
    4 ≤ s.cdrWriter.maxSerializedDataSize ∧ s.cdrWriter.maxSerializedDataSize ≤ sizeMax ∧
      ∃ encoding, s.getSerializedSize m sample = .ok (s.cdrWriter.maxSerializedDataSize - 4,encoding) := by
  have hfixed := s.cdrWriter.getSerializedSize_of_eq m sample .sample h
  have hle : s.cdrWriter.maxSerializedDataSize ≤ sizeMax := computeSerializedSizeBound_le s.cdrWriter.maxData_eq
  have hge : 4 ≤ s.cdrWriter.maxSerializedDataSize := by
    rcases computeSerializedSizeBound_cases s.cdrWriter.maxData_eq with ⟨_,hmax⟩ | ⟨_,hmax⟩
    · omega
    · rw [hmax]
      decide
  refine ⟨hge,hle,if host = .little then .cdrLe else .cdrBe,?_⟩
  rw [s.getSerializedSize_eq m sample hfixed]
  have hmod : (s.cdrWriter.getMaxSerializedSize .sample + 2 ^ 64 - 4) % 2 ^ 64 =
      s.cdrWriter.maxSerializedDataSize - 4 := by
    show (s.cdrWriter.maxSerializedDataSize + 2 ^ 64 - 4) % 2 ^ 64 = _
    unfold sizeMax at hle
    omega
  rw [hmod]

/-- The contents of a loan of the reported size fit a serdata. -/
private theorem padded_loan_le {size : Nat} (hsize : size ≤ sizeMax - 4) {loan : LoanedSample} (h : loan.sampleSize = size) :
    (SerdataRmw.padded loan.contents).length ≤ sizeMax := by
  have hlen : loan.contents.length = size := by
    rw [← h]
    exact Memory.read_length _ _ _
  rw [SerdataRmw.padded_length, hlen]
  unfold SerdataRmw.nPadBytes
  unfold sizeMax at hsize ⊢
  omega

/-- What is read from a loan is a value that has been read, and such values fit. -/
private theorem fits_of_read {loan : LoanedSample} (hstate : loan.sampleState = .serializedData)
    (hlen : (SerdataRmw.padded loan.contents).length ≤ sizeMax) {heap : Heap} (hprovides : ∀ n, heap.provides n = true)
    {d : HeldSerdata} (hd : s.fromPsmx heap loan = .ok (some d)) {runtime : Runtime} {header : Option (Nat × Nat)} {v : Value}
    (hread : s.toSampleImpl heap runtime d = .ok (some ⟨header,some v⟩)) : v.Fits := by
  obtain ⟨d',hd',hread'⟩ := s.fromPsmx_taken hstate hlen hprovides runtime
  rw [hd] at hd'
  cases hd'
  rw [hread] at hread'
  cases hmessage : s.cdrReader.deserialize runtime (SerdataRmw.padded loan.contents) .sample with
  | error e =>
    rw [hmessage] at hread'
    cases e <;> cases hread'
  | ok message =>
    rw [hmessage] at hread'
    cases hread'
    exact s.cdrReader.deserialize_fits hmessage

/-- Shared memory holds a sample of which the lengths fit, if the size of its type is not measured on it, and is
at least four bytes too large. -/
private theorem agrees_iff : s.SharedMemoryAgrees m sample ↔
    s.cdrWriter.minSerializedDataSize = s.cdrWriter.maxSerializedDataSize ∧
      (sourceValue host root variant m sample .sample).Fits ∧
      4 + (sourceValue host root variant m sample .sample).finish (startOffset variant .sample) + 4 ≤
        s.cdrWriter.maxSerializedDataSize := by
  by_cases hne : s.cdrWriter.minSerializedDataSize = s.cdrWriter.maxSerializedDataSize
  swap
  · exact ⟨fun h => absurd h (s.not_agrees_of_ne m sample hne),fun h => absurd h.1 hne⟩
  obtain ⟨hge,hle,encoding,hreported⟩ := s.reported_of_eq m sample hne
  have hlength := @sample_length host root variant m sample
  constructor
  · rintro ⟨size,_,hsize,hstore⟩
    rw [hreported] at hsize
    have hsize := (Prod.mk.inj (Except.ok.inj hsize)).1
    obtain ⟨stored,hstored,hlen,hloan⟩ := hstore (List.replicate size 0) List.length_replicate
    rw [s.serializeIntoBuffer_eq, List.length_replicate] at hstored
    split at hstored
    · cases hstored
    next hroom =>
    refine ⟨hne,?_,by omega⟩
    let loan : LoanedSample := ⟨.serializedData,stored.length,Memory.ofBytes stored,Memory.base⟩
    let heap : Heap := ⟨fun _ => true,fun _ => 0⟩
    have hprovides : ∀ n, heap.provides n = true := fun _ => rfl
    obtain ⟨d,hd,hread⟩ := hloan loan rfl hlen (Memory.read_ofBytes stored) heap hprovides (fun _ _ => .provided)
      (fun _ _ => rfl)
    exact s.fits_of_read rfl (padded_loan_le (by omega) hlen) hprovides hd hread
  · rintro ⟨_,hf,hroom⟩
    refine ⟨_,encoding,hreported,?_⟩
    intro dstBuffer hbuffer
    have hstored := s.serializeIntoBuffer_eq m sample dstBuffer
    rw [if_neg (by omega)] at hstored
    refine ⟨_,hstored,?_,?_⟩
    · rw [List.length_append, List.length_drop]
      omega
    · intro loan hstate hloansize hcontents heap hprovides runtime hr
      obtain ⟨d,hd,hread⟩ := s.fromPsmx_taken hstate (padded_loan_le (by omega) hloansize) hprovides runtime
      rw [s.deserialize_loan m sample hf hcontents hr] at hread
      exact ⟨d,hd,hread⟩

end

/-- Some sample holds the fullest value. -/
private theorem exists_fullest (hr : root.Representable) :
    ∃ m sample, sourceValue host root variant m sample .sample = root.toValueType.fullest := by
  obtain ⟨m,a,hvalue⟩ := hr host _ root.toValueType.fullest_has
  cases variant with
  | sample => exact ⟨m,a,hvalue⟩
  | request => exact ⟨{m with pointer := fun _ => a},a,(m.value_pointer _ host root.toValueType a).trans hvalue⟩

private theorem fullest_length :
    root.toValueType.fullest.finish (startOffset variant .sample) = boundExtent 0 root variant .sample .max := by
  have hfinish := ValueType.finish_fullest .sample root.toValueType (startOffset variant .sample)
  rw [ValueType.project_sample root.toValueType.fullest_has] at hfinish
  rw [hfinish, boundExtent, if_pos (.inl rfl)]

private theorem finish_le_boundExtent {m : Memory} {sample : Address}
    (hb : root.toValueType.InBounds (sourceValue host root variant m sample .sample)) :
    (sourceValue host root variant m sample .sample).finish (startOffset variant .sample) ≤
      boundExtent 0 root variant .sample .max := by
  have hv : root.toValueType.Has (sourceValue host root variant m sample .sample) := m.value_has host root.toValueType _
  have hle := ValueType.finish_le_max .sample hv hb (startOffset variant .sample)
  rw [ValueType.view_never .sample hv, ValueType.project_sample hv] at hle
  rwa [boundExtent, if_pos (.inl rfl)]

/-- Shared memory holds the samples of the types that leave room for the encoding header, and of no others:
no sample at all of a type with several sizes. -/
theorem sharedMemoryAgrees_iff :
    (root.LeavesRoom variant → ∀ m sample, root.toValueType.InBounds (sourceValue host root variant m sample .sample) →
      s.SharedMemoryAgrees m sample) ∧
    (root.Representable → (∀ m sample, root.toValueType.InBounds (sourceValue host root variant m sample .sample) →
      s.SharedMemoryAgrees m sample) → root.LeavesRoom variant) ∧
    (¬root.OneSize variant .sample → ∀ m sample, ¬s.SharedMemoryAgrees m sample) := by
  have hmax : root.Measurable variant .sample .max ∧
      s.cdrWriter.maxSerializedDataSize = 4 + boundExtent 2 root variant .sample .max ∨
        ¬root.Measurable variant .sample .max ∧ s.cdrWriter.maxSerializedDataSize = sizeMax :=
    s.cdrWriter.max_cases .sample
  have hone : s.cdrWriter.minSerializedDataSize = s.cdrWriter.maxSerializedDataSize ↔ root.OneSize variant .sample :=
    s.cdrWriter.oneSize_iff .sample
  refine ⟨?_,?_,?_⟩
  · rintro ⟨hsize,hroom⟩ m sample hb
    have hle := finish_le_boundExtent hb
    have hfits := ValueType.fits_of_inBounds (t := root.toValueType) root.wellFormed (m.value_has host root.toValueType _) hb
    refine (s.agrees_iff m sample).mpr ⟨hone.mpr hsize,hfits,?_⟩
    rcases hmax with ⟨hm,heq⟩ | ⟨hm,heq⟩
    · rcases hroom with ⟨_,hroom⟩ | ⟨hno,_⟩
      · omega
      · exact absurd hm hno
    · rcases hroom with ⟨hyes,_⟩ | ⟨_,hroom⟩
      · exact absurd hyes hm
      · omega
  · intro hr hall
    obtain ⟨m,sample,hfull⟩ := exists_fullest hr
    have hagrees := hall m sample (hfull ▸ root.toValueType.fullest_inBounds)
    obtain ⟨heq,_,hroom⟩ := (s.agrees_iff m sample).mp hagrees
    rw [hfull, fullest_length] at hroom
    refine ⟨hone.mp heq,?_⟩
    rcases hmax with ⟨hm,hmaxeq⟩ | ⟨hm,hmaxeq⟩
    · exact .inl ⟨hm,by omega⟩
    · exact .inr ⟨hm,by omega⟩
  · intro hno m sample
    exact s.not_agrees_of_ne m sample fun heq => hno (hone.mp heq)

/-- A message of two words: `uint64[2]`. -/
def wordPair : StructValueType where
  sizeofStruct := 16
  members := .cons 0 false (.array (.primitive .uint64) 2) .nil
  wellFormed := ⟨⟨True.intro,True.intro⟩,True.intro⟩

private theorem wordPair_leavesRoom : wordPair.LeavesRoom .sample := by
  have hsolid : wordPair.toValueType.Solid := ⟨(nomatch ·),⟨by decide,True.intro⟩,True.intro⟩
  have hmeasurable : ∀ mm, wordPair.Measurable .sample .sample mm := fun mm =>
    ⟨fun _ => ValueType.roomy_of_solid .sample mm hsolid,by cases mm <;> decide⟩
  exact ⟨⟨iff_of_true (hmeasurable .min) (hmeasurable .max),fun _ => rfl⟩,.inl ⟨hmeasurable .max,by decide⟩⟩

theorem wordPair_shared : ∃ s : Sertype .little wordPair .sample,
    ∀ m sample, wordPair.toValueType.InBounds (sourceValue .little wordPair .sample m sample .sample) →
      s.SharedMemoryAgrees m sample := by
  obtain ⟨s,_⟩ := exists_of_bounds .little wordPair .sample rfl rfl rfl rfl
  exact ⟨s,s.sharedMemoryAgrees_iff.1 wordPair_leavesRoom⟩

/-- For two bytes a size of four is reported, and they are stored behind their encoding header. -/
theorem bytePair_overruns : ∃ s : Sertype .little CDRWriter.bytePair .sample, ∃ encoding,
    s.getSerializedSize (Memory.ofBytes [7,9]) Memory.base = .ok (4,encoding) ∧
    s.serializeIntoBuffer (Memory.ofBytes [7,9]) Memory.base [0,0,0,0] = .error .undefined ∧
    ¬s.SharedMemoryAgrees (Memory.ofBytes [7,9]) Memory.base := by
  obtain ⟨s,hmin,_,hmax,_⟩ := exists_of_bounds .little CDRWriter.bytePair .sample rfl rfl rfl rfl
  change s.cdrWriter.maxSerializedDataSize = _ at hmax
  obtain ⟨_,_,encoding,hreported⟩ := s.reported_of_eq (Memory.ofBytes [7,9]) Memory.base (hmin.trans hmax.symm)
  rw [hmax] at hreported
  have hover : s.serializeIntoBuffer (Memory.ofBytes [7,9]) Memory.base [0,0,0,0] = .error .undefined := by
    rw [s.serializeIntoBuffer_eq]
    rfl
  refine ⟨s,encoding,hreported,hover,?_⟩
  rintro ⟨size,_,hsize,hstore⟩
  rw [hreported] at hsize
  cases hsize
  obtain ⟨stored,hstored,_⟩ := hstore [0,0,0,0] rfl
  rw [hover] at hstored
  cases hstored

end Sertype
end RmwCyclonedds
