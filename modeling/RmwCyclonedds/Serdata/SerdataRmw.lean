import RmwCyclonedds.Serialization.KeyReader

/-! Serialized samples and keys as the middleware holds them. -/
namespace RmwCyclonedds
open Library

/-- What `new` does: which sizes are to be had, and what a block holds that nobody initialised. -/
structure Heap where
  provides : Nat → Bool
  junk : Nat → Byte

inductive SerdataKind where
  | empty
  | key
  | data
  deriving DecidableEq, Repr

/-- Everything but data is a key. -/
def SerdataKind.what (kind : SerdataKind) : SampleOrKey := if kind = .data then .sample else .key

structure SerdataRmw where
  kind : SerdataKind
  data : List Byte
  key : List Byte
  deriving DecidableEq, Repr

namespace SerdataRmw

def make (kind : SerdataKind) : SerdataRmw := ⟨kind,[],[]⟩

/-- The bytes that bring a size to a multiple of four. -/
def nPadBytes (requestedSize : Nat) : Nat := (2 ^ 64 - requestedSize) % 4

def resize (heap : Heap) (d : SerdataRmw) (requestedSize : Nat) : Outcome SerdataRmw :=
  if requestedSize = 0 then .ok {d with data := []}
  else if sizeMax < requestedSize + nPadBytes requestedSize then .error .undefined
  else if heap.provides (requestedSize + nPadBytes requestedSize) then
    .ok {d with data := (List.range requestedSize).map heap.junk ++ List.replicate (nPadBytes requestedSize) 0}
  else .error (.throws .badAlloc)

def setKey (heap : Heap) (d : SerdataRmw) (key : List Byte) : Outcome SerdataRmw :=
  if key.length = 0 then .ok {d with key := []}
  else if heap.provides key.length then .ok {d with key := key}
  else .error (.throws .badAlloc)

/-- `memcpy` into the data; outside of the block this is undefined. -/
def put (d : SerdataRmw) (position : Nat) (bytes : List Byte) : Outcome SerdataRmw :=
  if position + bytes.length ≤ d.data.length then
    .ok {d with data := d.data.take position ++ (bytes ++ d.data.drop (position + bytes.length))}
  else .error .undefined

def eqkey (a b : SerdataRmw) : Bool :=
  a.key.length == b.key.length && (a.key.length == 0 || a.key == b.key)

theorem eqkey_iff (a b : SerdataRmw) : eqkey a b = true ↔ a.key = b.key := by
  simp only [eqkey, Bool.and_eq_true, Bool.or_eq_true, beq_iff_eq]
  constructor
  · rintro ⟨hlen,h0 | h⟩
    · rw [h0] at hlen
      rw [List.eq_nil_of_length_eq_zero h0, List.eq_nil_of_length_eq_zero hlen.symm]
    · exact h
  · intro h
    exact ⟨congrArg List.length h,.inr h⟩

end SerdataRmw

/-- The typesupport of a topic as readers and writers see it. -/
structure Sertype (host : Endian) (root : StructValueType) (variant : SampleOrRequest) where
  cdrWriter : CDRWriter host root variant
  cdrReader : CDRReader host root variant

theorem Sertype.exists_of_bounds (host : Endian) (root : StructValueType) (variant : SampleOrRequest)
    {minData minKey maxData maxKey : Nat}
    (hminData : computeSerializedSizeBound root variant .sample .min = .ok minData)
    (hminKey : computeSerializedSizeBound root variant .key .min = .ok minKey)
    (hmaxData : computeSerializedSizeBound root variant .sample .max = .ok maxData)
    (hmaxKey : computeSerializedSizeBound root variant .key .max = .ok maxKey) :
    ∃ s : Sertype host root variant, s.cdrWriter.getMinSerializedSize .sample = minData ∧
      s.cdrWriter.getMinSerializedSize .key = minKey ∧ s.cdrWriter.getMaxSerializedSize .sample = maxData ∧
      s.cdrWriter.getMaxSerializedSize .key = maxKey := by
  obtain ⟨w,hbounds⟩ := CDRWriter.exists_of_bounds host root variant hminData hminKey hmaxData hmaxKey
  obtain ⟨c,hc,_⟩ := make_known root.toValueType
  exact ⟨⟨w,⟨c,hc⟩⟩,hbounds⟩

/-- A received fragment: where its payload belongs, and the payload. -/
structure Fragment where
  min : Nat
  maxp1 : Nat
  payload : List Byte

/-- Only what a fragment adds behind `off` is copied. -/
def copyFragments : List Fragment → Nat → Nat → SerdataRmw → Outcome SerdataRmw
  | [], _, _, d => .ok d
  | fragment :: rest, off, cursor, d =>
    if fragment.maxp1 > off then
      let src := fragment.payload.drop (off - fragment.min)
      let nBytes := fragment.maxp1 - off
      if off < fragment.min ∨ src.length < nBytes then .error .undefined
      else do
        let d ← d.put cursor (src.take nBytes)
        copyFragments rest fragment.maxp1 (cursor + nBytes) d
    else copyFragments rest off cursor d

def copyIov : List (List Byte) → Nat → SerdataRmw → Outcome SerdataRmw
  | [], _, d => .ok d
  | iov :: rest, cursor, d => do
    let d ← d.put cursor iov
    copyIov rest (cursor + iov.length) d

namespace Sertype
variable {host : Endian} {root : StructValueType} {variant : SampleOrRequest} (s : Sertype host root variant)
  (heap : Heap)

def setKeyFromSample (d : SerdataRmw) (m : Memory) (sample : Address) : Outcome SerdataRmw := do
  if root.hasKeys then
    let keysize ← s.cdrWriter.getSerializedSize m sample .key
    if !heap.provides keysize then throw (.throws .badAlloc)
    let key ← s.cdrWriter.serialize m sample .key
    if keysize < key.length then throw .undefined
    return {d with key := key ++ List.replicate (keysize - key.length) 0}
  else return d

/-- What is tried when a serdata is given the key of its data. -/
def extractInto (d : SerdataRmw) : Outcome SerdataRmw := do
  if root.hasKeys then
    let key ← s.cdrReader.extractkey d.data d.kind.what
    d.setKey heap key
  else return d

/-- An exception leaves the serdata without a key. -/
def setKeyFromSer (d : SerdataRmw) : Outcome SerdataRmw := (s.extractInto heap d).caught d

/-- What is tried when a serdata is given the encoding of a sample. -/
def resizeFor (d : SerdataRmw) (m : Memory) (sample : Address) : Outcome SerdataRmw := do
  let sz ← s.cdrWriter.getSerializedSize m sample d.kind.what
  d.resize heap sz

/-- An exception leaves the serdata as far as it has come. -/
def serializeInto (d : SerdataRmw) (m : Memory) (sample : Address) : Outcome SerdataRmw :=
  Outcome.caught (do
    let d ← s.resizeFor heap d m sample
    Outcome.caught (do
      let bytes ← s.cdrWriter.serialize m sample d.kind.what
      d.put 0 bytes) d) d

/-- The constructors return no serdata when an exception reaches them. -/
def fromSer (kind : SerdataKind) (fragchain : List Fragment) (size : Nat) : Outcome (Option SerdataRmw) :=
  Outcome.caught (do
    let d ← (SerdataRmw.make kind).resize heap size
    let d ← copyFragments fragchain 0 0 d
    let d ← s.setKeyFromSer heap d
    return some d) none

def fromSerIov (kind : SerdataKind) (iov : List (List Byte)) (size : Nat) : Outcome (Option SerdataRmw) :=
  Outcome.caught (do
    let d ← (SerdataRmw.make kind).resize heap size
    let d ← copyIov iov 0 d
    let d ← s.setKeyFromSer heap d
    return some d) none

def fromSample (kind : SerdataKind) (m : Memory) (sample : Address) : Outcome (Option SerdataRmw) :=
  Outcome.caught (do
    let d ← s.setKeyFromSample heap (SerdataRmw.make kind) m sample
    let d ← s.serializeInto heap d m sample
    return some d) none

end Sertype
end RmwCyclonedds
