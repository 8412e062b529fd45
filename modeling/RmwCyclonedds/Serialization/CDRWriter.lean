import RmwCyclonedds.Serialization.Bounds
import RmwCyclonedds.Serialization.Serialize

/-! The writer of one message type: the stream it produces and the size it announces. -/
namespace RmwCyclonedds
open Library WriteCursor

def serializeSizeBoundTopLevel (root : StructValueType) (variant : SampleOrRequest) (what : SampleOrKey)
    (mm : MinOrMax) (dst : CheckingSizeCursor) : Outcome (CheckingSizeCursor × Bool) := do
  let dst ← dst.putBytes 4
  let dst := dst.rebase 4
  let dst ← (if what = .sample ∧ variant = .request then do (← dst.putBytes 8).putBytes 8 else pure dst)
  let (dst,fixed) ← (if what = .sample ∨ root.hasKeys then serializeSizeBound what mm root.toValueType dst
    else pure (dst,true))
  return (dst.rebase (-4),fixed)

def computeSerializedSizeBound (root : StructValueType) (variant : SampleOrRequest) (what : SampleOrKey)
    (mm : MinOrMax) : Outcome Nat :=
  match serializeSizeBoundTopLevel root variant what mm ⟨0⟩ with
  | .ok (cursor,true) => .ok cursor.offset
  | .ok (_,false) => .ok sizeMax
  | .error (.throws (.overflowError _)) => .ok sizeMax
  | .error e => .error e

/-- A writer is built for one root type; its cache and its four bounds are those of that type. -/
structure CDRWriter (host : Endian) (root : StructValueType) (variant : SampleOrRequest) where
  tsc : TriviallySerializedCache
  minSerializedDataSize : Nat
  minSerializedKeySize : Nat
  maxSerializedDataSize : Nat
  maxSerializedKeySize : Nat
  tsc_eq : TriviallySerializedCache.make root.toValueType = .ok tsc
  minData_eq : computeSerializedSizeBound root variant .sample .min = .ok minSerializedDataSize
  minKey_eq : computeSerializedSizeBound root variant .key .min = .ok minSerializedKeySize
  maxData_eq : computeSerializedSizeBound root variant .sample .max = .ok maxSerializedDataSize
  maxKey_eq : computeSerializedSizeBound root variant .key .max = .ok maxSerializedKeySize

def putRtpsHeader {σ : Type} [WriteCursor σ] (host : Endian) (dst : σ) : σ :=
  putBytes dst [0,if host = .little then 1 else 0,0,0]

namespace CDRWriter

def make (host : Endian) (root : StructValueType) (variant : SampleOrRequest) :
    Outcome (CDRWriter host root variant) := do
  let ⟨tsc,htsc⟩ ← (TriviallySerializedCache.make root.toValueType).attach
  let ⟨minData,hminData⟩ ← (computeSerializedSizeBound root variant .sample .min).attach
  let ⟨minKey,hminKey⟩ ← (computeSerializedSizeBound root variant .key .min).attach
  let ⟨maxData,hmaxData⟩ ← (computeSerializedSizeBound root variant .sample .max).attach
  let ⟨maxKey,hmaxKey⟩ ← (computeSerializedSizeBound root variant .key .max).attach
  return ⟨tsc,minData,minKey,maxData,maxKey,htsc,hminData,hminKey,hmaxData,hmaxKey⟩

variable {host : Endian} {root : StructValueType} {variant : SampleOrRequest} (w : CDRWriter host root variant)

def getMinSerializedSize (what : SampleOrKey) : Nat :=
  if what = .sample then w.minSerializedDataSize else w.minSerializedKeySize

def getMaxSerializedSize (what : SampleOrKey) : Nat :=
  if what = .sample then w.maxSerializedDataSize else w.maxSerializedKeySize

/-- A request wrapper holds the client's id, a sequence number and a pointer to the data. -/
def serializeTopLevel {σ : Type} [WriteCursor σ] (dst : σ) (m : Memory) (src : Address) (what : SampleOrKey) :
    Outcome σ := do
  let dst := putRtpsHeader host dst
  let dst := rebase dst 4
  let (dst,src) :=
    if what = .sample ∧ variant = .request then
      (putBytes (putBytes dst (m.read src 8)) (m.read (src + 8) 8),m.pointer (src + 16))
    else (dst,src)
  let dst ← if what = .sample ∨ root.hasKeys then
      RmwCyclonedds.serialize host m w.tsc.lookupTriviallySerialized what root.toValueType src dst
    else pure dst
  return rebase dst (-4)

def serialize (m : Memory) (src : Address) (what : SampleOrKey) : Outcome (List Byte) := do
  return (← w.serializeTopLevel SerializeCursor.start m src what).written

def getSerializedSize (m : Memory) (src : Address) (what : SampleOrKey) : Outcome Nat := do
  let min := w.getMinSerializedSize what
  let max := w.getMaxSerializedSize what
  if min = max then return max
  else return (← w.serializeTopLevel (SizeCursor.mk 0) m src what).offset

end CDRWriter

/-! ### The stream -/

section
variable (host : Endian) (root : StructValueType) (variant : SampleOrRequest) (m : Memory) (src : Address)
  (what : SampleOrKey)

/-- Where the value starts in the stream, behind a request header if there is one. -/
def startOffset : Nat := if what = .sample ∧ variant = .request then 16 else 0

/-- The object that is written. -/
def sourceObject : Address := if what = .sample ∧ variant = .request then m.pointer (src + 16) else src

/-- The value of the object that is written. -/
def sourceValue : Value := m.value host root.toValueType (sourceObject variant m src what)

def requestHeader : List Byte := if what = .sample ∧ variant = .request then m.read src 16 else []

/-- Everything behind the encoding header. -/
def streamBody : List Byte :=
  requestHeader variant m src what ++
  (if what = .sample ∨ root.hasKeys then
    (root.toValueType.view cachedWhole what (sourceValue host root variant m src what)
      (startOffset variant what)).encode host (startOffset variant what)
  else [])

end

def rtpsHeader (host : Endian) : List Byte := [0,if host = .little then 1 else 0,0,0]

namespace CDRWriter
variable {host : Endian} {root : StructValueType} {variant : SampleOrRequest} (w : CDRWriter host root variant)
  (m : Memory) (src : Address) (what : SampleOrKey)

/-- Only the bounds can keep a writer from being built. -/
theorem exists_of_bounds (host : Endian) (root : StructValueType) (variant : SampleOrRequest)
    {minData minKey maxData maxKey : Nat}
    (hminData : computeSerializedSizeBound root variant .sample .min = .ok minData)
    (hminKey : computeSerializedSizeBound root variant .key .min = .ok minKey)
    (hmaxData : computeSerializedSizeBound root variant .sample .max = .ok maxData)
    (hmaxKey : computeSerializedSizeBound root variant .key .max = .ok maxKey) :
    ∃ w : CDRWriter host root variant, w.minSerializedDataSize = minData ∧ w.minSerializedKeySize = minKey ∧
      w.maxSerializedDataSize = maxData ∧ w.maxSerializedKeySize = maxKey := by
  obtain ⟨c,hc,_⟩ := make_known root.toValueType
  exact ⟨⟨c,minData,minKey,maxData,maxKey,hc,hminData,hminKey,hmaxData,hmaxKey⟩,rfl,rfl,rfl,rfl⟩

theorem sound : root.toValueType.Everywhere (Sound w.tsc.lookupTriviallySerialized cachedWhole) :=
  (answersExactly_of_make w.tsc_eq).imp fun _ h => sound_cached h

private theorem source_pair {σ : Type} [WriteCursor σ] [LawfulWriteCursor σ] (dst : σ) :
    (if what = .sample ∧ variant = .request then
      (putBytes (putBytes dst (m.read src 8)) (m.read (src + 8) 8),m.pointer (src + 16))
    else (dst,src)) = (putBytes dst (requestHeader variant m src what),sourceObject variant m src what) := by
  unfold requestHeader sourceObject
  by_cases hr : what = .sample ∧ variant = .request
  · rw [if_pos hr, if_pos hr, if_pos hr, LawfulWriteCursor.putBytes_append, ← Memory.read_add]
  · rw [if_neg hr, if_neg hr, if_neg hr, LawfulWriteCursor.putBytes_nil]

theorem requestHeader_length : (requestHeader variant m src what).length = startOffset variant what := by
  unfold requestHeader startOffset
  split
  · exact m.read_length src 16
  · rfl

private theorem serializeTopLevel_eq {σ : Type} [WriteCursor σ] [LawfulWriteCursor σ] (dst : σ)
    (h0 : offset (rebase (putBytes dst (rtpsHeader host)) 4) = 0) :
    w.serializeTopLevel dst m src what =
      .ok (rebase (putBytes (rebase (putBytes dst (rtpsHeader host)) 4) (streamBody host root variant m src what))
        (-4)) := by
  have hoff : offset (putBytes (rebase (putBytes dst (rtpsHeader host)) 4) (requestHeader variant m src what)) =
      startOffset variant what := by
    rw [LawfulWriteCursor.offset_putBytes, h0, requestHeader_length, Nat.zero_add]
  have hbody := RmwCyclonedds.serialize_eq host m what root.toValueType root.wellFormed w.sound
    (sourceObject variant m src what)
    (putBytes (rebase (putBytes dst (rtpsHeader host)) 4) (requestHeader variant m src what))
  rw [hoff, LawfulWriteCursor.putBytes_append] at hbody
  have hheader : putRtpsHeader host dst = putBytes dst (rtpsHeader host) := rfl
  simp only [serializeTopLevel, hheader, source_pair, streamBody, sourceValue]
  by_cases hk : what = .sample ∨ root.hasKeys = true
  · rw [if_pos hk, if_pos hk, hbody]
    rfl
  · rw [if_neg hk, if_neg hk, List.append_nil]
    rfl

/-- What `serialize` writes, header included. -/
theorem serialize_eq :
    w.serialize m src what = .ok (rtpsHeader host ++ streamBody host root variant m src what) := by
  rw [serialize, w.serializeTopLevel_eq m src what SerializeCursor.start rfl]
  simp [bind, Except.bind, pure, Except.pure, SerializeCursor.written, SerializeCursor.start, WriteCursor.rebase,
    WriteCursor.putBytes, rtpsHeader]

/-- A plain sample is its value, encoded. -/
theorem sampleBody_eq (_ : CDRWriter host root .sample) (m : Memory) (src : Address) :
    streamBody host root .sample m src .sample = (m.value host root.toValueType src).encode host 0 :=
  congrArg (fun v => Value.encode host v 0)
    (ValueType.view_sample cachedWhole (m.value_has host root.toValueType src))

/-- Where the bounds differ, the size is measured on the value itself. -/
theorem getSerializedSize_of_ne (h : w.getMinSerializedSize what ≠ w.getMaxSerializedSize what) :
    w.getSerializedSize m src what = .ok (4 + (streamBody host root variant m src what).length) := by
  rw [getSerializedSize, w.serializeTopLevel_eq m src what (SizeCursor.mk 0) rfl]
  simp only [h, if_false, bind, Except.bind, pure, Except.pure, WriteCursor.rebase, WriteCursor.putBytes, rtpsHeader,
    List.length_cons, List.length_nil]
  congr 1
  omega

theorem getSerializedSize_of_eq (h : w.getMinSerializedSize what = w.getMaxSerializedSize what) :
    w.getSerializedSize m src what = .ok (w.getMaxSerializedSize what) := by
  rw [getSerializedSize]
  simp only [h, if_true]
  rfl

theorem exists_getSerializedSize : ∃ n, w.getSerializedSize m src what = .ok n := by
  by_cases h : w.getMinSerializedSize what = w.getMaxSerializedSize what
  · exact ⟨_,w.getSerializedSize_of_eq m src what h⟩
  · exact ⟨_,w.getSerializedSize_of_ne m src what h⟩

end CDRWriter

/-! ### Copies against member by member, element by element -/

/-- What the cache may say about a type: its copies are never visible in a sample, a positive
answer makes the plain encoding the memory image, and a positive answer for many does
so at every later element. -/
structure CopiesArePlain (c : TriviallySerializedCache) (t : ValueType) : Prop where
  same : ∀ (host : Endian) (m : Memory) (src : Address) (dst : SerializeCursor), ∃ dst',
    serialize host m c.lookupTriviallySerialized .sample t src dst = .ok dst' ∧
    serialize host m noShortcut .sample t src dst = .ok dst'
  one : ∀ align, c.lookupTriviallySerialized align t = .ok true → ∃ n, t.sizeofType = .ok n ∧
    ∀ (host : Endian) (m : Memory) (src : Address) (dst : SerializeCursor),
      offset dst % maxAlign = align % maxAlign →
      serialize host m noShortcut .sample t src dst = .ok (putBytes dst (m.read src n))
  many : ∀ align, lookupManyTriviallySerialized c.lookupTriviallySerialized align t = .ok true →
    ∃ n, t.sizeofType = .ok n ∧
    ∀ (host : Endian) (m : Memory) (src : Address) (dst : SerializeCursor) (k : Nat),
      offset dst % maxAlign = (align + k * n) % maxAlign →
      serialize host m noShortcut .sample t src dst = .ok (putBytes dst (m.read src n))

section
variable {t : ValueType}

private theorem plain_eq (hw : t.WellFormed) (ha : t.Everywhere (Sound noShortcut neverWhole)) (host : Endian)
    (m : Memory) (src : Address) (dst : SerializeCursor) :
    serialize host m noShortcut .sample t src dst =
      .ok (putBytes dst ((m.value host t src).encode host (offset dst))) := by
  rw [serialize_eq host m .sample t hw ha, ValueType.view_sample neverWhole (m.value_has host t src)]

private theorem plain_of_trivial (hw : t.WellFormed) (ha : t.Everywhere (Sound noShortcut neverWhole)) {off : Nat}
    (ht : t.trivial off = true) (host : Endian) (m : Memory) (src : Address) (dst : SerializeCursor)
    (hoff : offset dst % maxAlign = off % maxAlign) :
    serialize host m noShortcut .sample t src dst = .ok (putBytes dst (m.read src t.size)) := by
  have htriv : t.trivial (offset dst) = true := by rw [t.trivial_congr hoff, ht]
  rw [plain_eq hw ha, m.encode_of_trivial host t src _ htriv]

theorem trivialMany_of_lookup {lookup : Lookup} (ha : AnswersExactly lookup t) {align : Nat}
    (h : lookupManyTriviallySerialized lookup align t = .ok true) : t.trivialMany align = true := by
  cases htriv : t.trivial align with
  | false =>
    have h0 := ha (align % maxAlign)
    rw [ValueType.trivial_mod, htriv] at h0
    simp [lookupManyTriviallySerialized, h0, bind, Except.bind, pure, Except.pure] at h
  | true =>
    rw [lookupMany_exactly (ValueType.sized_of_trivial htriv) ha] at h
    exact Except.ok.inj h

end

namespace CDRWriter
variable {host : Endian} {root : StructValueType} {variant : SampleOrRequest} (w : CDRWriter host root variant)

/-- Throughout the type of a writer, copying is encoding. -/
theorem copiesArePlain : root.toValueType.Everywhere (CopiesArePlain w.tsc) := by
  have hinside := ValueType.everywhere_inside (t := root.toValueType) root.wellFormed
    (answersExactly_of_make w.tsc_eq)
  refine hinside.imp ?_
  rintro t ⟨hw,ha⟩
  have hplain : t.Everywhere (Sound noShortcut neverWhole) := ha.imp fun t _ => sound_noShortcut t
  refine ⟨?_,?_,?_⟩
  · intro host m src dst
    refine ⟨_,?_,plain_eq hw hplain host m src dst⟩
    rw [RmwCyclonedds.serialize_eq host m .sample t hw (ha.imp fun _ h => sound_cached h),
      ValueType.view_sample cachedWhole (m.value_has host t src)]
  · intro align h
    rw [ha.here align] at h
    have htriv := Except.ok.inj h
    exact ⟨t.size,ValueType.sizeofType_of_sized (ValueType.sized_of_trivial htriv),
      fun host m src dst hoff => plain_of_trivial hw hplain htriv host m src dst hoff⟩
  · intro align h
    have hmany := trivialMany_of_lookup ha.here h
    have htriv := (Bool.and_eq_true_iff.mp hmany).1
    exact ⟨t.size,ValueType.sizeofType_of_sized (ValueType.sized_of_trivial htriv),
      fun host m src dst k hoff =>
        plain_of_trivial hw hplain (ValueType.trivial_of_trivialMany hmany k) host m src dst hoff⟩

end CDRWriter
end RmwCyclonedds
