import RmwCyclonedds.Node.Events
import RmwCyclonedds.Serdata.Reassembly
import RmwCyclonedds.Serdata.ToSample

/-! Serialized messages in buffers of the application. -/
namespace RmwCyclonedds
open Library

/-- A block that has been allocated, and how much of it is used. -/
structure SerializedMessage where
  buffer : List Byte
  bufferLength : Nat
  deriving DecidableEq

namespace SerializedMessage

/-- The used part of the block; to read outside of the block is undefined. -/
def contents (message : SerializedMessage) : Outcome (List Byte) :=
  if message.bufferLength ≤ message.buffer.length then .ok (message.buffer.take message.bufferLength) else .error .undefined

/-- `memcpy` to the start of the block. -/
def store (message : SerializedMessage) (bytes : List Byte) : Outcome SerializedMessage :=
  if message.buffer.length < bytes.length then .error .undefined
  else .ok {message with buffer := bytes ++ message.buffer.drop bytes.length}

end SerializedMessage

/-- `rmw_serialized_message_resize`: where it succeeds, the block has the size that was asked for. -/
structure MessageResize where
  resize : SerializedMessage → Nat → RmwRet × SerializedMessage
  size_eq : ∀ message size, (resize message size).1 = .ok → (resize message size).2.buffer.length = size

/-- `rmw_serialize` with what `make_message_value_type` returns. -/
def rmwSerialize (host : Endian) (resize : MessageResize) (messageValueType : Outcome StructValueType) (m : Memory)
    (rosMessage : Address) (serializedMessage : SerializedMessage) : Outcome (RmwRet × SerializedMessage) :=
  Outcome.caught (do
    let root ← messageValueType
    let writer ← CDRWriter.make host root .sample
    let size ← writer.getSerializedSize m rosMessage .sample
    let resized := resize.resize serializedMessage size
    if resized.1 ≠ .ok then return resized
    Outcome.caught (do
      let bytes ← writer.serialize m rosMessage .sample
      let message ← resized.2.store bytes
      return (.ok,{message with bufferLength := size})) (.error,resized.2)) (.error,serializedMessage)

/-! ### Bytes that hold a value -/

/-- The bytes start with an encoding of the value, in the byte order that their header names. -/
def Encodes (bytes : List Byte) (v : Value) : Prop :=
  ∃ sender rest, bytes = rtpsHeader sender ++ (v.encode sender 0 ++ rest)

namespace Encodes
variable {bytes : List Byte} {v : Value}

theorem append (h : Encodes bytes v) (more : List Byte) : Encodes (bytes ++ more) v := by
  obtain ⟨sender,rest,rfl⟩ := h
  refine ⟨sender,rest ++ more,?_⟩
  rw [List.append_assoc, List.append_assoc]

theorem padded (h : Encodes bytes v) : Encodes (SerdataRmw.padded bytes) v := h.append _

/-- A reader of any type that has the value finds it. -/
theorem deserialize (h : Encodes bytes v) {host : Endian} {root : StructValueType} (r : CDRReader host root .sample)
    {runtime : Runtime} (hr : ∀ position size, runtime position size = .provided) (hv : root.toValueType.Has v)
    (hf : v.Fits) : r.deserialize runtime bytes .sample = .ok ⟨none,some v⟩ := by
  obtain ⟨sender,rest,rfl⟩ := h
  exact r.deserialize_stream hr sender hv hf rest

theorem rmwDeserialize (h : Encodes bytes v) (host : Endian) {root : StructValueType}
    {runtime : Runtime} (hr : ∀ position size, runtime position size = .provided) (hv : root.toValueType.Has v)
    (hf : v.Fits) : RmwCyclonedds.rmwDeserialize host runtime (.ok root) bytes = .ok (some ⟨none,some v⟩) := by
  obtain ⟨c,hc,_⟩ := make_known root.toValueType
  simp only [RmwCyclonedds.rmwDeserialize, CDRReader.make_ok hc, h.deserialize ⟨c,hc⟩ hr hv hf, bind, Except.bind]
  rfl

end Encodes

namespace CDRWriter
variable {host : Endian} {root : StructValueType} (w : CDRWriter host root .sample) (m : Memory) (src : Address)

/-- There is only one writer for a type. -/
theorem make_eq {variant : SampleOrRequest} (w : CDRWriter host root variant) : make host root variant = .ok w := by
  simp only [make, Outcome.attach_ok w.tsc_eq, Outcome.attach_ok w.minData_eq, Outcome.attach_ok w.minKey_eq,
    Outcome.attach_ok w.maxData_eq, Outcome.attach_ok w.maxKey_eq]
  rfl

/-- What is written for a message holds its value, and is not longer than announced. -/
theorem serialize_encodes (hb : root.toValueType.InBounds (m.value host root.toValueType src)) {size : Nat}
    (hsize : w.getSerializedSize m src .sample = .ok size)
    (hmax : size = sizeMax → 4 + (m.value host root.toValueType src).finish 0 ≤ sizeMax) :
    ∃ bytes, w.serialize m src .sample = .ok bytes ∧ Encodes bytes (m.value host root.toValueType src) ∧
      bytes.length ≤ size := by
  have hbody := w.sampleBody_eq m src
  have hlength := Value.encode_length host (m.value host root.toValueType src) 0
  have hbytes : (rtpsHeader host ++ streamBody host root .sample m src .sample).length =
      4 + (streamBody host root .sample m src .sample).length := List.length_append
  refine ⟨_,w.serialize_eq m src .sample,⟨host,[],?_⟩,?_⟩
  · rw [List.append_nil, hbody]
  rw [hbytes]
  by_cases hfixed : w.getMinSerializedSize .sample = w.getMaxSerializedSize .sample
  · rw [w.getSerializedSize_of_eq m src .sample hfixed] at hsize
    cases hsize
    have hle := length_le_max host root .sample m src .sample (ValueType.copyFree_sample cachedWhole _ _ _) hb
    rcases w.max_eq .sample with h | h
    · have hfinish := hmax h
      rw [h, hbody]
      omega
    · omega
  · rw [w.getSerializedSize_of_ne m src .sample hfixed] at hsize
    cases hsize
    exact Nat.le_refl _

end CDRWriter

/-! ### Serializing for somebody else -/

section
variable {host : Endian} {root : StructValueType} (w : CDRWriter host root .sample) (resize : MessageResize) (m : Memory)
  (rosMessage : Address) (old : SerializedMessage)

/-- A message is stored in the block if that can be resized. -/
private theorem rmwSerialize_eq {bytes : List Byte} {size : Nat} (hbytes : w.serialize m rosMessage .sample = .ok bytes)
    (hsize : w.getSerializedSize m rosMessage .sample = .ok size) (hle : bytes.length ≤ size) :
    rmwSerialize host resize (.ok root) m rosMessage old = .ok (if (resize.resize old size).1 = .ok then
      (.ok,⟨bytes ++ (resize.resize old size).2.buffer.drop bytes.length,size⟩) else resize.resize old size) := by
  simp only [rmwSerialize, w.make_eq, hsize, bind, Except.bind]
  by_cases hret : (resize.resize old size).1 = .ok
  · have hroom : ¬(resize.resize old size).2.buffer.length < bytes.length := by
      rw [resize.size_eq old size hret]
      omega
    simp only [ne_eq, hret, not_true_eq_false, if_false, if_true, hbytes, SerializedMessage.store, if_neg hroom]
    rfl
  · simp only [ne_eq, hret, not_false_eq_true, if_true, if_false]
    rfl

/-- A message that is serialized is in the block, all of which is in use. -/
theorem rmwSerialize_encodes (hb : root.toValueType.InBounds (m.value host root.toValueType rosMessage)) {size : Nat}
    (hsize : w.getSerializedSize m rosMessage .sample = .ok size)
    (hmax : size = sizeMax → 4 + (m.value host root.toValueType rosMessage).finish 0 ≤ sizeMax) :
    ∃ ret new, rmwSerialize host resize (.ok root) m rosMessage old = .ok (ret,new) ∧ ret = (resize.resize old size).1 ∧
      (ret = .ok → ∃ bytes, new.contents = .ok bytes ∧ bytes.length = size ∧
        Encodes bytes (m.value host root.toValueType rosMessage)) := by
  obtain ⟨bytes,hbytes,hencodes,hle⟩ := w.serialize_encodes m rosMessage hb hsize hmax
  have heq := rmwSerialize_eq w resize m rosMessage old hbytes hsize hle
  by_cases hret : (resize.resize old size).1 = .ok
  · rw [if_pos hret] at heq
    refine ⟨_,_,heq,hret.symm,fun _ => ?_⟩
    have hblock := resize.size_eq old size hret
    have hlength : (bytes ++ (resize.resize old size).2.buffer.drop bytes.length).length = size := by
      rw [List.length_append, List.length_drop, hblock]
      omega
    refine ⟨_,?_,hlength,hencodes.append _⟩
    rw [SerializedMessage.contents, if_pos (Nat.le_of_eq hlength.symm), List.take_of_length_le (Nat.le_of_eq hlength)]
  · rw [if_neg hret] at heq
    exact ⟨_,_,heq,rfl,fun h => absurd h hret⟩

/-- A message that is serialized is never written outside of the block, and what is then in use of the block is read as
the same message on every host, by every type that has its value. -/
theorem rmwSerialize_roundTrip (hb : root.toValueType.InBounds (m.value host root.toValueType rosMessage))
    (hmax : 4 + (m.value host root.toValueType rosMessage).finish 0 ≤ sizeMax) :
    ∃ size ret new, w.getSerializedSize m rosMessage .sample = .ok size ∧
      rmwSerialize host resize (.ok root) m rosMessage old = .ok (ret,new) ∧ ret = (resize.resize old size).1 ∧
      (ret = .ok → ∃ bytes, new.contents = .ok bytes ∧ bytes.length = size ∧
        ∀ (receiver : Endian) (root' : StructValueType) (runtime : Runtime),
          (∀ position size, runtime position size = .provided) →
          root'.toValueType.Has (m.value host root.toValueType rosMessage) →
          rmwDeserialize receiver runtime (.ok root') bytes =
            .ok (some ⟨none,some (m.value host root.toValueType rosMessage)⟩)) := by
  obtain ⟨size,hsize⟩ := w.exists_getSerializedSize m rosMessage .sample
  obtain ⟨ret,new,heq,hret,hencodes⟩ := rmwSerialize_encodes w resize m rosMessage old hb hsize fun _ => hmax
  have hfits := ValueType.fits_of_inBounds (t := root.toValueType) root.wellFormed (m.value_has host root.toValueType _) hb
  refine ⟨size,ret,new,hsize,heq,hret,fun hok => ?_⟩
  obtain ⟨bytes,hcontents,hlength,hbytes⟩ := hencodes hok
  exact ⟨bytes,hcontents,hlength,fun receiver root' runtime hr hv => hbytes.rmwDeserialize receiver hr hv hfits⟩

end

/-- A block that grows and shrinks as it is asked to. -/
def anySize : MessageResize where
  resize message size := (.ok,⟨message.buffer.take size ++ List.replicate (size - message.buffer.length) 0,
    min size message.bufferLength⟩)
  size_eq message size _ := by
    rw [List.length_append, List.length_take, List.length_replicate]
    omega

/-- The note, serialized into an empty block. -/
theorem note_serialized : ∃ w : CDRWriter .big CDRReader.note .sample, ∃ size ret new,
    w.getSerializedSize CDRReader.noteMemory Memory.base .sample = .ok size ∧
      rmwSerialize .big anySize (.ok CDRReader.note) CDRReader.noteMemory Memory.base ⟨[],0⟩ = .ok (ret,new) ∧
      ret = .ok ∧ (ret = .ok → ∃ bytes, new.contents = .ok bytes ∧ bytes.length = size ∧
        ∀ (receiver : Endian) (root' : StructValueType) (runtime : Runtime),
          (∀ position size, runtime position size = .provided) →
          root'.toValueType.Has (CDRReader.noteMemory.value .big CDRReader.note.toValueType Memory.base) →
          rmwDeserialize receiver runtime (.ok root') bytes =
            .ok (some ⟨none,some (CDRReader.noteMemory.value .big CDRReader.note.toValueType Memory.base)⟩)) := by
  obtain ⟨w,_⟩ := CDRWriter.exists_of_bounds .big CDRReader.note .sample rfl rfl rfl rfl
  refine ⟨w,rmwSerialize_roundTrip w anySize CDRReader.noteMemory Memory.base ⟨[],0⟩ ?_ (by decide)⟩
  have htext : ([104,105] : List Byte).length ≤ uint32Max - 1 := by decide
  have hcodes : 2 ≤ uint32Max := by decide
  exact ⟨True.intro,htext,⟨hcodes,fun v hv => by cases v <;> exact True.intro⟩,True.intro⟩

end RmwCyclonedds
