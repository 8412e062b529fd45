import RmwCyclonedds.Serialization.Accepted
import RmwCyclonedds.Serialization.CDRWriter

/-! The reader of one message type. -/
namespace RmwCyclonedds
open Library DeserializeCursor

def unrecognizedHeader : Exception := .runtimeError "CDR deserialization: unrecognized header"

/-- What a reader stores: the header of a request, and the value. -/
structure Message where
  header : Option (Nat × Nat)
  value : Option Value

structure CDRReader (host : Endian) (root : StructValueType) (variant : SampleOrRequest) where
  tsc : TriviallySerializedCache
  tsc_eq : TriviallySerializedCache.make root.toValueType = .ok tsc

namespace CDRReader

def make (host : Endian) (root : StructValueType) (variant : SampleOrRequest) :
    Outcome (CDRReader host root variant) := do
  let ⟨tsc,htsc⟩ ← (TriviallySerializedCache.make root.toValueType).attach
  return ⟨tsc,htsc⟩

variable {host : Endian} {root : StructValueType} {variant : SampleOrRequest} (r : CDRReader host root variant)
  (runtime : Runtime)

theorem make_ok {tsc : TriviallySerializedCache} (h : TriviallySerializedCache.make root.toValueType = .ok tsc) :
    make host root variant = .ok ⟨tsc,h⟩ := by
  simp only [make, Outcome.attach_ok h]
  rfl

/-- `bswap` has no body for the signed sequence number, which therefore keeps its bytes. -/
def deserializeRequestHeader (host : Endian) (bswapSrc : Bool) (src : DeserializeCursor) :
    Outcome (Option (Nat × Nat) × DeserializeCursor) := do
  let (guid,src) ← src.getBytes 8
  let (seq,src) ← src.getBytes 8
  return (some (host.decode (swapped host bswapSrc 8 guid),host.decode seq),src)

def deserializeValue (bswapSrc : Bool) (what : SampleOrKey) (src : DeserializeCursor) :
    Outcome (Option Value × DeserializeCursor) := do
  let (v,src) ← RmwCyclonedds.deserialize host r.tsc.lookupTriviallySerialized runtime bswapSrc what
    root.toValueType src
  return (some v,src)

/-- `deserialize_top_level` from the check of the header on. -/
def deserializeBehindHeader (what : SampleOrKey) (rtpsHeader : List Byte) (src : DeserializeCursor) :
    Outcome (Message × DeserializeCursor) := do
  if rtpsHeader.getD 0 0 ≠ 0 ∨ rtpsHeader.getD 1 0 > 1 then throw (.throws unrecognizedHeader)
  let bswapSrc := (rtpsHeader.getD 1 0 == 0) == (host == .little)
  let (header,src) ← (if what = .sample ∧ variant = .request then deserializeRequestHeader host bswapSrc src
    else .ok (none,src))
  let (value,src) ← (if what = .sample ∨ root.hasKeys then r.deserializeValue runtime bswapSrc what src
    else .ok (none,src))
  return (⟨header,value⟩,src.rebase (-4))

def deserializeTopLevel (what : SampleOrKey) (src : DeserializeCursor) : Outcome (Message × DeserializeCursor) := do
  let (rtpsHeader,src) ← src.getBytes 4
  r.deserializeBehindHeader runtime what rtpsHeader (src.rebase 4)

def deserialize (cdr : List Byte) (what : SampleOrKey) : Outcome Message := do
  if what ≠ .key ∨ root.hasKeys then
    let (message,_) ← r.deserializeTopLevel runtime what (DeserializeCursor.start cdr)
    return message
  else return ⟨none,none⟩

theorem answersExactly : root.toValueType.Everywhere (AnswersExactly r.tsc.lookupTriviallySerialized) :=
  answersExactly_of_make r.tsc_eq

theorem answers : root.toValueType.Everywhere (Answers r.tsc.lookupTriviallySerialized) :=
  r.answersExactly.imp fun _ h => h.answers

end CDRReader

/-! ### Reading what was written -/

/-- Bytes that follow an encoding header, seen from the reader. -/
theorem reads_body (header body rest : List Byte) (hlen : header.length = 4) :
    ∃ c c', (DeserializeCursor.start (header ++ (body ++ rest))).getBytes 4 = .ok (header,c) ∧
      (c.rebase 4).offset = 0 ∧ Reads (c.rebase 4) body c' := by
  have hdata : (DeserializeCursor.start (header ++ (body ++ rest))).data.drop
      (DeserializeCursor.start (header ++ (body ++ rest))).position = header ++ (body ++ rest) := rfl
  obtain ⟨c,hc⟩ := exists_reads hdata
  have hpos : c.position = 4 := by rw [hc.position_eq, hlen]; rfl
  have hbody : (c.rebase 4).data.drop (c.rebase 4).position = body ++ rest := by
    show c.data.drop c.position = body ++ rest
    rw [hc.data_eq, hpos, ← hlen]
    exact List.drop_left
  obtain ⟨c',hc'⟩ := exists_reads hbody
  refine ⟨c,c',?_,?_,hc'⟩
  · rw [← hlen]
    exact getBytes_of_reads hc
  · show c.position - min (c.origin + 4 : Int).toNat c.position = 0
    rw [hc.origin_eq, hpos]
    rfl

/-- The header tells the reader the byte order of the sender. -/
theorem streamEndian_header (sender receiver : Endian) :
    streamEndian receiver (((rtpsHeader sender).getD 1 0 == 0) == (receiver == .little)) = sender := by
  cases sender <;> cases receiver <;> rfl

theorem header_accepted (sender : Endian) :
    ¬((rtpsHeader sender).getD 0 0 ≠ 0 ∨ (rtpsHeader sender).getD 1 0 > 1) := by
  cases sender <;> decide

namespace CDRReader
variable {host : Endian} {root : StructValueType} (r : CDRReader host root .sample)

/-- A stream that holds the encoding of a value, in the byte order its header names. -/
theorem deserialize_stream {runtime : Runtime} (hr : ∀ position size, runtime position size = .provided)
    (sender : Endian) {v : Value} (hv : root.toValueType.Has v) (hf : v.Fits) (rest : List Byte) :
    r.deserialize runtime (rtpsHeader sender ++ (v.encode sender 0 ++ rest)) .sample = .ok ⟨none,some v⟩ := by
  obtain ⟨c,c',hheader,hoff,hbody⟩ := reads_body (rtpsHeader sender) (v.encode sender 0) rest rfl
  have hview : root.toValueType.view (readerWhole (((rtpsHeader sender).getD 1 0 == 0) == (host == .little))) .sample
      v (c.rebase 4).offset = v := ValueType.view_sample _ hv
  have hreads : Reads (c.rebase 4) ((root.toValueType.view
      (readerWhole (((rtpsHeader sender).getD 1 0 == 0) == (host == .little))) .sample v (c.rebase 4).offset).encode
        (streamEndian host (((rtpsHeader sender).getD 1 0 == 0) == (host == .little))) (c.rebase 4).offset) c' := by
    rw [streamEndian_header, hview, hoff]
    exact hbody
  have hvalue := deserialize_of_encode host (((rtpsHeader sender).getD 1 0 == 0) == (host == .little)) .sample hr
    root.toValueType root.wellFormed r.answersExactly hv (by rw [hview]; exact hf) hreads
  rw [hview] at hvalue
  have hcond : SampleOrKey.sample ≠ .key ∨ root.hasKeys = true := .inl (by decide)
  simp only [deserialize, deserializeTopLevel, deserializeBehindHeader, hcond, if_true, hheader, bind, Except.bind, header_accepted, if_false,
    reduceCtorEq, and_false, true_or, deserializeValue, hvalue]
  rfl

/-- Round trip: a reader returns the value that a writer of its own or of the opposite
byte order has written. -/
theorem deserialize_serialize {sender : Endian} (w : CDRWriter sender root .sample) {runtime : Runtime}
    (hr : ∀ position size, runtime position size = .provided) (m : Memory) (src : Address)
    (hf : (m.value sender root.toValueType src).Fits) :
    ∃ bytes, w.serialize m src .sample = .ok bytes ∧
      r.deserialize runtime bytes .sample = .ok ⟨none,some (m.value sender root.toValueType src)⟩ := by
  refine ⟨_,w.serialize_eq m src .sample,?_⟩
  have hstream := r.deserialize_stream hr sender (m.value_has sender root.toValueType src) hf []
  rwa [List.append_nil, ← w.sampleBody_eq] at hstream

/-- `uint8 level; string text; sequence<uint32> codes`, as the C++ types lay it out. -/
def note : StructValueType where
  sizeofStruct := 64
  members := .cons 0 false (.primitive .uint8) (.cons 8 false (.u8string 32 (uint32Max - 1))
    (.cons 40 false (.spanSequence .callback (.primitive .uint32) uint32Max) .nil))
  wellFormed := ⟨True.intro,Nat.le_refl _,⟨True.intro,True.intro,Nat.le_refl _⟩,True.intro⟩

/-- A note that says "hi" and carries two codes in a block of their own. -/
def noteMemory : Memory where
  byte a := if a.block = 0 then 3 else UInt8.ofNat a.offset
  pointer a := a
  u8string _ := [104,105]
  u16string _ := []
  bits _ := []
  sequenceSize _ := 2
  sequenceContents _ := ⟨1,0⟩

theorem note_round_trip : ∃ (w : CDRWriter .big note .sample) (r : CDRReader .little note .sample) (bytes : List Byte),
    w.serialize noteMemory Memory.base .sample = .ok bytes ∧
      r.deserialize (fun _ _ => .provided) bytes .sample =
        .ok ⟨none,some (noteMemory.value .big note.toValueType Memory.base)⟩ := by
  obtain ⟨w,_⟩ := CDRWriter.exists_of_bounds .big note .sample rfl rfl rfl rfl
  obtain ⟨c,hc,_⟩ := make_known note.toValueType
  have hf : (noteMemory.value .big note.toValueType Memory.base).Fits := by
    simp only [noteMemory, note, Memory.value, Memory.values, Memory.strided, Value.Fits, Value.FitsAll, List.range,
      List.range.loop, List.map, List.length]
    decide
  exact ⟨w,⟨c,hc⟩,deserialize_serialize ⟨c,hc⟩ w (fun _ _ => rfl) noteMemory Memory.base hf⟩

/-! ### Reading anything -/

theorem deserializeRequestHeader_robust (bswapSrc : Bool) :
    Robust (deserializeRequestHeader host bswapSrc) := by
  refine Robust.bind (getBytes_robust 8) fun guid => ?_
  refine Robust.bind (getBytes_robust 8) fun seq => ?_
  exact Robust.ret _

private theorem deserializeBehindHeader_robust {variant : SampleOrRequest} (r : CDRReader host root variant)
    {runtime : Runtime} (hr : NeverRefuses runtime) (what : SampleOrKey) (header : List Byte) :
    Robust (r.deserializeBehindHeader runtime what header) := by
  refine Robust.ite (Robust.fail unrecognizedHeader) ?_
  refine Robust.bind ?_ fun request => ?_
  · exact Robust.ite (deserializeRequestHeader_robust _) (Robust.ret none)
  have hvalue : ∀ bswapSrc, Robust (r.deserializeValue runtime bswapSrc what) := by
    intro bswapSrc
    refine Robust.bind (deserialize_robust host bswapSrc what hr root.toValueType root.wellFormed r.answers)
      fun v => ?_
    exact Robust.ret _
  refine Robust.bind ?_ fun value => ?_
  · exact Robust.ite (hvalue _) (Robust.ret none)
  refine ⟨fun c s h => ?_,fun c m c' bs h => ?_⟩
  · cases h
  · cases h
    rfl

theorem deserializeTopLevel_robust {variant : SampleOrRequest} (r : CDRReader host root variant)
    {runtime : Runtime} (hr : NeverRefuses runtime) (what : SampleOrKey) :
    Robust (r.deserializeTopLevel runtime what) := by
  refine Robust.bind (getBytes_robust 4) fun header => ?_
  exact Robust.rebase 4 (deserializeBehindHeader_robust r hr what header)

/-- Bytes behind what is read change nothing. -/
theorem deserialize_append {variant : SampleOrRequest} (r : CDRReader host root variant) {runtime : Runtime}
    (hr : NeverRefuses runtime) {what : SampleOrKey} {cdr : List Byte} {message : Message}
    (h : r.deserialize runtime cdr what = .ok message) (more : List Byte) :
    r.deserialize runtime (cdr ++ more) what = .ok message := by
  unfold deserialize at h ⊢
  split at h
  · next hcond =>
    rw [if_pos hcond]
    obtain ⟨⟨msg,d⟩,htop,h⟩ := Outcome.bind_eq_ok h
    have hext := (deserializeTopLevel_robust r hr what).extend _ _ _ more htop
    have hstart : (DeserializeCursor.start cdr).extend more = DeserializeCursor.start (cdr ++ more) := rfl
    rw [hstart] at hext
    simp only [hext, bind, Except.bind]
    exact h
  · next hcond =>
    rw [if_neg hcond]
    exact h

/-- What has been read when a sample is returned: the encoding header, that of a request, and the value. -/
private theorem deserialize_sample_inv {variant : SampleOrRequest} (r : CDRReader host root variant) {runtime : Runtime}
    {cdr : List Byte} {message : Message} (h : r.deserialize runtime cdr .sample = .ok message) :
    ∃ header c bswapSrc request d v d', (DeserializeCursor.start cdr).getBytes 4 = .ok (header,c) ∧
      (if variant = .request then deserializeRequestHeader host bswapSrc (c.rebase 4) else .ok (none,c.rebase 4)) =
        .ok (request,d) ∧
      RmwCyclonedds.deserialize host r.tsc.lookupTriviallySerialized runtime bswapSrc .sample root.toValueType d =
        .ok (v,d') ∧ message = ⟨request,some v⟩ := by
  have hcond : SampleOrKey.sample ≠ .key ∨ root.hasKeys = true := .inl (by decide)
  simp only [deserialize, hcond, if_true] at h
  obtain ⟨⟨msg,_⟩,htop,h⟩ := Outcome.bind_eq_ok h
  cases h
  obtain ⟨⟨header,c⟩,hget,htop⟩ := Outcome.bind_eq_ok htop
  dsimp only [deserializeBehindHeader] at htop
  by_cases hbad : header.getD 0 0 ≠ 0 ∨ header.getD 1 0 > 1
  · rw [if_pos hbad] at htop
    cases htop
  rw [if_neg hbad] at htop
  simp only [true_and, true_or, if_true] at htop
  obtain ⟨⟨request,d⟩,hrequest,htop⟩ := Outcome.bind_eq_ok htop
  obtain ⟨⟨value,d'⟩,hvalue,htop⟩ := Outcome.bind_eq_ok htop
  cases htop
  obtain ⟨⟨v,d'⟩,hv,hvalue⟩ := Outcome.bind_eq_ok hvalue
  cases hvalue
  exact ⟨header,c,_,request,d,v,d',hget,hrequest,hv,rfl⟩

/-- A value that is read has lengths that fit. -/
theorem deserialize_fits {variant : SampleOrRequest} (r : CDRReader host root variant) {runtime : Runtime}
    {cdr : List Byte} {header : Option (Nat × Nat)} {v : Value}
    (h : r.deserialize runtime cdr .sample = .ok ⟨header,some v⟩) : v.Fits := by
  obtain ⟨_,_,_,_,_,_,_,-,-,hv,hmessage⟩ := r.deserialize_sample_inv h
  cases hmessage
  exact (deserialize_accepts (t := root.toValueType) root.wellFormed r.answers hv).fits

/-- An accepted buffer is at least as long as the encoding of its value. -/
private theorem deserialize_sample_ok {runtime : Runtime} {cdr : List Byte} {message : Message}
    (h : r.deserialize runtime cdr .sample = .ok message) :
    ∃ v, message = ⟨none,some v⟩ ∧ root.toValueType.Has v ∧ v.Fits ∧ 4 + v.finish 0 ≤ cdr.length := by
  obtain ⟨header,c,_,_,_,v,d',hget,hnone,hv,rfl⟩ := r.deserialize_sample_inv h
  cases hnone
  obtain ⟨hlen,hreads⟩ := reads_of_getBytes hget
  have hacc : Accepts root.toValueType (c.rebase 4) v d' :=
    deserialize_accepts (t := root.toValueType) root.wellFormed r.answers hv
  obtain ⟨bs,hbs⟩ := hacc.reads
  have hpos : c.position = 4 := by
    rw [hreads.position_eq, hlen]
    rfl
  have horigin : (c.rebase 4).origin = 4 := by
    show min (c.origin + 4 : Int).toNat c.position = 4
    rw [hreads.origin_eq, hpos]
    rfl
  have hstart : (c.rebase 4).offset = 0 := by
    show c.position - (c.rebase 4).origin = 0
    rw [hpos, horigin]
  refine ⟨v,rfl,hacc.has,hacc.fits,?_⟩
  have hoff := hacc.offset_eq
  have hend := d'.position_le
  have hdata : d'.data = cdr := hbs.data_eq.trans hreads.data_eq
  have hposition := hbs.position_eq
  have hposition' : (c.rebase 4).position = 4 := hpos
  rw [hstart, DeserializeCursor.offset, hbs.origin_eq, horigin] at hoff
  rw [hdata] at hend
  omega

/-- Decoding a sample never reads outside the buffer: it throws, or it returns a value that
more bytes do not change and that is written again in no more bytes. -/
theorem deserialize_any {runtime : Runtime} (hr : NeverRefuses runtime) (cdr : List Byte) :
    (∀ s, r.deserialize runtime cdr .sample = .error s → ∃ e, s = .throws e) ∧
    ∀ message, r.deserialize runtime cdr .sample = .ok message →
      (∀ more, r.deserialize runtime (cdr ++ more) .sample = .ok message) ∧
      ∃ v, message = ⟨none,some v⟩ ∧ root.toValueType.Has v ∧
        ∀ {sender : Endian} (w : CDRWriter sender root .sample) (m : Memory) (src : Address),
          m.value sender root.toValueType src = v →
          ∃ bytes, w.serialize m src .sample = .ok bytes ∧ bytes.length ≤ cdr.length ∧
            ∀ {runtime' : Runtime}, (∀ position size, runtime' position size = .provided) →
              r.deserialize runtime' bytes .sample = .ok message := by
  have hcond : SampleOrKey.sample ≠ .key ∨ root.hasKeys = true := .inl (by decide)
  have hrobust := deserializeTopLevel_robust r hr .sample
  refine ⟨fun s h => ?_,fun message h => ⟨r.deserialize_append hr h,?_⟩⟩
  · simp only [deserialize, hcond, if_true] at h
    cases htop : r.deserializeTopLevel runtime .sample (DeserializeCursor.start cdr) with
    | error e =>
      simp only [htop, bind, Except.bind] at h
      cases h
      exact hrobust.throws _ _ htop
    | ok p =>
      simp only [htop, bind, Except.bind] at h
      cases h
  · obtain ⟨v,rfl,hv,hf,hlen⟩ := r.deserialize_sample_ok h
    refine ⟨v,rfl,hv,?_⟩
    rintro sender w m src rfl
    refine ⟨_,w.serialize_eq m src .sample,?_,?_⟩
    · rw [w.sampleBody_eq, List.length_append]
      have hbody := Value.encode_length sender (m.value sender root.toValueType src) 0
      have hheader : (rtpsHeader sender).length = 4 := rfl
      omega
    · intro runtime' hr'
      have hstream := r.deserialize_stream hr' sender hv hf []
      rwa [List.append_nil, ← w.sampleBody_eq] at hstream

/-- A note cut off inside the length of its text. -/
theorem note_truncated : ∃ r : CDRReader .little note .sample,
    ∀ s, r.deserialize (fun _ _ => .provided) [0,1,0,0,3,0,0,0,9] .sample = .error s → ∃ e, s = .throws e := by
  obtain ⟨c,hc,_⟩ := make_known note.toValueType
  exact ⟨⟨c,hc⟩,(deserialize_any ⟨c,hc⟩ (fun _ _ h => by cases h) [0,1,0,0,3,0,0,0,9]).1⟩

end CDRReader
end RmwCyclonedds
