import RmwCyclonedds.Serialization.DeserializeCursor
import RmwCyclonedds.Serialization.Injective
import RmwCyclonedds.Serialization.Serialize

/-! The overloads of `CDRReader::deserialize`. What they store is returned as a value: of a
struct, the members that were read. -/
namespace RmwCyclonedds
open Library

/-- What the runtime does when a sequence is resized. -/
inductive Resize where
  | provided
  | refused
  | thrown (e : Exception)
  deriving DecidableEq, Repr

/-- The runtime, asked at a position of the stream for a number of elements. -/
abbrev Runtime := Nat → Nat → Resize

def plentiful : Runtime := fun _ _ => .provided

/-- The callback throws when the elements are refused; a C sequence rethrows where
nothing was thrown. -/
def resize (runtime : Runtime) (kind : SpanKind) (position size : Nat) : Outcome Unit :=
  match kind, runtime position size with
  | _, .provided => .ok ()
  | .callback, .refused => .error (.throws .badAlloc)
  | .rosidlc, .refused => .error .terminates
  | _, .thrown e => .error (.throws e)

/-- Consecutive 16-bit units of the host. -/
def decodeUnits (host : Endian) : List Byte → List UInt16
  | a :: b :: rest => UInt16.ofNat (host.decode [a,b]) :: decodeUnits host rest
  | _ => []

/-- Objects of a type at the start of some memory. -/
def rawValues (host : Endian) (vt : ValueType) (bytes : List Byte) (count : Nat) : List Value :=
  Memory.strided ((Memory.ofBytes bytes).value host vt) Memory.base vt.size count

section
variable (host : Endian) (lookup : Lookup) (runtime : Runtime) (bswapSrc : Bool) (what : SampleOrKey)

def swapped (n : Nat) (bytes : List Byte) : List Byte := if bswapSrc then bswapN host n bytes else bytes

def deserializePrimitive (w : Width) (src : DeserializeCursor) : Outcome (Value × DeserializeCursor) := do
  let src ← src.align w.bytes
  let (bytes,src) ← src.getBytes w.bytes
  return (.primitive w (host.decode (swapped host bswapSrc w.bytes bytes)),src)

def deserializeU32 (src : DeserializeCursor) : Outcome (Nat × DeserializeCursor) := do
  let src ← src.align 4
  let (bytes,src) ← src.getBytes 4
  return (host.decode (swapped host bswapSrc 4 bytes),src)

def sizeZeroString : Exception := .runtimeError "CDR deserialization: size-0 string"

def unterminatedString : Exception := .runtimeError "CDR deserialization: unterminated string"

def oddWString : Exception := .runtimeError "CDR deserialization: odd number of bytes in wstring"

def deserializeU8String (src : DeserializeCursor) : Outcome (Value × DeserializeCursor) := do
  let (size,src) ← deserializeU32 host bswapSrc src
  if size = 0 then throw (.throws sizeZeroString)
  let (srcdata,src) ← src.getBytes size
  if srcdata.getLast? ≠ some 0 then throw (.throws unterminatedString)
  return (.u8string (srcdata.take (size - 1)),src)

def deserializeU16String (src : DeserializeCursor) : Outcome (Value × DeserializeCursor) := do
  let (size,src) ← deserializeU32 host bswapSrc src
  if size % 2 ≠ 0 then throw (.throws oddWString)
  let (srcdata,src) ← src.getBytes size
  let dstdata := decodeUnits host srcdata
  let dstdata := if bswapSrc then
      dstdata.map fun u => UInt16.ofNat (host.decode (bswapN host 2 (host.encode 2 u.toNat)))
    else dstdata
  return (.u16string dstdata,src)

def deserializeBoolVector (src : DeserializeCursor) : Outcome (Value × DeserializeCursor) := do
  let (count,src) ← deserializeU32 host bswapSrc src
  let (srcdata,src) ← src.getBytes count
  return (.sequence (srcdata.map fun b => boolValue (b != 0)),src)

/-- The loop over elements. -/
def deserializeEach (deserialize : DeserializeCursor → Outcome (Value × DeserializeCursor)) :
    Nat → DeserializeCursor → Outcome (List Value × DeserializeCursor)
  | 0, src => return ([],src)
  | count + 1, src => do
    let (v,src) ← deserialize src
    let (vs,src) ← deserializeEach deserialize count src
    return (v :: vs,src)

def deserializeMany (deserialize : DeserializeCursor → Outcome (Value × DeserializeCursor)) (vt : ValueType)
    (count : Nat) (src : DeserializeCursor) : Outcome (List Value × DeserializeCursor) := do
  if count = 0 then return ([],src)
  let (v,src) ← deserialize src
  let count := count - 1
  if count = 0 then return ([v],src)
  let valueSize ← vt.sizeofType
  let bulk ← (if bswapSrc then pure false else lookupManyTriviallySerialized lookup src.offset vt)
  if bulk then
    let (bytes,src) ← src.getBytes (count * valueSize)
    return (v :: rawValues host vt bytes count,src)
  else
    let (vs,src) ← deserializeEach deserialize count src
    return (v :: vs,src)

/-- `deserialize` for `AnyValueType`. -/
def deserializeAny (vt : ValueType) (src : DeserializeCursor)
    (overload : Outcome (Value × DeserializeCursor)) : Outcome (Value × DeserializeCursor) := do
  let copy ← (if !bswapSrc && what == .sample then lookup src.offset vt else pure false)
  if copy then
    let (bytes,src) ← src.getBytes (← vt.sizeofType)
    return ((Memory.ofBytes bytes).value host vt Memory.base,src)
  else overload

mutual
def deserialize : ValueType → DeserializeCursor → Outcome (Value × DeserializeCursor)
  | .primitive k, src => deserializeAny host lookup bswapSrc what (.primitive k) src
      (deserializePrimitive host bswapSrc k.width src)
  | .u8string s b, src => deserializeAny host lookup bswapSrc what (.u8string s b) src
      (deserializeU8String host bswapSrc src)
  | .u16string s b, src => deserializeAny host lookup bswapSrc what (.u16string s b) src
      (deserializeU16String host bswapSrc src)
  | .struct s ms, src => deserializeAny host lookup bswapSrc what (.struct s ms) src (do
      let (vs,src) ← deserializeMembers (allFields what ms) ms src
      return (.struct vs,src))
  | .array t n, src => deserializeAny host lookup bswapSrc what (.array t n) src (do
      let (vs,src) ← deserializeMany host lookup bswapSrc (fun src => deserialize t src) t n src
      return (.array vs,src))
  | .spanSequence k t b, src => deserializeAny host lookup bswapSrc what (.spanSequence k t b) src (do
      let (count,src) ← deserializeU32 host bswapSrc src
      resize runtime k src.position count
      let (vs,src) ← deserializeMany host lookup bswapSrc (fun src => deserialize t src) t count src
      return (.sequence vs,src))
  | .boolVector s b, src => deserializeAny host lookup bswapSrc what (.boolVector s b) src
      (deserializeBoolVector host bswapSrc src)

def deserializeMembers (all : Bool) : Members → DeserializeCursor → Outcome (List Value × DeserializeCursor)
  | .nil, src => return ([],src)
  | .cons _ isKey t ms, src => do
    if all || isKey then
      let (v,src) ← deserialize t src
      let (vs,src) ← deserializeMembers all ms src
      return (v :: vs,src)
    else deserializeMembers all ms src
end

end

/-! ### Nothing but values and exceptions -/

section
variable (host : Endian) {lookup : Lookup} {runtime : Runtime} (bswapSrc : Bool) (what : SampleOrKey)
open DeserializeCursor

theorem deserializePrimitive_robust (w : Width) : Robust (deserializePrimitive host bswapSrc w) := by
  refine align_robust w.bytes ?_
  refine Robust.bind (getBytes_robust w.bytes) fun bytes => ?_
  exact Robust.ret _

theorem deserializeU32_robust : Robust (deserializeU32 host bswapSrc) := by
  refine align_robust 4 ?_
  refine Robust.bind (getBytes_robust 4) fun bytes => ?_
  exact Robust.ret _

private theorem deserializeU8String_robust : Robust (deserializeU8String host bswapSrc) := by
  refine Robust.bind (deserializeU32_robust host bswapSrc) fun size => ?_
  refine Robust.ite (Robust.fail _) ?_
  refine Robust.bind (getBytes_robust size) fun srcdata => ?_
  exact Robust.ite (Robust.fail _) (Robust.ret _)

private theorem deserializeU16String_robust : Robust (deserializeU16String host bswapSrc) := by
  refine Robust.bind (deserializeU32_robust host bswapSrc) fun size => ?_
  refine Robust.ite (Robust.fail _) ?_
  refine Robust.bind (getBytes_robust size) fun srcdata => ?_
  exact Robust.ret _

private theorem deserializeBoolVector_robust : Robust (deserializeBoolVector host bswapSrc) := by
  refine Robust.bind (deserializeU32_robust host bswapSrc) fun count => ?_
  refine Robust.bind (getBytes_robust count) fun srcdata => ?_
  exact Robust.ret _

private theorem deserializeEach_robust {f : DeserializeCursor → Outcome (Value × DeserializeCursor)} (hf : Robust f) :
    ∀ count, Robust (deserializeEach f count)
  | 0 => Robust.ret _
  | count + 1 => by
    refine Robust.bind hf fun v => ?_
    refine Robust.bind (deserializeEach_robust hf count) fun vs => ?_
    exact Robust.ret _

theorem answered {α : Type} {x : Outcome α} (h : ∃ a, x = .ok a) {s : Stop} (hs : x = .error s) :
    ∃ e, s = .throws e := by
  obtain ⟨a,ha⟩ := h
  rw [ha] at hs
  cases hs

private theorem deserializeMany_robust {f : DeserializeCursor → Outcome (Value × DeserializeCursor)} {t : ValueType}
    (hs : t.Sized) (hl : Answers lookup t) (hf : Robust f) (count : Nat) :
    Robust (deserializeMany host lookup bswapSrc f t count) := by
  refine Robust.ite (Robust.ret _) ?_
  refine Robust.bind hf fun v => ?_
  refine Robust.ite (Robust.ret _) ?_
  refine Robust.query (fun _ _ => answered ⟨_,ValueType.sizeofType_of_sized hs⟩) (fun _ _ => rfl) fun size => ?_
  refine Robust.query ?_ (fun _ _ => rfl) fun bulk => ?_
  · intro c s h
    obtain ⟨b,hb,_⟩ := lookupMany_answers hs hl c.offset
    refine answered ⟨if bswapSrc then false else b,?_⟩ h
    cases bswapSrc with
    | true => rfl
    | false => exact hb
  · refine Robust.ite ?_ ?_
    · refine Robust.bind (getBytes_robust _) fun bytes => ?_
      exact Robust.ret _
    · refine Robust.bind (deserializeEach_robust hf _) fun vs => ?_
      exact Robust.ret _

private theorem rawCopy_robust (t : ValueType) : Robust fun c => c.getBytes t.size >>= fun p =>
    .ok ((Memory.ofBytes p.1).value host t Memory.base,p.2) := by
  refine Robust.bind (getBytes_robust t.size) fun bytes => ?_
  exact Robust.ret ((Memory.ofBytes bytes).value host t Memory.base)

private theorem deserializeAny_robust {f : DeserializeCursor → Outcome (Value × DeserializeCursor)} {t : ValueType}
    (hl : Answers lookup t) (hf : Robust f) :
    Robust fun c => deserializeAny host lookup bswapSrc what t c (f c) := by
  have hcopy : ∀ c : DeserializeCursor, ∃ b,
      (if !bswapSrc && what == .sample then lookup c.offset t else pure false) = .ok b ∧
      (b = true → t.Sized) := by
    intro c
    by_cases h : (!bswapSrc && what == .sample) = true
    · obtain ⟨b,hb,ht⟩ := hl c.offset
      rw [if_pos h]
      exact ⟨b,hb,fun hyes => ValueType.sized_of_trivial (ht hyes)⟩
    · rw [if_neg h]
      exact ⟨false,rfl,fun hno => Bool.noConfusion hno⟩
  refine ⟨fun c s h => ?_,fun c r c' bs h => ?_⟩
  · obtain ⟨b,hb,hsized⟩ := hcopy c
    simp only [deserializeAny, hb, Bind.bind, Except.bind] at h
    cases b with
    | false => exact hf.throws c s h
    | true =>
      rw [ValueType.sizeofType_of_sized (hsized rfl)] at h
      exact (rawCopy_robust host t).throws c s h
  · obtain ⟨b,hb,hsized⟩ := hcopy c
    have hext : (if !bswapSrc && what == .sample then lookup (c.extend bs).offset t else pure false) = .ok b := hb
    simp only [deserializeAny, hb, hext, Bind.bind, Except.bind] at h ⊢
    cases b with
    | false => exact hf.extend c r c' bs h
    | true =>
      rw [ValueType.sizeofType_of_sized (hsized rfl)] at h ⊢
      exact (rawCopy_robust host t).extend c r c' bs h

/-- A runtime that provides the elements or throws. -/
def NeverRefuses (runtime : Runtime) : Prop := ∀ position size, runtime position size ≠ .refused

private theorem resize_throws (hr : NeverRefuses runtime) {kind : SpanKind} {position size : Nat} {s : Stop}
    (h : resize runtime kind position size = .error s) : ∃ e, s = .throws e := by
  have hne := hr position size
  unfold resize at h
  cases hres : runtime position size with
  | provided => simp [hres] at h
  | refused => exact absurd hres hne
  | thrown e =>
    cases kind <;> simp only [hres] at h <;> cases h <;> exact ⟨e,rfl⟩

mutual
/-- Readers of well-formed types are robust, whatever the bytes are. -/
theorem deserialize_robust (hr : NeverRefuses runtime) : ∀ (t : ValueType), t.WellFormed →
    t.Everywhere (Answers lookup) → Robust (deserialize host lookup runtime bswapSrc what t)
  | .primitive k, _, hl =>
    deserializeAny_robust host bswapSrc what hl (deserializePrimitive_robust host bswapSrc k.width)
  | .u8string s b, _, hl => deserializeAny_robust host bswapSrc what hl (deserializeU8String_robust host bswapSrc)
  | .u16string s b, _, hl => deserializeAny_robust host bswapSrc what hl (deserializeU16String_robust host bswapSrc)
  | .struct s ms, hw, hl => by
    refine deserializeAny_robust host bswapSrc what hl.1 ?_
    refine Robust.bind (deserializeMembers_robust hr (allFields what ms) ms hw hl.2) fun vs => ?_
    exact Robust.ret _
  | .array t n, hw, hl => by
    refine deserializeAny_robust host bswapSrc what hl.1 ?_
    refine Robust.bind (deserializeMany_robust host bswapSrc hw.1 hl.2.here
      (deserialize_robust hr t hw.2 hl.2) n) fun vs => ?_
    exact Robust.ret _
  | .spanSequence k t b, hw, hl => by
    refine deserializeAny_robust host bswapSrc what hl.1 ?_
    refine Robust.bind (deserializeU32_robust host bswapSrc) fun count => ?_
    refine Robust.query (fun _ _ => resize_throws hr) (fun _ _ => rfl) fun _ => ?_
    refine Robust.bind (deserializeMany_robust host bswapSrc hw.1 hl.2.here
      (deserialize_robust hr t hw.2.1 hl.2) count) fun vs => ?_
    exact Robust.ret _
  | .boolVector s b, _, hl => deserializeAny_robust host bswapSrc what hl (deserializeBoolVector_robust host bswapSrc)

theorem deserializeMembers_robust (hr : NeverRefuses runtime) (all : Bool) : ∀ (ms : Members), ms.WellFormed →
    ms.Everywhere (Answers lookup) → Robust (deserializeMembers host lookup runtime bswapSrc what all ms)
  | .nil, _, _ => Robust.ret _
  | .cons _ isKey t ms, hw, hl => by
    refine Robust.ite ?_ (deserializeMembers_robust hr all ms hw.2 hl.2)
    refine Robust.bind (deserialize_robust hr t hw.1 hl.1) fun v => ?_
    refine Robust.bind (deserializeMembers_robust hr all ms hw.2 hl.2) fun vs => ?_
    exact Robust.ret _
end

end
end RmwCyclonedds
