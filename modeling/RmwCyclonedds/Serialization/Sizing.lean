import RmwCyclonedds.Library.Traced
import RmwCyclonedds.Serialization.CDRReader

/-! The containers that a reader sizes on its way through a stream. -/
namespace RmwCyclonedds
open Library DeserializeCursor

inductive Container where
  | u8string
  | u16string
  | boolVector
  | sequence (kind : SpanKind)
  deriving DecidableEq, Repr

/-- A container is sized: to how many elements, and where its contents start in the stream with how many bytes left. -/
structure Sizing where
  container : Container
  elements : Nat
  position : Nat
  remaining : Nat
  deriving DecidableEq, Repr

abbrev SizedRead := Traced Sizing Stop

def noteSizing (container : Container) (elements : Nat) (contents : DeserializeCursor) : SizedRead Unit :=
  Traced.note ⟨container,elements,contents.position,contents.data.length - contents.position⟩

section
variable (host : Endian) (lookup : Lookup) (runtime : Runtime) (bswapSrc : Bool) (what : SampleOrKey)

def deserializeU8StringNoted (src : DeserializeCursor) : SizedRead (Value × DeserializeCursor) := do
  let (size,contents) ← Traced.quiet (deserializeU32 host bswapSrc src)
  if size = 0 then Traced.quiet (throw (.throws sizeZeroString))
  let (srcdata,src) ← Traced.quiet (contents.getBytes size)
  if srcdata.getLast? ≠ some 0 then Traced.quiet (throw (.throws unterminatedString))
  noteSizing .u8string (size - 1) contents
  return (.u8string (srcdata.take (size - 1)),src)

def deserializeU16StringNoted (src : DeserializeCursor) : SizedRead (Value × DeserializeCursor) := do
  let (size,contents) ← Traced.quiet (deserializeU32 host bswapSrc src)
  if size % 2 ≠ 0 then Traced.quiet (throw (.throws oddWString))
  let (srcdata,src) ← Traced.quiet (contents.getBytes size)
  noteSizing .u16string (size / 2) contents
  let dstdata := decodeUnits host srcdata
  let dstdata := if bswapSrc then
      dstdata.map fun u => UInt16.ofNat (host.decode (bswapN host 2 (host.encode 2 u.toNat)))
    else dstdata
  return (.u16string dstdata,src)

def deserializeBoolVectorNoted (src : DeserializeCursor) : SizedRead (Value × DeserializeCursor) := do
  let (count,contents) ← Traced.quiet (deserializeU32 host bswapSrc src)
  let (srcdata,src) ← Traced.quiet (contents.getBytes count)
  noteSizing .boolVector count contents
  return (.sequence (srcdata.map fun b => boolValue (b != 0)),src)

def deserializeEachNoted (deserialize : DeserializeCursor → SizedRead (Value × DeserializeCursor)) :
    Nat → DeserializeCursor → SizedRead (List Value × DeserializeCursor)
  | 0, src => return ([],src)
  | count + 1, src => do
    let (v,src) ← deserialize src
    let (vs,src) ← deserializeEachNoted deserialize count src
    return (v :: vs,src)

def deserializeManyNoted (deserialize : DeserializeCursor → SizedRead (Value × DeserializeCursor)) (vt : ValueType)
    (count : Nat) (src : DeserializeCursor) : SizedRead (List Value × DeserializeCursor) := do
  if count = 0 then return ([],src)
  let (v,src) ← deserialize src
  let count := count - 1
  if count = 0 then return ([v],src)
  let valueSize ← Traced.quiet vt.sizeofType
  let bulk ← Traced.quiet (if bswapSrc then pure false else lookupManyTriviallySerialized lookup src.offset vt)
  if bulk then
    let (bytes,src) ← Traced.quiet (src.getBytes (count * valueSize))
    return (v :: rawValues host vt bytes count,src)
  else
    let (vs,src) ← deserializeEachNoted deserialize count src
    return (v :: vs,src)

def deserializeAnyNoted (vt : ValueType) (src : DeserializeCursor)
    (overload : SizedRead (Value × DeserializeCursor)) : SizedRead (Value × DeserializeCursor) := do
  let copy ← Traced.quiet (if !bswapSrc && what == .sample then lookup src.offset vt else pure false)
  if copy then
    let (bytes,src) ← Traced.quiet (src.getBytes (← Traced.quiet vt.sizeofType))
    return ((Memory.ofBytes bytes).value host vt Memory.base,src)
  else overload

mutual
/-- `deserialize`, with a note of every container it sizes; a sequence is noted when its resize function is called. -/
def deserializeNoted : ValueType → DeserializeCursor → SizedRead (Value × DeserializeCursor)
  | .primitive k, src => deserializeAnyNoted host lookup bswapSrc what (.primitive k) src
      (Traced.quiet (deserializePrimitive host bswapSrc k.width src))
  | .u8string s b, src => deserializeAnyNoted host lookup bswapSrc what (.u8string s b) src
      (deserializeU8StringNoted host bswapSrc src)
  | .u16string s b, src => deserializeAnyNoted host lookup bswapSrc what (.u16string s b) src
      (deserializeU16StringNoted host bswapSrc src)
  | .struct s ms, src => deserializeAnyNoted host lookup bswapSrc what (.struct s ms) src (do
      let (vs,src) ← deserializeMembersNoted (allFields what ms) ms src
      return (.struct vs,src))
  | .array t n, src => deserializeAnyNoted host lookup bswapSrc what (.array t n) src (do
      let (vs,src) ← deserializeManyNoted host lookup bswapSrc (fun src => deserializeNoted t src) t n src
      return (.array vs,src))
  | .spanSequence k t b, src => deserializeAnyNoted host lookup bswapSrc what (.spanSequence k t b) src (do
      let (count,src) ← Traced.quiet (deserializeU32 host bswapSrc src)
      noteSizing (.sequence k) count src
      Traced.quiet (resize runtime k src.position count)
      let (vs,src) ← deserializeManyNoted host lookup bswapSrc (fun src => deserializeNoted t src) t count src
      return (.sequence vs,src))
  | .boolVector s b, src => deserializeAnyNoted host lookup bswapSrc what (.boolVector s b) src
      (deserializeBoolVectorNoted host bswapSrc src)

def deserializeMembersNoted (all : Bool) : Members → DeserializeCursor → SizedRead (List Value × DeserializeCursor)
  | .nil, src => return ([],src)
  | .cons _ isKey t ms, src => do
    if all || isKey then
      let (v,src) ← deserializeNoted t src
      let (vs,src) ← deserializeMembersNoted all ms src
      return (v :: vs,src)
    else deserializeMembersNoted all ms src
end

end

/-! ### The notes are taken along the reader -/

section
variable (host : Endian) {lookup : Lookup} {runtime : Runtime} (bswapSrc : Bool) (what : SampleOrKey)

private theorem noteSizing_result (container : Container) (elements : Nat) (contents : DeserializeCursor) :
    (noteSizing container elements contents).result = .ok () := rfl

private theorem deserializeU8StringNoted_result (c : DeserializeCursor) :
    (deserializeU8StringNoted host bswapSrc c).result = deserializeU8String host bswapSrc c := by
  simp only [deserializeU8StringNoted, deserializeU8String, Traced.result_bind, Traced.result_ite, Traced.result_quiet,
    Traced.result_pure, noteSizing_result]
  rfl

private theorem deserializeU16StringNoted_result (c : DeserializeCursor) :
    (deserializeU16StringNoted host bswapSrc c).result = deserializeU16String host bswapSrc c := by
  simp only [deserializeU16StringNoted, deserializeU16String, Traced.result_bind, Traced.result_ite, Traced.result_quiet,
    Traced.result_pure, noteSizing_result]
  rfl

private theorem deserializeBoolVectorNoted_result (c : DeserializeCursor) :
    (deserializeBoolVectorNoted host bswapSrc c).result = deserializeBoolVector host bswapSrc c := by
  simp only [deserializeBoolVectorNoted, deserializeBoolVector, Traced.result_bind, Traced.result_quiet,
    Traced.result_pure, noteSizing_result]
  rfl

section
variable {noted : DeserializeCursor → SizedRead (Value × DeserializeCursor)}
  {f : DeserializeCursor → Outcome (Value × DeserializeCursor)} (h : ∀ c, (noted c).result = f c)
include h

private theorem deserializeEachNoted_result (count : Nat) (c : DeserializeCursor) :
    (deserializeEachNoted noted count c).result = deserializeEach f count c := by
  induction count generalizing c with
  | zero => rfl
  | succ count ih =>
    simp only [deserializeEachNoted, deserializeEach, Traced.result_bind, Traced.result_pure, h, ih]
    rfl

private theorem deserializeManyNoted_result (t : ValueType) (count : Nat) (c : DeserializeCursor) :
    (deserializeManyNoted host lookup bswapSrc noted t count c).result = deserializeMany host lookup bswapSrc f t count c := by
  simp only [deserializeManyNoted, deserializeMany, Traced.result_bind, Traced.result_ite, Traced.result_quiet,
    Traced.result_pure, h, deserializeEachNoted_result h]
  rfl

end

private theorem deserializeAnyNoted_result {t : ValueType} {c : DeserializeCursor}
    {noted : SizedRead (Value × DeserializeCursor)} {overload : Outcome (Value × DeserializeCursor)}
    (h : noted.result = overload) : (deserializeAnyNoted host lookup bswapSrc what t c noted).result =
      deserializeAny host lookup bswapSrc what t c overload := by
  simp only [deserializeAnyNoted, deserializeAny, Traced.result_bind, Traced.result_ite, Traced.result_quiet,
    Traced.result_pure, h]
  rfl

mutual
theorem deserializeNoted_result : ∀ (t : ValueType) (c : DeserializeCursor),
    (deserializeNoted host lookup runtime bswapSrc what t c).result = deserialize host lookup runtime bswapSrc what t c
  | .primitive k, c => deserializeAnyNoted_result host bswapSrc what rfl
  | .u8string s b, c => deserializeAnyNoted_result host bswapSrc what (deserializeU8StringNoted_result host bswapSrc c)
  | .u16string s b, c => deserializeAnyNoted_result host bswapSrc what (deserializeU16StringNoted_result host bswapSrc c)
  | .struct s ms, c => by
    refine deserializeAnyNoted_result host bswapSrc what ?_
    rw [Traced.result_bind, deserializeMembersNoted_result (allFields what ms) ms c]
    rfl
  | .array t n, c => by
    refine deserializeAnyNoted_result host bswapSrc what ?_
    rw [Traced.result_bind, deserializeManyNoted_result host bswapSrc (deserializeNoted_result t) t n c]
    rfl
  | .spanSequence k t b, c => by
    refine deserializeAnyNoted_result host bswapSrc what ?_
    simp only [Traced.result_bind, Traced.result_quiet, noteSizing_result, Traced.result_pure,
      deserializeManyNoted_result host bswapSrc (deserializeNoted_result t) t]
    rfl
  | .boolVector s b, c => deserializeAnyNoted_result host bswapSrc what (deserializeBoolVectorNoted_result host bswapSrc c)

theorem deserializeMembersNoted_result (all : Bool) : ∀ (ms : Members) (c : DeserializeCursor),
    (deserializeMembersNoted host lookup runtime bswapSrc what all ms c).result =
      deserializeMembers host lookup runtime bswapSrc what all ms c
  | .nil, c => rfl
  | .cons _ isKey t ms, c => by
    simp only [deserializeMembersNoted, deserializeMembers, Traced.result_ite, Traced.result_bind, Traced.result_pure,
      deserializeNoted_result t, deserializeMembersNoted_result all ms]
    rfl
end

end

/-! ### How a reader may stop -/

/-- The resize function of a sequence stops the reader. -/
def Sizing.Stops (runtime : Runtime) (s : Stop) (e : Sizing) : Prop :=
  ∃ kind, e.container = .sequence kind ∧ resize runtime kind e.position e.elements = .error s

section
variable (host : Endian) {lookup : Lookup} {runtime : Runtime} (bswapSrc : Bool) (what : SampleOrKey) {s : Stop}
  (hs : ∀ e, s ≠ .throws e)
include hs

private theorem quiet_stopsOn {α : Type} {P : Sizing → Prop} {x : Outcome α} (h : ∀ s, x = .error s → ∃ e, s = .throws e) :
    Traced.StopsOn P s (Traced.quiet x : SizedRead α) := by
  refine Traced.StopsOn.quiet fun hx => ?_
  obtain ⟨e,he⟩ := h s hx
  exact hs e he

private theorem throw_stopsOn {α : Type} {P : Sizing → Prop} (e : Exception) :
    Traced.StopsOn P s (Traced.quiet (throw (.throws e)) : SizedRead α) :=
  quiet_stopsOn hs fun s h => by
    cases h
    exact ⟨e,rfl⟩

omit hs in
private theorem noteSizing_stopsOn {container : Container} (h : ∀ kind, container ≠ .sequence kind) (elements : Nat)
    (contents : DeserializeCursor) : Traced.StopsOn (Sizing.Stops runtime s) s (noteSizing container elements contents) := by
  refine Traced.StopsOn.note ?_
  rintro ⟨kind,hkind,_⟩
  exact h kind hkind

private theorem deserializeU8StringNoted_stopsOn (c : DeserializeCursor) :
    Traced.StopsOn (Sizing.Stops runtime s) s (deserializeU8StringNoted host bswapSrc c) := by
  refine Traced.StopsOn.bind (quiet_stopsOn hs ((deserializeU32_robust host bswapSrc).throws c)) fun ⟨size,d⟩ _ => ?_
  have hbytes := quiet_stopsOn (P := Sizing.Stops runtime s) hs ((getBytes_robust size).throws d)
  refine Traced.StopsOn.ite (fun _ => Traced.StopsOn.bind (throw_stopsOn hs _) fun _ h => by cases h) fun _ => ?_
  refine Traced.StopsOn.bind hbytes fun ⟨srcdata,_⟩ _ => ?_
  refine Traced.StopsOn.ite (fun _ => Traced.StopsOn.bind (throw_stopsOn hs _) fun _ h => by cases h) fun _ => ?_
  exact Traced.StopsOn.bind (noteSizing_stopsOn (fun _ h => by cases h) _ d) fun _ _ => Traced.StopsOn.pure _

private theorem deserializeU16StringNoted_stopsOn (c : DeserializeCursor) :
    Traced.StopsOn (Sizing.Stops runtime s) s (deserializeU16StringNoted host bswapSrc c) := by
  refine Traced.StopsOn.bind (quiet_stopsOn hs ((deserializeU32_robust host bswapSrc).throws c)) fun ⟨size,d⟩ _ => ?_
  refine Traced.StopsOn.ite (fun _ => Traced.StopsOn.bind (throw_stopsOn hs _) fun _ h => by cases h) fun _ => ?_
  refine Traced.StopsOn.bind (quiet_stopsOn hs ((getBytes_robust size).throws d)) fun _ _ => ?_
  exact Traced.StopsOn.bind (noteSizing_stopsOn (fun _ h => by cases h) _ d) fun _ _ => Traced.StopsOn.pure _

private theorem deserializeBoolVectorNoted_stopsOn (c : DeserializeCursor) :
    Traced.StopsOn (Sizing.Stops runtime s) s (deserializeBoolVectorNoted host bswapSrc c) := by
  refine Traced.StopsOn.bind (quiet_stopsOn hs ((deserializeU32_robust host bswapSrc).throws c)) fun ⟨count,d⟩ _ => ?_
  refine Traced.StopsOn.bind (quiet_stopsOn hs ((getBytes_robust count).throws d)) fun _ _ => ?_
  exact Traced.StopsOn.bind (noteSizing_stopsOn (fun _ h => by cases h) _ d) fun _ _ => Traced.StopsOn.pure _

section
variable {f : DeserializeCursor → SizedRead (Value × DeserializeCursor)}
  (hf : ∀ c, Traced.StopsOn (Sizing.Stops runtime s) s (f c))
include hf

omit hs in
private theorem deserializeEachNoted_stopsOn (count : Nat) (c : DeserializeCursor) :
    Traced.StopsOn (Sizing.Stops runtime s) s (deserializeEachNoted f count c) := by
  induction count generalizing c with
  | zero => exact Traced.StopsOn.pure _
  | succ count ih =>
    refine Traced.StopsOn.bind (hf c) fun ⟨v,d⟩ _ => ?_
    exact Traced.StopsOn.bind (ih d) fun _ _ => Traced.StopsOn.pure _

private theorem deserializeManyNoted_stopsOn {t : ValueType} (hsized : t.Sized) (hl : Answers lookup t) (count : Nat)
    (c : DeserializeCursor) :
    Traced.StopsOn (Sizing.Stops runtime s) s (deserializeManyNoted host lookup bswapSrc f t count c) := by
  refine Traced.StopsOn.ite (fun _ => Traced.StopsOn.pure _) fun _ => ?_
  refine Traced.StopsOn.bind (hf c) fun ⟨v,d⟩ _ => ?_
  refine Traced.StopsOn.ite (fun _ => Traced.StopsOn.pure _) fun _ => ?_
  refine Traced.StopsOn.bind (quiet_stopsOn hs fun _ => answered ⟨_,ValueType.sizeofType_of_sized hsized⟩) fun size _ => ?_
  refine Traced.StopsOn.bind (quiet_stopsOn hs fun _ => answered ?_) fun bulk _ => ?_
  · obtain ⟨b,hb,_⟩ := lookupMany_answers hsized hl d.offset
    refine ⟨if bswapSrc then false else b,?_⟩
    cases bswapSrc with
    | true => rfl
    | false => exact hb
  · refine Traced.StopsOn.ite (fun _ => ?_) fun _ => ?_
    · exact Traced.StopsOn.bind (quiet_stopsOn hs ((getBytes_robust _).throws d)) fun _ _ => Traced.StopsOn.pure _
    · exact Traced.StopsOn.bind (deserializeEachNoted_stopsOn hf _ d) fun _ _ => Traced.StopsOn.pure _

end

private theorem deserializeAnyNoted_stopsOn {t : ValueType} (hl : Answers lookup t) {c : DeserializeCursor}
    {overload : SizedRead (Value × DeserializeCursor)} (ho : Traced.StopsOn (Sizing.Stops runtime s) s overload) :
    Traced.StopsOn (Sizing.Stops runtime s) s (deserializeAnyNoted host lookup bswapSrc what t c overload) := by
  obtain ⟨b,hb,htrivial⟩ := hl c.offset
  have hcopy : ∃ copy, (if !bswapSrc && what == .sample then lookup c.offset t else pure false) = .ok copy ∧
      (copy = true → t.Sized) := by
    split
    · exact ⟨b,hb,fun h => ValueType.sized_of_trivial (htrivial h)⟩
    · exact ⟨false,rfl,fun h => Bool.noConfusion h⟩
  obtain ⟨copy,hanswer,hsized⟩ := hcopy
  refine Traced.StopsOn.bind (quiet_stopsOn hs fun _ => answered ⟨_,hanswer⟩) fun copy' hcopy' => ?_
  have heq : copy = copy' := Except.ok.inj (hanswer.symm.trans hcopy')
  refine Traced.StopsOn.ite (fun hyes => ?_) fun _ => ho
  have hsize := ValueType.sizeofType_of_sized (hsized (heq.trans hyes))
  refine Traced.StopsOn.bind (quiet_stopsOn hs fun _ => answered ⟨_,hsize⟩) fun size _ => ?_
  exact Traced.StopsOn.bind (quiet_stopsOn hs ((getBytes_robust size).throws c)) fun _ _ => Traced.StopsOn.pure _

end

section
variable (host : Endian) {lookup : Lookup} {runtime : Runtime} (bswapSrc : Bool) (what : SampleOrKey) {s : Stop}

mutual
/-- Other than by throwing, a reader stops only where the resize function of a sequence stops it. -/
theorem deserializeNoted_stopsOn (hs : ∀ e, s ≠ .throws e) : ∀ {t : ValueType}, t.WellFormed →
    t.Everywhere (Answers lookup) → ∀ c : DeserializeCursor, Traced.StopsOn (Sizing.Stops runtime s) s
      (deserializeNoted host lookup runtime bswapSrc what t c)
  | .primitive k, _, hl, c => deserializeAnyNoted_stopsOn host bswapSrc what hs hl
      (quiet_stopsOn hs ((deserializePrimitive_robust host bswapSrc k.width).throws c))
  | .u8string _ _, _, hl, c => deserializeAnyNoted_stopsOn host bswapSrc what hs hl
      (deserializeU8StringNoted_stopsOn host bswapSrc hs c)
  | .u16string _ _, _, hl, c => deserializeAnyNoted_stopsOn host bswapSrc what hs hl
      (deserializeU16StringNoted_stopsOn host bswapSrc hs c)
  | .struct _ ms, hw, hl, c => by
    refine deserializeAnyNoted_stopsOn host bswapSrc what hs hl.1 ?_
    exact Traced.StopsOn.bind (deserializeMembersNoted_stopsOn hs (allFields what ms) hw hl.2 c)
      fun _ _ => Traced.StopsOn.pure _
  | .array t n, hw, hl, c => by
    refine deserializeAnyNoted_stopsOn host bswapSrc what hs hl.1 ?_
    exact Traced.StopsOn.bind (deserializeManyNoted_stopsOn host bswapSrc hs (deserializeNoted_stopsOn hs hw.2 hl.2) hw.1
      hl.2.here n c) fun _ _ => Traced.StopsOn.pure _
  | .spanSequence k t b, hw, hl, c => by
    refine deserializeAnyNoted_stopsOn host bswapSrc what hs hl.1 ?_
    refine Traced.StopsOn.bind (quiet_stopsOn hs ((deserializeU32_robust host bswapSrc).throws c)) fun ⟨count,d⟩ _ => ?_
    refine Traced.StopsOn.request ?_ fun _ => ?_
    · constructor
      · rintro ⟨kind,hkind,h⟩
        cases hkind
        exact h
      · intro h
        exact ⟨k,rfl,h⟩
    · exact Traced.StopsOn.bind (deserializeManyNoted_stopsOn host bswapSrc hs (deserializeNoted_stopsOn hs hw.2.1 hl.2) hw.1
        hl.2.here count d) fun _ _ => Traced.StopsOn.pure _
  | .boolVector _ _, _, hl, c => deserializeAnyNoted_stopsOn host bswapSrc what hs hl
      (deserializeBoolVectorNoted_stopsOn host bswapSrc hs c)

theorem deserializeMembersNoted_stopsOn (hs : ∀ e, s ≠ .throws e) (all : Bool) : ∀ {ms : Members}, ms.WellFormed →
    ms.Everywhere (Answers lookup) → ∀ c : DeserializeCursor, Traced.StopsOn (Sizing.Stops runtime s) s
      (deserializeMembersNoted host lookup runtime bswapSrc what all ms c)
  | .nil, _, _, c => Traced.StopsOn.pure _
  | .cons _ isKey t ms, hw, hl, c => by
    refine Traced.StopsOn.ite (fun _ => ?_) fun _ => deserializeMembersNoted_stopsOn hs all hw.2 hl.2 c
    refine Traced.StopsOn.bind (deserializeNoted_stopsOn hs hw.1 hl.1 c) fun ⟨v,d⟩ _ => ?_
    exact Traced.StopsOn.bind (deserializeMembersNoted_stopsOn hs all hw.2 hl.2 d) fun _ _ => Traced.StopsOn.pure _
end

end

/-! ### Messages -/

namespace CDRReader
variable {host : Endian} {root : StructValueType} {variant : SampleOrRequest} (r : CDRReader host root variant)
  (runtime : Runtime)

def deserializeValueNoted (bswapSrc : Bool) (what : SampleOrKey) (src : DeserializeCursor) :
    SizedRead (Option Value × DeserializeCursor) := do
  let (v,src) ← RmwCyclonedds.deserializeNoted host r.tsc.lookupTriviallySerialized runtime bswapSrc what
    root.toValueType src
  return (some v,src)

def deserializeBehindHeaderNoted (what : SampleOrKey) (rtpsHeader : List Byte) (src : DeserializeCursor) :
    SizedRead (Message × DeserializeCursor) := do
  if rtpsHeader.getD 0 0 ≠ 0 ∨ rtpsHeader.getD 1 0 > 1 then Traced.quiet (throw (.throws unrecognizedHeader))
  let bswapSrc := (rtpsHeader.getD 1 0 == 0) == (host == .little)
  let (header,src) ← Traced.quiet (if what = .sample ∧ variant = .request then deserializeRequestHeader host bswapSrc src
    else .ok (none,src))
  let (value,src) ← (if what = .sample ∨ root.hasKeys then r.deserializeValueNoted runtime bswapSrc what src
    else pure (none,src))
  return (⟨header,value⟩,src.rebase (-4))

def deserializeTopLevelNoted (what : SampleOrKey) (src : DeserializeCursor) : SizedRead (Message × DeserializeCursor) := do
  let (rtpsHeader,src) ← Traced.quiet (src.getBytes 4)
  r.deserializeBehindHeaderNoted runtime what rtpsHeader (src.rebase 4)

def deserializeNoted (cdr : List Byte) (what : SampleOrKey) : SizedRead Message := do
  if what ≠ .key ∨ root.hasKeys then
    let (message,_) ← r.deserializeTopLevelNoted runtime what (DeserializeCursor.start cdr)
    return message
  else return ⟨none,none⟩

/-- Every container that is sized while the bytes are read. -/
def sizings (cdr : List Byte) (what : SampleOrKey) : List Sizing := (r.deserializeNoted runtime cdr what).events

private theorem deserializeBehindHeaderNoted_result (what : SampleOrKey) (header : List Byte) (src : DeserializeCursor) :
    (r.deserializeBehindHeaderNoted runtime what header src).result = r.deserializeBehindHeader runtime what header src := by
  simp only [deserializeBehindHeaderNoted, deserializeBehindHeader, deserializeValueNoted, deserializeValue,
    Traced.result_bind, Traced.result_ite, Traced.result_quiet, Traced.result_pure, deserializeNoted_result]
  rfl

theorem deserializeNoted_result (cdr : List Byte) (what : SampleOrKey) :
    (r.deserializeNoted runtime cdr what).result = r.deserialize runtime cdr what := by
  simp only [deserializeNoted, deserialize, deserializeTopLevelNoted, deserializeTopLevel, Traced.result_bind,
    Traced.result_ite, Traced.result_quiet, Traced.result_pure, deserializeBehindHeaderNoted_result]
  rfl

section
variable {runtime} {s : Stop} (hs : ∀ e, s ≠ .throws e)
include hs

private theorem deserializeBehindHeaderNoted_stopsOn (what : SampleOrKey) (header : List Byte) (src : DeserializeCursor) :
    Traced.StopsOn (Sizing.Stops runtime s) s (r.deserializeBehindHeaderNoted runtime what header src) := by
  refine Traced.StopsOn.ite (fun _ => ?_) fun _ => ?_
  · refine Traced.StopsOn.bind (Traced.StopsOn.quiet fun h => ?_) fun _ h => by cases h
    exact hs _ (Except.error.inj h).symm
  · refine Traced.StopsOn.bind (Traced.StopsOn.quiet fun h => ?_) fun ⟨request,d⟩ _ => ?_
    · split at h
      · obtain ⟨e,he⟩ := (deserializeRequestHeader_robust _).throws _ _ h
        exact hs e he
      · cases h
    · refine Traced.StopsOn.bind (Traced.StopsOn.ite (fun _ => ?_) fun _ => Traced.StopsOn.pure _)
        fun _ _ => Traced.StopsOn.pure _
      exact Traced.StopsOn.bind (deserializeNoted_stopsOn host _ what hs (t := root.toValueType) root.wellFormed r.answers d)
        fun _ _ => Traced.StopsOn.pure _

/-- Other than by throwing, reading a message stops only where the resize function of a sequence stops it. -/
theorem deserializeNoted_stopsOn (cdr : List Byte) (what : SampleOrKey) :
    (∃ e ∈ r.sizings runtime cdr what, e.Stops runtime s) ↔ r.deserialize runtime cdr what = .error s := by
  have hstops : Traced.StopsOn (Sizing.Stops runtime s) s (r.deserializeNoted runtime cdr what) := by
    refine Traced.StopsOn.ite (fun _ => ?_) fun _ => Traced.StopsOn.pure _
    refine Traced.StopsOn.bind (Traced.StopsOn.bind (Traced.StopsOn.quiet fun h => ?_) fun ⟨header,c⟩ _ => ?_)
      fun _ _ => Traced.StopsOn.pure _
    · obtain ⟨e,he⟩ := (DeserializeCursor.getBytes_robust 4).throws _ _ h
      exact hs e he
    · exact r.deserializeBehindHeaderNoted_stopsOn hs what header _
  rw [← r.deserializeNoted_result runtime cdr what]
  exact hstops

end

end CDRReader

end RmwCyclonedds
