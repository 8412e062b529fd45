import RmwCyclonedds.Serialization.KeyPart

/-! The overloads of `CDRReader::extractkey`: from a sample or a key in the byte order of its
sender to a key in the byte order asked for. -/
namespace RmwCyclonedds
open Library DeserializeCursor WriteCursor

inductive ExtractKeyMode where
  | sample
  | key
  | skip
  deriving DecidableEq, Repr

section
variable {σ : Type} [WriteCursor σ] (host : Endian) (lookup : Lookup) (bswapSrc bswapDst : Bool)

def extractkeyPrimitive (n : Nat) (mode : ExtractKeyMode) (src : DeserializeCursor) (dst : σ) :
    Outcome (σ × DeserializeCursor) := do
  let src ← src.align n
  let (srcdata,src) ← src.getBytes n
  if mode ≠ .skip then
    return (putBytes (align dst n) (if bswapSrc != bswapDst then bswapN host n srcdata else srcdata),src)
  else return (dst,src)

/-- The length of a string or a sequence, which the reader holds in the order of the host. -/
def putSize (size : Nat) (dst : σ) : σ :=
  putBytes (align dst 4) (swapped host bswapDst 4 (host.encode 4 size))

def extractkeyU8String (mode : ExtractKeyMode) (src : DeserializeCursor) (dst : σ) :
    Outcome (σ × DeserializeCursor) := do
  let (size,src) ← deserializeU32 host bswapSrc src
  if size = 0 then throw (.throws sizeZeroString)
  let (srcdata,src) ← src.getBytes size
  if srcdata.getLast? ≠ some 0 then throw (.throws unterminatedString)
  if mode ≠ .skip then return (putBytes (putSize host bswapDst size dst) srcdata,src)
  else return (dst,src)

/-- Consecutive 16-bit units, each swapped in place. -/
def bswapUnits : List Byte → List Byte
  | a :: b :: rest => bswapN host 2 [a,b] ++ bswapUnits rest
  | rest => rest

/-- The units are swapped when the source is, whatever the order asked for. -/
def extractkeyU16String (mode : ExtractKeyMode) (src : DeserializeCursor) (dst : σ) :
    Outcome (σ × DeserializeCursor) := do
  let (size,src) ← deserializeU32 host bswapSrc src
  if size % 2 ≠ 0 then throw (.throws oddWString)
  let (srcdata,src) ← src.getBytes size
  if mode ≠ .skip then
    return (putBytes (putSize host bswapDst size dst) (if bswapSrc then bswapUnits host srcdata else srcdata),src)
  else return (dst,src)

def extractkeyBoolVector (mode : ExtractKeyMode) (src : DeserializeCursor) (dst : σ) :
    Outcome (σ × DeserializeCursor) := do
  let (count,src) ← deserializeU32 host bswapSrc src
  let (srcdata,src) ← src.getBytes count
  if mode ≠ .skip then return (putBytes (putSize host bswapDst count dst) srcdata,src)
  else return (dst,src)

/-- The loop over elements. -/
def extractkeyEach (extractkey : DeserializeCursor → σ → Outcome (σ × DeserializeCursor)) :
    Nat → DeserializeCursor → σ → Outcome (σ × DeserializeCursor)
  | 0, src, dst => return (dst,src)
  | count + 1, src, dst => do
    let (dst,src) ← extractkey src dst
    extractkeyEach extractkey count src dst

/-- The bulk copy asks for the offset in the source only, and in no mode for key members. -/
def extractkeyMany (extractkey : DeserializeCursor → σ → Outcome (σ × DeserializeCursor)) (vt : ValueType)
    (mode : ExtractKeyMode) (count : Nat) (src : DeserializeCursor) (dst : σ) :
    Outcome (σ × DeserializeCursor) := do
  if count = 0 then return (dst,src)
  let (dst,src) ← extractkey src dst
  let count := count - 1
  if count = 0 then return (dst,src)
  let valueSize ← vt.sizeofType
  let bulk ← (if bswapSrc || bswapDst then pure false else lookupManyTriviallySerialized lookup src.offset vt)
  if bulk then
    let (srcdata,src) ← src.getBytes (count * valueSize)
    return (if mode ≠ .skip then putBytes dst srcdata else dst,src)
  else extractkeyEach extractkey count src dst

/-- `extractkey` for `AnyValueType`. -/
def extractkeyAny (vt : ValueType) (mode : ExtractKeyMode) (src : DeserializeCursor) (dst : σ)
    (overload : Outcome (σ × DeserializeCursor)) : Outcome (σ × DeserializeCursor) := do
  let copy ← (if mode = .skip then lookup src.offset vt else pure false)
  if copy then
    let (_,src) ← src.advance (← vt.sizeofType)
    return (dst,src)
  else overload

/-- How a member is treated, if at all. -/
def memberMode (mode : ExtractKeyMode) (isKey : Bool) : Option ExtractKeyMode :=
  match mode with
  | .skip => some .skip
  | .key => if isKey then some .key else none
  | .sample => if isKey then some .sample else some .skip

mutual
def extractkey : ValueType → ExtractKeyMode → DeserializeCursor → σ → Outcome (σ × DeserializeCursor)
  | .primitive k, mode, src, dst => extractkeyAny lookup (.primitive k) mode src dst
      (extractkeyPrimitive host bswapSrc bswapDst k.width.bytes mode src dst)
  | .u8string s b, mode, src, dst => extractkeyAny lookup (.u8string s b) mode src dst
      (extractkeyU8String host bswapSrc bswapDst mode src dst)
  | .u16string s b, mode, src, dst => extractkeyAny lookup (.u16string s b) mode src dst
      (extractkeyU16String host bswapSrc bswapDst mode src dst)
  | .struct s ms, mode, src, dst => extractkeyAny lookup (.struct s ms) mode src dst
      (extractkeyMembers (!ms.hasKeys) ms mode src dst)
  | .array t n, mode, src, dst => extractkeyAny lookup (.array t n) mode src dst
      (extractkeyMany lookup bswapSrc bswapDst (fun src dst => extractkey t mode src dst) t mode n src dst)
  | .spanSequence k t b, mode, src, dst => extractkeyAny lookup (.spanSequence k t b) mode src dst (do
      let (count,src) ← deserializeU32 host bswapSrc src
      let dst := if mode ≠ .skip then putSize host bswapDst count dst else dst
      extractkeyMany lookup bswapSrc bswapDst (fun src dst => extractkey t mode src dst) t mode count src dst)
  | .boolVector s b, mode, src, dst => extractkeyAny lookup (.boolVector s b) mode src dst
      (extractkeyBoolVector host bswapSrc bswapDst mode src dst)

def extractkeyMembers (allFieldsAreKey : Bool) :
    Members → ExtractKeyMode → DeserializeCursor → σ → Outcome (σ × DeserializeCursor)
  | .nil, _, src, dst => return (dst,src)
  | .cons _ isKey t ms, mode, src, dst => do
    let (dst,src) ← (match memberMode mode (isKey || allFieldsAreKey) with
      | some mode => extractkey t mode src dst
      | none => return (dst,src))
    extractkeyMembers allFieldsAreKey ms mode src dst
end

end

/-! ### Nothing but keys and exceptions -/

section
variable {σ : Type} [WriteCursor σ] (host : Endian) {lookup : Lookup} (bswapSrc bswapDst : Bool) (mode : ExtractKeyMode)

private theorem extractkeyPrimitive_robust (n : Nat) (dst : σ) :
    Robust fun c => extractkeyPrimitive host bswapSrc bswapDst n mode c dst := by
  refine align_robust n ?_
  refine Robust.bind (getBytes_robust n) fun srcdata => ?_
  exact Robust.ite (Robust.ret _) (Robust.ret _)

private theorem extractkeyU8String_robust (dst : σ) :
    Robust fun c => extractkeyU8String host bswapSrc bswapDst mode c dst := by
  refine Robust.bind (deserializeU32_robust host bswapSrc) fun size => ?_
  refine Robust.ite (Robust.fail _) ?_
  refine Robust.bind (getBytes_robust size) fun srcdata => ?_
  refine Robust.ite (Robust.fail _) ?_
  exact Robust.ite (Robust.ret _) (Robust.ret _)

private theorem extractkeyU16String_robust (dst : σ) :
    Robust fun c => extractkeyU16String host bswapSrc bswapDst mode c dst := by
  refine Robust.bind (deserializeU32_robust host bswapSrc) fun size => ?_
  refine Robust.ite (Robust.fail _) ?_
  refine Robust.bind (getBytes_robust size) fun srcdata => ?_
  exact Robust.ite (Robust.ret _) (Robust.ret _)

private theorem extractkeyBoolVector_robust (dst : σ) :
    Robust fun c => extractkeyBoolVector host bswapSrc bswapDst mode c dst := by
  refine Robust.bind (deserializeU32_robust host bswapSrc) fun count => ?_
  refine Robust.bind (getBytes_robust count) fun srcdata => ?_
  exact Robust.ite (Robust.ret _) (Robust.ret _)

omit [WriteCursor σ] in
private theorem extractkeyEach_robust {f : DeserializeCursor → σ → Outcome (σ × DeserializeCursor)}
    (hf : ∀ dst, Robust fun c => f c dst) : ∀ (count : Nat) (dst : σ), Robust fun c => extractkeyEach f count c dst
  | 0, _ => Robust.ret _
  | count + 1, dst => Robust.bind (hf dst) fun dst => extractkeyEach_robust hf count dst

private theorem extractkeyMany_robust {f : DeserializeCursor → σ → Outcome (σ × DeserializeCursor)} {t : ValueType}
    (hs : t.Sized) (hl : Answers lookup t) (hf : ∀ dst, Robust fun c => f c dst) (count : Nat) (dst : σ) :
    Robust fun c => extractkeyMany lookup bswapSrc bswapDst f t mode count c dst := by
  refine Robust.ite (Robust.ret _) ?_
  refine Robust.bind (hf dst) fun dst => ?_
  refine Robust.ite (Robust.ret _) ?_
  refine Robust.query (fun _ _ => answered ⟨_,ValueType.sizeofType_of_sized hs⟩) (fun _ _ => rfl) fun size => ?_
  refine Robust.query ?_ (fun _ _ => rfl) fun bulk => ?_
  · intro c s h
    obtain ⟨b,hb,_⟩ := lookupMany_answers hs hl c.offset
    refine answered ⟨if bswapSrc || bswapDst then false else b,?_⟩ h
    cases bswapSrc || bswapDst with
    | true => rfl
    | false => exact hb
  · refine Robust.ite ?_ (extractkeyEach_robust hf _ dst)
    refine Robust.bind (getBytes_robust _) fun srcdata => ?_
    exact Robust.ret _

omit [WriteCursor σ] in
private theorem extractkeyAny_robust {t : ValueType} (hl : Answers lookup t) (dst : σ)
    {f : DeserializeCursor → Outcome (σ × DeserializeCursor)} (hf : Robust f) :
    Robust fun c => extractkeyAny lookup t mode c dst (f c) := by
  have hcopy : ∀ c : DeserializeCursor, ∃ b,
      (if mode = .skip then lookup c.offset t else pure false) = .ok b ∧ (b = true → t.Sized) := by
    intro c
    by_cases h : mode = .skip
    · obtain ⟨b,hb,ht⟩ := hl c.offset
      rw [if_pos h]
      exact ⟨b,hb,fun hyes => ValueType.sized_of_trivial (ht hyes)⟩
    · rw [if_neg h]
      exact ⟨false,rfl,fun hno => Bool.noConfusion hno⟩
  have hskip : Robust fun c => c.advance t.size >>= fun p => .ok (dst,p.2) :=
    Robust.bind (advance_robust t.size) fun _ => Robust.ret _
  refine ⟨fun c s h => ?_,fun c r c' bs h => ?_⟩
  · obtain ⟨b,hb,hsized⟩ := hcopy c
    simp only [extractkeyAny, hb, Bind.bind, Except.bind] at h
    cases b with
    | false => exact hf.throws c s h
    | true =>
      rw [ValueType.sizeofType_of_sized (hsized rfl)] at h
      exact hskip.throws c s h
  · obtain ⟨b,hb,hsized⟩ := hcopy c
    have hext : (if mode = .skip then lookup (c.extend bs).offset t else pure false) = .ok b := hb
    simp only [extractkeyAny, hb, hext, Bind.bind, Except.bind] at h ⊢
    cases b with
    | false => exact hf.extend c r c' bs h
    | true =>
      rw [ValueType.sizeofType_of_sized (hsized rfl)] at h ⊢
      exact hskip.extend c r c' bs h

mutual
/-- Extraction throws or returns, whatever the bytes are, and looks no further than it reads. -/
theorem extractkey_robust : ∀ (t : ValueType), t.WellFormed → t.Everywhere (Answers lookup) →
    ∀ (mode : ExtractKeyMode) (dst : σ), Robust fun c => extractkey host lookup bswapSrc bswapDst t mode c dst
  | .primitive k, _, hl, mode, dst =>
    extractkeyAny_robust mode hl dst (extractkeyPrimitive_robust host bswapSrc bswapDst mode k.width.bytes dst)
  | .u8string s b, _, hl, mode, dst =>
    extractkeyAny_robust mode hl dst (extractkeyU8String_robust host bswapSrc bswapDst mode dst)
  | .u16string s b, _, hl, mode, dst =>
    extractkeyAny_robust mode hl dst (extractkeyU16String_robust host bswapSrc bswapDst mode dst)
  | .struct s ms, hw, hl, mode, dst =>
    extractkeyAny_robust mode hl.1 dst (extractkeyMembers_robust (!ms.hasKeys) ms hw hl.2 mode dst)
  | .array t n, hw, hl, mode, dst =>
    extractkeyAny_robust mode hl.1 dst (extractkeyMany_robust bswapSrc bswapDst mode hw.1 hl.2.here
      (fun dst => extractkey_robust t hw.2 hl.2 mode dst) n dst)
  | .spanSequence k t b, hw, hl, mode, dst => by
    refine extractkeyAny_robust mode hl.1 dst ?_
    refine Robust.bind (deserializeU32_robust host bswapSrc) fun count => ?_
    exact extractkeyMany_robust bswapSrc bswapDst mode hw.1 hl.2.here
      (fun dst => extractkey_robust t hw.2.1 hl.2 mode dst) count _
  | .boolVector s b, _, hl, mode, dst =>
    extractkeyAny_robust mode hl dst (extractkeyBoolVector_robust host bswapSrc bswapDst mode dst)

theorem extractkeyMembers_robust (all : Bool) : ∀ (ms : Members), ms.WellFormed → ms.Everywhere (Answers lookup) →
    ∀ (mode : ExtractKeyMode) (dst : σ),
      Robust fun c => extractkeyMembers host lookup bswapSrc bswapDst all ms mode c dst
  | .nil, _, _, _, _ => Robust.ret _
  | .cons _ isKey t ms, hw, hl, mode, dst => by
    simp only [extractkeyMembers]
    refine Robust.bind ?_ fun dst => extractkeyMembers_robust all ms hw.2 hl.2 mode dst
    cases memberMode mode (isKey || all) with
    | none => exact Robust.ret _
    | some mode => exact extractkey_robust t hw.1 hl.1 mode dst
end

end
end RmwCyclonedds
