import RmwCyclonedds.Serialization.CDRReader
import RmwCyclonedds.Serialization.ExtractedKey

/-! The reader of one message type, asked for the key of a sample or of a key. -/
namespace RmwCyclonedds
open Library DeserializeCursor WriteCursor

namespace CDRReader
variable {host : Endian} {root : StructValueType} {variant : SampleOrRequest} (r : CDRReader host root variant)

/-- `extractkey_top_level` from the check of the header on. Of a request header, only its
first half is skipped. -/
def extractkeyBehindHeader {σ : Type} [WriteCursor σ] (what : SampleOrKey) (bswapDst : Bool) (rtpsHeader : List Byte)
    (src : DeserializeCursor) (dst : σ) : Outcome (σ × DeserializeCursor) := do
  if rtpsHeader.getD 0 0 ≠ 0 ∨ rtpsHeader.getD 1 0 > 1 then throw (.throws unrecognizedHeader)
  let bswapSrc := (rtpsHeader.getD 1 0 == 0) == (host == .little)
  let dst := putBytes dst [0,if host = (if bswapDst then .big else .little) then 1 else 0,0,0]
  let dst := rebase dst 4
  let (_,src) ← (if what = .sample ∧ variant = .request then src.advance 8 else .ok (src.position,src))
  let kmode := if what = .key then ExtractKeyMode.key else .sample
  let (dst,src) ← RmwCyclonedds.extractkey host r.tsc.lookupTriviallySerialized bswapSrc bswapDst root.toValueType kmode
    src dst
  return (rebase dst (-4),src.rebase (-4))

def extractkeyTopLevel {σ : Type} [WriteCursor σ] (what : SampleOrKey) (bswapDst : Bool) (src : DeserializeCursor)
    (dst : σ) : Outcome (σ × DeserializeCursor) := do
  if !root.hasKeys then return (dst,src)
  let (rtpsHeader,src) ← src.getBytes 4
  r.extractkeyBehindHeader what bswapDst rtpsHeader (src.rebase 4) dst

/-- The key, appended to an empty vector. -/
def extractkey (cdr : List Byte) (what : SampleOrKey) : Outcome (List Byte) := do
  let (dst,_) ← r.extractkeyTopLevel what false (DeserializeCursor.start cdr) (ByteVectorCursor.mk 0 [])
  return dst.data

def extractkeyBe (cdr : List Byte) (what : SampleOrKey) : Outcome (List Byte) := do
  let (dst,_) ← r.extractkeyTopLevel what (host != .big) (DeserializeCursor.start cdr) (ByteVectorCursor.mk 0 [])
  return dst.data

/-! ### Any buffer -/

private theorem extractkeyBehindHeader_robust {σ : Type} [WriteCursor σ] (what : SampleOrKey) (bswapDst : Bool)
    (header : List Byte) (dst : σ) : Robust fun c => r.extractkeyBehindHeader what bswapDst header c dst := by
  refine Robust.ite (Robust.fail unrecognizedHeader) ?_
  refine Robust.bind (f := fun c => if what = .sample ∧ variant = .request then c.advance 8 else .ok (c.position,c))
    ?_ fun _ => ?_
  · refine Robust.ite (advance_robust 8) ⟨fun c s h => ?_,fun c r c' bs h => ?_⟩
    · cases h
    · cases h
      rfl
  · refine Robust.bind (extractkey_robust host _ bswapDst root.toValueType root.wellFormed r.answers _ _) fun dst => ?_
    refine ⟨fun c s h => ?_,fun c r c' bs h => ?_⟩
    · cases h
    · cases h
      rfl

private theorem extractkeyTopLevel_robust {σ : Type} [WriteCursor σ] (what : SampleOrKey) (bswapDst : Bool) (dst : σ) :
    Robust fun c => r.extractkeyTopLevel what bswapDst c dst := by
  refine Robust.ite (Robust.ret dst) ?_
  refine Robust.bind (getBytes_robust 4) fun header => ?_
  exact Robust.rebase 4 (r.extractkeyBehindHeader_robust what bswapDst header dst)

private theorem keyBytes_throws (cdr : List Byte) (what : SampleOrKey) (bswapDst : Bool) {s : Stop}
    (h : (do
      let (dst,_) ← r.extractkeyTopLevel what bswapDst (DeserializeCursor.start cdr) (ByteVectorCursor.mk 0 [])
      return dst.data : Outcome (List Byte)) = .error s) : ∃ e, s = .throws e := by
  cases htop : r.extractkeyTopLevel what bswapDst (DeserializeCursor.start cdr) (ByteVectorCursor.mk 0 []) with
  | error e =>
    simp only [htop, bind, Except.bind] at h
    cases h
    exact (r.extractkeyTopLevel_robust what bswapDst (ByteVectorCursor.mk 0 [])).throws _ _ htop
  | ok p =>
    simp only [htop, bind, Except.bind] at h
    cases h

theorem extractkeyBe_throws {cdr : List Byte} {what : SampleOrKey} {s : Stop}
    (h : r.extractkeyBe cdr what = .error s) : ∃ e, s = .throws e := r.keyBytes_throws cdr what (host != .big) h

/-- Extraction returns a key or throws, and bytes behind the stream do not change the key. -/
theorem extractkey_any (cdr : List Byte) (what : SampleOrKey) :
    (∀ s, r.extractkey cdr what = .error s → ∃ e, s = .throws e) ∧
    ∀ key, r.extractkey cdr what = .ok key → ∀ more, r.extractkey (cdr ++ more) what = .ok key := by
  refine ⟨fun s h => r.keyBytes_throws cdr what false h,fun key h more => ?_⟩
  have hrobust := r.extractkeyTopLevel_robust what false (ByteVectorCursor.mk 0 [])
  obtain ⟨⟨dst,d⟩,htop,h⟩ := Outcome.bind_eq_ok h
  have hext := hrobust.extend _ _ _ more htop
  have hstart : (DeserializeCursor.start cdr).extend more = DeserializeCursor.start (cdr ++ more) := rfl
  rw [hstart] at hext
  simp only [extractkey, hext, bind, Except.bind]
  exact h

/-! ### Encodings -/

/-- The copies that extraction makes in a stream of the given sender. -/
def wholeFrom (host sender : Endian) : WholeCopies := if sender = host then cachedWhole else neverWhole

private theorem bswap_header (host sender : Endian) :
    readerWhole (((rtpsHeader sender).getD 1 0 == 0) == (host == .little)) = wholeFrom host sender := by
  cases host <;> cases sender <;> rfl

/-- A key that was written, with whatever copies of whole elements its writer and this reader
take, is taken over. -/
theorem extractkey_written (hk : root.hasKeys = true) (sender : Endian) {v : Value} (hv : root.toValueType.Has v)
    (hf : (root.toValueType.view (wholeFrom host sender) .key v 0).Fits) :
    r.extractkey (rtpsHeader sender ++ (root.toValueType.view (wholeFrom host sender) .key v 0).encode sender 0) .key =
      .ok (rtpsHeader host ++ (root.toValueType.view (wholeFrom host sender) .key v 0).encode host 0) := by
  obtain ⟨c,c',hheader,hoff,hbody⟩ := reads_body (rtpsHeader sender)
    ((root.toValueType.view (wholeFrom host sender) .key v 0).encode sender 0) [] rfl
  rw [List.append_nil] at hheader
  have hfits : (root.toValueType.view (readerWhole (((rtpsHeader sender).getD 1 0 == 0) == (host == .little))) .key v
      (c.rebase 4).offset).Fits := by
    rw [bswap_header, hoff]
    exact hf
  have hreads : Reads (c.rebase 4) ((root.toValueType.view
      (readerWhole (((rtpsHeader sender).getD 1 0 == 0) == (host == .little))) .key v (c.rebase 4).offset).encode
        (streamEndian host (((rtpsHeader sender).getD 1 0 == 0) == (host == .little))) (c.rebase 4).offset) c' := by
    rw [streamEndian_header, bswap_header, hoff]
    exact hbody
  have hstart : offset (rebase (putBytes (ByteVectorCursor.mk 0 []) (rtpsHeader host)) 4) = (c.rebase 4).offset := hoff.symm
  have hkey := extractkey_view host (((rtpsHeader sender).getD 1 0 == 0) == (host == .little)) root.toValueType
    root.wellFormed r.answersExactly hv hfits hstart hreads
  rw [bswap_header, hoff] at hkey
  have hdst : [0,if host = .little then (1 : Byte) else 0,0,0] = rtpsHeader host := rfl
  simp only [extractkey, extractkeyTopLevel, extractkeyBehindHeader, hk, Bool.not_true, Bool.false_eq_true, if_false,
    hheader, bind, Except.bind, header_accepted, reduceCtorEq, false_and, if_true, hdst]
  rw [hkey]
  rfl

end CDRReader

namespace CDRReader
variable {host : Endian} {root : StructValueType} (r : CDRReader host root .sample)

/-- The key of a stream that holds an encoded sample, or an encoded key that was written
without copies of whole elements. -/
theorem extractkey_stream (hk : root.hasKeys = true) (what : SampleOrKey) (sender : Endian) {v : Value}
    (hv : root.toValueType.Has v) (hf : (root.toValueType.project what v).Fits)
    (hw : Walkable what (root.toValueType.ExtractFree (wholeFrom host sender) what v 0)) (rest : List Byte) :
    r.extractkey (rtpsHeader sender ++ ((root.toValueType.project what v).encode sender 0 ++ rest)) what =
      .ok (rtpsHeader host ++ root.toValueType.keyBytes host what (wholeFrom host sender) v 0 0) := by
  obtain ⟨c,c',hheader,hoff,hbody⟩ :=
    reads_body (rtpsHeader sender) ((root.toValueType.project what v).encode sender 0) rest rfl
  have hreads : Reads (c.rebase 4) ((root.toValueType.project what v).encode
      (streamEndian host (((rtpsHeader sender).getD 1 0 == 0) == (host == .little))) (c.rebase 4).offset) c' := by
    rw [streamEndian_header, hoff]
    exact hbody
  have hwalk : Walkable what (root.toValueType.ExtractFree
      (readerWhole (((rtpsHeader sender).getD 1 0 == 0) == (host == .little))) what v (c.rebase 4).offset) := by
    rw [bswap_header, hoff]
    exact hw
  have hlevel : Level what (c.rebase 4).offset
      (offset (rebase (putBytes (ByteVectorCursor.mk 0 []) (rtpsHeader host)) 4)) := fun _ => hoff
  have hkey := extractkey_of_encode host (((rtpsHeader sender).getD 1 0 == 0) == (host == .little)) what
    root.toValueType root.wellFormed r.answersExactly hv hf hwalk hlevel hreads
  rw [bswap_header, hoff] at hkey
  have hmode : (if what = .key then ExtractKeyMode.key else .sample) = ExtractKeyMode.of what := rfl
  have hdst : [0,if host = .little then (1 : Byte) else 0,0,0] = rtpsHeader host := rfl
  simp only [extractkey, extractkeyTopLevel, extractkeyBehindHeader, hk, Bool.not_true, Bool.false_eq_true, if_false,
    hheader, bind, Except.bind, header_accepted, reduceCtorEq, and_false, hmode, hdst]
  rw [hkey]
  rfl

end CDRReader
end RmwCyclonedds
