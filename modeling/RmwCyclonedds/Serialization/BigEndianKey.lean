import RmwCyclonedds.Serialization.KeyReader

/-! Extraction of a key in the byte order that is not the host's. -/
namespace RmwCyclonedds
open Library DeserializeCursor WriteCursor

/-- The wide character with its two bytes exchanged. -/
def swapUnit (u : UInt16) : UInt16 := UInt16.ofNat (Endian.big.decode (Endian.little.encode 2 u.toNat))

theorem encode_swapUnit (e : Endian) (u : UInt16) : e.opposite.encode 2 (swapUnit u).toNat = e.encode 2 u.toNat := by
  have hlen := Endian.little.encode_length 2 u.toNat
  have hlt := Endian.big.decode_lt (Endian.little.encode 2 u.toNat)
  rw [hlen] at hlt
  have hbig : Endian.big.encode 2 (swapUnit u).toNat = Endian.little.encode 2 u.toNat := by
    have hre := Endian.big.encode_decode (Endian.little.encode 2 u.toNat)
    rw [hlen] at hre
    rw [swapUnit, UInt16.toNat_ofNat_of_lt' hlt, hre]
  cases e with
  | little => exact hbig
  | big =>
    have hrev := congrArg List.reverse hbig
    rw [Endian.encode_reverse, Endian.encode_reverse] at hrev
    exact hrev

theorem encodeUnits_swapUnit (e : Endian) (us : List UInt16) :
    Value.encodeUnits e.opposite (us.map swapUnit) = Value.encodeUnits e us := by
  induction us with
  | nil => rfl
  | cons u us ih =>
    rw [Value.encodeUnits, Value.encodeUnits] at ih ⊢
    rw [List.map_cons, List.flatMap_cons, List.flatMap_cons, encode_swapUnit, ih]

mutual
/-- The value with the bytes of every wide character exchanged. -/
def swapUnits : Value → Value
  | .u16string us => .u16string (us.map swapUnit)
  | .struct vs => .struct (swapUnitsAll vs)
  | .array vs => .array (swapUnitsAll vs)
  | .sequence vs => .sequence (swapUnitsAll vs)
  | v => v

def swapUnitsAll : List Value → List Value
  | [] => []
  | v :: vs => swapUnits v :: swapUnitsAll vs
end

theorem swapUnitsAll_length (vs : List Value) : (swapUnitsAll vs).length = vs.length := by
  induction vs with
  | nil => rfl
  | cons v vs ih => rw [swapUnitsAll, List.length_cons, List.length_cons, ih]

theorem swapUnitsAll_boolValue (bits : List Bool) : swapUnitsAll (bits.map boolValue) = bits.map boolValue := by
  induction bits with
  | nil => rfl
  | cons b bits ih =>
    rw [List.map_cons, swapUnitsAll, ih]
    rfl

section
variable {σ : Type} [WriteCursor σ] [LawfulWriteCursor σ] (host : Endian) {lookup : Lookup} (bswapSrc : Bool)
  (what : SampleOrKey)
open LawfulWriteCursor

private theorem putSize_opposite (size : Nat) (dst : σ) :
    putSize host true size dst = putBytes dst (Value.encodeU32 host.opposite size (offset dst)) := by
  have hswap := bswapN_eq_reverse host (.inr (.inr (.inl rfl))) _ (host.encode_length 4 size)
  rw [host.encode_reverse] at hswap
  rw [putSize, align_eq, putBytes_append]
  simp only [swapped, if_true, hswap]
  rfl

/-- Whether the source is swapped or not, the bytes come out in the order asked for. -/
private theorem swap_opposite {n : Nat} (hn : n = 1 ∨ n = 2 ∨ n = 4 ∨ n = 8) (k : Nat) :
    (if bswapSrc != true then bswapN host n ((streamEndian host bswapSrc).encode n k)
      else (streamEndian host bswapSrc).encode n k) = host.opposite.encode n k := by
  cases bswapSrc with
  | true => rfl
  | false =>
    have hswap := bswapN_eq_reverse host hn _ (host.encode_length n k)
    rw [host.encode_reverse] at hswap
    exact hswap

section
variable {c c' : DeserializeCursor} {dst : σ}

private theorem extractkeyPrimitive_opposite {w : Width} {n : Nat}
    (h : Reads c ((Value.primitive w n).encode (streamEndian host bswapSrc) c.offset) c') :
    extractkeyPrimitive host bswapSrc true w.bytes (ExtractKeyMode.of what) c dst =
      .ok (putBytes dst ((swapUnits (.primitive w n)).encode host.opposite (offset dst)),c') := by
  obtain ⟨d,hd,hget⟩ := align_getBytes (Endian.encode_length _ _ _) h
  simp only [extractkeyPrimitive, hd, hget, bind, Except.bind, if_pos (ExtractKeyMode.of_ne_skip what),
    swap_opposite host bswapSrc (width_cases w), align_eq, putBytes_append, swapUnits, Value.encode]
  rfl

private theorem extractkeyU8String_opposite {cs : List Byte} (hf : cs.length + 1 < 2 ^ 32)
    (h : Reads c ((Value.u8string cs).encode (streamEndian host bswapSrc) c.offset) c') :
    extractkeyU8String host bswapSrc true (ExtractKeyMode.of what) c dst =
      .ok (putBytes dst ((swapUnits (.u8string cs)).encode host.opposite (offset dst)),c') := by
  obtain ⟨d,hsize,hchars⟩ := h.split
  have hget := getBytes_of_reads hchars
  rw [List.length_append, List.length_singleton] at hget
  simp [extractkeyU8String, deserializeU32_of_encode host bswapSrc hf hsize, hget, bind, Except.bind, pure,
    Except.pure, ExtractKeyMode.of_ne_skip what, putSize_opposite, putBytes_append, swapUnits, Value.encode]

/-- The units end up in the order of the host, whatever was asked for. -/
private theorem extractkeyU16String_opposite {us : List UInt16} (hf : 2 * us.length < 2 ^ 32)
    (h : Reads c ((Value.u16string us).encode (streamEndian host bswapSrc) c.offset) c') :
    extractkeyU16String host bswapSrc true (ExtractKeyMode.of what) c dst =
      .ok (putBytes dst ((swapUnits (.u16string us)).encode host.opposite (offset dst)),c') := by
  obtain ⟨d,hsize,hunits⟩ := h.split
  have hget := getBytes_of_reads hunits
  rw [Value.encodeUnits_length] at hget
  have heven : ¬2 * us.length % 2 ≠ 0 := by omega
  simp only [extractkeyU16String, deserializeU32_of_encode host bswapSrc hf hsize, hget, heven, if_false, bind,
    Except.bind, if_pos (ExtractKeyMode.of_ne_skip what), hostUnits, putSize_opposite, putBytes_append, swapUnits, Value.encode,
    List.length_map, encodeUnits_swapUnit]
  rfl

private theorem extractkeyBoolVector_opposite {bits : List Bool} (hf : (bits.map boolValue).length < 2 ^ 32)
    (h : Reads c ((Value.sequence (bits.map boolValue)).encode (streamEndian host bswapSrc) c.offset) c') :
    extractkeyBoolVector host bswapSrc true (ExtractKeyMode.of what) c dst =
      .ok (putBytes dst ((swapUnits (.sequence (bits.map boolValue))).encode host.opposite (offset dst)),c') := by
  obtain ⟨d,hcount,hbits⟩ := h.split
  rw [encodeAll_boolValue] at hbits
  have hget := getBytes_of_reads hbits
  rw [List.length_map] at hget hf hcount
  simp only [extractkeyBoolVector, deserializeU32_of_encode host bswapSrc hf hcount, hget, bind, Except.bind,
    if_pos (ExtractKeyMode.of_ne_skip what), putSize_opposite, putBytes_append, swapUnits, swapUnitsAll_boolValue, Value.encode,
    encodeAll_boolValue, List.length_map]
  rfl

end

section
variable {t : ValueType} {f : DeserializeCursor → σ → Outcome (σ × DeserializeCursor)}

/-- What one element adds; the rest of the array is assembled from it. -/
private def AddsOpposite (host : Endian) (bswapSrc : Bool) (what : SampleOrKey) (t : ValueType)
    (f : DeserializeCursor → σ → Outcome (σ × DeserializeCursor)) : Prop :=
  ∀ {v : Value} {c c' : DeserializeCursor} {dst : σ}, t.Has v → (t.project what v).Fits →
    Reads c ((t.project what v).encode (streamEndian host bswapSrc) c.offset) c' →
    f c dst = .ok (putBytes dst ((swapUnits (t.project .key v)).encode host.opposite (offset dst)),c')

private theorem extractkeyEach_opposite (hf : AddsOpposite host bswapSrc what t f) : ∀ {vs : List Value}
    {c c' : DeserializeCursor} {dst : σ}, (∀ v ∈ vs, t.Has v) → Value.FitsAll (vs.map fun v => t.project what v) →
      Reads c (Value.encodeAll (streamEndian host bswapSrc) (vs.map fun v => t.project what v) c.offset) c' →
      extractkeyEach f vs.length c dst = .ok (putBytes dst
        (Value.encodeAll host.opposite (swapUnitsAll (vs.map fun v => t.project .key v)) (offset dst)),c')
  | [], c, c', dst, _, _, h => by
    obtain ⟨_,rfl⟩ := (Reads.refl c).bytes_unique h rfl
    exact congrArg (fun x => Except.ok (x,c)) (putBytes_nil dst).symm
  | v :: vs, c, c', dst, hv, hfits, h => by
    obtain ⟨d,hd,hhead,htail⟩ := reads_cons h
    have hone : f c dst =
        .ok (putBytes dst ((swapUnits (t.project .key v)).encode host.opposite (offset dst)),d) :=
      hf (hv v List.mem_cons_self) hfits.1 hhead
    have hrest : ∀ dst : σ, extractkeyEach f vs.length d dst = .ok (putBytes dst
        (Value.encodeAll host.opposite (swapUnitsAll (vs.map fun v => t.project .key v)) (offset dst)),c') := fun dst =>
      extractkeyEach_opposite hf (fun w hw => hv w (List.mem_cons_of_mem v hw)) hfits.2 htail
    simp only [List.length_cons, extractkeyEach, hone, bind, Except.bind, hrest, List.map_cons, swapUnitsAll,
      Value.encodeAll, offset_putBytes, putBytes_append]

/-- With swapping no element is copied. -/
private theorem extractkeyMany_opposite (hs : t.Sized) (hf : AddsOpposite host bswapSrc what t f) {vs : List Value}
    {c c' : DeserializeCursor} {dst : σ} (hv : ∀ v ∈ vs, t.Has v)
    (hfits : Value.FitsAll (vs.map fun v => t.project what v))
    (h : Reads c (Value.encodeAll (streamEndian host bswapSrc) (vs.map fun v => t.project what v) c.offset) c') :
    extractkeyMany lookup bswapSrc true f t (ExtractKeyMode.of what) vs.length c dst = .ok (putBytes dst
      (Value.encodeAll host.opposite (swapUnitsAll (vs.map fun v => t.project .key v)) (offset dst)),c') := by
  have heach : extractkeyEach f vs.length c dst = .ok (putBytes dst
      (Value.encodeAll host.opposite (swapUnitsAll (vs.map fun v => t.project .key v)) (offset dst)),c') :=
    extractkeyEach_opposite host bswapSrc what hf hv hfits h
  rw [← heach]
  match vs with
  | [] => rfl
  | [v] =>
    obtain ⟨d,hd,hhead,htail⟩ := reads_cons h
    have hone : f c dst = .ok (_,d) := hf (hv v List.mem_cons_self) hfits.1 hhead
    simp only [extractkeyMany, extractkeyEach, List.length_cons, List.length_nil, hone, bind, Except.bind]
    rfl
  | v :: u :: us =>
    obtain ⟨d,hd,hhead,htail⟩ := reads_cons h
    have hone : f c dst = .ok (_,d) := hf (hv v List.mem_cons_self) hfits.1 hhead
    rw [List.length_cons, extractkeyEach]
    simp only [extractkeyMany, bind, Except.bind, ValueType.sizeofType_of_sized hs, Bool.or_true, if_true, hone]
    rfl

end

mutual
/-- Extraction in the opposite order adds the key members, encoded in that order, except for
wide characters, which keep the order of the host. -/
theorem extractkey_opposite : ∀ (t : ValueType), t.WellFormed → t.Everywhere (AnswersExactly lookup) →
    ∀ {v : Value} {c c' : DeserializeCursor} {dst : σ}, t.Has v → (t.project what v).Fits →
      Reads c ((t.project what v).encode (streamEndian host bswapSrc) c.offset) c' →
      extractkey host lookup bswapSrc true t (ExtractKeyMode.of what) c dst =
        .ok (putBytes dst ((swapUnits (t.project .key v)).encode host.opposite (offset dst)),c')
  | .primitive k, _, _, _, c, c', dst, hv, hf, h => by
    obtain ⟨n,hn,rfl⟩ := hv
    rw [extractkey, extractkeyAny_overload]
    exact extractkeyPrimitive_opposite host bswapSrc what h
  | .u8string s b, _, _, _, c, c', dst, hv, hf, h => by
    obtain ⟨cs,rfl⟩ := hv
    rw [extractkey, extractkeyAny_overload]
    exact extractkeyU8String_opposite host bswapSrc what hf h
  | .u16string s b, _, _, _, c, c', dst, hv, hf, h => by
    obtain ⟨us,rfl⟩ := hv
    rw [extractkey, extractkeyAny_overload]
    exact extractkeyU16String_opposite host bswapSrc what hf h
  | .struct s ms, hwf, hl, _, c, c', dst, hv, hf, h => by
    obtain ⟨vs,rfl,hvs⟩ := hv
    rw [extractkey, extractkeyAny_overload]
    rw [ValueType.project, allFields_eq_or] at hf h
    rw [ValueType.project, swapUnits, allFields_key]
    exact extractkeyMembers_opposite (!ms.hasKeys) ms hwf hl.2 hvs hf h
  | .array t n, hwf, hl, _, c, c', dst, hv, hf, h => by
    obtain ⟨vs,rfl,rfl,hvs⟩ := hv
    rw [extractkey, extractkeyAny_overload]
    exact extractkeyMany_opposite host bswapSrc what hwf.1
      (fun hv hf h => extractkey_opposite t hwf.2 hl.2 hv hf h) hvs hf h
  | .spanSequence k t b, hwf, hl, _, c, c', dst, hv, hf, h => by
    obtain ⟨vs,rfl,hvs⟩ := hv
    obtain ⟨d,hcount,helems⟩ := h.split
    have hd : d.offset = alignUp 4 c.offset + 4 := by rw [hcount.offset_eq, Value.encodeU32_length]
    have hn := hf.1
    rw [List.length_map] at hcount hn
    rw [← hd] at helems
    have hput : offset (putSize host true vs.length dst) = alignUp 4 (offset dst) + 4 := by
      rw [putSize_opposite, offset_putBytes, Value.encodeU32_length]
    have hmany : ∀ dst : σ, extractkeyMany lookup bswapSrc true (fun src dst => extractkey host lookup bswapSrc true t
        (ExtractKeyMode.of what) src dst) t (ExtractKeyMode.of what) vs.length d dst = _ := fun dst =>
      extractkeyMany_opposite host bswapSrc what hwf.1
        (fun hv hf h => extractkey_opposite t hwf.2.1 hl.2 hv hf h) hvs hf.2 helems
    rw [extractkey, extractkeyAny_overload]
    simp only [deserializeU32_of_encode host bswapSrc hn hcount, bind, Except.bind, if_pos (ExtractKeyMode.of_ne_skip what)]
    rw [hmany, hput, putSize_opposite, putBytes_append, ValueType.project, swapUnits, Value.encode,
      swapUnitsAll_length, List.length_map]
  | .boolVector s b, _, _, _, c, c', dst, hv, hf, h => by
    obtain ⟨bits,rfl⟩ := hv
    rw [extractkey, extractkeyAny_overload]
    exact extractkeyBoolVector_opposite host bswapSrc what hf.1 h

theorem extractkeyMembers_opposite (all : Bool) : ∀ (ms : Members), ms.WellFormed →
    ms.Everywhere (AnswersExactly lookup) → ∀ {vs : List Value} {c c' : DeserializeCursor} {dst : σ}, ms.Have vs →
      Value.FitsAll (ms.project what (what == .sample || all) vs) →
      Reads c (Value.encodeAll (streamEndian host bswapSrc) (ms.project what (what == .sample || all) vs) c.offset) c' →
      extractkeyMembers host lookup bswapSrc true all ms (ExtractKeyMode.of what) c dst =
        .ok (putBytes dst (Value.encodeAll host.opposite (swapUnitsAll (ms.project .key all vs)) (offset dst)),c')
  | .nil, _, _, _, c, c', dst, hv, _, h => by
    obtain ⟨_,rfl⟩ := (Reads.refl c).bytes_unique h rfl
    exact congrArg (fun x => Except.ok (x,c)) (putBytes_nil dst).symm
  | .cons _ isKey t ms, hwf, hl, _, c, c', dst, hv, hf, h => by
    obtain ⟨v,vs,rfl,hv,hvs⟩ := hv
    cases hchosen : all || isKey with
    | true =>
      obtain ⟨hpart,hmode⟩ := member_chosen what hchosen
      simp only [Members.project, hpart, if_true] at hf h
      obtain ⟨d,hd,hhead,htail⟩ := reads_cons h
      have hone : extractkey host lookup bswapSrc true t (ExtractKeyMode.of what) c dst = .ok (putBytes dst
          ((swapUnits (t.project .key v)).encode host.opposite (offset dst)),d) :=
        extractkey_opposite t hwf.1 hl.1 hv hf.1 hhead
      have hrest : ∀ dst : σ, extractkeyMembers host lookup bswapSrc true all ms (ExtractKeyMode.of what) d dst = _ :=
        fun dst => extractkeyMembers_opposite all ms hwf.2 hl.2 hvs hf.2 htail
      simp only [extractkeyMembers, hmode, hone, bind, Except.bind, hrest, Members.project, hchosen, if_true,
        swapUnitsAll, Value.encodeAll, offset_putBytes, putBytes_append]
    | false =>
      by_cases hsample : what = .sample
      · obtain ⟨hpart,hmode⟩ := member_skipped hchosen hsample
        have hsame : t.project what v = v := by
          rw [hsample]
          exact ValueType.project_sample hv
        simp only [Members.project, hpart, if_true, hsame] at hf h
        obtain ⟨d,hd,hhead,htail⟩ := reads_cons h
        have hone : extractkey host lookup bswapSrc true t .skip c dst = .ok (dst,d) :=
          extractkey_skip host bswapSrc true t hwf.1 hl.1 hv hf.1 hhead
        have hrest : extractkeyMembers host lookup bswapSrc true all ms (ExtractKeyMode.of what) d dst = _ :=
          extractkeyMembers_opposite all ms hwf.2 hl.2 hvs hf.2 htail
        simp only [extractkeyMembers, hmode, hone, bind, Except.bind, hrest, Members.project, hchosen,
          Bool.false_eq_true, if_false]
      · obtain ⟨hpart,hmode⟩ := member_absent hchosen hsample
        simp only [Members.project, hpart, Bool.false_eq_true, if_false] at hf h
        have hrest : extractkeyMembers host lookup bswapSrc true all ms (ExtractKeyMode.of what) c dst = _ :=
          extractkeyMembers_opposite all ms hwf.2 hl.2 hvs hf h
        simp only [extractkeyMembers, hmode, bind, Except.bind, pure, Except.pure, Members.project, hchosen,
          Bool.false_eq_true, if_false]
        exact hrest
end

end

namespace CDRReader

/-- On a big-endian host no order is exchanged for the key. -/
theorem extractkeyBe_big {root : StructValueType} {variant : SampleOrRequest} (r : CDRReader .big root variant)
    (cdr : List Byte) (what : SampleOrKey) : r.extractkeyBe cdr what = r.extractkey cdr what := rfl

/-- What a little-endian host makes of an encoded sample or key. -/
theorem extractkeyBe_little {root : StructValueType} (r : CDRReader .little root .sample) (hk : root.hasKeys = true)
    (what : SampleOrKey) (sender : Endian) {v : Value} (hv : root.toValueType.Has v)
    (hf : (root.toValueType.project what v).Fits) (rest : List Byte) :
    r.extractkeyBe (rtpsHeader sender ++ ((root.toValueType.project what v).encode sender 0 ++ rest)) what =
      .ok (rtpsHeader .big ++ (swapUnits (root.toValueType.project .key v)).encode .big 0) := by
  obtain ⟨c,c',hheader,hoff,hbody⟩ :=
    reads_body (rtpsHeader sender) ((root.toValueType.project what v).encode sender 0) rest rfl
  have hreads : Reads (c.rebase 4) ((root.toValueType.project what v).encode
      (streamEndian .little (((rtpsHeader sender).getD 1 0 == 0) == (Endian.little == .little))) (c.rebase 4).offset) c' := by
    rw [streamEndian_header, hoff]
    exact hbody
  have hkey : ∀ dst : ByteVectorCursor, RmwCyclonedds.extractkey .little r.tsc.lookupTriviallySerialized
      (((rtpsHeader sender).getD 1 0 == 0) == (Endian.little == .little)) true root.toValueType (ExtractKeyMode.of what)
      (c.rebase 4) dst = .ok (putBytes dst
        ((swapUnits (root.toValueType.project .key v)).encode .big (offset dst)),c') := fun dst =>
    extractkey_opposite .little (((rtpsHeader sender).getD 1 0 == 0) == (Endian.little == .little)) what
      root.toValueType root.wellFormed r.answersExactly hv hf hreads
  have hmode : (if what = .key then ExtractKeyMode.key else .sample) = ExtractKeyMode.of what := rfl
  simp only [extractkeyBe, extractkeyTopLevel, extractkeyBehindHeader, hk, Bool.not_true, Bool.false_eq_true, if_false,
    hheader, bind, Except.bind, header_accepted, reduceCtorEq, and_false, hmode]
  rw [show (Endian.little != Endian.big) = true from rfl, hkey]
  rfl

end CDRReader
end RmwCyclonedds
