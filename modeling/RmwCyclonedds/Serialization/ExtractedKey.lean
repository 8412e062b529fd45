import RmwCyclonedds.Serialization.ExtractKey

/-! What extraction adds to the key when it is given an encoding. -/
namespace RmwCyclonedds
open Library DeserializeCursor WriteCursor

theorem readerWhole_trivialMany (bswapSrc : Bool) {off : Nat} {t : ValueType} (h : readerWhole bswapSrc off t = true) :
    t.trivialMany off = true := by
  cases bswapSrc with
  | true => cases h
  | false => exact h

section
variable {σ : Type} [WriteCursor σ] (host : Endian) {lookup : Lookup} (bswapSrc : Bool)

/-! ### Several elements -/

section
variable {t : ValueType} {f : DeserializeCursor → σ → Outcome (σ × DeserializeCursor)} (bswapDst : Bool)
  (mode : ExtractKeyMode) {c d : DeserializeCursor} {dst dst' : σ}

private theorem extractkeyMany_one (hone : f c dst = .ok (dst',d)) :
    extractkeyMany lookup bswapSrc bswapDst f t mode 1 c dst = .ok (dst',d) := by
  simp only [extractkeyMany, hone, bind, Except.bind]
  rfl

/-- The elements behind the first are copied at once or extracted one by one. -/
theorem extractkeyMany_several (hs : t.Sized) (hl : AnswersExactly lookup t) (hone : f c dst = .ok (dst',d))
    {n : Nat} (hn : n ≠ 0) : extractkeyMany lookup bswapSrc bswapDst f t mode (n + 1) c dst =
      if readerWhole (bswapSrc || bswapDst) d.offset t then do
        let (srcdata,src) ← d.getBytes (n * t.size)
        return (if mode ≠ .skip then putBytes dst' srcdata else dst',src)
      else extractkeyEach f n d dst' := by
  have hbulk := readerWhole_lookup hs hl (bswapSrc || bswapDst) d.offset
  simp only [extractkeyMany, Nat.succ_ne_zero, if_false, hone, bind, Except.bind, Nat.add_sub_cancel, hn,
    ValueType.sizeofType_of_sized hs, hbulk]

end

/-! ### Members that are skipped -/

section
variable {t : ValueType} {f : DeserializeCursor → σ → Outcome (σ × DeserializeCursor)}

/-- What one element does; the rest of the array is assembled from it. -/
private def Skips (e : Endian) (t : ValueType) (f : DeserializeCursor → σ → Outcome (σ × DeserializeCursor)) : Prop :=
  ∀ {v : Value} {c c' : DeserializeCursor} {dst : σ}, t.Has v → v.Fits → Reads c (v.encode e c.offset) c' →
    f c dst = .ok (dst,c')

omit [WriteCursor σ] in
private theorem extractkeyEach_skip {e : Endian} (hf : Skips e t f) : ∀ {vs : List Value} {c c' : DeserializeCursor}
    {dst : σ}, (∀ v ∈ vs, t.Has v) → Value.FitsAll vs → Reads c (Value.encodeAll e vs c.offset) c' →
      extractkeyEach f vs.length c dst = .ok (dst,c')
  | [], c, c', dst, _, _, h => by
    obtain ⟨_,rfl⟩ := (Reads.refl c).bytes_unique h rfl
    rfl
  | v :: vs, c, c', dst, hv, hfits, h => by
    obtain ⟨d,hoff,hhead,htail⟩ := reads_cons h
    have hone : f c dst = .ok (dst,d) := hf (hv v List.mem_cons_self) hfits.1 hhead
    have hrest : extractkeyEach f vs.length d dst = .ok (dst,c') :=
      extractkeyEach_skip hf (fun w hw => hv w (List.mem_cons_of_mem v hw)) hfits.2 htail
    simp only [List.length_cons, extractkeyEach, hone, bind, Except.bind, hrest]

private theorem extractkeyMany_skip (bswapDst : Bool) (hs : t.Sized) (hl : AnswersExactly lookup t)
    (hf : Skips (streamEndian host bswapSrc) t f) {vs : List Value} {c c' : DeserializeCursor} {dst : σ}
    (hv : ∀ v ∈ vs, t.Has v) (hfits : Value.FitsAll vs)
    (h : Reads c (Value.encodeAll (streamEndian host bswapSrc) vs c.offset) c') :
    extractkeyMany lookup bswapSrc bswapDst f t .skip vs.length c dst = .ok (dst,c') := by
  match vs with
  | [] =>
    obtain ⟨_,rfl⟩ := (Reads.refl c).bytes_unique h rfl
    rfl
  | [v] =>
    obtain ⟨d,hoff,hhead,htail⟩ := reads_cons h
    obtain ⟨_,rfl⟩ := (Reads.refl d).bytes_unique htail rfl
    have hone : f c dst = .ok (dst,d) := hf (hv v List.mem_cons_self) hfits.1 hhead
    exact extractkeyMany_one bswapSrc bswapDst .skip hone
  | v :: u :: us =>
    obtain ⟨d,hoff,hhead,htail⟩ := reads_cons h
    have hone : f c dst = .ok (dst,d) := hf (hv v List.mem_cons_self) hfits.1 hhead
    have hvs : ∀ w ∈ u :: us, t.Has w := fun w hw => hv w (List.mem_cons_of_mem v hw)
    have hne : (u :: us).length ≠ 0 := Nat.succ_ne_zero _
    rw [List.length_cons, extractkeyMany_several bswapSrc bswapDst .skip hs hl hone hne]
    cases hw : readerWhole (bswapSrc || bswapDst) d.offset t with
    | true =>
      have htriv := readerWhole_trivialMany (bswapSrc || bswapDst) hw
      have hget := getBytes_of_reads htail
      rw [encodeAll_length_of_trivialMany _ htriv hvs] at hget
      rw [if_pos rfl, hget]
      rfl
    | false => exact extractkeyEach_skip hf hvs hfits.2 htail

end

section
variable {σ : Type} {t : ValueType} (e : Endian)

private theorem extractkeyAny_skip (hl : AnswersExactly lookup t) {v : Value} {c c' : DeserializeCursor} {dst : σ}
    (hv : t.Has v) (h : Reads c (v.encode e c.offset) c') {overload : Outcome (σ × DeserializeCursor)}
    (ho : overload = .ok (dst,c')) : extractkeyAny lookup t .skip c dst overload = .ok (dst,c') := by
  cases ht : t.trivial c.offset with
  | false =>
    simp only [extractkeyAny, if_true, hl c.offset, ht, bind, Except.bind]
    exact ho
  | true =>
    have hadvance := advance_of_reads h
    rw [encode_length_of_trivial e ht hv] at hadvance
    simp only [extractkeyAny, if_true, hl c.offset, ht, bind, Except.bind,
      ValueType.sizeofType_of_sized (ValueType.sized_of_trivial ht), hadvance]
    rfl

end

variable (bswapDst : Bool)

mutual
/-- Skipping passes over the encoding and leaves the key alone. -/
theorem extractkey_skip : ∀ (t : ValueType), t.WellFormed → t.Everywhere (AnswersExactly lookup) →
    ∀ {v : Value} {c c' : DeserializeCursor} {dst : σ}, t.Has v → v.Fits →
      Reads c (v.encode (streamEndian host bswapSrc) c.offset) c' →
      extractkey host lookup bswapSrc bswapDst t .skip c dst = .ok (dst,c')
  | .primitive k, _, hl, _, c, c', dst, hv, hf, h => by
    refine extractkeyAny_skip _ hl hv h ?_
    obtain ⟨n,hn,rfl⟩ := hv
    obtain ⟨d,hd,hget⟩ := align_getBytes (Endian.encode_length _ _ _) h
    simp only [extractkeyPrimitive, hd, hget, bind, Except.bind]
    rfl
  | .u8string s b, _, hl, _, c, c', dst, hv, hf, h => by
    refine extractkeyAny_skip _ hl hv h ?_
    obtain ⟨cs,rfl⟩ := hv
    obtain ⟨d,hsize,hchars⟩ := h.split
    have hget := getBytes_of_reads hchars
    rw [List.length_append, List.length_singleton] at hget
    simp [extractkeyU8String, deserializeU32_of_encode host bswapSrc hf hsize, hget, bind, Except.bind, pure,
      Except.pure]
  | .u16string s b, _, hl, _, c, c', dst, hv, hf, h => by
    refine extractkeyAny_skip _ hl hv h ?_
    obtain ⟨us,rfl⟩ := hv
    obtain ⟨d,hsize,hunits⟩ := h.split
    have hget := getBytes_of_reads hunits
    rw [Value.encodeUnits_length] at hget
    have heven : ¬2 * us.length % 2 ≠ 0 := by omega
    simp only [extractkeyU16String, deserializeU32_of_encode host bswapSrc hf hsize, hget, heven, if_false, bind,
      Except.bind]
    rfl
  | .struct s ms, hw, hl, _, c, c', dst, hv, hf, h => by
    refine extractkeyAny_skip _ hl.1 hv h ?_
    obtain ⟨vs,rfl,hvs⟩ := hv
    exact extractkeyMembers_skip (!ms.hasKeys) ms hw hl.2 hvs hf h
  | .array t n, hw, hl, _, c, c', dst, hv, hf, h => by
    refine extractkeyAny_skip _ hl.1 hv h ?_
    obtain ⟨vs,rfl,rfl,hvs⟩ := hv
    exact extractkeyMany_skip host bswapSrc bswapDst hw.1 hl.2.here
      (fun hv hf h => extractkey_skip t hw.2 hl.2 hv hf h) hvs hf h
  | .spanSequence k t b, hw, hl, _, c, c', dst, hv, hf, h => by
    refine extractkeyAny_skip _ hl.1 hv h ?_
    obtain ⟨vs,rfl,hvs⟩ := hv
    obtain ⟨d,hcount,helems⟩ := h.split
    have hoff : d.offset = alignUp 4 c.offset + 4 := by rw [hcount.offset_eq, Value.encodeU32_length]
    rw [← hoff] at helems
    simp only [deserializeU32_of_encode host bswapSrc hf.1 hcount, bind, Except.bind]
    exact extractkeyMany_skip host bswapSrc bswapDst hw.1 hl.2.here
      (fun hv hf h => extractkey_skip t hw.2.1 hl.2 hv hf h) hvs hf.2 helems
  | .boolVector s b, _, hl, _, c, c', dst, hv, hf, h => by
    refine extractkeyAny_skip _ hl hv h ?_
    obtain ⟨bits,rfl⟩ := hv
    obtain ⟨d,hcount,hbits⟩ := h.split
    rw [encodeAll_boolValue] at hbits
    have hget := getBytes_of_reads hbits
    have hn := hf.1
    rw [List.length_map] at hget hcount hn
    simp only [extractkeyBoolVector, deserializeU32_of_encode host bswapSrc hn hcount, hget, bind, Except.bind]
    rfl

theorem extractkeyMembers_skip (all : Bool) : ∀ (ms : Members), ms.WellFormed → ms.Everywhere (AnswersExactly lookup) →
    ∀ {vs : List Value} {c c' : DeserializeCursor} {dst : σ}, ms.Have vs → Value.FitsAll vs →
      Reads c (Value.encodeAll (streamEndian host bswapSrc) vs c.offset) c' →
      extractkeyMembers host lookup bswapSrc bswapDst all ms .skip c dst = .ok (dst,c')
  | .nil, _, _, _, c, c', _, hv, _, h => by
    rw [hv] at h
    obtain ⟨_,rfl⟩ := (Reads.refl c).bytes_unique h rfl
    rfl
  | .cons _ isKey t ms, hw, hl, _, c, c', dst, hv, hf, h => by
    obtain ⟨v,vs,rfl,hv,hvs⟩ := hv
    obtain ⟨d,hoff,hhead,htail⟩ := reads_cons h
    have hone : extractkey host lookup bswapSrc bswapDst t .skip c dst = .ok (dst,d) :=
      extractkey_skip t hw.1 hl.1 hv hf.1 hhead
    have hrest : extractkeyMembers host lookup bswapSrc bswapDst all ms .skip d dst = .ok (dst,c') :=
      extractkeyMembers_skip all ms hw.2 hl.2 hvs hf.2 htail
    simp only [extractkeyMembers, memberMode, hone, bind, Except.bind]
    exact hrest
end

end

/-! ### Members that are taken -/

/-- The mode in which the root is extracted. -/
def ExtractKeyMode.of (what : SampleOrKey) : ExtractKeyMode := if what = .key then .key else .sample

theorem ExtractKeyMode.of_ne_skip (what : SampleOrKey) : ExtractKeyMode.of what ≠ .skip := by
  cases what <;> decide

theorem allFields_eq_or (what : SampleOrKey) (ms : Members) : allFields what ms = (what == .sample || !ms.hasKeys) := by
  cases what <;> rfl

/-- Where members are taken, the overload of the type decides. -/
theorem extractkeyAny_overload {σ : Type} {lookup : Lookup} (what : SampleOrKey) (t : ValueType) (c : DeserializeCursor)
    (dst : σ) (overload : Outcome (σ × DeserializeCursor)) :
    extractkeyAny lookup t (ExtractKeyMode.of what) c dst overload = overload := by
  simp only [extractkeyAny, if_neg (ExtractKeyMode.of_ne_skip what)]
  rfl

section
variable {what : SampleOrKey} {all isKey : Bool}

/-- A chosen member is there, in a key as in a sample, and is extracted in the mode of the whole. -/
theorem member_chosen (what : SampleOrKey) (h : (all || isKey) = true) : (what == .sample || all || isKey) = true ∧
    memberMode (ExtractKeyMode.of what) (isKey || all) = some (ExtractKeyMode.of what) := by
  rw [Bool.or_assoc, Bool.or_comm isKey, h]
  cases what <;> exact ⟨rfl,rfl⟩

/-- The other members of a sample are there and are skipped. -/
theorem member_skipped (h : (all || isKey) = false) (hsample : what = .sample) :
    (what == .sample || all || isKey) = true ∧ memberMode (ExtractKeyMode.of what) (isKey || all) = some .skip := by
  rw [Bool.or_comm isKey, h, hsample]
  exact ⟨rfl,rfl⟩

/-- The other members of a key are not there. -/
theorem member_absent (h : (all || isKey) = false) (hkey : what ≠ .sample) :
    (what == .sample || all || isKey) = false ∧ memberMode (ExtractKeyMode.of what) (isKey || all) = none := by
  rw [Bool.or_assoc, Bool.or_comm isKey, h]
  cases what with
  | sample => exact absurd rfl hkey
  | key => exact ⟨rfl,rfl⟩

end

section
variable {σ : Type} [WriteCursor σ] [LawfulWriteCursor σ] (host : Endian) {lookup : Lookup} (bswapSrc : Bool)
  (what : SampleOrKey)
open LawfulWriteCursor

private theorem putSize_eq (size : Nat) (dst : σ) :
    putSize host false size dst = putBytes dst (Value.encodeU32 host size (offset dst)) := by
  rw [putSize, align_eq, putBytes_append]
  rfl

theorem bswapUnits_encodeUnits : ∀ us : List UInt16,
    bswapUnits host (Value.encodeUnits host.opposite us) = Value.encodeUnits host us
  | [] => rfl
  | u :: us => by
    obtain ⟨a,b,hab⟩ := List.length_eq_two.mp (host.opposite.encode_length 2 u.toNat)
    have hswap := bswapN_eq_reverse host (.inr (.inl rfl)) [a,b] rfl
    rw [← hab, host.opposite.encode_reverse, Endian.opposite_opposite] at hswap
    have hcons : Value.encodeUnits host.opposite (u :: us) = a :: b :: Value.encodeUnits host.opposite us := by
      rw [Value.encodeUnits, List.flatMap_cons, hab]
      rfl
    rw [hcons, bswapUnits, ← hab, hswap, bswapUnits_encodeUnits us]
    rfl

/-- The units of a sender, in the order of the host. -/
theorem hostUnits (us : List UInt16) : (if bswapSrc then bswapUnits host (Value.encodeUnits (streamEndian host bswapSrc) us)
    else Value.encodeUnits (streamEndian host bswapSrc) us) = Value.encodeUnits host us := by
  cases bswapSrc with
  | true => exact bswapUnits_encodeUnits host us
  | false => rfl

/-- What the swap turns the bytes of a sender into. -/
private theorem swap_encode {n : Nat} (hn : n = 1 ∨ n = 2 ∨ n = 4 ∨ n = 8) (k : Nat) :
    (if bswapSrc != false then bswapN host n ((streamEndian host bswapSrc).encode n k)
      else (streamEndian host bswapSrc).encode n k) = host.encode n k := by
  cases bswapSrc with
  | false => rfl
  | true =>
    have hswap := bswapN_eq_reverse host hn _ (host.opposite.encode_length n k)
    rw [host.opposite.encode_reverse, Endian.opposite_opposite] at hswap
    exact hswap

section
variable {c c' : DeserializeCursor} {dst : σ}

private theorem extractkeyPrimitive_of_encode {w : Width} {n : Nat}
    (h : Reads c ((Value.primitive w n).encode (streamEndian host bswapSrc) c.offset) c') :
    extractkeyPrimitive host bswapSrc false w.bytes (ExtractKeyMode.of what) c dst =
      .ok (putBytes dst ((Value.primitive w n).encode host (offset dst)),c') := by
  obtain ⟨d,hd,hget⟩ := align_getBytes (Endian.encode_length _ _ _) h
  simp only [extractkeyPrimitive, hd, hget, bind, Except.bind, if_pos (ExtractKeyMode.of_ne_skip what),
    swap_encode host bswapSrc (width_cases w), align_eq, putBytes_append, Value.encode]
  rfl

private theorem extractkeyU8String_of_encode {cs : List Byte} (hf : cs.length + 1 < 2 ^ 32)
    (h : Reads c ((Value.u8string cs).encode (streamEndian host bswapSrc) c.offset) c') :
    extractkeyU8String host bswapSrc false (ExtractKeyMode.of what) c dst =
      .ok (putBytes dst ((Value.u8string cs).encode host (offset dst)),c') := by
  obtain ⟨d,hsize,hchars⟩ := h.split
  have hget := getBytes_of_reads hchars
  rw [List.length_append, List.length_singleton] at hget
  simp [extractkeyU8String, deserializeU32_of_encode host bswapSrc hf hsize, hget, bind, Except.bind, pure,
    Except.pure, ExtractKeyMode.of_ne_skip what, putSize_eq, putBytes_append, Value.encode]

private theorem extractkeyU16String_of_encode {us : List UInt16} (hf : 2 * us.length < 2 ^ 32)
    (h : Reads c ((Value.u16string us).encode (streamEndian host bswapSrc) c.offset) c') :
    extractkeyU16String host bswapSrc false (ExtractKeyMode.of what) c dst =
      .ok (putBytes dst ((Value.u16string us).encode host (offset dst)),c') := by
  obtain ⟨d,hsize,hunits⟩ := h.split
  have hget := getBytes_of_reads hunits
  rw [Value.encodeUnits_length] at hget
  have heven : ¬2 * us.length % 2 ≠ 0 := by omega
  simp only [extractkeyU16String, deserializeU32_of_encode host bswapSrc hf hsize, hget, heven, if_false, bind,
    Except.bind, if_pos (ExtractKeyMode.of_ne_skip what), hostUnits, putSize_eq, putBytes_append, Value.encode]
  rfl

private theorem extractkeyBoolVector_of_encode {bits : List Bool} (hf : (bits.map boolValue).length < 2 ^ 32)
    (h : Reads c ((Value.sequence (bits.map boolValue)).encode (streamEndian host bswapSrc) c.offset) c') :
    extractkeyBoolVector host bswapSrc false (ExtractKeyMode.of what) c dst =
      .ok (putBytes dst ((Value.sequence (bits.map boolValue)).encode host (offset dst)),c') := by
  obtain ⟨d,hcount,hbits⟩ := h.split
  rw [encodeAll_boolValue] at hbits
  have hget := getBytes_of_reads hbits
  rw [List.length_map] at hget hf hcount
  simp only [extractkeyBoolVector, deserializeU32_of_encode host bswapSrc hf hcount, hget, bind, Except.bind,
    if_pos (ExtractKeyMode.of_ne_skip what), putSize_eq, putBytes_append, Value.encode, encodeAll_boolValue, List.length_map]
  rfl

end

/-- A walk may copy elements whole in a sample; in a key that loses the place. -/
def Walkable (what : SampleOrKey) (free : Prop) : Prop := what = .sample ∨ free

section
variable {t : ValueType} {free : Value → Nat → Prop} {emit : Value → Nat → Nat → List Byte}
  {f : DeserializeCursor → σ → Outcome (σ × DeserializeCursor)}

/-- What one element adds; the rest of the array is assembled from it. -/
private structure Extracts (host : Endian) (bswapSrc : Bool) (what : SampleOrKey) (t : ValueType)
    (free : Value → Nat → Prop) (emit : Value → Nat → Nat → List Byte)
    (f : DeserializeCursor → σ → Outcome (σ × DeserializeCursor)) : Prop where
  takes : ∀ {v : Value} {c c' : DeserializeCursor} {dst : σ}, t.Has v → (t.project what v).Fits →
    Walkable what (free v c.offset) → Level what c.offset (offset dst) →
    Reads c ((t.project what v).encode (streamEndian host bswapSrc) c.offset) c' →
    f c dst = .ok (putBytes dst (emit v c.offset (offset dst)),c')
  next : ∀ {v : Value} {src dst : Nat}, t.Has v → Walkable what (free v src) → Level what src dst →
    sourceEnd what v (emit v src dst) src dst = (t.project what v).finish src

/-- Behind an element the walk is level again. -/
private theorem level_next {v w : Value} {bytes : List Byte} {src : Nat} {dst : σ} {d : DeserializeCursor}
    (hnext : sourceEnd what v bytes src (offset dst) = w.finish src) (hd : d.offset = w.finish src) :
    Level what d.offset (offset (putBytes dst bytes)) := by
  rw [hd, ← hnext, offset_putBytes]
  exact level_sourceEnd what v bytes src (offset dst)

omit [WriteCursor σ] [LawfulWriteCursor σ] in
/-- Elements that may be copied whole are written as they are. -/
private theorem map_project_whole {vs : List Value} (hv : ∀ v ∈ vs, t.Has v)
    (hk : what = .sample ∨ t.keepsAll .key = true) : (vs.map fun v => t.project what v) = vs := by
  refine (List.map_congr_left fun v hmem => ?_).trans (List.map_id _)
  rcases hk with rfl | hk
  · exact ValueType.project_sample (hv v hmem)
  · cases what with
    | sample => exact ValueType.project_sample (hv v hmem)
    | key => exact ValueType.project_keepsAll hk (hv v hmem)

private theorem extractkeyEach_of_encode (hf : Extracts host bswapSrc what t free emit f) : ∀ {vs : List Value}
    {c c' : DeserializeCursor} {dst : σ}, (∀ v ∈ vs, t.Has v) →
      Value.FitsAll (vs.map fun v => t.project what v) →
      Walkable what (freeEach free (fun v _ => t.project what v) vs c.offset) → Level what c.offset (offset dst) →
      Reads c (Value.encodeAll (streamEndian host bswapSrc) (vs.map fun v => t.project what v) c.offset) c' →
      extractkeyEach f vs.length c dst = .ok (putBytes dst (bytesEach what emit vs c.offset (offset dst)),c')
  | [], c, c', dst, _, _, _, _, h => by
    obtain ⟨_,rfl⟩ := (Reads.refl c).bytes_unique h rfl
    exact congrArg (fun x => Except.ok (x,c)) (putBytes_nil dst).symm
  | v :: vs, c, c', dst, hv, hfits, hw, hoff, h => by
    obtain ⟨d,hd,hhead,htail⟩ := reads_cons h
    have hhas := hv v List.mem_cons_self
    have hone := hf.takes hhas hfits.1 (hw.imp_right And.left) hoff hhead
    have hnext := hf.next hhas (hw.imp_right And.left) hoff
    have hwrest := hw.imp_right And.right
    rw [← hd] at hwrest
    have hrest := extractkeyEach_of_encode hf (fun w hw => hv w (List.mem_cons_of_mem v hw)) hfits.2 hwrest
      (level_next what hnext hd) htail
    simp only [List.length_cons, extractkeyEach, hone, bind, Except.bind, hrest, bytesEach, hnext, ← hd,
      offset_putBytes, putBytes_append]

private theorem extractkeyMany_of_encode (hs : t.Sized) (hl : AnswersExactly lookup t)
    (hf : Extracts host bswapSrc what t free emit f) {vs : List Value} {c c' : DeserializeCursor} {dst : σ}
    (hv : ∀ v ∈ vs, t.Has v) (hfits : Value.FitsAll (vs.map fun v => t.project what v))
    (hw : Walkable what (freeMany free (fun v _ => t.project what v) (fun o => readerWhole bswapSrc o t)
      (t.keepsAll .key) vs c.offset))
    (hoff : Level what c.offset (offset dst))
    (h : Reads c (Value.encodeAll (streamEndian host bswapSrc) (vs.map fun v => t.project what v) c.offset) c') :
    extractkeyMany lookup bswapSrc false f t (ExtractKeyMode.of what) vs.length c dst =
      .ok (putBytes dst (bytesMany host what emit (fun o => readerWhole bswapSrc o t) vs c.offset (offset dst)),c') := by
  match vs with
  | [] =>
    obtain ⟨_,rfl⟩ := (Reads.refl c).bytes_unique h rfl
    exact congrArg (fun x => Except.ok (x,c)) (putBytes_nil dst).symm
  | [v] =>
    obtain ⟨d,hd,hhead,htail⟩ := reads_cons h
    obtain ⟨_,rfl⟩ := (Reads.refl d).bytes_unique htail rfl
    have hone := hf.takes (hv v List.mem_cons_self) hfits.1 (hw.imp_right And.left) hoff hhead
    have hnil : Value.encodeAll host [] = fun _ => [] := rfl
    simp only [bytesMany, bytesEach, hnil, ite_self, List.append_nil]
    exact extractkeyMany_one bswapSrc false _ hone
  | v :: u :: us =>
    obtain ⟨d,hd,hhead,htail⟩ := reads_cons h
    have hhas := hv v List.mem_cons_self
    have hone := hf.takes hhas hfits.1 (hw.imp_right And.left) hoff hhead
    have hnext := hf.next hhas (hw.imp_right And.left) hoff
    have hvs : ∀ w ∈ u :: us, t.Has w := fun w hw => hv w (List.mem_cons_of_mem v hw)
    have hne : (u :: us).length ≠ 0 := Nat.succ_ne_zero _
    rw [List.length_cons, extractkeyMany_several bswapSrc false _ hs hl hone hne, Bool.or_false]
    simp only [bytesMany, hnext, ← hd]
    cases hwhole : readerWhole bswapSrc d.offset t with
    | true =>
      have hsrc := readerWhole_source host hwhole
      have hplain : (u :: us).map (fun v => t.project what v) = u :: us := by
        rw [hd] at hwhole
        apply map_project_whole what hvs
        exact hw.imp_right fun hfree => hfree.2.1 (List.cons_ne_nil u us) hwhole
      rw [hsrc.1, hplain] at htail
      have hget := getBytes_of_reads htail
      rw [encodeAll_length_of_trivialMany host hsrc.2 hvs] at hget
      simp only [hget, if_true, if_pos (ExtractKeyMode.of_ne_skip what), putBytes_append]
      rfl
    | false =>
      have hwrest : Walkable what (freeEach free (fun v _ => t.project what v) (u :: us) d.offset) := by
        refine hw.imp_right fun hfree => ?_
        rw [hd] at hwhole ⊢
        exact hfree.2.2 hwhole
      have hrest := extractkeyEach_of_encode host bswapSrc what hf hvs hfits.2 hwrest (level_next what hnext hd) htail
      simp only [Bool.false_eq_true, if_false]
      rw [hrest, offset_putBytes, putBytes_append]

end

/-- Between two values a walk stands where the first one ends in the source. -/
private theorem sourceEnd_keyBytes {whole : WholeCopies} (hwhole : ∀ off t, whole off t = true → t.trivialMany off = true)
    {t : ValueType} {v : Value} {src dst : Nat} (hv : t.Has v) (hw : Walkable what (t.ExtractFree whole what v src))
    (hoff : Level what src dst) :
    sourceEnd what v (t.keyBytes host what whole v src dst) src dst = (t.project what v).finish src := by
  rcases hw with rfl | hfree
  · rw [ValueType.project_sample hv]
    rfl
  · rw [ValueType.keyBytes_of_free host what hwhole hv hoff hfree, sourceEnd_eq host what hv hoff]

mutual
/-- Extraction from an encoded sample or key adds the bytes of its walk. -/
theorem extractkey_of_encode : ∀ (t : ValueType), t.WellFormed → t.Everywhere (AnswersExactly lookup) →
    ∀ {v : Value} {c c' : DeserializeCursor} {dst : σ}, t.Has v → (t.project what v).Fits →
      Walkable what (t.ExtractFree (readerWhole bswapSrc) what v c.offset) → Level what c.offset (offset dst) →
      Reads c ((t.project what v).encode (streamEndian host bswapSrc) c.offset) c' →
      extractkey host lookup bswapSrc false t (ExtractKeyMode.of what) c dst =
        .ok (putBytes dst (t.keyBytes host what (readerWhole bswapSrc) v c.offset (offset dst)),c')
  | .primitive k, _, _, _, c, c', dst, hv, hf, _, _, h => by
    obtain ⟨n,hn,rfl⟩ := hv
    rw [extractkey, extractkeyAny_overload]
    exact extractkeyPrimitive_of_encode host bswapSrc what h
  | .u8string s b, _, _, _, c, c', dst, hv, hf, _, _, h => by
    obtain ⟨cs,rfl⟩ := hv
    rw [extractkey, extractkeyAny_overload]
    exact extractkeyU8String_of_encode host bswapSrc what hf h
  | .u16string s b, _, _, _, c, c', dst, hv, hf, _, _, h => by
    obtain ⟨us,rfl⟩ := hv
    rw [extractkey, extractkeyAny_overload]
    exact extractkeyU16String_of_encode host bswapSrc what hf h
  | .struct s ms, hwf, hl, _, c, c', dst, hv, hf, hw, hoff, h => by
    obtain ⟨vs,rfl,hvs⟩ := hv
    rw [extractkey, extractkeyAny_overload]
    rw [ValueType.project, allFields_eq_or] at hf h
    exact extractkeyMembers_of_encode (!ms.hasKeys) ms hwf hl.2 hvs hf hw hoff h
  | .array t n, hwf, hl, _, c, c', dst, hv, hf, hw, hoff, h => by
    obtain ⟨vs,rfl,rfl,hvs⟩ := hv
    rw [extractkey, extractkeyAny_overload]
    exact extractkeyMany_of_encode host bswapSrc what hwf.1 hl.2.here
      ⟨fun hv hf hw hoff h => extractkey_of_encode t hwf.2 hl.2 hv hf hw hoff h,
        fun hv hw hoff => sourceEnd_keyBytes host what (fun _ _ => readerWhole_trivialMany bswapSrc) hv hw hoff⟩
      hvs hf hw hoff h
  | .spanSequence k t b, hwf, hl, _, c, c', dst, hv, hf, hw, hoff, h => by
    obtain ⟨vs,rfl,hvs⟩ := hv
    obtain ⟨d,hcount,helems⟩ := h.split
    have hd : d.offset = alignUp 4 c.offset + 4 := by rw [hcount.offset_eq, Value.encodeU32_length]
    have hn := hf.1
    rw [List.length_map] at hcount hn
    have hput : offset (putSize host false vs.length dst) = alignUp 4 (offset dst) + 4 := by
      rw [putSize_eq, offset_putBytes, Value.encodeU32_length]
    have hlevel : Level what d.offset (offset (putSize host false vs.length dst)) := by
      intro hk
      rw [hd, hput, hoff hk]
    rw [← hd] at helems
    have hw' : Walkable what (freeMany (fun v o => t.ExtractFree (readerWhole bswapSrc) what v o)
        (fun v _ => t.project what v) (fun o => readerWhole bswapSrc o t) (t.keepsAll .key) vs d.offset) := by
      rw [hd]
      exact hw
    have hmany := extractkeyMany_of_encode host bswapSrc what hwf.1 hl.2.here
      ⟨fun hv hf hw hoff h => extractkey_of_encode t hwf.2.1 hl.2 hv hf hw hoff h,
        fun hv hw hoff => sourceEnd_keyBytes host what (fun _ _ => readerWhole_trivialMany bswapSrc) hv hw hoff⟩
      hvs hf.2 hw' hlevel helems
    rw [extractkey, extractkeyAny_overload]
    simp only [deserializeU32_of_encode host bswapSrc hn hcount, bind, Except.bind, if_pos (ExtractKeyMode.of_ne_skip what)]
    rw [hmany, hput, hd, putSize_eq, putBytes_append, ValueType.keyBytes]
  | .boolVector s b, _, _, _, c, c', dst, hv, hf, _, _, h => by
    obtain ⟨bits,rfl⟩ := hv
    rw [extractkey, extractkeyAny_overload]
    exact extractkeyBoolVector_of_encode host bswapSrc what hf.1 h

theorem extractkeyMembers_of_encode (all : Bool) : ∀ (ms : Members), ms.WellFormed →
    ms.Everywhere (AnswersExactly lookup) → ∀ {vs : List Value} {c c' : DeserializeCursor} {dst : σ}, ms.Have vs →
      Value.FitsAll (ms.project what (what == .sample || all) vs) →
      Walkable what (ms.ExtractFree (readerWhole bswapSrc) what all vs c.offset) → Level what c.offset (offset dst) →
      Reads c (Value.encodeAll (streamEndian host bswapSrc) (ms.project what (what == .sample || all) vs) c.offset) c' →
      extractkeyMembers host lookup bswapSrc false all ms (ExtractKeyMode.of what) c dst =
        .ok (putBytes dst (ms.keyBytes host what (readerWhole bswapSrc) all vs c.offset (offset dst)),c')
  | .nil, _, _, _, c, c', dst, hv, _, _, _, h => by
    obtain ⟨_,rfl⟩ := (Reads.refl c).bytes_unique h rfl
    exact congrArg (fun x => Except.ok (x,c)) (putBytes_nil dst).symm
  | .cons _ isKey t ms, hwf, hl, _, c, c', dst, hv, hf, hw, hoff, h => by
    obtain ⟨v,vs,rfl,hv,hvs⟩ := hv
    cases hchosen : all || isKey with
    | true =>
      obtain ⟨hpart,hmode⟩ := member_chosen what hchosen
      simp only [Members.project, hpart, if_true] at hf h
      simp only [Members.ExtractFree, hchosen, if_true] at hw
      obtain ⟨d,hd,hhead,htail⟩ := reads_cons h
      have hone := extractkey_of_encode t hwf.1 hl.1 hv hf.1 (hw.imp_right And.left) hoff hhead
      have hnext := sourceEnd_keyBytes host what (fun _ _ => readerWhole_trivialMany bswapSrc) hv
        (hw.imp_right And.left) hoff
      have hwrest := hw.imp_right And.right
      rw [← hd] at hwrest
      have hrest := extractkeyMembers_of_encode all ms hwf.2 hl.2 hvs hf.2 hwrest (level_next what hnext hd) htail
      simp only [extractkeyMembers, hmode, hone, bind, Except.bind, hrest, Members.keyBytes, hchosen, if_true, hnext,
        ← hd, offset_putBytes, putBytes_append]
    | false =>
      by_cases hsample : what = .sample
      · obtain ⟨hpart,hmode⟩ := member_skipped hchosen hsample
        have hproject : t.project what v = v := by
          rw [hsample]
          exact ValueType.project_sample hv
        simp only [Members.project, hpart, if_true, hproject] at hf h
        obtain ⟨d,hd,hhead,htail⟩ := reads_cons h
        have hone : extractkey host lookup bswapSrc false t .skip c dst = .ok (dst,d) :=
          extractkey_skip host bswapSrc false t hwf.1 hl.1 hv hf.1 hhead
        have hlevel : Level what d.offset (offset dst) := by
          intro hk
          rw [hsample] at hk
          cases hk
        have hrest := extractkeyMembers_of_encode all ms hwf.2 hl.2 hvs hf.2 (.inl hsample) hlevel htail
        simp only [extractkeyMembers, hmode, hone, bind, Except.bind, hrest, Members.keyBytes, hchosen,
          Bool.false_eq_true, if_false, if_pos hsample, hd]
      · obtain ⟨hpart,hmode⟩ := member_absent hchosen hsample
        simp only [Members.project, hpart, Bool.false_eq_true, if_false] at hf h
        simp only [Members.ExtractFree, hchosen, Bool.false_eq_true, if_false, if_neg hsample] at hw
        have hrest := extractkeyMembers_of_encode all ms hwf.2 hl.2 hvs hf hw hoff h
        simp only [extractkeyMembers, hmode, bind, Except.bind, pure, Except.pure, Members.keyBytes, hchosen,
          Bool.false_eq_true, if_false, if_neg hsample]
        exact hrest
end

/-! ### Keys that are taken over -/

section
variable {view : Value → Nat → Value} {t : ValueType} {f : DeserializeCursor → σ → Outcome (σ × DeserializeCursor)}

/-- What one element adds; the rest of the array is assembled from it. -/
private def TakesOver (host : Endian) (bswapSrc : Bool) (view : Value → Nat → Value) (t : ValueType)
    (f : DeserializeCursor → σ → Outcome (σ × DeserializeCursor)) : Prop :=
  ∀ {v : Value} {c c' : DeserializeCursor} {dst : σ}, t.Has v → (view v c.offset).Fits → offset dst = c.offset →
    Reads c ((view v c.offset).encode (streamEndian host bswapSrc) c.offset) c' →
    f c dst = .ok (putBytes dst ((view v c.offset).encode host c.offset),c')

/-- Behind an element both sides are at the same offset again. -/
private theorem offset_next {v : Value} {c d : DeserializeCursor} {dst : σ} (hoff : offset dst = c.offset)
    (hd : d.offset = v.finish c.offset) : offset (putBytes dst (v.encode host c.offset)) = d.offset := by
  rw [offset_putBytes, hoff, Value.encode_length, hd]

private theorem extractkeyEach_view (hf : TakesOver host bswapSrc view t f) : ∀ {vs : List Value}
    {c c' : DeserializeCursor} {dst : σ}, (∀ v ∈ vs, t.Has v) → Value.FitsAll (viewEach view vs c.offset) →
      offset dst = c.offset →
      Reads c (Value.encodeAll (streamEndian host bswapSrc) (viewEach view vs c.offset) c.offset) c' →
      extractkeyEach f vs.length c dst =
        .ok (putBytes dst (Value.encodeAll host (viewEach view vs c.offset) c.offset),c')
  | [], c, c', dst, _, _, _, h => by
    obtain ⟨_,rfl⟩ := (Reads.refl c).bytes_unique h rfl
    exact congrArg (fun x => Except.ok (x,c)) (putBytes_nil dst).symm
  | v :: vs, c, c', dst, hv, hfits, hoff, h => by
    obtain ⟨d,hd,hhead,htail⟩ := reads_cons h
    have hfv := hfits.2
    rw [← hd] at hfv htail
    have hone := hf (hv v List.mem_cons_self) hfits.1 hoff hhead
    have hrest := extractkeyEach_view hf (fun w hw => hv w (List.mem_cons_of_mem v hw)) hfv (offset_next host hoff hd) htail
    simp only [List.length_cons, extractkeyEach, hone, bind, Except.bind, hrest, viewEach, Value.encodeAll_cons, ← hd,
      putBytes_append]

variable (view) in
private theorem extractkeyMany_view (hs : t.Sized) (hl : AnswersExactly lookup t) (hf : TakesOver host bswapSrc view t f)
    {vs : List Value} {c c' : DeserializeCursor} {dst : σ} (hv : ∀ v ∈ vs, t.Has v)
    (hfits : Value.FitsAll (viewMany view (fun o => readerWhole bswapSrc o t) vs c.offset)) (hoff : offset dst = c.offset)
    (h : Reads c (Value.encodeAll (streamEndian host bswapSrc)
      (viewMany view (fun o => readerWhole bswapSrc o t) vs c.offset) c.offset) c') :
    extractkeyMany lookup bswapSrc false f t .key vs.length c dst = .ok (putBytes dst
      (Value.encodeAll host (viewMany view (fun o => readerWhole bswapSrc o t) vs c.offset) c.offset),c') := by
  match vs with
  | [] =>
    obtain ⟨_,rfl⟩ := (Reads.refl c).bytes_unique h rfl
    exact congrArg (fun x => Except.ok (x,c)) (putBytes_nil dst).symm
  | [v] =>
    obtain ⟨d,hd,hhead,htail⟩ := reads_cons h
    simp only [viewEach, ite_self] at htail
    obtain ⟨_,rfl⟩ := (Reads.refl d).bytes_unique htail rfl
    have hone := hf (hv v List.mem_cons_self) hfits.1 hoff hhead
    simp only [viewMany, viewEach, ite_self, Value.encodeAll_cons, Value.encodeAll, List.append_nil]
    exact extractkeyMany_one bswapSrc false .key hone
  | v :: u :: us =>
    obtain ⟨d,hd,hhead,htail⟩ := reads_cons h
    have hone := hf (hv v List.mem_cons_self) hfits.1 hoff hhead
    have hvs : ∀ w ∈ u :: us, t.Has w := fun w hw => hv w (List.mem_cons_of_mem v hw)
    have hfv := hfits.2
    have hne : (u :: us).length ≠ 0 := Nat.succ_ne_zero _
    rw [List.length_cons, extractkeyMany_several bswapSrc false .key hs hl hone hne, Bool.or_false]
    rw [← hd] at hfv htail
    simp only [viewMany, Value.encodeAll_cons, ← hd]
    cases hwhole : readerWhole bswapSrc d.offset t with
    | true =>
      have hsrc := readerWhole_source host hwhole
      simp only [hwhole, if_true, hsrc.1] at htail ⊢
      have hget := getBytes_of_reads htail
      rw [encodeAll_length_of_trivialMany host hsrc.2 hvs] at hget
      simp only [hget, reduceCtorEq, ne_eq, not_false_eq_true, if_true, putBytes_append]
      rfl
    | false =>
      simp only [hwhole, Bool.false_eq_true, if_false] at htail hfv ⊢
      rw [extractkeyEach_view host bswapSrc hf hvs hfv (offset_next host hoff hd) htail, putBytes_append]

end

mutual
/-- From a key as writers of that byte order write it, the same key is made in the order of the
host, with the members that copies of whole elements have let in. -/
theorem extractkey_view : ∀ (t : ValueType), t.WellFormed → t.Everywhere (AnswersExactly lookup) →
    ∀ {v : Value} {c c' : DeserializeCursor} {dst : σ}, t.Has v → (t.view (readerWhole bswapSrc) .key v c.offset).Fits →
      offset dst = c.offset →
      Reads c ((t.view (readerWhole bswapSrc) .key v c.offset).encode (streamEndian host bswapSrc) c.offset) c' →
      extractkey host lookup bswapSrc false t .key c dst =
        .ok (putBytes dst ((t.view (readerWhole bswapSrc) .key v c.offset).encode host c.offset),c')
  | .primitive k, _, _, _, c, c', dst, hv, hf, hoff, h => by
    obtain ⟨n,hn,rfl⟩ := hv
    have hone : extractkeyPrimitive host bswapSrc false k.width.bytes .key c dst = _ :=
      extractkeyPrimitive_of_encode host bswapSrc .key h
    rw [hoff] at hone
    exact hone
  | .u8string s b, _, _, _, c, c', dst, hv, hf, hoff, h => by
    obtain ⟨cs,rfl⟩ := hv
    have hone : extractkeyU8String host bswapSrc false .key c dst = _ := extractkeyU8String_of_encode host bswapSrc .key hf h
    rw [hoff] at hone
    exact hone
  | .u16string s b, _, _, _, c, c', dst, hv, hf, hoff, h => by
    obtain ⟨us,rfl⟩ := hv
    have hone : extractkeyU16String host bswapSrc false .key c dst = _ := extractkeyU16String_of_encode host bswapSrc .key hf h
    rw [hoff] at hone
    exact hone
  | .struct s ms, hwf, hl, _, c, c', dst, hv, hf, hoff, h => by
    obtain ⟨vs,rfl,hvs⟩ := hv
    exact extractkeyMembers_view (!ms.hasKeys) ms hwf hl.2 hvs hf hoff h
  | .array t n, hwf, hl, _, c, c', dst, hv, hf, hoff, h => by
    obtain ⟨vs,rfl,rfl,hvs⟩ := hv
    exact extractkeyMany_view host bswapSrc (fun v o => t.view (readerWhole bswapSrc) .key v o) hwf.1 hl.2.here
      (fun hv hf hoff h => extractkey_view t hwf.2 hl.2 hv hf hoff h) hvs hf hoff h
  | .spanSequence k t b, hwf, hl, _, c, c', dst, hv, hf, hoff, h => by
    obtain ⟨vs,rfl,hvs⟩ := hv
    obtain ⟨d,hcount,helems⟩ := h.split
    have hd : d.offset = alignUp 4 c.offset + 4 := by rw [hcount.offset_eq, Value.encodeU32_length]
    have hput : offset (putSize host false vs.length dst) = d.offset := by
      rw [putSize_eq, offset_putBytes, hoff, Value.encodeU32_length, hd]
    have hn := hf.1
    have hfits := hf.2
    rw [viewMany_length] at hcount hn
    rw [← hd] at helems hfits
    have hmany := extractkeyMany_view host bswapSrc (fun v o => t.view (readerWhole bswapSrc) .key v o) hwf.1 hl.2.here
      (fun hv hf hoff h => extractkey_view t hwf.2.1 hl.2 hv hf hoff h) hvs hfits hput helems
    rw [extractkey, show ExtractKeyMode.key = ExtractKeyMode.of .key from rfl, extractkeyAny_overload]
    simp only [deserializeU32_of_encode host bswapSrc hn hcount, bind, Except.bind, if_pos (ExtractKeyMode.of_ne_skip .key)]
    refine hmany.trans ?_
    rw [putSize_eq, putBytes_append, ValueType.view, Value.encode, viewMany_length, hoff, hd]
  | .boolVector s b, _, _, _, c, c', dst, hv, hf, hoff, h => by
    obtain ⟨bits,rfl⟩ := hv
    have hone : extractkeyBoolVector host bswapSrc false .key c dst = _ :=
      extractkeyBoolVector_of_encode host bswapSrc .key hf.1 h
    rw [hoff] at hone
    exact hone

theorem extractkeyMembers_view (all : Bool) : ∀ (ms : Members), ms.WellFormed → ms.Everywhere (AnswersExactly lookup) →
    ∀ {vs : List Value} {c c' : DeserializeCursor} {dst : σ}, ms.Have vs →
      Value.FitsAll (ms.view (readerWhole bswapSrc) .key all vs c.offset) → offset dst = c.offset →
      Reads c (Value.encodeAll (streamEndian host bswapSrc) (ms.view (readerWhole bswapSrc) .key all vs c.offset)
        c.offset) c' →
      extractkeyMembers host lookup bswapSrc false all ms .key c dst = .ok (putBytes dst
        (Value.encodeAll host (ms.view (readerWhole bswapSrc) .key all vs c.offset) c.offset),c')
  | .nil, _, _, _, c, c', dst, hv, _, _, h => by
    obtain ⟨_,rfl⟩ := (Reads.refl c).bytes_unique h rfl
    exact congrArg (fun x => Except.ok (x,c)) (putBytes_nil dst).symm
  | .cons _ isKey t ms, hwf, hl, _, c, c', dst, hv, hf, hoff, h => by
    obtain ⟨v,vs,rfl,hv,hvs⟩ := hv
    cases hchosen : all || isKey with
    | true =>
      simp only [Members.view, hchosen, if_true] at hf h ⊢
      obtain ⟨d,hd,hhead,htail⟩ := reads_cons h
      have hfv := hf.2
      rw [← hd] at hfv htail
      have hone := extractkey_view t hwf.1 hl.1 hv hf.1 hoff hhead
      have hrest := extractkeyMembers_view all ms hwf.2 hl.2 hvs hfv (offset_next host hoff hd) htail
      simp only [extractkeyMembers, memberMode, Bool.or_comm isKey, hchosen, if_true, hone, bind, Except.bind, hrest,
        Value.encodeAll_cons, ← hd, putBytes_append]
    | false =>
      simp only [Members.view, hchosen, Bool.false_eq_true, if_false] at hf h ⊢
      have hrest := extractkeyMembers_view all ms hwf.2 hl.2 hvs hf hoff h
      simp only [extractkeyMembers, memberMode, Bool.or_comm isKey, hchosen, Bool.false_eq_true, if_false, bind, Except.bind,
        pure, Except.pure]
      exact hrest
end

end
end RmwCyclonedds
