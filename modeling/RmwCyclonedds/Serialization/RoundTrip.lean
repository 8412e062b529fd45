import RmwCyclonedds.Serialization.Deserialize
import Mathlib.Data.List.Basic

/-! A reader returns what a writer, of either byte order, has put into the stream. -/
namespace RmwCyclonedds
open Library DeserializeCursor

/-! ### Values at places where a copy is allowed -/

private theorem finishAll_of_stride {t : ValueType} (hfin : ∀ {v : Value} {off : Nat}, t.trivial off = true → t.Has v →
    v.finish off = off + t.size) : ∀ {vs : List Value} {off : Nat},
      (∀ k < vs.length, t.trivial (off + k * t.size) = true) → (∀ v ∈ vs, t.Has v) →
      Value.finishAll vs off = off + vs.length * t.size
  | [], _, _, _ => by rw [List.length_nil, Nat.zero_mul]; rfl
  | v :: vs, off, ht, hv => by
    have h0 : t.trivial off = true := by simpa using ht 0 (Nat.succ_pos _)
    have hrest : ∀ k < vs.length, t.trivial (off + t.size + k * t.size) = true := by
      intro k hk
      have hs := ht (k + 1) (Nat.succ_lt_succ hk)
      rwa [Nat.succ_mul, Nat.add_comm (k * t.size), ← Nat.add_assoc] at hs
    rw [Value.finishAll, hfin h0 (hv v List.mem_cons_self),
      finishAll_of_stride hfin hrest fun w hw => hv w (List.mem_cons_of_mem v hw), List.length_cons, Nat.succ_mul]
    omega

mutual
theorem ValueType.finish_of_trivial : ∀ {t : ValueType} {v : Value} {off : Nat}, t.trivial off = true → t.Has v →
    v.finish off = off + t.size
  | .primitive k, _, off, ht, hv => by
    obtain ⟨n,_,rfl⟩ := hv
    have hp : padding k.width.bytes off = 0 :=
      padding_of_dvd (Nat.dvd_of_mod_eq_zero (beq_iff_eq.mp ht))
    rw [Value.finish, alignUp, hp]
    rfl
  | .struct s ms, _, off, ht, hv => by
    obtain ⟨vs,rfl,hvs⟩ := hv
    exact Members.finish_of_trivial ht hvs
  | .array t n, _, off, ht, hv => by
    obtain ⟨vs,rfl,rfl,hvs⟩ := hv
    obtain ⟨h0,h1⟩ := Bool.and_eq_true_iff.mp ht
    exact finishAll_of_stride (ValueType.finish_of_trivial (t := t)) (fun k _ => t.trivial_stride h0 h1 k) hvs

theorem Members.finish_of_trivial : ∀ {ms : Members} {vs : List Value} {s off pos : Nat},
    ms.trivial s off pos = true → ms.Have vs → Value.finishAll vs (off + pos) = off + s
  | .nil, _, _, _, _, ht, hv => by
    rw [hv, beq_iff_eq.mp ht]
    rfl
  | .cons _ _ t ms, _, s, off, pos, ht, hv => by
    obtain ⟨v,ws,rfl,hv,hws⟩ := hv
    simp only [Members.trivial, Bool.and_eq_true] at ht
    rw [Value.finishAll, ValueType.finish_of_trivial ht.1.2 hv, Nat.add_assoc, Members.finish_of_trivial ht.2 hws]
end

mutual
/-- Nothing with a length field can be copied. -/
theorem ValueType.fits_of_trivial : ∀ {t : ValueType} {v : Value} {off : Nat}, t.trivial off = true → t.Has v → v.Fits
  | .primitive _, _, _, _, hv => by
    obtain ⟨n,_,rfl⟩ := hv
    exact True.intro
  | .struct s ms, _, _, ht, hv => by
    obtain ⟨vs,rfl,hvs⟩ := hv
    exact Members.fits_of_trivial ht hvs
  | .array t n, _, _, ht, hv => by
    obtain ⟨vs,rfl,_,hvs⟩ := hv
    have h0 : t.trivial _ = true := (Bool.and_eq_true_iff.mp ht).1
    exact (Value.fitsAll_iff vs).mpr fun v hv => ValueType.fits_of_trivial h0 (hvs v hv)

theorem Members.fits_of_trivial : ∀ {ms : Members} {vs : List Value} {s off pos : Nat},
    ms.trivial s off pos = true → ms.Have vs → Value.FitsAll vs
  | .nil, _, _, _, _, _, hv => by
    rw [hv]
    exact True.intro
  | .cons _ _ t ms, _, _, _, _, ht, hv => by
    obtain ⟨v,ws,rfl,hv,hws⟩ := hv
    simp only [Members.trivial, Bool.and_eq_true] at ht
    exact ⟨ValueType.fits_of_trivial ht.1.2 hv,Members.fits_of_trivial ht.2 hws⟩
end

section
variable (host : Endian) {t : ValueType} {off : Nat}

theorem encode_length_of_trivial {v : Value} (ht : t.trivial off = true) (hv : t.Has v) :
    (v.encode host off).length = t.size := by
  have hlen := Value.encode_length host v off
  rw [ValueType.finish_of_trivial ht hv] at hlen
  omega

/-- Read as memory, the encoding of a value is that value. -/
theorem value_of_encode {v : Value} (ht : t.trivial off = true) (hv : t.Has v) :
    (Memory.ofBytes (v.encode host off)).value host t Memory.base = v := by
  have hraw := (Memory.ofBytes (v.encode host off)).encode_of_trivial host t Memory.base off ht
  rw [← encode_length_of_trivial host ht hv, Memory.read_ofBytes] at hraw
  have hw := (Memory.ofBytes (v.encode host off)).value_has host t Memory.base
  have heq : ((Memory.ofBytes (v.encode host off)).value host t Memory.base).encode host off ++ [] =
      v.encode host off ++ [] := by rw [hraw]
  exact (ValueType.encode_injective host hw hv (ValueType.fits_of_trivial ht hw)
    (ValueType.fits_of_trivial ht hv) heq).1

theorem encodeAll_length_of_trivialMany {vs : List Value} (ht : t.trivialMany off = true) (hv : ∀ v ∈ vs, t.Has v) :
    (Value.encodeAll host vs off).length = vs.length * t.size := by
  have hlen := Value.encodeAll_length host vs off
  rw [finishAll_of_stride ValueType.finish_of_trivial (fun k _ => ValueType.trivial_of_trivialMany ht k) hv] at hlen
  omega

theorem rawValues_of_encode {vs : List Value} (ht : t.trivialMany off = true) (hv : ∀ v ∈ vs, t.Has v) :
    rawValues host t (Value.encodeAll host vs off) vs.length = vs := by
  have hraw := (Memory.ofBytes (Value.encodeAll host vs off)).encode_of_trivialMany host t Memory.base ht vs.length
  rw [← encodeAll_length_of_trivialMany host ht hv, Memory.read_ofBytes] at hraw
  have h0 := (Bool.and_eq_true_iff.mp ht).1
  have hvs : (ValueType.array t vs.length).Has (.array vs) := ⟨vs,rfl,rfl,hv⟩
  have hws : (ValueType.array t vs.length).Has
      (.array (rawValues host t (Value.encodeAll host vs off) vs.length)) := by
    refine ⟨_,rfl,Memory.strided_length _ _ _ _,?_⟩
    intro x hx
    obtain ⟨b,rfl⟩ := Memory.strided_mem hx
    exact Memory.value_has _ host t b
  have hfits : ∀ {w : Value}, (ValueType.array t vs.length).Has w → w.Fits := by
    rintro _ ⟨ws,rfl,_,hws⟩
    exact (Value.fitsAll_iff ws).mpr fun w hw => ValueType.fits_of_trivial h0 (hws w hw)
  have heq : (Value.array (rawValues host t (Value.encodeAll host vs off) vs.length)).encode host off ++ [] =
      (Value.array vs).encode host off ++ [] := by
    rw [List.append_nil, List.append_nil]
    exact hraw
  exact Value.array.inj (ValueType.encode_injective host hws hvs (hfits hws) (hfits hvs) heq).1

end

/-! ### Decoding an encoding -/

/-- The byte order a reader expects. -/
def streamEndian (host : Endian) (bswapSrc : Bool) : Endian := if bswapSrc then host.opposite else host

/-- The reader that swaps takes no copies. -/
def readerWhole (bswapSrc : Bool) : WholeCopies := if bswapSrc then neverWhole else cachedWhole

theorem readerWhole_lookup {lookup : Lookup} {t : ValueType} (hs : t.Sized) (hl : AnswersExactly lookup t) (bswapSrc : Bool)
    (off : Nat) : (if bswapSrc then pure false else lookupManyTriviallySerialized lookup off t) =
      .ok (readerWhole bswapSrc off t) := by
  cases bswapSrc with
  | true => rfl
  | false => exact lookupMany_exactly hs hl off

/-- Whole elements are copied from streams in the order of the host. -/
theorem readerWhole_source (host : Endian) {bswapSrc : Bool} {off : Nat} {t : ValueType} (h : readerWhole bswapSrc off t = true) :
    streamEndian host bswapSrc = host ∧ t.trivialMany off = true := by
  cases bswapSrc with
  | true => cases h
  | false => exact ⟨rfl,h⟩

section
variable (host : Endian) (bswapSrc : Bool)

theorem decode_swapped {n : Nat} (hn : n = 1 ∨ n = 2 ∨ n = 4 ∨ n = 8) {bs : List Byte} (hlen : bs.length = n) :
    host.decode (swapped host bswapSrc n bs) = (streamEndian host bswapSrc).decode bs := by
  cases bswapSrc with
  | false => rfl
  | true =>
    simp only [swapped, streamEndian, if_true]
    rw [bswapN_eq_reverse host hn bs hlen, host.decode_reverse]

theorem width_cases (w : Width) : w.bytes = 1 ∨ w.bytes = 2 ∨ w.bytes = 4 ∨ w.bytes = 8 := by
  cases w <;> simp [Width.bytes, Width.log]

theorem align_getBytes {c c' : DeserializeCursor} {n : Nat} {bs : List Byte} (hlen : bs.length = n)
    (h : Reads c (List.replicate (padding n c.offset) 0 ++ bs) c') :
    ∃ d, c.align n = .ok d ∧ d.getBytes n = .ok (bs,c') := by
  obtain ⟨d,hpad,hbs⟩ := h.split
  refine ⟨d,align_of_reads List.length_replicate hpad,?_⟩
  rw [← hlen]
  exact getBytes_of_reads hbs

theorem deserializePrimitive_of_encode {w : Width} {n : Nat} (hn : n < 256 ^ w.bytes)
    {c c' : DeserializeCursor} (h : Reads c ((Value.primitive w n).encode (streamEndian host bswapSrc) c.offset) c') :
    deserializePrimitive host bswapSrc w c = .ok (.primitive w n,c') := by
  have hlen := (streamEndian host bswapSrc).encode_length w.bytes n
  obtain ⟨d,hd,hget⟩ := align_getBytes hlen h
  simp only [deserializePrimitive, hd, hget, bind, Except.bind, pure, Except.pure,
    decode_swapped host bswapSrc (width_cases w) hlen, Endian.decode_encode _ hn]

theorem deserializeU32_of_encode {n : Nat} (hn : n < 2 ^ 32) {c c' : DeserializeCursor}
    (h : Reads c (Value.encodeU32 (streamEndian host bswapSrc) n c.offset) c') :
    deserializeU32 host bswapSrc c = .ok (n,c') := by
  have hlen := (streamEndian host bswapSrc).encode_length 4 n
  obtain ⟨d,hd,hget⟩ := align_getBytes hlen h
  have hn' : n < 256 ^ 4 := hn
  simp only [deserializeU32, hd, hget, bind, Except.bind, pure, Except.pure,
    decode_swapped host bswapSrc (.inr (.inr (.inl rfl))) hlen, Endian.decode_encode _ hn']

private theorem deserializeU8String_of_encode {cs : List Byte} (hf : cs.length + 1 < 2 ^ 32)
    {c c' : DeserializeCursor} (h : Reads c ((Value.u8string cs).encode (streamEndian host bswapSrc) c.offset) c') :
    deserializeU8String host bswapSrc c = .ok (.u8string cs,c') := by
  obtain ⟨d,hsize,hchars⟩ := h.split
  have hget := getBytes_of_reads hchars
  rw [List.length_append, List.length_singleton] at hget
  simp [deserializeU8String, deserializeU32_of_encode host bswapSrc hf hsize, hget, bind, Except.bind, pure,
    Except.pure]

private theorem swap_unit (u : UInt16) :
    UInt16.ofNat (host.decode (bswapN host 2 (host.encode 2
      (UInt16.ofNat (host.decode (host.opposite.encode 2 u.toNat))).toNat))) = u := by
  have hlen := host.opposite.encode_length 2 u.toNat
  have hlt := host.decode_lt (host.opposite.encode 2 u.toNat)
  rw [hlen] at hlt
  have hre := host.encode_decode (host.opposite.encode 2 u.toNat)
  rw [hlen] at hre
  have hu : u.toNat < 256 ^ 2 := u.toNat_lt
  rw [UInt16.toNat_ofNat_of_lt' hlt, hre, bswapN_eq_reverse host (.inr (.inl rfl)) _ hlen, host.decode_reverse,
    Endian.decode_encode _ hu, UInt16.ofNat_toNat]

private theorem decodeUnits_encodeUnits (e : Endian) : ∀ us : List UInt16,
    decodeUnits host (Value.encodeUnits e us) = us.map fun u => UInt16.ofNat (host.decode (e.encode 2 u.toNat))
  | [] => rfl
  | u :: us => by
    obtain ⟨a,b,hab⟩ := List.length_eq_two.mp (e.encode_length 2 u.toNat)
    have hcons : Value.encodeUnits e (u :: us) = a :: b :: Value.encodeUnits e us := by
      rw [Value.encodeUnits, List.flatMap_cons, hab]
      rfl
    rw [hcons, decodeUnits, decodeUnits_encodeUnits e us, List.map_cons, hab]

private theorem deserializeU16String_of_encode {us : List UInt16} (hf : 2 * us.length < 2 ^ 32)
    {c c' : DeserializeCursor} (h : Reads c ((Value.u16string us).encode (streamEndian host bswapSrc) c.offset) c') :
    deserializeU16String host bswapSrc c = .ok (.u16string us,c') := by
  obtain ⟨d,hsize,hunits⟩ := h.split
  have hget := getBytes_of_reads hunits
  rw [Value.encodeUnits_length] at hget
  have heven : ¬2 * us.length % 2 ≠ 0 := by omega
  have hdata : (if bswapSrc then
        (decodeUnits host (Value.encodeUnits (streamEndian host bswapSrc) us)).map fun u =>
          UInt16.ofNat (host.decode (bswapN host 2 (host.encode 2 u.toNat)))
      else decodeUnits host (Value.encodeUnits (streamEndian host bswapSrc) us)) = us := by
    rw [decodeUnits_encodeUnits]
    cases bswapSrc with
    | true =>
      simp only [if_true, List.map_map, streamEndian]
      exact List.map_id'' (fun u => swap_unit host u) us
    | false =>
      simp only [Bool.false_eq_true, if_false, streamEndian]
      refine List.map_id'' (fun u => ?_) us
      have hu : u.toNat < 256 ^ 2 := u.toNat_lt
      rw [Endian.decode_encode _ hu, UInt16.ofNat_toNat]
  simp only [deserializeU16String, deserializeU32_of_encode host bswapSrc hf hsize, hget, heven, if_false, bind,
    Except.bind, pure, Except.pure, hdata]

private theorem deserializeBoolVector_of_encode {bits : List Bool} (hf : (bits.map boolValue).length < 2 ^ 32)
    {c c' : DeserializeCursor}
    (h : Reads c ((Value.sequence (bits.map boolValue)).encode (streamEndian host bswapSrc) c.offset) c') :
    deserializeBoolVector host bswapSrc c = .ok (.sequence (bits.map boolValue),c') := by
  obtain ⟨d,hcount,hbits⟩ := h.split
  rw [encodeAll_boolValue] at hbits
  have hget := getBytes_of_reads hbits
  rw [List.length_map] at hget hf hcount
  have hmap : (bits.map fun b => if b then (1 : Byte) else 0).map (fun b => boolValue (b != 0)) =
      bits.map boolValue := by
    rw [List.map_map]
    apply List.map_congr_left
    intro b _
    cases b <;> rfl
  simp only [deserializeBoolVector, deserializeU32_of_encode host bswapSrc hf hcount, hget, bind, Except.bind, pure,
    Except.pure, hmap]

section
variable {view : Value → Nat → Value} {t : ValueType} {f : DeserializeCursor → Outcome (Value × DeserializeCursor)}

/-- What one element reads back; the rest of the array is assembled from it. -/
private def ReadsBack (host : Endian) (bswapSrc : Bool) (view : Value → Nat → Value) (t : ValueType)
    (f : DeserializeCursor → Outcome (Value × DeserializeCursor)) : Prop :=
  ∀ {v : Value} {c c' : DeserializeCursor}, t.Has v → (view v c.offset).Fits →
    Reads c ((view v c.offset).encode (streamEndian host bswapSrc) c.offset) c' → f c = .ok (view v c.offset,c')

theorem reads_cons {e : Endian} {v : Value} {vs : List Value} {c c' : DeserializeCursor}
    (h : Reads c (Value.encodeAll e (v :: vs) c.offset) c') : ∃ d, d.offset = v.finish c.offset ∧
      Reads c (v.encode e c.offset) d ∧ Reads d (Value.encodeAll e vs d.offset) c' := by
  rw [Value.encodeAll_cons] at h
  obtain ⟨d,hv,hvs⟩ := h.split
  have hoff : d.offset = v.finish c.offset := by rw [hv.offset_eq, Value.encode_length]
  rw [← hoff] at hvs
  exact ⟨d,hoff,hv,hvs⟩

private theorem deserializeEach_of_encode (hf : ReadsBack host bswapSrc view t f) : ∀ {vs : List Value}
    {c c' : DeserializeCursor}, (∀ v ∈ vs, t.Has v) → Value.FitsAll (viewEach view vs c.offset) →
    Reads c (Value.encodeAll (streamEndian host bswapSrc) (viewEach view vs c.offset) c.offset) c' →
    deserializeEach f vs.length c = .ok (viewEach view vs c.offset,c')
  | [], c, c', _, _, h => by
    obtain ⟨_,rfl⟩ := (Reads.refl c).bytes_unique h rfl
    rfl
  | v :: vs, c, c', hv, hfits, h => by
    obtain ⟨d,hoff,hhead,htail⟩ := reads_cons h
    have hfv := hfits.2
    rw [← hoff] at hfv htail
    have hone := hf (hv v List.mem_cons_self) hfits.1 hhead
    have hrest := deserializeEach_of_encode hf (fun w hw => hv w (List.mem_cons_of_mem v hw)) hfv htail
    rw [List.length_cons, deserializeEach, viewEach, ← hoff]
    simp only [hone, hrest, bind, Except.bind]
    rfl

private theorem deserializeMany_of_encode {lookup : Lookup} (hs : t.Sized) (hl : AnswersExactly lookup t)
    (hf : ReadsBack host bswapSrc view t f) {vs : List Value} {c c' : DeserializeCursor}
    (hv : ∀ v ∈ vs, t.Has v)
    (hfits : Value.FitsAll (viewMany view (fun o => readerWhole bswapSrc o t) vs c.offset))
    (h : Reads c (Value.encodeAll (streamEndian host bswapSrc)
      (viewMany view (fun o => readerWhole bswapSrc o t) vs c.offset) c.offset) c') :
    deserializeMany host lookup bswapSrc f t vs.length c =
      .ok (viewMany view (fun o => readerWhole bswapSrc o t) vs c.offset,c') := by
  match vs with
  | [] =>
    obtain ⟨_,rfl⟩ := (Reads.refl c).bytes_unique h rfl
    rfl
  | [v] =>
    obtain ⟨d,hoff,hhead,htail⟩ := reads_cons h
    simp only [viewEach, ite_self] at htail hfits ⊢
    obtain ⟨_,rfl⟩ := (Reads.refl d).bytes_unique htail rfl
    have hone := hf (hv v List.mem_cons_self) hfits.1 hhead
    simp only [deserializeMany, List.length_cons, List.length_nil, hone, bind, Except.bind, viewMany, viewEach, ite_self]
    rfl
  | v :: u :: us =>
    obtain ⟨d,hoff,hhead,htail⟩ := reads_cons h
    have hone := hf (hv v List.mem_cons_self) hfits.1 hhead
    have hvs : ∀ w ∈ u :: us, t.Has w := fun w hw => hv w (List.mem_cons_of_mem v hw)
    have hfv := hfits.2
    have hbulk := readerWhole_lookup hs hl bswapSrc d.offset
    have hlen : (v :: u :: us).length - 1 = (u :: us).length := rfl
    have hne : (v :: u :: us).length ≠ 0 := Nat.succ_ne_zero _
    have hne' : (u :: us).length ≠ 0 := Nat.succ_ne_zero _
    rw [← hoff] at hfv htail
    rw [viewMany, ← hoff]
    simp only [deserializeMany, hne, if_false, hone, bind, Except.bind, hlen, hne',
      ValueType.sizeofType_of_sized hs, hbulk]
    cases hw : readerWhole bswapSrc d.offset t with
    | true =>
      have hsrc := readerWhole_source host hw
      simp only [hw, if_true, hsrc.1] at htail ⊢
      have hget := getBytes_of_reads htail
      rw [encodeAll_length_of_trivialMany host hsrc.2 hvs] at hget
      rw [hget]
      simp only [rawValues_of_encode host hsrc.2 hvs]
      rfl
    | false =>
      simp only [hw, Bool.false_eq_true, if_false] at htail hfv ⊢
      rw [deserializeEach_of_encode host bswapSrc hf hvs hfv htail]
      rfl

end

section
variable {lookup : Lookup} {runtime : Runtime} (what : SampleOrKey)

private theorem deserializeAny_of_encode {t : ValueType} (hl : AnswersExactly lookup t) {v : Value}
    {c c' : DeserializeCursor} (hv : t.Has v)
    (h : Reads c ((t.view (readerWhole bswapSrc) what v c.offset).encode (streamEndian host bswapSrc) c.offset) c')
    {overload : Outcome (Value × DeserializeCursor)}
    (ho : overload = .ok (t.view (readerWhole bswapSrc) what v c.offset,c')) :
    deserializeAny host lookup bswapSrc what t c overload =
      .ok (t.view (readerWhole bswapSrc) what v c.offset,c') := by
  by_cases hcond : (!bswapSrc && what == .sample) = true
  · obtain ⟨hb,hw⟩ := Bool.and_eq_true_iff.mp hcond
    have hbswap : bswapSrc = false := by simpa using hb
    have hwhat : what = .sample := by simpa using hw
    cases ht : t.trivial c.offset with
    | false =>
      simp only [deserializeAny, hcond, if_true, hl c.offset, ht, bind, Except.bind]
      exact ho
    | true =>
      subst hbswap hwhat
      rw [ValueType.view_sample _ hv] at h ⊢
      have hget := getBytes_of_reads h
      have hsrc : streamEndian host false = host := rfl
      rw [hsrc] at hget
      rw [encode_length_of_trivial host ht hv] at hget
      simp only [deserializeAny, hcond, if_true, hl c.offset, ht, bind, Except.bind,
        ValueType.sizeofType_of_sized (ValueType.sized_of_trivial ht), hget, value_of_encode host ht hv]
      rfl
  · simp only [deserializeAny, hcond, bind, Except.bind]
    exact ho

mutual
/-- Reading an encoding, in either byte order, gives what was encoded. -/
theorem deserialize_of_encode (hr : ∀ position size, runtime position size = .provided) : ∀ (t : ValueType),
    t.WellFormed → t.Everywhere (AnswersExactly lookup) → ∀ {v : Value} {c c' : DeserializeCursor}, t.Has v →
    (t.view (readerWhole bswapSrc) what v c.offset).Fits →
    Reads c ((t.view (readerWhole bswapSrc) what v c.offset).encode (streamEndian host bswapSrc) c.offset) c' →
    deserialize host lookup runtime bswapSrc what t c = .ok (t.view (readerWhole bswapSrc) what v c.offset,c')
  | .primitive k, _, hl, _, c, c', hv, hf, h => by
    refine deserializeAny_of_encode host bswapSrc what hl hv h ?_
    obtain ⟨n,hn,rfl⟩ := hv
    exact deserializePrimitive_of_encode host bswapSrc hn h
  | .u8string s b, _, hl, _, c, c', hv, hf, h => by
    refine deserializeAny_of_encode host bswapSrc what hl hv h ?_
    obtain ⟨cs,rfl⟩ := hv
    exact deserializeU8String_of_encode host bswapSrc hf h
  | .u16string s b, _, hl, _, c, c', hv, hf, h => by
    refine deserializeAny_of_encode host bswapSrc what hl hv h ?_
    obtain ⟨us,rfl⟩ := hv
    exact deserializeU16String_of_encode host bswapSrc hf h
  | .struct s ms, hw, hl, _, c, c', hv, hf, h => by
    refine deserializeAny_of_encode host bswapSrc what hl.1 hv h ?_
    obtain ⟨vs,rfl,hvs⟩ := hv
    have hms := deserializeMembers_of_encode hr (allFields what ms) ms hw hl.2 hvs hf h
    simp only [hms, bind, Except.bind]
    rfl
  | .array t n, hw, hl, _, c, c', hv, hf, h => by
    refine deserializeAny_of_encode host bswapSrc what hl.1 hv h ?_
    obtain ⟨vs,rfl,rfl,hvs⟩ := hv
    have helem : ReadsBack host bswapSrc (fun v o => t.view (readerWhole bswapSrc) what v o) t
        (fun src => deserialize host lookup runtime bswapSrc what t src) :=
      fun hv hf h => deserialize_of_encode hr t hw.2 hl.2 hv hf h
    have hmany := deserializeMany_of_encode host bswapSrc hw.1 hl.2.here helem hvs hf h
    simp only [hmany, bind, Except.bind]
    rfl
  | .spanSequence k t b, hw, hl, _, c, c', hv, hf, h => by
    refine deserializeAny_of_encode host bswapSrc what hl.1 hv h ?_
    obtain ⟨vs,rfl,hvs⟩ := hv
    have helem : ReadsBack host bswapSrc (fun v o => t.view (readerWhole bswapSrc) what v o) t
        (fun src => deserialize host lookup runtime bswapSrc what t src) :=
      fun hv hf h => deserialize_of_encode hr t hw.2.1 hl.2 hv hf h
    obtain ⟨d,hcount,helems⟩ := h.split
    have hoff : d.offset = alignUp 4 c.offset + 4 := by rw [hcount.offset_eq, Value.encodeU32_length]
    have hlen : (viewMany (fun v o => t.view (readerWhole bswapSrc) what v o) (fun o => readerWhole bswapSrc o t) vs
        (alignUp 4 c.offset + 4)).length = vs.length := viewMany_length _ _ _ _
    have hfv := hf.2
    have hn := hf.1
    rw [hlen] at hcount hn
    rw [← hoff] at helems hfv
    have hmany := deserializeMany_of_encode host bswapSrc hw.1 hl.2.here helem hvs hfv helems
    have hres : resize runtime k d.position vs.length = .ok () := by
      unfold resize
      rw [hr]
    simp only [deserializeU32_of_encode host bswapSrc hn hcount, hres, hmany, bind, Except.bind, ValueType.view, hoff]
    rfl
  | .boolVector s b, _, hl, _, c, c', hv, hf, h => by
    refine deserializeAny_of_encode host bswapSrc what hl hv h ?_
    obtain ⟨bits,rfl⟩ := hv
    exact deserializeBoolVector_of_encode host bswapSrc hf.1 h

theorem deserializeMembers_of_encode (hr : ∀ position size, runtime position size = .provided) (all : Bool) :
    ∀ (ms : Members), ms.WellFormed → ms.Everywhere (AnswersExactly lookup) →
    ∀ {vs : List Value} {c c' : DeserializeCursor}, ms.Have vs →
    Value.FitsAll (ms.view (readerWhole bswapSrc) what all vs c.offset) →
    Reads c (Value.encodeAll (streamEndian host bswapSrc) (ms.view (readerWhole bswapSrc) what all vs c.offset)
      c.offset) c' →
    deserializeMembers host lookup runtime bswapSrc what all ms c =
      .ok (ms.view (readerWhole bswapSrc) what all vs c.offset,c')
  | .nil, _, _, _, c, c', _, _, h => by
    obtain ⟨_,rfl⟩ := (Reads.refl c).bytes_unique h rfl
    rfl
  | .cons _ isKey t ms, hw, hl, _, c, c', hv, hf, h => by
    obtain ⟨v,ws,rfl,hv,hws⟩ := hv
    cases hk : all || isKey with
    | false =>
      simp only [Members.view, deserializeMembers, hk, Bool.false_eq_true, if_false] at hf h ⊢
      exact deserializeMembers_of_encode hr all ms hw.2 hl.2 hws hf h
    | true =>
      simp only [Members.view, deserializeMembers, hk, if_true] at hf h ⊢
      obtain ⟨d,hoff,hhead,htail⟩ := reads_cons h
      have hfv := hf.2
      rw [← hoff] at hfv htail
      have hone := deserialize_of_encode hr t hw.1 hl.1 hv hf.1 hhead
      have hrest := deserializeMembers_of_encode hr all ms hw.2 hl.2 hws hfv htail
      rw [← hoff]
      simp only [hone, hrest, bind, Except.bind]
      rfl
end

end
end
end RmwCyclonedds
