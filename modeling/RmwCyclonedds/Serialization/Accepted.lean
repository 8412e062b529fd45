import RmwCyclonedds.Serialization.RoundTrip

/-! What a reader accepts is a value of its type that would occupy just the bytes read. -/
namespace RmwCyclonedds
open Library DeserializeCursor

/-- The outcome of reading one value of a type. -/
structure Accepts (t : ValueType) (c : DeserializeCursor) (v : Value) (c' : DeserializeCursor) : Prop where
  has : t.Has v
  fits : v.Fits
  reads : ∃ bs, Reads c bs c'
  offset_eq : c'.offset = v.finish c.offset

/-- The outcome of reading several values of a type. -/
structure AcceptsAll (t : ValueType) (c : DeserializeCursor) (vs : List Value) (c' : DeserializeCursor) : Prop where
  has : ∀ v ∈ vs, t.Has v
  fits : Value.FitsAll vs
  reads : ∃ bs, Reads c bs c'
  offset_eq : c'.offset = Value.finishAll vs c.offset

namespace AcceptsAll
variable {t : ValueType} {c c' d : DeserializeCursor}

theorem nil (t : ValueType) (c : DeserializeCursor) : AcceptsAll t c [] c :=
  ⟨fun _ h => absurd h List.not_mem_nil,True.intro,⟨[],Reads.refl c⟩,rfl⟩

theorem cons {v : Value} {vs : List Value} (h : Accepts t c v d) (h' : AcceptsAll t d vs c') :
    AcceptsAll t c (v :: vs) c' := by
  obtain ⟨bs,hbs⟩ := h.reads
  obtain ⟨as,has⟩ := h'.reads
  refine ⟨?_,⟨h.fits,h'.fits⟩,⟨_,hbs.trans has⟩,?_⟩
  · intro w hw
    rcases List.mem_cons.mp hw with rfl | hw
    · exact h.has
    · exact h'.has w hw
  · rw [h'.offset_eq, h.offset_eq]
    rfl

end AcceptsAll

section
variable {host : Endian} {bswapSrc : Bool} {c c' : DeserializeCursor}

private theorem align_getBytes_ok {n : Nat} {d : DeserializeCursor} {bs : List Byte} (hd : c.align n = .ok d)
    (hget : d.getBytes n = .ok (bs,c')) : bs.length = n ∧ c'.offset = alignUp n c.offset + n ∧ ∃ as, Reads c as c' := by
  obtain ⟨pad,hpad,hr⟩ := reads_of_align hd
  obtain ⟨hlen,hr'⟩ := reads_of_getBytes hget
  refine ⟨hlen,?_,_,hr.trans hr'⟩
  rw [hr'.offset_eq, hr.offset_eq, hpad, hlen]
  rfl

private theorem deserializeU32_ok {n : Nat} (h : deserializeU32 host bswapSrc c = .ok (n,c')) :
    n < 2 ^ 32 ∧ c'.offset = alignUp 4 c.offset + 4 ∧ ∃ bs, Reads c bs c' := by
  obtain ⟨d,hd,h⟩ := Outcome.bind_eq_ok h
  obtain ⟨⟨bs,d'⟩,hget,h⟩ := Outcome.bind_eq_ok h
  cases h
  obtain ⟨hlen,hoff,hr⟩ := align_getBytes_ok hd hget
  refine ⟨?_,hoff,hr⟩
  have hlt := (streamEndian host bswapSrc).decode_lt bs
  rw [decode_swapped host bswapSrc (.inr (.inr (.inl rfl))) hlen]
  rwa [hlen] at hlt

private theorem deserializePrimitive_ok {k : TypeKind} {v : Value}
    (h : deserializePrimitive host bswapSrc k.width c = .ok (v,c')) : Accepts (.primitive k) c v c' := by
  obtain ⟨d,hd,h⟩ := Outcome.bind_eq_ok h
  obtain ⟨⟨bs,d'⟩,hget,h⟩ := Outcome.bind_eq_ok h
  cases h
  obtain ⟨hlen,hoff,hr⟩ := align_getBytes_ok hd hget
  have hw : k.width.bytes = 1 ∨ k.width.bytes = 2 ∨ k.width.bytes = 4 ∨ k.width.bytes = 8 := by
    cases k <;> simp [TypeKind.width, Width.bytes, Width.log]
  have hlt := (streamEndian host bswapSrc).decode_lt bs
  rw [decode_swapped host bswapSrc hw hlen]
  rw [hlen] at hlt
  exact ⟨⟨_,hlt,rfl⟩,True.intro,hr,hoff⟩

private theorem deserializeU8String_ok {s b : Nat} {v : Value} (h : deserializeU8String host bswapSrc c = .ok (v,c')) :
    Accepts (.u8string s b) c v c' := by
  obtain ⟨⟨size,d⟩,hsize,h⟩ := Outcome.bind_eq_ok h
  obtain ⟨hn,hoff,as,hr⟩ := deserializeU32_ok hsize
  by_cases h0 : size = 0
  · simp only [h0, if_true] at h
    cases h
  simp only [h0, if_false] at h
  obtain ⟨⟨srcdata,d'⟩,hget,h⟩ := Outcome.bind_eq_ok h
  obtain ⟨hlen,hr'⟩ := reads_of_getBytes hget
  by_cases hterm : srcdata.getLast? ≠ some 0
  · dsimp only at h
    rw [if_pos hterm] at h
    cases h
  dsimp only at h
  rw [if_neg hterm] at h
  cases h
  have htake : (srcdata.take (size - 1)).length + 1 = size := by
    rw [List.length_take, hlen]
    omega
  refine ⟨⟨_,rfl⟩,?_,⟨_,hr.trans hr'⟩,?_⟩
  · rw [Value.Fits, htake]
    exact hn
  · rw [hr'.offset_eq, hoff, hlen, Value.finish, htake]

private theorem decodeUnits_length : ∀ {bs : List Byte}, bs.length % 2 = 0 →
    2 * (decodeUnits host bs).length = bs.length
  | [], _ => rfl
  | [_], h => absurd h Nat.one_ne_zero
  | a :: b :: bs, h => by
    have hrest : bs.length % 2 = 0 := by
      simp only [List.length_cons] at h
      omega
    have ih := decodeUnits_length hrest
    simp only [decodeUnits, List.length_cons]
    omega

private theorem deserializeU16String_ok {s b : Nat} {v : Value} (h : deserializeU16String host bswapSrc c = .ok (v,c')) :
    Accepts (.u16string s b) c v c' := by
  obtain ⟨⟨size,d⟩,hsize,h⟩ := Outcome.bind_eq_ok h
  obtain ⟨hn,hoff,as,hr⟩ := deserializeU32_ok hsize
  by_cases hodd : size % 2 ≠ 0
  · dsimp only at h
    rw [if_pos hodd] at h
    cases h
  dsimp only at h
  rw [if_neg hodd] at h
  obtain ⟨⟨srcdata,d'⟩,hget,h⟩ := Outcome.bind_eq_ok h
  obtain ⟨hlen,hr'⟩ := reads_of_getBytes hget
  cases h
  have hunits : 2 * (if bswapSrc then
        (decodeUnits host srcdata).map fun u => UInt16.ofNat (host.decode (bswapN host 2 (host.encode 2 u.toNat)))
      else decodeUnits host srcdata).length = size := by
    rw [apply_ite List.length, List.length_map, ite_self, decodeUnits_length (by omega), hlen]
  refine ⟨⟨_,rfl⟩,?_,⟨_,hr.trans hr'⟩,?_⟩
  · rw [Value.Fits, hunits]
    exact hn
  · rw [hr'.offset_eq, hoff, hlen, Value.finish, hunits]

private theorem deserializeBoolVector_ok {s b : Nat} {v : Value} (h : deserializeBoolVector host bswapSrc c = .ok (v,c')) :
    Accepts (.boolVector s b) c v c' := by
  obtain ⟨⟨count,d⟩,hcount,h⟩ := Outcome.bind_eq_ok h
  obtain ⟨hn,hoff,as,hr⟩ := deserializeU32_ok hcount
  obtain ⟨⟨srcdata,d'⟩,hget,h⟩ := Outcome.bind_eq_ok h
  obtain ⟨hlen,hr'⟩ := reads_of_getBytes hget
  cases h
  have hbits : (srcdata.map fun b => boolValue (b != 0)) = (srcdata.map fun b => b != 0).map boolValue := by
    rw [List.map_map]
    rfl
  rw [hbits]
  refine ⟨⟨_,rfl⟩,⟨?_,?_⟩,⟨_,hr.trans hr'⟩,?_⟩
  · rw [List.length_map, List.length_map, hlen]
    exact hn
  · refine (Value.fitsAll_iff _).mpr fun v hv => ?_
    obtain ⟨b,_,rfl⟩ := List.mem_map.mp hv
    exact True.intro
  · rw [hr'.offset_eq, hoff, hlen, Value.finish, finishAll_boolValue, List.length_map, hlen]

section
variable {t : ValueType} {f : DeserializeCursor → Outcome (Value × DeserializeCursor)} {lookup : Lookup}

theorem deserializeEach_ok (hf : ∀ {c v c'}, f c = .ok (v,c') → Accepts t c v c') : ∀ {count : Nat}
    {c : DeserializeCursor} {vs : List Value} {c' : DeserializeCursor}, deserializeEach f count c = .ok (vs,c') →
      vs.length = count ∧ AcceptsAll t c vs c'
  | 0, c, _, _, h => by
    cases h
    exact ⟨rfl,AcceptsAll.nil t c⟩
  | count + 1, c, _, _, h => by
    obtain ⟨⟨v,d⟩,hv,h⟩ := Outcome.bind_eq_ok h
    obtain ⟨⟨vs,d'⟩,hvs,h⟩ := Outcome.bind_eq_ok h
    cases h
    obtain ⟨hlen,hrest⟩ := deserializeEach_ok hf hvs
    exact ⟨by rw [List.length_cons, hlen],AcceptsAll.cons (hf hv) hrest⟩

private theorem rawValues_accepts {bs : List Byte} {count : Nat} (ht : t.trivialMany c.offset = true)
    (hlen : bs.length = count * t.size) (hr : Reads c bs c') : AcceptsAll t c (rawValues host t bs count) c' := by
  have hhas : ∀ v ∈ rawValues host t bs count, t.Has v := by
    intro v hv
    obtain ⟨a,rfl⟩ := Memory.strided_mem hv
    exact Memory.value_has _ host t a
  have h0 := (Bool.and_eq_true_iff.mp ht).1
  refine ⟨hhas,(Value.fitsAll_iff _).mpr fun v hv => ValueType.fits_of_trivial h0 (hhas v hv),⟨bs,hr⟩,?_⟩
  have hcount : (rawValues host t bs count).length = count := Memory.strided_length _ _ _ _
  have hsize := encodeAll_length_of_trivialMany host ht hhas
  rw [hr.offset_eq, hlen, ← Value.encodeAll_length host, hsize, hcount]

private theorem deserializeMany_ok (hs : t.Sized) (hl : Answers lookup t)
    (hf : ∀ {c v c'}, f c = .ok (v,c') → Accepts t c v c') {count : Nat} {vs : List Value}
    (h : deserializeMany host lookup bswapSrc f t count c = .ok (vs,c')) :
    vs.length = count ∧ AcceptsAll t c vs c' := by
  unfold deserializeMany at h
  by_cases h0 : count = 0
  · rw [if_pos h0] at h
    cases h
    exact ⟨h0.symm,AcceptsAll.nil t c⟩
  rw [if_neg h0] at h
  obtain ⟨⟨v,d⟩,hv,h⟩ := Outcome.bind_eq_ok h
  by_cases h1 : count - 1 = 0
  · simp only [h1, if_true] at h
    cases h
    refine ⟨?_,AcceptsAll.cons (hf hv) (AcceptsAll.nil t _)⟩
    rw [List.length_singleton]
    omega
  simp only [h1, if_false, ValueType.sizeofType_of_sized hs] at h
  obtain ⟨_,hsize,h⟩ := Outcome.bind_eq_ok h
  cases hsize
  obtain ⟨bulk,hbulk,h⟩ := Outcome.bind_eq_ok h
  cases bulk with
  | true =>
    simp only [if_true] at h
    obtain ⟨⟨bs,d'⟩,hget,h⟩ := Outcome.bind_eq_ok h
    cases h
    obtain ⟨hlen,hr⟩ := reads_of_getBytes hget
    have hmany : t.trivialMany d.offset = true := by
      cases bswapSrc with
      | true => cases hbulk
      | false =>
        obtain ⟨b,hb,ht⟩ := lookupMany_answers hs hl d.offset
        rw [if_neg Bool.false_ne_true, hb] at hbulk
        exact ht (Except.ok.inj hbulk)
    refine ⟨?_,AcceptsAll.cons (hf hv) (rawValues_accepts hmany hlen hr)⟩
    rw [List.length_cons, rawValues, Memory.strided_length]
    omega
  | false =>
    simp only [Bool.false_eq_true, if_false] at h
    obtain ⟨⟨ws,d'⟩,hws,h⟩ := Outcome.bind_eq_ok h
    cases h
    obtain ⟨hlen,hrest⟩ := deserializeEach_ok hf hws
    refine ⟨?_,AcceptsAll.cons (hf hv) hrest⟩
    rw [List.length_cons, hlen]
    omega

private theorem deserializeAny_ok (hl : Answers lookup t) {v : Value} {overload : Outcome (Value × DeserializeCursor)}
    (ho : overload = .ok (v,c') → Accepts t c v c')
    (h : deserializeAny host lookup bswapSrc .sample t c overload = .ok (v,c')) : Accepts t c v c' := by
  obtain ⟨copy,hcopy,h⟩ := Outcome.bind_eq_ok h
  cases copy with
  | false => exact ho h
  | true =>
    have htriv : t.trivial c.offset = true := by
      cases bswapSrc with
      | true => cases hcopy
      | false =>
        obtain ⟨b,hb,ht⟩ := hl c.offset
        have hcopy' : lookup c.offset t = .ok true := hcopy
        rw [hb] at hcopy'
        exact ht (Except.ok.inj hcopy')
    simp only [if_true, ValueType.sizeofType_of_sized (ValueType.sized_of_trivial htriv)] at h
    obtain ⟨_,hsize,h⟩ := Outcome.bind_eq_ok h
    cases hsize
    obtain ⟨⟨bs,d⟩,hget,h⟩ := Outcome.bind_eq_ok h
    cases h
    obtain ⟨hlen,hr⟩ := reads_of_getBytes hget
    have hhas := (Memory.ofBytes bs).value_has host t Memory.base
    refine ⟨hhas,ValueType.fits_of_trivial htriv hhas,⟨bs,hr⟩,?_⟩
    rw [hr.offset_eq, hlen, ValueType.finish_of_trivial htriv hhas]

end

section
variable {lookup : Lookup} {runtime : Runtime}

private theorem resize_ok {x : Outcome Unit} {α : Type} {f : Unit → Outcome α} {r : α} (h : x >>= f = .ok r) :
    f () = .ok r := by
  obtain ⟨_,_,h⟩ := Outcome.bind_eq_ok h
  exact h

mutual
/-- Whatever is accepted is a value of the type, with lengths that fit, and the reader
stands where its encoding would end. -/
theorem deserialize_accepts : ∀ {t : ValueType}, t.WellFormed → t.Everywhere (Answers lookup) →
    ∀ {c : DeserializeCursor} {v : Value} {c' : DeserializeCursor},
      deserialize host lookup runtime bswapSrc .sample t c = .ok (v,c') → Accepts t c v c'
  | .primitive k, _, hl, _, _, _, h => deserializeAny_ok hl deserializePrimitive_ok h
  | .u8string s b, _, hl, _, _, _, h => deserializeAny_ok hl deserializeU8String_ok h
  | .u16string s b, _, hl, _, _, _, h => deserializeAny_ok hl deserializeU16String_ok h
  | .struct s ms, hw, hl, c, v, c', h => by
    refine deserializeAny_ok hl.1 (fun ho => ?_) h
    obtain ⟨⟨vs,d⟩,hvs,ho⟩ := Outcome.bind_eq_ok ho
    cases ho
    obtain ⟨hhave,hfits,hr,hoff⟩ := deserializeMembers_accepts hw hl.2 hvs
    exact ⟨⟨vs,rfl,hhave⟩,hfits,hr,hoff⟩
  | .array t n, hw, hl, c, v, c', h => by
    refine deserializeAny_ok hl.1 (fun ho => ?_) h
    obtain ⟨⟨vs,d⟩,hvs,ho⟩ := Outcome.bind_eq_ok ho
    cases ho
    obtain ⟨hlen,hall⟩ := deserializeMany_ok hw.1 hl.2.here (fun h => deserialize_accepts hw.2 hl.2 h) hvs
    exact ⟨⟨vs,rfl,hlen,hall.has⟩,hall.fits,hall.reads,hall.offset_eq⟩
  | .spanSequence k t b, hw, hl, c, v, c', h => by
    refine deserializeAny_ok hl.1 (fun ho => ?_) h
    obtain ⟨⟨count,d⟩,hcount,ho⟩ := Outcome.bind_eq_ok ho
    have ho := resize_ok ho
    obtain ⟨⟨vs,d'⟩,hvs,ho⟩ := Outcome.bind_eq_ok ho
    cases ho
    obtain ⟨hn,hoff,as,hr⟩ := deserializeU32_ok hcount
    obtain ⟨hlen,hall⟩ := deserializeMany_ok hw.1 hl.2.here (fun h => deserialize_accepts hw.2.1 hl.2 h) hvs
    obtain ⟨bs,hr'⟩ := hall.reads
    refine ⟨⟨vs,rfl,hall.has⟩,⟨?_,hall.fits⟩,⟨_,hr.trans hr'⟩,?_⟩
    · rw [hlen]
      exact hn
    · rw [hall.offset_eq, hoff]
      rfl
  | .boolVector s b, _, hl, _, _, _, h => deserializeAny_ok hl deserializeBoolVector_ok h

theorem deserializeMembers_accepts : ∀ {ms : Members}, ms.WellFormed → ms.Everywhere (Answers lookup) →
    ∀ {c : DeserializeCursor} {vs : List Value} {c' : DeserializeCursor},
      deserializeMembers host lookup runtime bswapSrc .sample true ms c = .ok (vs,c') →
      ms.Have vs ∧ Value.FitsAll vs ∧ (∃ bs, Reads c bs c') ∧ c'.offset = Value.finishAll vs c.offset
  | .nil, _, _, c, _, _, h => by
    cases h
    exact ⟨rfl,True.intro,⟨[],Reads.refl c⟩,rfl⟩
  | .cons _ isKey t ms, hw, hl, c, _, _, h => by
    rw [deserializeMembers, Bool.true_or, if_pos rfl] at h
    obtain ⟨⟨v,d⟩,hv,h⟩ := Outcome.bind_eq_ok h
    obtain ⟨⟨vs,d'⟩,hvs,h⟩ := Outcome.bind_eq_ok h
    cases h
    have hone := deserialize_accepts hw.1 hl.1 hv
    obtain ⟨hhave,hfits,⟨bs,hr'⟩,hoff⟩ := deserializeMembers_accepts hw.2 hl.2 hvs
    obtain ⟨as,hr⟩ := hone.reads
    refine ⟨⟨v,vs,rfl,hone.has,hhave⟩,⟨hone.fits,hfits⟩,⟨_,hr.trans hr'⟩,?_⟩
    rw [hoff, hone.offset_eq]
    rfl
end

end
end
end RmwCyclonedds
