import RmwCyclonedds.Serdata.GetKeyhash
import RmwCyclonedds.Serdata.KeyHash
import RmwCyclonedds.Serialization.FixedKey

/-! Key hashes of keys that were received. -/
namespace RmwCyclonedds
open Library DeserializeCursor

namespace StructValueType
variable (root : StructValueType)

/-- The members of a stored key from which a hash is made: on a big-endian host, with those that copies
of whole elements let in. -/
def hashedPart (host : Endian) (v : Value) : Value := root.toValueType.view (CDRReader.wholeFrom host .big) .key v 0

theorem hashedPart_little {v : Value} (hv : root.toValueType.Has v) :
    root.hashedPart .little v = root.toValueType.project .key v := ValueType.view_never .key hv

theorem hashed_length (host : Endian) (v : Value) : ((if host = .little then swapUnits (root.hashedPart host v)
    else root.hashedPart host v).encode .big 0).length = (root.hashedPart host v).finish 0 := by
  have hlen := fun w : Value => Value.encode_length .big w 0
  simp only [Nat.zero_add] at hlen
  rw [hlen]
  split
  · exact finish_swapUnits _ 0
  · rfl

end StructValueType

namespace CDRReader
variable {host : Endian} {root : StructValueType} {variant : SampleOrRequest} (r : CDRReader host root variant)

/-- All stored keys of a type without strings and sequences end where that of any one value does. -/
theorem readThrough_fixedKey (hk : root.hasKeys = true) (hfix : root.toValueType.fixedKey = true) {v : Value}
    (hv : root.toValueType.Has v) {cdr : List Byte} {p : Option Value × DeserializeCursor}
    (h : readThrough host root variant (r.keyLookup (host != .big)) .key cdr = .ok p) :
    p.2.position = 4 + (root.toValueType.view neverWhole .key v 0).finish 0 ∨
      host = .big ∧ p.2.position = 4 + (root.toValueType.view cachedWhole .key v 0).finish 0 := by
  obtain ⟨⟨header,c⟩,hget,h⟩ := Outcome.bind_eq_ok h
  obtain ⟨h0,h4⟩ := start_rebase hget
  have hgood : ¬(header.getD 0 0 ≠ 0 ∨ header.getD 1 0 > 1) := by
    intro hbad
    simp only [readBehindHeader, if_pos hbad] at h
    cases h
  simp only [readBehindHeader, if_neg hgood, reduceCtorEq, false_and, if_false, false_or, if_pos hk] at h
  obtain ⟨⟨_,_⟩,hstart,h⟩ := Outcome.bind_eq_ok h
  cases hstart
  obtain ⟨⟨_,_⟩,hvalue,h⟩ := Outcome.bind_eq_ok h
  obtain ⟨⟨w,e⟩,hread,hvalue⟩ := Outcome.bind_eq_ok hvalue
  cases hvalue
  cases h
  have hends : ∀ {bswapSrc : Bool} {whole : WholeCopies},
      root.toValueType.Everywhere (Takes bswapSrc (r.keyLookup (host != .big)) whole) →
      RmwCyclonedds.deserialize host (r.keyLookup (host != .big)) plentiful bswapSrc .key root.toValueType (c.rebase 4) =
        .ok (w,e) → e.position = 4 + (root.toValueType.view whole .key v 0).finish 0 := by
    intro bswapSrc whole htakes hread
    obtain ⟨bs,hr,hlen⟩ := deserialize_fixedKey host bswapSrc hfix root.wellFormed htakes hv hread
    rw [h0, Nat.zero_add] at hlen
    rw [hr.position_eq, h4, hlen]
  show e.position = _ ∨ _ ∧ e.position = _
  cases hswap : (header.getD 1 0 == 0) == (host == .little) with
  | true =>
    rw [hswap] at hread
    exact .inl (hends (r.answersExactly.imp fun t _ => takes_swapped _ t) hread)
  | false =>
    rw [hswap] at hread
    cases host with
    | little => exact .inl (hends (r.answersExactly.imp fun t _ => (sound_noShortcut t).takes) hread)
    | big => exact .inr ⟨rfl,hends (r.answersExactly.imp fun t h => (sound_cached h).takes) hread⟩

/-- For a key it does not matter whether messages are requests. -/
theorem extractkeyBe_key (cdr : List Byte) :
    r.extractkeyBe cdr .key = (⟨r.tsc,r.tsc_eq⟩ : CDRReader host root .sample).extractkeyBe cdr .key := by
  cases variant <;> rfl

/-- What the reader of key hashes makes of a stored key: wide characters are left in the order of the host. -/
theorem extractkeyBe_hashed (hk : root.hasKeys = true) {v : Value} (hv : root.toValueType.Has v) (hf : v.Fits) :
    r.extractkeyBe (rtpsHeader host ++ (root.hashedPart host v).encode host 0) .key = .ok (rtpsHeader .big ++
      (if host = .little then swapUnits (root.hashedPart host v) else root.hashedPart host v).encode .big 0) := by
  cases host with
  | big =>
    rw [if_neg (by decide)]
    exact r.extractkey_written hk .big hv (view_fits _ _ _ _ _ hf)
  | little =>
    have hkey := (⟨r.tsc,r.tsc_eq⟩ : CDRReader .little root .sample).extractkeyBe_little hk .key .little hv
      (ValueType.fits_project .key hv hf) []
    rw [List.append_nil, ← r.extractkeyBe_key] at hkey
    rw [root.hashedPart_little hv, if_pos rfl]
    exact hkey

end CDRReader

namespace Sertype
variable {host : Endian} {root : StructValueType} {variant : SampleOrRequest} (s : Sertype host root variant)

/-- No key hash is written behind its end, whatever the key was received in. -/
def KeyhashInBounds : Prop :=
  ∀ (md5 : List Byte → List Byte) (what : SampleOrKey) (payload key : List Byte),
    s.cdrReader.extractkey payload what = .ok key →
      ∀ d : HeldSerdata, d.typed = true → d.key = key → ∀ forceMd5, s.getKeyhash md5 d forceMd5 ≠ .error .undefined

/-- A value without characters and elements. -/
def emptyValue (_ : Sertype host root variant) : Value := Memory.empty.value host root.toValueType Memory.base

/-- Keys are hashed, or they have no strings and no sequences and, with the copies of whole elements that
a big-endian host takes, at most 16 bytes. -/
def LimitsKey : Prop :=
  20 < s.cdrWriter.getMaxSerializedSize .key ∨ root.toValueType.fixedKey = true ∧
    (host = .big → (root.toValueType.view cachedWhole .key s.emptyValue 0).finish 0 ≤ keyhashSize)

theorem getKeyhash_defined_iff (hk : root.hasKeys = true) (md5 : List Byte → List Byte) {d : HeldSerdata}
    (hd : d.typed = true) : (∀ forceMd5, s.getKeyhash md5 d forceMd5 ≠ .error .undefined) ↔
      (s.cdrWriter.getMaxSerializedSize .key ≤ 20 → ∀ keyBe, s.cdrReader.extractkeyBe d.key .key = .ok keyBe →
        (keyBe.drop 4).length ≤ keyhashSize) := by
  have hthrows : ∀ e, s.cdrReader.extractkeyBe d.key .key = .error e → ∀ forceMd5,
      s.getKeyhash md5 d forceMd5 = .error e := by
    intro e he forceMd5
    simp only [getKeyhash, hd, hk, he, bind, Except.bind]
    rfl
  constructor
  · intro h hmax keyBe hkey
    have hcopy := h false
    rw [s.getKeyhash_ok md5 hk hd hkey, if_pos ⟨hmax,rfl⟩] at hcopy
    by_contra hlong
    exact hcopy (if_neg hlong)
  · intro h forceMd5 hundefined
    cases hkey : s.cdrReader.extractkeyBe d.key .key with
    | error e =>
      rw [hthrows e hkey] at hundefined
      obtain ⟨e',rfl⟩ := s.cdrReader.extractkeyBe_throws hkey
      cases hundefined
    | ok keyBe =>
      rw [s.getKeyhash_ok md5 hk hd hkey] at hundefined
      split at hundefined
      · next hcopy =>
        rw [copyKeyhash, if_pos (h hcopy.1 keyBe hkey)] at hundefined
        cases hundefined
      · cases hundefined

/-! ### Fixed keys fit -/

/-- Where keys are copied, the walk for the bound has counted no more bytes than a key hash has. -/
theorem counted_le (hk : root.hasKeys = true) (hmax : s.cdrWriter.getMaxSerializedSize .key ≤ 20) :
    root.toValueType.extent 2 .key .max 0 ≤ keyhashSize := by
  rcases s.cdrWriter.max_eq .key with hmax' | hmax'
  · rw [hmax'] at hmax
    exact absurd hmax (by decide)
  · rw [hmax', boundExtent, if_pos (.inr hk)] at hmax
    have hstart : startOffset variant .key = 0 := by cases variant <;> rfl
    rw [hstart] at hmax
    rw [keyhashSize]
    omega

/-- Where keys are copied, the type lets none be longer than a key hash. -/
theorem extent_le (hk : root.hasKeys = true) (hmax : s.cdrWriter.getMaxSerializedSize .key ≤ 20) :
    root.toValueType.extent 0 .key .max 0 ≤ keyhashSize :=
  (ValueType.extent_le_surplus 2 .key .max root.toValueType 0).trans (s.counted_le hk hmax)

private theorem finish_le (hk : root.hasKeys = true) (hmax : s.cdrWriter.getMaxSerializedSize .key ≤ 20) :
    (root.toValueType.view neverWhole .key s.emptyValue 0).finish 0 ≤ keyhashSize :=
  (ValueType.finish_le_max .key (Memory.empty.value_has host root.toValueType Memory.base)
    (ValueType.inBounds_empty host root.toValueType Memory.base) 0).trans (s.extent_le hk hmax)

private theorem keyhashInBounds_of_limitsKey (hk : root.hasKeys = true) (h : s.LimitsKey) : s.KeyhashInBounds := by
  intro md5 what payload key _ d hd _
  refine (s.getKeyhash_defined_iff hk md5 hd).mpr fun hmax keyBe hkey => ?_
  rcases h with hlarge | ⟨hfix,hbig⟩
  · omega
  · obtain ⟨p,hp,hlen⟩ := (s.cdrReader.extractkeyBe_walk hk d.key).left_ok hkey
    rw [List.length_drop, hlen]
    rcases s.cdrReader.readThrough_fixedKey hk hfix (Memory.empty.value_has host root.toValueType Memory.base) hp with
      hend | ⟨hhost,hend⟩
    · have hfits := s.finish_le hk hmax
      rw [emptyValue] at hfits
      omega
    · have hfits := hbig hhost
      rw [emptyValue] at hfits
      omega

/-! ### Other keys do not -/

/-- A key received from a big-endian writer of that key. -/
private theorem not_inBounds_of_long (hk : root.hasKeys = true) (hmax : s.cdrWriter.getMaxSerializedSize .key ≤ 20)
    {v : Value} (hv : root.toValueType.Has v) (hf : v.Fits)
    (hlong : 17 ≤ (root.hashedPart host v).finish 0) : ¬s.KeyhashInBounds := by
  intro h
  have hreceived := s.cdrReader.extractkey_written hk .big hv (view_fits _ _ _ _ _ hf)
  have hsafe := (s.getKeyhash_defined_iff hk (fun bytes => bytes) (d := ⟨⟨.key,[],_⟩,true,none⟩) rfl).mp
    (h _ .key _ _ hreceived ⟨⟨.key,[],_⟩,true,none⟩ rfl rfl)
  have hshort := hsafe hmax _ (s.cdrReader.extractkeyBe_hashed hk hv hf)
  rw [show (4 : Nat) = (rtpsHeader .big).length from rfl, List.drop_left, root.hashed_length, keyhashSize] at hshort
  omega

/-- Lengths that were received are not compared with the bounds of the type, so exactly the types
that leave no length open are safe. -/
theorem keyhashInBounds_iff (hk : root.hasKeys = true) : (s.LimitsKey → s.KeyhashInBounds) ∧
    (root.toValueType.Solid → s.KeyhashInBounds → s.LimitsKey) := by
  refine ⟨s.keyhashInBounds_of_limitsKey hk,fun hsolid h => ?_⟩
  by_contra hno
  rw [LimitsKey, not_or, Nat.not_lt] at hno
  obtain ⟨hmax,hopen⟩ := hno
  cases hfix : root.toValueType.fixedKey with
  | false =>
    obtain ⟨v,hv,hf,hlong⟩ := ValueType.exists_beyond (CDRReader.wholeFrom host .big) (t := root.toValueType) hsolid
      root.wellFormed hfix 0
    rw [Nat.zero_add] at hlong
    exact s.not_inBounds_of_long hk hmax hv hf hlong h
  | true =>
    have hbig : ¬(host = .big → (root.toValueType.view cachedWhole .key s.emptyValue 0).finish 0 ≤ keyhashSize) :=
      fun hfits => hopen ⟨hfix,hfits⟩
    rw [Classical.not_imp, Nat.not_le, keyhashSize] at hbig
    obtain ⟨rfl,hlong⟩ := hbig
    have hempty : s.emptyValue.Fits := ValueType.fits_of_inBounds (t := root.toValueType) root.wellFormed
      (Memory.empty.value_has _ _ _) (ValueType.inBounds_empty _ _ _)
    exact s.not_inBounds_of_long hk hmax (Memory.empty.value_has _ _ _) hempty hlong h

/-- A message that is identified by up to four bytes: `@key sequence<uint8,4> tag`. -/
def tagged : StructValueType where
  sizeofStruct := 24
  members := .cons 0 true (.spanSequence .callback (.primitive .uint8) 4) .nil
  wellFormed := ⟨⟨True.intro,True.intro,by decide⟩,True.intro⟩

/-- Seventeen bytes for a tag are accepted and then copied, with their length, into the key hash. -/
theorem tagged_overruns : ∃ s : Sertype .little tagged .sample,
    s.cdrReader.extractkey ([0,0,0,0,0,0,0,17] ++ List.replicate 17 7) .key =
      .ok ([0,1,0,0,17,0,0,0] ++ List.replicate 17 7) ∧
    (∀ md5, s.getKeyhash md5 ⟨⟨.key,[],[0,1,0,0,17,0,0,0] ++ List.replicate 17 7⟩,true,none⟩ false = .error .undefined) ∧
    ¬s.KeyhashInBounds := by
  obtain ⟨s,_,_,_,hmax⟩ := exists_of_bounds .little tagged .sample rfl rfl rfl rfl
  have hreceived : s.cdrReader.extractkey ([0,0,0,0,0,0,0,17] ++ List.replicate 17 7) .key =
      .ok ([0,1,0,0,17,0,0,0] ++ List.replicate 17 7) := rfl
  have hover : ∀ md5, s.getKeyhash md5 ⟨⟨.key,[],[0,1,0,0,17,0,0,0] ++ List.replicate 17 7⟩,true,none⟩ false =
      .error .undefined := by
    intro md5
    have hkey : s.cdrReader.extractkeyBe ([0,1,0,0,17,0,0,0] ++ List.replicate 17 7) .key =
        .ok ([0,0,0,0,0,0,0,17] ++ List.replicate 17 7) := rfl
    have hsmall : s.cdrWriter.getMaxSerializedSize .key ≤ 20 := by
      rw [hmax]
      decide
    rw [s.getKeyhash_ok md5 rfl rfl hkey, if_pos ⟨hsmall,rfl⟩]
    rfl
  exact ⟨s,hreceived,hover,fun h => h (fun bytes => bytes) .key _ _ hreceived _ rfl rfl false (hover _)⟩

/-- A key of one number always fits. -/
theorem idMessage_fits : ∃ s : Sertype .little idMessage .sample, s.KeyhashInBounds := by
  obtain ⟨s,_⟩ := exists_of_bounds .little idMessage .sample rfl rfl rfl rfl
  exact ⟨s,(s.keyhashInBounds_iff rfl).1 (.inr ⟨rfl,fun h => nomatch h⟩)⟩

end Sertype
end RmwCyclonedds
