import RmwCyclonedds.Serdata.KeyhashBuffer
import RmwCyclonedds.Serialization.LongestKey

/-! Which keys are their own hash, and which are digested. -/
namespace RmwCyclonedds
open Library
open CDRReader (wholeFrom)

namespace StructValueType
variable (root : StructValueType) (md5 : List Byte → List Byte) (v : Value)

/-- No key of the type is longer than a key hash. -/
def ShortKeys : Prop :=
  ∀ v, root.toValueType.Has v → root.toValueType.InBounds v → (root.keyBody v).length ≤ keyhashSize

theorem shortKeys_iff : root.ShortKeys ↔ root.longestKey ≤ keyhashSize := by
  obtain ⟨⟨w,hw,hb,hlen⟩,hmax⟩ := root.longestKey_isGreatest
  constructor
  · intro h
    rw [← hlen]
    exact h w hw hb
  · intro h v hv hb
    exact (hmax ⟨v,hv,hb,rfl⟩).trans h

/-- If no key is longer than a key hash, none is with two elements more in every run of several. -/
def HasRoom : Prop := root.longestKey ≤ keyhashSize → root.toValueType.extent 2 .key .max 0 ≤ keyhashSize

/-- The rule that peers apply: a key is its own hash if all keys of the type can be. -/
structure IsKeyhash (hash : List Byte) : Prop where
  copied : root.ShortKeys → hash = root.keyBody v ++ List.replicate (keyhashSize - (root.keyBody v).length) 0
  digested : ¬root.ShortKeys → hash = md5 (root.keyBody v)

variable {root md5 v}

theorem IsKeyhash.unique {hash hash' : List Byte} (h : root.IsKeyhash md5 v hash) (h' : root.IsKeyhash md5 v hash') :
    hash = hash' := by
  by_cases hshort : root.ShortKeys
  · rw [h.copied hshort, h'.copied hshort]
  · rw [h.digested hshort, h'.digested hshort]

end StructValueType

namespace Sertype
variable {host : Endian} {root : StructValueType} {variant : SampleOrRequest} (s : Sertype host root variant)

/-- Whatever a value has outside of its key, however a serdata came to its key, and whatever the digest: the
hash is the one that the rule demands. -/
def KeyhashRule (v : Value) : Prop :=
  ∀ w, root.AgreeOnKey v w → ∀ md5 : List Byte → List Byte, (∀ bytes, (md5 bytes).length = keyhashSize) →
    ∀ d : HeldSerdata, d.typed = true → s.KeyedBy w d.toSerdataRmw →
      ∃ hash, s.getKeyhash md5 d false = .ok hash ∧ root.IsKeyhash md5 v hash

/-- No key is digested that the rule copies. -/
def ChoosesRight : Prop := root.longestKey ≤ keyhashSize → s.cdrWriter.getMaxSerializedSize .key ≤ 20

/-- A little-endian host needs wide characters that read the same in both orders, and no host may
copy elements whole of which the key takes only members. -/
def KeyhashCondition (v : Value) : Prop :=
  s.ChoosesRight ∧ (host = .little → swapUnits (root.toValueType.project .key v) = root.toValueType.project .key v) ∧
    ∀ w, root.AgreeOnKey v w → root.MemberWise w

/-- What becomes of the body of a big-endian key. -/
def hashBody (md5 : List Byte → List Byte) (body : List Byte) : Outcome (List Byte) :=
  if s.cdrWriter.getMaxSerializedSize .key ≤ 20 then copyKeyhash body else .ok (md5 body)

theorem getKeyhash_body (md5 : List Byte → List Byte) (hk : root.hasKeys = true) {d : HeldSerdata} (hd : d.typed = true)
    {body : List Byte} (h : s.cdrReader.extractkeyBe d.key .key = .ok (rtpsHeader .big ++ body)) :
    s.getKeyhash md5 d false = s.hashBody md5 body := by
  have hdrop : (rtpsHeader .big ++ body).drop 4 = body := rfl
  rw [s.getKeyhash_ok md5 hk hd h, hdrop, hashBody]
  by_cases hmax : s.cdrWriter.getMaxSerializedSize .key ≤ 20
  · rw [if_pos ⟨hmax,rfl⟩, if_pos hmax]
  · rw [if_neg fun h => hmax h.1, if_neg hmax]

private theorem getKeyhash_digest {md5 : List Byte → List Byte} (hk : root.hasKeys = true) {d : HeldSerdata}
    (hd : d.typed = true) (hlong : ¬s.cdrWriter.getMaxSerializedSize .key ≤ 20) {hash : List Byte}
    (h : s.getKeyhash md5 d false = .ok hash) : ∃ body, hash = md5 body := by
  cases hkey : s.cdrReader.extractkeyBe d.key .key with
  | error e =>
    simp only [getKeyhash, hd, hk, hkey, bind, Except.bind] at h
    cases h
  | ok keyBe =>
    rw [s.getKeyhash_ok md5 hk hd hkey, if_neg fun hcopy => hlong hcopy.1] at h
    exact ⟨_,(Except.ok.inj h).symm⟩

/-! ### The choice -/

/-- With room for it, the walk for the bound comes to its end. -/
private theorem maxKey_of_room (hk : root.hasKeys = true) (hsolid : root.toValueType.Solid)
    (hroom : root.toValueType.extent 2 .key .max 0 ≤ uint32Max) :
    s.cdrWriter.getMaxSerializedSize .key = 4 + root.toValueType.extent 2 .key .max 0 := by
  have hextent : boundExtent 2 root variant .key .max = root.toValueType.extent 2 .key .max 0 := if_pos (.inr hk)
  rw [← hextent] at hroom ⊢
  rcases s.cdrWriter.max_cases .key with ⟨_,hmax⟩ | ⟨hno,_⟩
  · exact hmax
  · exact absurd ⟨fun _ => ValueType.roomy_of_solid .key .max hsolid,hroom⟩ hno

/-- Two elements too many turn a copy into a digest where there is no room for them. -/
theorem choosesRight_iff (hk : root.hasKeys = true) (hsolid : root.toValueType.Solid) : s.ChoosesRight ↔ root.HasRoom := by
  constructor
  · intro hright hshort
    exact s.counted_le hk (hright hshort)
  · intro hroom hshort
    have hlen := hroom hshort
    rw [s.maxKey_of_room hk hsolid (hlen.trans (by decide))]
    unfold keyhashSize at hlen
    omega

/-! ### The rule is met -/

/-- A host that chooses right does right with the right bytes. -/
private theorem hashBody_isKeyhash (md5 : List Byte → List Byte) (hk : root.hasKeys = true) {v : Value} (hv : root.toValueType.Has v)
    (hb : root.toValueType.InBounds v) (hright : s.ChoosesRight) :
    ∃ hash, s.hashBody md5 (root.keyBody v) = .ok hash ∧ root.IsKeyhash md5 v hash := by
  unfold hashBody
  split
  · next hmax =>
    have hshort := root.shortKeys_iff.mpr (s.extent_le hk hmax)
    exact ⟨_,if_pos (hshort v hv hb),fun _ => rfl,fun hlong => absurd hshort hlong⟩
  · next hmax =>
    exact ⟨_,rfl,fun hshort => absurd (hright (root.shortKeys_iff.mp hshort)) hmax,fun _ => rfl⟩

variable (host) in
private theorem view_memberWise (sender : Endian) {w : Value} (hw : root.toValueType.Has w) (hfree : root.MemberWise w) :
    root.toValueType.view (wholeFrom host sender) .key w 0 = root.toValueType.project .key w := by
  unfold wholeFrom
  split
  · exact (ValueType.view_of_copyFree cachedWhole .key hw hfree.1).trans (ValueType.view_never .key hw)
  · exact ValueType.view_never .key hw

private theorem written_memberWise (hk : root.hasKeys = true) (m : Memory) (src : Address)
    (hfree : root.MemberWise (m.value host root.toValueType src)) :
    s.cdrWriter.serialize m src .key = .ok (root.plainKey host (m.value host root.toValueType src)) := by
  have hbody : streamBody host root variant m src .key =
      (root.toValueType.view cachedWhole .key (m.value host root.toValueType src) 0).encode host 0 := by
    cases variant <;> exact if_pos (.inr hk)
  have hview := view_memberWise host host (m.value_has host root.toValueType src) hfree
  rw [wholeFrom, if_pos rfl] at hview
  rw [s.cdrWriter.serialize_eq, hbody, hview, StructValueType.plainKey]

private theorem extractkey_memberWise (hk : root.hasKeys = true) {sender : Endian} {what : SampleOrKey} {bytes : List Byte}
    {w : Value} (hplain : variant = .sample ∨ what = .key) (hf : w.Fits) (hwrote : Wrote sender root what w bytes)
    (hfree : root.MemberWise w) : s.cdrReader.extractkey bytes what = .ok (root.plainKey host w) := by
  rcases hplain with rfl | rfl
  · exact s.extractkey_plainKey hk hf hwrote hfree
  · have hview := view_memberWise host sender hwrote.has hfree
    have hkey := s.cdrReader.extractkey_written hk sender hwrote.has
      (hview ▸ ValueType.fits_project .key hwrote.has hf)
    rw [hview] at hkey
    rw [written_plainKey hk hwrote hfree.1]
    exact hkey

/-- However a serdata came to the key, it holds the key members, at most with zeros behind them. -/
private theorem key_of_memberWise (hk : root.hasKeys = true) {w : Value} (hf : w.Fits) (hfree : root.MemberWise w)
    {d : SerdataRmw} (h : s.KeyedBy w d) : ∃ n, d.key = root.plainKey host w ++ List.replicate n 0 := by
  cases h with
  | fromSample heap kind m src d' object keyed same =>
    subst object
    obtain ⟨size,hsize⟩ := s.cdrWriter.exists_getSerializedSize m src .key
    rcases s.setKeyFromSample_cases m src heap kind (s.written_memberWise hk m src hfree) hsize with
      ⟨_,_,hset⟩ | ⟨_,_,_,hset⟩ | ⟨k,hset,hcase⟩
    · cases keyed.symm.trans hset
    · cases keyed.symm.trans hset
    · cases keyed.symm.trans hset
      exact ⟨_,same.trans (hcase hk).2.2⟩
  | fromSer heap provides sender kind bytes plain wrote keyed =>
    have hset := s.setKeyFromSer_eq provides hk (s.extractkey_memberWise hk plain hf wrote hfree)
    cases keyed.symm.trans hset
    exact ⟨0,(List.append_nil _).symm⟩

/-- Where characters read the same, the key members are hashed. -/
private theorem extractkeyBe_memberWise (hk : root.hasKeys = true) {w : Value} (hw : root.toValueType.Has w) (hf : w.Fits)
    (hfree : root.MemberWise w)
    (hswap : host = .little → swapUnits (root.toValueType.project .key w) = root.toValueType.project .key w)
    (rest : List Byte) :
    s.cdrReader.extractkeyBe (root.plainKey host w ++ rest) .key = .ok (rtpsHeader .big ++ root.keyBody w) := by
  have hfits := ValueType.fits_project .key hw hf
  rw [s.cdrReader.extractkeyBe_key, StructValueType.plainKey, List.append_assoc, StructValueType.keyBody]
  cases host with
  | little =>
    have hkey := (⟨s.cdrReader.tsc,s.cdrReader.tsc_eq⟩ : CDRReader .little root .sample).extractkeyBe_little hk .key
      .little hw hfits rest
    rwa [hswap rfl] at hkey
  | big =>
    have hwalk := extractFree_wholeFrom .big .big .key hw hfree
    have hemit := ValueType.keyBytes_of_free .big .key (trivialMany_of_wholeFrom .big .big) hw
      (fun _ => rfl : Level .key 0 0) hwalk
    have hkey := (⟨s.cdrReader.tsc,s.cdrReader.tsc_eq⟩ : CDRReader .big root .sample).extractkey_stream hk .key .big hw
      hfits (.inr hwalk) rest
    rwa [hemit] at hkey

private theorem keyhashRule_of_condition (hk : root.hasKeys = true) {v : Value} (hv : root.toValueType.Has v)
    (hb : root.toValueType.InBounds v) (hcond : s.KeyhashCondition v) : s.KeyhashRule v := by
  obtain ⟨hright,hswap,hfree⟩ := hcond
  intro w hw md5 _ d hd hkeyed
  obtain ⟨n,hkey⟩ := s.key_of_memberWise hk hw.fits (hfree w hw) hkeyed
  have hbody := s.extractkeyBe_memberWise hk hw.has hw.fits (hfree w hw) (hw.project_eq ▸ hswap) (List.replicate n 0)
  have hsame : root.keyBody w = root.keyBody v := by
    rw [StructValueType.keyBody, StructValueType.keyBody, hw.project_eq]
  rw [← hkey, hsame] at hbody
  rw [s.getKeyhash_body md5 hk hd hbody]
  exact s.hashBody_isKeyhash md5 hk hv hb hright

/-! ### The rule is broken -/

/-- Two bodies that every digest and every copy treat alike begin alike. -/
private theorem not_differ_of_hashBody {as bs : List Byte} (h : ∀ md5 : List Byte → List Byte,
    (∀ bytes, (md5 bytes).length = keyhashSize) → ∃ hash, s.hashBody md5 as = .ok hash ∧ s.hashBody md5 bs = .ok hash) :
    ¬Differ as bs := by
  intro hd
  unfold hashBody at h
  split at h
  · obtain ⟨hash,ha,hb⟩ := h (fun _ => List.replicate keyhashSize 0) fun _ => List.length_replicate
    unfold copyKeyhash at ha hb
    split at ha
    · split at hb
      · exact hd _ _ ((Except.ok.inj ha).trans (Except.ok.inj hb).symm)
      · cases hb
    · cases ha
  · obtain ⟨hash,ha,hb⟩ := h (fun bytes => List.replicate keyhashSize (if bytes = as then 0 else 1))
      fun _ => List.length_replicate
    have heq := (Except.ok.inj ha).trans (Except.ok.inj hb).symm
    rw [if_pos rfl, if_neg hd.ne.symm] at heq
    exact absurd heq (by decide)

private theorem choosesRight_of_rule (hk : root.hasKeys = true) {v : Value} (hrule : s.KeyhashRule v)
    (hv : root.toValueType.Has v) (hf : v.Fits) {d : SerdataRmw} (hd : s.KeyedBy v d) : s.ChoosesRight := by
  intro hshort
  rw [← root.shortKeys_iff] at hshort
  by_contra hlong
  have hdigest : ∀ b : Byte, List.replicate keyhashSize b =
      root.keyBody v ++ List.replicate (keyhashSize - (root.keyBody v).length) 0 := by
    intro b
    obtain ⟨hash,hhash,his⟩ := hrule v ⟨hv,hf,rfl⟩ (fun _ => List.replicate keyhashSize b)
      (fun _ => List.length_replicate) ⟨d,true,none⟩ rfl hd
    obtain ⟨_,hconst⟩ := s.getKeyhash_digest hk rfl hlong hhash
    rw [← hconst, his.copied hshort]
  exact absurd ((hdigest 0).trans (hdigest 1).symm) (by decide)

end Sertype

namespace Sertype
variable {host : Endian} {root : StructValueType} (s : Sertype host root .sample)

/-- A sample from a host with the other byte order gives a serdata the key members and nothing else. -/
private theorem exists_plainKey (hk : root.hasKeys = true) (hr : root.Representable) {w : Value}
    (hw : root.toValueType.Has w) (hf : w.Fits) : ∃ d, s.KeyedBy w d ∧ d.key = root.plainKey host w := by
  let heap : Heap := ⟨fun _ => true,fun _ => 0⟩
  obtain ⟨bytes,hwrote⟩ := exists_wrote s.cdrWriter hr host.opposite .sample hw
  have hkey : s.cdrReader.extractkey bytes SerdataKind.data.what = .ok (root.plainKey host w) :=
    s.extractkey_opposite hk hf hwrote
  exact ⟨_,.fromSer heap (fun _ => rfl) host.opposite .data bytes (.inl rfl) hwrote
    (s.setKeyFromSer_eq (fun _ => rfl : ∀ n, heap.provides n = true) hk hkey),rfl⟩

/-- A key from a host with the same byte order comes with what the copies of its writer let in. -/
private theorem exists_hashedPart (s : Sertype .big root .sample) (hk : root.hasKeys = true) (hr : root.Representable)
    {w : Value} (hw : root.toValueType.Has w) (hf : w.Fits) :
    ∃ d, s.KeyedBy w d ∧ d.key = rtpsHeader .big ++ (root.hashedPart .big w).encode .big 0 := by
  let heap : Heap := ⟨fun _ => true,fun _ => 0⟩
  obtain ⟨bytes,hwrote⟩ := exists_wrote s.cdrWriter hr .big .key hw
  have hbytes : bytes = rtpsHeader .big ++ (root.hashedPart .big w).encode .big 0 := by
    rw [hwrote.key_eq hk, ValueType.keyBytes_of_view .big hw]
    rfl
  have hkey : s.cdrReader.extractkey bytes SerdataKind.key.what = .ok bytes := by
    rw [hbytes]
    exact s.cdrReader.extractkey_written hk .big hw (view_fits _ _ _ _ _ hf)
  exact ⟨_,.fromSer heap (fun _ => rfl) .big .key bytes (.inl rfl) hwrote
    (s.setKeyFromSer_eq (fun _ => rfl : ∀ n, heap.provides n = true) hk hkey),hbytes⟩

/-- What becomes of a stored key of any value with that key. -/
private theorem hashBody_of_rule (hk : root.hasKeys = true) {v w : Value} (hrule : s.KeyhashRule v)
    (hw : root.AgreeOnKey v w) {d : SerdataRmw} (hd : s.KeyedBy w d) {body : List Byte}
    (hbody : s.cdrReader.extractkeyBe d.key .key = .ok (rtpsHeader .big ++ body)) {md5 : List Byte → List Byte}
    (hmd5 : ∀ bytes, (md5 bytes).length = keyhashSize) :
    ∃ hash, s.hashBody md5 body = .ok hash ∧ root.IsKeyhash md5 v hash := by
  have hhash := hrule w hw md5 hmd5 ⟨d,true,none⟩ rfl hd
  rwa [s.getKeyhash_body md5 hk rfl hbody] at hhash

private theorem swap_of_rule (s : Sertype .little root .sample) (hk : root.hasKeys = true) (hr : root.Representable)
    {v : Value} (hrule : s.KeyhashRule v) (hv : root.toValueType.Has v) (hb : root.toValueType.InBounds v)
    (hright : s.ChoosesRight) : swapUnits (root.toValueType.project .key v) = root.toValueType.project .key v := by
  have hf := root.fits_of_inBounds hv hb
  obtain ⟨d,hd,hkey⟩ := s.exists_plainKey hk hr hv hf
  have hbody := s.cdrReader.extractkeyBe_little hk .key .little hv (ValueType.fits_project .key hv hf) []
  rw [List.append_nil, ← StructValueType.plainKey, ← hkey] at hbody
  have hlen : ((swapUnits (root.toValueType.project .key v)).encode .big 0).length = (root.keyBody v).length := by
    have hswapped := Value.encode_length .big (swapUnits (root.toValueType.project .key v)) 0
    rw [Nat.zero_add, finish_swapUnits] at hswapped
    rw [hswapped, root.keyBody_length]
  have hsame := s.not_differ_of_hashBody fun md5 hmd5 => by
    obtain ⟨hash,hhash,his⟩ := s.hashBody_of_rule hk hrule ⟨hv,hf,rfl⟩ hd hbody hmd5
    obtain ⟨hash',hhash',his'⟩ := s.hashBody_isKeyhash md5 hk hv hb hright
    rw [← his.unique his'] at hhash'
    exact ⟨hash,hhash,hhash'⟩
  by_contra hne
  exact hsame (Differ.of_length hlen fun heq => hne (encode_swapUnits_fixed .big heq))

private theorem copyFree_of_rule (s : Sertype .big root .sample) (hk : root.hasKeys = true) (hr : root.Representable)
    (hsolid : root.toValueType.Solid) {v w : Value} (hrule : s.KeyhashRule v) (hw : root.AgreeOnKey v w) :
    root.toValueType.CopyFree cachedWhole .key w 0 := by
  by_contra hcopied
  rw [ValueType.extractFree_key_iff cachedWhole hw.has] at hcopied
  obtain ⟨w',hw',hdiffer⟩ := ValueType.exists_differ .big .key trivialMany_of_cachedWhole hsolid hw.has
    (fun _ => rfl : Level .key 0 0) hcopied
  rw [ValueType.keyBytes_of_view .big hw.has, ValueType.keyBytes_of_view .big hw'.has] at hdiffer
  have hagree : root.AgreeOnKey v w' := ⟨hw'.has,hw'.fits hw.fits,hw'.project_eq.trans hw.project_eq⟩
  have hbody : ∀ {u}, root.AgreeOnKey v u → ∃ d, s.KeyedBy u d ∧
      s.cdrReader.extractkeyBe d.key .key = .ok (rtpsHeader .big ++ (root.hashedPart .big u).encode .big 0) := by
    intro u hu
    obtain ⟨d,hd,hkey⟩ := exists_hashedPart s hk hr hu.has hu.fits
    refine ⟨d,hd,?_⟩
    rw [hkey]
    exact s.cdrReader.extractkeyBe_hashed hk hu.has hu.fits
  obtain ⟨d,hd,hkey⟩ := hbody hw
  obtain ⟨d',hd',hkey'⟩ := hbody hagree
  refine s.not_differ_of_hashBody (fun md5 hmd5 => ?_) hdiffer
  obtain ⟨hash,hhash,his⟩ := s.hashBody_of_rule hk hrule hw hd hkey hmd5
  obtain ⟨hash',hhash',his'⟩ := s.hashBody_of_rule hk hrule hagree hd' hkey' hmd5
  rw [← his.unique his'] at hhash'
  exact ⟨hash,hhash',hhash⟩

/-- What the rule needs of a type for plain messages: for the elements that are copied whole, where the reader of the key
copies them as well. -/
private theorem needed_of_rule (hk : root.hasKeys = true) (hsolid : root.toValueType.Solid) (hr : root.Representable)
    {v : Value} (hv : root.toValueType.Has v) (hb : root.toValueType.InBounds v) (hrule : s.KeyhashRule v) :
    s.ChoosesRight ∧ (host = .little → swapUnits (root.toValueType.project .key v) = root.toValueType.project .key v) ∧
      (host = .big → ∀ w, root.AgreeOnKey v w → root.toValueType.CopyFree cachedWhole .key w 0) := by
  have hf := root.fits_of_inBounds hv hb
  obtain ⟨d,hd,_⟩ := s.exists_plainKey hk hr hv hf
  have hright := s.choosesRight_of_rule hk hrule hv hf hd
  refine ⟨hright,?_,?_⟩
  · rintro rfl
    exact swap_of_rule s hk hr hrule hv hb hright
  · rintro rfl w hw
    exact copyFree_of_rule s hk hr hsolid hrule hw

end Sertype

namespace Sertype
variable {host : Endian} {root : StructValueType} {variant : SampleOrRequest} (s : Sertype host root variant)

/-! ### The rule, and the two typesupports -/

/-- The rule is met under the condition, and not without a right choice, characters that read the same and, on
big-endian hosts, keys of which no elements are copied whole. Typesupports that choose right choose alike. -/
theorem keyhashRule_iff (hk : root.hasKeys = true) {v : Value} (hv : root.toValueType.Has v)
    (hb : root.toValueType.InBounds v) : (s.KeyhashCondition v → s.KeyhashRule v) ∧
    (root.toValueType.Solid → (s.ChoosesRight ↔ root.HasRoom)) ∧
    (variant = .sample → root.toValueType.Solid → root.Representable → s.KeyhashRule v → s.ChoosesRight ∧
      (host = .little → swapUnits (root.toValueType.project .key v) = root.toValueType.project .key v) ∧
      (host = .big → ∀ w, root.AgreeOnKey v w → root.toValueType.CopyFree cachedWhole .key w 0)) ∧
    ∀ {root' : StructValueType} {variant' : SampleOrRequest} (s' : Sertype host root' variant'), root.OneIdl root' →
      s.ChoosesRight → s'.ChoosesRight →
        (s.cdrWriter.getMaxSerializedSize .key ≤ 20 ↔ s'.cdrWriter.getMaxSerializedSize .key ≤ 20) := by
  refine ⟨s.keyhashRule_of_condition hk hv hb,s.choosesRight_iff hk,?_,?_⟩
  · rintro rfl hsolid hr hrule
    exact s.needed_of_rule hk hsolid hr hv hb hrule
  intro root' variant' s' hidl hright hright'
  have hlongest := hidl.longestKey_eq
  constructor
  · intro hmax
    have hshort : root.longestKey ≤ keyhashSize := s.extent_le hk hmax
    exact hright' (hlongest ▸ hshort)
  · intro hmax
    have hshort : root'.longestKey ≤ keyhashSize := s'.extent_le (hidl.hasKeys_eq ▸ hk) hmax
    exact hright (hlongest ▸ hshort)

/-- `@key sequence<boolean,12> flags`, as the descriptions of both typesupports say it. -/
def flagsMembers (ns : Text) (sizeOf : Nat) : MessageMembers := .mk ns "Flags".toList sizeOf
  (.cons ⟨"flags".toList,0,true,true,12,true,0,true⟩ (.primitive .boolean) .nil)

def flagsTypeC : StructValueType where
  sizeofStruct := 24
  members := .cons 0 true (.spanSequence .callback (.primitive .boolean) 12) .nil
  wellFormed := ⟨⟨True.intro,True.intro,by decide⟩,True.intro⟩

def flagsTypeCpp : StructValueType where
  sizeofStruct := 40
  members := .cons 0 true (.boolVector 40 12) .nil
  wellFormed := ⟨Nat.le_of_ble_eq_true rfl,True.intro⟩

private theorem flags_oneIdl : flagsTypeC.OneIdl flagsTypeCpp :=
  ⟨cLayout,cppLayout,flagsMembers "example__msg".toList 24,flagsMembers "example::msg".toList 40,
    ⟨rfl,rfl,True.intro⟩,rfl,rfl⟩

/-- Twelve flags and their count fill a key hash, but the C typesupport has its keys digested. -/
theorem flags_digested : ∃ (s : Sertype .little flagsTypeC .sample) (s' : Sertype .little flagsTypeCpp .sample),
    flagsTypeC.OneIdl flagsTypeCpp ∧ flagsTypeC.ShortKeys ∧ s.cdrWriter.getMaxSerializedSize .key = 22 ∧
    s'.cdrWriter.getMaxSerializedSize .key = 20 ∧ ¬s.KeyhashRule (.struct [.sequence []]) := by
  obtain ⟨s,_,_,_,hmax⟩ := exists_of_bounds .little flagsTypeC .sample rfl rfl rfl rfl
  obtain ⟨s',_,_,_,hmax'⟩ := exists_of_bounds .little flagsTypeCpp .sample rfl rfl rfl rfl
  have hshort : flagsTypeC.longestKey ≤ keyhashSize := by decide
  refine ⟨s,s',flags_oneIdl,flagsTypeC.shortKeys_iff.mpr hshort,hmax,hmax',fun hrule => ?_⟩
  have hempty : flagsTypeC.toValueType.Has (.struct [.sequence []]) := ⟨_,rfl,_,_,rfl,⟨[],rfl,nofun⟩,rfl⟩
  have hfits : (Value.struct [.sequence []]).Fits := ⟨⟨Nat.two_pow_pos 32,True.intro⟩,True.intro⟩
  let heap : Heap := ⟨fun _ => true,fun _ => 0⟩
  have hwrote : Wrote .little flagsTypeC .key (.struct [.sequence []]) [0,1,0,0,0,0,0,0] :=
    ⟨s.cdrWriter,Memory.empty,Memory.base,rfl,s.cdrWriter.serialize_eq Memory.empty Memory.base .key⟩
  have hkey : s.cdrReader.extractkey [0,1,0,0,0,0,0,0] SerdataKind.key.what = .ok [0,1,0,0,0,0,0,0] := rfl
  have hkeyed := Sertype.KeyedBy.fromSer heap (fun _ => rfl) .little .key _ (.inl rfl) hwrote
    (s.setKeyFromSer_eq (fun _ => rfl : ∀ n, heap.provides n = true) rfl hkey)
  have hsmall := s.choosesRight_of_rule rfl hrule hempty hfits hkeyed hshort
  rw [hmax] at hsmall
  exact absurd hsmall (by decide)

/-- `@key Element elements[3]`, where `Element` is `@key uint8 id; uint8 rest`. -/
def elementTriple : StructValueType where
  sizeofStruct := 6
  members := .cons 0 true (.array (.struct 2
    (.cons 0 true (.primitive .uint8) (.cons 1 false (.primitive .uint8) .nil))) 3) .nil
  wellFormed := ⟨⟨True.intro,True.intro,True.intro,True.intro⟩,True.intro⟩

/-- The stored key is 1, 2, 9, 3, 7 with the rest of the second and the third element, and its first three bytes
are taken for the identifiers. -/
theorem elementTriple_hash : ∃ (s : Sertype .little elementTriple .sample) (d : SerdataRmw),
    s.KeyedBy ((Memory.ofBytes [1,8,2,9,3,7]).value .little elementTriple.toValueType Memory.base) d ∧
    elementTriple.keyBody ((Memory.ofBytes [1,8,2,9,3,7]).value .little elementTriple.toValueType Memory.base) = [1,2,3] ∧
    ∀ md5, s.getKeyhash md5 ⟨d,true,none⟩ false = .ok ([1,2,9] ++ List.replicate 13 0) := by
  obtain ⟨s,_,hmin,_,hmax⟩ := exists_of_bounds .little elementTriple .sample rfl rfl rfl rfl
  let heap : Heap := ⟨fun _ => true,fun _ => 0⟩
  have hwrite := s.cdrWriter.serialize_eq (Memory.ofBytes [1,8,2,9,3,7]) Memory.base .key
  have hsize := s.cdrWriter.getSerializedSize_of_eq (Memory.ofBytes [1,8,2,9,3,7]) Memory.base .key (hmin.trans hmax.symm)
  rw [hmax] at hsize
  have hset : s.setKeyFromSample heap (SerdataRmw.make .data) (Memory.ofBytes [1,8,2,9,3,7]) Memory.base =
      .ok ⟨.data,[],[0,1,0,0,1,2,9,3,7]⟩ := by
    simp only [setKeyFromSample, hsize, hwrite, bind, Except.bind]
    rfl
  refine ⟨s,_,.fromSample heap .data _ _ _ rfl hset rfl,by decide,fun md5 => ?_⟩
  have hkey : s.cdrReader.extractkeyBe [0,1,0,0,1,2,9,3,7] .key = .ok (rtpsHeader .big ++ [1,2,9]) := rfl
  have hsmall : s.cdrWriter.getMaxSerializedSize .key ≤ 20 := by
    rw [hmax]
    decide
  rw [s.getKeyhash_body md5 rfl rfl hkey, hashBody, if_pos hsmall]
  rfl

/-- A number of four bytes is its own hash, here the big-endian 5 and twelve zeros. -/
theorem idMessage_keyhashRule : ∃ s : Sertype .little idMessage .sample, s.KeyhashRule (.struct [.primitive .four 5]) := by
  obtain ⟨s,_,_,_,hmax⟩ := exists_of_bounds .little idMessage .sample rfl rfl rfl rfl
  have hright : s.ChoosesRight := by
    intro _
    rw [hmax]
    decide
  have hnumber : idMessage.toValueType.Has (.struct [.primitive .four 5]) := ⟨_,rfl,_,_,rfl,⟨5,by decide,rfl⟩,rfl⟩
  have hfree : ∀ w, idMessage.AgreeOnKey (.struct [.primitive .four 5]) w → idMessage.MemberWise w := by
    intro w hw
    obtain ⟨_,rfl,_,_,rfl,⟨_,_,rfl⟩,rfl⟩ := hw.has
    exact ⟨⟨True.intro,True.intro⟩,⟨True.intro,True.intro⟩⟩
  exact ⟨s,(s.keyhashRule_iff rfl hnumber ⟨True.intro,True.intro⟩).1 ⟨hright,fun _ => rfl,hfree⟩⟩

end Sertype
end RmwCyclonedds
