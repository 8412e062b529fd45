import RmwCyclonedds.Serdata.Construction
import RmwCyclonedds.Serialization.NonKey
import RmwCyclonedds.Serialization.SerializedSize

/-! The keys of serdata, by whichever route they came, and what of a value they reveal. -/
namespace RmwCyclonedds
open Library SerdataRmw
open CDRReader (wholeFrom)

/-- A writer with the given byte order wrote these bytes for the value. -/
def Wrote (sender : Endian) (root : StructValueType) (what : SampleOrKey) (v : Value) (bytes : List Byte) : Prop :=
  ∃ (w : CDRWriter sender root .sample) (m : Memory) (src : Address),
    m.value sender root.toValueType src = v ∧ w.serialize m src what = .ok bytes

namespace StructValueType
variable (root : StructValueType)

/-- No walk for the key of a value copies elements whole of which the key takes only members. -/
def MemberWise (v : Value) : Prop :=
  root.toValueType.CopyFree cachedWhole .key v 0 ∧ root.toValueType.ExtractFree cachedWhole .sample v 0

/-- The key members and nothing else, encoded. -/
def plainKey (host : Endian) (v : Value) : List Byte :=
  rtpsHeader host ++ (root.toValueType.project .key v).encode host 0

/-- A value of the type with the same key members. -/
structure AgreeOnKey (v w : Value) : Prop where
  has : root.toValueType.Has w
  fits : w.Fits
  project_eq : root.toValueType.project .key w = root.toValueType.project .key v

theorem fits_of_inBounds {v : Value} (hv : root.toValueType.Has v) (hb : root.toValueType.InBounds v) : v.Fits :=
  ValueType.fits_of_inBounds (t := root.toValueType) root.wellFormed hv hb

end StructValueType

section
variable {root : StructValueType} {v : Value} {bytes : List Byte}

theorem Wrote.has {sender : Endian} {what : SampleOrKey} (h : Wrote sender root what v bytes) : root.toValueType.Has v := by
  obtain ⟨_,m,src,rfl,_⟩ := h
  exact m.value_has sender root.toValueType src

theorem Wrote.sample_eq {sender : Endian} (h : Wrote sender root .sample v bytes) :
    bytes = rtpsHeader sender ++ v.encode sender 0 := by
  obtain ⟨w,m,src,rfl,hbytes⟩ := h
  rw [w.serialize_eq, w.sampleBody_eq] at hbytes
  exact (Except.ok.inj hbytes).symm

/-- A written key holds what the walk lets through. -/
theorem Wrote.key_eq {sender : Endian} (hk : root.hasKeys = true) (h : Wrote sender root .key v bytes) :
    bytes = rtpsHeader sender ++ root.toValueType.keyBytes sender .key cachedWhole v 0 0 := by
  have hv := h.has
  obtain ⟨w,m,src,rfl,hbytes⟩ := h
  rw [w.serialize_eq] at hbytes
  have hbody : streamBody sender root .sample m src .key =
      (root.toValueType.view cachedWhole .key (m.value sender root.toValueType src) 0).encode sender 0 :=
    if_pos (.inr hk)
  rw [ValueType.keyBytes_of_view sender hv, ← hbody]
  exact (Except.ok.inj hbytes).symm

/-- Writers for either byte order differ in nothing else. -/
theorem exists_wrote {host : Endian} (w : CDRWriter host root .sample) (hr : root.Representable) (sender : Endian)
    (what : SampleOrKey) (hv : root.toValueType.Has v) : ∃ bytes, Wrote sender root what v bytes := by
  obtain ⟨m,src,hval⟩ := hr sender v hv
  have w' : CDRWriter sender root .sample :=
    ⟨w.tsc,_,_,_,_,w.tsc_eq,w.minData_eq,w.minKey_eq,w.maxData_eq,w.maxKey_eq⟩
  exact ⟨_,w',m,src,hval,w'.serialize_eq m src what⟩

theorem trivialMany_of_cachedWhole (off : Nat) (t : ValueType) (h : cachedWhole off t = true) :
    t.trivialMany off = true := h

theorem trivialMany_of_wholeFrom (host sender : Endian) (off : Nat) (t : ValueType) (h : wholeFrom host sender off t = true) :
    t.trivialMany off = true := by
  unfold wholeFrom at h
  split at h
  · exact h
  · cases h

theorem extractFree_wholeFrom (host sender : Endian) (what : SampleOrKey) (hv : root.toValueType.Has v) (hfree : root.MemberWise v) :
    root.toValueType.ExtractFree (wholeFrom host sender) what v 0 := by
  unfold wholeFrom
  split
  · cases what with
    | sample => exact hfree.2
    | key => exact (ValueType.extractFree_key_iff cachedWhole hv).mp hfree.1
  · exact ValueType.extractFree_never what root.toValueType v 0

end

namespace Sertype

section
variable {host : Endian} {root : StructValueType} {variant : SampleOrRequest} (s : Sertype host root variant)

/-- The serdata has been given the key of the value: that of an object at hand, or that of a
sample or a key that came from the wire. -/
inductive KeyedBy (v : Value) (d : SerdataRmw) : Prop
  | fromSample (heap : Heap) (kind : SerdataKind) (m : Memory) (src : Address) (d' : SerdataRmw)
      (object : m.value host root.toValueType src = v)
      (keyed : s.setKeyFromSample heap (make kind) m src = .ok d') (same : d.key = d'.key)
  | fromSer (heap : Heap) (provides : ∀ n, heap.provides n = true) (sender : Endian) (kind : SerdataKind)
      (bytes : List Byte) (plain : variant = .sample ∨ kind.what = .key) (wrote : Wrote sender root kind.what v bytes)
      (keyed : s.setKeyFromSer heap ⟨kind,padded bytes,[]⟩ = .ok d)

theorem KeyedBy.has {v : Value} {d : SerdataRmw} (h : s.KeyedBy v d) : root.toValueType.Has v := by
  cases h with
  | fromSample heap kind m src d' object keyed same =>
    subst object
    exact m.value_has host root.toValueType src
  | fromSer heap provides sender kind bytes plain wrote keyed => exact wrote.has

/-- A key from the wire, stored. -/
theorem setKeyFromSer_eq {heap : Heap} (hprovides : ∀ n, heap.provides n = true) (hk : root.hasKeys = true)
    {kind : SerdataKind} {bytes key : List Byte} (h : s.cdrReader.extractkey bytes kind.what = .ok key) :
    s.setKeyFromSer heap ⟨kind,padded bytes,[]⟩ = .ok ⟨kind,padded bytes,key⟩ := by
  have hpadded := (s.cdrReader.extractkey_any bytes kind.what).2 key h (List.replicate (nPadBytes bytes.length) 0)
  have hpadded' : s.cdrReader.extractkey (padded bytes) kind.what = .ok key := hpadded
  simp only [setKeyFromSer, extractInto, hk, if_true, hpadded', bind, Except.bind, setKey, hprovides]
  by_cases h0 : key.length = 0
  · rw [if_pos h0, List.eq_nil_of_length_eq_zero h0]
    rfl
  · rw [if_neg h0]
    rfl

end

variable {host : Endian} {root : StructValueType} (s : Sertype host root .sample) {v : Value}

/-! ### The key of a value -/

theorem written_plainKey {sender : Endian} (hk : root.hasKeys = true) {bytes : List Byte}
    (h : Wrote sender root .key v bytes) (hfree : root.toValueType.CopyFree cachedWhole .key v 0) :
    bytes = root.plainKey sender v := by
  have hemit := ValueType.keyBytes_of_free sender .key trivialMany_of_cachedWhole h.has (fun _ => rfl : Level .key 0 0)
    ((ValueType.extractFree_key_iff cachedWhole h.has).mp hfree)
  rw [h.key_eq hk, hemit, StructValueType.plainKey]

/-- What is extracted from a sample, whoever sent it. -/
theorem extractkey_sample {sender : Endian} (hk : root.hasKeys = true) (hf : v.Fits) {bytes : List Byte}
    (h : Wrote sender root .sample v bytes) : s.cdrReader.extractkey bytes .sample =
      .ok (rtpsHeader host ++ root.toValueType.keyBytes host .sample (wholeFrom host sender) v 0 0) := by
  have hsame := ValueType.project_sample h.has
  have hkey := s.cdrReader.extractkey_stream hk .sample sender h.has (by rw [hsame]; exact hf) (.inl rfl) []
  rw [hsame, List.append_nil] at hkey
  rw [h.sample_eq]
  exact hkey

theorem extractkey_plainKey {sender : Endian} {what : SampleOrKey} (hk : root.hasKeys = true) (hf : v.Fits)
    {bytes : List Byte} (h : Wrote sender root what v bytes) (hfree : root.MemberWise v) :
    s.cdrReader.extractkey bytes what = .ok (root.plainKey host v) := by
  have hwalk := extractFree_wholeFrom host sender what h.has hfree
  have hemit := ValueType.keyBytes_of_free host what (trivialMany_of_wholeFrom host sender) h.has
    (fun _ => rfl : Level what 0 0) hwalk
  have hstream : bytes = rtpsHeader sender ++ ((root.toValueType.project what v).encode sender 0 ++ []) := by
    rw [List.append_nil]
    cases what with
    | sample => rw [ValueType.project_sample h.has, h.sample_eq]
    | key => exact written_plainKey hk h hfree.1
  have hkey := s.cdrReader.extractkey_stream hk what sender h.has (ValueType.fits_project what h.has hf)
    (.inr hwalk) []
  rw [hstream, hkey, hemit, StructValueType.plainKey]

/-- A sample from a host with the other byte order is never copied whole. -/
theorem extractkey_opposite (hk : root.hasKeys = true) (hf : v.Fits) {bytes : List Byte}
    (h : Wrote host.opposite root .sample v bytes) :
    s.cdrReader.extractkey bytes .sample = .ok (root.plainKey host v) := by
  have hne : wholeFrom host host.opposite = neverWhole := by cases host <;> rfl
  have hemit := ValueType.keyBytes_of_free host .sample (trivialMany_of_wholeFrom host host.opposite) h.has
    (fun h => (nomatch h) : Level .sample 0 0) (by
      rw [hne]
      exact ValueType.extractFree_never .sample root.toValueType v 0)
  rw [s.extractkey_sample hk hf h, hemit, StructValueType.plainKey]

/-! ### Nothing but the key -/

/-- Whatever else changes in a value, its key does not: neither as it is written, nor as it
is extracted from the sample. -/
def HidesRest (v : Value) : Prop := ∀ w, root.AgreeOnKey v w →
  (∀ bytes bytes', Wrote host root .key v bytes → Wrote host root .key w bytes' → bytes = bytes') ∧
  ∀ sender bytes bytes', Wrote sender root .sample v bytes → Wrote sender root .sample w bytes' →
    ∃ key, s.cdrReader.extractkey bytes .sample = .ok key ∧ s.cdrReader.extractkey bytes' .sample = .ok key

private theorem hidesRest_of_memberWise (hk : root.hasKeys = true) (hv : root.toValueType.Has v) (hf : v.Fits)
    (hfree : ∀ w, root.AgreeOnKey v w → root.MemberWise w) : s.HidesRest v := by
  intro w hw
  have hfv := hfree v ⟨hv,hf,rfl⟩
  have hfw := hfree w hw
  have hkey : ∀ e, root.plainKey e v = root.plainKey e w := by
    intro e
    rw [StructValueType.plainKey, StructValueType.plainKey, hw.project_eq]
  refine ⟨fun bytes bytes' h h' => ?_,fun sender bytes bytes' h h' => ?_⟩
  · rw [written_plainKey hk h hfv.1, written_plainKey hk h' hfw.1, hkey]
  · refine ⟨root.plainKey host v,s.extractkey_plainKey hk hf h hfv,?_⟩
    rw [hkey]
    exact s.extractkey_plainKey hk hw.fits h' hfw

/-- Values whose keys differ behind the header, whatever the walk. -/
private theorem differ_header {as bs : List Byte} (h : Differ as bs) : rtpsHeader host ++ as ≠ rtpsHeader host ++ bs :=
  fun heq => h.ne (List.append_cancel_left heq)

private theorem memberWise_of_hidesRest (hk : root.hasKeys = true) (hs : root.toValueType.Solid)
    (hr : root.Representable) (hv : root.toValueType.Has v) (hhides : s.HidesRest v) {w : Value}
    (hw : root.AgreeOnKey v w) : root.MemberWise w := by
  have hagree : ∀ {w'}, SameKey root.toValueType w w' → root.AgreeOnKey v w' := fun h =>
    ⟨h.has,h.fits hw.fits,h.project_eq.trans hw.project_eq⟩
  constructor
  · by_contra hfree
    rw [ValueType.extractFree_key_iff cachedWhole hw.has] at hfree
    obtain ⟨w',hw',hd⟩ := ValueType.exists_differ host .key trivialMany_of_cachedWhole hs hw.has
      (fun _ => rfl : Level .key 0 0) hfree
    obtain ⟨b,hb⟩ := exists_wrote s.cdrWriter hr host .key hv
    obtain ⟨c,hc⟩ := exists_wrote s.cdrWriter hr host .key hw.has
    obtain ⟨c',hc'⟩ := exists_wrote s.cdrWriter hr host .key hw'.has
    have heq : c' = c := ((hhides w' (hagree hw')).1 b c' hb hc').symm.trans ((hhides w hw).1 b c hb hc)
    rw [hc.key_eq hk, hc'.key_eq hk] at heq
    exact differ_header hd heq
  · by_contra hfree
    obtain ⟨w',hw',hd⟩ := ValueType.exists_differ host .sample trivialMany_of_cachedWhole hs hw.has
      (fun h => (nomatch h) : Level .sample 0 0) hfree
    obtain ⟨b,hb⟩ := exists_wrote s.cdrWriter hr host .sample hv
    obtain ⟨c,hc⟩ := exists_wrote s.cdrWriter hr host .sample hw.has
    obtain ⟨c',hc'⟩ := exists_wrote s.cdrWriter hr host .sample hw'.has
    obtain ⟨key,hkb,hkc⟩ := (hhides w hw).2 host b c hb hc
    obtain ⟨key',hkb',hkc'⟩ := (hhides w' (hagree hw')).2 host b c' hb hc'
    have heq : key' = key := Except.ok.inj (hkb'.symm.trans hkb)
    have hwhole : wholeFrom host host = cachedWhole := if_pos rfl
    rw [s.extractkey_sample hk hw.fits hc, hwhole] at hkc
    rw [s.extractkey_sample hk (hagree hw').fits hc', hwhole] at hkc'
    exact differ_header hd ((Except.ok.inj hkc').trans (heq.trans (Except.ok.inj hkc).symm))

/-- The key hides the rest of a value exactly where no value with that key has elements that
a walk copies whole. -/
theorem hidesRest_iff (hk : root.hasKeys = true) (hv : root.toValueType.Has v) (hf : v.Fits) :
    ((∀ w, root.AgreeOnKey v w → root.MemberWise w) → s.HidesRest v) ∧
    (root.toValueType.Solid → root.Representable → s.HidesRest v → ∀ w, root.AgreeOnKey v w → root.MemberWise w) :=
  ⟨s.hidesRest_of_memberWise hk hv hf,fun hs hr h _ hw => s.memberWise_of_hidesRest hk hs hr hv h hw⟩

/-- The key members of a value in memory are its identifiers. -/
private theorem keyedElements_project (m : Memory) : CDRWriter.keyedElements.toValueType.project .key
    (m.value .little CDRWriter.keyedElements.toValueType Memory.base) =
      .struct [.array ((List.range 4).map fun i =>
        .struct [.primitive .four (Endian.little.decode (m.read ⟨0,i * 8⟩ 4))])] := rfl

/-- Two values of `@key Element elements[4]` that differ only outside of the key, in the second element. -/
theorem keyedElements_rest_in_key : ∃ s : Sertype .little CDRWriter.keyedElements .sample,
    ∃ v w key key', CDRWriter.keyedElements.AgreeOnKey v w ∧ key ≠ key' ∧
      Wrote .little CDRWriter.keyedElements .key v key ∧ Wrote .little CDRWriter.keyedElements .key w key' ∧
      (∀ bytes, Wrote .little CDRWriter.keyedElements .sample v bytes →
        s.cdrReader.extractkey bytes .sample = .ok key) ∧
      ∀ bytes, Wrote .little CDRWriter.keyedElements .sample w bytes →
        s.cdrReader.extractkey bytes .sample = .ok key' := by
  obtain ⟨s,_⟩ := exists_of_bounds .little CDRWriter.keyedElements .sample rfl rfl rfl rfl
  let rest := Memory.ofBytes [0,0,0,0,0,0,0,0,0,0,0,0,1]
  have hfits : ∀ m : Memory, (m.value .little CDRWriter.keyedElements.toValueType Memory.base).Fits := fun m =>
    ⟨⟨⟨True.intro,True.intro,True.intro⟩,⟨True.intro,True.intro,True.intro⟩,⟨True.intro,True.intro,True.intro⟩,
      ⟨True.intro,True.intro,True.intro⟩,True.intro⟩,True.intro⟩
  refine ⟨s,Memory.empty.value .little _ Memory.base,rest.value .little _ Memory.base,_,_,?_,?_,
    ⟨s.cdrWriter,_,_,rfl,s.cdrWriter.serialize_eq _ _ .key⟩,⟨s.cdrWriter,_,_,rfl,s.cdrWriter.serialize_eq _ _ .key⟩,?_,?_⟩
  · have hid : ∀ i ∈ List.range 4, Endian.little.decode (rest.read ⟨0,i * 8⟩ 4) =
        Endian.little.decode (Memory.empty.read ⟨0,i * 8⟩ 4) := by decide
    refine ⟨rest.value_has _ _ _,hfits rest,?_⟩
    rw [keyedElements_project, keyedElements_project, List.map_congr_left fun i hi => by rw [hid i hi]]
  · decide
  · exact fun bytes h => s.extractkey_sample rfl (hfits _) h
  · exact fun bytes h => (s.extractkey_sample rfl (hfits _) h).trans (congrArg Except.ok (by decide))

/-- A message with a key and a text beside it: `@key uint32 id; string text`. -/
def labelled : StructValueType where
  sizeofStruct := 40
  members := .cons 0 true (.primitive .uint32) (.cons 8 false (.u8string 32 (uint32Max - 1)) .nil)
  wellFormed := ⟨True.intro,Nat.le_refl _,True.intro⟩

private theorem labelled_representable : labelled.Representable := by
  intro host v hv
  obtain ⟨_,rfl,_,_,rfl,⟨n,hn,rfl⟩,_,_,rfl,⟨cs,rfl⟩,rfl⟩ := hv
  refine ⟨{Memory.ofBytes (host.encode 4 n) with u8string := fun _ => cs},Memory.base,?_⟩
  have hread := Memory.read_ofBytes (host.encode 4 n)
  rw [host.encode_length] at hread
  have hid : host.decode ((Memory.ofBytes (host.encode 4 n)).read Memory.base 4) = n := by
    rw [hread]
    exact host.decode_encode hn
  exact congrArg (fun k => Value.struct [.primitive .four k,.u8string cs]) hid

private theorem labelled_memberWise {v : Value} (hv : labelled.toValueType.Has v) : labelled.MemberWise v := by
  obtain ⟨_,rfl,_,_,rfl,⟨n,_,rfl⟩,_,_,rfl,⟨cs,rfl⟩,rfl⟩ := hv
  exact ⟨⟨True.intro,True.intro⟩,⟨True.intro,True.intro⟩⟩

/-- The text stays out of the key. -/
theorem labelled_hides_text : ∃ s : Sertype .little labelled .sample,
    s.HidesRest (.struct [.primitive .four 7,.u8string [104,105]]) ∧
      ∀ w, labelled.AgreeOnKey (.struct [.primitive .four 7,.u8string [104,105]]) w → labelled.MemberWise w := by
  obtain ⟨s,_⟩ := exists_of_bounds .little labelled .sample rfl rfl rfl rfl
  have hv : labelled.toValueType.Has (.struct [.primitive .four 7,.u8string [104,105]]) :=
    ⟨_,rfl,_,_,rfl,⟨7,by decide,rfl⟩,_,_,rfl,⟨_,rfl⟩,rfl⟩
  have hf : (Value.struct [.primitive .four 7,.u8string [104,105]]).Fits :=
    ⟨True.intro,(by decide : [(104 : Byte),105].length + 1 < 2 ^ 32),True.intro⟩
  have hboth := s.hidesRest_iff rfl hv hf
  have hhides := hboth.1 fun w hw => labelled_memberWise hw.has
  exact ⟨_,hhides,hboth.2 ⟨(nomatch ·),True.intro,True.intro,True.intro⟩ labelled_representable hhides⟩

/-! ### One key for one instance -/

/-- All routes to the key of a value lead to these bytes. -/
structure RoutesTo (v : Value) (key : List Byte) : Prop where
  written : ∀ bytes, Wrote host root .key v bytes → bytes = key
  extracted : ∀ sender what bytes, Wrote sender root what v bytes → s.cdrReader.extractkey bytes what = .ok key

/-- Serdata from a sample keep the key that was set first. -/
theorem keyedBy_of_fromSample {heap : Heap} {kind : SerdataKind} {m : Memory} {src : Address} {d : SerdataRmw}
    (h : s.fromSample heap kind m src = .ok (some d)) : s.KeyedBy (m.value host root.toValueType src) d := by
  unfold fromSample at h
  cases hset : s.setKeyFromSample heap (make kind) m src with
  | error e =>
    simp only [hset, bind, Except.bind] at h
    cases e <;> cases h
  | ok d' =>
    refine .fromSample heap kind m src d' rfl hset ?_
    simp only [hset, bind, Except.bind] at h
    cases hinto : s.serializeInto heap d' m src with
    | error e =>
      simp only [hinto] at h
      cases e <;> cases h
    | ok d'' =>
      simp only [hinto] at h
      cases h
      exact s.serializeInto_key hinto

theorem keyedBy_of_fromSer {heap : Heap} (hprovides : ∀ n, heap.provides n = true) {sender : Endian}
    {kind : SerdataKind} {payload : List Byte} (hwrote : Wrote sender root kind.what v payload)
    {chain : List Fragment} (hchain : Delivers payload 0 chain) {d : SerdataRmw}
    (h : s.fromSer heap kind chain payload.length = .ok (some d)) : s.KeyedBy v d :=
  .fromSer heap hprovides sender kind payload (.inl rfl) hwrote (s.setKeyFromSer_of_fromSer heap kind hprovides hchain h)

theorem keyedBy_of_fromSerIov {heap : Heap} (hprovides : ∀ n, heap.provides n = true) {sender : Endian}
    {kind : SerdataKind} {iov : List (List Byte)} (hwrote : Wrote sender root kind.what v iov.flatten) {d : SerdataRmw}
    (h : s.fromSerIov heap kind iov iov.flatten.length = .ok (some d)) : s.KeyedBy v d :=
  .fromSer heap hprovides sender kind iov.flatten (.inl rfl) hwrote (s.setKeyFromSer_of_fromSerIov heap kind hprovides iov h)

/-- Keys identify instances: all routes to the key of a value agree, every sample can be given
its key, and keys of serdata are equal when their values agree on the key members. -/
structure KeysIdentify : Prop where
  routes : ∀ v, root.toValueType.Has v → root.toValueType.InBounds v → ∃ key, s.RoutesTo v key
  keyed : ∀ heap : Heap, (∀ n, heap.provides n = true) → ∀ (kind : SerdataKind) (m : Memory) (src : Address),
    root.toValueType.InBounds (m.value host root.toValueType src) →
      ∃ d, s.setKeyFromSample heap (make kind) m src = .ok d
  eqkey_iff : ∀ v v' d d', root.toValueType.InBounds v → root.toValueType.InBounds v' → s.KeyedBy v d →
    s.KeyedBy v' d' → (eqkey d d' = true ↔ root.toValueType.project .key v = root.toValueType.project .key v')

/-- The announced size of a key is measured, or it is what the key takes. -/
def AnnouncesKey (v : Value) : Prop :=
  s.cdrWriter.minSerializedKeySize ≠ s.cdrWriter.maxSerializedKeySize ∨
    s.cdrWriter.minSerializedKeySize = 4 + (root.toValueType.project .key v).finish 0

theorem plainKey_length (host : Endian) (root : StructValueType) (v : Value) :
    (root.plainKey host v).length = 4 + (root.toValueType.project .key v).finish 0 := by
  have hlen := Value.encode_length host (root.toValueType.project .key v) 0
  rw [Nat.zero_add] at hlen
  rw [StructValueType.plainKey, List.length_append, hlen]
  rfl

theorem plainKey_inj {w : Value} (hv : root.toValueType.Has v) (hw : root.toValueType.Has w)
    (hfv : (root.toValueType.project .key v).Fits) (hfw : (root.toValueType.project .key w).Fits)
    (h : root.plainKey host v = root.plainKey host w) :
    root.toValueType.project .key v = root.toValueType.project .key w := by
  have hview : root.toValueType.view neverWhole .key v 0 = root.toValueType.project .key v := ValueType.view_never .key hv
  have hview' : root.toValueType.view neverWhole .key w 0 = root.toValueType.project .key w := ValueType.view_never .key hw
  have hbody := congrArg (· ++ ([] : List Byte)) (List.append_cancel_left h)
  rw [← hview, ← hview'] at hbody ⊢
  rw [← hview] at hfv
  rw [← hview'] at hfw
  exact (ValueType.encode_inj host .key hv hw hfv hfw hbody).1

section
variable (m : Memory) (src : Address)

private theorem keysize_of_memberWise (hk : root.hasKeys = true)
    (hfree : root.MemberWise (m.value host root.toValueType src)) :
    s.cdrWriter.serialize m src .key = .ok (root.plainKey host (m.value host root.toValueType src)) ∧
      (s.AnnouncesKey (m.value host root.toValueType src) → s.cdrWriter.getSerializedSize m src .key =
        .ok (root.plainKey host (m.value host root.toValueType src)).length) := by
  have hwrite := s.cdrWriter.serialize_eq m src .key
  have hplain := written_plainKey hk ⟨s.cdrWriter,m,src,rfl,hwrite⟩ hfree.1
  rw [hplain] at hwrite
  refine ⟨hwrite,fun hann => ?_⟩
  by_cases hne : s.cdrWriter.minSerializedKeySize = s.cdrWriter.maxSerializedKeySize
  · have hmin := hann.resolve_left fun h => h hne
    rw [s.cdrWriter.getSerializedSize_of_eq m src .key hne, plainKey_length, ← hmin, hne]
    rfl
  · rw [s.cdrWriter.getSerializedSize_of_ne m src .key hne, ← hplain, List.length_append]
    rfl

private theorem setKeyFromSample_plainKey (hk : root.hasKeys = true)
    (hfree : root.MemberWise (m.value host root.toValueType src))
    (hann : s.AnnouncesKey (m.value host root.toValueType src)) (heap : Heap) (kind : SerdataKind) :
    s.setKeyFromSample heap (make kind) m src = .error (.throws .badAlloc) ∧ ¬(∀ n, heap.provides n = true) ∨
      s.setKeyFromSample heap (make kind) m src =
        .ok ⟨kind,[],root.plainKey host (m.value host root.toValueType src)⟩ := by
  obtain ⟨hkey,hsize⟩ := s.keysize_of_memberWise m src hk hfree
  rcases s.setKeyFromSample_cases m src heap kind hkey (hsize hann) with ⟨_,hno,hset⟩ | ⟨_,hover,_⟩ | ⟨k,hset,hcase⟩
  · refine .inl ⟨hset,fun hall => ?_⟩
    exact Bool.noConfusion ((hall _).symm.trans hno)
  · exact absurd hover (Nat.lt_irrefl _)
  · obtain ⟨_,_,rfl⟩ := hcase hk
    rw [Nat.sub_self, List.replicate_zero, List.append_nil] at hset
    exact .inr hset

end

/-- However a serdata came to its key, it is the plain one. -/
private theorem key_of_keyedBy (hk : root.hasKeys = true) (hf : v.Fits) (hfree : root.MemberWise v)
    (hann : s.AnnouncesKey v) {d : SerdataRmw} (h : s.KeyedBy v d) : d.key = root.plainKey host v := by
  cases h with
  | fromSample heap kind m src d' object keyed same =>
    subst object
    rcases s.setKeyFromSample_plainKey m src hk hfree hann heap kind with ⟨hset,_⟩ | hset
    · cases keyed.symm.trans hset
    · cases keyed.symm.trans hset
      exact same
  | fromSer heap provides sender kind bytes _ wrote keyed =>
    have hset := s.setKeyFromSer_eq provides hk (s.extractkey_plainKey hk hf wrote hfree)
    cases keyed.symm.trans hset
    rfl

private theorem keysIdentify_of_memberWise (hk : root.hasKeys = true)
    (h : ∀ v, root.toValueType.Has v → root.toValueType.InBounds v → root.MemberWise v ∧ s.AnnouncesKey v) :
    s.KeysIdentify := by
  have hfits : ∀ {v}, root.toValueType.Has v → root.toValueType.InBounds v → v.Fits := root.fits_of_inBounds
  constructor
  · intro v hv hb
    refine ⟨root.plainKey host v,?_,?_⟩
    · exact fun bytes hwrote => written_plainKey hk hwrote (h v hv hb).1.1
    · exact fun sender what bytes hwrote => s.extractkey_plainKey hk (hfits hv hb) hwrote (h v hv hb).1
  · intro heap hprovides kind m src hb
    obtain ⟨hfree,hann⟩ := h _ (m.value_has host root.toValueType src) hb
    rcases s.setKeyFromSample_plainKey m src hk hfree hann heap kind with ⟨_,hno⟩ | hset
    · exact absurd hprovides hno
    · exact ⟨_,hset⟩
  · intro v v' d d' hb hb' hd hd'
    have hv := KeyedBy.has s hd
    have hv' := KeyedBy.has s hd'
    have hfree := h v hv hb
    have hfree' := h v' hv' hb'
    rw [SerdataRmw.eqkey_iff, s.key_of_keyedBy hk (hfits hv hb) hfree.1 hfree.2 hd,
      s.key_of_keyedBy hk (hfits hv' hb') hfree'.1 hfree'.2 hd']
    refine ⟨plainKey_inj hv hv' (ValueType.fits_project .key hv (hfits hv hb))
      (ValueType.fits_project .key hv' (hfits hv' hb')),fun hsame => ?_⟩
    rw [StructValueType.plainKey, StructValueType.plainKey, hsame]

/-- The routes lead to the plain key: that is what a host with the other byte order gets. -/
private theorem routesTo_plainKey (hk : root.hasKeys = true) (hr : root.Representable) (hv : root.toValueType.Has v)
    (hf : v.Fits) {key : List Byte} (h : s.RoutesTo v key) : key = root.plainKey host v := by
  obtain ⟨b,hb⟩ := exists_wrote s.cdrWriter hr host.opposite .sample hv
  exact Except.ok.inj ((h.extracted _ _ b hb).symm.trans (s.extractkey_opposite hk hf hb))

private theorem memberWise_of_routes (hk : root.hasKeys = true) (hs : root.toValueType.Solid)
    (hr : root.Representable)
    (hroutes : ∀ v, root.toValueType.Has v → root.toValueType.InBounds v → ∃ key, s.RoutesTo v key)
    (hv : root.toValueType.Has v) (hb : root.toValueType.InBounds v) : root.MemberWise v := by
  have hplain : ∀ {w}, root.toValueType.Has w → root.toValueType.InBounds w →
      s.RoutesTo w (root.plainKey host w) := by
    intro w hw hbw
    obtain ⟨key,hkey⟩ := hroutes w hw hbw
    have heq := s.routesTo_plainKey hk hr hw (root.fits_of_inBounds hw hbw) hkey
    rw [← heq]
    exact hkey
  have hsame : ∀ {w}, SameKey root.toValueType v w → root.plainKey host w = root.plainKey host v := by
    intro w hw
    rw [StructValueType.plainKey, StructValueType.plainKey, hw.project_eq]
  constructor
  · by_contra hfree
    rw [ValueType.extractFree_key_iff cachedWhole hv] at hfree
    obtain ⟨w,hw,hd⟩ := ValueType.exists_differ host .key trivialMany_of_cachedWhole hs hv
      (fun _ => rfl : Level .key 0 0) hfree
    obtain ⟨b,hwrote⟩ := exists_wrote s.cdrWriter hr host .key hv
    obtain ⟨c,hwrote'⟩ := exists_wrote s.cdrWriter hr host .key hw.has
    have heq := ((hplain hw.has (hw.inBounds hb)).written c hwrote').trans
      ((hsame hw).trans ((hplain hv hb).written b hwrote).symm)
    rw [hwrote.key_eq hk, hwrote'.key_eq hk] at heq
    exact differ_header hd heq
  · by_contra hfree
    obtain ⟨w,hw,hd⟩ := ValueType.exists_differ host .sample trivialMany_of_cachedWhole hs hv
      (fun h => (nomatch h) : Level .sample 0 0) hfree
    obtain ⟨b,hwrote⟩ := exists_wrote s.cdrWriter hr host .sample hv
    obtain ⟨c,hwrote'⟩ := exists_wrote s.cdrWriter hr host .sample hw.has
    have hkey := (hplain hv hb).extracted host .sample b hwrote
    have hkey' := (hplain hw.has (hw.inBounds hb)).extracted host .sample c hwrote'
    have hfits := root.fits_of_inBounds hv hb
    have hwhole : wholeFrom host host = cachedWhole := if_pos rfl
    rw [s.extractkey_sample hk hfits hwrote, hwhole] at hkey
    rw [s.extractkey_sample hk (hw.fits hfits) hwrote', hwhole, hsame hw] at hkey'
    exact differ_header hd ((Except.ok.inj hkey').trans (Except.ok.inj hkey).symm)

private theorem announcesKey_of_keysIdentify (hk : root.hasKeys = true) (hr : root.Representable)
    (h : s.KeysIdentify) (hv : root.toValueType.Has v) (hb : root.toValueType.InBounds v)
    (hfree : root.MemberWise v) : s.AnnouncesKey v := by
  by_cases hne : s.cdrWriter.minSerializedKeySize = s.cdrWriter.maxSerializedKeySize
  swap
  · exact .inl hne
  obtain ⟨m,src,rfl⟩ := hr host v hv
  have hfits := root.fits_of_inBounds hv hb
  let heap : Heap := ⟨fun _ => true,fun _ => 0⟩
  obtain ⟨d,hset⟩ := h.keyed heap (fun _ => rfl) .key m src hb
  have hwrote : Wrote host root .key (m.value host root.toValueType src)
      (root.plainKey host (m.value host root.toValueType src)) :=
    ⟨s.cdrWriter,m,src,rfl,(s.keysize_of_memberWise m src hk hfree).1⟩
  have hser := s.setKeyFromSer_eq (fun _ => rfl : ∀ n, heap.provides n = true) hk
    (s.extractkey_plainKey hk hfits hwrote hfree : s.cdrReader.extractkey _ SerdataKind.key.what = _)
  have heq := (h.eqkey_iff _ _ _ _ hb hb (.fromSample heap .key m src d rfl hset rfl)
    (.fromSer heap (fun _ => rfl) host .key _ (.inl rfl) hwrote hser)).mpr rfl
  rw [SerdataRmw.eqkey_iff] at heq
  have hsize := s.cdrWriter.getSerializedSize_of_eq m src .key hne
  rcases s.setKeyFromSample_cases m src heap .key (s.keysize_of_memberWise m src hk hfree).1 hsize with
    ⟨_,hno,_⟩ | ⟨_,_,_,hover⟩ | ⟨k,hok,hcase⟩
  · cases hno
  · cases hset.symm.trans hover
  · cases hset.symm.trans hok
    obtain ⟨_,hle,rfl⟩ := hcase hk
    have hlen := congrArg List.length heq
    rw [List.length_append, List.length_replicate, plainKey_length] at hlen
    rw [plainKey_length] at hle
    have hget : s.cdrWriter.getMaxSerializedSize .key = s.cdrWriter.maxSerializedKeySize := rfl
    refine .inr ?_
    omega

/-- Keys identify instances exactly where no walk for a key copies elements whole of which only
members belong to it, and the size of a key is announced as the key is written. -/
theorem keysIdentify_iff (hk : root.hasKeys = true) :
    ((∀ v, root.toValueType.Has v → root.toValueType.InBounds v → root.MemberWise v ∧ s.AnnouncesKey v) →
      s.KeysIdentify) ∧
    (root.toValueType.Solid → root.Representable → s.KeysIdentify →
      ∀ v, root.toValueType.Has v → root.toValueType.InBounds v → root.MemberWise v ∧ s.AnnouncesKey v) := by
  refine ⟨s.keysIdentify_of_memberWise hk,fun hs hr h v hv hb => ?_⟩
  have hfree := s.memberWise_of_routes hk hs hr h.routes hv hb
  exact ⟨hfree,s.announcesKey_of_keysIdentify hk hr h hv hb hfree⟩

/-- One value of `@key Element elements[4]`: written here its key has 32 bytes, and 20 when it
is extracted from the sample that a big-endian host sends. -/
theorem keyedElements_splits : ∃ s : Sertype .little CDRWriter.keyedElements .sample, ∃ v key key',
    CDRWriter.keyedElements.toValueType.InBounds v ∧ Wrote .little CDRWriter.keyedElements .key v key ∧
      key.length = 32 ∧ key'.length = 20 ∧ ∃ bytes, Wrote .big CDRWriter.keyedElements .sample v bytes ∧
        s.cdrReader.extractkey bytes .sample = .ok key' := by
  obtain ⟨s,_⟩ := exists_of_bounds .little CDRWriter.keyedElements .sample rfl rfl rfl rfl
  obtain ⟨w',_⟩ := CDRWriter.exists_of_bounds .big CDRWriter.keyedElements .sample rfl rfl rfl rfl
  have hsame : Memory.empty.value .big CDRWriter.keyedElements.toValueType Memory.base =
      Memory.empty.value .little CDRWriter.keyedElements.toValueType Memory.base := rfl
  have hwrote : Wrote .big CDRWriter.keyedElements .sample
      (Memory.empty.value .little CDRWriter.keyedElements.toValueType Memory.base) _ :=
    ⟨w',Memory.empty,Memory.base,hsame,w'.serialize_eq _ _ .sample⟩
  have hb := ValueType.inBounds_empty .little CDRWriter.keyedElements.toValueType Memory.base
  have hextract := s.extractkey_opposite rfl (CDRWriter.keyedElements.fits_of_inBounds hwrote.has hb) hwrote
  exact ⟨s,_,_,_,hb,⟨s.cdrWriter,_,_,rfl,s.cdrWriter.serialize_eq _ _ .key⟩,rfl,rfl,_,hwrote,hextract⟩

private theorem idMessage_representable : idMessage.Representable := by
  intro host v hv
  obtain ⟨_,rfl,_,_,rfl,⟨n,hn,rfl⟩,rfl⟩ := hv
  refine ⟨Memory.ofBytes (host.encode 4 n),Memory.base,?_⟩
  have hread := Memory.read_ofBytes (host.encode 4 n)
  rw [host.encode_length] at hread
  have hid : host.decode ((Memory.ofBytes (host.encode 4 n)).read Memory.base 4) = n := by
    rw [hread]
    exact host.decode_encode hn
  exact congrArg (fun k => Value.struct [.primitive .four k]) hid

/-- Messages with one number for a key are told apart by it. -/
theorem idMessage_identified : ∃ s : Sertype .little idMessage .sample, s.KeysIdentify ∧
    ∀ v, idMessage.toValueType.Has v → idMessage.toValueType.InBounds v → idMessage.MemberWise v ∧ s.AnnouncesKey v := by
  obtain ⟨s,_,hmin,_⟩ := exists_of_bounds .little idMessage .sample rfl rfl rfl rfl
  have hboth := s.keysIdentify_iff rfl
  have hkeys := hboth.1 fun v hv _ => by
    obtain ⟨_,rfl,_,_,rfl,⟨n,_,rfl⟩,rfl⟩ := hv
    exact ⟨⟨⟨True.intro,True.intro⟩,⟨True.intro,True.intro⟩⟩,.inr hmin⟩
  exact ⟨s,hkeys,hboth.2 ⟨(nomatch ·),True.intro,True.intro⟩ idMessage_representable hkeys⟩

end Sertype
end RmwCyclonedds
