import RmwCyclonedds.Serialization.Requests
import RmwCyclonedds.TypeSupport.SameIdl

/-! Writers and readers for the C and the C++ types of one interface. -/
namespace RmwCyclonedds
open Library DeserializeCursor

/-- Readers copy elements of both types at the same places. -/
private theorem readerWhole_same {bswapSrc : Bool} {t t' : ValueType} (h : ∀ off, t.trivialMany off = t'.trivialMany off) :
    (fun off => readerWhole bswapSrc off t) = fun off => readerWhole bswapSrc off t' := by
  funext off
  cases bswapSrc with
  | true => rfl
  | false => exact h off

mutual
/-- Alike types project a value alike, with the copies of either kind of stream. -/
theorem ValueType.Alike.view_eq (bswapSrc : Bool) (what : SampleOrKey) : ∀ {t t' : ValueType}, t.Alike t' →
    ∀ (v : Value) (off : Nat), t.view (readerWhole bswapSrc) what v off = t'.view (readerWhole bswapSrc) what v off
  | .primitive _, .primitive _, _, v, _ => by cases v <;> rfl
  | .u8string _ _, .u8string _ _, _, v, _ => by cases v <;> rfl
  | .u16string _ _, .u16string _ _, _, v, _ => by cases v <;> rfl
  | .struct _ ms, .struct _ ms', h, v, off => by
    cases v with
    | struct vs =>
      have hall : allFields what ms = allFields what ms' := by
        rw [allFields, allFields, Members.Alike.hasKeys_eq h]
      rw [ValueType.view, ValueType.view, hall, Members.Alike.view_eq bswapSrc what h]
    | primitive | u8string | u16string | array | sequence => rfl
  | .array t n, .array t' n', ⟨_,h,hmany⟩, v, off => by
    cases v with
    | array vs =>
      have hview : (fun v o => t.view (readerWhole bswapSrc) what v o) = fun v o => t'.view (readerWhole bswapSrc) what v o := by
        funext v o
        exact ValueType.Alike.view_eq bswapSrc what h v o
      rw [ValueType.view, ValueType.view, hview, readerWhole_same hmany]
    | primitive | u8string | u16string | struct | sequence => rfl
  | .spanSequence _ t _, .spanSequence _ t' _, ⟨h,hmany⟩, v, off => by
    cases v with
    | sequence vs =>
      have hview : (fun v o => t.view (readerWhole bswapSrc) what v o) = fun v o => t'.view (readerWhole bswapSrc) what v o := by
        funext v o
        exact ValueType.Alike.view_eq bswapSrc what h v o
      rw [ValueType.view, ValueType.view, hview, readerWhole_same hmany]
    | primitive | u8string | u16string | struct | array => rfl
  | .spanSequence _ t _, .boolVector _ _, h, v, off => by
    cases h
    cases v with
    | sequence vs =>
      rw [ValueType.view, viewMany_same fun v _ o => by cases v <;> rfl]
      rfl
    | primitive | u8string | u16string | struct | array => rfl

theorem Members.Alike.view_eq (bswapSrc : Bool) (what : SampleOrKey) : ∀ {ms ms' : Members}, ms.Alike ms' →
    ∀ (all : Bool) (vs : List Value) (off : Nat),
      ms.view (readerWhole bswapSrc) what all vs off = ms'.view (readerWhole bswapSrc) what all vs off
  | .nil, .nil, _, _, _, _ => rfl
  | .cons _ isKey t ms, .cons _ isKey' t' ms', ⟨hkey,ht,hms⟩, all, vs, off => by
    cases vs with
    | nil => rfl
    | cons v vs =>
      subst hkey
      rw [Members.view, Members.view, ValueType.Alike.view_eq bswapSrc what ht v off]
      rw [Members.Alike.view_eq bswapSrc what hms, Members.Alike.view_eq bswapSrc what hms]
end

/-- A description whose offsets and sizes are those of the compiler. -/
def MessageMembers.LaidOut (align : TypeKind → Nat) (o : ObjectLayout) (m : MessageMembers) : Prop :=
  (MemberType.message m).LaidOut align o

section
variable {align : TypeKind → Nat} {o o' : ObjectLayout} {c cpp : MessageMembers}

private theorem roots_alike (same : c.members.SameIdl cpp.members) (hc : c.LaidOut align o) (hcpp : cpp.LaidOut align o')
    {root root' : StructValueType} (h : rosidlcStructValueType o c = .ok root) (h' : rosidlcppStructValueType o' cpp = .ok root') :
    root.members.Alike root'.members := by
  obtain ⟨_,hms⟩ := structValueType_ok h
  obtain ⟨_,hms'⟩ := structValueType_ok h'
  cases c with
  | mk ns name s ms =>
    cases cpp with
    | mk ns' name' s' ms' => exact valueMembers_alike same hc.1 hcpp.1 hms hms'

/-- Alike roots produce the same stream from the same value. -/
private theorem streamBody_alike {host : Endian} {root root' : StructValueType} (h : root.members.Alike root'.members)
    {variant : SampleOrRequest} {m m' : Memory} {src src' : Address} {what : SampleOrKey}
    (header : requestHeader variant m src what = requestHeader variant m' src' what)
    (value : sourceValue host root variant m src what = sourceValue host root' variant m' src' what) :
    streamBody host root variant m src what = streamBody host root' variant m' src' what := by
  have hroot : root.toValueType.Alike root'.toValueType := h
  have hkeys : root.hasKeys = root'.hasKeys := h.hasKeys_eq
  have hview := hroot.view_eq false what (sourceValue host root' variant m' src' what) (startOffset variant what)
  rw [readerWhole, if_neg Bool.false_ne_true] at hview
  rw [streamBody, streamBody, header, value, hkeys, hview]

end

/-! ### What readers make of the stream -/

section
variable {view : Value → Nat → Value} (h : ∀ v off, v.Fits → (view v off).Fits)
include h

private theorem viewEach_fits {vs : List Value} (off : Nat) (hf : Value.FitsAll vs) : Value.FitsAll (viewEach view vs off) := by
  induction vs generalizing off with
  | nil => exact True.intro
  | cons v vs ih => exact ⟨h v off hf.1,ih _ hf.2⟩

private theorem viewMany_fits {whole : Nat → Bool} {vs : List Value} (off : Nat) (hf : Value.FitsAll vs) :
    Value.FitsAll (viewMany view whole vs off) := by
  cases vs with
  | nil => exact True.intro
  | cons v vs =>
    rw [viewMany]
    refine ⟨h v off hf.1,?_⟩
    split
    · exact hf.2
    · exact viewEach_fits h _ hf.2

end

section
variable (whole : WholeCopies) (what : SampleOrKey)

mutual
theorem view_fits : ∀ (t : ValueType) (v : Value) (off : Nat), v.Fits → (t.view whole what v off).Fits
  | .primitive _, v, _, hf => by cases v <;> exact hf
  | .u8string _ _, v, _, hf => by cases v <;> exact hf
  | .u16string _ _, v, _, hf => by cases v <;> exact hf
  | .boolVector _ _, v, _, hf => by cases v <;> exact hf
  | .struct _ ms, v, off, hf => by
    cases v with
    | struct vs => exact viewMembers_fit ms (allFields what ms) vs off hf
    | primitive | u8string | u16string | array | sequence => exact hf
  | .array t _, v, off, hf => by
    cases v with
    | array vs => exact viewMany_fits (fun v o hv => view_fits t v o hv) off hf
    | primitive | u8string | u16string | struct | sequence => exact hf
  | .spanSequence _ t _, v, off, hf => by
    cases v with
    | sequence vs =>
      refine ⟨?_,viewMany_fits (fun v o hv => view_fits t v o hv) _ hf.2⟩
      rw [viewMany_length]
      exact hf.1
    | primitive | u8string | u16string | struct | array => exact hf

private theorem viewMembers_fit : ∀ (ms : Members) (all : Bool) (vs : List Value) (off : Nat), Value.FitsAll vs →
    Value.FitsAll (ms.view whole what all vs off)
  | .nil, _, _, _, _ => True.intro
  | .cons _ isKey t ms, all, vs, off, hf => by
    cases vs with
    | nil => exact True.intro
    | cons v vs =>
      rw [Members.view]
      split
      · exact ⟨view_fits t v off hf.1,viewMembers_fit ms all vs _ hf.2⟩
      · exact viewMembers_fit ms all vs off hf.2
end

end

/-- The header of a request, as a reader finds it in the stream. -/
def headerOf (sender receiver : Endian) (variant : SampleOrRequest) (m : Memory) (src : Address) : Option (Nat × Nat) :=
  match variant with
  | .sample => none
  | .request => some (sender.decode (m.read src 8),receiver.decode (m.read (src + 8) 8))

namespace CDRReader
variable {host : Endian} {root : StructValueType} {variant : SampleOrRequest} (r : CDRReader host root variant)

/-- A key is read again on a host of the same byte order, or when no elements are copied whole that lose a member. -/
private theorem deserialize_key (sender : Endian) {runtime : Runtime}
    (hr : ∀ position size, runtime position size = .provided) {v : Value} (hv : root.toValueType.Has v) (hf : v.Fits)
    (hcopies : sender = host ∨ root.toValueType.view neverWhole .key v 0 = root.toValueType.view cachedWhole .key v 0) :
    r.deserialize runtime (rtpsHeader sender ++ (if root.hasKeys then
      (root.toValueType.view cachedWhole .key v 0).encode sender 0 else [])) .key =
      .ok ⟨none,if root.hasKeys then some (root.toValueType.view cachedWhole .key v 0) else none⟩ := by
  cases hk : root.hasKeys with
  | false =>
    simp [deserialize, hk]
    rfl
  | true =>
    have hview : root.toValueType.view (readerWhole (((rtpsHeader sender).getD 1 0 == 0) == (host == .little))) .key v 0 =
        root.toValueType.view cachedWhole .key v 0 := by
      rcases hcopies with rfl | hcopies
      · cases sender <;> rfl
      · cases ((rtpsHeader sender).getD 1 0 == 0) == (host == .little)
        · rfl
        · exact hcopies
    obtain ⟨c,c',hheader,hoff,hbody⟩ := reads_body (rtpsHeader sender)
      ((root.toValueType.view cachedWhole .key v 0).encode sender 0) [] rfl
    rw [List.append_nil] at hheader
    have hreads : Reads (c.rebase 4) ((root.toValueType.view
        (readerWhole (((rtpsHeader sender).getD 1 0 == 0) == (host == .little))) .key v (c.rebase 4).offset).encode
          (streamEndian host (((rtpsHeader sender).getD 1 0 == 0) == (host == .little))) (c.rebase 4).offset) c' := by
      rw [hoff, streamEndian_header, hview]
      exact hbody
    have hvalue := deserialize_of_encode host (((rtpsHeader sender).getD 1 0 == 0) == (host == .little)) .key hr
      root.toValueType root.wellFormed r.answersExactly hv (view_fits _ _ _ _ _ hf) hreads
    rw [hoff, hview] at hvalue
    simp only [deserialize, deserializeTopLevel, deserializeBehindHeader, hk, or_true, if_true, hheader, bind, Except.bind,
      header_accepted, if_false, reduceCtorEq, false_and, deserializeValue, hvalue]
    rfl

/-- What was written is read again, as far as byte orders do not interfere with the header of a request. -/
theorem deserialize_written (sender : Endian) {runtime : Runtime}
    (hr : ∀ position size, runtime position size = .provided) (m : Memory) (src : Address)
    (hf : (sourceValue sender root variant m src .sample).Fits) :
    r.deserialize runtime (rtpsHeader sender ++ streamBody sender root variant m src .sample) .sample =
      .ok ⟨headerOf sender host variant m src,some (sourceValue sender root variant m src .sample)⟩ := by
  cases variant with
  | sample =>
    have hstream := r.deserialize_stream hr sender (m.value_has sender root.toValueType src) hf []
    have hview : root.toValueType.view cachedWhole .sample (sourceValue sender root .sample m src .sample)
        (startOffset .sample .sample) = m.value sender root.toValueType src :=
      ValueType.view_sample cachedWhole (m.value_has sender root.toValueType src)
    rw [List.append_nil] at hstream
    rw [streamBody, if_pos (.inl rfl), hview]
    exact hstream
  | request =>
    rw [CDRWriter.requestBody_eq]
    exact r.deserialize_request hr sender (m.value_has sender root.toValueType _) hf (m.read_length _ _) (m.read_length _ _)

end CDRReader

private theorem headerOf_eq {sender receiver : Endian} {variant : SampleOrRequest} {m m' : Memory} {src src' : Address}
    (h : requestHeader variant m src .sample = requestHeader variant m' src' .sample) :
    headerOf sender receiver variant m' src' = headerOf sender receiver variant m src := by
  cases variant with
  | sample => rfl
  | request =>
    rw [requestHeader_sample, requestHeader_sample] at h
    obtain ⟨hguid,hseq⟩ := List.append_inj h (by rw [m.read_length, m'.read_length])
    rw [headerOf, headerOf, hguid, hseq]

/-- A key has no request header, and starts at the beginning. -/
private theorem keyBody_eq (host : Endian) (root : StructValueType) (variant : SampleOrRequest) (m : Memory) (src : Address) :
    streamBody host root variant m src .key = if root.hasKeys then
      (root.toValueType.view cachedWhole .key (sourceValue host root variant m src .key) 0).encode host 0 else [] := by
  cases hk : root.hasKeys <;> simp [streamBody, requestHeader, startOffset, hk]

/-! ### Agreement -/

/-- The C and the C++ types of an interface give corresponding values one stream, as samples and as keys, and readers
for either decode it to the value, or for a key to the part of it that is written. Of a key that has crossed byte
orders, whole elements must not have been copied along with members that are not key. -/
theorem typesupports_agree {align : TypeKind → Nat} {o o' : ObjectLayout} {c cpp : MessageMembers}
    (same : c.members.SameIdl cpp.members) (hc : c.LaidOut align o) (hcpp : cpp.LaidOut align o')
    {root root' : StructValueType} (h : rosidlcStructValueType o c = .ok root) (h' : rosidlcppStructValueType o' cpp = .ok root')
    {host : Endian} {variant : SampleOrRequest} (w : CDRWriter host root variant) (w' : CDRWriter host root' variant)
    {m m' : Memory} {src src' : Address} {what : SampleOrKey}
    (header : requestHeader variant m src what = requestHeader variant m' src' what)
    (value : sourceValue host root variant m src what = sourceValue host root' variant m' src' what) :
    ∃ bytes, w.serialize m src what = .ok bytes ∧ w'.serialize m' src' what = .ok bytes ∧
      ∀ v, v = sourceValue host root variant m src what → root.toValueType.InBounds v →
        ∀ {runtime : Runtime}, (∀ position size, runtime position size = .provided) →
          (what = .sample → ∀ {receiver : Endian} (r : CDRReader receiver root variant) (r' : CDRReader receiver root' variant),
            ∃ requestHeader, r.deserialize runtime bytes .sample = .ok ⟨requestHeader,some v⟩ ∧
              r'.deserialize runtime bytes .sample = .ok ⟨requestHeader,some v⟩) ∧
          (what = .key → ∀ {receiver : Endian} (r : CDRReader receiver root variant) (r' : CDRReader receiver root' variant),
            host = receiver ∨ root.toValueType.view neverWhole .key v 0 = root.toValueType.view cachedWhole .key v 0 →
            ∃ key, key = (if root.hasKeys then some (root.toValueType.view cachedWhole .key v 0) else none) ∧
              r.deserialize runtime bytes .key = .ok ⟨none,key⟩ ∧ r'.deserialize runtime bytes .key = .ok ⟨none,key⟩) := by
  have halike := roots_alike same hc hcpp h h'
  have hbody := streamBody_alike halike header value
  refine ⟨_,w.serialize_eq m src what,?_,?_⟩
  · rw [hbody]
    exact w'.serialize_eq m' src' what
  · rintro v rfl hb runtime hr
    have hv : root.toValueType.Has (sourceValue host root variant m src what) := m.value_has host root.toValueType _
    have hv' : root'.toValueType.Has (sourceValue host root variant m src what) :=
      value ▸ m'.value_has host root'.toValueType _
    have hf := ValueType.fits_of_inBounds (show root.toValueType.WellFormed from root.wellFormed) hv hb
    constructor
    · rintro rfl receiver r r'
      refine ⟨_,r.deserialize_written host hr m src hf,?_⟩
      rw [hbody, r'.deserialize_written host hr m' src' (value ▸ hf), headerOf_eq header, value]
    · rintro rfl receiver r r' hcopies
      have hroot : root.toValueType.Alike root'.toValueType := halike
      have hkeys : root.hasKeys = root'.hasKeys := halike.hasKeys_eq
      have hcached := hroot.view_eq false .key (sourceValue host root variant m src .key) 0
      have hnever := hroot.view_eq true .key (sourceValue host root variant m src .key) 0
      rw [readerWhole, if_neg Bool.false_ne_true] at hcached
      rw [readerWhole, if_pos rfl] at hnever
      have hkey := r.deserialize_key host hr hv hf hcopies
      have hkey' := r'.deserialize_key host hr hv' hf (by rw [← hcached, ← hnever]; exact hcopies)
      rw [← hkeys, ← hcached] at hkey'
      rw [keyBody_eq]
      exact ⟨_,rfl,hkey,hkey'⟩

/-! ### A message of both typesupports -/

/-- `@key uint32 id; sequence<boolean> flags; string text`, at the offsets of one of the typesupports. -/
def statusMembers (ns : Text) (sizeOf flags text : Nat) : MessageMembers := .mk ns "Status".toList sizeOf
  (.cons ⟨"id".toList,0,true,false,0,false,0,false⟩ (.primitive .uint32)
    (.cons ⟨"flags".toList,0,false,true,0,false,flags,true⟩ (.primitive .boolean)
      (.cons ⟨"text".toList,0,false,false,0,false,text,false⟩ .string .nil)))

def statusC : MessageMembers := statusMembers "example__msg".toList 56 8 32

def statusCpp : MessageMembers := statusMembers "example::msg".toList 80 8 48

/-- The objects of a 64-bit host. -/
def cLayout : ObjectLayout := ⟨24,8,24,8,24,8,24,8⟩

def cppLayout : ObjectLayout := ⟨32,8,32,8,24,8,40,8⟩

def statusTypeC : StructValueType where
  sizeofStruct := 56
  members := .cons 0 true (.primitive .uint32) (.cons 8 false (.spanSequence .callback (.primitive .boolean) uint32Max)
    (.cons 32 false (.u8string 24 (uint32Max - 1)) .nil))
  wellFormed := ⟨True.intro,⟨True.intro,True.intro,Nat.le_refl _⟩,Nat.le_refl _,True.intro⟩

def statusTypeCpp : StructValueType where
  sizeofStruct := 80
  members := .cons 0 true (.primitive .uint32) (.cons 8 false (.boolVector 40 uint32Max)
    (.cons 48 false (.u8string 32 (uint32Max - 1)) .nil))
  wellFormed := ⟨True.intro,Nat.le_refl _,Nat.le_refl _,True.intro⟩

/-- Id 0, one flag that is set, and "hi". -/
def statusMemory : Memory where
  byte a := if a.block = 0 then 0 else 1
  pointer a := a
  u8string _ := [104,105]
  u16string _ := []
  bits _ := [true]
  sequenceSize _ := 1
  sequenceContents _ := ⟨1,0⟩

private theorem status_laidOut : statusC.LaidOut TypeKind.sizeofType cLayout ∧ statusCpp.LaidOut TypeKind.sizeofType cppLayout := by
  simp only [MessageMembers.LaidOut, statusC, statusCpp, statusMembers, MemberType.LaidOut, MemberArray.LaidOut]
  decide

private theorem status_value : statusMemory.value .little statusTypeC.toValueType Memory.base =
    statusMemory.value .little statusTypeCpp.toValueType Memory.base := by
  rfl

theorem status_agrees : ∃ (w : CDRWriter .little statusTypeC .sample) (w' : CDRWriter .little statusTypeCpp .sample)
    (r : CDRReader .big statusTypeC .sample) (r' : CDRReader .big statusTypeCpp .sample) (bytes : List Byte) (header : Option (Nat × Nat)),
    w.serialize statusMemory Memory.base .sample = .ok bytes ∧ w'.serialize statusMemory Memory.base .sample = .ok bytes ∧
    r.deserialize (fun _ _ => .provided) bytes .sample =
      .ok ⟨header,some (statusMemory.value .little statusTypeC.toValueType Memory.base)⟩ ∧
    r'.deserialize (fun _ _ => .provided) bytes .sample =
      .ok ⟨header,some (statusMemory.value .little statusTypeC.toValueType Memory.base)⟩ := by
  obtain ⟨w,_⟩ := CDRWriter.exists_of_bounds .little statusTypeC .sample rfl rfl rfl rfl
  obtain ⟨w',_⟩ := CDRWriter.exists_of_bounds .little statusTypeCpp .sample rfl rfl rfl rfl
  obtain ⟨cache,hcache,_⟩ := make_known statusTypeC.toValueType
  obtain ⟨cache',hcache',_⟩ := make_known statusTypeCpp.toValueType
  have same : statusC.members.SameIdl statusCpp.members := ⟨rfl,rfl,rfl,rfl,rfl,True.intro,True.intro⟩
  have hc : rosidlcStructValueType cLayout statusC = .ok statusTypeC := rfl
  have hcpp : rosidlcppStructValueType cppLayout statusCpp = .ok statusTypeCpp := rfl
  obtain ⟨bytes,hw,hw',hread⟩ := typesupports_agree same status_laidOut.1 status_laidOut.2 hc hcpp w w'
    (show requestHeader .sample statusMemory Memory.base .sample = requestHeader .sample statusMemory Memory.base .sample from rfl)
    status_value
  have hbounds : statusTypeC.toValueType.InBounds (statusMemory.value .little statusTypeC.toValueType Memory.base) := by
    simp only [statusTypeC, Memory.value, Memory.values, ValueType.InBounds, Members.InBounds]
    decide
  obtain ⟨header,hr,hr'⟩ := (@hread _ rfl hbounds (fun _ _ => .provided) fun _ _ => rfl).1 rfl
    (⟨cache,hcache⟩ : CDRReader .big statusTypeC .sample) ⟨cache',hcache'⟩
  exact ⟨w,w',_,_,bytes,header,hw,hw',hr,hr'⟩

end RmwCyclonedds
