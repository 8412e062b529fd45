import RmwCyclonedds.Serialization.ExtractKey
import RmwCyclonedds.Serialization.ObjectCache

/-! Readers and writers that ask for objects: every key they ask for is in the cache. -/
namespace RmwCyclonedds
open Library WriteCursor

section
variable {Id : Type}

/-- What is asked of a cache that is keyed by identity. -/
abbrev ObjectLookup (Id : Type) := Nat → Id → Outcome Bool

/-- `lookup_trivially_serialized`. A miss throws out of `cache_.at`; here it is left open what it leads to. -/
def ObjectCache.lookup [DecidableEq Id] (c : ObjectCache Id) (onMiss : ObjectLookup Id) : ObjectLookup Id :=
  fun align p =>
    match c.find (align % maxAlign,p) with
    | some result => .ok result
    | none => onMiss align p

/-- The questions of an overload that is at the object `id`. -/
abbrev ObjectLookup.at (lookup : ObjectLookup Id) (id : Id) : Lookup := fun align _ => lookup align id

section
variable {σ : Type} [WriteCursor σ] (host : Endian) (m : Memory) (lookup : ObjectLookup Id) (what : SampleOrKey)

mutual
/-- `serialize`, over objects. -/
def serializeObject : TypeObject Id → Address → σ → Outcome σ
  | .primitive id k, src, dst => serializeAny m (lookup.at id) what (.primitive k) src dst
      (return serializePrimitive host m k src dst)
  | .u8string id s b, src, dst => serializeAny m (lookup.at id) what (.u8string s b) src dst
      (return serializeU8String host m src dst)
  | .u16string id s b, src, dst => serializeAny m (lookup.at id) what (.u16string s b) src dst
      (return serializeU16String host m src dst)
  | .struct id s ms, src, dst => serializeAny m (lookup.at id) what (.struct s ms.types) src dst
      (serializeMemberObjects (allFields what ms.types) ms src dst)
  | .array id t n, src, dst => serializeAny m (lookup.at id) what (.array t.type n) src dst
      (serializeMany m (lookup.at t.id) (fun src dst => serializeObject t src dst) t.type src n dst)
  | .spanSequence id k t b, src, dst => serializeAny m (lookup.at id) what (.spanSequence k t.type b) src dst
      (let count := m.sequenceSize src
       serializeMany m (lookup.at t.id) (fun src dst => serializeObject t src dst) t.type (m.sequenceContents src)
        count (serializeU32 host dst count))
  | .boolVector id s b, src, dst => serializeAny m (lookup.at id) what (.boolVector s b) src dst
      (return serializeBoolVector host m src dst)

def serializeMemberObjects (all : Bool) : MemberObjects Id → Address → σ → Outcome σ
  | .nil, _, dst => return dst
  | .cons memberOffset isKey t ms, structSrc, dst => do
    let dst ← if all || isKey then serializeObject t (structSrc + memberOffset) dst else pure dst
    serializeMemberObjects all ms structSrc dst
end

end

section
variable (host : Endian) (lookup : ObjectLookup Id) (runtime : Runtime) (bswapSrc : Bool) (what : SampleOrKey)

mutual
/-- `deserialize`, over objects. -/
def deserializeObject : TypeObject Id → DeserializeCursor → Outcome (Value × DeserializeCursor)
  | .primitive id k, src => deserializeAny host (lookup.at id) bswapSrc what (.primitive k) src
      (deserializePrimitive host bswapSrc k.width src)
  | .u8string id s b, src => deserializeAny host (lookup.at id) bswapSrc what (.u8string s b) src
      (deserializeU8String host bswapSrc src)
  | .u16string id s b, src => deserializeAny host (lookup.at id) bswapSrc what (.u16string s b) src
      (deserializeU16String host bswapSrc src)
  | .struct id s ms, src => deserializeAny host (lookup.at id) bswapSrc what (.struct s ms.types) src (do
      let (vs,src) ← deserializeMemberObjects (allFields what ms.types) ms src
      return (.struct vs,src))
  | .array id t n, src => deserializeAny host (lookup.at id) bswapSrc what (.array t.type n) src (do
      let (vs,src) ← deserializeMany host (lookup.at t.id) bswapSrc (fun src => deserializeObject t src) t.type n src
      return (.array vs,src))
  | .spanSequence id k t b, src => deserializeAny host (lookup.at id) bswapSrc what (.spanSequence k t.type b) src (do
      let (count,src) ← deserializeU32 host bswapSrc src
      resize runtime k src.position count
      let (vs,src) ← deserializeMany host (lookup.at t.id) bswapSrc (fun src => deserializeObject t src) t.type count
        src
      return (.sequence vs,src))
  | .boolVector id s b, src => deserializeAny host (lookup.at id) bswapSrc what (.boolVector s b) src
      (deserializeBoolVector host bswapSrc src)

def deserializeMemberObjects (all : Bool) :
    MemberObjects Id → DeserializeCursor → Outcome (List Value × DeserializeCursor)
  | .nil, src => return ([],src)
  | .cons _ isKey t ms, src => do
    if all || isKey then
      let (v,src) ← deserializeObject t src
      let (vs,src) ← deserializeMemberObjects all ms src
      return (v :: vs,src)
    else deserializeMemberObjects all ms src
end

end

section
variable {σ : Type} [WriteCursor σ] (host : Endian) (lookup : ObjectLookup Id) (bswapSrc bswapDst : Bool)

mutual
/-- `extractkey`, over objects. -/
def extractkeyObject : TypeObject Id → ExtractKeyMode → DeserializeCursor → σ → Outcome (σ × DeserializeCursor)
  | .primitive id k, mode, src, dst => extractkeyAny (lookup.at id) (.primitive k) mode src dst
      (extractkeyPrimitive host bswapSrc bswapDst k.width.bytes mode src dst)
  | .u8string id s b, mode, src, dst => extractkeyAny (lookup.at id) (.u8string s b) mode src dst
      (extractkeyU8String host bswapSrc bswapDst mode src dst)
  | .u16string id s b, mode, src, dst => extractkeyAny (lookup.at id) (.u16string s b) mode src dst
      (extractkeyU16String host bswapSrc bswapDst mode src dst)
  | .struct id s ms, mode, src, dst => extractkeyAny (lookup.at id) (.struct s ms.types) mode src dst
      (extractkeyMemberObjects (!ms.types.hasKeys) ms mode src dst)
  | .array id t n, mode, src, dst => extractkeyAny (lookup.at id) (.array t.type n) mode src dst
      (extractkeyMany (lookup.at t.id) bswapSrc bswapDst (fun src dst => extractkeyObject t mode src dst) t.type mode n
        src dst)
  | .spanSequence id k t b, mode, src, dst => extractkeyAny (lookup.at id) (.spanSequence k t.type b) mode src dst (do
      let (count,src) ← deserializeU32 host bswapSrc src
      let dst := if mode ≠ .skip then putSize host bswapDst count dst else dst
      extractkeyMany (lookup.at t.id) bswapSrc bswapDst (fun src dst => extractkeyObject t mode src dst) t.type mode
        count src dst)
  | .boolVector id s b, mode, src, dst => extractkeyAny (lookup.at id) (.boolVector s b) mode src dst
      (extractkeyBoolVector host bswapSrc bswapDst mode src dst)

def extractkeyMemberObjects (allFieldsAreKey : Bool) :
    MemberObjects Id → ExtractKeyMode → DeserializeCursor → σ → Outcome (σ × DeserializeCursor)
  | .nil, _, src, dst => return (dst,src)
  | .cons _ isKey t ms, mode, src, dst => do
    let (dst,src) ← (match memberMode mode (isKey || allFieldsAreKey) with
      | some mode => extractkeyObject t mode src dst
      | none => return (dst,src))
    extractkeyMemberObjects allFieldsAreKey ms mode src dst
end

end

/-! ### Where every answer is known, objects behave as what they describe -/

/-- A cache that holds every answer, whichever type is asked for. -/
def exactLookup : Lookup := fun align t => .ok (t.trivial align)

/-- A lookup that has the answer for an object. -/
def HitsAt (lookup : ObjectLookup Id) (t : TypeObject Id) : Prop := ∀ align, lookup align t.id = .ok (t.type.trivial align)

theorem ObjectCache.Knows.hitsAt [DecidableEq Id] {c : ObjectCache Id} {t : TypeObject Id} (h : c.Knows t)
    (onMiss : ObjectLookup Id) : HitsAt (c.lookup onMiss) t := by
  intro align
  rw [ObjectCache.lookup, h _ (Nat.mod_lt _ (Nat.succ_pos 7)), ValueType.trivial_mod]

private theorem lookupMany_hit {lookup : ObjectLookup Id} {t : TypeObject Id} (h : HitsAt lookup t) (align : Nat) :
    lookupManyTriviallySerialized (lookup.at t.id) align t.type =
      lookupManyTriviallySerialized exactLookup align t.type := by
  simp only [lookupManyTriviallySerialized, ObjectLookup.at, exactLookup, h _]

section
variable {σ : Type} [WriteCursor σ] (host : Endian) (m : Memory) {lookup : ObjectLookup Id} (what : SampleOrKey)

private theorem serializeAny_hit {t : TypeObject Id} (h : HitsAt lookup t) (src : Address) (dst : σ)
    (overload : Outcome σ) :
    serializeAny m (lookup.at t.id) what t.type src dst overload =
      serializeAny m exactLookup what t.type src dst overload := by
  simp only [serializeAny, ObjectLookup.at, exactLookup, h _]

private theorem serializeMany_hit {t : TypeObject Id} (h : HitsAt lookup t) {f g : Address → σ → Outcome σ}
    (hfg : ∀ src dst, f src dst = g src dst) (src : Address) (count : Nat) (dst : σ) :
    serializeMany m (lookup.at t.id) f t.type src count dst = serializeMany m exactLookup g t.type src count dst := by
  have he : f = g := by
    funext src dst
    exact hfg src dst
  simp only [he, serializeMany, lookupMany_hit h]

mutual
theorem serializeObject_eq : ∀ (t : TypeObject Id), t.Everywhere (HitsAt lookup) → ∀ (src : Address) (dst : σ),
    serializeObject host m lookup what t src dst = serialize host m exactLookup what t.type src dst
  | .primitive id k, h, src, dst => serializeAny_hit m what (t := .primitive id k) h src dst _
  | .u8string id s b, h, src, dst => serializeAny_hit m what (t := .u8string id s b) h src dst _
  | .u16string id s b, h, src, dst => serializeAny_hit m what (t := .u16string id s b) h src dst _
  | .boolVector id s b, h, src, dst => serializeAny_hit m what (t := .boolVector id s b) h src dst _
  | .struct id s ms, h, src, dst => by
    rw [serializeObject, serializeMemberObjects_eq (allFields what ms.types) ms h.2]
    exact serializeAny_hit m what (t := .struct id s ms) h.1 src dst _
  | .array id t n, h, src, dst => by
    rw [serializeObject, serializeMany_hit m h.2.here (serializeObject_eq t h.2)]
    exact serializeAny_hit m what (t := .array id t n) h.1 src dst _
  | .spanSequence id k t b, h, src, dst => by
    rw [serializeObject, serializeMany_hit m h.2.here (serializeObject_eq t h.2)]
    exact serializeAny_hit m what (t := .spanSequence id k t b) h.1 src dst _

theorem serializeMemberObjects_eq (all : Bool) : ∀ (ms : MemberObjects Id), ms.Everywhere (HitsAt lookup) →
    ∀ (src : Address) (dst : σ), serializeMemberObjects host m lookup what all ms src dst =
      serializeMembers host m exactLookup what all ms.types src dst
  | .nil, _, _, _ => rfl
  | .cons memberOffset isKey t ms, h, src, dst => by
    simp only [serializeMemberObjects, MemberObjects.types, serializeMembers, serializeObject_eq t h.1,
      serializeMemberObjects_eq all ms h.2]
end

end

section
variable (host : Endian) {lookup : ObjectLookup Id} (runtime : Runtime) (bswapSrc : Bool) (what : SampleOrKey)

private theorem deserializeAny_hit {t : TypeObject Id} (h : HitsAt lookup t) (src : DeserializeCursor)
    (overload : Outcome (Value × DeserializeCursor)) :
    deserializeAny host (lookup.at t.id) bswapSrc what t.type src overload =
      deserializeAny host exactLookup bswapSrc what t.type src overload := by
  simp only [deserializeAny, ObjectLookup.at, exactLookup, h _]

private theorem deserializeMany_hit {t : TypeObject Id} (h : HitsAt lookup t)
    {f g : DeserializeCursor → Outcome (Value × DeserializeCursor)} (hfg : ∀ src, f src = g src) (count : Nat)
    (src : DeserializeCursor) :
    deserializeMany host (lookup.at t.id) bswapSrc f t.type count src =
      deserializeMany host exactLookup bswapSrc g t.type count src := by
  have he : f = g := by
    funext src
    exact hfg src
  simp only [he, deserializeMany, lookupMany_hit h]

mutual
theorem deserializeObject_eq : ∀ (t : TypeObject Id), t.Everywhere (HitsAt lookup) → ∀ src : DeserializeCursor,
    deserializeObject host lookup runtime bswapSrc what t src =
      deserialize host exactLookup runtime bswapSrc what t.type src
  | .primitive id k, h, src => deserializeAny_hit host bswapSrc what (t := .primitive id k) h src _
  | .u8string id s b, h, src => deserializeAny_hit host bswapSrc what (t := .u8string id s b) h src _
  | .u16string id s b, h, src => deserializeAny_hit host bswapSrc what (t := .u16string id s b) h src _
  | .boolVector id s b, h, src => deserializeAny_hit host bswapSrc what (t := .boolVector id s b) h src _
  | .struct id s ms, h, src => by
    rw [deserializeObject, deserializeMemberObjects_eq (allFields what ms.types) ms h.2]
    exact deserializeAny_hit host bswapSrc what (t := .struct id s ms) h.1 src _
  | .array id t n, h, src => by
    rw [deserializeObject, deserializeMany_hit host bswapSrc h.2.here (deserializeObject_eq t h.2)]
    exact deserializeAny_hit host bswapSrc what (t := .array id t n) h.1 src _
  | .spanSequence id k t b, h, src => by
    simp only [deserializeObject, deserializeMany_hit host bswapSrc h.2.here (deserializeObject_eq t h.2)]
    exact deserializeAny_hit host bswapSrc what (t := .spanSequence id k t b) h.1 src _

theorem deserializeMemberObjects_eq (all : Bool) : ∀ (ms : MemberObjects Id), ms.Everywhere (HitsAt lookup) →
    ∀ src : DeserializeCursor, deserializeMemberObjects host lookup runtime bswapSrc what all ms src =
      deserializeMembers host exactLookup runtime bswapSrc what all ms.types src
  | .nil, _, _ => rfl
  | .cons memberOffset isKey t ms, h, src => by
    simp only [deserializeMemberObjects, MemberObjects.types, deserializeMembers, deserializeObject_eq t h.1,
      deserializeMemberObjects_eq all ms h.2]
end

end

section
variable {σ : Type} [WriteCursor σ] (host : Endian) {lookup : ObjectLookup Id} (bswapSrc bswapDst : Bool)

omit [WriteCursor σ] in
private theorem extractkeyAny_hit {t : TypeObject Id} (h : HitsAt lookup t) (mode : ExtractKeyMode)
    (src : DeserializeCursor) (dst : σ) (overload : Outcome (σ × DeserializeCursor)) :
    extractkeyAny (lookup.at t.id) t.type mode src dst overload =
      extractkeyAny exactLookup t.type mode src dst overload := by
  simp only [extractkeyAny, ObjectLookup.at, exactLookup, h _]

private theorem extractkeyMany_hit {t : TypeObject Id} (h : HitsAt lookup t)
    {f g : DeserializeCursor → σ → Outcome (σ × DeserializeCursor)} (hfg : ∀ src dst, f src dst = g src dst)
    (mode : ExtractKeyMode) (count : Nat) (src : DeserializeCursor) (dst : σ) :
    extractkeyMany (lookup.at t.id) bswapSrc bswapDst f t.type mode count src dst =
      extractkeyMany exactLookup bswapSrc bswapDst g t.type mode count src dst := by
  have he : f = g := by
    funext src dst
    exact hfg src dst
  simp only [he, extractkeyMany, lookupMany_hit h]

mutual
theorem extractkeyObject_eq : ∀ (t : TypeObject Id), t.Everywhere (HitsAt lookup) →
    ∀ (mode : ExtractKeyMode) (src : DeserializeCursor) (dst : σ),
    extractkeyObject host lookup bswapSrc bswapDst t mode src dst =
      extractkey host exactLookup bswapSrc bswapDst t.type mode src dst
  | .primitive id k, h, mode, src, dst => extractkeyAny_hit (t := .primitive id k) h mode src dst _
  | .u8string id s b, h, mode, src, dst => extractkeyAny_hit (t := .u8string id s b) h mode src dst _
  | .u16string id s b, h, mode, src, dst => extractkeyAny_hit (t := .u16string id s b) h mode src dst _
  | .boolVector id s b, h, mode, src, dst => extractkeyAny_hit (t := .boolVector id s b) h mode src dst _
  | .struct id s ms, h, mode, src, dst => by
    rw [extractkeyObject, extractkeyMemberObjects_eq (!ms.types.hasKeys) ms h.2]
    exact extractkeyAny_hit (t := .struct id s ms) h.1 mode src dst _
  | .array id t n, h, mode, src, dst => by
    rw [extractkeyObject, extractkeyMany_hit bswapSrc bswapDst h.2.here (extractkeyObject_eq t h.2 mode)]
    exact extractkeyAny_hit (t := .array id t n) h.1 mode src dst _
  | .spanSequence id k t b, h, mode, src, dst => by
    simp only [extractkeyObject, extractkeyMany_hit bswapSrc bswapDst h.2.here (extractkeyObject_eq t h.2 mode)]
    exact extractkeyAny_hit (t := .spanSequence id k t b) h.1 mode src dst _

theorem extractkeyMemberObjects_eq (all : Bool) : ∀ (ms : MemberObjects Id), ms.Everywhere (HitsAt lookup) →
    ∀ (mode : ExtractKeyMode) (src : DeserializeCursor) (dst : σ),
    extractkeyMemberObjects host lookup bswapSrc bswapDst all ms mode src dst =
      extractkeyMembers host exactLookup bswapSrc bswapDst all ms.types mode src dst
  | .nil, _, _, _, _ => rfl
  | .cons _ isKey t ms, h, mode, src, dst => by
    have ht := extractkeyObject_eq t h.1
    have hms := extractkeyMemberObjects_eq all ms h.2
    cases hmode : memberMode mode (isKey || all) with
    | none => simp only [extractkeyMemberObjects, MemberObjects.types, extractkeyMembers, hmode, hms]
    | some mode => simp only [extractkeyMemberObjects, MemberObjects.types, extractkeyMembers, hmode, ht, hms]
end

end

/-! ### Every lookup hits -/

/-- Whatever a miss might answer, readers and writers do what they do with the true answers. -/
structure AlwaysHits [DecidableEq Id] (c : ObjectCache Id) (t : TypeObject Id) : Prop where
  serialize : ∀ {σ : Type} [WriteCursor σ] (onMiss : ObjectLookup Id) (host : Endian) (m : Memory)
    (what : SampleOrKey) (src : Address) (dst : σ),
    serializeObject host m (c.lookup onMiss) what t src dst = serialize host m exactLookup what t.type src dst
  deserialize : ∀ (onMiss : ObjectLookup Id) (host : Endian) (runtime : Runtime) (bswapSrc : Bool)
    (what : SampleOrKey) (src : DeserializeCursor),
    deserializeObject host (c.lookup onMiss) runtime bswapSrc what t src =
      deserialize host exactLookup runtime bswapSrc what t.type src
  extractkey : ∀ {σ : Type} [WriteCursor σ] (onMiss : ObjectLookup Id) (host : Endian) (bswapSrc bswapDst : Bool)
    (mode : ExtractKeyMode) (src : DeserializeCursor) (dst : σ),
    extractkeyObject host (c.lookup onMiss) bswapSrc bswapDst t mode src dst =
      extractkey host exactLookup bswapSrc bswapDst t.type mode src dst

/-- Registration returns, so it asks no type for a size that it does not have, and leaves no key out. -/
theorem registered_alwaysHits [DecidableEq Id] (root : TypeObject Id) (h : root.Consistent) :
    ∃ c, registerObject root [] = .ok c ∧ root.Everywhere c.Knows ∧ AlwaysHits c root := by
  obtain ⟨c,hc,hknows⟩ := registerObject_knows h.universe fun P hp => hp.here
  have hhits : ∀ onMiss, root.Everywhere (HitsAt (c.lookup onMiss)) := by
    intro onMiss
    apply hknows.imp
    exact fun t ht => ht.hitsAt onMiss
  refine ⟨c,hc,hknows,?_,?_,?_⟩
  · exact fun onMiss host m what => serializeObject_eq host m what root (hhits onMiss)
  · exact fun onMiss host runtime bswapSrc what => deserializeObject_eq host runtime bswapSrc what root (hhits onMiss)
  · exact fun onMiss host bswapSrc bswapDst => extractkeyObject_eq host bswapSrc bswapDst root (hhits onMiss)

end

/-- `float x[3]; sequence<float> y`, where both members refer to one object for `float`. -/
def sharedFloat : TypeObject Nat :=
  .struct 0 40 (.cons 0 false (.array 1 (.primitive 2 .float) 3)
    (.cons 16 false (.spanSequence 3 .callback (.primitive 2 .float) uint32Max) .nil))

private theorem sharedFloat_consistent : sharedFloat.Consistent := by
  simp [sharedFloat, TypeObject.Consistent, TypeObject.Everywhere, MemberObjects.Everywhere, TypeObject.id]

theorem sharedFloat_alwaysHits :
    ∃ c, registerObject sharedFloat [] = .ok c ∧ sharedFloat.Everywhere c.Knows ∧ AlwaysHits c sharedFloat :=
  registered_alwaysHits sharedFloat sharedFloat_consistent

end RmwCyclonedds
