import RmwCyclonedds.Serialization.Accepted
import RmwCyclonedds.Serialization.CDRReader

/-! The copies a reader takes, against reading member by member and element by element. -/
namespace RmwCyclonedds
open Library DeserializeCursor

/-- Two calls return alike; they may fail in different ways. -/
def ReturnsAlike {α : Type} (x y : Outcome α) : Prop := ∀ r, x = .ok r ↔ y = .ok r

namespace ReturnsAlike
variable {α β : Type}

theorem refl (x : Outcome α) : ReturnsAlike x x := fun _ => Iff.rfl

theorem bind {x y : Outcome α} {f g : α → Outcome β} (hx : ReturnsAlike x y) (hf : ∀ a, ReturnsAlike (f a) (g a)) :
    ReturnsAlike (x >>= f) (y >>= g) := by
  intro r
  constructor
  · intro h
    obtain ⟨a,ha,h⟩ := Outcome.bind_eq_ok h
    rw [(hx a).mp ha]
    exact (hf a r).mp h
  · intro h
    obtain ⟨a,ha,h⟩ := Outcome.bind_eq_ok h
    rw [(hx a).mpr ha]
    exact (hf a r).mpr h

/-- It is enough that one returns what the other returns, and then answers. -/
theorem of_returns {x y : Outcome α} (hxy : ∀ r, x = .ok r → y = .ok r) (hyx : ∀ r, y = .ok r → ∃ s, x = .ok s) :
    ReturnsAlike x y := by
  intro r
  refine ⟨hxy r,fun h => ?_⟩
  obtain ⟨s,hs⟩ := hyx r h
  have hr := hxy s hs
  rw [h] at hr
  rw [hs, Except.ok.inj hr]

end ReturnsAlike

section
variable (host : Endian) (runtime : Runtime)

/-- Without copies, an array is read element by element. -/
theorem deserializeMany_noShortcut {t : ValueType} (hs : t.Sized) (bswapSrc : Bool)
    (f : DeserializeCursor → Outcome (Value × DeserializeCursor)) (count : Nat) (c : DeserializeCursor) :
    deserializeMany host noShortcut bswapSrc f t count c = deserializeEach f count c := by
  have hbulk : ∀ d : DeserializeCursor, (if bswapSrc then pure false else
      lookupManyTriviallySerialized noShortcut d.offset t) = (.ok false : Outcome Bool) := by
    intro d
    cases bswapSrc <;> rfl
  match count with
  | 0 => rfl
  | 1 =>
    simp only [deserializeMany, deserializeEach, one_ne_zero, if_false, Nat.sub_self, if_true]
    rfl
  | n + 2 =>
    have hcount : n + 2 - 1 = n + 1 := rfl
    rw [deserializeMany, deserializeEach]
    simp only [hcount, Nat.succ_ne_zero, if_false, ValueType.sizeofType_of_sized hs, hbulk, bind, Except.bind,
      Bool.false_eq_true]

/-! ### Reading plainly where a copy is allowed -/

private theorem deserializeEach_of_trivial {t : ValueType} {f : DeserializeCursor → Outcome (Value × DeserializeCursor)}
    (hf : ∀ {v : Value} {c c' : DeserializeCursor}, t.trivial c.offset = true → t.Has v →
      Reads c (v.encode host c.offset) c' → f c = .ok (v,c')) :
    ∀ {vs : List Value} {c c' : DeserializeCursor}, (∀ k < vs.length, t.trivial (c.offset + k * t.size) = true) →
      (∀ v ∈ vs, t.Has v) → Reads c (Value.encodeAll host vs c.offset) c' → deserializeEach f vs.length c = .ok (vs,c')
  | [], c, c', _, _, h => by
    obtain ⟨_,rfl⟩ := (Reads.refl c).bytes_unique h rfl
    rfl
  | v :: vs, c, c', ht, hv, h => by
    obtain ⟨d,hoff,hhead,htail⟩ := reads_cons h
    have h0 : t.trivial c.offset = true := by simpa using ht 0 (Nat.succ_pos _)
    have hone := hf h0 (hv v List.mem_cons_self) hhead
    rw [ValueType.finish_of_trivial h0 (hv v List.mem_cons_self)] at hoff
    have hlater : ∀ k < vs.length, t.trivial (d.offset + k * t.size) = true := by
      intro k hk
      have hs := ht (k + 1) (Nat.succ_lt_succ hk)
      rwa [Nat.succ_mul, Nat.add_comm (k * t.size), ← Nat.add_assoc, ← hoff] at hs
    have hrest := deserializeEach_of_trivial hf hlater (fun w hw => hv w (List.mem_cons_of_mem v hw)) htail
    rw [List.length_cons, deserializeEach, hone]
    simp only [bind, Except.bind, hrest]
    rfl

mutual
theorem deserialize_of_trivial : ∀ {t : ValueType}, t.WellFormed → ∀ {v : Value} {c c' : DeserializeCursor},
    t.trivial c.offset = true → t.Has v → Reads c (v.encode host c.offset) c' →
    deserialize host noShortcut runtime false .sample t c = .ok (v,c')
  | .primitive k, _, _, c, c', _, hv, h => by
    obtain ⟨n,hn,rfl⟩ := hv
    exact deserializePrimitive_of_encode host false hn h
  | .struct s ms, hw, _, c, c', ht, hv, h => by
    obtain ⟨vs,rfl,hvs⟩ := hv
    have hms := deserializeMembers_of_trivial hw (Nat.add_zero c.offset).symm ht hvs h
    show (do
      let (vs,src) ← deserializeMembers host noShortcut runtime false .sample (allFields .sample ms) ms c
      return (Value.struct vs,src)) = _
    rw [allFields_sample, hms]
    rfl
  | .array t n, hw, _, c, c', ht, hv, h => by
    obtain ⟨vs,rfl,rfl,hvs⟩ := hv
    obtain ⟨h0,h1⟩ := Bool.and_eq_true_iff.mp ht
    have heach := deserializeEach_of_trivial host (fun ht hv h => deserialize_of_trivial hw.2 ht hv h)
      (fun k _ => t.trivial_stride h0 h1 k) hvs h
    rw [← deserializeMany_noShortcut host hw.1 false] at heach
    show (do
      let (vs,src) ← deserializeMany host noShortcut false
        (fun src => deserialize host noShortcut runtime false .sample t src) t vs.length c
      return (Value.array vs,src)) = _
    rw [heach]
    rfl

theorem deserializeMembers_of_trivial : ∀ {ms : Members}, ms.WellFormed → ∀ {vs : List Value} {c c' : DeserializeCursor}
    {s off pos : Nat}, c.offset = off + pos → ms.trivial s off pos = true → ms.Have vs →
    Reads c (Value.encodeAll host vs c.offset) c' →
    deserializeMembers host noShortcut runtime false .sample true ms c = .ok (vs,c')
  | .nil, _, _, c, c', _, _, _, _, _, hv, h => by
    rw [hv] at h ⊢
    obtain ⟨_,rfl⟩ := (Reads.refl c).bytes_unique h rfl
    rfl
  | .cons _ _ t ms, hw, _, c, c', s, off, pos, hoff, ht, hv, h => by
    obtain ⟨v,ws,rfl,hv,hws⟩ := hv
    simp only [Members.trivial, Bool.and_eq_true] at ht
    obtain ⟨d,hd,hhead,htail⟩ := reads_cons h
    rw [← hoff] at ht
    have hone := deserialize_of_trivial hw.1 ht.1.2 hv hhead
    have hnext : d.offset = off + (pos + t.size) := by
      rw [hd, ValueType.finish_of_trivial ht.1.2 hv, hoff, Nat.add_assoc]
    have hrest := deserializeMembers_of_trivial hw.2 hnext ht.2 hws htail
    rw [deserializeMembers, Bool.true_or, if_pos rfl, hone]
    simp only [bind, Except.bind, hrest]
    rfl
end

/-! ### A copy against reading plainly -/

private theorem copy_alike {t : ValueType} (hw : t.WellFormed) (ha : t.Everywhere (Answers noShortcut))
    {c : DeserializeCursor} (ht : t.trivial c.offset = true) :
    ReturnsAlike (do
      let (bytes,src) ← c.getBytes t.size
      return ((Memory.ofBytes bytes).value host t Memory.base,src))
      (deserialize host noShortcut runtime false .sample t c) := by
  apply ReturnsAlike.of_returns
  · rintro ⟨v,c'⟩ h
    obtain ⟨⟨bs,d⟩,hget,h⟩ := Outcome.bind_eq_ok h
    cases h
    obtain ⟨hlen,hreads⟩ := reads_of_getBytes hget
    have hraw := (Memory.ofBytes bs).encode_of_trivial host t Memory.base c.offset ht
    rw [← hlen, Memory.read_ofBytes] at hraw
    rw [← hraw] at hreads
    exact deserialize_of_trivial host runtime hw ht (Memory.value_has _ host t Memory.base) hreads
  · rintro ⟨v,c'⟩ h
    have hacc := deserialize_accepts hw ha h
    obtain ⟨bs,hreads⟩ := hacc.reads
    have hlen : bs.length = t.size := by
      have hoff := hacc.offset_eq
      rw [ValueType.finish_of_trivial ht hacc.has, hreads.offset_eq] at hoff
      omega
    have hget := getBytes_of_reads hreads
    rw [hlen] at hget
    exact ⟨_,by rw [hget]; rfl⟩

private theorem copyMany_alike {t : ValueType} (hw : t.WellFormed) (ha : t.Everywhere (Answers noShortcut))
    {c : DeserializeCursor} (ht : t.trivialMany c.offset = true) (count : Nat) :
    ReturnsAlike (do
      let (bytes,src) ← c.getBytes (count * t.size)
      return (rawValues host t bytes count,src))
      (deserializeEach (fun src => deserialize host noShortcut runtime false .sample t src) count c) := by
  have hstride : ∀ k < count, t.trivial (c.offset + k * t.size) = true :=
    fun k _ => ValueType.trivial_of_trivialMany ht k
  apply ReturnsAlike.of_returns
  · rintro ⟨vs,c'⟩ h
    obtain ⟨⟨bs,d⟩,hget,h⟩ := Outcome.bind_eq_ok h
    cases h
    obtain ⟨hlen,hreads⟩ := reads_of_getBytes hget
    have hraw : Value.encodeAll host (rawValues host t bs count) c.offset = bs := by
      rw [rawValues, (Memory.ofBytes bs).encode_of_trivialMany host t Memory.base ht count, ← hlen, Memory.read_ofBytes]
    have hcount : (rawValues host t bs count).length = count := Memory.strided_length _ _ _ _
    have hhas : ∀ v ∈ rawValues host t bs count, t.Has v := by
      intro v hv
      obtain ⟨a,rfl⟩ := Memory.strided_mem hv
      exact Memory.value_has _ host t a
    rw [← hraw] at hreads
    have heach := deserializeEach_of_trivial host (fun ht hv h => deserialize_of_trivial host runtime hw ht hv h)
      (by rw [hcount]; exact hstride) hhas hreads
    rwa [hcount] at heach
  · rintro ⟨vs,c'⟩ h
    obtain ⟨hcount,hacc⟩ := deserializeEach_ok (fun h => deserialize_accepts hw ha h) h
    obtain ⟨bs,hreads⟩ := hacc.reads
    have hlen : bs.length = count * t.size := by
      have hoff := hacc.offset_eq
      have hsize := encodeAll_length_of_trivialMany host ht hacc.has
      have hend := Value.encodeAll_length host vs c.offset
      rw [hreads.offset_eq] at hoff
      rw [← hcount]
      omega
    have hget := getBytes_of_reads hreads
    rw [hlen] at hget
    exact ⟨_,by rw [hget]; rfl⟩

/-! ### The whole reader -/

section
variable {lookup : Lookup}

private theorem deserializeEach_alike {f g : DeserializeCursor → Outcome (Value × DeserializeCursor)}
    (hfg : ∀ c, ReturnsAlike (f c) (g c)) (count : Nat) (c : DeserializeCursor) :
    ReturnsAlike (deserializeEach f count c) (deserializeEach g count c) := by
  induction count generalizing c with
  | zero => exact ReturnsAlike.refl _
  | succ count ih =>
    refine ReturnsAlike.bind (hfg c) fun ⟨v,d⟩ => ?_
    exact ReturnsAlike.bind (ih d) fun _ => ReturnsAlike.refl _

private theorem deserializeMany_alike {t : ValueType} (hs : t.Sized) (hw : t.WellFormed)
    (ha : t.Everywhere (Answers noShortcut)) (hl : AnswersExactly lookup t)
    {f : DeserializeCursor → Outcome (Value × DeserializeCursor)}
    (hf : ∀ c, ReturnsAlike (f c) (deserialize host noShortcut runtime false .sample t c)) (count : Nat)
    (c : DeserializeCursor) : ReturnsAlike (deserializeMany host lookup false f t count c)
      (deserializeMany host noShortcut false (fun src => deserialize host noShortcut runtime false .sample t src) t count c) := by
  rw [deserializeMany_noShortcut host hs]
  match count with
  | 0 => exact ReturnsAlike.refl _
  | 1 =>
    simp only [deserializeMany, deserializeEach, one_ne_zero, if_false, Nat.sub_self, if_true]
    exact ReturnsAlike.bind (hf c) fun _ => ReturnsAlike.refl _
  | n + 2 =>
    have hcount : n + 2 - 1 = n + 1 := rfl
    rw [deserializeMany, deserializeEach]
    simp only [hcount, Nat.succ_ne_zero, if_false, ValueType.sizeofType_of_sized hs, Bool.false_eq_true]
    refine ReturnsAlike.bind (hf c) ?_
    rintro ⟨v,d⟩
    simp only [lookupMany_exactly hs hl d.offset, bind, Except.bind]
    cases ht : t.trivialMany d.offset with
    | false =>
      simp only [Bool.false_eq_true, if_false]
      exact ReturnsAlike.bind (deserializeEach_alike hf (n + 1) d) fun _ => ReturnsAlike.refl _
    | true =>
      simp only [if_true]
      -- the copy, with the first element put in front
      let cons : List Value × DeserializeCursor → Outcome (List Value × DeserializeCursor) := fun p => .ok (v :: p.1,p.2)
      have hcopy := ReturnsAlike.bind (copyMany_alike host runtime hw ha ht (n + 1)) fun p => ReturnsAlike.refl (cons p)
      cases hget : d.getBytes ((n + 1) * t.size) with
      | error e =>
        rw [hget] at hcopy
        exact hcopy
      | ok p =>
        rw [hget] at hcopy
        exact hcopy

private theorem deserializeAny_alike {t : ValueType} (hl : AnswersExactly lookup t) {c : DeserializeCursor}
    {overload overload' : Outcome (Value × DeserializeCursor)} (ho : ReturnsAlike overload overload')
    (hcopy : t.trivial c.offset = true → ReturnsAlike (do
      let (bytes,src) ← c.getBytes t.size
      return ((Memory.ofBytes bytes).value host t Memory.base,src)) overload') :
    ReturnsAlike (deserializeAny host lookup false .sample t c overload) overload' := by
  have hcond : (!false && SampleOrKey.sample == .sample) = true := rfl
  cases ht : t.trivial c.offset with
  | false =>
    simp only [deserializeAny, hcond, if_true, hl c.offset, ht, bind, Except.bind]
    exact ho
  | true =>
    simp only [deserializeAny, hcond, if_true, hl c.offset, ht, bind, Except.bind,
      ValueType.sizeofType_of_sized (ValueType.sized_of_trivial ht)]
    exact hcopy ht

private theorem plain_everywhere {t : ValueType} (hl : t.Everywhere (AnswersExactly lookup)) :
    t.Everywhere (Answers noShortcut) := hl.imp fun t _ => answers_noShortcut t

mutual
theorem deserialize_alike : ∀ {t : ValueType}, t.WellFormed → t.Everywhere (AnswersExactly lookup) →
    ∀ c : DeserializeCursor, ReturnsAlike (deserialize host lookup runtime false .sample t c)
      (deserialize host noShortcut runtime false .sample t c)
  | .primitive k, hw, hl, c =>
    deserializeAny_alike host hl (ReturnsAlike.refl _) (copy_alike host runtime hw (answers_noShortcut _))
  | .u8string s b, _, hl, c => deserializeAny_alike host hl (ReturnsAlike.refl _) fun ht => Bool.noConfusion ht
  | .u16string s b, _, hl, c => deserializeAny_alike host hl (ReturnsAlike.refl _) fun ht => Bool.noConfusion ht
  | .struct s ms, hw, hl, c => by
    refine deserializeAny_alike host hl.1 ?_ (copy_alike host runtime hw (plain_everywhere hl))
    exact ReturnsAlike.bind (deserializeMembers_alike hw hl.2 c) fun _ => ReturnsAlike.refl _
  | .array t n, hw, hl, c => by
    refine deserializeAny_alike host hl.1 ?_ (copy_alike host runtime hw (plain_everywhere hl))
    have hmany := deserializeMany_alike host runtime hw.1 hw.2 (plain_everywhere hl.2) hl.2.here
      (fun c => deserialize_alike hw.2 hl.2 c) n c
    exact ReturnsAlike.bind hmany fun _ => ReturnsAlike.refl _
  | .spanSequence k t b, hw, hl, c => by
    refine deserializeAny_alike host hl.1 ?_ fun ht => Bool.noConfusion ht
    refine ReturnsAlike.bind (ReturnsAlike.refl _) fun ⟨count,d⟩ => ?_
    refine ReturnsAlike.bind (ReturnsAlike.refl _) fun _ => ?_
    have hmany := deserializeMany_alike host runtime hw.1 hw.2.1 (plain_everywhere hl.2) hl.2.here
      (fun c => deserialize_alike hw.2.1 hl.2 c) count d
    exact ReturnsAlike.bind hmany fun _ => ReturnsAlike.refl _
  | .boolVector s b, _, hl, c => deserializeAny_alike host hl (ReturnsAlike.refl _) fun ht => Bool.noConfusion ht

theorem deserializeMembers_alike : ∀ {ms : Members}, ms.WellFormed → ms.Everywhere (AnswersExactly lookup) →
    ∀ c : DeserializeCursor, ReturnsAlike (deserializeMembers host lookup runtime false .sample true ms c)
      (deserializeMembers host noShortcut runtime false .sample true ms c)
  | .nil, _, _, c => ReturnsAlike.refl _
  | .cons _ _ t ms, hw, hl, c => by
    rw [deserializeMembers, deserializeMembers, Bool.true_or, if_pos rfl, if_pos rfl]
    refine ReturnsAlike.bind (deserialize_alike hw.1 hl.1 c) fun ⟨v,d⟩ => ?_
    exact ReturnsAlike.bind (deserializeMembers_alike hw.2 hl.2 d) fun _ => ReturnsAlike.refl _
end

end

end

namespace CDRReader
variable {host : Endian} {root : StructValueType} {variant : SampleOrRequest} (r : CDRReader host root variant)

/-- Throughout the type of a reader, for samples of its own byte order: what is read with copies is read without
them, and the reader then stands at the same place. -/
theorem deserialize_shortcut : root.toValueType.Everywhere fun t =>
    ∀ (runtime : Runtime) (c c' : DeserializeCursor) (v : Value),
      RmwCyclonedds.deserialize host r.tsc.lookupTriviallySerialized runtime false .sample t c = .ok (v,c') ↔
      RmwCyclonedds.deserialize host noShortcut runtime false .sample t c = .ok (v,c') := by
  have hinside := ValueType.everywhere_inside (t := root.toValueType) root.wellFormed r.answersExactly
  refine hinside.imp ?_
  rintro t ⟨hw,hl⟩ runtime c c' v
  exact deserialize_alike host runtime hw hl c (v,c')

end CDRReader
end RmwCyclonedds
