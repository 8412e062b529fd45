import RmwCyclonedds.Serialization.MaxBound
import RmwCyclonedds.Serialization.Sizing
import RmwCyclonedds.Serialization.Typesupports

/-! Containers that are sized before anything shows that the stream is long enough for them. -/
namespace RmwCyclonedds
open Library DeserializeCursor

/-- There are as many bytes left as the container gets elements. -/
def Sizing.Within (e : Sizing) : Prop := e.elements ≤ e.remaining

instance (e : Sizing) : Decidable e.Within := inferInstanceAs (Decidable (e.elements ≤ e.remaining))

mutual
/-- A sequence is sized somewhere in a value of the type, be it bounded or not. -/
def ValueType.sizesSequence (what : SampleOrKey) : ValueType → Bool
  | .primitive _ => false
  | .u8string _ _ => false
  | .u16string _ _ => false
  | .struct _ ms => ms.sizesSequence what (allFields what ms)
  | .array t n => n != 0 && t.sizesSequence what
  | .spanSequence _ _ _ => true
  | .boolVector _ _ => false

def Members.sizesSequence (what : SampleOrKey) (all : Bool) : Members → Bool
  | .nil => false
  | .cons _ isKey t ms => (all || isKey) && t.sizesSequence what || ms.sizesSequence what all
end

/-! ### What was advanced over is there -/

section
variable (host : Endian) {lookup : Lookup} {runtime : Runtime} (bswapSrc : Bool) (what : SampleOrKey)

/-- Within the stream; where sequences are sized, they may be excepted. -/
def WithinUnless (sized : Prop) (e : Sizing) : Prop := e.Within ∨ sized ∧ ∃ kind, e.container = .sequence kind

variable {sized : Prop}

private theorem noteSizing_within {container : Container} {elements n : Nat} {c d : DeserializeCursor} {bs : List Byte}
    (hget : c.getBytes n = .ok (bs,d)) (hle : elements ≤ n) :
    Traced.Along (WithinUnless sized) (noteSizing container elements c) := by
  apply Traced.Along.note
  obtain ⟨hlen,hreads⟩ := reads_of_getBytes hget
  have hend := hreads.length_le
  left
  show elements ≤ c.data.length - c.position
  omega

private theorem deserializeU8StringNoted_within (c : DeserializeCursor) :
    Traced.Along (WithinUnless sized) (deserializeU8StringNoted host bswapSrc c) := by
  refine Traced.Along.bind (Traced.Along.quiet _) ?_
  rintro ⟨size,d⟩ _
  refine Traced.Along.ite (fun _ => Traced.Along.bind (Traced.Along.quiet _) fun _ h => by cases h) fun _ => ?_
  refine Traced.Along.bind (Traced.Along.quiet _) ?_
  rintro ⟨srcdata,_⟩ hget
  refine Traced.Along.ite (fun _ => Traced.Along.bind (Traced.Along.quiet _) fun _ h => by cases h) fun _ => ?_
  exact Traced.Along.bind (noteSizing_within hget (Nat.sub_le size 1)) fun _ _ => Traced.Along.pure _

private theorem deserializeU16StringNoted_within (c : DeserializeCursor) :
    Traced.Along (WithinUnless sized) (deserializeU16StringNoted host bswapSrc c) := by
  refine Traced.Along.bind (Traced.Along.quiet _) ?_
  rintro ⟨size,d⟩ _
  refine Traced.Along.ite (fun _ => Traced.Along.bind (Traced.Along.quiet _) fun _ h => by cases h) fun _ => ?_
  refine Traced.Along.bind (Traced.Along.quiet _) ?_
  rintro ⟨srcdata,_⟩ hget
  exact Traced.Along.bind (noteSizing_within hget (Nat.div_le_self size 2)) fun _ _ => Traced.Along.pure _

private theorem deserializeBoolVectorNoted_within (c : DeserializeCursor) :
    Traced.Along (WithinUnless sized) (deserializeBoolVectorNoted host bswapSrc c) := by
  refine Traced.Along.bind (Traced.Along.quiet _) ?_
  rintro ⟨count,d⟩ _
  refine Traced.Along.bind (Traced.Along.quiet _) ?_
  rintro ⟨srcdata,_⟩ hget
  exact Traced.Along.bind (noteSizing_within hget (Nat.le_refl count)) fun _ _ => Traced.Along.pure _

section
variable {f : DeserializeCursor → SizedRead (Value × DeserializeCursor)}
  (hf : ∀ c, Traced.Along (WithinUnless sized) (f c))
include hf

private theorem deserializeEachNoted_within (count : Nat) (c : DeserializeCursor) :
    Traced.Along (WithinUnless sized) (deserializeEachNoted f count c) := by
  induction count generalizing c with
  | zero => exact Traced.Along.pure _
  | succ count ih =>
    refine Traced.Along.bind (hf c) fun ⟨v,d⟩ _ => ?_
    exact Traced.Along.bind (ih d) fun _ _ => Traced.Along.pure _

private theorem deserializeManyNoted_within (t : ValueType) (count : Nat) (c : DeserializeCursor) :
    Traced.Along (WithinUnless sized) (deserializeManyNoted host lookup bswapSrc f t count c) := by
  refine Traced.Along.ite (fun _ => Traced.Along.pure _) fun _ => ?_
  refine Traced.Along.bind (hf c) fun ⟨v,d⟩ _ => ?_
  refine Traced.Along.ite (fun _ => Traced.Along.pure _) fun _ => ?_
  refine Traced.Along.bind (Traced.Along.quiet _) fun size _ => ?_
  refine Traced.Along.bind (Traced.Along.quiet _) fun bulk _ => ?_
  refine Traced.Along.ite (fun _ => ?_) fun _ => ?_
  · exact Traced.Along.bind (Traced.Along.quiet _) fun _ _ => Traced.Along.pure _
  · exact Traced.Along.bind (deserializeEachNoted_within hf _ d) fun _ _ => Traced.Along.pure _

end

private theorem deserializeAnyNoted_within {t : ValueType} {c : DeserializeCursor}
    {overload : SizedRead (Value × DeserializeCursor)} (ho : Traced.Along (WithinUnless sized) overload) :
    Traced.Along (WithinUnless sized) (deserializeAnyNoted host lookup bswapSrc what t c overload) := by
  refine Traced.Along.bind (Traced.Along.quiet _) fun copy _ => ?_
  refine Traced.Along.ite (fun _ => ?_) fun _ => ho
  refine Traced.Along.bind (Traced.Along.quiet _) fun size _ => ?_
  exact Traced.Along.bind (Traced.Along.quiet _) fun _ _ => Traced.Along.pure _

mutual
/-- Only a sequence may be sized to more elements than there are bytes left. -/
theorem deserializeNoted_within : ∀ {t : ValueType}, (t.sizesSequence what = true → sized) → ∀ c : DeserializeCursor,
    Traced.Along (WithinUnless sized) (deserializeNoted host lookup runtime bswapSrc what t c)
  | .primitive k, _, c => deserializeAnyNoted_within host bswapSrc what (Traced.Along.quiet _)
  | .u8string _ _, _, c => deserializeAnyNoted_within host bswapSrc what (deserializeU8StringNoted_within host bswapSrc c)
  | .u16string _ _, _, c => deserializeAnyNoted_within host bswapSrc what (deserializeU16StringNoted_within host bswapSrc c)
  | .struct _ ms, h, c => by
    apply deserializeAnyNoted_within
    exact Traced.Along.bind (deserializeMembersNoted_within (allFields what ms) h c) fun _ _ => Traced.Along.pure _
  | .array t n, h, c => by
    apply deserializeAnyNoted_within
    by_cases hn : n = 0
    · subst hn
      exact Traced.Along.bind (Traced.Along.pure _) fun _ _ => Traced.Along.pure _
    · have ht : t.sizesSequence what = true → sized := by
        intro hs
        apply h
        rw [ValueType.sizesSequence, hs, Bool.and_true]
        exact bne_iff_ne.mpr hn
      exact Traced.Along.bind (deserializeManyNoted_within host bswapSrc (deserializeNoted_within ht) t n c)
        fun _ _ => Traced.Along.pure _
  | .spanSequence k t b, h, c => by
    apply deserializeAnyNoted_within
    have hsized : sized := h rfl
    refine Traced.Along.bind (Traced.Along.quiet _) fun ⟨count,d⟩ _ => ?_
    refine Traced.Along.bind (Traced.Along.note (.inr ⟨hsized,k,rfl⟩)) fun _ _ => ?_
    refine Traced.Along.bind (Traced.Along.quiet _) fun _ _ => ?_
    exact Traced.Along.bind (deserializeManyNoted_within host bswapSrc (deserializeNoted_within fun _ => hsized) t count d)
      fun _ _ => Traced.Along.pure _
  | .boolVector _ _, _, c => deserializeAnyNoted_within host bswapSrc what (deserializeBoolVectorNoted_within host bswapSrc c)

theorem deserializeMembersNoted_within (all : Bool) : ∀ {ms : Members}, (ms.sizesSequence what all = true → sized) →
    ∀ c : DeserializeCursor, Traced.Along (WithinUnless sized) (deserializeMembersNoted host lookup runtime bswapSrc what all ms c)
  | .nil, _, c => Traced.Along.pure _
  | .cons _ isKey t ms, h, c => by
    have hms : ms.sizesSequence what all = true → sized := by
      intro hs
      apply h
      rw [Members.sizesSequence, hs, Bool.or_true]
    refine Traced.Along.ite (fun hk => ?_) fun _ => deserializeMembersNoted_within all hms c
    have ht : t.sizesSequence what = true → sized := by
      intro hs
      apply h
      rw [Members.sizesSequence, hs, hk]
      rfl
    refine Traced.Along.bind (deserializeNoted_within ht c) fun ⟨v,d⟩ _ => ?_
    exact Traced.Along.bind (deserializeMembersNoted_within all hms d) fun _ _ => Traced.Along.pure _
end

end

/-! ### Streams that end behind a count -/

section
variable (host : Endian) (lookup : Lookup)

/-- The stream ends where the elements of a sequence should follow. Its byte order is not the one of the host, so that
nothing is copied on the way there. -/
def EndsShort {α : Type} (noted : DeserializeCursor → SizedRead α) (off : Nat)
    (bytes : List Byte) : Prop :=
  ∀ c : DeserializeCursor, c.offset = off → c.data.drop c.position = bytes → ∃ e ∈ (noted c).events, ¬e.Within

variable {host lookup} {what : SampleOrKey}

private theorem exists_ahead {c : DeserializeCursor} {bs rest : List Byte} (h : c.data.drop c.position = bs ++ rest) :
    ∃ d, Reads c bs d ∧ d.data.drop d.position = rest := by
  obtain ⟨d,hd⟩ := exists_reads h
  exact ⟨d,hd,hd.drop_eq h⟩

private theorem deserializeAnyNoted_swapped (t : ValueType) (c : DeserializeCursor)
    (overload : SizedRead (Value × DeserializeCursor)) :
    deserializeAnyNoted host lookup true what t c overload = overload := rfl

/-- The smallest object of a type is read as it was written. -/
private theorem deserialize_smallest {t : ValueType} (hw : t.WellFormed) (hl : t.Everywhere (AnswersExactly lookup))
    (what : SampleOrKey) (off : Nat) : ∃ v : Value, ∀ c d : DeserializeCursor, c.offset = off → Reads c (v.encode host.opposite off) d →
      deserialize host lookup plentiful true what t c = .ok (v,d) := by
  have hv := Memory.empty.value_has host t Memory.base
  have hf := ValueType.fits_of_inBounds hw hv (ValueType.inBounds_empty host t Memory.base)
  refine ⟨t.view (readerWhole true) what (Memory.empty.value host t Memory.base) off,?_⟩
  rintro c d rfl h
  exact deserialize_of_encode host true what (fun _ _ => rfl) t hw hl hv (view_fits _ what t _ _ hf) h

mutual
theorem exists_endsShort : ∀ {t : ValueType}, t.WellFormed → t.Everywhere (AnswersExactly lookup) →
    t.sizesSequence what = true → ∀ off,
    ∃ bytes, EndsShort (deserializeNoted host lookup plentiful true what t) off bytes
  | .primitive _, _, _, h, _ => Bool.noConfusion h
  | .u8string _ _, _, _, h, _ => Bool.noConfusion h
  | .u16string _ _, _, _, h, _ => Bool.noConfusion h
  | .struct _ ms, hw, hl, h, off => by
    obtain ⟨bytes,hshort⟩ := exists_membersEndShort hw hl.2 h off
    refine ⟨bytes,fun c hoff hc => ?_⟩
    obtain ⟨e,he,hlong⟩ := hshort c hoff hc
    exact ⟨e,Traced.mem_events_bind he _,hlong⟩
  | .array t n, hw, hl, h, off => by
    obtain ⟨hn,ht⟩ := Bool.and_eq_true_iff.mp h
    obtain ⟨bytes,hshort⟩ := exists_endsShort hw.2 hl.2 ht off
    refine ⟨bytes,fun c hoff hc => ?_⟩
    obtain ⟨e,he,hlong⟩ := hshort c hoff hc
    have hmany : e ∈ (deserializeManyNoted host lookup true
        (fun src => deserializeNoted host lookup plentiful true what t src) t n c).events := by
      rw [deserializeManyNoted, if_neg (bne_iff_ne.mp hn)]
      exact Traced.mem_events_bind he _
    exact ⟨e,Traced.mem_events_bind hmany _,hlong⟩
  | .spanSequence k t b, _, _, _, off => by
    refine ⟨Value.encodeU32 host.opposite 1 off,?_⟩
    rintro c rfl hc
    rw [← List.append_nil (Value.encodeU32 host.opposite 1 c.offset)] at hc
    obtain ⟨d,hd,hend⟩ := exists_ahead hc
    have hcount := deserializeU32_of_encode host true (by decide) hd
    refine ⟨⟨.sequence k,1,d.position,d.data.length - d.position⟩,?_,?_⟩
    · rw [deserializeNoted, deserializeAnyNoted_swapped]
      refine Traced.mem_events_bind_ok hcount ?_
      exact Traced.mem_events_bind (List.mem_singleton_self _) _
    · have hleft := List.drop_eq_nil_iff.mp hend
      intro (hwithin : 1 ≤ d.data.length - d.position)
      omega
  | .boolVector _ _, _, _, h, _ => Bool.noConfusion h

theorem exists_membersEndShort {all : Bool} : ∀ {ms : Members}, ms.WellFormed → ms.Everywhere (AnswersExactly lookup) →
    ms.sizesSequence what all = true → ∀ off,
    ∃ bytes, EndsShort (deserializeMembersNoted host lookup plentiful true what all ms) off bytes
  | .nil, _, _, h, _ => Bool.noConfusion h
  | .cons _ isKey t ms, hw, hl, h, off => by
    simp only [Members.sizesSequence] at h
    cases hk : all || isKey with
    | false =>
      rw [hk, Bool.false_and, Bool.false_or] at h
      obtain ⟨bytes,hshort⟩ := exists_membersEndShort hw.2 hl.2 h off
      refine ⟨bytes,fun c hoff hc => ?_⟩
      rw [deserializeMembersNoted, hk]
      exact hshort c hoff hc
    | true =>
      rw [hk, Bool.true_and] at h
      rcases Bool.or_eq_true_iff.mp h with ht | hms
      · obtain ⟨bytes,hshort⟩ := exists_endsShort hw.1 hl.1 ht off
        refine ⟨bytes,fun c hoff hc => ?_⟩
        obtain ⟨e,he,hlong⟩ := hshort c hoff hc
        rw [deserializeMembersNoted, hk]
        exact ⟨e,Traced.mem_events_bind he _,hlong⟩
      · -- the member is read, and the stream ends inside those that follow
        obtain ⟨v,hv⟩ := deserialize_smallest hw.1 hl.1 what off
        obtain ⟨bytes,hshort⟩ := exists_membersEndShort hw.2 hl.2 hms (v.finish off)
        refine ⟨v.encode host.opposite off ++ bytes,fun c hoff hc => ?_⟩
        obtain ⟨d,hd,hend⟩ := exists_ahead hc
        have hdoff : d.offset = v.finish off := by rw [hd.offset_eq, hoff, Value.encode_length]
        obtain ⟨e,he,hlong⟩ := hshort d hdoff hend
        have hone := hv c d hoff hd
        rw [← deserializeNoted_result] at hone
        rw [deserializeMembersNoted, hk]
        exact ⟨e,Traced.mem_events_bind_ok hone (Traced.mem_events_bind he _),hlong⟩
end

end

/-! ### Messages -/

namespace CDRReader
variable {host : Endian} {root : StructValueType} {variant : SampleOrRequest} (r : CDRReader host root variant)

private theorem sizings_within {sized : Prop} (runtime : Runtime) (cdr : List Byte) (what : SampleOrKey)
    (h : (what = .sample ∨ root.hasKeys = true) → root.toValueType.sizesSequence what = true → sized) :
    Traced.Along (WithinUnless sized) (r.deserializeNoted runtime cdr what) := by
  refine Traced.Along.ite (fun _ => ?_) fun _ => Traced.Along.pure _
  refine Traced.Along.bind (Traced.Along.bind (Traced.Along.quiet _) fun ⟨header,c⟩ _ => ?_) fun _ _ => Traced.Along.pure _
  refine Traced.Along.ite (fun _ => Traced.Along.bind (Traced.Along.quiet _) fun _ h => by cases h) fun _ => ?_
  refine Traced.Along.bind (Traced.Along.quiet _) fun ⟨request,d⟩ _ => ?_
  refine Traced.Along.bind (Traced.Along.ite (fun hread => ?_) fun _ => Traced.Along.pure _) fun _ _ => Traced.Along.pure _
  exact Traced.Along.bind (deserializeNoted_within host _ what (h hread) d) fun _ _ => Traced.Along.pure _

private theorem header_swapped (host : Endian) :
    (((rtpsHeader host.opposite).getD 1 0 == 0) == (host == .little)) = true := by cases host <;> rfl

/-- The bytes in front of the value: of a request, its header. -/
private theorem exists_lead (host : Endian) (variant : SampleOrRequest) (what : SampleOrKey) : ∃ lead : List Byte,
    ∀ (c : DeserializeCursor) (rest : List Byte), c.data.drop c.position = lead ++ rest → ∃ header d,
      (if what = .sample ∧ variant = .request then deserializeRequestHeader host true c else .ok (none,c)) =
        .ok (header,d) ∧ d.offset = c.offset + lead.length ∧ d.data.drop d.position = rest := by
  by_cases hrequest : what = .sample ∧ variant = .request
  · refine ⟨List.replicate 8 0 ++ List.replicate 8 0,fun c rest hc => ?_⟩
    rw [List.append_assoc] at hc
    obtain ⟨d,hd,hrest⟩ := exists_ahead hc
    obtain ⟨e,he,hrest⟩ := exists_ahead hrest
    have hswap : streamEndian host true = host.opposite := rfl
    have hheader := deserializeRequestHeader_eq List.length_replicate List.length_replicate hswap hd he
    refine ⟨_,e,(if_pos hrequest).trans hheader,?_,hrest⟩
    rw [he.offset_eq, hd.offset_eq, List.length_append, Nat.add_assoc]
  · exact ⟨[],fun c rest hc => ⟨none,c,if_neg hrequest,rfl,hc⟩⟩

/-- A message in the other byte order whose body ends behind the count of a sequence. -/
private theorem exists_short {what : SampleOrKey} (hread : what = .sample ∨ root.hasKeys = true)
    (hs : root.toValueType.sizesSequence what = true) : ∃ cdr, ∃ e ∈ r.sizings plentiful cdr what, ¬e.Within := by
  have hl := r.answersExactly
  obtain ⟨lead,hlead⟩ := exists_lead host variant what
  obtain ⟨bytes,hshort⟩ := exists_endsShort (t := root.toValueType) root.wellFormed hl hs lead.length
  obtain ⟨c,_,hheader,hoff,_⟩ := reads_body (rtpsHeader host.opposite) (lead ++ bytes) [] rfl
  rw [List.append_nil] at hheader
  have hbody : (c.rebase 4).data.drop (c.rebase 4).position = lead ++ bytes := (reads_of_getBytes hheader).2.drop_eq rfl
  obtain ⟨header,d,hrequest,hdoff,hd⟩ := hlead _ _ hbody
  obtain ⟨e,he,hlong⟩ := hshort d (by rw [hdoff, hoff, Nat.zero_add]) hd
  have hcond : what ≠ .key ∨ root.hasKeys = true := by
    rcases hread with rfl | hk
    · exact .inl (by decide)
    · exact .inr hk
  refine ⟨rtpsHeader host.opposite ++ (lead ++ bytes),e,?_,hlong⟩
  rw [sizings, deserializeNoted, if_pos hcond]
  refine Traced.mem_events_bind ?_ _
  refine Traced.mem_events_bind_ok hheader ?_
  show e ∈ (r.deserializeBehindHeaderNoted plentiful what (rtpsHeader host.opposite) (c.rebase 4)).events
  rw [deserializeBehindHeaderNoted, if_neg (header_accepted _), header_swapped]
  refine Traced.mem_events_bind_ok hrequest ?_
  dsimp only
  rw [if_pos hread]
  exact Traced.mem_events_bind (Traced.mem_events_bind he _) _

/-- Whatever the bytes are, no container gets more elements than there are bytes left for it, exactly for the types
that have no sequences in them; in the others it is a sequence that may. -/
theorem sizings_within_iff (what : SampleOrKey) :
    (∀ runtime cdr, ∀ e ∈ r.sizings runtime cdr what, (∀ kind, e.container ≠ .sequence kind) → e.Within) ∧
    ((∀ runtime cdr, ∀ e ∈ r.sizings runtime cdr what, e.Within) ↔
      ¬((what = .sample ∨ root.hasKeys = true) ∧ root.toValueType.sizesSequence what = true)) := by
  refine ⟨fun runtime cdr e he hother => ?_,?_,fun hnone runtime cdr e he => ?_⟩
  · rcases r.sizings_within runtime cdr what (fun _ _ => True.intro) e he with hwithin | ⟨_,kind,hkind⟩
    · exact hwithin
    · exact absurd hkind (hother kind)
  · rintro hwithin ⟨hread,hs⟩
    obtain ⟨cdr,e,he,hlong⟩ := r.exists_short hread hs
    exact hlong (hwithin plentiful cdr e he)
  · rcases r.sizings_within runtime cdr what (fun hread hs => hnone ⟨hread,hs⟩) e he with hwithin | ⟨hfalse,_⟩
    · exact hwithin
    · exact hfalse.elim

/-- A sequence of at most three numbers is sized to 4294967295 elements, with nothing left to read. -/
theorem codes_oversized : ∃ r : CDRReader .little CDRWriter.codes .sample,
    r.sizings plentiful [0,0,0,0,255,255,255,255] .sample = [⟨.sequence .callback,4294967295,8,0⟩] ∧
      ¬Sizing.Within ⟨.sequence .callback,4294967295,8,0⟩ := by
  obtain ⟨c,hc,_⟩ := make_known CDRWriter.codes.toValueType
  exact ⟨⟨c,hc⟩,rfl,by decide⟩

end CDRReader

end RmwCyclonedds
