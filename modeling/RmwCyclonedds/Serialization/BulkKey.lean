import RmwCyclonedds.Serialization.CDRReader
import RmwCyclonedds.Serialization.ExtractedKey

/-! The bulk copy of key elements: where it asks for the source only, the key stream is aligned as well. -/
namespace RmwCyclonedds
open Library DeserializeCursor WriteCursor

mutual
/-- No member of any struct inside is annotated as key. -/
def ValueType.Unannotated : ValueType → Prop
  | .struct _ ms => ms.Unannotated
  | .array t _ => t.Unannotated
  | .spanSequence _ t _ => t.Unannotated
  | _ => True

def Members.Unannotated : Members → Prop
  | .nil => True
  | .cons _ isKey t ms => isKey = false ∧ t.Unannotated ∧ ms.Unannotated
end

mutual
/-- Logarithm of the strictest alignment of the primitives in a type that is copied. -/
def ValueType.alignLog : ValueType → Nat
  | .primitive k => k.width.log
  | .struct _ ms => ms.alignLog
  | .array t n => if n = 0 then 0 else t.alignLog
  | _ => 0

def Members.alignLog : Members → Nat
  | .nil => 0
  | .cons _ _ t ms => max t.alignLog ms.alignLog
end

private theorem Members.Unannotated.hasKeys : ∀ {ms : Members}, ms.Unannotated → ms.hasKeys = false
  | .nil, _ => rfl
  | .cons _ _ _ _, h => by rw [Members.hasKeys, h.1, Members.Unannotated.hasKeys h.2.2, Bool.or_false]

mutual
/-- A type without annotations contributes all of its members. -/
theorem ValueType.keepsAll_of_unannotated : ∀ t : ValueType, t.Unannotated → t.keepsAll .key = true
  | .primitive _, _ => rfl
  | .u8string _ _, _ => rfl
  | .u16string _ _, _ => rfl
  | .boolVector _ _, _ => rfl
  | .array t _, h => ValueType.keepsAll_of_unannotated t h
  | .spanSequence _ t _, h => ValueType.keepsAll_of_unannotated t h
  | .struct _ ms, h => by
    rw [ValueType.keepsAll, allFields_key, Members.Unannotated.hasKeys h]
    exact Members.keepsAll_of_unannotated ms h

theorem Members.keepsAll_of_unannotated : ∀ ms : Members, ms.Unannotated → ms.keepsAll .key true = true
  | .nil, _ => rfl
  | .cons _ _ t ms, h => by
    rw [Members.keepsAll, ValueType.keepsAll_of_unannotated t h.2.1, Members.keepsAll_of_unannotated ms h.2.2]
    rfl
end

section
variable {σ : Type} [WriteCursor σ]

/-- What `extractkey_many` does with the elements behind the first where it copies. -/
def takeBytes (mode : ExtractKeyMode) (n : Nat) (src : DeserializeCursor) (dst : σ) : Outcome (σ × DeserializeCursor) := do
  let (srcdata,src) ← src.getBytes n
  return (if mode ≠ .skip then putBytes dst srcdata else dst,src)

variable [LawfulWriteCursor σ]
open LawfulWriteCursor

private theorem takeBytes_zero (mode : ExtractKeyMode) (c : DeserializeCursor) (dst : σ) :
    takeBytes mode 0 c dst = .ok (dst,c) := by
  have hnil : c.getBytes 0 = .ok ([],c) := getBytes_of_reads (Reads.refl c)
  simp only [takeBytes, hnil, bind, Except.bind, putBytes_nil, ite_self]
  rfl

/-- Bytes are taken at once or in two steps. -/
private theorem takeBytes_add (mode : ExtractKeyMode) (m n : Nat) (c : DeserializeCursor) (dst : σ) :
    (do let (dst,src) ← takeBytes mode m c dst; takeBytes mode n src dst) = takeBytes mode (m + n) c dst := by
  by_cases hm : c.data.length - c.position < m
  · have hmn : c.data.length - c.position < m + n := by omega
    simp only [takeBytes, getBytes_short hm, getBytes_short hmn, bind, Except.bind]
  · obtain ⟨as,d,hget⟩ := exists_getBytes hm
    obtain ⟨rfl,has⟩ := reads_of_getBytes hget
    by_cases hn : d.data.length - d.position < n
    · have hmn : c.data.length - c.position < as.length + n := by
        rw [has.data_eq, has.position_eq] at hn
        omega
      simp only [takeBytes, hget, getBytes_short hn, getBytes_short hmn, bind, Except.bind, pure, Except.pure]
    · obtain ⟨bs,e,hget'⟩ := exists_getBytes hn
      obtain ⟨rfl,hbs⟩ := reads_of_getBytes hget'
      have hboth := getBytes_of_reads (has.trans hbs)
      rw [List.length_append] at hboth
      simp only [takeBytes, hget, hget', hboth, bind, Except.bind, pure, Except.pure]
      split
      · rw [putBytes_append]
      · rfl

private theorem takeBytes_ok {mode : ExtractKeyMode} {n : Nat} {c d : DeserializeCursor} {dst dst' : σ}
    (h : takeBytes mode n c dst = .ok (dst',d)) :
    d.offset = c.offset + n ∧ (mode ≠ .skip → offset dst' = offset dst + n) := by
  rw [takeBytes] at h
  obtain ⟨⟨bs,e⟩,hget,hput⟩ := Outcome.bind_eq_ok h
  obtain ⟨rfl,hreads⟩ := reads_of_getBytes hget
  cases hput
  refine ⟨hreads.offset_eq,fun hm => ?_⟩
  rw [if_pos hm, offset_putBytes]

/-! ### Aligned at both ends -/

/-- The source and the key stream are at offsets that agree up to an alignment. -/
def Agree (k : Nat) (c : DeserializeCursor) (dst : σ) : Prop := c.offset % 2 ^ k = offset dst % 2 ^ k

omit [LawfulWriteCursor σ] in
private theorem Agree.weaken {k l : Nat} (hkl : k ≤ l) {c : DeserializeCursor} {dst : σ} (h : Agree l c dst) :
    Agree k c dst :=
  Nat.ModEq.of_dvd (Nat.pow_dvd_pow 2 hkl) h

/-- A step that makes the offsets agree up to its own alignment, and that only copies from where
it is aligned at both ends. -/
structure Aligned (mode : ExtractKeyMode) (l n : Nat) (start : Nat → Prop)
    (f : DeserializeCursor → σ → Outcome (σ × DeserializeCursor)) : Prop where
  settles : mode ≠ .skip → ∀ {c d : DeserializeCursor} {dst dst' : σ}, f c dst = .ok (dst',d) →
    ∀ k, k ≤ l ∨ Agree k c dst → Agree k d dst'
  copies : ∀ (c : DeserializeCursor) (dst : σ), start c.offset → (mode ≠ .skip → Agree l c dst) →
    f c dst = takeBytes mode n c dst

namespace Aligned
variable {mode : ExtractKeyMode} {l l' n n' : Nat} {start start' : Nat → Prop}
  {f g : DeserializeCursor → σ → Outcome (σ × DeserializeCursor)}

/-- One step behind the other. -/
theorem seq (hf : Aligned mode l n start f) (hg : Aligned mode l' n' start' g) {start'' : Nat → Prop}
    (hstart : ∀ o, start'' o → start o ∧ start' (o + n)) :
    Aligned mode (max l l') (n + n') start'' fun c dst => do
      let (dst,src) ← f c dst
      g src dst where
  settles hm c d dst dst' h k hk := by
    obtain ⟨⟨dst₁,d₁⟩,hone,h⟩ := Outcome.bind_eq_ok h
    by_cases hkl : k ≤ l'
    · exact hg.settles hm h k (.inl hkl)
    · refine hg.settles hm h k (.inr (hf.settles hm hone k (hk.imp_left fun hmax => ?_)))
      omega
  copies c dst ho hagree := by
    obtain ⟨hfirst,hsecond⟩ := hstart _ ho
    have hone := hf.copies c dst hfirst fun hm => (hagree hm).weaken (Nat.le_max_left _ _)
    rw [← takeBytes_add, hone]
    cases htake : takeBytes mode n c dst with
    | error s => rfl
    | ok p =>
      obtain ⟨dst₁,d₁⟩ := p
      obtain ⟨hsrc,hdst⟩ := takeBytes_ok htake
      refine hg.copies d₁ dst₁ (by rw [hsrc]; exact hsecond) fun hm => ?_
      have hboth := (hagree hm).weaken (Nat.le_max_right l l')
      rw [Agree, hsrc, hdst hm]
      exact Nat.ModEq.add_right n hboth

/-- One step after the other, as often as there are elements. -/
theorem each (hf : Aligned mode l n start f) (count : Nat) :
    Aligned mode (if count = 0 then 0 else l) (count * n) (fun o => ∀ i < count, start (o + i * n))
      (extractkeyEach f count) := by
  induction count with
  | zero =>
    refine ⟨fun _ {c d dst dst'} h k hk => ?_,fun c dst _ _ => ?_⟩
    · cases h
      rcases hk with hk | hk
      · rw [if_pos rfl] at hk
        rw [Nat.le_zero.mp hk, Agree, Nat.pow_zero, Nat.mod_one, Nat.mod_one]
      · exact hk
    · rw [Nat.zero_mul, takeBytes_zero]
      rfl
  | succ count ih =>
    have hlog : max l (if count = 0 then 0 else l) = if count + 1 = 0 then 0 else l := by
      rw [if_neg (Nat.succ_ne_zero count)]
      split
      · exact Nat.max_eq_left (Nat.zero_le l)
      · exact Nat.max_self l
    have hsize : n + count * n = (count + 1) * n := by rw [Nat.succ_mul, Nat.add_comm]
    rw [← hlog, ← hsize]
    refine hf.seq ih fun o ho => ⟨?_,fun i hi => ?_⟩
    · have h0 := ho 0 (Nat.succ_pos count)
      rwa [Nat.zero_mul] at h0
    · have hnext := ho (i + 1) (Nat.succ_lt_succ hi)
      rwa [Nat.succ_mul, Nat.add_comm (i * n), ← Nat.add_assoc] at hnext

end Aligned

section
variable (host : Endian) {lookup : Lookup} {mode : ExtractKeyMode} {t : ValueType}

omit [WriteCursor σ] [LawfulWriteCursor σ] in
private theorem extractkeyAny_taken (hm : mode ≠ .skip) (c : DeserializeCursor) (dst : σ)
    (overload : Outcome (σ × DeserializeCursor)) : extractkeyAny lookup t mode c dst overload = overload := by
  simp only [extractkeyAny, if_neg hm]
  rfl

omit [LawfulWriteCursor σ] in
/-- A member that is skipped where it could be copied is stepped over. -/
private theorem extractkeyAny_skipped (hl : AnswersExactly lookup t) {c : DeserializeCursor}
    (ht : t.trivial c.offset = true) (dst : σ) (overload : Outcome (σ × DeserializeCursor)) :
    extractkeyAny lookup t .skip c dst overload = takeBytes .skip t.size c dst := by
  have hsize := ValueType.sizeofType_of_sized (ValueType.sized_of_trivial ht)
  simp only [extractkeyAny, if_true, hl c.offset, ht, hsize, bind, Except.bind]
  by_cases hshort : c.data.length - c.position < t.size
  · simp only [takeBytes, getBytes_short hshort, DeserializeCursor.advance, dif_pos hshort, bind, Except.bind]
  · obtain ⟨bs,d,hget⟩ := exists_getBytes hshort
    obtain ⟨hlen,hreads⟩ := reads_of_getBytes hget
    have hadvance := advance_of_reads hreads
    rw [hlen] at hadvance
    simp only [takeBytes, hget, hadvance, bind, Except.bind]
    rfl

omit [LawfulWriteCursor σ] in
private theorem aligned_skip (hl : AnswersExactly lookup t) :
    Aligned (σ := σ) .skip t.alignLog t.size (fun off => t.trivial off = true) (extractkey host lookup false false t .skip) where
  settles hm := absurd rfl hm
  copies c dst ht _ := by
    cases t <;> exact extractkeyAny_skipped hl ht dst _

private theorem aligned_primitive (hm : mode ≠ .skip) (w : Width) :
    Aligned (σ := σ) mode w.log w.bytes (fun off => off % w.bytes = 0)
      (extractkeyPrimitive host false false w.bytes mode) where
  settles _ c d dst dst' h k hk := by
    rw [extractkeyPrimitive] at h
    obtain ⟨c',halign,h⟩ := Outcome.bind_eq_ok h
    obtain ⟨⟨bs,d'⟩,hget,h⟩ := Outcome.bind_eq_ok h
    simp only [if_pos hm] at h
    cases h
    obtain ⟨pad,hpad,hreads⟩ := reads_of_align halign
    obtain ⟨hlen,hbytes⟩ := reads_of_getBytes hget
    have hextent := (Extent.align w.log).comp (Extent.add w.bytes)
    rw [Nat.max_eq_left (Nat.zero_le _)] at hextent
    have hsrc : d.offset = alignUp w.bytes c.offset + w.bytes := by
      rw [hbytes.offset_eq, hlen, hreads.offset_eq, hpad]
      rfl
    have hdst : offset (putBytes (align dst w.bytes) bs) = alignUp w.bytes (offset dst) + w.bytes := by
      rw [offset_putBytes, hlen, align_eq, offset_putBytes, List.length_replicate]
      rfl
    show d.offset % 2 ^ k = offset (putBytes (align dst w.bytes) bs) % 2 ^ k
    rw [hsrc, hdst]
    exact hextent.agree hk
  copies c dst hsrc hagree := by
    have hdst : offset dst % w.bytes = 0 := (hagree hm).symm.trans hsrc
    have halign : c.align w.bytes = .ok c := if_pos (.inr hsrc)
    have hput : align dst w.bytes = dst := if_pos (.inr hdst)
    simp only [extractkeyPrimitive, takeBytes, halign, hput, if_pos hm, bind, Except.bind]
    rfl

private theorem extractkeyMany_each (hm : mode ≠ .skip) (hs : t.Sized) (hl : AnswersExactly lookup t)
    {f : DeserializeCursor → σ → Outcome (σ × DeserializeCursor)}
    (hf : Aligned mode t.alignLog t.size (fun off => t.trivial off = true) f) (count : Nat) (c : DeserializeCursor) (dst : σ) :
    extractkeyMany lookup false false f t mode count c dst = extractkeyEach f count c dst := by
  match count with
  | 0 => rfl
  | count + 1 =>
    cases hone : f c dst with
    | error s => simp only [extractkeyMany, extractkeyEach, Nat.succ_ne_zero, if_false, hone, bind, Except.bind]
    | ok p =>
      obtain ⟨dst',d⟩ := p
      simp only [extractkeyEach, hone, bind, Except.bind]
      match count with
      | 0 => simp only [extractkeyMany, hone, bind, Except.bind]; rfl
      | count + 1 =>
        rw [extractkeyMany_several false false mode hs hl hone (Nat.succ_ne_zero count)]
        cases hmany : readerWhole (false || false) d.offset t with
        | false => rfl
        | true =>
          rw [if_pos rfl, (hf.each (count + 1)).copies d dst' (fun i _ => ValueType.trivial_of_trivialMany hmany i)]
          · rfl
          · intro _
            rw [if_neg (Nat.succ_ne_zero count)]
            exact hf.settles hm hone _ (.inl (Nat.le_refl _))

private theorem memberMode_taken (hm : mode ≠ .skip) {isKey : Bool} (hk : isKey = true) :
    memberMode mode isKey = some mode := by
  cases mode with
  | sample => exact if_pos hk
  | key => exact if_pos hk
  | skip => exact absurd rfl hm

mutual
private theorem aligned_taken (hm : mode ≠ .skip) : ∀ t : ValueType, t.WellFormed → t.Everywhere (AnswersExactly lookup) →
    t.keepsAll .key = true → ∀ {off : Nat}, t.trivial off = true →
    Aligned (σ := σ) mode t.alignLog t.size (fun off => t.trivial off = true) (extractkey host lookup false false t mode)
  | .primitive k, _, _, _, _, _ => by
    have hone := aligned_primitive (σ := σ) host hm k.width
    refine ⟨fun hm c d dst dst' h => ?_,fun c dst ht hagree => ?_⟩
    · rw [extractkey, extractkeyAny_taken hm] at h
      exact hone.settles hm h
    · rw [extractkey, extractkeyAny_taken hm]
      exact hone.copies c dst (beq_iff_eq.mp ht) hagree
  | .struct s ms, hw, hl, hk, off, ht => by
    have hall : Aligned (σ := σ) mode ms.alignLog (s - 0) (fun o => ∃ a, o = a + 0 ∧ ms.trivial s a 0 = true)
        (extractkeyMembers host lookup false false (!ms.hasKeys) ms mode) :=
      alignedMembers_taken hm (!ms.hasKeys) ms hw hl.2 hk ht
    refine ⟨fun hm c d dst dst' h => ?_,fun c dst ht hagree => ?_⟩
    · rw [extractkey, extractkeyAny_taken hm] at h
      exact hall.settles hm h
    · rw [extractkey, extractkeyAny_taken hm]
      exact hall.copies c dst ⟨c.offset,rfl,ht⟩ hagree
  | .array t n, hw, hl, hk, off, ht => by
    have hone : Aligned (σ := σ) mode t.alignLog t.size (fun off => t.trivial off = true)
        (extractkey host lookup false false t mode) :=
      aligned_taken hm t hw.2 hl.2 hk (Bool.and_eq_true_iff.mp ht).1
    have heach := hone.each n
    refine ⟨fun hm c d dst dst' h => ?_,fun c dst ht hagree => ?_⟩
    · rw [extractkey, extractkeyAny_taken hm, extractkeyMany_each hm hw.1 hl.2.here hone] at h
      exact heach.settles hm h
    · rw [extractkey, extractkeyAny_taken hm, extractkeyMany_each hm hw.1 hl.2.here hone]
      exact heach.copies c dst (fun i _ => ValueType.trivial_of_trivialMany ht i) hagree

private theorem alignedMembers_taken (hm : mode ≠ .skip) (all : Bool) : ∀ ms : Members, ms.WellFormed →
    ms.Everywhere (AnswersExactly lookup) → ms.keepsAll .key all = true → ∀ {s off pos : Nat},
    ms.trivial s off pos = true →
    Aligned (σ := σ) mode ms.alignLog (s - pos) (fun o => ∃ a, o = a + pos ∧ ms.trivial s a pos = true)
      (extractkeyMembers host lookup false false all ms mode)
  | .nil, _, _, _, s, off, pos, ht => by
    rw [beq_iff_eq.mp ht, Nat.sub_self]
    refine ⟨fun _ c d dst dst' h k hk => ?_,fun c dst _ _ => (takeBytes_zero mode c dst).symm⟩
    cases h
    rcases hk with hk | hk
    · rw [Nat.le_zero.mp hk, Agree, Nat.pow_zero, Nat.mod_one, Nat.mod_one]
    · exact hk
  | .cons memberOffset isKey t ms, hw, hl, hk, s, off, pos, ht => by
    simp only [Members.keepsAll, Bool.and_eq_true] at hk
    have htriv := ht
    simp only [Members.trivial, Bool.and_eq_true, beq_iff_eq] at htriv
    have hmode := memberMode_taken hm (Bool.or_comm all isKey ▸ hk.1.1)
    have hone : Aligned (σ := σ) mode t.alignLog t.size (fun off => t.trivial off = true)
        (extractkey host lookup false false t mode) := aligned_taken hm t hw.1 hl.1 hk.1.2 htriv.1.2
    have hrest : Aligned (σ := σ) mode ms.alignLog (s - (pos + t.size))
        (fun o => ∃ a, o = a + (pos + t.size) ∧ ms.trivial s a (pos + t.size) = true)
        (extractkeyMembers host lookup false false all ms mode) := alignedMembers_taken hm all ms hw.2 hl.2 hk.2 htriv.2
    have hle := Members.le_of_trivial htriv.2
    have hsize : t.size + (s - (pos + t.size)) = s - pos := by omega
    have hstep : extractkeyMembers (σ := σ) host lookup false false all (.cons memberOffset isKey t ms) mode =
        fun c dst => (do
          let (dst,src) ← extractkey host lookup false false t mode c dst
          extractkeyMembers host lookup false false all ms mode src dst) := by
      funext c dst
      simp only [extractkeyMembers, hmode]
    rw [hstep, ← hsize]
    refine hone.seq hrest ?_
    rintro o ⟨a,rfl,ha⟩
    simp only [Members.trivial, Bool.and_eq_true, beq_iff_eq] at ha
    exact ⟨ha.1.2,a,by rw [Nat.add_assoc],ha.2⟩
end

/-- Taken or skipped, an element is copied from where it is aligned, and taking one aligns for the next. -/
private theorem extractkey_aligned (hw : t.WellFormed) (hl : t.Everywhere (AnswersExactly lookup))
    (hk : t.keepsAll .key = true) {off : Nat} (ht : t.trivial off = true) (mode : ExtractKeyMode) :
    Aligned (σ := σ) mode t.alignLog t.size (fun off => t.trivial off = true)
      (extractkey host lookup false false t mode) := by
  by_cases hm : mode = .skip
  · rw [hm]
    exact aligned_skip host hl.here
  · exact aligned_taken host hm t hw hl hk ht

end

end

/-! ### The copy against element by element -/

/-- What the bulk copy of the key elements of a type must do: behind an element, where the lookup
offers it, `extractkey_many` copies, and that adds what the elements add one by one and reads as far. -/
def BulkCopies (host : Endian) (lookup : Lookup) (t : ValueType) : Prop :=
  ∀ {σ : Type} [WriteCursor σ] [LawfulWriteCursor σ] (mode : ExtractKeyMode) {src d : DeserializeCursor} {dst dst' : σ},
    extractkey host lookup false false t mode src dst = .ok (dst',d) →
    lookupManyTriviallySerialized lookup d.offset t = .ok true →
    ∃ size, t.sizeofType = .ok size ∧ ∀ count,
      (count ≠ 0 → extractkeyMany lookup false false (fun src dst => extractkey host lookup false false t mode src dst) t
        mode (count + 1) src dst = takeBytes mode (count * size) d dst') ∧
      takeBytes mode (count * size) d dst' =
        extractkeyEach (fun src dst => extractkey host lookup false false t mode src dst) count d dst'

namespace CDRReader
variable {host : Endian} {root : StructValueType} {variant : SampleOrRequest}

theorem bulkCopies_unannotated (r : CDRReader host root variant) :
    root.toValueType.Everywhere fun t => t.Unannotated → BulkCopies host r.tsc.lookupTriviallySerialized t := by
  have hinside := ValueType.everywhere_inside (t := root.toValueType) root.wellFormed r.answersExactly
  refine hinside.imp ?_
  rintro t ⟨hw,ha⟩ hplain σ _ _ mode src d dst dst' hone hmany
  have htriv := trivialMany_of_lookup ha.here hmany
  have hstart := (Bool.and_eq_true_iff.mp htriv).1
  refine ⟨t.size,ValueType.sizeofType_of_sized (ValueType.sized_of_trivial hstart),fun count => ?_⟩
  have haligned := extractkey_aligned (σ := σ) host hw ha (t.keepsAll_of_unannotated hplain) hstart mode
  refine ⟨fun hcount => ?_,?_⟩
  · rw [extractkeyMany_several false false mode (ValueType.sized_of_trivial hstart) ha.here hone hcount]
    exact if_pos htriv
  symm
  apply (haligned.each count).copies d dst' fun i _ => ValueType.trivial_of_trivialMany htriv i
  intro hm
  have hagree := haligned.settles hm hone t.alignLog (.inl (Nat.le_refl _))
  split
  · exact hagree.weaken (Nat.zero_le _)
  · exact hagree

/-- `uint16 a; uint16 b; uint32 c`. -/
def quad : ValueType :=
  .struct 8 (.cons 0 false (.primitive .uint16) (.cons 2 false (.primitive .uint16) (.cons 4 false (.primitive .uint32) .nil)))

/-- `uint8 flag; quad quads[3]`. -/
def quads : StructValueType where
  sizeofStruct := 28
  members := .cons 0 false (.primitive .uint8) (.cons 4 false (.array quad 3) .nil)
  wellFormed := ⟨True.intro,⟨True.intro,True.intro,True.intro,True.intro,True.intro⟩,True.intro⟩

def quadBytes : List Byte := (List.range 28).map UInt8.ofNat

/-- The first element starts one byte into the source and three bytes into the key. -/
theorem quads_bulk : ∃ (r : CDRReader .little quads .sample) (src d : DeserializeCursor) (dst' : ByteVectorCursor),
    src.offset = 1 ∧ d.offset = 12 ∧
    extractkey .little r.tsc.lookupTriviallySerialized false false quad .key src (ByteVectorCursor.mk 3 []) = .ok (dst',d) ∧
    takeBytes .key (2 * 8) d dst' =
      extractkeyEach (fun src dst => extractkey .little r.tsc.lookupTriviallySerialized false false quad .key src dst) 2 d
        dst' := by
  obtain ⟨c,hc,_⟩ := make_known quads.toValueType
  let r : CDRReader .little quads .sample := ⟨c,hc⟩
  have hfirst : extractkey .little r.tsc.lookupTriviallySerialized false false quad .key
      ⟨quadBytes,0,1,Nat.zero_le _,by decide⟩ (ByteVectorCursor.mk 3 []) =
        .ok (⟨12,[0,2,3,4,5,8,9,10,11]⟩,⟨quadBytes,0,12,Nat.zero_le _,by decide⟩) := rfl
  have hmany : lookupManyTriviallySerialized r.tsc.lookupTriviallySerialized 12 quad = .ok true :=
    lookupMany_exactly (t := quad) True.intro r.answersExactly.2.2.1.2.here 12
  obtain ⟨size,hsize,hcopy⟩ := r.bulkCopies_unannotated.2.2.1.2.here
    ⟨rfl,True.intro,rfl,True.intro,rfl,True.intro,True.intro⟩ .key hfirst hmany
  cases hsize
  exact ⟨r,_,_,_,rfl,rfl,hfirst,(hcopy 2).2⟩

end CDRReader
end RmwCyclonedds
