import RmwCyclonedds.Serialization.KeyReader
import RmwCyclonedds.Serialization.Print

/-! Extraction from a key: it reads what a reader of keys reads, and writes as many bytes as it reads. -/
namespace RmwCyclonedds
open Library DeserializeCursor WriteCursor

private theorem bswapN_length (host : Endian) {n : Nat} (hn : n = 1 ∨ n = 2 ∨ n = 4 ∨ n = 8) {bytes : List Byte}
    (h : bytes.length = n) : (bswapN host n bytes).length = n := by
  rw [bswapN_eq_reverse host hn bytes h, List.length_reverse, h]

private theorem bswapUnits_length (host : Endian) : ∀ bytes : List Byte, (bswapUnits host bytes).length = bytes.length
  | [] => rfl
  | [_] => rfl
  | a :: b :: rest => by
    rw [bswapUnits, List.length_append, bswapN_length host (.inr (.inl rfl)) rfl, bswapUnits_length host rest]
    exact Nat.add_comm 2 rest.length

/-- As much is written as read, at the same offset. -/
structure Abreast (dst : ByteVectorCursor) (c : DeserializeCursor) : Prop where
  offset_eq : dst.pos = c.offset
  length_eq : dst.data.length = c.position

namespace Abreast
variable {dst : ByteVectorCursor} {c d : DeserializeCursor} {bs : List Byte}

theorem put (h : Abreast dst c) (hr : Reads c bs d) {bytes : List Byte} (hlen : bytes.length = bs.length) :
    Abreast (putBytes dst bytes) d := by
  constructor
  · show dst.pos + bytes.length = d.offset
    rw [h.offset_eq, hr.offset_eq, hlen]
  · show (dst.data ++ bytes).length = d.position
    rw [List.length_append, h.length_eq, hr.position_eq, hlen]

theorem align (h : Abreast dst c) {n : Nat} (hd : c.align n = .ok d) : Abreast (WriteCursor.align dst n) d := by
  obtain ⟨pad,hpad,hr⟩ := reads_of_align hd
  rw [align_eq]
  apply h.put hr
  rw [List.length_replicate, hpad]
  exact congrArg (padding n) h.offset_eq

theorem putSize (h : Abreast dst c) {host : Endian} {bswapSrc : Bool} {n : Nat}
    (hd : deserializeU32 host bswapSrc c = .ok (n,d)) (bswapDst : Bool) (size : Nat) :
    Abreast (RmwCyclonedds.putSize host bswapDst size dst) d := by
  obtain ⟨e,he,hd⟩ := Outcome.bind_eq_ok hd
  obtain ⟨⟨bs,e'⟩,hget,hd⟩ := Outcome.bind_eq_ok hd
  cases hd
  obtain ⟨hlen,hr⟩ := reads_of_getBytes hget
  apply (h.align he).put hr
  have hsize := host.encode_length 4 size
  rw [hlen, swapped]
  split
  · exact bswapN_length host (.inr (.inr (.inl rfl))) hsize
  · exact hsize

end Abreast

/-- Extraction and reading keep step. -/
abbrev WalksAlike {α : Type} : Outcome (ByteVectorCursor × DeserializeCursor) → Outcome (α × DeserializeCursor) → Prop :=
  InStep fun p q => Abreast p.1 p.2 ∧ p.2 = q.2

section
variable (host : Endian) (bswapSrc bswapDst : Bool) {c : DeserializeCursor} {dst : ByteVectorCursor}

private theorem walksAlike_map {α β : Type} {x : Outcome (ByteVectorCursor × DeserializeCursor)}
    {y : Outcome (α × DeserializeCursor)} (h : WalksAlike x y) (f : α → β) :
    WalksAlike x (do let (a,c) ← y; return (f a,c)) := by
  cases x with
  | error s =>
    cases y with
    | error s' => exact h
    | ok q => exact h.elim
  | ok p =>
    cases y with
    | error s' => exact h.elim
    | ok q => exact h

private theorem extractkeyPrimitive_walk (w : Width) (h : Abreast dst c) :
    WalksAlike (extractkeyPrimitive host bswapSrc bswapDst w.bytes .key c dst) (deserializePrimitive host bswapSrc w c) := by
  refine InStep.same _ fun d hd => ?_
  refine InStep.same _ fun ⟨bs,e⟩ hget => ⟨?_,rfl⟩
  obtain ⟨hlen,hr⟩ := reads_of_getBytes hget
  apply (h.align hd).put hr
  rw [hlen]
  split
  · exact bswapN_length host (width_cases w) hlen
  · exact hlen

private theorem extractkeyU8String_walk (h : Abreast dst c) :
    WalksAlike (extractkeyU8String host bswapSrc bswapDst .key c dst) (deserializeU8String host bswapSrc c) := by
  refine InStep.same _ fun ⟨size,d⟩ hsize => ?_
  refine InStep.ite (fun _ => InStep.stop _) fun _ => ?_
  refine InStep.same _ fun ⟨srcdata,e⟩ hget => ?_
  obtain ⟨_,hr⟩ := reads_of_getBytes hget
  exact InStep.ite (fun _ => InStep.stop _) fun _ => ⟨(h.putSize hsize bswapDst size).put hr rfl,rfl⟩

private theorem extractkeyU16String_walk (h : Abreast dst c) :
    WalksAlike (extractkeyU16String host bswapSrc bswapDst .key c dst) (deserializeU16String host bswapSrc c) := by
  refine InStep.same _ fun ⟨size,d⟩ hsize => ?_
  refine InStep.ite (fun _ => InStep.stop _) fun _ => ?_
  refine InStep.same _ fun ⟨srcdata,e⟩ hget => ⟨?_,rfl⟩
  obtain ⟨_,hr⟩ := reads_of_getBytes hget
  apply (h.putSize hsize bswapDst size).put hr
  split
  · exact bswapUnits_length host srcdata
  · rfl

private theorem extractkeyBoolVector_walk (h : Abreast dst c) :
    WalksAlike (extractkeyBoolVector host bswapSrc bswapDst .key c dst) (deserializeBoolVector host bswapSrc c) := by
  refine InStep.same _ fun ⟨count,d⟩ hcount => ?_
  refine InStep.same _ fun ⟨srcdata,e⟩ hget => ⟨?_,rfl⟩
  obtain ⟨_,hr⟩ := reads_of_getBytes hget
  exact (h.putSize hcount bswapDst count).put hr rfl

section
variable {f : DeserializeCursor → ByteVectorCursor → Outcome (ByteVectorCursor × DeserializeCursor)}
  {g : DeserializeCursor → Outcome (Value × DeserializeCursor)}
  (hfg : ∀ {c : DeserializeCursor} {dst : ByteVectorCursor}, Abreast dst c → WalksAlike (f c dst) (g c))
include hfg

private theorem extractkeyEach_walk (count : Nat) (h : Abreast dst c) :
    WalksAlike (extractkeyEach f count c dst) (deserializeEach g count c) := by
  induction count generalizing c dst with
  | zero => exact ⟨h,rfl⟩
  | succ count ih =>
    refine InStep.bind (hfg h) fun ⟨dst',d⟩ ⟨v,d'⟩ _ ⟨hnext,hd⟩ => ?_
    cases hd
    exact walksAlike_map (ih hnext) _

/-- Elements are copied in bulk by neither, or by both. -/
private theorem extractkeyMany_walk (lookup : Lookup) (t : ValueType) (count : Nat) (h : Abreast dst c) :
    WalksAlike (extractkeyMany lookup bswapSrc bswapDst f t .key count c dst)
      (deserializeMany host (if bswapDst then noShortcut else lookup) bswapSrc g t count c) := by
  refine InStep.ite (fun _ => ⟨h,rfl⟩) fun _ => ?_
  refine InStep.bind (hfg h) fun ⟨dst',d⟩ ⟨v,d'⟩ _ ⟨hnext,hd⟩ => ?_
  cases hd
  refine InStep.ite (fun _ => ⟨hnext,rfl⟩) fun _ => ?_
  have hbulk : (if bswapSrc then pure false else
      lookupManyTriviallySerialized (if bswapDst then noShortcut else lookup) d.offset t) =
      (if bswapSrc || bswapDst then pure false else lookupManyTriviallySerialized lookup d.offset t : Outcome Bool) := by
    cases bswapSrc <;> cases bswapDst <;> rfl
  simp only [hbulk]
  refine InStep.same _ fun size _ => ?_
  refine InStep.same _ fun bulk _ => ?_
  refine InStep.ite (fun _ => ?_) fun _ => walksAlike_map (extractkeyEach_walk hfg _ hnext) _
  refine InStep.same _ fun ⟨srcdata,e⟩ hget => ⟨?_,rfl⟩
  obtain ⟨_,hr⟩ := reads_of_getBytes hget
  exact hnext.put hr rfl

end

variable (lookup : Lookup)

theorem deserializeAny_key (lookup : Lookup) (t : ValueType) (c : DeserializeCursor)
    (overload : Outcome (Value × DeserializeCursor)) : deserializeAny host lookup bswapSrc .key t c overload = overload := by
  cases bswapSrc <;> rfl

private theorem extractkeyAny_key (lookup : Lookup) (t : ValueType) (c : DeserializeCursor) (dst : ByteVectorCursor)
    (overload : Outcome (ByteVectorCursor × DeserializeCursor)) : extractkeyAny lookup t .key c dst overload = overload := rfl

mutual
/-- A key is extracted from a key as far as a reader of keys gets through it. -/
theorem extractkey_walk : ∀ {t : ValueType}, t.WellFormed → ∀ {c : DeserializeCursor} {dst : ByteVectorCursor},
    Abreast dst c → WalksAlike (extractkey host lookup bswapSrc bswapDst t .key c dst)
      (deserialize host (if bswapDst then noShortcut else lookup) plentiful bswapSrc .key t c)
  | .primitive k, _, c, dst, h => by
    rw [deserialize, deserializeAny_key]
    exact extractkeyPrimitive_walk host bswapSrc bswapDst k.width h
  | .u8string _ _, _, c, dst, h => by
    rw [deserialize, deserializeAny_key]
    exact extractkeyU8String_walk host bswapSrc bswapDst h
  | .u16string _ _, _, c, dst, h => by
    rw [deserialize, deserializeAny_key]
    exact extractkeyU16String_walk host bswapSrc bswapDst h
  | .struct _ ms, hw, c, dst, h => by
    rw [deserialize, deserializeAny_key]
    exact walksAlike_map (extractkeyMembers_walk (!ms.hasKeys) hw h) _
  | .array t n, hw, c, dst, h => by
    rw [deserialize, deserializeAny_key]
    exact walksAlike_map (extractkeyMany_walk host bswapSrc bswapDst (extractkey_walk hw.2) lookup t n h) _
  | .spanSequence k t _, hw, c, dst, h => by
    rw [extractkey, extractkeyAny_key, deserialize, deserializeAny_key]
    refine InStep.same _ fun ⟨count,d⟩ hcount => ?_
    have hresize : resize plentiful k d.position count = .ok () := by cases k <;> rfl
    simp only [hresize]
    exact walksAlike_map (extractkeyMany_walk host bswapSrc bswapDst (extractkey_walk hw.2.1) lookup t count
      (h.putSize hcount bswapDst count)) _
  | .boolVector _ _, _, c, dst, h => by
    rw [deserialize, deserializeAny_key]
    exact extractkeyBoolVector_walk host bswapSrc bswapDst h

theorem extractkeyMembers_walk (all : Bool) : ∀ {ms : Members}, ms.WellFormed → ∀ {c : DeserializeCursor}
    {dst : ByteVectorCursor}, Abreast dst c → WalksAlike (extractkeyMembers host lookup bswapSrc bswapDst all ms .key c dst)
      (deserializeMembers host (if bswapDst then noShortcut else lookup) plentiful bswapSrc .key all ms c)
  | .nil, _, c, dst, h => ⟨h,rfl⟩
  | .cons _ isKey t ms, hw, c, dst, h => by
    rw [extractkeyMembers, deserializeMembers, memberMode, Bool.or_comm all]
    cases isKey || all with
    | false => exact extractkeyMembers_walk all hw.2 h
    | true =>
      refine InStep.bind (extractkey_walk hw.1 h) fun ⟨dst',d⟩ ⟨v,d'⟩ _ ⟨hnext,hd⟩ => ?_
      cases hd
      exact walksAlike_map (extractkeyMembers_walk all hw.2 hnext) _
end

end

namespace CDRReader
variable {host : Endian} {root : StructValueType} {variant : SampleOrRequest} (r : CDRReader host root variant)

/-- The copies a reader of keys may take so as to read what extraction reads for the given byte order. -/
def keyLookup (bswapDst : Bool) : Lookup := if bswapDst then noShortcut else r.tsc.lookupTriviallySerialized

private theorem extractkeyBehindHeader_walk (hk : root.hasKeys = true) (bswapDst : Bool) (header : List Byte)
    {c : DeserializeCursor} (h0 : c.offset = 0) (h4 : c.position = 4) :
    InStep (fun p q => p.1.data.length = q.2.position)
      (r.extractkeyBehindHeader .key bswapDst header c (ByteVectorCursor.mk 0 []))
      (readBehindHeader host root variant (r.keyLookup bswapDst) .key header c) := by
  have hstart : Abreast (rebase (putBytes (ByteVectorCursor.mk 0 [])
      [0,if host = (if bswapDst then .big else .little) then 1 else 0,0,0]) 4) c := ⟨h0.symm,h4.symm⟩
  have hwalk := extractkey_walk host ((header.getD 1 0 == 0) == (host == .little)) bswapDst r.tsc.lookupTriviallySerialized
    (t := root.toValueType) root.wellFormed hstart
  refine InStep.ite (fun _ => InStep.stop _) fun _ => ?_
  simp only [reduceCtorEq, false_and, if_false, false_or, if_pos hk]
  have hends : ∀ (p : ByteVectorCursor × DeserializeCursor) (q : Option Value × DeserializeCursor), Abreast p.1 p.2 ∧ p.2 = q.2 →
      InStep (fun p q => p.1.data.length = q.2.position) (.ok (WriteCursor.rebase p.1 (-4),p.2.rebase (-4)) : Outcome _)
        (.ok (q.1,q.2.rebase (-4))) := by
    rintro ⟨dst,d⟩ ⟨v,d'⟩ ⟨h,hd⟩
    cases hd
    exact h.length_eq
  have hbody := InStep.bind (walksAlike_map hwalk some) fun p q _ h => hends p q h
  exact hbody

/-- From a key that a reader gets through, a key of the same length is made; from others none. -/
theorem extractkeyBe_walk (hk : root.hasKeys = true) (cdr : List Byte) :
    InStep (fun key p => key.length = p.2.position) (r.extractkeyBe cdr .key)
      (readThrough host root variant (r.keyLookup (host != .big)) .key cdr) := by
  have hbehind : ∀ header c, (DeserializeCursor.start cdr).getBytes 4 = .ok (header,c) →
      InStep (fun p q => p.1.data.length = q.2.position) (r.extractkeyBehindHeader .key (host != .big) header (c.rebase 4)
        (ByteVectorCursor.mk 0 [])) (readBehindHeader host root variant (r.keyLookup (host != .big)) .key header (c.rebase 4)) := by
    intro header c hget
    obtain ⟨h0,h4⟩ := start_rebase hget
    exact r.extractkeyBehindHeader_walk hk (host != .big) header h0 h4
  simp only [extractkeyBe, extractkeyTopLevel, hk, Bool.not_true, Bool.false_eq_true, if_false]
  cases hget : (DeserializeCursor.start cdr).getBytes 4 with
  | error s =>
    simp only [readThrough, hget]
    exact InStep.stop s
  | ok p =>
    simp only [readThrough, hget]
    exact InStep.map (hbehind p.1 p.2 hget) fun _ _ h => h

end CDRReader
end RmwCyclonedds
