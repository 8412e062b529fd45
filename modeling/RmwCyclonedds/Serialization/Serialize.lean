import RmwCyclonedds.Serialization.Cursor
import RmwCyclonedds.Serialization.Projection
import RmwCyclonedds.Serialization.Registration

/-! The overloads of `CDRWriter::serialize`, and the bytes they add to a stream. -/
namespace RmwCyclonedds
open Library WriteCursor

section
variable {σ : Type} [WriteCursor σ] (host : Endian) (m : Memory) (lookup : Lookup) (what : SampleOrKey)

def serializeU32 (dst : σ) (value : Nat) : σ :=
  putBytes (align dst 4) (host.encode 4 (value % 2 ^ 32))

def serializePrimitive (k : TypeKind) (src : Address) (dst : σ) : σ :=
  let dst := align dst k.cdralignofType
  let nBytes := k.cdrsizeofType
  match k with
  | .float | .double => putBytes dst (m.read src nBytes)
  | _ =>
    if k.sizeofType = nBytes ∨ host = .little then putBytes dst (m.read src nBytes)
    else putBytes dst (m.read (src + (k.sizeofType - nBytes)) nBytes)

def serializeU8String (src : Address) (dst : σ) : σ :=
  let str := m.u8string src
  let dst := serializeU32 host dst (str.length + 1)
  putBytes (putBytes dst str) [0]

def serializeU16String (src : Address) (dst : σ) : σ :=
  let str := m.u16string src
  let dst := serializeU32 host dst (2 * str.length)
  if ignoresData dst then advance dst (2 * str.length) else putBytes dst (Value.encodeUnits host str)

def serializeBoolVector (src : Address) (dst : σ) : σ :=
  let bits := m.bits src
  let dst := serializeU32 host dst bits.length
  if ignoresData dst then advance dst bits.length
  else bits.foldl (fun dst b => putBytes dst [if b then 1 else 0]) dst

/-- The bulk copy looks at the type and the offset, not at what is being written. -/
def serializeMany (serialize : Address → σ → Outcome σ) (vt : ValueType) (src : Address) (count : Nat)
    (dst : σ) : Outcome σ := do
  if count = 0 then return dst
  let dst ← serialize src dst
  let src := src + (← vt.sizeofType)
  let count := count - 1
  if count = 0 then return dst
  if ← lookupManyTriviallySerialized lookup (offset dst) vt then
    return putBytes dst (m.read src (count * (← vt.sizeofType)))
  else
    (List.range count).foldlM (fun dst i => do serialize (src + i * (← vt.sizeofType)) dst) dst

/-- `serialize` for `AnyValueType`: a plain copy of a sample where the cache allows it,
the overload for the type otherwise. -/
def serializeAny (vt : ValueType) (src : Address) (dst : σ) (overload : Outcome σ) : Outcome σ := do
  if what = .sample then
    if ← lookup (offset dst) vt then
      return putBytes dst (m.read src (← vt.sizeofType))
  overload

mutual
def serialize : ValueType → Address → σ → Outcome σ
  | .primitive k, src, dst => serializeAny m lookup what (.primitive k) src dst
      (return serializePrimitive host m k src dst)
  | .u8string s b, src, dst => serializeAny m lookup what (.u8string s b) src dst
      (return serializeU8String host m src dst)
  | .u16string s b, src, dst => serializeAny m lookup what (.u16string s b) src dst
      (return serializeU16String host m src dst)
  | .struct s ms, src, dst => serializeAny m lookup what (.struct s ms) src dst
      (serializeMembers (allFields what ms) ms src dst)
  | .array t n, src, dst => serializeAny m lookup what (.array t n) src dst
      (serializeMany m lookup (fun src dst => serialize t src dst) t src n dst)
  | .spanSequence k t b, src, dst => serializeAny m lookup what (.spanSequence k t b) src dst
      (let count := m.sequenceSize src
       serializeMany m lookup (fun src dst => serialize t src dst) t (m.sequenceContents src) count
        (serializeU32 host dst count))
  | .boolVector s b, src, dst => serializeAny m lookup what (.boolVector s b) src dst
      (return serializeBoolVector host m src dst)

def serializeMembers (all : Bool) : Members → Address → σ → Outcome σ
  | .nil, _, dst => return dst
  | .cons memberOffset isKey t ms, structSrc, dst => do
    let dst ← if all || isKey then serialize t (structSrc + memberOffset) dst else pure dst
    serializeMembers all ms structSrc dst
end

end

/-! ### The bytes written -/

/-- The answers of a lookup, with the copies of whole elements that it leads to. -/
structure Sound (lookup : Lookup) (whole : WholeCopies) (t : ValueType) : Prop where
  answers : Answers lookup t
  many : t.Sized → ∀ off, lookupManyTriviallySerialized lookup off t = .ok (whole off t)
  whole : ∀ off, whole off t = true → t.trivialMany off = true

theorem sound_cached {lookup : Lookup} {t : ValueType} (h : AnswersExactly lookup t) : Sound lookup cachedWhole t :=
  ⟨h.answers,fun hs off => lookupMany_exactly hs h off,fun _ h => h⟩

theorem sound_noShortcut (t : ValueType) : Sound noShortcut neverWhole t :=
  ⟨answers_noShortcut t,fun _ _ => rfl,fun _ h => Bool.noConfusion h⟩

section
variable {σ : Type} [WriteCursor σ] [LawfulWriteCursor σ] (host : Endian) (m : Memory)
open LawfulWriteCursor

theorem serializeU32_eq (dst : σ) (n : Nat) :
    serializeU32 host dst n = putBytes dst (Value.encodeU32 host n (offset dst)) := by
  have hmod : host.encode 4 (n % 2 ^ 32) = host.encode 4 n := host.encode_mod 4 n
  rw [serializeU32, align_eq, putBytes_append, hmod]
  rfl

theorem offset_serializeU32 (dst : σ) (n : Nat) :
    offset (serializeU32 host dst n) = alignUp 4 (offset dst) + 4 := by
  rw [serializeU32_eq, offset_putBytes, Value.encodeU32_length]

theorem serializePrimitive_eq (k : TypeKind) (src : Address) (dst : σ) :
    serializePrimitive host m k src dst =
      putBytes dst ((m.value host (.primitive k) src).encode host (offset dst)) := by
  have he := host.encode_decode (m.read src k.width.bytes)
  rw [Memory.read_length] at he
  have hput : putBytes (align dst k.width.bytes) (m.read src k.width.bytes) =
      putBytes dst ((m.value host (.primitive k) src).encode host (offset dst)) := by
    rw [align_eq, putBytes_append, Memory.value, TypeKind.sizeofType_eq, Value.encode, he]
  rw [← hput]
  cases k <;> rfl

theorem serializeU8String_eq (s b : Nat) (src : Address) (dst : σ) :
    serializeU8String host m src dst =
      putBytes dst ((m.value host (.u8string s b) src).encode host (offset dst)) := by
  simp only [serializeU8String, serializeU32_eq, putBytes_append, Memory.value, Value.encode, List.append_assoc]

theorem serializeU16String_eq (s b : Nat) (src : Address) (dst : σ) :
    serializeU16String host m src dst =
      putBytes dst ((m.value host (.u16string s b) src).encode host (offset dst)) := by
  have hlen : (List.replicate (2 * (m.u16string src).length) (0 : Byte)).length =
      (Value.encodeUnits host (m.u16string src)).length := by
    rw [List.length_replicate, Value.encodeUnits_length]
  simp only [serializeU16String, Memory.value, Value.encode]
  split
  · next hi => rw [advance_eq, putBytes_ignored _ hi hlen, serializeU32_eq, putBytes_append]
  · rw [serializeU32_eq, putBytes_append]

theorem encodeAll_boolValue (bits : List Bool) (off : Nat) :
    Value.encodeAll host (bits.map boolValue) off = bits.map fun b => if b then 1 else 0 := by
  induction bits generalizing off with
  | nil => rfl
  | cons b bits ih =>
    rw [List.map_cons, Value.encodeAll_cons, ih, boolValue, Value.encode, Width.bytes, Width.log, Nat.pow_zero,
      padding_one]
    cases host <;> cases b <;> rfl

private theorem putBits_eq (bits : List Bool) (dst : σ) :
    bits.foldl (fun dst b => putBytes dst [if b then 1 else 0]) dst =
      putBytes dst (bits.map fun b => if b then 1 else 0) := by
  induction bits generalizing dst with
  | nil => exact (putBytes_nil dst).symm
  | cons b bits ih => rw [List.foldl_cons, ih, putBytes_append, List.map_cons, List.singleton_append]

theorem serializeBoolVector_eq (s b : Nat) (src : Address) (dst : σ) :
    serializeBoolVector host m src dst =
      putBytes dst ((m.value host (.boolVector s b) src).encode host (offset dst)) := by
  simp only [serializeBoolVector, Memory.value, Value.encode, encodeAll_boolValue, List.length_map]
  split
  · next hi =>
    have hlen : (List.replicate (m.bits src).length (0 : Byte)).length =
        ((m.bits src).map fun b => if b then (1 : Byte) else 0).length := by
      rw [List.length_replicate, List.length_map]
    rw [advance_eq, putBytes_ignored _ hi hlen, serializeU32_eq, putBytes_append]
  · rw [putBits_eq, serializeU32_eq, putBytes_append]

section
variable {lookup : Lookup} {whole : WholeCopies} {view : Value → Nat → Value} {t : ValueType}
  {ser : Address → σ → Outcome σ}

/-- What one element adds; the rest of the array is assembled from it. -/
private def Writes (host : Endian) (m : Memory) (view : Value → Nat → Value) (t : ValueType)
    (ser : Address → σ → Outcome σ) : Prop :=
  ∀ src dst, ser src dst = .ok (putBytes dst ((view (m.value host t src) (offset dst)).encode host (offset dst)))

private theorem serializeEach_eq (hs : t.Sized) (hser : Writes host m view t ser) (count : Nat) (src : Address)
    (dst : σ) :
    (List.range count).foldlM (fun dst i => do ser (src + i * (← t.sizeofType)) dst) dst =
      .ok (putBytes dst (Value.encodeAll host
        (viewEach view (Memory.strided (m.value host t) src t.size count) (offset dst)) (offset dst))) := by
  simp only [ValueType.sizeofType_of_sized hs, bind, Except.bind]
  induction count generalizing src dst with
  | zero => exact congrArg Except.ok (putBytes_nil dst).symm
  | succ n ih =>
    have hshift : ∀ (dst : σ) (i : Nat), ser (src + (i + 1) * t.size) dst = ser (src + t.size + i * t.size) dst := by
      intro dst i
      rw [Address.add_add, Nat.succ_mul, Nat.add_comm]
    rw [List.range_succ_eq_map, List.foldlM_cons]
    simp only [Nat.zero_mul, Address.add_zero, hser src dst, bind, Except.bind, List.foldlM_map, hshift]
    have hrest := ih (src + t.size)
      (putBytes dst ((view (m.value host t src) (offset dst)).encode host (offset dst)))
    rw [offset_putBytes, Value.encode_length, putBytes_append] at hrest
    rw [hrest, Memory.strided_succ, viewEach, Value.encodeAll_cons]

theorem serializeMany_eq (hs : t.Sized) (hl : Sound lookup whole t) (hser : Writes host m view t ser)
    (src : Address) (count : Nat) (dst : σ) :
    serializeMany m lookup ser t src count dst =
      .ok (putBytes dst (Value.encodeAll host (viewMany view (fun o => whole o t)
        (Memory.strided (m.value host t) src t.size count) (offset dst)) (offset dst))) := by
  match count with
  | 0 => exact congrArg Except.ok (putBytes_nil dst).symm
  | 1 =>
    rw [Memory.strided_succ, viewMany, Value.encodeAll_cons]
    simp [serializeMany, hser src dst, ValueType.sizeofType_of_sized hs, bind, Except.bind, pure, Except.pure,
      Memory.strided, viewEach, Value.encodeAll]
  | n + 2 =>
    have hmany := hl.many hs (offset (putBytes dst ((view (m.value host t src) (offset dst)).encode host (offset dst))))
    have heach := serializeEach_eq host m hs hser (n + 1) (src + t.size)
      (putBytes dst ((view (m.value host t src) (offset dst)).encode host (offset dst)))
    rw [offset_putBytes, Value.encode_length] at hmany heach
    rw [putBytes_append] at heach
    simp only [ValueType.sizeofType_of_sized hs, bind, Except.bind] at heach
    rw [Memory.strided_succ, viewMany, Value.encodeAll_cons]
    have hcount : n + 2 - 1 = n + 1 := rfl
    simp only [serializeMany, hcount, Nat.succ_ne_zero, if_false, hser src dst, ValueType.sizeofType_of_sized hs,
      bind, Except.bind, offset_putBytes, Value.encode_length, hmany]
    cases hw : whole ((view (m.value host t src) (offset dst)).finish (offset dst)) t with
    | true =>
      have hraw := m.encode_of_trivialMany host t (src + t.size) (hl.whole _ hw) (n + 1)
      simp only [if_true, putBytes_append, hraw]
      rfl
    | false =>
      simp only [Bool.false_eq_true, if_false, heach]

end
section
variable {lookup : Lookup} {whole : WholeCopies} (what : SampleOrKey)

omit [LawfulWriteCursor σ] in
private theorem serializeAny_eq {t : ValueType} (hl : Sound lookup whole t) (src : Address) (dst : σ)
    {overload : Outcome σ} (ho : overload = .ok (putBytes dst
      ((t.view whole what (m.value host t src) (offset dst)).encode host (offset dst)))) :
    serializeAny m lookup what t src dst overload =
      .ok (putBytes dst ((t.view whole what (m.value host t src) (offset dst)).encode host (offset dst))) := by
  cases what with
  | key => simpa [serializeAny, pure, Except.pure, bind, Except.bind] using ho
  | sample =>
    obtain ⟨b,hb,ht⟩ := hl.answers (offset dst)
    cases b with
    | false => simpa [serializeAny, hb, bind, Except.bind, pure, Except.pure] using ho
    | true =>
      have htriv := ht rfl
      rw [ValueType.view_sample whole (m.value_has host t src), m.encode_of_trivial host t src _ htriv]
      simp [serializeAny, hb, ValueType.sizeofType_of_sized (ValueType.sized_of_trivial htriv), bind, Except.bind,
        pure, Except.pure]

mutual
/-- Whatever copies are taken, the bytes added are the encoding of the projected value. -/
theorem serialize_eq : ∀ (t : ValueType), t.WellFormed → t.Everywhere (Sound lookup whole) →
    ∀ (src : Address) (dst : σ), serialize host m lookup what t src dst =
      .ok (putBytes dst ((t.view whole what (m.value host t src) (offset dst)).encode host (offset dst)))
  | .primitive k, _, hl, src, dst =>
    serializeAny_eq host m what hl src dst (congrArg Except.ok (serializePrimitive_eq host m k src dst))
  | .u8string s b, _, hl, src, dst =>
    serializeAny_eq host m what hl src dst (congrArg Except.ok (serializeU8String_eq host m s b src dst))
  | .u16string s b, _, hl, src, dst =>
    serializeAny_eq host m what hl src dst (congrArg Except.ok (serializeU16String_eq host m s b src dst))
  | .struct s ms, hw, hl, src, dst =>
    serializeAny_eq host m what hl.1 src dst (serializeMembers_eq ms hw hl.2 (allFields what ms) src dst)
  | .array t n, hw, hl, src, dst =>
    serializeAny_eq host m what hl.1 src dst
      (serializeMany_eq host m hw.1 hl.2.here (fun src dst => serialize_eq t hw.2 hl.2 src dst) src n dst)
  | .spanSequence k t b, hw, hl, src, dst => by
    have helem : Writes host m (fun v o => t.view whole what v o) t
        (fun (src : Address) (dst : σ) => serialize host m lookup what t src dst) :=
      fun src dst => serialize_eq t hw.2.1 hl.2 src dst
    have hmany := serializeMany_eq host m hw.1 hl.2.here helem (m.sequenceContents src) (m.sequenceSize src)
      (serializeU32 host dst (m.sequenceSize src))
    rw [offset_serializeU32, serializeU32_eq, putBytes_append] at hmany
    have hlen : (viewMany (fun v o => t.view whole what v o) (fun o => whole o t)
        (Memory.strided (m.value host t) (m.sequenceContents src) t.size (m.sequenceSize src))
        (alignUp 4 (offset dst) + 4)).length = m.sequenceSize src := by
      rw [viewMany_length, Memory.strided_length]
    refine serializeAny_eq host m what hl.1 src dst ?_
    simp only [Memory.value, ValueType.view, Value.encode, hlen, serializeU32_eq]
    exact hmany
  | .boolVector s b, _, hl, src, dst =>
    serializeAny_eq host m what hl src dst (congrArg Except.ok (serializeBoolVector_eq host m s b src dst))

theorem serializeMembers_eq : ∀ (ms : Members), ms.WellFormed → ms.Everywhere (Sound lookup whole) →
    ∀ (all : Bool) (src : Address) (dst : σ), serializeMembers host m lookup what all ms src dst =
      .ok (putBytes dst (Value.encodeAll host (ms.view whole what all (m.values host ms src) (offset dst))
        (offset dst)))
  | .nil, _, _, _, _, dst => congrArg Except.ok (putBytes_nil dst).symm
  | .cons off isKey t ms, hw, hl, all, src, dst => by
    rw [Memory.values, Members.view, serializeMembers]
    cases hk : all || isKey with
    | false =>
      simp only [Bool.false_eq_true, if_false]
      exact serializeMembers_eq ms hw.2 hl.2 all src dst
    | true =>
      simp only [if_true, serialize_eq t hw.1 hl.1 (src + off) dst, bind, Except.bind]
      rw [serializeMembers_eq ms hw.2 hl.2 all src, offset_putBytes, Value.encode_length, putBytes_append,
        Value.encodeAll_cons]
end

end
end
end RmwCyclonedds
