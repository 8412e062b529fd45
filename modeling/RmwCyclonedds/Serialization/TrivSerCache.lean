import RmwCyclonedds.TypeSupport.Memory

/-! The cache that says at which offsets a value type is serialized by a plain copy
of its memory. -/
namespace RmwCyclonedds
open Library

def maxAlign : Nat := 8

abbrev CacheKey := Nat × ValueType

abbrev CacheMap := List (CacheKey × Bool)

def CacheMap.find : CacheMap → CacheKey → Option Bool
  | [], _ => none
  | (key,result) :: rest, k => if key = k then some result else find rest k

def isTriviallySerialized (align : Nat) (k : TypeKind) : Bool :=
  let align := align % maxAlign
  if align % k.cdralignofType ≠ 0 then false else k.sizeofType == k.cdrsizeofType

mutual
def computeTriviallySerialized : ValueType → Nat → Outcome Bool
  | .primitive k, align => return isTriviallySerialized (align % maxAlign) k
  | .struct s ms, align =>
    let align := align % maxAlign
    membersTriviallySerialized align s ms align
  | .array t _, align => do
    let align := align % maxAlign
    if ← computeTriviallySerialized t align then
      computeTriviallySerialized t ((align + (← t.sizeofType)) % maxAlign)
    else return false
  | _, _ => return false

/-- The member loop of `is_trivially_serialized` for structs. -/
def membersTriviallySerialized (align sizeofStruct : Nat) : Members → Nat → Outcome Bool
  | .nil, offset => return offset == align + sizeofStruct
  | .cons memberOffset _ t ms, offset => do
    if memberOffset ≠ offset - align then return false
    if !(← computeTriviallySerialized t (offset % maxAlign)) then return false
    membersTriviallySerialized align sizeofStruct ms (offset + (← t.sizeofType))
end

/-- One pass over the alignments; `step` is the work done for a key that is not yet there. -/
def registerAligns (t : ValueType) (step : Nat → CacheMap → Outcome (CacheMap × Bool))
    (cache : CacheMap) (aligns : List Nat) : Outcome CacheMap :=
  aligns.foldlM (fun cache align => do
    if (cache.find (align,t)).isSome then return cache
    let (cache,result) ← step align (((align,t),false) :: cache)
    return ((align,t),result) :: cache) cache

mutual
def registerSerializableType : ValueType → CacheMap → Outcome CacheMap
  | .primitive k, cache => registerAligns (.primitive k)
    (fun align cache => return (cache,isTriviallySerialized align k)) cache (List.range maxAlign)
  | .array t n, cache => registerAligns (.array t n)
    (fun align cache => do
      let result ← computeTriviallySerialized (.array t n) align
      let cache ← registerSerializableType t cache
      return (cache,result)) cache (List.range maxAlign)
  | .struct s ms, cache => registerAligns (.struct s ms)
    (fun align cache => do
      let cache ← registerMembers ms cache
      let result ← computeTriviallySerialized (.struct s ms) align
      return (cache,result)) cache (List.range maxAlign)
  | .spanSequence k t b, cache => registerAligns (.spanSequence k t b)
    (fun _ cache => do
      let cache ← registerSerializableType t cache
      return (cache,false)) cache (List.range maxAlign)
  | .u8string s b, cache => registerAligns (.u8string s b)
    (fun _ cache => return (cache,false)) cache (List.range maxAlign)
  | .u16string s b, cache => registerAligns (.u16string s b)
    (fun _ cache => return (cache,false)) cache (List.range maxAlign)
  | .boolVector s b, cache => registerAligns (.boolVector s b)
    (fun _ cache => return (cache,false)) cache (List.range maxAlign)

def registerMembers : Members → CacheMap → Outcome CacheMap
  | .nil, cache => return cache
  | .cons _ _ t ms, cache => do
    let cache ← registerSerializableType t cache
    registerMembers ms cache
end

structure TriviallySerializedCache where
  cache : CacheMap

namespace TriviallySerializedCache

def make (t : ValueType) : Outcome TriviallySerializedCache := do
  return ⟨← registerSerializableType t []⟩

/-- `cache_.at` throws when the key is not there. -/
def lookupTriviallySerialized (c : TriviallySerializedCache) (align : Nat) (p : ValueType) : Outcome Bool :=
  match c.cache.find (align % maxAlign,p) with
  | some result => .ok result
  | none => .error (.throws .outOfRange)

end TriviallySerializedCache

/-- What readers and writers ask of a cache. -/
abbrev Lookup := Nat → ValueType → Outcome Bool

/-- A cache that never offers the copy: everything goes member by member, element by element. -/
def noShortcut : Lookup := fun _ _ => .ok false

def lookupManyTriviallySerialized (lookup : Lookup) (align : Nat) (evt : ValueType) : Outcome Bool := do
  let align := align % maxAlign
  if ← lookup align evt then lookup ((align + (← evt.sizeofType)) % maxAlign) evt
  else return false

mutual
/-- The meaning of a positive answer: at the given offset, no primitive needs padding
and the members lie without a gap. -/
def ValueType.trivial : ValueType → Nat → Bool
  | .primitive k, off => off % k.width.bytes == 0
  | .struct s ms, off => ms.trivial s off 0
  | .array t _, off => t.trivial off && t.trivial (off + t.size)
  | _, _ => false

/-- Members from position `pos` of a struct that starts at offset `off`. -/
def Members.trivial (sizeofStruct : Nat) : Members → Nat → Nat → Bool
  | .nil, _, pos => pos == sizeofStruct
  | .cons memberOffset _ t ms, off, pos =>
    memberOffset == pos && t.trivial (off + pos) && ms.trivial sizeofStruct off (pos + t.size)
end

def ValueType.trivialMany (t : ValueType) (off : Nat) : Bool := t.trivial off && t.trivial (off + t.size)

namespace ValueType

theorem sized_of_trivial : ∀ {t : ValueType} {off : Nat}, t.trivial off = true → t.Sized
  | .primitive _, _, _ => True.intro
  | .struct _ _, _, _ => True.intro
  | .array t _, off, h => by
    rw [ValueType.trivial, Bool.and_eq_true] at h
    exact sized_of_trivial (t := t) h.1

end ValueType

private theorem width_dvd_maxAlign (w : Width) : w.bytes ∣ maxAlign := by
  cases w <;> decide

private theorem add_mod_eq {off off' : Nat} (h : off % maxAlign = off' % maxAlign) (n : Nat) :
    (off + n) % maxAlign = (off' + n) % maxAlign := by
  rw [Nat.add_mod, h, ← Nat.add_mod]

mutual
/-- All alignments divide eight. -/
theorem ValueType.trivial_congr : ∀ (t : ValueType) {off off' : Nat}, off % maxAlign = off' % maxAlign →
    t.trivial off = t.trivial off'
  | .primitive k, off, off', h => by
    have hd := width_dvd_maxAlign k.width
    rw [ValueType.trivial, ValueType.trivial, ← Nat.mod_mod_of_dvd off hd, h, Nat.mod_mod_of_dvd off' hd]
  | .struct s ms, _, _, h => Members.trivial_congr ms s 0 h
  | .array t _, _, _, h => by
    rw [ValueType.trivial, ValueType.trivial, ValueType.trivial_congr t h,
      ValueType.trivial_congr t (add_mod_eq h t.size)]
  | .u8string _ _, _, _, _ => rfl
  | .u16string _ _, _, _, _ => rfl
  | .spanSequence _ _ _, _, _, _ => rfl
  | .boolVector _ _, _, _, _ => rfl

theorem Members.trivial_congr : ∀ (ms : Members) (s pos : Nat) {off off' : Nat},
    off % maxAlign = off' % maxAlign → ms.trivial s off pos = ms.trivial s off' pos
  | .nil, _, _, _, _, _ => rfl
  | .cons _ _ t ms, s, pos, off, off', h => by
    rw [Members.trivial, Members.trivial, ValueType.trivial_congr t (add_mod_eq h pos),
      Members.trivial_congr ms s (pos + t.size) h]
end

theorem ValueType.trivial_mod (t : ValueType) (off : Nat) : t.trivial (off % maxAlign) = t.trivial off :=
  t.trivial_congr (Nat.mod_mod _ _)

theorem isTriviallySerialized_eq (k : TypeKind) (align : Nat) :
    isTriviallySerialized align k = (ValueType.primitive k).trivial align := by
  have hd := width_dvd_maxAlign k.width
  simp only [isTriviallySerialized, TypeKind.cdralignofType_eq, TypeKind.sizeofType_eq, TypeKind.cdrsizeofType_eq,
    Nat.mod_mod_of_dvd align hd, ValueType.trivial]
  by_cases h : align % k.width.bytes = 0 <;> simp [h]

mutual
/-- The computation never calls `sizeof_type` on a type that does not implement it. -/
theorem computeTriviallySerialized_eq : ∀ (t : ValueType) (align : Nat),
    computeTriviallySerialized t align = .ok (t.trivial align)
  | .primitive k, align => by
    rw [computeTriviallySerialized, isTriviallySerialized_eq, ValueType.trivial_mod]
    rfl
  | .struct s ms, align => by
    rw [computeTriviallySerialized, ← ValueType.trivial_mod (.struct s ms) align]
    exact membersTriviallySerialized_eq ms s (align % maxAlign) 0
  | .array t n, align => by
    have h1 := computeTriviallySerialized_eq t (align % maxAlign)
    rw [ValueType.trivial_mod] at h1
    simp only [computeTriviallySerialized, h1, ValueType.trivial]
    cases ht : t.trivial align with
    | false => rfl
    | true =>
      have h2 := computeTriviallySerialized_eq t ((align % maxAlign + t.size) % maxAlign)
      have hc : t.trivial ((align % maxAlign + t.size) % maxAlign) = t.trivial (align + t.size) := by
        rw [ValueType.trivial_mod]
        exact t.trivial_congr (add_mod_eq (Nat.mod_mod _ _) _)
      rw [hc] at h2
      simp only [ValueType.sizeofType_of_sized (ValueType.sized_of_trivial ht), bind, Except.bind, if_true, h2,
        Bool.true_and]
  | .u8string _ _, _ => rfl
  | .u16string _ _, _ => rfl
  | .spanSequence _ _ _, _ => rfl
  | .boolVector _ _, _ => rfl

theorem membersTriviallySerialized_eq : ∀ (ms : Members) (s align pos : Nat),
    membersTriviallySerialized align s ms (align + pos) = .ok (ms.trivial s align pos)
  | .nil, s, align, pos => by
    rw [membersTriviallySerialized, Members.trivial]
    simp [pure, Except.pure]
  | .cons memberOffset _ t ms, s, align, pos => by
    have ht := computeTriviallySerialized_eq t ((align + pos) % maxAlign)
    rw [ValueType.trivial_mod] at ht
    simp only [membersTriviallySerialized, Members.trivial, ht, Nat.add_sub_cancel_left]
    by_cases hoff : memberOffset = pos
    · cases htt : t.trivial (align + pos) with
      | false => simp [hoff, bind, Except.bind, pure, Except.pure]
      | true =>
        have hms := membersTriviallySerialized_eq ms s align (pos + t.size)
        rw [← Nat.add_assoc] at hms
        simp [hoff, ValueType.sizeofType_of_sized (ValueType.sized_of_trivial htt), bind, Except.bind, hms]
    · simp [hoff, pure, Except.pure]
end

/-! ### What a positive answer promises -/

private theorem dvd_stride {w a n : Nat} (ha : a % w = 0) (hn : (a + n) % w = 0) (k : Nat) :
    (a + k * n) % w = 0 := by
  have hd : w ∣ n := (Nat.dvd_add_right (Nat.dvd_of_mod_eq_zero ha)).mp (Nat.dvd_of_mod_eq_zero hn)
  exact Nat.mod_eq_zero_of_dvd (Nat.dvd_add (Nat.dvd_of_mod_eq_zero ha) (hd.mul_left k))

mutual
/-- Two places one stride apart speak for all later ones. -/
theorem ValueType.trivial_stride : ∀ (t : ValueType) {off n : Nat}, t.trivial off = true →
    t.trivial (off + n) = true → ∀ k, t.trivial (off + k * n) = true
  | .primitive kind, off, n, h, h', k => by
    rw [ValueType.trivial, beq_iff_eq] at h h' ⊢
    exact dvd_stride h h' k
  | .struct s ms, off, n, h, h', k => Members.trivial_stride ms h h' k
  | .array t _, off, n, h, h', k => by
    rw [ValueType.trivial, Bool.and_eq_true] at h h' ⊢
    refine ⟨ValueType.trivial_stride t h.1 h'.1 k,?_⟩
    have h2 := h'.2
    rw [Nat.add_right_comm] at h2 ⊢
    exact ValueType.trivial_stride t h.2 h2 k

theorem Members.trivial_stride : ∀ (ms : Members) {s off n pos : Nat}, ms.trivial s off pos = true →
    ms.trivial s (off + n) pos = true → ∀ k, ms.trivial s (off + k * n) pos = true
  | .nil, _, _, _, _, h, _, _ => h
  | .cons _ _ t ms, s, off, n, pos, h, h', k => by
    simp only [Members.trivial, Bool.and_eq_true, beq_iff_eq] at h h' ⊢
    have h2 := h'.1.2
    rw [Nat.add_right_comm] at h2
    refine ⟨⟨h.1.1,?_⟩,Members.trivial_stride ms h.2 h'.2 k⟩
    rw [Nat.add_right_comm]
    exact ValueType.trivial_stride t h.1.2 h2 k
end

theorem ValueType.trivial_of_trivialMany {t : ValueType} {off : Nat} (h : t.trivialMany off = true) (k : Nat) :
    t.trivial (off + k * t.size) = true := by
  obtain ⟨h0,h1⟩ := Bool.and_eq_true_iff.mp h
  exact t.trivial_stride h0 h1 k

theorem Members.le_of_trivial : ∀ {ms : Members} {s off pos : Nat}, ms.trivial s off pos = true → pos ≤ s
  | .nil, _, _, _, h => Nat.le_of_eq (beq_iff_eq.mp h)
  | .cons _ _ _ ms, _, _, _, h => by
    have hms := Members.le_of_trivial (Bool.and_eq_true_iff.mp h).2
    omega

namespace Memory
variable (m : Memory) (host : Endian)

/-- Elements that are all plain copies together are the memory they occupy. -/
private theorem encode_strided {t : ValueType}
    (ht : ∀ (a : Address) (off : Nat), t.trivial off = true → (m.value host t a).encode host off = m.read a t.size)
    (n : Nat) (a : Address) {off : Nat} (h : ∀ k < n, t.trivial (off + k * t.size) = true) :
    Value.encodeAll host (strided (m.value host t) a t.size n) off = m.read a (n * t.size) := by
  induction n generalizing a off with
  | zero =>
    rw [Nat.zero_mul]
    rfl
  | succ n ih =>
    have h0 : t.trivial off = true := by simpa using h 0 (Nat.succ_pos n)
    have hfinish : (m.value host t a).finish off = off + t.size := by
      rw [← Value.encode_length host, ht a off h0, read_length]
    have hrest : ∀ k < n, t.trivial (off + t.size + k * t.size) = true := by
      intro k hk
      have hs := h (k + 1) (Nat.succ_lt_succ hk)
      rwa [Nat.succ_mul, Nat.add_comm (k * t.size), ← Nat.add_assoc] at hs
    rw [strided_succ, Value.encodeAll_cons, ht a off h0, hfinish, ih (a + t.size) hrest, ← read_add]
    congr 1
    rw [Nat.succ_mul, Nat.add_comm]

mutual
/-- Where the cache says yes, the encoding of an object is the memory it occupies. -/
theorem encode_of_trivial : ∀ (t : ValueType) (a : Address) (off : Nat), t.trivial off = true →
    (m.value host t a).encode host off = m.read a t.size
  | .primitive k, a, off, h => by
    have hp : padding k.width.bytes off = 0 :=
      padding_of_dvd (Nat.dvd_of_mod_eq_zero (beq_iff_eq.mp h))
    have he := host.encode_decode (m.read a k.width.bytes)
    rw [read_length] at he
    rw [value, Value.encode, hp, TypeKind.sizeofType_eq, he]
    rfl
  | .struct s ms, a, off, h => encodeAll_of_trivial ms a off 0 h
  | .array t n, a, off, h => by
    obtain ⟨h0,h1⟩ := Bool.and_eq_true_iff.mp h
    exact m.encode_strided host (encode_of_trivial t) n a fun k _ => t.trivial_stride h0 h1 k

theorem encodeAll_of_trivial : ∀ (ms : Members) {s : Nat} (a : Address) (off pos : Nat),
    ms.trivial s off pos = true →
    Value.encodeAll host (m.values host ms a) (off + pos) = m.read (a + pos) (s - pos)
  | .nil, s, a, off, pos, h => by
    rw [beq_iff_eq.mp h, Nat.sub_self]
    rfl
  | .cons memberOffset key t ms, s, a, off, pos, h => by
    simp only [Members.trivial, Bool.and_eq_true, beq_iff_eq] at h
    obtain ⟨⟨rfl,ht⟩,hms⟩ := h
    have hle := Members.le_of_trivial hms
    have he := encode_of_trivial t (a + memberOffset) (off + memberOffset) ht
    have hfinish : (m.value host t (a + memberOffset)).finish (off + memberOffset) =
        off + (memberOffset + t.size) := by
      rw [← Value.encode_length host, he, read_length, Nat.add_assoc]
    have hsize : s - memberOffset = t.size + (s - (memberOffset + t.size)) := by omega
    rw [values, Value.encodeAll_cons, he, hfinish, encodeAll_of_trivial ms a off _ hms, hsize, read_add,
      Address.add_add]
end

/-- Every later element of a run of plain copies is its own memory again. -/
theorem encode_of_trivialMany (t : ValueType) (a : Address) {off : Nat} (h : t.trivialMany off = true) (n : Nat) :
    Value.encodeAll host (strided (m.value host t) a t.size n) off = m.read a (n * t.size) :=
  m.encode_strided host (m.encode_of_trivial host t) n a fun k _ => ValueType.trivial_of_trivialMany h k

end Memory
end RmwCyclonedds
