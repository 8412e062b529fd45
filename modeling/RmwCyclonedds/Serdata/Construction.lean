import RmwCyclonedds.Serdata.SerdataRmw

/-! Constructors of serdata: what they return when something on the way throws. -/
namespace RmwCyclonedds
open Library

namespace SerdataRmw

/-- Bytes as a serdata holds them, with zeros up to a multiple of four. -/
def padded (bytes : List Byte) : List Byte := bytes ++ List.replicate (nPadBytes bytes.length) 0

theorem padded_length (bytes : List Byte) : (padded bytes).length = bytes.length + nPadBytes bytes.length := by
  rw [padded, List.length_append, List.length_replicate]

/-- What `resize` leaves behind. -/
def blank (heap : Heap) (kind : SerdataKind) (n : Nat) (key : List Byte) : SerdataRmw :=
  ⟨kind,(List.range n).map heap.junk ++ List.replicate (nPadBytes n) 0,key⟩

theorem blank_length (heap : Heap) (kind : SerdataKind) (n : Nat) (key : List Byte) :
    (blank heap kind n key).data.length = n + nPadBytes n := by
  simp only [blank, List.length_append, List.length_map, List.length_range, List.length_replicate]

theorem blank_drop (heap : Heap) (kind : SerdataKind) {n k : Nat} (key : List Byte) (h : n ≤ k) :
    (blank heap kind n key).data.drop k = List.replicate (n + nPadBytes n - k) 0 := by
  have hlen : ((List.range n).map heap.junk).length = n := by rw [List.length_map, List.length_range]
  have hsub : n + nPadBytes n - k = nPadBytes n - (k - n) := by omega
  rw [blank, List.drop_append, hlen, List.drop_replicate, List.drop_of_length_le (by omega), List.nil_append, hsub]

theorem resize_eq (heap : Heap) (kind : SerdataKind) (key : List Byte) {n : Nat} (hn : n + nPadBytes n ≤ sizeMax) :
    resize heap ⟨kind,[],key⟩ n =
      if n = 0 ∨ heap.provides (n + nPadBytes n) = true then .ok (blank heap kind n key)
      else .error (.throws .badAlloc) := by
  unfold resize
  by_cases h0 : n = 0
  · rw [if_pos h0, if_pos (.inl h0), h0]
    rfl
  · rw [if_neg h0, if_neg (by omega)]
    by_cases hp : heap.provides (n + nPadBytes n) = true
    · rw [if_pos hp, if_pos (.inr hp)]
      rfl
    · rw [if_neg hp, if_neg (by simp [h0, hp])]

theorem resize_oversize (heap : Heap) (d : SerdataRmw) {n : Nat} (hn : ¬n + nPadBytes n ≤ sizeMax) :
    d.resize heap n = .error .undefined := by
  unfold resize
  split
  · next h0 =>
    rw [h0] at hn
    exact absurd (by decide) hn
  · rw [if_pos (by omega)]

theorem put_of_le {d : SerdataRmw} {position : Nat} {bytes : List Byte}
    (h : position + bytes.length ≤ d.data.length) : d.put position bytes =
      .ok {d with data := d.data.take position ++ (bytes ++ d.data.drop (position + bytes.length))} := if_pos h

end SerdataRmw

/-! ### Reassembly -/

/-- The fragments carry the payload: behind the first `off` bytes, which are already there,
none leaves a gap, and the last bytes come with one of them. -/
def Delivers (payload : List Byte) : Nat → List Fragment → Prop
  | off, [] => off = payload.length
  | off, fragment :: rest =>
    fragment.min ≤ off ∧ fragment.maxp1 ≤ payload.length ∧
      fragment.payload = (payload.drop fragment.min).take (fragment.maxp1 - fragment.min) ∧
      Delivers payload (max off fragment.maxp1) rest

private theorem fragment_bytes {payload : List Byte} {min off maxp1 : Nat} (hmin : min ≤ off) (hoff : off < maxp1) :
    (((payload.drop min).take (maxp1 - min)).drop (off - min)).take (maxp1 - off) =
      (payload.drop off).take (maxp1 - off) := by
  have hsum : min + (off - min) = off := by omega
  have hsub : maxp1 - min - (off - min) = maxp1 - off := by omega
  rw [List.drop_take, List.drop_drop, hsum, hsub, List.take_take, Nat.min_self]

private theorem take_extend {payload data : List Byte} {off next : Nat} (hle : off ≤ next) (hpre : data.take off = payload.take off) :
    data.take off ++ ((payload.drop off).take (next - off) ++ data.drop next) =
      payload.take next ++ data.drop next := by
  have hsum : off + (next - off) = next := by omega
  rw [hpre, ← List.append_assoc, ← List.take_add, hsum]

/-- Whatever the fragments are, the payload is put together. -/
theorem copyFragments_eq {payload : List Byte} : ∀ {chain : List Fragment} {off : Nat} {d : SerdataRmw},
    Delivers payload off chain → payload.length ≤ d.data.length → d.data.take off = payload.take off →
    copyFragments chain off off d = .ok {d with data := payload ++ d.data.drop payload.length}
  | [], off, d, hd, hlen, hpre => by
    have hoff : off = payload.length := hd
    rw [hoff, List.take_length] at hpre
    have hdata : d.data = payload ++ d.data.drop payload.length := by
      conv_lhs => rw [← List.take_append_drop payload.length d.data, hpre]
    rw [copyFragments, ← hdata]
  | fragment :: rest, off, d, hd, hlen, hpre => by
    obtain ⟨hmin,hmax,hbytes,hrest⟩ := hd
    rw [copyFragments]
    by_cases hnew : fragment.maxp1 > off
    · have hsrc : (fragment.payload.drop (off - fragment.min)).length = fragment.maxp1 - off := by
        rw [hbytes, List.length_drop, List.length_take, List.length_drop]
        omega
      have hlt : ¬(off < fragment.min ∨
          (fragment.payload.drop (off - fragment.min)).length < fragment.maxp1 - off) := by omega
      have hseg : (fragment.payload.drop (off - fragment.min)).take (fragment.maxp1 - off) =
          (payload.drop off).take (fragment.maxp1 - off) := by
        rw [hbytes]
        exact fragment_bytes hmin hnew
      have hseglen : ((payload.drop off).take (fragment.maxp1 - off)).length = fragment.maxp1 - off := by
        rw [List.length_take, List.length_drop]
        omega
      have hend : off + (fragment.maxp1 - off) = fragment.maxp1 := by omega
      have hput : d.put off ((payload.drop off).take (fragment.maxp1 - off)) =
          .ok {d with data := payload.take fragment.maxp1 ++ d.data.drop fragment.maxp1} := by
        rw [SerdataRmw.put_of_le (by omega), hseglen, hend, take_extend (by omega) hpre]
      rw [Nat.max_eq_right (Nat.le_of_lt hnew)] at hrest
      have hfirst : (payload.take fragment.maxp1).length = fragment.maxp1 := by
        rw [List.length_take]
        omega
      have hih := copyFragments_eq (d := {d with data := payload.take fragment.maxp1 ++ d.data.drop fragment.maxp1})
        hrest (by simp only [List.length_append, List.length_drop]; omega) (by rw [List.take_left' hfirst])
      have hdrop : (payload.take fragment.maxp1 ++ d.data.drop fragment.maxp1).drop payload.length =
          d.data.drop payload.length := by
        have hsum : fragment.maxp1 + (payload.length - fragment.maxp1) = payload.length := by omega
        rw [List.drop_append, hfirst, List.drop_of_length_le (by omega), List.nil_append, List.drop_drop, hsum]
      simp only [hnew, if_true, hlt, if_false, hseg, hput, bind, Except.bind, hend]
      rw [hih, hdrop]
    · rw [Nat.max_eq_left (by omega)] at hrest
      rw [if_neg hnew]
      exact copyFragments_eq hrest hlen hpre

theorem copyIov_eq : ∀ (iov : List (List Byte)) (cursor : Nat) {d : SerdataRmw},
    cursor + iov.flatten.length ≤ d.data.length → copyIov iov cursor d =
      .ok {d with data := d.data.take cursor ++ (iov.flatten ++ d.data.drop (cursor + iov.flatten.length))}
  | [], cursor, d, _ => by
    simp only [copyIov, List.flatten_nil, List.nil_append, List.length_nil, Nat.add_zero, List.take_append_drop]
  | bytes :: rest, cursor, d, h => by
    rw [List.flatten_cons, List.length_append] at h
    have hfirst : (d.data.take cursor ++ bytes).length = cursor + bytes.length := by
      rw [List.length_append, List.length_take]
      omega
    have hput := SerdataRmw.put_of_le (d := d) (show cursor + bytes.length ≤ d.data.length by omega)
    rw [← List.append_assoc] at hput
    have hrest := copyIov_eq rest (cursor + bytes.length)
      (d := {d with data := d.data.take cursor ++ bytes ++ d.data.drop (cursor + bytes.length)}) (by
        simp only [List.length_append, List.length_take, List.length_drop]
        omega)
    have hdrop : (d.data.take cursor ++ bytes ++ d.data.drop (cursor + bytes.length)).drop
        (cursor + bytes.length + rest.flatten.length) = d.data.drop (cursor + (bytes.length + rest.flatten.length)) := by
      have hsub : cursor + bytes.length + rest.flatten.length - (cursor + bytes.length) = rest.flatten.length := by omega
      rw [List.drop_append, hfirst, List.drop_of_length_le (by omega), List.nil_append, List.drop_drop, hsub,
        Nat.add_assoc]
    simp only [List.take_left' hfirst, hdrop] at hrest
    simp only [copyIov, hput, bind, Except.bind]
    rw [hrest]
    simp only [List.flatten_cons, List.length_append, List.append_assoc]

/-! ### All or nothing -/

/-- The constructor returns; a serdata it returns is complete; where the attempt throws, it returns none. -/
structure AllOrNothing (complete : SerdataRmw → Prop) (attempt : Outcome SerdataRmw)
    (result : Outcome (Option SerdataRmw)) : Prop where
  returns : ∃ o, result = .ok o
  complete : ∀ d, result = .ok (some d) → complete d
  nothing : ∀ e, attempt = .error (.throws e) → result = .ok none

namespace Sertype
open SerdataRmw
variable {host : Endian} {root : StructValueType} {variant : SampleOrRequest} (s : Sertype host root variant)

/-- The data is the payload, and the key is the one extracted from it. -/
def HoldsPayload (payload : List Byte) (d : SerdataRmw) : Prop :=
  d.data = padded payload ∧
    (root.hasKeys = true → s.cdrReader.extractkey d.data d.kind.what = .ok d.key)

/-- A key can be extracted from the payload and stored. -/
def Extractable (heap : Heap) (kind : SerdataKind) (payload : List Byte) : Prop :=
  root.hasKeys = true → ∃ key, s.cdrReader.extractkey (padded payload) kind.what = .ok key ∧
    (key.length = 0 ∨ heap.provides key.length = true)

/-- The key of a payload is extracted and stored, or something throws. -/
theorem extractInto_cases (heap : Heap) (kind : SerdataKind) (payload : List Byte) :
    (∃ key, s.extractInto heap ⟨kind,padded payload,[]⟩ = .ok ⟨kind,padded payload,key⟩ ∧
      (root.hasKeys = true → s.cdrReader.extractkey (padded payload) kind.what = .ok key) ∧
      s.Extractable heap kind payload) ∨
    ((∃ e, s.extractInto heap ⟨kind,padded payload,[]⟩ = .error (.throws e)) ∧ root.hasKeys = true ∧
      ¬s.Extractable heap kind payload) := by
  unfold extractInto Extractable
  cases hk : root.hasKeys with
  | false => exact .inl ⟨[],rfl,fun h => Bool.noConfusion h,fun h => Bool.noConfusion h⟩
  | true =>
    simp only [if_true, forall_const, bind, Except.bind]
    cases hkey : s.cdrReader.extractkey (padded payload) kind.what with
    | error e =>
      obtain ⟨e,rfl⟩ := (s.cdrReader.extractkey_any _ _).1 e hkey
      refine .inr ⟨⟨e,rfl⟩,trivial,?_⟩
      rintro ⟨key,h,-⟩
      cases h
    | ok key =>
      simp only [setKey]
      by_cases h0 : key.length = 0
      · rw [if_pos h0]
        obtain rfl := List.eq_nil_of_length_eq_zero h0
        exact .inl ⟨[],rfl,rfl,[],rfl,.inl rfl⟩
      · rw [if_neg h0]
        by_cases hp : heap.provides key.length = true
        · rw [if_pos hp]
          exact .inl ⟨key,rfl,rfl,key,rfl,.inr hp⟩
        · rw [if_neg hp]
          refine .inr ⟨⟨_,rfl⟩,trivial,?_⟩
          rintro ⟨other,h,hstore⟩
          cases h
          exact hstore.elim h0 hp

/-- When a serdata from the wire is all or nothing. -/
def WireCondition (heap : Heap) (kind : SerdataKind) (payload : List Byte) : Prop :=
  (padded payload).length ≤ sizeMax ∧
    (payload ≠ [] ∧ heap.provides (padded payload).length = false ∨ s.Extractable heap kind payload)

section
variable (heap : Heap) (kind : SerdataKind) {payload : List Byte} {copy : SerdataRmw → Outcome SerdataRmw}

/-- Once there is room for the payload, all depends on the key. -/
theorem wire_eq (hcopy : ∀ d : SerdataRmw, payload.length ≤ d.data.length →
      copy d = .ok {d with data := payload ++ d.data.drop payload.length})
    (hsize : payload.length + nPadBytes payload.length ≤ sizeMax)
    (hroom : payload.length = 0 ∨ heap.provides (payload.length + nPadBytes payload.length) = true) :
    (do
      let d ← (make kind).resize heap payload.length
      let d ← copy d
      let d ← s.setKeyFromSer heap d
      return some d : Outcome (Option SerdataRmw)) =
    (do
      let d ← s.setKeyFromSer heap ⟨kind,padded payload,[]⟩
      return some d) := by
  have hblank : copy (blank heap kind payload.length []) = .ok ⟨kind,padded payload,[]⟩ := by
    rw [hcopy _ (by rw [blank_length]; omega), blank_drop heap kind [] (Nat.le_refl _), padded]
    congr 4
    omega
  rw [make, resize_eq heap kind [] hsize, if_pos hroom]
  simp only [bind, Except.bind, hblank]

private theorem wire_iff (hcopy : ∀ d : SerdataRmw, payload.length ≤ d.data.length →
      copy d = .ok {d with data := payload ++ d.data.drop payload.length}) :
    AllOrNothing (s.HoldsPayload payload) (s.extractInto heap ⟨kind,padded payload,[]⟩)
      (Outcome.caught (do
        let d ← (make kind).resize heap payload.length
        let d ← copy d
        let d ← s.setKeyFromSer heap d
        return some d) none) ↔ s.WireCondition heap kind payload := by
  rw [WireCondition, padded_length]
  by_cases hsize : payload.length + nPadBytes payload.length ≤ sizeMax
  swap
  · rw [resize_oversize heap _ hsize]
    refine ⟨fun h => ?_,fun h => absurd h.1 hsize⟩
    obtain ⟨o,ho⟩ := h.returns
    cases ho
  by_cases hp : payload.length = 0 ∨ heap.provides (payload.length + nPadBytes payload.length) = true
  swap
  · obtain ⟨hne,hno⟩ := not_or.mp hp
    rw [make, resize_eq heap kind [] hsize, if_neg hp]
    refine ⟨fun _ => ⟨hsize,.inl ⟨fun hnil => hne (by rw [hnil]; rfl),by simpa using hno⟩⟩,fun _ => ?_⟩
    refine ⟨⟨none,rfl⟩,?_,fun e _ => rfl⟩
    rintro d ⟨⟩
  rw [s.wire_eq heap kind hcopy hsize hp]
  simp only [bind, Except.bind, setKeyFromSer]
  rcases s.extractInto_cases heap kind payload with ⟨key,hinto,hkey,hext⟩ | ⟨⟨e,hinto⟩,hk,hext⟩
  · refine ⟨fun _ => ⟨hsize,.inr hext⟩,fun _ => ?_⟩
    rw [hinto]
    refine ⟨⟨_,rfl⟩,?_,?_⟩
    · rintro d ⟨⟩
      exact ⟨rfl,hkey⟩
    · rintro e ⟨⟩
  · rw [hinto]
    refine ⟨fun h => ?_,fun h => ?_⟩
    · cases h.nothing e rfl
    · rcases h.2 with ⟨hne,hno⟩ | hyes
      · rcases hp with hzero | hyes
        · exact absurd (List.eq_nil_of_length_eq_zero hzero) hne
        · rw [hno] at hyes
          cases hyes
      · exact absurd hyes hext

private theorem wire_some (hcopy : ∀ d : SerdataRmw, payload.length ≤ d.data.length →
      copy d = .ok {d with data := payload ++ d.data.drop payload.length})
    (hprovides : ∀ n, heap.provides n = true) {d : SerdataRmw}
    (h : Outcome.caught (do
      let d ← (make kind).resize heap payload.length
      let d ← copy d
      let d ← s.setKeyFromSer heap d
      return some d) none = .ok (some d)) :
    s.setKeyFromSer heap ⟨kind,padded payload,[]⟩ = .ok d := by
  by_cases hsize : payload.length + nPadBytes payload.length ≤ sizeMax
  · rw [s.wire_eq heap kind hcopy hsize (.inr (hprovides _))] at h
    cases hset : s.setKeyFromSer heap ⟨kind,padded payload,[]⟩ with
    | error e =>
      simp only [hset, bind, Except.bind] at h
      cases e <;> cases h
    | ok d' =>
      simp only [hset, bind, Except.bind] at h
      cases h
      rfl
  · rw [resize_oversize heap _ hsize] at h
    cases h

/-- A serdata that a constructor returns for a payload has been given its key from it. -/
theorem setKeyFromSer_of_fromSer (hprovides : ∀ n, heap.provides n = true) {chain : List Fragment}
    (hchain : Delivers payload 0 chain) {d : SerdataRmw} (h : s.fromSer heap kind chain payload.length = .ok (some d)) :
    s.setKeyFromSer heap ⟨kind,padded payload,[]⟩ = .ok d :=
  s.wire_some heap kind (fun _ hlen => copyFragments_eq hchain hlen rfl) hprovides h

theorem copyIov_whole (iov : List (List Byte)) (d : SerdataRmw) (hlen : iov.flatten.length ≤ d.data.length) :
    copyIov iov 0 d = .ok {d with data := iov.flatten ++ d.data.drop iov.flatten.length} := by
  have hcopy := copyIov_eq iov 0 (d := d) (by omega)
  rw [Nat.zero_add, List.take_zero, List.nil_append] at hcopy
  exact hcopy

theorem setKeyFromSer_of_fromSerIov (hprovides : ∀ n, heap.provides n = true) (iov : List (List Byte)) {d : SerdataRmw}
    (h : s.fromSerIov heap kind iov iov.flatten.length = .ok (some d)) :
    s.setKeyFromSer heap ⟨kind,padded iov.flatten,[]⟩ = .ok d :=
  s.wire_some heap kind (copyIov_whole iov) hprovides h

/-- With memory for all of it, a payload in one piece or several makes a serdata. -/
theorem exists_fromSerIov (hprovides : ∀ n, heap.provides n = true) (iov : List (List Byte))
    (hsize : (padded iov.flatten).length ≤ sizeMax) :
    ∃ d, s.fromSerIov heap kind iov iov.flatten.length = .ok (some d) ∧ d.kind = kind ∧ d.data = padded iov.flatten := by
  have hwire := s.wire_eq heap kind (copyIov_whole iov) (padded_length iov.flatten ▸ hsize) (.inr (hprovides _))
  rcases s.extractInto_cases heap kind iov.flatten with ⟨key,hinto,_⟩ | ⟨⟨e,hinto⟩,_⟩
  · refine ⟨⟨kind,padded iov.flatten,key⟩,?_,rfl,rfl⟩
    rw [fromSerIov, hwire]
    simp only [setKeyFromSer, hinto, bind, Except.bind]
    rfl
  · refine ⟨⟨kind,padded iov.flatten,[]⟩,?_,rfl,rfl⟩
    rw [fromSerIov, hwire]
    simp only [setKeyFromSer, hinto, bind, Except.bind]
    rfl

end

/-- The data is the encoding of the sample, and the key is that of the sample. -/
def HoldsSample (m : Memory) (sample : Address) (d : SerdataRmw) : Prop :=
  (∃ bytes, s.cdrWriter.serialize m sample d.kind.what = .ok bytes ∧ d.data = padded bytes) ∧
    (root.hasKeys = true → s.cdrWriter.serialize m sample .key = .ok d.key)

private theorem resize_key {heap : Heap} {d d' : SerdataRmw} {n : Nat} (h : d.resize heap n = .ok d') :
    d'.key = d.key := by
  unfold SerdataRmw.resize at h
  split at h
  · cases h
    rfl
  split at h
  · cases h
  split at h
  · cases h
    rfl
  · cases h

private theorem put_key {d d' : SerdataRmw} {position : Nat} {bytes : List Byte} (h : d.put position bytes = .ok d') :
    d'.key = d.key := by
  unfold put at h
  split at h
  · cases h
    rfl
  · cases h

/-- Serializing into a serdata does not touch its key. -/
theorem serializeInto_key {heap : Heap} {d d' : SerdataRmw} {m : Memory} {sample : Address}
    (h : s.serializeInto heap d m sample = .ok d') : d'.key = d.key := by
  obtain ⟨size,hsize⟩ := s.cdrWriter.exists_getSerializedSize m sample d.kind.what
  simp only [serializeInto, resizeFor, hsize, bind, Except.bind] at h
  cases hresize : d.resize heap size with
  | error e =>
    rw [hresize] at h
    cases e <;> cases h
    rfl
  | ok e =>
    simp only [hresize, s.cdrWriter.serialize_eq] at h
    rw [← resize_key hresize]
    cases hput : e.put 0 (rtpsHeader host ++ streamBody host root variant m sample e.kind.what) with
    | error e' =>
      rw [hput] at h
      cases e' <;> cases h
      rfl
    | ok e' =>
      rw [hput] at h
      cases h
      exact put_key hput

/-- All that a sample is put through, with no exception caught on the way. -/
def sampleInto (heap : Heap) (kind : SerdataKind) (m : Memory) (sample : Address) : Outcome SerdataRmw := do
  let d ← s.setKeyFromSample heap (make kind) m sample
  let d ← s.resizeFor heap d m sample
  let bytes ← s.cdrWriter.serialize m sample d.kind.what
  d.put 0 bytes

/-- When a serdata from a sample is all or nothing: there is no room for the key, or there
is room for key and data and their sizes are announced as they are written. -/
def SampleCondition (provides : Nat → Bool) (kind : SerdataKind) (m : Memory) (sample : Address) : Prop :=
  ∃ key bytes keysize size, s.cdrWriter.serialize m sample .key = .ok key ∧
    s.cdrWriter.serialize m sample kind.what = .ok bytes ∧
    s.cdrWriter.getSerializedSize m sample .key = .ok keysize ∧
    s.cdrWriter.getSerializedSize m sample kind.what = .ok size ∧
    (root.hasKeys = true ∧ provides keysize = false ∨
      (root.hasKeys = true → keysize = key.length) ∧
      size ≤ bytes.length ∧ bytes.length ≤ size + nPadBytes size ∧
      size + nPadBytes size ≤ sizeMax ∧ provides (size + nPadBytes size) = true)

section
variable (m : Memory) (sample : Address) {key bytes : List Byte} {keysize size : Nat}

/-- The key of a sample: no room for it, an overrun, or the key with zeros up to its announced size. -/
theorem setKeyFromSample_cases (heap : Heap) (kind : SerdataKind)
    (hkey : s.cdrWriter.serialize m sample .key = .ok key)
    (hsize : s.cdrWriter.getSerializedSize m sample .key = .ok keysize) :
    (root.hasKeys = true ∧ heap.provides keysize = false ∧
      s.setKeyFromSample heap (make kind) m sample = .error (.throws .badAlloc)) ∨
    (root.hasKeys = true ∧ keysize < key.length ∧ heap.provides keysize = true ∧
      s.setKeyFromSample heap (make kind) m sample = .error .undefined) ∨
    ∃ k, s.setKeyFromSample heap (make kind) m sample = .ok ⟨kind,[],k⟩ ∧
      (root.hasKeys = true → heap.provides keysize = true ∧ key.length ≤ keysize ∧
        k = key ++ List.replicate (keysize - key.length) 0) := by
  unfold setKeyFromSample
  cases hk : root.hasKeys with
  | false => exact .inr (.inr ⟨[],rfl,fun h => Bool.noConfusion h⟩)
  | true =>
    simp only [if_true, hkey, hsize, bind, Except.bind]
    cases hp : heap.provides keysize with
    | false => exact .inl ⟨trivial,rfl,rfl⟩
    | true =>
      simp only [Bool.not_true, Bool.false_eq_true, if_false]
      by_cases hover : keysize < key.length
      · rw [if_pos hover]
        exact .inr (.inl ⟨trivial,hover,trivial,rfl⟩)
      · rw [if_neg hover]
        exact .inr (.inr ⟨_,rfl,fun _ => ⟨trivial,by omega,rfl⟩⟩)

/-- Sizes between a size and its padding have the same end. -/
private theorem round_up {n k : Nat} (h : n ≤ k) (h' : k ≤ n + nPadBytes n) (hn : n + nPadBytes n ≤ sizeMax) :
    k + nPadBytes k = n + nPadBytes n := by
  unfold nPadBytes sizeMax at *
  omega

/-- The data of a sample, once the key is there. -/
theorem serializeInto_cases (heap : Heap) (kind : SerdataKind) (k : List Byte)
    (hbytes : s.cdrWriter.serialize m sample kind.what = .ok bytes)
    (hsize : s.cdrWriter.getSerializedSize m sample kind.what = .ok size) (hne : bytes ≠ []) :
    (size + nPadBytes size ≤ sizeMax ∧ size ≠ 0 ∧ heap.provides (size + nPadBytes size) = false ∧
      s.resizeFor heap ⟨kind,[],k⟩ m sample = .error (.throws .badAlloc) ∧
      s.serializeInto heap ⟨kind,[],k⟩ m sample = .ok ⟨kind,[],k⟩) ∨
    (¬(size + nPadBytes size ≤ sizeMax ∧ bytes.length ≤ size + nPadBytes size) ∧
      s.serializeInto heap ⟨kind,[],k⟩ m sample = .error .undefined) ∨
    (size + nPadBytes size ≤ sizeMax ∧ bytes.length ≤ size + nPadBytes size ∧
      heap.provides (size + nPadBytes size) = true ∧
      s.resizeFor heap ⟨kind,[],k⟩ m sample = .ok (blank heap kind size k) ∧
      (blank heap kind size k).put 0 bytes =
        .ok ⟨kind,bytes ++ (blank heap kind size k).data.drop bytes.length,k⟩ ∧
      s.serializeInto heap ⟨kind,[],k⟩ m sample =
        .ok ⟨kind,bytes ++ (blank heap kind size k).data.drop bytes.length,k⟩) := by
  have hpos : 0 < bytes.length := List.length_pos_iff.mpr hne
  have hresize : s.resizeFor heap ⟨kind,[],k⟩ m sample = SerdataRmw.resize heap ⟨kind,[],k⟩ size := by
    simp only [resizeFor, hsize, bind, Except.bind]
  by_cases hmax : size + nPadBytes size ≤ sizeMax
  swap
  · refine .inr (.inl ⟨fun h => hmax h.1,?_⟩)
    simp only [serializeInto, hresize, resize_oversize heap _ hmax, bind, Except.bind]
    rfl
  rw [resize_eq heap kind k hmax] at hresize
  by_cases hroom : size = 0 ∨ heap.provides (size + nPadBytes size) = true
  swap
  · obtain ⟨h0,hno⟩ := not_or.mp hroom
    rw [if_neg hroom] at hresize
    refine .inl ⟨hmax,h0,by simpa using hno,hresize,?_⟩
    simp only [serializeInto, hresize, bind, Except.bind]
    rfl
  rw [if_pos hroom] at hresize
  have hbytes' : s.cdrWriter.serialize m sample (blank heap kind size k).kind.what = .ok bytes := hbytes
  by_cases hfit : bytes.length ≤ size + nPadBytes size
  · have hput : (blank heap kind size k).put 0 bytes =
        .ok ⟨kind,bytes ++ (blank heap kind size k).data.drop bytes.length,k⟩ := by
      rw [put_of_le (by rw [blank_length]; omega), Nat.zero_add]
      rfl
    have hprovides : heap.provides (size + nPadBytes size) = true := by
      rcases hroom with rfl | h
      · exact absurd hfit (by rw [nPadBytes]; omega)
      · exact h
    refine .inr (.inr ⟨hmax,hfit,hprovides,hresize,hput,?_⟩)
    simp only [serializeInto, hresize, hbytes', hput, bind, Except.bind]
    rfl
  · have hput : (blank heap kind size k).put 0 bytes = .error .undefined := by
      rw [put, if_neg (by rw [blank_length]; omega)]
    refine .inr (.inl ⟨fun h => hfit h.2,?_⟩)
    simp only [serializeInto, hresize, hbytes', hput, bind, Except.bind]
    rfl

/-- Bytes that nobody wrote show when they are not zero. -/
private theorem blank_junk (provides : Nat → Bool) (kind : SerdataKind) (k : List Byte) {n count : Nat}
    (h : count < size) :
    (blank ⟨provides,fun _ => 1⟩ kind size k).data.drop count ≠ List.replicate n 0 := by
  intro heq
  have hmap : (List.range size).map (Heap.mk provides fun _ => 1).junk = List.replicate size 1 :=
    (List.map_const' ..).trans (congrArg (fun l => List.replicate l 1) List.length_range)
  have hmem : (1 : Byte) ∈ (blank ⟨provides,fun _ => 1⟩ kind size k).data.drop count := by
    rw [blank, hmap, List.drop_append_of_le_length (by rw [List.length_replicate]; omega), List.drop_replicate]
    apply List.mem_append_left
    exact List.mem_replicate.mpr ⟨by omega,rfl⟩
  rw [heq] at hmem
  exact absurd (List.eq_of_mem_replicate hmem) (by decide)

/-- A serdata from a sample has the key and then the data of the sample. -/
theorem fromSample_ok (heap : Heap) (kind : SerdataKind) {d d' : SerdataRmw}
    (hset : s.setKeyFromSample heap (make kind) m sample = .ok d) (hinto : s.serializeInto heap d m sample = .ok d') :
    s.fromSample heap kind m sample = .ok (some d') := by
  simp only [fromSample, hset, hinto, bind, Except.bind]
  rfl

section
variable (provides : Nat → Bool) (kind : SerdataKind) (hkey : s.cdrWriter.serialize m sample .key = .ok key)
  (hbytes : s.cdrWriter.serialize m sample kind.what = .ok bytes)
  (hkeysize : s.cdrWriter.getSerializedSize m sample .key = .ok keysize)
  (hsize : s.cdrWriter.getSerializedSize m sample kind.what = .ok size) (hne : bytes ≠ [])
include hkey hbytes hkeysize hsize hne

/-- Memory that holds no zeros shows every byte that is not written. -/
private theorem sizes_of_allOrNothing (hall : AllOrNothing (s.HoldsSample m sample)
      (s.sampleInto ⟨provides,fun _ => 1⟩ kind m sample) (s.fromSample ⟨provides,fun _ => 1⟩ kind m sample)) :
    root.hasKeys = true ∧ provides keysize = false ∨
      (root.hasKeys = true → keysize = key.length) ∧
      size ≤ bytes.length ∧ bytes.length ≤ size + nPadBytes size ∧
      size + nPadBytes size ≤ sizeMax ∧ provides (size + nPadBytes size) = true := by
  rcases s.setKeyFromSample_cases m sample ⟨provides,fun _ => 1⟩ kind hkey hkeysize with
    ⟨hk,hno,_⟩ | ⟨_,_,_,hset⟩ | ⟨k,hset,hk⟩
  · exact .inl ⟨hk,hno⟩
  · obtain ⟨o,ho⟩ := hall.returns
    simp only [fromSample, hset, bind, Except.bind] at ho
    cases ho
  rcases s.serializeInto_cases m sample ⟨provides,fun _ => 1⟩ kind k hbytes hsize hne with
    ⟨_,_,_,_,hinto⟩ | ⟨_,hinto⟩ | ⟨hmax,hfit,hprovides,_,_,hinto⟩
  · obtain ⟨⟨other,hother,hdata⟩,_⟩ := hall.complete _ (s.fromSample_ok m sample _ kind hset hinto)
    have hnil := List.eq_nil_of_length_eq_zero (Nat.eq_zero_of_add_eq_zero
      ((padded_length other).symm.trans (congrArg List.length hdata.symm))).1
    rw [hbytes] at hother
    exact absurd ((Except.ok.inj hother).trans hnil) hne
  · obtain ⟨o,ho⟩ := hall.returns
    simp only [fromSample, hset, hinto, bind, Except.bind] at ho
    cases ho
  · obtain ⟨⟨other,hother,hdata⟩,hkeys⟩ := hall.complete _ (s.fromSample_ok m sample _ kind hset hinto)
    rw [hbytes] at hother
    obtain rfl := Except.ok.inj hother
    refine .inr ⟨fun hk' => ?_,?_,hfit,hmax,hprovides⟩
    · obtain ⟨_,hle,rfl⟩ := hk hk'
      have hkeyeq := hkeys hk'
      rw [hkey] at hkeyeq
      have hlen := congrArg List.length (Except.ok.inj hkeyeq)
      rw [List.length_append, List.length_replicate] at hlen
      omega
    · apply Nat.le_of_not_lt
      intro hlt
      exact blank_junk provides kind k hlt (List.append_cancel_left hdata)

private theorem allOrNothing_of_sizes (hcond : root.hasKeys = true ∧ provides keysize = false ∨
      (root.hasKeys = true → keysize = key.length) ∧
      size ≤ bytes.length ∧ bytes.length ≤ size + nPadBytes size ∧
      size + nPadBytes size ≤ sizeMax ∧ provides (size + nPadBytes size) = true) (junk : Nat → Byte) :
    AllOrNothing (s.HoldsSample m sample) (s.sampleInto ⟨provides,junk⟩ kind m sample)
      (s.fromSample ⟨provides,junk⟩ kind m sample) := by
  rcases s.setKeyFromSample_cases m sample ⟨provides,junk⟩ kind hkey hkeysize with
    ⟨hk,hno,hset⟩ | ⟨hk,hover,hroom,_⟩ | ⟨k,hset,hk⟩
  · have hresult : s.fromSample ⟨provides,junk⟩ kind m sample = .ok none := by
      simp only [fromSample, hset, bind, Except.bind]
      rfl
    exact ⟨⟨none,hresult⟩,fun d h => (nomatch hresult.symm.trans h),fun _ _ => hresult⟩
  · rcases hcond with ⟨_,hno⟩ | ⟨hexact,_⟩
    · exact Bool.noConfusion (hroom.symm.trans hno)
    · have := hexact hk
      omega
  rcases hcond with ⟨hk',hno⟩ | ⟨hexact,hle,hfit,hmax,hroom⟩
  · exact Bool.noConfusion ((hk hk').1.symm.trans hno)
  rcases s.serializeInto_cases m sample ⟨provides,junk⟩ kind k hbytes hsize hne with
    ⟨_,_,hno,_,_⟩ | ⟨hno,_⟩ | ⟨_,_,_,hresize,hput,hinto⟩
  · exact Bool.noConfusion (hroom.symm.trans hno)
  · exact absurd ⟨hmax,hfit⟩ hno
  have hdata : bytes ++ (blank ⟨provides,junk⟩ kind size k).data.drop bytes.length = padded bytes := by
    have hround := round_up hle hfit hmax
    have hsub : size + nPadBytes size - bytes.length = nPadBytes bytes.length := by omega
    rw [blank_drop _ _ _ hle, padded, hsub]
  rw [hdata] at hput hinto
  have hresult := s.fromSample_ok m sample _ kind hset hinto
  have hattempt : s.sampleInto ⟨provides,junk⟩ kind m sample = .ok ⟨kind,padded bytes,k⟩ := by
    have hbytes' : s.cdrWriter.serialize m sample (blank ⟨provides,junk⟩ kind size k).kind.what = .ok bytes := hbytes
    simp only [sampleInto, hset, hresize, hbytes', hput, bind, Except.bind]
  refine ⟨⟨_,hresult⟩,fun d h => ?_,fun e h => (nomatch hattempt.symm.trans h)⟩
  rw [hresult] at h
  cases h
  refine ⟨⟨bytes,hbytes,rfl⟩,fun hk' => ?_⟩
  obtain ⟨_,_,rfl⟩ := hk hk'
  rw [hexact hk', Nat.sub_self]
  simpa using hkey

end

end

private theorem sample_iff (provides : Nat → Bool) (kind : SerdataKind) (m : Memory) (sample : Address) :
    (∀ junk, AllOrNothing (s.HoldsSample m sample) (s.sampleInto ⟨provides,junk⟩ kind m sample)
      (s.fromSample ⟨provides,junk⟩ kind m sample)) ↔ s.SampleCondition provides kind m sample := by
  have hserialize : ∀ what, ∃ bytes, s.cdrWriter.serialize m sample what = .ok bytes ∧ bytes ≠ [] :=
    fun what => ⟨_,s.cdrWriter.serialize_eq m sample what,List.cons_ne_nil _ _⟩
  constructor
  · intro h
    obtain ⟨key,hkey,_⟩ := hserialize .key
    obtain ⟨bytes,hbytes,hne⟩ := hserialize kind.what
    obtain ⟨keysize,hkeysize⟩ := s.cdrWriter.exists_getSerializedSize m sample .key
    obtain ⟨size,hsize⟩ := s.cdrWriter.exists_getSerializedSize m sample kind.what
    exact ⟨key,bytes,keysize,size,hkey,hbytes,hkeysize,hsize,
      s.sizes_of_allOrNothing m sample provides kind hkey hbytes hkeysize hsize hne (h fun _ => 1)⟩
  · rintro ⟨key,bytes,keysize,size,hkey,hbytes,hkeysize,hsize,hcond⟩ junk
    obtain ⟨other,hother,hne⟩ := hserialize kind.what
    rw [hbytes] at hother
    cases hother
    exact s.allOrNothing_of_sizes m sample provides kind hkey hbytes hkeysize hsize hne hcond junk

/-- Constructing a serdata is all or nothing exactly where nothing throws that the helpers
catch: from the wire where the key can be extracted, from a sample where sizes are announced
as they are written and there is room. -/
theorem allOrNothing_iff (heap : Heap) (kind : SerdataKind) :
    (∀ (payload : List Byte) (chain : List Fragment), Delivers payload 0 chain →
      (AllOrNothing (s.HoldsPayload payload) (s.extractInto heap ⟨kind,padded payload,[]⟩)
        (s.fromSer heap kind chain payload.length) ↔ s.WireCondition heap kind payload)) ∧
    (∀ iov : List (List Byte),
      AllOrNothing (s.HoldsPayload iov.flatten) (s.extractInto heap ⟨kind,padded iov.flatten,[]⟩)
        (s.fromSerIov heap kind iov iov.flatten.length) ↔ s.WireCondition heap kind iov.flatten) ∧
    (∀ (m : Memory) (sample : Address),
      (∀ junk, AllOrNothing (s.HoldsSample m sample) (s.sampleInto ⟨heap.provides,junk⟩ kind m sample)
        (s.fromSample ⟨heap.provides,junk⟩ kind m sample)) ↔ s.SampleCondition heap.provides kind m sample) := by
  refine ⟨fun payload chain hchain => ?_,fun iov => ?_,fun m sample => s.sample_iff heap.provides kind m sample⟩
  · exact s.wire_iff heap kind fun d hlen => copyFragments_eq hchain hlen rfl
  · exact s.wire_iff heap kind (copyIov_whole iov)

/-- A message with one key member: `@key uint32 id`. -/
def idMessage : StructValueType where
  sizeofStruct := 4
  members := .cons 0 true (.primitive .uint32) .nil
  wellFormed := ⟨True.intro,True.intro⟩

/-- A header without a message: extraction throws, and the serdata is returned without a key. -/
theorem idMessage_without_key : ∃ s : Sertype .little idMessage .sample,
    s.cdrReader.extractkey [0,1,0,0] .sample = .error (.throws DeserializeCursor.truncated) ∧
      s.fromSer ⟨fun _ => true,fun _ => 0⟩ .data [⟨0,4,[0,1,0,0]⟩] 4 = .ok (some ⟨.data,[0,1,0,0],[]⟩) := by
  obtain ⟨s,_⟩ := exists_of_bounds .little idMessage .sample rfl rfl rfl rfl
  exact ⟨s,rfl,rfl⟩

/-- A message that comes in two fragments. -/
theorem idMessage_in_fragments : ∃ s : Sertype .little idMessage .sample,
    AllOrNothing (s.HoldsPayload [0,1,0,0,5,0,0,0])
      (s.extractInto ⟨fun _ => true,fun _ => 0⟩ ⟨.data,padded [0,1,0,0,5,0,0,0],[]⟩)
      (s.fromSer ⟨fun _ => true,fun _ => 0⟩ .data [⟨0,5,[0,1,0,0,5]⟩,⟨5,8,[0,0,0]⟩] 8) := by
  obtain ⟨s,_⟩ := exists_of_bounds .little idMessage .sample rfl rfl rfl rfl
  have hdelivers : Delivers [0,1,0,0,5,0,0,0] 0 [⟨0,5,[0,1,0,0,5]⟩,⟨5,8,[0,0,0]⟩] :=
    ⟨by decide,by decide,rfl,by decide,by decide,rfl,rfl⟩
  refine ⟨s,((s.allOrNothing_iff ⟨fun _ => true,fun _ => 0⟩ .data).1 _ _ hdelivers).mpr ?_⟩
  exact ⟨by decide,.inr fun _ => ⟨[0,1,0,0,5,0,0,0],rfl,.inr rfl⟩⟩

end Sertype
end RmwCyclonedds
