import RmwCyclonedds.Bytewise
import RmwCyclonedds.Library.Extent

/-! The cursor that readers move over a received buffer. -/
namespace RmwCyclonedds
open Library

/-- A position in a buffer; offsets count from the origin, which is never ahead of it. -/
structure DeserializeCursor where
  data : List Byte
  origin : Nat
  position : Nat
  origin_le : origin ≤ position
  position_le : position ≤ data.length

namespace DeserializeCursor

def start (data : List Byte) : DeserializeCursor := ⟨data,0,0,Nat.le_refl _,Nat.zero_le _⟩

def offset (c : DeserializeCursor) : Nat := c.position - c.origin

def truncated : Exception := .runtimeError "CDR deserialization: truncated input"

/-- Step over the bytes and return where they start. -/
def advance (c : DeserializeCursor) (nBytes : Nat) : Outcome (Nat × DeserializeCursor) :=
  if h : c.data.length - c.position < nBytes then .error (.throws truncated)
  else .ok (c.position,⟨c.data,c.origin,c.position + nBytes,Nat.le_add_right_of_le c.origin_le,by
    have := c.position_le
    omega⟩)

/-- Read through a pointer; outside of the buffer this is undefined. -/
def readAt (c : DeserializeCursor) (p nBytes : Nat) : Outcome (List Byte) :=
  if p + nBytes ≤ c.data.length then .ok ((c.data.drop p).take nBytes) else .error .undefined

def getBytes (c : DeserializeCursor) (nBytes : Nat) : Outcome (List Byte × DeserializeCursor) := do
  let (p,c) ← c.advance nBytes
  return (← c.readAt p nBytes,c)

/-- `CursorBase::align`. -/
def align (c : DeserializeCursor) (nBytes : Nat) : Outcome DeserializeCursor :=
  if nBytes = 1 ∨ c.offset % nBytes = 0 then .ok c
  else do
    let (_,c) ← c.advance (nBytes - c.offset % nBytes)
    return c

def rebase (c : DeserializeCursor) (relativeOrigin : Int) : DeserializeCursor :=
  ⟨c.data,min (c.origin + relativeOrigin).toNat c.position,c.position,Nat.min_le_right _ _,c.position_le⟩

/-! ### Reading as a relation -/

/-- From one position to a later one lie exactly the given bytes. -/
structure Reads (c : DeserializeCursor) (bs : List Byte) (c' : DeserializeCursor) : Prop where
  data_eq : c'.data = c.data
  origin_eq : c'.origin = c.origin
  position_eq : c'.position = c.position + bs.length
  bytes_eq : (c.data.drop c.position).take bs.length = bs

variable {c c' c'' : DeserializeCursor} {as bs : List Byte}

theorem ext_of {c d : DeserializeCursor} (hdata : c.data = d.data) (horigin : c.origin = d.origin)
    (hposition : c.position = d.position) : c = d := by
  cases c
  cases d
  cases hdata
  cases horigin
  cases hposition
  rfl

theorem Reads.refl (c : DeserializeCursor) : Reads c [] c := ⟨rfl,rfl,rfl,rfl⟩

theorem Reads.offset_eq (h : Reads c bs c') : c'.offset = c.offset + bs.length := by
  have := c.origin_le
  rw [offset, offset, h.origin_eq, h.position_eq]
  omega

theorem Reads.length_le (h : Reads c bs c') : c.position + bs.length ≤ c.data.length := by
  rw [← h.position_eq, ← h.data_eq]
  exact c'.position_le

theorem Reads.trans (h : Reads c as c') (h' : Reads c' bs c'') : Reads c (as ++ bs) c'' := by
  refine ⟨h'.data_eq.trans h.data_eq,h'.origin_eq.trans h.origin_eq,?_,?_⟩
  · rw [h'.position_eq, h.position_eq, List.length_append, Nat.add_assoc]
  · have hb := h'.bytes_eq
    rw [h.data_eq, h.position_eq, ← List.drop_drop] at hb
    rw [List.length_append, List.take_add, h.bytes_eq, hb]

/-- A passage can be walked in two steps. -/
theorem Reads.split (h : Reads c (as ++ bs) c') : ∃ d, Reads c as d ∧ Reads d bs c' := by
  have hlen := h.length_le
  have hbytes := h.bytes_eq
  rw [List.length_append] at hlen hbytes
  rw [List.take_add] at hbytes
  have hfirst : ((c.data.drop c.position).take as.length).length = as.length := by
    rw [List.length_take, List.length_drop]
    omega
  obtain ⟨ha,hb⟩ := List.append_inj hbytes hfirst
  rw [List.drop_drop] at hb
  refine ⟨⟨c.data,c.origin,c.position + as.length,Nat.le_add_right_of_le c.origin_le,by omega⟩,
    ⟨rfl,rfl,rfl,ha⟩,h.data_eq,h.origin_eq,?_,hb⟩
  rw [h.position_eq, List.length_append, Nat.add_assoc]

theorem exists_reads {bs rest : List Byte} (h : c.data.drop c.position = bs ++ rest) : ∃ c', Reads c bs c' := by
  have hlen := congrArg List.length h
  have hle := c.position_le
  rw [List.length_drop, List.length_append] at hlen
  refine ⟨⟨c.data,c.origin,c.position + bs.length,Nat.le_add_right_of_le c.origin_le,by omega⟩,rfl,rfl,rfl,?_⟩
  rw [h, List.take_left]

/-- Behind what was passed comes what followed it. -/
theorem Reads.drop_eq (h : Reads c bs c') {rest : List Byte} (hc : c.data.drop c.position = bs ++ rest) :
    c'.data.drop c'.position = rest := by
  rw [h.data_eq, h.position_eq, ← List.drop_drop, hc]
  exact List.drop_left

/-- What lies between two positions is determined by how far they are apart. -/
theorem Reads.bytes_unique {d d' : DeserializeCursor} (h : Reads c as d) (h' : Reads c bs d')
    (hlen : as.length = bs.length) : as = bs ∧ d = d' := by
  have ha := h.bytes_eq
  rw [hlen, h'.bytes_eq] at ha
  refine ⟨ha.symm,ext_of ?_ ?_ ?_⟩
  · rw [h.data_eq, h'.data_eq]
  · rw [h.origin_eq, h'.origin_eq]
  · rw [h.position_eq, h'.position_eq, hlen]

theorem advance_of_reads (h : Reads c bs c') : c.advance bs.length = .ok (c.position,c') := by
  have hlen := h.length_le
  rw [advance, dif_neg (by omega)]
  refine congrArg Except.ok (Prod.ext rfl ?_)
  exact ext_of h.data_eq.symm h.origin_eq.symm h.position_eq.symm

theorem reads_of_advance {n p : Nat} (h : c.advance n = .ok (p,c')) :
    p = c.position ∧ ∃ bs, bs.length = n ∧ Reads c bs c' := by
  unfold advance at h
  split at h
  · cases h
  · next hn =>
    cases h
    have hlen : ((c.data.drop c.position).take n).length = n := by
      rw [List.length_take, List.length_drop]
      omega
    refine ⟨rfl,(c.data.drop c.position).take n,hlen,rfl,rfl,?_,?_⟩
    · rw [hlen]
    · rw [hlen]

theorem getBytes_of_reads (h : Reads c bs c') : c.getBytes bs.length = .ok (bs,c') := by
  have hread : c'.readAt c.position bs.length = .ok bs := by
    rw [readAt, h.data_eq, if_pos h.length_le, h.bytes_eq]
  simp only [getBytes, advance_of_reads h, bind, Except.bind, hread]
  rfl

theorem reads_of_getBytes {n : Nat} (h : c.getBytes n = .ok (bs,c')) : bs.length = n ∧ Reads c bs c' := by
  obtain ⟨⟨p,d⟩,hd,h⟩ := Outcome.bind_eq_ok h
  obtain ⟨rfl,as,hlen,hr⟩ := reads_of_advance hd
  have hread : d.readAt c.position n = .ok as := by
    rw [readAt, hr.data_eq, ← hlen, if_pos hr.length_le, hr.bytes_eq]
  simp only [hread, bind, Except.bind] at h
  cases h
  exact ⟨hlen,hr⟩

theorem getBytes_short {n : Nat} {c : DeserializeCursor} (h : c.data.length - c.position < n) :
    c.getBytes n = .error (.throws truncated) := by
  simp only [getBytes, advance, dif_pos h]
  rfl

theorem exists_getBytes {n : Nat} {c : DeserializeCursor} (h : ¬c.data.length - c.position < n) :
    ∃ bs c', c.getBytes n = .ok (bs,c') := by
  obtain ⟨c',hc'⟩ := exists_reads (List.take_append_drop n (c.data.drop c.position)).symm
  have hlen : ((c.data.drop c.position).take n).length = n := by
    rw [List.length_take, List.length_drop]
    omega
  have hget := getBytes_of_reads hc'
  rw [hlen] at hget
  exact ⟨_,c',hget⟩

/-- Alignment skips the padding, whatever its bytes are. -/
theorem align_of_reads {n : Nat} (hlen : bs.length = padding n c.offset) (h : Reads c bs c') :
    c.align n = .ok c' := by
  unfold align
  split
  · next hn =>
    have hzero : bs.length = 0 := by
      rw [hlen]
      rcases hn with rfl | hn
      · exact padding_one _
      · rw [padding, if_pos hn]
    have hnil : bs = [] := List.eq_nil_of_length_eq_zero hzero
    rw [hnil] at h
    exact congrArg Except.ok ((Reads.refl c).bytes_unique h rfl).2
  · next hn =>
    have hpad : padding n c.offset = n - c.offset % n := by
      rw [padding, if_neg fun h => hn (.inr h)]
    rw [← hpad, ← hlen, advance_of_reads h]
    rfl

theorem reads_of_align {n : Nat} (h : c.align n = .ok c') : ∃ bs, bs.length = padding n c.offset ∧ Reads c bs c' := by
  unfold align at h
  split at h
  · next hn =>
    cases h
    refine ⟨[],?_,Reads.refl c⟩
    rcases hn with rfl | hn
    · exact (padding_one _).symm
    · rw [padding, if_pos hn]
      rfl
  · next hn =>
    obtain ⟨⟨p,d⟩,hd,h⟩ := Outcome.bind_eq_ok h
    cases h
    obtain ⟨_,bs,hlen,hr⟩ := reads_of_advance hd
    exact ⟨bs,by rw [hlen, padding, if_neg fun h => hn (.inr h)],hr⟩

/-! ### Readers that cannot go wrong -/

/-- More bytes behind the buffer. -/
def extend (c : DeserializeCursor) (bs : List Byte) : DeserializeCursor :=
  ⟨c.data ++ bs,c.origin,c.position,c.origin_le,by
    rw [List.length_append]
    exact Nat.le_add_right_of_le c.position_le⟩

end DeserializeCursor

/-- A reader that fails only by throwing and does not look behind what it reads. -/
structure Robust {α : Type} (f : DeserializeCursor → Outcome (α × DeserializeCursor)) : Prop where
  throws : ∀ c s, f c = .error s → ∃ e, s = .throws e
  extend : ∀ c r c' bs, f c = .ok (r,c') → f (c.extend bs) = .ok (r,c'.extend bs)

namespace Robust
variable {α β : Type}

theorem ret (a : α) : Robust fun c => .ok (a,c) := by
  refine ⟨fun c s h => ?_,fun c r c' bs h => ?_⟩
  · cases h
  · cases h
    rfl

theorem fail (e : Exception) : Robust fun _ => (.error (.throws e) : Outcome (α × DeserializeCursor)) := by
  refine ⟨fun c s h => ?_,fun c r c' bs h => ?_⟩
  · cases h
    exact ⟨e,rfl⟩
  · cases h

theorem bind {f : DeserializeCursor → Outcome (α × DeserializeCursor)}
    {g : α × DeserializeCursor → Outcome (β × DeserializeCursor)} (hf : Robust f)
    (hg : ∀ a, Robust fun c => g (a,c)) : Robust fun c => f c >>= g := by
  refine ⟨fun c s h => ?_,fun c r c' bs h => ?_⟩
  · cases hfc : f c with
    | error e =>
      simp only [hfc, Bind.bind, Except.bind] at h
      cases h
      exact hf.throws c s hfc
    | ok p =>
      simp only [hfc, Bind.bind, Except.bind] at h
      exact (hg p.1).throws p.2 s h
  · obtain ⟨⟨a,d⟩,hd,h⟩ := Outcome.bind_eq_ok h
    simp only [hf.extend c a d bs hd, Bind.bind, Except.bind]
    exact (hg a).extend d r c' bs h

theorem ite {p : Prop} [Decidable p] {f g : DeserializeCursor → Outcome (α × DeserializeCursor)} (hf : Robust f)
    (hg : Robust g) : Robust fun c => if p then f c else g c := by
  by_cases h : p
  · simpa only [h, if_true] using hf
  · simpa only [h, if_false] using hg

theorem rebase {f : DeserializeCursor → Outcome (α × DeserializeCursor)} (relativeOrigin : Int) (hf : Robust f) :
    Robust fun c => f (c.rebase relativeOrigin) :=
  ⟨fun c => hf.throws (c.rebase relativeOrigin),fun c => hf.extend (c.rebase relativeOrigin)⟩

/-- A question whose answer does not depend on the bytes. -/
theorem query {q : DeserializeCursor → Outcome β} {g : β → DeserializeCursor → Outcome (α × DeserializeCursor)}
    (hthrows : ∀ c s, q c = .error s → ∃ e, s = .throws e) (hext : ∀ c bs, q (c.extend bs) = q c)
    (hg : ∀ b, Robust (g b)) : Robust fun c => q c >>= fun b => g b c := by
  refine ⟨fun c s h => ?_,fun c r c' bs h => ?_⟩
  · cases hq : q c with
    | error e =>
      simp only [hq, Bind.bind, Except.bind] at h
      cases h
      exact hthrows c s hq
    | ok b =>
      simp only [hq, Bind.bind, Except.bind] at h
      exact (hg b).throws c s h
  · obtain ⟨b,hb,h⟩ := Outcome.bind_eq_ok h
    simp only [hext, hb, Bind.bind, Except.bind]
    exact (hg b).extend c r c' bs h

end Robust

namespace DeserializeCursor

theorem Reads.extend {c c' : DeserializeCursor} {bs : List Byte} (h : Reads c bs c') (as : List Byte) :
    Reads (c.extend as) bs (c'.extend as) := by
  refine ⟨?_,h.origin_eq,h.position_eq,?_⟩
  · show c'.data ++ as = c.data ++ as
    rw [h.data_eq]
  · show ((c.data ++ as).drop c.position).take bs.length = bs
    have hlen : bs.length ≤ (c.data.drop c.position).length := by
      have := h.length_le
      rw [List.length_drop]
      omega
    rw [List.drop_append_of_le_length c.position_le, List.take_append_of_le_length hlen, h.bytes_eq]

theorem advance_robust (n : Nat) : Robust fun c => c.advance n := by
  refine ⟨fun c s h => ?_,fun c r c' bs h => ?_⟩
  · unfold advance at h
    split at h
    · cases h
      exact ⟨truncated,rfl⟩
    · cases h
  · obtain ⟨rfl,as,rfl,hr⟩ := reads_of_advance h
    exact advance_of_reads (hr.extend bs)

theorem getBytes_robust (n : Nat) : Robust fun c => c.getBytes n := by
  refine ⟨fun c s h => ?_,fun c r c' bs h => ?_⟩
  · cases hc : c.advance n with
    | error e =>
      simp only [getBytes, hc, Bind.bind, Except.bind] at h
      cases h
      exact (advance_robust n).throws c s hc
    | ok p =>
      obtain ⟨_,as,rfl,hr⟩ := reads_of_advance hc
      simp only [getBytes_of_reads hr] at h
      cases h
  · obtain ⟨rfl,hr⟩ := reads_of_getBytes h
    exact getBytes_of_reads (hr.extend bs)

theorem align_robust {α : Type} (n : Nat) {g : DeserializeCursor → Outcome (α × DeserializeCursor)} (hg : Robust g) :
    Robust fun c => c.align n >>= g := by
  refine ⟨fun c s h => ?_,fun c r c' bs h => ?_⟩
  · cases hc : c.align n with
    | error e =>
      simp only [hc, Bind.bind, Except.bind] at h
      cases h
      unfold align at hc
      split at hc
      · cases hc
      · cases ha : c.advance (n - c.offset % n) with
        | error e =>
          simp only [ha, Bind.bind, Except.bind] at hc
          cases hc
          exact (advance_robust _).throws c s ha
        | ok p =>
          simp only [ha, Bind.bind, Except.bind] at hc
          cases hc
    | ok d =>
      simp only [hc, Bind.bind, Except.bind] at h
      exact hg.throws d s h
  · obtain ⟨d,hd,h⟩ := Outcome.bind_eq_ok h
    obtain ⟨as,hlen,hr⟩ := reads_of_align hd
    have hext : (c.extend bs).align n = .ok (d.extend bs) := align_of_reads hlen (hr.extend bs)
    simp only [hext, Bind.bind, Except.bind]
    exact hg.extend d r c' bs h

end DeserializeCursor
end RmwCyclonedds
