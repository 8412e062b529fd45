import RmwCyclonedds.Serdata.SharedMemory

/-! Serdata that refer to a loan and are serialized when somebody asks for their data. -/
namespace RmwCyclonedds
open Library

/-- A call on a serdata: of its size, of a part of its data, of its sample, and of whether its key is another's. -/
inductive SerdataCall where
  | size
  | toSer (off sz : Nat)
  | toSample (runtime : Runtime)
  | eqkey (other : SerdataRmw)

inductive SerdataAnswer where
  | size (sizeU32 : Nat)
  | bytes (buf : List Byte)
  | sample (message : Option Message)
  | same (b : Bool)

namespace Sertype
variable {host : Endian} {root : StructValueType} {variant : SampleOrRequest} (s : Sertype host root variant)
  (heap : Heap)

/-- The size is returned in 32 bits. -/
def size (d : HeldSerdata) : Outcome (HeldSerdata × Nat) := do
  let d ← s.serializeIntoOnDemand heap d
  return (d,d.data.length % 2 ^ 32)

/-- `memcpy` from the data; outside of it this is undefined. -/
def toSer (d : HeldSerdata) (off sz : Nat) : Outcome (HeldSerdata × List Byte) := do
  let d ← s.serializeIntoOnDemand heap d
  if d.data.length < off + sz then throw .undefined
  return (d,(d.data.drop off).take sz)

/-- A call and the serdata as it leaves it. -/
def answer (d : HeldSerdata) : SerdataCall → Outcome (HeldSerdata × SerdataAnswer)
  | .size => do
    let (d,n) ← s.size heap d
    return (d,.size n)
  | .toSer off sz => do
    let (d,buf) ← s.toSer heap d off sz
    return (d,.bytes buf)
  | .toSample runtime => do
    let message ← s.toSampleImpl heap runtime d
    let d ← s.serializeIntoOnDemand heap d
    return (d,.sample message)
  | .eqkey other => return (d,.same (d.toSerdataRmw.eqkey other))

/-- Calls one after another. -/
def answers : List SerdataCall → HeldSerdata → Outcome (List SerdataAnswer)
  | [], _ => .ok []
  | call :: calls, d => do
    let (d,a) ← s.answer heap d call
    let rest ← answers calls d
    return a :: rest

variable {s heap}

/-- A serdata that becomes another one as soon as it is serialized, and stays it. -/
private structure Becomes (s : Sertype host root variant) (heap : Heap) (d : HeldSerdata) (e : SerdataRmw) : Prop where
  typed : d.typed = true
  kind : d.kind = e.kind
  key : d.key = e.key
  serialized : ∃ loan, s.serializeIntoOnDemand heap d = .ok ⟨e,true,loan⟩ ∧
    s.serializeIntoOnDemand heap ⟨e,true,loan⟩ = .ok ⟨e,true,loan⟩

private theorem Becomes.done {e : SerdataRmw} {loan : Option LoanedSample}
    (h : s.serializeIntoOnDemand heap ⟨e,true,loan⟩ = .ok ⟨e,true,loan⟩) : Becomes s heap ⟨e,true,loan⟩ e :=
  ⟨rfl,rfl,rfl,loan,h,h⟩

/-- One call answers as on the serialized one, and leaves a serdata that still becomes it. -/
private theorem Becomes.answer {d : HeldSerdata} {e : SerdataRmw} (h : Becomes s heap d e) (call : SerdataCall) :
    (∃ stop, s.answer heap d call = .error stop ∧ s.answer heap e.held call = .error stop) ∨
    ∃ after a, s.answer heap d call = .ok (after,a) ∧ s.answer heap e.held call = .ok (e.held,a) ∧
      Becomes s heap after e := by
  obtain ⟨loan,hfirst,hagain⟩ := h.serialized
  have hheld : s.serializeIntoOnDemand heap e.held = .ok e.held := rfl
  cases call with
  | size =>
    refine .inr ⟨⟨e,true,loan⟩,.size (e.data.length % 2 ^ 32),?_,rfl,.done hagain⟩
    simp only [Sertype.answer, size, hfirst, bind, Except.bind]
    rfl
  | toSer off sz =>
    simp only [Sertype.answer, toSer, hfirst, hheld, bind, Except.bind]
    by_cases hroom : e.data.length < off + sz
    · refine .inl ⟨.undefined,?_,?_⟩
      · rw [if_pos hroom]
        rfl
      · rw [if_pos (show e.held.data.length < off + sz from hroom)]
        rfl
    · refine .inr ⟨⟨e,true,loan⟩,.bytes ((e.data.drop off).take sz),?_,?_,.done hagain⟩
      · rw [if_neg hroom]
        rfl
      · rw [if_neg (show ¬e.held.data.length < off + sz from hroom)]
        rfl
  | toSample runtime =>
    have hread : s.toSampleImpl heap runtime d = s.toSampleImpl heap runtime e.held := by
      simp only [toSampleImpl, h.typed, if_true, hfirst, bind, Except.bind]
      rfl
    simp only [Sertype.answer, hread, hfirst, hheld, bind, Except.bind]
    cases s.toSampleImpl heap runtime e.held with
    | error stop => exact .inl ⟨stop,rfl,rfl⟩
    | ok message => exact .inr ⟨⟨e,true,loan⟩,.sample message,rfl,rfl,.done hagain⟩
  | eqkey other =>
    refine .inr ⟨d,.same (e.eqkey other),?_,rfl,h⟩
    have hsame : d.toSerdataRmw.eqkey other = e.eqkey other := by simp only [SerdataRmw.eqkey, h.key]
    rw [Sertype.answer, hsame]
    rfl

private theorem Becomes.answers {d : HeldSerdata} {e : SerdataRmw} (h : Becomes s heap d e) (calls : List SerdataCall) :
    s.answers heap calls d = s.answers heap calls e.held := by
  induction calls generalizing d with
  | nil => rfl
  | cons call calls ih =>
    simp only [Sertype.answers]
    rcases h.answer call with ⟨stop,hd,he⟩ | ⟨after,a,hd,he,hafter⟩
    · rw [hd, he]
    · rw [hd, he]
      simp only [bind, Except.bind]
      rw [ih hafter]

/-! ### The serdata of a raw loan -/

section
variable (s) (heap : Heap) (kind : SerdataKind) (m : Memory) (sample : Address)

/-- Every sample has an encoding with its encapsulation header and a size that is announced for it. -/
private theorem encoding (what : SampleOrKey) : ∃ bytes size, s.cdrWriter.serialize m sample what = .ok bytes ∧
    s.cdrWriter.getSerializedSize m sample what = .ok size ∧ bytes ≠ [] := by
  obtain ⟨size,hsize⟩ := s.cdrWriter.exists_getSerializedSize m sample what
  exact ⟨_,size,s.cdrWriter.serialize_eq m sample what,hsize,List.cons_ne_nil _ _⟩

end

variable (s) {loan : LoanedSample}

end Sertype
end RmwCyclonedds
