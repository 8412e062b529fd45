import RmwCyclonedds.Node.Services

/-! Sequence ids of requests: one counter for all clients of a process, and the calls that take from it. -/
namespace RmwCyclonedds
open Library

/-- The counter and the id that a call takes from it. -/
def takeRequestId (nextRequestId : BitVec 32) : BitVec 32 × Int :=
  let nextRequestId := nextRequestId + 1
  (nextRequestId,nextRequestId.toNat)

/-- A call takes its id and then writes. -/
theorem rmwSendRequest_eq {Data : Type} (pubiid : InstanceHandle) (nextRequestId : BitVec 32) (writes : Bool)
    (rosRequest : Data) : rmwSendRequest pubiid nextRequestId writes rosRequest =
      let (next,seq) := takeRequestId nextRequestId
      (if writes then .ok else .error,next,seq,if writes then some ⟨⟨pubiid,seq⟩,rosRequest⟩ else none) := by
  cases writes <;> rfl

/-- The counter, the ids returned in the order in which they were taken, and the requests of the calls that have not
written yet and of those that have. -/
structure RequestState (Client Data : Type) where
  nextRequestId : BitVec 32
  issued : List (Client × Int)
  writing : List (CddsRequestWrapper Data)
  written : List (CddsRequestWrapper Data)

inductive RequestStep (Client Data : Type) where
  | takeId (c : Client) (data : Data)
  /-- The call at a place goes on. -/
  | write (place : Nat) (writes : Bool)

def RequestStep.takesId {Client Data : Type} : RequestStep Client Data → Bool
  | takeId _ _ => true
  | write _ _ => false

section
variable {Client Data : Type} (pubiid : Client → InstanceHandle)

namespace RequestState

def takeId (s : RequestState Client Data) (c : Client) (data : Data) : RequestState Client Data :=
  let (next,seq) := takeRequestId s.nextRequestId
  {s with nextRequestId := next, issued := s.issued ++ [(c,seq)], writing := s.writing ++ [⟨⟨pubiid c,seq⟩,data⟩]}

def write (s : RequestState Client Data) (place : Nat) (writes : Bool) : Option (RequestState Client Data) :=
  s.writing[place]?.map fun wrap =>
    {s with writing := s.writing.eraseIdx place, written := if writes then s.written ++ [wrap] else s.written}

end RequestState

/-- Calls of any number of clients, in any order of their steps. -/
def requestMachine : Machine (RequestState Client Data) (RequestStep Client Data) where
  start := ⟨0,[],[],[]⟩
  next s
    | .takeId c data => some (s.takeId pubiid c data)
    | .write place writes => s.write place writes

namespace RequestState
variable [DecidableEq Client]

/-- The ids that a client was returned, in the order in which they were taken. -/
def seqsOf (s : RequestState Client Data) (c : Client) : List Int := (s.issued.filter fun p => p.1 = c).map Prod.snd

/-- Ids are positive and increase, and no two requests written have the same header. -/
def SequenceIdsFresh (s : RequestState Client Data) : Prop :=
  (∀ c, (s.seqsOf c).Pairwise (· < ·) ∧ ∀ seq ∈ s.seqsOf c, 0 < seq) ∧
    (s.written.map CddsRequestWrapper.header).Nodup

end RequestState
end

/-! ### What the counter has issued -/

/-- The id that the call with a number takes. -/
def issuedId (k : Nat) : Int := ((k + 1) % 2 ^ 32 : Nat)

section
variable {Client Data : Type} {pubiid : Client → InstanceHandle}

namespace RequestState

/-- The ids are those of the calls so far, and each request carries the id that its client was returned. -/
structure Counted (pubiid : Client → InstanceHandle) (s : RequestState Client Data) : Prop where
  counter : s.nextRequestId = BitVec.ofNat 32 s.issued.length
  ids : s.issued.map Prod.snd = (List.range s.issued.length).map issuedId
  carried : ((s.writing ++ s.written).map CddsRequestWrapper.header).Subperm
    (s.issued.map fun p => ⟨pubiid p.1,p.2⟩)

private theorem takeRequestId_ofNat (n : Nat) :
    takeRequestId (BitVec.ofNat 32 n) = (BitVec.ofNat 32 (n + 1),issuedId n) := by
  have hnext : BitVec.ofNat 32 n + 1 = BitVec.ofNat 32 (n + 1) := (BitVec.ofNat_add n 1).symm
  rw [takeRequestId, hnext, BitVec.toNat_ofNat]
  rfl

theorem Counted.takeId {s : RequestState Client Data} (h : s.Counted pubiid) (c : Client) (data : Data) :
    (s.takeId pubiid c data).Counted pubiid := by
  have htake : s.takeId pubiid c data = {s with
      nextRequestId := BitVec.ofNat 32 (s.issued.length + 1)
      issued := s.issued ++ [(c,issuedId s.issued.length)]
      writing := s.writing ++ [⟨⟨pubiid c,issuedId s.issued.length⟩,data⟩]} := by
    rw [RequestState.takeId, h.counter, takeRequestId_ofNat]
  rw [htake]
  refine ⟨?_,?_,?_⟩
  · simp only [List.length_append, List.length_singleton]
  · simp only [List.map_append, h.ids, List.length_append, List.length_singleton, List.range_succ, List.map_singleton]
  · have hperm (wrap : CddsRequestWrapper Data) :
        (s.writing ++ [wrap] ++ s.written).Perm ((s.writing ++ s.written) ++ [wrap]) := by
      rw [List.append_assoc, List.append_assoc]
      exact List.Perm.append_left _ List.perm_append_comm
    refine ((hperm _).map CddsRequestWrapper.header).subperm.trans ?_
    simp only [List.map_append, List.map_singleton]
    rw [← List.map_append]
    exact (List.subperm_append_right _).mpr h.carried

theorem Counted.write {s s' : RequestState Client Data} (h : s.Counted pubiid) {place : Nat} {writes : Bool}
    (hs : s.write place writes = some s') : s'.Counted pubiid ∧ s'.issued = s.issued := by
  obtain ⟨wrap,hwrap,rfl⟩ := Option.map_eq_some_iff.mp hs
  obtain ⟨hplace,rfl⟩ := List.getElem?_eq_some_iff.mp hwrap
  refine ⟨⟨h.counter,h.ids,?_⟩,rfl⟩
  have hsub : (s.writing.eraseIdx place ++ if writes then s.written ++ [s.writing[place]] else s.written).Subperm
      (s.writing ++ s.written) := by
    have hall : (s.writing.eraseIdx place ++ (s.written ++ [s.writing[place]])).Perm (s.writing ++ s.written) := by
      rw [← List.append_assoc]
      refine (List.perm_append_singleton _ _).trans ?_
      rw [← List.cons_append]
      exact (List.getElem_cons_eraseIdx_perm hplace).append_right _
    cases writes with
    | true => exact hall.subperm
    | false =>
      refine List.Subperm.trans ?_ hall.subperm
      exact (List.Sublist.append_left (List.sublist_append_left _ _) _).subperm
  obtain ⟨l,hl,hsublist⟩ := hsub
  exact List.Subperm.trans ⟨l.map CddsRequestWrapper.header,hl.map _,hsublist.map _⟩ h.carried

end RequestState

/-- Along every run the ids are those of the calls that took one. -/
private theorem run_counted {labels : List (RequestStep Client Data)} {s : RequestState Client Data}
    (h : (requestMachine pubiid).run labels = some s) :
    s.Counted pubiid ∧ s.issued.length = labels.countP RequestStep.takesId := by
  induction h using Machine.run_induction with
  | start => exact ⟨⟨rfl,rfl,List.nil_subperm⟩,rfl⟩
  | @step labels s l s' _ hl ih =>
    rw [List.countP_append, ← ih.2]
    cases l with
    | takeId c data =>
      cases hl
      refine ⟨ih.1.takeId c data,?_⟩
      show (s.issued ++ [_]).length = s.issued.length + 1
      rw [List.length_append, List.length_singleton]
    | write place writes =>
      obtain ⟨hcounted,hissued⟩ := ih.1.write hl
      exact ⟨hcounted,congrArg List.length hissued⟩

/-! ### Runs that are long enough -/

private theorem issuedId_of_lt {k : Nat} (h : k + 1 < 2 ^ 32) : issuedId k = (k : Int) + 1 := by
  rw [issuedId, Nat.mod_eq_of_lt h]
  rfl

namespace RequestState
variable [DecidableEq Client]

private theorem seqsOf_sublist (s : RequestState Client Data) (c : Client) :
    (s.seqsOf c).Sublist (s.issued.map Prod.snd) := List.filter_sublist.map _

private theorem Counted.fresh {s : RequestState Client Data} (h : s.Counted pubiid) (hn : s.issued.length < 2 ^ 32) :
    s.SequenceIdsFresh := by
  have hids : s.issued.map Prod.snd = (List.range s.issued.length).map fun k : Nat => (k : Int) + 1 := by
    rw [h.ids]
    apply List.map_congr_left
    intro k hk
    exact issuedId_of_lt (by have := List.mem_range.mp hk; omega)
  have hincreasing : (s.issued.map Prod.snd).Pairwise (· < ·) := by
    rw [hids, List.pairwise_map]
    exact List.pairwise_lt_range.imp fun hlt => by omega
  have hpositive : ∀ seq ∈ s.issued.map Prod.snd, 0 < seq := by
    intro seq hseq
    rw [hids] at hseq
    obtain ⟨k,_,rfl⟩ := List.mem_map.mp hseq
    omega
  refine ⟨fun c => ⟨hincreasing.sublist (s.seqsOf_sublist c),fun seq hseq =>
    hpositive seq ((s.seqsOf_sublist c).subset hseq)⟩,?_⟩
  have hheaders : (s.issued.map fun p => (⟨pubiid p.1,p.2⟩ : CddsRequestHeader)).Nodup := by
    apply List.Nodup.of_map CddsRequestHeader.seq
    rw [List.map_map]
    exact hincreasing.imp fun hlt => Int.ne_of_lt hlt
  have hwritten : (s.written.map CddsRequestWrapper.header).Subperm
      ((s.writing ++ s.written).map CddsRequestWrapper.header) :=
    ((List.sublist_append_right _ _).map _).subperm
  obtain ⟨l,hl,hsublist⟩ := hwritten.trans h.carried
  exact hl.nodup_iff.mp (hsublist.nodup hheaders)

/-- The call with number 2 ^ 32 - 1 takes the id zero. -/
private theorem Counted.zero_issued {s : RequestState Client Data} (h : s.Counted pubiid)
    (hn : 2 ^ 32 ≤ s.issued.length) : ∃ c, 0 ∈ s.seqsOf c := by
  have hzero : issuedId (2 ^ 32 - 1) = 0 := by decide
  have hmem : (0 : Int) ∈ s.issued.map Prod.snd := by
    rw [h.ids, ← hzero]
    exact List.mem_map_of_mem (List.mem_range.mpr (by omega))
  obtain ⟨⟨c,seq⟩,hp,hseq⟩ := List.mem_map.mp hmem
  exact ⟨c,List.mem_map.mpr ⟨(c,seq),List.mem_filter.mpr ⟨hp,decide_eq_true rfl⟩,hseq⟩⟩

private theorem Counted.not_fresh {s : RequestState Client Data} (h : s.Counted pubiid)
    (hn : 2 ^ 32 ≤ s.issued.length) : ¬s.SequenceIdsFresh := by
  rintro ⟨hids,_⟩
  obtain ⟨c,hc⟩ := h.zero_issued hn
  exact absurd ((hids c).2 0 hc) (Int.lt_irrefl 0)

end RequestState

/-- The ids of a run are fresh if fewer than 2 ^ 32 requests are sent in it. -/
theorem sequenceIdsFresh_iff [DecidableEq Client] {labels : List (RequestStep Client Data)} {s : RequestState Client Data}
    (h : (requestMachine pubiid).run labels = some s) :
    s.SequenceIdsFresh ↔ labels.countP RequestStep.takesId < 2 ^ 32 := by
  obtain ⟨hcounted,hlen⟩ := run_counted h
  rw [← hlen]
  constructor
  · intro hfresh
    by_contra hn
    exact hcounted.not_fresh (Nat.le_of_not_lt hn) hfresh
  · exact hcounted.fresh

end

/-- Two clients whose calls overlap: the second takes its id last and writes first. -/
def overlappingCalls : List (RequestStep Bool Unit) := [.takeId false (),.takeId true (),.write 1 true,.write 0 true]

theorem overlappingCalls_fresh :
    ∃ s, (requestMachine fun c => if c then 2 else 1).run overlappingCalls = some s ∧ s.SequenceIdsFresh := by
  obtain ⟨s,hs⟩ : ∃ s, (requestMachine fun c => if c then 2 else 1).run overlappingCalls = some s := ⟨_,rfl⟩
  exact ⟨s,hs,(sequenceIdsFresh_iff hs).mpr (by decide)⟩

private theorem exists_run (n : Nat) : ∃ s, (requestMachine fun _ : Unit => 1).run (List.replicate n (.takeId () ())) = some s := by
  induction n with
  | zero => exact ⟨_,rfl⟩
  | succ n ih =>
    obtain ⟨s,hs⟩ := ih
    rw [List.replicate_succ']
    exact ⟨_,Machine.run_next hs rfl⟩

/-- One client that sends 2 ^ 32 requests is returned the id zero. -/
theorem wrapped_id : ∃ s, (requestMachine fun _ : Unit => 1).run (List.replicate (2 ^ 32) (.takeId () ())) = some s ∧
    0 ∈ s.seqsOf () ∧ ¬s.SequenceIdsFresh := by
  obtain ⟨s,hs⟩ := exists_run (2 ^ 32)
  obtain ⟨hcounted,hlen⟩ := run_counted hs
  have hn : 2 ^ 32 ≤ s.issued.length := by
    rw [hlen, List.countP_replicate]
    exact Nat.le_refl _
  obtain ⟨c,hc⟩ := hcounted.zero_issued hn
  exact ⟨s,hs,hc,hcounted.not_fresh hn⟩

end RmwCyclonedds
