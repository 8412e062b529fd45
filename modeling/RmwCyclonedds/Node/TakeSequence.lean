import RmwCyclonedds.Bytewise
import RmwCyclonedds.Node.Events

/-! Taking a sequence of messages: `rmw_take_sequence` hands the caller's buffers to the
middleware and moves those that received valid samples to the front. -/
namespace RmwCyclonedds
open Library

structure SampleInfo where
  validData : Bool
  publicationHandle : Nat
  sourceTimestamp : Int
  deriving DecidableEq

structure MessageInfo where
  implementationIdentifier : Text
  publisherGid : List Byte
  sourceTimestamp : Int
  receivedTimestamp : Int
  publicationSequenceNumber : Nat
  receptionSequenceNumber : Nat
  deriving DecidableEq

def eclipseCycloneddsIdentifier : Text := "rmw_cyclonedds_cpp".toList

def sequenceNumberUnsupported : Nat := 2 ^ 64 - 1

/-- The handle of the writer at the start of a zeroed gid. -/
def messageInfoFromSampleInfo (host : Endian) (gidSize : Nat) (now : Int) (info : SampleInfo) : MessageInfo where
  implementationIdentifier := eclipseCycloneddsIdentifier
  publisherGid := host.encode 8 info.publicationHandle ++ List.replicate (gidSize - 8) 0
  sourceTimestamp := info.sourceTimestamp
  receivedTimestamp := now
  publicationSequenceNumber := sequenceNumberUnsupported
  receptionSequenceNumber := sequenceNumberUnsupported

/-- The address of a message buffer, or of any other object. -/
abbrev Pointer := Nat

def sizeofPointer : Nat := 8

/-- The array of buffer pointers lies at `address`. -/
structure MessageSequence where
  address : Pointer
  data : List Pointer
  size : Nat

/-- `&message_sequence->data[ii]`. -/
def MessageSequence.slot (messages : MessageSequence) (ii : Nat) : Pointer := messages.address + ii * sizeofPointer

structure MessageInfoSequence where
  data : List MessageInfo
  size : Nat

/-- What `dds_take` returns: an error, or for at most as many samples as were asked for their
infos, and the pointers that the array then holds. -/
structure DdsTake (count capacity : Nat) where
  ret : Int
  infos : List SampleInfo
  data : List Pointer
  ret_le : ret ≤ count
  infos_length : infos.length = count
  data_length : data.length = capacity

structure TakeState where
  takenMsg : List Pointer
  notTakenMsg : List Pointer
  taken : Nat
  messageInfos : List MessageInfo

section
variable (slot : Nat → Pointer) (describe : Nat → SampleInfo → MessageInfo)

/-- What is kept of a buffer is the address of its slot. -/
def takeStep (ii : Nat) (info : SampleInfo) (s : TakeState) : TakeState :=
  let message := slot ii
  if info.validData then
    {s with
      takenMsg := s.takenMsg ++ [message]
      taken := s.taken + 1
      messageInfos := s.messageInfos.set s.taken (describe ii info)}
  else {s with notTakenMsg := s.notTakenMsg ++ [message]}

def takeLoop : List SampleInfo → Nat → TakeState → TakeState
  | [], _, s => s
  | info :: infos, ii, s => takeLoop infos (ii + 1) (takeStep slot describe ii info s)

end

/-- The loops that assign consecutive entries from `start` on. -/
def assignFrom {α : Type} : List α → Nat → List α → List α
  | data, _, [] => data
  | data, start, x :: xs => assignFrom (data.set start x) (start + 1) xs

structure TakeSequence where
  ret : RmwRet
  message : Option String
  messages : MessageSequence
  infos : MessageInfoSequence
  taken : Nat

/-- `rmw_take_seq`; `now` is the clock when a sample is looked at. -/
def rmwTakeSeq (host : Endian) (gidSize : Nat) (now : Nat → Int) (count : Nat) (messages : MessageSequence)
    (infos : MessageInfoSequence) (taken : Nat) (dds : DdsTake count messages.data.length) : TakeSequence :=
  if count = 0 then ⟨.invalidArgument,some "count cannot be 0",messages,infos,taken⟩
  else if count > messages.data.length then
    ⟨.invalidArgument,some "Insuffient capacity in message_sequence",messages,infos,taken⟩
  else if count > infos.data.length then
    ⟨.invalidArgument,some "Insuffient capacity in message_info_sequence",messages,infos,taken⟩
  else if count > uint32Max then
    ⟨.error,some s!"Cannot take {count} samples at once, limit is {uint32Max}",messages,infos,taken⟩
  else
    let messages := {messages with data := dds.data}
    if dds.ret < 0 then ⟨.error,none,messages,infos,taken⟩
    else
      let s := takeLoop messages.slot (fun ii => messageInfoFromSampleInfo host gidSize (now ii))
        (dds.infos.take dds.ret.toNat) 0 ⟨[],[],0,infos.data⟩
      let data := assignFrom messages.data 0 s.takenMsg
      let data := assignFrom data s.takenMsg.length s.notTakenMsg
      ⟨.ok,none,⟨messages.address,data,s.taken⟩,⟨s.messageInfos,s.taken⟩,s.taken⟩

/-! ### What the loops leave behind -/

section
variable {α : Type}

theorem assignFrom_eq : ∀ {data : List α} {start : Nat} {xs : List α}, start + xs.length ≤ data.length →
    assignFrom data start xs = data.take start ++ (xs ++ data.drop (start + xs.length))
  | data, start, [], _ => by
    rw [assignFrom, List.nil_append, List.length_nil, Nat.add_zero, List.take_append_drop]
  | data, start, x :: xs, h => by
    rw [List.length_cons] at h
    have hstart : start < data.length := by omega
    have hrest : start + 1 + xs.length ≤ (data.set start x).length := by
      rw [List.length_set]
      omega
    have htake : (data.set start x).take (start + 1) = data.take start ++ [x] := by
      rw [List.take_add_one, List.take_set_of_le (Nat.le_refl start), List.getElem?_set_self hstart]
      rfl
    have hdrop : (data.set start x).drop (start + 1 + xs.length) = data.drop (start + (xs.length + 1)) := by
      rw [List.drop_set_of_lt (by omega), Nat.add_right_comm, Nat.add_assoc]
    rw [assignFrom, assignFrom_eq hrest, htake, hdrop, List.append_assoc, List.length_cons]
    rfl

theorem assignFrom_start {data xs : List α} (h : xs.length ≤ data.length) :
    assignFrom data 0 xs = xs ++ data.drop xs.length := by
  have hassign : assignFrom data 0 xs = _ := assignFrom_eq (by omega)
  rw [hassign, List.take_zero, List.nil_append, Nat.zero_add]

/-- Two runs of assignments, the second behind the first. -/
theorem assignFrom_twice {data front back : List α} (h : front.length + back.length ≤ data.length) :
    assignFrom (assignFrom data 0 front) front.length back =
      front ++ (back ++ data.drop (front.length + back.length)) := by
  have hlength : front.length + back.length ≤ (front ++ data.drop front.length).length := by
    rw [List.length_append, List.length_drop]
    omega
  rw [assignFrom_start (by omega), assignFrom_eq hlength, List.take_left, List.drop_length_add_append,
    List.drop_drop]

/-- The entries whose sample is valid, or whose sample is not. -/
def chosen (valid : Bool) (infos : List SampleInfo) (entries : List α) : List α :=
  ((entries.zip infos).filter fun entry => entry.2.validData == valid).map Prod.fst

@[simp] theorem chosen_nil (valid : Bool) (entries : List α) : chosen valid [] entries = [] := by
  rw [chosen, List.zip_nil_right]
  rfl

theorem chosen_cons (valid : Bool) (info : SampleInfo) (infos : List SampleInfo) (x : α) (entries : List α) :
    chosen valid (info :: infos) (x :: entries) =
      if info.validData = valid then x :: chosen valid infos entries else chosen valid infos entries := by
  simp only [chosen, List.zip_cons_cons, List.filter_cons, beq_iff_eq]
  split <;> rfl

/-- Both choices together are all that has a sample. -/
theorem chosen_perm : ∀ (infos : List SampleInfo) (entries : List α),
    (chosen true infos entries ++ chosen false infos entries).Perm (entries.take infos.length)
  | [], entries => by rw [chosen_nil, chosen_nil]; exact List.Perm.refl []
  | info :: infos, [] => List.Perm.refl []
  | info :: infos, x :: entries => by
    have ih := chosen_perm infos entries
    rw [chosen_cons, chosen_cons, List.length_cons, List.take_succ_cons]
    cases info.validData with
    | true => exact ih.cons x
    | false => exact List.perm_middle.trans (ih.cons x)

end

section
variable (slot : Nat → Pointer) (describe : Nat → SampleInfo → MessageInfo)

/-- The addresses of the slots of the samples from `ii` on. -/
def slotsFrom (ii : Nat) (infos : List SampleInfo) : List Pointer := (infos.zipIdx ii).map fun p => slot p.2

def describedFrom (ii : Nat) (infos : List SampleInfo) : List MessageInfo :=
  (infos.zipIdx ii).map fun p => describe p.2 p.1

theorem slotsFrom_length (ii : Nat) (infos : List SampleInfo) : (slotsFrom slot ii infos).length = infos.length := by
  rw [slotsFrom, List.length_map, List.length_zipIdx]

theorem chosen_described_length (ii : Nat) (infos : List SampleInfo) :
    (chosen true infos (describedFrom describe ii infos)).length = (chosen true infos (slotsFrom slot ii infos)).length := by
  induction infos generalizing ii with
  | nil => rfl
  | cons info infos ih =>
    rw [describedFrom, slotsFrom, List.zipIdx_cons, List.map_cons, List.map_cons, chosen_cons, chosen_cons]
    split
    · exact congrArg Nat.succ (ih (ii + 1))
    · exact ih (ii + 1)

theorem takeLoop_eq : ∀ (infos : List SampleInfo) (ii : Nat) (s : TakeState),
    takeLoop slot describe infos ii s =
      ⟨s.takenMsg ++ chosen true infos (slotsFrom slot ii infos),
        s.notTakenMsg ++ chosen false infos (slotsFrom slot ii infos),
        s.taken + (chosen true infos (slotsFrom slot ii infos)).length,
        assignFrom s.messageInfos s.taken (chosen true infos (describedFrom describe ii infos))⟩
  | [], ii, s => by
    simp only [takeLoop, chosen_nil, List.append_nil, List.length_nil, Nat.add_zero, assignFrom]
  | info :: infos, ii, s => by
    have hslots : slotsFrom slot ii (info :: infos) = slot ii :: slotsFrom slot (ii + 1) infos := rfl
    have hinfos : describedFrom describe ii (info :: infos) = describe ii info :: describedFrom describe (ii + 1) infos := rfl
    rw [takeLoop, takeLoop_eq infos, hslots, hinfos, chosen_cons, chosen_cons, chosen_cons]
    cases hv : info.validData with
    | true =>
      simp [takeStep, hv, assignFrom, List.append_assoc]
      omega
    | false => simp [takeStep, hv, List.append_assoc]

end

/-! ### The caller's buffers -/

namespace DdsTake
variable {count capacity : Nat} (dds : DdsTake count capacity)

/-- The infos of the samples that were taken. -/
def received : List SampleInfo := dds.infos.take dds.ret.toNat

theorem received_length : dds.received.length = dds.ret.toNat := by
  have hret := dds.ret_le
  rw [received, List.length_take, dds.infos_length]
  omega

/-- The caller keeps every buffer, those with messages first and each with its info. -/
structure KeepsBuffers (describe : Nat → SampleInfo → MessageInfo) (r : TakeSequence) : Prop where
  perm : r.messages.data.Perm dds.data
  front : r.messages.data.take r.taken = chosen true dds.received dds.data
  described : r.infos.data.take r.taken = chosen true dds.received (describedFrom describe 0 dds.received)
  messages_size : r.messages.size = r.taken
  infos_size : r.infos.size = r.taken

/-- Buffers that are the very slots which hold their pointers. -/
def SlotsAreBuffers (slot : Nat → Pointer) : Prop :=
  chosen true dds.received (slotsFrom slot 0 dds.received) = chosen true dds.received dds.data ∧
    (chosen false dds.received (slotsFrom slot 0 dds.received)).Perm (chosen false dds.received dds.data)

theorem slotsAreBuffers_of_none {slot : Nat → Pointer} (h : dds.ret = 0) : dds.SlotsAreBuffers slot := by
  have hnone : dds.received = [] := List.eq_nil_of_length_eq_zero (by rw [received_length, h]; rfl)
  rw [SlotsAreBuffers, hnone]
  simp only [chosen_nil]
  exact ⟨trivial,List.Perm.refl []⟩

end DdsTake

section
variable (host : Endian) (gidSize : Nat) (now : Nat → Int) {count : Nat} {messages : MessageSequence}
  {infos : MessageInfoSequence} {taken : Nat} {dds : DdsTake count messages.data.length}

/-- A call that succeeds leaves the slots' own addresses in the array. -/
theorem rmwTakeSeq_ok (h : (rmwTakeSeq host gidSize now count messages infos taken dds).ret = .ok) :
    0 ≤ dds.ret ∧ count ≤ messages.data.length ∧ count ≤ infos.data.length ∧
      rmwTakeSeq host gidSize now count messages infos taken dds =
        let valid := chosen true dds.received (slotsFrom messages.slot 0 dds.received)
        let described := chosen true dds.received
          (describedFrom (fun ii => messageInfoFromSampleInfo host gidSize (now ii)) 0 dds.received)
        ⟨.ok,none,⟨messages.address,valid ++ (chosen false dds.received (slotsFrom messages.slot 0 dds.received) ++
            dds.data.drop dds.ret.toNat),valid.length⟩,
          ⟨described ++ infos.data.drop described.length,valid.length⟩,valid.length⟩ := by
  unfold rmwTakeSeq at h ⊢
  split at h
  · cases h
  split at h
  · cases h
  split at h
  · cases h
  split at h
  · cases h
  next h0 hmessages hinfos hmax =>
  rw [if_neg h0, if_neg hmessages, if_neg hinfos, if_neg hmax]
  dsimp only at h ⊢
  split at h
  · cases h
  next hret =>
  rw [if_neg hret]
  have hcount := dds.ret_le
  have hreceived := dds.received_length
  refine ⟨by omega,by omega,by omega,?_⟩
  have hslot : MessageSequence.slot {messages with data := dds.data} = messages.slot := rfl
  have hloop := takeLoop_eq messages.slot (fun ii => messageInfoFromSampleInfo host gidSize (now ii)) dds.received 0
    ⟨[],[],0,infos.data⟩
  rw [List.nil_append, List.nil_append, Nat.zero_add] at hloop
  have hsplit := (chosen_perm dds.received (slotsFrom messages.slot 0 dds.received)).length_eq
  rw [List.length_append, List.length_take, slotsFrom_length, Nat.min_self, hreceived] at hsplit
  have hlength := dds.data_length
  have hdescribed := chosen_described_length messages.slot
    (fun ii => messageInfoFromSampleInfo host gidSize (now ii)) 0 dds.received
  rw [hslot, ← DdsTake.received, hloop]
  dsimp only
  rw [assignFrom_twice (by omega), assignFrom_start (by omega), hsplit]

/-- After a call that succeeds the caller has its buffers back exactly where they are the slots
themselves; where no buffer lies in the array of pointers, exactly where no sample was taken. -/
theorem takeSequence_keepsBuffers_iff (h : (rmwTakeSeq host gidSize now count messages infos taken dds).ret = .ok) :
    (dds.KeepsBuffers (fun ii => messageInfoFromSampleInfo host gidSize (now ii))
      (rmwTakeSeq host gidSize now count messages infos taken dds) ↔ dds.SlotsAreBuffers messages.slot) ∧
    ((∀ ii < messages.data.length, messages.slot ii ∉ dds.data) →
      (dds.SlotsAreBuffers messages.slot ↔ dds.ret = 0)) := by
  obtain ⟨hret,hmessages,hinfos,heq⟩ := rmwTakeSeq_ok host gidSize now h
  have hcount := dds.ret_le
  have hbuffers := chosen_perm dds.received dds.data
  rw [dds.received_length] at hbuffers
  have hall : (chosen true dds.received dds.data ++ (chosen false dds.received dds.data ++
      dds.data.drop dds.ret.toNat)).Perm dds.data := by
    have happend := hbuffers.append_right (dds.data.drop dds.ret.toNat)
    rwa [List.take_append_drop, List.append_assoc] at happend
  refine ⟨⟨fun hkeeps => ?_,fun hslots => ?_⟩,fun hapart => ⟨fun hslots => ?_,dds.slotsAreBuffers_of_none⟩⟩
  · have hfront := hkeeps.front
    have hperm := hkeeps.perm
    rw [heq] at hfront hperm
    dsimp only at hfront hperm
    rw [List.take_left] at hfront
    rw [hfront] at hperm
    have hwhole := hperm.trans hall.symm
    exact ⟨hfront,(List.perm_append_right_iff _).mp ((List.perm_append_left_iff _).mp hwhole)⟩
  · rw [heq]
    refine ⟨?_,?_,?_,rfl,rfl⟩
    · dsimp only
      rw [hslots.1]
      exact ((hslots.2.append_right _).append_left _).trans hall
    · dsimp only
      rw [List.take_left, hslots.1]
    · dsimp only
      rw [← chosen_described_length messages.slot, List.take_left]
  · by_contra hne
    have hnonempty : 0 < dds.received.length := by
      rw [dds.received_length]
      omega
    obtain ⟨info,rest,hcons⟩ := List.exists_cons_of_length_pos hnonempty
    have hfirst : messages.slot 0 ∈ slotsFrom messages.slot 0 dds.received := by
      rw [hcons]
      exact List.mem_cons_self
    have hslotsPerm := chosen_perm dds.received (slotsFrom messages.slot 0 dds.received)
    rw [← slotsFrom_length messages.slot 0 dds.received, List.take_length] at hslotsPerm
    have hmem : messages.slot 0 ∈ dds.data := by
      rcases List.mem_append.mp (hslotsPerm.mem_iff.mpr hfirst) with hvalid | hinvalid
      · rw [hslots.1] at hvalid
        exact hall.mem_iff.mp (List.mem_append_left _ hvalid)
      · have hother := hslots.2.mem_iff.mp hinvalid
        exact hall.mem_iff.mp (List.mem_append_right _ (List.mem_append_left _ hother))
    exact hapart 0 (by omega) hmem

/-- Two buffers of which the first receives a valid sample. -/
def twoBuffers : MessageSequence := ⟨1000,[5000,6000],0⟩

def twoInfos : MessageInfoSequence :=
  ⟨List.replicate 2 (messageInfoFromSampleInfo .little 24 0 ⟨true,0,0⟩),0⟩

def oneValid : DdsTake 2 2 := ⟨2,[⟨false,7,10⟩,⟨true,7,11⟩],[5000,6000],Int.le_refl 2,rfl,rfl⟩

/-- The caller gets the addresses 1008 and 1000 of the slots in place of its buffers. -/
theorem twoBuffers_lost :
    (rmwTakeSeq .little 24 (fun _ => 20) 2 twoBuffers twoInfos 0 oneValid).messages.data = [1008,1000] ∧
      (rmwTakeSeq .little 24 (fun _ => 20) 2 twoBuffers twoInfos 0 oneValid).ret = .ok ∧
      ¬DdsTake.KeepsBuffers oneValid (fun _ => messageInfoFromSampleInfo .little 24 20)
        (rmwTakeSeq .little 24 (fun _ => 20) 2 twoBuffers twoInfos 0 oneValid) := by
  refine ⟨by decide,by decide,fun h => ?_⟩
  exact absurd h.front (by decide)

def noneTaken : DdsTake 2 2 := ⟨0,List.replicate 2 ⟨false,0,0⟩,[5000,6000],Int.natCast_nonneg 2,rfl,rfl⟩

theorem twoBuffers_kept : DdsTake.KeepsBuffers noneTaken (fun _ => messageInfoFromSampleInfo .little 24 20)
    (rmwTakeSeq .little 24 (fun _ => 20) 2 twoBuffers twoInfos 0 noneTaken) := by
  have hok : (rmwTakeSeq .little 24 (fun _ => 20) 2 twoBuffers twoInfos 0 noneTaken).ret = .ok := by decide
  exact (takeSequence_keepsBuffers_iff .little 24 (fun _ => 20) hok).1.mpr (noneTaken.slotsAreBuffers_of_none rfl)

end

end RmwCyclonedds
