import RmwCyclonedds.Node.TakeSequence
import RmwCyclonedds.Serdata.LazySerialization
import RmwCyclonedds.Serdata.SerializedMessage

/-! Publishing and taking one message, as an object or in its serialized form. -/
namespace RmwCyclonedds
open Library

/-- What waits in a reader: the info of a sample and its serdata. -/
abbrev QueuedSample := SampleInfo × HeldSerdata

/-- A message that was taken, with the caller's variables as they are left; a null pointer for the message info is `none`. -/
structure Taken (Buffer : Type) where
  ret : RmwRet
  taken : Bool
  message : Buffer
  messageInfo : Option MessageInfo
  rest : List QueuedSample

namespace Sertype
variable {host : Endian} {root : StructValueType} (s : Sertype host root .sample) (heap : Heap)

/-- `rmw_publish`; the serdata is what the middleware has to deliver. -/
def rmwPublish (writes : Bool) (m : Memory) (rosMessage : Address) : Outcome (RmwRet × Option HeldSerdata) := do
  match ← s.fromSample heap .data m rosMessage with
  | none => return (.error,none)
  | some d => return if writes then (.ok,some d.held) else (.error,none)

/-- The timestamp is stored in the serdata whether there is one or not. -/
def rmwPublishSerializedMessage (writes : Bool) (serializedMessage : SerializedMessage) :
    Outcome (RmwRet × Option HeldSerdata) := do
  match ← s.fromSerializedMessage heap .data (← serializedMessage.contents) with
  | none => throw .undefined
  | some d => return if writes then (.ok,some d.held) else (.error,none)

section
variable (runtime : Runtime) (resize : MessageResize) (describe : SampleInfo → MessageInfo)

/-- The loop of `rmw_take_int`; every sample that is found is stored in the caller's message. -/
def rmwTakeInt : List QueuedSample → Option Message → Option MessageInfo → Outcome (Taken (Option Message))
  | [], rosMessage, messageInfo => .ok ⟨.ok,false,rosMessage,messageInfo,[]⟩
  | (info,d) :: rest, rosMessage, messageInfo => do
    match ← s.toSampleImpl heap runtime d with
    | none => return ⟨.ok,false,rosMessage,messageInfo,rest⟩
    | some message =>
      if info.validData then return ⟨.ok,true,some message,messageInfo.map fun _ => describe info,rest⟩
      else rmwTakeInt rest (some message) messageInfo

def rmwTakeSerIntFromShm (d : HeldSerdata) (serializedMessage : SerializedMessage) : Bool × SerializedMessage :=
  match d.loan with
  | none => (false,serializedMessage)
  | some loan =>
    if loan.sampleState ≠ .serializedData then (false,serializedMessage)
    else
      let resized := resize.resize serializedMessage loan.sampleSize
      if resized.1 ≠ .ok then (false,resized.2)
      else (true,⟨loan.contents ++ resized.2.buffer.drop loan.sampleSize,loan.sampleSize⟩)

/-- The loop of `rmw_take_ser_int`. -/
def rmwTakeSerInt : List QueuedSample → SerializedMessage → Option MessageInfo → Outcome (Taken SerializedMessage)
  | [], serializedMessage, messageInfo => .ok ⟨.ok,false,serializedMessage,messageInfo,[]⟩
  | (info,d) :: rest, serializedMessage, messageInfo =>
    if info.validData = false then rmwTakeSerInt rest serializedMessage messageInfo
    else do
      let messageInfo := messageInfo.map fun _ => describe info
      let loaned := rmwTakeSerIntFromShm resize d serializedMessage
      if loaned.1 then return ⟨.ok,true,loaned.2,messageInfo,rest⟩
      else
        let (d,size) ← s.size heap d
        let resized := resize.resize loaned.2 size
        if resized.1 ≠ .ok then return ⟨.error,false,resized.2,messageInfo,rest⟩
        let (_,bytes) ← s.toSer heap d 0 size
        let stored ← resized.2.store bytes
        return ⟨.ok,true,{stored with bufferLength := size},messageInfo,rest⟩

end

/-! ### What is taken -/

section
variable {s heap} {runtime : Runtime} {describe : SampleInfo → MessageInfo}

/-- A message that is taken is that of a valid sample, and what stays are the samples behind it. -/
theorem rmwTakeInt_taken {samples : List QueuedSample} {rosMessage : Option Message} {messageInfo : Option MessageInfo}
    {result : Taken (Option Message)} (h : s.rmwTakeInt heap runtime describe samples rosMessage messageInfo = .ok result) :
    result.rest <:+ samples ∧ (result.taken = true → ∃ sample ∈ samples, sample.1.validData = true ∧
      ∃ message, s.toSampleImpl heap runtime sample.2 = .ok (some message) ∧ result.message = some message) := by
  induction samples generalizing rosMessage with
  | nil =>
    cases h
    exact ⟨List.suffix_refl _,nofun⟩
  | cons sample rest ih =>
    obtain ⟨info,d⟩ := sample
    rw [rmwTakeInt] at h
    obtain ⟨o,ho,h⟩ := Outcome.bind_eq_ok h
    cases o with
    | none =>
      cases h
      exact ⟨List.suffix_cons _ _,nofun⟩
    | some message =>
      cases hvalid : info.validData with
      | true =>
        simp only [hvalid, if_true] at h
        cases h
        exact ⟨List.suffix_cons _ _,fun _ => ⟨_,List.mem_cons_self,hvalid,message,ho,rfl⟩⟩
      | false =>
        simp only [hvalid, Bool.false_eq_true, if_false] at h
        obtain ⟨hrest,htaken⟩ := ih h
        refine ⟨hrest.trans (List.suffix_cons _ _),fun ht => ?_⟩
        obtain ⟨sample,hsample,hmessage⟩ := htaken ht
        exact ⟨sample,List.mem_cons_of_mem _ hsample,hmessage⟩

/-- Taking returns if no sample keeps it from doing so. -/
theorem exists_rmwTakeInt {samples : List QueuedSample} (hsamples : ∀ sample ∈ samples, ∃ o,
      s.toSampleImpl heap runtime sample.2 = .ok o) (rosMessage : Option Message) (messageInfo : Option MessageInfo) :
    ∃ result, s.rmwTakeInt heap runtime describe samples rosMessage messageInfo = .ok result := by
  induction samples generalizing rosMessage with
  | nil => exact ⟨_,rfl⟩
  | cons sample rest ih =>
    obtain ⟨info,d⟩ := sample
    obtain ⟨⟨o,ho⟩,hrest⟩ := List.forall_mem_cons.mp hsamples
    simp only [rmwTakeInt, ho, bind, Except.bind]
    cases o with
    | none => exact ⟨_,rfl⟩
    | some message =>
      dsimp only
      split
      · exact ⟨_,rfl⟩
      · exact ih hrest _

end

section
variable {resize : MessageResize} {describe : SampleInfo → MessageInfo}

/-- What is taken of a serdata without a loan, where 32 bits are enough for its size, is all of its data. -/
private theorem takeSer_held (d : SerdataRmw) (hsize : d.data.length < 2 ^ 32) (info : SampleInfo)
    (hvalid : info.validData = true) (rest : List QueuedSample) (serializedMessage : SerializedMessage)
    (messageInfo : Option MessageInfo) :
    s.rmwTakeSerInt heap resize describe ((info,d.held) :: rest) serializedMessage messageInfo =
      .ok (if (resize.resize serializedMessage d.data.length).1 = .ok then
        ⟨.ok,true,⟨d.data,d.data.length⟩,messageInfo.map fun _ => describe info,rest⟩
      else ⟨.error,false,(resize.resize serializedMessage d.data.length).2,messageInfo.map fun _ => describe info,rest⟩) := by
  have hloan : rmwTakeSerIntFromShm resize d.held serializedMessage = (false,serializedMessage) := rfl
  have hheld : s.size heap d.held = .ok (d.held,d.data.length) := by
    have hmod : d.held.data.length % 2 ^ 32 = d.data.length := Nat.mod_eq_of_lt hsize
    show Except.ok (d.held,d.held.data.length % 2 ^ 32) = _
    rw [hmod]
  have hser : s.toSer heap d.held 0 d.data.length = .ok (d.held,d.data) := by
    have hroom : ¬d.data.length < 0 + d.data.length := by omega
    show (if d.data.length < 0 + d.data.length then _ else _) = _
    rw [if_neg hroom]
    show Except.ok (d.held,(d.data.drop 0).take d.data.length) = _
    rw [List.drop_zero, List.take_length]
  rw [rmwTakeSerInt]
  simp only [hvalid, Bool.true_eq_false, if_false, hloan, hheld, Bool.false_eq_true, bind, Except.bind]
  by_cases hret : (resize.resize serializedMessage d.data.length).1 = .ok
  · have hblock := resize.size_eq _ _ hret
    have hroom : ¬(resize.resize serializedMessage d.data.length).2.buffer.length < d.data.length := by omega
    have hdrop : (resize.resize serializedMessage d.data.length).2.buffer.drop d.data.length = [] :=
      List.drop_eq_nil_of_le (Nat.le_of_eq hblock)
    simp only [ne_eq, hret, not_true_eq_false, if_false, if_true, hser, SerializedMessage.store, if_neg hroom, hdrop,
      List.append_nil]
    rfl
  · simp only [ne_eq, hret, not_false_eq_true, if_true, if_false]
    rfl

/-- Taking a serialized message returns; what it returns is the data of a valid sample. -/
theorem rmwTakeSerInt_taken {samples : List QueuedSample} (hsamples : ∀ sample ∈ samples, sample.1.validData = true →
      ∃ d : SerdataRmw, sample.2 = d.held ∧ d.data.length < 2 ^ 32)
    (serializedMessage : SerializedMessage) (messageInfo : Option MessageInfo) :
    ∃ result, s.rmwTakeSerInt heap resize describe samples serializedMessage messageInfo = .ok result ∧
      result.rest <:+ samples ∧ (result.taken = true → ∃ sample ∈ samples, sample.1.validData = true ∧
        result.message = ⟨sample.2.data,sample.2.data.length⟩) := by
  induction samples with
  | nil => exact ⟨_,rfl,List.suffix_refl _,nofun⟩
  | cons sample rest ih =>
    obtain ⟨info,d⟩ := sample
    obtain ⟨hfirst,hrest⟩ := List.forall_mem_cons.mp hsamples
    cases hvalid : info.validData with
    | false =>
      obtain ⟨result,hresult,hsuffix,htaken⟩ := ih hrest
      refine ⟨result,?_,hsuffix.trans (List.suffix_cons _ _),fun ht => ?_⟩
      · rw [rmwTakeSerInt, if_pos hvalid]
        exact hresult
      · obtain ⟨sample,hsample,hmessage⟩ := htaken ht
        exact ⟨sample,List.mem_cons_of_mem _ hsample,hmessage⟩
    | true =>
      obtain ⟨d,rfl,hsize⟩ := hfirst hvalid
      refine ⟨_,s.takeSer_held heap d hsize info hvalid rest serializedMessage messageInfo,?_,?_⟩
      · split <;> exact List.suffix_cons _ _
      · split
        · exact fun _ => ⟨_,List.mem_cons_self,hvalid,rfl⟩
        · exact nofun

end

end Sertype
end RmwCyclonedds
