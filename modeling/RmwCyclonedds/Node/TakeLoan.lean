import RmwCyclonedds.Node.TakeSequence

/-! Taking a message as a loan: `rmw_take_loan_int`, where the middleware hands out buffers of its own. -/
namespace RmwCyclonedds
open Library

/-- A buffer of the middleware, numbered as they are handed out. -/
abbrev Loan := Nat

/-- The loans of a reader: how many it has handed out, which of them have not been returned, and which buffers it was
passed to fill. -/
structure ReaderLoans where
  handedOut : Nat
  outstanding : List Loan
  filled : List Loan

namespace ReaderLoans

/-- A pointer that is not null is a buffer of the caller's. -/
def pass (r : ReaderLoans) : Option Loan → ReaderLoans
  | none => r
  | some buf => {r with filled := r.filled ++ [buf]}

/-- `dds_take` finds a sample: a caller without a buffer gets a loan. -/
def ddsTake (r : ReaderLoans) : Option Loan → ReaderLoans × Loan
  | none => ({r with handedOut := r.handedOut + 1, outstanding := r.outstanding ++ [r.handedOut]},r.handedOut)
  | some buf => (r.pass (some buf),buf)

end ReaderLoans

/-- What `dds_take` finds when it is called: a sample, or a failure. -/
inductive TakeAnswer where
  | sample (info : SampleInfo)
  | failure
  deriving DecidableEq

/-- The result, with the caller's variables as they are left; a null pointer for the message info is `none`. -/
structure TakeLoan where
  ret : RmwRet
  message : Option String
  loanedMessage : Option Loan
  taken : Bool
  messageInfo : Option MessageInfo
  reader : ReaderLoans

section
variable (describe : SampleInfo → MessageInfo)

/-- The loop: behind the last answer nothing is found. -/
def takeLoanLoop : List TakeAnswer → ReaderLoans → Option Loan → Option MessageInfo → TakeLoan
  | [], r, loanedMessage, messageInfo => ⟨.ok,none,loanedMessage,false,messageInfo,r.pass loanedMessage⟩
  | .failure :: _, r, loanedMessage, messageInfo => ⟨.error,none,loanedMessage,false,messageInfo,r.pass loanedMessage⟩
  | .sample info :: answers, r, loanedMessage, messageInfo =>
    let (r,buf) := r.ddsTake loanedMessage
    if info.validData then ⟨.ok,none,some buf,true,messageInfo.map fun _ => describe info,r⟩
    else takeLoanLoop answers r (some buf) messageInfo

def rmwTakeLoanInt (canLoanMessages : Bool) (answers : List TakeAnswer) (r : ReaderLoans) (loanedMessage : Option Loan)
    (taken : Bool) (messageInfo : Option MessageInfo) : TakeLoan :=
  if canLoanMessages = false then ⟨.unsupported,some "Loaning is not supported",loanedMessage,taken,messageInfo,r⟩
  else if loanedMessage ≠ none then
    ⟨.invalidArgument,some "Loaned message pointer on input must be NULL",loanedMessage,taken,messageInfo,r⟩
  else takeLoanLoop describe answers r loanedMessage messageInfo

end

/-- The loans outstanding afterwards are those of before and the one that the caller is told of, no loan was passed in as
the caller's, and a caller that has got nothing has no pointer. -/
structure LoansAccounted (before : ReaderLoans) (result : TakeLoan) : Prop where
  outstanding : result.reader.outstanding =
    before.outstanding ++ if result.taken then result.loanedMessage.toList else []
  filled : result.reader.filled = before.filled
  null : result.taken = false → result.loanedMessage = none

/-- The first sample that is found has no data. -/
def StartsInvalid : List TakeAnswer → Prop
  | .sample info :: _ => info.validData = false
  | _ => False

instance (answers : List TakeAnswer) : Decidable (StartsInvalid answers) := by
  unfold StartsInvalid
  split <;> infer_instance

section
variable (describe : SampleInfo → MessageInfo)

/-- From the second round on the pointer is passed in at every round, and the last of them is always reached. -/
private theorem takeLoanLoop_filled (answers : List TakeAnswer) (r : ReaderLoans) (buf : Loan)
    (messageInfo : Option MessageInfo) :
    ∃ n, (takeLoanLoop describe answers r (some buf) messageInfo).reader.filled =
      r.filled ++ List.replicate (n + 1) buf := by
  induction answers generalizing r with
  | nil => exact ⟨0,rfl⟩
  | cons answer answers ih =>
    cases answer with
    | failure => exact ⟨0,rfl⟩
    | sample info =>
      rw [takeLoanLoop]
      simp only [ReaderLoans.ddsTake]
      split
      · exact ⟨0,rfl⟩
      · obtain ⟨n,hn⟩ := ih (r.pass (some buf))
        refine ⟨n + 1,hn.trans ?_⟩
        show r.filled ++ [buf] ++ List.replicate (n + 1) buf = r.filled ++ List.replicate (n + 1 + 1) buf
        rw [List.append_assoc]
        rfl

/-- A first sample with data is handed over with its loan; where none is found nothing has been handed out. -/
private theorem takeLoanLoop_accounted {answers : List TakeAnswer} (h : ¬StartsInvalid answers) (r : ReaderLoans)
    (messageInfo : Option MessageInfo) : LoansAccounted r (takeLoanLoop describe answers r none messageInfo) := by
  cases answers with
  | nil => exact ⟨(List.append_nil _).symm,rfl,fun _ => rfl⟩
  | cons answer answers =>
    cases answer with
    | failure => exact ⟨(List.append_nil _).symm,rfl,fun _ => rfl⟩
    | sample info =>
      have hvalid : info.validData = true := Bool.of_not_eq_false h
      rw [takeLoanLoop]
      simp only [ReaderLoans.ddsTake, hvalid, if_true]
      exact ⟨rfl,rfl,nofun⟩

private theorem takeLoanLoop_lost {answers : List TakeAnswer} (h : StartsInvalid answers) (r : ReaderLoans)
    (messageInfo : Option MessageInfo) : ¬LoansAccounted r (takeLoanLoop describe answers r none messageInfo) := by
  intro haccounted
  cases answers with
  | nil => exact h
  | cons answer answers =>
    cases answer with
    | failure => exact h
    | sample info =>
      have hinvalid : info.validData = false := h
      have hfilled := haccounted.filled
      rw [takeLoanLoop] at hfilled
      simp only [ReaderLoans.ddsTake, hinvalid, Bool.false_eq_true, if_false] at hfilled
      obtain ⟨n,hn⟩ := takeLoanLoop_filled describe answers
        {r with handedOut := r.handedOut + 1, outstanding := r.outstanding ++ [r.handedOut]} r.handedOut messageInfo
      rw [hn, List.append_right_eq_self] at hfilled
      cases hfilled

/-- Loans are accounted for if the reader does not start with a sample without data. -/
theorem rmwTakeLoanInt_accounted_iff (canLoanMessages : Bool) (answers : List TakeAnswer) (r : ReaderLoans) (taken : Bool)
    (messageInfo : Option MessageInfo) :
    LoansAccounted r (rmwTakeLoanInt describe canLoanMessages answers r none taken messageInfo) ↔
      canLoanMessages = false ∨ ¬StartsInvalid answers := by
  unfold rmwTakeLoanInt
  cases canLoanMessages with
  | false =>
    refine ⟨fun _ => .inl rfl,fun _ => ?_⟩
    rw [if_pos rfl]
    cases taken <;> exact ⟨(List.append_nil _).symm,rfl,fun _ => rfl⟩
  | true =>
    rw [if_neg nofun, if_neg (not_not.mpr rfl)]
    refine ⟨fun h => .inr fun hstarts => takeLoanLoop_lost describe hstarts r messageInfo h,?_⟩
    rintro (hno | hstarts)
    · cases hno
    · exact takeLoanLoop_accounted describe hstarts r messageInfo

end

/-- A dispose alone in the reader: its loan stays out, is passed in as the caller's buffer, and is left to a caller that
has got nothing. -/
theorem dispose_loses_loan : let before : ReaderLoans := ⟨0,[],[]⟩
    let result := rmwTakeLoanInt (messageInfoFromSampleInfo .little 24 20) true [.sample ⟨false,7,10⟩] before none false none
    result = ⟨.ok,none,some 0,false,none,⟨1,[0],[0]⟩⟩ ∧ ¬LoansAccounted before result := by
  refine ⟨rfl,fun h => ?_⟩
  cases h.null rfl

end RmwCyclonedds
