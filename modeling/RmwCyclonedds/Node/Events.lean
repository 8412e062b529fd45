import Mathlib.Data.Finset.Basic

/-! Return codes, and the events of publishers and subscriptions. -/
namespace RmwCyclonedds

inductive RmwRet where
  | ok
  | error
  | timeout
  | badAlloc
  | invalidArgument
  | unsupported
  deriving DecidableEq, Repr

def RmwRet.code : RmwRet → Int
  | .ok => 0
  | .error => 1
  | .timeout => 2
  | .unsupported => 3
  | .badAlloc => 10
  | .invalidArgument => 11

/-- No return code of rmw is negative. -/
theorem RmwRet.not_code_neg (r : RmwRet) : ¬r.code < 0 := by
  cases r <;> decide

/-- The DDS statuses that the listeners are set for. -/
inductive DdsStatusId where
  | requestedDeadlineMissed
  | livelinessLost
  | offeredDeadlineMissed
  | requestedIncompatibleQos
  | sampleLost
  | offeredIncompatibleQos
  | livelinessChanged
  | inconsistentTopic
  | subscriptionMatched
  | publicationMatched
  deriving DecidableEq, Repr

inductive RmwEventType where
  | livelinessChanged
  | requestedDeadlineMissed
  | requestedQosIncompatible
  | messageLost
  | subscriptionIncompatibleType
  | subscriptionMatched
  | livelinessLost
  | offeredDeadlineMissed
  | offeredQosIncompatible
  | publisherIncompatibleType
  | publicationMatched
  | invalid
  | typeMax
  deriving DecidableEq, Repr

/-- The mapping of an event to its DDS status. -/
def maskMap : RmwEventType → Option DdsStatusId
  | .livelinessChanged => some .livelinessChanged
  | .requestedDeadlineMissed => some .requestedDeadlineMissed
  | .livelinessLost => some .livelinessLost
  | .offeredDeadlineMissed => some .offeredDeadlineMissed
  | .requestedQosIncompatible => some .requestedIncompatibleQos
  | .offeredQosIncompatible => some .offeredIncompatibleQos
  | .messageLost => some .sampleLost
  | .publisherIncompatibleType => some .inconsistentTopic
  | .subscriptionIncompatibleType => some .inconsistentTopic
  | .subscriptionMatched => some .subscriptionMatched
  | .publicationMatched => some .publicationMatched
  | .invalid | .typeMax => none

def isEventSupported (t : RmwEventType) : Bool := (maskMap t).isSome

end RmwCyclonedds
