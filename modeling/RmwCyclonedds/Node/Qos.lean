import RmwCyclonedds.Bytewise
import RmwCyclonedds.Node.Events

/-! QoS profiles of rmw, and the QoS objects of DDS made from them. -/
namespace RmwCyclonedds

structure RmwTime where
  sec : BitVec 64
  nsec : BitVec 64
  deriving DecidableEq

/-- The functions of rmw on times. -/
structure RmwTimeFunctions where
  totalNsec : RmwTime → Int
  fromNsec : Int → RmwTime
  equal : RmwTime → RmwTime → Bool

def RmwTime.infinite : RmwTime := ⟨9223372036,854775807⟩

def RmwTime.unspecified : RmwTime := ⟨0,0⟩

inductive RmwHistory where
  | systemDefault
  | keepLast
  | keepAll
  | unknown
  deriving DecidableEq, Repr

inductive RmwReliability where
  | systemDefault
  | reliable
  | bestEffort
  | unknown
  | bestAvailable
  deriving DecidableEq, Repr

inductive RmwDurability where
  | systemDefault
  | transientLocal
  | volatile
  | unknown
  | bestAvailable
  deriving DecidableEq, Repr

inductive RmwLiveliness where
  | systemDefault
  | automatic
  | manualByTopic
  | unknown
  | bestAvailable
  deriving DecidableEq, Repr

structure RmwQosProfile where
  history : RmwHistory
  depth : Nat
  reliability : RmwReliability
  durability : RmwDurability
  deadline : RmwTime
  lifespan : RmwTime
  liveliness : RmwLiveliness
  livelinessLeaseDuration : RmwTime
  avoidRosNamespaceConventions : Bool

inductive DdsHistory where
  | keepLast
  | keepAll
  deriving DecidableEq, Repr

inductive DdsReliability where
  | bestEffort
  | reliable
  deriving DecidableEq, Repr

inductive DdsDurability where
  | volatile
  | transientLocal
  | transient
  | persistent
  deriving DecidableEq, Repr

inductive DdsLiveliness where
  | automatic
  | manualByParticipant
  | manualByTopic
  deriving DecidableEq, Repr

def ddsInfinity : Int := 2 ^ 63 - 1

def ddsLengthUnlimited : Int := -1

structure DurabilityService where
  serviceCleanupDelay : Int
  historyKind : DdsHistory
  historyDepth : Int
  maxSamples : Int
  maxInstances : Int
  maxSamplesPerInstance : Int
  deriving DecidableEq

/-- A QoS object; what has not been set is `none`. -/
structure DdsQos where
  autodispose : Option Bool := none
  history : Option (DdsHistory × Int) := none
  reliability : Option (DdsReliability × Int) := none
  durability : Option DdsDurability := none
  durabilityService : Option DurabilityService := none
  lifespan : Option Int := none
  deadline : Option Int := none
  liveliness : Option (DdsLiveliness × Int) := none
  ignorelocalParticipant : Bool := false
  userdata : Option Text := none
  deriving DecidableEq

/-- The policy for which a profile is refused. -/
inductive QosRefusal where
  | depth
  | history
  | reliability
  | durability
  | liveliness
  deriving DecidableEq, Repr

section
variable (time : RmwTimeFunctions)

def isRmwDurationUnspecified (duration : RmwTime) : Bool := time.equal duration .unspecified

def rmwDurationToDds (duration : RmwTime) : Int :=
  if time.equal duration .infinite then ddsInfinity else time.totalNsec duration

variable (qosPolicies : RmwQosProfile)

def setHistory (qos : DdsQos) : Except QosRefusal DdsQos :=
  match qosPolicies.history with
  | .systemDefault | .keepLast =>
    if qosPolicies.depth = 0 then .ok {qos with history := some (.keepLast,1)}
    else if qosPolicies.depth < 1 ∨ qosPolicies.depth > 2 ^ 31 - 1 then .error .depth
    else .ok {qos with history := some (.keepLast,qosPolicies.depth)}
  | .keepAll => .ok {qos with history := some (.keepAll,ddsLengthUnlimited)}
  | .unknown => .error .history

def setReliability (qos : DdsQos) : Except QosRefusal DdsQos :=
  match qosPolicies.reliability with
  | .systemDefault | .bestAvailable | .reliable => .ok {qos with reliability := some (.reliable,ddsInfinity)}
  | .bestEffort => .ok {qos with reliability := some (.bestEffort,0)}
  | .unknown => .error .reliability

/-- What is retained as historical data follows the history. -/
def setDurability (qos : DdsQos) : Except QosRefusal DdsQos :=
  match qosPolicies.durability with
  | .systemDefault | .bestAvailable | .volatile => .ok {qos with durability := some .volatile}
  | .transientLocal => .ok {qos with
      durability := some .transientLocal
      durabilityService := qos.history.map fun (hk,hd) =>
        ⟨0,hk,hd,ddsLengthUnlimited,ddsLengthUnlimited,ddsLengthUnlimited⟩}
  | .unknown => .error .durability

def setLifespan (qos : DdsQos) : DdsQos :=
  if isRmwDurationUnspecified time qosPolicies.lifespan then qos
  else {qos with lifespan := some (rmwDurationToDds time qosPolicies.lifespan)}

def setDeadline (qos : DdsQos) : DdsQos :=
  if isRmwDurationUnspecified time qosPolicies.deadline then qos
  else {qos with deadline := some (rmwDurationToDds time qosPolicies.deadline)}

def setLiveliness (qos : DdsQos) : Except QosRefusal DdsQos :=
  let ldur := if isRmwDurationUnspecified time qosPolicies.livelinessLeaseDuration then ddsInfinity
    else rmwDurationToDds time qosPolicies.livelinessLeaseDuration
  match qosPolicies.liveliness with
  | .systemDefault | .automatic | .bestAvailable => .ok {qos with liveliness := some (.automatic,ldur)}
  | .manualByTopic => .ok {qos with liveliness := some (.manualByTopic,ldur)}
  | .unknown => .error .liveliness

/-- The contents of the object that `create_readwrite_qos` makes; a type hash that cannot be encoded is left out. -/
def readwriteQos (typehash : Option Text) (ignoreLocalPublications : Bool) (extraUserData : Text) :
    Except QosRefusal DdsQos := do
  let qos ← setHistory qosPolicies {autodispose := some false}
  let qos ← setReliability qosPolicies qos
  let qos ← setDurability qosPolicies qos
  let qos ← setLiveliness time qosPolicies (setDeadline time qosPolicies (setLifespan time qosPolicies qos))
  return {qos with
    ignorelocalParticipant := ignoreLocalPublications
    userdata := some (extraUserData ++ typehash.getD [])}

/-- The policies that are known, with a depth that an `int32_t` holds. -/
structure RmwQosProfile.Supported : Prop where
  history : qosPolicies.history ≠ .unknown
  depth : qosPolicies.history ≠ .keepAll → qosPolicies.depth ≤ 2 ^ 31 - 1
  reliability : qosPolicies.reliability ≠ .unknown
  durability : qosPolicies.durability ≠ .unknown
  liveliness : qosPolicies.liveliness ≠ .unknown

end

/-! ### Which profiles are accepted -/

section
variable {qosPolicies : RmwQosProfile}

private theorem bind_accepts_iff {α β : Type} (x : Except QosRefusal α) (f : α → Except QosRefusal β) :
    (∃ b, x >>= f = .ok b) ↔ ∃ a, x = .ok a ∧ ∃ b, f a = .ok b := by
  cases x with
  | error refusal =>
    constructor
    · rintro ⟨_,h⟩
      cases h
    · rintro ⟨_,h,_⟩
      cases h
  | ok a =>
    constructor
    · exact fun h => ⟨a,rfl,h⟩
    · rintro ⟨_,heq,h⟩
      cases heq
      exact h

private theorem setHistory_ok_iff (qos : DdsQos) : (∃ qos', setHistory qosPolicies qos = .ok qos') ↔
    qosPolicies.history ≠ .unknown ∧ (qosPolicies.history ≠ .keepAll → qosPolicies.depth ≤ 2 ^ 31 - 1) := by
  have hlast (h : qosPolicies.history = .systemDefault ∨ qosPolicies.history = .keepLast) :
      (∃ qos', setHistory qosPolicies qos = .ok qos') ↔ qosPolicies.depth ≤ 2 ^ 31 - 1 := by
    have heq : setHistory qosPolicies qos = if qosPolicies.depth = 0 then .ok {qos with history := some (.keepLast,1)}
        else if qosPolicies.depth < 1 ∨ qosPolicies.depth > 2 ^ 31 - 1 then .error .depth
        else .ok {qos with history := some (.keepLast,qosPolicies.depth)} := by
      rcases h with h | h <;> rw [setHistory, h]
    rw [heq]
    split
    · next h => exact ⟨fun _ => h ▸ Nat.zero_le _,fun _ => ⟨_,rfl⟩⟩
    · split
      · next hdepth =>
        refine ⟨?_,fun hle => absurd hle (by omega)⟩
        rintro ⟨_,h⟩
        cases h
      · exact ⟨fun _ => by omega,fun _ => ⟨_,rfl⟩⟩
  cases h : qosPolicies.history with
  | systemDefault => simp only [hlast (.inl h), ne_eq, reduceCtorEq, not_false_eq_true, true_and, true_implies]
  | keepLast => simp only [hlast (.inr h), ne_eq, reduceCtorEq, not_false_eq_true, true_and, true_implies]
  | keepAll => simp only [setHistory, h, Except.ok.injEq, exists_eq', ne_eq, reduceCtorEq, not_false_eq_true, not_true_eq_false,
      false_implies, and_self]
  | unknown => simp only [setHistory, h, reduceCtorEq, exists_false, ne_eq, not_true_eq_false, false_and]

private theorem setReliability_ok_iff (qos : DdsQos) :
    (∃ qos', setReliability qosPolicies qos = .ok qos') ↔ qosPolicies.reliability ≠ .unknown := by
  unfold setReliability
  cases qosPolicies.reliability <;> simp

private theorem setDurability_ok_iff (qos : DdsQos) :
    (∃ qos', setDurability qosPolicies qos = .ok qos') ↔ qosPolicies.durability ≠ .unknown := by
  unfold setDurability
  cases qosPolicies.durability <;> simp

private theorem setLiveliness_ok_iff (time : RmwTimeFunctions) (qos : DdsQos) :
    (∃ qos', setLiveliness time qosPolicies qos = .ok qos') ↔ qosPolicies.liveliness ≠ .unknown := by
  unfold setLiveliness
  cases qosPolicies.liveliness <;> simp

/-- Neither the durations nor the user data have a part in it. -/
theorem readwriteQos_ok_iff (time : RmwTimeFunctions) (qosPolicies : RmwQosProfile) (typehash : Option Text)
    (ignoreLocalPublications : Bool) (extraUserData : Text) :
    (∃ qos, readwriteQos time qosPolicies typehash ignoreLocalPublications extraUserData = .ok qos) ↔
      qosPolicies.Supported := by
  simp only [readwriteQos, bind_accepts_iff, pure, Except.pure, Except.ok.injEq, exists_eq', and_true,
    setLiveliness_ok_iff, exists_and_right, setDurability_ok_iff, setReliability_ok_iff, setHistory_ok_iff]
  constructor
  · rintro ⟨⟨hhistory,hdepth⟩,hreliability,hdurability,hliveliness⟩
    exact ⟨hhistory,hdepth,hreliability,hdurability,hliveliness⟩
  · rintro ⟨hhistory,hdepth,hreliability,hdurability,hliveliness⟩
    exact ⟨⟨hhistory,hdepth⟩,hreliability,hdurability,hliveliness⟩

end

end RmwCyclonedds
