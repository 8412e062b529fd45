import RmwCyclonedds.Node.Qos

/-! QoS profiles read back from the QoS objects of DDS that were made from them. -/
namespace RmwCyclonedds

/-- The functions of DDS that read a QoS object. -/
structure DdsQosGet where
  history : DdsQos → Option (DdsHistory × Int)
  reliability : DdsQos → Option (DdsReliability × Int)
  durability : DdsQos → Option DdsDurability
  deadline : DdsQos → Option Int
  lifespan : DdsQos → Option Int
  liveliness : DdsQos → Option (DdsLiveliness × Int)

/-- A policy cannot be read; what was written up to there stays. -/
structure QosNotSet where
  message : String
  written : RmwQosProfile

section
variable (time : RmwTimeFunctions) (get : DdsQosGet)

def ddsDurationToRmw (duration : Int) : RmwTime :=
  if duration = ddsInfinity then .infinite else time.fromNsec duration

/-- The depth of KEEP_ALL has no meaning. -/
def readHistory (ddsQos : DdsQos) (qosPolicies : RmwQosProfile) : Except QosNotSet RmwQosProfile :=
  match get.history ddsQos with
  | none => .error ⟨"get_readwrite_qos: history not set",qosPolicies⟩
  | some (.keepLast,depth) => .ok {qosPolicies with history := .keepLast, depth := (depth % 2 ^ 32).toNat}
  | some (.keepAll,_) => .ok {qosPolicies with history := .keepAll, depth := 0}

def readReliability (ddsQos : DdsQos) (qosPolicies : RmwQosProfile) : Except QosNotSet RmwQosProfile :=
  match get.reliability ddsQos with
  | none => .error ⟨"get_readwrite_qos: history not set",qosPolicies⟩
  | some (.bestEffort,_) => .ok {qosPolicies with reliability := .bestEffort}
  | some (.reliable,_) => .ok {qosPolicies with reliability := .reliable}

def readDurability (ddsQos : DdsQos) (qosPolicies : RmwQosProfile) : Except QosNotSet RmwQosProfile :=
  match get.durability ddsQos with
  | none => .error ⟨"get_readwrite_qos: durability not set",qosPolicies⟩
  | some .volatile => .ok {qosPolicies with durability := .volatile}
  | some .transientLocal => .ok {qosPolicies with durability := .transientLocal}
  | some .transient | some .persistent => .ok {qosPolicies with durability := .unknown}

def readDeadline (ddsQos : DdsQos) (qosPolicies : RmwQosProfile) : Except QosNotSet RmwQosProfile :=
  match get.deadline ddsQos with
  | none => .error ⟨"get_readwrite_qos: deadline not set",qosPolicies⟩
  | some deadline => .ok {qosPolicies with deadline := ddsDurationToRmw time deadline}

def readLifespan (ddsQos : DdsQos) (qosPolicies : RmwQosProfile) : RmwQosProfile :=
  {qosPolicies with lifespan := ddsDurationToRmw time ((get.lifespan ddsQos).getD ddsInfinity)}

def readLiveliness (ddsQos : DdsQos) (qosPolicies : RmwQosProfile) : Except QosNotSet RmwQosProfile :=
  match get.liveliness ddsQos with
  | none => .error ⟨"get_readwrite_qos: liveliness not set",qosPolicies⟩
  | some (kind,leaseDuration) => .ok {qosPolicies with
      liveliness := match kind with
        | .automatic => .automatic
        | .manualByParticipant => .unknown
        | .manualByTopic => .manualByTopic
      livelinessLeaseDuration := ddsDurationToRmw time leaseDuration}

/-- The profile is overwritten policy by policy; its conventions for names are none of the policies. -/
def ddsQosToRmwQos (ddsQos : DdsQos) (qosPolicies : RmwQosProfile) : Except QosNotSet RmwQosProfile := do
  let qosPolicies ← readHistory get ddsQos qosPolicies
  let qosPolicies ← readReliability get ddsQos qosPolicies
  let qosPolicies ← readDurability get ddsQos qosPolicies
  let qosPolicies ← readDeadline time get ddsQos qosPolicies
  readLiveliness time get ddsQos (readLifespan time get ddsQos qosPolicies)

end

/-! ### What the parts outside are expected to do -/

def RmwTime.nanoseconds (t : RmwTime) : Nat := t.sec.toNat * 10 ^ 9 + t.nsec.toNat

def RmwTime.ofNanoseconds (n : Nat) : RmwTime := ⟨BitVec.ofNat 64 (n / 10 ^ 9),BitVec.ofNat 64 (n % 10 ^ 9)⟩

/-- Times are compared and converted by their nanoseconds, of which there are at most INT64_MAX. -/
structure RmwTimeFunctions.Saturating (time : RmwTimeFunctions) : Prop where
  totalNsec : ∀ t, time.totalNsec t = (min t.nanoseconds (2 ^ 63 - 1) : Nat)
  fromNsec : ∀ n : Nat, n ≤ 2 ^ 63 - 1 → time.fromNsec n = .ofNanoseconds n
  equal : ∀ s t, time.equal s t = true ↔ time.totalNsec s = time.totalNsec t

/-- What has been set is read, and durations that have not been set are infinite. A lifespan need not be there. -/
structure DdsQosGet.ReadsStored (get : DdsQosGet) : Prop where
  history : ∀ qos v, qos.history = some v → get.history qos = some v
  reliability : ∀ qos v, qos.reliability = some v → get.reliability qos = some v
  durability : ∀ qos v, qos.durability = some v → get.durability qos = some v
  deadline : ∀ qos, get.deadline qos = some (qos.deadline.getD ddsInfinity)
  lifespan : ∀ qos, (get.lifespan qos).getD ddsInfinity = qos.lifespan.getD ddsInfinity
  liveliness : ∀ qos v, qos.liveliness = some v → get.liveliness qos = some v

/-! ### Defaults -/

/-- A duration of zero stands for none given. From INT64_MAX nanoseconds on, a duration is infinite. -/
def RmwTime.resolved (t : RmwTime) : RmwTime :=
  if t.nanoseconds = 0 ∨ 2 ^ 63 - 1 ≤ t.nanoseconds then .infinite else .ofNanoseconds t.nanoseconds

def RmwHistory.resolved : RmwHistory → RmwHistory
  | .systemDefault => .keepLast
  | history => history

def RmwReliability.resolved : RmwReliability → RmwReliability
  | .systemDefault | .bestAvailable => .reliable
  | reliability => reliability

def RmwDurability.resolved : RmwDurability → RmwDurability
  | .systemDefault | .bestAvailable => .volatile
  | durability => durability

def RmwLiveliness.resolved : RmwLiveliness → RmwLiveliness
  | .systemDefault | .bestAvailable => .automatic
  | liveliness => liveliness

def RmwQosProfile.resolvedDepth (p : RmwQosProfile) : Nat :=
  if p.history = .keepAll then 0 else if p.depth = 0 then 1 else p.depth

/-- A profile with its defaults replaced by what they stand for, for a reader whose conventions for names are given. -/
def RmwQosProfile.resolved (p : RmwQosProfile) (avoidRosNamespaceConventions : Bool) : RmwQosProfile where
  history := p.history.resolved
  depth := p.resolvedDepth
  reliability := p.reliability.resolved
  durability := p.durability.resolved
  deadline := p.deadline.resolved
  lifespan := p.lifespan.resolved
  liveliness := p.liveliness.resolved
  livelinessLeaseDuration := p.livelinessLeaseDuration.resolved
  avoidRosNamespaceConventions := avoidRosNamespaceConventions

private theorem infinite_nanoseconds : RmwTime.infinite.nanoseconds = 2 ^ 63 - 1 := by decide

private theorem nanoseconds_of {n : Nat} (h : n ≤ 2 ^ 63 - 1) : (RmwTime.ofNanoseconds n).nanoseconds = n := by
  have hsec : n / 10 ^ 9 < 2 ^ 64 := by omega
  have hnsec : n % 10 ^ 9 < 2 ^ 64 := by omega
  rw [RmwTime.nanoseconds, RmwTime.ofNanoseconds]
  simp only [BitVec.toNat_ofNat, Nat.mod_eq_of_lt hsec, Nat.mod_eq_of_lt hnsec]
  exact Nat.div_add_mod' n (10 ^ 9)

/-- A duration keeps its nanoseconds, up to the largest ones. -/
theorem RmwTime.resolved_nanoseconds {t : RmwTime} (h : t.nanoseconds ≠ 0) :
    t.resolved.nanoseconds = min t.nanoseconds (2 ^ 63 - 1) := by
  rw [resolved]
  split
  · next hor =>
    rw [min_eq_right (hor.resolve_left h), infinite_nanoseconds]
  · next hor =>
    have hlt : t.nanoseconds < 2 ^ 63 - 1 := not_le.mp (fun hle => hor (.inr hle))
    rw [nanoseconds_of hlt.le, min_eq_left hlt.le]

private theorem RmwTime.resolved_again (t : RmwTime) : t.resolved.resolved = t.resolved := by
  rw [resolved.eq_def t]
  split
  · rw [resolved, if_pos (.inr infinite_nanoseconds.ge)]
  · next h =>
    have hle : t.nanoseconds ≤ 2 ^ 63 - 1 := by omega
    rw [resolved, nanoseconds_of hle, if_neg h]

private theorem RmwQosProfile.resolved_again (p : RmwQosProfile) (a b : Bool) :
    (p.resolved a).resolved b = p.resolved b := by
  have hdepth : (p.resolved a).resolvedDepth = p.resolvedDepth := by
    rw [resolvedDepth, resolvedDepth, resolved, resolvedDepth]
    cases p.history <;> simp [RmwHistory.resolved] <;> split <;> simp [*]
  rw [resolved, hdepth]
  simp only [resolved, RmwTime.resolved_again]
  congr 1
  · cases p.history <;> rfl
  · cases p.reliability <;> rfl
  · cases p.durability <;> rfl
  · cases p.liveliness <;> rfl

private theorem RmwQosProfile.Supported.resolved {p : RmwQosProfile} (h : p.Supported) (a : Bool) :
    (p.resolved a).Supported where
  history := by
    show p.history.resolved ≠ .unknown
    have hhistory := h.history
    cases hp : p.history <;> simp_all [RmwHistory.resolved]
  depth := by
    intro _
    show p.resolvedDepth ≤ 2 ^ 31 - 1
    rw [resolvedDepth]
    split
    · exact Nat.zero_le _
    · next hlast =>
      split
      · norm_num
      · exact h.depth hlast
  reliability := by
    show p.reliability.resolved ≠ .unknown
    have hreliability := h.reliability
    cases hp : p.reliability <;> simp_all [RmwReliability.resolved]
  durability := by
    show p.durability.resolved ≠ .unknown
    have hdurability := h.durability
    cases hp : p.durability <;> simp_all [RmwDurability.resolved]
  liveliness := by
    show p.liveliness.resolved ≠ .unknown
    have hliveliness := h.liveliness
    cases hp : p.liveliness <;> simp_all [RmwLiveliness.resolved]

/-! ### Durations -/

section
variable {time : RmwTimeFunctions}

private theorem RmwTimeFunctions.Saturating.unspecified_iff (htime : time.Saturating) (t : RmwTime) :
    isRmwDurationUnspecified time t = true ↔ t.nanoseconds = 0 := by
  have hzero : RmwTime.unspecified.nanoseconds = 0 := by decide
  rw [isRmwDurationUnspecified, htime.equal, htime.totalNsec, htime.totalNsec, hzero]
  omega

private theorem RmwTimeFunctions.Saturating.toDds (htime : time.Saturating) (t : RmwTime) :
    rmwDurationToDds time t = (min t.nanoseconds (2 ^ 63 - 1) : Nat) := by
  rw [rmwDurationToDds]
  split
  · next h =>
    rw [htime.equal, htime.totalNsec, htime.totalNsec, infinite_nanoseconds] at h
    rw [h, ddsInfinity]
    rfl
  · exact htime.totalNsec t

private theorem RmwTimeFunctions.Saturating.toRmw (htime : time.Saturating) {n : Nat} (h : n ≤ 2 ^ 63 - 1) :
    ddsDurationToRmw time n = if n = 2 ^ 63 - 1 then .infinite else .ofNanoseconds n := by
  rw [ddsDurationToRmw, ddsInfinity]
  split
  · next hn =>
    have heq : n = 2 ^ 63 - 1 := by omega
    rw [if_pos heq]
  · next hn =>
    have hne : n ≠ 2 ^ 63 - 1 := by omega
    rw [if_neg hne, htime.fromNsec n h]

private theorem ddsInfinity_toRmw : ddsDurationToRmw time ddsInfinity = .infinite := if_pos rfl

/-- A duration that is written and read again, where none given is written as infinite or not at all. -/
private theorem RmwTimeFunctions.Saturating.duration (htime : time.Saturating) (t : RmwTime) :
    ddsDurationToRmw time (if isRmwDurationUnspecified time t then ddsInfinity else rmwDurationToDds time t) = t.resolved := by
  rw [RmwTime.resolved]
  split
  · next h => rw [ddsInfinity_toRmw, if_pos (.inl ((htime.unspecified_iff t).mp h))]
  · next h =>
    have hne : t.nanoseconds ≠ 0 := fun h0 => h ((htime.unspecified_iff t).mpr h0)
    rw [htime.toDds, htime.toRmw (min_le_right _ _)]
    by_cases hle : 2 ^ 63 - 1 ≤ t.nanoseconds
    · rw [min_eq_right hle, if_pos rfl, if_pos (.inr hle)]
    · have hlt := not_le.mp hle
      rw [min_eq_left hlt.le, if_neg hlt.ne, if_neg (not_or.mpr ⟨hne,hle⟩)]

/-! ### Policies -/

variable {get : DdsQosGet} {p : RmwQosProfile}

/-- What a policy of a profile is written as, and that it is read again from every object that has it. -/
private theorem setHistory_read (hget : get.ReadsStored) {qos qos' : DdsQos} (h : setHistory p qos = .ok qos') :
    ∃ v, qos' = {qos with history := some v} ∧ ∀ q old, q.history = some v →
      readHistory get q old = .ok {old with history := p.history.resolved, depth := p.resolvedDepth} := by
  have hlast (hp : p.history = .systemDefault ∨ p.history = .keepLast) :
      ∃ v, qos' = {qos with history := some v} ∧ ∀ q old, q.history = some v →
        readHistory get q old = .ok {old with history := .keepLast, depth := p.resolvedDepth} := by
    have hdepth : p.resolvedDepth = if p.depth = 0 then 1 else p.depth := by
      rw [RmwQosProfile.resolvedDepth, if_neg]
      rcases hp with hp | hp <;> rw [hp] <;> nofun
    have heq : setHistory p qos = if p.depth = 0 then .ok {qos with history := some (.keepLast,1)}
        else if p.depth < 1 ∨ p.depth > 2 ^ 31 - 1 then .error .depth
        else .ok {qos with history := some (.keepLast,p.depth)} := by
      rcases hp with hp | hp <;> rw [setHistory, hp]
    rw [heq] at h
    rw [hdepth]
    split at h
    · next h0 =>
      cases h
      refine ⟨_,rfl,fun q old hq => ?_⟩
      rw [readHistory, hget.history q _ hq, if_pos h0]
      rfl
    · next h0 =>
      split at h
      · cases h
      · next hle =>
        cases h
        refine ⟨_,rfl,fun q old hq => ?_⟩
        have hmod : ((p.depth : Int) % 2 ^ 32).toNat = p.depth := by omega
        rw [readHistory, hget.history q _ hq, if_neg h0]
        simp only
        rw [hmod]
  cases hp : p.history with
  | systemDefault => exact hlast (.inl hp)
  | keepLast => exact hlast (.inr hp)
  | keepAll =>
    rw [setHistory, hp] at h
    cases h
    refine ⟨_,rfl,fun q old hq => ?_⟩
    rw [readHistory, hget.history q _ hq, RmwQosProfile.resolvedDepth, if_pos hp]
    rfl
  | unknown =>
    rw [setHistory, hp] at h
    cases h

private theorem setReliability_read (hget : get.ReadsStored) {qos qos' : DdsQos} (h : setReliability p qos = .ok qos') :
    ∃ v, qos' = {qos with reliability := some v} ∧ ∀ q old, q.reliability = some v →
      readReliability get q old = .ok {old with reliability := p.reliability.resolved} := by
  rw [setReliability] at h
  cases hp : p.reliability <;> rw [hp] at h <;> cases h <;> refine ⟨_,rfl,fun q old hq => ?_⟩ <;>
    rw [readReliability, hget.reliability q _ hq] <;> rfl

private theorem setDurability_read (hget : get.ReadsStored) {qos qos' : DdsQos} (h : setDurability p qos = .ok qos') :
    ∃ v service, qos' = {qos with durability := some v, durabilityService := service} ∧ ∀ q old, q.durability = some v →
      readDurability get q old = .ok {old with durability := p.durability.resolved} := by
  rw [setDurability] at h
  cases hp : p.durability <;> rw [hp] at h <;> cases h <;> refine ⟨_,_,rfl,fun q old hq => ?_⟩ <;>
    rw [readDurability, hget.durability q _ hq] <;> rfl

private theorem setLifespan_read (htime : time.Saturating) (hget : get.ReadsStored) (qos : DdsQos)
    (hqos : qos.lifespan = none) : ∃ v, setLifespan time p qos = {qos with lifespan := v} ∧
      ∀ q old, q.lifespan = v → readLifespan time get q old = {old with lifespan := p.lifespan.resolved} := by
  have hread (v : Option Int) (hv : v.getD ddsInfinity = if isRmwDurationUnspecified time p.lifespan then ddsInfinity
      else rmwDurationToDds time p.lifespan) (q : DdsQos) (old : RmwQosProfile) (hq : q.lifespan = v) :
      readLifespan time get q old = {old with lifespan := p.lifespan.resolved} := by
    rw [readLifespan, hget.lifespan, hq, hv, htime.duration]
  rw [setLifespan]
  split
  · next h => exact ⟨none,by rw [← hqos],hread none (by rw [if_pos h]; rfl)⟩
  · next h => exact ⟨_,rfl,hread _ (by rw [if_neg h]; rfl)⟩

private theorem setDeadline_read (htime : time.Saturating) (hget : get.ReadsStored) (qos : DdsQos)
    (hqos : qos.deadline = none) : ∃ v, setDeadline time p qos = {qos with deadline := v} ∧
      ∀ q old, q.deadline = v → readDeadline time get q old = .ok {old with deadline := p.deadline.resolved} := by
  have hread (v : Option Int) (hv : v.getD ddsInfinity = if isRmwDurationUnspecified time p.deadline then ddsInfinity
      else rmwDurationToDds time p.deadline) (q : DdsQos) (old : RmwQosProfile) (hq : q.deadline = v) :
      readDeadline time get q old = .ok {old with deadline := p.deadline.resolved} := by
    rw [readDeadline, hget.deadline, hq, hv]
    simp only
    rw [htime.duration]
  rw [setDeadline]
  split
  · next h => exact ⟨none,by rw [← hqos],hread none (by rw [if_pos h]; rfl)⟩
  · next h => exact ⟨_,rfl,hread _ (by rw [if_neg h]; rfl)⟩

private theorem setLiveliness_read (htime : time.Saturating) (hget : get.ReadsStored) {qos qos' : DdsQos}
    (h : setLiveliness time p qos = .ok qos') :
    ∃ v, qos' = {qos with liveliness := some v} ∧ ∀ q old, q.liveliness = some v →
      readLiveliness time get q old = .ok {old with
        liveliness := p.liveliness.resolved
        livelinessLeaseDuration := p.livelinessLeaseDuration.resolved} := by
  rw [setLiveliness] at h
  rw [← htime.duration]
  cases hp : p.liveliness <;> rw [hp] at h <;> cases h <;> refine ⟨_,rfl,fun q old hq => ?_⟩ <;>
    rw [readLiveliness, hget.liveliness q _ hq] <;> rfl

/-! ### The whole profile -/

private theorem readwriteQos_read (htime : time.Saturating) (hget : get.ReadsStored) {typehash : Option Text}
    {ignoreLocalPublications : Bool} {extraUserData : Text} {qos : DdsQos}
    (h : readwriteQos time p typehash ignoreLocalPublications extraUserData = .ok qos) (old : RmwQosProfile) :
    ddsQosToRmwQos time get qos old = .ok (p.resolved old.avoidRosNamespaceConventions) := by
  obtain ⟨q₁,h₁,h⟩ := Outcome.bind_eq_ok h
  obtain ⟨q₂,h₂,h⟩ := Outcome.bind_eq_ok h
  obtain ⟨q₃,h₃,h⟩ := Outcome.bind_eq_ok h
  obtain ⟨q₄,h₄,h⟩ := Outcome.bind_eq_ok h
  have hqos := Except.ok.inj h
  obtain ⟨history,hq₁,hhistory⟩ := setHistory_read hget h₁
  obtain ⟨reliability,hq₂,hreliability⟩ := setReliability_read hget h₂
  obtain ⟨durability,service,hq₃,hdurability⟩ := setDurability_read hget h₃
  have hnone : q₃.lifespan = none ∧ q₃.deadline = none := by
    rw [hq₃, hq₂, hq₁]
    exact ⟨rfl,rfl⟩
  obtain ⟨lifespan,hl,hlifespan⟩ := setLifespan_read (p := p) htime hget q₃ hnone.1
  rw [hl] at h₄
  obtain ⟨deadline,hd,hdeadline⟩ := setDeadline_read (p := p) htime hget {q₃ with lifespan := lifespan} hnone.2
  rw [hd] at h₄
  obtain ⟨liveliness,hq₄,hliveliness⟩ := setLiveliness_read htime hget h₄
  have hset : qos.history = some history ∧ qos.reliability = some reliability ∧ qos.durability = some durability ∧
      qos.deadline = deadline ∧ qos.lifespan = lifespan ∧ qos.liveliness = some liveliness := by
    rw [← hqos, hq₄, hq₃, hq₂, hq₁]
    exact ⟨rfl,rfl,rfl,rfl,rfl,rfl⟩
  obtain ⟨hh,hr,hdu,hde,hli,hlv⟩ := hset
  rw [ddsQosToRmwQos, hhistory qos old hh]
  show (do
    let out ← readReliability get qos _
    let out ← readDurability get qos out
    let out ← readDeadline time get qos out
    readLiveliness time get qos (readLifespan time get qos out)) = _
  rw [hreliability qos _ hr]
  show (do
    let out ← readDurability get qos _
    let out ← readDeadline time get qos out
    readLiveliness time get qos (readLifespan time get qos out)) = _
  rw [hdurability qos _ hdu]
  show (do
    let out ← readDeadline time get qos _
    readLiveliness time get qos (readLifespan time get qos out)) = _
  rw [hdeadline qos _ hde]
  show readLiveliness time get qos (readLifespan time get qos _) = _
  rw [hlifespan qos _ hli, hliveliness qos _ hlv]
  rfl

/-- What is read back from an accepted profile is the profile with its defaults resolved. It is accepted as well, and
nothing of it changes when it is written and read again. -/
theorem qos_round_trip (htime : time.Saturating) (hget : get.ReadsStored) {typehash : Option Text}
    {ignoreLocalPublications : Bool} {extraUserData : Text} {qos : DdsQos}
    (h : readwriteQos time p typehash ignoreLocalPublications extraUserData = .ok qos) (old : RmwQosProfile) :
    ∃ q, ddsQosToRmwQos time get qos old = .ok q ∧ q = p.resolved old.avoidRosNamespaceConventions ∧
      ∀ typehash ignoreLocalPublications extraUserData,
        ∃ qos', readwriteQos time q typehash ignoreLocalPublications extraUserData = .ok qos' ∧
          ddsQosToRmwQos time get qos' q = .ok q := by
  refine ⟨_,readwriteQos_read htime hget h old,rfl,?_⟩
  intro typehash' ignoreLocalPublications' extraUserData'
  have hsupported : p.Supported := (readwriteQos_ok_iff _ _ _ _ _).mp ⟨qos,h⟩
  obtain ⟨qos',hqos'⟩ := (readwriteQos_ok_iff time _ typehash' ignoreLocalPublications' extraUserData').mpr
    (hsupported.resolved old.avoidRosNamespaceConventions)
  refine ⟨qos',hqos',?_⟩
  rw [readwriteQos_read htime hget hqos', RmwQosProfile.resolved_again]
  rfl

end

/-- Times in nanoseconds, up to INT64_MAX. -/
def saturatingTime : RmwTimeFunctions where
  totalNsec t := (min t.nanoseconds (2 ^ 63 - 1) : Nat)
  fromNsec n := .ofNanoseconds n.toNat
  equal s t := min s.nanoseconds (2 ^ 63 - 1) = min t.nanoseconds (2 ^ 63 - 1)

private theorem saturatingTime_saturating : saturatingTime.Saturating where
  totalNsec _ := rfl
  fromNsec _ _ := rfl
  equal s t := by
    show decide _ = true ↔ ((_ : Nat) : Int) = ((_ : Nat) : Int)
    rw [decide_eq_true_iff, Int.natCast_inj]

/-- An object as an entity returns it, with infinite durations where none have been set. -/
def ddsQosGet : DdsQosGet where
  history := DdsQos.history
  reliability := DdsQos.reliability
  durability := DdsQos.durability
  deadline qos := some (qos.deadline.getD ddsInfinity)
  lifespan := DdsQos.lifespan
  liveliness := DdsQos.liveliness

private theorem ddsQosGet_readsStored : ddsQosGet.ReadsStored where
  history _ _ h := h
  reliability _ _ h := h
  durability _ _ h := h
  deadline _ := rfl
  lifespan _ := rfl
  liveliness _ _ h := h

/-- Everything by default but a deadline of one and a half seconds, given in nanoseconds. -/
def deadlineProfile : RmwQosProfile where
  history := .systemDefault
  depth := 0
  reliability := .bestAvailable
  durability := .systemDefault
  deadline := ⟨0,1500000000⟩
  lifespan := .unspecified
  liveliness := .bestAvailable
  livelinessLeaseDuration := .unspecified
  avoidRosNamespaceConventions := false

theorem deadlineProfile_round_trip : ∃ qos q, readwriteQos saturatingTime deadlineProfile none false [] = .ok qos ∧
    ddsQosToRmwQos saturatingTime ddsQosGet qos deadlineProfile = .ok q ∧
    q.depth = 1 ∧ q.deadline = ⟨1,500000000⟩ ∧ q.lifespan = .infinite := by
  obtain ⟨qos,hqos⟩ := (readwriteQos_ok_iff saturatingTime deadlineProfile none false []).mpr
    ⟨by decide,by decide,by decide,by decide,by decide⟩
  obtain ⟨q,hq,hresolved,-⟩ := qos_round_trip saturatingTime_saturating ddsQosGet_readsStored hqos deadlineProfile
  refine ⟨qos,q,hqos,hq,?_⟩
  rw [hresolved]
  decide

end RmwCyclonedds
