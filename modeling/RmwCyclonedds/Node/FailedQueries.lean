import RmwCyclonedds.Node.MatchedEndpoints

/-! What becomes of a discovery query that fails: in `rmw_service_server_is_available` and in `rmw_send_response`. -/
namespace RmwCyclonedds
open Library

/-- One of the queries made has failed. -/
def QueryFailed {Answer : Type} (answers : Nat → Option Answer) (queries : Nat) : Prop := ∃ i < queries, answers i = none

/-- The result, the name and the number of the queries made. -/
structure TopicName where
  ret : RmwRet
  name : Text
  queries : Nat

/-- `dds_get_name` gives the length of the whole name, and as much of it as the buffer takes. -/
def getTopicName (query : Nat → Option Text) : TopicName :=
  match query 0 with
  | none => ⟨.error,[],1⟩
  | some tmp =>
    if tmp.length > 0 ∧ tmp.length ≥ 128 then
      match query 1 with
      | none => ⟨.error,[],2⟩
      | some again => if again.length ≥ tmp.length + 1 then ⟨.error,[],2⟩ else ⟨.ok,again,2⟩
    else ⟨.ok,tmp,1⟩

/-- What `rmw_service_server_is_available` asks for: the names of the topics of the client's writer and reader, the
counts in the graph cache, and the matches. -/
structure ServerDiscovery where
  pubNames : Nat → Option Text
  subNames : Nat → Option Text
  readerCount : Text → RmwRet × Nat
  writerCount : Text → RmwRet × Nat
  client : ClientDiscovery

/-- The result and `*is_available`, with what was found on the way. -/
structure ServerAvailable where
  ret : RmwRet
  isAvailable : Bool
  pub : TopicName
  sub : Option TopicName
  check : Option ServiceCheck

section
variable (parseKeyValue : List Byte → Text → Option (List Byte))

def rmwServiceServerIsAvailable (d : ServerDiscovery) : ServerAvailable :=
  let pub := getTopicName d.pubNames
  if pub.ret.code < 0 then ⟨.error,false,pub,none,none⟩ else
  let sub := getTopicName d.subNames
  if sub.ret.code < 0 then ⟨.error,false,pub,some sub,none⟩ else
  let requestSubscribers := d.readerCount pub.name
  if requestSubscribers.1 ≠ .ok ∨ requestSubscribers.2 = 0 then ⟨requestSubscribers.1,false,pub,some sub,none⟩ else
  let responsePublishers := d.writerCount sub.name
  if responsePublishers.1 ≠ .ok ∨ responsePublishers.2 = 0 then ⟨responsePublishers.1,false,pub,some sub,none⟩ else
  let check := checkForServiceReaderWriter parseKeyValue d.client false
  ⟨check.ret,check.isAvailable,pub,some sub,some check⟩

/-- A query made for the answer has failed. -/
def ServerAvailable.QueryFailed (d : ServerDiscovery) (result : ServerAvailable) : Prop :=
  RmwCyclonedds.QueryFailed d.pubNames result.pub.queries ∨
  (∃ sub ∈ result.sub, RmwCyclonedds.QueryFailed d.subNames sub.queries) ∨
  ∃ check ∈ result.check, RmwCyclonedds.QueryFailed d.client.matchedSubscriptions check.rds.queries ∨
    ∃ wrs ∈ check.wrs, RmwCyclonedds.QueryFailed d.client.matchedPublications wrs.queries

/-- A failing query makes the call fail, and no server is reported. -/
def ServerDiscovery.FailureReported (d : ServerDiscovery) : Prop :=
  let result := rmwServiceServerIsAvailable parseKeyValue d
  result.QueryFailed d → result.ret = .error ∧ result.isAvailable = false

/-- What a service sees of a client when it looks once for the client's reader. -/
structure ReaderAttempt where
  publicationData : InstanceHandle → Option BuiltinTopicEndpoint
  matchedSubscriptions : Nat → MatchAnswer
  subscriptionData : InstanceHandle → Option BuiltinTopicEndpoint

def checkClientServiceEndpoint (ep : Option BuiltinTopicEndpoint) (key : Text) (needle : List Byte) : Bool :=
  match ep with
  | some ep => (getUserDataKey parseKeyValue ep.qos key).getD [] == needle
  | none => false

/-- The state of the client's reader, and the matches if they were asked for. -/
def checkForResponseReader (service : ReaderAttempt) (reqwrih : InstanceHandle) : ClientPresent × Option MatchedEndpoints :=
  match service.publicationData reqwrih with
  | none => (.gone,none)
  | some reqwr =>
    match getUserDataKey parseKeyValue reqwr.qos "clientid".toList with
    | none => (.yes,none)
    | some clientid =>
      let rds := getMatchedEndpoints service.matchedSubscriptions []
      if rds.ret.code < 0 then (.failure,some rds)
      else if rds.res.any fun rdih =>
          checkClientServiceEndpoint parseKeyValue (service.subscriptionData rdih) "clientid".toList clientid then (.yes,some rds)
      else (.maybe,some rds)

/-- The wait of `rmw_send_response`, with the attempts for which there is time after the first one: the state in the end,
and the attempts made. -/
def awaitResponseReader (reqwrih : InstanceHandle) : ReaderAttempt → List ReaderAttempt → ClientPresent × List ReaderAttempt
  | attempt, [] => ((checkForResponseReader parseKeyValue attempt reqwrih).1,[attempt])
  | attempt, next :: later =>
    match (checkForResponseReader parseKeyValue attempt reqwrih).1 with
    | .maybe =>
      let (st,made) := awaitResponseReader reqwrih next later
      (st,attempt :: made)
    | st => (st,[attempt])

/-- A query of the attempt has failed. -/
def ReaderAttempt.QueryFailed (attempt : ReaderAttempt) (reqwrih : InstanceHandle) : Prop :=
  ∃ rds ∈ (checkForResponseReader parseKeyValue attempt reqwrih).2,
    RmwCyclonedds.QueryFailed attempt.matchedSubscriptions rds.queries

section
variable {Data : Type} (host : Endian) (first : ReaderAttempt) (later : List ReaderAttempt) (writes : Bool)
  (requestId : RmwRequestId) (rosResponse : Data)

/-- The handle of the client's writer in a request id. -/
def RmwRequestId.reqwrih : InstanceHandle := BitVec.ofNat 64 (host.decode (requestId.writerGuid.drop 8))

/-- `rmw_send_response` with its wait. -/
def rmwSendResponseAwaiting : RmwRet × Option (CddsRequestWrapper Data) :=
  rmwSendResponse host (fun reqwrih => (awaitResponseReader parseKeyValue reqwrih first later).1) writes requestId rosResponse

/-- After an attempt in which a query has failed there is no other one, nothing is published, and the call fails. -/
def ResponseFailureReported : Prop :=
  let reqwrih := requestId.reqwrih host
  ∀ before attempt after, (awaitResponseReader parseKeyValue reqwrih first later).2 = before ++ attempt :: after →
    attempt.QueryFailed parseKeyValue reqwrih →
    rmwSendResponseAwaiting parseKeyValue host first later writes requestId rosResponse = (.error,none) ∧ after = []

end

/-! ### When a query that is made fails -/

/-- The name is asked for again if it is too long for the first buffer. -/
def NameQueryFails (query : Nat → Option Text) : Prop :=
  query 0 = none ∨ ∃ name, query 0 = some name ∧ 128 ≤ name.length ∧ query 1 = none

/-- Behind answers that outgrow the vector a query fails. -/
def MatchQueryFails (fn : Nat → MatchAnswer) : Prop := ∃ i, fn i = none ∧ ∀ j < i, MatchesOutgrow fn j

theorem getTopicName_failed_iff (query : Nat → Option Text) :
    QueryFailed query (getTopicName query).queries ↔ NameQueryFails query := by
  cases hfirst : query 0 with
  | none =>
    have hqueries : (getTopicName query).queries = 1 := by simp only [getTopicName, hfirst]
    rw [hqueries]
    exact ⟨fun _ => .inl hfirst,fun _ => ⟨0,Nat.one_pos,hfirst⟩⟩
  | some name =>
    by_cases hlong : 128 ≤ name.length
    · have hqueries : (getTopicName query).queries = 2 := by
        simp only [getTopicName, hfirst, show name.length > 0 ∧ name.length ≥ 128 from ⟨by omega,hlong⟩, and_self, if_true]
        split <;> [rfl; split <;> rfl]
      rw [hqueries]
      constructor
      · rintro ⟨i,hi,hnone⟩
        obtain rfl | rfl : i = 0 ∨ i = 1 := by omega
        · rw [hnone] at hfirst
          cases hfirst
        · exact .inr ⟨name,hfirst,hlong,hnone⟩
      · rintro (hnone | ⟨_,_,_,hnone⟩)
        · rw [hnone] at hfirst
          cases hfirst
        · exact ⟨1,Nat.one_lt_two,hnone⟩
    · have hqueries : (getTopicName query).queries = 1 := by
        simp only [getTopicName, hfirst, show ¬(name.length > 0 ∧ name.length ≥ 128) from fun h => hlong h.2, if_false]
      rw [hqueries]
      constructor
      · rintro ⟨i,hi,hnone⟩
        obtain rfl : i = 0 := by omega
        rw [hnone] at hfirst
        cases hfirst
      · rintro (hnone | ⟨again,hsome,hle,_⟩)
        · rw [hnone] at hfirst
          cases hfirst
        · rw [hfirst] at hsome
          cases hsome
          exact absurd hle hlong

theorem getMatchedEndpoints_failed_iff (fn : Nat → MatchAnswer) :
    QueryFailed fn (getMatchedEndpoints fn []).queries ↔ MatchQueryFails fn := by
  obtain ⟨last,hbefore,⟨handles,hanswer,hroom,hend⟩ | ⟨hfail,partly,hend⟩⟩ := getMatchedEndpoints_cases fn
  · rw [hend]
    constructor
    · rintro ⟨i,hi,hnone⟩
      rcases (Nat.le_of_lt_succ hi).eq_or_lt with rfl | hlt
      · rw [hnone] at hanswer
        cases hanswer
      · obtain ⟨_,hsome,_⟩ := hbefore i hlt
        rw [hnone] at hsome
        cases hsome
    · rintro ⟨i,hnone,houtgrow⟩
      rcases lt_trichotomy i last with hlt | rfl | hgt
      · obtain ⟨_,hsome,_⟩ := hbefore i hlt
        rw [hnone] at hsome
        cases hsome
      · rw [hnone] at hanswer
        cases hanswer
      · obtain ⟨_,hsome,hle⟩ := houtgrow last hgt
        rw [hanswer] at hsome
        cases hsome
        exact absurd hroom hle.not_gt
  · rw [hend]
    exact ⟨fun _ => ⟨last,hfail,hbefore⟩,fun _ => ⟨last,Nat.lt_succ_self last,hfail⟩⟩

/-! ### Asking whether a service is available -/

namespace ServerDiscovery
variable (d : ServerDiscovery)

/-- The graph cache knows readers and writers of the topics. -/
def Counted : Prop :=
  let readers := d.readerCount (getTopicName d.pubNames).name
  let writers := d.writerCount (getTopicName d.subNames).name
  (readers.1 = .ok ∧ readers.2 ≠ 0) ∧ (writers.1 = .ok ∧ writers.2 ≠ 0)

/-- The graph cache gives an error of its own. -/
def CountFails : Prop :=
  let readers := d.readerCount (getTopicName d.pubNames).name
  let writers := d.writerCount (getTopicName d.subNames).name
  readers.1 = .error ∨ (readers.1 = .ok ∧ readers.2 ≠ 0 ∧ writers.1 = .error)

/-- A query that is made fails: the matches are asked for only where the counts are positive. -/
def QueryFails : Prop :=
  (NameQueryFails d.pubNames ∨ NameQueryFails d.subNames) ∨
  (d.Counted ∧ (MatchQueryFails d.client.matchedSubscriptions ∨ MatchQueryFails d.client.matchedPublications))

/-- The calls before the matches are asked for: whatever became of the names, the counts decide. -/
private theorem available_uncounted (h : ¬d.Counted) : ∃ ret, rmwServiceServerIsAvailable parseKeyValue d =
      ⟨ret,false,getTopicName d.pubNames,some (getTopicName d.subNames),none⟩ ∧ (ret = .error ↔ d.CountFails) := by
  simp only [rmwServiceServerIsAvailable, RmwRet.not_code_neg, if_false]
  split
  · next hreaders =>
    refine ⟨_,rfl,Or.inl,?_⟩
    rintro (herror | ⟨hok,hpos,_⟩)
    · exact herror
    · exact (hreaders.elim (· hok) (hpos ·)).elim
  · next hreaders =>
    obtain ⟨hok,hpos⟩ := not_or.mp hreaders
    have hok := not_not.mp hok
    split
    · next hwriters =>
      refine ⟨_,rfl,fun herror => .inr ⟨hok,hpos,herror⟩,?_⟩
      rintro (herror | ⟨_,_,herror⟩)
      · rw [hok] at herror
        cases herror
      · exact herror
    · next hwriters =>
      obtain ⟨hok',hpos'⟩ := not_or.mp hwriters
      exact absurd ⟨⟨hok,hpos⟩,not_not.mp hok',hpos'⟩ h

/-- With positive counts the call succeeds, whatever its queries give. -/
private theorem available_counted (h : d.Counted) : ∃ isAvailable, rmwServiceServerIsAvailable parseKeyValue d =
      ⟨.ok,isAvailable,getTopicName d.pubNames,some (getTopicName d.subNames),
        some ⟨.ok,isAvailable,getMatchedEndpoints d.client.matchedSubscriptions [],
          some (getMatchedEndpoints d.client.matchedPublications [])⟩⟩ := by
  obtain ⟨⟨hok,hpos⟩,hok',hpos'⟩ := h
  obtain ⟨isAvailable,hcheck,_⟩ := checkForServiceReaderWriter_eq parseKeyValue d.client
  refine ⟨isAvailable,?_⟩
  simp only [rmwServiceServerIsAvailable, RmwRet.not_code_neg, if_false, hok, hpos, hok', hpos', ne_eq, not_true_eq_false,
    or_self, hcheck]

/-- Failures are reported where there are none, or where the graph cache happens to fail too. -/
private theorem failureReported_iff : d.FailureReported parseKeyValue ↔ (d.QueryFails → d.CountFails) := by
  by_cases hcounted : d.Counted
  · obtain ⟨isAvailable,hresult⟩ := d.available_counted parseKeyValue hcounted
    have hno : ¬d.CountFails := by
      obtain ⟨⟨hok,_⟩,hok',_⟩ := hcounted
      rintro (herror | ⟨_,_,herror⟩)
      · rw [hok] at herror
        cases herror
      · rw [hok'] at herror
        cases herror
    have hfailed : (rmwServiceServerIsAvailable parseKeyValue d).QueryFailed d ↔ d.QueryFails := by
      rw [hresult]
      simp only [ServerAvailable.QueryFailed, QueryFails, Option.mem_def, Option.some.injEq, exists_eq_left',
        getTopicName_failed_iff, getMatchedEndpoints_failed_iff, hcounted, true_and, or_assoc]
    constructor
    · intro hreported hfails
      obtain ⟨hret,_⟩ := hreported (hfailed.mpr hfails)
      rw [hresult] at hret
      cases hret
    · exact fun hcovered hfails => absurd (hcovered (hfailed.mp hfails)) hno
  · obtain ⟨ret,hresult,hret⟩ := d.available_uncounted parseKeyValue hcounted
    have hfailed : (rmwServiceServerIsAvailable parseKeyValue d).QueryFailed d ↔ d.QueryFails := by
      rw [hresult]
      simp only [ServerAvailable.QueryFailed, QueryFails, Option.mem_def, Option.some.injEq, exists_eq_left',
        getTopicName_failed_iff, hcounted, false_and, or_false, reduceCtorEq, exists_false]
    constructor
    · intro hreported hfails
      obtain ⟨herror,_⟩ := hreported (hfailed.mpr hfails)
      rw [hresult] at herror
      exact hret.mp herror
    · intro hcovered hfails
      rw [hresult]
      exact ⟨hret.mpr (hcovered (hfailed.mp hfails)),rfl⟩

end ServerDiscovery

/-! ### Waiting for the reader of a client -/

section
variable (reqwrih : InstanceHandle)

/-- The attempt asks for the matches, since the client has an id, and a query fails. -/
def ReaderAttempt.QueryFails (attempt : ReaderAttempt) : Prop :=
  (∃ reqwr, attempt.publicationData reqwrih = some reqwr ∧ getUserDataKey parseKeyValue reqwr.qos "clientid".toList ≠ none) ∧
    MatchQueryFails attempt.matchedSubscriptions

private theorem attempt_failed_iff (attempt : ReaderAttempt) :
    attempt.QueryFailed parseKeyValue reqwrih ↔ attempt.QueryFails parseKeyValue reqwrih := by
  unfold ReaderAttempt.QueryFailed ReaderAttempt.QueryFails
  cases hreqwr : attempt.publicationData reqwrih with
  | none => simp only [checkForResponseReader, hreqwr, Option.mem_def, reduceCtorEq, false_and, exists_false]
  | some reqwr =>
    cases hid : getUserDataKey parseKeyValue reqwr.qos "clientid".toList with
    | none => simp only [checkForResponseReader, hreqwr, hid, Option.mem_def, reduceCtorEq, false_and, exists_false,
        Option.some.injEq, exists_eq_left', ne_eq, not_true_eq_false]
    | some clientid =>
      have hrds : (checkForResponseReader parseKeyValue attempt reqwrih).2 =
          some (getMatchedEndpoints attempt.matchedSubscriptions []) := by
        simp only [checkForResponseReader, hreqwr, hid, RmwRet.not_code_neg, if_false]
        split <;> rfl
      simp only [hrds, Option.mem_def, Option.some.injEq, exists_eq_left', getMatchedEndpoints_failed_iff, hid, ne_eq,
        reduceCtorEq, not_false_eq_true, true_and]

/-- A failure to get the matches is never noticed. -/
private theorem checkForResponseReader_ne_failure (attempt : ReaderAttempt) :
    (checkForResponseReader parseKeyValue attempt reqwrih).1 ≠ .failure := by
  unfold checkForResponseReader
  split
  · exact ClientPresent.noConfusion
  · split
    · exact ClientPresent.noConfusion
    · simp only [RmwRet.not_code_neg, if_false]
      split <;> exact ClientPresent.noConfusion

/-- The attempts made: the last one gives the state, and those before it have not found the client's reader. -/
private theorem awaitResponseReader_cases (first : ReaderAttempt) (later : List ReaderAttempt) : ∃ before attempt,
    awaitResponseReader parseKeyValue reqwrih first later =
      ((checkForResponseReader parseKeyValue attempt reqwrih).1,before ++ [attempt]) := by
  induction later generalizing first with
  | nil => exact ⟨[],first,rfl⟩
  | cons next later ih =>
    rw [awaitResponseReader]
    split
    · obtain ⟨before,attempt,hend⟩ := ih next
      rw [hend]
      exact ⟨first :: before,attempt,rfl⟩
    · exact ⟨[],first,rfl⟩

/-- An attempt is made if all before it find only that the client's reader is not matched. -/
private theorem awaitResponseReader_made_iff (first : ReaderAttempt) (later before : List ReaderAttempt)
    (attempt : ReaderAttempt) :
    before ++ [attempt] <+: (awaitResponseReader parseKeyValue reqwrih first later).2 ↔
      before ++ [attempt] <+: first :: later ∧
        ∀ b ∈ before, (checkForResponseReader parseKeyValue b reqwrih).1 = .maybe := by
  induction later generalizing first before with
  | nil =>
    cases before with
    | nil => simp only [awaitResponseReader, List.nil_append, List.not_mem_nil, false_implies, implies_true, and_true]
    | cons b before =>
      simp only [awaitResponseReader, List.cons_append, List.cons_prefix_cons, List.prefix_nil, List.append_eq_nil_iff,
        List.cons_ne_nil, and_false, false_and]
  | cons next later ih =>
    rw [awaitResponseReader]
    split
    · next hmaybe =>
      cases before with
      | nil => simp only [List.nil_append, List.cons_prefix_cons, List.nil_prefix, and_true, List.not_mem_nil, false_implies,
          implies_true]
      | cons b before =>
        simp only [List.cons_append, List.cons_prefix_cons, ih, List.forall_mem_cons]
        constructor
        · rintro ⟨rfl,hstart,hall⟩
          exact ⟨⟨rfl,hstart⟩,hmaybe,hall⟩
        · rintro ⟨⟨rfl,hstart⟩,_,hall⟩
          exact ⟨rfl,hstart,hall⟩
    · next hnot =>
      cases before with
      | nil => simp only [List.nil_append, List.cons_prefix_cons, List.nil_prefix, and_true, List.not_mem_nil, false_implies,
          implies_true]
      | cons b before =>
        simp only [List.cons_append, List.cons_prefix_cons, List.prefix_nil, List.append_eq_nil_iff, List.cons_ne_nil,
          and_false, false_iff, List.forall_mem_cons]
        rintro ⟨⟨rfl,_⟩,hmaybe,_⟩
        exact hnot hmaybe

private theorem awaitResponseReader_state {first : ReaderAttempt} {later before : List ReaderAttempt}
    {attempt : ReaderAttempt} (h : (awaitResponseReader parseKeyValue reqwrih first later).2 = before ++ [attempt]) :
    (awaitResponseReader parseKeyValue reqwrih first later).1 = (checkForResponseReader parseKeyValue attempt reqwrih).1 := by
  obtain ⟨before',attempt',hend⟩ := awaitResponseReader_cases parseKeyValue reqwrih first later
  rw [hend] at h ⊢
  obtain ⟨_,heq⟩ := List.append_inj' h rfl
  cases heq
  rfl

end

section
variable {Data : Type} (host : Endian) (first : ReaderAttempt) (later : List ReaderAttempt) (writes : Bool)
  (requestId : RmwRequestId) (rosResponse : Data)

/-- A failing query goes unnoticed, unless the reader is found all the same and the response cannot be written. -/
def ResponseFailureCovered : Prop :=
  let reqwrih := requestId.reqwrih host
  ∀ before attempt, before ++ [attempt] <+: first :: later →
    (∀ b ∈ before, (checkForResponseReader parseKeyValue b reqwrih).1 = .maybe) →
    attempt.QueryFails parseKeyValue reqwrih →
    (checkForResponseReader parseKeyValue attempt reqwrih).1 = .yes ∧ writes = false

/-- The call fails without publishing if the write fails, or if the check does. -/
private theorem sendResponse_error_iff : rmwSendResponseAwaiting parseKeyValue host first later writes requestId rosResponse =
      (.error,none) ↔
    (awaitResponseReader parseKeyValue (requestId.reqwrih host) first later).1 = .failure ∨
      ((awaitResponseReader parseKeyValue (requestId.reqwrih host) first later).1 = .yes ∧ writes = false) := by
  unfold rmwSendResponseAwaiting rmwSendResponse RmwRequestId.reqwrih
  simp only
  split
  · next h => simp only [h, true_or]
  · next h => simp only [h, reduceCtorEq, false_and, or_self, Prod.mk.injEq]
  · next h => cases writes <;> simp [h]
  · next h => simp only [h, reduceCtorEq, false_and, or_self, Prod.mk.injEq]

private theorem responseFailureReported_iff :
    ResponseFailureReported parseKeyValue host first later writes requestId rosResponse ↔
      ResponseFailureCovered parseKeyValue host first later writes requestId := by
  constructor
  · intro hreported before attempt hstart hmaybe hfails
    obtain ⟨after,hmade⟩ := (awaitResponseReader_made_iff parseKeyValue _ first later before attempt).mpr ⟨hstart,hmaybe⟩
    rw [List.append_assoc] at hmade
    obtain ⟨hresult,rfl⟩ := hreported before attempt after hmade.symm ((attempt_failed_iff parseKeyValue _ attempt).mpr hfails)
    have hstate := awaitResponseReader_state parseKeyValue _ hmade.symm
    rcases (sendResponse_error_iff parseKeyValue host first later writes requestId rosResponse).mp hresult with hfailure | hyes
    · exact absurd (hstate.symm.trans hfailure) (checkForResponseReader_ne_failure parseKeyValue _ attempt)
    · exact ⟨hstate.symm.trans hyes.1,hyes.2⟩
  · intro hcovered before attempt after hmade hfailed
    have hstart : before ++ [attempt] <+: (awaitResponseReader parseKeyValue (requestId.reqwrih host) first later).2 :=
      ⟨after,by rw [hmade, List.append_assoc]; rfl⟩
    obtain ⟨hattempts,hmaybe⟩ := (awaitResponseReader_made_iff parseKeyValue _ first later before attempt).mp hstart
    obtain ⟨hyes,hwrites⟩ := hcovered before attempt hattempts hmaybe ((attempt_failed_iff parseKeyValue _ attempt).mp hfailed)
    have hlast : after = [] := by
      cases after with
      | nil => rfl
      | cons next after =>
        have hnext : (before ++ [attempt]) ++ [next] <+:
            (awaitResponseReader parseKeyValue (requestId.reqwrih host) first later).2 :=
          ⟨after,by rw [hmade, List.append_assoc, List.append_assoc]; rfl⟩
        obtain ⟨_,hall⟩ := (awaitResponseReader_made_iff parseKeyValue _ first later _ next).mp hnext
        have hretried := hall attempt (List.mem_append_right before (List.mem_singleton_self attempt))
        rw [hyes] at hretried
        cases hretried
    subst hlast
    refine ⟨?_,rfl⟩
    rw [sendResponse_error_iff, awaitResponseReader_state parseKeyValue _ hmade]
    exact .inr ⟨hyes,hwrites⟩

end

end

/-- A query that fails is reported by neither call, except where something else fails too: the graph cache, or the write
of a response whose client was found in what the vector had been filled with. -/
theorem failedQueries_reported_iff (parseKeyValue : List Byte → Text → Option (List Byte)) :
    (∀ d : ServerDiscovery, d.FailureReported parseKeyValue ↔ (d.QueryFails → d.CountFails)) ∧
    ∀ (Data : Type) (host : Endian) (first : ReaderAttempt) (later : List ReaderAttempt) (writes : Bool)
      (requestId : RmwRequestId) (rosResponse : Data),
      ResponseFailureReported parseKeyValue host first later writes requestId rosResponse ↔
        ResponseFailureCovered parseKeyValue host first later writes requestId :=
  ⟨fun d => d.failureReported_iff parseKeyValue,fun _ => responseFailureReported_iff parseKeyValue⟩

/-- No reader is matched and the second query for readers fails, when a writer is: the service is available. And a client
that is matched counts as not matched yet in both attempts, when the query for its reader fails. -/
theorem failed_query_unreported :
    let parseKeyValue : List Byte → Text → Option (List Byte) := fun _ key => if key = "clientid".toList then some [49] else none
    let client : ClientDiscovery := ⟨fun i => if i = 0 then some ⟨[],by decide⟩ else none,fun _ => some ⟨[7],by decide⟩,
      fun _ => none,fun _ => some ⟨some ⟨none⟩⟩⟩
    let d : ServerDiscovery := ⟨fun _ => some "rq/addRequest".toList,fun _ => some "rr/addReply".toList,fun _ => (.ok,1),
      fun _ => (.ok,1),client⟩
    let userdata : List Byte := [99,108,105,101,110,116,105,100,61,49,59]
    let attempt : ReaderAttempt := ⟨fun _ => some ⟨some ⟨some userdata⟩⟩,fun _ => none,fun _ => none⟩
    let requestId : RmwRequestId := ⟨List.replicate 16 1,1⟩
    ((rmwServiceServerIsAvailable parseKeyValue d).ret = .ok ∧ (rmwServiceServerIsAvailable parseKeyValue d).isAvailable = true ∧
      ¬d.FailureReported parseKeyValue) ∧
    rmwSendResponseAwaiting parseKeyValue .little attempt [attempt] true requestId 42 = (.timeout,none) ∧
      ¬ResponseFailureReported parseKeyValue .little attempt [attempt] true requestId 42 := by
  intro parseKeyValue client d userdata attempt requestId
  have hrds : getMatchedEndpoints client.matchedSubscriptions [] = ⟨.error,List.replicate 128 0,2⟩ := by
    rw [getMatchedEndpoints, matchedEndpointsLoop]
    show matchedEndpointsLoop client.matchedSubscriptions (List.replicate 128 0) 1 = _
    rw [matchedEndpointsLoop]
    rfl
  obtain ⟨last,hwrs⟩ : ∃ last, getMatchedEndpoints client.matchedPublications [] = ⟨.ok,[7],last + 1⟩ :=
    getMatchedEndpoints_complete fun _ => ⟨[7],by decide⟩
  have hresult : rmwServiceServerIsAvailable parseKeyValue d = ⟨.ok,true,⟨.ok,"rq/addRequest".toList,1⟩,
      some ⟨.ok,"rr/addReply".toList,1⟩,some ⟨.ok,true,⟨.error,List.replicate 128 0,2⟩,some ⟨.ok,[7],last + 1⟩⟩⟩ := by
    obtain ⟨isAvailable,hcheck,hpair⟩ := checkForServiceReaderWriter_eq parseKeyValue client
    simp only [hrds, hwrs] at hcheck hpair
    obtain rfl : isAvailable = true :=
      hpair.mpr (.inr ⟨fun _ _ => rfl,List.ne_nil_of_length_pos (List.length_replicate ▸ Nat.succ_pos 127),List.cons_ne_nil _ _⟩)
    show (let check := checkForServiceReaderWriter parseKeyValue client false
      (⟨check.ret,check.isAvailable,_,_,some check⟩ : ServerAvailable)) = _
    rw [hcheck]
    rfl
  have hattempt : getMatchedEndpoints attempt.matchedSubscriptions [] = ⟨.error,[],1⟩ := by
    rw [getMatchedEndpoints, matchedEndpointsLoop]
  have hcheck : checkForResponseReader parseKeyValue attempt (requestId.reqwrih .little) = (.maybe,some ⟨.error,[],1⟩) := by
    simp only [checkForResponseReader, hattempt]
    rfl
  have hsent : rmwSendResponseAwaiting parseKeyValue .little attempt [attempt] true requestId 42 = (.timeout,none) := by
    have hstate : (awaitResponseReader parseKeyValue (requestId.reqwrih .little) attempt [attempt]).1 = .maybe := by
      simp only [awaitResponseReader, hcheck]
    unfold rmwSendResponseAwaiting rmwSendResponse
    unfold RmwRequestId.reqwrih at hstate
    simp only [hstate]
  refine ⟨⟨?_,?_,?_⟩,hsent,?_⟩
  · rw [hresult]
  · rw [hresult]
  · intro hreported
    have hfailed := hreported (by
      rw [hresult]
      exact .inr (.inr ⟨_,rfl,.inl ⟨1,Nat.one_lt_two,rfl⟩⟩))
    rw [hresult] at hfailed
    cases hfailed.1
  · intro hreported
    have hmade : (awaitResponseReader parseKeyValue (requestId.reqwrih .little) attempt [attempt]).2 = [attempt,attempt] := by
      simp only [awaitResponseReader, hcheck]
    have hfailed := hreported [] attempt [attempt] hmade (by
      rw [ReaderAttempt.QueryFailed, hcheck]
      exact ⟨_,rfl,0,Nat.one_pos,rfl⟩)
    rw [hsent] at hfailed
    cases hfailed.1

end RmwCyclonedds
