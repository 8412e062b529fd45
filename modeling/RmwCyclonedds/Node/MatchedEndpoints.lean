import Mathlib.Data.List.TakeDrop
import RmwCyclonedds.Bytewise
import RmwCyclonedds.Node.Services

/-! The matched readers and writers of a client, and whether its service is available. -/
namespace RmwCyclonedds
open Library

/-- The handles of all endpoints matched at some time; their number is an `int32_t`. -/
abbrev Matches := {handles : List InstanceHandle // handles.length < 2 ^ 31}

/-- An answer of `dds_get_matched_subscriptions` or `dds_get_matched_publications`; a failure is `none`. -/
abbrev MatchAnswer := Option Matches

namespace Matches

/-- The caller's array after the call: what there is no room for is left out. -/
def fill (handles : Matches) (res : List InstanceHandle) : List InstanceHandle :=
  handles.val.take res.length ++ res.drop handles.val.length

@[simp] theorem length_fill (handles : Matches) (res : List InstanceHandle) : (handles.fill res).length = res.length := by
  simp only [fill, List.length_append, List.length_take, List.length_drop]
  omega

/-- An array with room for everything starts with the whole answer. -/
theorem take_fill {handles : Matches} {res : List InstanceHandle} (h : handles.val.length < res.length) :
    (handles.fill res).takeD handles.val.length 0 = handles.val := by
  rw [List.takeD_eq_take 0 (by rw [length_fill]; omega), fill, List.take_of_length_le h.le, List.take_left]

end Matches

/-- The vector and the number of the queries made, beside the result. -/
structure MatchedEndpoints where
  ret : RmwRet
  res : List InstanceHandle
  queries : Nat

/-- The next query: an answer that leaves no room in the vector is asked for again. -/
def matchedEndpointsLoop (fn : Nat → MatchAnswer) (res : List InstanceHandle) (queries : Nat) : MatchedEndpoints :=
  match fn queries with
  | none => ⟨.error,res,queries + 1⟩
  | some handles =>
    if handles.val.length ≥ res.length then
      -- 128 is a margin for matches that are created in parallel
      matchedEndpointsLoop fn ((handles.fill res).takeD (handles.val.length + 128) 0) (queries + 1)
    else ⟨.ok,(handles.fill res).takeD handles.val.length 0,queries + 1⟩
termination_by 2 ^ 31 - res.length
decreasing_by
  have _hlt := handles.property
  rw [List.takeD_length]
  omega

/-- `fn` gives the answers in the order of the queries. -/
def getMatchedEndpoints (fn : Nat → MatchAnswer) (res : List InstanceHandle) : MatchedEndpoints :=
  matchedEndpointsLoop fn res 0

/-- The QoS of a discovered endpoint, as far as it is read. -/
structure EndpointQos where
  userdata : Option (List Byte)

structure BuiltinTopicEndpoint where
  qos : Option EndpointQos

section
variable (parseKeyValue : List Byte → Text → Option (List Byte))

/-- The map from keys to values; without user data it is empty. -/
def parseUserData (qos : EndpointQos) (key : Text) : Option (List Byte) :=
  match qos.userdata with
  | some ud => parseKeyValue ud key
  | none => none

def getUserDataKey (qos : Option EndpointQos) (key : Text) : Option (List Byte) :=
  match qos with
  | some qos => parseUserData parseKeyValue qos key
  | none => none

/-- The service id in the data of an endpoint, which may be gone. -/
def endpointServiceid (ep : Option BuiltinTopicEndpoint) : Option (List Byte) :=
  match ep with
  | some ep => getUserDataKey parseKeyValue ep.qos "serviceid".toList
  | none => none

/-- The discovery of a client: the answers to its queries, and the data of what is matched. -/
structure ClientDiscovery where
  matchedSubscriptions : Nat → MatchAnswer
  matchedPublications : Nat → MatchAnswer
  subscriptionData : InstanceHandle → Option BuiltinTopicEndpoint
  publicationData : InstanceHandle → Option BuiltinTopicEndpoint

/-- The result and `*is_available`, with the vectors and the numbers of queries. -/
structure ServiceCheck where
  ret : RmwRet
  isAvailable : Bool
  rds : MatchedEndpoints
  wrs : Option MatchedEndpoints

def checkForServiceReaderWriter (client : ClientDiscovery) (isAvailable : Bool) : ServiceCheck :=
  let rds := getMatchedEndpoints client.matchedSubscriptions []
  if rds.ret.code < 0 then ⟨.error,isAvailable,rds,none⟩ else
  let wrs := getMatchedEndpoints client.matchedPublications []
  if wrs.ret.code < 0 then ⟨.error,isAvailable,rds,some wrs⟩ else
  let needles := rds.res.filterMap fun rdih => endpointServiceid parseKeyValue (client.subscriptionData rdih)
  if needles.isEmpty then ⟨.ok,!rds.res.isEmpty && !wrs.res.isEmpty,rds,some wrs⟩
  else
    let found := wrs.res.any fun wrih =>
      match endpointServiceid parseKeyValue (client.publicationData wrih) with
      | some serviceid => needles.contains serviceid
      | none => false
    ⟨.ok,isAvailable || found,rds,some wrs⟩

end

/-! ### Growing the vector -/

/-- The room that a query finds in a vector that was empty at the start. -/
def matchedRoom (fn : Nat → MatchAnswer) : Nat → Nat
  | 0 => 0
  | i + 1 => match fn i with
    | some handles => handles.val.length + 128
    | none => 0

/-- An answer for which there is no room. -/
def MatchesOutgrow (fn : Nat → MatchAnswer) (i : Nat) : Prop :=
  ∃ handles, fn i = some handles ∧ matchedRoom fn i ≤ handles.val.length

/-- The queries go on to one that fails, or to one that leaves room: then the vector holds its whole answer. -/
private theorem matchedEndpointsLoop_cases (fn : Nat → MatchAnswer) (res : List InstanceHandle) (queries : Nat)
    (hres : res.length = matchedRoom fn queries) :
    ∃ last, (∀ i, queries ≤ i → i < last → MatchesOutgrow fn i) ∧ queries ≤ last ∧
      ((∃ handles, fn last = some handles ∧ handles.val.length < matchedRoom fn last ∧
          matchedEndpointsLoop fn res queries = ⟨.ok,handles.val,last + 1⟩) ∨
        (fn last = none ∧ ∃ partly, matchedEndpointsLoop fn res queries = ⟨.error,partly,last + 1⟩)) := by
  induction res, queries using matchedEndpointsLoop.induct fn with
  | case1 res queries hfail =>
    refine ⟨queries,fun i hi hlt => absurd hlt hi.not_gt,Nat.le_refl _,.inr ⟨hfail,res,?_⟩⟩
    rw [matchedEndpointsLoop, hfail]
  | case2 res queries handles hanswer hge ih =>
    have hnext : matchedRoom fn (queries + 1) = handles.val.length + 128 := by rw [matchedRoom, hanswer]
    obtain ⟨last,hbefore,hle,hend⟩ := ih (by rw [List.takeD_length, hnext])
    have hstep : matchedEndpointsLoop fn res queries =
        matchedEndpointsLoop fn ((handles.fill res).takeD (handles.val.length + 128) 0) (queries + 1) := by
      rw [matchedEndpointsLoop, hanswer]
      exact if_pos hge
    rw [hstep]
    refine ⟨last,?_,Nat.le_of_succ_le hle,hend⟩
    intro i hi hlt
    rcases hi.eq_or_lt with rfl | hi
    · exact ⟨handles,hanswer,hres ▸ hge⟩
    · exact hbefore i hi hlt
  | case3 res queries handles hanswer hroom =>
    have hlt : handles.val.length < res.length := Nat.lt_of_not_le hroom
    refine ⟨queries,fun i hi hlt => absurd hlt hi.not_gt,Nat.le_refl _,.inl ⟨handles,hanswer,hres ▸ hlt,?_⟩⟩
    rw [matchedEndpointsLoop, hanswer]
    simp only [if_neg hroom, Matches.take_fill hlt]

/-- The queries for an empty vector: answers that outgrow it, and the last one. -/
theorem getMatchedEndpoints_cases (fn : Nat → MatchAnswer) : ∃ last, (∀ i < last, MatchesOutgrow fn i) ∧
    ((∃ handles, fn last = some handles ∧ handles.val.length < matchedRoom fn last ∧
        getMatchedEndpoints fn [] = ⟨.ok,handles.val,last + 1⟩) ∨
      (fn last = none ∧ ∃ partly, getMatchedEndpoints fn [] = ⟨.error,partly,last + 1⟩)) := by
  obtain ⟨last,hbefore,_,hend⟩ := matchedEndpointsLoop_cases fn [] 0 rfl
  exact ⟨last,fun i hi => hbefore i (Nat.zero_le i) hi,hend⟩

/-- Where all queries succeed the vector holds the answer of the last one. -/
theorem getMatchedEndpoints_complete (answers : Nat → Matches) : ∃ last,
    getMatchedEndpoints (fun i => some (answers i)) [] = ⟨.ok,(answers last).val,last + 1⟩ := by
  obtain ⟨last,_,⟨handles,hanswer,_,hend⟩ | ⟨hfail,_⟩⟩ := getMatchedEndpoints_cases fun i => some (answers i)
  · cases hanswer
    exact ⟨last,hend⟩
  · cases hfail

/-! ### Pairs of readers and writers -/

section
variable (parseKeyValue : List Byte → Text → Option (List Byte)) (client : ClientDiscovery)

/-- The service ids of the readers and the writers that are matched. -/
def ClientDiscovery.readerServiceid (rdih : InstanceHandle) : Option (List Byte) :=
  endpointServiceid parseKeyValue (client.subscriptionData rdih)

def ClientDiscovery.writerServiceid (wrih : InstanceHandle) : Option (List Byte) :=
  endpointServiceid parseKeyValue (client.publicationData wrih)

/-- A service whose reader and writer are both matched; or readers and writers of services without ids. -/
def ClientDiscovery.HasPair (rds wrs : List InstanceHandle) : Prop :=
  (∃ rdih ∈ rds, ∃ wrih ∈ wrs, ∃ serviceid,
    client.readerServiceid parseKeyValue rdih = some serviceid ∧ client.writerServiceid parseKeyValue wrih = some serviceid) ∨
  ((∀ rdih ∈ rds, client.readerServiceid parseKeyValue rdih = none) ∧ rds ≠ [] ∧ wrs ≠ [])

variable {parseKeyValue client}

/-- With needles a pair is a writer that has one of them. -/
private theorem hasPair_of_needles {rds wrs : List InstanceHandle}
    (h : (rds.filterMap (client.readerServiceid parseKeyValue)).isEmpty = false) :
    (wrs.any fun wrih => match client.writerServiceid parseKeyValue wrih with
      | some serviceid => (rds.filterMap (client.readerServiceid parseKeyValue)).contains serviceid
      | none => false) = true ↔ client.HasPair parseKeyValue rds wrs := by
  rw [List.any_eq_true]
  constructor
  · rintro ⟨wrih,hwr,hneedle⟩
    cases hid : client.writerServiceid parseKeyValue wrih with
    | none =>
      rw [hid] at hneedle
      cases hneedle
    | some serviceid =>
      rw [hid] at hneedle
      obtain ⟨rdih,hrd,heq⟩ := List.mem_filterMap.mp (List.contains_iff_mem.mp hneedle)
      exact .inl ⟨rdih,hrd,wrih,hwr,serviceid,heq,hid⟩
  · rintro (⟨rdih,hrd,wrih,hwr,serviceid,heq,hid⟩ | ⟨hnone,_,_⟩)
    · refine ⟨wrih,hwr,?_⟩
      rw [hid]
      exact List.contains_iff_mem.mpr (List.mem_filterMap.mpr ⟨rdih,hrd,heq⟩)
    · rw [List.filterMap_eq_nil_iff.mpr hnone] at h
      cases h

/-- Without needles it is a matter of both being matched. -/
private theorem hasPair_of_no_needles {rds wrs : List InstanceHandle}
    (h : (rds.filterMap (client.readerServiceid parseKeyValue)).isEmpty = true) :
    (!rds.isEmpty && !wrs.isEmpty) = true ↔ client.HasPair parseKeyValue rds wrs := by
  have hnone := List.filterMap_eq_nil_iff.mp (List.isEmpty_iff.mp h)
  have hboth : (!rds.isEmpty && !wrs.isEmpty) = true ↔ rds ≠ [] ∧ wrs ≠ [] := by
    rw [Bool.and_eq_true, Bool.not_eq_true', Bool.not_eq_true', List.isEmpty_eq_false_iff, List.isEmpty_eq_false_iff]
  rw [hboth]
  constructor
  · exact fun h => .inr ⟨hnone,h⟩
  · rintro (⟨rdih,hrd,_,_,serviceid,heq,_⟩ | ⟨_,h⟩)
    · rw [hnone rdih hrd] at heq
      cases heq
    · exact h

variable (parseKeyValue client) in
/-- The answer comes from what the vectors hold in the end: no return code of the queries is negative. -/
theorem checkForServiceReaderWriter_eq : let rds := getMatchedEndpoints client.matchedSubscriptions []
    let wrs := getMatchedEndpoints client.matchedPublications []
    ∃ isAvailable, checkForServiceReaderWriter parseKeyValue client false = ⟨.ok,isAvailable,rds,some wrs⟩ ∧
      (isAvailable = true ↔ client.HasPair parseKeyValue rds.res wrs.res) := by
  simp only [checkForServiceReaderWriter, RmwRet.not_code_neg, if_false]
  split
  · next h => exact ⟨_,rfl,hasPair_of_no_needles h⟩
  · next h => exact ⟨_,rfl,hasPair_of_needles (Bool.not_eq_true _ ▸ h)⟩

end

/-- Whatever the queries answer while matches come and go, the vectors hold the two last answers, and the service is
available if these have a pair. -/
theorem checkForServiceReaderWriter_complete (parseKeyValue : List Byte → Text → Option (List Byte))
    (readers writers : Nat → Matches) (subscriptionData publicationData : InstanceHandle → Option BuiltinTopicEndpoint) :
    let client : ClientDiscovery := ⟨fun i => some (readers i),fun i => some (writers i),subscriptionData,publicationData⟩
    let check := checkForServiceReaderWriter parseKeyValue client false
    ∃ i j, check.rds = ⟨.ok,(readers i).val,i + 1⟩ ∧ check.wrs = some ⟨.ok,(writers j).val,j + 1⟩ ∧ check.ret = .ok ∧
      (check.isAvailable = true ↔ client.HasPair parseKeyValue (readers i).val (writers j).val) := by
  intro client check
  obtain ⟨i,hreaders⟩ := getMatchedEndpoints_complete readers
  obtain ⟨j,hwriters⟩ := getMatchedEndpoints_complete writers
  obtain ⟨isAvailable,hcheck,hpair⟩ := checkForServiceReaderWriter_eq parseKeyValue client
  simp only [client, hreaders, hwriters] at hcheck hpair
  have hend : check = ⟨.ok,isAvailable,⟨.ok,(readers i).val,i + 1⟩,some ⟨.ok,(writers j).val,j + 1⟩⟩ := hcheck
  rw [hend]
  exact ⟨i,j,rfl,rfl,rfl,hpair⟩

end RmwCyclonedds
