import RmwCyclonedds.Node.Services

/-! What a client sees of the responses to other clients. -/
namespace RmwCyclonedds
open Library

/-- What `dds_take` comes to in a reader: a sample, or one that cannot be decoded, with the id in it if it is
long enough for one, and with what decoding it makes of the caller's response. -/
inductive Queued (Data : Type) where
  | sample (m : Sample Data)
  | undecodable (guid : Option InstanceHandle) (spoils : Data → Data)

/-- A response to the client with a handle. -/
def Sample.addressedTo {Data : Type} (pubiid : InstanceHandle) (m : Sample Data) : Bool :=
  m.content.any fun wrap => wrap.header.guid = pubiid

namespace Queued
variable {Data : Type}

/-- A response to somebody else. -/
def foreignTo (pubiid : InstanceHandle) : Queued Data → Bool
  | .sample m => m.content.any fun wrap => wrap.header.guid ≠ pubiid
  | .undecodable guid _ => guid.any fun guid => guid ≠ pubiid

def Decodes : Queued Data → Prop
  | .sample _ => True
  | .undecodable _ _ => False

theorem not_foreign_of_addressed {pubiid : InstanceHandle} {m : Sample Data} (h : m.addressedTo pubiid = true) :
    (sample m).foreignTo pubiid = false := by
  cases hc : m.content with
  | none => simp only [foreignTo, hc, Option.any_none]
  | some wrap =>
    simp only [Sample.addressedTo, hc, Option.any_some, decide_eq_true_eq] at h
    simp only [foreignTo, hc, Option.any_some, h, ne_eq, not_true_eq_false, decide_false]

end Queued

section
variable {Data : Type} (host : Endian) (publicationHandle : Nat → InstanceHandle) (pubiid : InstanceHandle)

/-- `rmw_take_response` with the caller's buffers: the taken flag, and the buffers as they are left. The loop
ends where `dds_take` fails. -/
def rmwTakeResponseInto : List (Queued Data) → RmwServiceInfo → Data → Bool × RmwServiceInfo × Data
  | [], requestHeader, rosResponse => (false,requestHeader,rosResponse)
  | .undecodable _ spoils :: _, requestHeader, rosResponse => (false,requestHeader,spoils rosResponse)
  | .sample m :: samples, requestHeader, rosResponse =>
    match m.content with
    | none => rmwTakeResponseInto samples requestHeader rosResponse
    | some wrap =>
      let requestId := ⟨writerGuid host wrap.header.guid (publicationHandle m.number),wrap.header.seq⟩
      let requestHeader := ⟨m.sourceTimestamp,requestId⟩
      if pubiid = 0 ∨ pubiid = wrap.header.guid then (true,requestHeader,wrap.data)
      else rmwTakeResponseInto samples requestHeader wrap.data

/-- Queues that differ only in responses to others, of the kind that is allowed, give the same, and a client that takes
nothing gets nothing. -/
def ForeignInvisible (allowed : Queued Data → Prop) (samples : List (Queued Data)) (requestHeader : RmwServiceInfo)
    (rosResponse : Data) : Prop :=
  let into (samples : List (Queued Data)) := rmwTakeResponseInto host publicationHandle pubiid samples requestHeader rosResponse
  (∀ other, (∀ m ∈ other, m.foreignTo pubiid = true → allowed m) →
    (other.filter fun m => !m.foreignTo pubiid) = (samples.filter fun m => !m.foreignTo pubiid) →
      into other = into samples) ∧
  ((into samples).1 = false → (into samples).2 = (requestHeader,rosResponse))

/-- A response to the client is queued, with nothing in front of it that cannot be decoded. -/
def ReachesOwn (samples : List (Queued Data)) : Prop :=
  ∃ front m rest, samples = front ++ .sample m :: rest ∧ m.addressedTo pubiid = true ∧ ∀ k ∈ front, k.Decodes

/-- What a sample with data leaves in the buffers. -/
def described (m : Sample Data) (wrap : CddsRequestWrapper Data) : RmwServiceInfo × Data :=
  (⟨m.sourceTimestamp,⟨writerGuid host wrap.header.guid (publicationHandle m.number),wrap.header.seq⟩⟩,wrap.data)

/-! ### The buffers of the caller -/

/-- What was in the output before shows only where no sample has data. -/
private theorem takeResponseRequest_output (samples : List (Sample Data)) (x : RmwServiceInfo × Data) :
    rmwTakeResponseRequest host publicationHandle pubiid samples (some x) =
      let result := rmwTakeResponseRequest host publicationHandle pubiid samples none
      ⟨result.taken,some (result.output.getD x),result.rest⟩ := by
  induction samples generalizing x with
  | nil => rfl
  | cons m samples ih =>
    cases hc : m.content with
    | none =>
      simp only [rmwTakeResponseRequest, hc]
      exact ih x
    | some wrap =>
      simp only [rmwTakeResponseRequest, hc]
      split
      · rfl
      · rw [ih]
        rfl

/-- Where all samples can be decoded, the buffers hold what `rmw_take_response` gives; where none has data they keep
what they held. -/
theorem rmwTakeResponseInto_eq (samples : List (Sample Data)) (requestHeader : RmwServiceInfo) (rosResponse : Data) :
    rmwTakeResponseInto host publicationHandle pubiid (samples.map .sample) requestHeader rosResponse =
      let result := rmwTakeResponse host publicationHandle pubiid samples
      (result.taken.isSome,result.output.getD (requestHeader,rosResponse)) := by
  induction samples generalizing requestHeader rosResponse with
  | nil => rfl
  | cons m samples ih =>
    cases hc : m.content with
    | none =>
      simp only [List.map_cons, rmwTakeResponseInto, rmwTakeResponse, rmwTakeResponseRequest, hc]
      exact ih requestHeader rosResponse
    | some wrap =>
      simp only [List.map_cons, rmwTakeResponseInto, rmwTakeResponse, rmwTakeResponseRequest, hc]
      split
      · rfl
      · rw [takeResponseRequest_output]
        exact ih _ wrap.data

/-! ### Queues with and without a response for the client -/

/-- The response to the client that the loop gets to. -/
private def firstOwn : List (Queued Data) → Option (Sample Data)
  | [] => none
  | .undecodable _ _ :: _ => none
  | .sample m :: samples => if m.addressedTo pubiid then some m else firstOwn samples

variable {host publicationHandle pubiid}

private theorem firstOwn_of_reaches {samples : List (Queued Data)} (h : ReachesOwn pubiid samples) :
    ∃ m, firstOwn pubiid samples = some m := by
  obtain ⟨front,m,rest,rfl,hm,hfront⟩ := h
  induction front with
  | nil => exact ⟨m,if_pos hm⟩
  | cons k front ih =>
    obtain ⟨hk,hrest⟩ := List.forall_mem_cons.mp hfront
    cases k with
    | undecodable guid spoils => exact absurd hk id
    | sample k =>
      rw [List.cons_append, firstOwn]
      split
      · exact ⟨k,rfl⟩
      · exact ih hrest

private theorem reaches_cons {k : Queued Data} {samples : List (Queued Data)} (hk : k.Decodes)
    (h : ReachesOwn pubiid samples) : ReachesOwn pubiid (k :: samples) := by
  obtain ⟨front,m,rest,rfl,hm,hfront⟩ := h
  exact ⟨k :: front,m,rest,rfl,hm,List.forall_mem_cons.mpr ⟨hk,hfront⟩⟩

variable (host publicationHandle) in
/-- That response is taken, whatever is in front of it. -/
private theorem into_of_firstOwn (valid : pubiid ≠ 0) {samples : List (Queued Data)} {m : Sample Data}
    (h : firstOwn pubiid samples = some m) : ∃ wrap, m.content = some wrap ∧ ∀ requestHeader rosResponse,
      rmwTakeResponseInto host publicationHandle pubiid samples requestHeader rosResponse =
        (true,described host publicationHandle m wrap) := by
  induction samples with
  | nil => cases h
  | cons k samples ih =>
    cases k with
    | undecodable guid spoils => cases h
    | sample k =>
      rw [firstOwn] at h
      cases hc : k.content with
      | none =>
        have hno : k.addressedTo pubiid = false := by simp only [Sample.addressedTo, hc, Option.any_none]
        rw [hno] at h
        obtain ⟨wrap,hwrap,hinto⟩ := ih h
        refine ⟨wrap,hwrap,fun requestHeader rosResponse => ?_⟩
        simp only [rmwTakeResponseInto, hc]
        exact hinto requestHeader rosResponse
      | some wrap =>
        by_cases hguid : wrap.header.guid = pubiid
        · have hyes : k.addressedTo pubiid = true := by
            simp only [Sample.addressedTo, hc, Option.any_some, hguid, decide_true]
          rw [hyes] at h
          cases h
          refine ⟨wrap,hc,fun requestHeader rosResponse => ?_⟩
          simp only [rmwTakeResponseInto, hc, hguid, or_true, if_true]
          rw [described, hguid]
        · have hno : k.addressedTo pubiid = false := by
            simp only [Sample.addressedTo, hc, Option.any_some, hguid, decide_false]
          rw [hno] at h
          obtain ⟨wrap',hwrap',hinto⟩ := ih h
          refine ⟨wrap',hwrap',fun requestHeader rosResponse => ?_⟩
          simp only [rmwTakeResponseInto, hc, valid, Ne.symm hguid, or_self, if_false]
          exact hinto _ _

/-- Responses to others do not come between, if they can be decoded. -/
private theorem firstOwn_filter {samples : List (Queued Data)}
    (h : ∀ m ∈ samples, m.foreignTo pubiid = true → m.Decodes) :
    firstOwn pubiid (samples.filter fun m => !m.foreignTo pubiid) = firstOwn pubiid samples := by
  induction samples with
  | nil => rfl
  | cons k samples ih =>
    obtain ⟨hk,hrest⟩ := List.forall_mem_cons.mp h
    cases hforeign : k.foreignTo pubiid with
    | false =>
      rw [List.filter_cons_of_pos (by rw [hforeign]; rfl)]
      cases k with
      | undecodable guid spoils => rfl
      | sample k => rw [firstOwn, firstOwn, ih hrest]
    | true =>
      rw [List.filter_cons_of_neg (by rw [hforeign]; decide), ih hrest]
      cases k with
      | undecodable guid spoils => exact absurd (hk hforeign) id
      | sample k =>
        have hno : k.addressedTo pubiid = false := by
          by_contra haddressed
          have hown := Queued.not_foreign_of_addressed (Bool.of_not_eq_false haddressed)
          rw [hforeign] at hown
          cases hown
        rw [firstOwn, hno]
        rfl

/-- Where none is taken, there is a place at which a response to somebody else stays in the header. -/
private theorem exists_place (valid : pubiid ≠ 0) {samples : List (Queued Data)} (h : ¬ReachesOwn pubiid samples)
    (m : Sample Data) {wrap : CddsRequestWrapper Data} (hm : m.content = some wrap) (hguid : wrap.header.guid ≠ pubiid) :
    ∃ front rest, samples = front ++ rest ∧ ∀ requestHeader rosResponse,
      (rmwTakeResponseInto host publicationHandle pubiid (front ++ .sample m :: rest) requestHeader rosResponse).2.1 =
        (described host publicationHandle m wrap).1 := by
  have hstays : ∀ {rest : List (Queued Data)}, rest = [] ∨ (∃ guid spoils rest', rest = .undecodable guid spoils :: rest') →
      ∀ requestHeader rosResponse, (rmwTakeResponseInto host publicationHandle pubiid (.sample m :: rest) requestHeader
        rosResponse).2.1 = (described host publicationHandle m wrap).1 := by
    rintro rest (rfl | ⟨_,_,_,rfl⟩) requestHeader rosResponse <;>
      simp only [rmwTakeResponseInto, hm, valid, Ne.symm hguid, or_self, if_false] <;>
      rfl
  induction samples with
  | nil => exact ⟨[],[],rfl,hstays (.inl rfl)⟩
  | cons k samples ih =>
    cases k with
    | undecodable guid spoils => exact ⟨[],_,rfl,hstays (.inr ⟨_,_,_,rfl⟩)⟩
    | sample k =>
      obtain ⟨front,rest,rfl,hinto⟩ := ih fun hreaches => h (reaches_cons True.intro hreaches)
      refine ⟨.sample k :: front,rest,rfl,fun requestHeader rosResponse => ?_⟩
      cases hc : k.content with
      | none =>
        simp only [List.cons_append, rmwTakeResponseInto, hc]
        exact hinto requestHeader rosResponse
      | some wrap' =>
        have hother : wrap'.header.guid ≠ pubiid := by
          intro hguid'
          refine h ⟨[],k,front ++ rest,rfl,?_,fun _ hmem => nomatch hmem⟩
          simp only [Sample.addressedTo, hc, Option.any_some, hguid', decide_true]
        simp only [List.cons_append, rmwTakeResponseInto, hc, valid, Ne.symm hother, or_self, if_false]
        exact hinto _ _

private theorem invisible_of_reaches (valid : pubiid ≠ 0) {samples : List (Queued Data)}
    (hdecodes : ∀ m ∈ samples, m.foreignTo pubiid = true → m.Decodes) (h : ReachesOwn pubiid samples)
    (requestHeader : RmwServiceInfo) (rosResponse : Data) :
    ForeignInvisible host publicationHandle pubiid Queued.Decodes samples requestHeader rosResponse := by
  obtain ⟨m,hm⟩ := firstOwn_of_reaches h
  obtain ⟨wrap,hwrap,hinto⟩ := into_of_firstOwn host publicationHandle valid hm
  constructor
  · intro other hallowed hother
    have hm' : firstOwn pubiid other = some m := by
      rw [← firstOwn_filter hallowed, hother, firstOwn_filter hdecodes, hm]
    obtain ⟨wrap',hwrap',hinto'⟩ := into_of_firstOwn host publicationHandle valid hm'
    cases hwrap.symm.trans hwrap'
    exact (hinto' requestHeader rosResponse).trans (hinto requestHeader rosResponse).symm
  · intro hno
    simp only [hinto requestHeader rosResponse] at hno
    cases hno

/-- A response to somebody else with another sequence number shows in the header. -/
private theorem visible_of_not_reaches (valid : pubiid ≠ 0) {allowed : Queued Data → Prop} (hallow : ∀ m, allowed (.sample m))
    {samples : List (Queued Data)} (hallowed : ∀ m ∈ samples, m.foreignTo pubiid = true → allowed m)
    (h : ¬ReachesOwn pubiid samples) (requestHeader : RmwServiceInfo) (rosResponse : Data) :
    ¬ForeignInvisible host publicationHandle pubiid allowed samples requestHeader rosResponse := by
  rintro ⟨hsame,_⟩
  let before := (rmwTakeResponseInto host publicationHandle pubiid samples requestHeader rosResponse).2.1
  let wrap : CddsRequestWrapper Data := ⟨⟨pubiid + 1,before.requestId.sequenceNumber + 1⟩,rosResponse⟩
  let m : Sample Data := ⟨some wrap,0,0⟩
  have hguid : wrap.header.guid ≠ pubiid := by
    show pubiid + 1 ≠ pubiid
    bv_omega
  have hforeign : (Queued.sample m).foreignTo pubiid = true := decide_eq_true hguid
  obtain ⟨front,rest,rfl,hinto⟩ := exists_place valid h m rfl hguid
  have hfilter : ((front ++ .sample m :: rest).filter fun m => !m.foreignTo pubiid) =
      (front ++ rest).filter fun m => !m.foreignTo pubiid := by
    rw [List.filter_append, List.filter_append, List.filter_cons_of_neg (by rw [hforeign]; decide)]
  have hadded : ∀ k ∈ front ++ .sample m :: rest, k.foreignTo pubiid = true → allowed k := by
    intro k hk hkforeign
    rcases List.mem_append.mp hk with hk | hk
    · exact hallowed k (List.mem_append_left _ hk) hkforeign
    · rcases List.mem_cons.mp hk with rfl | hk
      · exact hallow m
      · exact hallowed k (List.mem_append_right _ hk) hkforeign
  have heq := congrArg (fun r => r.2.1.requestId.sequenceNumber) (hsame _ hadded hfilter)
  have hseq : before.requestId.sequenceNumber + 1 = before.requestId.sequenceNumber :=
    (congrArg (fun header => header.requestId.sequenceNumber) (hinto requestHeader rosResponse)).symm.trans heq
  omega

/-- A response to somebody else that cannot be decoded hides what is behind it. -/
private theorem visible_of_undecodable (valid : pubiid ≠ 0) {samples : List (Queued Data)} (h : ReachesOwn pubiid samples)
    (requestHeader : RmwServiceInfo) (rosResponse : Data) :
    ¬ForeignInvisible host publicationHandle pubiid (fun _ => True) samples requestHeader rosResponse := by
  rintro ⟨hsame,_⟩
  obtain ⟨m,hm⟩ := firstOwn_of_reaches h
  obtain ⟨_,_,hinto⟩ := into_of_firstOwn host publicationHandle valid hm
  let k : Queued Data := .undecodable (some (pubiid + 1)) id
  have hforeign : k.foreignTo pubiid = true := by
    have hguid : pubiid + 1 ≠ pubiid := by bv_omega
    exact decide_eq_true hguid
  have hfilter : ((k :: samples).filter fun m => !m.foreignTo pubiid) = samples.filter fun m => !m.foreignTo pubiid :=
    List.filter_cons_of_neg (by rw [hforeign]; decide)
  have htaken : (rmwTakeResponseInto host publicationHandle pubiid (k :: samples) requestHeader rosResponse).1 =
      (rmwTakeResponseInto host publicationHandle pubiid samples requestHeader rosResponse).1 :=
    congrArg Prod.fst (hsame (k :: samples) (fun _ _ _ => True.intro) hfilter)
  rw [hinto] at htaken
  cases htaken

end

/-- Responses to other clients are never invisible to a client. Among those that can be decoded they are if one for the
client is queued, with nothing in front of it that cannot be decoded. -/
theorem foreignInvisible_iff {Client Service Process Response : Type} (d : Deployment Client Service Process) (c : Client)
    (samples : List (Queued Response)) (requestHeader : RmwServiceInfo) (rosResponse : Response) :
    ¬ForeignInvisible (d.host (d.clientProcess c)) (d.responseWriter c) (d.pubiid c) (fun _ => True) samples requestHeader
      rosResponse ∧
    ((∀ m ∈ samples, m.foreignTo (d.pubiid c) = true → m.Decodes) →
      (ForeignInvisible (d.host (d.clientProcess c)) (d.responseWriter c) (d.pubiid c) Queued.Decodes samples requestHeader
        rosResponse ↔ ReachesOwn (d.pubiid c) samples)) := by
  constructor
  · by_cases h : ReachesOwn (d.pubiid c) samples
    · exact visible_of_undecodable (d.valid c) h requestHeader rosResponse
    · exact visible_of_not_reaches (d.valid c) (fun _ => True.intro) (fun _ _ _ => True.intro) h requestHeader rosResponse
  · intro hdecodes
    constructor
    · intro hinvisible
      by_contra h
      exact visible_of_not_reaches (d.valid c) (fun _ => True.intro) hdecodes h requestHeader rosResponse hinvisible
    · exact fun h => invisible_of_reaches (d.valid c) hdecodes h requestHeader rosResponse

/-- A client with handle 7 finds a response to the client with handle 9: it takes nothing, and both buffers are changed.
One that cannot be decoded keeps it from the response behind it. -/
theorem foreign_response_visible : let caller : RmwServiceInfo := ⟨0,⟨[],0⟩⟩
    let into (samples : List (Queued Nat)) := rmwTakeResponseInto .little (fun _ => 3) 7 samples caller 0
    let foreign : Queued Nat := .sample ⟨some ⟨⟨9,5⟩,42⟩,0,100⟩
    let own : Queued Nat := .sample ⟨some ⟨⟨7,5⟩,42⟩,0,100⟩
    into [] = (false,caller,0) ∧
      into [foreign] = (false,⟨100,⟨[9,0,0,0,0,0,0,0,3,0,0,0,0,0,0,0],5⟩⟩,42) ∧
      into [own] = (true,⟨100,⟨[7,0,0,0,0,0,0,0,3,0,0,0,0,0,0,0],5⟩⟩,42) ∧
      into [.undecodable (some 9) id,own] = (false,caller,0) ∧
      ¬ForeignInvisible .little (fun _ => 3) 7 (fun _ => True) [foreign] caller 0 := by
  refine ⟨rfl,rfl,rfl,rfl,fun h => ?_⟩
  cases h.2 rfl

end RmwCyclonedds
