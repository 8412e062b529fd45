import RmwCyclonedds.Bytewise
import RmwCyclonedds.Library.Runs
import RmwCyclonedds.Node.Events
import Mathlib.Data.Fintype.Card

/-! The domains of a process, and the contexts whose participants keep them. -/
namespace RmwCyclonedds
open Library

inductive AutomaticDiscoveryRange where
  | notSet
  | off
  | localhost
  | subnet
  | systemDefault
  deriving DecidableEq

structure DiscoveryOptions where
  automaticDiscoveryRange : AutomaticDiscoveryRange
  staticPeers : List Text
  deriving DecidableEq

/-- The counts are of contexts of one process and do not wrap. -/
structure CddsDomain where
  discoveryOptions : DiscoveryOptions
  refcount : Nat
  /-- Whether the handle is that of a domain. -/
  domainHandle : Bool

def CddsDomain.initial : CddsDomain := ⟨⟨.notSet,[]⟩,0,false⟩

/-- What the implementation keeps for a context. -/
structure ContextImpl where
  domainId : Nat
  ppant : Bool
  nodeCount : Nat
  pub : Bool
  sub : Bool
  graphGuardCondition : Bool

def ContextImpl.initial : ContextImpl := ⟨uint32Max,false,0,false,false,false⟩

/-- The steps of `init` behind `check_create_domain`. -/
inductive InitStep where
  | ppantQos
  | security
  | ppant
  | rdParticipant
  | rdSubscription
  | rdPublication
  | ddsPub
  | ddsSub
  | commonPub
  | commonSub
  | graphGuardCondition
  | discoveryThread
  deriving DecidableEq

/-- The outcomes of what `init` calls. -/
structure InitEnvironment where
  /-- `rmw_discovery_options_equal`, which may fail. -/
  discoveryOptionsEqual : DiscoveryOptions → DiscoveryOptions → Option Bool
  pid : Nat
  /-- The value of `CYCLONEDDS_URI`, if it can be read. -/
  uri : Option Text
  createDomain : Nat → Text → Bool
  fails : InitStep → Bool

/-- `rmw_init` sends the default domain to 0 and lets no other id from `UINT32_MAX` on through. -/
def actualDomainId (optionsDomainId : Nat) : Option Nat :=
  if optionsDomainId ≥ uint32Max ∧ optionsDomainId ≠ sizeMax then none
  else some (if optionsDomainId ≠ sizeMax then optionsDomainId else 0)

/-! ### The configuration of a domain -/

/-- Whether to add localhost as a peer, whether to add the static peers, and whether to disable multicast. -/
def AutomaticDiscoveryRange.settings : AutomaticDiscoveryRange → Bool × Bool × Bool
  | .notSet => (false,false,false)
  | .subnet => (false,true,false)
  | .systemDefault => (false,false,false)
  | .localhost => (true,true,true)
  | .off => (false,false,true)

def domainConfig (pid : Nat) (options : DiscoveryOptions) : Text :=
  let (addLocalhostAsStaticPeer,addStaticPeers,disableMulticast) := options.automaticDiscoveryRange.settings
  if addLocalhostAsStaticPeer || addStaticPeers || disableMulticast then
    let general := if disableMulticast then "<General><AllowMulticast>false</AllowMulticast></General>".toList else []
    let discoveryOff := disableMulticast && !addLocalhostAsStaticPeer && !addStaticPeers
    let discovery :=
      if discoveryOff then
        "<Discovery><ParticipantIndex>none</ParticipantIndex>".toList ++ "<Tag>ros_discovery_off_".toList ++
          (toString pid).toList ++ "</Tag>".toList
      else
        "<Discovery><ParticipantIndex>auto</ParticipantIndex>".toList ++
          "<MaxAutoParticipantIndex>32</MaxAutoParticipantIndex>".toList
    let peers :=
      if (addStaticPeers && options.staticPeers.length > 0) || addLocalhostAsStaticPeer then
        "<Peers>".toList ++ (if addLocalhostAsStaticPeer then "<Peer address=\"localhost\"/>".toList else []) ++
          options.staticPeers.flatMap (fun peer => "<Peer address=\"".toList ++ peer ++ "\"/>".toList) ++ "</Peers>".toList
      else []
    "<CycloneDDS><Domain>".toList ++ general ++ discovery ++ peers ++ "</Discovery></Domain></CycloneDDS>,".toList
  else []

/-! ### Domains and contexts -/

/-- The domains that `gcdds()` knows, the DDS domains made for them, and the contexts. -/
structure Cdds (Context : Type) where
  domains : Nat → Option CddsDomain
  ddsDomains : Nat → Bool
  contexts : Context → ContextImpl

namespace Cdds
variable {Context : Type} [DecidableEq Context]

def initial : Cdds Context := ⟨fun _ => none,fun _ => false,fun _ => .initial⟩

def setDomain (g : Cdds Context) (did : Nat) (dom : Option CddsDomain) : Cdds Context :=
  {g with domains := Function.update g.domains did dom}

def setContext (g : Cdds Context) (c : Context) (impl : ContextImpl) : Cdds Context :=
  {g with contexts := Function.update g.contexts c impl}

def checkCreateDomain (env : InitEnvironment) (g : Cdds Context) (did : Nat) (options : DiscoveryOptions) :
    Bool × Cdds Context :=
  let dom := (g.domains did).getD .initial
  if dom.refcount ≠ 0 then
    match env.discoveryOptionsEqual options dom.discoveryOptions with
    | none => (false,g.setDomain did dom)
    | some true => (true,g.setDomain did (some {dom with refcount := dom.refcount + 1}))
    | some false => (false,g.setDomain did dom)
  else
    let g := g.setDomain did (some {dom with refcount := 1, discoveryOptions := options})
    match options.automaticDiscoveryRange with
    | .notSet => (false,g)
    | _ =>
      match env.uri with
      | none => (false,g.setDomain did none)
      | some uri =>
        if env.createDomain did (domainConfig env.pid options ++ uri) then
          (true,{g.setDomain did (some ⟨options,1,true⟩) with ddsDomains := Function.update g.ddsDomains did true})
        else (false,g.setDomain did none)

/-- The source asserts that the count is positive; without assertions it wraps around. -/
def checkDestroyDomain (g : Cdds Context) (domainId : Nat) : Cdds Context :=
  if domainId = uint32Max then g
  else
    let dom := (g.domains domainId).getD .initial
    let refcount := if dom.refcount = 0 then uint32Max else dom.refcount - 1
    if refcount = 0 then
      {g.setDomain domainId none with
        ddsDomains := if dom.domainHandle then Function.update g.ddsDomains domainId false else g.ddsDomains}
    else g.setDomain domainId (some {dom with refcount := refcount})

def cleanUp (g : Cdds Context) (c : Context) : Cdds Context :=
  let impl := g.contexts c
  (g.setContext c {impl with graphGuardCondition := false, pub := false, sub := false, ppant := false}).checkDestroyDomain
    impl.domainId

end Cdds

namespace InitStep

/-- What `init` returns when the step fails. -/
def error : InitStep → RmwRet
  | ppantQos | graphGuardCondition => .badAlloc
  | _ => .error

/-- What the step leaves in the context. -/
def done : InitStep → ContextImpl → ContextImpl
  | ppant, impl => {impl with ppant := true}
  | commonPub, impl => {impl with pub := true}
  | commonSub, impl => {impl with sub := true}
  | graphGuardCondition, impl => {impl with graphGuardCondition := true}
  | _, impl => impl

/-- The steps in the order of the source. -/
def all : List InitStep :=
  [ppantQos,security,ppant,rdParticipant,rdSubscription,rdPublication,ddsPub,ddsSub,commonPub,commonSub,graphGuardCondition,
    discoveryThread]

end InitStep

namespace Cdds
variable {Context : Type} [DecidableEq Context]

/-- Without security, only an enforcing context gives up. -/
def gives (env : InitEnvironment) (enforceSecurity : Bool) (step : InitStep) : Bool :=
  env.fails step && (step != .security || enforceSecurity)

def initSteps (env : InitEnvironment) (enforceSecurity : Bool) (c : Context) :
    List InitStep → Cdds Context → RmwRet × Cdds Context
  | [], g => (.ok,g.setContext c {g.contexts c with nodeCount := (g.contexts c).nodeCount + 1})
  | step :: steps, g =>
    if gives env enforceSecurity step then (step.error,g.cleanUp c)
    else initSteps env enforceSecurity c steps (g.setContext c (step.done (g.contexts c)))

def init (env : InitEnvironment) (enforceSecurity : Bool) (options : DiscoveryOptions) (g : Cdds Context) (c : Context)
    (domainId : Nat) : RmwRet × Cdds Context :=
  let impl := g.contexts c
  if impl.nodeCount ≠ 0 then (.ok,g.setContext c {impl with nodeCount := impl.nodeCount + 1})
  else
    let did := domainId % 2 ^ 32
    let (created,g) := (g.setContext c {impl with domainId := did}).checkCreateDomain env did options
    if created then initSteps env enforceSecurity c InitStep.all g else (.error,g)

def fini (g : Cdds Context) (c : Context) : Cdds Context :=
  let impl := g.contexts c
  let g := g.setContext c {impl with nodeCount := impl.nodeCount - 1}
  if impl.nodeCount - 1 ≠ 0 then g else g.cleanUp c

/-! ### Counting contexts -/

def refcount (g : Cdds Context) (did : Nat) : Nat := ((g.domains did).map CddsDomain.refcount).getD 0

@[simp] theorem setContext_self (g : Cdds Context) (c : Context) (impl : ContextImpl) :
    (g.setContext c impl).contexts c = impl := by
  simp only [setContext, Function.update_self]

theorem setContext_of_ne (g : Cdds Context) {c c' : Context} (h : c' ≠ c) (impl : ContextImpl) :
    (g.setContext c impl).contexts c' = g.contexts c' := by
  simp only [setContext, Function.update_of_ne h]

@[simp] theorem refcount_setContext (g : Cdds Context) (c : Context) (impl : ContextImpl) (did : Nat) :
    (g.setContext c impl).refcount did = g.refcount did := rfl

omit [DecidableEq Context] in
theorem refcount_setDomain (g : Cdds Context) (did : Nat) (dom : Option CddsDomain) (did' : Nat) :
    (g.setDomain did dom).refcount did' = if did' = did then (dom.map CddsDomain.refcount).getD 0 else g.refcount did' := by
  by_cases h : did' = did
  · subst h
    simp only [refcount, setDomain, Function.update_self, if_true]
  · simp only [refcount, setDomain, Function.update_of_ne h, if_neg h]

omit [DecidableEq Context] in
private theorem handle_setDomain {g : Cdds Context} {did : Nat} {o : Option CddsDomain}
    (h : ∀ did dom, g.domains did = some dom → dom.domainHandle = true) (ho : ∀ dom, o = some dom → dom.domainHandle = true) :
    ∀ did' dom, (g.setDomain did o).domains did' = some dom → dom.domainHandle = true := by
  intro did' dom hd
  by_cases he : did' = did
  · subst he
    simp only [setDomain, Function.update_self] at hd
    exact ho dom hd
  · simp only [setDomain, Function.update_of_ne he] at hd
    exact h did' dom hd

omit [DecidableEq Context] in
private theorem exists_domain {g : Cdds Context} {did : Nat} (h : g.refcount did ≠ 0) :
    ∃ dom, g.domains did = some dom ∧ dom.refcount = g.refcount did := by
  unfold refcount at h ⊢
  cases hd : g.domains did with
  | none =>
    rw [hd] at h
    exact absurd rfl h
  | some dom => exact ⟨dom,rfl,rfl⟩

omit [DecidableEq Context] in
private theorem checkDestroyDomain_eq {g : Cdds Context} {did : Nat} {dom : CddsDomain} (hv : did ≠ uint32Max)
    (hd : g.domains did = some dom) (hpos : dom.refcount ≠ 0) (hh : dom.domainHandle = true) :
    g.checkDestroyDomain did =
      if dom.refcount = 1 then {g.setDomain did none with ddsDomains := Function.update g.ddsDomains did false}
      else g.setDomain did (some {dom with refcount := dom.refcount - 1}) := by
  rw [checkDestroyDomain, if_neg hv, hd]
  simp only [Option.getD_some, if_neg hpos, hh, if_true]
  by_cases h1 : dom.refcount = 1
  · rw [if_pos h1, if_pos (by omega)]
  · rw [if_neg h1, if_neg (by omega)]

variable [Fintype Context]

/-- The contexts with a live participant in a domain. -/
def live (g : Cdds Context) (did : Nat) : Finset Context :=
  Finset.univ.filter fun c => (g.contexts c).ppant = true ∧ (g.contexts c).domainId = did

/-- Every count is the number of contexts with a participant, and the counted domains exist. -/
def Consistent (g : Cdds Context) : Prop :=
  ∀ did, g.refcount did = (g.live did).card ∧ (g.refcount did ≠ 0 ↔ g.ddsDomains did = true)

/-- The contexts other than one with a live participant in a domain. -/
def others (g : Cdds Context) (c : Context) (did : Nat) : Finset Context := (g.live did).erase c

private theorem card_live (g : Cdds Context) (c : Context) (did : Nat) : (g.live did).card = (g.others c did).card +
    if (g.contexts c).ppant = true ∧ (g.contexts c).domainId = did then 1 else 0 := by
  by_cases h : (g.contexts c).ppant = true ∧ (g.contexts c).domainId = did
  · rw [if_pos h, others]
    exact (Finset.card_erase_add_one (Finset.mem_filter.mpr ⟨Finset.mem_univ c,h⟩)).symm
  · have hnot : c ∉ g.live did := fun hm => h (Finset.mem_filter.mp hm).2
    rw [if_neg h, others, Finset.erase_eq_of_notMem hnot, Nat.add_zero]

private theorem others_congr {g g' : Cdds Context} {c : Context} (h : ∀ c' ≠ c, g'.contexts c' = g.contexts c') (did : Nat) :
    g'.others c did = g.others c did := by
  ext c'
  simp only [others, live, Finset.mem_erase, Finset.mem_filter, Finset.mem_univ, true_and]
  constructor
  · rintro ⟨hne,hl⟩
    rw [h c' hne] at hl
    exact ⟨hne,hl⟩
  · rintro ⟨hne,hl⟩
    rw [← h c' hne] at hl
    exact ⟨hne,hl⟩

/-- A context has a participant, in a proper domain, while nodes use it. -/
def ContextOk (impl : ContextImpl) : Prop :=
  (impl.ppant = true ↔ impl.nodeCount ≠ 0) ∧ (impl.ppant = true → impl.domainId ≠ uint32Max)

/-- What holds between two calls. -/
structure Settled (g : Cdds Context) : Prop where
  consistent : g.Consistent
  handle : ∀ did dom, g.domains did = some dom → dom.domainHandle = true
  context : ∀ c, ContextOk (g.contexts c)

/-- What holds while a context without nodes holds its domain: the counts are as if it had its participant. -/
structure Held (g : Cdds Context) (c : Context) : Prop where
  valid : (g.contexts c).domainId ≠ uint32Max
  unused : (g.contexts c).nodeCount = 0
  count : ∀ did, g.refcount did = (g.others c did).card + if (g.contexts c).domainId = did then 1 else 0
  exist : ∀ did, g.refcount did ≠ 0 ↔ g.ddsDomains did = true
  handle : ∀ did dom, g.domains did = some dom → dom.domainHandle = true
  context : ∀ c' ≠ c, ContextOk (g.contexts c')

private theorem Held.setContext {g : Cdds Context} {c : Context} (h : Held g c) (impl : ContextImpl)
    (hid : impl.domainId = (g.contexts c).domainId) (hn : impl.nodeCount = 0) : Held (g.setContext c impl) c := by
  refine ⟨?_,?_,?_,h.exist,h.handle,?_⟩
  · rw [setContext_self, hid]
    exact h.valid
  · rw [setContext_self, hn]
  · intro did
    rw [refcount_setContext, others_congr fun c' hne => g.setContext_of_ne hne impl, setContext_self, hid]
    exact h.count did
  · intro c' hne
    rw [setContext_of_ne g hne]
    exact h.context c' hne

/-- With its participant and a node a context that holds its domain is counted. -/
private theorem Held.settled {g : Cdds Context} {c : Context} (h : Held g c) (hp : (g.contexts c).ppant = true) :
    Settled (g.setContext c {g.contexts c with nodeCount := (g.contexts c).nodeCount + 1}) := by
  refine ⟨?_,h.handle,?_⟩
  · intro did
    refine ⟨?_,h.exist did⟩
    rw [refcount_setContext, h.count, card_live _ c, others_congr fun c' hne => g.setContext_of_ne hne _, setContext_self]
    simp only [hp, true_and]
  · intro c'
    by_cases hne : c' = c
    · subst hne
      rw [setContext_self]
      exact ⟨⟨fun _ => Nat.succ_ne_zero _,fun _ => hp⟩,fun _ => h.valid⟩
    · rw [setContext_of_ne g hne]
      exact h.context c' hne

/-- Without its participant a context is not counted. -/
private theorem Held.released {g g' : Cdds Context} {c : Context} (h : Held g c) (hp : (g.contexts c).ppant = false)
    (hc : g'.contexts = g.contexts) (hr : ∀ did, g'.refcount did = (g.others c did).card)
    (he : ∀ did, g'.refcount did ≠ 0 ↔ g'.ddsDomains did = true)
    (hh : ∀ did dom, g'.domains did = some dom → dom.domainHandle = true) : Settled g' := by
  have hself : (g'.contexts c).ppant = false := by rw [hc, hp]
  refine ⟨?_,hh,?_⟩
  · intro did
    refine ⟨?_,he did⟩
    rw [hr, card_live g' c, others_congr (fun c' _ => congrFun hc c')]
    simp only [hself, Bool.false_eq_true, false_and, if_false, Nat.add_zero]
  · intro c'
    rw [hc]
    by_cases hne : c' = c
    · subst hne
      refine ⟨⟨fun ht => ?_,fun hn => absurd h.unused hn⟩,fun ht => ?_⟩
      · rw [hp] at ht
        cases ht
      · rw [hp] at ht
        cases ht
    · exact h.context c' hne

/-- The entry of a held domain that is given back counts the other contexts. -/
private theorem Held.recounted {g : Cdds Context} {c : Context} (h : Held g c) (hp : (g.contexts c).ppant = false)
    {o : Option CddsDomain} {ddsDomains : Nat → Bool}
    (hcount : (o.map CddsDomain.refcount).getD 0 = (g.others c (g.contexts c).domainId).card)
    (hothers : ∀ did ≠ (g.contexts c).domainId, ddsDomains did = g.ddsDomains did)
    (hexist : (o.map CddsDomain.refcount).getD 0 ≠ 0 ↔ ddsDomains (g.contexts c).domainId = true)
    (hhandle : ∀ dom, o = some dom → dom.domainHandle = true) :
    Settled {g.setDomain (g.contexts c).domainId o with ddsDomains} := by
  apply h.released hp
  · rfl
  · intro did
    show (g.setDomain _ o).refcount did = _
    rw [refcount_setDomain]
    split
    · next he => rw [he, hcount]
    · next he => rw [h.count, if_neg (Ne.symm he), Nat.add_zero]
  · intro did
    show (g.setDomain _ o).refcount did ≠ 0 ↔ ddsDomains did = true
    rw [refcount_setDomain]
    by_cases he : did = (g.contexts c).domainId
    · rw [if_pos he, he]
      exact hexist
    · rw [if_neg he, hothers did he]
      exact h.exist did
  · exact handle_setDomain h.handle hhandle

/-- Giving a held domain back leaves the counts of the other contexts. -/
private theorem Held.destroyed {g : Cdds Context} {c : Context} (h : Held g c) (hp : (g.contexts c).ppant = false) :
    Settled (g.checkDestroyDomain (g.contexts c).domainId) := by
  have hcount := h.count (g.contexts c).domainId
  rw [if_pos rfl] at hcount
  have hne : g.refcount (g.contexts c).domainId ≠ 0 := by omega
  obtain ⟨dom,hd,hr⟩ := exists_domain hne
  rw [checkDestroyDomain_eq h.valid hd (by omega) (h.handle _ _ hd)]
  split
  · next h1 =>
    apply h.recounted hp
    · show 0 = _
      omega
    · intro did he
      exact Function.update_of_ne he _ _
    · rw [Function.update_self]
      exact iff_of_false (not_not.mpr rfl) Bool.false_ne_true
    · exact nofun
  · next h1 =>
    apply h.recounted hp
    · show dom.refcount - 1 = _
      omega
    · exact fun did he => rfl
    · show dom.refcount - 1 ≠ 0 ↔ _
      exact iff_of_true (by omega) ((h.exist _).mp hne)
    · intro dom' hd'
      cases hd'
      exact h.handle _ dom hd

private theorem Held.cleanUp_settled {g : Cdds Context} {c : Context} (h : Held g c) : Settled (g.cleanUp c) := by
  have hdone := Held.destroyed (h.setContext
    {g.contexts c with graphGuardCondition := false, pub := false, sub := false, ppant := false} rfl h.unused)
    (by rw [setContext_self])
  rw [setContext_self] at hdone
  exact hdone

/-! ### Creating a domain -/

omit [DecidableEq Context] [Fintype Context] in
private theorem refcount_initial {g : Cdds Context} {did : Nat} : ((g.domains did).getD .initial).refcount = g.refcount did := by
  rw [refcount]
  cases g.domains did <;> rfl

omit [DecidableEq Context] [Fintype Context] in
private theorem checkCreateDomain_used {g : Cdds Context} {did : Nat} {dom : CddsDomain} (hd : g.domains did = some dom)
    (hpos : dom.refcount ≠ 0) (env : InitEnvironment) (options : DiscoveryOptions) :
    g.checkCreateDomain env did options = match env.discoveryOptionsEqual options dom.discoveryOptions with
      | some true => (true,g.setDomain did (some {dom with refcount := dom.refcount + 1}))
      | _ => (false,g.setDomain did (some dom)) := by
  rw [checkCreateDomain, hd]
  simp only [Option.getD_some, ne_eq, hpos, not_false_eq_true, if_true]
  cases env.discoveryOptionsEqual options dom.discoveryOptions with
  | none => rfl
  | some b => cases b <;> rfl

omit [DecidableEq Context] [Fintype Context] in
/-- A domain that does not exist yet is created, is not accepted, or loses its entry again. -/
private theorem checkCreateDomain_unused {g : Cdds Context} {did : Nat} (h : g.refcount did = 0) (env : InitEnvironment)
    (options : DiscoveryOptions) :
    (options.automaticDiscoveryRange = .notSet ∧ ∃ dom, dom.refcount = 1 ∧
      g.checkCreateDomain env did options = (false,g.setDomain did (some dom))) ∨
    (options.automaticDiscoveryRange ≠ .notSet ∧ g.checkCreateDomain env did options = (false,g.setDomain did none)) ∨
    (options.automaticDiscoveryRange ≠ .notSet ∧ g.checkCreateDomain env did options =
      (true,{g.setDomain did (some ⟨options,1,true⟩) with ddsDomains := Function.update g.ddsDomains did true})) := by
  have hnot : ¬((g.domains did).getD .initial).refcount ≠ 0 := by rw [refcount_initial, h]; exact not_not.mpr rfl
  have herase : ∀ o, (g.setDomain did o).setDomain did none = g.setDomain did none := by
    intro o
    simp only [setDomain, Function.update_idem]
  rw [checkCreateDomain]
  simp only [if_neg hnot]
  by_cases hr : options.automaticDiscoveryRange = .notSet
  · rw [hr]
    exact .inl ⟨rfl,_,rfl,rfl⟩
  · refine .inr ?_
    have hmatch : ∀ {α : Type} (x y : α), (match options.automaticDiscoveryRange with
        | .notSet => x
        | _ => y) = y := by
      intro α x y
      cases ho : options.automaticDiscoveryRange <;> first | rfl | exact absurd ho hr
    rw [hmatch]
    cases hu : env.uri with
    | none => exact .inl ⟨hr,by simp only [herase]⟩
    | some uri =>
      by_cases hc : env.createDomain did (domainConfig env.pid options ++ uri) = true
      · refine .inr ⟨hr,?_⟩
        simp only [hc, if_true]
        simp only [setDomain, Function.update_idem]
      · refine .inl ⟨hr,?_⟩
        simp only [hc, Bool.false_eq_true, if_false, herase]

/-- The counts of one domain have grown, and nothing else has. -/
structure Grown (g g' : Cdds Context) (did n : Nat) : Prop where
  contexts : g'.contexts = g.contexts
  refcount : ∀ did', g'.refcount did' = g.refcount did' + if did' = did then n else 0
  exist : (∀ did', g.refcount did' ≠ 0 ↔ g.ddsDomains did' = true) →
    ∀ did', g'.refcount did' ≠ 0 ↔ g'.ddsDomains did' = true
  handle : (∀ did' dom, g.domains did' = some dom → dom.domainHandle = true) →
    ∀ did' dom, g'.domains did' = some dom → dom.domainHandle = true

omit [DecidableEq Context] [Fintype Context] in
private theorem refcount_same {g : Cdds Context} {did : Nat} {o : Option CddsDomain}
    (h : (o.map CddsDomain.refcount).getD 0 = g.refcount did) (did' : Nat) :
    (g.setDomain did o).refcount did' = g.refcount did' := by
  rw [refcount_setDomain, h]
  split
  · next he => rw [he]
  · rfl

omit [DecidableEq Context] [Fintype Context] in
private theorem Grown.same {g : Cdds Context} {did : Nat} {o : Option CddsDomain}
    (h : (o.map CddsDomain.refcount).getD 0 = g.refcount did)
    (ho : ∀ dom, o = some dom → ∃ did', g.domains did' = some dom) : Grown g (g.setDomain did o) did 0 where
  contexts := rfl
  refcount did' := by rw [refcount_same h, ite_self, Nat.add_zero]
  exist he did' := by
    rw [refcount_same h]
    exact he did'
  handle hh := by
    apply handle_setDomain hh
    intro dom hd
    obtain ⟨did',hdom⟩ := ho dom hd
    exact hh did' dom hdom

omit [DecidableEq Context] [Fintype Context] in
/-- An entry that counts one more, of a domain that exists from now on. -/
private theorem Grown.counted {g : Cdds Context} {did : Nat} {dom : CddsDomain} {ddsDomains : Nat → Bool}
    (hr : dom.refcount = g.refcount did + 1) (hothers : ∀ did' ≠ did, ddsDomains did' = g.ddsDomains did')
    (hexist : (∀ did', g.refcount did' ≠ 0 ↔ g.ddsDomains did' = true) → ddsDomains did = true)
    (hhandle : (∀ did' dom, g.domains did' = some dom → dom.domainHandle = true) → dom.domainHandle = true) :
    Grown g {g.setDomain did (some dom) with ddsDomains} did 1 := by
  have hcount : ∀ did', (g.setDomain did (some dom)).refcount did' = g.refcount did' + if did' = did then 1 else 0 := by
    intro did'
    rw [refcount_setDomain]
    split
    · next he => rw [he, ← hr]; rfl
    · rfl
  refine ⟨rfl,hcount,fun hsame did' => ?_,fun hh => ?_⟩
  · show (g.setDomain did (some dom)).refcount did' ≠ 0 ↔ ddsDomains did' = true
    rw [hcount]
    by_cases he : did' = did
    · subst he
      rw [if_pos rfl]
      exact iff_of_true (Nat.succ_ne_zero _) (hexist hsame)
    · rw [if_neg he, hothers did' he]
      exact hsame did'
  · apply handle_setDomain hh
    intro dom' hd
    cases hd
    exact hhandle hh

omit [DecidableEq Context] [Fintype Context] in
private theorem grown_of_created {g g' : Cdds Context} {env : InitEnvironment} {options : DiscoveryOptions} {did : Nat}
    (h : g.checkCreateDomain env did options = (true,g')) : Grown g g' did 1 := by
  by_cases hz : g.refcount did = 0
  · rcases checkCreateDomain_unused hz env options with ⟨-,dom,-,he⟩ | ⟨-,he⟩ | ⟨-,he⟩
    · rw [he] at h
      cases h
    · rw [he] at h
      cases h
    · rw [he] at h
      cases h
      apply Grown.counted
      · rw [hz]
      · exact fun did' hne => Function.update_of_ne hne _ _
      · exact fun _ => Function.update_self _ _ _
      · exact fun _ => rfl
  · obtain ⟨dom,hd,hr⟩ := exists_domain hz
    rw [checkCreateDomain_used hd (by omega)] at h
    split at h
    · cases h
      apply Grown.counted
      · rw [← hr]
      · exact fun did' _ => rfl
      · exact fun hexist => (hexist did).mp hz
      · exact fun hh => hh did dom hd
    · cases h

omit [DecidableEq Context] [Fintype Context] in
private theorem same_of_not_created {g g' : Cdds Context} {env : InitEnvironment} {options : DiscoveryOptions} {did : Nat}
    (h : g.checkCreateDomain env did options = (false,g'))
    (hset : g.refcount did ≠ 0 ∨ options.automaticDiscoveryRange ≠ .notSet) :
    Grown g g' did 0 ∧ g'.ddsDomains = g.ddsDomains := by
  by_cases hz : g.refcount did = 0
  · rcases checkCreateDomain_unused hz env options with ⟨hr,-⟩ | ⟨-,he⟩ | ⟨-,he⟩
    · exact absurd hr (hset.resolve_left (not_not.mpr hz))
    · rw [he] at h
      cases h
      exact ⟨Grown.same hz.symm nofun,rfl⟩
    · rw [he] at h
      cases h
  · obtain ⟨dom,hd,hr⟩ := exists_domain hz
    rw [checkCreateDomain_used hd (by omega)] at h
    split at h
    · cases h
    · cases h
      exact ⟨Grown.same hr fun dom' he => ⟨did,by rw [hd, he]⟩,rfl⟩

omit [DecidableEq Context] [Fintype Context] in
/-- A refused domain leaves the counts and the domains alone, except that without a discovery range a
domain not yet in use is counted. -/
theorem checkCreateDomain_harmless_iff (env : InitEnvironment) (g : Cdds Context) (did : Nat) (options : DiscoveryOptions) :
    ((g.checkCreateDomain env did options).1 = false →
      (∀ did', (g.checkCreateDomain env did options).2.refcount did' = g.refcount did') ∧
      (g.checkCreateDomain env did options).2.ddsDomains = g.ddsDomains) ↔
    g.refcount did ≠ 0 ∨ options.automaticDiscoveryRange ≠ .notSet := by
  constructor
  · intro h
    by_contra hc
    rw [not_or, not_not, not_not] at hc
    rcases checkCreateDomain_unused hc.1 env options with ⟨-,dom,hdom,he⟩ | ⟨hr,-⟩ | ⟨hr,-⟩
    · rw [he] at h
      have hcount := (h rfl).1 did
      rw [refcount_setDomain, if_pos rfl, hc.1] at hcount
      exact absurd (hdom.symm.trans hcount) Nat.one_ne_zero
    · exact hr hc.2
    · exact hr hc.2
  · intro hset hfalse
    have h : Grown g (g.checkCreateDomain env did options).2 did 0 ∧
        (g.checkCreateDomain env did options).2.ddsDomains = g.ddsDomains :=
      same_of_not_created (Prod.ext hfalse rfl) hset
    refine ⟨fun did' => ?_,h.2⟩
    rw [h.1.refcount, ite_self, Nat.add_zero]

/-! ### Calls -/

private theorem initSteps_settled {env : InitEnvironment} {enforceSecurity : Bool} {c : Context} {steps : List InitStep}
    {g : Cdds Context} (h : Held g c) (hp : (g.contexts c).ppant = true ∨ .ppant ∈ steps) :
    Settled (initSteps env enforceSecurity c steps g).2 := by
  induction steps generalizing g with
  | nil => exact h.settled (hp.resolve_right List.not_mem_nil)
  | cons step steps ih =>
    rw [initSteps]
    split
    · exact h.cleanUp_settled
    · have hid : (step.done (g.contexts c)).domainId = (g.contexts c).domainId := by cases step <;> rfl
      have hn : (step.done (g.contexts c)).nodeCount = 0 := by
        rw [← h.unused]
        cases step <;> rfl
      apply ih (h.setContext _ hid hn)
      rw [setContext_self]
      rcases hp with hp | hp
      · exact .inl (by cases step <;> first | exact hp | rfl)
      · rcases List.mem_cons.mp hp with rfl | hp
        · exact .inl rfl
        · exact .inr hp

private theorem Settled.setContext {g : Cdds Context} (h : Settled g) {c : Context} {impl : ContextImpl}
    (hok : ContextOk impl) (hp : impl.ppant = (g.contexts c).ppant)
    (hid : impl.ppant = true → impl.domainId = (g.contexts c).domainId) : Settled (g.setContext c impl) := by
  refine ⟨?_,h.handle,?_⟩
  · intro did
    refine ⟨?_,(h.consistent did).2⟩
    rw [refcount_setContext, (h.consistent did).1, card_live g c, card_live _ c,
      others_congr fun c' hne => g.setContext_of_ne hne impl, setContext_self, hp]
    by_cases hl : (g.contexts c).ppant = true
    · rw [hid (hp.trans hl)]
    · simp only [hl, Bool.false_eq_true, false_and]
  · intro c'
    by_cases hne : c' = c
    · subst hne
      rw [setContext_self]
      exact hok
    · rw [setContext_of_ne g hne]
      exact h.context c'

private theorem Settled.held {g : Cdds Context} (h : Settled g) {c : Context} (hp : (g.contexts c).ppant = true) :
    Held (g.setContext c {g.contexts c with nodeCount := 0}) c := by
  refine ⟨?_,?_,?_,fun did => (h.consistent did).2,h.handle,?_⟩
  · rw [setContext_self]
    exact (h.context c).2 hp
  · rw [setContext_self]
  · intro did
    rw [refcount_setContext, (h.consistent did).1, card_live g c, others_congr fun c' hne => g.setContext_of_ne hne _,
      setContext_self]
    simp only [hp, true_and]
  · intro c' hne
    rw [setContext_of_ne g hne]
    exact h.context c'

/-- A context whose domain has just been created for it holds the domain. -/
private theorem Grown.held {g g' : Cdds Context} {c : Context} {did : Nat} (hg : Grown g g' did 1) (h : Settled g)
    (hn : (g.contexts c).nodeCount = 0) (hid : (g.contexts c).domainId = did) (hv : did ≠ uint32Max) : Held g' c := by
  have hp : ¬(g.contexts c).ppant = true := fun ht => (h.context c).1.mp ht hn
  refine ⟨?_,?_,?_,hg.exist fun did' => (h.consistent did').2,hg.handle h.handle,?_⟩
  · rw [hg.contexts, hid]
    exact hv
  · rw [hg.contexts, hn]
  · intro did'
    rw [hg.refcount, (h.consistent did').1, card_live g c, others_congr fun c' _ => congrFun hg.contexts c', hg.contexts, hid]
    simp only [hp, Bool.false_eq_true, false_and, if_false, Nat.add_zero, eq_comm]
  · intro c' _
    rw [hg.contexts]
    exact h.context c'

omit [DecidableEq Context] in
private theorem Grown.settled {g g' : Cdds Context} {did : Nat} (hg : Grown g g' did 0) (h : Settled g) : Settled g' := by
  refine ⟨?_,hg.handle h.handle,?_⟩
  · intro did'
    refine ⟨?_,hg.exist (fun d => (h.consistent d).2) did'⟩
    rw [hg.refcount, (h.consistent did').1, live, live, hg.contexts, ite_self, Nat.add_zero]
  · intro c
    rw [hg.contexts]
    exact h.context c

private theorem init_settled {env : InitEnvironment} {enforceSecurity : Bool} {options : DiscoveryOptions}
    {g : Cdds Context} (h : Settled g) {c : Context} {domainId : Nat} (hv : domainId < uint32Max)
    (hset : (g.contexts c).nodeCount ≠ 0 ∨ g.refcount domainId ≠ 0 ∨ options.automaticDiscoveryRange ≠ .notSet) :
    Settled (g.init env enforceSecurity options c domainId).2 := by
  rw [init]
  by_cases hn : (g.contexts c).nodeCount = 0
  · have hmod : domainId % 2 ^ 32 = domainId := by
      rw [uint32Max] at hv
      omega
    have hp : (g.contexts c).ppant = false := by
      rw [← Bool.not_eq_true]
      exact fun ht => (h.context c).1.mp ht hn
    have hplaced : Settled (g.setContext c {g.contexts c with domainId := domainId}) := by
      apply h.setContext
      · refine ⟨(h.context c).1,fun ht => ?_⟩
        rw [hp] at ht
        cases ht
      · rfl
      · intro ht
        rw [hp] at ht
        cases ht
    have hself := g.setContext_self c {g.contexts c with domainId := domainId}
    rw [if_neg (not_not.mpr hn), hmod]
    have hcreated : (g.setContext c {g.contexts c with domainId := domainId}).refcount domainId ≠ 0 ∨
        options.automaticDiscoveryRange ≠ .notSet := hset.resolve_left (not_not.mpr hn)
    show Settled (if ((g.setContext c {g.contexts c with domainId := domainId}).checkCreateDomain env domainId options).1 then
      initSteps env enforceSecurity c InitStep.all
        ((g.setContext c {g.contexts c with domainId := domainId}).checkCreateDomain env domainId options).2
      else (.error,((g.setContext c {g.contexts c with domainId := domainId}).checkCreateDomain env domainId options).2)).2
    generalize g.setContext c {g.contexts c with domainId := domainId} = placed at hplaced hself hcreated ⊢
    split
    · next hcreate =>
      have hheld : Held (placed.checkCreateDomain env domainId options).2 c :=
        (grown_of_created (Prod.ext hcreate rfl)).held hplaced (by rw [hself, hn]) (by rw [hself]) (by omega)
      exact initSteps_settled hheld (.inr (by decide))
    · next hcreate =>
      have hsame : Grown placed (placed.checkCreateDomain env domainId options).2 domainId 0 :=
        (same_of_not_created (Prod.ext (Bool.not_eq_true _ ▸ hcreate) rfl) hcreated).1
      exact hsame.settled hplaced
  · rw [if_pos hn]
    apply h.setContext
    · have hp := (h.context c).1.mpr hn
      exact ⟨⟨fun _ => Nat.succ_ne_zero _,fun _ => hp⟩,(h.context c).2⟩
    · rfl
    · exact fun _ => rfl

private theorem fini_settled {g : Cdds Context} (h : Settled g) {c : Context} (hn : (g.contexts c).nodeCount ≠ 0) :
    Settled (g.fini c) := by
  have hp := (h.context c).1.mpr hn
  rw [fini]
  split
  · next hleft =>
    apply h.setContext
    · exact ⟨⟨fun _ => hleft,fun _ => hp⟩,(h.context c).2⟩
    · rfl
    · exact fun _ => rfl
  · next hlast =>
    rw [not_not.mp hlast]
    exact (h.held hp).cleanUp_settled

end Cdds

/-! ### Runs -/

/-- A node is created in a context, or destroyed. -/
inductive NodeCall (Context : Type) where
  | init (env : InitEnvironment) (enforceSecurity : Bool) (options : DiscoveryOptions) (c : Context) (optionsDomainId : Nat)
  | fini (c : Context)

namespace Cdds
variable {Context : Type} [DecidableEq Context]

/-- Only contexts that `rmw_init` has accepted create nodes, and only existing nodes are destroyed. -/
def machine (Context : Type) [DecidableEq Context] : Machine (Cdds Context) (NodeCall Context) where
  start := initial
  next g call := match call with
    | .init env enforceSecurity options c optionsDomainId =>
      (actualDomainId optionsDomainId).map fun did => (g.init env enforceSecurity options c did).2
    | .fini c => if (g.contexts c).nodeCount ≠ 0 then some (g.fini c) else none

/-- The first node of a context in a domain not yet in use comes with a discovery range. -/
def RangeSet (g : Cdds Context) : NodeCall Context → Prop
  | .init _ _ options c optionsDomainId => ∀ did, actualDomainId optionsDomainId = some did →
    (g.contexts c).nodeCount ≠ 0 ∨ g.refcount did ≠ 0 ∨ options.automaticDiscoveryRange ≠ .notSet
  | .fini _ => True

/-- If the call asks for a domain and is refused, the counts and the domains stay as they are. -/
def RefusesWithoutTrace (g : Cdds Context) : NodeCall Context → Prop
  | .init env _ options c optionsDomainId => ∀ did, actualDomainId optionsDomainId = some did →
    (g.contexts c).nodeCount = 0 → (g.checkCreateDomain env did options).1 = false →
      (∀ did', (g.checkCreateDomain env did options).2.refcount did' = g.refcount did') ∧
      (g.checkCreateDomain env did options).2.ddsDomains = g.ddsDomains
  | .fini _ => True

variable [Fintype Context]

omit [DecidableEq Context] in
private theorem initial_settled : Settled (initial : Cdds Context) := by
  refine ⟨?_,nofun,?_⟩
  · intro did
    have hlive : (initial : Cdds Context).live did = ∅ := Finset.filter_eq_empty_iff.mpr fun _ _ h => Bool.false_ne_true h.1
    refine ⟨?_,⟨fun h => absurd rfl h,nofun⟩⟩
    rw [hlive]
    rfl
  · intro c
    exact ⟨⟨nofun,fun h => absurd rfl h⟩,nofun⟩

private theorem actualDomainId_lt {optionsDomainId did : Nat} (h : actualDomainId optionsDomainId = some did) :
    did < uint32Max := by
  unfold actualDomainId at h
  unfold uint32Max at h ⊢
  split at h
  · cases h
  · next hv =>
    cases h
    split
    · next hne => omega
    · omega

private theorem next_settled {g g' : Cdds Context} {call : NodeCall Context} (h : Settled g) (hset : g.RangeSet call)
    (hnext : (machine Context).next g call = some g') : Settled g' := by
  cases call with
  | init env enforceSecurity options c optionsDomainId =>
    obtain ⟨did,hdid,rfl⟩ := Option.map_eq_some_iff.mp hnext
    exact init_settled h (actualDomainId_lt hdid) (hset did hdid)
  | fini c =>
    simp only [machine] at hnext
    split at hnext
    · next hn =>
      cases hnext
      exact fini_settled h hn
    · cases hnext

/-- If no call creates a domain without a discovery range, then after every call the counts are those of the
live participants, the counted domains are those that exist, and refused domains have left no trace. -/
theorem domains_counted {calls : List (NodeCall Context)} {g : Cdds Context} (h : (machine Context).run calls = some g)
    (hset : (machine Context).Along RangeSet calls) : Consistent g ∧ (machine Context).Along RefusesWithoutTrace calls := by
  suffices hall : Settled g ∧ (machine Context).Along RefusesWithoutTrace calls from ⟨hall.1.consistent,hall.2⟩
  apply Machine.along_of_invariant initial_settled (C := RangeSet) _ h hset
  intro g call g' hsettled hset hnext
  refine ⟨next_settled hsettled hset hnext,?_⟩
  cases call with
  | init env enforceSecurity options c optionsDomainId =>
    intro did hdid hn
    exact (checkCreateDomain_harmless_iff env g did options).mpr ((hset did hdid).resolve_left (not_not.mpr hn))
  | fini c => exact True.intro

/-- Calls succeed, the environment has no settings, and there is one context. -/
def quietEnvironment : InitEnvironment where
  discoveryOptionsEqual a b := some (a = b)
  pid := 1
  uri := some []
  createDomain _ _ := true
  fails _ := false

/-- A node without a discovery range is refused, and is counted all the same. -/
theorem notSet_counted : ∃ g, (machine Unit).run [.init quietEnvironment false ⟨.notSet,[]⟩ () 0] = some g ∧
    g.refcount 0 = 1 ∧ (g.live 0).card = 0 ∧ g.ddsDomains 0 = false :=
  ⟨_,rfl,rfl,by decide,rfl⟩

theorem subnet_counted : ∃ g, (machine Unit).run [.init quietEnvironment false ⟨.subnet,[]⟩ () 0] = some g ∧ Consistent g := by
  obtain ⟨g,hg⟩ : ∃ g, (machine Unit).run [.init quietEnvironment false ⟨.subnet,[]⟩ () 0] = some g := ⟨_,rfl⟩
  refine ⟨g,hg,(domains_counted hg ?_).1⟩
  have hstart : (machine Unit).run [] = some initial := rfl
  refine (Machine.along_concat hstart _).mpr ⟨Machine.along_nil _,?_⟩
  exact fun did _ => .inr (.inr (by decide))

end Cdds
end RmwCyclonedds
