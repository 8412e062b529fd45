import RmwCyclonedds.Bytewise
import RmwCyclonedds.Library.Runs
import Mathlib.Data.List.Nodup
import Mathlib.Data.List.Perm.Basic

/-! Ids of clients and services: a counter for each context, put behind the prefix of its participant, and the text
under which an id is advertised. -/
namespace RmwCyclonedds
open Library

/-- `os << std::hex` with a byte of an id. -/
def hex (b : Byte) : Text := Nat.toDigits 16 b.toNat

/-- `std::setw(2)`, which holds for the first byte only. -/
def setw2 (s : Text) : Text := List.replicate (2 - s.length) ' ' ++ s

def csidToString : List Byte → Text
  | [] => []
  | b :: bs => setw2 (hex b) ++ bs.flatMap fun b => '.' :: hex b

/-- The id is written over what was there: the prefix, then the counter with its highest byte first. -/
def constructCsid (ppantGid : List Byte) (x : BitVec 32) (data : List Byte) : List Byte :=
  ppantGid.take 12 ++ (List.range 4).map (fun i => UInt8.ofNat (x.toNat >>> (24 - 8 * i))) ++ data.drop 16

/-- What matters of a context here. The gid of a participant stays when the participant is deleted. -/
structure CsidContext where
  nodeCount : Nat
  ppantGid : Option Nat
  clientServiceId : BitVec 32

/-- An id together with where it comes from. -/
structure ClientServiceId (Context : Type) where
  context : Context
  ppant : Nat
  number : BitVec 32
  data : List Byte

/-- The contexts, the contexts for which participants have been made, the calls of `get_unique_csid` that have left the
lock, and the ids. -/
structure CsidState (Context : Type) where
  contexts : Context → CsidContext
  participants : List Context
  drawn : List (Context × BitVec 32)
  issued : List (ClientServiceId Context)

/-- A creation of a client or a service that fails before it needs its id takes no step. -/
inductive CsidStep (Context : Type) where
  | init (c : Context) (ok : Bool)
  | fini (c : Context)
  | draw (c : Context)
  /-- The call at a place goes on and writes its id. -/
  | construct (place : Nat) (data : List Byte)

section
variable {Context : Type} [DecidableEq Context]

def CsidStep.draws (c : Context) : CsidStep Context → Bool
  | draw d => d = c
  | _ => false

namespace CsidState
variable (s : CsidState Context)

def setContext (c : Context) (impl : CsidContext) : CsidState Context :=
  {s with contexts := Function.update s.contexts c impl}

/-- The participant is made for the first node, and deleted at once if something fails behind it. -/
def init (c : Context) (ok : Bool) : CsidState Context :=
  let impl := s.contexts c
  if impl.nodeCount ≠ 0 then s.setContext c {impl with nodeCount := impl.nodeCount + 1}
  else
    {s.setContext c {impl with nodeCount := if ok then 1 else 0, ppantGid := some s.participants.length} with
      participants := s.participants ++ [c]}

def fini (c : Context) : Option (CsidState Context) :=
  let impl := s.contexts c
  if impl.nodeCount = 0 then none else some (s.setContext c {impl with nodeCount := impl.nodeCount - 1})

/-- What is done under the lock, for a node of the context. -/
def draw (c : Context) : Option (CsidState Context) :=
  let impl := s.contexts c
  let x := impl.clientServiceId + 1
  if impl.nodeCount = 0 then none
  else some {s.setContext c {impl with clientServiceId := x} with drawn := s.drawn ++ [(c,x)]}

def construct (gid : Nat → List Byte) (place : Nat) (data : List Byte) : Option (CsidState Context) :=
  s.drawn[place]?.bind fun (c,x) => (s.contexts c).ppantGid.map fun ppant =>
    {s with
      drawn := s.drawn.eraseIdx place
      issued := s.issued ++ [⟨c,ppant,x,constructCsid (gid ppant) x data⟩]}

end CsidState

/-- Contexts that are set up and torn down, and the creation of clients and services in them, in any order. `gid` has
the gids of the participants, in the order in which they are made. -/
def csidMachine (gid : Nat → List Byte) : Machine (CsidState Context) (CsidStep Context) where
  start := ⟨fun _ => ⟨0,none,0⟩,[],[],[]⟩
  next s
    | .init c ok => some (s.init c ok)
    | .fini c => s.fini c
    | .draw c => s.draw c
    | .construct place data => s.construct gid place data

/-! ### The text of an id -/

/-- Reads the digits again; a blank counts for nothing. -/
private def unhex (s : Text) : Nat :=
  s.foldl (fun n c => if c = ' ' then n else 16 * n + (if c.isDigit then c.toNat - 48 else c.toNat - 87)) 0

private theorem unhex_all : ∀ n < 256, unhex (Nat.toDigits 16 n) = n ∧ unhex (setw2 (Nat.toDigits 16 n)) = n ∧
    '.' ∉ Nat.toDigits 16 n := by decide +kernel

private theorem hex_injective {a b : Byte} (h : hex a = hex b) : a = b := by
  apply UInt8.toNat_inj.mp
  rw [← (unhex_all _ a.toNat_lt).1, ← (unhex_all _ b.toNat_lt).1]
  exact congrArg unhex h

private theorem setw2_injective {a b : Byte} (h : setw2 (hex a) = setw2 (hex b)) : a = b := by
  apply UInt8.toNat_inj.mp
  rw [← (unhex_all _ a.toNat_lt).2.1, ← (unhex_all _ b.toNat_lt).2.1]
  exact congrArg unhex h

private theorem dot_notMem_hex (b : Byte) : '.' ∉ hex b := (unhex_all _ b.toNat_lt).2.2

private theorem dot_notMem_setw2 (b : Byte) : '.' ∉ setw2 (hex b) := by
  rw [setw2, List.mem_append, not_or]
  refine ⟨?_,dot_notMem_hex b⟩
  intro h
  exact absurd (List.eq_of_mem_replicate h) (by decide)

private theorem before_dot {x y r s : Text} (hx : '.' ∉ x) (hy : '.' ∉ y) (h : x ++ '.' :: r = y ++ '.' :: s) :
    x = y ∧ r = s := by
  rcases List.append_eq_append_iff.mp h with ⟨e,he,hr⟩ | ⟨e,he,hs⟩
  · cases e with
    | nil => exact ⟨by rw [he, List.append_nil],(List.cons.inj hr).2⟩
    | cons d e =>
      obtain ⟨rfl,-⟩ := List.cons.inj hr
      exact absurd (he ▸ List.mem_append_right x List.mem_cons_self) hy
  · cases e with
    | nil => exact ⟨by rw [he, List.append_nil],(List.cons.inj hs).2.symm⟩
    | cons d e =>
      obtain ⟨rfl,-⟩ := List.cons.inj hs
      exact absurd (he ▸ List.mem_append_right y List.mem_cons_self) hx

/-- The dots say where the bytes begin. -/
private theorem dotted_injective {x y : Text} (hx : '.' ∉ x) (hy : '.' ∉ y) {bs cs : List Byte}
    (h : (x ++ bs.flatMap fun b => '.' :: hex b) = y ++ cs.flatMap fun b => '.' :: hex b) : x = y ∧ bs = cs := by
  induction bs generalizing x y cs with
  | nil =>
    cases cs with
    | nil =>
      rw [List.flatMap_nil, List.append_nil, List.append_nil] at h
      exact ⟨h,rfl⟩
    | cons c cs =>
      rw [List.flatMap_nil, List.append_nil, List.flatMap_cons] at h
      exact absurd (h ▸ List.mem_append_right y List.mem_cons_self) hx
  | cons b bs ih =>
    cases cs with
    | nil =>
      rw [List.flatMap_nil, List.append_nil, List.flatMap_cons] at h
      exact absurd (h ▸ List.mem_append_right x List.mem_cons_self) hy
    | cons c cs =>
      rw [List.flatMap_cons, List.flatMap_cons, List.cons_append, List.cons_append] at h
      obtain ⟨hxy,hrest⟩ := before_dot hx hy h
      obtain ⟨hbc,hbs⟩ := ih (dot_notMem_hex b) (dot_notMem_hex c) hrest
      exact ⟨hxy,by rw [hex_injective hbc, hbs]⟩

/-- An id can be read off its text. -/
theorem csidToString_injective {a b : List Byte} (ha : a ≠ []) (hb : b ≠ []) (h : csidToString a = csidToString b) :
    a = b := by
  obtain ⟨x,bs,rfl⟩ := List.exists_cons_of_ne_nil ha
  obtain ⟨y,cs,rfl⟩ := List.exists_cons_of_ne_nil hb
  obtain ⟨hxy,hbs⟩ := dotted_injective (dot_notMem_setw2 x) (dot_notMem_setw2 y) h
  rw [setw2_injective hxy, hbs]

/-! ### The bytes of an id -/

private theorem counter_injective {x y : BitVec 32} (h : (List.range 4).map (fun i => UInt8.ofNat (x.toNat >>> (24 - 8 * i))) =
    (List.range 4).map (fun i => UInt8.ofNat (y.toNat >>> (24 - 8 * i)))) : x = y := by
  have hbyte : ∀ i ∈ List.range 4, x.toNat >>> (24 - 8 * i) % 256 = y.toNat >>> (24 - 8 * i) % 256 := by
    intro i hi
    have hi := List.map_inj_left.mp h i hi
    have hnat := congrArg UInt8.toNat hi
    rwa [UInt8.toNat_ofNat', UInt8.toNat_ofNat'] at hnat
  have h0 := hbyte 0 (by decide)
  have h1 := hbyte 1 (by decide)
  have h2 := hbyte 2 (by decide)
  have h3 := hbyte 3 (by decide)
  simp only [Nat.shiftRight_eq_div_pow] at h0 h1 h2 h3
  have hx := x.isLt
  have hy := y.isLt
  apply BitVec.eq_of_toNat_eq
  omega

theorem constructCsid_ne (gid : List Byte) (x : BitVec 32) (data : List Byte) : constructCsid gid x data ≠ [] := by
  intro h
  have hlen := congrArg List.length h
  simp [constructCsid] at hlen

/-- An id tells the prefix and the number. -/
theorem constructCsid_injective {a b : List Byte} (ha : 12 ≤ a.length) (hb : 12 ≤ b.length) {x y : BitVec 32}
    {data data' : List Byte} (h : constructCsid a x data = constructCsid b y data') : a.take 12 = b.take 12 ∧ x = y := by
  rw [constructCsid, constructCsid, List.append_assoc, List.append_assoc] at h
  obtain ⟨hparticipant,hrest⟩ := List.append_inj h (by rw [List.length_take, List.length_take, min_eq_left ha, min_eq_left hb])
  obtain ⟨hcounter,-⟩ := List.append_inj hrest (by rw [List.length_map, List.length_map])
  exact ⟨hparticipant,counter_injective hcounter⟩

/-! ### What the contexts have issued -/

namespace CsidState

/-- Every number that has been drawn, with its context. -/
def numbers (s : CsidState Context) : List (Context × BitVec 32) := s.drawn ++ s.issued.map fun i => (i.context,i.number)

def numbersOf (s : CsidState Context) (c : Context) : List (BitVec 32) := (s.numbers.filter fun p => p.1 = c).map Prod.snd

/-- The number of the k-th id of a context, counted from zero. -/
def numberOf (k : Nat) : BitVec 32 := BitVec.ofNat 32 (k + 1)

/-- A context has drawn its numbers one after the other, and every id has the prefix of a participant of its context. -/
structure Counted (gid : Nat → List Byte) (s : CsidState Context) : Prop where
  counter : ∀ c, (s.contexts c).clientServiceId = BitVec.ofNat 32 (s.numbersOf c).length
  numbers : ∀ c, (s.numbersOf c).Perm ((List.range (s.numbersOf c).length).map numberOf)
  owner : ∀ c p, (s.contexts c).ppantGid = some p → s.participants[p]? = some c
  made : ∀ i ∈ s.issued, s.participants[i.ppant]? = some i.context ∧
    ∃ data, i.data = constructCsid (gid i.ppant) i.number data

variable {gid : Nat → List Byte} {s s' : CsidState Context}

private theorem Counted.owner_update {participants : List Context} {c : Context} {impl : CsidContext}
    (h : s.Counted gid) (hmore : ∀ (p : Nat) (d : Context), s.participants[p]? = some d → participants[p]? = some d)
    (hown : ∀ p, impl.ppantGid = some p → participants[p]? = some c) (d : Context) (p : Nat)
    (hp : (Function.update s.contexts c impl d).ppantGid = some p) : participants[p]? = some d := by
  rw [Function.update_apply] at hp
  split at hp
  · next hd => exact hd ▸ hown p hp
  · exact hmore p d (h.owner d p hp)

/-- A step that neither draws a number nor writes an id changes one context. -/
private theorem Counted.frame (h : s.Counted gid) {c : Context} {impl : CsidContext} {participants : List Context}
    (hid : impl.clientServiceId = (s.contexts c).clientServiceId)
    (hmore : ∀ (p : Nat) (d : Context), s.participants[p]? = some d → participants[p]? = some d)
    (hown : ∀ p, impl.ppantGid = some p → participants[p]? = some c) :
    Counted gid {s.setContext c impl with participants := participants} where
  counter d := by
    show (Function.update s.contexts c impl d).clientServiceId = _
    rw [Function.update_apply]
    split
    · next hd =>
      subst hd
      rw [hid]
      exact h.counter _
    · exact h.counter d
  numbers := h.numbers
  owner := h.owner_update hmore hown
  made i hi := ⟨hmore _ _ (h.made i hi).1,(h.made i hi).2⟩

private theorem Counted.init (h : s.Counted gid) (c : Context) (ok : Bool) : (s.init c ok).Counted gid := by
  rw [CsidState.init]
  simp only
  split
  · exact h.frame rfl (fun _ _ hp => hp) (h.owner c)
  · refine h.frame rfl ?_ ?_
    · intro p d hp
      rw [List.getElem?_append_left (List.getElem?_eq_some_iff.mp hp).1, hp]
    · intro p hp
      cases hp
      exact List.getElem?_concat_length

private theorem Counted.fini (h : s.Counted gid) {c : Context} (hs : s.fini c = some s') : s'.Counted gid := by
  rw [CsidState.fini] at hs
  split at hs
  · cases hs
  · cases hs
    exact h.frame rfl (fun _ _ hp => hp) (h.owner c)

private theorem numbersOf_perm {l : List (Context × BitVec 32)} (h : s'.numbers.Perm l) (c : Context) :
    (s'.numbersOf c).Perm ((l.filter fun p => p.1 = c).map Prod.snd) := (h.filter _).map _

private theorem numbersOf_unchanged (h : s'.numbers.Perm s.numbers) (c : Context) :
    (s'.numbersOf c).Perm (s.numbersOf c) := numbersOf_perm h c

private theorem numbersOf_drawn {c : Context} {x : BitVec 32} (h : s'.numbers.Perm (s.numbers ++ [(c,x)])) (d : Context) :
    (s'.numbersOf d).Perm (s.numbersOf d ++ if c = d then [x] else []) := by
  refine (numbersOf_perm h d).trans ?_
  rw [List.filter_append, List.map_append]
  by_cases hd : c = d
  · rw [if_pos hd, List.filter_singleton]
    simp [hd, numbersOf]
  · rw [if_neg hd, List.filter_singleton]
    simp [hd, numbersOf]

private theorem Counted.draw (h : s.Counted gid) {c : Context} (hs : s.draw c = some s') :
    s'.Counted gid ∧ ∀ d, (s'.numbersOf d).length = (s.numbersOf d).length + if c = d then 1 else 0 := by
  rw [CsidState.draw] at hs
  split at hs
  · cases hs
  · have hs := Option.some.inj hs
    have hx : (s.contexts c).clientServiceId + 1 = numberOf (s.numbersOf c).length := by
      rw [h.counter, numberOf]
      exact (BitVec.ofNat_add _ 1).symm
    have hperm : s'.numbers.Perm (s.numbers ++ [(c,numberOf (s.numbersOf c).length)]) := by
      rw [← hs, CsidState.numbers, CsidState.numbers, ← hx, List.append_assoc, List.append_assoc]
      exact List.Perm.append_left _ List.perm_append_comm
    have hlength : ∀ d, (s'.numbersOf d).length = (s.numbersOf d).length + if c = d then 1 else 0 := by
      intro d
      rw [(numbersOf_drawn hperm d).length_eq, List.length_append]
      split <;> rfl
    refine ⟨⟨?_,?_,?_,?_⟩,hlength⟩
    · intro d
      rw [hlength, ← hs]
      show (Function.update s.contexts c _ d).clientServiceId = _
      rw [Function.update_apply]
      by_cases hd : d = c
      · subst hd
        rw [if_pos rfl, if_pos rfl]
        exact hx
      · rw [if_neg hd, if_neg (Ne.symm hd)]
        exact h.counter d
    · intro d
      refine (numbersOf_drawn hperm d).trans ?_
      rw [hlength]
      by_cases hd : c = d
      · subst hd
        rw [if_pos rfl, if_pos rfl, List.range_succ, List.map_append]
        exact (h.numbers c).append_right _
      · rw [if_neg hd, if_neg hd, List.append_nil]
        exact h.numbers d
    · rw [← hs]
      exact h.owner_update (fun _ _ hp => hp) (h.owner c)
    · rw [← hs]
      exact h.made

private theorem Counted.construct (h : s.Counted gid) {place : Nat} {data : List Byte}
    (hs : s.construct gid place data = some s') :
    s'.Counted gid ∧ ∀ d, (s'.numbersOf d).length = (s.numbersOf d).length := by
  obtain ⟨⟨c,x⟩,hplace,hs⟩ := Option.bind_eq_some_iff.mp hs
  obtain ⟨ppant,hppant,hs⟩ := Option.map_eq_some_iff.mp hs
  obtain ⟨hlt,hat⟩ := List.getElem?_eq_some_iff.mp hplace
  have hperm : s'.numbers.Perm s.numbers := by
    have herase := List.getElem_cons_eraseIdx_perm hlt
    rw [hat] at herase
    rw [← hs, CsidState.numbers, CsidState.numbers, List.map_append, ← List.append_assoc]
    exact (List.perm_append_singleton _ _).trans (herase.append_right _)
  have hlength : ∀ d, (s'.numbersOf d).length = (s.numbersOf d).length := fun d =>
    (numbersOf_unchanged hperm d).length_eq
  refine ⟨⟨?_,?_,?_,?_⟩,hlength⟩
  · intro d
    rw [hlength, ← hs]
    exact h.counter d
  · intro d
    rw [hlength]
    exact (numbersOf_unchanged hperm d).trans (h.numbers d)
  · rw [← hs]
    exact h.owner
  · rw [← hs]
    intro i hi
    rcases List.mem_append.mp hi with hi | hi
    · exact h.made i hi
    · rw [List.mem_singleton.mp hi]
      exact ⟨h.owner c ppant hppant,data,rfl⟩

private theorem numbers_init (s : CsidState Context) (c : Context) (ok : Bool) : (s.init c ok).numbers = s.numbers := by
  rw [CsidState.init]
  simp only
  split <;> rfl

private theorem numbers_fini {c : Context} (hs : s.fini c = some s') : s'.numbers = s.numbers := by
  rw [CsidState.fini] at hs
  split at hs
  · cases hs
  · cases hs
    rfl

end CsidState

open CsidState in
/-- Along every run, a context has as many numbers as have been drawn for it. -/
private theorem run_numbered {gid : Nat → List Byte} {labels : List (CsidStep Context)} {s : CsidState Context}
    (h : (csidMachine gid).run labels = some s) :
    s.Counted gid ∧ ∀ c, (s.numbersOf c).length = labels.countP (CsidStep.draws c) := by
  induction h using Machine.run_induction with
  | start => exact ⟨⟨fun _ => rfl,fun _ => .nil,nofun,nofun⟩,fun _ => rfl⟩
  | @step labels s l s' _ hl ih =>
    obtain ⟨hcounted,hlength⟩ := ih
    have hcount (c : Context) : (labels ++ [l]).countP (CsidStep.draws c) =
        (s.numbersOf c).length + if l.draws c then 1 else 0 := by
      rw [List.countP_append, List.countP_singleton, hlength]
    cases l with
    | init c ok =>
      cases hl
      refine ⟨hcounted.init c ok,fun d => ?_⟩
      rw [hcount]
      exact congrArg (fun l => (List.map Prod.snd (List.filter _ l)).length) (numbers_init s c ok)
    | fini c =>
      refine ⟨hcounted.fini hl,fun d => ?_⟩
      rw [hcount]
      exact congrArg (fun l => (List.map Prod.snd (List.filter _ l)).length) (numbers_fini hl)
    | draw c =>
      obtain ⟨hcounted,hlength⟩ := hcounted.draw hl
      refine ⟨hcounted,fun d => ?_⟩
      rw [hcount, hlength, CsidStep.draws]
      simp only [decide_eq_true_iff]
    | construct place data =>
      obtain ⟨hcounted,hlength⟩ := hcounted.construct hl
      refine ⟨hcounted,fun d => ?_⟩
      rw [hcount, hlength]
      rfl

/-- Up to 2 ^ 32 numbers are different, the last one of which is zero. -/
private theorem CsidState.Counted.numbers_nodup {gid : Nat → List Byte} {s : CsidState Context} (h : s.Counted gid)
    (hbound : ∀ c, (s.numbersOf c).length ≤ 2 ^ 32) : s.numbers.Nodup := by
  have hof (c : Context) : (s.numbersOf c).Nodup := by
    refine (h.numbers c).nodup_iff.mpr (List.Nodup.map_on ?_ List.nodup_range)
    intro a ha b hb hab
    have ha := (List.mem_range.mp ha).trans_le (hbound c)
    have hb := (List.mem_range.mp hb).trans_le (hbound c)
    have hnat := congrArg BitVec.toNat hab
    rw [numberOf, numberOf, BitVec.toNat_ofNat, BitVec.toNat_ofNat] at hnat
    omega
  rw [List.nodup_iff_count_le_one]
  rintro ⟨c,x⟩
  have hfilter : (s.numbers.filter fun p => p.1 = c).count (c,x) = s.numbers.count (c,x) :=
    List.count_filter (decide_eq_true rfl)
  calc s.numbers.count (c,x) = (s.numbers.filter fun p => p.1 = c).count (c,x) := hfilter.symm
    _ ≤ (s.numbersOf c).count x := List.count_le_count_map (f := Prod.snd) (x := (c,x))
    _ ≤ 1 := List.nodup_iff_count_le_one.mp (hof c) x

/-- The texts of any two ids are different, whatever contexts they are of, if no context draws more than 2 ^ 32 numbers
and no two participants have the same prefix. -/
theorem csids_unique {gid : Nat → List Byte} (hgid : ∀ p, 12 ≤ (gid p).length) {labels : List (CsidStep Context)}
    {s : CsidState Context} (h : (csidMachine gid).run labels = some s)
    (hbound : ∀ c, labels.countP (CsidStep.draws c) ≤ 2 ^ 32)
    (hdistinct : ∀ p < s.participants.length, ∀ q < s.participants.length, (gid p).take 12 = (gid q).take 12 → p = q) :
    (s.issued.map fun i => csidToString i.data).Nodup := by
  obtain ⟨hcounted,hlength⟩ := run_numbered h
  have hnodup := hcounted.numbers_nodup (fun c => (hlength c).trans_le (hbound c))
  have hissued : (s.issued.map fun i => (i.context,i.number)).Nodup := hnodup.sublist (List.sublist_append_right _ _)
  rw [List.Nodup, List.pairwise_map] at hissued ⊢
  refine hissued.imp_of_mem ?_
  intro i j hi hj hne htext
  obtain ⟨howner,data,hdata⟩ := hcounted.made i hi
  obtain ⟨howner',data',hdata'⟩ := hcounted.made j hj
  rw [hdata, hdata'] at htext
  have hid := csidToString_injective (constructCsid_ne _ _ _) (constructCsid_ne _ _ _) htext
  obtain ⟨hparticipant,hnumber⟩ := constructCsid_injective (hgid _) (hgid _) hid
  have hppant : i.ppant = j.ppant := hdistinct _ (List.getElem?_eq_some_iff.mp howner).1 _
    (List.getElem?_eq_some_iff.mp howner').1 hparticipant
  rw [hppant] at howner
  apply hne
  rw [Option.some.inj (howner.symm.trans howner'), hnumber]

end

/-- Two contexts, one of which is torn down and set up again between its creations. -/
def recreatedParticipant : List (CsidStep Bool) :=
  [.init true true,.init false true,.draw true,.draw false,.construct 1 [],.construct 0 [],.fini true,.init true true,
    .draw true,.construct 0 []]

/-- Participants with a number in the first byte of their gid. -/
def numberedGid (p : Nat) : List Byte := UInt8.ofNat p :: List.replicate 15 0

theorem recreatedParticipant_unique : ∃ s, (csidMachine numberedGid).run recreatedParticipant = some s ∧
    s.issued.length = 3 ∧ (s.issued.map fun i => csidToString i.data).Nodup := by
  obtain ⟨s,hs,hlength,hparticipants⟩ : ∃ s, (csidMachine numberedGid).run recreatedParticipant = some s ∧
      s.issued.length = 3 ∧ s.participants.length = 3 := ⟨_,rfl,rfl,rfl⟩
  refine ⟨s,hs,hlength,csids_unique (fun p => ?_) hs (by decide) ?_⟩
  · rw [numberedGid, List.length_cons, List.length_replicate]
    decide
  · rw [hparticipants]
    decide

end RmwCyclonedds
