import RmwCyclonedds.Serialization.TrivSerCache
import RmwCyclonedds.TypeSupport.TypeObject

/-! The cache as it is keyed: by an offset and the identity of a value type. -/
namespace RmwCyclonedds
open Library

abbrev ObjectCache (Id : Type) := List ((Nat × Id) × Bool)

section
variable {Id : Type} [DecidableEq Id]

def ObjectCache.find : ObjectCache Id → Nat × Id → Option Bool
  | [], _ => none
  | (key,result) :: rest, k => if key = k then some result else find rest k

/-- One pass over the alignments; `step` is the work done for a key that is not yet there. -/
def registerObjectAligns (id : Id) (step : Nat → ObjectCache Id → Outcome (ObjectCache Id × Bool))
    (cache : ObjectCache Id) (aligns : List Nat) : Outcome (ObjectCache Id) :=
  aligns.foldlM (fun cache align => do
    if (cache.find (align,id)).isSome then return cache
    let (cache,result) ← step align (((align,id),false) :: cache)
    return ((align,id),result) :: cache) cache

mutual
/-- `register_serializable_type`. -/
def registerObject : TypeObject Id → ObjectCache Id → Outcome (ObjectCache Id)
  | .primitive id k, cache => registerObjectAligns id
    (fun align cache => return (cache,isTriviallySerialized align k)) cache (List.range maxAlign)
  | .array id t n, cache => registerObjectAligns id
    (fun align cache => do
      let result ← computeTriviallySerialized (.array t.type n) align
      let cache ← registerObject t cache
      return (cache,result)) cache (List.range maxAlign)
  | .struct id s ms, cache => registerObjectAligns id
    (fun align cache => do
      let cache ← registerMemberObjects ms cache
      let result ← computeTriviallySerialized (.struct s ms.types) align
      return (cache,result)) cache (List.range maxAlign)
  | .spanSequence id _ t _, cache => registerObjectAligns id
    (fun _ cache => do
      let cache ← registerObject t cache
      return (cache,false)) cache (List.range maxAlign)
  | .u8string id _ _, cache => registerObjectAligns id
    (fun _ cache => return (cache,false)) cache (List.range maxAlign)
  | .u16string id _ _, cache => registerObjectAligns id
    (fun _ cache => return (cache,false)) cache (List.range maxAlign)
  | .boolVector id _ _, cache => registerObjectAligns id
    (fun _ cache => return (cache,false)) cache (List.range maxAlign)

def registerMemberObjects : MemberObjects Id → ObjectCache Id → Outcome (ObjectCache Id)
  | .nil, cache => return cache
  | .cons _ _ t ms, cache => do
    let cache ← registerObject t cache
    registerMemberObjects ms cache
end

/-- The cache holds the true answer for an object at every alignment. -/
def ObjectCache.Knows (c : ObjectCache Id) (t : TypeObject Id) : Prop :=
  ∀ a < maxAlign, c.find (a,t.id) = some (t.type.trivial a)

private theorem find_cons_ne {c : ObjectCache Id} {k k' : Nat × Id} (r : Bool) (h : k ≠ k') :
    ObjectCache.find ((k,r) :: c) k' = c.find k' := by
  simp only [ObjectCache.find, h, if_false]

private theorem find_cons_self (c : ObjectCache Id) (k : Nat × Id) (r : Bool) :
    ObjectCache.find ((k,r) :: c) k = some r := by
  simp only [ObjectCache.find, if_true]

/-! ### What registration keeps -/

variable {U : TypeObject Id → Prop}

/-- Answers for objects of size below `n` stay as they are. -/
private def Keeps (U : TypeObject Id → Prop) (n : Nat) (c c' : ObjectCache Id) : Prop :=
  ∀ a t r, U t → t.count < n → c.find (a,t.id) = some r → c'.find (a,t.id) = some r

private theorem Keeps.knows {n : Nat} {c c' : ObjectCache Id} (h : Keeps U n c c') {t : TypeObject Id} (hu : U t)
    (ht : t.count < n) (hk : c.Knows t) : c'.Knows t := fun a ha => h a t _ hu ht (hk a ha)

mutual
private theorem TypeObject.everywhere_keep {n : Nat} {c c' : ObjectCache Id} (h : Keeps U n c c') :
    ∀ {t : TypeObject Id}, t.Everywhere U → t.count < n → t.Everywhere c.Knows → t.Everywhere c'.Knows
  | .primitive _ _, hu, ht, hk => h.knows hu ht hk
  | .u8string _ _ _, hu, ht, hk => h.knows hu ht hk
  | .u16string _ _ _, hu, ht, hk => h.knows hu ht hk
  | .struct _ _ _, hu, ht, hk =>
    ⟨h.knows hu.1 ht hk.1,MemberObjects.everywhere_keep h hu.2 (Nat.lt_of_succ_lt ht) hk.2⟩
  | .array _ _ _, hu, ht, hk => ⟨h.knows hu.1 ht hk.1,TypeObject.everywhere_keep h hu.2 (Nat.lt_of_succ_lt ht) hk.2⟩
  | .spanSequence _ _ _ _, hu, ht, hk =>
    ⟨h.knows hu.1 ht hk.1,TypeObject.everywhere_keep h hu.2 (Nat.lt_of_succ_lt ht) hk.2⟩
  | .boolVector _ _ _, hu, ht, hk => h.knows hu ht hk

private theorem MemberObjects.everywhere_keep {n : Nat} {c c' : ObjectCache Id} (h : Keeps U n c c') :
    ∀ {ms : MemberObjects Id}, ms.Everywhere U → ms.count < n → ms.Everywhere c.Knows → ms.Everywhere c'.Knows
  | .nil, _, _, _ => True.intro
  | .cons _ _ t ms, hu, hms, hk => by
    have hcount : t.count + ms.count < n := hms
    exact ⟨TypeObject.everywhere_keep h hu.1 (by omega) hk.1,
      MemberObjects.everywhere_keep h hu.2 (by omega) hk.2⟩
end

/-- Below size `n` there is no half-registered object: a key that is present is known throughout. -/
private def Settled (U : TypeObject Id → Prop) (n : Nat) (c : ObjectCache Id) : Prop :=
  ∀ a t, U t → t.count < n → (c.find (a,t.id)).isSome → t.Everywhere c.Knows

/-- What registering objects of size below `n` does to a cache. -/
private structure Grows (U : TypeObject Id → Prop) (n : Nat) (c c' : ObjectCache Id) : Prop where
  keeps : ∀ k r, c.find k = some r → c'.find k = some r
  fresh : ∀ a t, U t → (c'.find (a,t.id)).isSome → (c.find (a,t.id)).isSome ∨ t.count < n
  settled : Settled U n c'

private theorem Settled.mono {n m : Nat} {c : ObjectCache Id} (hnm : n ≤ m) (h : Settled U m c) : Settled U n c :=
  fun a t hu ht => h a t hu (Nat.lt_of_lt_of_le ht hnm)

private theorem Grows.settle (hU : Universe U) {n m : Nat} {c c' : ObjectCache Id} (h : Grows U n c c')
    (hm : Settled U m c) : Settled U m c' := by
  intro a t hu ht hsome
  rcases h.fresh a t hu hsome with hold | hnew
  · exact TypeObject.everywhere_keep (U := U) (fun a t r _ _ => h.keeps (a,t.id) r) (hU.inside t hu) ht
      (hm a t hu ht hold)
  · exact h.settled a t hu hnew hsome

private theorem Grows.refl {n : Nat} {c : ObjectCache Id} (h : Settled U n c) : Grows U n c c :=
  ⟨fun _ _ h => h,fun _ _ _ h => .inl h,h⟩

private theorem Grows.trans {n : Nat} {c c' c'' : ObjectCache Id} (h : Grows U n c c') (h' : Grows U n c' c'') :
    Grows U n c c'' := by
  refine ⟨fun k r hk => h'.keeps k r (h.keeps k r hk),?_,h'.settled⟩
  intro a t hu hsome
  rcases h'.fresh a t hu hsome with hold | hnew
  · exact h.fresh a t hu hold
  · exact .inr hnew

private theorem Grows.weaken (hU : Universe U) {n m : Nat} {c c' : ObjectCache Id} (hnm : n ≤ m) (h : Grows U n c c')
    (hm : Settled U m c) : Grows U m c c' :=
  ⟨h.keeps,fun a t hu hs => (h.fresh a t hu hs).imp_right fun ht => Nat.lt_of_lt_of_le ht hnm,h.settle hU hm⟩

private def Inside (c : ObjectCache Id) : TypeObject Id → Prop
  | .struct _ _ ms => ms.Everywhere c.Knows
  | .array _ t _ => t.Everywhere c.Knows
  | .spanSequence _ _ t _ => t.Everywhere c.Knows
  | _ => True

private theorem everywhere_iff (c : ObjectCache Id) (t : TypeObject Id) :
    t.Everywhere c.Knows ↔ c.Knows t ∧ Inside c t := by
  cases t <;> simp only [TypeObject.Everywhere, Inside, and_true]

private theorem Inside.keep {n : Nat} {c c' : ObjectCache Id} (h : Keeps U n c c') {t : TypeObject Id}
    (hu : t.Everywhere U) (ht : t.count ≤ n) (hi : Inside c t) : Inside c' t := by
  cases t with
  | struct _ _ ms => exact MemberObjects.everywhere_keep h hu.2 (Nat.lt_of_succ_le ht) hi
  | array _ t _ => exact TypeObject.everywhere_keep h hu.2 (Nat.lt_of_succ_le ht) hi
  | spanSequence _ _ t _ => exact TypeObject.everywhere_keep h hu.2 (Nat.lt_of_succ_le ht) hi
  | primitive | u8string | u16string | boolVector => exact True.intro

omit [DecidableEq Id] in
private theorem ne_key_of_count (hU : Universe U) {t s : TypeObject Id} {a b : Nat} (ht : U t) (hs : U s)
    (h : s.count < t.count) : (a,t.id) ≠ (b,s.id) := by
  intro he
  obtain rfl := hU.one t s ht hs (Prod.mk.inj he).2
  exact Nat.lt_irrefl _ h

/-- An entry for an object does not disturb the smaller ones. -/
private theorem keeps_cons (hU : Universe U) (c : ObjectCache Id) (a : Nat) {t : TypeObject Id} (ht : U t) (r : Bool) :
    Keeps U t.count c (((a,t.id),r) :: c) := by
  intro b s _ hs hlt hf
  rw [find_cons_ne r (ne_key_of_count hU ht hs hlt)]
  exact hf

private theorem Settled.cons (hU : Universe U) {c : ObjectCache Id} {t : TypeObject Id} (ht : U t)
    (h : Settled U t.count c) (a : Nat) (r : Bool) : Settled U t.count (((a,t.id),r) :: c) := by
  intro b s hs hlt hsome
  rw [find_cons_ne r (ne_key_of_count hU ht hs hlt)] at hsome
  exact TypeObject.everywhere_keep (keeps_cons hU c a ht r) (hU.inside s hs) hlt (h b s hs hlt hsome)

/-- The state of the loop over the alignments of `t` before its `n`-th turn. -/
private structure Progress (U : TypeObject Id → Prop) (t : TypeObject Id) (n : Nat) (c c' : ObjectCache Id) : Prop where
  settled : Settled U t.count c'
  keeps : ∀ k r, c.find k = some r → c'.find k = some r
  fresh : ∀ a s, U s → (c'.find (a,s.id)).isSome → (c.find (a,s.id)).isSome ∨ s.count < t.count ∨ s = t ∧ a < n
  done : ∀ a < n, c'.find (a,t.id) = some (t.type.trivial a)
  inside : 0 < n → Inside c' t

/-- What the work for one alignment contributes. -/
private def StepGrows (U : TypeObject Id → Prop) (t : TypeObject Id)
    (step : Nat → ObjectCache Id → Outcome (ObjectCache Id × Bool)) : Prop :=
  ∀ a c, Settled U t.count c →
    ∃ c', step a c = .ok (c',t.type.trivial a) ∧ Grows U t.count c c' ∧ Inside c' t

private theorem Progress.absent {t : TypeObject Id} (ht : U t) {n : Nat} {c c' : ObjectCache Id}
    (hnew : ∀ a, c.find (a,t.id) = none) (h : Progress U t n c c') : c'.find (n,t.id) = none := by
  rw [← Option.not_isSome_iff_eq_none]
  intro hsome
  rcases h.fresh n t ht hsome with hold | hlt | ⟨_,hlt⟩
  · simp [hnew n] at hold
  · exact Nat.lt_irrefl _ hlt
  · exact Nat.lt_irrefl _ hlt

private theorem Progress.succ (hU : Universe U) {t : TypeObject Id} (ht : U t) {n : Nat} {c c' c'' : ObjectCache Id}
    (hnew : ∀ a, c.find (a,t.id) = none) (h : Progress U t n c c')
    (hg : Grows U t.count (((n,t.id),false) :: c') c'') (hi : Inside c'' t) :
    Progress U t (n + 1) c (((n,t.id),t.type.trivial n) :: c'') := by
  have habsent := h.absent ht hnew
  have hkeep : ∀ k r, c'.find k = some r → ObjectCache.find (((n,t.id),t.type.trivial n) :: c'') k = some r := by
    intro k r hk
    have hne : (n,t.id) ≠ k := by
      rintro rfl
      rw [habsent] at hk
      cases hk
    rw [find_cons_ne _ hne]
    apply hg.keeps
    rw [find_cons_ne _ hne]
    exact hk
  refine ⟨hg.settled.cons hU ht n _,fun k r hk => hkeep k r (h.keeps k r hk),?_,?_,
    fun _ => hi.keep (keeps_cons hU c'' n ht _) (hU.inside t ht) (Nat.le_refl _)⟩
  · intro a s hs hsome
    by_cases hk : (n,t.id) = (a,s.id)
    · obtain rfl := hU.one t s ht hs (Prod.mk.inj hk).2
      obtain rfl := (Prod.mk.inj hk).1
      exact .inr (.inr ⟨rfl,Nat.lt_succ_self _⟩)
    · rw [find_cons_ne _ hk] at hsome
      rcases hg.fresh a s hs hsome with hold | hlt
      · rw [find_cons_ne _ hk] at hold
        rcases h.fresh a s hs hold with h0 | h1 | ⟨h2,h3⟩
        · exact .inl h0
        · exact .inr (.inl h1)
        · exact .inr (.inr ⟨h2,Nat.lt_succ_of_lt h3⟩)
      · exact .inr (.inl hlt)
  · intro a ha
    rcases Nat.lt_succ_iff_lt_or_eq.mp ha with hlt | rfl
    · exact hkeep _ _ (h.done a hlt)
    · exact find_cons_self _ _ _

variable {t : TypeObject Id} {step : Nat → ObjectCache Id → Outcome (ObjectCache Id × Bool)} {c : ObjectCache Id}

private theorem registerObjectAligns_progress (hU : Universe U) (ht : U t) (hstep : StepGrows U t step)
    (hc : Settled U t.count c) (hnew : ∀ a, c.find (a,t.id) = none) (n : Nat) :
    ∃ c', registerObjectAligns t.id step c (List.range n) = .ok c' ∧ Progress U t n c c' := by
  induction n with
  | zero => exact ⟨c,rfl,hc,fun _ _ h => h,fun _ _ _ h => .inl h,fun a ha => absurd ha (Nat.not_lt_zero a),
      fun h => absurd h (Nat.lt_irrefl 0)⟩
  | succ n ih =>
    obtain ⟨c',he,hp⟩ := ih
    obtain ⟨c'',hs,hg,hi⟩ := hstep n _ (hp.settled.cons hU ht n false)
    refine ⟨_,?_,hp.succ hU ht hnew hg hi⟩
    unfold registerObjectAligns at he ⊢
    rw [List.range_succ, List.foldlM_append, he]
    simp only [bind, Except.bind, pure, Except.pure, List.foldlM_cons, List.foldlM_nil, hp.absent ht hnew, hs]
    rfl

private theorem registerObjectAligns_known (hk : c.Knows t) :
    registerObjectAligns t.id step c (List.range maxAlign) = .ok c := by
  have haux : ∀ n ≤ maxAlign, registerObjectAligns t.id step c (List.range n) = .ok c := by
    intro n hn
    induction n with
    | zero => rfl
    | succ n ih =>
      have he := ih (by omega)
      unfold registerObjectAligns at he ⊢
      rw [List.range_succ, List.foldlM_append, he]
      simp [bind, Except.bind, pure, Except.pure, hk n (by omega)]
  exact haux maxAlign (Nat.le_refl _)

private theorem registerObjectAligns_grows (hU : Universe U) (ht : U t) (hstep : StepGrows U t step)
    (hc : Settled U (t.count + 1) c) :
    ∃ c', registerObjectAligns t.id step c (List.range maxAlign) = .ok c' ∧ Grows U (t.count + 1) c c' ∧
      t.Everywhere c'.Knows := by
  by_cases hnew : ∀ a, c.find (a,t.id) = none
  · obtain ⟨c',he,hp⟩ := registerObjectAligns_progress hU ht hstep (hc.mono (Nat.le_succ _)) hnew maxAlign
    have hk : t.Everywhere c'.Knows := (everywhere_iff c' t).mpr ⟨hp.done,hp.inside (Nat.succ_pos 7)⟩
    refine ⟨c',he,⟨hp.keeps,?_,?_⟩,hk⟩
    · intro a s hs hsome
      rcases hp.fresh a s hs hsome with h | h | ⟨rfl,_⟩
      · exact .inl h
      · exact .inr (Nat.lt_succ_of_lt h)
      · exact .inr (Nat.lt_succ_self _)
    · intro a s hs hlt hsome
      rcases hp.fresh a s hs hsome with h | h | ⟨rfl,_⟩
      · exact TypeObject.everywhere_keep (U := U) (fun a t r _ _ => hp.keeps (a,t.id) r) (hU.inside s hs) hlt
          (hc a s hs hlt h)
      · exact hp.settled a s hs h hsome
      · exact hk
  · obtain ⟨a,ha⟩ := not_forall.mp hnew
    have hk := hc a t ht (Nat.lt_succ_self _) (Option.isSome_iff_ne_none.mpr ha)
    exact ⟨c,registerObjectAligns_known hk.here,Grows.refl hc,hk⟩

private theorem stepGrows_leaf (hi : ∀ c, Inside c t) (r : Nat → Bool) (hr : ∀ a, r a = t.type.trivial a) :
    StepGrows U t fun align cache => .ok (cache,r align) :=
  fun a c hc => ⟨c,by rw [← hr],Grows.refl hc,hi c⟩

mutual
private theorem registerObject_grows (hU : Universe U) : ∀ (t : TypeObject Id) {c : ObjectCache Id},
    t.Everywhere U → Settled U (t.count + 1) c →
    ∃ c', registerObject t c = .ok c' ∧ Grows U (t.count + 1) c c' ∧ t.Everywhere c'.Knows
  | .primitive id k, _, ht, hc =>
    registerObjectAligns_grows hU ht (stepGrows_leaf (t := .primitive id k) (fun _ => True.intro) _
      fun a => isTriviallySerialized_eq k a) hc
  | .u8string id s b, _, ht, hc =>
    registerObjectAligns_grows hU ht
      (stepGrows_leaf (t := .u8string id s b) (fun _ => True.intro) _ fun _ => rfl) hc
  | .u16string id s b, _, ht, hc =>
    registerObjectAligns_grows hU ht
      (stepGrows_leaf (t := .u16string id s b) (fun _ => True.intro) _ fun _ => rfl) hc
  | .boolVector id s b, _, ht, hc =>
    registerObjectAligns_grows hU ht
      (stepGrows_leaf (t := .boolVector id s b) (fun _ => True.intro) _ fun _ => rfl) hc
  | .struct id s ms, c, ht, hc => by
    refine registerObjectAligns_grows (t := .struct id s ms) hU ht.1 ?_ hc
    intro a c hc
    obtain ⟨c',he,hg,hk⟩ := registerMemberObjects_grows hU ms ht.2 (Nat.lt_succ_self _) hc
    refine ⟨c',?_,hg,hk⟩
    simp only [he, computeTriviallySerialized_eq, bind, Except.bind, pure, Except.pure]
    rfl
  | .array id t n, c, ht, hc => by
    refine registerObjectAligns_grows (t := .array id t n) hU ht.1 ?_ hc
    intro a c hc
    obtain ⟨c',he,hg,hk⟩ := registerObject_grows hU t ht.2 hc
    refine ⟨c',?_,hg,hk⟩
    simp only [he, computeTriviallySerialized_eq, bind, Except.bind, pure, Except.pure]
    rfl
  | .spanSequence id k t b, c, ht, hc => by
    refine registerObjectAligns_grows (t := .spanSequence id k t b) hU ht.1 ?_ hc
    intro a c hc
    obtain ⟨c',he,hg,hk⟩ := registerObject_grows hU t ht.2 hc
    refine ⟨c',?_,hg,hk⟩
    simp only [he, bind, Except.bind, pure, Except.pure]
    rfl

private theorem registerMemberObjects_grows (hU : Universe U) : ∀ (ms : MemberObjects Id) {n : Nat}
    {c : ObjectCache Id}, ms.Everywhere U → ms.count < n → Settled U n c →
    ∃ c', registerMemberObjects ms c = .ok c' ∧ Grows U n c c' ∧ ms.Everywhere c'.Knows
  | .nil, _, c, _, _, hc => ⟨c,rfl,Grows.refl hc,True.intro⟩
  | .cons _ _ t ms, n, c, hu, hn, hc => by
    have hcount : t.count + ms.count < n := hn
    have hsize : t.count + 1 ≤ n := by omega
    obtain ⟨c',he,hg,hk⟩ := registerObject_grows hU t hu.1 (hc.mono hsize)
    have hg' := hg.weaken hU hsize hc
    obtain ⟨c'',he',hg'',hk'⟩ := registerMemberObjects_grows hU ms (n := n) (c := c') hu.2 (by omega) hg'.settled
    refine ⟨c'',?_,hg'.trans hg'',?_,hk'⟩
    · simp only [registerMemberObjects, he, bind, Except.bind]
      exact he'
    · exact TypeObject.everywhere_keep (U := U) (fun a t r _ _ => hg''.keeps (a,t.id) r) hu.1 hsize hk
end

/-- Registration succeeds, and the cache knows the root and everything inside it. -/
theorem registerObject_knows (hU : Universe U) (hu : U t) :
    ∃ c, registerObject t [] = .ok c ∧ t.Everywhere c.Knows := by
  have hempty : Settled U (t.count + 1) ([] : ObjectCache Id) := fun _ _ _ _ h => Bool.noConfusion h
  obtain ⟨c,he,_,hk⟩ := registerObject_grows hU t (hU.inside t hu) hempty
  exact ⟨c,he,hk⟩

end
end RmwCyclonedds
