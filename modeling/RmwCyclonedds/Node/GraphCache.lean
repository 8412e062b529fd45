import RmwCyclonedds.Node.DiscoveryThread

/-! What the discovery thread has told the graph cache when it waits again. -/
namespace RmwCyclonedds
open Library DiscoveryState

variable {TypeHash Message : Type} {ctx : DiscoveryContext TypeHash} {s s' : DiscoveryState TypeHash Message}

/-- What a sample that arrives is about. -/
def DiscoveryStep.subject : DiscoveryStep Message → Option (BuiltinTopic × DdsGuid)
  | .arrive a _ => some (a.topic,a.key)
  | _ => none

/-- A message that arrives with data. -/
def DiscoveryStep.message? : DiscoveryStep Message → Option Message
  | .receive m => m
  | _ => none

/-- A DDS call of the thread fails. -/
def DiscoveryStep.fails : DiscoveryStep Message → Bool
  | .thread .fails => true
  | _ => false

namespace DiscoveryState

/-- The graph cache has last been told what the last sample says, of everything that the last sample says something of;
of what nothing has arrived, and of the local participant, it has been told nothing. Messages are passed on once, in order. -/
structure UpToDate (ctx : DiscoveryContext TypeHash) (steps : List (DiscoveryStep Message))
    (calls : List (GraphCall TypeHash Message)) : Prop where
  told : ∀ t key a replaces c, latest DiscoveryStep.subject (t,key) steps = some (.arrive a replaces) →
    ctx.handle Message t key a.alive a.data = some c → latest GraphCall.subject (t,ctx.gid key) calls = some c
  unheard : ∀ t key, latest DiscoveryStep.subject (t,key) steps = none →
    latest GraphCall.subject (t,ctx.gid key) calls = none
  localParticipant : latest GraphCall.subject (.participant,ctx.commonGid) calls = none
  messages : calls.filterMap GraphCall.message? = steps.filterMap DiscoveryStep.message?

/-- Each last sample is waiting, or the graph cache has been told about it or is just being told. -/
private structure Accounted (ctx : DiscoveryContext TypeHash) (steps : List (DiscoveryStep Message))
    (s : DiscoveryState TypeHash Message) : Prop where
  told : ∀ t key a replaces, latest DiscoveryStep.subject (t,key) steps = some (.arrive a replaces) →
    (s.readers t).alive key = a.alive ∧ ∀ c, ctx.handle Message t key a.alive a.data = some c →
      ((s.readers t).pending.of key).getLast? = some a.data ∨
        (s.readers t).pending.of key = [] ∧ latest GraphCall.subject (t,ctx.gid key) s.answered = some c
  unheard : ∀ t key, latest DiscoveryStep.subject (t,key) steps = none →
    (s.readers t).pending.of key = [] ∧ latest GraphCall.subject (t,ctx.gid key) s.answered = none
  localParticipant : latest GraphCall.subject (.participant,ctx.commonGid) s.answered = none
  messages : s.answered.filterMap GraphCall.message? ++ s.messages.filterMap id = steps.filterMap DiscoveryStep.message?

variable {steps : List (DiscoveryStep Message)}

private theorem Accounted.initial : Accounted ctx [] (initial : DiscoveryState TypeHash Message) where
  told t key a replaces h := by
    rw [latest_nil] at h
    cases h
  unheard _ _ _ := ⟨rfl,latest_nil⟩
  localParticipant := latest_nil
  messages := rfl

/-- Steps that are neither arrivals nor taken samples. -/
private theorem Accounted.idle (hs : Accounted ctx steps s) {step : DiscoveryStep Message} (hsubject : step.subject = none)
    (hmessage : step.message? = none) (h : TakesNothing s s') : Accounted ctx (steps ++ [step]) s' := by
  have hlatest (x : BuiltinTopic × DdsGuid) :
      latest DiscoveryStep.subject x (steps ++ [step]) = latest DiscoveryStep.subject x steps :=
    latest_concat_of_ne steps (by rw [hsubject]; nofun)
  refine ⟨?_,?_,?_,?_⟩
  · intro t key a replaces
    rw [hlatest, h.readers, h.answered]
    exact hs.told t key a replaces
  · intro t key
    rw [hlatest, h.readers, h.answered]
    exact hs.unheard t key
  · rw [h.answered]
    exact hs.localParticipant
  · rw [h.answered, h.messages, hs.messages, List.filterMap_append]
    simp [hmessage]

private theorem Accounted.arrive (hs : Accounted ctx steps s) (a : Arrival) (replaces : Bool) :
    Accounted ctx (steps ++ [.arrive a replaces]) (s.arrive a replaces) := by
  have hsubject : (DiscoveryStep.arrive a replaces : DiscoveryStep Message).subject = some (a.topic,a.key) := rfl
  -- What is about another instance sees no difference.
  have hother (t : BuiltinTopic) (key : DdsGuid) (hne : (a.topic,a.key) ≠ (t,key)) :
      latest DiscoveryStep.subject (t,key) (steps ++ [.arrive a replaces]) =
          latest DiscoveryStep.subject (t,key) steps ∧
        ((s.arrive a replaces).readers t).alive key = (s.readers t).alive key ∧
        ((s.arrive a replaces).readers t).pending.of key = (s.readers t).pending.of key := by
    refine ⟨latest_concat_of_ne steps fun h => hne (Option.some.inj (hsubject.symm.trans h)),?_⟩
    by_cases ht : t = a.topic
    · subst ht
      have hkey : key ≠ a.key := fun h => hne (by rw [h])
      simp only [DiscoveryState.arrive, Function.update_self]
      exact ⟨Function.update_of_ne hkey _ _,InstanceQueue.of_push_of_ne _ _ hkey _⟩
    · simp only [DiscoveryState.arrive, Function.update_of_ne ht, and_self]
  refine ⟨?_,?_,hs.localParticipant,?_⟩
  · intro t key b replaces' hb
    by_cases heq : (a.topic,a.key) = (t,key)
    · obtain ⟨rfl,rfl⟩ := Prod.mk.inj heq
      rw [latest_concat_self steps hsubject] at hb
      cases hb
      simp only [DiscoveryState.arrive, Function.update_self]
      exact ⟨trivial,fun c _ => .inl (InstanceQueue.getLast_of_push _ _ _ _)⟩
    · obtain ⟨hlatest,halive,hpending⟩ := hother t key heq
      rw [hlatest] at hb
      rw [halive, hpending]
      exact hs.told t key b replaces' hb
  · intro t key hnone
    by_cases heq : (a.topic,a.key) = (t,key)
    · obtain ⟨rfl,rfl⟩ := Prod.mk.inj heq
      rw [latest_concat_self steps hsubject] at hnone
      cases hnone
    · obtain ⟨hlatest,_,hpending⟩ := hother t key heq
      rw [hlatest] at hnone
      rw [hpending]
      exact hs.unheard t key hnone
  · rw [List.filterMap_append]
    exact hs.messages.trans (List.append_nil _).symm

private theorem Accounted.receive (hs : Accounted ctx steps s) (m : Option Message) :
    Accounted ctx (steps ++ [.receive m]) (s.receive m) := by
  have hlatest (x : BuiltinTopic × DdsGuid) :
      latest DiscoveryStep.subject x (steps ++ [.receive m]) = latest DiscoveryStep.subject x steps :=
    latest_concat_of_ne steps nofun
  refine ⟨?_,?_,hs.localParticipant,?_⟩
  · intro t key a replaces
    rw [hlatest]
    exact hs.told t key a replaces
  · intro t key
    rw [hlatest]
    exact hs.unheard t key
  · show s.answered.filterMap GraphCall.message? ++ (s.messages ++ [m]).filterMap id = _
    rw [List.filterMap_append, ← List.append_assoc, hs.messages, List.filterMap_append]
    rfl

private theorem Accounted.takesMessage (hs : Accounted ctx steps s) {step : DiscoveryStep Message}
    (hsubject : step.subject = none) (hmessage : step.message? = none) {m : Option Message} (h : TakesMessage s s' m) :
    Accounted ctx (steps ++ [step]) s' := by
  have hlatest (x : BuiltinTopic × DdsGuid) :
      latest DiscoveryStep.subject x (steps ++ [step]) = latest DiscoveryStep.subject x steps :=
    latest_concat_of_ne steps (by rw [hsubject]; nofun)
  -- A message is about no participant and no endpoint.
  have hanswered (x : BuiltinTopic × RmwGid) :
      latest GraphCall.subject x s'.answered = latest GraphCall.subject x s.answered := by
    rw [h.answered]
    cases m with
    | none => rw [Option.map_none, Option.toList_none, List.append_nil]
    | some m => exact latest_concat_of_ne _ nofun
  refine ⟨?_,?_,?_,?_⟩
  · intro t key a replaces
    rw [hlatest, h.readers, hanswered]
    exact hs.told t key a replaces
  · intro t key
    rw [hlatest, h.readers, hanswered]
    exact hs.unheard t key
  · rw [hanswered]
    exact hs.localParticipant
  · have hsum := hs.messages
    rw [h.messages] at hsum
    rw [h.answered, List.filterMap_append, List.filterMap_append, ← hsum, List.append_assoc]
    cases m <;> simp [hmessage, GraphCall.message?]

private theorem Accounted.takesSample (hs : Accounted ctx steps s) {step : DiscoveryStep Message}
    (hsubject : step.subject = none) (hmessage : step.message? = none) {t : BuiltinTopic} {key : DdsGuid}
    {data : Option Discovered} {pending : InstanceQueue DdsGuid (Option Discovered)}
    (h : TakesSample ctx s s' t key data pending) : Accounted ctx (steps ++ [step]) s' := by
  have hlatest (x : BuiltinTopic × DdsGuid) :
      latest DiscoveryStep.subject x (steps ++ [step]) = latest DiscoveryStep.subject x steps :=
    latest_concat_of_ne steps (by rw [hsubject]; nofun)
  obtain ⟨hof,hothers,_⟩ := InstanceQueue.take_eq_some h.take
  have hanswered (x : BuiltinTopic × RmwGid) (hx : x ≠ (t,ctx.gid key)) :
      latest GraphCall.subject x s'.answered = latest GraphCall.subject x s.answered := by
    rw [h.answered]
    cases hc : ctx.handle Message t key ((s.readers t).alive key) data with
    | none => rw [Option.toList_none, List.append_nil]
    | some c =>
      refine latest_concat_of_ne _ fun hsome => hx ?_
      exact Option.some.inj (hsome.symm.trans (ctx.handle_subject hc).1)
  have hkeeps (t' : BuiltinTopic) (key' : DdsGuid) (hne : (t',key') ≠ (t,key)) :
      (s'.readers t').pending.of key' = (s.readers t').pending.of key' ∧
        latest GraphCall.subject (t',ctx.gid key') s'.answered = latest GraphCall.subject (t',ctx.gid key') s.answered := by
    refine ⟨?_,hanswered _ fun heq => hne ?_⟩
    · rw [h.readers]
      by_cases ht : t' = t
      · subst ht
        rw [Function.update_self]
        exact hothers key' fun hkey => hne (by rw [hkey])
      · rw [Function.update_of_ne ht]
    · obtain ⟨rfl,hgid⟩ := Prod.mk.inj heq
      rw [convertGuidToGid_injective ctx.gidSize hgid]
  have halive (t' : BuiltinTopic) (key' : DdsGuid) : (s'.readers t').alive key' = (s.readers t').alive key' := by
    rw [h.readers]
    by_cases ht : t' = t
    · subst ht
      rw [Function.update_self]
    · rw [Function.update_of_ne ht]
  have hself : (s'.readers t).pending.of key = pending.of key := by rw [h.readers, Function.update_self]
  refine ⟨?_,?_,?_,?_⟩
  · intro t' key' a replaces ha
    rw [hlatest] at ha
    obtain ⟨hlive,htold⟩ := hs.told t' key' a replaces ha
    refine ⟨(halive t' key').trans hlive,fun c hc => ?_⟩
    by_cases heq : (t',key') = (t,key)
    · obtain ⟨rfl,rfl⟩ := Prod.mk.inj heq
      rw [hself]
      rcases htold c hc with hlast | ⟨hnil,_⟩
      · rw [hof] at hlast
        cases hrest : pending.of key' with
        | nil =>
          have hdata : data = a.data := Option.some.inj (by rwa [hrest] at hlast)
          refine .inr ⟨rfl,?_⟩
          rw [h.answered, hlive, hdata, hc]
          exact latest_concat_self _ (ctx.handle_subject hc).1
        | cons d rest =>
          rw [hrest, List.getLast?_cons_cons] at hlast
          exact .inl hlast
      · rw [hof] at hnil
        cases hnil
    · obtain ⟨hpending,hcalls⟩ := hkeeps t' key' heq
      rw [hpending, hcalls]
      exact htold c hc
  · intro t' key' hnone
    rw [hlatest] at hnone
    obtain ⟨hnil,hcalls⟩ := hs.unheard t' key' hnone
    by_cases heq : (t',key') = (t,key)
    · obtain ⟨rfl,rfl⟩ := Prod.mk.inj heq
      rw [hof] at hnil
      cases hnil
    · obtain ⟨hpending,hkept⟩ := hkeeps t' key' heq
      rw [hpending, hkept]
      exact ⟨hnil,hcalls⟩
  · rw [h.answered]
    cases hc : ctx.handle Message t key ((s.readers t).alive key) data with
    | none =>
      rw [Option.toList_none, List.append_nil]
      exact hs.localParticipant
    | some c =>
      obtain ⟨hc,hne⟩ := ctx.handle_subject hc
      rw [Option.toList_some, latest_concat_of_ne]
      · exact hs.localParticipant
      · rw [hc]
        exact fun heq => hne (Option.some.inj heq)
  · rw [h.answered, h.messages, List.filterMap_append, List.filterMap_append, ← hs.messages]
    cases hc : ctx.handle Message t key ((s.readers t).alive key) data with
    | none => simp [hmessage]
    | some c => simp [hmessage, ctx.handle_message hc]

/-! ### No sample is left lying -/

/-- A reader with samples will be handled: its status is set, or the thread is about to come to it. -/
private structure Awake (s : DiscoveryState TypeHash Message) : Prop where
  readers : ∀ t, (s.readers t).pending.items ≠ [] → s.triggered (.builtin t) = true ∨ .builtin t ∈ s.thread.toHandle
  messages : s.messages ≠ [] → s.triggered .entities = true ∨ .entities ∈ s.thread.toHandle

/-- Handling one reader to its end changes nothing for the others. -/
private theorem triggered_of_ne {s : DiscoveryState TypeHash Message} {x y : DiscoveryEntry} {xs : List DiscoveryEntry}
    (ht : s.thread = .handling (x :: xs)) (hne : y ≠ x) (h : s.triggered y = true ∨ y ∈ s.thread.toHandle) :
    Function.update s.triggered x false y = true ∨ y ∈ xs := by
  rw [Function.update_of_ne hne]
  rw [ht] at h
  exact h.imp_right fun hmem => (List.mem_cons.mp hmem).resolve_left hne

private theorem Awake.handleStep (hs : Awake s) {x : DiscoveryEntry} {xs : List DiscoveryEntry} {answer : ThreadAnswer}
    (ht : s.thread = .handling (x :: xs)) (hfails : answer ≠ .fails) (h : s.handleStep ctx x xs answer = some s') :
    Awake s' := by
  unfold DiscoveryState.handleStep at h
  split at h
  case h_1 =>
    cases h
    have hrest {y : DiscoveryEntry} (hy : y ≠ .guardCondition) (h : s.triggered y = true ∨ y ∈ s.thread.toHandle) :
        s.triggered y = true ∨ y ∈ xs := by
      rw [ht] at h
      exact h.imp_right fun hmem => (List.mem_cons.mp hmem).resolve_left hy
    exact ⟨fun t hne => hrest nofun (hs.readers t hne),fun hne => hrest nofun (hs.messages hne)⟩
  case h_2 => exact absurd rfl hfails
  case h_3 =>
    have hreaders (t : BuiltinTopic) (hne : (s.readers t).pending.items ≠ []) :=
      triggered_of_ne ht (y := .builtin t) nofun (hs.readers t hne)
    split at h
    · next hm =>
      cases h
      exact ⟨hreaders,fun hne => absurd hm hne⟩
    · next m messages hm =>
      cases h
      exact ⟨fun t hne => (hreaders t hne).imp_right (List.mem_cons_of_mem _),fun _ => .inr List.mem_cons_self⟩
  case h_4 => exact absurd rfl hfails
  case h_5 t =>
    split at h
    · next hnil =>
      cases h
      refine ⟨fun t' hne => ?_,fun hne => triggered_of_ne ht (y := .entities) nofun (hs.messages hne)⟩
      have htt : t' ≠ t := by
        rintro rfl
        exact hne hnil
      exact triggered_of_ne ht (fun heq => htt (DiscoveryEntry.builtin.inj heq)) (hs.readers t' hne)
    · cases h
  case h_6 t key =>
    split at h
    · next data pending htake =>
      cases h
      refine ⟨fun t' hne => ?_,
        fun hne => (triggered_of_ne ht (y := .entities) nofun (hs.messages hne)).imp_right (List.mem_cons_of_mem _)⟩
      by_cases htt : t' = t
      · subst htt
        exact .inr List.mem_cons_self
      · have hne' : (s.readers t').pending.items ≠ [] := by
          have hsame : Function.update s.readers t {s.readers t with pending} t' = s.readers t' :=
            Function.update_of_ne htt _ _
          rwa [← hsame]
        exact (triggered_of_ne ht (fun heq => htt (DiscoveryEntry.builtin.inj heq)) (hs.readers t' hne')).imp_right
          (List.mem_cons_of_mem _)
    · cases h
  case h_7 => cases h

/-- Between rounds only the thread moves on; it may not forget what it was to handle. -/
private theorem Awake.moves (hs : Awake s) {thread : DiscoveryThread (GraphCall TypeHash Message)}
    (h : ∀ y, s.triggered y = true ∨ y ∈ s.thread.toHandle → s.triggered y = true ∨ y ∈ thread.toHandle)
    (calls : List (GraphCall TypeHash Message)) : Awake {s with calls, thread} :=
  ⟨fun t hne => h _ (hs.readers t hne),fun hne => h _ (hs.messages hne)⟩

private theorem Awake.threadStep (hs : Awake s) {answer : ThreadAnswer} (hfails : answer ≠ .fails)
    (h : s.threadStep ctx answer = some s') : Awake s' := by
  unfold DiscoveryState.threadStep at h
  split at h
  case h_1 | h_4 | h_7 => exact absurd rfl hfails
  case h_8 xs ht =>
    split at h
    · next hxs =>
      cases h
      refine hs.moves (fun y hy => ?_) s.calls
      rw [ht] at hy
      rcases hy with hy | hy
      · exact .inr ((hxs.2.2 y (mem_discoveryEntries y)).mpr hy)
      · cases hy
    · cases h
  case h_10 x xs ht => exact hs.handleStep ht hfails h
  case h_11 c xs ht =>
    cases h
    refine hs.moves (fun y hy => ?_) _
    rwa [ht] at hy
  case h_12 => cases h
  all_goals
    next ht =>
      cases h
      refine hs.moves (fun y hy => .inl ?_) s.calls
      rw [ht] at hy
      exact hy.resolve_right List.not_mem_nil

private theorem next_accounted {step : DiscoveryStep Message} (hs : Accounted ctx steps s)
    (h : s.next ctx step = some s') : Accounted ctx (steps ++ [step]) s' := by
  cases step with
  | arrive a replaces =>
    cases h
    exact hs.arrive a replaces
  | receive m =>
    cases h
    exact hs.receive m
  | start outcome =>
    obtain ⟨ht,_,rfl⟩ := next_start h
    refine hs.idle rfl rfl ?_
    cases outcome with
    | ok => exact ⟨rfl,rfl,by rw [answered, answered, ht]; rfl⟩
    | noGuardCondition | noThread => exact ⟨rfl,rfl,rfl⟩
  | thread answer =>
    obtain ⟨⟨htakes,_⟩,_⟩ := threadStep_effect h
    rcases htakes with hnothing | ⟨m,hm⟩ | ⟨t,key,data,pending,hsample⟩
    · exact hs.idle rfl rfl hnothing
    · exact hs.takesMessage rfl rfl hm
    · exact hs.takesSample rfl rfl hsample
  | cleanUp => exact hs.idle rfl rfl (cleanUpStep_keeps h).1

/-- Steps of the others may set a status, and must set it where they bring something. -/
private theorem Awake.woken (hs : Awake s) (hthread : s'.thread.toHandle = s.thread.toHandle)
    (htriggered : ∀ x ≠ .guardCondition, s.triggered x = true → s'.triggered x = true)
    (hreaders : ∀ t, s'.readers t = s.readers t ∨ s'.triggered (.builtin t) = true)
    (hmessages : s'.messages = s.messages ∨ s'.triggered .entities = true) : Awake s' where
  readers t hne := by
    rw [hthread]
    rcases hreaders t with heq | hset
    · rw [heq] at hne
      exact (hs.readers t hne).imp_left (htriggered (.builtin t) nofun)
    · exact .inl hset
  messages hne := by
    rw [hthread]
    rcases hmessages with heq | hset
    · rw [heq] at hne
      exact (hs.messages hne).imp_left (htriggered .entities nofun)
    · exact .inl hset

private theorem next_awake {step : DiscoveryStep Message} (hs : Awake s) (hfails : step.fails = false)
    (h : s.next ctx step = some s') : Awake s' := by
  have hset (x y : DiscoveryEntry) (hy : s.triggered y = true) : Function.update s.triggered x true y = true := by
    by_cases hx : y = x
    · subst hx
      exact Function.update_self _ _ _
    · rwa [Function.update_of_ne hx]
  cases step with
  | arrive a replaces =>
    cases h
    refine hs.woken rfl (fun y _ => hset _ y) (fun t => ?_) (.inl rfl)
    by_cases ht : t = a.topic
    · subst ht
      exact .inr (by simp [DiscoveryState.arrive])
    · exact .inl (Function.update_of_ne ht _ _)
  | receive m =>
    cases h
    exact hs.woken rfl (fun y _ => hset _ y) (fun _ => .inl rfl) (.inr (by simp [DiscoveryState.receive]))
  | start outcome =>
    obtain ⟨ht,_,rfl⟩ := next_start h
    cases outcome with
    | ok =>
      refine hs.woken (by rw [ht]; rfl) (fun y hy htriggered => ?_) (fun _ => .inl rfl) (.inl rfl)
      exact (Function.update_of_ne hy _ _).trans htriggered
    | noGuardCondition | noThread => exact ⟨hs.readers,hs.messages⟩
  | thread answer => exact hs.threadStep (fun heq => by rw [heq] at hfails; cases hfails) h
  | cleanUp =>
    obtain ⟨hkeeps,hthread,htriggered,_⟩ := cleanUpStep_keeps h
    exact hs.woken (congrArg _ hthread) (fun y hy hset => (htriggered y hy).trans hset)
      (fun t => .inl (congrFun hkeeps.readers t)) (.inl hkeeps.messages)

private theorem run_accounted (h : (discoveryMachine Message ctx).run steps = some s) : Accounted ctx steps s := by
  induction h using Machine.run_induction with
  | start => exact Accounted.initial
  | step _ hl ih => exact next_accounted ih hl

private theorem run_awake (h : (discoveryMachine Message ctx).run steps = some s)
    (hfails : ∀ step ∈ steps, step.fails = false) : Awake s := by
  induction h using Machine.run_induction with
  | start => exact ⟨fun t hne => absurd rfl hne,fun hne => absurd rfl hne⟩
  | step _ hl ih =>
    obtain ⟨hbefore,hlast⟩ := List.forall_mem_append.mp hfails
    exact next_awake (ih hbefore) (hlast _ List.mem_cons_self) hl

end DiscoveryState

/-- When the thread waits and nothing wakes it up, the graph cache is up to date, unless a DDS call of the thread has failed. -/
theorem graphCache_upToDate {steps : List (DiscoveryStep Message)} (h : (discoveryMachine Message ctx).run steps = some s)
    (hfails : ∀ step ∈ steps, step.fails = false) (hwaiting : s.thread = .waiting)
    (hasleep : ∀ x, s.triggered x = false) : UpToDate ctx steps s.calls := by
  have hs := run_accounted h
  have hawake := run_awake h hfails
  have hanswered : s.answered = s.calls := by
    rw [answered, hwaiting]
    exact List.append_nil _
  have hleft {x : DiscoveryEntry} (hx : s.triggered x = true ∨ x ∈ s.thread.toHandle) : False := by
    rw [hasleep, hwaiting] at hx
    rcases hx with hx | hx
    · cases hx
    · cases hx
  have hnil (t : BuiltinTopic) : (s.readers t).pending.items = [] := not_not.mp fun hne => hleft (hawake.readers t hne)
  have hof (t : BuiltinTopic) (key : DdsGuid) : (s.readers t).pending.of key = [] := by
    rw [InstanceQueue.of, hnil]
    rfl
  have hmessages : s.messages = [] := not_not.mp fun hne => hleft (hawake.messages hne)
  refine ⟨fun t key a replaces c ha hc => ?_,fun t key hnone => ?_,?_,?_⟩
  · rcases (hs.told t key a replaces ha).2 c hc with hlast | ⟨_,htold⟩
    · rw [hof] at hlast
      cases hlast
    · rwa [hanswered] at htold
  · have hunheard := (hs.unheard t key hnone).2
    rwa [hanswered] at hunheard
  · rw [← hanswered]
    exact hs.localParticipant
  · have hsum := hs.messages
    rwa [hmessages, hanswered, List.filterMap_nil, List.append_nil] at hsum

def chatterWriter : BuiltintopicEndpoint where
  key := chatterGuid
  participantKey := chatterGuid
  topicName := "rt/chatter".toList
  typeName := "std_msgs::msg::dds_::String_".toList
  qos := {}
  userdata := none

/-- A writer is discovered by a thread that waits. -/
def oneWriter : List (DiscoveryStep Unit) :=
  .start .ok :: List.replicate 8 (.thread .ok) ++
    [.arrive (.written (.publication chatterWriter)) false,.thread (.triggered [.builtin .publication]),
      .thread (.takes chatterGuid)] ++ List.replicate 4 (.thread .ok)

theorem oneWriter_upToDate : ∃ s, (discoveryMachine Unit quietDiscovery).run oneWriter = some s ∧
    latest GraphCall.subject (.publication,quietDiscovery.gid chatterGuid) s.calls =
      quietDiscovery.handle Unit .publication chatterGuid true (some (.publication chatterWriter)) := by
  have hrun : (discoveryMachine Unit quietDiscovery).run oneWriter = some _ := rfl
  refine ⟨_,hrun,?_⟩
  have hupToDate := graphCache_upToDate hrun (by decide) rfl fun x => by rcases x with _ | _ | (_ | _ | _) <;> rfl
  exact hupToDate.told .publication chatterGuid (.written (.publication chatterWriter)) false _ rfl rfl

end RmwCyclonedds
