import RmwCyclonedds.Node.DiscoveryThread

/-! The end of the discovery thread: `clean_up` does not wait for it in vain. -/
namespace RmwCyclonedds
open Library DiscoveryState

variable {TypeHash Message : Type} {ctx : DiscoveryContext TypeHash} {s s' : DiscoveryState TypeHash Message}

namespace DiscoveryStep

def isThread : DiscoveryStep Message → Bool
  | .thread _ => true
  | _ => false

def isArrival : DiscoveryStep Message → Bool
  | .arrive _ _ | .receive _ => true
  | _ => false

end DiscoveryStep

namespace DiscoveryState

/-- The samples that have not been taken. -/
def queued (s : DiscoveryState TypeHash Message) : Nat :=
  (s.readers .participant).pending.items.length + (s.readers .subscription).pending.items.length +
    (s.readers .publication).pending.items.length + s.messages.length

/-- The steps that are left to a thread that has been told to stop, apart from those for samples. -/
private def rank : DiscoveryThread (GraphCall TypeHash Message) → Nat
  | .notStarted | .ended => 0
  | .created => 8
  | .attaching rest => rest.length + 2
  | .testing => 1
  | .waiting => 8
  | .handling xs => xs.length + 2
  | .updating _ xs => xs.length + 3

private def work (s : DiscoveryState TypeHash Message) : Nat := 2 * s.queued + rank s.thread

private theorem queued_take {t : BuiltinTopic} {key : DdsGuid} {data : Option Discovered}
    {pending : InstanceQueue DdsGuid (Option Discovered)} (htake : (s.readers t).pending.take key = some (data,pending))
    (hreaders : s'.readers = Function.update s.readers t {s.readers t with pending}) (hmessages : s'.messages = s.messages) :
    s.queued = s'.queued + 1 := by
  have hlen := (InstanceQueue.take_eq_some htake).2.2
  unfold queued
  rw [hreaders, hmessages]
  cases t <;> simp only [Function.update_self, Function.update_of_ne, ne_eq, reduceCtorEq, not_false_eq_true] <;> omega

private theorem queued_arrive (s : DiscoveryState TypeHash Message) (a : Arrival) (replaces : Bool) :
    (s.arrive a replaces).queued ≤ s.queued + 1 := by
  have hlen := (s.readers a.topic).pending.length_push_le replaces a.key a.data
  unfold queued DiscoveryState.arrive
  cases ht : a.topic <;> rw [ht] at hlen <;>
    simp only [Function.update_self, Function.update_of_ne, ne_eq, reduceCtorEq, not_false_eq_true] <;> omega

/-- At most five entries are reported. -/
private theorem length_le_entries {xs : List DiscoveryEntry} (h : xs.Nodup) : xs.length ≤ 5 :=
  (h.subperm fun x _ => mem_discoveryEntries x).length_le

private theorem work_handled (s : DiscoveryState TypeHash Message) (x : DiscoveryEntry)
    (thread : DiscoveryThread (GraphCall TypeHash Message)) : (s.handled x thread).work = 2 * s.queued + rank thread := rfl

private theorem handleStep_work {x : DiscoveryEntry} {xs : List DiscoveryEntry} {answer : ThreadAnswer}
    (ht : s.thread = .handling (x :: xs)) (h : s.handleStep ctx x xs answer = some s') : s'.work < s.work := by
  have hwork : s.work = 2 * s.queued + (xs.length + 1 + 2) := by rw [work, ht]; rfl
  have hhandled (y : DiscoveryEntry) : (s.handled y (.handling xs)).work < s.work := by
    rw [work_handled, hwork, rank]
    omega
  unfold DiscoveryState.handleStep at h
  split at h
  case h_1 =>
    cases h
    exact hhandled .guardCondition
  case h_2 =>
    cases h
    exact hhandled .entities
  case h_3 =>
    split at h
    · cases h
      exact hhandled .entities
    · next m messages hm =>
      cases h
      have hqueued : s.queued = DiscoveryState.queued {s with messages} + 1 := by
        simp only [queued, hm, List.length_cons]
        omega
      show 2 * DiscoveryState.queued {s with messages} + (xs.length + 1 + 3) < s.work
      omega
  case h_4 t =>
    cases h
    exact hhandled (.builtin t)
  case h_5 t =>
    split at h
    · cases h
      exact hhandled (.builtin t)
    · cases h
  case h_6 t key =>
    split at h
    · next data pending htake =>
      have hqueued : s.queued = s'.queued + 1 := queued_take htake (by cases h; rfl) (by cases h; rfl)
      have hrank : rank s'.thread = xs.length + 1 + 3 := by cases h; rfl
      rw [work, hwork, hrank]
      omega
    · cases h
  case h_7 => cases h

/-- Once the thread is told to stop, every step brings it nearer to its end. -/
private theorem threadStep_work {answer : ThreadAnswer} (hrun : s.threadIsRunning = false)
    (h : s.threadStep ctx answer = some s') : s'.work < s.work := by
  have hmoves {thread : DiscoveryThread (GraphCall TypeHash Message)} (calls : List (GraphCall TypeHash Message))
      (hrank : rank thread < rank s.thread) : DiscoveryState.work {s with calls, thread} < s.work :=
    Nat.add_lt_add_left hrank (2 * s.queued)
  unfold DiscoveryState.threadStep at h
  split at h
  case h_6 ht =>
    cases h
    rw [hrun]
    exact hmoves s.calls (by rw [ht]; exact Nat.zero_lt_one)
  case h_8 xs ht =>
    split at h
    · next hxs =>
      cases h
      have hlen := length_le_entries hxs.2.1
      refine hmoves s.calls ?_
      rw [ht]
      show xs.length + 2 < 8
      omega
    · cases h
  case h_10 x xs ht => exact handleStep_work ht h
  case h_12 => cases h
  all_goals
    next ht =>
      cases h
      refine hmoves _ ?_
      rw [ht]
      simp [rank, discoveryEntries]

/-- A thread that has been woken up by its guard condition can always go on. -/
private theorem exists_threadStep (ctx : DiscoveryContext TypeHash) (hn : s.thread ≠ .notStarted) (he : s.thread ≠ .ended)
    (hgc : s.triggered .guardCondition = true) : ∃ answer, (s.threadStep ctx answer).isSome = true := by
  cases ht : s.thread with
  | notStarted => exact absurd ht hn
  | ended => exact absurd ht he
  | created | testing => exact ⟨.ok,by simp [threadStep, ht]⟩
  | updating c xs => exact ⟨.ok,by simp [threadStep, ht]⟩
  | attaching rest => cases rest <;> exact ⟨.ok,by simp [threadStep, ht]⟩
  | waiting =>
    have hmem : .guardCondition ∈ discoveryEntries.filter (s.triggered ·) :=
      List.mem_filter.mpr ⟨mem_discoveryEntries _,hgc⟩
    have hxs : discoveryEntries.filter (s.triggered ·) ≠ [] ∧ (discoveryEntries.filter (s.triggered ·)).Nodup ∧
        ∀ x ∈ discoveryEntries, x ∈ discoveryEntries.filter (s.triggered ·) ↔ s.triggered x = true := by
      refine ⟨List.ne_nil_of_mem hmem,List.Nodup.filter _ (by decide),fun x hx => ?_⟩
      rw [List.mem_filter]
      exact and_iff_right hx
    refine ⟨.triggered (discoveryEntries.filter (s.triggered ·)),?_⟩
    simp only [threadStep, ht]
    rw [if_pos hxs]
    rfl
  | handling xs =>
    cases xs with
    | nil => exact ⟨.ok,by simp [threadStep, ht]⟩
    | cons x xs =>
      cases x with
      | guardCondition => exact ⟨.ok,by simp [threadStep, ht, handleStep]⟩
      | entities => exact ⟨.ok,by cases hm : s.messages <;> simp [threadStep, ht, handleStep, hm]⟩
      | builtin t =>
        by_cases hnil : (s.readers t).pending.items = []
        · exact ⟨.ok,by simp [threadStep, ht, handleStep, hnil]⟩
        · obtain ⟨key,data,pending,htake⟩ := InstanceQueue.exists_take hnil
          exact ⟨.takes key,by simp [threadStep, ht, handleStep, htake]⟩

/-- The entries that the thread has listed. -/
private def listed : DiscoveryThread (GraphCall TypeHash Message) → List DiscoveryEntry
  | .attaching xs | .handling xs | .updating _ xs => xs
  | _ => []

private theorem handleStep_listed {x : DiscoveryEntry} {xs : List DiscoveryEntry} {answer : ThreadAnswer}
    (h : s.handleStep ctx x xs answer = some s') : (listed s'.thread).length ≤ xs.length + 1 := by
  unfold DiscoveryState.handleStep at h
  split at h
  case h_7 => cases h
  case h_1 | h_2 | h_4 =>
    cases h
    exact Nat.le_succ _
  all_goals
    split at h
    all_goals
      cases h
      try exact Nat.le_succ _
      try exact Nat.le_refl _

private theorem threadStep_listed {answer : ThreadAnswer} (hlen : (listed s.thread).length ≤ 5)
    (h : s.threadStep ctx answer = some s') : (listed s'.thread).length ≤ 5 := by
  unfold DiscoveryState.threadStep at h
  split at h
  case h_5 x rest ht =>
    cases h
    rw [ht] at hlen
    exact Nat.le_of_succ_le hlen
  case h_6 =>
    cases h
    show (listed (if s.threadIsRunning then DiscoveryThread.waiting else .ended)).length ≤ 5
    split <;> exact Nat.zero_le 5
  case h_8 =>
    split at h
    · next hxs =>
      cases h
      exact length_le_entries hxs.2.1
    · cases h
  case h_10 x xs ht =>
    rw [ht] at hlen
    exact (handleStep_listed h).trans hlen
  case h_11 c xs ht =>
    cases h
    rwa [ht] at hlen
  case h_12 => cases h
  case h_2 =>
    cases h
    exact Nat.le_refl 5
  all_goals
    cases h
    exact Nat.zero_le 5

private theorem run_listed {steps : List (DiscoveryStep Message)} (h : (discoveryMachine Message ctx).run steps = some s) :
    (listed s.thread).length ≤ 5 := by
  refine Machine.invariant (m := discoveryMachine Message ctx) (I := fun s => (listed s.thread).length ≤ 5)
    (Nat.zero_le 5) ?_ h
  intro s step s' hlen hl
  cases step with
  | arrive a replaces =>
    cases hl
    exact hlen
  | receive m =>
    cases hl
    exact hlen
  | start outcome =>
    have hnext : s.next ctx (.start outcome) = some s' := hl
    obtain ⟨_,_,rfl⟩ := next_start hnext
    cases outcome with
    | ok => exact Nat.zero_le 5
    | noGuardCondition | noThread => exact hlen
  | thread answer => exact threadStep_listed hlen hl
  | cleanUp => exact (congrArg (fun t => (listed t).length) (cleanUpStep_keeps hl).2.1).trans_le hlen

/-- The thread has been told to stop. -/
private def Stopping (s : DiscoveryState TypeHash Message) : Prop := s.threadIsRunning = false ∧ s.thread ≠ .notStarted

private theorem next_stopping {step : DiscoveryStep Message} (hs : Stopping s) (h : s.next ctx step = some s') :
    Stopping s' ∧ (if step.isThread then 1 else 0) + s'.work ≤ s.work + 2 * (if step.isArrival then 1 else 0) := by
  obtain ⟨hrun,hn⟩ := hs
  cases step with
  | arrive a replaces =>
    cases h
    refine ⟨⟨hrun,hn⟩,?_⟩
    have hqueued := s.queued_arrive a replaces
    show 0 + (2 * (s.arrive a replaces).queued + rank s.thread) ≤ 2 * s.queued + rank s.thread + 2 * 1
    omega
  | receive m =>
    cases h
    refine ⟨⟨hrun,hn⟩,?_⟩
    have hqueued : (s.receive m).queued = s.queued + 1 := by
      simp only [queued, DiscoveryState.receive, List.length_append, List.length_singleton]
      rfl
    show 0 + (2 * (s.receive m).queued + rank s.thread) ≤ 2 * s.queued + rank s.thread + 2 * 1
    omega
  | start outcome => exact absurd (next_start h).1 hn
  | thread answer =>
    obtain ⟨⟨_,hkeeps⟩,_,_,hn'⟩ := threadStep_effect h
    have hwork := threadStep_work hrun h
    refine ⟨⟨hkeeps.threadIsRunning.trans hrun,hn'⟩,?_⟩
    show 1 + s'.work ≤ s.work + 2 * 0
    omega
  | cleanUp =>
    obtain ⟨hkeeps,hthread,_,hrun'⟩ := cleanUpStep_keeps h
    have hwork : s'.work = s.work := by
      unfold work queued
      rw [hkeeps.readers, hkeeps.messages, hthread]
    refine ⟨⟨hrun' hrun,hthread.trans_ne hn⟩,?_⟩
    rw [hwork]
    exact Nat.le_of_eq (Nat.zero_add _)

private theorem run_stopping {steps more : List (DiscoveryStep Message)} (hs : Stopping s)
    (h : (discoveryMachine Message ctx).run steps = some s)
    (h' : (discoveryMachine Message ctx).run (steps ++ more) = some s') :
    Stopping s' ∧
      more.countP DiscoveryStep.isThread + s'.work ≤ s.work + 2 * more.countP DiscoveryStep.isArrival := by
  induction more using List.reverseRecOn generalizing s' with
  | nil =>
    rw [List.append_nil, h] at h'
    cases h'
    exact ⟨hs,Nat.le_of_eq (Nat.zero_add _)⟩
  | append_singleton more step ih =>
    rw [← List.append_assoc] at h'
    obtain ⟨r,hr,hstep⟩ := Machine.run_concat_eq_some _ h'
    obtain ⟨hr',hwork⟩ := ih hr
    obtain ⟨hs',hlast⟩ := next_stopping hr' hstep
    refine ⟨hs',?_⟩
    rw [List.countP_append, List.countP_append, List.countP_singleton, List.countP_singleton]
    omega

end DiscoveryState

/-- Once `clean_up` has triggered the guard condition, it waits for the thread only as long as the thread can go on, and
the thread makes no more than eight steps besides two for each sample. -/
theorem discoveryThread_ends {steps more : List (DiscoveryStep Message)}
    (h : (discoveryMachine Message ctx).run steps = some s) (hjoining : s.cleanUp = .joining)
    (h' : (discoveryMachine Message ctx).run (steps ++ more) = some s') :
    more.countP DiscoveryStep.isThread ≤ 2 * (s.queued + more.countP DiscoveryStep.isArrival) + 8 ∧
      (s'.cleanUp = .joining → (∃ s'', s'.next ctx .cleanUp = some s'') ∨
        ∃ answer s'', s'.next ctx (.thread answer) = some s'') := by
  have hs := (run_safe h).staged
  unfold Staged at hs
  rw [hjoining] at hs
  obtain ⟨⟨_,hn⟩,hwork⟩ := run_stopping hs h h'
  have hrank : rank s.thread ≤ 8 := by
    have hlisted := run_listed h
    cases ht : s.thread <;> rw [ht] at hlisted <;> simp only [rank, listed] at * <;> omega
  refine ⟨?_,fun hjoining' => ?_⟩
  · unfold work at hwork
    omega
  · by_cases he : s'.thread = .ended
    · left
      exact Option.isSome_iff_exists.mp (by simp [next, cleanUpStep, hjoining', he])
    · obtain ⟨answer,hsome⟩ := exists_threadStep ctx hn he ((run_safe h').joining hjoining')
      obtain ⟨s'',hs''⟩ := Option.isSome_iff_exists.mp hsome
      exact .inr ⟨answer,s'',hs''⟩

/-- A sample is waiting when `clean_up` triggers the guard condition. -/
def sampleWaiting : List (DiscoveryStep Unit) :=
  .start .ok :: List.replicate 8 (.thread .ok) ++
    [.arrive (.gone .publication chatterGuid) false,.cleanUp,.cleanUp]

/-- A message arrives too, and both are handled before the thread ends. -/
def lastRound : List (DiscoveryStep Unit) :=
  [.receive (some ()),.thread (.triggered [.guardCondition,.builtin .publication,.entities]),.thread .ok,
    .thread (.takes chatterGuid)] ++ List.replicate 7 (.thread .ok)

theorem lastRound_ends : ∃ s, (discoveryMachine Unit quietDiscovery).run sampleWaiting = some s ∧ s.queued = 1 ∧
    lastRound.countP DiscoveryStep.isThread = 10 ∧
    lastRound.countP DiscoveryStep.isThread ≤ 2 * (s.queued + lastRound.countP DiscoveryStep.isArrival) + 8 := by
  have hjoining : (discoveryMachine Unit quietDiscovery).run sampleWaiting = some _ := rfl
  have hrun : (discoveryMachine Unit quietDiscovery).run (sampleWaiting ++ lastRound) = some _ := rfl
  exact ⟨_,hjoining,rfl,rfl,(discoveryThread_ends hjoining rfl hrun).1⟩

end RmwCyclonedds
