import RmwCyclonedds.Bytewise
import RmwCyclonedds.Library.Search

/-! Names of DDS topics made from names of topics and services, and back. -/
namespace RmwCyclonedds
open Library.Search

def rosTopicPrefix : Text := "rt".toList

def rosServiceRequesterPrefix : Text := "rq".toList

def rosServiceResponsePrefix : Text := "rr".toList

def makeFqtopic (pre topicName suffix : Text) (avoidRosNamespaceConventions : Bool) : Text :=
  if avoidRosNamespaceConventions then topicName ++ suffix else pre ++ topicName ++ suffix

def resolvePrefix (name pre : Text) : Outcome Text :=
  if lastAt pre name 0 = some 0 then
    match name[pre.length]? with
    | none => .error (.throws .outOfRange)
    | some c => if c = '/' then .ok (name.drop pre.length) else .ok []
  else .ok []

def demangleRosTopicFromTopic (topicName : Text) : Outcome Text := resolvePrefix topicName rosTopicPrefix

/-- `_demangle_service_from_topic` for one form of service topics. -/
def demangleServiceFromTopicWith (pre topicName suffix : Text) : Outcome Text := do
  let serviceName ← resolvePrefix topicName pre
  if serviceName = [] then return []
  match rfind suffix serviceName with
  | some suffixPosition =>
    if serviceName.length - suffixPosition - suffix.length ≠ 0 then return []
    return serviceName.take suffixPosition
  | none => return []

def demangleServiceRequestFromTopic (topicName : Text) : Outcome Text :=
  demangleServiceFromTopicWith rosServiceRequesterPrefix topicName "Request".toList

def demangleServiceReplyFromTopic (topicName : Text) : Outcome Text :=
  demangleServiceFromTopicWith rosServiceResponsePrefix topicName "Reply".toList

def demangleServiceFromTopic (topicName : Text) : Outcome Text := do
  let demangledTopic ← demangleServiceReplyFromTopic topicName
  if demangledTopic ≠ [] then return demangledTopic
  demangleServiceRequestFromTopic topicName

/-! ### The prefix -/

private theorem resolvePrefix_mangled (pre n : Text) : resolvePrefix (pre ++ '/' :: n) pre = .ok ('/' :: n) := by
  have hat : (pre ++ '/' :: n)[pre.length]? = some '/' := by
    rw [List.getElem?_append_right le_rfl, Nat.sub_self]
    rfl
  rw [resolvePrefix, if_pos (lastAt_zero_iff.mpr (List.prefix_append pre _)), hat]
  simp only [if_true, List.drop_left]

private theorem resolvePrefix_foreign {name pre : Text} (h : ¬pre <+: name) : resolvePrefix name pre = .ok [] := by
  rw [resolvePrefix, if_neg (fun hz => h (lastAt_zero_iff.mp hz))]

private theorem resolvePrefix_ok {name pre m : Text} (h : resolvePrefix name pre = .ok m) (hm : m ≠ []) :
    name = pre ++ m ∧ m.head? = some '/' := by
  rw [resolvePrefix] at h
  split at h
  · next hz =>
    obtain ⟨rest,hr⟩ := lastAt_zero_iff.mp hz
    split at h
    · cases h
    · next c hat =>
      rw [← hr, List.getElem?_append_right le_rfl, Nat.sub_self] at hat
      split at h
      · next hc =>
        cases h
        rw [← hr, List.drop_left]
        refine ⟨rfl,?_⟩
        rw [List.head?_eq_getElem?, hat, hc]
      · cases h
        exact absurd rfl hm
  · cases h
    exact absurd rfl hm

/-! ### The suffix -/

private theorem demangleWith_resolved {name pre suffix s : Text} (h : resolvePrefix name pre = .ok s) (hs : s ≠ []) :
    demangleServiceFromTopicWith pre name suffix = match rfind suffix s with
      | some i => if s.length - i - suffix.length ≠ 0 then .ok [] else .ok (s.take i)
      | none => .ok [] := by
  rw [demangleServiceFromTopicWith, h]
  exact if_neg hs

private theorem demangleWith_mangled (pre n : Text) {suffix : Text} (hs : suffix ≠ []) :
    demangleServiceFromTopicWith pre (pre ++ '/' :: n ++ suffix) suffix = .ok ('/' :: n) := by
  have hresolved := resolvePrefix_mangled pre (n ++ suffix)
  have hfound : rfind suffix ('/' :: (n ++ suffix)) = some ('/' :: n).length := rfind_append (a := '/' :: n) hs
  have hend : ('/' :: (n ++ suffix)).length - ('/' :: n).length - suffix.length = 0 := by
    simp only [List.length_cons, List.length_append]
    omega
  rw [List.append_assoc, List.cons_append, demangleWith_resolved hresolved (List.cons_ne_nil _ _), hfound]
  simp only
  rw [if_neg (not_not.mpr hend)]
  show Except.ok ((('/' :: n) ++ suffix).take ('/' :: n).length) = _
  rw [List.take_left]

private theorem demangleWith_foreign {name pre suffix : Text} (h : ¬pre <+: name) :
    demangleServiceFromTopicWith pre name suffix = .ok [] := by
  rw [demangleServiceFromTopicWith, resolvePrefix_foreign h]
  rfl

private theorem demangleWith_ok {name pre suffix m : Text} (h : demangleServiceFromTopicWith pre name suffix = .ok m)
    (hm : m ≠ []) : name = pre ++ m ++ suffix := by
  obtain ⟨s,hs,hrest⟩ := Outcome.bind_eq_ok h
  by_cases hne : s = []
  · rw [if_pos hne] at hrest
    cases hrest
    exact absurd rfl hm
  · rw [demangleWith_resolved hs hne] at h
    have hname := (resolvePrefix_ok hs hne).1
    split at h
    · next i hi =>
      split at h
      · cases h
        exact absurd rfl hm
      · next hend =>
        cases h
        rw [List.append_assoc, ← rfind_at_end hi (not_not.mp hend), hname]
    · cases h
      exact absurd rfl hm

/-! ### The three kinds of names -/

/-- What a DDS topic made by the ROS conventions stands for. -/
inductive TopicKind where
  | topic
  | request
  | reply
  deriving DecidableEq

namespace TopicKind

def mangle : TopicKind → Text → Text
  | topic, n => makeFqtopic rosTopicPrefix n [] false
  | request, n => makeFqtopic rosServiceRequesterPrefix n "Request".toList false
  | reply, n => makeFqtopic rosServiceResponsePrefix n "Reply".toList false

def demangle : TopicKind → Text → Outcome Text
  | topic => demangleRosTopicFromTopic
  | request => demangleServiceRequestFromTopic
  | reply => demangleServiceReplyFromTopic

def pre : TopicKind → Text
  | topic => rosTopicPrefix
  | request => rosServiceRequesterPrefix
  | reply => rosServiceResponsePrefix

def suffix : TopicKind → Text
  | topic => []
  | request => "Request".toList
  | reply => "Reply".toList

private theorem suffix_topic : suffix topic = [] := rfl

private theorem mangle_eq (k : TopicKind) (n : Text) : k.mangle n = k.pre ++ n ++ k.suffix := by
  cases k <;> rfl

private theorem pre_length (k : TopicKind) : k.pre.length = 2 := by
  cases k <;> rfl

private theorem pre_injective {k l : TopicKind} (h : k.pre = l.pre) : k = l := by
  cases k <;> cases l <;> first | rfl | exact absurd h (by decide)

private theorem demangle_mangle (k : TopicKind) (n : Text) : k.demangle (k.mangle ('/' :: n)) = .ok ('/' :: n) := by
  rw [mangle_eq]
  cases k with
  | topic =>
    rw [suffix_topic, List.append_nil]
    exact resolvePrefix_mangled rosTopicPrefix n
  | request => exact demangleWith_mangled rosServiceRequesterPrefix n (by decide)
  | reply => exact demangleWith_mangled rosServiceResponsePrefix n (by decide)

private theorem demangle_foreign {k l : TopicKind} (h : k ≠ l) (n : Text) : k.demangle (l.mangle n) = .ok [] := by
  have hpre : ¬k.pre <+: l.mangle n := by
    intro hk
    have hlen : k.pre.length = l.pre.length := by rw [pre_length, pre_length]
    rw [mangle_eq, List.append_assoc] at hk
    have hle := List.prefix_of_prefix_length_le hk (List.prefix_append l.pre _) hlen.le
    exact h (pre_injective (hle.eq_of_length hlen))
  cases k with
  | topic => exact resolvePrefix_foreign hpre
  | request => exact demangleWith_foreign hpre
  | reply => exact demangleWith_foreign hpre

private theorem mangle_demangle {k : TopicKind} {name m : Text} (h : k.demangle name = .ok m) (hm : m ≠ []) :
    k.mangle m = name := by
  rw [mangle_eq]
  cases k with
  | topic =>
    rw [suffix_topic, List.append_nil]
    exact (resolvePrefix_ok h hm).1.symm
  | request => exact (demangleWith_ok h hm).symm
  | reply => exact (demangleWith_ok h hm).symm

private theorem service_mangle (k : TopicKind) (n : Text) :
    demangleServiceFromTopic (k.mangle ('/' :: n)) = .ok (if k = .topic then [] else '/' :: n) := by
  have hreply : demangleServiceFromTopic (k.mangle ('/' :: n)) = (do
    let m ← reply.demangle (k.mangle ('/' :: n))
    if m ≠ [] then return m
    request.demangle (k.mangle ('/' :: n))) := rfl
  cases k with
  | topic =>
    rw [hreply, demangle_foreign (show reply ≠ topic by decide)]
    exact demangle_foreign (k := .request) (l := .topic) nofun ('/' :: n)
  | request =>
    rw [hreply, demangle_foreign (show reply ≠ request by decide)]
    exact demangle_mangle .request n
  | reply =>
    rw [hreply, demangle_mangle]
    rfl

/-- A mangled name comes back from the demangler of its kind and from no other, and what a
demangler gives back is the name that was mangled. -/
theorem demangle_inverts_mangle :
    (∀ (k l : TopicKind) (n : Text), k.demangle (l.mangle ('/' :: n)) = .ok (if k = l then '/' :: n else [])) ∧
    (∀ (k : TopicKind) (n : Text), demangleServiceFromTopic (k.mangle ('/' :: n)) =
      .ok (if k = .topic then [] else '/' :: n)) ∧
    ∀ (k : TopicKind) (name m : Text), k.demangle name = .ok m → m ≠ [] → k.mangle m = name := by
  refine ⟨?_,service_mangle,fun k name m => mangle_demangle⟩
  intro k l n
  by_cases h : k = l
  · subst h
    rw [if_pos rfl]
    exact demangle_mangle k n
  · rw [if_neg h]
    exact demangle_foreign h ('/' :: n)

/-- The service `/a` whose request topic is found on the network. -/
theorem a_service_named : request.mangle "/a".toList = "rq/aRequest".toList :=
  demangle_inverts_mangle.2.2 .request _ _ (by decide) (by decide)

end TopicKind
end RmwCyclonedds
