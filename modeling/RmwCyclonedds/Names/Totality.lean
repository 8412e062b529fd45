import RmwCyclonedds.Names.TypeName

/-! The demanglers with every access to a string checked, and the names for which they return. -/
namespace RmwCyclonedds
open Library.Search

/-- Subtraction of sizes, which wraps around below zero. -/
def sizeSub (a b : Nat) : Nat := if b ≤ a then a - b else sizeMax + 1 - (b - a)

/-- `std::string::at` -/
def elementAt (s : Text) (i : Nat) : Outcome Char :=
  match s[i]? with
  | some c => .ok c
  | none => .error (.throws .outOfRange)

/-- `std::string::operator[]`: a null character stands behind the last one, and nothing may be read further on. -/
def elementUnchecked (s : Text) (i : Nat) : Outcome Char :=
  match s[i]? with
  | some c => .ok c
  | none => if i = s.length then .ok (Char.ofNat 0) else .error .undefined

/-- `std::string::substr` -/
def substr (s : Text) (pos n : Nat) : Outcome Text :=
  if pos ≤ s.length then .ok ((s.drop pos).take n) else .error (.throws .outOfRange)

theorem substr_ok {s : Text} {pos : Nat} (h : pos ≤ s.length) (n : Nat) : substr s pos n = .ok ((s.drop pos).take n) :=
  if_pos h

def Outcome.Returns {α : Type} (x : Outcome α) : Prop := ∃ r, x = .ok r

theorem Outcome.returns_ok {α : Type} (r : α) : Outcome.Returns (.ok r) := ⟨r,rfl⟩

theorem Outcome.returns_bind {α β : Type} {x : Outcome α} {f : α → Outcome β} (hf : ∀ a, (f a).Returns) :
    (x >>= f).Returns ↔ x.Returns := by
  constructor
  · rintro ⟨r,h⟩
    obtain ⟨a,ha,-⟩ := Outcome.bind_eq_ok h
    exact ⟨a,ha⟩
  · rintro ⟨a,rfl⟩
    exact hf a

namespace Checked

def resolvePrefix (name pre : Text) : Outcome Text :=
  if lastAt pre name 0 = some 0 then do
    let c ← elementAt name pre.length
    if c = '/' then substr name pre.length sizeMax else return []
  else return []

def demangleRosTopicFromTopic (topicName : Text) : Outcome Text := resolvePrefix topicName rosTopicPrefix

def demangleServiceFromTopicWith (pre topicName suffix : Text) : Outcome Text := do
  let serviceName ← resolvePrefix topicName pre
  if serviceName = [] then return []
  else
    match rfind suffix serviceName with
    | some suffixPosition =>
      if sizeSub (sizeSub serviceName.length suffixPosition) suffix.length ≠ 0 then return []
      else substr serviceName 0 suffixPosition
    | none => return []

def demangleServiceRequestFromTopic (topicName : Text) : Outcome Text :=
  demangleServiceFromTopicWith rosServiceRequesterPrefix topicName "Request".toList

def demangleServiceReplyFromTopic (topicName : Text) : Outcome Text :=
  demangleServiceFromTopicWith rosServiceResponsePrefix topicName "Reply".toList

def demangleServiceFromTopic (topicName : Text) : Outcome Text := do
  let demangledTopic ← demangleServiceReplyFromTopic topicName
  if demangledTopic ≠ [] then return demangledTopic
  else demangleServiceRequestFromTopic topicName

section
variable (findAndReplace : Text → Text → Text → Text)

def demangleIfRosType (ddsTypeString : Text) : Outcome Text := do
  let last ← elementUnchecked ddsTypeString (sizeSub ddsTypeString.length 1)
  if last ≠ '_' then return ddsTypeString
  else
    let substring := "dds_::".toList
    match find substring ddsTypeString with
    | none => return ddsTypeString
    | some substringPosition => do
      let typeNamespace ← substr ddsTypeString 0 substringPosition
      let start := substringPosition + substring.length
      let typeName ← substr ddsTypeString start (sizeSub (sizeSub ddsTypeString.length 1) start)
      return findAndReplace typeNamespace "::".toList "/".toList ++ typeName

def demangleServiceTypeOnly (ddsTypeName : Text) : Outcome Text :=
  let nsSubstring := "dds_::".toList
  match find nsSubstring ddsTypeName with
  | none => return []
  | some nsSubstringPosition =>
    match suffixPosition ddsTypeName ["_Response_".toList,"_Request_".toList] (some 0) with
    | none => return []
    | some suffixPosition => do
      let typeNamespace ← substr ddsTypeName 0 nsSubstringPosition
      let start := nsSubstringPosition + nsSubstring.length
      let typeName ← substr ddsTypeName start (sizeSub suffixPosition start)
      return findAndReplace typeNamespace "::".toList "/".toList ++ typeName

end

/-! ### The checks leave the results as they are -/

private theorem resolvePrefix_eq {name : Text} (h : name.length ≤ sizeMax) (pre : Text) :
    resolvePrefix name pre = RmwCyclonedds.resolvePrefix name pre := by
  rw [resolvePrefix, RmwCyclonedds.resolvePrefix]
  split
  · rw [elementAt]
    cases hat : name[pre.length]? with
    | none => rfl
    | some c =>
      have hle : pre.length ≤ name.length := (List.getElem?_eq_some_iff.mp hat).1.le
      have hall : (name.drop pre.length).take sizeMax = name.drop pre.length := by
        apply List.take_of_length_le
        rw [List.length_drop]
        omega
      rw [substr_ok hle, hall]
      rfl
  · rfl

private theorem demangleWith_eq {topicName : Text} (h : topicName.length ≤ sizeMax) (pre suffix : Text) :
    demangleServiceFromTopicWith pre topicName suffix =
      RmwCyclonedds.demangleServiceFromTopicWith pre topicName suffix := by
  rw [demangleServiceFromTopicWith, RmwCyclonedds.demangleServiceFromTopicWith, resolvePrefix_eq h]
  congr 1
  funext serviceName
  split
  · rfl
  · cases hi : rfind suffix serviceName with
    | none => rfl
    | some i =>
      obtain ⟨hle,hpre⟩ := lastAt_some hi
      have hlen := hpre.length_le
      rw [List.length_drop] at hlen
      have hsub : sizeSub (sizeSub serviceName.length i) suffix.length = serviceName.length - i - suffix.length := by
        rw [sizeSub, sizeSub, if_pos hle, if_pos hlen]
      simp only
      rw [hsub, substr_ok (Nat.zero_le _), List.drop_zero]
      split <;> rfl

private theorem service_eq {topicName : Text} (h : topicName.length ≤ sizeMax) :
    demangleServiceFromTopic topicName = RmwCyclonedds.demangleServiceFromTopic topicName := by
  have hreply : demangleServiceReplyFromTopic topicName = RmwCyclonedds.demangleServiceReplyFromTopic topicName :=
    demangleWith_eq h _ _
  have hrequest : demangleServiceRequestFromTopic topicName = RmwCyclonedds.demangleServiceRequestFromTopic topicName :=
    demangleWith_eq h _ _
  rw [demangleServiceFromTopic, RmwCyclonedds.demangleServiceFromTopic, hreply, hrequest]

private theorem elementUnchecked_last {s : Text} (h : s ≠ []) :
    elementUnchecked s (sizeSub s.length 1) = .ok (s.getLast h) := by
  have hpos : 1 ≤ s.length := List.length_pos_iff.mpr h
  have hlt : s.length - 1 < s.length := Nat.sub_lt hpos one_pos
  rw [sizeSub, if_pos hpos, elementUnchecked, List.getElem?_eq_getElem hlt, ← List.getLast_eq_getElem h]

private theorem elementUnchecked_empty : elementUnchecked [] (sizeSub 0 1) = .error .undefined := by decide

private theorem ifRosType_eq (findAndReplace : Text → Text → Text → Text) {ddsTypeString : Text} (h : ddsTypeString ≠ []) :
    demangleIfRosType findAndReplace ddsTypeString = RmwCyclonedds.demangleIfRosType findAndReplace ddsTypeString := by
  rw [demangleIfRosType, RmwCyclonedds.demangleIfRosType, elementUnchecked_last h, List.getLast?_eq_some_getLast h]
  show (if ddsTypeString.getLast h ≠ '_' then _ else _ : Outcome Text) = if ddsTypeString.getLast h ≠ '_' then _ else _
  split
  · rfl
  · simp only
    cases hp : find "dds_::".toList ddsTypeString with
    | none => rfl
    | some p =>
      have hle := find_le (by decide) hp
      have hname : (ddsTypeString.drop (p + "dds_::".toList.length)).take
            (sizeSub (sizeSub ddsTypeString.length 1) (p + "dds_::".toList.length)) =
          (ddsTypeString.drop (p + "dds_::".toList.length)).take
            (ddsTypeString.length - 1 - (p + "dds_::".toList.length)) := by
        have hpos : 1 ≤ ddsTypeString.length := List.length_pos_iff.mpr h
        rw [sizeSub, sizeSub, if_pos hpos]
        split
        · rfl
        · have hnil : ddsTypeString.drop (p + "dds_::".toList.length) = [] := by
            apply List.drop_eq_nil_of_le
            omega
          rw [hnil, List.take_nil, List.take_nil]
      simp only
      rw [substr_ok (Nat.zero_le _), substr_ok hle, List.drop_zero, hname]
      rfl

private theorem serviceTypeOnly_eq (findAndReplace : Text → Text → Text → Text) {ddsTypeName : Text}
    (h : ddsTypeName.length ≤ sizeMax) : demangleServiceTypeOnly findAndReplace ddsTypeName =
      .ok (RmwCyclonedds.demangleServiceTypeOnly findAndReplace ddsTypeName) := by
  rw [demangleServiceTypeOnly, RmwCyclonedds.demangleServiceTypeOnly]
  cases hp : find "dds_::".toList ddsTypeName with
  | none => rfl
  | some p =>
    have hle := find_le (by decide) hp
    simp only
    cases suffixPosition ddsTypeName ["_Response_".toList,"_Request_".toList] (some 0) with
    | none => rfl
    | some q =>
      simp only
      rw [substr_ok (Nat.zero_le _), substr_ok hle, List.drop_zero]
      show Except.ok (_ ++ List.take _ _) = Except.ok _
      congr 2
      split
      · next hq =>
        -- the length that wrapped around is larger than any string
        rw [sizeSub, if_neg (not_le.mpr hq), List.take_of_length_le]
        rw [List.length_drop]
        omega
      · next hq => rw [sizeSub, if_pos (not_lt.mp hq)]

/-- Where nothing is accessed out of range, the checks change nothing. -/
theorem checked_eq (findAndReplace : Text → Text → Text → Text) {topicName typeName : Text}
    (htopic : topicName.length ≤ sizeMax) (htype : typeName.length ≤ sizeMax) :
    demangleRosTopicFromTopic topicName = RmwCyclonedds.demangleRosTopicFromTopic topicName ∧
    demangleServiceFromTopic topicName = RmwCyclonedds.demangleServiceFromTopic topicName ∧
    demangleServiceRequestFromTopic topicName = RmwCyclonedds.demangleServiceRequestFromTopic topicName ∧
    demangleServiceReplyFromTopic topicName = RmwCyclonedds.demangleServiceReplyFromTopic topicName ∧
    demangleIfRosType findAndReplace typeName = RmwCyclonedds.demangleIfRosType findAndReplace typeName ∧
    demangleServiceTypeOnly findAndReplace typeName =
      .ok (RmwCyclonedds.demangleServiceTypeOnly findAndReplace typeName) := by
  refine ⟨resolvePrefix_eq htopic _,service_eq htopic,demangleWith_eq htopic _ _,demangleWith_eq htopic _ _,?_,
    serviceTypeOnly_eq findAndReplace htype⟩
  by_cases hne : typeName = []
  · subst hne
    rfl
  · exact ifRosType_eq findAndReplace hne

/-! ### Topic names -/

private theorem resolvePrefix_returns (name pre : Text) : (resolvePrefix name pre).Returns ↔ name ≠ pre := by
  rw [resolvePrefix]
  by_cases h : lastAt pre name 0 = some 0
  · rw [if_pos h]
    obtain ⟨rest,rfl⟩ := lastAt_zero_iff.mp h
    cases rest with
    | nil =>
      rw [List.append_nil, elementAt, List.getElem?_eq_none le_rfl]
      constructor
      · rintro ⟨r,hr⟩
        cases hr
      · intro hne
        exact absurd rfl hne
    | cons c rest =>
      have hat : elementAt (pre ++ c :: rest) pre.length = .ok c := by
        rw [elementAt, List.getElem?_append_right le_rfl, Nat.sub_self]
        rfl
      have hle : pre.length ≤ (pre ++ c :: rest).length := by
        rw [List.length_append]
        exact Nat.le_add_right _ _
      have hne : pre ++ c :: rest ≠ pre := by
        intro he
        exact absurd (List.append_right_eq_self.mp he) (List.cons_ne_nil c rest)
      refine iff_of_true ?_ hne
      rw [hat, substr_ok hle]
      show (if c = '/' then _ else _ : Outcome Text).Returns
      split
      · exact Outcome.returns_ok _
      · exact Outcome.returns_ok _
  · rw [if_neg h]
    refine iff_of_true (Outcome.returns_ok _) ?_
    rintro rfl
    exact h (lastAt_zero_iff.mpr (List.prefix_refl name))

private theorem demangleWith_returns (pre topicName suffix : Text) :
    (demangleServiceFromTopicWith pre topicName suffix).Returns ↔ topicName ≠ pre := by
  rw [← resolvePrefix_returns topicName pre, demangleServiceFromTopicWith]
  apply Outcome.returns_bind
  intro serviceName
  split
  · exact Outcome.returns_ok _
  · split
    · split
      · exact Outcome.returns_ok _
      · rw [substr_ok (Nat.zero_le _)]
        exact Outcome.returns_ok _
    · exact Outcome.returns_ok _

private theorem service_returns (topicName : Text) : (demangleServiceFromTopic topicName).Returns ↔
    topicName ≠ rosServiceResponsePrefix ∧ topicName ≠ rosServiceRequesterPrefix := by
  have hreply := demangleWith_returns rosServiceResponsePrefix topicName "Reply".toList
  have hrequest := demangleWith_returns rosServiceRequesterPrefix topicName "Request".toList
  constructor
  · rintro ⟨r,h⟩
    refine ⟨?_,?_⟩
    · obtain ⟨m,hm,-⟩ := Outcome.bind_eq_ok h
      exact hreply.mp ⟨m,hm⟩
    · rintro rfl
      have hthrows : demangleServiceFromTopic rosServiceRequesterPrefix = .error (.throws .outOfRange) := by decide
      rw [hthrows] at h
      cases h
  · rintro ⟨hr,hq⟩
    obtain ⟨m,hm⟩ := hreply.mpr hr
    show (demangleServiceFromTopicWith _ _ _ >>= _).Returns
    rw [hm]
    show (if m ≠ [] then _ else _ : Outcome Text).Returns
    split
    · exact Outcome.returns_ok _
    · exact hrequest.mpr hq

/-! ### Type names -/

section
variable (findAndReplace : Text → Text → Text → Text)

private theorem ifRosType_returns (ddsTypeString : Text) :
    (demangleIfRosType findAndReplace ddsTypeString).Returns ↔ ddsTypeString ≠ [] := by
  constructor
  · rintro ⟨r,h⟩ rfl
    obtain ⟨c,hc,-⟩ := Outcome.bind_eq_ok h
    rw [List.length_nil, elementUnchecked_empty] at hc
    cases hc
  · intro hne
    rw [demangleIfRosType, elementUnchecked_last hne]
    show (if ddsTypeString.getLast hne ≠ '_' then _ else _ : Outcome Text).Returns
    split
    · exact Outcome.returns_ok _
    · simp only
      split
      · exact Outcome.returns_ok _
      · next p hp =>
        have hle := find_le (by decide) hp
        rw [substr_ok (Nat.zero_le _), substr_ok hle]
        exact Outcome.returns_ok _

private theorem serviceTypeOnly_returns (ddsTypeName : Text) :
    (demangleServiceTypeOnly findAndReplace ddsTypeName).Returns := by
  rw [demangleServiceTypeOnly]
  simp only
  split
  · exact Outcome.returns_ok _
  · next p hp =>
    split
    · exact Outcome.returns_ok _
    · have hle := find_le (by decide) hp
      rw [substr_ok (Nat.zero_le _), substr_ok hle]
      exact Outcome.returns_ok _

/-- Every demangler returns for the names of a topic and its type. -/
structure Total (topicName typeName : Text) : Prop where
  rosTopic : (demangleRosTopicFromTopic topicName).Returns
  service : (demangleServiceFromTopic topicName).Returns
  serviceRequest : (demangleServiceRequestFromTopic topicName).Returns
  serviceReply : (demangleServiceReplyFromTopic topicName).Returns
  ifRosType : (demangleIfRosType findAndReplace typeName).Returns
  serviceTypeOnly : (demangleServiceTypeOnly findAndReplace typeName).Returns

/-- A topic whose name is one of the prefixes and nothing else, or a type without a name, is not demangled. -/
theorem demanglers_total_iff (topicName typeName : Text) : Total findAndReplace topicName typeName ↔
    topicName ∉ [rosTopicPrefix,rosServiceRequesterPrefix,rosServiceResponsePrefix] ∧ typeName ≠ [] := by
  have htopic := resolvePrefix_returns topicName rosTopicPrefix
  have hrequest := demangleWith_returns rosServiceRequesterPrefix topicName "Request".toList
  have hreply := demangleWith_returns rosServiceResponsePrefix topicName "Reply".toList
  simp only [List.mem_cons, List.not_mem_nil, or_false, not_or]
  constructor
  · rintro ⟨ht,-,hq,hr,htype,-⟩
    exact ⟨⟨htopic.mp ht,hrequest.mp hq,hreply.mp hr⟩,(ifRosType_returns findAndReplace typeName).mp htype⟩
  · rintro ⟨⟨ht,hq,hr⟩,htype⟩
    exact {
      rosTopic := htopic.mpr ht
      service := (service_returns topicName).mpr ⟨hr,hq⟩
      serviceRequest := hrequest.mpr hq
      serviceReply := hreply.mpr hr
      ifRosType := (ifRosType_returns findAndReplace typeName).mpr htype
      serviceTypeOnly := serviceTypeOnly_returns findAndReplace typeName }

end

/-- The topic `rt`, which is a prefix and nothing else. -/
theorem prefix_alone_not_total : ¬∀ (findAndReplace : Text → Text → Text → Text) (topicName typeName : Text),
    Total findAndReplace topicName typeName := by
  intro h
  obtain ⟨r,hr⟩ := (h (fun s _ _ => s) "rt".toList "std_msgs::msg::dds_::String_".toList).rosTopic
  have hthrows : demangleRosTopicFromTopic "rt".toList = .error (.throws .outOfRange) := by decide
  rw [hthrows] at hr
  cases hr

end Checked
end RmwCyclonedds
