import RmwCyclonedds.Names.Demangle

/-! Names of DDS types made from names of ROS interfaces, and back. -/
namespace RmwCyclonedds
open Library.Search

def getTypeNameImpl (messageNamespace messageName suffix : Text) : Text :=
  let name := if messageNamespace.length ≠ 0 then
      replaceFrom "__".toList "::".toList (by decide) messageNamespace 0 ++ "::".toList
    else []
  name ++ "dds_::".toList ++ messageName ++ ['_'] ++ suffix

section
-- `rcpputils::find_and_replace`
variable (findAndReplace : Text → Text → Text → Text)

/-- For an empty string the source looks at a character that does not exist. -/
def demangleIfRosType (ddsTypeString : Text) : Outcome Text :=
  match ddsTypeString.getLast? with
  | none => .error .undefined
  | some c =>
    if c ≠ '_' then .ok ddsTypeString
    else
      let substring := "dds_::".toList
      match find substring ddsTypeString with
      | none => .ok ddsTypeString
      | some substringPosition =>
        let typeNamespace := findAndReplace (ddsTypeString.take substringPosition) "::".toList "/".toList
        let start := substringPosition + substring.length
        .ok (typeNamespace ++ (ddsTypeString.drop start).take (ddsTypeString.length - 1 - start))

/-- The loop over the suffixes: where it stops, or the result of its last search. -/
def suffixPosition (ddsTypeName : Text) : List Text → Option Nat → Option Nat
  | [], position => position
  | suffix :: suffixes, _ =>
    match rfind suffix ddsTypeName with
    | some i => if ddsTypeName.length - i - suffix.length ≠ 0 then suffixPosition ddsTypeName suffixes (some i) else some i
    | none => suffixPosition ddsTypeName suffixes none

def demangleServiceTypeOnly (ddsTypeName : Text) : Text :=
  let nsSubstring := "dds_::".toList
  match find nsSubstring ddsTypeName with
  | none => []
  | some nsSubstringPosition =>
    match suffixPosition ddsTypeName ["_Response_".toList,"_Request_".toList] (some 0) with
    | none => []
    | some suffixPosition =>
      let typeNamespace := findAndReplace (ddsTypeName.take nsSubstringPosition) "::".toList "/".toList
      let start := nsSubstringPosition + nsSubstring.length
      let rest := ddsTypeName.drop start
      -- before the start, the length wraps around and everything is taken
      typeNamespace ++ if suffixPosition < start then rest else rest.take (suffixPosition - start)

end

def getMessageTypeNameImpl (messageNamespace messageName : Text) : Text :=
  getTypeNameImpl messageNamespace messageName []

def getRequestTypeNameImpl (serviceNamespace serviceName : Text) : Text :=
  getTypeNameImpl serviceNamespace serviceName "Request_".toList

def getResponseTypeNameImpl (serviceNamespace serviceName : Text) : Text :=
  getTypeNameImpl serviceNamespace serviceName "Response_".toList

/-! ### Separators -/

private theorem single_end {c : Char} {a : Text} (hs : ¬[c,c] <:+: a) (he : a.getLast? ≠ some c) :
    ¬[c,c] <:+: a ++ [c] := by
  rintro ⟨s,t,h⟩
  rcases List.eq_nil_or_concat t with rfl | ⟨t,d,rfl⟩
  · have ha : s ++ [c] = a := by
      have hsc : (s ++ [c]) ++ [c] = a ++ [c] := by
        rw [← h]
        simp only [List.append_assoc, List.append_nil, List.cons_append, List.nil_append]
      exact List.append_cancel_right hsc
    apply he
    rw [← ha, List.getLast?_concat]
  · rw [List.concat_eq_append, ← List.append_assoc] at h
    exact hs ⟨s,t,(List.append_inj' h rfl).1⟩

private theorem infix_around {p a b : Text} {x : Char} (hx : x ∉ p) (h : p <:+: a ++ x :: b) : p <:+: a ∨ p <:+: b := by
  obtain ⟨s,t,h⟩ := h
  rcases List.append_eq_append_iff.mp h with ⟨c,hc,-⟩ | ⟨c,hc,hb⟩
  · exact .inl ⟨s,c,hc.symm⟩
  · cases c with
    | nil =>
      rw [List.append_nil] at hc
      exact .inl ⟨s,[],by rw [List.append_nil, hc]⟩
    | cons y c =>
      obtain ⟨rfl,rfl⟩ := List.cons.inj hb
      rcases List.append_eq_append_iff.mp hc with ⟨e,-,he⟩ | ⟨e,-,he⟩
      · exact absurd (he ▸ List.mem_append_right e List.mem_cons_self) hx
      · cases e with
        | nil =>
          rw [List.nil_append] at he
          exact absurd (he ▸ List.mem_cons_self) hx
        | cons z e =>
          obtain ⟨-,rfl⟩ := List.cons.inj he
          exact .inr ⟨e,t,rfl⟩

/-- An underscore before a colon is behind a part that has no colon and does not end in one. -/
private theorem infix_behind {r a b : Text} (hc : ':' ∉ a) (he : a.getLast? ≠ some '_')
    (h : '_' :: ':' :: r <:+: a ++ ':' :: b) : '_' :: ':' :: r <:+: b := by
  obtain ⟨s,t,h⟩ := h
  rw [List.append_assoc, List.cons_append, List.cons_append] at h
  rcases List.append_eq_append_iff.mp h with ⟨e,ha,hr⟩ | ⟨e,-,hb⟩
  · cases e with
    | nil => cases hr
    | cons y e =>
      obtain ⟨rfl,htail⟩ := List.cons.inj hr
      cases e with
      | nil => exact absurd (ha ▸ List.getLast?_concat) he
      | cons z e =>
        obtain ⟨rfl,-⟩ := List.cons.inj htail
        exact absurd (ha ▸ List.mem_append_right s (List.mem_cons_of_mem _ List.mem_cons_self)) hc
  · cases e with
    | nil => cases hb
    | cons y e =>
      obtain ⟨-,rfl⟩ := List.cons.inj hb
      exact ⟨e,t,by rw [List.append_assoc]; rfl⟩

/-! ### Interfaces -/

/-- A part of a namespace, which no separator is in or overlaps with. -/
structure NamespacePart (part : Text) : Prop where
  noColon : ':' ∉ part
  single : ¬"__".toList <:+: part
  ending : part.getLast? ≠ some '_'

/-- Lower-case letters, digits and single underscores, none of them at the end. -/
structure PackageName (name : Text) : Prop where
  chars : ∀ c ∈ name, c.isLower ∨ c.isDigit ∨ c = '_'
  single : ¬"__".toList <:+: name
  ending : name.getLast? ≠ some '_'

theorem PackageName.part {name : Text} (h : PackageName name) : NamespacePart name where
  noColon hm := absurd (h.chars ':' hm) (by decide)
  single := h.single
  ending := h.ending

/-- A message or service as its package declares it. -/
structure InterfaceType where
  package : Text
  subfolder : Text
  name : Text
  packageName : PackageName package
  subfolderPart : NamespacePart subfolder

namespace InterfaceType
variable (t : InterfaceType)

def cNamespace : Text := t.package ++ "__".toList ++ t.subfolder

def cppNamespace : Text := t.package ++ "::".toList ++ t.subfolder

def path : Text := t.package ++ ['/'] ++ t.subfolder ++ ['/'] ++ t.name

private theorem replaced_c : replaceFrom "__".toList "::".toList (by decide) t.cNamespace 0 = t.cppNamespace := by
  have hp : ¬"__".toList <:+: t.package ++ "__".toList.dropLast := single_end t.packageName.single t.packageName.ending
  rw [replaceFrom_eq _ _ _ (Nat.zero_le _), List.take_zero, List.drop_zero, List.nil_append, cNamespace,
    List.append_assoc, replaceAll_first (by decide) hp, replaceAll_absent t.subfolderPart.single, cppNamespace,
    List.append_assoc]

private theorem replaced_cpp : replaceFrom "__".toList "::".toList (by decide) t.cppNamespace 0 = t.cppNamespace := by
  have habs : ¬"__".toList <:+: t.cppNamespace := by
    intro h
    rw [cppNamespace, List.append_assoc] at h
    rcases infix_around (x := ':') (by decide) h with h | h
    · exact t.packageName.single h
    · rcases infix_around (x := ':') (a := []) (by decide) h with h | h
      · exact absurd h (by decide)
      · exact t.subfolderPart.single h
  rw [replaceFrom_eq _ _ _ (Nat.zero_le _), List.take_zero, List.drop_zero, List.nil_append, replaceAll_absent habs]

private theorem typeName_eq {ns : Text} (hne : ns ≠ [])
    (h : replaceFrom "__".toList "::".toList (by decide) ns 0 = t.cppNamespace) (suffix : Text) :
    getTypeNameImpl ns t.name suffix =
      t.cppNamespace ++ "::".toList ++ ("dds_::".toList ++ (t.name ++ '_' :: suffix)) := by
  have hlen : ns.length ≠ 0 := fun he => hne (List.length_eq_zero_iff.mp he)
  rw [getTypeNameImpl]
  simp only [hlen, ne_eq, not_false_eq_true, if_true, h, List.append_assoc, List.cons_append, List.nil_append]

private theorem cNamespace_ne : t.cNamespace ≠ [] := by
  intro h
  have hlen := congrArg List.length h
  simp only [cNamespace, List.length_append, List.length_nil] at hlen
  exact absurd hlen (by simp)

private theorem cppNamespace_ne : t.cppNamespace ≠ [] := by
  intro h
  have hlen := congrArg List.length h
  simp only [cppNamespace, List.length_append, List.length_nil] at hlen
  exact absurd hlen (by simp)

/-- Both typesupports give an interface the same DDS type name. -/
theorem getTypeNameImpl_c_eq_cpp (suffix : Text) :
    getTypeNameImpl t.cNamespace t.name suffix = getTypeNameImpl t.cppNamespace t.name suffix := by
  rw [typeName_eq t t.cNamespace_ne t.replaced_c, typeName_eq t t.cppNamespace_ne t.replaced_cpp]

private theorem find_dds (rest : Text) : find "dds_::".toList (t.cppNamespace ++ "::".toList ++ ("dds_::".toList ++ rest)) =
    some (t.cppNamespace ++ "::".toList).length := by
  apply find_append (by decide)
  intro h
  have hin : '_' :: ':' :: [':'] <:+: t.package ++ ':' :: ([] ++ ':' :: (t.subfolder ++ ':' :: ([] ++ ':' :: "dds_:".toList))) := by
    have hsuf : "_::".toList <:+: "dds_::".toList := by decide
    have hcat : t.cppNamespace ++ "::".toList ++ "dds_::".toList.dropLast =
        t.package ++ ':' :: ([] ++ ':' :: (t.subfolder ++ ':' :: ([] ++ ':' :: "dds_:".toList))) := by
      simp only [cppNamespace, List.append_assoc]
      rfl
    rw [← hcat]
    exact hsuf.trans h
  have hempty : ([] : Text).getLast? ≠ some '_' := nofun
  have h1 := infix_behind List.not_mem_nil hempty (infix_behind t.packageName.part.noColon t.packageName.ending hin)
  have h2 := infix_behind List.not_mem_nil hempty (infix_behind t.subfolderPart.noColon t.subfolderPart.ending h1)
  exact absurd h2 (by decide)

private theorem behind_dds (a rest : Text) :
    (a ++ ("dds_::".toList ++ rest)).drop (a.length + "dds_::".toList.length) = rest := by
  rw [← List.append_assoc, ← List.length_append, List.drop_left]

private theorem no_colons {a : Text} (h : ':' ∉ a) : ¬"::".toList <:+: a ++ "::".toList.dropLast := by
  apply single_end
  · intro hin
    exact h (hin.subset List.mem_cons_self)
  · intro hlast
    exact h (List.mem_of_getLast? hlast)

section
variable {findAndReplace : Text → Text → Text → Text} (hreplace : ReplacesAll findAndReplace)
include hreplace

private theorem replaced_namespace : findAndReplace (t.cppNamespace ++ "::".toList) "::".toList "/".toList =
    t.package ++ ['/'] ++ t.subfolder ++ ['/'] := by
  have hnil : replaceAll "::".toList "/".toList [] = [] := rfl
  have hsub := replaceAll_first (q := "/".toList) (b := []) (by decide) (no_colons t.subfolderPart.noColon)
  rw [hnil, List.append_nil] at hsub
  rw [hreplace.eq_replaceAll (by decide), cppNamespace]
  simp only [List.append_assoc]
  rw [replaceAll_first (by decide) (no_colons t.packageName.part.noColon), hsub]
  rfl

private theorem demangled_message : demangleIfRosType findAndReplace (getMessageTypeNameImpl t.cppNamespace t.name) =
    .ok t.path := by
  have hname := typeName_eq t t.cppNamespace_ne t.replaced_cpp []
  have hlast : (getMessageTypeNameImpl t.cppNamespace t.name).getLast? = some '_' := by
    rw [getMessageTypeNameImpl, hname]
    simp only [← List.append_assoc, List.getLast?_concat]
  rw [demangleIfRosType, hlast]
  simp only [ne_eq, not_true_eq_false, if_false]
  rw [getMessageTypeNameImpl, hname, find_dds]
  simp only
  rw [List.take_left, replaced_namespace t hreplace, behind_dds, List.take_left']
  · rfl
  · simp only [List.length_append, List.length_cons, List.length_nil]
    omega

private theorem demangled_service {ddsTypeName suffix : Text}
    (hname : ddsTypeName = t.cppNamespace ++ "::".toList ++ ("dds_::".toList ++ (t.name ++ suffix)))
    (hpos : suffixPosition ddsTypeName ["_Response_".toList,"_Request_".toList] (some 0) =
      some (t.cppNamespace ++ "::".toList ++ ("dds_::".toList ++ t.name)).length) :
    demangleServiceTypeOnly findAndReplace ddsTypeName = t.path := by
  rw [demangleServiceTypeOnly, hpos]
  simp only
  rw [hname, find_dds]
  simp only
  rw [List.take_left, replaced_namespace t hreplace, behind_dds, if_neg, List.take_left']
  · rfl
  · simp only [List.length_append]
    omega
  · simp only [List.length_append]
    omega

end

theorem suffixPosition_here {s suffix : Text} (hs : suffix ≠ []) (suffixes : List Text) (position : Option Nat) :
    suffixPosition (s ++ suffix) (suffix :: suffixes) position = some s.length := by
  have hend : (s ++ suffix).length - s.length - suffix.length = 0 := by
    rw [List.length_append]
    omega
  rw [suffixPosition, rfind_append hs]
  exact if_neg (not_not.mpr hend)

/-- A suffix that is found elsewhere only, or not at all, is passed over. -/
theorem suffixPosition_next {s suffix : Text} (hs : ¬suffix <:+ s) (suffixes : List Text) (position : Option Nat) :
    suffixPosition s (suffix :: suffixes) position = suffixPosition s suffixes (rfind suffix s) := by
  rw [suffixPosition]
  cases hi : rfind suffix s with
  | none => rfl
  | some i =>
    by_cases hend : s.length - i - suffix.length = 0
    · exact absurd ⟨_,(rfind_at_end hi hend).symm⟩ hs
    · exact if_pos hend

private theorem response_position (s : Text) :
    suffixPosition (s ++ "_Response_".toList) ["_Response_".toList,"_Request_".toList] (some 0) = some s.length :=
  suffixPosition_here (by decide) _ _

private theorem request_position (s : Text) :
    suffixPosition (s ++ "_Request_".toList) ["_Response_".toList,"_Request_".toList] (some 0) = some s.length := by
  have hs : ¬"_Response_".toList <:+ s ++ "_Request_".toList := by
    intro h
    have hle := List.suffix_of_suffix_length_le (List.suffix_append s "_Request_".toList) h (by decide)
    exact absurd hle (by decide)
  rw [suffixPosition_next hs]
  exact suffixPosition_here (by decide) _ _

/-- The C and the C++ namespace give one DDS type name, and the interface can be read off it. -/
theorem typeName_round_trip {findAndReplace : Text → Text → Text → Text} (hreplace : ReplacesAll findAndReplace)
    (t : InterfaceType) :
    (∀ suffix, getTypeNameImpl t.cNamespace t.name suffix = getTypeNameImpl t.cppNamespace t.name suffix) ∧
    ∀ ns ∈ [t.cNamespace,t.cppNamespace],
      demangleIfRosType findAndReplace (getMessageTypeNameImpl ns t.name) = .ok t.path ∧
      demangleServiceTypeOnly findAndReplace (getRequestTypeNameImpl ns t.name) = t.path ∧
      demangleServiceTypeOnly findAndReplace (getResponseTypeNameImpl ns t.name) = t.path := by
  refine ⟨t.getTypeNameImpl_c_eq_cpp,?_⟩
  intro ns hns
  have hname : ∀ suffix, getTypeNameImpl ns t.name suffix = getTypeNameImpl t.cppNamespace t.name suffix := by
    intro suffix
    simp only [List.mem_cons, List.not_mem_nil, or_false] at hns
    rcases hns with rfl | rfl
    · exact t.getTypeNameImpl_c_eq_cpp suffix
    · rfl
  have hcpp := typeName_eq t t.cppNamespace_ne t.replaced_cpp
  refine ⟨?_,?_,?_⟩
  · rw [getMessageTypeNameImpl, hname]
    exact demangled_message t hreplace
  · have hrequest : getRequestTypeNameImpl ns t.name =
        t.cppNamespace ++ "::".toList ++ ("dds_::".toList ++ (t.name ++ "_Request_".toList)) := by
      rw [getRequestTypeNameImpl, hname, hcpp]
      rfl
    apply demangled_service t hreplace hrequest
    rw [hrequest, ← request_position]
    simp only [List.append_assoc]
  · have hresponse : getResponseTypeNameImpl ns t.name =
        t.cppNamespace ++ "::".toList ++ ("dds_::".toList ++ (t.name ++ "_Response_".toList)) := by
      rw [getResponseTypeNameImpl, hname, hcpp]
      rfl
    apply demangled_service t hreplace hresponse
    rw [hresponse, ← response_position]
    simp only [List.append_assoc]

private theorem addTwoIntsType_chars : ∀ c ∈ "example_interfaces".toList, c.isLower ∨ c.isDigit ∨ c = '_' := by
  have h : "example_interfaces".toList.all (fun c => c.isLower ∨ c.isDigit ∨ c = '_') = true := by decide
  intro c hc
  exact of_decide_eq_true (List.all_eq_true.mp h c hc)

/-- The service `AddTwoInts`. -/
def addTwoIntsType : InterfaceType where
  package := "example_interfaces".toList
  subfolder := "srv".toList
  name := "AddTwoInts".toList
  packageName := ⟨addTwoIntsType_chars,by decide,by decide⟩
  subfolderPart := ⟨by decide,by decide,by decide⟩

theorem addTwoIntsType_path :
    let replace := fun s p q : Text => if p = [] then s else replaceAll p q s
    demangleServiceTypeOnly replace (getRequestTypeNameImpl "example_interfaces__srv".toList "AddTwoInts".toList) =
      "example_interfaces/srv/AddTwoInts".toList :=
  ((typeName_round_trip replacesAll_replaceAll addTwoIntsType).2 _ List.mem_cons_self).2.1

end InterfaceType
end RmwCyclonedds
