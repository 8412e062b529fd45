import RmwCyclonedds.Names.TypeName

/-! Which names the demangler of service types accepts. -/
namespace RmwCyclonedds
open Library.Search

def serviceTypeSuffixes : List Text := ["_Response_".toList,"_Request_".toList]

/-- `[ns]dds_::<type><suffix>`, where nothing before the type has another "dds_::". -/
structure ServiceTypeName (s ns type : Text) : Prop where
  form : ∃ suffix ∈ serviceTypeSuffixes, s = ns ++ ("dds_::".toList ++ (type ++ suffix))
  first : find "dds_::".toList s = some ns.length
  named : ns ++ type ≠ []

/-- A name is demangled to something exactly if it is the name of a service type, and then to its path. -/
structure AcceptsServiceTypes (findAndReplace : Text → Text → Text → Text) (s : Text) : Prop where
  exact : demangleServiceTypeOnly findAndReplace s ≠ [] ↔ ∃ ns type, ServiceTypeName s ns type
  path : ∀ ns type, ServiceTypeName s ns type →
    demangleServiceTypeOnly findAndReplace s = replaceAll "::".toList "/".toList ns ++ type

/-- No suffix is at the end, and "_Request_" is elsewhere, other than right behind a "dds_::" that begins the name. -/
structure MisplacedRequest (s : Text) : Prop where
  dds : "dds_::".toList <:+: s
  request : "_Request_".toList <:+: s
  ending : ∀ suffix ∈ serviceTypeSuffixes, ¬suffix <:+ s
  named : ¬("dds_::".toList <+: s ∧ rfind "_Request_".toList s = some "dds_::".toList.length)

/-! ### Names with a suffix at the end -/

private theorem suffix_unique {s a b : Text} (ha : a ∈ serviceTypeSuffixes) (hb : b ∈ serviceTypeSuffixes) (has : a <:+ s)
    (hbs : b <:+ s) : a = b := by
  have hall : ∀ a ∈ serviceTypeSuffixes, ∀ b ∈ serviceTypeSuffixes, a <:+ b → a = b := by decide
  rcases Nat.le_total a.length b.length with hle | hle
  · exact hall a ha b hb (List.suffix_of_suffix_length_le has hbs hle)
  · exact (hall b hb a ha (List.suffix_of_suffix_length_le hbs has hle)).symm

private theorem suffixPosition_end {s suffix : Text} (h : suffix ∈ serviceTypeSuffixes) :
    suffixPosition (s ++ suffix) serviceTypeSuffixes (some 0) = some s.length := by
  have hend : suffix <:+ s ++ suffix := List.suffix_append s suffix
  rcases List.mem_cons.mp h with rfl | h
  · exact InterfaceType.suffixPosition_here (by decide) _ _
  · rw [List.mem_singleton] at h
    subst h
    have hother : ¬"_Response_".toList <:+ s ++ "_Request_".toList := by
      intro hs
      exact absurd (suffix_unique (by decide) (by decide) hs hend) (by decide)
    rw [serviceTypeSuffixes, InterfaceType.suffixPosition_next hother]
    exact InterfaceType.suffixPosition_here (by decide) _ _

/-- A suffix has no colon, so all of it is behind a "dds_::". -/
private theorem suffix_behind {ns rest u suffix : Text} (h : suffix ∈ serviceTypeSuffixes)
    (hs : ns ++ ("dds_::".toList ++ rest) = u ++ suffix) :
    ∃ type, rest = type ++ suffix ∧ u = ns ++ ("dds_::".toList ++ type) := by
  have hcolon : ∀ suffix ∈ serviceTypeSuffixes, ':' ∉ suffix := by decide
  rw [← List.append_assoc] at hs
  rcases List.append_eq_append_iff.mp hs with ⟨c,hu,hrest⟩ | ⟨c,hdds,hsuffix⟩
  · exact ⟨c,hrest,by rw [hu, List.append_assoc]⟩
  · rcases List.eq_nil_or_concat c with rfl | ⟨c,x,rfl⟩
    · rw [List.append_nil] at hdds
      exact ⟨[],hsuffix.symm,by rw [← hdds, List.append_nil]⟩
    · have hlast := congrArg List.getLast? hdds
      rw [List.concat_eq_append, ← List.append_assoc, List.getLast?_concat, List.getLast?_append] at hlast
      have hx : x = ':' := (Option.some.inj hlast).symm
      subst hx
      exact absurd (by rw [hsuffix, List.concat_eq_append]; simp) (hcolon suffix h)

section
variable {findAndReplace : Text → Text → Text → Text}

private theorem demangled_end {s ns type suffix : Text} (h : suffix ∈ serviceTypeSuffixes)
    (hs : s = ns ++ ("dds_::".toList ++ (type ++ suffix))) (hfirst : find "dds_::".toList s = some ns.length) :
    demangleServiceTypeOnly findAndReplace s = findAndReplace ns "::".toList "/".toList ++ type := by
  have hpos : suffixPosition s serviceTypeSuffixes (some 0) = some (ns ++ ("dds_::".toList ++ type)).length := by
    rw [← suffixPosition_end h, hs]
    simp only [List.append_assoc]
  have hlen : (ns ++ ("dds_::".toList ++ type)).length = ns.length + "dds_::".toList.length + type.length := by
    simp only [List.length_append]
    omega
  have hrest : s.drop (ns.length + "dds_::".toList.length) = type ++ suffix := by
    rw [hs, ← List.append_assoc, ← List.length_append, List.drop_left]
  have hns : s.take ns.length = ns := by rw [hs, List.take_left]
  rw [serviceTypeSuffixes, hlen] at hpos
  rw [demangleServiceTypeOnly, hfirst, hpos]
  simp only
  rw [hns, hrest, if_neg (by omega), Nat.add_sub_cancel_left, List.take_left]

/-- Where a suffix is at the end, the name is taken apart, and nothing is left only if there is nothing in it. -/
private theorem form_of_end {s suffix : Text} {p : Nat} (hp : find "dds_::".toList s = some p)
    (h : suffix ∈ serviceTypeSuffixes) (hend : suffix <:+ s) :
    ∃ ns type, s = ns ++ ("dds_::".toList ++ (type ++ suffix)) ∧ find "dds_::".toList s = some ns.length := by
  obtain ⟨u,hu⟩ := hend
  have hs := find_some hp
  have hle := find_le (by decide) hp
  rw [← hu] at hs
  obtain ⟨type,-,htype⟩ := suffix_behind h hs.symm
  refine ⟨(u ++ suffix).take p,type,?_,?_⟩
  · rw [← hu]
    nth_rewrite 1 [htype]
    simp only [List.append_assoc]
  · rw [hp, hu, List.length_take]
    congr 1
    omega

/-! ### Names without a suffix at the end -/

private theorem demangled_nowhere {s : Text} {p : Nat} (hp : find "dds_::".toList s = some p)
    (hending : ∀ suffix ∈ serviceTypeSuffixes, ¬suffix <:+ s) :
    demangleServiceTypeOnly findAndReplace s = match rfind "_Request_".toList s with
      | none => []
      | some q => findAndReplace (s.take p) "::".toList "/".toList ++
          if q < p + "dds_::".toList.length then s.drop (p + "dds_::".toList.length)
          else (s.drop (p + "dds_::".toList.length)).take (q - (p + "dds_::".toList.length)) := by
  have hpos : suffixPosition s ["_Response_".toList,"_Request_".toList] (some 0) = rfind "_Request_".toList s := by
    rw [InterfaceType.suffixPosition_next (hending _ (by decide)), InterfaceType.suffixPosition_next (hending _ (by decide)),
      suffixPosition]
  cases hq : rfind "_Request_".toList s with
  | none =>
    rw [demangleServiceTypeOnly, hp, hpos, hq]
  | some q =>
    rw [demangleServiceTypeOnly, hp, hpos, hq]

private theorem replaced_nil {ns : Text} (h : replaceAll "::".toList "/".toList ns = []) : ns = [] := by
  cases ns with
  | nil => rfl
  | cons x ns =>
    rw [replaceAll, replaceSkipping] at h
    split at h
    · exact absurd (List.append_eq_nil_iff.mp h).1 (by decide)
    · cases h

/-- Nothing comes out only if the suffix is right behind a "dds_::" at the start. -/
private theorem taken_nil {s : Text} {p q : Nat} (hp : find "dds_::".toList s = some p)
    (hq : rfind "_Request_".toList s = some q) :
    (replaceAll "::".toList "/".toList (s.take p) ++
        if q < p + "dds_::".toList.length then s.drop (p + "dds_::".toList.length)
        else (s.drop (p + "dds_::".toList.length)).take (q - (p + "dds_::".toList.length))) = [] ↔
      "dds_::".toList <+: s ∧ q = "dds_::".toList.length := by
  have hs := find_some hp
  have hle := find_le (by decide) hp
  constructor
  · intro h
    obtain ⟨hns,hrest⟩ := List.append_eq_nil_iff.mp h
    have hp0 : p = 0 := by
      have hlen := congrArg List.length (replaced_nil hns)
      rw [List.length_take, List.length_nil] at hlen
      omega
    subst hp0
    rw [Nat.zero_add] at hrest hs hle
    rw [List.take_zero, List.nil_append] at hs
    have hnot : s.drop "dds_::".toList.length ≠ [] := by
      intro hnil
      have hnone : rfind "_Request_".toList "dds_::".toList = none := by decide
      rw [hnil, List.append_nil] at hs
      rw [hs, hnone] at hq
      cases hq
    split at hrest
    · exact absurd hrest hnot
    · next hge =>
      rcases List.take_eq_nil_iff.mp hrest with hz | hnil
      · exact ⟨⟨_,hs.symm⟩,by omega⟩
      · exact absurd hnil hnot
  · rintro ⟨hpre,rfl⟩
    have hp0 : find "dds_::".toList s = some 0 := by
      obtain ⟨rest,rfl⟩ := hpre
      exact find_append (a := []) (by decide) (by decide)
    cases hp.symm.trans hp0
    rw [Nat.zero_add, if_neg (lt_irrefl _), Nat.sub_self]
    rfl

/-! ### What is accepted -/

private theorem AcceptsServiceTypes.path_of (hreplace : ReplacesAll findAndReplace) {s ns type : Text}
    (h : ServiceTypeName s ns type) :
    demangleServiceTypeOnly findAndReplace s = replaceAll "::".toList "/".toList ns ++ type := by
  obtain ⟨suffix,hmem,hs⟩ := h.form
  rw [demangled_end hmem hs h.first, hreplace.eq_replaceAll (by decide)]

private theorem accepts_end (hreplace : ReplacesAll findAndReplace) {s suffix : Text} {p : Nat}
    (hp : find "dds_::".toList s = some p) (h : suffix ∈ serviceTypeSuffixes) (hend : suffix <:+ s) :
    AcceptsServiceTypes findAndReplace s := by
  obtain ⟨ns,type,hs,hfirst⟩ := form_of_end hp h hend
  refine ⟨⟨?_,?_⟩,fun ns type => AcceptsServiceTypes.path_of hreplace⟩
  · intro hne
    refine ⟨ns,type,⟨suffix,h,hs⟩,hfirst,?_⟩
    intro hnil
    obtain ⟨rfl,rfl⟩ := List.append_eq_nil_iff.mp hnil
    apply hne
    rw [demangled_end h hs hfirst, hreplace.eq_replaceAll (by decide)]
    rfl
  · rintro ⟨ns,type,hname⟩ hnil
    rw [AcceptsServiceTypes.path_of hreplace hname] at hnil
    obtain ⟨hns,htype⟩ := List.append_eq_nil_iff.mp hnil
    exact hname.named (by rw [replaced_nil hns, htype]; rfl)

private theorem accepts_unnamed {s : Text} (hnone : ¬∃ ns type, ServiceTypeName s ns type) :
    AcceptsServiceTypes findAndReplace s ↔ demangleServiceTypeOnly findAndReplace s = [] := by
  constructor
  · intro h
    by_contra hne
    exact hnone (h.exact.mp hne)
  · intro h
    exact ⟨iff_of_false (not_not.mpr h) hnone,fun ns type hname => absurd ⟨ns,type,hname⟩ hnone⟩

/-- The demangler accepts exactly the service types, except for names in which "_Request_" is found in the wrong place
and no suffix in the right one. -/
theorem acceptsServiceTypes_iff (hreplace : ReplacesAll findAndReplace) (s : Text) :
    AcceptsServiceTypes findAndReplace s ↔ ¬MisplacedRequest s := by
  cases hp : find "dds_::".toList s with
  | none =>
    refine iff_of_true ?_ (fun h => find_none hp h.dds)
    rw [accepts_unnamed]
    · rw [demangleServiceTypeOnly, hp]
    · rintro ⟨ns,type,h⟩
      cases hp.symm.trans h.first
  | some p =>
    by_cases hend : ∃ suffix ∈ serviceTypeSuffixes, suffix <:+ s
    · obtain ⟨suffix,hmem,hsuffix⟩ := hend
      exact iff_of_true (accepts_end hreplace hp hmem hsuffix) (fun h => h.ending suffix hmem hsuffix)
    · have hending : ∀ suffix ∈ serviceTypeSuffixes, ¬suffix <:+ s := fun suffix hmem hs => hend ⟨suffix,hmem,hs⟩
      have hdds : "dds_::".toList <:+: s := ⟨s.take p,s.drop (p + "dds_::".toList.length),by
        rw [List.append_assoc]
        exact (find_some hp).symm⟩
      rw [accepts_unnamed]
      · rw [demangled_nowhere hp hending]
        cases hq : rfind "_Request_".toList s with
        | none => exact iff_of_true rfl (fun h => rfind_none_iff.mp hq h.request)
        | some q =>
          simp only
          rw [hreplace.eq_replaceAll (by decide), taken_nil hp hq]
          constructor
          · rintro ⟨hpre,rfl⟩ h
            exact h.named ⟨hpre,hq⟩
          · intro h
            by_contra hne
            refine h ⟨hdds,?_,hending,?_⟩
            · by_contra hin
              cases hq.symm.trans (rfind_none_iff.mpr hin)
            · rintro ⟨hpre,hq6⟩
              exact hne ⟨hpre,Option.some.inj (hq.symm.trans hq6)⟩
      · rintro ⟨ns,type,⟨suffix,hmem,hs⟩,-,-⟩
        apply hending suffix hmem
        exact ⟨ns ++ ("dds_::".toList ++ type),by rw [hs]; simp only [List.append_assoc]⟩

end

/-- The request type of `AddTwoInts`. -/
theorem addTwoInts_accepted : AcceptsServiceTypes (fun s p q => if p = [] then s else replaceAll p q s)
    "example_interfaces::srv::dds_::AddTwoInts_Request_".toList := by
  apply (acceptsServiceTypes_iff replacesAll_replaceAll _).mpr
  intro h
  exact h.ending "_Request_".toList (by decide) (by decide)

/-- A message type that is taken for the service type `A`. -/
theorem misplaced_request_accepted : ¬∀ (findAndReplace : Text → Text → Text → Text) (s : Text),
    ReplacesAll findAndReplace → s ≠ [] → AcceptsServiceTypes findAndReplace s := by
  intro h
  have haccepts := h _ "dds_::A_Request_B_".toList replacesAll_replaceAll (by decide)
  obtain ⟨ns,type,⟨suffix,hmem,hs⟩,-,-⟩ := haccepts.exact.mp (by decide)
  have hending : ∀ suffix ∈ serviceTypeSuffixes, ¬suffix <:+ "dds_::A_Request_B_".toList := by decide
  apply hending suffix hmem
  exact ⟨ns ++ ("dds_::".toList ++ type),by rw [hs]; simp only [List.append_assoc]⟩

end RmwCyclonedds
