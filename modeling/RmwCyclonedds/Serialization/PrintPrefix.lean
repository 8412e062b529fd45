import RmwCyclonedds.Serialization.Print

/-! A message that is printed under a limit: the beginning of all that there is to print. -/
namespace RmwCyclonedds
open Library DeserializeCursor

/-- Two texts that are too long, and are one text as far as the limit goes. -/
structure CutAt (limit : Nat) (s t : Text) : Prop where
  left : limit < s.length
  right : limit < t.length
  take_eq : s.take limit = t.take limit

/-- A text that is too long and what has been added to it. -/
theorem CutAt.of_prefix {limit : Nat} {s t : Text} (hs : limit < s.length) (h : s <+: t) : CutAt limit s t := by
  obtain ⟨more,rfl⟩ := h
  refine ⟨hs,?_,?_⟩
  · rw [List.length_append]
    omega
  · rw [List.take_append_of_le_length (Nat.le_of_lt hs)]

/-- Nothing that is added to texts that are too long is seen. -/
theorem CutAt.extend {limit : Nat} {s s' t t' : Text} (h : CutAt limit s t) (hs : s <+: s') (ht : t <+: t') :
    CutAt limit s' t' := by
  have hleft := CutAt.of_prefix h.left hs
  have hright := CutAt.of_prefix h.right ht
  exact ⟨hleft.right,hright.right,hleft.take_eq.symm.trans (h.take_eq.trans hright.take_eq)⟩

/-- Where `y` returns, so does `x`: with the same, or with a text that is cut. -/
def PrintsPrefix (limit : Nat) (x y : Outcome (Text × DeserializeCursor)) : Prop :=
  ∀ q, y = .ok q → ∃ p, x = .ok p ∧ (p = q ∨ CutAt limit p.1 q.1)

theorem PrintsPrefix.refl (limit : Nat) (x : Outcome (Text × DeserializeCursor)) : PrintsPrefix limit x x :=
  fun q hq => ⟨q,hq,.inl rfl⟩

/-- What is read first is the same for both. -/
theorem PrintsPrefix.same {γ : Type} {limit : Nat} {x : Outcome γ} {f g : γ → Outcome (Text × DeserializeCursor)}
    (h : ∀ a, PrintsPrefix limit (f a) (g a)) : PrintsPrefix limit (x >>= f) (x >>= g) := by
  intro q hq
  obtain ⟨a,ha,hq⟩ := Outcome.bind_eq_ok hq
  rw [ha]
  exact h a q hq

/-- Printing adds to the text that is there. -/
def Appends (print : DeserializeCursor → Text → Outcome (Text × DeserializeCursor)) : Prop :=
  ∀ c text p, print c text = .ok p → text <+: p.1

section
variable (formats : Formats) (host : Endian) (bswapSrc : Bool) (what : SampleOrKey) {limit : Nat}

/-! ### Text is only added -/

private theorem printPrimitive_appends (k : TypeKind) : Appends (printPrimitive formats host bswapSrc k) := by
  intro c text p h
  obtain ⟨d,_,h⟩ := Outcome.bind_eq_ok h
  obtain ⟨⟨bytes,e⟩,_,h⟩ := Outcome.bind_eq_ok h
  cases h
  exact List.prefix_append _ _

private theorem printU8String_appends : Appends (printU8String host bswapSrc) := by
  intro c text p h
  obtain ⟨⟨size,d⟩,_,h⟩ := Outcome.bind_eq_ok h
  by_cases hzero : size = 0
  · simp only [if_pos hzero] at h
    cases h
  · simp only [if_neg hzero] at h
    obtain ⟨⟨srcdata,e⟩,_,h⟩ := Outcome.bind_eq_ok h
    by_cases hend : srcdata.getLast? ≠ some 0
    · simp only [if_pos hend] at h
      cases h
    · simp only [if_neg hend] at h
      cases h
      exact List.prefix_append _ _

private theorem printU16String_appends : Appends (printU16String host bswapSrc) := by
  intro c text p h
  obtain ⟨⟨size,d⟩,_,h⟩ := Outcome.bind_eq_ok h
  by_cases hodd : size % 2 ≠ 0
  · simp only [if_pos hodd] at h
    cases h
  · simp only [if_neg hodd] at h
    obtain ⟨⟨srcdata,e⟩,_,h⟩ := Outcome.bind_eq_ok h
    cases h
    exact List.prefix_append _ _

private theorem printEach_appends {pr : DeserializeCursor → Text → Outcome (Text × DeserializeCursor)} (hpr : Appends pr)
    (first : Bool) (count : Nat) : Appends (printEach limit pr first count) := by
  induction count generalizing first with
  | zero =>
    intro c text p h
    cases h
    exact List.prefix_append _ _
  | succ count ih =>
    intro c text p h
    rw [printEach] at h
    by_cases hover : text.length > limit
    · rw [if_pos hover] at h
      cases h
      exact List.prefix_refl _
    · rw [if_neg hover] at h
      obtain ⟨⟨text',d⟩,hone,hrest⟩ := Outcome.bind_eq_ok h
      have hcomma : text <+: if first then text else text ++ [','] := by
        cases first with
        | true => exact List.prefix_refl _
        | false => exact List.prefix_append _ _
      exact (hcomma.trans (hpr _ _ _ hone)).trans (ih false _ _ _ hrest)

private theorem printMany_appends {pr : DeserializeCursor → Text → Outcome (Text × DeserializeCursor)} (hpr : Appends pr)
    (count : Nat) : Appends (printMany limit pr count) :=
  fun c text p h => (List.prefix_append text ['{']).trans (printEach_appends hpr true count c _ p h)

mutual
private theorem print_appends : ∀ t : ValueType, Appends (print formats host bswapSrc what limit t)
  | .primitive k => printPrimitive_appends formats host bswapSrc k
  | .u8string _ _ => printU8String_appends host bswapSrc
  | .u16string _ _ => printU16String_appends host bswapSrc
  | .struct _ ms => printMembers_appends (allFields what ms) true ms
  | .array t n => printMany_appends (print_appends t) n
  | .spanSequence _ t _ => by
    intro c text p h
    obtain ⟨⟨count,d⟩,_,h⟩ := Outcome.bind_eq_ok h
    exact printMany_appends (print_appends t) count d text p h
  | .boolVector _ _ => by
    intro c text p h
    obtain ⟨⟨count,d⟩,_,h⟩ := Outcome.bind_eq_ok h
    exact printMany_appends (printPrimitive_appends formats host bswapSrc .boolean) count d text p h

private theorem printMembers_appends (all first : Bool) : ∀ ms : Members,
    Appends (printMembers formats host bswapSrc what limit all first ms)
  | .nil => by
    intro c text p h
    cases h
    cases first with
    | true => exact List.prefix_refl _
    | false => exact List.prefix_append _ _
  | .cons _ isKey t ms => by
    intro c text p h
    rw [printMembers] at h
    by_cases hover : text.length > limit
    · rw [if_pos hover] at h
      cases h
      exact List.prefix_refl _
    · rw [if_neg hover] at h
      cases hk : isKey || all with
      | false =>
        rw [hk] at h
        exact printMembers_appends all first ms c text p h
      | true =>
        rw [hk] at h
        obtain ⟨⟨text',d⟩,hone,hrest⟩ := Outcome.bind_eq_ok h
        exact ((List.prefix_append text _).trans (print_appends t _ _ _ hone)).trans
          (printMembers_appends all false ms d text' p hrest)
end

/-! ### Every enclosing loop stops too -/

/-- Two runs of a loop that are at one place with one text, or in texts that are too long. -/
private theorem printEach_shortened {limit' : Nat} (hlimit : limit ≤ limit')
    {pr pr' : DeserializeCursor → Text → Outcome (Text × DeserializeCursor)}
    (hpr : ∀ c text, PrintsPrefix limit (pr c text) (pr' c text)) (happends : Appends pr) (happends' : Appends pr')
    (first : Bool) (count : Nat) (c : DeserializeCursor) (text : Text) :
    PrintsPrefix limit (printEach limit pr first count c text) (printEach limit' pr' first count c text) := by
  induction count generalizing first c text with
  | zero => exact PrintsPrefix.refl limit _
  | succ count ih =>
    intro q hq
    by_cases hover : text.length > limit
    · exact ⟨(text,c),if_pos hover,.inr (CutAt.of_prefix hover (printEach_appends happends' first _ c text q hq))⟩
    · have hover' : ¬text.length > limit' := by omega
      rw [printEach, if_neg hover'] at hq
      rw [printEach, if_neg hover]
      obtain ⟨⟨text',d⟩,hone,hrest⟩ := Outcome.bind_eq_ok hq
      obtain ⟨⟨cut,e⟩,hcut,hsame⟩ := hpr _ _ _ hone
      simp only [hcut, bind, Except.bind]
      rcases hsame with heq | hlong
      · cases heq
        exact ih false d text' q hrest
      · -- The element was cut: this loop adds at most its brace, the other one goes on.
        obtain ⟨cut',hstop,_⟩ := printEach_over limit pr false count e hlong.left
        refine ⟨(cut',e),hstop,.inr (hlong.extend ?_ ?_)⟩
        · exact printEach_appends happends false count e cut _ hstop
        · exact printEach_appends happends' false count d text' q hrest

mutual
/-- Under a smaller limit the same is printed, or a beginning of it that is longer than the limit. -/
theorem print_shortened {limit' : Nat} (hlimit : limit ≤ limit') : ∀ (t : ValueType) (c : DeserializeCursor) (text : Text),
    PrintsPrefix limit (print formats host bswapSrc what limit t c text) (print formats host bswapSrc what limit' t c text)
  | .primitive _, _, _ => PrintsPrefix.refl limit _
  | .u8string _ _, _, _ => PrintsPrefix.refl limit _
  | .u16string _ _, _, _ => PrintsPrefix.refl limit _
  | .struct _ ms, c, text => printMembers_shortened hlimit (allFields what ms) true ms c text
  | .array t n, c, text =>
    printEach_shortened hlimit (print_shortened hlimit t) (print_appends formats host bswapSrc what t)
      (print_appends formats host bswapSrc what t) true n c _
  | .spanSequence _ t _, c, text => by
    apply PrintsPrefix.same
    rintro ⟨count,d⟩
    exact printEach_shortened hlimit (print_shortened hlimit t) (print_appends formats host bswapSrc what t)
      (print_appends formats host bswapSrc what t) true count d _
  | .boolVector _ _, c, text => by
    apply PrintsPrefix.same
    rintro ⟨count,d⟩
    have happends := printPrimitive_appends formats host bswapSrc .boolean
    exact printEach_shortened hlimit (fun _ _ => PrintsPrefix.refl limit _) happends happends true count d _

theorem printMembers_shortened {limit' : Nat} (hlimit : limit ≤ limit') (all first : Bool) : ∀ (ms : Members)
    (c : DeserializeCursor) (text : Text),
    PrintsPrefix limit (printMembers formats host bswapSrc what limit all first ms c text)
      (printMembers formats host bswapSrc what limit' all first ms c text)
  | .nil, _, _ => PrintsPrefix.refl limit _
  | .cons memberOffset isKey t ms, c, text => by
    intro q hq
    by_cases hover : text.length > limit
    · exact ⟨(text,c),if_pos hover,.inr (CutAt.of_prefix hover
        (printMembers_appends formats host bswapSrc what all first _ c text q hq))⟩
    · have hover' : ¬text.length > limit' := by omega
      rw [printMembers, if_neg hover'] at hq
      rw [printMembers, if_neg hover]
      cases hk : isKey || all with
      | false =>
        rw [hk] at hq
        exact printMembers_shortened hlimit all first ms c text q hq
      | true =>
        rw [hk] at hq
        obtain ⟨⟨text',d⟩,hone,hrest⟩ := Outcome.bind_eq_ok hq
        obtain ⟨⟨cut,e⟩,hcut,hsame⟩ := print_shortened hlimit t c (text ++ if first then ['{'] else [',']) _ hone
        simp only [hcut, if_true, bind, Except.bind]
        rcases hsame with heq | hlong
        · cases heq
          exact printMembers_shortened hlimit all false ms d text' q hrest
        · obtain ⟨cut',hstop,_⟩ := printMembers_over formats host bswapSrc what limit all false ms e hlong.left
          refine ⟨(cut',e),hstop,.inr (hlong.extend ?_ ?_)⟩
          · exact printMembers_appends formats host bswapSrc what all false ms e cut _ hstop
          · exact printMembers_appends formats host bswapSrc what all false ms d text' q hrest
end

end

namespace CDRReader
variable {host : Endian} {root : StructValueType} {variant : SampleOrRequest} (formats : Formats) (what : SampleOrKey)

private theorem printBehindHeader_shortened {limit limit' : Nat} (hlimit : limit ≤ limit') (header : List Byte)
    (c : DeserializeCursor) (text : Text) :
    PrintsPrefix limit (printBehindHeader host root variant formats what limit header c text)
      (printBehindHeader host root variant formats what limit' header c text) := by
  by_cases hbad : header.getD 0 0 ≠ 0 ∨ header.getD 1 0 > 1
  · simp only [printBehindHeader, if_pos hbad]
    exact PrintsPrefix.refl limit _
  · simp only [printBehindHeader, if_neg hbad]
    -- The header of a request is two numbers, which no limit cuts.
    apply PrintsPrefix.same
    rintro ⟨lead,d⟩
    by_cases hread : what = .sample ∨ root.hasKeys = true
    · simp only [if_pos hread]
      intro q hq
      obtain ⟨⟨text',e⟩,hvalue,hq⟩ := Outcome.bind_eq_ok hq
      cases hq
      obtain ⟨⟨cut,e'⟩,hcut,hsame⟩ := print_shortened formats host _ what hlimit root.toValueType d lead _ hvalue
      rw [hcut]
      refine ⟨(cut,e'.rebase (-4)),rfl,?_⟩
      rcases hsame with heq | hlong
      · cases heq
        exact .inl rfl
      · exact .inr hlong
    · simp only [if_neg hread]
      exact PrintsPrefix.refl limit _

theorem printTopLevel_shortened {limit limit' : Nat} (hlimit : limit ≤ limit') (c : DeserializeCursor) (text : Text) :
    PrintsPrefix limit (printTopLevel host root variant formats what limit c text)
      (printTopLevel host root variant formats what limit' c text) := by
  apply PrintsPrefix.same
  rintro ⟨header,d⟩
  exact printBehindHeader_shortened formats what hlimit header (d.rebase 4) text

/-! ### What is stored -/

/-- The memory at `dst` with a text and a zero behind it. -/
def storeText (dst : Nat → Char) (text : Text) : Nat → Char := fun i =>
  if i < text.length then text.getD i (Char.ofNat 0) else if i = text.length then Char.ofNat 0 else dst i

section
variable (r : CDRReader host root variant)

/-- `CDRReader::print` with the memory it writes and the number it returns. -/
def printInto (dst : Nat → Char) (dstsize : Nat) (cdr : List Byte) : Outcome ((Nat → Char) × Nat) := do
  if dstsize = 0 then return (dst,0)
  let text ← r.print formats dstsize cdr what
  return (storeText dst text,text.length)

/-- The text that is printed wherever there is room enough. -/
def PrintsInFull (cdr : List Byte) (text : Text) : Prop :=
  ∃ enough, ∀ dstsize ≥ enough, r.print formats dstsize cdr what = .ok text

private theorem take_of_short (s : Text) (n : Nat) : (if s.length < n then s else s.take n) = s.take n := by
  split
  · next h => exact (List.take_of_length_le (Nat.le_of_lt h)).symm
  · rfl

private theorem print_eq {dstsize : Nat} (hsize : 1 ≤ dstsize) (hkeys : ¬(what = .key ∧ root.hasKeys = false))
    (cdr : List Byte) : r.print formats dstsize cdr what =
      (printTopLevel host root variant formats what dstsize (DeserializeCursor.start cdr) []).map
        fun p => p.1.take (dstsize - 1) := by
  rw [print, if_neg (by omega), if_neg hkeys]
  simp only [take_of_short]
  cases printTopLevel host root variant formats what dstsize (DeserializeCursor.start cdr) [] with
  | error s => rfl
  | ok p => rfl

/-- With room enough there is one outcome. -/
theorem printsInFull_or_stops (cdr : List Byte) :
    (∃ text, r.PrintsInFull formats what cdr text) ∨
      ∃ enough s, ∀ dstsize ≥ enough, r.print formats dstsize cdr what = .error s := by
  by_cases hkeys : what = .key ∧ root.hasKeys = false
  · refine .inl ⟨[],0,fun dstsize _ => ?_⟩
    rw [print, if_pos hkeys]
    split <;> rfl
  obtain ⟨enough,text,hprint⟩ := @printTopLevel_as host root variant formats what cdr
  dsimp only at hprint
  cases hread : readThrough host root variant noShortcut what cdr with
  | error s =>
    refine .inr ⟨enough + 1,s,fun dstsize hsize => ?_⟩
    rw [r.print_eq formats what (by omega) hkeys, (hprint dstsize (by omega)).right_error hread]
    rfl
  | ok q =>
    refine .inl ⟨text,enough + text.length + 1,fun dstsize hsize => ?_⟩
    obtain ⟨p,hp,htext,_⟩ := (hprint dstsize (by omega)).right_ok hread
    rw [r.print_eq formats what (by omega) hkeys, hp]
    show Except.ok (p.1.take (dstsize - 1)) = _
    rw [htext, List.take_of_length_le (by omega)]

private theorem print_eq_take {cdr : List Byte} {text : Text} (h : r.PrintsInFull formats what cdr text) {dstsize : Nat}
    (hsize : 1 ≤ dstsize) : r.print formats dstsize cdr what = .ok (text.take (dstsize - 1)) := by
  obtain ⟨enough,hfull⟩ := h
  by_cases hkeys : what = .key ∧ root.hasKeys = false
  · have hempty : ∀ n, r.print formats n cdr what = .ok [] := by
      intro n
      rw [print, if_pos hkeys]
      split <;> rfl
    have htext := hfull enough (Nat.le_refl _)
    rw [hempty] at htext
    cases htext
    rw [hempty, List.take_nil]
  -- Room for the whole text, compared with the room there is.
  have hroom := hfull (enough + dstsize + text.length + 2) (by omega)
  rw [r.print_eq formats what (by omega) hkeys] at hroom
  obtain ⟨q,hq,hwhole⟩ : ∃ q, printTopLevel host root variant formats what (enough + dstsize + text.length + 2)
      (DeserializeCursor.start cdr) [] = .ok q ∧ q.1.take (enough + dstsize + text.length + 2 - 1) = text := by
    cases hq : printTopLevel host root variant formats what (enough + dstsize + text.length + 2)
        (DeserializeCursor.start cdr) [] with
    | error s =>
      rw [hq] at hroom
      cases hroom
    | ok q =>
      rw [hq] at hroom
      exact ⟨q,rfl,Except.ok.inj hroom⟩
  have hall : q.1 = text := by
    have hlength := congrArg List.length hwhole
    rw [List.length_take] at hlength
    rwa [List.take_of_length_le (by omega)] at hwhole
  have hle : dstsize ≤ enough + dstsize + text.length + 2 := by omega
  obtain ⟨p,hp,hsame⟩ := printTopLevel_shortened formats what hle _ [] q hq
  rw [r.print_eq formats what hsize hkeys, hp]
  show Except.ok (p.1.take (dstsize - 1)) = _
  rcases hsame with rfl | hcut
  · rw [hall]
  · have htake := congrArg (List.take (dstsize - 1)) hcut.take_eq
    rw [List.take_take, List.take_take, min_eq_left (Nat.sub_le _ _), hall] at htake
    rw [htake]

/-- Printing with less room stores as much of the whole text as fits in front of a zero, and nothing else. -/
theorem printInto_truncates {cdr : List Byte} {text : Text} (h : r.PrintsInFull formats what cdr text)
    (dst : Nat → Char) {dstsize : Nat} (hsize : 1 ≤ dstsize) :
    ∃ dst', r.printInto formats what dst dstsize cdr = .ok (dst',min (dstsize - 1) text.length) ∧
      (∀ i < min (dstsize - 1) text.length, text[i]? = some (dst' i)) ∧
      dst' (min (dstsize - 1) text.length) = Char.ofNat 0 ∧
      ∀ i ≥ dstsize, dst' i = dst i := by
  have hlength : (text.take (dstsize - 1)).length = min (dstsize - 1) text.length := List.length_take
  refine ⟨storeText dst (text.take (dstsize - 1)),?_,?_,?_,?_⟩
  · rw [printInto, if_neg (by omega), r.print_eq_take formats what h hsize, ← hlength]
    rfl
  · intro i hi
    have hlt : i < text.length := by omega
    rw [storeText, if_pos (hlength ▸ hi), List.getD_eq_getElem?_getD, List.getElem?_take_of_lt (by omega),
      List.getElem?_eq_getElem hlt]
    rfl
  · rw [storeText, hlength, if_neg (Nat.lt_irrefl _), if_pos rfl]
  · intro i hi
    have hlt : min (dstsize - 1) text.length < i := by omega
    rw [storeText, hlength, if_neg (by omega), if_neg (by omega)]

end

/-- `sequence<uint8> codes; uint8 level`. -/
def listing : StructValueType where
  sizeofStruct := 32
  members := .cons 0 false (.spanSequence .callback (.primitive .uint8) uint32Max)
    (.cons 24 false (.primitive .uint8) .nil)
  wellFormed := ⟨⟨True.intro,True.intro,Nat.le_refl _⟩,True.intro,True.intro⟩

/-- Three codes and a level, little-endian. -/
def listingBytes : List Byte := [0,1,0,0,3,0,0,0,1,2,3,9]

/-- `{{1,2,3},9}`. -/
def listingText : Text := "\x7b\x7b1,2,3\x7d,9\x7d".toList

private theorem listing_inFull (r : CDRReader .little listing .sample) (formats : Formats) :
    r.PrintsInFull formats .sample listingBytes listingText := by
  refine ⟨20,fun dstsize hsize => ?_⟩
  obtain ⟨n,rfl⟩ := Nat.exists_eq_add_of_le' hsize
  rfl

/-- Room for four characters: the inner and the outer loop are both left early. -/
theorem listing_truncated : ∃ (r : CDRReader .little listing .sample) (dst' : Nat → Char),
    r.printInto ⟨decimal,decimal⟩ .sample (fun _ => 'x') 4 listingBytes = .ok (dst',3) ∧
      (∀ i < 3, listingText[i]? = some (dst' i)) ∧ dst' 3 = Char.ofNat 0 ∧ ∀ i ≥ 4, dst' i = 'x' := by
  obtain ⟨c,hc,_⟩ := make_known listing.toValueType
  exact ⟨⟨c,hc⟩,printInto_truncates ⟨decimal,decimal⟩ .sample ⟨c,hc⟩ (listing_inFull _ _) (fun _ => 'x')
    (Nat.succ_pos 3)⟩

end CDRReader
end RmwCyclonedds
