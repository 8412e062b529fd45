import RmwCyclonedds.Library.InStep
import RmwCyclonedds.Serialization.Shortcut

/-! The overloads of `CDRReader::print`, and how far they read. -/
namespace RmwCyclonedds
open Library DeserializeCursor

/-- `operator <<` of the standard library for floating point numbers, given by their bits. -/
structure Formats where
  float : Nat → Text
  double : Nat → Text

def decimal (n : Nat) : Text := (toString n).toList

def signedDecimal (bits n : Nat) : Text := (toString (BitVec.ofNat bits n).toInt).toList

def charOf (b : Byte) : Char := Char.ofNat b.toNat

/-- A number as it is printed for its type. -/
def Formats.formatted (formats : Formats) : TypeKind → Nat → Text
  | .char, n => ['\'',Char.ofNat n,'\'']
  | .boolean, n => if n ≠ 0 then "true".toList else "false".toList
  | .octet, n | .uint8, n | .wchar, n | .uint16, n | .uint32, n | .uint64, n => decimal n
  | .int8, n => signedDecimal 8 n
  | .int16, n => signedDecimal 16 n
  | .int32, n => signedDecimal 32 n
  | .int64, n => signedDecimal 64 n
  | .float, n => formats.float n
  | .double, n => formats.double n

section
variable (formats : Formats) (host : Endian) (bswapSrc : Bool) (what : SampleOrKey) (limit : Nat)

def printPrimitive (k : TypeKind) (src : DeserializeCursor) (dst : Text) : Outcome (Text × DeserializeCursor) := do
  let src ← src.align k.cdralignofType
  let (srcdata,src) ← src.getBytes k.cdrsizeofType
  return (dst ++ formats.formatted k (host.decode (swapped host bswapSrc k.cdrsizeofType srcdata)),src)

def printU8String (src : DeserializeCursor) (dst : Text) : Outcome (Text × DeserializeCursor) := do
  let (size,src) ← deserializeU32 host bswapSrc src
  if size = 0 then throw (.throws sizeZeroString)
  let (srcdata,src) ← src.getBytes size
  if srcdata.getLast? ≠ some 0 then throw (.throws unterminatedString)
  return (dst ++ ('"' :: (srcdata.take (size - 1)).map charOf ++ ['"']),src)

def printU16String (src : DeserializeCursor) (dst : Text) : Outcome (Text × DeserializeCursor) := do
  let (size,src) ← deserializeU32 host bswapSrc src
  if size % 2 ≠ 0 then throw (.throws oddWString)
  let (_,src) ← src.getBytes size
  return (dst ++ "(wstring)".toList,src)

/-- The loop over elements; once the text is too long it ends without a brace. -/
def printEach (print : DeserializeCursor → Text → Outcome (Text × DeserializeCursor)) (first : Bool) :
    Nat → DeserializeCursor → Text → Outcome (Text × DeserializeCursor)
  | 0, src, dst => return (dst ++ ['}'],src)
  | count + 1, src, dst => do
    if dst.length > limit then return (dst,src)
    let dst := if first then dst else dst ++ [',']
    let (dst,src) ← print src dst
    printEach print false count src dst

def printMany (print : DeserializeCursor → Text → Outcome (Text × DeserializeCursor)) (count : Nat)
    (src : DeserializeCursor) (dst : Text) : Outcome (Text × DeserializeCursor) :=
  printEach limit print true count src (dst ++ ['{'])

mutual
def print : ValueType → DeserializeCursor → Text → Outcome (Text × DeserializeCursor)
  | .primitive k, src, dst => printPrimitive formats host bswapSrc k src dst
  | .u8string _ _, src, dst => printU8String host bswapSrc src dst
  | .u16string _ _, src, dst => printU16String host bswapSrc src dst
  | .struct _ ms, src, dst => printMembers (allFields what ms) true ms src dst
  | .array t n, src, dst => printMany limit (fun src dst => print t src dst) n src dst
  | .spanSequence _ t _, src, dst => do
    let (count,src) ← deserializeU32 host bswapSrc src
    printMany limit (fun src dst => print t src dst) count src dst
  | .boolVector _ _, src, dst => do
    let (count,src) ← deserializeU32 host bswapSrc src
    printMany limit (printPrimitive formats host bswapSrc .boolean) count src dst

/-- The loop over members; `first` until one is printed. -/
def printMembers (all first : Bool) : Members → DeserializeCursor → Text → Outcome (Text × DeserializeCursor)
  | .nil, src, dst => return (if first then dst else dst ++ ['}'],src)
  | .cons _ isKey t ms, src, dst => do
    if dst.length > limit then return (dst,src)
    if isKey || all then
      let (dst,src) ← print t src (dst ++ if first then ['{'] else [','])
      printMembers all false ms src dst
    else printMembers all first ms src dst
end

end

/-! ### How far printing reads -/

/-- Both stop alike, or both end at one place of the stream. -/
abbrev EndsWith {α β : Type} : Outcome (α × DeserializeCursor) → Outcome (β × DeserializeCursor) → Prop :=
  InStep fun p q => p.2 = q.2

theorem EndsWith.symm {α β : Type} {x : Outcome (α × DeserializeCursor)} {y : Outcome (β × DeserializeCursor)}
    (h : EndsWith x y) : EndsWith y x := by
  cases x with
  | error s =>
    cases y with
    | error s' => exact Eq.symm h
    | ok q => exact h.elim
  | ok p =>
    cases y with
    | error s => exact h.elim
    | ok q => exact Eq.symm h

theorem EndsWith.trans {α β γ : Type} {x : Outcome (α × DeserializeCursor)} {y : Outcome (β × DeserializeCursor)}
    {z : Outcome (γ × DeserializeCursor)} (h : EndsWith x y) (h' : EndsWith y z) : EndsWith x z :=
  (InStep.trans h h').imp fun _ _ ⟨_,hp,hq⟩ => hp.trans hq

/-- With a limit that is large enough, what is printed does not depend on it, and printing ends where the other does. -/
def PrintsAs {α : Type} (print : Nat → Outcome (Text × DeserializeCursor)) (y : Outcome (α × DeserializeCursor)) : Prop :=
  ∃ (enough : Nat) (text : Text), ∀ limit ≥ enough, InStep (fun p q => p.1 = text ∧ p.2 = q.2) (print limit) y

namespace PrintsAs
variable {α β : Type} {print : Nat → Outcome (Text × DeserializeCursor)} {y : Outcome (α × DeserializeCursor)}

theorem of_endsWith {x : Outcome (Text × DeserializeCursor)} (h : EndsWith x y) : PrintsAs (fun _ => x) y := by
  cases x with
  | error s =>
    refine ⟨0,[],fun _ _ => ?_⟩
    cases y with
    | error s' => exact h
    | ok q => exact h.elim
  | ok p =>
    refine ⟨0,p.1,fun _ _ => ?_⟩
    cases y with
    | error s => exact h.elim
    | ok q => exact ⟨rfl,h⟩

theorem bind {f : Nat → Text × DeserializeCursor → Outcome (Text × DeserializeCursor)}
    {g : α × DeserializeCursor → Outcome (β × DeserializeCursor)} (h : PrintsAs print y)
    (hfg : ∀ (text : Text) (q : α × DeserializeCursor), y = .ok q → PrintsAs (fun limit => f limit (text,q.2)) (g q)) :
    PrintsAs (fun limit => print limit >>= f limit) (y >>= g) := by
  obtain ⟨enough,text,hprint⟩ := h
  cases hy : y with
  | error s =>
    refine ⟨enough,text,fun limit hlimit => ?_⟩
    have hx := (hprint limit hlimit).right_error hy
    show InStep _ (print limit >>= f limit) _
    rw [hx]
    exact InStep.stop s
  | ok q =>
    obtain ⟨enough',text',hrest⟩ := hfg text q hy
    refine ⟨max enough enough',text',fun limit hlimit => ?_⟩
    obtain ⟨⟨t,d⟩,hx,ht,hd⟩ := (hprint limit ((Nat.le_max_left _ _).trans hlimit)).right_ok hy
    cases ht
    cases hd
    show InStep _ (print limit >>= f limit) _
    rw [hx]
    exact hrest limit ((Nat.le_max_right _ _).trans hlimit)

/-- A text that is there already is not too long for every limit. -/
theorem check (h : PrintsAs print y) (n : Nat) (x : Outcome (Text × DeserializeCursor)) :
    PrintsAs (fun limit => if n > limit then x else print limit) y := by
  obtain ⟨enough,text,hprint⟩ := h
  refine ⟨max enough n,text,fun limit hlimit => ?_⟩
  have hn : ¬n > limit := Nat.not_lt.mpr ((Nat.le_max_right _ _).trans hlimit)
  show InStep _ (if n > limit then x else print limit) y
  rw [if_neg hn]
  exact hprint limit ((Nat.le_max_left _ _).trans hlimit)

theorem trans {z : Outcome (β × DeserializeCursor)} (h : PrintsAs print y) (hyz : EndsWith y z) : PrintsAs print z := by
  obtain ⟨enough,text,hprint⟩ := h
  refine ⟨enough,text,fun limit hlimit => (InStep.trans (hprint limit hlimit) hyz).imp ?_⟩
  rintro p q ⟨b,⟨ht,hd⟩,hb⟩
  exact ⟨ht,hd.trans hb⟩

/-- What is asked for first is the same on both sides. -/
theorem same {γ : Type} {x : Outcome γ} {f : Nat → γ → Outcome (Text × DeserializeCursor)}
    {g : γ → Outcome (β × DeserializeCursor)} (h : ∀ a, x = .ok a → PrintsAs (fun limit => f limit a) (g a)) :
    PrintsAs (fun limit => x >>= f limit) (x >>= g) := by
  cases x with
  | error s => exact ⟨0,[],fun _ _ => InStep.stop s⟩
  | ok a => exact h a rfl

end PrintsAs

/-- Under a limit, printing ends at the given place of the stream, or with a text that is too long. -/
def PrintsUpTo (limit : Nat) (x : Outcome (Text × DeserializeCursor)) (c' : DeserializeCursor) : Prop :=
  ∃ text d, x = .ok (text,d) ∧ (d = c' ∨ limit < text.length)

section
variable (formats : Formats) (host : Endian) (bswapSrc : Bool) (what : SampleOrKey)

private theorem endsWith_map {α β : Type} (y : Outcome (α × DeserializeCursor)) (f : α → β) :
    EndsWith y (do let (a,c) ← y; return (f a,c)) := by
  cases y with
  | error s => exact InStep.stop s
  | ok q => exact rfl

private theorem deserializeAny_plain (t : ValueType) (c : DeserializeCursor) (overload : Outcome (Value × DeserializeCursor)) :
    deserializeAny host noShortcut bswapSrc what t c overload = overload := by
  cases bswapSrc <;> cases what <;> rfl

private theorem printPrimitive_ends (k : TypeKind) (c : DeserializeCursor) (text : Text) :
    EndsWith (printPrimitive formats host bswapSrc k c text) (deserializePrimitive host bswapSrc k.width c) := by
  simp only [printPrimitive, TypeKind.cdralignofType_eq, TypeKind.cdrsizeofType_eq]
  refine InStep.same _ fun d _ => ?_
  exact InStep.same _ fun _ _ => rfl

private theorem printU8String_ends (c : DeserializeCursor) (text : Text) :
    EndsWith (printU8String host bswapSrc c text) (deserializeU8String host bswapSrc c) := by
  refine InStep.same _ fun ⟨size,d⟩ _ => ?_
  refine InStep.ite (fun _ => InStep.stop _) fun _ => ?_
  refine InStep.same _ fun ⟨srcdata,e⟩ _ => ?_
  exact InStep.ite (fun _ => InStep.stop _) fun _ => rfl

private theorem printU16String_ends (c : DeserializeCursor) (text : Text) :
    EndsWith (printU16String host bswapSrc c text) (deserializeU16String host bswapSrc c) := by
  refine InStep.same _ fun ⟨size,d⟩ _ => ?_
  refine InStep.ite (fun _ => InStep.stop _) fun _ => ?_
  exact InStep.same _ fun _ _ => rfl

/-- Bytes are passed at once or one first. -/
private theorem getBytes_succ (n : Nat) (c : DeserializeCursor) :
    EndsWith (do let (_,d) ← c.getBytes 1; d.getBytes n) (c.getBytes (n + 1)) := by
  by_cases h : c.data.length - c.position < n + 1
  · rw [getBytes_short h]
    by_cases h1 : c.data.length - c.position < 1
    · rw [getBytes_short h1]
      exact InStep.stop _
    · obtain ⟨bs,d,hd⟩ := exists_getBytes h1
      obtain ⟨hlen,hreads⟩ := reads_of_getBytes hd
      have hshort : d.data.length - d.position < n := by
        rw [hreads.data_eq, hreads.position_eq, hlen]
        omega
      rw [hd]
      show EndsWith (d.getBytes n) _
      rw [getBytes_short hshort]
      exact InStep.stop _
  · obtain ⟨bs,c',hget⟩ := exists_getBytes h
    obtain ⟨hlen,hreads⟩ := reads_of_getBytes hget
    obtain ⟨b,rest,rfl⟩ := List.exists_of_length_succ bs hlen
    have hsplit : Reads c ([b] ++ rest) c' := hreads
    obtain ⟨d,hone,hrest⟩ := hsplit.split
    have hfirst : c.getBytes 1 = _ := getBytes_of_reads hone
    have hsecond := getBytes_of_reads hrest
    rw [Nat.succ.inj hlen] at hsecond
    rw [hget, hfirst]
    show EndsWith (d.getBytes n) _
    rw [hsecond]
    exact rfl

/-- Booleans are read one by one or all at once. -/
private theorem bits_end (n : Nat) (c : DeserializeCursor) :
    EndsWith (deserializeEach (deserializePrimitive host bswapSrc .one) n c) (c.getBytes n) := by
  induction n generalizing c with
  | zero =>
    obtain ⟨bs,c',hget⟩ := exists_getBytes (Nat.not_lt_zero (c.data.length - c.position))
    obtain ⟨hlen,hreads⟩ := reads_of_getBytes hget
    rw [hget]
    exact ((Reads.refl c).bytes_unique hreads hlen.symm).2
  | succ n ih =>
    refine EndsWith.trans ?_ (getBytes_succ n c)
    have halign : c.align Width.one.bytes = .ok c := if_pos (.inl rfl)
    have hone : EndsWith (deserializePrimitive host bswapSrc .one c) (c.getBytes 1) := by
      rw [deserializePrimitive, halign]
      exact EndsWith.symm (endsWith_map (c.getBytes 1) fun bytes => Value.primitive .one
        (host.decode (swapped host bswapSrc Width.one.bytes bytes)))
    refine InStep.bind hone ?_
    rintro ⟨v,d⟩ ⟨bs,d'⟩ _ hd
    cases hd
    exact EndsWith.trans (EndsWith.symm (endsWith_map _ _)) (ih d)

section
variable {printElement : Nat → DeserializeCursor → Text → Outcome (Text × DeserializeCursor)}
  {f : DeserializeCursor → Outcome (Value × DeserializeCursor)}
  (h : ∀ c text, PrintsAs (fun limit => printElement limit c text) (f c))
include h

private theorem printEach_as (first : Bool) (count : Nat) (c : DeserializeCursor) (text : Text) :
    PrintsAs (fun limit => printEach limit (printElement limit) first count c text) (deserializeEach f count c) := by
  induction count generalizing first c text with
  | zero => exact PrintsAs.of_endsWith rfl
  | succ count ih =>
    refine PrintsAs.check (PrintsAs.bind (h c _) fun text' q _ => ?_) text.length _
    exact PrintsAs.trans (ih false q.2 text') (endsWith_map _ _)

end

mutual
/-- Printing without end of the text, against reading member by member and element by element. -/
theorem print_as : ∀ {t : ValueType}, t.WellFormed → ∀ (c : DeserializeCursor) (text : Text),
    PrintsAs (fun limit => print formats host bswapSrc what limit t c text)
      (deserialize host noShortcut plentiful bswapSrc what t c)
  | .primitive k, _, c, text => by
    rw [deserialize, deserializeAny_plain]
    exact PrintsAs.of_endsWith (printPrimitive_ends formats host bswapSrc k c text)
  | .u8string _ _, _, c, text => by
    rw [deserialize, deserializeAny_plain]
    exact PrintsAs.of_endsWith (printU8String_ends host bswapSrc c text)
  | .u16string _ _, _, c, text => by
    rw [deserialize, deserializeAny_plain]
    exact PrintsAs.of_endsWith (printU16String_ends host bswapSrc c text)
  | .struct _ ms, hw, c, text => by
    rw [deserialize, deserializeAny_plain]
    exact PrintsAs.trans (printMembers_as (allFields what ms) true hw c text) (endsWith_map _ _)
  | .array t n, hw, c, text => by
    rw [deserialize, deserializeAny_plain, deserializeMany_noShortcut host hw.1]
    exact PrintsAs.trans (printEach_as (print_as hw.2) true n c _) (endsWith_map _ _)
  | .spanSequence k t _, hw, c, text => by
    rw [deserialize, deserializeAny_plain]
    refine PrintsAs.same fun ⟨count,d⟩ _ => ?_
    have hresize : resize plentiful k d.position count = .ok () := by cases k <;> rfl
    simp only [hresize, deserializeMany_noShortcut host hw.1]
    exact PrintsAs.trans (printEach_as (print_as hw.2.1) true count d _) (endsWith_map _ _)
  | .boolVector _ _, _, c, text => by
    rw [deserialize, deserializeAny_plain]
    refine PrintsAs.same fun ⟨count,d⟩ _ => ?_
    have hone : ∀ c text, PrintsAs (fun _ => printPrimitive formats host bswapSrc .boolean c text)
        (deserializePrimitive host bswapSrc .one c) :=
      fun c text => PrintsAs.of_endsWith (printPrimitive_ends formats host bswapSrc .boolean c text)
    have heach := printEach_as hone true count d (text ++ ['{'])
    exact PrintsAs.trans heach (EndsWith.trans (bits_end host bswapSrc count d)
      (endsWith_map (d.getBytes count) fun srcdata => Value.sequence (srcdata.map fun b => boolValue (b != 0))))

theorem printMembers_as (all first : Bool) : ∀ {ms : Members}, ms.WellFormed → ∀ (c : DeserializeCursor) (text : Text),
    PrintsAs (fun limit => printMembers formats host bswapSrc what limit all first ms c text)
      (deserializeMembers host noShortcut plentiful bswapSrc what all ms c)
  | .nil, _, c, text => PrintsAs.of_endsWith rfl
  | .cons _ isKey t ms, hw, c, text => by
    refine PrintsAs.check ?_ text.length _
    cases hk : isKey || all with
    | false =>
      rw [deserializeMembers, Bool.or_comm, hk]
      exact printMembers_as all first hw.2 c text
    | true =>
      rw [deserializeMembers, Bool.or_comm, hk]
      refine PrintsAs.bind (print_as hw.1 c _) fun text' q _ => ?_
      exact PrintsAs.trans (printMembers_as all false hw.2 q.2 text') (endsWith_map _ _)
end

/-! ### Under a limit -/

variable (limit : Nat)

private theorem upTo_of_endsWith {α : Type} {x : Outcome (Text × DeserializeCursor)} {y : Outcome (α × DeserializeCursor)}
    {a : α} {c' : DeserializeCursor} (h : EndsWith x y) (hy : y = .ok (a,c')) : PrintsUpTo limit x c' := by
  obtain ⟨⟨text,d⟩,hx,hd⟩ := InStep.right_ok h hy
  exact ⟨text,d,hx,.inl hd⟩

theorem printEach_over (pr : DeserializeCursor → Text → Outcome (Text × DeserializeCursor)) (first : Bool)
    (count : Nat) (c : DeserializeCursor) {text : Text} (h : limit < text.length) :
    ∃ text', printEach limit pr first count c text = .ok (text',c) ∧ limit < text'.length := by
  cases count with
  | zero =>
    refine ⟨_,rfl,?_⟩
    rw [List.length_append]
    omega
  | succ count => exact ⟨text,if_pos h,h⟩

theorem printMembers_over (all first : Bool) (ms : Members) (c : DeserializeCursor) {text : Text}
    (h : limit < text.length) : ∃ text', printMembers formats host bswapSrc what limit all first ms c text = .ok (text',c) ∧
      limit < text'.length := by
  cases ms with
  | nil =>
    refine ⟨_,rfl,?_⟩
    cases first with
    | true => exact h
    | false =>
      show limit < (text ++ ['}']).length
      rw [List.length_append]
      omega
  | cons off isKey t ms => exact ⟨text,if_pos h,h⟩

section
variable {printElement : DeserializeCursor → Text → Outcome (Text × DeserializeCursor)}
  {f : DeserializeCursor → Outcome (Value × DeserializeCursor)}
  (h : ∀ {c v c'}, f c = .ok (v,c') → ∀ text, PrintsUpTo limit (printElement c text) c')
include h

private theorem printEach_upTo (first : Bool) {count : Nat} {c c' : DeserializeCursor} {vs : List Value}
    (hread : deserializeEach f count c = .ok (vs,c')) (text : Text) :
    PrintsUpTo limit (printEach limit printElement first count c text) c' := by
  induction count generalizing first c vs text with
  | zero =>
    cases hread
    exact ⟨_,_,rfl,.inl rfl⟩
  | succ count ih =>
    obtain ⟨⟨v,d⟩,hone,hread⟩ := Outcome.bind_eq_ok hread
    obtain ⟨⟨vs,d'⟩,hrest,hread⟩ := Outcome.bind_eq_ok hread
    cases hread
    rw [printEach]
    by_cases hover : text.length > limit
    · rw [if_pos hover]
      exact ⟨text,c,rfl,.inr hover⟩
    · rw [if_neg hover]
      obtain ⟨text',e,hprint,hend⟩ := h hone (if first then text else text ++ [','])
      simp only [hprint, bind, Except.bind]
      rcases hend with rfl | hlong
      · exact ih false hrest text'
      · obtain ⟨text'',hprint,hlong⟩ := printEach_over limit printElement false count e hlong
        exact ⟨text'',e,hprint,.inr hlong⟩

end

mutual
/-- What a reader without copies accepts is printed under every limit. -/
theorem print_upTo : ∀ {t : ValueType}, t.WellFormed → ∀ {c c' : DeserializeCursor} {v : Value},
    deserialize host noShortcut plentiful bswapSrc what t c = .ok (v,c') → ∀ text : Text,
    PrintsUpTo limit (print formats host bswapSrc what limit t c text) c'
  | .primitive k, _, c, c', v, h, text => by
    rw [deserialize, deserializeAny_plain] at h
    exact upTo_of_endsWith limit (printPrimitive_ends formats host bswapSrc k c text) h
  | .u8string _ _, _, c, c', v, h, text => by
    rw [deserialize, deserializeAny_plain] at h
    exact upTo_of_endsWith limit (printU8String_ends host bswapSrc c text) h
  | .u16string _ _, _, c, c', v, h, text => by
    rw [deserialize, deserializeAny_plain] at h
    exact upTo_of_endsWith limit (printU16String_ends host bswapSrc c text) h
  | .struct _ ms, hw, c, c', v, h, text => by
    rw [deserialize, deserializeAny_plain] at h
    obtain ⟨⟨vs,d⟩,hms,h⟩ := Outcome.bind_eq_ok h
    cases h
    exact printMembers_upTo (allFields what ms) true hw hms text
  | .array t n, hw, c, c', v, h, text => by
    rw [deserialize, deserializeAny_plain, deserializeMany_noShortcut host hw.1] at h
    obtain ⟨⟨vs,d⟩,heach,h⟩ := Outcome.bind_eq_ok h
    cases h
    exact printEach_upTo limit (print_upTo hw.2) true heach _
  | .spanSequence k t _, hw, c, c', v, h, text => by
    rw [deserialize, deserializeAny_plain] at h
    obtain ⟨⟨count,d⟩,hcount,h⟩ := Outcome.bind_eq_ok h
    obtain ⟨_,_,h⟩ := Outcome.bind_eq_ok h
    obtain ⟨⟨vs,e⟩,heach,h⟩ := Outcome.bind_eq_ok h
    cases h
    rw [deserializeMany_noShortcut host hw.1] at heach
    simp only [print, hcount, bind, Except.bind]
    exact printEach_upTo limit (print_upTo hw.2.1) true heach _
  | .boolVector _ _, _, c, c', v, h, text => by
    rw [deserialize, deserializeAny_plain] at h
    obtain ⟨⟨count,d⟩,hcount,h⟩ := Outcome.bind_eq_ok h
    obtain ⟨⟨bs,e⟩,hget,h⟩ := Outcome.bind_eq_ok h
    cases h
    obtain ⟨⟨vs,e'⟩,heach,he⟩ := InStep.right_ok (bits_end host bswapSrc count d) hget
    cases he
    have hone : ∀ {c : DeserializeCursor} {v : Value} {c' : DeserializeCursor},
        deserializePrimitive host bswapSrc .one c = .ok (v,c') → ∀ text,
        PrintsUpTo limit (printPrimitive formats host bswapSrc .boolean c text) c' :=
      fun h text => upTo_of_endsWith limit (printPrimitive_ends formats host bswapSrc .boolean _ text) h
    simp only [print, hcount, bind, Except.bind]
    exact printEach_upTo limit hone true heach _

theorem printMembers_upTo (all first : Bool) : ∀ {ms : Members}, ms.WellFormed → ∀ {c c' : DeserializeCursor}
    {vs : List Value}, deserializeMembers host noShortcut plentiful bswapSrc what all ms c = .ok (vs,c') →
    ∀ text : Text, PrintsUpTo limit (printMembers formats host bswapSrc what limit all first ms c text) c'
  | .nil, _, c, c', vs, h, text => by
    cases h
    exact ⟨_,c,rfl,.inl rfl⟩
  | .cons _ isKey t ms, hw, c, c', vs, h, text => by
    rw [printMembers]
    by_cases hover : text.length > limit
    · rw [if_pos hover]
      exact ⟨text,c,rfl,.inr hover⟩
    · rw [if_neg hover]
      rw [deserializeMembers, Bool.or_comm] at h
      cases hk : isKey || all with
      | false =>
        rw [hk] at h
        exact printMembers_upTo all first hw.2 h text
      | true =>
        rw [hk] at h
        obtain ⟨⟨v,d⟩,hone,h⟩ := Outcome.bind_eq_ok h
        obtain ⟨⟨vs',d'⟩,hrest,h⟩ := Outcome.bind_eq_ok h
        cases h
        obtain ⟨text',e,hprint,hend⟩ := print_upTo hw.1 hone (text ++ if first then ['{'] else [','])
        simp only [hprint, if_true, bind, Except.bind]
        rcases hend with rfl | hlong
        · exact printMembers_upTo all false hw.2 hrest text'
        · obtain ⟨text'',hprint,hlong⟩ := printMembers_over formats host bswapSrc what limit all false ms e hlong
          exact ⟨text'',e,hprint,.inr hlong⟩
end

end

namespace CDRReader

section
variable (host : Endian) (root : StructValueType) (variant : SampleOrRequest) (formats : Formats) (what : SampleOrKey)
  (limit : Nat)

/-- `print_top_level` from the check of the header on. -/
def printBehindHeader (rtpsHeader : List Byte) (src : DeserializeCursor) (dst : Text) :
    Outcome (Text × DeserializeCursor) := do
  if rtpsHeader.getD 0 0 ≠ 0 ∨ rtpsHeader.getD 1 0 > 1 then throw (.throws unrecognizedHeader)
  let bswapSrc := (rtpsHeader.getD 1 0 == 0) == (host == .little)
  let (dst,src) ← (if what = .sample ∧ variant = .request then do
      let (dst,src) ← RmwCyclonedds.print formats host bswapSrc what limit (.primitive .uint64) src dst
      RmwCyclonedds.print formats host bswapSrc what limit (.primitive .uint64) src dst
    else .ok (dst,src))
  let (dst,src) ← (if what = .sample ∨ root.hasKeys then
      RmwCyclonedds.print formats host bswapSrc what limit root.toValueType src dst
    else .ok (dst,src))
  return (dst,src.rebase (-4))

def printTopLevel (src : DeserializeCursor) (dst : Text) : Outcome (Text × DeserializeCursor) := do
  let (rtpsHeader,src) ← src.getBytes 4
  printBehindHeader host root variant formats what limit rtpsHeader (src.rebase 4) dst

end

variable {host : Endian} {root : StructValueType} {variant : SampleOrRequest}

/-- What is stored in front of the final zero; its length is returned. -/
def print (_ : CDRReader host root variant) (formats : Formats) (dstsize : Nat) (cdr : List Byte) (what : SampleOrKey) : Outcome Text := do
  if dstsize = 0 then return []
  if what = .key ∧ root.hasKeys = false then return []
  let (dststring,_) ← printTopLevel host root variant formats what dstsize (DeserializeCursor.start cdr) []
  return if dststring.length < dstsize - 1 then dststring else dststring.take (dstsize - 1)

/-! ### What can be printed -/

section
variable (host : Endian) (root : StructValueType) (variant : SampleOrRequest) (lookup : Lookup) (what : SampleOrKey)

def readBehindHeader (rtpsHeader : List Byte) (src : DeserializeCursor) : Outcome (Option Value × DeserializeCursor) := do
  if rtpsHeader.getD 0 0 ≠ 0 ∨ rtpsHeader.getD 1 0 > 1 then throw (.throws unrecognizedHeader)
  let bswapSrc := (rtpsHeader.getD 1 0 == 0) == (host == .little)
  let (_,src) ← (if what = .sample ∧ variant = .request then deserializeRequestHeader host bswapSrc src
    else .ok (none,src))
  let (v,src) ← (if what = .sample ∨ root.hasKeys then do
      let (v,src) ← RmwCyclonedds.deserialize host lookup plentiful bswapSrc what root.toValueType src
      return (some v,src)
    else .ok (none,src))
  return (v,src.rebase (-4))

/-- Some bytes read through to the end of their message, with no other copies than `lookup` grants, and room for all. -/
def readThrough (cdr : List Byte) : Outcome (Option Value × DeserializeCursor) := do
  let (rtpsHeader,src) ← (DeserializeCursor.start cdr).getBytes 4
  readBehindHeader host root variant lookup what rtpsHeader (src.rebase 4)

end

section
variable (formats : Formats) (what : SampleOrKey)

private theorem printHeader_ends (bswapSrc : Bool) (limit : Nat) {c : DeserializeCursor} (h : c.offset = 0) (text : Text) :
    EndsWith (do
      let (dst,src) ← RmwCyclonedds.print formats host bswapSrc what limit (.primitive .uint64) c text
      RmwCyclonedds.print formats host bswapSrc what limit (.primitive .uint64) src dst)
      (deserializeRequestHeader host bswapSrc c) := by
  have hword : ∀ {d : DeserializeCursor} (text : Text), d.offset % 8 = 0 →
      EndsWith (RmwCyclonedds.print formats host bswapSrc what limit (.primitive .uint64) d text) (d.getBytes 8) := by
    intro d text hd
    have halign : d.align 8 = .ok d := if_pos (.inr hd)
    show EndsWith (do
      let src ← d.align 8
      let (srcdata,src) ← src.getBytes 8
      return (text ++ formats.formatted .uint64 (host.decode (swapped host bswapSrc 8 srcdata)),src)) (d.getBytes 8)
    rw [halign]
    exact EndsWith.symm (endsWith_map (d.getBytes 8) fun srcdata =>
      text ++ formats.formatted .uint64 (host.decode (swapped host bswapSrc 8 srcdata)))
  refine InStep.bind (hword text (by rw [h])) fun ⟨text',d⟩ ⟨guid,e⟩ hguid hd => ?_
  cases hd
  obtain ⟨hlen,hreads⟩ := reads_of_getBytes hguid
  have hoff : d.offset % 8 = 0 := by rw [hreads.offset_eq, h, hlen]
  exact EndsWith.trans (hword text' hoff) (endsWith_map (d.getBytes 8) fun seq =>
    some (host.decode (swapped host bswapSrc 8 guid),host.decode seq))

private theorem printBehindHeader_as (header : List Byte) {c : DeserializeCursor} (h : c.offset = 0) (text : Text) :
    PrintsAs (fun limit => printBehindHeader host root variant formats what limit header c text)
      (readBehindHeader host root variant noShortcut what header c) := by
  by_cases hbad : header.getD 0 0 ≠ 0 ∨ header.getD 1 0 > 1
  · simp only [printBehindHeader, readBehindHeader, if_pos hbad]
    exact PrintsAs.of_endsWith (InStep.stop _)
  · simp only [printBehindHeader, readBehindHeader, if_neg hbad]
    refine PrintsAs.bind ?_ fun text' ⟨_,d⟩ _ => ?_
    · by_cases hrequest : what = .sample ∧ variant = .request
      · simp only [if_pos hrequest]
        exact PrintsAs.of_endsWith (printHeader_ends formats what _ 0 h text)
      · simp only [if_neg hrequest]
        exact PrintsAs.of_endsWith rfl
    · refine PrintsAs.bind ?_ fun text'' ⟨_,e⟩ _ => PrintsAs.of_endsWith rfl
      by_cases hread : what = .sample ∨ root.hasKeys = true
      · simp only [if_pos hread]
        exact PrintsAs.trans (print_as formats host _ what (t := root.toValueType) root.wellFormed d text') (endsWith_map _ _)
      · simp only [if_neg hread]
        exact PrintsAs.of_endsWith rfl

/-- The body starts behind the header, at offset zero. -/
theorem start_rebase {bs cdr : List Byte} {c : DeserializeCursor} (h : (DeserializeCursor.start cdr).getBytes 4 = .ok (bs,c)) :
    (c.rebase 4).offset = 0 ∧ (c.rebase 4).position = 4 := by
  obtain ⟨hlen,hreads⟩ := reads_of_getBytes h
  have hposition : c.position = 4 := by
    rw [hreads.position_eq, hlen]
    rfl
  refine ⟨?_,hposition⟩
  show c.position - min (c.origin + 4 : Int).toNat c.position = 0
  rw [hreads.origin_eq, hposition]
  rfl

theorem printTopLevel_as (cdr : List Byte) :
    PrintsAs (fun limit => printTopLevel host root variant formats what limit (DeserializeCursor.start cdr) [])
      (readThrough host root variant noShortcut what cdr) :=
  PrintsAs.same fun ⟨header,_⟩ hget => printBehindHeader_as formats what header (start_rebase hget).1 []

/-- Only the value can be cut short. -/
theorem printTopLevel_returns (limit : Nat) {cdr : List Byte} {p : Option Value × DeserializeCursor}
    (h : readThrough host root variant noShortcut what cdr = .ok p) :
    ∃ q, printTopLevel host root variant formats what limit (DeserializeCursor.start cdr) [] = .ok q := by
  obtain ⟨⟨header,c⟩,hget,h⟩ := Outcome.bind_eq_ok h
  have hgood : ¬(header.getD 0 0 ≠ 0 ∨ header.getD 1 0 > 1) := by
    intro hbad
    simp only [readBehindHeader, if_pos hbad] at h
    cases h
  simp only [readBehindHeader, if_neg hgood] at h
  obtain ⟨⟨request,d⟩,hrequest,h⟩ := Outcome.bind_eq_ok h
  obtain ⟨⟨v,e⟩,hvalue,_⟩ := Outcome.bind_eq_ok h
  have hlead : ∃ text, (if what = .sample ∧ variant = .request then do
      let (dst,src) ← RmwCyclonedds.print formats host ((header.getD 1 0 == 0) == (host == Endian.little)) what limit
        (.primitive .uint64) (c.rebase 4) []
      RmwCyclonedds.print formats host ((header.getD 1 0 == 0) == (host == Endian.little)) what limit (.primitive .uint64)
        src dst
    else .ok ([],c.rebase 4)) = .ok (text,d) := by
    split at hrequest
    · next hcond =>
      obtain ⟨⟨text,d'⟩,hprint,hd⟩ :=
        InStep.right_ok (printHeader_ends formats what _ limit (start_rebase hget).1 []) hrequest
      cases hd
      exact ⟨text,(if_pos hcond).trans hprint⟩
    · next hcond =>
      cases hrequest
      exact ⟨[],if_neg hcond⟩
  obtain ⟨text,hlead⟩ := hlead
  simp only [printTopLevel, hget, printBehindHeader, if_neg hgood, bind, Except.bind] at hlead ⊢
  rw [hlead]
  split at hvalue
  · next hread =>
    obtain ⟨⟨w,e'⟩,hdeserialize,_⟩ := Outcome.bind_eq_ok hvalue
    obtain ⟨text',e'',hprint,_⟩ := print_upTo formats host _ what limit (t := root.toValueType) root.wellFormed
      hdeserialize text
    simp only [if_pos hread, hprint]
    exact ⟨_,rfl⟩
  · next hread =>
    simp only [if_neg hread]
    exact ⟨_,rfl⟩

/-- Under every limit a message is printed, exactly if a reader gets through it, or there is nothing to print. -/
theorem print_iff (r : CDRReader host root variant) (cdr : List Byte) :
    (∀ dstsize, ∃ text, r.print formats dstsize cdr what = .ok text) ↔
      what = .key ∧ root.hasKeys = false ∨ ∃ p, readThrough host root variant noShortcut what cdr = .ok p := by
  by_cases hnone : what = .key ∧ root.hasKeys = false
  · refine ⟨fun _ => .inl hnone,fun _ dstsize => ⟨[],?_⟩⟩
    rw [print, if_pos hnone]
    split <;> rfl
  constructor
  · intro h
    right
    obtain ⟨enough,text,hprint⟩ := printTopLevel_as formats what cdr
    obtain ⟨text',h⟩ := h (enough + 1)
    rw [print, if_neg (Nat.succ_ne_zero enough), if_neg hnone] at h
    obtain ⟨q,hq,_⟩ := Outcome.bind_eq_ok h
    obtain ⟨p,hp,_⟩ := (hprint (enough + 1) (Nat.le_succ enough)).left_ok hq
    exact ⟨p,hp⟩
  · rintro (h | ⟨p,hp⟩) dstsize
    · exact absurd h hnone
    · obtain ⟨q,hq⟩ := printTopLevel_returns formats what dstsize hp
      rw [print, if_neg hnone, hq]
      split
      · exact ⟨[],rfl⟩
      · exact ⟨_,rfl⟩

end

end CDRReader
end RmwCyclonedds
