import Mathlib.Data.List.Infix

/-! Reading XML with elements, attributes, character data and references, and writing it without escaping anything. -/
namespace RmwCyclonedds.Library.Xml
open List

/-! ### Characters -/

def quotation : Char := Char.ofNat 34

def apostrophe : Char := Char.ofNat 39

def within (ranges : List (Nat × Nat)) (c : Char) : Bool :=
  ranges.any fun (lo,hi) => lo ≤ c.toNat && c.toNat ≤ hi

/-- The characters that a document may have at all. -/
def legal : Char → Bool := within [(0x9,0xa),(0xd,0xd),(0x20,0xd7ff),(0xe000,0xfffd),(0x10000,0x10ffff)]

def blank : Char → Bool := within [(0x9,0xa),(0xd,0xd),(0x20,0x20)]

def nameStart : Char → Bool := within
  [(0x3a,0x3a),(0x41,0x5a),(0x5f,0x5f),(0x61,0x7a),(0xc0,0xd6),(0xd8,0xf6),(0xf8,0x2ff),(0x370,0x37d),(0x37f,0x1fff),
    (0x200c,0x200d),(0x2070,0x218f),(0x2c00,0x2fef),(0x3001,0xd7ff),(0xf900,0xfdcf),(0xfdf0,0xfffd),(0x10000,0xeffff)]

def nameChar (c : Char) : Bool :=
  nameStart c || within [(0x2d,0x2e),(0x30,0x39),(0xb7,0xb7),(0x300,0x36f),(0x203f,0x2040)] c

def digit (base : Nat) (c : Char) : Option Nat :=
  let d := if c.isDigit then c.toNat - 48 else if 97 ≤ c.toNat then c.toNat - 87 else c.toNat - 55
  if c.isAlphanum ∧ d < base then some d else none

def number (base : Nat) : List Char → Nat → Option Nat
  | [], n => some n
  | c :: cs, n => (digit base c).bind fun d => number base cs (n * base + d)

/-- The character that stands behind a number. -/
def numbered (base : Nat) (digits : List Char) : Option Char :=
  if digits = [] then none
  else (number base digits 0).bind fun n => if n.isValidChar ∧ legal (Char.ofNat n) then some (Char.ofNat n) else none

/-- What stands between the ampersand and the semicolon of a reference. -/
def dereference : List Char → Option Char
  | '#' :: 'x' :: digits => numbered 16 digits
  | '#' :: digits => numbered 10 digits
  | name =>
    [("lt".toList,'<'),("gt".toList,'>'),("amp".toList,'&'),("apos".toList,apostrophe),("quot".toList,quotation)].lookup name

/-! ### Reading -/

/-- What a document consists of, in order. -/
inductive Event where
  | start (name : List Char)
  | attribute (name value : List Char)
  | char (c : Char)
  | stop (name : List Char)
  deriving DecidableEq

inductive Mode where
  | content
  | contentRef (r : List Char)
  | tag
  | openName (name : List Char)
  /-- Behind the name or a value in a start tag. -/
  | behind
  /-- Behind a blank in a start tag. -/
  | inside
  | attributeName (name : List Char)
  | equals (name : List Char)
  | quote (name : List Char)
  | value (name : List Char) (q : Char) (v : List Char)
  | valueRef (name : List Char) (q : Char) (v r : List Char)
  | slash
  | closeName (name : List Char)
  | closeEnd (name : List Char)
  deriving DecidableEq

structure State where
  mode : Mode
  /-- Whether the last character was a carriage return. -/
  cr : Bool
  opened : List (List Char)
  attributes : List (List Char)
  out : List Event
  deriving DecidableEq

namespace State

/-- What may follow in a start tag where no name is read. -/
def next (s : State) (c : Char) : Option State :=
  if blank c then some {s with mode := .inside}
  else if c = '/' then some {s with mode := .slash}
  else if c = '>' then some {s with mode := .content, attributes := []}
  else none

def begin (s : State) (name : List Char) : State :=
  {s with mode := .behind, opened := name :: s.opened, attributes := [], out := s.out ++ [.start name]}

def close (s : State) (name : List Char) : Option State :=
  match s.opened with
  | top :: opened =>
    if top = name then some {s with mode := .content, opened := opened, attributes := [], out := s.out ++ [.stop name]}
    else none
  | [] => none

def step (s : State) (c : Char) : Option State :=
  match s.mode with
  | .content =>
    if c = '<' then some {s with mode := .tag}
    -- fragments are separated by commas and blanks
    else if s.opened = [] then if blank c ∨ c = ',' then some s else none
    else if c = '&' then some {s with mode := .contentRef []}
    else if legal c then some {s with out := s.out ++ [.char c]} else none
  | .contentRef r =>
    if c = ';' then (dereference r).map fun x => {s with mode := .content, out := s.out ++ [.char x]}
    else if nameChar c ∨ c = '#' then some {s with mode := .contentRef (r ++ [c])} else none
  | .tag =>
    if c = '/' then some {s with mode := .closeName []}
    else if nameStart c then some {s with mode := .openName [c]} else none
  | .openName name => if nameChar c then some {s with mode := .openName (name ++ [c])} else (s.begin name).next c
  | .behind => s.next c
  | .inside => if nameStart c then some {s with mode := .attributeName [c]} else s.next c
  | .attributeName name =>
    if nameChar c then some {s with mode := .attributeName (name ++ [c])}
    else if c = '=' then some {s with mode := .quote name}
    else if blank c then some {s with mode := .equals name} else none
  | .equals name =>
    if c = '=' then some {s with mode := .quote name} else if blank c then some s else none
  | .quote name =>
    if c = quotation ∨ c = apostrophe then some {s with mode := .value name c []} else if blank c then some s else none
  | .value name q v =>
    if c = q then
      if name ∈ s.attributes then none
      else some {s with mode := .behind, attributes := name :: s.attributes, out := s.out ++ [.attribute name v]}
    else if c = '<' then none
    else if c = '&' then some {s with mode := .valueRef name q v []}
    else if blank c then some {s with mode := .value name q (v ++ [' '])}
    else if legal c then some {s with mode := .value name q (v ++ [c])} else none
  | .valueRef name q v r =>
    if c = ';' then (dereference r).map fun x => {s with mode := .value name q (v ++ [x])}
    else if nameChar c ∨ c = '#' then some {s with mode := .valueRef name q v (r ++ [c])} else none
  | .slash => if c = '>' then s.close (s.opened.headD []) else none
  | .closeName name =>
    if (if name = [] then nameStart c else nameChar c) then some {s with mode := .closeName (name ++ [c])}
    else if c = '>' then s.close name
    else if blank c then some {s with mode := .closeEnd name} else none
  | .closeEnd name => if c = '>' then s.close name else if blank c then some s else none

/-- The ends of lines are unified before anything else: a carriage return, with a line feed behind it or not. -/
def feed (s : State) (c : Char) : Option State :=
  if c = '\n' ∧ s.cr then some {s with cr := false}
  else step {s with cr := c = '\r'} (if c = '\r' then '\n' else c)

def run : State → List Char → Option State
  | s, [] => some s
  | s, c :: cs => (s.feed c).bind fun s => run s cs

def initial : State := ⟨.content,false,[],[],[]⟩

end State

/-- The events of a text, if it is well formed. -/
def scan (text : List Char) : Option (List Event) :=
  match State.initial.run text with
  | some s => if s.mode = .content ∧ s.opened = [] then some s.out else none
  | none => none

/-! ### Writing -/

inductive Node where
  | element (name : List Char) (attributes : List (List Char × List Char)) (children : List Node)
  | text (s : List Char)

def writeAttribute : List Char × List Char → List Char
  | (name,value) => ' ' :: name ++ '=' :: quotation :: value ++ [quotation]

mutual
/-- Nothing is escaped, and an element with nothing in it has one tag. -/
def Node.write : Node → List Char
  | .element name attributes children =>
    '<' :: name ++ attributes.flatMap writeAttribute ++
      if children.isEmpty then ['/','>'] else '>' :: writeAll children ++ '<' :: '/' :: name ++ ['>']
  | .text s => s

def writeAll : List Node → List Char
  | [] => []
  | node :: nodes => node.write ++ writeAll nodes
end

mutual
def Node.events : Node → List Event
  | .element name attributes children =>
    .start name :: attributes.map (fun a => .attribute a.1 a.2) ++ eventsAll children ++ [.stop name]
  | .text s => s.map .char

def eventsAll : List Node → List Event
  | [] => []
  | node :: nodes => node.events ++ eventsAll nodes
end

/-- A name that is read as it is written. -/
def Name (name : List Char) : Prop := (∃ c ∈ name.head?, nameStart c) ∧ ∀ c ∈ name, nameChar c

instance (name : List Char) : Decidable (Name name) :=
  @instDecidableAnd _ _ (Option.decidableExistsMem name.head?) (List.decidableBAll _ name)

/-- Character data that is read as it is written. -/
def PlainText (s : List Char) : Prop := ∀ c ∈ s, legal c ∧ c ≠ '<' ∧ c ≠ '&' ∧ c ≠ '\r'

instance (s : List Char) : Decidable (PlainText s) := List.decidableBAll _ s

/-- The value of an attribute that is read as it is written. -/
def PlainValue (v : List Char) : Prop :=
  ∀ c ∈ v, legal c ∧ c ≠ '<' ∧ c ≠ '&' ∧ c ≠ quotation ∧ (blank c → c = ' ')

instance (v : List Char) : Decidable (PlainValue v) := List.decidableBAll _ v

mutual
/-- Names and character data are as they have to be; of the values of the attributes nothing is said. -/
def Node.Regular : Node → Prop
  | .element name attributes children =>
    Name name ∧ (∀ a ∈ attributes, Name a.1) ∧ (attributes.map Prod.fst).Nodup ∧ RegularAll children
  | .text s => PlainText s

def RegularAll : List Node → Prop
  | [] => True
  | node :: nodes => node.Regular ∧ RegularAll nodes
end

mutual
def Node.PlainValues : Node → Prop
  | .element _ attributes children => (∀ a ∈ attributes, PlainValue a.2) ∧ PlainValuesAll children
  | .text _ => True

def PlainValuesAll : List Node → Prop
  | [] => True
  | node :: nodes => node.PlainValues ∧ PlainValuesAll nodes
end

/-! ### Runs -/

namespace State

private theorem next_out {s s' : State} {c : Char} (h : s.next c = some s') : s'.out = s.out := by
  rw [next] at h
  split_ifs at h <;> cases h <;> rfl

private theorem close_out {s s' : State} {name : List Char} (h : s.close name = some s') : s.out <+: s'.out := by
  rw [close] at h
  split at h
  · split_ifs at h
    cases h
    exact prefix_append _ _
  · cases h

/-- What has been read stays. -/
private theorem step_out {s s' : State} {c : Char} (h : s.step c = some s') : s.out <+: s'.out := by
  have hmap {o : Option Char} {f : Char → State} (hf : ∀ x, s.out <+: (f x).out) (h : o.map f = some s') :
      s.out <+: s'.out := by
    obtain ⟨x,-,rfl⟩ := Option.map_eq_some_iff.mp h
    exact hf x
  rw [step] at h
  split at h
  · split_ifs at h <;> cases h <;> first | exact prefix_refl _ | exact prefix_append _ _
  · split_ifs at h
    · exact hmap (fun _ => prefix_append _ _) h
    · cases h
      exact prefix_refl _
  · split_ifs at h <;> cases h <;> exact prefix_refl _
  · split_ifs at h
    · cases h
      exact prefix_refl _
    · rw [next_out h]
      exact prefix_append _ _
  · rw [next_out h]
  · split_ifs at h
    · cases h
      exact prefix_refl _
    · rw [next_out h]
  · split_ifs at h <;> cases h <;> exact prefix_refl _
  · split_ifs at h <;> cases h <;> exact prefix_refl _
  · split_ifs at h <;> cases h <;> exact prefix_refl _
  · split_ifs at h <;> cases h <;> first | exact prefix_refl _ | exact prefix_append _ _
  · split_ifs at h
    · refine hmap ?_ h
      intro x
      exact prefix_refl _
    · cases h
      exact prefix_refl _
  · split_ifs at h
    exact close_out h
  · split_ifs at h
    any_goals exact close_out h
    all_goals
      cases h
      exact prefix_refl _
  · split_ifs at h
    · exact close_out h
    · cases h
      exact prefix_refl _

theorem run_out {s s' : State} {t : List Char} (h : s.run t = some s') : s.out <+: s'.out := by
  induction t generalizing s with
  | nil =>
    cases h
    exact prefix_refl _
  | cons c t ih =>
    obtain ⟨s₁,hs₁,h⟩ := Option.bind_eq_some_iff.mp h
    refine IsPrefix.trans ?_ (ih h)
    rw [feed] at hs₁
    split at hs₁
    · cases hs₁
      exact prefix_refl _
    · have hstep := step_out hs₁
      exact hstep

/-! ### Reading what is written -/

variable {opened attributes : List (List Char)} {out : List Event} {mode : Mode}

private theorem run_cons {s s' : State} {c : Char} {rest : List Char} (h : s.feed c = some s') :
    s.run (c :: rest) = s'.run rest := by
  rw [run, h]
  rfl

private theorem feed_plain {c : Char} (h : c ≠ '\r') :
    feed ⟨mode,false,opened,attributes,out⟩ c = step ⟨mode,false,opened,attributes,out⟩ c := by
  rw [feed, if_neg (by simp), if_neg h]
  simp only [h, decide_false]

/-- Characters that are collected one by one. -/
private theorem run_collect {f : List Char → State} {P : Char → Prop}
    (hf : ∀ n c, P c → (f n).feed c = some (f (n ++ [c]))) {m : List Char} (hm : ∀ c ∈ m, P c) (n rest : List Char) :
    (f n).run (m ++ rest) = (f (n ++ m)).run rest := by
  induction m generalizing n with
  | nil => rw [nil_append, append_nil]
  | cons c m ih =>
    rw [cons_append, run_cons (hf n c (hm c mem_cons_self)), ih (fun c hc => hm c (mem_cons_of_mem _ hc)),
      append_assoc, singleton_append]

private theorem ne_return {c : Char} (h : nameChar c) : c ≠ '\r' := by
  rintro rfl
  exact absurd h (by decide)

private theorem start_nameChar {c : Char} (h : nameStart c) : nameChar c := by
  rw [nameChar, h, Bool.true_or]

private theorem run_openName {x : Char} {m : List Char} (hm : ∀ c ∈ m, nameChar c) (rest : List Char) :
    run ⟨.openName [x],false,opened,attributes,out⟩ (m ++ rest) =
      run ⟨.openName (x :: m),false,opened,attributes,out⟩ rest := by
  refine run_collect (f := fun n => ⟨.openName n,false,opened,attributes,out⟩) (P := fun c => nameChar c) ?_ hm [x] rest
  intro n c hc
  rw [feed_plain (ne_return hc), step]
  exact if_pos hc

private theorem run_attributeName {x : Char} {m : List Char} (hm : ∀ c ∈ m, nameChar c) (rest : List Char) :
    run ⟨.attributeName [x],false,opened,attributes,out⟩ (m ++ rest) =
      run ⟨.attributeName (x :: m),false,opened,attributes,out⟩ rest := by
  refine run_collect (f := fun n => ⟨.attributeName n,false,opened,attributes,out⟩) (P := fun c => nameChar c) ?_ hm [x] rest
  intro n c hc
  rw [feed_plain (ne_return hc), step]
  exact if_pos hc

private theorem run_closeName {x : Char} {m : List Char} (hm : ∀ c ∈ m, nameChar c) (rest : List Char) :
    run ⟨.closeName [x],false,opened,attributes,out⟩ (m ++ rest) =
      run ⟨.closeName (x :: m),false,opened,attributes,out⟩ rest := by
  refine run_collect (f := fun n => ⟨.closeName (x :: n),false,opened,attributes,out⟩) (P := fun c => nameChar c) ?_ hm [] rest
  intro n c hc
  rw [feed_plain (ne_return hc), step]
  exact if_pos hc

/-- The start of a tag, up to a character that is not of the name. -/
private theorem run_start {name : List Char} (h : Name name) {c : Char} (hc : ¬nameChar c) (hcr : c ≠ '\r')
    (rest : List Char) : run ⟨.content,false,opened,[],out⟩ ('<' :: name ++ c :: rest) =
      run ⟨.behind,false,name :: opened,[],out ++ [.start name]⟩ (c :: rest) := by
  obtain ⟨⟨x,hx,hstart⟩,hall⟩ := h
  cases name with
  | nil => cases hx
  | cons y m =>
    cases hx
    have hslash : x ≠ '/' := by
      rintro rfl
      exact absurd hstart (by decide)
    have htag : feed ⟨.content,false,opened,[],out⟩ '<' = some ⟨.tag,false,opened,[],out⟩ := rfl
    have hopen : feed ⟨.tag,false,opened,[],out⟩ x = some ⟨.openName [x],false,opened,[],out⟩ := by
      rw [feed_plain (ne_return (start_nameChar hstart)), step]
      simp only [if_neg hslash, if_pos hstart]
    rw [cons_append, cons_append, run_cons htag, run_cons hopen,
      run_openName (fun c hc => hall c (mem_cons_of_mem _ hc)), run, run, feed_plain hcr, feed_plain hcr, step, step]
    simp only [if_neg hc]
    rfl

/-- An attribute up to the mark before its value. -/
private theorem run_attribute {name : List Char} (h : Name name) (rest : List Char) :
    run ⟨.behind,false,opened,attributes,out⟩ (' ' :: name ++ '=' :: quotation :: rest) =
      run ⟨.value name quotation [],false,opened,attributes,out⟩ rest := by
  obtain ⟨⟨x,hx,hstart⟩,hall⟩ := h
  cases name with
  | nil => cases hx
  | cons y m =>
    cases hx
    have hblank : feed ⟨.behind,false,opened,attributes,out⟩ ' ' = some ⟨.inside,false,opened,attributes,out⟩ := rfl
    have hname : feed ⟨.inside,false,opened,attributes,out⟩ x =
        some ⟨.attributeName [x],false,opened,attributes,out⟩ := by
      rw [feed_plain (ne_return (start_nameChar hstart)), step]
      exact if_pos hstart
    have hequals : feed ⟨.attributeName (x :: m),false,opened,attributes,out⟩ '=' =
        some ⟨.quote (x :: m),false,opened,attributes,out⟩ := rfl
    have hquote : feed ⟨.quote (x :: m),false,opened,attributes,out⟩ quotation =
        some ⟨.value (x :: m) quotation [],false,opened,attributes,out⟩ := rfl
    rw [cons_append, cons_append, run_cons hblank, run_cons hname,
      run_attributeName (fun c hc => hall c (mem_cons_of_mem _ hc)), run_cons hequals, run_cons hquote]

private theorem run_value {name v : List Char} (h : PlainValue v) (hnew : name ∉ attributes) (rest : List Char) :
    run ⟨.value name quotation [],false,opened,attributes,out⟩ (v ++ quotation :: rest) =
      run ⟨.behind,false,opened,name :: attributes,out ++ [.attribute name v]⟩ rest := by
  have hend : feed ⟨.value name quotation v,false,opened,attributes,out⟩ quotation =
      some ⟨.behind,false,opened,name :: attributes,out ++ [.attribute name v]⟩ := by
    rw [feed_plain (by decide), step]
    simp only [if_true, if_neg hnew]
  have hcollect := run_collect (f := fun v => ⟨.value name quotation v,false,opened,attributes,out⟩)
    (P := fun c => legal c ∧ c ≠ '<' ∧ c ≠ '&' ∧ c ≠ quotation ∧ (blank c → c = ' ')) ?_ h [] (quotation :: rest)
  · exact hcollect.trans (run_cons hend)
  · rintro n c ⟨hlegal,hlt,hamp,hq,hblank⟩
    have hcr : c ≠ '\r' := by
      rintro rfl
      exact absurd (hblank (by decide)) (by decide)
    rw [feed_plain hcr, step]
    simp only [if_neg hq, if_neg hlt, if_neg hamp]
    split_ifs with hb
    · rw [hblank hb]
    · rfl

private theorem run_text {s : List Char} (h : PlainText s) {name : List Char} (rest : List Char) :
    run ⟨.content,false,name :: opened,[],out⟩ (s ++ rest) =
      run ⟨.content,false,name :: opened,[],out ++ s.map .char⟩ rest := by
  have hcollect := run_collect (f := fun s => ⟨.content,false,name :: opened,[],out ++ s.map .char⟩)
    (P := fun c => legal c ∧ c ≠ '<' ∧ c ≠ '&' ∧ c ≠ '\r') ?_ h [] rest
  · rwa [map_nil, append_nil] at hcollect
  · rintro n c ⟨hlegal,hlt,hamp,hcr⟩
    rw [feed_plain hcr, step]
    simp only [if_neg hlt, if_neg (cons_ne_nil _ _), if_neg hamp, if_pos hlegal, map_append, map_cons, map_nil,
      append_assoc]

private theorem run_close {name : List Char} (h : Name name) (rest : List Char) :
    run ⟨.content,false,name :: opened,[],out⟩ ('<' :: '/' :: name ++ '>' :: rest) =
      run ⟨.content,false,opened,[],out ++ [.stop name]⟩ rest := by
  obtain ⟨⟨x,hx,hstart⟩,hall⟩ := h
  cases name with
  | nil => cases hx
  | cons y m =>
    cases hx
    have htag : feed ⟨.content,false,(x :: m) :: opened,[],out⟩ '<' = some ⟨.tag,false,(x :: m) :: opened,[],out⟩ := rfl
    have hslash : feed ⟨.tag,false,(x :: m) :: opened,[],out⟩ '/' =
        some ⟨.closeName [],false,(x :: m) :: opened,[],out⟩ := rfl
    have hname : feed ⟨.closeName [],false,(x :: m) :: opened,[],out⟩ x =
        some ⟨.closeName [x],false,(x :: m) :: opened,[],out⟩ := by
      rw [feed_plain (ne_return (start_nameChar hstart)), step]
      exact if_pos hstart
    have hend : feed ⟨.closeName (x :: m),false,(x :: m) :: opened,[],out⟩ '>' =
        some ⟨.content,false,opened,[],out ++ [.stop (x :: m)]⟩ := by
      rw [feed_plain (by decide), step]
      simp only [reduceCtorEq, if_false, close, if_true]
      rfl
    rw [cons_append, cons_append, cons_append, run_cons htag, run_cons hslash, run_cons hname,
      run_closeName (fun c hc => hall c (mem_cons_of_mem _ hc)), run_cons hend]

private theorem run_empty {name : List Char} (rest : List Char) :
    run ⟨.behind,false,name :: opened,attributes,out⟩ ('/' :: '>' :: rest) =
      run ⟨.content,false,opened,[],out ++ [.stop name]⟩ rest := by
  have hslash : feed ⟨.behind,false,name :: opened,attributes,out⟩ '/' =
      some ⟨.slash,false,name :: opened,attributes,out⟩ := rfl
  have hend : feed ⟨.slash,false,name :: opened,attributes,out⟩ '>' =
      some ⟨.content,false,opened,[],out ++ [.stop name]⟩ := by
    rw [feed_plain (by decide), step]
    simp only [if_true, close, headD_cons]
  rw [run_cons hslash, run_cons hend]

private theorem run_behind (rest : List Char) : run ⟨.behind,false,opened,attributes,out⟩ ('>' :: rest) =
    run ⟨.content,false,opened,[],out⟩ rest := run_cons rfl

/-! ### Values that are not read as they are written -/

/-- What the value of an attribute becomes is not longer than what is written, and if it is the same, then it is plain:
a quotation mark ends it, a reference becomes one character, and a blank becomes a space. -/
private theorem value_read {name a t : List Char} {f : State} :
    (∀ cr v opened attributes out,
      run ⟨.value name quotation v,cr,opened,attributes,out⟩ (a ++ quotation :: t) = some f →
      ∃ u, out ++ [.attribute name (v ++ u)] <+: f.out ∧ u.length ≤ a.length ∧ (u = a → PlainValue a)) ∧
    ∀ cr v r opened attributes out,
      run ⟨.valueRef name quotation v r,cr,opened,attributes,out⟩ (a ++ quotation :: t) = some f →
      ∃ u, out ++ [.attribute name (v ++ u)] <+: f.out ∧ u.length ≤ a.length := by
  induction a with
  | nil =>
    constructor
    · intro cr v opened attributes out h
      obtain ⟨s,hs,h⟩ := Option.bind_eq_some_iff.mp h
      rw [feed, if_neg (by simp [quotation]), if_neg (by decide), step] at hs
      simp only [if_true] at hs
      split_ifs at hs
      cases hs
      refine ⟨[],?_,le_rfl,fun _ c hc => absurd hc not_mem_nil⟩
      rw [append_nil]
      exact run_out h
    · intro cr v r opened attributes out h
      obtain ⟨s,hs,h⟩ := Option.bind_eq_some_iff.mp h
      rw [feed, if_neg (by simp [quotation]), if_neg (by decide), step] at hs
      have hno : ¬(nameChar quotation = true ∨ quotation = '#') := by decide
      have hsemi : quotation ≠ ';' := by decide
      simp only [if_neg hsemi, if_neg hno] at hs
      cases hs
  | cons c a ih =>
    obtain ⟨ihv,ihr⟩ := ih
    constructor
    · intro cr v opened attributes out h
      obtain ⟨s,hs,h⟩ := Option.bind_eq_some_iff.mp h
      -- shorter than what is written, so not the same
      have hshort {u : List Char} (hu : u.length ≤ a.length) : u.length ≤ (c :: a).length ∧ (u = c :: a → PlainValue (c :: a)) := by
        refine ⟨hu.trans (Nat.le_succ _),?_⟩
        rintro rfl
        exact absurd hu (Nat.not_succ_le_self _)
      rw [feed] at hs
      split at hs
      · cases hs
        obtain ⟨u,hout,hu,-⟩ := ihv _ _ _ _ _ h
        exact ⟨u,hout,hshort hu⟩
      · generalize hd : (if c = '\r' then '\n' else c) = d at hs
        rw [step] at hs
        simp only at hs
        split_ifs at hs with hq hseen hlt hamp hb hl
        · cases hs
          refine ⟨[],?_,hshort (Nat.zero_le _)⟩
          rw [append_nil]
          exact run_out h
        · cases hs
          obtain ⟨u,hout,hu⟩ := ihr _ _ _ _ _ _ h
          exact ⟨u,hout,hshort hu⟩
        · cases hs
          obtain ⟨u,hout,hu,hplain⟩ := ihv _ _ _ _ _ h
          rw [append_assoc, singleton_append] at hout
          refine ⟨_,hout,Nat.succ_le_succ hu,?_⟩
          rintro heq
          obtain ⟨rfl,rfl⟩ := cons.inj heq
          exact forall_mem_cons.mpr ⟨by decide,hplain rfl⟩
        · cases hs
          obtain ⟨u,hout,hu,hplain⟩ := ihv _ _ _ _ _ h
          rw [append_assoc, singleton_append] at hout
          refine ⟨_,hout,Nat.succ_le_succ hu,?_⟩
          rintro heq
          obtain ⟨rfl,rfl⟩ := cons.inj heq
          exact forall_mem_cons.mpr ⟨⟨hl,hlt,hamp,hq,fun hblank => absurd hblank hb⟩,hplain rfl⟩
    · intro cr v r opened attributes out h
      obtain ⟨s,hs,h⟩ := Option.bind_eq_some_iff.mp h
      rw [feed] at hs
      split at hs
      · cases hs
        obtain ⟨u,hout,hu⟩ := ihr _ _ _ _ _ _ h
        exact ⟨u,hout,hu.trans (Nat.le_succ _)⟩
      · generalize (if c = '\r' then '\n' else c) = d at hs
        rw [step] at hs
        simp only at hs
        split_ifs at hs
        · obtain ⟨x,-,rfl⟩ := Option.map_eq_some_iff.mp hs
          obtain ⟨u,hout,hu,-⟩ := ihv _ _ _ _ _ h
          rw [append_assoc, singleton_append] at hout
          exact ⟨_,hout,Nat.succ_le_succ hu⟩
        · cases hs
          obtain ⟨u,hout,hu⟩ := ihr _ _ _ _ _ _ h
          exact ⟨u,hout,hu.trans (Nat.le_succ _)⟩

private theorem plain_of_read {name v rest : List Char} {opened attributes : List (List Char)} {out : List Event} {f : State}
    (h : run ⟨.value name quotation [],false,opened,attributes,out⟩ (v ++ quotation :: rest) = some f)
    (hout : out ++ [.attribute name v] <+: f.out) : PlainValue v := by
  obtain ⟨u,hu,-,hplain⟩ := value_read.1 _ _ _ _ _ h
  have heq := (prefix_of_prefix_length_le hu hout (by simp)).eq_of_length (by simp)
  have huv := append_cancel_left heq
  simp only [nil_append, cons.injEq, Event.attribute.injEq, true_and, and_true] at huv
  exact huv ▸ hplain huv

end State

/-! ### Trees -/

section
open State

private theorem run_begin {name : List Char} (h : Name name) (as : List (List Char × List Char)) {d : Char}
    (hd : d = '/' ∨ d = '>') (opened : List (List Char)) (out : List Event) (rest : List Char) :
    run ⟨.content,false,opened,[],out⟩ ('<' :: name ++ as.flatMap writeAttribute ++ d :: rest) =
      run ⟨.behind,false,name :: opened,[],out ++ [.start name]⟩ (as.flatMap writeAttribute ++ d :: rest) := by
  cases as with
  | nil =>
    rw [flatMap_nil, append_nil, nil_append]
    rcases hd with rfl | rfl
    · exact run_start h (by decide) (by decide) rest
    · exact run_start h (by decide) (by decide) rest
  | cons a as =>
    rw [append_assoc, flatMap_cons, writeAttribute]
    exact run_start h (by decide) (by decide) _

private theorem run_writeAttribute {a : List Char × List Char} (h : Name a.1) (opened attributes : List (List Char))
    (out : List Event) (rest : List Char) :
    run ⟨.behind,false,opened,attributes,out⟩ (writeAttribute a ++ rest) =
      run ⟨.value a.1 quotation [],false,opened,attributes,out⟩ (a.2 ++ quotation :: rest) := by
  have hwrite : writeAttribute a ++ rest = ' ' :: a.1 ++ '=' :: quotation :: (a.2 ++ quotation :: rest) := by
    rw [writeAttribute]
    simp only [cons_append, append_assoc, nil_append]
  rw [hwrite, run_attribute h]

private theorem run_attributes {as : List (List Char × List Char)} (hnames : ∀ a ∈ as, Name a.1)
    (hplain : ∀ a ∈ as, PlainValue a.2) (hdistinct : (as.map Prod.fst).Nodup) (opened : List (List Char))
    {attributes : List (List Char)} (hnew : ∀ a ∈ as, a.1 ∉ attributes) (out : List Event) :
    ∃ attributes', ∀ rest, run ⟨.behind,false,opened,attributes,out⟩ (as.flatMap writeAttribute ++ rest) =
      run ⟨.behind,false,opened,attributes',out ++ as.map fun a => .attribute a.1 a.2⟩ rest := by
  induction as generalizing attributes out with
  | nil => exact ⟨attributes,fun rest => by rw [map_nil, append_nil]; rfl⟩
  | cons a as ih =>
    obtain ⟨hname,hnames⟩ := forall_mem_cons.mp hnames
    obtain ⟨hvalue,hplain⟩ := forall_mem_cons.mp hplain
    obtain ⟨hnot,hnew⟩ := forall_mem_cons.mp hnew
    obtain ⟨hout,hdistinct⟩ := nodup_cons.mp hdistinct
    have hnext : ∀ b ∈ as, b.1 ∉ a.1 :: attributes := by
      intro b hb hmem
      rcases mem_cons.mp hmem with heq | hmem
      · exact hout (heq ▸ mem_map_of_mem hb)
      · exact hnew b hb hmem
    obtain ⟨attributes',ih⟩ := ih hnames hplain hdistinct hnext (out ++ [.attribute a.1 a.2])
    refine ⟨attributes',fun rest => ?_⟩
    rw [flatMap_cons, append_assoc, run_writeAttribute hname, run_value hvalue hnot, ih, map_cons, append_assoc,
      singleton_append]

private theorem plain_attributes {as : List (List Char × List Char)} (hnames : ∀ a ∈ as, Name a.1)
    (hdistinct : (as.map Prod.fst).Nodup) {opened attributes : List (List Char)} (hnew : ∀ a ∈ as, a.1 ∉ attributes)
    {out : List Event} {rest : List Char} {f : State}
    (h : run ⟨.behind,false,opened,attributes,out⟩ (as.flatMap writeAttribute ++ rest) = some f)
    (hf : out ++ as.map (fun a => .attribute a.1 a.2) <+: f.out) : ∀ a ∈ as, PlainValue a.2 := by
  induction as generalizing attributes out with
  | nil => exact fun a ha => absurd ha not_mem_nil
  | cons a as ih =>
    obtain ⟨hname,hnames⟩ := forall_mem_cons.mp hnames
    obtain ⟨hnot,hnew⟩ := forall_mem_cons.mp hnew
    obtain ⟨hout,hdistinct⟩ := nodup_cons.mp hdistinct
    have hnext : ∀ b ∈ as, b.1 ∉ a.1 :: attributes := by
      intro b hb hmem
      rcases mem_cons.mp hmem with heq | hmem
      · exact hout (heq ▸ mem_map_of_mem hb)
      · exact hnew b hb hmem
    rw [map_cons, ← singleton_append, ← append_assoc] at hf
    rw [flatMap_cons, append_assoc, run_writeAttribute hname] at h
    have hvalue := plain_of_read h ((prefix_append _ _).trans hf)
    rw [run_value hvalue hnot] at h
    exact forall_mem_cons.mpr ⟨hvalue,ih hnames hdistinct hnext h hf⟩

mutual
/-- Where every value is plain, what is written is read. -/
theorem run_write : ∀ (node : Node) (opened : List (List Char)) (out : List Event) (rest : List Char),
    node.Regular → node.PlainValues → (∀ s, node = .text s → opened ≠ []) →
    run ⟨.content,false,opened,[],out⟩ (node.write ++ rest) = run ⟨.content,false,opened,[],out ++ node.events⟩ rest
  | .text s, opened, out, rest, h, _, hin => by
    obtain ⟨name,opened,rfl⟩ := exists_cons_of_ne_nil (hin s rfl)
    rw [Node.write, Node.events]
    exact run_text h rest
  | .element name as [], opened, out, rest, h, hp, _ => by
    obtain ⟨hname,hnames,hdistinct,-⟩ := h
    obtain ⟨attributes,hattributes⟩ := run_attributes hnames hp.1 hdistinct (name :: opened)
      (fun _ _ => not_mem_nil) (out ++ [.start name])
    have hwrite : (Node.element name as []).write ++ rest =
        '<' :: name ++ as.flatMap writeAttribute ++ '/' :: '>' :: rest := by
      rw [Node.write, append_assoc]
      rfl
    rw [hwrite, run_begin hname as (.inl rfl), hattributes, run_empty, Node.events, eventsAll]
    simp only [append_assoc, append_nil, cons_append, nil_append]
  | .element name as (child :: children), opened, out, rest, h, hp, _ => by
    obtain ⟨hname,hnames,hdistinct,hregular⟩ := h
    obtain ⟨attributes,hattributes⟩ := run_attributes hnames hp.1 hdistinct (name :: opened)
      (fun _ _ => not_mem_nil) (out ++ [.start name])
    have hwrite : (Node.element name as (child :: children)).write ++ rest =
        '<' :: name ++ as.flatMap writeAttribute ++
          '>' :: (writeAll (child :: children) ++ ('<' :: '/' :: name ++ '>' :: rest)) := by
      rw [Node.write]
      simp only [isEmpty_cons, Bool.false_eq_true, if_false, append_assoc, cons_append, nil_append]
    rw [hwrite, run_begin hname as (.inr rfl), hattributes, run_behind,
      run_writeAll (child :: children) name opened _ _ hregular hp.2, run_close hname, Node.events]
    simp only [append_assoc, cons_append, nil_append]

theorem run_writeAll : ∀ (nodes : List Node) (name : List Char) (opened : List (List Char)) (out : List Event)
    (rest : List Char), RegularAll nodes → PlainValuesAll nodes →
    run ⟨.content,false,name :: opened,[],out⟩ (writeAll nodes ++ rest) =
      run ⟨.content,false,name :: opened,[],out ++ eventsAll nodes⟩ rest
  | [], name, opened, out, rest, _, _ => by
    rw [writeAll, eventsAll, nil_append, append_nil]
  | node :: nodes, name, opened, out, rest, h, hp => by
    rw [writeAll, append_assoc, run_write node _ out _ h.1 hp.1 (fun _ _ => cons_ne_nil _ _),
      run_writeAll nodes name opened _ rest h.2 hp.2, eventsAll, append_assoc]
end

mutual
/-- Where what is written is read, every value is plain. -/
theorem plain_of_run : ∀ (node : Node) (opened : List (List Char)) (out : List Event) (rest : List Char) (f : State),
    node.Regular → run ⟨.content,false,opened,[],out⟩ (node.write ++ rest) = some f → out ++ node.events <+: f.out →
    node.PlainValues
  | .text s, opened, out, rest, f, _, _, _ => trivial
  | .element name as [], opened, out, rest, f, h, hrun, hf => by
    obtain ⟨hname,hnames,hdistinct,-⟩ := h
    have hwrite : (Node.element name as []).write ++ rest =
        '<' :: name ++ as.flatMap writeAttribute ++ '/' :: '>' :: rest := by
      rw [Node.write, append_assoc]
      rfl
    rw [hwrite, run_begin hname as (.inl rfl)] at hrun
    have hout : out ++ [.start name] ++ as.map (fun a => .attribute a.1 a.2) <+: f.out := by
      refine IsPrefix.trans ⟨[.stop name],?_⟩ hf
      rw [Node.events, eventsAll]
      simp only [append_assoc, append_nil, cons_append, nil_append]
    exact ⟨plain_attributes hnames hdistinct (fun _ _ => not_mem_nil) hrun hout,trivial⟩
  | .element name as (child :: children), opened, out, rest, f, h, hrun, hf => by
    obtain ⟨hname,hnames,hdistinct,hregular⟩ := h
    have hwrite : (Node.element name as (child :: children)).write ++ rest =
        '<' :: name ++ as.flatMap writeAttribute ++
          '>' :: (writeAll (child :: children) ++ ('<' :: '/' :: name ++ '>' :: rest)) := by
      rw [Node.write]
      simp only [isEmpty_cons, Bool.false_eq_true, if_false, append_assoc, cons_append, nil_append]
    have hevents : out ++ (Node.element name as (child :: children)).events =
        out ++ [.start name] ++ as.map (fun a => .attribute a.1 a.2) ++ eventsAll (child :: children) ++ [.stop name] := by
      rw [Node.events]
      simp only [append_assoc, cons_append, nil_append]
    rw [hevents] at hf
    have hchildren := (prefix_append _ _).trans hf
    rw [hwrite, run_begin hname as (.inr rfl)] at hrun
    have hplain := plain_attributes hnames hdistinct (fun _ _ => not_mem_nil) hrun ((prefix_append _ _).trans hchildren)
    obtain ⟨attributes,hattributes⟩ := run_attributes hnames hplain hdistinct (name :: opened)
      (fun _ _ => not_mem_nil) (out ++ [.start name])
    rw [hattributes, run_behind] at hrun
    exact ⟨hplain,plain_of_runAll (child :: children) name opened _ _ f hregular hrun hchildren⟩

theorem plain_of_runAll : ∀ (nodes : List Node) (name : List Char) (opened : List (List Char)) (out : List Event)
    (rest : List Char) (f : State), RegularAll nodes →
    run ⟨.content,false,name :: opened,[],out⟩ (writeAll nodes ++ rest) = some f → out ++ eventsAll nodes <+: f.out →
    PlainValuesAll nodes
  | [], name, opened, out, rest, f, _, _, _ => trivial
  | node :: nodes, name, opened, out, rest, f, h, hrun, hf => by
    rw [writeAll, append_assoc] at hrun
    rw [eventsAll, ← append_assoc] at hf
    have hnode := plain_of_run node _ out _ f h.1 hrun ((prefix_append _ _).trans hf)
    rw [run_write node _ out _ h.1 hnode (fun _ _ => cons_ne_nil _ _)] at hrun
    exact ⟨hnode,plain_of_runAll nodes name opened _ rest f h.2 hrun hf⟩
end

/-- An element with a comma behind it is read as it is written if and only if every value in it is plain. -/
theorem scan_write_iff {name : List Char} {as : List (List Char × List Char)} {children : List Node}
    (h : (Node.element name as children).Regular) :
    scan ((Node.element name as children).write ++ [',']) = some (Node.element name as children).events ↔
      (Node.element name as children).PlainValues := by
  constructor
  · intro hscan
    rw [scan] at hscan
    split at hscan
    · next f hf =>
      split_ifs at hscan
      have hout : f.out = [] ++ (Node.element name as children).events := Option.some.inj hscan
      exact plain_of_run _ [] [] _ f h hf (hout ▸ prefix_refl _)
    · cases hscan
  · intro hp
    rw [scan, initial, run_write _ [] [] _ h hp nofun]
    rfl

end

end RmwCyclonedds.Library.Xml
