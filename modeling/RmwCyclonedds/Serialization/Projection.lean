import RmwCyclonedds.Serialization.TrivSerCache

/-! Which part of a value a stream carries: all of it for a sample, the members
marked as key for a key. -/
namespace RmwCyclonedds
open Library

inductive SampleOrKey where
  | sample
  | key
  deriving DecidableEq, Repr

inductive SampleOrRequest where
  | sample
  | request
  deriving DecidableEq, Repr

/-- A struct that marks no member contributes all of them. -/
def allFields (what : SampleOrKey) (ms : Members) : Bool := what != .key || !ms.hasKeys

@[simp] theorem allFields_sample (ms : Members) : allFields .sample ms = true := rfl

@[simp] theorem allFields_key (ms : Members) : allFields .key ms = !ms.hasKeys := rfl

/-- Where the elements of an array after the first are taken over whole. -/
abbrev WholeCopies := Nat → ValueType → Bool

def neverWhole : WholeCopies := fun _ _ => false

/-- The copies a cache allows. -/
def cachedWhole : WholeCopies := fun off t => t.trivialMany off

section
variable (view : Value → Nat → Value)

def viewEach : List Value → Nat → List Value
  | [], _ => []
  | v :: vs, off => view v off :: viewEach vs ((view v off).finish off)

def viewMany (whole : Nat → Bool) : List Value → Nat → List Value
  | [], _ => []
  | v :: vs, off =>
    view v off :: if whole ((view v off).finish off) then vs else viewEach view vs ((view v off).finish off)

end

section
variable (whole : WholeCopies) (what : SampleOrKey)

mutual
/-- The part of a value that is written at an offset. The offset matters only through
the copies of whole elements. -/
def ValueType.view : ValueType → Value → Nat → Value
  | .struct _ ms, .struct vs, off => .struct (ms.view (allFields what ms) vs off)
  | .array t _, .array vs, off => .array (viewMany (fun v o => t.view v o) (fun o => whole o t) vs off)
  | .spanSequence _ t _, .sequence vs, off =>
    .sequence (viewMany (fun v o => t.view v o) (fun o => whole o t) vs (alignUp 4 off + 4))
  | _, v, _ => v

def Members.view : Members → Bool → List Value → Nat → List Value
  | .cons _ isKey t ms, all, v :: vs, off =>
    if all || isKey then t.view v off :: ms.view all vs ((t.view v off).finish off)
    else ms.view all vs off
  | _, _, _, _ => []
end

end

theorem viewEach_length (view : Value → Nat → Value) (vs : List Value) (off : Nat) :
    (viewEach view vs off).length = vs.length := by
  induction vs generalizing off with
  | nil => rfl
  | cons v vs ih => rw [viewEach, List.length_cons, ih, List.length_cons]

theorem viewMany_length (view : Value → Nat → Value) (whole : Nat → Bool) (vs : List Value) (off : Nat) :
    (viewMany view whole vs off).length = vs.length := by
  cases vs with
  | nil => rfl
  | cons v vs =>
    rw [viewMany]
    split
    · rfl
    · rw [List.length_cons, viewEach_length, List.length_cons]

private theorem viewEach_same {view : Value → Nat → Value} :
    ∀ {vs : List Value} {off : Nat}, (∀ v ∈ vs, ∀ o, view v o = v) → viewEach view vs off = vs
  | [], _, _ => rfl
  | v :: vs, off, h => by
    rw [viewEach, h v List.mem_cons_self, viewEach_same fun w hw => h w (List.mem_cons_of_mem v hw)]

theorem viewMany_same {view : Value → Nat → Value} {whole : Nat → Bool} {vs : List Value} {off : Nat}
    (h : ∀ v ∈ vs, ∀ o, view v o = v) : viewMany view whole vs off = vs := by
  cases vs with
  | nil => rfl
  | cons v vs =>
    rw [viewMany, h v List.mem_cons_self, viewEach_same fun w hw => h w (List.mem_cons_of_mem v hw), ite_self]

mutual
/-- A sample carries everything. -/
theorem ValueType.view_sample (whole : WholeCopies) : ∀ {t : ValueType} {v : Value} {off : Nat}, t.Has v →
    t.view whole .sample v off = v
  | .primitive _, _, _, h => by
    obtain ⟨_,_,rfl⟩ := h
    rfl
  | .u8string _ _, _, _, h => by
    obtain ⟨_,rfl⟩ := h
    rfl
  | .u16string _ _, _, _, h => by
    obtain ⟨_,rfl⟩ := h
    rfl
  | .struct _ ms, _, _, h => by
    obtain ⟨vs,rfl,hvs⟩ := h
    rw [ValueType.view, allFields_sample, Members.view_sample whole hvs]
  | .array t _, _, off, h => by
    obtain ⟨vs,rfl,_,hvs⟩ := h
    rw [ValueType.view, viewMany_same fun v hv _ => ValueType.view_sample whole (hvs v hv)]
  | .spanSequence _ t _, _, off, h => by
    obtain ⟨vs,rfl,hvs⟩ := h
    rw [ValueType.view, viewMany_same fun v hv _ => ValueType.view_sample whole (hvs v hv)]
  | .boolVector _ _, _, _, h => by
    obtain ⟨_,rfl⟩ := h
    rfl

theorem Members.view_sample (whole : WholeCopies) : ∀ {ms : Members} {vs : List Value} {off : Nat},
    ms.Have vs → ms.view whole .sample true vs off = vs
  | .nil, _, _, h => by
    rw [h]
    rfl
  | .cons _ _ t ms, _, off, h => by
    obtain ⟨v,ws,rfl,hv,hws⟩ := h
    rw [Members.view, Bool.true_or, if_pos rfl, ValueType.view_sample whole hv, Members.view_sample whole hws]
end

/-! ### Copies that keep non-key members out -/

mutual
/-- No member of any struct inside is left out. -/
def ValueType.keepsAll (what : SampleOrKey) : ValueType → Bool
  | .struct _ ms => ms.keepsAll what (allFields what ms)
  | .array t _ => t.keepsAll what
  | .spanSequence _ t _ => t.keepsAll what
  | _ => true

def Members.keepsAll (what : SampleOrKey) (all : Bool) : Members → Bool
  | .nil => true
  | .cons _ isKey t ms => (all || isKey) && t.keepsAll what && ms.keepsAll what all
end

section
variable (free : Value → Nat → Prop) (view : Value → Nat → Value)

def freeEach : List Value → Nat → Prop
  | [], _ => True
  | v :: vs, off => free v off ∧ freeEach vs ((view v off).finish off)

/-- The elements behind the first are copied whole only if that keeps the projection. -/
def freeMany (whole : Nat → Bool) (keeps : Bool) : List Value → Nat → Prop
  | [], _ => True
  | v :: vs, off => free v off ∧
    (vs ≠ [] → whole ((view v off).finish off) = true → keeps = true) ∧
    (whole ((view v off).finish off) = false → freeEach free view vs ((view v off).finish off))

end

section
variable (whole : WholeCopies) (what : SampleOrKey)

mutual
/-- Writing the value at this offset copies no element whole that should be projected. -/
def ValueType.CopyFree : ValueType → Value → Nat → Prop
  | .struct _ ms, .struct vs, off => ms.CopyFree (allFields what ms) vs off
  | .array t _, .array vs, off =>
    freeMany (fun v o => t.CopyFree v o) (fun v o => t.view neverWhole what v o) (fun o => whole o t)
      (t.keepsAll what) vs off
  | .spanSequence _ t _, .sequence vs, off =>
    freeMany (fun v o => t.CopyFree v o) (fun v o => t.view neverWhole what v o) (fun o => whole o t)
      (t.keepsAll what) vs (alignUp 4 off + 4)
  | _, _, _ => True

def Members.CopyFree (all : Bool) : Members → List Value → Nat → Prop
  | .cons _ isKey t ms, v :: vs, off =>
    if all || isKey then
      t.CopyFree v off ∧ ms.CopyFree all vs ((t.view neverWhole what v off).finish off)
    else ms.CopyFree all vs off
  | _, _, _ => True
end

end

mutual
theorem ValueType.view_keepsAll (whole : WholeCopies) (what : SampleOrKey) : ∀ {t : ValueType} {v : Value} {off : Nat},
    t.keepsAll what = true → t.Has v → t.view whole what v off = v
  | .primitive _, _, _, _, h => by
    obtain ⟨_,_,rfl⟩ := h
    rfl
  | .u8string _ _, _, _, _, h => by
    obtain ⟨_,rfl⟩ := h
    rfl
  | .u16string _ _, _, _, _, h => by
    obtain ⟨_,rfl⟩ := h
    rfl
  | .struct _ ms, _, _, hk, h => by
    obtain ⟨vs,rfl,hvs⟩ := h
    rw [ValueType.view, Members.view_keepsAll whole what hk hvs]
  | .array t _, _, _, hk, h => by
    obtain ⟨vs,rfl,_,hvs⟩ := h
    have hkt : t.keepsAll what = true := hk
    rw [ValueType.view, viewMany_same fun v hv _ => ValueType.view_keepsAll whole what hkt (hvs v hv)]
  | .spanSequence _ t _, _, _, hk, h => by
    obtain ⟨vs,rfl,hvs⟩ := h
    have hkt : t.keepsAll what = true := hk
    rw [ValueType.view, viewMany_same fun v hv _ => ValueType.view_keepsAll whole what hkt (hvs v hv)]
  | .boolVector _ _, _, _, _, h => by
    obtain ⟨_,rfl⟩ := h
    rfl

theorem Members.view_keepsAll (whole : WholeCopies) (what : SampleOrKey) {all : Bool} :
    ∀ {ms : Members} {vs : List Value} {off : Nat},
      ms.keepsAll what all = true → ms.Have vs → ms.view whole what all vs off = vs
  | .nil, _, _, _, h => by
    rw [h]
    rfl
  | .cons _ isKey t ms, _, off, hk, h => by
    obtain ⟨v,ws,rfl,hv,hws⟩ := h
    simp only [Members.keepsAll, Bool.and_eq_true] at hk
    rw [Members.view, if_pos hk.1.1, ValueType.view_keepsAll whole what hk.1.2 hv,
      Members.view_keepsAll whole what hk.2 hws]
end

private theorem viewEach_congr {view view' : Value → Nat → Value} {free : Value → Nat → Prop} :
    ∀ {vs : List Value} {off : Nat}, (∀ v ∈ vs, ∀ o, free v o → view v o = view' v o) →
      freeEach free view' vs off → viewEach view vs off = viewEach view' vs off
  | [], _, _, _ => rfl
  | v :: vs, off, h, hf => by
    rw [viewEach, viewEach, h v List.mem_cons_self off hf.1,
      viewEach_congr (fun w hw => h w (List.mem_cons_of_mem v hw)) hf.2]

private theorem viewMany_congr {view view' : Value → Nat → Value} {free : Value → Nat → Prop} {whole : Nat → Bool}
    {keeps : Bool} {vs : List Value} {off : Nat} (h : ∀ v ∈ vs, ∀ o, free v o → view v o = view' v o)
    (hkeeps : keeps = true → ∀ v ∈ vs, ∀ o, view' v o = v) (hf : freeMany free view' whole keeps vs off) :
    viewMany view whole vs off = viewMany view' (fun _ => false) vs off := by
  cases vs with
  | nil => rfl
  | cons v vs =>
    obtain ⟨hv,hcopy,heach⟩ := hf
    have hrest : ∀ w ∈ vs, ∀ o, free w o → view w o = view' w o := fun w hw => h w (List.mem_cons_of_mem v hw)
    rw [viewMany, viewMany, h v List.mem_cons_self off hv]
    cases hw : whole ((view' v off).finish off) with
    | false =>
      rw [if_neg Bool.false_ne_true, if_neg Bool.false_ne_true, viewEach_congr hrest (heach hw)]
    | true =>
      rw [if_pos rfl, if_neg Bool.false_ne_true]
      cases vs with
      | nil => rfl
      | cons u us =>
        have hk := hkeeps (hcopy (List.cons_ne_nil u us) hw)
        rw [viewEach_same fun w hw => hk w (List.mem_cons_of_mem v hw)]

mutual
/-- Such copies are invisible: what is written is the plain projection. -/
theorem ValueType.view_of_copyFree (whole : WholeCopies) (what : SampleOrKey) :
    ∀ {t : ValueType} {v : Value} {off : Nat}, t.Has v → t.CopyFree whole what v off →
      t.view whole what v off = t.view neverWhole what v off
  | .primitive _, _, _, h, _ => by
    obtain ⟨_,_,rfl⟩ := h
    rfl
  | .u8string _ _, _, _, h, _ => by
    obtain ⟨_,rfl⟩ := h
    rfl
  | .u16string _ _, _, _, h, _ => by
    obtain ⟨_,rfl⟩ := h
    rfl
  | .struct _ ms, _, _, h, hf => by
    obtain ⟨vs,rfl,hvs⟩ := h
    rw [ValueType.view, ValueType.view, Members.view_of_copyFree whole what hvs hf]
  | .array t _, _, _, h, hf => by
    obtain ⟨vs,rfl,_,hvs⟩ := h
    rw [ValueType.view, ValueType.view]
    exact congrArg Value.array (viewMany_congr (fun v hv _ => ValueType.view_of_copyFree whole what (hvs v hv))
      (fun hk v hv _ => ValueType.view_keepsAll neverWhole what hk (hvs v hv)) hf)
  | .spanSequence _ t _, _, _, h, hf => by
    obtain ⟨vs,rfl,hvs⟩ := h
    rw [ValueType.view, ValueType.view]
    exact congrArg Value.sequence (viewMany_congr (fun v hv _ => ValueType.view_of_copyFree whole what (hvs v hv))
      (fun hk v hv _ => ValueType.view_keepsAll neverWhole what hk (hvs v hv)) hf)
  | .boolVector _ _, _, _, h, _ => by
    obtain ⟨_,rfl⟩ := h
    rfl

theorem Members.view_of_copyFree (whole : WholeCopies) (what : SampleOrKey) {all : Bool} :
    ∀ {ms : Members} {vs : List Value} {off : Nat}, ms.Have vs → ms.CopyFree whole what all vs off →
      ms.view whole what all vs off = ms.view neverWhole what all vs off
  | .nil, _, _, _, _ => rfl
  | .cons _ isKey t ms, _, off, h, hf => by
    obtain ⟨v,ws,rfl,hv,hws⟩ := h
    rw [Members.CopyFree] at hf
    rw [Members.view, Members.view]
    split at hf
    · next hk =>
      rw [if_pos hk, if_pos hk, ValueType.view_of_copyFree whole what hv hf.1,
        Members.view_of_copyFree whole what hws hf.2]
    · next hk => rw [if_neg hk, if_neg hk, Members.view_of_copyFree whole what hws hf]
end

mutual
theorem ValueType.keepsAll_sample : ∀ t : ValueType, t.keepsAll .sample = true
  | .primitive _ => rfl
  | .u8string _ _ => rfl
  | .u16string _ _ => rfl
  | .struct _ ms => Members.keepsAll_sample ms
  | .array t _ => ValueType.keepsAll_sample t
  | .spanSequence _ t _ => ValueType.keepsAll_sample t
  | .boolVector _ _ => rfl

theorem Members.keepsAll_sample : ∀ ms : Members, ms.keepsAll .sample true = true
  | .nil => rfl
  | .cons _ _ t ms => by
    rw [Members.keepsAll, ValueType.keepsAll_sample t, Members.keepsAll_sample ms]
    rfl
end

private theorem freeMany_of_keeps {free : Value → Nat → Prop} {view : Value → Nat → Value} {whole : Nat → Bool}
    (h : ∀ v o, free v o) (vs : List Value) (off : Nat) : freeMany free view whole true vs off := by
  have heach : ∀ (vs : List Value) (off : Nat), freeEach free view vs off := by
    intro vs
    induction vs with
    | nil => exact fun _ => True.intro
    | cons v vs ih => exact fun off => ⟨h v off,ih _⟩
  cases vs with
  | nil => exact True.intro
  | cons v vs => exact ⟨h v off,fun _ _ => rfl,fun _ => heach vs _⟩

mutual
/-- Where nothing is left out, every copy is harmless. -/
theorem ValueType.copyFree_of_keepsAll (whole : WholeCopies) (what : SampleOrKey) : ∀ {t : ValueType},
    t.keepsAll what = true → ∀ (v : Value) (off : Nat), t.CopyFree whole what v off
  | .struct _ ms, hk, v, off => by
    cases v with
    | struct vs => exact Members.copyFree_of_keepsAll whole what hk vs off
    | _ => exact True.intro
  | .array t _, hk, v, off => by
    have hkt : t.keepsAll what = true := hk
    cases v with
    | array vs =>
      rw [ValueType.CopyFree, hkt]
      exact freeMany_of_keeps (ValueType.copyFree_of_keepsAll whole what hkt) vs off
    | _ => exact True.intro
  | .spanSequence _ t _, hk, v, off => by
    have hkt : t.keepsAll what = true := hk
    cases v with
    | sequence vs =>
      rw [ValueType.CopyFree, hkt]
      exact freeMany_of_keeps (ValueType.copyFree_of_keepsAll whole what hkt) vs _
    | _ => exact True.intro
  | .primitive _, _, _, _ => True.intro
  | .u8string _ _, _, _, _ => True.intro
  | .u16string _ _, _, _, _ => True.intro
  | .boolVector _ _, _, _, _ => True.intro

theorem Members.copyFree_of_keepsAll (whole : WholeCopies) (what : SampleOrKey) {all : Bool} : ∀ {ms : Members},
    ms.keepsAll what all = true → ∀ (vs : List Value) (off : Nat), ms.CopyFree whole what all vs off
  | .nil, _, _, _ => True.intro
  | .cons _ isKey t ms, hk, vs, off => by
    simp only [Members.keepsAll, Bool.and_eq_true] at hk
    cases vs with
    | nil => exact True.intro
    | cons v vs =>
      rw [Members.CopyFree, if_pos hk.1.1]
      exact ⟨ValueType.copyFree_of_keepsAll whole what hk.1.2 v off,
        Members.copyFree_of_keepsAll whole what hk.2 vs _⟩
end

theorem ValueType.copyFree_sample (whole : WholeCopies) (t : ValueType) (v : Value) (off : Nat) :
    t.CopyFree whole .sample v off :=
  ValueType.copyFree_of_keepsAll whole .sample t.keepsAll_sample v off

end RmwCyclonedds
