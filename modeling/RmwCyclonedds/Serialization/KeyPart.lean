import RmwCyclonedds.Serialization.RoundTrip

/-! The part of a value that makes up its key, and the bytes that walks over key members
produce where they copy whole elements. -/
namespace RmwCyclonedds
open Library

section
variable (what : SampleOrKey)

mutual
/-- The projection itself, wherever the value stands. -/
def ValueType.project : ValueType → Value → Value
  | .struct _ ms, .struct vs => .struct (ms.project (allFields what ms) vs)
  | .array t _, .array vs => .array (vs.map fun v => t.project v)
  | .spanSequence _ t _, .sequence vs => .sequence (vs.map fun v => t.project v)
  | _, v => v

def Members.project (all : Bool) : Members → List Value → List Value
  | .cons _ isKey t ms, v :: vs => if all || isKey then t.project v :: ms.project all vs else ms.project all vs
  | _, _ => []
end

private theorem viewEach_project {view : Value → Nat → Value} {project : Value → Value} {vs : List Value} {off : Nat}
    (h : ∀ v ∈ vs, ∀ off, view v off = project v) : viewEach view vs off = vs.map project := by
  induction vs generalizing off with
  | nil => rfl
  | cons v vs ih =>
    rw [viewEach, h v List.mem_cons_self, ih fun w hw => h w (List.mem_cons_of_mem v hw), List.map_cons]

mutual
theorem ValueType.view_never : ∀ {t : ValueType} {v : Value} {off : Nat}, t.Has v →
    t.view neverWhole what v off = t.project what v
  | .primitive _, _, _, h => by
    obtain ⟨_,_,rfl⟩ := h
    rfl
  | .u8string _ _, _, _, h => by
    obtain ⟨_,rfl⟩ := h
    rfl
  | .u16string _ _, _, _, h => by
    obtain ⟨_,rfl⟩ := h
    rfl
  | .struct _ ms, _, _, h => by
    obtain ⟨vs,rfl,hvs⟩ := h
    rw [ValueType.view, ValueType.project, Members.view_never (allFields what ms) hvs]
  | .array t _, _, _, h => by
    obtain ⟨vs,rfl,_,hvs⟩ := h
    simp only [ValueType.view, ValueType.project, neverWhole, viewMany_never]
    exact congrArg Value.array (viewEach_project fun v hv _ => ValueType.view_never (hvs v hv))
  | .spanSequence _ t _, _, _, h => by
    obtain ⟨vs,rfl,hvs⟩ := h
    simp only [ValueType.view, ValueType.project, neverWhole, viewMany_never]
    exact congrArg Value.sequence (viewEach_project fun v hv _ => ValueType.view_never (hvs v hv))
  | .boolVector _ _, _, _, h => by
    obtain ⟨_,rfl⟩ := h
    rfl

theorem Members.view_never (all : Bool) : ∀ {ms : Members} {vs : List Value} {off : Nat}, ms.Have vs →
    ms.view neverWhole what all vs off = ms.project what all vs
  | .nil, _, _, _ => rfl
  | .cons _ isKey t ms, _, off, h => by
    obtain ⟨v,ws,rfl,hv,hws⟩ := h
    rw [Members.view, Members.project, ValueType.view_never hv, Members.view_never all hws, Members.view_never all hws]
end

end

theorem ValueType.project_sample {t : ValueType} {v : Value} (h : t.Has v) : t.project .sample v = v := by
  have hview : t.view neverWhole .sample v 0 = t.project .sample v := ValueType.view_never .sample h
  rw [← hview, ValueType.view_sample neverWhole h]

theorem ValueType.project_keepsAll {what : SampleOrKey} {t : ValueType} {v : Value} (hk : t.keepsAll what = true)
    (h : t.Has v) : t.project what v = v := by
  have hview : t.view neverWhole what v 0 = t.project what v := ValueType.view_never what h
  rw [← hview, ValueType.view_keepsAll neverWhole what hk h]

private theorem fitsAll_map {project : Value → Value} {vs : List Value} (h : ∀ v ∈ vs, v.Fits → (project v).Fits)
    (hf : Value.FitsAll vs) : Value.FitsAll (vs.map project) := by
  refine (Value.fitsAll_iff _).mpr fun w hw => ?_
  obtain ⟨v,hv,rfl⟩ := List.mem_map.mp hw
  exact h v hv ((Value.fitsAll_iff vs).mp hf v hv)

mutual
theorem ValueType.fits_project (what : SampleOrKey) : ∀ {t : ValueType} {v : Value}, t.Has v → v.Fits →
    (t.project what v).Fits
  | .primitive _, _, h, hf => by
    obtain ⟨_,_,rfl⟩ := h
    exact hf
  | .u8string _ _, _, h, hf => by
    obtain ⟨_,rfl⟩ := h
    exact hf
  | .u16string _ _, _, h, hf => by
    obtain ⟨_,rfl⟩ := h
    exact hf
  | .struct _ ms, _, h, hf => by
    obtain ⟨vs,rfl,hvs⟩ := h
    exact Members.fits_project what (allFields what ms) hvs hf
  | .array t _, _, h, hf => by
    obtain ⟨vs,rfl,_,hvs⟩ := h
    exact fitsAll_map (fun v hv => ValueType.fits_project what (hvs v hv)) hf
  | .spanSequence _ t _, _, h, hf => by
    obtain ⟨vs,rfl,hvs⟩ := h
    refine ⟨?_,fitsAll_map (fun v hv => ValueType.fits_project what (hvs v hv)) hf.2⟩
    rw [List.length_map]
    exact hf.1
  | .boolVector _ _, _, h, hf => by
    obtain ⟨_,rfl⟩ := h
    exact hf

theorem Members.fits_project (what : SampleOrKey) (all : Bool) : ∀ {ms : Members} {vs : List Value}, ms.Have vs →
    Value.FitsAll vs → Value.FitsAll (ms.project what all vs)
  | .nil, _, _, _ => True.intro
  | .cons _ isKey t ms, _, h, hf => by
    obtain ⟨v,vs,rfl,hv,hvs⟩ := h
    rw [Members.project]
    split
    · exact ⟨ValueType.fits_project what hv hf.1,Members.fits_project what all hvs hf.2⟩
    · exact Members.fits_project what all hvs hf.2
end

/-! ### Walks over a stream -/

section
variable (whole : WholeCopies) (what : SampleOrKey)

mutual
/-- Taking the key of the value out of a stream, where it starts at this offset of a sample
or of a key, copies no element whole that contributes only some of its members. -/
def ValueType.ExtractFree : ValueType → Value → Nat → Prop
  | .struct _ ms, .struct vs, off => ms.ExtractFree (allFields .key ms) vs off
  | .array t _, .array vs, off =>
    freeMany (fun v o => t.ExtractFree v o) (fun v _ => t.project what v) (fun o => whole o t) (t.keepsAll .key) vs off
  | .spanSequence _ t _, .sequence vs, off =>
    freeMany (fun v o => t.ExtractFree v o) (fun v _ => t.project what v) (fun o => whole o t) (t.keepsAll .key) vs
      (alignUp 4 off + 4)
  | _, _, _ => True

def Members.ExtractFree (all : Bool) : Members → List Value → Nat → Prop
  | .cons _ isKey t ms, v :: vs, off =>
    if all || isKey then t.ExtractFree v off ∧ ms.ExtractFree all vs ((t.project what v).finish off)
    else ms.ExtractFree all vs (if what = .sample then v.finish off else off)
  | _, _, _ => True
end

end

/-- Where a walk stands in its source after one value: behind the value in a sample, and
level with what it has written in a key. -/
def sourceEnd (what : SampleOrKey) (v : Value) (bytes : List Byte) (src dst : Nat) : Nat :=
  if what = .sample then v.finish src else dst + bytes.length

@[simp] theorem sourceEnd_key (v : Value) (bytes : List Byte) (src dst : Nat) :
    sourceEnd .key v bytes src dst = dst + bytes.length := rfl

section
variable (host : Endian) (what : SampleOrKey)

section
variable (emit : Value → Nat → Nat → List Byte)

def bytesEach : List Value → Nat → Nat → List Byte
  | [], _, _ => []
  | v :: vs, src, dst =>
    emit v src dst ++ bytesEach vs (sourceEnd what v (emit v src dst) src dst) (dst + (emit v src dst).length)

/-- What lies behind the first element is taken as it lies in the source. -/
def bytesMany (whole : Nat → Bool) : List Value → Nat → Nat → List Byte
  | [], _, _ => []
  | v :: vs, src, dst =>
    emit v src dst ++
      if whole (sourceEnd what v (emit v src dst) src dst) then
        Value.encodeAll host vs (sourceEnd what v (emit v src dst) src dst)
      else bytesEach what emit vs (sourceEnd what v (emit v src dst) src dst) (dst + (emit v src dst).length)

end

variable (whole : WholeCopies)

mutual
/-- The key bytes a walk adds, with the offsets of the value in the source and in the key. -/
def ValueType.keyBytes : ValueType → Value → Nat → Nat → List Byte
  | .struct _ ms, .struct vs, src, dst => ms.keyBytes (allFields .key ms) vs src dst
  | .array t _, .array vs, src, dst =>
    bytesMany host what (fun v s d => t.keyBytes v s d) (fun o => whole o t) vs src dst
  | .spanSequence _ t _, .sequence vs, src, dst =>
    Value.encodeU32 host vs.length dst ++
      bytesMany host what (fun v s d => t.keyBytes v s d) (fun o => whole o t) vs (alignUp 4 src + 4) (alignUp 4 dst + 4)
  | _, v, _, dst => v.encode host dst

def Members.keyBytes (all : Bool) : Members → List Value → Nat → Nat → List Byte
  | .cons _ isKey t ms, v :: vs, src, dst =>
    if all || isKey then
      t.keyBytes v src dst ++
        ms.keyBytes all vs (sourceEnd what v (t.keyBytes v src dst) src dst) (dst + (t.keyBytes v src dst).length)
    else ms.keyBytes all vs (if what = .sample then v.finish src else src) dst
  | _, _, _, _ => []
end

end

/-! ### Without such copies -/

mutual
/-- Copyable values of one type have one alignment. -/
theorem ValueType.alignLog_of_trivial : ∀ {t : ValueType} {off : Nat} {v w : Value}, t.trivial off = true →
    t.Has v → t.Has w → v.alignLog = w.alignLog
  | .primitive _, _, _, _, _, hv, hw => by
    obtain ⟨_,_,rfl⟩ := hv
    obtain ⟨_,_,rfl⟩ := hw
    rfl
  | .struct _ ms, _, _, _, ht, hv, hw => by
    obtain ⟨vs,rfl,hvs⟩ := hv
    obtain ⟨ws,rfl,hws⟩ := hw
    exact Members.alignLog_of_trivial ht hvs hws
  | .array t n, _, _, _, ht, hv, hw => by
    obtain ⟨vs,rfl,rfl,hvs⟩ := hv
    obtain ⟨ws,rfl,hlen,hws⟩ := hw
    have h0 := (Bool.and_eq_true_iff.mp ht).1
    have helem : ∀ v w, t.Has v → t.Has w → v.alignLog = w.alignLog := fun v w => ValueType.alignLog_of_trivial h0
    clear ht
    induction vs generalizing ws with
    | nil =>
      rw [List.length_eq_zero_iff.mp hlen]
    | cons v vs ih =>
      obtain ⟨w,ws,rfl⟩ := List.exists_cons_of_length_eq_add_one hlen
      have htail := ih (fun x hx => hvs x (List.mem_cons_of_mem v hx)) ws (Nat.succ.inj hlen)
        (fun x hx => hws x (List.mem_cons_of_mem w hx))
      have hhead := helem v w (hvs v List.mem_cons_self) (hws w List.mem_cons_self)
      exact congrArg₂ max hhead htail

theorem Members.alignLog_of_trivial : ∀ {ms : Members} {s off pos : Nat} {vs ws : List Value},
    ms.trivial s off pos = true → ms.Have vs → ms.Have ws → Value.alignLogAll vs = Value.alignLogAll ws
  | .nil, _, _, _, _, _, _, hv, hw => by rw [hv, hw]
  | .cons _ _ t ms, _, _, _, _, _, ht, hv, hw => by
    obtain ⟨v,vs,rfl,hv,hvs⟩ := hv
    obtain ⟨w,ws,rfl,hw,hws⟩ := hw
    simp only [Members.trivial, Bool.and_eq_true] at ht
    exact congrArg₂ max (ValueType.alignLog_of_trivial ht.1.2 hv hw) (Members.alignLog_of_trivial ht.2 hvs hws)
end

theorem alignLogAll_le {vs : List Value} {k : Nat} (h : ∀ v ∈ vs, v.alignLog ≤ k) : Value.alignLogAll vs ≤ k := by
  induction vs with
  | nil => exact Nat.zero_le k
  | cons v vs ih =>
    exact Nat.max_le.mpr ⟨h v List.mem_cons_self,ih fun w hw => h w (List.mem_cons_of_mem v hw)⟩

/-- Behind one element, the elements that follow lie the same in the source and in the key. -/
theorem encodeAll_behind (host : Endian) {t : ValueType} {v : Value} {vs : List Value} {off : Nat}
    (ht : t.trivial off = true) (hv : t.Has v) (hvs : ∀ w ∈ vs, t.Has w) (src dst : Nat) :
    Value.encodeAll host vs (v.finish src) = Value.encodeAll host vs (v.finish dst) := by
  have hk : Value.alignLogAll vs ≤ v.alignLog :=
    alignLogAll_le fun w hw => Nat.le_of_eq (ValueType.alignLog_of_trivial ht (hvs w hw) hv)
  exact Value.encodeAll_congr host vs hk ((Value.finish_extent v).settle src dst)

section
variable (host : Endian) (what : SampleOrKey) {whole : WholeCopies} {t : ValueType}

/-- The source and the key are read and written side by side. -/
def Level (what : SampleOrKey) (src dst : Nat) : Prop := what = .key → src = dst

theorem sourceEnd_eq {v : Value} {src dst : Nat} (hv : t.Has v) (hoff : Level what src dst) :
    sourceEnd what v ((t.project .key v).encode host dst) src dst = (t.project what v).finish src := by
  cases what with
  | sample =>
    rw [ValueType.project_sample hv]
    rfl
  | key =>
    rw [hoff rfl]
    exact Value.encode_length host _ dst

theorem level_sourceEnd (v : Value) (bytes : List Byte) (src dst : Nat) :
    Level what (sourceEnd what v bytes src dst) (dst + bytes.length) := by
  rintro rfl
  rfl

/-- The element behind one that is emitted as it stands. -/
theorem level_finish {v : Value} {src dst : Nat} (hv : t.Has v) (hoff : Level what src dst) :
    Level what ((t.project what v).finish src) (dst + ((t.project .key v).encode host dst).length) := by
  rw [← sourceEnd_eq host what hv hoff]
  exact level_sourceEnd what v _ src dst

section
variable {free : Value → Nat → Prop} {emit : Value → Nat → Nat → List Byte}

/-- What one element adds; the rest of the array is assembled from it. -/
def EmitsKey (host : Endian) (what : SampleOrKey) (t : ValueType) (free : Value → Nat → Prop)
    (emit : Value → Nat → Nat → List Byte) : Prop :=
  ∀ {v : Value} {src dst : Nat}, t.Has v → Level what src dst → free v src →
    emit v src dst = (t.project .key v).encode host dst

private theorem bytesEach_of_free (hemit : EmitsKey host what t free emit) : ∀ {vs : List Value} {src dst : Nat},
    (∀ v ∈ vs, t.Has v) → Level what src dst → freeEach free (fun v _ => t.project what v) vs src →
    bytesEach what emit vs src dst = Value.encodeAll host (vs.map fun v => t.project .key v) dst
  | [], _, _, _, _, _ => rfl
  | v :: vs, src, dst, hv, hoff, hf => by
    have hone := hemit (hv v List.mem_cons_self) hoff hf.1
    have hnext := sourceEnd_eq host what (hv v List.mem_cons_self) hoff
    have hlevel := level_finish host what (hv v List.mem_cons_self) hoff
    have hrest := bytesEach_of_free hemit (fun w hw => hv w (List.mem_cons_of_mem v hw)) hlevel hf.2
    rw [bytesEach, hone, hnext, hrest, List.map_cons, Value.encodeAll]

private theorem bytesMany_of_free (hwhole : ∀ off, whole off t = true → t.trivialMany off = true)
    (hemit : EmitsKey host what t free emit) {vs : List Value} {src dst : Nat} (hv : ∀ v ∈ vs, t.Has v)
    (hoff : Level what src dst)
    (hf : freeMany free (fun v _ => t.project what v) (fun o => whole o t) (t.keepsAll .key) vs src) :
    bytesMany host what emit (fun o => whole o t) vs src dst =
      Value.encodeAll host (vs.map fun v => t.project .key v) dst := by
  cases vs with
  | nil => rfl
  | cons v vs =>
    obtain ⟨hhead,hcopy,heach⟩ := hf
    have hhas := hv v List.mem_cons_self
    have hvs : ∀ w ∈ vs, t.Has w := fun w hw => hv w (List.mem_cons_of_mem v hw)
    have hone := hemit hhas hoff hhead
    have hnext := sourceEnd_eq host what hhas hoff
    have hlevel := level_finish host what hhas hoff
    rw [bytesMany, hone, hnext, List.map_cons, Value.encodeAll]
    congr 1
    cases hw : whole ((t.project what v).finish src) t with
    | false =>
      rw [if_neg Bool.false_ne_true]
      exact bytesEach_of_free host what hemit hvs hlevel (heach hw)
    | true =>
      rw [if_pos rfl]
      cases vs with
      | nil => rfl
      | cons u us =>
        have hk := hcopy (List.cons_ne_nil u us) hw
        have hmap : (u :: us).map (fun w => t.project .key w) = u :: us :=
          (List.map_congr_left fun w hw => ValueType.project_keepsAll hk (hvs w hw)).trans (List.map_id _)
        have hkeep : t.project what v = v := by
          cases what with
          | sample => exact ValueType.project_sample hhas
          | key => exact ValueType.project_keepsAll hk hhas
        have htriv := (Bool.and_eq_true_iff.mp (hwhole _ hw)).1
        rw [hmap, hkeep, ValueType.project_keepsAll hk hhas, Value.encode_length]
        exact encodeAll_behind host htriv hhas hvs src dst

end
end

section
variable (host : Endian) (what : SampleOrKey) {whole : WholeCopies}

mutual
/-- Such a walk produces the key: the encoding of the projected value. -/
theorem ValueType.keyBytes_of_free (hwhole : ∀ off t, whole off t = true → t.trivialMany off = true) :
    ∀ {t : ValueType} {v : Value} {src dst : Nat}, t.Has v → Level what src dst → t.ExtractFree whole what v src →
      t.keyBytes host what whole v src dst = (t.project .key v).encode host dst
  | .primitive _, _, _, _, h, _, _ => by
    obtain ⟨_,_,rfl⟩ := h
    rfl
  | .u8string _ _, _, _, _, h, _, _ => by
    obtain ⟨_,rfl⟩ := h
    rfl
  | .u16string _ _, _, _, _, h, _, _ => by
    obtain ⟨_,rfl⟩ := h
    rfl
  | .struct _ ms, _, _, _, h, hoff, hf => by
    obtain ⟨vs,rfl,hvs⟩ := h
    exact Members.keyBytes_of_free hwhole (allFields .key ms) hvs hoff hf
  | .array t _, _, _, _, h, hoff, hf => by
    obtain ⟨vs,rfl,_,hvs⟩ := h
    exact bytesMany_of_free host what (fun off => hwhole off t)
      (fun hv hoff hf => ValueType.keyBytes_of_free hwhole hv hoff hf) hvs hoff hf
  | .spanSequence _ t _, _, src, dst, h, hoff, hf => by
    obtain ⟨vs,rfl,hvs⟩ := h
    have hlevel : Level what (alignUp 4 src + 4) (alignUp 4 dst + 4) := fun hk => by rw [hoff hk]
    have hmany := bytesMany_of_free host what (fun off => hwhole off t)
      (fun hv hoff hf => ValueType.keyBytes_of_free hwhole hv hoff hf) hvs hlevel hf
    rw [ValueType.keyBytes, ValueType.project, Value.encode, List.length_map, hmany]
  | .boolVector _ _, _, _, _, h, _, _ => by
    obtain ⟨_,rfl⟩ := h
    rfl

theorem Members.keyBytes_of_free (hwhole : ∀ off t, whole off t = true → t.trivialMany off = true) (all : Bool) :
    ∀ {ms : Members} {vs : List Value} {src dst : Nat}, ms.Have vs → Level what src dst →
      ms.ExtractFree whole what all vs src →
      ms.keyBytes host what whole all vs src dst = Value.encodeAll host (ms.project .key all vs) dst
  | .nil, _, _, _, _, _, _ => rfl
  | .cons _ isKey t ms, _, src, dst, h, hoff, hf => by
    obtain ⟨v,ws,rfl,hv,hws⟩ := h
    rw [Members.ExtractFree] at hf
    rw [Members.keyBytes, Members.project]
    split at hf
    · next hk =>
      have hone := ValueType.keyBytes_of_free hwhole hv hoff hf.1
      have hnext := sourceEnd_eq host what hv hoff
      have hlevel := level_finish host what hv hoff
      have hrest := Members.keyBytes_of_free hwhole all hws hlevel hf.2
      rw [if_pos hk, if_pos hk, hone, hnext, hrest, Value.encodeAll]
    · next hk =>
      have hlevel : Level what (if what = .sample then v.finish src else src) dst := by
        rintro rfl
        exact hoff rfl
      rw [if_neg hk, if_neg hk]
      exact Members.keyBytes_of_free hwhole all hws hlevel hf
end

end

/-! ### Walks that never copy -/

private theorem freeEach_of_all {free : Value → Nat → Prop} {view : Value → Nat → Value} (h : ∀ v off, free v off)
    (vs : List Value) (off : Nat) : freeEach free view vs off := by
  induction vs generalizing off with
  | nil => exact True.intro
  | cons v vs ih => exact ⟨h v off,ih _⟩

private theorem freeMany_never {free : Value → Nat → Prop} {view : Value → Nat → Value} {keeps : Bool}
    (h : ∀ v off, free v off) (vs : List Value) (off : Nat) : freeMany free view (fun _ => false) keeps vs off := by
  cases vs with
  | nil => exact True.intro
  | cons v vs => exact ⟨h v off,fun _ hf => Bool.noConfusion hf,fun _ => freeEach_of_all h vs _⟩

mutual
theorem ValueType.extractFree_never (what : SampleOrKey) : ∀ (t : ValueType) (v : Value) (off : Nat),
    t.ExtractFree neverWhole what v off
  | .struct _ ms, v, off => by
    cases v with
    | struct vs => exact Members.extractFree_never what (allFields .key ms) ms vs off
    | _ => exact True.intro
  | .array t _, v, off => by
    cases v with
    | array vs => exact freeMany_never (ValueType.extractFree_never what t) vs off
    | _ => exact True.intro
  | .spanSequence _ t _, v, off => by
    cases v with
    | sequence vs => exact freeMany_never (ValueType.extractFree_never what t) vs _
    | _ => exact True.intro
  | .primitive _, _, _ => True.intro
  | .u8string _ _, _, _ => True.intro
  | .u16string _ _, _, _ => True.intro
  | .boolVector _ _, _, _ => True.intro

theorem Members.extractFree_never (what : SampleOrKey) (all : Bool) : ∀ (ms : Members) (vs : List Value) (off : Nat),
    ms.ExtractFree neverWhole what all vs off
  | .nil, _, _ => True.intro
  | .cons _ _ _ _, [], _ => True.intro
  | .cons _ isKey t ms, v :: vs, off => by
    rw [Members.ExtractFree]
    split
    · exact ⟨ValueType.extractFree_never what t v off,Members.extractFree_never what all ms vs _⟩
    · exact Members.extractFree_never what all ms vs _
end

/-! ### The walk of the writer -/

section
variable (host : Endian) {whole : WholeCopies}

private theorem bytesEach_of_view {view : Value → Nat → Value} {emit : Value → Nat → Nat → List Byte} :
    ∀ (vs : List Value) (off : Nat), (∀ v ∈ vs, ∀ o, emit v o o = (view v o).encode host o) →
      bytesEach .key emit vs off off = Value.encodeAll host (viewEach view vs off) off
  | [], _, _ => rfl
  | v :: vs, off, h => by
    have hrest := bytesEach_of_view vs ((view v off).finish off) fun w hw => h w (List.mem_cons_of_mem v hw)
    rw [bytesEach, h v List.mem_cons_self off, viewEach, Value.encodeAll_cons]
    rw [sourceEnd_key, Value.encode_length, hrest]

private theorem bytesMany_of_view {view : Value → Nat → Value} {emit : Value → Nat → Nat → List Byte}
    (whole : Nat → Bool) {vs : List Value} (off : Nat)
    (h : ∀ v ∈ vs, ∀ o, emit v o o = (view v o).encode host o) :
    bytesMany host .key emit whole vs off off = Value.encodeAll host (viewMany view whole vs off) off := by
  cases vs with
  | nil => rfl
  | cons v vs =>
    have hrest := bytesEach_of_view host vs ((view v off).finish off) fun w hw => h w (List.mem_cons_of_mem v hw)
    rw [bytesMany, h v List.mem_cons_self off, viewMany, Value.encodeAll_cons]
    rw [sourceEnd_key, Value.encode_length, hrest]
    split <;> rfl

mutual
/-- A writer walks the key with source and key level. -/
theorem ValueType.keyBytes_of_view : ∀ {t : ValueType} {v : Value} {off : Nat}, t.Has v →
    t.keyBytes host .key whole v off off = (t.view whole .key v off).encode host off
  | .primitive _, _, _, h => by
    obtain ⟨_,_,rfl⟩ := h
    rfl
  | .u8string _ _, _, _, h => by
    obtain ⟨_,rfl⟩ := h
    rfl
  | .u16string _ _, _, _, h => by
    obtain ⟨_,rfl⟩ := h
    rfl
  | .struct _ ms, _, _, h => by
    obtain ⟨vs,rfl,hvs⟩ := h
    exact Members.keyBytes_of_view (allFields .key ms) hvs
  | .array t _, _, off, h => by
    obtain ⟨vs,rfl,_,hvs⟩ := h
    exact bytesMany_of_view host (fun o => whole o t) off fun v hv _ => ValueType.keyBytes_of_view (hvs v hv)
  | .spanSequence _ t _, _, off, h => by
    obtain ⟨vs,rfl,hvs⟩ := h
    have hmany := bytesMany_of_view host (fun o => whole o t) (alignUp 4 off + 4)
      fun v hv _ => ValueType.keyBytes_of_view (hvs v hv)
    rw [ValueType.keyBytes, ValueType.view, Value.encode, viewMany_length, hmany]
  | .boolVector _ _, _, _, h => by
    obtain ⟨_,rfl⟩ := h
    rfl

theorem Members.keyBytes_of_view (all : Bool) : ∀ {ms : Members} {vs : List Value} {off : Nat}, ms.Have vs →
    ms.keyBytes host .key whole all vs off off = Value.encodeAll host (ms.view whole .key all vs off) off
  | .nil, _, _, _ => rfl
  | .cons _ isKey t ms, _, off, h => by
    obtain ⟨v,ws,rfl,hv,hws⟩ := h
    have hone : t.keyBytes host .key whole v off off = (t.view whole .key v off).encode host off :=
      ValueType.keyBytes_of_view hv
    rw [Members.keyBytes, Members.view]
    split
    · rw [hone, sourceEnd_key, Value.encode_length, Members.keyBytes_of_view all hws,
        Value.encodeAll_cons]
    · exact Members.keyBytes_of_view all hws
end

end

private theorem freeEach_project {free free' : Value → Nat → Prop} {view : Value → Nat → Value}
    {project : Value → Value} : ∀ {vs : List Value} {off : Nat},
      (∀ v ∈ vs, ∀ o, view v o = project v ∧ (free v o ↔ free' v o)) →
      (freeEach free view vs off ↔ freeEach free' (fun v _ => project v) vs off)
  | [], _, _ => Iff.rfl
  | v :: vs, off, h => by
    obtain ⟨hview,hfree⟩ := h v List.mem_cons_self off
    rw [freeEach, freeEach, hview, hfree]
    exact and_congr_right fun _ => freeEach_project fun w hw => h w (List.mem_cons_of_mem v hw)

private theorem freeMany_project {free free' : Value → Nat → Prop} {view : Value → Nat → Value}
    {project : Value → Value} {whole : Nat → Bool} {keeps : Bool} {vs : List Value} {off : Nat}
    (h : ∀ v ∈ vs, ∀ o, view v o = project v ∧ (free v o ↔ free' v o)) :
    freeMany free view whole keeps vs off ↔ freeMany free' (fun v _ => project v) whole keeps vs off := by
  cases vs with
  | nil => exact Iff.rfl
  | cons v vs =>
    obtain ⟨hview,hfree⟩ := h v List.mem_cons_self off
    rw [freeMany, freeMany, hview, hfree]
    refine and_congr_right fun _ => and_congr_right fun _ => imp_congr_right fun _ => ?_
    exact freeEach_project fun w hw => h w (List.mem_cons_of_mem v hw)

section
variable (whole : WholeCopies)

mutual
/-- Reading a key copies where writing it does. -/
theorem ValueType.extractFree_key_iff : ∀ {t : ValueType} {v : Value} {off : Nat}, t.Has v →
    (t.CopyFree whole .key v off ↔ t.ExtractFree whole .key v off)
  | .primitive _, _, _, h => by
    obtain ⟨_,_,rfl⟩ := h
    exact Iff.rfl
  | .u8string _ _, _, _, h => by
    obtain ⟨_,rfl⟩ := h
    exact Iff.rfl
  | .u16string _ _, _, _, h => by
    obtain ⟨_,rfl⟩ := h
    exact Iff.rfl
  | .struct _ ms, _, _, h => by
    obtain ⟨vs,rfl,hvs⟩ := h
    exact Members.extractFree_key_iff (allFields .key ms) hvs
  | .array t _, _, _, h => by
    obtain ⟨vs,rfl,_,hvs⟩ := h
    exact freeMany_project fun v hv _ =>
      ⟨ValueType.view_never .key (hvs v hv),ValueType.extractFree_key_iff (hvs v hv)⟩
  | .spanSequence _ t _, _, _, h => by
    obtain ⟨vs,rfl,hvs⟩ := h
    exact freeMany_project fun v hv _ =>
      ⟨ValueType.view_never .key (hvs v hv),ValueType.extractFree_key_iff (hvs v hv)⟩
  | .boolVector _ _, _, _, h => by
    obtain ⟨_,rfl⟩ := h
    exact Iff.rfl

theorem Members.extractFree_key_iff (all : Bool) : ∀ {ms : Members} {vs : List Value} {off : Nat}, ms.Have vs →
    (ms.CopyFree whole .key all vs off ↔ ms.ExtractFree whole .key all vs off)
  | .nil, _, _, _ => Iff.rfl
  | .cons _ isKey t ms, _, off, h => by
    obtain ⟨v,ws,rfl,hv,hws⟩ := h
    rw [Members.CopyFree, Members.ExtractFree, ValueType.view_never .key hv]
    split
    · exact and_congr (ValueType.extractFree_key_iff hv) (Members.extractFree_key_iff all hws)
    · rw [if_neg (by decide)]
      exact Members.extractFree_key_iff all hws
end

end

end RmwCyclonedds
