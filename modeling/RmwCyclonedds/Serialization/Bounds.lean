import RmwCyclonedds.Serialization.SizeBound

/-! The sizes of actual values lie between the smallest and the largest size of their type. -/
namespace RmwCyclonedds
open Library

private theorem manyExtent_succ {k : Nat} {f : Nat → Nat} (hf : Extent k f) (surplus n : Nat) :
    manyExtent surplus f (n + 2) = fun off => f (f off) + (n + surplus) * (f (f 0) - f 0) := by
  funext off
  rw [manyExtent, hf.stride_const off 0]

private theorem manyExtent_extent {f : Nat → Nat} (hf : ∃ k, Extent k f) (surplus n : Nat) :
    ∃ k, Extent k (manyExtent surplus f n) := by
  obtain ⟨k,hf⟩ := hf
  match n with
  | 0 => exact ⟨0,Extent.id⟩
  | 1 => exact ⟨k,hf⟩
  | n + 2 =>
    rw [manyExtent_succ hf]
    exact ⟨_,(hf.comp hf).comp (Extent.add _)⟩

private theorem counted_extent {f : Nat → Nat} (hf : ∃ k, Extent k f) :
    ∃ k, Extent k fun off => f (alignUp 4 off + 4) := by
  obtain ⟨k,hf⟩ := hf
  exact ⟨_,((Extent.align 2).comp (Extent.add 4)).comp hf⟩

section
variable (surplus : Nat) (what : SampleOrKey) (mm : MinOrMax)

mutual
theorem ValueType.extent_extent : ∀ t : ValueType, ∃ k, Extent k (t.extent surplus what mm)
  | .primitive k => ⟨_,(Extent.align k.width.log).comp (Extent.add k.width.bytes)⟩
  | .u8string _ b => counted_extent ⟨_,Extent.add (mm.count b + 1)⟩
  | .u16string _ b => counted_extent ⟨_,Extent.add (2 * mm.count b)⟩
  | .struct _ ms => Members.extent_extent (allFields what ms) ms
  | .array t n => manyExtent_extent (ValueType.extent_extent t) surplus n
  | .spanSequence _ t b => counted_extent (manyExtent_extent (ValueType.extent_extent t) surplus (mm.count b))
  | .boolVector _ b => counted_extent ⟨_,Extent.add (mm.count b)⟩

theorem Members.extent_extent (all : Bool) : ∀ ms : Members, ∃ k, Extent k (ms.extent surplus what mm all)
  | .nil => ⟨_,Extent.id⟩
  | .cons _ isKey t ms => by
    obtain ⟨k,ht⟩ := ValueType.extent_extent t
    obtain ⟨l,hms⟩ := Members.extent_extent all ms
    cases hk : all || isKey with
    | false =>
      refine ⟨l,?_⟩
      simp only [Members.extent, hk]
      exact hms
    | true =>
      refine ⟨max k l,?_⟩
      simp only [Members.extent, hk]
      exact ht.comp hms
end

end

/-- Without surplus, a run is the repetition of its element. -/
theorem manyExtent_zero {k : Nat} {f : Nat → Nat} (hf : Extent k f) (n off : Nat) :
    manyExtent 0 f n off = f^[n] off := by
  match n with
  | 0 => rfl
  | 1 => rfl
  | n + 2 =>
    rw [Function.iterate_succ_apply, hf.stride, manyExtent, Nat.add_zero, hf.stride_const (f off) off]

private theorem manyExtent_le {f g : Nat → Nat} (hf : ∃ k, Extent k f) (hg : ∃ k, Extent k g)
    (hfg : ∀ a, f a ≤ g a) (surplus n off : Nat) : manyExtent 0 f n off ≤ manyExtent surplus g n off := by
  obtain ⟨k,hf⟩ := hf
  obtain ⟨l,hg⟩ := hg
  have hsurplus : manyExtent 0 g n off ≤ manyExtent surplus g n off := by
    match n with
    | 0 => exact Nat.le_refl _
    | 1 => exact Nat.le_refl _
    | n + 2 => exact Nat.add_le_add_left (Nat.mul_le_mul_right _ (by omega)) _
  calc
    manyExtent 0 f n off = f^[n] off := manyExtent_zero hf n off
    _ ≤ g^[n] off := hf.iterate_mono hfg n off
    _ = manyExtent 0 g n off := (manyExtent_zero hg n off).symm
    _ ≤ manyExtent surplus g n off := hsurplus

section
variable (surplus : Nat) (what : SampleOrKey) (mm : MinOrMax)

mutual
/-- The surplus only ever adds. -/
theorem ValueType.extent_le_surplus : ∀ (t : ValueType) (off : Nat),
    t.extent 0 what mm off ≤ t.extent surplus what mm off
  | .primitive _, _ => Nat.le_refl _
  | .u8string _ _, _ => Nat.le_refl _
  | .u16string _ _, _ => Nat.le_refl _
  | .struct _ ms, off => Members.extent_le_surplus (allFields what ms) ms off
  | .array t n, off => manyExtent_le (t.extent_extent 0 what mm) (t.extent_extent surplus what mm)
      (ValueType.extent_le_surplus t) surplus n off
  | .spanSequence _ t b, _ => manyExtent_le (t.extent_extent 0 what mm) (t.extent_extent surplus what mm)
      (ValueType.extent_le_surplus t) surplus (mm.count b) _
  | .boolVector _ _, _ => Nat.le_refl _

theorem Members.extent_le_surplus (all : Bool) : ∀ (ms : Members) (off : Nat),
    ms.extent 0 what mm all off ≤ ms.extent surplus what mm all off
  | .nil, _ => Nat.le_refl _
  | .cons _ isKey t ms, off => by
    obtain ⟨_,hms⟩ := ms.extent_extent 0 what mm all
    rw [Members.extent, Members.extent]
    refine (hms.mono ?_).trans (Members.extent_le_surplus all ms _)
    split
    · exact ValueType.extent_le_surplus t off
    · exact Nat.le_refl _
end

end

/-! ### Values between the bounds -/

theorem viewMany_never (view : Value → Nat → Value) (vs : List Value) (off : Nat) :
    viewMany view (fun _ => false) vs off = viewEach view vs off := by
  cases vs with
  | nil => rfl
  | cons v vs => rfl

section
variable {view : Value → Nat → Value} {f : Nat → Nat}

private theorem finishAll_viewEach_ge {k : Nat} (hf : Extent k f) :
    ∀ {vs : List Value}, (∀ v ∈ vs, ∀ off, f off ≤ (view v off).finish off) → ∀ off,
      f^[vs.length] off ≤ Value.finishAll (viewEach view vs off) off
  | [], _, _ => Nat.le_refl _
  | v :: vs, h, off => by
    rw [viewEach, Value.finishAll, List.length_cons, Function.iterate_succ_apply]
    have hv : f off ≤ (view v off).finish off := h v List.mem_cons_self off
    have hrest := finishAll_viewEach_ge hf (fun w hw => h w (List.mem_cons_of_mem v hw))
      ((view v off).finish off)
    have hmono : f^[vs.length] (f off) ≤ f^[vs.length] ((view v off).finish off) :=
      Monotone.iterate (fun _ _ h => hf.mono h) vs.length hv
    exact hmono.trans hrest

private theorem finishAll_viewEach_le {k : Nat} (hf : Extent k f) :
    ∀ {vs : List Value}, (∀ v ∈ vs, ∀ off, (view v off).finish off ≤ f off) → ∀ off,
      Value.finishAll (viewEach view vs off) off ≤ f^[vs.length] off
  | [], _, _ => Nat.le_refl _
  | v :: vs, h, off => by
    rw [viewEach, Value.finishAll, List.length_cons, Function.iterate_succ_apply]
    have hv : (view v off).finish off ≤ f off := h v List.mem_cons_self off
    have hrest := finishAll_viewEach_le hf (fun w hw => h w (List.mem_cons_of_mem v hw))
      ((view v off).finish off)
    have hmono : f^[vs.length] ((view v off).finish off) ≤ f^[vs.length] (f off) :=
      Monotone.iterate (fun _ _ h => hf.mono h) vs.length hv
    exact hrest.trans hmono

end

theorem finishAll_boolValue (bits : List Bool) (off : Nat) :
    Value.finishAll (bits.map boolValue) off = off + bits.length := by
  induction bits generalizing off with
  | nil => rfl
  | cons b bits ih =>
    rw [List.map_cons, Value.finishAll, ih, boolValue, Value.finish, Width.bytes, Width.log, Nat.pow_zero, alignUp,
      padding_one, List.length_cons]
    omega

mutual
theorem ValueType.min_le_finish (what : SampleOrKey) : ∀ {t : ValueType} {v : Value}, t.Has v → ∀ off,
    t.extent 0 what .min off ≤ (t.view neverWhole what v off).finish off
  | .primitive _, _, h, off => by
    obtain ⟨n,_,rfl⟩ := h
    exact Nat.le_refl _
  | .u8string _ _, _, h, off => by
    obtain ⟨cs,rfl⟩ := h
    simp only [ValueType.extent, ValueType.view, Value.finish, MinOrMax.count, if_true]
    omega
  | .u16string _ _, _, h, off => by
    obtain ⟨us,rfl⟩ := h
    simp only [ValueType.extent, ValueType.view, Value.finish, MinOrMax.count, if_true]
    omega
  | .struct _ ms, _, h, off => by
    obtain ⟨vs,rfl,hvs⟩ := h
    exact Members.min_le_finish what (allFields what ms) hvs off
  | .array t n, _, h, off => by
    obtain ⟨vs,rfl,rfl,hvs⟩ := h
    obtain ⟨k,ht⟩ := t.extent_extent 0 what .min
    rw [ValueType.extent, manyExtent_zero ht, ValueType.view]
    simp only [neverWhole, viewMany_never]
    exact finishAll_viewEach_ge ht (fun v hv off => ValueType.min_le_finish what (hvs v hv) off) off
  | .spanSequence _ t b, _, h, off => by
    obtain ⟨vs,rfl,hvs⟩ := h
    have hrun := Value.finishAll_extent
      (viewMany (fun v o => t.view neverWhole what v o) (fun o => neverWhole o t) vs (alignUp 4 off + 4))
    exact hrun.le _
  | .boolVector _ b, _, h, off => by
    obtain ⟨bits,rfl⟩ := h
    simp only [ValueType.extent, ValueType.view, Value.finish, MinOrMax.count, if_true, finishAll_boolValue]
    omega

theorem Members.min_le_finish (what : SampleOrKey) (all : Bool) : ∀ {ms : Members} {vs : List Value},
    ms.Have vs → ∀ off, ms.extent 0 what .min all off ≤
      Value.finishAll (ms.view neverWhole what all vs off) off
  | .nil, _, _, off => Nat.le_refl _
  | .cons _ isKey t ms, _, h, off => by
    obtain ⟨v,ws,rfl,hv,hws⟩ := h
    obtain ⟨_,hms⟩ := ms.extent_extent 0 what .min all
    rw [Members.extent, Members.view]
    split
    · rw [Value.finishAll]
      exact (hms.mono (ValueType.min_le_finish what hv off)).trans (Members.min_le_finish what all hws _)
    · exact Members.min_le_finish what all hws off
end

mutual
theorem ValueType.finish_le_max (what : SampleOrKey) : ∀ {t : ValueType} {v : Value}, t.Has v → t.InBounds v →
    ∀ off, (t.view neverWhole what v off).finish off ≤ t.extent 0 what .max off
  | .primitive _, _, h, _, off => by
    obtain ⟨n,_,rfl⟩ := h
    exact Nat.le_refl _
  | .u8string _ _, _, h, hb, off => by
    obtain ⟨cs,rfl⟩ := h
    exact Nat.add_le_add_left (Nat.add_le_add_right hb 1) _
  | .u16string _ _, _, h, hb, off => by
    obtain ⟨us,rfl⟩ := h
    exact Nat.add_le_add_left (Nat.mul_le_mul_left 2 hb) _
  | .struct _ ms, _, h, hb, off => by
    obtain ⟨vs,rfl,hvs⟩ := h
    exact Members.finish_le_max what (allFields what ms) hvs hb off
  | .array t n, _, h, hb, off => by
    obtain ⟨vs,rfl,rfl,hvs⟩ := h
    obtain ⟨k,ht⟩ := t.extent_extent 0 what .max
    rw [ValueType.extent, manyExtent_zero ht, ValueType.view]
    simp only [neverWhole, viewMany_never]
    exact finishAll_viewEach_le ht (fun v hv off => ValueType.finish_le_max what (hvs v hv) (hb v hv) off) off
  | .spanSequence _ t b, _, h, hb, off => by
    obtain ⟨vs,rfl,hvs⟩ := h
    obtain ⟨hlen,hb⟩ := hb
    obtain ⟨k,ht⟩ := t.extent_extent 0 what .max
    have hrun := finishAll_viewEach_le ht
      (fun v hv off => ValueType.finish_le_max what (hvs v hv) (hb v hv) off) (alignUp 4 off + 4)
    rw [ValueType.extent, manyExtent_zero ht, ValueType.view]
    simp only [neverWhole, viewMany_never]
    exact hrun.trans (ht.iterate_le_iterate hlen _)
  | .boolVector _ b, _, h, hb, off => by
    obtain ⟨bits,rfl⟩ := h
    have hlen : bits.length ≤ b := by
      have hmap : (bits.map boolValue).length ≤ b := hb
      rwa [List.length_map] at hmap
    simp only [ValueType.extent, ValueType.view, Value.finish, MinOrMax.count, finishAll_boolValue]
    exact Nat.add_le_add_left hlen _

theorem Members.finish_le_max (what : SampleOrKey) (all : Bool) : ∀ {ms : Members} {vs : List Value},
    ms.Have vs → ms.InBounds vs → ∀ off,
      Value.finishAll (ms.view neverWhole what all vs off) off ≤ ms.extent 0 what .max all off
  | .nil, _, _, _, off => Nat.le_refl _
  | .cons _ isKey t ms, _, h, hb, off => by
    obtain ⟨v,ws,rfl,hv,hws⟩ := h
    obtain ⟨_,hms⟩ := ms.extent_extent 0 what .max all
    rw [Members.extent, Members.view]
    split
    · rw [Value.finishAll]
      exact (Members.finish_le_max what all hws hb.2 _).trans (hms.mono (ValueType.finish_le_max what hv hb.1 off))
    · exact Members.finish_le_max what all hws hb.2 off
end

/-! ### The smallest value -/

/-- Memory in which all strings and sequences are empty. -/
def Memory.empty : Memory := Memory.ofBytes []

theorem finishAll_strided {view : Value → Nat → Value} {f : Nat → Nat} {g : Address → Value}
    (h : ∀ a off, (view (g a) off).finish off = f off) (n : Nat) (a : Address) (stride off : Nat) :
    Value.finishAll (viewEach view (Memory.strided g a stride n) off) off = f^[n] off := by
  induction n generalizing a off with
  | zero => rfl
  | succ n ih => rw [Memory.strided_succ, viewEach, Value.finishAll, h, ih, Function.iterate_succ_apply]

mutual
/-- Objects without characters and elements reach the smallest size. -/
theorem ValueType.finish_empty (host : Endian) (what : SampleOrKey) : ∀ (t : ValueType) (a : Address) (off : Nat),
    (t.view neverWhole what (Memory.empty.value host t a) off).finish off = t.extent 0 what .min off
  | .primitive _, _, _ => rfl
  | .u8string _ _, _, _ => rfl
  | .u16string _ _, _, _ => rfl
  | .struct _ ms, a, off => Members.finish_empty host what (allFields what ms) ms a off
  | .array t n, a, off => by
    obtain ⟨k,ht⟩ := t.extent_extent 0 what .min
    rw [Memory.value, ValueType.view, ValueType.extent, manyExtent_zero ht]
    simp only [neverWhole, viewMany_never]
    exact finishAll_strided (fun a off => ValueType.finish_empty host what t a off) n a t.size off
  | .spanSequence _ _ _, _, _ => rfl
  | .boolVector _ _, _, _ => rfl

theorem Members.finish_empty (host : Endian) (what : SampleOrKey) (all : Bool) : ∀ (ms : Members) (a : Address)
    (off : Nat), Value.finishAll (ms.view neverWhole what all (Memory.empty.values host ms a) off) off =
      ms.extent 0 what .min all off
  | .nil, _, _ => rfl
  | .cons memberOffset isKey t ms, a, off => by
    rw [Memory.values, Members.view, Members.extent]
    split
    · rw [Value.finishAll, ValueType.finish_empty host what t, Members.finish_empty host what all ms]
    · exact Members.finish_empty host what all ms a off
end

mutual
theorem ValueType.inBounds_empty (host : Endian) : ∀ (t : ValueType) (a : Address),
    t.InBounds (Memory.empty.value host t a)
  | .primitive _, _ => True.intro
  | .u8string _ b, _ => Nat.zero_le b
  | .u16string _ b, _ => Nat.zero_le b
  | .struct _ ms, a => Members.inBounds_empty host ms a
  | .array t n, a => by
    intro x hx
    obtain ⟨b,rfl⟩ := Memory.strided_mem hx
    exact ValueType.inBounds_empty host t b
  | .spanSequence _ t b, a => by
    refine ⟨Nat.zero_le b,?_⟩
    intro x hx
    obtain ⟨c,rfl⟩ := Memory.strided_mem hx
    exact ValueType.inBounds_empty host t c
  | .boolVector _ b, _ => Nat.zero_le b

theorem Members.inBounds_empty (host : Endian) : ∀ (ms : Members) (a : Address),
    ms.InBounds (Memory.empty.values host ms a)
  | .nil, _ => True.intro
  | .cons off _ t ms, a => ⟨ValueType.inBounds_empty host t (a + off),Members.inBounds_empty host ms a⟩
end

/-! ### Lengths that fit -/

mutual
/-- Bounds are small enough for the length fields. -/
theorem ValueType.fits_of_inBounds : ∀ {t : ValueType} {v : Value}, t.WellFormed → t.Has v → t.InBounds v → v.Fits
  | .primitive _, _, _, h, _ => by
    obtain ⟨_,_,rfl⟩ := h
    exact True.intro
  | .u8string _ b, _, hw, h, hb => by
    obtain ⟨cs,rfl⟩ := h
    have hb' : cs.length ≤ b := hb
    have hw' : b ≤ uint32Max - 1 := hw
    unfold uint32Max at hw'
    rw [Value.Fits]
    omega
  | .u16string _ b, _, hw, h, hb => by
    obtain ⟨us,rfl⟩ := h
    have hb' : us.length ≤ b := hb
    have hw' : b ≤ uint32Max / 2 := hw
    unfold uint32Max at hw'
    rw [Value.Fits]
    omega
  | .struct _ ms, _, hw, h, hb => by
    obtain ⟨vs,rfl,hvs⟩ := h
    exact Members.fits_of_inBounds hw hvs hb
  | .array t _, _, hw, h, hb => by
    obtain ⟨vs,rfl,_,hvs⟩ := h
    exact (Value.fitsAll_iff vs).mpr fun v hv => ValueType.fits_of_inBounds hw.2 (hvs v hv) (hb v hv)
  | .spanSequence _ t b, _, hw, h, hb => by
    obtain ⟨vs,rfl,hvs⟩ := h
    have hlen : vs.length ≤ b := hb.1
    have hw' : b ≤ uint32Max := hw.2.2
    unfold uint32Max at hw'
    refine ⟨by omega,(Value.fitsAll_iff vs).mpr fun v hv => ?_⟩
    exact ValueType.fits_of_inBounds hw.2.1 (hvs v hv) (hb.2 v hv)
  | .boolVector _ b, _, hw, h, hb => by
    obtain ⟨bits,rfl⟩ := h
    have hlen : (bits.map boolValue).length ≤ b := hb
    have hw' : b ≤ uint32Max := hw
    unfold uint32Max at hw'
    refine ⟨by omega,(Value.fitsAll_iff _).mpr fun v hv => ?_⟩
    obtain ⟨_,_,rfl⟩ := List.mem_map.mp hv
    exact True.intro

theorem Members.fits_of_inBounds : ∀ {ms : Members} {vs : List Value}, ms.WellFormed → ms.Have vs → ms.InBounds vs →
    Value.FitsAll vs
  | .nil, _, _, h, _ => by
    rw [h]
    exact True.intro
  | .cons _ _ t ms, _, hw, h, hb => by
    obtain ⟨v,vs,rfl,hv,hvs⟩ := h
    exact ⟨ValueType.fits_of_inBounds hw.1 hv hb.1,Members.fits_of_inBounds hw.2 hvs hb.2⟩
end

end RmwCyclonedds
