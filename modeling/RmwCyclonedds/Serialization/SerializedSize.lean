import RmwCyclonedds.Serialization.BoundWalk
import RmwCyclonedds.Serialization.CDRWriter

/-! The size a writer announces against the bytes it writes. -/
namespace RmwCyclonedds
open Library

/-- The offset behind the encoding header at which a bound walk ends. -/
def boundExtent (surplus : Nat) (root : StructValueType) (variant : SampleOrRequest) (what : SampleOrKey)
    (mm : MinOrMax) : Nat :=
  if what = .sample ∨ root.hasKeys then root.toValueType.extent surplus what mm (startOffset variant what)
  else startOffset variant what

theorem CheckingSizeCursor.rebase_offset (c : CheckingSizeCursor) : (c.rebase (-4)).offset = 4 + c.offset := by
  show ((c.offset : Int) - -4).toNat = 4 + c.offset
  omega

/-- What there is to walk takes room, and all of it lies within the offsets of a cursor. -/
def StructValueType.Measurable (root : StructValueType) (variant : SampleOrRequest) (what : SampleOrKey)
    (mm : MinOrMax) : Prop :=
  (what = .sample ∨ root.hasKeys → root.toValueType.Roomy what mm) ∧ boundExtent 2 root variant what mm ≤ uint32Max

/-- The type has one bound for its smallest and its largest value, if it has any. -/
def StructValueType.OneSize (root : StructValueType) (variant : SampleOrRequest) (what : SampleOrKey) : Prop :=
  (root.Measurable variant what .min ↔ root.Measurable variant what .max) ∧
    (root.Measurable variant what .max → boundExtent 2 root variant what .min = boundExtent 2 root variant what .max)

section
variable {root : StructValueType} {variant : SampleOrRequest} {what : SampleOrKey} {mm : MinOrMax}

private theorem start_le : startOffset variant what ≤ uint32Max := by
  unfold startOffset
  split <;> decide

private theorem topLevel_eq : serializeSizeBoundTopLevel root variant what mm ⟨0⟩ = (do
    let (dst,fixed) ← (if what = .sample ∨ root.hasKeys then
        serializeSizeBound what mm root.toValueType ⟨startOffset variant what⟩
      else pure (⟨startOffset variant what⟩,true))
    return (dst.rebase (-4),fixed)) := by
  unfold serializeSizeBoundTopLevel startOffset
  split <;> rfl

private theorem topLevel_iff (c : CheckingSizeCursor) : serializeSizeBoundTopLevel root variant what mm ⟨0⟩ = .ok (c,true) ↔
    root.Measurable variant what mm ∧ c = (⟨boundExtent 2 root variant what mm⟩ : CheckingSizeCursor).rebase (-4) := by
  rw [topLevel_eq, StructValueType.Measurable, boundExtent]
  by_cases hk : what = .sample ∨ root.hasKeys = true
  · have hwalk := serializeSizeBound_iff what mm (t := root.toValueType) root.wellFormed
      (c := ⟨startOffset variant what⟩) start_le
    rw [if_pos hk, if_pos hk]
    constructor
    · intro h
      obtain ⟨⟨d,fixed⟩,hd,h⟩ := Outcome.bind_eq_ok h
      cases h
      obtain ⟨hroomy,hfits,rfl⟩ := (hwalk d).mp hd
      exact ⟨⟨fun _ => hroomy,hfits⟩,rfl⟩
    · rintro ⟨⟨hroomy,hfits⟩,rfl⟩
      rw [(hwalk _).mpr ⟨hroomy hk,hfits,rfl⟩]
      rfl
  · rw [if_neg hk, if_neg hk]
    constructor
    · intro h
      cases h
      exact ⟨⟨fun h => absurd h hk,start_le⟩,rfl⟩
    · rintro ⟨_,rfl⟩
      rfl

/-- A type that is not measurable has no bound. -/
theorem computeSerializedSizeBound_cases {n : Nat} (h : computeSerializedSizeBound root variant what mm = .ok n) :
    root.Measurable variant what mm ∧ n = 4 + boundExtent 2 root variant what mm ∨
      ¬root.Measurable variant what mm ∧ n = sizeMax := by
  by_cases hm : root.Measurable variant what mm
  · refine .inl ⟨hm,?_⟩
    rw [computeSerializedSizeBound, (topLevel_iff _).mpr ⟨hm,rfl⟩] at h
    rw [← Except.ok.inj h, CheckingSizeCursor.rebase_offset]
  · refine .inr ⟨hm,?_⟩
    unfold computeSerializedSizeBound at h
    split at h
    · next c hc => exact absurd ((topLevel_iff c).mp hc).1 hm
    · exact (Except.ok.inj h).symm
    · exact (Except.ok.inj h).symm
    · cases h

theorem computeSerializedSizeBound_le {n : Nat} (h : computeSerializedSizeBound root variant what mm = .ok n) :
    n ≤ sizeMax := by
  rcases computeSerializedSizeBound_cases h with ⟨hm,rfl⟩ | ⟨_,rfl⟩
  · exact (Nat.add_le_add_left hm.2 4).trans (by decide)
  · exact Nat.le_refl _

end

namespace CDRWriter
variable {host : Endian} {root : StructValueType} {variant : SampleOrRequest} (w : CDRWriter host root variant)

theorem min_cases (what : SampleOrKey) :
    root.Measurable variant what .min ∧ w.getMinSerializedSize what = 4 + boundExtent 2 root variant what .min ∨
      ¬root.Measurable variant what .min ∧ w.getMinSerializedSize what = sizeMax := by
  cases what with
  | sample => exact computeSerializedSizeBound_cases w.minData_eq
  | key => exact computeSerializedSizeBound_cases w.minKey_eq

theorem max_cases (what : SampleOrKey) :
    root.Measurable variant what .max ∧ w.getMaxSerializedSize what = 4 + boundExtent 2 root variant what .max ∨
      ¬root.Measurable variant what .max ∧ w.getMaxSerializedSize what = sizeMax := by
  cases what with
  | sample => exact computeSerializedSizeBound_cases w.maxData_eq
  | key => exact computeSerializedSizeBound_cases w.maxKey_eq

theorem max_eq (what : SampleOrKey) : w.getMaxSerializedSize what = sizeMax ∨
    w.getMaxSerializedSize what = 4 + boundExtent 2 root variant what .max :=
  (w.max_cases what).symm.imp And.right And.right

/-- The precomputed sizes are one exactly where the type has one size. -/
theorem oneSize_iff (what : SampleOrKey) :
    w.getMinSerializedSize what = w.getMaxSerializedSize what ↔ root.OneSize variant what := by
  have hbelow : ∀ {mm}, root.Measurable variant what mm → 4 + boundExtent 2 root variant what mm < sizeMax := fun hm =>
    (Nat.add_le_add_left hm.2 4).trans_lt (by decide)
  unfold StructValueType.OneSize
  rcases w.min_cases what with ⟨hmin,hmineq⟩ | ⟨hmin,hmineq⟩ <;>
    rcases w.max_cases what with ⟨hmax,hmaxeq⟩ | ⟨hmax,hmaxeq⟩
  · have hone : (4 + boundExtent 2 root variant what .min = 4 + boundExtent 2 root variant what .max) ↔
        boundExtent 2 root variant what .min = boundExtent 2 root variant what .max := Nat.add_left_cancel_iff
    simp only [hmineq, hmaxeq, hmin, hmax, hone, true_and, forall_const]
  · have := hbelow hmin
    simp only [hmineq, hmaxeq, hmin, hmax, iff_false, not_true_eq_false, false_and]
    omega
  · have := hbelow hmax
    simp only [hmineq, hmaxeq, hmin, hmax, iff_true, false_and, iff_false]
    omega
  · simp only [hmineq, hmaxeq, hmin, hmax, true_and, false_implies]

end CDRWriter

section
variable (host : Endian) (root : StructValueType) (variant : SampleOrRequest) (m : Memory) (src : Address)
  (what : SampleOrKey)

private theorem sourceValue_has : root.toValueType.Has (sourceValue host root variant m src what) :=
  m.value_has host root.toValueType _

/-- Length of the stream, where no bulk copy gets in the way of the projection. -/
private theorem streamBody_length
    (hf : root.toValueType.CopyFree cachedWhole what (sourceValue host root variant m src what)
      (startOffset variant what)) :
    (streamBody host root variant m src what).length =
      if what = .sample ∨ root.hasKeys then
        (root.toValueType.view neverWhole what (sourceValue host root variant m src what)
          (startOffset variant what)).finish (startOffset variant what)
      else startOffset variant what := by
  have hview := ValueType.view_of_copyFree cachedWhole what (sourceValue_has host root variant m src what) hf
  rw [streamBody, List.length_append, CDRWriter.requestHeader_length]
  split
  · rw [hview, Value.encode_length]
  · rfl

private theorem boundExtent_le_surplus (surplus : Nat) (mm : MinOrMax) :
    boundExtent 0 root variant what mm ≤ boundExtent surplus root variant what mm := by
  unfold boundExtent
  split
  · exact ValueType.extent_le_surplus surplus what mm root.toValueType _
  · exact Nat.le_refl _

private theorem min_le_length
    (hf : root.toValueType.CopyFree cachedWhole what (sourceValue host root variant m src what)
      (startOffset variant what)) :
    boundExtent 0 root variant what .min ≤ (streamBody host root variant m src what).length := by
  rw [streamBody_length host root variant m src what hf, boundExtent]
  split
  · exact ValueType.min_le_finish what (sourceValue_has host root variant m src what) _
  · exact Nat.le_refl _

theorem length_le_max
    (hf : root.toValueType.CopyFree cachedWhole what (sourceValue host root variant m src what)
      (startOffset variant what))
    (hb : root.toValueType.InBounds (sourceValue host root variant m src what)) :
    (streamBody host root variant m src what).length ≤ boundExtent 2 root variant what .max := by
  refine Nat.le_trans ?_ (boundExtent_le_surplus root variant what 2 .max)
  rw [streamBody_length host root variant m src what hf, boundExtent]
  split
  · exact ValueType.finish_le_max what (sourceValue_has host root variant m src what) hb _
  · exact Nat.le_refl _

end
namespace CDRWriter
variable {host : Endian} {root : StructValueType} {variant : SampleOrRequest} (w : CDRWriter host root variant)

private theorem stream_length (host : Endian) (body : List Byte) : (rtpsHeader host ++ body).length = 4 + body.length := by
  rw [List.length_append]
  rfl

private theorem copyFree_source (m : Memory) (src : Address) : root.toValueType.CopyFree cachedWhole .sample
    (sourceValue host root variant m src .sample) (startOffset variant .sample) :=
  ValueType.copyFree_sample cachedWhole _ _ _

variable (host root variant) in
private theorem empty_length : (rtpsHeader host ++ streamBody host root variant Memory.empty Memory.base .sample).length =
    4 + boundExtent 0 root variant .sample .min := by
  have hempty := streamBody_length host root variant Memory.empty Memory.base .sample (copyFree_source _ _)
  rw [stream_length, hempty, if_pos (.inl rfl), boundExtent, if_pos (.inl rfl), sourceValue, ValueType.finish_empty]

/-- The empty value shows what a type of one size needs. -/
private theorem vanishes_of_exact (heq : w.getMinSerializedSize .sample = w.getMaxSerializedSize .sample) {bytes : List Byte}
    (hbytes : w.serialize Memory.empty Memory.base .sample = .ok bytes)
    (hsize : bytes.length ≤ sizeMax → w.getSerializedSize Memory.empty Memory.base .sample = .ok bytes.length) :
    root.Measurable variant .sample .min ∧
      boundExtent 2 root variant .sample .min = boundExtent 0 root variant .sample .min ∨
    sizeMax ≤ 4 + boundExtent 0 root variant .sample .min := by
  rw [w.serialize_eq] at hbytes
  cases hbytes
  have hlen := empty_length host root variant
  by_cases hbig : sizeMax ≤ 4 + boundExtent 0 root variant .sample .min
  · exact .inr hbig
  have hs := hsize (by omega)
  rw [w.getSerializedSize_of_eq _ _ .sample heq, ← heq, hlen] at hs
  have hmin := Except.ok.inj hs
  rcases w.min_cases .sample with ⟨hm,hmeq⟩ | ⟨_,hmeq⟩
  · exact .inl ⟨hm,by omega⟩
  · omega

/-- All values of a type of one size are as long as its bound says, where nothing is counted that they do not have. -/
private theorem max_of_vanishing (hone : root.OneSize variant .sample)
    (h : root.Measurable variant .sample .min ∧
      boundExtent 2 root variant .sample .min = boundExtent 0 root variant .sample .min ∨
    sizeMax ≤ 4 + boundExtent 0 root variant .sample .min) {m : Memory} {src : Address}
    (hb : root.toValueType.InBounds (sourceValue host root variant m src .sample))
    (hfit : 4 + (streamBody host root variant m src .sample).length ≤ sizeMax) :
    w.getMaxSerializedSize .sample = 4 + (streamBody host root variant m src .sample).length := by
  have hlow := min_le_length host root variant m src .sample (copyFree_source m src)
  have hhigh := length_le_max host root variant m src .sample (copyFree_source m src) hb
  rcases h with ⟨hm,hvanish⟩ | hbig
  · have hboth := hone.2 (hone.1.mp hm)
    rcases w.max_cases .sample with ⟨_,hmax⟩ | ⟨hno,_⟩
    · omega
    · exact absurd (hone.1.mp hm) hno
  · rcases w.max_cases .sample with ⟨hm,_⟩ | ⟨_,hmax⟩
    · have hmeasured := hm.2
      unfold uint32Max at hmeasured
      unfold sizeMax at hbig
      omega
    · omega

/-- The announced size is the written size for all values of a type exactly where a type of one size has it
from a bound in which the surplus elements disappear in padding. -/
theorem getSerializedSize_exact_iff :
    (∀ (m : Memory) (src : Address), root.toValueType.InBounds (sourceValue host root variant m src .sample) →
      ∃ bytes, w.serialize m src .sample = .ok bytes ∧
        (bytes.length ≤ sizeMax → w.getSerializedSize m src .sample = .ok bytes.length)) ↔
    (root.OneSize variant .sample →
      root.Measurable variant .sample .min ∧
        boundExtent 2 root variant .sample .min = boundExtent 0 root variant .sample .min ∨
      sizeMax ≤ 4 + boundExtent 0 root variant .sample .min) := by
  constructor
  · intro h hone
    obtain ⟨bytes,hbytes,hsize⟩ := h Memory.empty Memory.base (ValueType.inBounds_empty host root.toValueType _)
    exact w.vanishes_of_exact ((w.oneSize_iff .sample).mpr hone) hbytes hsize
  · intro h m src hb
    refine ⟨_,w.serialize_eq m src .sample,?_⟩
    intro hfit
    rw [stream_length] at hfit ⊢
    by_cases heq : w.getMinSerializedSize .sample = w.getMaxSerializedSize .sample
    · have hone := (w.oneSize_iff .sample).mp heq
      rw [w.getSerializedSize_of_eq m src .sample heq, w.max_of_vanishing hone (h hone) hb hfit]
    · rw [w.getSerializedSize_of_ne m src .sample heq]

/-- A message of two bytes: `uint8[2]`. -/
def bytePair : StructValueType where
  sizeofStruct := 2
  members := .cons 0 false (.array (.primitive .uint8) 2) .nil
  wellFormed := ⟨⟨True.intro,True.intro⟩,True.intro⟩

/-- The array is counted with two elements too many. -/
theorem bytePair_size : ∃ w : CDRWriter .little bytePair .sample,
    w.serialize (Memory.ofBytes [7,9]) Memory.base .sample = .ok [0,1,0,0,7,9] ∧
      w.getSerializedSize (Memory.ofBytes [7,9]) Memory.base .sample = .ok 8 := by
  obtain ⟨w,hmin,_,hmax,_⟩ := exists_of_bounds .little bytePair .sample rfl rfl rfl rfl
  refine ⟨w,?_,?_⟩
  · rw [w.serialize_eq]
    rfl
  · rw [w.getSerializedSize_of_eq _ _ .sample (hmin.trans hmax.symm)]
    exact congrArg Except.ok hmax

/-- A key is never longer than announced, as long as no element is copied whole that
should contribute its key members only. -/
theorem key_length_le_of_copyFree (m : Memory) (src : Address)
    (hb : root.toValueType.InBounds (sourceValue host root variant m src .key))
    (hc : w.minSerializedKeySize ≠ w.maxSerializedKeySize ∨
      root.toValueType.CopyFree cachedWhole .key (sourceValue host root variant m src .key) 0) :
    ∃ bytes size, w.serialize m src .key = .ok bytes ∧ w.getSerializedSize m src .key = .ok size ∧
      (bytes.length ≤ sizeMax → bytes.length ≤ size) := by
  have hlen := stream_length host (streamBody host root variant m src .key)
  by_cases hne : w.minSerializedKeySize = w.maxSerializedKeySize
  · have hfree := hc.resolve_left fun h => h hne
    refine ⟨_,_,w.serialize_eq m src .key,w.getSerializedSize_of_eq m src .key hne,?_⟩
    intro hfit
    have hhigh := length_le_max host root variant m src .key hfree hb
    have hmax := w.max_eq .key
    omega
  · exact ⟨_,_,w.serialize_eq m src .key,w.getSerializedSize_of_ne m src .key hne,fun _ => Nat.le_of_eq hlen⟩

/-- A message with one array of keys: `@key uint32 id[2]`. -/
def idPair : StructValueType where
  sizeofStruct := 8
  members := .cons 0 true (.array (.primitive .uint32) 2) .nil
  wellFormed := ⟨⟨True.intro,True.intro⟩,True.intro⟩

theorem idPair_key_fits : ∃ w : CDRWriter .little idPair .sample, ∃ bytes size,
    w.serialize Memory.empty Memory.base .key = .ok bytes ∧
      w.getSerializedSize Memory.empty Memory.base .key = .ok size ∧
      (bytes.length ≤ sizeMax → bytes.length ≤ size) := by
  obtain ⟨w,_⟩ := exists_of_bounds .little idPair .sample rfl rfl rfl rfl
  have hb := ValueType.inBounds_empty .little idPair.toValueType Memory.base
  have hf := ValueType.copyFree_of_keepsAll cachedWhole .key (t := idPair.toValueType) rfl
    (sourceValue .little idPair .sample Memory.empty Memory.base .key) 0
  exact ⟨w,w.key_length_le_of_copyFree Memory.empty Memory.base hb (.inr hf)⟩

/-- `@key Element elements[4]`, where `Element` is `@key uint32 id; uint32 rest`. -/
def keyedElements : StructValueType where
  sizeofStruct := 32
  members := .cons 0 true (.array (.struct 8
    (.cons 0 true (.primitive .uint32) (.cons 4 false (.primitive .uint32) .nil))) 4) .nil
  wellFormed := ⟨⟨True.intro,True.intro,True.intro,True.intro⟩,True.intro⟩

/-- The first element adds four bytes to the key, each later one all of its eight. -/
theorem keyedElements_overrun : ∃ w : CDRWriter .little keyedElements .sample, ∃ bytes,
    w.serialize Memory.empty Memory.base .key = .ok bytes ∧ bytes.length = 32 ∧
      w.getSerializedSize Memory.empty Memory.base .key = .ok 28 := by
  obtain ⟨w,_,hmin,_,hmax⟩ := exists_of_bounds .little keyedElements .sample rfl rfl rfl rfl
  refine ⟨w,_,w.serialize_eq _ _ .key,rfl,?_⟩
  rw [w.getSerializedSize_of_eq _ _ .key (hmin.trans hmax.symm)]
  exact congrArg Except.ok hmax

end CDRWriter
end RmwCyclonedds
