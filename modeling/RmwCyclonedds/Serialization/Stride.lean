import RmwCyclonedds.Serialization.LongestKey
import RmwCyclonedds.TypeSupport.DynamicType

/-! Elements measured one after another: the padding of the first varies, all later
ones take the same room. -/
namespace RmwCyclonedds
open Library

/-- Not a struct without members. -/
def ValueType.HasMember : ValueType → Prop
  | .struct _ ms => ms ≠ .nil
  | _ => True

/-- `n` elements measured one after another, from the cursor `c 0` on. -/
def MeasuredRun (bound : CheckingSizeCursor → Outcome (CheckingSizeCursor × Bool)) (n : Nat)
    (c : Nat → CheckingSizeCursor) : Prop := ∀ i < n, bound (c i) = .ok (c (i + 1),true)

/-- The room that every element but the first takes, wherever the first one starts. -/
structure ConstantStride (bound : CheckingSizeCursor → Outcome (CheckingSizeCursor × Bool)) (stride : Nat) : Prop where
  pos : 0 < stride
  later : ∀ {n c}, MeasuredRun bound n c → ∀ i, 0 < i → i < n → (c (i + 1)).offset = (c i).offset + stride
  /-- Elements in a row take a multiple of what the second takes. -/
  multiplied : ∀ {n c}, MeasuredRun bound n c → ∀ i j, 0 < i → i + j ≤ n →
    (c (i + j)).offset = (c i).offset + j * ((c 2).offset - (c 1).offset)
  /-- What is added behind the second element is the room of `count` elements measured one by one. -/
  counted : ∀ {count c c'}, MeasuredRun bound (count + 2) c → 1 < count →
    serializeSizeBoundMany bound count (c 0) = .ok (c',true) → c'.offset = (c (count + 2)).offset
  /-- Only the cursor stops a walk; `sizeMax / eltSize` does not. -/
  divides : ∀ {count c s}, serializeSizeBoundMany bound count c = .error s → s = .throws (.overflowError "oversize CDR")

/-! ### What a walk throws -/

/-- The call returns, or the cursor refuses to pass the largest offset. -/
def Outcome.OnlyOverflows {α : Type} (x : Outcome α) : Prop :=
  ∀ s, x = .error s → s = .throws (.overflowError "oversize CDR")

namespace Outcome.OnlyOverflows
variable {α β : Type} {x : Outcome α} {f : α → Outcome β}

theorem returns (a : α) : Outcome.OnlyOverflows (.ok a : Outcome α) := by
  intro s h
  cases h

theorem bind (hx : x.OnlyOverflows) (hf : ∀ a, x = .ok a → (f a).OnlyOverflows) : (x >>= f).OnlyOverflows := by
  intro s h
  cases x with
  | error s' =>
    cases h
    exact hx s rfl
  | ok a => exact hf a rfl s h

end Outcome.OnlyOverflows

namespace CheckingSizeCursor

theorem advance_onlyOverflows (c : CheckingSizeCursor) (n : Nat) : (c.advance n).OnlyOverflows := by
  intro s h
  unfold advance at h
  split at h
  · cases h
    rfl
  · cases h

theorem align_onlyOverflows (c : CheckingSizeCursor) (n : Nat) : (c.align n).OnlyOverflows := by
  unfold align
  split
  · exact .returns c
  · exact c.advance_onlyOverflows _

theorem serializeU32_onlyOverflows (c : CheckingSizeCursor) : c.serializeU32.OnlyOverflows := by
  apply Outcome.OnlyOverflows.bind (c.align_onlyOverflows 4)
  intro d _
  exact d.advance_onlyOverflows 4

end CheckingSizeCursor

open CheckingSizeCursor

/-- A length, and room for what it counts. -/
private theorem counted_onlyOverflows (c : CheckingSizeCursor) (n : Nat) :
    Outcome.OnlyOverflows (do return (← (← c.serializeU32).putBytes n,true)) := by
  apply Outcome.OnlyOverflows.bind c.serializeU32_onlyOverflows
  intro d _
  apply Outcome.OnlyOverflows.bind (d.advance_onlyOverflows n)
  intro d' _
  exact .returns _

private theorem serializeSizeBoundMany_onlyOverflows {bound : CheckingSizeCursor → Outcome (CheckingSizeCursor × Bool)}
    (hs : ∀ c, (bound c).OnlyOverflows) (hlt : ∀ {c c'}, bound c = .ok (c',true) → c.offset < c'.offset) (count : Nat)
    (c : CheckingSizeCursor) : (serializeSizeBoundMany bound count c).OnlyOverflows := by
  unfold serializeSizeBoundMany
  split
  · exact .returns _
  split
  · exact .returns _
  apply Outcome.OnlyOverflows.bind (hs c)
  rintro ⟨d,ok⟩ -
  cases ok with
  | false => exact .returns _
  | true =>
    simp only [Bool.not_true, Bool.false_eq_true, if_false]
    split
    · apply Outcome.OnlyOverflows.bind (hs d)
      rintro ⟨d',ok'⟩ hd'
      cases ok' with
      | false => exact .returns _
      | true =>
        -- the divisor is what the second element added
        have hdivisor : ¬d'.offset - d.offset = 0 := by
          have := hlt hd'
          omega
        simp only [Bool.not_true, Bool.false_eq_true, if_false, if_neg hdivisor]
        split
        · exact .returns _
        · apply Outcome.OnlyOverflows.bind (d'.advance_onlyOverflows _)
          intro d'' _
          exact .returns _
    · exact .returns _

section
variable (what : SampleOrKey) (mm : MinOrMax)

private theorem lt_of_measured {t : ValueType} (hw : t.WellFormed) (hs : t.Solid) {c c' : CheckingSizeCursor}
    (h : serializeSizeBound what mm t c = .ok (c',true)) : c.offset < c'.offset := by
  rw [serializeSizeBound_offset what mm hw h]
  exact ValueType.lt_extent what mm 2 hs c.offset

mutual
theorem serializeSizeBound_onlyOverflows : ∀ {t : ValueType}, t.WellFormed → t.Solid → ∀ c : CheckingSizeCursor,
    (serializeSizeBound what mm t c).OnlyOverflows
  | .primitive k, _, _, c => by
    rw [serializeSizeBound]
    apply Outcome.OnlyOverflows.bind (c.align_onlyOverflows _)
    intro d _
    apply Outcome.OnlyOverflows.bind (d.advance_onlyOverflows _)
    intro d' _
    exact .returns _
  | .u8string _ b, _, _, c => by
    rw [serializeSizeBound]
    apply Outcome.OnlyOverflows.bind c.serializeU32_onlyOverflows
    intro d _
    apply Outcome.OnlyOverflows.bind (d.advance_onlyOverflows _)
    intro d' _
    apply Outcome.OnlyOverflows.bind (d'.advance_onlyOverflows 1)
    intro d'' _
    exact .returns _
  | .u16string _ b, _, _, c => counted_onlyOverflows c _
  | .struct _ ms, hw, hs, c => serializeSizeBoundMembers_onlyOverflows hw hs.2 c
  | .array t n, hw, hs, c =>
    serializeSizeBoundMany_onlyOverflows (serializeSizeBound_onlyOverflows hw.2 hs.2)
      (fun h => lt_of_measured what mm hw.2 hs.2 h) n c
  | .spanSequence _ t b, hw, hs, c => by
    have ht : t.Solid := hs
    rw [serializeSizeBound]
    apply Outcome.OnlyOverflows.bind c.serializeU32_onlyOverflows
    intro d _
    exact serializeSizeBoundMany_onlyOverflows (serializeSizeBound_onlyOverflows hw.2.1 ht)
      (fun h => lt_of_measured what mm hw.2.1 ht h) _ d
  | .boolVector _ b, _, _, c => counted_onlyOverflows c _

theorem serializeSizeBoundMembers_onlyOverflows {all : Bool} : ∀ {ms : Members}, ms.WellFormed → ms.Solid →
    ∀ c : CheckingSizeCursor, (serializeSizeBoundMembers what mm all ms c).OnlyOverflows
  | .nil, _, _, c => .returns _
  | .cons _ isKey t ms, hw, hs, c => by
    rw [serializeSizeBoundMembers]
    split
    · apply Outcome.OnlyOverflows.bind (serializeSizeBound_onlyOverflows hw.1 hs.1 c)
      rintro ⟨d,ok⟩ -
      cases ok with
      | false => exact .returns _
      | true => exact serializeSizeBoundMembers_onlyOverflows hw.2 hs.2 d
    · exact serializeSizeBoundMembers_onlyOverflows hw.2 hs.2 c
end

end

/-! ### The stride -/

section
variable {bound : CheckingSizeCursor → Outcome (CheckingSizeCursor × Bool)} {f : Nat → Nat} {k : Nat}

private theorem later_of_extent (hf : Extent k f)
    (hb : ∀ {c c' : CheckingSizeCursor}, bound c = .ok (c',true) → c'.offset = f c.offset) {n : Nat}
    {c : Nat → CheckingSizeCursor} (hrun : MeasuredRun bound n c) (i : Nat) (hi : 0 < i) (hn : i < n) :
    (c (i + 1)).offset = (c i).offset + (f (f 0) - f 0) := by
  obtain ⟨j,rfl⟩ := Nat.exists_eq_add_of_le' hi
  have hbefore : (c (j + 1)).offset = f (c j).offset := hb (hrun j (by omega))
  have hafter : (c (j + 2)).offset = f (c (j + 1)).offset := hb (hrun (j + 1) hn)
  have hstride := hf.stride_const (c j).offset 0
  have hle := hf.le (f (c j).offset)
  rw [hafter, hbefore]
  omega

private theorem multiplied_of_later {stride n : Nat} {c : Nat → CheckingSizeCursor}
    (h : ∀ i, 0 < i → i < n → (c (i + 1)).offset = (c i).offset + stride) (i j : Nat) (hi : 0 < i) (hn : i + j ≤ n) :
    (c (i + j)).offset = (c i).offset + j * ((c 2).offset - (c 1).offset) := by
  induction j with
  | zero => rw [Nat.add_zero, Nat.zero_mul, Nat.add_zero]
  | succ j ih =>
    have hsecond : (c 2).offset - (c 1).offset = stride := by
      have : (c 2).offset = (c 1).offset + stride := h 1 (by decide) (by omega)
      omega
    have hnext : (c (i + j + 1)).offset = (c (i + j)).offset + stride := h (i + j) (by omega) (by omega)
    rw [← Nat.add_assoc, hnext, ih (by omega), hsecond, Nat.succ_mul]
    omega

theorem constantStride_of_extent (hf : Extent k f) (hlt : ∀ off, off < f off)
    (hb : ∀ {c c' : CheckingSizeCursor}, bound c = .ok (c',true) → c'.offset = f c.offset)
    (hs : ∀ c, (bound c).OnlyOverflows) : ConstantStride bound (f (f 0) - f 0) where
  pos := by
    have := hlt (f 0)
    omega
  later hrun := later_of_extent hf hb hrun
  multiplied hrun := multiplied_of_later (later_of_extent hf hb hrun)
  counted {count c c'} hrun hcount h := by
    have hfirst : (c 1).offset = f (c 0).offset := hb (hrun 0 (by omega))
    have hsecond : (c 2).offset = f (f (c 0).offset) := by
      rw [hb (hrun 1 (by omega)), hfirst]
    have hrest := multiplied_of_later (later_of_extent hf hb hrun) 2 count (by decide) (by omega)
    obtain ⟨m,rfl⟩ := Nat.exists_eq_add_of_le' hcount
    rw [serializeSizeBoundMany_offset hb h, manyExtent, Nat.add_comm (m + 2) 2, hrest, hfirst, hsecond]
  divides {count c s} h := by
    refine serializeSizeBoundMany_onlyOverflows hs ?_ count c s h
    intro d d' hd
    rw [hb hd]
    exact hlt d.offset

end

section
variable (what : SampleOrKey) (mm : MinOrMax)

theorem ValueType.constantStride {t : ValueType} (hw : t.WellFormed) (hs : t.Solid) :
    ∃ stride, ConstantStride (fun dst => serializeSizeBound what mm t dst) stride := by
  obtain ⟨k,hext⟩ := t.extent_extent 2 what mm
  exact ⟨_,constantStride_of_extent hext (ValueType.lt_extent what mm 2 hs)
    (fun h => serializeSizeBound_offset what mm hw h) (serializeSizeBound_onlyOverflows what mm hw hs)⟩

end

/-! ### The types that are built -/

private theorem sequenceValueType_solid (ts : Typesupport) (o : ObjectLayout) {member : MessageMember} {type : MemberType}
    {element : ValueType} {b : Nat} (h : element.Everywhere ValueType.HasMember → element.Solid)
    (hm : ((ts.generator o).sequenceValueType member type element b).Everywhere ValueType.HasMember) :
    ((ts.generator o).sequenceValueType member type element b).Solid := by
  cases ts with
  | c =>
    simp only [Typesupport.generator, rosidlC] at hm ⊢
    split at hm
    · next hsize =>
      rw [if_pos hsize]
      exact h hm.2
    · next hsize =>
      rw [if_neg hsize]
      exact h hm.2
  | cpp =>
    simp only [Typesupport.generator, rosidlCpp] at hm ⊢
    split at hm
    · exact True.intro
    · exact h hm.2

mutual
/-- Arrays of size zero are not fixed: they are built as sequences. -/
theorem valueMembers_solid (ts : Typesupport) (o : ObjectLayout) : ∀ {members : MemberArray} {ms : Members},
    valueMembers (ts.generator o) members = .ok ms → ms.Everywhere ValueType.HasMember → ms.Solid
  | .nil, _, h, _ => by
    cases h
    exact True.intro
  | .cons member type rest, _, h, hm => by
    obtain ⟨element,t,ms,helement,ht,hms,rfl⟩ := valueMembers_cons h
    refine ⟨?_,valueMembers_solid ts o hms hm.2⟩
    have hrec := @elementValueType_solid ts o type element helement
    rcases memberValueType_cases ht with ⟨_,rfl⟩ | ⟨_,hfixed,rfl⟩ | ⟨_,_,_,rfl⟩
    · exact hrec hm.1
    · have hsize : member.arraySize ≠ 0 := by
        simp only [MessageMember.isFixed, Bool.and_eq_true, decide_eq_true_eq] at hfixed
        exact hfixed.1
      exact ⟨Nat.pos_of_ne_zero hsize,hrec hm.1.2⟩
    · exact sequenceValueType_solid ts o hrec hm.1

theorem elementValueType_solid (ts : Typesupport) (o : ObjectLayout) : ∀ {type : MemberType} {t : ValueType},
    elementValueType (ts.generator o) type = .ok t → t.Everywhere ValueType.HasMember → t.Solid
  | .primitive _, _, h, _ => by
    cases h
    exact True.intro
  | .string, _, h, _ => by
    cases h
    cases ts <;> exact True.intro
  | .wstring, _, h, _ => by
    cases h
    cases ts <;> exact True.intro
  | .message (.mk _ _ s ms), _, h, hm => by
    rw [elementValueType] at h
    obtain ⟨members,hmembers,h⟩ := Outcome.bind_eq_ok h
    cases h
    exact ⟨hm.1,valueMembers_solid ts o hmembers hm.2⟩
end

mutual
private theorem ValueType.solid_inside {P : ValueType → Prop} (hP : ∀ {t : ValueType}, t.WellFormed → t.Solid → P t) :
    ∀ {t : ValueType}, t.WellFormed → t.Solid → t.Everywhere P
  | .primitive _, hw, hs => hP hw hs
  | .u8string _ _, hw, hs => hP hw hs
  | .u16string _ _, hw, hs => hP hw hs
  | .struct _ _, hw, hs => ⟨hP hw hs,Members.solid_inside hP hw hs.2⟩
  | .array _ _, hw, hs => ⟨hP hw hs,ValueType.solid_inside hP hw.2 hs.2⟩
  | .spanSequence _ t _, hw, hs => ⟨hP hw hs,@ValueType.solid_inside P hP t hw.2.1 hs⟩
  | .boolVector _ _, hw, hs => hP hw hs

private theorem Members.solid_inside {P : ValueType → Prop} (hP : ∀ {t : ValueType}, t.WellFormed → t.Solid → P t) :
    ∀ {ms : Members}, ms.WellFormed → ms.Solid → ms.Everywhere P
  | .nil, _, _ => True.intro
  | .cons _ _ _ _, hw, hs => ⟨ValueType.solid_inside hP hw.1 hs.1,Members.solid_inside hP hw.2 hs.2⟩
end

/-- Of every type that is built, and of every type inside it. -/
theorem elementValueType_constantStride (ts : Typesupport) (o : ObjectLayout) {type : MemberType} {t : ValueType}
    (ht : elementValueType (ts.generator o) type = .ok t) (hm : t.Everywhere ValueType.HasMember) :
    t.Everywhere fun element => ∀ (what : SampleOrKey) (mm : MinOrMax), ∃ stride,
      ConstantStride (fun dst => serializeSizeBound what mm element dst) stride := by
  obtain ⟨_,hw⟩ := elementValueType_wellFormed ht
  exact ValueType.solid_inside (fun hw hs what mm => ValueType.constantStride what mm hw hs) hw
    (elementValueType_solid ts o ht hm)

/-- A stamp and a kind: nine bytes, and seven of padding before all but the first. -/
def readingMembers : MemberArray :=
  .cons (plainMember "stamp".toList 0) (.primitive .uint64) (.cons (plainMember "kind".toList 8) (.primitive .uint8) .nil)

def readingType : ValueType := .struct 16 (.cons 0 false (.primitive .uint64) (.cons 8 false (.primitive .uint8) .nil))

/-- The ends of readings, the first of which starts at offset 3. -/
def readingEnds : Nat → CheckingSizeCursor
  | 0 => ⟨3⟩
  | n + 1 => ⟨17 + 16 * n⟩

theorem readings_stride : MeasuredRun (fun dst => serializeSizeBound .key .max readingType dst) 4 readingEnds ∧
    ConstantStride (fun dst => serializeSizeBound .key .max readingType dst) 16 := by
  have hrun : MeasuredRun (fun dst => serializeSizeBound .key .max readingType dst) 4 readingEnds := by
    intro i hi
    interval_cases i <;> rfl
  have hbuilt : elementValueType (Typesupport.cpp.generator cppObjects)
      (.message (.mk "example__msg".toList "Reading".toList 16 readingMembers)) = .ok readingType := rfl
  have hmember : readingType.Everywhere ValueType.HasMember := by
    refine ⟨?_,True.intro,True.intro,True.intro⟩
    intro h
    cases h
  obtain ⟨stride,h⟩ := (elementValueType_constantStride .cpp cppObjects hbuilt hmember).here .key .max
  have hsecond : 33 = 17 + stride := h.later hrun 1 (by decide) (by decide)
  obtain rfl : stride = 16 := by omega
  exact ⟨hrun,h⟩

end RmwCyclonedds
