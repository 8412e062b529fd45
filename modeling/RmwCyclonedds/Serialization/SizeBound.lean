import RmwCyclonedds.Serialization.Cursor
import RmwCyclonedds.Serialization.Projection

/-! `CDRWriter::serialize_size_bound`: the smallest and largest size of a type, computed
from the type alone. -/
namespace RmwCyclonedds
open Library

inductive MinOrMax where
  | min
  | max
  deriving DecidableEq, Repr

/-- What a bound contributes to the smallest and to the largest size. -/
def MinOrMax.count (mm : MinOrMax) (bound : Nat) : Nat := if mm = .min then 0 else bound

namespace CheckingSizeCursor

def serializeU32 (dst : CheckingSizeCursor) : Outcome CheckingSizeCursor := do
  (← dst.align 4).putBytes 4

end CheckingSizeCursor

/-- After two measured elements the rest is counted as `count` more of the second. -/
def serializeSizeBoundMany (bound : CheckingSizeCursor → Outcome (CheckingSizeCursor × Bool)) (count : Nat)
    (dst : CheckingSizeCursor) : Outcome (CheckingSizeCursor × Bool) := do
  if count = 0 then return (dst,true)
  if count ≥ uint32Max then return (dst,false)
  let (dst,ok) ← bound dst
  if !ok then return (dst,false)
  if count > 1 then
    let offset := dst.offset
    let (dst,ok) ← bound dst
    if !ok then return (dst,false)
    let eltSize := dst.offset - offset
    -- SIZE_MAX is divided by the element size
    if eltSize = 0 then throw .undefined
    if count > sizeMax / eltSize then return (dst,false)
    return (← dst.putBytes (count * eltSize),true)
  return (dst,true)

section
variable (what : SampleOrKey) (mm : MinOrMax)

mutual
def serializeSizeBound : ValueType → CheckingSizeCursor → Outcome (CheckingSizeCursor × Bool)
  | .primitive k, dst => do
    return (← (← dst.align k.cdralignofType).putBytes k.cdrsizeofType,true)
  | .u8string _ b, dst => do
    return (← (← (← dst.serializeU32).putBytes (mm.count b)).putBytes 1,true)
  | .u16string _ b, dst => do
    return (← (← dst.serializeU32).putBytes (2 * mm.count b % 2 ^ 32),true)
  | .struct _ ms, dst => serializeSizeBoundMembers (allFields what ms) ms dst
  | .array t n, dst => serializeSizeBoundMany (fun dst => serializeSizeBound t dst) n dst
  | .spanSequence _ t b, dst => do
    serializeSizeBoundMany (fun dst => serializeSizeBound t dst) (mm.count b) (← dst.serializeU32)
  | .boolVector _ b, dst => do
    return (← (← dst.serializeU32).putBytes (mm.count b),true)

def serializeSizeBoundMembers (all : Bool) : Members → CheckingSizeCursor → Outcome (CheckingSizeCursor × Bool)
  | .nil, dst => return (dst,true)
  | .cons _ isKey t ms, dst => do
    if all || isKey then
      let (dst,ok) ← serializeSizeBound t dst
      if !ok then return (dst,false)
      serializeSizeBoundMembers all ms dst
    else serializeSizeBoundMembers all ms dst
end

end

/-! ### The offsets that the walk reaches -/

/-- A run of elements: two are measured, and `surplus` more than the rest are counted. -/
def manyExtent (surplus : Nat) (f : Nat → Nat) : Nat → Nat → Nat
  | 0, off => off
  | 1, off => f off
  | n + 2, off => f (f off) + (n + surplus) * (f (f off) - f off)

section
variable (surplus : Nat) (what : SampleOrKey) (mm : MinOrMax)

mutual
/-- Where the walk ends. The source's walk has surplus 2; without surplus it measures
the real elements. -/
def ValueType.extent : ValueType → Nat → Nat
  | .primitive k, off => alignUp k.width.bytes off + k.width.bytes
  | .u8string _ b, off => alignUp 4 off + 4 + (mm.count b + 1)
  | .u16string _ b, off => alignUp 4 off + 4 + 2 * mm.count b
  | .struct _ ms, off => ms.extent (allFields what ms) off
  | .array t n, off => manyExtent surplus (fun o => t.extent o) n off
  | .spanSequence _ t b, off => manyExtent surplus (fun o => t.extent o) (mm.count b) (alignUp 4 off + 4)
  | .boolVector _ b, off => alignUp 4 off + 4 + mm.count b

def Members.extent (all : Bool) : Members → Nat → Nat
  | .nil, off => off
  | .cons _ isKey t ms, off => ms.extent all (if all || isKey then t.extent off else off)
end

end

namespace CheckingSizeCursor

theorem advance_offset {c c' : CheckingSizeCursor} {n : Nat} (h : c.advance n = .ok c') :
    c'.offset = c.offset + n := by
  unfold advance at h
  split at h
  · cases h
  · cases h
    rfl

theorem align_offset {c c' : CheckingSizeCursor} {n : Nat} (h : c.align n = .ok c') :
    c'.offset = alignUp n c.offset := by
  unfold align at h
  split at h
  · next hn =>
    cases h
    rcases hn with rfl | hn
    · rw [alignUp, padding_one, Nat.add_zero]
    · rw [alignUp, padding, if_pos hn, Nat.add_zero]
  · next hn =>
    rw [advance_offset h, alignUp, padding, if_neg fun h => hn (.inr h)]

theorem serializeU32_offset {c c' : CheckingSizeCursor} (h : c.serializeU32 = .ok c') :
    c'.offset = alignUp 4 c.offset + 4 := by
  obtain ⟨d,hd,hc⟩ := Outcome.bind_eq_ok h
  rw [advance_offset hc, align_offset hd]

end CheckingSizeCursor

open CheckingSizeCursor

/-- What a walk over several elements has measured when it answers. -/
theorem serializeSizeBoundMany_inv {bound : CheckingSizeCursor → Outcome (CheckingSizeCursor × Bool)} {n : Nat}
    {c c' : CheckingSizeCursor} {ok : Bool} (h : serializeSizeBoundMany bound n c = .ok (c',ok)) :
    c' = c ∧ (ok = true → n = 0) ∨ (bound c = .ok (c',ok) ∧ (ok = true → n = 1)) ∨
      ∃ d d' ok', bound c = .ok (d,true) ∧ bound d = .ok (d',ok') ∧
        (c' = d' ∧ ok = false ∨ n > 1 ∧ ok' = true ∧ d.offset < d'.offset ∧
          d'.advance (n * (d'.offset - d.offset)) = .ok c') := by
  unfold serializeSizeBoundMany at h
  by_cases h0 : n = 0
  · rw [if_pos h0] at h
    cases h
    exact .inl ⟨rfl,fun _ => h0⟩
  rw [if_neg h0] at h
  by_cases hmax : n ≥ uint32Max
  · rw [if_pos hmax] at h
    cases h
    exact .inl ⟨rfl,fun h => Bool.noConfusion h⟩
  rw [if_neg hmax] at h
  obtain ⟨⟨d,ok'⟩,hd,h⟩ := Outcome.bind_eq_ok h
  cases ok' with
  | false =>
    cases h
    exact .inr (.inl ⟨hd,fun h => Bool.noConfusion h⟩)
  | true =>
    by_cases h1 : n > 1
    · simp only [Bool.not_true, Bool.false_eq_true, if_false, h1, if_true] at h
      obtain ⟨⟨d',ok'⟩,hd',h⟩ := Outcome.bind_eq_ok h
      refine .inr (.inr ⟨d,d',ok',hd,hd',?_⟩)
      cases ok' with
      | false =>
        cases h
        exact .inl ⟨rfl,rfl⟩
      | true =>
        simp only [Bool.not_true, Bool.false_eq_true, if_false] at h
        by_cases hz : d'.offset - d.offset = 0
        · rw [if_pos hz] at h
          cases h
        rw [if_neg hz] at h
        by_cases hc : n > sizeMax / (d'.offset - d.offset)
        · simp only [hc, if_true] at h
          cases h
          exact .inl ⟨rfl,rfl⟩
        simp only [hc, if_false] at h
        obtain ⟨d'',hd'',h⟩ := Outcome.bind_eq_ok h
        cases h
        exact .inr ⟨h1,rfl,by omega,hd''⟩
    · simp only [Bool.not_true, Bool.false_eq_true, if_false, h1] at h
      cases h
      exact .inr (.inl ⟨hd,fun _ => by omega⟩)

theorem serializeSizeBoundMany_offset {bound : CheckingSizeCursor → Outcome (CheckingSizeCursor × Bool)}
    {f : Nat → Nat} (hb : ∀ {c c' : CheckingSizeCursor}, bound c = .ok (c',true) → c'.offset = f c.offset)
    {n : Nat} {c c' : CheckingSizeCursor} (h : serializeSizeBoundMany bound n c = .ok (c',true)) :
    c'.offset = manyExtent 2 f n c.offset := by
  rcases serializeSizeBoundMany_inv h with ⟨rfl,h0⟩ | ⟨hd,h1⟩ | ⟨d,d',ok',hd,hd',⟨_,hno⟩ | ⟨hn,rfl,_,hend⟩⟩
  · rw [h0 rfl, manyExtent]
  · rw [h1 rfl, manyExtent, hb hd]
  · cases hno
  · obtain ⟨k,rfl⟩ := Nat.exists_eq_add_of_le' hn
    rw [advance_offset hend, hb hd', hb hd]
    rfl

mutual
/-- The walk, where it succeeds, ends where `extent` with surplus 2 says. -/
theorem serializeSizeBound_offset (what : SampleOrKey) (mm : MinOrMax) : ∀ {t : ValueType}, t.WellFormed →
    ∀ {c c' : CheckingSizeCursor}, serializeSizeBound what mm t c = .ok (c',true) →
      c'.offset = t.extent 2 what mm c.offset
  | .primitive k, _, c, c', h => by
    rw [serializeSizeBound] at h
    obtain ⟨d,hd,h⟩ := Outcome.bind_eq_ok h
    obtain ⟨d',hd',h⟩ := Outcome.bind_eq_ok h
    cases h
    rw [advance_offset hd', align_offset hd, TypeKind.cdralignofType_eq, TypeKind.cdrsizeofType_eq, ValueType.extent]
  | .u8string _ b, _, c, c', h => by
    rw [serializeSizeBound] at h
    obtain ⟨d,hd,h⟩ := Outcome.bind_eq_ok h
    obtain ⟨d',hd',h⟩ := Outcome.bind_eq_ok h
    obtain ⟨d'',hd'',h⟩ := Outcome.bind_eq_ok h
    cases h
    rw [advance_offset hd'', advance_offset hd', serializeU32_offset hd, ValueType.extent, Nat.add_assoc]
  | .u16string _ b, hw, c, c', h => by
    rw [serializeSizeBound] at h
    obtain ⟨d,hd,h⟩ := Outcome.bind_eq_ok h
    obtain ⟨d',hd',h⟩ := Outcome.bind_eq_ok h
    cases h
    have hcount : 2 * mm.count b < 2 ^ 32 := by
      unfold ValueType.WellFormed uint32Max at hw
      unfold MinOrMax.count
      split <;> omega
    rw [advance_offset hd', serializeU32_offset hd, ValueType.extent, Nat.mod_eq_of_lt hcount]
  | .struct _ ms, hw, c, c', h => serializeSizeBoundMembers_offset what mm hw h
  | .array t n, hw, c, c', h => by
    rw [serializeSizeBound] at h
    exact serializeSizeBoundMany_offset (fun h => serializeSizeBound_offset what mm hw.2 h) h
  | .spanSequence _ t b, hw, c, c', h => by
    rw [serializeSizeBound] at h
    obtain ⟨d,hd,h⟩ := Outcome.bind_eq_ok h
    have hmany := serializeSizeBoundMany_offset (fun h => serializeSizeBound_offset what mm hw.2.1 h) h
    rw [hmany, serializeU32_offset hd]
    rfl
  | .boolVector _ b, _, c, c', h => by
    rw [serializeSizeBound] at h
    obtain ⟨d,hd,h⟩ := Outcome.bind_eq_ok h
    obtain ⟨d',hd',h⟩ := Outcome.bind_eq_ok h
    cases h
    rw [advance_offset hd', serializeU32_offset hd, ValueType.extent]

theorem serializeSizeBoundMembers_offset (what : SampleOrKey) (mm : MinOrMax) {all : Bool} :
    ∀ {ms : Members}, ms.WellFormed → ∀ {c c' : CheckingSizeCursor},
      serializeSizeBoundMembers what mm all ms c = .ok (c',true) → c'.offset = ms.extent 2 what mm all c.offset
  | .nil, _, _, _, h => by
    cases h
    rfl
  | .cons _ isKey t ms, hw, c, c', h => by
    rw [serializeSizeBoundMembers] at h
    rw [Members.extent]
    cases hk : all || isKey with
    | false =>
      simp only [hk, Bool.false_eq_true, if_false] at h ⊢
      exact serializeSizeBoundMembers_offset what mm hw.2 h
    | true =>
      simp only [hk, if_true] at h ⊢
      obtain ⟨⟨d,ok⟩,hd,h⟩ := Outcome.bind_eq_ok h
      cases ok with
      | false => cases h
      | true => rw [serializeSizeBoundMembers_offset what mm hw.2 h, serializeSizeBound_offset what mm hw.1 hd]
end

/-! ### No walk passes the largest offset -/

namespace CheckingSizeCursor

theorem advance_le {c c' : CheckingSizeCursor} {n : Nat} (hc : c.offset ≤ uint32Max) (h : c.advance n = .ok c') :
    c'.offset ≤ uint32Max := by
  have hoff := advance_offset h
  unfold advance at h
  split at h
  · cases h
  · omega

theorem align_le {c c' : CheckingSizeCursor} {n : Nat} (hc : c.offset ≤ uint32Max) (h : c.align n = .ok c') :
    c'.offset ≤ uint32Max := by
  unfold align at h
  split at h
  · cases h
    exact hc
  · exact advance_le hc h

theorem serializeU32_le {c c' : CheckingSizeCursor} (hc : c.offset ≤ uint32Max) (h : c.serializeU32 = .ok c') :
    c'.offset ≤ uint32Max := by
  obtain ⟨d,hd,h⟩ := Outcome.bind_eq_ok h
  exact advance_le (align_le hc hd) h

end CheckingSizeCursor

private theorem serializeSizeBoundMany_le {bound : CheckingSizeCursor → Outcome (CheckingSizeCursor × Bool)}
    (hb : ∀ {c c' : CheckingSizeCursor} {ok : Bool}, c.offset ≤ uint32Max → bound c = .ok (c',ok) → c'.offset ≤ uint32Max)
    {n : Nat} {c c' : CheckingSizeCursor} {ok : Bool} (hc : c.offset ≤ uint32Max)
    (h : serializeSizeBoundMany bound n c = .ok (c',ok)) : c'.offset ≤ uint32Max := by
  rcases serializeSizeBoundMany_inv h with ⟨rfl,_⟩ | ⟨hd,_⟩ | ⟨d,d',ok',hd,hd',⟨rfl,_⟩ | ⟨_,_,_,hend⟩⟩
  · exact hc
  · exact hb hc hd
  · exact hb (hb hc hd) hd'
  · exact advance_le (hb (hb hc hd) hd') hend

section
variable (what : SampleOrKey) (mm : MinOrMax)

mutual
theorem serializeSizeBound_le : ∀ {t : ValueType} {c c' : CheckingSizeCursor} {ok : Bool}, c.offset ≤ uint32Max →
    serializeSizeBound what mm t c = .ok (c',ok) → c'.offset ≤ uint32Max
  | .primitive k, c, c', _, hc, h => by
    rw [serializeSizeBound] at h
    obtain ⟨d,hd,h⟩ := Outcome.bind_eq_ok h
    obtain ⟨d',hd',h⟩ := Outcome.bind_eq_ok h
    cases h
    exact advance_le (align_le hc hd) hd'
  | .u8string _ b, c, c', _, hc, h => by
    rw [serializeSizeBound] at h
    obtain ⟨d,hd,h⟩ := Outcome.bind_eq_ok h
    obtain ⟨d',hd',h⟩ := Outcome.bind_eq_ok h
    obtain ⟨d'',hd'',h⟩ := Outcome.bind_eq_ok h
    cases h
    exact advance_le (advance_le (serializeU32_le hc hd) hd') hd''
  | .u16string _ b, c, c', _, hc, h => by
    rw [serializeSizeBound] at h
    obtain ⟨d,hd,h⟩ := Outcome.bind_eq_ok h
    obtain ⟨d',hd',h⟩ := Outcome.bind_eq_ok h
    cases h
    exact advance_le (serializeU32_le hc hd) hd'
  | .struct _ ms, c, c', _, hc, h => serializeSizeBoundMembers_le hc h
  | .array t n, c, c', _, hc, h => by
    rw [serializeSizeBound] at h
    exact serializeSizeBoundMany_le (fun hc h => serializeSizeBound_le hc h) hc h
  | .spanSequence _ t b, c, c', _, hc, h => by
    rw [serializeSizeBound] at h
    obtain ⟨d,hd,h⟩ := Outcome.bind_eq_ok h
    exact serializeSizeBoundMany_le (fun hc h => serializeSizeBound_le hc h) (serializeU32_le hc hd) h
  | .boolVector _ b, c, c', _, hc, h => by
    rw [serializeSizeBound] at h
    obtain ⟨d,hd,h⟩ := Outcome.bind_eq_ok h
    obtain ⟨d',hd',h⟩ := Outcome.bind_eq_ok h
    cases h
    exact advance_le (serializeU32_le hc hd) hd'

theorem serializeSizeBoundMembers_le {all : Bool} : ∀ {ms : Members} {c c' : CheckingSizeCursor} {ok : Bool},
    c.offset ≤ uint32Max → serializeSizeBoundMembers what mm all ms c = .ok (c',ok) → c'.offset ≤ uint32Max
  | .nil, _, _, _, hc, h => by
    cases h
    exact hc
  | .cons _ isKey t ms, c, c', _, hc, h => by
    rw [serializeSizeBoundMembers] at h
    split at h
    · obtain ⟨⟨d,ok⟩,hd,h⟩ := Outcome.bind_eq_ok h
      have hdle := serializeSizeBound_le hc hd
      cases ok with
      | false =>
        cases h
        exact hdle
      | true => exact serializeSizeBoundMembers_le hdle h
    · exact serializeSizeBoundMembers_le hc h
end

end

end RmwCyclonedds
