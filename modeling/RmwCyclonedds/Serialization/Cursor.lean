import RmwCyclonedds.Bytewise
import RmwCyclonedds.Library.Extent

/-! The cursors that writers move over a stream. -/
namespace RmwCyclonedds
open Library

/-- `WriteCursorBase`: the cursors a value can be written to. -/
class WriteCursor (σ : Type) where
  offset : σ → Nat
  advance : σ → Nat → σ
  putBytes : σ → List Byte → σ
  ignoresData : σ → Bool
  rebase : σ → Int → σ

namespace WriteCursor

/-- `CursorBase::align`. -/
def align {σ : Type} [WriteCursor σ] (c : σ) (nBytes : Nat) : σ :=
  if nBytes = 1 ∨ offset c % nBytes = 0 then c else advance c (nBytes - offset c % nBytes)

end WriteCursor

/-- What all write cursors have in common: they append. -/
class LawfulWriteCursor (σ : Type) [WriteCursor σ] : Prop where
  putBytes_nil : ∀ c : σ, WriteCursor.putBytes c [] = c
  putBytes_append : ∀ (c : σ) (as bs : List Byte),
    WriteCursor.putBytes (WriteCursor.putBytes c as) bs = WriteCursor.putBytes c (as ++ bs)
  offset_putBytes : ∀ (c : σ) (bs : List Byte),
    WriteCursor.offset (WriteCursor.putBytes c bs) = WriteCursor.offset c + bs.length
  advance_eq : ∀ (c : σ) (n : Nat), WriteCursor.advance c n = WriteCursor.putBytes c (List.replicate n 0)
  putBytes_ignored : ∀ (c : σ) {as bs : List Byte}, WriteCursor.ignoresData c = true → as.length = bs.length →
    WriteCursor.putBytes c as = WriteCursor.putBytes c bs

structure SizeCursor where
  offset : Nat

instance : WriteCursor SizeCursor where
  offset c := c.offset
  advance c n := ⟨c.offset + n⟩
  putBytes c bs := ⟨c.offset + bs.length⟩
  ignoresData _ := true
  rebase c relativeOrigin := ⟨(c.offset - relativeOrigin).toNat⟩

instance : LawfulWriteCursor SizeCursor where
  putBytes_nil _ := rfl
  putBytes_append c as bs := by
    simp only [WriteCursor.putBytes, List.length_append, Nat.add_assoc]
  offset_putBytes _ _ := rfl
  advance_eq c n := by simp only [WriteCursor.advance, WriteCursor.putBytes, List.length_replicate]
  putBytes_ignored c as bs _ h := by simp only [WriteCursor.putBytes, h]

/-- The bytes written so far, split at the origin of the offsets. -/
structure SerializeCursor where
  before : List Byte
  since : List Byte

namespace SerializeCursor

def start : SerializeCursor := ⟨[],[]⟩

def written (c : SerializeCursor) : List Byte := c.before ++ c.since

end SerializeCursor

instance : WriteCursor SerializeCursor where
  offset c := c.since.length
  advance c n := ⟨c.before,c.since ++ List.replicate n 0⟩
  putBytes c bs := ⟨c.before,c.since ++ bs⟩
  ignoresData _ := false
  rebase c relativeOrigin :=
    let origin := (c.before.length + relativeOrigin).toNat
    ⟨c.written.take origin,c.written.drop origin⟩

instance : LawfulWriteCursor SerializeCursor where
  putBytes_nil c := by simp only [WriteCursor.putBytes, List.append_nil]
  putBytes_append c as bs := by simp only [WriteCursor.putBytes, List.append_assoc]
  offset_putBytes c bs := List.length_append
  advance_eq _ _ := rfl
  putBytes_ignored c as bs h _ := Bool.noConfusion h

structure ByteVectorCursor where
  pos : Nat
  data : List Byte

instance : WriteCursor ByteVectorCursor where
  offset c := c.pos
  advance c n := ⟨c.pos + n,c.data ++ List.replicate n 0⟩
  putBytes c bs := ⟨c.pos + bs.length,c.data ++ bs⟩
  ignoresData _ := false
  rebase c relativeOrigin := ⟨(c.pos - relativeOrigin).toNat,c.data⟩

instance : LawfulWriteCursor ByteVectorCursor where
  putBytes_nil c := by simp only [WriteCursor.putBytes, List.append_nil, List.length_nil, Nat.add_zero]
  putBytes_append c as bs := by
    simp only [WriteCursor.putBytes, List.append_assoc, List.length_append, Nat.add_assoc]
  offset_putBytes _ _ := rfl
  advance_eq c n := by simp only [WriteCursor.advance, WriteCursor.putBytes, List.length_replicate]
  putBytes_ignored c as bs h _ := Bool.noConfusion h

theorem WriteCursor.align_eq {σ : Type} [WriteCursor σ] [LawfulWriteCursor σ] (c : σ) (n : Nat) :
    align c n = putBytes c (List.replicate (padding n (offset c)) 0) := by
  by_cases h : offset c % n = 0
  · rw [align, if_pos (.inr h), padding, if_pos h]
    exact (LawfulWriteCursor.putBytes_nil c).symm
  · by_cases hn : n = 1
    · rw [hn, Nat.mod_one] at h
      exact absurd rfl h
    · rw [align, if_neg (by simp [h, hn]), padding, if_neg h, LawfulWriteCursor.advance_eq]

/-- Counts like `SizeCursor`, but refuses to pass the largest 32-bit offset. -/
structure CheckingSizeCursor where
  offset : Nat

namespace CheckingSizeCursor

def advance (c : CheckingSizeCursor) (nBytes : Nat) : Outcome CheckingSizeCursor :=
  if uint32Max - c.offset < nBytes then .error (.throws (.overflowError "oversize CDR"))
  else .ok ⟨c.offset + nBytes⟩

def putBytes (c : CheckingSizeCursor) (nBytes : Nat) : Outcome CheckingSizeCursor := c.advance nBytes

def align (c : CheckingSizeCursor) (nBytes : Nat) : Outcome CheckingSizeCursor :=
  if nBytes = 1 ∨ c.offset % nBytes = 0 then .ok c else c.advance (nBytes - c.offset % nBytes)

def rebase (c : CheckingSizeCursor) (relativeOrigin : Int) : CheckingSizeCursor :=
  ⟨(c.offset - relativeOrigin).toNat⟩

end CheckingSizeCursor

end RmwCyclonedds
