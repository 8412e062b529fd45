import RmwCyclonedds.Serdata.SharedMemory
import RmwCyclonedds.Serialization.KeyWalk

/-! Key hashes: which keys are copied into them and which are hashed. -/
namespace RmwCyclonedds
open Library

/-- `sizeof (ddsi_keyhash)`. -/
def keyhashSize : Nat := 16

/-- `memcpy` into a zeroed key hash; behind its end this is undefined. -/
def copyKeyhash (keyBody : List Byte) : Outcome (List Byte) :=
  if keyBody.length ≤ keyhashSize then .ok (keyBody ++ List.replicate (keyhashSize - keyBody.length) 0)
  else .error .undefined

namespace Sertype
variable {host : Endian} {root : StructValueType} {variant : SampleOrRequest} (s : Sertype host root variant)
  (md5 : List Byte → List Byte)

/-- `serdata_rmw_get_keyhash`; of an untyped serdata the type is a null pointer. -/
def getKeyhash (d : HeldSerdata) (forceMd5 : Bool) : Outcome (List Byte) := do
  if !d.typed then throw .undefined
  if root.hasKeys then
    let keyBe ← s.cdrReader.extractkeyBe d.key .key
    if s.cdrWriter.getMaxSerializedSize .key ≤ 20 ∧ forceMd5 = false then copyKeyhash (keyBe.drop 4)
    else return md5 (keyBe.drop 4)
  else return List.replicate keyhashSize 0

/-! ### When a key hash is made -/

theorem copyKeyhash_returns_iff (keyBody : List Byte) : (∃ hash, copyKeyhash keyBody = .ok hash) ↔
    keyBody.length ≤ keyhashSize := by
  unfold copyKeyhash
  split
  · next h => exact ⟨fun _ => h,fun _ => ⟨_,rfl⟩⟩
  · next h =>
    refine ⟨?_,fun hle => absurd hle h⟩
    rintro ⟨hash,hcopy⟩
    cases hcopy

/-- The stored key can be read, and if it is copied it fits. -/
def HashableKey (key : List Byte) : Prop :=
  ∃ p, CDRReader.readThrough host root variant (s.cdrReader.keyLookup (host != .big)) .key key = .ok p ∧
    (s.cdrWriter.getMaxSerializedSize .key ≤ 20 → p.2.position ≤ 20)

theorem getKeyhash_ok (hk : root.hasKeys = true) {d : HeldSerdata} (hd : d.typed = true) {keyBe : List Byte}
    (hkey : s.cdrReader.extractkeyBe d.key .key = .ok keyBe) (forceMd5 : Bool) : s.getKeyhash md5 d forceMd5 =
      if s.cdrWriter.getMaxSerializedSize .key ≤ 20 ∧ forceMd5 = false then copyKeyhash (keyBe.drop 4)
      else .ok (md5 (keyBe.drop 4)) := by
  simp only [getKeyhash, hd, hk, hkey, bind, Except.bind]
  rfl

theorem getKeyhash_returns_iff (hk : root.hasKeys = true) {d : HeldSerdata} (hd : d.typed = true) :
    (∀ forceMd5, ∃ hash, s.getKeyhash md5 d forceMd5 = .ok hash) ↔ s.HashableKey d.key := by
  have hwalk := s.cdrReader.extractkeyBe_walk hk d.key
  constructor
  · intro h
    obtain ⟨hash,hfirst⟩ := h false
    cases hkey : s.cdrReader.extractkeyBe d.key .key with
    | error e =>
      simp only [getKeyhash, hd, hk, hkey, bind, Except.bind] at hfirst
      cases hfirst
    | ok keyBe =>
      obtain ⟨p,hp,hlen⟩ := hwalk.left_ok hkey
      refine ⟨p,hp,fun hmax => ?_⟩
      rw [s.getKeyhash_ok md5 hk hd hkey, if_pos ⟨hmax,rfl⟩] at hfirst
      have hle := (copyKeyhash_returns_iff _).mp ⟨hash,hfirst⟩
      rw [List.length_drop, hlen, keyhashSize] at hle
      omega
  · rintro ⟨p,hp,hfit⟩ forceMd5
    obtain ⟨keyBe,hkey,hlen⟩ := hwalk.right_ok hp
    rw [s.getKeyhash_ok md5 hk hd hkey]
    split
    · next hcopy =>
      apply (copyKeyhash_returns_iff _).mpr
      have hle := hfit hcopy.1
      rw [List.length_drop, hlen, keyhashSize]
      omega
    · exact ⟨_,rfl⟩

end Sertype
end RmwCyclonedds
