import RmwCyclonedds.Serdata.Keys
import RmwCyclonedds.Serialization.BigEndianKey

/-! Keys in big-endian order, from which key hashes are made. -/
namespace RmwCyclonedds
open Library
open CDRReader (wholeFrom)

/-! ### Exchanged wide characters -/

private theorem encodeUnits_fixed (e : Endian) {us : List UInt16}
    (h : Value.encodeUnits e (us.map swapUnit) = Value.encodeUnits e us) : us.map swapUnit = us := by
  induction us with
  | nil => rfl
  | cons u us ih =>
    simp only [Value.encodeUnits, List.map_cons, List.flatMap_cons] at h
    obtain ⟨hu,hrest⟩ := List.append_inj h (by rw [e.encode_length, e.encode_length])
    have hunit : swapUnit u = u :=
      UInt16.toNat_inj.mp (e.encode_injective (swapUnit u).toNat_lt u.toNat_lt hu)
    rw [List.map_cons, hunit, ih hrest]

mutual
theorem finish_swapUnits : ∀ (v : Value) (off : Nat), (swapUnits v).finish off = v.finish off
  | .primitive _ _, _ => rfl
  | .u8string _, _ => rfl
  | .u16string us, off => by rw [swapUnits, Value.finish, Value.finish, List.length_map]
  | .struct vs, off => finishAll_swapUnits vs off
  | .array vs, off => finishAll_swapUnits vs off
  | .sequence vs, off => finishAll_swapUnits vs (alignUp 4 off + 4)

theorem finishAll_swapUnits : ∀ (vs : List Value) (off : Nat),
    Value.finishAll (swapUnitsAll vs) off = Value.finishAll vs off
  | [], _ => rfl
  | v :: vs, off => by
    rw [swapUnitsAll, Value.finishAll, Value.finishAll, finish_swapUnits v off, finishAll_swapUnits vs]
end

mutual
/-- Exchanging bytes in the encoding shows, unless it changes nothing. -/
theorem encode_swapUnits_fixed (e : Endian) : ∀ {v : Value} {off : Nat},
    (swapUnits v).encode e off = v.encode e off → swapUnits v = v
  | .primitive _ _, _, _ => rfl
  | .u8string _, _, _ => rfl
  | .u16string us, off, h => by
    rw [swapUnits, Value.encode, Value.encode, List.length_map] at h
    rw [swapUnits, encodeUnits_fixed e (List.append_cancel_left h)]
  | .struct vs, off, h => congrArg Value.struct (encodeAll_swapUnits_fixed e h)
  | .array vs, off, h => congrArg Value.array (encodeAll_swapUnits_fixed e h)
  | .sequence vs, off, h => by
    rw [swapUnits, Value.encode, Value.encode, swapUnitsAll_length] at h
    rw [swapUnits, encodeAll_swapUnits_fixed e (List.append_cancel_left h)]

theorem encodeAll_swapUnits_fixed (e : Endian) : ∀ {vs : List Value} {off : Nat},
    Value.encodeAll e (swapUnitsAll vs) off = Value.encodeAll e vs off → swapUnitsAll vs = vs
  | [], _, _ => rfl
  | v :: vs, off, h => by
    have hlen : ((swapUnits v).encode e off).length = (v.encode e off).length := by
      have hswap := Value.encode_length e (swapUnits v) off
      have hplain := Value.encode_length e v off
      rw [finish_swapUnits] at hswap
      omega
    rw [swapUnitsAll, Value.encodeAll, Value.encodeAll] at h
    obtain ⟨hhead,htail⟩ := List.append_inj h hlen
    rw [hlen] at htail
    rw [swapUnitsAll, encode_swapUnits_fixed e hhead, encodeAll_swapUnits_fixed e htail]
end

/-! ### The big-endian key -/

namespace StructValueType
variable (root : StructValueType)

/-- An encoded sample, or the key of one. -/
def encoded (sender : Endian) (what : SampleOrKey) (v : Value) : List Byte :=
  rtpsHeader sender ++ (root.toValueType.project what v).encode sender 0

/-- A little-endian host needs wide characters that read the same in both orders, a big-endian
host copies no elements whole of which the key takes only members. -/
def BigEndianCondition (host sender : Endian) (what : SampleOrKey) (v : Value) : Prop :=
  (host = .little → swapUnits (root.toValueType.project .key v) = root.toValueType.project .key v) ∧
    (host = .big → sender = .big → ∀ w, root.AgreeOnKey v w → root.toValueType.ExtractFree cachedWhole what w 0)

theorem AgreeOnKey.plainKey_eq {root : StructValueType} {v w : Value} (h : root.AgreeOnKey v w) (e : Endian) :
    root.plainKey e w = root.plainKey e v := by
  rw [plainKey, plainKey, h.project_eq]

end StructValueType

namespace CDRReader

private theorem extractkeyBe_little_iff {root : StructValueType} (r : CDRReader .little root .sample)
    (hk : root.hasKeys = true) (what : SampleOrKey) (sender : Endian) {v : Value} (hv : root.toValueType.Has v)
    (hf : v.Fits) : r.extractkeyBe (root.encoded sender what v) what = .ok (root.plainKey .big v) ↔
      swapUnits (root.toValueType.project .key v) = root.toValueType.project .key v := by
  have hkey := r.extractkeyBe_little hk what sender hv (ValueType.fits_project what hv hf) []
  rw [List.append_nil] at hkey
  rw [StructValueType.encoded, hkey, StructValueType.plainKey]
  constructor
  · intro h
    exact encode_swapUnits_fixed .big (List.append_cancel_left (Except.ok.inj h))
  · intro h
    rw [h]

private theorem extractkeyBe_bytes {root : StructValueType} (r : CDRReader .big root .sample) (hk : root.hasKeys = true)
    (what : SampleOrKey) (sender : Endian) {v : Value} (hv : root.toValueType.Has v) (hf : v.Fits)
    (hw : Walkable what (root.toValueType.ExtractFree (wholeFrom .big sender) what v 0)) :
    r.extractkeyBe (root.encoded sender what v) what =
      .ok (rtpsHeader .big ++ root.toValueType.keyBytes .big what (wholeFrom .big sender) v 0 0) := by
  have hkey := r.extractkey_stream hk what sender hv (ValueType.fits_project what hv hf) hw []
  rw [List.append_nil] at hkey
  rw [r.extractkeyBe_big, StructValueType.encoded, hkey]

private theorem extractkeyBe_big_free {root : StructValueType} (r : CDRReader .big root .sample)
    (hk : root.hasKeys = true) (what : SampleOrKey) (sender : Endian) {v : Value} (hv : root.toValueType.Has v)
    (hf : v.Fits) (hfree : root.toValueType.ExtractFree (wholeFrom .big sender) what v 0) :
    r.extractkeyBe (root.encoded sender what v) what = .ok (root.plainKey .big v) := by
  have hemit := ValueType.keyBytes_of_free .big what (trivialMany_of_wholeFrom .big sender) hv
    (fun _ => rfl : Level what 0 0) hfree
  rw [r.extractkeyBe_bytes hk what sender hv hf (.inr hfree), hemit, StructValueType.plainKey]

variable {host : Endian} {root : StructValueType} (r : CDRReader host root .sample)

/-- The big-endian key of a value and of all that agree with it on the key, in either byte order,
from an encoded sample or an encoded key. -/
theorem extractkeyBe_iff (hk : root.hasKeys = true) (what : SampleOrKey) (sender : Endian) {v : Value}
    (hv : root.toValueType.Has v) (hf : v.Fits) :
    (root.BigEndianCondition host sender what v → ∀ w, root.AgreeOnKey v w →
      r.extractkeyBe (root.encoded sender what w) what = .ok (root.plainKey .big v)) ∧
    (what = .sample ∨ host = .little ∨ sender = .little → root.toValueType.Solid →
      (∀ w, root.AgreeOnKey v w → r.extractkeyBe (root.encoded sender what w) what = .ok (root.plainKey .big v)) →
      root.BigEndianCondition host sender what v) := by
  have hself : root.AgreeOnKey v v := ⟨hv,hf,rfl⟩
  constructor
  · rintro ⟨hlittle,hbig⟩ w hw
    rw [← hw.plainKey_eq]
    cases host with
    | little =>
      refine (r.extractkeyBe_little_iff hk what sender hw.has hw.fits).mpr ?_
      rw [hw.project_eq]
      exact hlittle rfl
    | big =>
      refine r.extractkeyBe_big_free hk what sender hw.has hw.fits ?_
      cases sender with
      | little => exact ValueType.extractFree_never what root.toValueType w 0
      | big => exact hbig rfl rfl w hw
  · intro hcase hsolid h
    refine ⟨?_,?_⟩
    · rintro rfl
      exact (r.extractkeyBe_little_iff hk what sender hv hf).mp (h v hself)
    · rintro rfl rfl w hw
      obtain rfl : what = .sample := by
        rcases hcase with h | h | h
        · exact h
        · cases h
        · cases h
      by_contra hfree
      obtain ⟨w',hw',hd⟩ := ValueType.exists_differ .big .sample trivialMany_of_cachedWhole hsolid hw.has
        (fun h => (nomatch h) : Level .sample 0 0) hfree
      have hagree : root.AgreeOnKey v w' := ⟨hw'.has,hw'.fits hw.fits,hw'.project_eq.trans hw.project_eq⟩
      have hkey := h w hw
      have hkey' := h w' hagree
      have hwhole : wholeFrom .big .big = cachedWhole := if_pos rfl
      rw [r.extractkeyBe_bytes hk .sample .big hw.has hw.fits (.inl rfl), hwhole] at hkey
      rw [r.extractkeyBe_bytes hk .sample .big hagree.has hagree.fits (.inl rfl), hwhole] at hkey'
      have heq := (Except.ok.inj hkey').trans (Except.ok.inj hkey).symm
      exact hd.ne (List.append_cancel_left heq)

/-- A message with a name for a key: `@key wstring name`. -/
def named : StructValueType where
  sizeofStruct := 32
  members := .cons 0 true (.u16string 32 (uint32Max / 2)) .nil
  wellFormed := ⟨Nat.le_refl _,True.intro⟩

/-- The letter A is 0 65 in big-endian order; it comes out as 65 0. -/
theorem named_letter : ∃ r : CDRReader .little named .sample,
    r.extractkeyBe (named.encoded .little .sample (.struct [.u16string [65]])) .sample =
        .ok [0,0,0,0,0,0,0,2,65,0] ∧
      named.plainKey .big (.struct [.u16string [65]]) = [0,0,0,0,0,0,0,2,0,65] := by
  obtain ⟨c,hc,_⟩ := make_known named.toValueType
  have hf : (Value.struct [.u16string [65]]).Fits := ⟨(by decide : 2 * [(65 : UInt16)].length < 2 ^ 32),True.intro⟩
  have hkey := (CDRReader.mk c hc : CDRReader .little named .sample).extractkeyBe_little rfl .sample .little
    (v := .struct [.u16string [65]]) ⟨_,rfl,_,_,rfl,⟨_,rfl⟩,rfl⟩ hf []
  exact ⟨⟨c,hc⟩,hkey.trans (by decide),by decide⟩

theorem labelled_big_endian : ∃ r : CDRReader .little Sertype.labelled .sample,
    ∀ w, Sertype.labelled.AgreeOnKey (.struct [.primitive .four 7,.u8string [104,105]]) w →
      r.extractkeyBe (Sertype.labelled.encoded .big .sample w) .sample = .ok [0,0,0,0,0,0,0,7] := by
  obtain ⟨c,hc,_⟩ := make_known Sertype.labelled.toValueType
  have hv : Sertype.labelled.toValueType.Has (.struct [.primitive .four 7,.u8string [104,105]]) :=
    ⟨_,rfl,_,_,rfl,⟨7,by decide,rfl⟩,_,_,rfl,⟨_,rfl⟩,rfl⟩
  have hf : (Value.struct [.primitive .four 7,.u8string [104,105]]).Fits :=
    ⟨True.intro,(by decide : [(104 : Byte),105].length + 1 < 2 ^ 32),True.intro⟩
  have hboth := (CDRReader.mk c hc : CDRReader .little Sertype.labelled .sample).extractkeyBe_iff rfl .sample .big hv hf
  exact ⟨_,hboth.1 ⟨fun _ => rfl,fun h => (nomatch h)⟩⟩

end CDRReader
end RmwCyclonedds
