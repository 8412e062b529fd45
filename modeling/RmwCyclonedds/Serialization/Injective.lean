import RmwCyclonedds.Serialization.Bounds

/-! Reading is possible: an encoding, followed by anything, determines the value. -/
namespace RmwCyclonedds
open Library

section
variable (e : Endian)

private theorem encodeU32_inj {n k off : Nat} {r r' : List Byte} (hn : n < 2 ^ 32) (hk : k < 2 ^ 32)
    (h : Value.encodeU32 e n off ++ r = Value.encodeU32 e k off ++ r') : n = k ∧ r = r' := by
  simp only [Value.encodeU32, List.append_assoc] at h
  obtain ⟨hbytes,hr⟩ := List.append_inj (List.append_cancel_left h) (by rw [e.encode_length, e.encode_length])
  exact ⟨e.encode_injective hn hk hbytes,hr⟩

private theorem encodeUnits_inj : ∀ {us ws : List UInt16}, us.length = ws.length →
    Value.encodeUnits e us = Value.encodeUnits e ws → us = ws
  | [], [], _, _ => rfl
  | u :: us, w :: ws, hlen, h => by
    simp only [Value.encodeUnits, List.flatMap_cons] at h
    obtain ⟨hu,hrest⟩ := List.append_inj h (by rw [e.encode_length, e.encode_length])
    have hunit : u = w := UInt16.toNat_inj.mp (e.encode_injective u.toNat_lt w.toNat_lt hu)
    have hlen' : us.length = ws.length := Nat.succ.inj hlen
    rw [hunit, encodeUnits_inj hlen' hrest]

/-- The elements determine each other, so two runs of one length do. -/
private theorem viewEach_inj {view : Value → Nat → Value} {P : Value → Prop}
    (hinj : ∀ {v w : Value} {off : Nat} {r r' : List Byte}, P v → P w → (view v off).Fits → (view w off).Fits →
      (view v off).encode e off ++ r = (view w off).encode e off ++ r' → view v off = view w off ∧ r = r') :
    ∀ {vs ws : List Value} {off : Nat} {r r' : List Byte}, vs.length = ws.length → (∀ v ∈ vs, P v) → (∀ w ∈ ws, P w) →
      Value.FitsAll (viewEach view vs off) → Value.FitsAll (viewEach view ws off) →
      Value.encodeAll e (viewEach view vs off) off ++ r = Value.encodeAll e (viewEach view ws off) off ++ r' →
      viewEach view vs off = viewEach view ws off ∧ r = r'
  | [], [], _, _, _, _, _, _, _, _, h => ⟨rfl,h⟩
  | v :: vs, w :: ws, off, r, r', hlen, hv, hw, hfv, hfw, h => by
    simp only [viewEach, Value.encodeAll_cons, List.append_assoc] at h
    obtain ⟨hhead,hrest⟩ := hinj (hv v List.mem_cons_self) (hw w List.mem_cons_self) hfv.1 hfw.1 h
    rw [viewEach, hhead] at hfv
    rw [hhead] at hrest
    obtain ⟨htail,hr⟩ := viewEach_inj hinj (Nat.succ.inj hlen) (fun x hx => hv x (List.mem_cons_of_mem v hx))
      (fun x hx => hw x (List.mem_cons_of_mem w hx)) hfv.2 hfw.2 hrest
    exact ⟨by rw [viewEach, viewEach, hhead, htail],hr⟩

private theorem bools_inj : ∀ {as bs : List Bool} {off : Nat} {r r' : List Byte}, as.length = bs.length →
    Value.encodeAll e (as.map boolValue) off ++ r = Value.encodeAll e (bs.map boolValue) off ++ r' →
      as.map boolValue = bs.map boolValue ∧ r = r'
  | [], [], _, _, _, _, h => ⟨rfl,h⟩
  | a :: as, b :: bs, off, r, r', hlen, h => by
    have hfinish : ∀ c : Bool, (boolValue c).finish off = alignUp 1 off + 1 := fun _ => rfl
    simp only [List.map_cons, Value.encodeAll_cons, List.append_assoc, hfinish] at h
    have hhead : a = b ∧ Value.encodeAll e (as.map boolValue) (alignUp 1 off + 1) ++ r =
        Value.encodeAll e (bs.map boolValue) (alignUp 1 off + 1) ++ r' := by
      simp only [boolValue, Value.encode, Width.bytes, Width.log, Nat.pow_zero, padding_one, List.replicate_zero,
        List.nil_append] at h
      obtain ⟨hbyte,hrest⟩ := List.append_inj h (by rw [e.encode_length, e.encode_length])
      have hn := e.encode_injective (by split <;> decide) (by split <;> decide) hbyte
      refine ⟨?_,hrest⟩
      cases a <;> cases b <;> simp at hn ⊢
    obtain ⟨rfl,hrest⟩ := hhead
    obtain ⟨htail,hr⟩ := bools_inj (Nat.succ.inj hlen) hrest
    exact ⟨by rw [List.map_cons, List.map_cons, htail],hr⟩

end

mutual
theorem ValueType.encode_inj (e : Endian) (what : SampleOrKey) : ∀ {t : ValueType} {v w : Value} {off : Nat}
    {r r' : List Byte}, t.Has v → t.Has w →
    (t.view neverWhole what v off).Fits → (t.view neverWhole what w off).Fits →
    (t.view neverWhole what v off).encode e off ++ r = (t.view neverWhole what w off).encode e off ++ r' →
    t.view neverWhole what v off = t.view neverWhole what w off ∧ r = r'
  | .primitive k, _, _, off, r, r', hv, hw, _, _, h => by
    obtain ⟨n,hn,rfl⟩ := hv
    obtain ⟨l,hl,rfl⟩ := hw
    simp only [ValueType.view, Value.encode, List.append_assoc] at h ⊢
    obtain ⟨hbytes,hr⟩ := List.append_inj (List.append_cancel_left h) (by rw [e.encode_length, e.encode_length])
    exact ⟨by rw [e.encode_injective hn hl hbytes],hr⟩
  | .u8string _ _, _, _, off, r, r', hv, hw, hfv, hfw, h => by
    obtain ⟨cs,rfl⟩ := hv
    obtain ⟨ds,rfl⟩ := hw
    simp only [ValueType.view, Value.encode, List.append_assoc] at h ⊢
    obtain ⟨hlen,hrest⟩ := encodeU32_inj e hfv hfw h
    obtain ⟨hchars,hr⟩ := List.append_inj hrest (Nat.succ.inj hlen)
    exact ⟨by rw [hchars],List.append_cancel_left hr⟩
  | .u16string _ _, _, _, off, r, r', hv, hw, hfv, hfw, h => by
    obtain ⟨us,rfl⟩ := hv
    obtain ⟨ws,rfl⟩ := hw
    simp only [ValueType.view, Value.encode, List.append_assoc] at h ⊢
    obtain ⟨hlen,hrest⟩ := encodeU32_inj e hfv hfw h
    have hlen' : us.length = ws.length := by omega
    obtain ⟨hunits,hr⟩ := List.append_inj hrest (by rw [Value.encodeUnits_length, Value.encodeUnits_length, hlen])
    exact ⟨by rw [encodeUnits_inj e hlen' hunits],hr⟩
  | .struct _ ms, _, _, off, r, r', hv, hw, hfv, hfw, h => by
    obtain ⟨vs,rfl,hvs⟩ := hv
    obtain ⟨ws,rfl,hws⟩ := hw
    simp only [ValueType.view] at hfv hfw h ⊢
    obtain ⟨heq,hr⟩ := Members.encode_inj e what (allFields what ms) hvs hws hfv hfw h
    exact ⟨by rw [heq],hr⟩
  | .array t _, _, _, off, r, r', hv, hw, hfv, hfw, h => by
    obtain ⟨vs,rfl,hvlen,hvs⟩ := hv
    obtain ⟨ws,rfl,hwlen,hws⟩ := hw
    simp only [ValueType.view, neverWhole, viewMany_never] at hfv hfw h ⊢
    obtain ⟨heq,hr⟩ := viewEach_inj e (ValueType.encode_inj e what) (hvlen.trans hwlen.symm) hvs hws hfv hfw h
    exact ⟨by rw [heq],hr⟩
  | .spanSequence _ t _, _, _, off, r, r', hv, hw, hfv, hfw, h => by
    obtain ⟨vs,rfl,hvs⟩ := hv
    obtain ⟨ws,rfl,hws⟩ := hw
    simp only [ValueType.view, neverWhole, viewMany_never] at hfv hfw h ⊢
    simp only [Value.encode, List.append_assoc] at h
    obtain ⟨hlen,hrest⟩ := encodeU32_inj e hfv.1 hfw.1 h
    rw [viewEach_length, viewEach_length] at hlen
    obtain ⟨heq,hr⟩ := viewEach_inj e (ValueType.encode_inj e what) hlen hvs hws hfv.2 hfw.2 hrest
    exact ⟨by rw [heq],hr⟩
  | .boolVector _ _, _, _, off, r, r', hv, hw, hfv, hfw, h => by
    obtain ⟨as,rfl⟩ := hv
    obtain ⟨bs,rfl⟩ := hw
    simp only [ValueType.view, Value.encode, List.append_assoc] at h ⊢
    obtain ⟨hlen,hrest⟩ := encodeU32_inj e hfv.1 hfw.1 h
    rw [List.length_map, List.length_map] at hlen
    obtain ⟨heq,hr⟩ := bools_inj e hlen hrest
    exact ⟨by rw [heq],hr⟩

theorem Members.encode_inj (e : Endian) (what : SampleOrKey) (all : Bool) : ∀ {ms : Members} {vs ws : List Value}
    {off : Nat} {r r' : List Byte}, ms.Have vs → ms.Have ws →
    Value.FitsAll (ms.view neverWhole what all vs off) → Value.FitsAll (ms.view neverWhole what all ws off) →
    Value.encodeAll e (ms.view neverWhole what all vs off) off ++ r =
      Value.encodeAll e (ms.view neverWhole what all ws off) off ++ r' →
    ms.view neverWhole what all vs off = ms.view neverWhole what all ws off ∧ r = r'
  | .nil, _, _, _, _, _, _, _, _, _, h => ⟨rfl,h⟩
  | .cons _ isKey t ms, _, _, off, r, r', hv, hw, hfv, hfw, h => by
    obtain ⟨v,vs,rfl,hv,hvs⟩ := hv
    obtain ⟨w,ws,rfl,hw,hws⟩ := hw
    cases hk : all || isKey with
    | false =>
      simp only [Members.view, hk, Bool.false_eq_true, if_false] at hfv hfw h ⊢
      exact Members.encode_inj e what all hvs hws hfv hfw h
    | true =>
      simp only [Members.view, hk, if_true, Value.encodeAll_cons, List.append_assoc] at hfv hfw h ⊢
      obtain ⟨hhead,hrest⟩ := ValueType.encode_inj e what hv hw hfv.1 hfw.1 h
      rw [hhead] at hfv hrest
      obtain ⟨htail,hr⟩ := Members.encode_inj e what all hvs hws hfv.2 hfw.2 hrest
      exact ⟨by rw [hhead, htail],hr⟩
end

/-- For whole values the projection drops out. -/
theorem ValueType.encode_injective (e : Endian) {t : ValueType} {v w : Value} {off : Nat} {r r' : List Byte}
    (hv : t.Has v) (hw : t.Has w) (hfv : v.Fits) (hfw : w.Fits) (h : v.encode e off ++ r = w.encode e off ++ r') :
    v = w ∧ r = r' := by
  have hvv : t.view neverWhole .sample v off = v := ValueType.view_sample neverWhole hv
  have hww : t.view neverWhole .sample w off = w := ValueType.view_sample neverWhole hw
  rw [← hvv] at hfv h
  rw [← hww] at hfw h
  have hinj := ValueType.encode_inj e .sample hv hw hfv hfw h
  rwa [hvv, hww] at hinj

end RmwCyclonedds
