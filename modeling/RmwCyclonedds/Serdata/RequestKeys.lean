import RmwCyclonedds.Serdata.Keys
import RmwCyclonedds.Serialization.Requests

/-! Keys of requests and responses. The writer looks for the key in the request wrapper itself,
and the reader skips half of the header. -/
namespace RmwCyclonedds
open Library

/-! ### Two memories side by side -/

namespace Memory

/-- The place of an object in the first or the second of two memories. -/
def side (second : Bool) (a : Address) : Address := ⟨2 * a.block + second.toNat,a.offset⟩

/-- Which memory an object lies in, and where. -/
def unside (a : Address) : Bool × Address := (a.block % 2 == 1,⟨a.block / 2,a.offset⟩)

theorem unside_side (second : Bool) (a : Address) : unside (side second a) = (second,a) := by
  cases second with
  | false =>
    have hmod : (2 * a.block + 0) % 2 = 0 := by omega
    have hdiv : (2 * a.block + 0) / 2 = a.block := by omega
    simp only [unside, side, Bool.toNat_false, hmod, hdiv]
    rfl
  | true =>
    have hmod : (2 * a.block + 1) % 2 = 1 := by omega
    have hdiv : (2 * a.block + 1) / 2 = a.block := by omega
    simp only [unside, side, Bool.toNat_true, hmod, hdiv]
    rfl

/-- Two memories next to each other, with pointers that all lead to one place. -/
def sideBySide (m : Bool → Memory) (target : Address) : Memory where
  byte a := (m (unside a).1).byte (unside a).2
  pointer _ := target
  u8string a := (m (unside a).1).u8string (unside a).2
  u16string a := (m (unside a).1).u16string (unside a).2
  bits a := (m (unside a).1).bits (unside a).2
  sequenceSize a := (m (unside a).1).sequenceSize (unside a).2
  sequenceContents a := side (unside a).1 ((m (unside a).1).sequenceContents (unside a).2)

theorem sideBySide_placed (m : Bool → Memory) (target : Address) (second : Bool) :
    Placed (m second) (sideBySide m target) (side second) := by
  constructor
  · intro a n
    rfl
  all_goals
    intro a
    simp only [sideBySide, unside_side]

end Memory

/-! ### Values with different keys -/

section
variable (host : Endian) (whole : WholeCopies)

theorem ValueType.exists_value (t : ValueType) : ∃ v, t.Has v :=
  ⟨_,Memory.empty.value_has .little t Memory.base⟩

theorem Members.exists_values (ms : Members) : ∃ vs, ms.Have vs :=
  ⟨_,Memory.empty.values_have .little ms Memory.base⟩

private theorem differ_u32 {n k off : Nat} (hn : n < 2 ^ 32) (hk : k < 2 ^ 32) (hne : n ≠ k) :
    Differ (Value.encodeU32 host n off) (Value.encodeU32 host k off) := by
  apply Differ.of_length
  · simp only [Value.encodeU32, List.length_append, List.length_replicate, host.encode_length]
  · intro heq
    exact hne (host.encode_injective hn hk (List.append_cancel_left heq))

mutual
/-- A type with members has values with different keys. -/
theorem ValueType.exists_keys : ∀ {t : ValueType} (off : Nat), t.Solid → ∃ v w, t.Has v ∧ t.Has w ∧
    Differ (t.keyBytes host .key whole v off off) (t.keyBytes host .key whole w off off)
  | .primitive k, off, _ => by
    have hpos : 1 < 256 ^ k.width.bytes := Nat.one_lt_pow (Nat.pos_iff_ne_zero.mp k.width.bytes_pos) (by decide)
    refine ⟨.primitive k.width 0,.primitive k.width 1,⟨0,by omega,rfl⟩,⟨1,hpos,rfl⟩,?_⟩
    apply Differ.of_length
    · simp only [ValueType.keyBytes, Value.encode, List.length_append, List.length_replicate, host.encode_length]
    · intro heq
      exact Nat.zero_ne_one (host.encode_injective (by omega) hpos (List.append_cancel_left heq))
  | .u8string _ _, off, _ => by
    refine ⟨.u8string [],.u8string [0],⟨_,rfl⟩,⟨_,rfl⟩,?_⟩
    exact (differ_u32 host (by decide) (by decide) (by decide : [].length + 1 ≠ [(0 : Byte)].length + 1)).append _ _
  | .u16string _ _, off, _ => by
    refine ⟨.u16string [],.u16string [0],⟨_,rfl⟩,⟨_,rfl⟩,?_⟩
    exact (differ_u32 host (by decide) (by decide) (by decide : 2 * [].length ≠ 2 * [(0 : UInt16)].length)).append _ _
  | .struct _ ms, off, hs => by
    have hchosen : allFields .key ms = true ∧ ms ≠ .nil ∨ ms.hasKeys = true := by
      rw [allFields_key]
      cases ms.hasKeys with
      | true => exact .inr rfl
      | false => exact .inl ⟨rfl,hs.1⟩
    obtain ⟨vs,ws,hvs,hws,hd⟩ := Members.exists_keys (allFields .key ms) off hs.2 hchosen
    exact ⟨.struct vs,.struct ws,⟨_,rfl,hvs⟩,⟨_,rfl,hws⟩,hd⟩
  | .array t 0, _, hs => absurd hs.1 (Nat.lt_irrefl 0)
  | .array t (n + 1), off, hs => by
    obtain ⟨v,w,hv,hw,hd⟩ := ValueType.exists_keys off hs.2
    have hall : ∀ u, t.Has u → ∀ x ∈ u :: List.replicate n v, t.Has x := by
      intro u hu x hx
      rcases List.mem_cons.mp hx with rfl | hx
      · exact hu
      · rw [List.eq_of_mem_replicate hx]
        exact hv
    refine ⟨.array (v :: List.replicate n v),.array (w :: List.replicate n v),⟨_,rfl,by simp,hall v hv⟩,
      ⟨_,rfl,by simp,hall w hw⟩,?_⟩
    exact hd.append _ _
  | .spanSequence _ t _, off, _ => by
    obtain ⟨v,hv⟩ := ValueType.exists_value t
    refine ⟨.sequence [],.sequence [v],⟨_,rfl,fun x hx => (nomatch hx)⟩,⟨_,rfl,fun x hx => ?_⟩,?_⟩
    · rw [List.mem_singleton.mp hx]
      exact hv
    · exact (differ_u32 host (by decide) (by decide) (by decide : 0 ≠ 1)).append _ _
  | .boolVector _ _, off, _ => by
    refine ⟨.sequence ([].map boolValue),.sequence ([true].map boolValue),⟨_,rfl⟩,⟨_,rfl⟩,?_⟩
    exact (differ_u32 host (by decide) (by decide) (by decide : 0 ≠ 1)).append _ _

theorem Members.exists_keys : ∀ {ms : Members} (all : Bool) (off : Nat), ms.Solid →
    all = true ∧ ms ≠ .nil ∨ ms.hasKeys = true → ∃ vs ws, ms.Have vs ∧ ms.Have ws ∧
      Differ (ms.keyBytes host .key whole all vs off off) (ms.keyBytes host .key whole all ws off off)
  | .nil, _, _, _, hchosen => absurd hchosen (by rintro (⟨_,h⟩ | h); exacts [h rfl,Bool.noConfusion h])
  | .cons _ isKey t ms, all, off, hs, hchosen => by
    cases htaken : all || isKey with
    | true =>
      obtain ⟨v,w,hv,hw,hd⟩ := ValueType.exists_keys off hs.1
      obtain ⟨vs,hvs⟩ := Members.exists_values ms
      refine ⟨v :: vs,w :: vs,⟨v,vs,rfl,hv,hvs⟩,⟨w,vs,rfl,hw,hvs⟩,?_⟩
      simp only [Members.keyBytes, htaken, if_true]
      exact hd.append _ _
    | false =>
      obtain ⟨hall,hkey⟩ := Bool.or_eq_false_iff.mp htaken
      have hrest : ms.hasKeys = true := by
        rcases hchosen with ⟨h,_⟩ | h
        · exact Bool.noConfusion (hall.symm.trans h)
        · rw [Members.hasKeys, hkey] at h
          exact h
      obtain ⟨v,hv⟩ := ValueType.exists_value t
      obtain ⟨vs,ws,hvs,hws,hd⟩ := Members.exists_keys all off hs.2 (.inr hrest)
      refine ⟨v :: vs,v :: ws,⟨v,vs,rfl,hv,hvs⟩,⟨v,ws,rfl,hv,hws⟩,?_⟩
      simp only [Members.keyBytes, htaken, Bool.false_eq_true, if_false, reduceCtorEq]
      exact hd
end

end

/-! ### Objects without further objects -/

section
variable (what : SampleOrKey)

mutual
/-- The walk comes to no string, no sequence and no vector of bits. -/
def ValueType.flat : ValueType → Bool
  | .primitive _ => true
  | .struct _ ms => ms.flat (allFields what ms)
  | .array t _ => t.flat
  | _ => false

def Members.flat (all : Bool) : Members → Bool
  | .nil => true
  | .cons _ isKey t ms => (!(all || isKey) || t.flat) && ms.flat all
end

mutual
/-- There is no length that could be too large. -/
theorem ValueType.fits_of_flat : ∀ {t : ValueType} {v : Value}, t.flat what = true → t.Has v → (t.project what v).Fits
  | .primitive _, _, _, h => by
    obtain ⟨_,_,rfl⟩ := h
    exact True.intro
  | .struct _ ms, _, hflat, h => by
    obtain ⟨vs,rfl,hvs⟩ := h
    exact Members.fits_of_flat (allFields what ms) hflat hvs
  | .array t _, _, hflat, h => by
    obtain ⟨vs,rfl,_,hvs⟩ := h
    have helement : t.flat what = true := hflat
    refine (Value.fitsAll_iff _).mpr fun v hv => ?_
    obtain ⟨w,hw,rfl⟩ := List.mem_map.mp hv
    exact ValueType.fits_of_flat helement (hvs w hw)

theorem Members.fits_of_flat (all : Bool) : ∀ {ms : Members} {vs : List Value}, ms.flat what all = true → ms.Have vs →
    Value.FitsAll (ms.project what all vs)
  | .nil, _, _, h => by
    rw [h]
    exact True.intro
  | .cons _ isKey t ms, _, hflat, h => by
    obtain ⟨v,vs,rfl,hv,hvs⟩ := h
    obtain ⟨hhead,hrest⟩ := Bool.and_eq_true_iff.mp hflat
    rw [Members.project]
    split
    · next htaken =>
      rw [htaken] at hhead
      exact ⟨ValueType.fits_of_flat hhead hv,Members.fits_of_flat all hrest hvs⟩
    · exact Members.fits_of_flat all hrest hvs
end

end

namespace Sertype
variable {host : Endian} {root : StructValueType} (s : Sertype host root .request) (m : Memory) (src : Address)

/-- The message that a wrapper points to. -/
def wrapped (host : Endian) (root : StructValueType) (m : Memory) (src : Address) : Value :=
  m.value host root.toValueType (m.pointer (src + 16))

/-- The key written from a wrapper, which is taken for a message. There is no string or sequence in it: where one is
looked for, the client's id and the sequence number are taken for a pointer and a size. -/
def requestKey : Outcome (List Byte) :=
  if root.toValueType.flat .key then s.cdrWriter.serialize m src .key else .error .undefined

/-- Both keys of a request are the key of its message. -/
structure RightKeys : Prop where
  written : s.requestKey m src = .ok (root.plainKey host (wrapped host root m src))
  extracted : ∀ bytes, s.cdrWriter.serialize m src .sample = .ok bytes →
    s.cdrReader.extractkey bytes .sample = .ok (root.plainKey host (wrapped host root m src))

/-- The key is written from the bytes of the wrapper. -/
theorem written_requestKey (hk : root.hasKeys = true) : s.cdrWriter.serialize m src .key =
    .ok (rtpsHeader host ++ root.toValueType.keyBytes host .key cachedWhole (m.value host root.toValueType src) 0 0) := by
  have hbody : streamBody host root .request m src .key =
      (root.toValueType.view cachedWhole .key (m.value host root.toValueType src) 0).encode host 0 := if_pos (.inr hk)
  rw [s.cdrWriter.serialize_eq, hbody, ValueType.keyBytes_of_view host (m.value_has host root.toValueType src)]

private theorem written_iff (hk : root.hasKeys = true) (hflat : root.toValueType.flat .key = true)
    (hfree : root.toValueType.CopyFree cachedWhole .key (m.value host root.toValueType src) 0) :
    s.requestKey m src = .ok (root.plainKey host (wrapped host root m src)) ↔
      root.toValueType.project .key (m.value host root.toValueType src) =
        root.toValueType.project .key (wrapped host root m src) := by
  have hv := m.value_has host root.toValueType src
  have hvm : root.toValueType.Has (wrapped host root m src) := m.value_has host root.toValueType _
  have hemit := ValueType.keyBytes_of_free host .key trivialMany_of_cachedWhole hv (fun _ => rfl : Level .key 0 0)
    ((ValueType.extractFree_key_iff cachedWhole hv).mp hfree)
  have hwrite : s.requestKey m src = .ok (root.plainKey host (m.value host root.toValueType src)) := by
    rw [requestKey, if_pos hflat, s.written_requestKey m src hk, hemit, StructValueType.plainKey]
  rw [hwrite]
  constructor
  · intro h
    exact plainKey_inj hv hvm (ValueType.fits_of_flat .key hflat hv) (ValueType.fits_of_flat .key hflat hvm) (Except.ok.inj h)
  · intro h
    rw [StructValueType.plainKey, StructValueType.plainKey, h]

/-- The key written for a request is that of its message exactly where the wrapper's own bytes
have that key, and for no message do all wrappers have it. -/
theorem requestKeys_never (hk : root.hasKeys = true) (hs : root.toValueType.Solid) (hr : root.Representable) {v : Value}
    (hv : root.toValueType.Has v) :
    (∀ m src, root.toValueType.flat .key = true →
      root.toValueType.CopyFree cachedWhole .key (m.value host root.toValueType src) 0 →
      (s.requestKey m src = .ok (root.plainKey host (wrapped host root m src)) ↔
        root.toValueType.project .key (m.value host root.toValueType src) =
          root.toValueType.project .key (wrapped host root m src))) ∧
    ¬∀ m src, wrapped host root m src = v → s.RightKeys m src := by
  refine ⟨fun m src hflat hfree => s.written_iff m src hk hflat hfree,fun h => ?_⟩
  have hother : ∃ u, root.toValueType.Has u ∧
      root.toValueType.keyBytes host .key cachedWhole u 0 0 ≠ (root.toValueType.project .key v).encode host 0 := by
    obtain ⟨u,u',hu,hu',hd⟩ := ValueType.exists_keys host cachedWhole 0 hs
    by_cases heq : root.toValueType.keyBytes host .key cachedWhole u 0 0 = (root.toValueType.project .key v).encode host 0
    · exact ⟨u',hu',fun heq' => hd.ne (heq.trans heq'.symm)⟩
    · exact ⟨u,hu,heq⟩
  obtain ⟨u,hu,hne⟩ := hother
  obtain ⟨m,a,hm⟩ := hr host u hu
  obtain ⟨m',a',hm'⟩ := hr host v hv
  let both : Memory := Memory.sideBySide (fun second => if second then m' else m) (Memory.side true a')
  have hwrapper : both.value host root.toValueType (Memory.side false a) = u :=
    (Memory.value_placed (Memory.sideBySide_placed _ _ false) host root.toValueType a).trans hm
  have hmessage : wrapped host root both (Memory.side false a) = v :=
    (Memory.value_placed (Memory.sideBySide_placed _ _ true) host root.toValueType a').trans hm'
  have hwritten := (h both (Memory.side false a) hmessage).written
  rw [requestKey] at hwritten
  split at hwritten
  · rw [s.written_requestKey both _ hk, hwrapper, hmessage] at hwritten
    exact hne (List.append_cancel_left (Except.ok.inj hwritten))
  · cases hwritten

/-- A request with a number for a key: `@key int64 number`. -/
def numbered : StructValueType where
  sizeofStruct := 8
  members := .cons 0 true (.primitive .int64) .nil
  wellFormed := ⟨True.intro,True.intro⟩

/-- The request of client 17 with sequence number 255 and the number 42. -/
def request255 : Memory := {Memory.empty with byte := fun a => match a.block, a.offset with
                                                | 0, 0 => 17
                                                | 0, 8 => 255
                                                | 1, 0 => 42
                                                | _, _ => 0
                                              pointer := fun _ => ⟨1,0⟩}

/-- The key written for the request is the client's id, and the sequence number is extracted. -/
theorem numbered_keys : ∃ (s : Sertype .little numbered .request) (bytes : List Byte),
    numbered.plainKey .little (wrapped .little numbered request255 Memory.base) = [0,1,0,0,42,0,0,0,0,0,0,0] ∧
      s.requestKey request255 Memory.base = .ok [0,1,0,0,17,0,0,0,0,0,0,0] ∧
      s.cdrWriter.serialize request255 Memory.base .sample = .ok bytes ∧
      s.cdrReader.extractkey bytes .sample = .ok [0,1,0,0,255,0,0,0,0,0,0,0] := by
  obtain ⟨s,_⟩ := exists_of_bounds .little numbered .request rfl rfl rfl rfl
  exact ⟨s,_,by decide,s.written_requestKey request255 Memory.base rfl,s.cdrWriter.serialize_eq _ _ .sample,rfl⟩

private theorem numbered_representable : numbered.Representable := by
  intro host v hv
  obtain ⟨_,rfl,_,_,rfl,⟨n,hn,rfl⟩,rfl⟩ := hv
  refine ⟨Memory.ofBytes (host.encode 8 n),Memory.base,?_⟩
  have hread := Memory.read_ofBytes (host.encode 8 n)
  rw [host.encode_length] at hread
  have hnumber : host.decode ((Memory.ofBytes (host.encode 8 n)).read Memory.base 8) = n := by
    rw [hread]
    exact host.decode_encode hn
  exact congrArg (fun k => Value.struct [.primitive .eight k]) hnumber

theorem numbered_never : ∃ s : Sertype .little numbered .request,
    ¬∀ m src, wrapped .little numbered m src = .struct [.primitive .eight 42] → s.RightKeys m src := by
  obtain ⟨s,_⟩ := exists_of_bounds .little numbered .request rfl rfl rfl rfl
  have hv : numbered.toValueType.Has (.struct [.primitive .eight 42]) := ⟨_,rfl,_,_,rfl,⟨42,by decide,rfl⟩,rfl⟩
  have hboth := s.requestKeys_never rfl ⟨(nomatch ·),True.intro,True.intro⟩ numbered_representable hv
  exact ⟨s,hboth.2⟩

end Sertype
end RmwCyclonedds
