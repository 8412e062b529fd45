import RmwCyclonedds.Serialization.KeyPart

/-! Values that agree on the key and differ elsewhere, told apart by what a copy lets through. -/
namespace RmwCyclonedds
open Library

mutual
/-- Every struct has a member and no array is empty. -/
def ValueType.Solid : ValueType → Prop
  | .struct _ ms => ms ≠ .nil ∧ ms.Solid
  | .array t n => 0 < n ∧ t.Solid
  | .spanSequence _ t _ => t.Solid
  | _ => True

def Members.Solid : Members → Prop
  | .nil => True
  | .cons _ _ t ms => t.Solid ∧ ms.Solid
end

/-- Another value of the type, as short as the first, with the same key. -/
structure SameKey (t : ValueType) (v w : Value) : Prop where
  has : t.Has w
  project_eq : t.project .key w = t.project .key v
  fits : v.Fits → w.Fits
  inBounds : t.InBounds v → t.InBounds w

/-- The same of the members of a struct. -/
structure SameKeys (all : Bool) (ms : Members) (vs ws : List Value) : Prop where
  has : ms.Have ws
  project_eq : ms.project .key all ws = ms.project .key all vs
  fits : Value.FitsAll vs → Value.FitsAll ws
  inBounds : ms.InBounds vs → ms.InBounds ws

/-- The same of the elements of an array or a sequence. -/
structure SameKeyEach (t : ValueType) (vs ws : List Value) : Prop where
  has : ∀ w ∈ ws, t.Has w
  length_eq : ws.length = vs.length
  project_eq : ws.map (fun w => t.project .key w) = vs.map fun v => t.project .key v
  fits : Value.FitsAll vs → Value.FitsAll ws
  inBounds : (∀ v ∈ vs, t.InBounds v) → ∀ w ∈ ws, t.InBounds w

section
variable {t : ValueType} {v w : Value} {vs ws : List Value}

theorem SameKey.refl (h : t.Has v) : SameKey t v v := ⟨h,rfl,fun h => h,fun h => h⟩

theorem SameKeyEach.refl (h : ∀ v ∈ vs, t.Has v) : SameKeyEach t vs vs := ⟨h,rfl,rfl,fun h => h,fun h => h⟩

theorem SameKey.cons (h : SameKey t v w) (h' : SameKeyEach t vs ws) : SameKeyEach t (v :: vs) (w :: ws) := by
  refine ⟨?_,?_,?_,fun hf => ⟨h.fits hf.1,h'.fits hf.2⟩,?_⟩
  · intro x hx
    rcases List.mem_cons.mp hx with rfl | hx
    · exact h.has
    · exact h'.has x hx
  · rw [List.length_cons, List.length_cons, h'.length_eq]
  · rw [List.map_cons, List.map_cons, h.project_eq, h'.project_eq]
  · intro hb x hx
    rcases List.mem_cons.mp hx with rfl | hx
    · exact h.inBounds (hb v List.mem_cons_self)
    · exact h'.inBounds (fun y hy => hb y (List.mem_cons_of_mem v hy)) x hx

theorem SameKeyEach.array {n : Nat} (hn : vs.length = n) (h : SameKeyEach t vs ws) :
    SameKey (.array t n) (.array vs) (.array ws) := by
  refine ⟨⟨ws,rfl,h.length_eq.trans hn,h.has⟩,?_,h.fits,h.inBounds⟩
  rw [ValueType.project, ValueType.project, h.project_eq]

theorem SameKeyEach.sequence {k : SpanKind} {b : Nat} (h : SameKeyEach t vs ws) :
    SameKey (.spanSequence k t b) (.sequence vs) (.sequence ws) := by
  refine ⟨⟨ws,rfl,h.has⟩,?_,?_,?_⟩
  · rw [ValueType.project, ValueType.project, h.project_eq]
  · intro hf
    exact ⟨by rw [h.length_eq]; exact hf.1,h.fits hf.2⟩
  · intro hb
    exact ⟨by rw [h.length_eq]; exact hb.1,h.inBounds hb.2⟩

theorem SameKeys.struct {s : Nat} {ms : Members} (h : SameKeys (allFields .key ms) ms vs ws) :
    SameKey (.struct s ms) (.struct vs) (.struct ws) := by
  refine ⟨⟨ws,rfl,h.has⟩,?_,h.fits,h.inBounds⟩
  rw [ValueType.project, ValueType.project, h.project_eq]

theorem SameKeys.refl {all : Bool} {ms : Members} (h : ms.Have vs) : SameKeys all ms vs vs :=
  ⟨h,rfl,fun h => h,fun h => h⟩

theorem SameKeys.cons {all isKey : Bool} {off : Nat} {ms : Members} (h : SameKey t v w)
    (h' : SameKeys all ms vs ws) : SameKeys all (.cons off isKey t ms) (v :: vs) (w :: ws) := by
  refine ⟨⟨w,ws,rfl,h.has,h'.has⟩,?_,fun hf => ⟨h.fits hf.1,h'.fits hf.2⟩,fun hb => ⟨h.inBounds hb.1,h'.inBounds hb.2⟩⟩
  rw [Members.project, Members.project, h.project_eq, h'.project_eq]

end

/-! ### Copyable elements -/

mutual
theorem ValueType.inBounds_of_trivial : ∀ {t : ValueType} {off : Nat} {v : Value}, t.trivial off = true → t.Has v →
    t.InBounds v
  | .primitive _, _, _, _, h => by
    obtain ⟨_,_,rfl⟩ := h
    exact True.intro
  | .struct _ ms, _, _, ht, h => by
    obtain ⟨vs,rfl,hvs⟩ := h
    exact Members.inBounds_of_trivial ht hvs
  | .array t _, _, _, ht, h => by
    obtain ⟨vs,rfl,_,hvs⟩ := h
    exact fun v hv => ValueType.inBounds_of_trivial (Bool.and_eq_true_iff.mp ht).1 (hvs v hv)

theorem Members.inBounds_of_trivial : ∀ {ms : Members} {s off pos : Nat} {vs : List Value},
    ms.trivial s off pos = true → ms.Have vs → ms.InBounds vs
  | .nil, _, _, _, _, _, h => by
    rw [h]
    exact True.intro
  | .cons _ _ t ms, _, _, _, _, ht, h => by
    obtain ⟨v,vs,rfl,hv,hvs⟩ := h
    simp only [Members.trivial, Bool.and_eq_true] at ht
    exact ⟨ValueType.inBounds_of_trivial ht.1.2 hv,Members.inBounds_of_trivial ht.2 hvs⟩
end

/-- No copyable type has only one value. -/
theorem ValueType.exists_ne : ∀ {t : ValueType} {off : Nat} {v : Value}, t.trivial off = true → t.Solid → t.Has v →
    ∃ w, t.Has w ∧ w ≠ v
  | .primitive k, _, _, _, _, h => by
    obtain ⟨n,hn,rfl⟩ := h
    have hpos : 1 < 256 ^ k.width.bytes := Nat.one_lt_pow (Nat.pos_iff_ne_zero.mp k.width.bytes_pos) (by decide)
    by_cases h0 : n = 0
    · exact ⟨.primitive k.width 1,⟨1,hpos,rfl⟩,by simp [h0]⟩
    · refine ⟨.primitive k.width 0,⟨0,by omega,rfl⟩,fun heq => ?_⟩
      injection heq with _ hzero
      exact h0 hzero.symm
  | .struct _ .nil, _, _, _, hs, _ => absurd rfl hs.1
  | .struct _ (.cons _ _ t _), _, _, ht, hs, h => by
    obtain ⟨_,rfl,v,vs,rfl,hv,hvs⟩ := h
    simp only [ValueType.trivial, Members.trivial, Bool.and_eq_true] at ht
    obtain ⟨w,hw,hne⟩ := ValueType.exists_ne ht.1.2 hs.2.1 hv
    refine ⟨.struct (w :: vs),⟨_,rfl,w,vs,rfl,hw,hvs⟩,fun heq => hne ?_⟩
    exact (List.cons.inj (Value.struct.inj heq)).1
  | .array t n, _, _, ht, hs, h => by
    obtain ⟨vs,rfl,rfl,hvs⟩ := h
    obtain ⟨v,vs,rfl⟩ := List.exists_cons_of_length_pos hs.1
    obtain ⟨w,hw,hne⟩ := ValueType.exists_ne (Bool.and_eq_true_iff.mp ht).1 hs.2 (hvs v List.mem_cons_self)
    refine ⟨.array (w :: vs),⟨_,rfl,rfl,?_⟩,fun heq => hne (List.cons.inj (Value.array.inj heq)).1⟩
    intro x hx
    rcases List.mem_cons.mp hx with rfl | hx
    · exact hw
    · exact hvs x (List.mem_cons_of_mem v hx)

mutual
/-- A copyable value of which the key is only a part is not determined by its key. -/
theorem ValueType.exists_other : ∀ {t : ValueType} {off : Nat} {v : Value}, t.trivial off = true → t.Solid →
    t.keepsAll .key = false → t.Has v → ∃ w, SameKey t v w ∧ w ≠ v
  | .primitive _, _, _, _, _, hk, _ => Bool.noConfusion hk
  | .struct _ ms, _, _, ht, hs, hk, h => by
    obtain ⟨vs,rfl,hvs⟩ := h
    obtain ⟨ws,hws,hne⟩ := Members.exists_other ht hs.2 hk hvs
    exact ⟨.struct ws,hws.struct,fun heq => hne (Value.struct.inj heq)⟩
  | .array t n, _, _, ht, hs, hk, h => by
    obtain ⟨vs,rfl,hlen,hvs⟩ := h
    obtain ⟨v,vs,rfl⟩ := List.exists_cons_of_length_pos (hlen ▸ hs.1)
    obtain ⟨w,hw,hne⟩ := ValueType.exists_other (Bool.and_eq_true_iff.mp ht).1 hs.2 hk (hvs v List.mem_cons_self)
    have hrest := SameKeyEach.refl fun x hx => hvs x (List.mem_cons_of_mem v hx)
    exact ⟨.array (w :: vs),(hw.cons hrest).array hlen,fun heq => hne (List.cons.inj (Value.array.inj heq)).1⟩

theorem Members.exists_other : ∀ {ms : Members} {s off pos : Nat} {all : Bool} {vs : List Value},
    ms.trivial s off pos = true → ms.Solid → ms.keepsAll .key all = false → ms.Have vs →
    ∃ ws, SameKeys all ms vs ws ∧ ws ≠ vs
  | .nil, _, _, _, _, _, _, _, hk, _ => Bool.noConfusion hk
  | .cons _ isKey t ms, _, _, _, all, _, ht, hs, hk, h => by
    obtain ⟨v,vs,rfl,hv,hvs⟩ := h
    simp only [Members.trivial, Bool.and_eq_true] at ht
    rw [Members.keepsAll] at hk
    cases hchosen : all || isKey with
    | false =>
      obtain ⟨w,hw,hne⟩ := ValueType.exists_ne ht.1.2 hs.1 hv
      refine ⟨w :: vs,⟨⟨w,vs,rfl,hw,hvs⟩,?_,?_,?_⟩,fun heq => hne (List.cons.inj heq).1⟩
      · simp only [Members.project, hchosen, Bool.false_eq_true, if_false]
      · exact fun hf => ⟨ValueType.fits_of_trivial ht.1.2 hw,hf.2⟩
      · exact fun hb => ⟨ValueType.inBounds_of_trivial ht.1.2 hw,hb.2⟩
    | true =>
      cases hkt : t.keepsAll .key with
      | false =>
        obtain ⟨w,hw,hne⟩ := ValueType.exists_other ht.1.2 hs.1 hkt hv
        exact ⟨w :: vs,SameKeys.cons hw (SameKeys.refl hvs),fun heq => hne (List.cons.inj heq).1⟩
      | true =>
        rw [hchosen, hkt] at hk
        obtain ⟨ws,hws,hne⟩ := Members.exists_other ht.2 hs.2 hk hvs
        exact ⟨v :: ws,SameKeys.cons (SameKey.refl hv) hws,fun heq => hne (List.cons.inj heq).2⟩
end

/-! ### Walks that let non-key members through -/

/-- The bytes differ whatever follows them. -/
def Differ (as bs : List Byte) : Prop := ∀ r r', as ++ r ≠ bs ++ r'

theorem Differ.append {as bs : List Byte} (h : Differ as bs) (cs ds : List Byte) : Differ (as ++ cs) (bs ++ ds) := by
  intro r r'
  rw [List.append_assoc, List.append_assoc]
  exact h _ _

theorem Differ.behind {as bs : List Byte} (h : Differ as bs) (cs : List Byte) : Differ (cs ++ as) (cs ++ bs) := by
  intro r r' heq
  rw [List.append_assoc, List.append_assoc] at heq
  exact h r r' (List.append_cancel_left heq)

theorem Differ.of_length {as bs : List Byte} (hlen : as.length = bs.length) (hne : as ≠ bs) : Differ as bs :=
  fun _ _ heq => hne (List.append_inj heq hlen).1

theorem Differ.ne {as bs : List Byte} (h : Differ as bs) : as ≠ bs := fun heq => h [] [] (by rw [heq])

section
variable (host : Endian) (what : SampleOrKey) {whole : WholeCopies} {t : ValueType}

section
variable {free : Value → Nat → Prop} {emit : Value → Nat → Nat → List Byte}

/-- One element leaks when its walk is not free. -/
private def Leaks (what : SampleOrKey) (t : ValueType) (free : Value → Nat → Prop)
    (emit : Value → Nat → Nat → List Byte) : Prop :=
  ∀ {v : Value} {src dst : Nat}, t.Has v → Level what src dst → ¬free v src →
    ∃ w, SameKey t v w ∧ Differ (emit w src dst) (emit v src dst)

private theorem bytesEach_leaks (hleaks : Leaks what t free emit) (hemit : EmitsKey host what t free emit) :
    ∀ {vs : List Value} {src dst : Nat}, (∀ v ∈ vs, t.Has v) → Level what src dst →
      ¬freeEach free (fun v _ => t.project what v) vs src →
      ∃ ws, SameKeyEach t vs ws ∧ Differ (bytesEach what emit ws src dst) (bytesEach what emit vs src dst)
  | [], _, _, _, _, hf => absurd True.intro hf
  | v :: vs, src, dst, hv, hoff, hf => by
    have hhas := hv v List.mem_cons_self
    have hvs : ∀ w ∈ vs, t.Has w := fun w hw => hv w (List.mem_cons_of_mem v hw)
    by_cases hhead : free v src
    · have hone := hemit hhas hoff hhead
      have hnext := sourceEnd_eq host what hhas hoff
      have hlevel := level_finish host what hhas hoff
      have htail : ¬freeEach free (fun v _ => t.project what v) vs ((t.project what v).finish src) :=
        fun h => hf ⟨hhead,h⟩
      obtain ⟨ws,hws,hd⟩ := bytesEach_leaks hleaks hemit hvs hlevel htail
      refine ⟨v :: ws,(SameKey.refl hhas).cons hws,?_⟩
      rw [bytesEach, bytesEach, hone, hnext]
      exact hd.behind _
    · obtain ⟨w,hw,hd⟩ := hleaks hhas hoff hhead
      exact ⟨w :: vs,hw.cons (SameKeyEach.refl hvs),hd.append _ _⟩

/-- The element behind the first is copied, so a change in it shows. -/
private theorem copy_leaks (hs : t.Solid) (hk : t.keepsAll .key = false) {vs : List Value} {off : Nat}
    (ht : t.trivial off = true) (hne : vs ≠ []) (hvs : ∀ v ∈ vs, t.Has v) :
    ∃ ws, SameKeyEach t vs ws ∧ Differ (Value.encodeAll host ws off) (Value.encodeAll host vs off) := by
  obtain ⟨u,us,rfl⟩ := List.exists_cons_of_ne_nil hne
  have hu := hvs u List.mem_cons_self
  obtain ⟨w,hw,hdiff⟩ := ValueType.exists_other ht hs hk hu
  refine ⟨w :: us,hw.cons (SameKeyEach.refl fun x hx => hvs x (List.mem_cons_of_mem u hx)),fun r r' heq => hdiff ?_⟩
  rw [Value.encodeAll_cons, Value.encodeAll_cons, List.append_assoc, List.append_assoc] at heq
  exact (ValueType.encode_injective host hw.has hu (ValueType.fits_of_trivial ht hw.has)
    (ValueType.fits_of_trivial ht hu) heq).1

private theorem bytesMany_leaks (hs : t.Solid) (hwhole : ∀ off, whole off t = true → t.trivialMany off = true)
    (hleaks : Leaks what t free emit) (hemit : EmitsKey host what t free emit) {vs : List Value} {src dst : Nat}
    (hv : ∀ v ∈ vs, t.Has v) (hoff : Level what src dst)
    (hf : ¬freeMany free (fun v _ => t.project what v) (fun o => whole o t) (t.keepsAll .key) vs src) :
    ∃ ws, SameKeyEach t vs ws ∧ Differ (bytesMany host what emit (fun o => whole o t) ws src dst)
      (bytesMany host what emit (fun o => whole o t) vs src dst) := by
  cases vs with
  | nil => exact absurd True.intro hf
  | cons v vs =>
    have hhas := hv v List.mem_cons_self
    have hvs : ∀ w ∈ vs, t.Has w := fun w hw => hv w (List.mem_cons_of_mem v hw)
    by_cases hhead : free v src
    · have hone := hemit hhas hoff hhead
      have hnext := sourceEnd_eq host what hhas hoff
      have hlevel := level_finish host what hhas hoff
      simp only [bytesMany, hone, hnext]
      cases hw : whole ((t.project what v).finish src) t with
      | true =>
        have hcopy : vs ≠ [] ∧ t.keepsAll .key = false := by
          by_contra hno
          refine hf ⟨hhead,fun hne _ => ?_,fun hfalse => ?_⟩
          · by_contra hk
            exact hno ⟨hne,Bool.eq_false_iff.mpr hk⟩
          · exact Bool.noConfusion (hw.symm.trans hfalse)
        have htriv := (Bool.and_eq_true_iff.mp (hwhole _ hw)).1
        obtain ⟨ws,hws,hd⟩ := copy_leaks host hs hcopy.2 htriv hcopy.1 hvs
        refine ⟨v :: ws,(SameKey.refl hhas).cons hws,?_⟩
        simp only [hone, hnext, hw, if_true]
        exact hd.behind _
      | false =>
        have htail : ¬freeEach free (fun v _ => t.project what v) vs ((t.project what v).finish src) := by
          refine fun h => hf ⟨hhead,fun _ htrue => ?_,fun _ => h⟩
          exact Bool.noConfusion (hw.symm.trans htrue)
        obtain ⟨ws,hws,hd⟩ := bytesEach_leaks host what hleaks hemit hvs hlevel htail
        refine ⟨v :: ws,(SameKey.refl hhas).cons hws,?_⟩
        simp only [hone, hnext, hw, Bool.false_eq_true, if_false]
        exact hd.behind _
    · obtain ⟨w,hw,hd⟩ := hleaks hhas hoff hhead
      exact ⟨w :: vs,hw.cons (SameKeyEach.refl hvs),hd.append _ _⟩

end
end

section
variable (host : Endian) (what : SampleOrKey) {whole : WholeCopies}

mutual
/-- Where elements are copied whole, some value with the same key gives other bytes. -/
theorem ValueType.exists_differ (hwhole : ∀ off t, whole off t = true → t.trivialMany off = true) :
    ∀ {t : ValueType} {v : Value} {src dst : Nat}, t.Solid → t.Has v → Level what src dst →
      ¬t.ExtractFree whole what v src →
      ∃ w, SameKey t v w ∧ Differ (t.keyBytes host what whole w src dst) (t.keyBytes host what whole v src dst)
  | .primitive _, _, _, _, _, h, _, hf => by
    obtain ⟨_,_,rfl⟩ := h
    exact absurd True.intro hf
  | .u8string _ _, _, _, _, _, h, _, hf => by
    obtain ⟨_,rfl⟩ := h
    exact absurd True.intro hf
  | .u16string _ _, _, _, _, _, h, _, hf => by
    obtain ⟨_,rfl⟩ := h
    exact absurd True.intro hf
  | .struct _ ms, _, _, _, hs, h, hoff, hf => by
    obtain ⟨vs,rfl,hvs⟩ := h
    obtain ⟨ws,hws,hd⟩ := Members.exists_differ hwhole (allFields .key ms) hs.2 hvs hoff hf
    exact ⟨.struct ws,hws.struct,hd⟩
  | .array t _, _, _, _, hs, h, hoff, hf => by
    obtain ⟨vs,rfl,hlen,hvs⟩ := h
    obtain ⟨ws,hws,hd⟩ := bytesMany_leaks host what hs.2 (fun off => hwhole off t)
      (fun hv hoff hf => ValueType.exists_differ hwhole hs.2 hv hoff hf)
      (fun hv hoff hf => ValueType.keyBytes_of_free host what hwhole hv hoff hf) hvs hoff hf
    exact ⟨.array ws,hws.array hlen,hd⟩
  | .spanSequence _ t _, _, src, dst, hs, h, hoff, hf => by
    obtain ⟨vs,rfl,hvs⟩ := h
    have hst : t.Solid := hs
    have hlevel : Level what (alignUp 4 src + 4) (alignUp 4 dst + 4) := fun hk => by rw [hoff hk]
    obtain ⟨ws,hws,hd⟩ := bytesMany_leaks host what hst (fun off => hwhole off t)
      (fun hv hoff hf => ValueType.exists_differ hwhole hst hv hoff hf)
      (fun hv hoff hf => ValueType.keyBytes_of_free host what hwhole hv hoff hf) hvs hlevel hf
    refine ⟨.sequence ws,hws.sequence,?_⟩
    rw [ValueType.keyBytes, ValueType.keyBytes, hws.length_eq]
    exact hd.behind _
  | .boolVector _ _, _, _, _, _, h, _, hf => by
    obtain ⟨_,rfl⟩ := h
    exact absurd True.intro hf

theorem Members.exists_differ (hwhole : ∀ off t, whole off t = true → t.trivialMany off = true) (all : Bool) :
    ∀ {ms : Members} {vs : List Value} {src dst : Nat}, ms.Solid → ms.Have vs → Level what src dst →
      ¬ms.ExtractFree whole what all vs src →
      ∃ ws, SameKeys all ms vs ws ∧
        Differ (ms.keyBytes host what whole all ws src dst) (ms.keyBytes host what whole all vs src dst)
  | .nil, _, _, _, _, _, _, hf => absurd True.intro hf
  | .cons _ isKey t ms, _, src, dst, hs, h, hoff, hf => by
    obtain ⟨v,vs,rfl,hv,hvs⟩ := h
    rw [Members.ExtractFree] at hf
    simp only [Members.keyBytes]
    cases hchosen : all || isKey with
    | false =>
      simp only [hchosen, Bool.false_eq_true, if_false] at hf
      have hlevel : Level what (if what = .sample then v.finish src else src) dst := by
        rintro rfl
        exact hoff rfl
      obtain ⟨ws,hws,hd⟩ := Members.exists_differ hwhole all hs.2 hvs hlevel hf
      refine ⟨v :: ws,SameKeys.cons (SameKey.refl hv) hws,?_⟩
      simp only [Members.keyBytes, hchosen, Bool.false_eq_true, if_false]
      exact hd
    | true =>
      simp only [hchosen, if_true] at hf
      by_cases hhead : t.ExtractFree whole what v src
      · have hone := ValueType.keyBytes_of_free host what hwhole hv hoff hhead
        have hnext := sourceEnd_eq host what hv hoff
        have hlevel := level_finish host what hv hoff
        obtain ⟨ws,hws,hd⟩ := Members.exists_differ hwhole all hs.2 hvs hlevel fun h => hf ⟨hhead,h⟩
        refine ⟨v :: ws,SameKeys.cons (SameKey.refl hv) hws,?_⟩
        simp only [Members.keyBytes, hchosen, if_true, hone, hnext]
        exact hd.behind _
      · obtain ⟨w,hw,hd⟩ := ValueType.exists_differ hwhole hs.1 hv hoff hhead
        refine ⟨w :: vs,SameKeys.cons hw (SameKeys.refl hvs),?_⟩
        simp only [Members.keyBytes, hchosen, if_true]
        exact hd.append _ _
end

end

end RmwCyclonedds
