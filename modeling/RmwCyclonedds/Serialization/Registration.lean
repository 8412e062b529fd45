import RmwCyclonedds.Serialization.ObjectCache

/-! Registration: filling the cache with the root type and everything inside it. -/
namespace RmwCyclonedds
open Library

/-- The cache holds the true answer for a type at every alignment. -/
def Known (c : CacheMap) (t : ValueType) : Prop := ∀ a < maxAlign, c.find (a,t) = some (t.trivial a)

/-! ### A type as an object that is identified by what it describes -/

private theorem find_ofType (k : CacheKey) : ∀ c : CacheMap, ObjectCache.find c k = c.find k
  | [] => rfl
  | (key,result) :: rest => by rw [ObjectCache.find, CacheMap.find, find_ofType k rest]

private theorem registerAligns_ofType (t : ValueType) (step : Nat → CacheMap → Outcome (CacheMap × Bool))
    (cache : CacheMap) (aligns : List Nat) :
    registerObjectAligns t step cache aligns = registerAligns t step cache aligns := by
  unfold registerObjectAligns registerAligns
  simp only [find_ofType]

mutual
private theorem registerObject_ofType : ∀ (t : ValueType) (cache : CacheMap),
    registerObject (TypeObject.ofType t) cache = registerSerializableType t cache
  | .primitive _, _ | .u8string _ _, _ | .u16string _ _, _ | .boolVector _ _, _ => registerAligns_ofType _ _ _ _
  | .struct s ms, cache => by
    simp only [TypeObject.ofType, registerObject, registerSerializableType, registerAligns_ofType,
      MemberObjects.ofTypes_types, registerMemberObjects_ofTypes ms]
  | .array t n, cache => by
    simp only [TypeObject.ofType, registerObject, registerSerializableType, registerAligns_ofType,
      TypeObject.ofType_type, registerObject_ofType t]
  | .spanSequence k t b, cache => by
    simp only [TypeObject.ofType, registerObject, registerSerializableType, registerAligns_ofType,
      registerObject_ofType t]

private theorem registerMemberObjects_ofTypes : ∀ (ms : Members) (cache : CacheMap),
    registerMemberObjects (MemberObjects.ofTypes ms) cache = registerMembers ms cache
  | .nil, _ => rfl
  | .cons _ _ t ms, cache => by
    simp only [MemberObjects.ofTypes, registerMemberObjects, registerMembers, registerObject_ofType t,
      registerMemberObjects_ofTypes ms]
end

/-- Types that are identified by what they describe are told apart. -/
private theorem universe_ofType : Universe fun o : TypeObject ValueType => ∃ t, o = TypeObject.ofType t where
  inside := by
    rintro _ ⟨t,rfl⟩
    rw [TypeObject.everywhere_ofType]
    exact ValueType.everywhere_of_forall (fun s => ⟨s,rfl⟩) t
  one := by
    rintro _ _ ⟨s,rfl⟩ ⟨t,rfl⟩ h
    rw [TypeObject.ofType_id, TypeObject.ofType_id] at h
    rw [h]

/-- Construction succeeds, and the cache knows the root and everything inside it. -/
theorem make_known (t : ValueType) : ∃ c, TriviallySerializedCache.make t = .ok c ∧ t.Everywhere (Known c.cache) := by
  obtain ⟨c,he,hk⟩ := registerObject_knows universe_ofType ⟨t,rfl⟩
  rw [registerObject_ofType] at he
  refine ⟨⟨c⟩,by rw [TriviallySerializedCache.make, he]; rfl,?_⟩
  apply ((TypeObject.everywhere_ofType _ t).mp hk).imp
  intro s hs a ha
  have hf := hs a ha
  rwa [TypeObject.ofType_id, TypeObject.ofType_type, find_ofType] at hf

/-! ### What readers and writers rely on -/

/-- A lookup that answers, and never says yes where a plain copy is wrong. -/
def Answers (lookup : Lookup) (t : ValueType) : Prop :=
  ∀ off, ∃ b, lookup off t = .ok b ∧ (b = true → t.trivial off = true)

/-- A lookup that says yes exactly where a plain copy is right. -/
def AnswersExactly (lookup : Lookup) (t : ValueType) : Prop := ∀ off, lookup off t = .ok (t.trivial off)

theorem AnswersExactly.answers {lookup : Lookup} {t : ValueType} (h : AnswersExactly lookup t) :
    Answers lookup t := fun off => ⟨_,h off,fun hb => hb⟩

theorem answers_noShortcut (t : ValueType) : Answers noShortcut t :=
  fun _ => ⟨false,rfl,fun hb => Bool.noConfusion hb⟩

theorem Known.answersExactly {c : TriviallySerializedCache} {t : ValueType} (h : Known c.cache t) :
    AnswersExactly c.lookupTriviallySerialized t := by
  intro off
  rw [TriviallySerializedCache.lookupTriviallySerialized, h _ (Nat.mod_lt _ (by decide)), ValueType.trivial_mod]

theorem answersExactly_of_make {t : ValueType} {c : TriviallySerializedCache}
    (h : TriviallySerializedCache.make t = .ok c) :
    t.Everywhere (AnswersExactly c.lookupTriviallySerialized) := by
  obtain ⟨c',he,hk⟩ := make_known t
  rw [h] at he
  obtain rfl := Except.ok.inj he
  exact hk.imp fun _ hkn => hkn.answersExactly

theorem lookupMany_answers {lookup : Lookup} {t : ValueType} (hs : t.Sized) (h : Answers lookup t) (off : Nat) :
    ∃ b, lookupManyTriviallySerialized lookup off t = .ok b ∧ (b = true → t.trivialMany off = true) := by
  obtain ⟨b,hb,ht⟩ := h (off % maxAlign)
  obtain ⟨b',hb',ht'⟩ := h ((off + t.size) % maxAlign)
  rw [ValueType.trivial_mod] at ht ht'
  cases b with
  | false => exact ⟨false,by simp [lookupManyTriviallySerialized, hb, bind, Except.bind, pure, Except.pure],
      fun hf => Bool.noConfusion hf⟩
  | true =>
    refine ⟨b',?_,?_⟩
    · simp [lookupManyTriviallySerialized, hb, hb', ValueType.sizeofType_of_sized hs, bind, Except.bind]
    · intro hyes
      rw [ValueType.trivialMany, ht rfl, ht' hyes]
      rfl

theorem lookupMany_exactly {lookup : Lookup} {t : ValueType} (hs : t.Sized) (h : AnswersExactly lookup t) (off : Nat) :
    lookupManyTriviallySerialized lookup off t = .ok (t.trivialMany off) := by
  have h0 := h (off % maxAlign)
  have h1 := h ((off + t.size) % maxAlign)
  rw [ValueType.trivial_mod] at h0 h1
  cases ht : t.trivial off <;>
    simp [lookupManyTriviallySerialized, ValueType.trivialMany, h0, h1, ht, ValueType.sizeofType_of_sized hs, bind,
      Except.bind, pure, Except.pure]

end RmwCyclonedds
