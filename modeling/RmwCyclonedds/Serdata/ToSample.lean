import RmwCyclonedds.Serdata.SharedMemory
import RmwCyclonedds.Serialization.Sizing

/-! Received bytes that are turned into a message: when the call comes back. -/
namespace RmwCyclonedds
open Library

/-- `rmw_deserialize` with what `make_message_value_type` returns; `none` is its answer `RMW_RET_ERROR`. -/
def rmwDeserialize (host : Endian) (runtime : Runtime) (messageValueType : Outcome StructValueType)
    (buffer : List Byte) : Outcome (Option Message) :=
  Outcome.caught (do
    let root ← messageValueType
    let reader ← CDRReader.make host root .sample
    return some (← reader.deserialize runtime buffer .sample)) none

/-! ### Resize functions that fail -/

/-- The resize function of a C sequence object has returned `false`. -/
def Sizing.Refused (runtime : Runtime) (e : Sizing) : Prop :=
  e.container = .sequence .rosidlc ∧ runtime e.position e.elements = .refused

private theorem stops_terminates_iff (runtime : Runtime) (e : Sizing) : e.Stops runtime .terminates ↔ e.Refused runtime := by
  constructor
  · rintro ⟨kind,hkind,h⟩
    unfold resize at h
    cases kind <;> cases hres : runtime e.position e.elements <;> rw [hres] at h <;> cases h
    exact ⟨hkind,hres⟩
  · rintro ⟨hkind,hres⟩
    refine ⟨.rosidlc,hkind,?_⟩
    unfold resize
    rw [hres]

private theorem not_stops_undefined (runtime : Runtime) (e : Sizing) : ¬e.Stops runtime .undefined := by
  rintro ⟨kind,_,h⟩
  unfold resize at h
  cases kind <;> cases hres : runtime e.position e.elements <;> rw [hres] at h <;> cases h

/-- A handler around a call that throws or terminates returns unless the call terminates. -/
private theorem caught_returns_iff {α : Type} {x : Outcome α} (h : x ≠ .error .undefined) (fallback : α) :
    (∃ o, x.caught fallback = .ok o) ↔ x ≠ .error .terminates := by
  cases x with
  | ok a =>
    refine ⟨fun _ h => ?_,fun _ => ⟨a,rfl⟩⟩
    cases h
  | error s =>
    cases s with
    | throws e =>
      refine ⟨fun _ h => ?_,fun _ => ⟨fallback,rfl⟩⟩
      cases h
    | terminates =>
      refine ⟨?_,fun h => absurd rfl h⟩
      rintro ⟨o,ho⟩
      cases ho
    | undefined => exact absurd rfl h

namespace CDRReader
variable {host : Endian} {root : StructValueType} {variant : SampleOrRequest} (r : CDRReader host root variant)

/-- Reading inside a handler comes back if no resize function of a C sequence object refuses. -/
private theorem caught_deserialize_iff (runtime : Runtime) (cdr : List Byte) (what : SampleOrKey) :
    (∃ o, Outcome.caught (do return some (← r.deserialize runtime cdr what)) none = .ok o) ↔
      ∀ e ∈ r.sizings runtime cdr what, ¬e.Refused runtime := by
  have hterminates : (∃ e ∈ r.sizings runtime cdr what, e.Stops runtime .terminates) ↔
      r.deserialize runtime cdr what = .error .terminates := r.deserializeNoted_stopsOn (fun _ h => by cases h) cdr what
  have hundefined : (∃ e ∈ r.sizings runtime cdr what, e.Stops runtime .undefined) ↔
      r.deserialize runtime cdr what = .error .undefined := r.deserializeNoted_stopsOn (fun _ h => by cases h) cdr what
  have hdefined : r.deserialize runtime cdr what ≠ .error .undefined := by
    intro h
    obtain ⟨e,_,he⟩ := hundefined.mpr h
    exact not_stops_undefined runtime e he
  have hmap : ∀ s, (do return some (← r.deserialize runtime cdr what) : Outcome (Option Message)) = .error s ↔
      r.deserialize runtime cdr what = .error s := by
    intro s
    cases r.deserialize runtime cdr what with
    | error e => exact ⟨fun h => congrArg Except.error (Except.error.inj h),fun h => congrArg Except.error (Except.error.inj h)⟩
    | ok m =>
      constructor
      · intro h
        cases h
      · intro h
        cases h
  rw [caught_returns_iff (fun h => hdefined ((hmap _).mp h)), Ne, hmap, ← hterminates]
  constructor
  · intro h e he hrefused
    exact h ⟨e,he,(stops_terminates_iff runtime e).mpr hrefused⟩
  · rintro h ⟨e,he,hstops⟩
    exact h e he ((stops_terminates_iff runtime e).mp hstops)

end CDRReader

/-- Whatever the bytes are, to make a sample of them returns unless the resize function of a C sequence object refuses,
and then never. -/
theorem toSample_returns_iff (host : Endian) (root : StructValueType) (runtime : Runtime) :
    (∀ {variant : SampleOrRequest} (s : Sertype host root variant) (heap : Heap) (kind : SerdataKind)
      (data key : List Byte) (typed : Bool),
      (∃ o, s.toSampleImpl heap runtime ⟨⟨kind,data,key⟩,typed,none⟩ = .ok o) ↔
        ∀ e ∈ s.cdrReader.sizings runtime (if typed then data else key) kind.what, ¬e.Refused runtime) ∧
    ∃ r : CDRReader host root .sample, ∀ buffer,
      (∃ o, rmwDeserialize host runtime (.ok root) buffer = .ok o) ↔
        ∀ e ∈ r.sizings runtime buffer .sample, ¬e.Refused runtime := by
  constructor
  · intro variant s heap kind data key typed
    rw [← s.cdrReader.caught_deserialize_iff runtime]
    cases typed <;> exact Iff.rfl
  · obtain ⟨c,hc,_⟩ := make_known root.toValueType
    refine ⟨⟨c,hc⟩,fun buffer => ?_⟩
    rw [← CDRReader.caught_deserialize_iff, rmwDeserialize]
    simp only [CDRReader.make_ok hc, bind, Except.bind]

/-- With memory for what is read, a serdata without a loan yields a sample or none. -/
theorem Sertype.exists_toSampleImpl {host : Endian} {root : StructValueType} {variant : SampleOrRequest}
    (s : Sertype host root variant) (heap : Heap) {runtime : Runtime} (hr : NeverRefuses runtime) (d : SerdataRmw) (typed : Bool) :
    ∃ o, s.toSampleImpl heap runtime ⟨d,typed,none⟩ = .ok o := by
  have hread : ∀ cdr what, ∃ o, Outcome.caught (do return some (← s.cdrReader.deserialize runtime cdr what)) none = .ok o :=
    fun cdr what => (s.cdrReader.caught_deserialize_iff runtime cdr what).mpr fun e _ he => hr _ _ he.2
  cases typed with
  | true => exact hread d.data d.kind.what
  | false => exact hread d.key d.kind.what

/-- `sequence<uint32> codes`, as a C sequence object. -/
def codesC : StructValueType where
  sizeofStruct := 24
  members := .cons 0 false (.spanSequence .rosidlc (.primitive .uint32) uint32Max) .nil
  wellFormed := ⟨⟨True.intro,True.intro,Nat.le_refl _⟩,True.intro⟩

/-- Eight bytes announce 4294967295 codes, and the runtime has no memory for them. -/
theorem hugeCount_terminates : ∃ s : Sertype .little codesC .sample, ∀ heap : Heap,
    s.toSampleImpl heap (fun _ _ => .refused) ⟨⟨.data,[0,0,0,0,255,255,255,255],[]⟩,true,none⟩ = .error .terminates ∧
      rmwDeserialize .little (fun _ _ => .refused) (.ok codesC) [0,0,0,0,255,255,255,255] = .error .terminates := by
  obtain ⟨s,_⟩ := Sertype.exists_of_bounds .little codesC .sample rfl rfl rfl rfl
  have hread : s.cdrReader.deserialize (fun _ _ => .refused) [0,0,0,0,255,255,255,255] .sample = .error .terminates := rfl
  refine ⟨s,fun heap => ⟨?_,?_⟩⟩
  · show Outcome.caught (do return some (← s.cdrReader.deserialize (fun _ _ => .refused)
      [0,0,0,0,255,255,255,255] .sample)) none = .error .terminates
    rw [hread]
    rfl
  · simp only [rmwDeserialize, CDRReader.make_ok s.cdrReader.tsc_eq, bind, Except.bind]
    rfl

end RmwCyclonedds
