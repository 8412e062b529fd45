import RmwCyclonedds.Serdata.Construction

/-! Payloads that come in fragments. -/
namespace RmwCyclonedds
open Library

/-- The fragments of a payload as they are chained, with overlaps and duplicates; their ends are 32-bit numbers. -/
structure FragmentChain (payload : List Byte) where
  fragments : List Fragment
  nonempty : fragments ≠ []
  narrow : ∀ fragment ∈ fragments, fragment.maxp1 < 2 ^ 32
  delivers : Delivers payload 0 fragments

/-- The last byte comes with some fragment. -/
private theorem length_of_delivers {payload : List Byte} {chain : List Fragment} {off bound : Nat}
    (h : Delivers payload off chain) (hoff : off < bound) (hchain : ∀ fragment ∈ chain, fragment.maxp1 < bound) :
    payload.length < bound := by
  induction chain generalizing off with
  | nil =>
    have hend : off = payload.length := h
    omega
  | cons fragment rest ih =>
    obtain ⟨_,_,_,hrest⟩ := h
    obtain ⟨hfirst,hlater⟩ := List.forall_mem_cons.mp hchain
    exact ih hrest (Nat.max_lt.mpr ⟨hoff,hfirst⟩) hlater

namespace FragmentChain
variable {payload : List Byte}

theorem payload_length (chain : FragmentChain payload) : payload.length < 2 ^ 32 := length_of_delivers chain.delivers (by decide) chain.narrow

/-- A payload that fits the wire fits a serdata. -/
private theorem padded_le (h : payload.length < 2 ^ 32) : payload.length + SerdataRmw.nPadBytes payload.length ≤ sizeMax := by
  unfold SerdataRmw.nPadBytes sizeMax
  omega

/-- In a block with room for the payload it is put together, and nothing behind it is touched. -/
theorem copyFragments_payload (chain : FragmentChain payload) (block : SerdataRmw) (h : payload.length ≤ block.data.length) :
    copyFragments chain.fragments 0 0 block = .ok {block with data := payload ++ block.data.drop payload.length} :=
  copyFragments_eq chain.delivers h rfl

end FragmentChain

namespace Sertype
open SerdataRmw
variable {host : Endian} {root : StructValueType} {variant : SampleOrRequest} (s : Sertype host root variant)
  (heap : Heap) (kind : SerdataKind) {payload : List Byte}

variable (payload) in
private theorem setKeyFromSer_padded : ∃ key, s.setKeyFromSer heap ⟨kind,padded payload,[]⟩ = .ok ⟨kind,padded payload,key⟩ := by
  rw [setKeyFromSer]
  rcases s.extractInto_cases heap kind payload with ⟨key,hinto,_⟩ | ⟨⟨e,hinto⟩,_⟩
  · rw [hinto]
    exact ⟨key,rfl⟩
  · rw [hinto]
    exact ⟨[],rfl⟩

/-- Once there is a way to copy the payload, the serdata depends on nothing else. -/
private theorem wire_serdata {copy : SerdataRmw → Outcome SerdataRmw} (hcopy : ∀ d : SerdataRmw,
      payload.length ≤ d.data.length → copy d = .ok {d with data := payload ++ d.data.drop payload.length})
    (hlen : payload.length < 2 ^ 32) {key : List Byte}
    (hkey : s.setKeyFromSer heap ⟨kind,padded payload,[]⟩ = .ok ⟨kind,padded payload,key⟩) :
    Outcome.caught (do
      let d ← (make kind).resize heap payload.length
      let d ← copy d
      let d ← s.setKeyFromSer heap d
      return some d) none =
    .ok (if payload.length = 0 ∨ heap.provides (padded payload).length = true then some ⟨kind,padded payload,key⟩ else none) := by
  have hsize := FragmentChain.padded_le hlen
  rw [padded_length]
  by_cases hroom : payload.length = 0 ∨ heap.provides (payload.length + nPadBytes payload.length) = true
  · rw [s.wire_eq heap kind hcopy hsize hroom, if_pos hroom, hkey]
    rfl
  · rw [make, resize_eq heap kind [] hsize, if_neg hroom, if_neg hroom]
    rfl

/-- However a payload is fragmented, it is put together without a write outside of its bytes, and makes the serdata that
it makes in one piece or any others: its bytes with zeros up to a multiple of four. -/
theorem reassembly (chain : FragmentChain payload) :
    (∀ block : SerdataRmw, payload.length ≤ block.data.length → copyFragments chain.fragments 0 0 block =
      .ok {block with data := payload ++ block.data.drop payload.length}) ∧
    ∃ key, s.fromSer heap kind chain.fragments payload.length =
        .ok (if payload.length = 0 ∨ heap.provides (padded payload).length = true then some ⟨kind,padded payload,key⟩ else none) ∧
      ∀ iov : List (List Byte), iov.flatten = payload →
        s.fromSerIov heap kind iov payload.length = s.fromSer heap kind chain.fragments payload.length := by
  obtain ⟨key,hkey⟩ := s.setKeyFromSer_padded heap kind payload
  have hchain := s.wire_serdata heap kind chain.copyFragments_payload chain.payload_length hkey
  refine ⟨chain.copyFragments_payload,key,hchain,?_⟩
  rintro iov rfl
  exact (s.wire_serdata heap kind (copyIov_whole iov) chain.payload_length hkey).trans hchain.symm

/-! ### With memory for whatever is needed -/

section
variable {heap} (hprovides : ∀ n, heap.provides n = true)
include hprovides

/-- With memory for all of it, a payload in fragments makes a serdata. -/
theorem exists_fromSer {payload : List Byte} (chain : FragmentChain payload) :
    ∃ e, s.fromSer heap kind chain.fragments payload.length = .ok (some e) ∧ e.kind = kind ∧
      e.data = padded payload := by
  obtain ⟨key,hkey⟩ := s.setKeyFromSer_padded heap kind payload
  have hwire := s.wire_serdata heap kind chain.copyFragments_payload chain.payload_length hkey
  rw [if_pos (.inr (hprovides _))] at hwire
  exact ⟨_,hwire,rfl,rfl⟩

/-- A sample that becomes a serdata at all has its bytes in it, and room up to the announced size, padded. -/
theorem fromSample_data {m : Memory} {sample : Address} {bytes : List Byte} {size : Nat}
    (hbytes : s.cdrWriter.serialize m sample .sample = .ok bytes)
    (hsize : s.cdrWriter.getSerializedSize m sample .sample = .ok size) (hne : bytes ≠ []) {o : Option SerdataRmw}
    (h : s.fromSample heap .data m sample = .ok o) :
    ∃ e rest, o = some e ∧ e.kind = .data ∧ e.data = bytes ++ rest ∧
      e.data.length = size + nPadBytes size := by
  obtain ⟨keysize,hkeysize⟩ := s.cdrWriter.exists_getSerializedSize m sample .key
  rcases s.setKeyFromSample_cases m sample heap .data (s.cdrWriter.serialize_eq m sample .key) hkeysize with
    ⟨_,hno,_⟩ | ⟨_,_,_,hset⟩ | ⟨k,hset,_⟩
  · rw [hprovides] at hno
    cases hno
  · simp only [fromSample, hset, bind, Except.bind] at h
    cases h
  · rcases s.serializeInto_cases m sample heap .data k hbytes hsize hne with
      ⟨_,_,hno,_⟩ | ⟨_,hinto⟩ | ⟨_,hle,_,_,_,hinto⟩
    · rw [hprovides] at hno
      cases hno
    · simp only [fromSample, hset, hinto, bind, Except.bind] at h
      cases h
    · rw [s.fromSample_ok m sample heap .data hset hinto] at h
      cases h
      refine ⟨_,_,rfl,rfl,rfl,?_⟩
      rw [List.length_append, List.length_drop, SerdataRmw.blank_length]
      omega

end

end Sertype
end RmwCyclonedds
