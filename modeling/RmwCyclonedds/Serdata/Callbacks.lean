import RmwCyclonedds.Serdata.GetKeyhash

/-! Callbacks that parse stored bytes again, without a handler: printing and key hashes. -/
namespace RmwCyclonedds
open Library

/-- `snprintf_wrapper`: what is written so far and the room that is left. A text that does not fit is cut, and a zero
takes the last place. -/
def snprintfWrapper (text : Text) : Text × Nat → Text × Nat
  | (written,bufsize) =>
    if bufsize > 0 then
      (written ++ if text.length < bufsize then text else text.take (bufsize - 1) ++ [Char.ofNat 0],
        bufsize - min text.length bufsize)
    else (written,bufsize)

/-- `%02x`. -/
def hexByte (b : Byte) : Text := [Nat.digitChar (b.toNat / 16),Nat.digitChar (b.toNat % 16)]

def printKeyBytes : List Byte → Text × Nat → Text × Nat
  | [], buf => buf
  | b :: key, buf => if buf.2 > 0 then printKeyBytes key (snprintfWrapper (hexByte b) buf) else buf

namespace Sertype
variable {host : Endian} {root : StructValueType} {variant : SampleOrRequest} (s : Sertype host root variant)
  (formats : Formats) (md5 : List Byte → List Byte)

/-- `serdata_rmw_print`; the length of the text is returned. -/
def print (d : HeldSerdata) (bufsize : Nat) : Outcome Text := do
  let (buf,bufsize) := snprintfWrapper "] ".toList (printKeyBytes d.key (snprintfWrapper "[".toList ([],bufsize)))
  if bufsize > 0 then
    let text ← s.cdrReader.print formats bufsize (if d.typed then d.data else d.key) d.kind.what
    return buf ++ text
  else return buf

/-! ### Printing -/

private theorem snprintfWrapper_room {text : Text} {n : Nat} (written : Text) (h : text.length < n) :
    snprintfWrapper text (written,n) = (written ++ text,n - text.length) := by
  have hn : n > 0 := Nat.lt_of_le_of_lt (Nat.zero_le _) h
  rw [snprintfWrapper, if_pos hn, if_pos h, Nat.min_eq_left (Nat.le_of_lt h)]

private theorem printKeyBytes_room (key : List Byte) (written : Text) {n : Nat} (h : 2 * key.length < n) :
    ∃ text, printKeyBytes key (written,n) = (text,n - 2 * key.length) := by
  induction key generalizing written n with
  | nil => exact ⟨written,rfl⟩
  | cons b key ih =>
    rw [List.length_cons] at h
    have hroom : (hexByte b).length < n := by
      show 2 < n
      omega
    have hpos : n > 0 := Nat.lt_of_le_of_lt (Nat.zero_le _) hroom
    rw [printKeyBytes, if_pos hpos, snprintfWrapper_room written hroom]
    obtain ⟨text,htext⟩ := ih (written ++ hexByte b) (n := n - 2) (by omega)
    refine ⟨text,htext.trans ?_⟩
    rw [List.length_cons]
    congr 1
    omega

/-- Every room for the message is left by some buffer. -/
private theorem exists_bufsize (key : List Byte) {dstsize : Nat} (h : 0 < dstsize) : ∃ bufsize buf,
    snprintfWrapper "] ".toList (printKeyBytes key (snprintfWrapper "[".toList ([],bufsize))) = (buf,dstsize) := by
  have hfirst : snprintfWrapper "[".toList ([],dstsize + 2 * key.length + 3) = (['['],dstsize + 2 * key.length + 2) :=
    snprintfWrapper_room [] (by show 1 < _; omega)
  obtain ⟨text,hkey⟩ := printKeyBytes_room key ['['] (n := dstsize + 2 * key.length + 2) (by omega)
  have hlast : snprintfWrapper "] ".toList (text,dstsize + 2) = (text ++ "] ".toList,dstsize) :=
    snprintfWrapper_room text (by show 2 < _; omega)
  have hleft : dstsize + 2 * key.length + 2 - 2 * key.length = dstsize + 2 := by omega
  refine ⟨dstsize + 2 * key.length + 3,text ++ "] ".toList,?_⟩
  rw [hfirst, hkey, hleft, hlast]

/-- What print parses can be read through, or there is nothing in it to print. -/
def Printable (_ : Sertype host root variant) (d : HeldSerdata) : Prop :=
  d.kind.what = .key ∧ root.hasKeys = false ∨
    ∃ p, CDRReader.readThrough host root variant noShortcut d.kind.what (if d.typed then d.data else d.key) = .ok p

theorem print_returns_iff (d : HeldSerdata) :
    (∀ bufsize, ∃ text, s.print formats d bufsize = .ok text) ↔ s.Printable d := by
  rw [Printable, ← CDRReader.print_iff formats d.kind.what s.cdrReader]
  constructor
  · intro h dstsize
    by_cases hpos : 0 < dstsize
    · obtain ⟨bufsize,buf,hbuf⟩ := exists_bufsize d.key hpos
      obtain ⟨text,h⟩ := h bufsize
      rw [print, hbuf] at h
      simp only [hpos, if_true] at h
      obtain ⟨text',hprint,_⟩ := Outcome.bind_eq_ok h
      exact ⟨text',hprint⟩
    · obtain rfl : dstsize = 0 := Nat.eq_zero_of_not_pos hpos
      exact ⟨[],rfl⟩
  · intro h bufsize
    unfold print
    split
    next buf left _ =>
    obtain ⟨text,hprint⟩ := h left
    split
    · rw [hprint]
      exact ⟨_,rfl⟩
    · exact ⟨_,rfl⟩

/-! ### Both callbacks -/

/-- The callbacks return to the middleware, whatever the buffer is and whether MD5 is forced or not. -/
def CallbacksReturn (d : HeldSerdata) : Prop :=
  (∀ bufsize, ∃ text, s.print formats d bufsize = .ok text) ∧
    (d.typed = true → root.hasKeys = true → ∀ forceMd5, ∃ hash, s.getKeyhash md5 d forceMd5 = .ok hash)

/-- Exactly for serdata whose stored bytes can be read again, both callbacks return. -/
theorem callbacksReturn_iff (d : HeldSerdata) : s.CallbacksReturn formats md5 d ↔
    s.Printable d ∧ (d.typed = true → root.hasKeys = true → s.HashableKey d.key) := by
  refine and_congr (s.print_returns_iff formats d) ?_
  constructor
  · intro h htyped hk
    exact (s.getKeyhash_returns_iff md5 hk htyped).mp (h htyped hk)
  · intro h htyped hk
    exact (s.getKeyhash_returns_iff md5 hk htyped).mpr (h htyped hk)

/-! ### Serdata that are not printed -/

/-- Nothing can be read from bytes without an encoding header. -/
private theorem readThrough_nil (what : SampleOrKey) (p : Option Value × DeserializeCursor) :
    CDRReader.readThrough host root variant noShortcut what [] ≠ .ok p := by
  intro h
  cases h

private theorem setKeyFromSample_unserialized {heap : Heap} {kind : SerdataKind} {m : Memory} {sample : Address} {d : SerdataRmw}
    (h : s.setKeyFromSample heap (SerdataRmw.make kind) m sample = .ok d) : d.kind = kind ∧ d.data = [] := by
  obtain ⟨keysize,hkeysize⟩ := s.cdrWriter.exists_getSerializedSize m sample .key
  rcases s.setKeyFromSample_cases m sample heap kind (s.cdrWriter.serialize_eq m sample .key) hkeysize with
    ⟨_,_,herror⟩ | ⟨_,_,_,herror⟩ | ⟨key,hkey,_⟩
  · rw [herror] at h
    cases h
  · rw [herror] at h
    cases h
  · rw [hkey] at h
    cases h
    exact ⟨rfl,rfl⟩

/-- A sample that has come as an object through shared memory has not been serialized when it is printed. -/
theorem fromPsmx_unprintable {heap : Heap} {loan : LoanedSample} (hraw : loan.sampleState = .rawData) {d : HeldSerdata}
    (hd : s.fromPsmx heap loan = .ok (some d)) : ¬s.CallbacksReturn formats md5 d := by
  rintro ⟨hprint,_⟩
  rw [print_returns_iff] at hprint
  rw [fromPsmx, hraw] at hd
  have hattempt : ∃ r, s.setKeyFromSample heap (SerdataRmw.make .data) loan.memory loan.samplePtr = .ok r ∧
      d = ⟨r,true,some loan⟩ := by
    cases hset : s.setKeyFromSample heap (SerdataRmw.make .data) loan.memory loan.samplePtr with
    | error e =>
      simp only [LoanedSampleState.toSerdataKind, reduceCtorEq, or_self, if_false, hset, bind, Except.bind] at hd
      cases e <;> cases hd
    | ok r =>
      simp only [LoanedSampleState.toSerdataKind, reduceCtorEq, or_self, if_false, hset, bind, Except.bind] at hd
      cases hd
      exact ⟨r,rfl,rfl⟩
  obtain ⟨r,hset,rfl⟩ := hattempt
  obtain ⟨hkind,hdata⟩ := s.setKeyFromSample_unserialized hset
  rcases hprint with ⟨hkey,_⟩ | ⟨p,hp⟩
  · rw [hkind] at hkey
    cases hkey
  · rw [if_pos rfl, hdata] at hp
    exact readThrough_nil _ p hp

/-- Of a header without a message the key is missing and the message is not there to be printed. -/
theorem idMessage_throws : ∃ s : Sertype .little idMessage .sample,
    s.fromSer ⟨fun _ => true,fun _ => 0⟩ .data [⟨0,4,[0,1,0,0]⟩] 4 = .ok (some ⟨.data,[0,1,0,0],[]⟩) ∧
    ∀ (formats : Formats) (md5 : List Byte → List Byte),
      s.print formats ⟨⟨.data,[0,1,0,0],[]⟩,true,none⟩ 80 = .error (.throws DeserializeCursor.truncated) ∧
      s.getKeyhash md5 ⟨⟨.data,[0,1,0,0],[]⟩,true,none⟩ false = .error (.throws DeserializeCursor.truncated) := by
  obtain ⟨s,_⟩ := exists_of_bounds .little idMessage .sample rfl rfl rfl rfl
  exact ⟨s,rfl,fun formats md5 => ⟨rfl,rfl⟩⟩

end Sertype
end RmwCyclonedds
