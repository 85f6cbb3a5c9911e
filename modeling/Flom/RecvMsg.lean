import Flom.Lib.Tail
import Flom.MsgDeserialize

set_option autoImplicit false

namespace Flom

open Tail

def bytesOf (text : Name) : List UInt8 := text.map fun symbol => UInt8.ofNat symbol.toNat

def closingTag : List UInt8 := bytesOf (['<', '/'] ++ msgTagMsg ++ ['>'])

structure RecvMsg where
  rc : Rc
  buf : Nat → UInt8
  retrieved : Nat
  received : Option Nat

def bufWrite (buf : Nat → UInt8) (offset : Nat) (bytes : List UInt8) : Nat → UInt8 := fun index =>
  if offset ≤ index then (bytes[index - offset]?).getD (buf index) else buf index

-- `recv` is what the call returns that finds `retrieved` bytes in the buffer and asks for some
-- more.
def recvMsgLoop (failure : Rc) (recv : Nat → Nat → Int) (stream : List UInt8) (len : Nat) :
    Nat → (Nat → UInt8) → Nat → Nat → Option RecvMsg
  | 0, _, _, _ => none
  | fuel + 1, buf, retrieved, toBeRead =>
    let readBytes := recv retrieved toBeRead
    if readBytes ≤ 0 then some ⟨failure, buf, retrieved, none⟩
    else
      let filled := bufWrite buf retrieved ((stream.drop retrieved).take readBytes.toNat)
      let got := retrieved + readBytes.toNat
      -- too few bytes for a tag: the next call asks for as many as the first one
      if got < closingTag.length then recvMsgLoop failure recv stream len fuel filled got toBeRead
      else
        let j := matched closingTag (fun index => some (filled index)) got
        if j = closingTag.length then some ⟨.ok, bufWrite filled got [0], got, some got⟩
        else
          let missing := closingTag.length - j
          if len ≤ got + missing then some ⟨.bufferOverflow, filled, got, none⟩
          else recvMsgLoop failure recv stream len fuel filled got missing

/-- Every call but the last leaves room for another byte, so `len` calls are enough. -/
def recvMsg (failure : Rc) (recv : Nat → Nat → Int) (stream : List UInt8) (buf : Nat → UInt8)
    (len : Nat) :
    Option RecvMsg :=
  if len < closingTag.length then some ⟨.outOfRange, buf, 0, none⟩
  else recvMsgLoop failure recv stream len len buf 0 closingTag.length

def tcpRecvMsg := recvMsg .recvError

def tlsRecvMsg := recvMsg .sslReadError

structure FirstEnd (stream : List UInt8) (final : Nat) : Prop where
  inside : final ≤ stream.length
  ends : closingTag <:+ stream.take final
  first : ∀ earlier < final, ¬closingTag <:+ stream.take earlier

theorem closingTag_length : closingTag.length = 6 := by
  decide

theorem closingTag_nodup : closingTag.Nodup := by
  decide

theorem bufWrite_inside {buf : Nat → UInt8} {offset index : Nat} {bytes : List UInt8}
    (behind : offset ≤ index) (inside : index < offset + bytes.length) : bytes[index - offset]? =
    some (bufWrite buf offset bytes index) := by
  have near : index - offset < bytes.length := by omega
  rw [bufWrite, if_pos behind, List.getElem?_eq_getElem near, Option.getD_some]

theorem bufWrite_one (buf : Nat → UInt8) (offset : Nat) (byte : UInt8) :
    bufWrite buf offset [byte] offset = byte := by
  simp [bufWrite]

theorem bufWrite_before {buf : Nat → UInt8} {offset index : Nat} {bytes : List UInt8}
    (before : index < offset) :
    bufWrite buf offset bytes index = buf index := by
  rw [bufWrite, if_neg (Nat.not_le.mpr before)]

theorem bufWrite_behind {buf : Nat → UInt8} {offset index : Nat} {bytes : List UInt8}
    (behind : offset + bytes.length ≤ index) : bufWrite buf offset bytes index = buf index := by
  have none : bytes[index - offset]? = none := List.getElem?_eq_none (by omega)
  rw [bufWrite, none]
  split_ifs <;> rfl

structure Reading (stream : List UInt8) (final len : Nat) (memory buf : Nat → UInt8)
    (retrieved toBeRead : Nat) :
    Prop where
  text : ∀ index < retrieved, stream[index]? = some (buf index)
  outside : ∀ index, len ≤ index → buf index = memory index
  asks : 1 ≤ toBeRead
  ahead : retrieved + toBeRead ≤ final
  room : retrieved + toBeRead < len
  few : retrieved < closingTag.length → toBeRead = closingTag.length

def Framed (stream : List UInt8) (final len : Nat) (memory : Nat → UInt8) (result : RecvMsg) :
    Prop :=
  (final < len → result.rc = .ok ∧ result.received = some final ∧ result.retrieved = final ∧
      (∀ index < final, stream[index]? = some (result.buf index)) ∧ result.buf final = 0) ∧
    (len ≤ final → result.rc = .bufferOverflow ∧ result.received = none) ∧
    ∀ index, len ≤ index → result.buf index = memory index

section

variable {stream : List UInt8} {final len : Nat} {memory buf : Nat → UInt8}
  {retrieved toBeRead : Nat}

theorem Reading.fill (reading : Reading stream final len memory buf retrieved toBeRead)
    (first : FirstEnd stream final) {count : Nat} (bound : count ≤ toBeRead) :
    let filled := bufWrite buf retrieved ((stream.drop retrieved).take count)
    (∀ index < retrieved + count, stream[index]? = some (filled index)) ∧
      ∀ index, len ≤ index → filled index = memory index := by
  have inside := first.inside
  have ahead := reading.ahead
  have room := reading.room
  have long : ((stream.drop retrieved).take count).length = count := by
    rw [List.length_take, List.length_drop]
    omega
  constructor
  · intro index below
    by_cases before : index < retrieved
    · rw [bufWrite_before before]
      exact reading.text index before
    · rw [← bufWrite_inside (by omega) (by omega), List.getElem?_take_of_lt (by omega),
        List.getElem?_drop]
      congr 1
      omega
  · intro index behind
    rw [bufWrite_behind (by omega)]
    exact reading.outside index behind

theorem tails_of_text {position count : Nat} {filled : Nat → UInt8}
    (text : ∀ index < position, stream[index]? = some (filled index)) :
    Tails closingTag (fun index => some (filled index)) position count ↔
    Tails closingTag (stream[·]?) position count := by
  refine and_congr_right fun _ => and_congr_right fun inside => ?_
  constructor
  · intro same index below
    dsimp only
    rw [text _ (by omega)]
    exact same index below
  · intro same index below
    dsimp only
    rw [← text _ (by omega)]
    exact same index below

theorem matched_short (first : FirstEnd stream final) {filled : Nat → UInt8} {got : Nat}
    (text : ∀ index < got, stream[index]? = some (filled index)) (long : closingTag.length ≤ got)
    (before : got ≤ final) :
    let j := matched closingTag (fun index => some (filled index)) got
    (j = closingTag.length ↔ got = final) ∧ j ≤ closingTag.length ∧
      (got < final → got + (closingTag.length - j) ≤ final) := by
  intro j
  have inside := first.inside
  have whole : Tails closingTag (stream[·]?) final closingTag.length :=
    tails_of_suffix inside first.ends
  have found : Tails closingTag (stream[·]?) got j :=
    (tails_of_text text).mp (matched_tails closingTag_nodup long)
  constructor
  · constructor
    · intro all
      rw [all] at found
      by_contra other
      exact first.first got (by omega) (suffix_of_tails (by omega) found)
    · rintro rfl
      have least : closingTag.length ≤ j :=
        le_matched closingTag_nodup ((tails_of_text text).mpr whole)
      have most := found.1
      omega
  · refine ⟨found.1, fun shorter => ?_⟩
    by_cases straddles : final ≤ got + closingTag.length
    · have begun := whole.earlier before straddles
      have least := le_matched closingTag_nodup ((tails_of_text text).mpr begun)
      omega
    · omega

theorem recvMsgLoop_framed (failure : Rc) {recv : Nat → Nat → Int}
    (fragments : ∀ retrieved toBeRead, 1 ≤ toBeRead → 1 ≤ recv retrieved toBeRead ∧
      recv retrieved toBeRead ≤ toBeRead) (first : FirstEnd stream final) (late : 11 ≤ final)
    (large : 12 ≤ len) (fuel : Nat) (enough : len ≤ retrieved + fuel)
    (reading : Reading stream final len memory buf retrieved toBeRead) :
    ∃ result, recvMsgLoop failure recv stream len fuel buf retrieved toBeRead = some result ∧
      Framed stream final len memory result := by
  induction fuel generalizing buf retrieved toBeRead with
  | zero =>
    have room := reading.room
    omega
  | succ fuel ih =>
    obtain ⟨positive, bound⟩ := fragments retrieved toBeRead reading.asks
    obtain ⟨count, same⟩ := Int.eq_ofNat_of_zero_le (Int.le_trans (by decide) positive)
    have count_pos : 1 ≤ count := by omega
    have count_le : count ≤ toBeRead := by omega
    obtain ⟨text, outside⟩ := reading.fill first count_le
    have ahead := reading.ahead
    have room := reading.room
    have few := reading.few
    have six := closingTag_length
    rw [recvMsgLoop]
    simp only [same, Int.toNat_natCast]
    rw [if_neg (by omega)]
    split_ifs with short whole full
    · refine ih (by omega) ⟨text, outside, reading.asks, ?_, ?_, fun _ => few (by omega)⟩
      · rw [few (by omega)]
        omega
      · rw [few (by omega)]
        omega
    · have stop := (matched_short first text (by omega) (by omega)).1.mp whole
      refine ⟨_, rfl, fun fits => ⟨rfl, congrArg some stop, stop, fun index below => ?_, ?_⟩,
        fun small => ?_, ?_⟩
      · dsimp only
        rw [bufWrite_before (by omega)]
        exact text index (by omega)
      · rw [stop]
        exact bufWrite_one _ final 0
      · omega
      · intro index behind
        dsimp only
        rw [bufWrite_behind (by rw [List.length_singleton]; omega)]
        exact outside index behind
    · have other := mt (matched_short first text (by omega) (by omega)).1.mpr whole
      have far := (matched_short first text (by omega) (by omega)).2.2 (by omega)
      exact ⟨_, rfl, fun fits => by omega, fun _ => ⟨rfl, rfl⟩, outside⟩
    · have other := mt (matched_short first text (by omega) (by omega)).1.mpr whole
      have far := (matched_short first text (by omega) (by omega)).2.2 (by omega)
      have most := (matched_short first text (by omega) (by omega)).2.1
      exact ih (by omega) ⟨text, outside, by omega, far, by omega, fun small => by omega⟩

theorem recvMsg_framed (failure : Rc) {recv : Nat → Nat → Int}
    (fragments : ∀ retrieved toBeRead, 1 ≤ toBeRead → 1 ≤ recv retrieved toBeRead ∧
      recv retrieved toBeRead ≤ toBeRead) (first : FirstEnd stream final) (late : 11 ≤ final)
    (large : 12 ≤ len) :
    ∃ result, recvMsg failure recv stream memory len = some result ∧
    Framed stream final len memory result := by
  have six := closingTag_length
  have started : Reading stream final len memory memory 0 closingTag.length :=
    ⟨fun index below => absurd below (Nat.not_lt_zero _), fun _ _ =>
      rfl, by omega, by omega, by omega, fun _ => rfl⟩
  rw [recvMsg, if_neg (by omega)]
  exact recvMsgLoop_framed failure fragments first late large len (by omega) started

end

theorem recv_msg_frames (stream : List UInt8) (final len : Nat) (memory : Nat → UInt8)
    (recv : Nat → Nat → Int) (first : FirstEnd stream final) (late : 11 ≤ final) (large : 12 ≤ len)
    (fragments : ∀ retrieved toBeRead, 1 ≤ toBeRead →
      1 ≤ recv retrieved toBeRead ∧ recv retrieved toBeRead ≤ toBeRead) :
    (∃ result, tcpRecvMsg recv stream memory len = some result ∧
      Framed stream final len memory result) ∧
      ∃ result, tlsRecvMsg recv stream memory len = some result ∧
      Framed stream final len memory result := by
  constructor
  · exact recvMsg_framed .recvError fragments first late large
  · exact recvMsg_framed .sslReadError fragments first late large

def pipelined : List UInt8 :=
  bytesOf ['<', 'm', 's', 'g', '>', '<', '/', 'm', '<', '/', 'm', 's', 'g', '>', '<', 'm', 's', 'g',
    '>']

theorem recv_msg_frames_pipelined :
    let recv := fun (_ toBeRead : Nat) => ((min 5 toBeRead : Nat) : Int)
    (∃ result, tcpRecvMsg recv pipelined (fun _ => 7) 20 = some result ∧
      Framed pipelined 14 20 (fun _ => 7) result) ∧
      ∃ result, tlsRecvMsg recv pipelined (fun _ => 7) 20 = some result ∧
      Framed pipelined 14 20 (fun _ => 7) result :=
  recv_msg_frames pipelined 14 20 (fun _ => 7) (fun _ toBeRead => ((min 5 toBeRead : Nat) : Int))
    ⟨by decide, by decide, by decide⟩ (by decide) (by decide) (fun _ _ _ => by omega)

end Flom
