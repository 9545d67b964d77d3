/-
# Frames that the receiver can delimit

`packCanFrame` and `sendFrameToSpecificPhysicalAddr` write the length of what they send into one
byte, or leave it to the caller; and they add up the check sum in a loop that counts with a
`uint8_t` up to a length of 32 bits.  A length that does not fit is not refused: the loop does not
end, or, from `2 ^ 32 - 8` bytes on, the sum of the lengths wraps and `memcpy` overruns the new
block before the loop.  In both cases there is no frame.
-/
import SignalEventLoop.Can.UnpackFrames

namespace SignalEventLoop.Can

open Lib

variable {data frame : List UInt8}

/-- A head at the front is found at once. -/
lemma headAt_eq_zero (hfirst : data[0]? = some 0x55) (hlt : CAN_HEAD_SIZE < data.length) :
    headAt data = some 0 := by
  obtain _ | ⟨c, rest⟩ := data
  · simp at hfirst
  · obtain rfl : c = 0x55 := by simpa using hfirst
    obtain ⟨n, hn⟩ := Nat.exists_eq_add_of_lt hlt
    have htake : (0x55 :: rest).length - CAN_HEAD_SIZE = n + 1 := by omega
    rw [headAt, htake, List.take_succ_cons, List.findIdx?_cons]
    rfl

/-- The length byte is that of the frame, and the receiver takes the frame off whatever follows
it. -/
structure Delimited (frame : List UInt8) : Prop where
  length_byte : (frame.getD 3 0).toNat + CAN_HEAD_SIZE = frame.length
  unpacked : ∀ (cache : CanControlFrame) (rest : List UInt8), cache.data = frame ++ rest →
    (unpackCanFrame cache).1.data = frame ∧ cache.next.data = rest

lemma ValidFrame.delimited (h : ValidFrame frame) (hlt : CAN_HEAD_SIZE < frame.length) :
    Delimited frame := by
  refine ⟨h.length_eq.symm, ?_⟩
  intro cache rest hdata
  have hv : ValidAt cache.data 0 := hdata ▸ h.validAt_append rest
  have hlen : frameLen cache.data 0 = frame.length := hdata ▸ h.frameLen_append rest
  have hlong : CAN_HEAD_SIZE < cache.data.length := by
    rw [hdata, List.length_append]
    omega
  have hcall := unpackCanFrame_of_head (headAt_eq_zero hv.first hlong)
  have hcompared : checkAt cache.data 0 = comparedByte cache.data 0 := by
    rw [comparedByte, if_neg (by omega), List.getD_eq_getElem?_getD, hv.check]
    rfl
  have hcomplete := hv.complete
  rw [if_neg (by omega), if_pos hcompared, set_of_getElem? hv.second, hlen, slice, List.drop_zero,
    Nat.zero_add, hdata, List.take_left, List.drop_left] at hcall
  exact Prod.mk.inj hcall

/-- The search of the receiver stops six bytes before the end. -/
lemma Delimited.lt_length (h : Delimited frame) : CAN_HEAD_SIZE < frame.length := by
  by_contra hle
  have hge : CAN_HEAD_SIZE ≤ frame.length := by
    rw [← h.length_byte]
    omega
  have hnone : headAt (cacheOf 0 frame).data = none := by
    have hzero : frame.length - CAN_HEAD_SIZE = 0 := by omega
    rw [headAt]
    simp [cacheOf, hzero]
  have hframe := (h.unpacked (cacheOf 0 frame) [] (by simp [cacheOf])).1
  rw [(unpackCanFrame_of_no_head hnone).1] at hframe
  simp [← hframe, CAN_HEAD_SIZE] at hge

lemma checkSum_eq_some {sum : UInt8} : checkSum data = some sum ↔
    data.length < 2 ^ 8 ∧ UInt8.ofNat (0x100 - (data.drop 3).sum.toNat) = sum := by
  rw [checkSum]
  split_ifs with h
  · simp only [h, true_and, Option.some.injEq]
  · simp only [h, false_and]

/-- The head, the check byte that `checkSum` finds, and a length byte that fits. -/
lemma validFrame_of_checkSum {sum : UInt8} {body : List UInt8}
    (hsum : checkSum ([0x55, 0xAA, 0] ++ body) = some sum)
    (hlen : (body.getD 0 0).toNat + 3 = body.length) : ValidFrame ([0x55, 0xAA, sum] ++ body) := by
  obtain ⟨-, hsum⟩ := checkSum_eq_some.mp hsum
  have hframeLen : frameLen ([0x55, 0xAA, sum] ++ body) 0 = ([0x55, 0xAA, sum] ++ body).length := by
    rw [List.length_append, ← hlen]
    simp only [frameLen, CAN_HEAD_SIZE, List.length_cons, List.length_nil]
    rw [show ([0x55, 0xAA, sum] ++ body).getD (0 + 3) 0 = body.getD 0 0 from rfl]
    omega
  have hcheck : checkAt ([0x55, 0xAA, sum] ++ body) 0 = sum := by
    rw [checkAt, hframeLen, slice, ← hsum, List.take_of_length_le (by simp)]
    rfl
  exact ⟨⟨rfl, rfl, by rw [hframeLen, Nat.zero_add], by rw [hcheck]; rfl⟩, hframeLen.symm⟩

/-- From 248 bytes on the loop over the bytes of the frame does not end. -/
lemma packCanFrame_long (localAddr remoteAddr : UInt16) (remoteCanId : ℕ)
    (h : 248 ≤ data.length) : packCanFrame data localAddr remoteAddr remoteCanId = none := by
  simp only [packCanFrame]
  rw [if_neg (by omega), checkSum, if_neg, Option.map_none]
  simp
  omega

/-- **`packCanFrame`.** -/
lemma packCanFrame_delimited_iff (data : List UInt8) (localAddr remoteAddr : UInt16)
    (remoteCanId : ℕ) :
    (∃ frame, packCanFrame data localAddr remoteAddr remoteCanId = some frame ∧
      (frame.data ≠ [] → Delimited frame.data)) ↔ data.length ≤ 247 := by
  constructor
  · rintro ⟨frame, hframe, -⟩
    by_contra hlong
    rw [packCanFrame_long localAddr remoteAddr remoteCanId (by omega)] at hframe
    cases hframe
  · intro hle
    simp only [packCanFrame]
    split_ifs with hzero
    · exact ⟨.empty, rfl, fun h => absurd rfl h⟩
    · set body := [UInt8.ofNat (data.length + 2), (localAddr >>> 8).toUInt8, localAddr.toUInt8,
        (remoteAddr >>> 8).toUInt8, remoteAddr.toUInt8] ++ data with hbody
      have hlen : body.length = data.length + 5 := by
        simp [hbody]
      obtain ⟨sum, hsum⟩ : ∃ sum, checkSum ([0x55, 0xAA, 0] ++ body) = some sum := by
        refine ⟨_, checkSum_eq_some.mpr ⟨?_, rfl⟩⟩
        simp [hlen]
        omega
      have hbyte : (body.getD 0 0).toNat + 3 = body.length := by
        rw [hlen]
        simp [hbody]
        omega
      refine ⟨_, by rw [hsum]; rfl, fun _ => (validFrame_of_checkSum hsum hbyte).delimited ?_⟩
      simp [hlen, CAN_HEAD_SIZE]

/-- **`sendFrameToSpecificPhysicalAddr`.** The length byte is the first byte of the data. -/
lemma specificFrame_delimited_iff {data : List UInt8} (physicalAddr : UInt16) (hdata : data ≠ []) :
    (∃ frame, specificFrame physicalAddr data = some frame ∧ Delimited frame.data) ↔
      4 ≤ data.length ∧ data.length ≤ 252 ∧ (data.getD 0 0).toNat + 3 = data.length := by
  have hzero : data.length ≠ 0 := fun h => hdata (List.length_eq_zero_iff.mp h)
  rw [specificFrame, if_neg hzero]
  constructor
  · rintro ⟨frame, hframe, hdelimited⟩
    obtain ⟨sum, hsum, rfl⟩ := Option.map_eq_some_iff.mp hframe
    have hlt := (checkSum_eq_some.mp hsum).1
    have hlong := hdelimited.lt_length
    have hbyte := hdelimited.length_byte
    rw [show ([0x55, 0xAA, sum] ++ data).getD 3 0 = data.getD 0 0 from rfl] at hbyte
    simp only [List.length_append, List.length_cons, List.length_nil, CAN_HEAD_SIZE]
      at hlt hlong hbyte
    omega
  · rintro ⟨hge, hle, hbyte⟩
    obtain ⟨sum, hsum⟩ : ∃ sum, checkSum ([0x55, 0xAA, 0] ++ data) = some sum := by
      refine ⟨_, checkSum_eq_some.mpr ⟨?_, rfl⟩⟩
      simp
      omega
    refine ⟨_, by rw [hsum]; rfl, (validFrame_of_checkSum hsum hbyte).delimited ?_⟩
    simp [CAN_HEAD_SIZE]
    omega

/-- **Which lengths the builders can send.** `packCanFrame` builds a frame that the receiver can
delimit, or refuses, up to 247 bytes; `sendFrameToSpecificPhysicalAddr` builds one from 4 to 252
bytes that begin with the length of what is behind the two bytes of the address. -/
theorem builders_delimited_iff (data : List UInt8) (localAddr remoteAddr : UInt16)
    (remoteCanId : ℕ) (physicalAddr : UInt16) :
    ((∃ frame, packCanFrame data localAddr remoteAddr remoteCanId = some frame ∧
      (frame.data ≠ [] → Delimited frame.data)) ↔ data.length ≤ 247) ∧
    (data ≠ [] →
      ((∃ frame, specificFrame physicalAddr data = some frame ∧ Delimited frame.data) ↔
        4 ≤ data.length ∧ data.length ≤ 252 ∧ (data.getD 0 0).toNat + 3 = data.length)) :=
  ⟨packCanFrame_delimited_iff data localAddr remoteAddr remoteCanId,
    specificFrame_delimited_iff physicalAddr⟩

theorem builders_delimited_four :
    ∃ frame, specificFrame 0x2003 [0x01, 0x01, 0x04, 0x09] = some frame ∧
      Delimited frame.data :=
  ((builders_delimited_iff [0x01, 0x01, 0x04, 0x09] 0 0 0 0x2003).2 (by decide)).mpr (by decide)

/-- A frame of 256 bytes has a length byte, but the loop over its bytes does not end; and the
other builder sends a wrong length byte as it gets it. -/
theorem builders_not_delimited :
    packCanFrame (List.replicate 248 0) 1 0x104 0 = none ∧
      ∃ frame, specificFrame 0x2003 [0x05, 0x01, 0x04, 0x09] = some frame ∧
        (frame.data.getD 3 0).toNat + CAN_HEAD_SIZE ≠ frame.data.length := by
  refine ⟨packCanFrame_long _ _ _ ?_, _, rfl, by decide⟩
  rw [List.length_replicate]

end SignalEventLoop.Can
