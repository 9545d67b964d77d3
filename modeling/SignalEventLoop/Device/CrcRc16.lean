/-
# The checksum of an upload

`Iutils::crc_rc16` (`imp/common/iutils.cpp`) shifts the bits of a message and sixteen zeros through
a register and cancels the bit 16 with the polynomial.  The register holds the remainder of the
bits that went in, so that the result is the CRC-16/XMODEM of the message.

The bytes are counted in an `unsigned char`: a message of more than 255 bytes has no end.
-/
import SignalEventLoop.Device.Updater
import SignalEventLoop.Lib.BitPoly

namespace SignalEventLoop.Device

open Lib Polynomial

/-! ## Model -/

/-- The loop over the bits of a byte. -/
def crcByte (CRC_DATA : ℕ) (byte : UInt8) : ℕ :=
  [7, 6, 5, 4, 3, 2, 1, 0].foldl (fun crc i => crcShift crc (byte.toNat / 2 ^ i % 2)) CRC_DATA

/-- The loop over the bytes; there is no result when `p` leaves the data or the fuel is used up. -/
def crcLoop (data : List UInt8) (data_len : ℕ) : ℕ → UInt8 → ℕ → ℕ → Option ℕ
  | 0, _, _, _ => none
  | fuel + 1, Lenght_Buf, p, CRC_DATA =>
    if Lenght_Buf.toNat < data_len then
      data[p]?.bind fun byte =>
        crcLoop data data_len fuel (Lenght_Buf + 1) (p + 1) (crcByte CRC_DATA byte)
    else some CRC_DATA

/-- `Iutils::crc_rc16` -/
def crc_rc16 (fuel : ℕ) (data : List UInt8) : Option UInt16 :=
  (crcLoop data data.length fuel 0 0 0).map fun CRC_DATA =>
    UInt16.ofNat ((List.replicate 16 0).foldl crcShift CRC_DATA)

/-! ## The usual checksum -/

/-- CRC-16/XMODEM of a message: the remainder of the message with sixteen zeros behind it. -/
noncomputable def crcPoly (data : List UInt8) : (ZMod 2)[X] :=
  (bitPoly (ofBE data) * X ^ 16) %ₘ (X ^ 16 + X ^ 12 + X ^ 5 + 1)

/-- One bit of the byte-wise algorithm. -/
def xmodemBit (crc : BitVec 16) : BitVec 16 :=
  if crc.msb then (crc <<< 1) ^^^ 0x1021#16 else crc <<< 1

def xmodemByte (crc : BitVec 16) (byte : UInt8) : BitVec 16 :=
  xmodemBit^[8] (crc ^^^ (byte.toBitVec.setWidth 16 <<< 8))

/-- The byte-wise algorithm, with the initial value 0. -/
def xmodem (data : List UInt8) : BitVec 16 := data.foldl xmodemByte 0

variable {data : List UInt8} {crc k fuel : ℕ} {p : (ZMod 2)[X]}

/-! ## The register -/

lemma hasTop_G16 : HasTop 0x11021 16 := by decide

/-- `G16(X)` -/
lemma bitPoly_G16 : bitPoly 0x11021 = X ^ 16 + X ^ 12 + X ^ 5 + 1 := by
  have hxor : 0x11021 = 2 ^ 16 ^^^ 2 ^ 12 ^^^ 2 ^ 5 ^^^ 2 ^ 0 := by decide
  rw [hxor]
  rw [bitPoly_xor, bitPoly_xor, bitPoly_xor, bitPoly_two_pow, bitPoly_two_pow, bitPoly_two_pow,
    bitPoly_two_pow, pow_zero]

lemma foldl_crcShift_spec (hcrc : bitPoly crc = p %ₘ bitPoly 0x11021) {bits : List ℕ}
    (hbits : ∀ b ∈ bits, b < 2) :
    bitPoly (bits.foldl crcShift crc) =
      (p * X ^ bits.length + bitPoly (Nat.ofDigits 2 bits.reverse)) %ₘ bitPoly 0x11021 :=
  foldl_remShift_spec hasTop_G16 hcrc hbits

lemma foldl_crcShift_zeros (hcrc : bitPoly crc = p %ₘ bitPoly 0x11021) (n : ℕ) :
    bitPoly ((List.replicate n 0).foldl crcShift crc) = (p * X ^ n) %ₘ bitPoly 0x11021 := by
  have hzero : Nat.ofDigits 2 (List.replicate n 0) = 0 := by
    induction n with
    | zero => rfl
    | succ n ih => rw [List.replicate_succ, Nat.ofDigits_cons, ih]
  rw [foldl_crcShift_spec hcrc fun b hb => by rw [List.eq_of_mem_replicate hb]; norm_num,
    List.reverse_replicate, hzero, List.length_replicate, bitPoly_zero, add_zero]

/-- The bits of a byte, the highest one first. -/
def byteBits (byte : UInt8) : List ℕ :=
  [7, 6, 5, 4, 3, 2, 1, 0].map fun i => byte.toNat / 2 ^ i % 2

lemma ofDigits_byteBits (byte : UInt8) : Nat.ofDigits 2 (byteBits byte).reverse = byte.toNat := by
  have hlt := byte.toNat_lt
  simp only [byteBits, List.map_cons, List.map_nil, List.reverse_cons, List.reverse_nil,
    List.nil_append, List.cons_append, Nat.ofDigits_cons, Nat.ofDigits_nil]
  omega

/-- A byte goes into the register. -/
lemma crcByte_spec (hcrc : bitPoly crc = p %ₘ bitPoly 0x11021) (byte : UInt8) :
    bitPoly (crcByte crc byte) = (p * X ^ 8 + bitPoly byte.toNat) %ₘ bitPoly 0x11021 := by
  have hlt : ∀ b ∈ byteBits byte, b < 2 := by
    intro b hb
    obtain ⟨i, -, rfl⟩ := List.mem_map.mp hb
    exact Nat.mod_lt _ (by norm_num)
  have hbits := foldl_crcShift_spec hcrc hlt
  rw [ofDigits_byteBits, byteBits, List.foldl_map] at hbits
  exact hbits

lemma bitPoly_ofBE_concat (data : List UInt8) (byte : UInt8) :
    bitPoly (ofBE (data ++ [byte])) = bitPoly (ofBE data) * X ^ 8 + bitPoly byte.toNat := by
  have hfront := bitPoly_mul_two_pow_add (ofBE data) byte.toNat_lt
  rwa [show 2 ^ 8 = 256 by norm_num, ← ofBE_concat] at hfront

/-- The whole message goes into the register. -/
lemma foldl_crcByte_spec (data : List UInt8) :
    bitPoly (data.foldl crcByte 0) = bitPoly (ofBE data) %ₘ bitPoly 0x11021 := by
  induction data using List.reverseRecOn with
  | nil => simp [ofBE]
  | append_singleton data byte ih =>
    rw [List.foldl_append, List.foldl_cons, List.foldl_nil, crcByte_spec ih, bitPoly_ofBE_concat]

lemma crcRc16_eq (data : List UInt8) :
    crcRc16 data = (List.replicate 16 0).foldl crcShift (data.foldl crcByte 0) := rfl

lemma bitPoly_crcRc16 (data : List UInt8) : bitPoly (crcRc16 data) = crcPoly data := by
  rw [crcRc16_eq, crcPoly, ← bitPoly_G16, foldl_crcShift_zeros (foldl_crcByte_spec data)]

/-- A remainder has 16 bits. -/
lemma lt_of_bitPoly_eq_mod (h : bitPoly crc = p %ₘ bitPoly 0x11021) : crc < 2 ^ 16 := by
  rw [← degree_bitPoly_lt_iff, h, ← hasTop_G16.degree]
  exact degree_modByMonic_lt p hasTop_G16.monic

lemma crcRc16_lt (data : List UInt8) : crcRc16 data < 2 ^ 16 := by
  refine lt_of_bitPoly_eq_mod (p := bitPoly (ofBE data) * X ^ 16) ?_
  rw [bitPoly_crcRc16, crcPoly, bitPoly_G16]

/-! ## The byte-wise algorithm -/

/-- The bit that the one register cancels is the bit that leaves the other one. -/
lemma toNat_xmodemBit (v : BitVec 16) : (xmodemBit v).toNat = crcShift v.toNat 0 := by
  have hv := v.isLt
  have hlt : crcShift v.toNat 0 < 2 ^ 16 := remShift_lt hasTop_G16 hv (by norm_num)
  have htop : v.msb = (v.toNat * 2 + 0).testBit 16 := by
    rw [add_zero, Nat.testBit_succ, Nat.mul_div_cancel _ (by norm_num), BitVec.msb_eq_getMsbD_zero]
    rfl
  have hshift : (v <<< 1).toNat = v.toNat * 2 % 2 ^ 16 := by
    rw [BitVec.toNat_shiftLeft, Nat.shiftLeft_eq, pow_one]
  rw [← Nat.mod_eq_of_lt hlt, crcShift, xmodemBit, htop]
  split_ifs
  · rw [BitVec.toNat_xor, hshift, Nat.xor_mod_two_pow]
    rfl
  · exact hshift

lemma toNat_iterate_xmodemBit (v : BitVec 16) (n : ℕ) :
    (xmodemBit^[n] v).toNat = (List.replicate n 0).foldl crcShift v.toNat := by
  induction n generalizing v with
  | zero => rfl
  | succ n ih => rw [Function.iterate_succ_apply, ih, toNat_xmodemBit, List.replicate_succ,
      List.foldl_cons]

lemma bitPoly_xmodem (data : List UInt8) : bitPoly (xmodem data).toNat = crcPoly data := by
  rw [crcPoly, ← bitPoly_G16]
  induction data using List.reverseRecOn with
  | nil => simp [xmodem, ofBE]
  | append_singleton data byte ih =>
    have hbyte := byte.toNat_lt
    -- the byte is added at the upper end of the register, eight bits ahead
    have hstart : bitPoly (xmodem data ^^^ (byte.toBitVec.setWidth 16 <<< 8)).toNat =
        (bitPoly (ofBE data) * X ^ 16 + bitPoly byte.toNat * X ^ 8) %ₘ bitPoly 0x11021 := by
      have hhigh : (byte.toBitVec.setWidth 16 <<< 8).toNat = 2 ^ 8 * byte.toNat + 0 := by
        simp only [BitVec.toNat_shiftLeft, BitVec.toNat_setWidth, UInt8.toNat_toBitVec,
          Nat.shiftLeft_eq]
        omega
      have hself : bitPoly (2 ^ 8 * byte.toNat + 0) %ₘ bitPoly 0x11021 =
          bitPoly (2 ^ 8 * byte.toNat + 0) := by
        rw [modByMonic_eq_self_iff hasTop_G16.monic, hasTop_G16.degree]
        exact degree_bitPoly_lt_iff.mpr (by omega)
      rw [BitVec.toNat_xor, bitPoly_xor, ih, hhigh, add_modByMonic, ← hself,
        bitPoly_mul_two_pow_add byte.toNat (by norm_num), bitPoly_zero, add_zero]
    have hmoved : (bitPoly (ofBE data) * X ^ 16 + bitPoly byte.toNat * X ^ 8) * X ^ 8 =
        (bitPoly (ofBE data) * X ^ 8 + bitPoly byte.toNat) * X ^ 16 := by ring
    rw [xmodem, List.foldl_append, List.foldl_cons, List.foldl_nil, ← xmodem, xmodemByte,
      toNat_iterate_xmodemBit, foldl_crcShift_zeros hstart, bitPoly_ofBE_concat, hmoved]

lemma toNat_xmodem (data : List UInt8) : (xmodem data).toNat = crcRc16 data :=
  bitPoly_injective ((bitPoly_xmodem data).trans (bitPoly_crcRc16 data).symm)

/-! ## The message with its checksum -/

/-- The remainder is taken away again. -/
lemma crcPoly_append_crc (data : List UInt8) : crcPoly (data ++ toBE 2 (crcRc16 data)) = 0 := by
  have hvalue : ofBE (data ++ toBE 2 (crcRc16 data)) = 2 ^ 16 * ofBE data + crcRc16 data := by
    rw [ofBE_append, length_toBE, ofBE_toBE (crcRc16_lt data)]
    norm_num
  have hrem := dvd_modByMonic_sub (bitPoly (ofBE data) * X ^ 16) (bitPoly 0x11021)
  rw [CharTwo.sub_eq_add, add_comm] at hrem
  rw [crcPoly, hvalue, bitPoly_mul_two_pow_add _ (crcRc16_lt data), bitPoly_crcRc16, crcPoly,
    ← bitPoly_G16, modByMonic_eq_zero_iff_dvd hasTop_G16.monic]
  exact Dvd.dvd.mul_right hrem _

lemma crcRc16_append_crc (data : List UInt8) : crcRc16 (data ++ toBE 2 (crcRc16 data)) = 0 := by
  apply bitPoly_injective
  rw [bitPoly_crcRc16, crcPoly_append_crc, bitPoly_zero]

/-! ## The loop over the bytes -/

lemma crcLoop_eq (hlen : data.length ≤ 255) (hk : k ≤ data.length)
    (hfuel : data.length < fuel + k) :
    crcLoop data data.length fuel (UInt8.ofNat k) k crc =
      some ((data.drop k).foldl crcByte crc) := by
  induction fuel generalizing k crc with
  | zero => omega
  | succ fuel ih =>
    have hcount : (UInt8.ofNat k).toNat = k := by
      rw [UInt8.toNat_ofNat']
      omega
    -- the counter of eight bits does not come around
    rw [crcLoop, hcount]
    split_ifs with hlt
    · have hnext : UInt8.ofNat k + 1 = UInt8.ofNat (k + 1) := by
        rw [UInt8.ofNat_add]
        rfl
      rw [List.getElem?_eq_getElem hlt, Option.bind_some, hnext, ih (by omega) (by omega),
        List.drop_eq_getElem_cons hlt, List.foldl_cons]
    · rw [List.drop_of_length_le (by omega), List.foldl_nil]

lemma crc_rc16_eq (hlen : data.length ≤ 255) (hfuel : data.length < fuel) :
    crc_rc16 fuel data = some (UInt16.ofNat (crcRc16 data)) := by
  have hloop : crcLoop data data.length fuel 0 0 0 = some (data.foldl crcByte 0) :=
    crcLoop_eq hlen (Nat.zero_le _) (by omega)
  rw [crc_rc16, hloop]
  rfl

/-- The counter does not get to the end of a longer message. -/
lemma crcLoop_eq_none {data_len : ℕ} (hlen : 255 < data_len) (Lenght_Buf : UInt8) :
    crcLoop data data_len fuel Lenght_Buf k crc = none := by
  induction fuel generalizing Lenght_Buf k crc with
  | zero => rfl
  | succ fuel ih =>
    have hcount := Lenght_Buf.toNat_lt
    rw [crcLoop, if_pos (by omega), Option.bind_eq_none_iff]
    exact fun byte _ => ih (Lenght_Buf + 1)

/-- **The messages with a checksum.** -/
theorem crc_rc16_returns_iff (data : List UInt8) :
    (∃ fuel crc, crc_rc16 fuel data = some crc) ↔ data.length ≤ 255 := by
  constructor
  · rintro ⟨fuel, crc, h⟩
    by_contra hlen
    rw [crc_rc16, crcLoop_eq_none (by omega), Option.map_none] at h
    exact Option.some_ne_none crc h.symm
  · exact fun hlen => ⟨data.length + 1, _, crc_rc16_eq hlen (Nat.lt_succ_self _)⟩

/-- **The checksum of an upload** is the CRC-16/XMODEM, and it makes the CRC of the message 0. -/
theorem crc_rc16_xmodem (data : List UInt8) (hlen : data.length ≤ 255) :
    ∃ crc : UInt16, (∀ fuel, data.length < fuel → crc_rc16 fuel data = some crc) ∧
      bitPoly crc.toNat = crcPoly data ∧ crc.toBitVec = xmodem data ∧
      crcPoly (data ++ toBE 2 crc.toNat) = 0 ∧ xmodem (data ++ toBE 2 crc.toNat) = 0 ∧
      ∀ fuel, data.length + 2 < fuel → data.length + 2 ≤ 255 →
        crc_rc16 fuel (data ++ toBE 2 crc.toNat) = some 0 := by
  have hcrc : (UInt16.ofNat (crcRc16 data)).toNat = crcRc16 data :=
    UInt16.toNat_ofNat_of_lt (crcRc16_lt data)
  refine ⟨UInt16.ofNat (crcRc16 data), fun fuel hfuel => crc_rc16_eq hlen hfuel, ?_, ?_, ?_, ?_, ?_⟩
  · rw [hcrc, bitPoly_crcRc16]
  · apply BitVec.eq_of_toNat_eq
    rw [UInt16.toNat_toBitVec, hcrc, toNat_xmodem]
  · rw [hcrc, crcPoly_append_crc]
  · apply BitVec.eq_of_toNat_eq
    rw [hcrc, toNat_xmodem, crcRc16_append_crc]
    rfl
  · intro fuel hfuel hshort
    have hlength : (data ++ toBE 2 (crcRc16 data)).length = data.length + 2 := by
      rw [List.length_append, length_toBE]
    rw [hcrc, crc_rc16_eq (by omega) (by omega), crcRc16_append_crc]
    rfl

/-- The check value of the checksum is that of `"123456789"`. -/
theorem crc_rc16_xmodem_check : crc_rc16 10 [49, 50, 51, 52, 53, 54, 55, 56, 57] = some 0x31C3 ∧
    xmodem [49, 50, 51, 52, 53, 54, 55, 56, 57] = 0x31C3 := by
  obtain ⟨crc, hcrc, -, hxmodem, -⟩ :=
    crc_rc16_xmodem [49, 50, 51, 52, 53, 54, 55, 56, 57] (by decide)
  have hvalue : crc_rc16 10 [49, 50, 51, 52, 53, 54, 55, 56, 57] = some 0x31C3 := by decide +kernel
  refine ⟨hvalue, ?_⟩
  rw [← hxmodem]
  rw [hcrc 10 (by decide), Option.some.injEq] at hvalue
  rw [hvalue]
  rfl

end SignalEventLoop.Device
