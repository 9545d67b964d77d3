/-
# Making a frame

`Protocol::Mux` (`imp/device-update/Protocol.cpp`) writes a frame around the data.  It counts
the bytes in a `uint8_t` and puts the check code at the place that this count names; `DeMux`
finds the place from the sizes in the frame.  For frames of up to 255 bytes the two agree, and
no proper beginning of a frame is taken for a frame.
-/
import SignalEventLoop.Device.FrameParts

namespace SignalEventLoop.Device

open Lib

/-- The control code of a frame: two bits of the caller's code, and the switch of the
destination. -/
def muxControl (address : Option ℕ) (control_code : ℕ) : UInt8 :=
  (UInt8.ofNat control_code &&& 0x81) ||| if address.isSome then 4 else 0

/-- The section of the destination. -/
def muxAddress : Option ℕ → List UInt8
  | none => []
  | some address => 2 :: toBE 2 address

/-- The count of the bytes behind the first one. -/
def muxLength (data : List UInt8) (address : Option ℕ) : UInt8 :=
  UInt8.ofNat (4 + data.length + 1) + if address.isSome then 3 else 0

/-- What is written before the check code. -/
def muxBytes (data : List UInt8) (address : Option ℕ) (control_code : ℕ) : List UInt8 :=
  [muxLength data address, 0x55, 0xAA, muxControl address control_code,
    UInt8.ofNat data.length] ++ data ++ muxAddress address

/-- `Protocol::Mux`; `none` when the count is so small that the range for the check code has a
negative length. -/
def mux (data : List UInt8) (address : Option ℕ) (control_code : ℕ) : Option (List UInt8) :=
  let bytes := muxBytes data address control_code
  let length := (muxLength data address).toNat
  if length < 3 then none
  else some (bytes.take length ++ [genCheckCode (slice bytes 3 (length - 3))])

variable {data : List UInt8} {address : Option ℕ} {control_code : ℕ}

/-- The length of the whole frame. -/
def frameLength (data : List UInt8) (address : Option ℕ) : ℕ :=
  HEAD_SIZE + data.length + (if address.isSome then 3 else 0) + 1

lemma length_muxBytes (data : List UInt8) (address : Option ℕ) (control_code : ℕ) :
    (muxBytes data address control_code).length + 1 = frameLength data address := by
  cases address with
  | none => simp [muxBytes, muxAddress, frameLength, HEAD_SIZE]; omega
  | some address => simp [muxBytes, muxAddress, frameLength, HEAD_SIZE]; omega

lemma toNat_muxLength (h : frameLength data address ≤ 255) (control_code : ℕ) :
    (muxLength data address).toNat = (muxBytes data address control_code).length := by
  have hlength := length_muxBytes data address control_code
  rw [frameLength, HEAD_SIZE] at h hlength
  rw [muxLength]
  cases address with
  | none =>
    simp only [Option.isSome_none, if_false, Bool.false_eq_true, UInt8.toNat_add,
      UInt8.toNat_ofNat'] at *
    simp
    omega
  | some address =>
    simp only [Option.isSome_some, if_true, UInt8.toNat_add, UInt8.toNat_ofNat'] at *
    simp
    omega

/-- A frame of up to 255 bytes. -/
lemma mux_eq (h : frameLength data address ≤ 255) : mux data address control_code =
    some (muxBytes data address control_code ++
      [genCheckCode ((muxBytes data address control_code).drop 3)]) := by
  have hfive : HEAD_SIZE + data.length ≤ (muxBytes data address control_code).length := by
    simp [muxBytes, HEAD_SIZE]
    omega
  rw [HEAD_SIZE] at hfive
  have hslice : slice (muxBytes data address control_code) 3
      ((muxBytes data address control_code).length - 3) =
        (muxBytes data address control_code).drop 3 := by
    rw [slice, List.take_of_length_le (by rw [List.length_drop])]
  rw [mux]
  simp only [toNat_muxLength h control_code]
  rw [if_neg (by omega), List.take_length, hslice]

/-! ## The control code -/

/-- The bits of the control code. -/
lemma testBit_muxControl {i : ℕ} (hi : i < 8) :
    (muxControl address control_code).toNat.testBit i =
      if i = 0 ∨ i = 7 then control_code.testBit i else decide (i = 2) && address.isSome := by
  have hcode : (UInt8.ofNat control_code).toNat.testBit i = control_code.testBit i := by
    rw [UInt8.toNat_ofNat', Nat.testBit_mod_two_pow]
    simp [hi]
  have hmask : (0x81 : UInt8).toNat.testBit i = decide (i = 0 ∨ i = 7) := by
    interval_cases i <;> decide
  have hswitch : (if address.isSome then 4 else 0 : UInt8).toNat.testBit i =
      (decide (i = 2) && address.isSome) := by
    cases address.isSome with
    | false => simp
    | true => interval_cases i <;> decide
  rw [muxControl, UInt8.toNat_or, UInt8.toNat_and, Nat.testBit_or, Nat.testBit_and, hcode, hmask,
    hswitch]
  by_cases hends : i = 0 ∨ i = 7
  · have htwo : i ≠ 2 := by omega
    simp [hends, htwo]
  · simp [hends]

lemma dstAddrSwitch_muxControl :
    dstAddrSwitch (muxControl address control_code) = address.isSome := by
  rw [dstAddrSwitch, testBit_muxControl (by norm_num)]
  simp

lemma srcAddrSwitch_muxControl : srcAddrSwitch (muxControl address control_code) = false := by
  rw [srcAddrSwitch, testBit_muxControl (by norm_num)]
  simp

/-! ## The frame is found -/

/-- A frame of `Mux`. -/
def muxFrame (data : List UInt8) (address : Option ℕ) (control_code : ℕ) : List UInt8 :=
  muxBytes data address control_code ++ [genCheckCode ((muxBytes data address control_code).drop 3)]

lemma length_muxFrame :
    (muxFrame data address control_code).length = frameLength data address := by
  rw [muxFrame, List.length_append, List.length_singleton, length_muxBytes]

/-- The section of the destination has the two bytes of the address. -/
def muxParts (data : List UInt8) (address : Option ℕ) (control_code : ℕ) : FrameParts :=
  ⟨muxLength data address, muxControl address control_code, data, address.map (toBE 2), none⟩

lemma muxFrame_eq : muxFrame data address control_code =
    (muxParts data address control_code).bytes := by
  rw [muxFrame, muxBytes, FrameParts.bytes, FrameParts.checked, checkedPart, muxParts]
  cases address with
  | none => simp [muxAddress]
  | some address => simp [muxAddress]

lemma muxParts_fits (h : frameLength data address ≤ 255) :
    (muxParts data address control_code).Fits := by
  rw [frameLength, HEAD_SIZE] at h
  refine ⟨?_, srcAddrSwitch_muxControl, fun hnil => ?_, ?_, fun addresses hdst => ?_,
    fun addresses hsrc => ?_⟩
  · exact dstAddrSwitch_muxControl.trans Option.isSome_map.symm
  · cases hnil
  · change data.length < 256
    omega
  · obtain ⟨n, -, rfl⟩ := Option.map_eq_some_iff.mp hdst
    rw [length_toBE]
    norm_num
  · cases hsrc

/-- What `DeMux` finds in a frame, whatever is behind it, and in its beginnings. -/
structure RoundTrip (data : List UInt8) (address : Option ℕ) (control_code : ℕ)
    (frame : List UInt8) : Prop where
  length : frame.length = frameLength data address
  found : ∀ trailing, ∃ control : UInt8,
    deMux (frame ++ trailing) = (0, some ⟨data, none, control⟩) ∧
      dataLength (frame ++ trailing) = data.length ∧
      ∀ i < 8, control.toNat.testBit i =
        if i = 0 ∨ i = 7 then control_code.testBit i else decide (i = 2) && address.isSome
  incomplete : ∀ part, part <+: frame → part ≠ frame → deMux part = (1, none)

/-- **The device protocol round trip**: for all data, with or without an address, whose frame has
up to 255 bytes, and for every control code, `DeMux` finds the data in the frame of `Mux` with
any bytes behind it, and asks for more at every proper beginning of the frame. -/
theorem deMux_mux (data : List UInt8) (address : Option ℕ) (control_code : ℕ)
    (h : frameLength data address ≤ 255) :
    ∃ frame, mux data address control_code = some frame ∧
      RoundTrip data address control_code frame := by
  have hfits : (muxParts data address control_code).Fits := muxParts_fits h
  refine ⟨muxFrame data address control_code, mux_eq h, length_muxFrame, fun trailing => ?_,
    fun part hpart hne => ?_⟩
  · rw [muxFrame_eq]
    refine ⟨muxControl address control_code, ?_, hfits.dataLength_append trailing,
      fun i hi => testBit_muxControl hi⟩
    have hcontrol : ((muxParts data address control_code).bytes ++ trailing).getD 3 0 =
        muxControl address control_code := rfl
    have haddress : srcAddress ((muxParts data address control_code).bytes ++ trailing) = none := by
      rw [srcAddress, hcontrol, srcAddrSwitch_muxControl]
      rfl
    rw [hfits.deMux_append trailing, haddress]
    rfl
  · rw [muxFrame_eq] at hpart hne
    refine hfits.deMux_part hpart (lt_of_le_of_ne hpart.length_le fun hlength => ?_)
    exact hne (hpart.eq_of_length hlength)

/-- One byte of data for the device 5. -/
theorem deMux_mux_enter : ∃ frame, mux [0xE0] (some 5) 0x81 = some frame ∧
    RoundTrip [0xE0] (some 5) 0x81 frame :=
  deMux_mux [0xE0] (some 5) 0x81 (by decide)

example : mux [0xE0] (some 5) 0x81 = some [9, 0x55, 0xAA, 0x85, 1, 0xE0, 2, 0, 5, 0x63] := by decide

end SignalEventLoop.Device
