/-
# Frames from their parts

A frame has a first byte, a control code, data and up to two sections of addresses.  When the
switches of the control code announce the sections and every size fits into its byte, the check
code stands where `DeMux` looks for it.  The frames of the receiver are of this kind, and the
ones that `Mux` makes.
-/
import SignalEventLoop.Device.FrameLayout

namespace SignalEventLoop.Device

open Lib

/-- What a frame is made of. -/
structure FrameParts where
  length : UInt8
  control_code : UInt8
  data : List UInt8
  dst : Option (List UInt8)
  src : Option (List UInt8)

namespace FrameParts

variable {p : FrameParts}

def checked (p : FrameParts) : List UInt8 := checkedPart p.control_code p.data p.dst p.src

def bytes (p : FrameParts) : List UInt8 :=
  p.length :: 0x55 :: 0xAA :: p.checked ++ [genCheckCode p.checked]

/-- The switches are right and the sizes fit into their bytes. -/
structure Fits (p : FrameParts) : Prop where
  dstSwitch : dstAddrSwitch p.control_code = p.dst.isSome
  srcSwitch : srcAddrSwitch p.control_code = p.src.isSome
  src_ne_nil : p.src ≠ some []
  data_lt : p.data.length < 256
  dst_lt : ∀ addresses, p.dst = some addresses → addresses.length < 256
  src_lt : ∀ addresses, p.src = some addresses → addresses.length < 256

lemma length_bytes (p : FrameParts) : p.bytes.length = p.checked.length + 4 := by
  simp [bytes]

lemma length_checked (p : FrameParts) : p.checked.length =
    2 + p.data.length + (addressSection p.dst).length + (addressSection p.src).length := by
  simp only [checked, checkedPart, List.length_append, List.length_cons]
  omega

/-- The byte of a size has the value of the size. -/
lemma toNat_size {n : ℕ} (h : n < 256) : (UInt8.ofNat n).toNat = n := by
  rw [UInt8.toNat_ofNat', Nat.mod_eq_of_lt h]

lemma Fits.dataLength_append (h : p.Fits) (rest : List UInt8) :
    dataLength (p.bytes ++ rest) = p.data.length :=
  toNat_size h.data_lt

lemma Fits.dataLength_bytes (h : p.Fits) : dataLength p.bytes = p.data.length :=
  toNat_size h.data_lt

lemma Fits.dstEnd_bytes (h : p.Fits) :
    dstEnd p.bytes = HEAD_SIZE + p.data.length + (addressSection p.dst).length := by
  have hcontrol : p.bytes.getD 3 0 = p.control_code := rfl
  rw [dstEnd, hcontrol, h.dataLength_bytes, h.dstSwitch]
  cases hdst : p.dst with
  | none => rfl
  | some addresses =>
    have hsize : p.bytes.getD (HEAD_SIZE + p.data.length) 0 = UInt8.ofNat addresses.length := by
      refine getD_behind
        (a := p.length :: 0x55 :: 0xAA :: p.control_code :: UInt8.ofNat p.data.length :: p.data)
        (b := addresses ++ addressSection p.src ++ [genCheckCode p.checked]) ?_ ?_
      · simp [bytes, checked, checkedPart, hdst]
      · simp only [HEAD_SIZE, List.length_cons]
        omega
    rw [Option.isSome_some, if_pos rfl, hsize, toNat_size (h.dst_lt addresses hdst),
      addressSection_some, List.length_cons, Nat.add_comm 1]

lemma Fits.srcSize_bytes (h : p.Fits) {addresses : List UInt8} (hsrc : p.src = some addresses) :
    srcSize p.bytes = addresses.length := by
  have hsize : p.bytes.getD (HEAD_SIZE + p.data.length + (addressSection p.dst).length) 0 =
      UInt8.ofNat addresses.length := by
    refine getD_behind
      (a := p.length :: 0x55 :: 0xAA :: p.control_code :: UInt8.ofNat p.data.length :: p.data ++
        addressSection p.dst)
      (b := addresses ++ [genCheckCode p.checked]) ?_ ?_
    · simp [bytes, checked, checkedPart, hsrc]
    · simp only [HEAD_SIZE, List.length_cons, List.length_append]
      omega
  rw [srcSize, h.dstEnd_bytes, hsize, toNat_size (h.src_lt addresses hsrc)]

/-- The check code stands behind the part that it is for. -/
lemma Fits.checkPos_bytes (h : p.Fits) : checkPos p.bytes = p.checked.length + 3 := by
  have hcontrol : p.bytes.getD 3 0 = p.control_code := rfl
  have hchecked := p.length_checked
  rw [checkPos, hcontrol, h.srcSwitch, h.dstEnd_bytes, HEAD_SIZE]
  cases hsrc : p.src with
  | none =>
    rw [hsrc, addressSection_none, List.length_nil] at hchecked
    rw [Option.isSome_none, if_neg Bool.false_ne_true]
    omega
  | some addresses =>
    rw [hsrc, addressSection_some, List.length_cons] at hchecked
    rw [Option.isSome_some, if_pos rfl, h.srcSize_bytes hsrc]
    omega

/-- **A frame is valid.** -/
lemma Fits.validFront (h : p.Fits) : ValidFront p.bytes := by
  have hpos := h.checkPos_bytes
  have hcontrol : p.bytes.getD 3 0 = p.control_code := rfl
  refine ⟨rfl, rfl, fun hswitch => ?_, ?_, ?_⟩
  · rw [hcontrol, h.srcSwitch] at hswitch
    obtain ⟨addresses, hsrc⟩ := Option.isSome_iff_exists.mp hswitch
    rw [h.srcSize_bytes hsrc]
    intro hzero
    exact h.src_ne_nil (by rw [hsrc, List.length_eq_zero_iff.mp hzero])
  · rw [hpos, length_bytes]
    exact Nat.lt_succ_self _
  · have hchecked : slice p.bytes 3 p.checked.length = p.checked := by
      simp [slice, bytes]
    rw [CheckRight, hpos, Nat.add_sub_cancel, hchecked]
    exact getD_behind (b := []) rfl rfl

/-- **A frame at the beginning is taken apart, whatever is behind it.** -/
lemma Fits.deMux_append (h : p.Fits) (rest : List UInt8) : deMux (p.bytes ++ rest) =
    (0, some ⟨p.data, srcAddress (p.bytes ++ rest), p.control_code⟩) := by
  obtain ⟨-, hvalid⟩ := h.validFront.of_beginning (List.prefix_append p.bytes rest)
  have hdata : slice (p.bytes ++ rest) HEAD_SIZE p.data.length = p.data := by
    simp [slice, bytes, checked, checkedPart, HEAD_SIZE]
  rw [deMux_of_valid hvalid, h.dataLength_append, hdata]
  rfl

/-- **A frame that is not complete is waited for.** -/
lemma Fits.deMux_part (h : p.Fits) {part : List UInt8} (hpart : part <+: p.bytes)
    (hlt : part.length < p.bytes.length) : deMux part = (1, none) := by
  refine deMux_of_not_valid fun hvalid => ?_
  obtain ⟨hpos, -⟩ := hvalid.of_beginning hpart
  have hcomplete := hvalid.complete
  rw [h.checkPos_bytes] at hpos
  rw [length_bytes] at hlt
  omega

end FrameParts

/-! ## The frames of the receiver -/

namespace Frame

variable {f : Frame} {input : List UInt8}

def parts (f : Frame) : FrameParts := ⟨f.length, f.control_code, f.data, f.dst, f.src⟩

lemma fits (f : Frame) : f.parts.Fits := by
  have hle := f.length_bytes_le
  rw [length_bytes] at hle
  refine ⟨f.dstSwitch, f.srcSwitch, f.src_ne_nil, ?_, fun addresses hdst => ?_,
    fun addresses hsrc => ?_⟩
  · change f.data.length < 256
    omega
  · have hdst' : f.dst = some addresses := hdst
    rw [hdst', addressSection_some, List.length_cons] at hle
    omega
  · have hsrc' : f.src = some addresses := hsrc
    rw [hsrc', addressSection_some, List.length_cons] at hle
    omega

theorem deMux_incomplete (h : input <+: f.bytes) (hlt : input.length < f.bytes.length) :
    deMux input = (1, none) :=
  f.fits.deMux_part h hlt

theorem deMux_frame (f : Frame) (rest : List UInt8) :
    ∃ address, deMux (f.bytes ++ rest) = (0, some ⟨f.data, address, f.control_code⟩) :=
  ⟨_, f.fits.deMux_append rest⟩

end Frame

end SignalEventLoop.Device
