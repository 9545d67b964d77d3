/-
# The frames of the device protocol

`Protocol::DeMux` (`imp/device-update/Protocol.cpp`) looks for a frame at the beginning of a
buffer.  A frame is its length, the two flags, the control code, the length of the data, the
data, the two sections of addresses that the control code announces, and the check code.

`DeMux` is documented to tell a buffer that is not a frame (`-1`) from a frame that is not
complete (`1`).  Its variable `ret` is a `bool`, and both become 1.
-/
import SignalEventLoop.Lib.BigEndian
import SignalEventLoop.Lib.ByteMem

namespace SignalEventLoop.Device

open Lib

/-! ## Taking a frame apart -/

/-- `Protocol::GenCheckCode`. -/
def genCheckCode (data : List UInt8) : UInt8 := data.foldl (· ^^^ ·) 0

def dstAddrSwitch (control_code : UInt8) : Bool := control_code.toNat.testBit 2

def srcAddrSwitch (control_code : UInt8) : Bool := control_code.toNat.testBit 3

def controlFrameSwitch (control_code : UInt8) : Bool := control_code.toNat.testBit 7

/-- The outputs of `DeMux`.  The address is not assigned when the frame has none. -/
structure DeMuxed where
  data : List UInt8
  address : Option ℕ
  control_code : UInt8
deriving DecidableEq

/-- `sizeof(Head)`. -/
def HEAD_SIZE : ℕ := 5

/-- The section of the destination: `cur_length` behind it, or the value of `ret`. -/
def dstSection (input : List UInt8) (cur_length : ℕ) : Except ℤ ℕ :=
  if dstAddrSwitch (input.getD 3 0) then
    if cur_length + 1 ≥ input.length then .error 1
    else .ok (cur_length + 1 + (input.getD cur_length 0).toNat)
  else .ok cur_length

/-- The section of the source: `cur_length` behind it and the address. -/
def srcSection (input : List UInt8) (cur_length : ℕ) : Except ℤ (ℕ × Option ℕ) :=
  if srcAddrSwitch (input.getD 3 0) then
    if cur_length + 1 ≥ input.length then .error 1
    else
      let src_addr_size := (input.getD cur_length 0).toNat
      if src_addr_size = 0 then .error (-1)
      else if cur_length + 1 + src_addr_size ≥ input.length then .error 1
      else .ok (cur_length + 1 + src_addr_size, some (ofBE (slice input (cur_length + 1) 2)))
  else .ok (cur_length, none)

/-- The end of `DeMux`, behind the sections. -/
def checkSection (input : List UInt8) (cur_length : ℕ) (address : Option ℕ) :
    Except ℤ DeMuxed :=
  if cur_length + 1 > input.length then .error 1
  else if input.getD cur_length 0 ≠ genCheckCode (slice input 3 (cur_length - 3)) then
    .error (-1)
  else .ok ⟨slice input HEAD_SIZE (input.getD 4 0).toNat, address, input.getD 3 0⟩

/-- The body of `DeMux`: the outputs, or the value that is assigned to `ret`. -/
def deMuxBody (input : List UInt8) : Except ℤ DeMuxed :=
  if HEAD_SIZE ≥ input.length then .error 1
  else if input.getD 1 0 ≠ 0x55 ∨ input.getD 2 0 ≠ 0xAA then .error (-1)
  else
    (dstSection input (HEAD_SIZE + (input.getD 4 0).toNat)).bind fun cur_length =>
      (srcSection input cur_length).bind fun (cur_length, address) =>
        checkSection input cur_length address

/-- The value of an `int` that was stored in a `bool`. -/
def boolRet (ret : ℤ) : ℤ := if ret = 0 then 0 else 1

/-- `Protocol::DeMux`. -/
def deMux (input : List UInt8) : ℤ × Option DeMuxed :=
  match deMuxBody input with
  | .ok out => (boolRet 0, some out)
  | .error ret => (boolRet ret, none)

/-! ## What the caller sees -/

lemma ne_zero_of_deMuxBody {input : List UInt8} {ret : ℤ} (h : deMuxBody input = .error ret) :
    ret ≠ 0 := by
  rintro rfl
  rw [deMuxBody] at h
  split_ifs at h with h₁ h₂
  · simp at h
  · simp at h
  · cases hdst : dstSection input (HEAD_SIZE + (input.getD 4 0).toNat) with
    | error ret =>
      rw [hdst] at h
      rw [dstSection] at hdst
      split_ifs at hdst
      simp_all [Except.bind]
    | ok cur =>
      rw [hdst, Except.bind] at h
      cases hsrc : srcSection input cur with
      | error ret =>
        rw [hsrc] at h
        simp only [srcSection] at hsrc
        split_ifs at hsrc <;> simp_all [Except.bind]
      | ok out =>
        simp only [hsrc, Except.bind, checkSection] at h
        split_ifs at h <;> simp_all

/-- **A buffer that is not a frame looks like a frame that is not complete.** -/
lemma deMux_eq (input : List UInt8) :
    (∃ out, deMux input = (0, some out)) ∨ deMux input = (1, none) := by
  rw [deMux]
  split
  · exact Or.inl ⟨_, rfl⟩
  · rename_i ret h
    rw [boolRet, if_neg (ne_zero_of_deMuxBody h)]
    exact Or.inr rfl

/-! ## Frames -/

/-- A section of addresses. -/
def addressSection : Option (List UInt8) → List UInt8
  | none => []
  | some addresses => UInt8.ofNat addresses.length :: addresses

@[simp] lemma addressSection_none : addressSection none = [] := rfl

@[simp] lemma addressSection_some (addresses : List UInt8) :
    addressSection (some addresses) = UInt8.ofNat addresses.length :: addresses := rfl

/-- The part of a frame that has a check code. -/
def checkedPart (control_code : UInt8) (data : List UInt8) (dst src : Option (List UInt8)) :
    List UInt8 :=
  control_code :: UInt8.ofNat data.length :: data ++ addressSection dst ++ addressSection src

/-- A valid frame with the control switch. -/
structure Frame where
  length : UInt8
  control_code : UInt8
  data : List UInt8
  dst : Option (List UInt8)
  src : Option (List UInt8)
  controlSwitch : controlFrameSwitch control_code = true
  dstSwitch : dstAddrSwitch control_code = dst.isSome
  srcSwitch : srcAddrSwitch control_code = src.isSome
  src_ne_nil : src ≠ some []
  length_le : (checkedPart control_code data dst src).length + 4 ≤ 255

namespace Frame

variable (f : Frame)

def checked : List UInt8 := checkedPart f.control_code f.data f.dst f.src

def bytes : List UInt8 := f.length :: 0x55 :: 0xAA :: f.checked ++ [genCheckCode f.checked]

lemma length_bytes : f.bytes.length =
    HEAD_SIZE + f.data.length + (addressSection f.dst).length +
      (addressSection f.src).length + 1 := by
  simp only [bytes, checked, checkedPart, HEAD_SIZE, List.length_append, List.length_cons,
    List.length_nil]
  omega

lemma length_bytes_le : f.bytes.length ≤ 255 := by
  have := f.length_le
  simp only [bytes, checked, List.length_append, List.length_cons, List.length_nil] at this ⊢
  omega

end Frame

end SignalEventLoop.Device
