/-
# Where the parts of a frame lie

`DeMux` adds up the sizes that a buffer announces: the length of the data, then the sizes of
the sections of addresses.  Here the sums are functions of the buffer, and a valid frame at the
beginning of a buffer is described by them.  `DeMux` accepts exactly the valid frames, and it
reads nothing behind the end of the buffer.

The documentation of `DeMux` has three results: `0` for a frame, `1` for too few data, and `-1`
for bytes that are not a frame.  The last one is never returned.
-/
import SignalEventLoop.Device.Protocol

namespace SignalEventLoop.Device

open Lib

variable {input l : List UInt8}

/-! ## Bytes of a buffer -/

/-- The byte behind a part of known length. -/
lemma getD_behind {l a b : List UInt8} {x : UInt8} {i : ℕ} (h : l = a ++ x :: b)
    (hi : i = a.length) : l.getD i 0 = x := by
  rw [h, hi, List.getD_eq_getElem?_getD, List.getElem?_append_right le_rfl]
  simp

lemma getD_of_beginning {i : ℕ} (h : input <+: l) (hi : i < input.length) :
    input.getD i 0 = l.getD i 0 := by
  obtain ⟨t, rfl⟩ := h
  rw [List.getD_eq_getElem?_getD, List.getD_eq_getElem?_getD, List.getElem?_append_left hi]

/-! ## The layout -/

/-- The length of the data, as the head announces it. -/
def dataLength (input : List UInt8) : ℕ := (input.getD 4 0).toNat

/-- The place behind the section of the destination. -/
def dstEnd (input : List UInt8) : ℕ :=
  HEAD_SIZE + dataLength input +
    if dstAddrSwitch (input.getD 3 0) then
      1 + (input.getD (HEAD_SIZE + dataLength input) 0).toNat
    else 0

/-- The size of the section of the source. -/
def srcSize (input : List UInt8) : ℕ := (input.getD (dstEnd input) 0).toNat

/-- The place of the check code. -/
def checkPos (input : List UInt8) : ℕ :=
  dstEnd input + if srcAddrSwitch (input.getD 3 0) then 1 + srcSize input else 0

/-- The address of the source. -/
def srcAddress (input : List UInt8) : Option ℕ :=
  if srcAddrSwitch (input.getD 3 0) then some (ofBE (slice input (dstEnd input + 1) 2)) else none

/-- The check code is right. -/
def CheckRight (input : List UInt8) : Prop :=
  input.getD (checkPos input) 0 = genCheckCode (slice input 3 (checkPos input - 3))

/-- A valid frame at the beginning of the buffer. -/
structure ValidFront (input : List UInt8) : Prop where
  flag1 : input.getD 1 0 = 0x55
  flag2 : input.getD 2 0 = 0xAA
  src_ne_zero : srcAddrSwitch (input.getD 3 0) = true → srcSize input ≠ 0
  complete : checkPos input < input.length
  check : CheckRight input

lemma dstEnd_le_checkPos : dstEnd input ≤ checkPos input := Nat.le_add_right _ _

lemma data_le_dstEnd : HEAD_SIZE + dataLength input ≤ dstEnd input := Nat.le_add_right _ _

lemma data_lt_dstEnd (h : dstAddrSwitch (input.getD 3 0) = true) :
    HEAD_SIZE + dataLength input < dstEnd input := by
  rw [dstEnd, if_pos h]
  omega

lemma dstEnd_lt_checkPos (h : srcAddrSwitch (input.getD 3 0) = true) :
    dstEnd input < checkPos input := by
  rw [checkPos, if_pos h]
  omega

lemma dstEnd_le (input : List UInt8) : dstEnd input ≤ 516 := by
  have hdata : dataLength input < 256 := (input.getD 4 0).toNat_lt
  have hdst := (input.getD (HEAD_SIZE + dataLength input) 0).toNat_lt
  rw [dstEnd, HEAD_SIZE] at *
  split_ifs <;> omega

/-- There are two sections of up to 255 bytes behind the data. -/
lemma checkPos_le (input : List UInt8) : checkPos input ≤ 772 := by
  have hend := dstEnd_le input
  have hsrc : srcSize input < 256 := (input.getD (dstEnd input) 0).toNat_lt
  rw [checkPos]
  split_ifs
  · omega
  · omega

/-! ## `DeMux` accepts the valid frames -/

lemma dstSection_layout : dstSection input (HEAD_SIZE + dataLength input) =
    if dstAddrSwitch (input.getD 3 0) = true ∧ HEAD_SIZE + dataLength input + 1 ≥ input.length then
      .error 1
    else .ok (dstEnd input) := by
  rw [dstSection, dstEnd]
  by_cases hdst : dstAddrSwitch (input.getD 3 0) = true
  · simp only [hdst, if_true, true_and, Nat.add_assoc]
  · simp only [hdst, if_false, false_and, Nat.add_zero, Bool.false_eq_true]

lemma srcSection_layout : srcSection input (dstEnd input) =
    if srcAddrSwitch (input.getD 3 0) = true then
      if dstEnd input + 1 ≥ input.length then .error 1
      else if srcSize input = 0 then .error (-1)
      else if checkPos input ≥ input.length then .error 1
      else .ok (checkPos input, srcAddress input)
    else .ok (checkPos input, srcAddress input) := by
  rw [srcSection, checkPos, srcAddress, srcSize]
  by_cases hsrc : srcAddrSwitch (input.getD 3 0) = true
  · simp only [hsrc, if_true, Nat.add_assoc]
  · simp only [hsrc, if_false, Nat.add_zero, Bool.false_eq_true]

lemma deMuxBody_of_valid (h : ValidFront input) : deMuxBody input =
    .ok ⟨slice input HEAD_SIZE (dataLength input), srcAddress input, input.getD 3 0⟩ := by
  have hcomplete := h.complete
  have hle : HEAD_SIZE + dataLength input ≤ dstEnd input := data_le_dstEnd
  have hle' : dstEnd input ≤ checkPos input := dstEnd_le_checkPos
  have hflags : ¬ (input.getD 1 0 ≠ 0x55 ∨ input.getD 2 0 ≠ 0xAA) := by
    rw [h.flag1, h.flag2]
    decide
  have hdst : dstSection input (HEAD_SIZE + dataLength input) = .ok (dstEnd input) := by
    rw [dstSection_layout, if_neg]
    rintro ⟨hdst, hge⟩
    have := data_lt_dstEnd hdst
    omega
  have hsrc : srcSection input (dstEnd input) = .ok (checkPos input, srcAddress input) := by
    rw [srcSection_layout]
    by_cases hsrc : srcAddrSwitch (input.getD 3 0) = true
    · have := dstEnd_lt_checkPos hsrc
      rw [if_pos hsrc, if_neg (by omega), if_neg (h.src_ne_zero hsrc), if_neg (by omega)]
    · rw [if_neg hsrc]
  have hcheck : checkSection input (checkPos input) (srcAddress input) =
      .ok ⟨slice input HEAD_SIZE (dataLength input), srcAddress input, input.getD 3 0⟩ := by
    have hright := h.check
    rw [CheckRight] at hright
    rw [checkSection, if_neg (by omega), if_neg (not_not.mpr hright), dataLength]
  rw [deMuxBody, if_neg (by omega), if_neg hflags, ← dataLength, hdst, Except.bind, hsrc,
    Except.bind]
  exact hcheck

/-- The checks of `DeMux`, one after the other. -/
lemma validFront_of_ok {out : DeMuxed} (h : deMuxBody input = .ok out) : ValidFront input := by
  rw [deMuxBody, ← dataLength] at h
  split_ifs at h with hlen hflags
  rw [dstSection_layout] at h
  split_ifs at h with hdst
  · cases h
  · rw [Except.bind, srcSection_layout] at h
    rw [not_or, not_not, not_not] at hflags
    -- what is left is the section of the source, then the check code
    have hcheck : ∀ address, checkSection input (checkPos input) address = .ok out →
        checkPos input < input.length ∧ CheckRight input := by
      intro address h
      rw [checkSection] at h
      split_ifs at h with hend hright
      exact ⟨by omega, not_not.mp hright⟩
    by_cases hsrc : srcAddrSwitch (input.getD 3 0) = true
    · rw [if_pos hsrc] at h
      split_ifs at h with hsize hzero hend
      · cases h
      · cases h
      · cases h
      · obtain ⟨hcomplete, hright⟩ := hcheck _ h
        exact ⟨hflags.1, hflags.2, fun _ => hzero, hcomplete, hright⟩
    · rw [if_neg hsrc] at h
      obtain ⟨hcomplete, hright⟩ := hcheck _ h
      exact ⟨hflags.1, hflags.2, fun h => absurd h hsrc, hcomplete, hright⟩

lemma deMux_of_valid (h : ValidFront input) : deMux input =
    (0, some ⟨slice input HEAD_SIZE (dataLength input), srcAddress input, input.getD 3 0⟩) := by
  rw [deMux, deMuxBody_of_valid h]
  rfl

lemma deMux_of_not_valid (h : ¬ ValidFront input) : deMux input = (1, none) := by
  rcases deMux_eq input with ⟨out, hout⟩ | hout
  · rw [deMux] at hout
    split at hout
    · rename_i hok
      exact absurd (validFront_of_ok hok) h
    · simp at hout
  · exact hout

/-- **A frame is accepted exactly when it is valid.** -/
lemma deMux_eq_zero_iff : (deMux input).1 = 0 ↔ ValidFront input := by
  by_cases h : ValidFront input
  · simp [deMux_of_valid h, h]
  · simp [deMux_of_not_valid h, h]

/-! ## Buffers that agree -/

/-- The layout is decided by the bytes in front of the check code. -/
lemma dstEnd_congr (h : ∀ i < dstEnd input, l.getD i 0 = input.getD i 0) :
    dstEnd l = dstEnd input := by
  have hle : HEAD_SIZE + dataLength input ≤ dstEnd input := data_le_dstEnd
  rw [HEAD_SIZE] at hle
  have hdata : dataLength l = dataLength input := by
    rw [dataLength, dataLength, h 4 (by omega)]
  rw [dstEnd, hdata, h 3 (by omega)]
  by_cases hdst : dstAddrSwitch (input.getD 3 0) = true
  · rw [h _ (data_lt_dstEnd hdst), dstEnd]
  · rw [dstEnd, if_neg hdst, if_neg hdst]

lemma checkPos_congr (h : ∀ i < checkPos input, l.getD i 0 = input.getD i 0) :
    checkPos l = checkPos input := by
  have hle : dstEnd input ≤ checkPos input := dstEnd_le_checkPos
  have hdst : dstEnd l = dstEnd input := dstEnd_congr fun i hi => h i (by omega)
  have hle' : HEAD_SIZE + dataLength input ≤ dstEnd input := data_le_dstEnd
  rw [HEAD_SIZE] at hle'
  rw [checkPos, srcSize, hdst, h 3 (by omega)]
  by_cases hsrc : srcAddrSwitch (input.getD 3 0) = true
  · rw [h _ (dstEnd_lt_checkPos hsrc), checkPos, srcSize]
  · rw [checkPos, if_neg hsrc, if_neg hsrc]

lemma slice_of_beginning {off len : ℕ} (h : input <+: l) (hle : off + len ≤ input.length) :
    slice l off len = slice input off len := by
  obtain ⟨t, rfl⟩ := h
  rw [slice, slice, List.drop_append_of_le_length (by omega),
    List.take_append_of_le_length (by rw [List.length_drop]; omega)]

/-- What is behind a valid frame does not matter. -/
lemma ValidFront.of_beginning (h : ValidFront input) (hl : input <+: l) :
    checkPos l = checkPos input ∧ ValidFront l := by
  have hcomplete := h.complete
  have hle : dstEnd input ≤ checkPos input := dstEnd_le_checkPos
  have hfive : HEAD_SIZE + dataLength input ≤ dstEnd input := data_le_dstEnd
  rw [HEAD_SIZE] at hfive
  have hget : ∀ i < input.length, l.getD i 0 = input.getD i 0 :=
    fun i hi => (getD_of_beginning hl hi).symm
  have hpos : checkPos l = checkPos input := checkPos_congr fun i hi => hget i (by omega)
  have hdst : dstEnd l = dstEnd input := dstEnd_congr fun i hi => hget i (by omega)
  refine ⟨hpos, ?_, ?_, ?_, ?_, ?_⟩
  · rw [hget 1 (by omega), h.flag1]
  · rw [hget 2 (by omega), h.flag2]
  · rw [srcSize, hdst, hget 3 (by omega), hget _ (by omega)]
    exact h.src_ne_zero
  · rw [hpos]
    exact hcomplete.trans_le hl.length_le
  · rw [CheckRight, hpos, hget _ hcomplete, slice_of_beginning hl (by omega)]
    exact h.check

/-! ## The bytes that are read -/

/-- `dstSection` with checked reads. -/
def dstSectionIn (input : List UInt8) (control_code : UInt8) (cur_length : ℕ) :
    Option (Except ℤ ℕ) :=
  if dstAddrSwitch control_code then
    if cur_length + 1 ≥ input.length then some (.error 1)
    else input[cur_length]?.map fun size => .ok (cur_length + 1 + size.toNat)
  else some (.ok cur_length)

/-- `srcSection` with checked reads, also of the two bytes of the address. -/
def srcSectionIn (input : List UInt8) (control_code : UInt8) (cur_length : ℕ) :
    Option (Except ℤ (ℕ × Option ℕ)) :=
  if srcAddrSwitch control_code then
    if cur_length + 1 ≥ input.length then some (.error 1)
    else
      input[cur_length]?.bind fun size =>
        if size.toNat = 0 then some (.error (-1))
        else if cur_length + 1 + size.toNat ≥ input.length then some (.error 1)
        else (load input (cur_length + 1) 2).map fun address =>
          .ok (cur_length + 1 + size.toNat, some (ofBE address))
  else some (.ok (cur_length, none))

/-- `checkSection` with checked reads; the data are only pointed to. -/
def checkSectionIn (input : List UInt8) (control_code : UInt8) (data_length cur_length : ℕ)
    (address : Option ℕ) : Option (Except ℤ DeMuxed) :=
  if cur_length + 1 > input.length then some (.error 1)
  else
    (load input 3 (cur_length - 3)).bind fun checked =>
      input[cur_length]?.map fun byte =>
        if byte ≠ genCheckCode checked then .error (-1)
        else .ok ⟨slice input HEAD_SIZE data_length, address, control_code⟩

/-- `deMuxBody` with checked reads; `none` when a byte is read behind the input. -/
def deMuxBodyIn (input : List UInt8) : Option (Except ℤ DeMuxed) :=
  if HEAD_SIZE ≥ input.length then some (.error 1)
  else do
    let start_flag1 ← input[1]?
    let start_flag2 ← input[2]?
    if start_flag1 ≠ 0x55 ∨ start_flag2 ≠ 0xAA then some (.error (-1))
    else
      let control_code ← input[3]?
      let data_length ← input[4]?
      match ← dstSectionIn input control_code (HEAD_SIZE + data_length.toNat) with
      | .error ret => some (.error ret)
      | .ok cur_length =>
        match ← srcSectionIn input control_code cur_length with
        | .error ret => some (.error ret)
        | .ok (cur_length, address) =>
          checkSectionIn input control_code data_length.toNat cur_length address

/-- `Protocol::DeMux` with checked reads. -/
def deMuxIn (input : List UInt8) : Option (ℤ × Option DeMuxed) :=
  (deMuxBodyIn input).map fun
    | .ok out => (boolRet 0, some out)
    | .error ret => (boolRet ret, none)

lemma getElem?_of_lt {i : ℕ} (hi : i < input.length) : input[i]? = some (input.getD i 0) := by
  rw [List.getElem?_eq_getElem hi, List.getD_eq_getElem?_getD, List.getElem?_eq_getElem hi,
    Option.getD_some]

lemma load_of_le {off len : ℕ} (h : off + len ≤ input.length) :
    load input off len = some (slice input off len) := load_eq_some.mpr ⟨h, rfl⟩

lemma dstSectionIn_eq (cur_length : ℕ) :
    dstSectionIn input (input.getD 3 0) cur_length = some (dstSection input cur_length) := by
  rw [dstSectionIn, dstSection]
  split_ifs with hdst hlen
  · rfl
  · rw [getElem?_of_lt (by omega), Option.map_some]
  · rfl

lemma srcSectionIn_eq (cur_length : ℕ) :
    srcSectionIn input (input.getD 3 0) cur_length = some (srcSection input cur_length) := by
  rw [srcSectionIn, srcSection]
  split_ifs with hsrc hlen
  · rfl
  · rw [getElem?_of_lt (by omega), Option.bind_some]
    dsimp only
    split_ifs with hzero hend
    · rfl
    · rfl
    · -- the section has a byte, and one more is behind it
      rw [load_of_le (by omega), Option.map_some]
  · rfl

lemma checkSectionIn_eq {cur_length : ℕ} (hcur : 3 ≤ cur_length) (address : Option ℕ) :
    checkSectionIn input (input.getD 3 0) (input.getD 4 0).toNat cur_length address =
      some (checkSection input cur_length address) := by
  rw [checkSectionIn, checkSection]
  by_cases hlen : cur_length + 1 > input.length
  · rw [if_pos hlen, if_pos hlen]
  · rw [if_neg hlen, if_neg hlen, load_of_le (by omega), Option.bind_some,
      getElem?_of_lt (by omega), Option.map_some]

/-- The sections only go forward. -/
lemma le_of_dstSection {cur_length next : ℕ} (h : dstSection input cur_length = .ok next) :
    cur_length ≤ next := by
  rw [dstSection] at h
  split_ifs at h
  · obtain rfl := Except.ok.inj h
    omega
  · obtain rfl := Except.ok.inj h
    exact le_rfl

lemma le_of_srcSection {cur_length next : ℕ} {address : Option ℕ}
    (h : srcSection input cur_length = .ok (next, address)) : cur_length ≤ next := by
  rw [srcSection] at h
  dsimp only at h
  split_ifs at h
  · obtain ⟨rfl, -⟩ := Prod.mk.inj (Except.ok.inj h)
    omega
  · obtain ⟨rfl, -⟩ := Prod.mk.inj (Except.ok.inj h)
    exact le_rfl

lemma deMuxBodyIn_eq (input : List UInt8) : deMuxBodyIn input = some (deMuxBody input) := by
  rw [deMuxBodyIn, deMuxBody]
  by_cases hlen : HEAD_SIZE ≥ input.length
  · rw [if_pos hlen, if_pos hlen]
  · have hfive : 5 < input.length := not_le.mp hlen
    rw [if_neg hlen, if_neg hlen, getElem?_of_lt (by omega), getElem?_of_lt (by omega),
      getElem?_of_lt (by omega), getElem?_of_lt (by omega)]
    simp only [Option.bind_eq_bind, Option.bind_some, dstSectionIn_eq]
    split_ifs with hflags
    · rfl
    · cases hdst : dstSection input (HEAD_SIZE + (input.getD 4 0).toNat) with
      | error ret => rfl
      | ok cur_length =>
        have hcur := le_of_dstSection hdst
        simp only [Except.bind, srcSectionIn_eq, Option.bind_some]
        cases hsrc : srcSection input cur_length with
        | error ret => rfl
        | ok out =>
          have hnext := le_of_srcSection hsrc
          rw [HEAD_SIZE] at hcur
          exact checkSectionIn_eq (by omega) out.2

/-- **`DeMux` stays in the buffer**: no byte behind the input is read, and when a frame is found,
the data and the check code lie in the input. -/
theorem deMux_in_bounds (input : List UInt8) :
    deMuxIn input = some (deMux input) ∧
      ∀ out, deMux input = (0, some out) →
        HEAD_SIZE + dataLength input ≤ checkPos input ∧ checkPos input < input.length ∧
          out.data = slice input HEAD_SIZE (dataLength input) ∧
          out.data.length = dataLength input ∧
          input[checkPos input]? = some (genCheckCode (slice input 3 (checkPos input - 3))) := by
  constructor
  · rw [deMuxIn, deMuxBodyIn_eq]
    rfl
  · intro out hout
    have hvalid : ValidFront input := deMux_eq_zero_iff.mp (congrArg Prod.fst hout)
    have hle : HEAD_SIZE + dataLength input ≤ checkPos input :=
      data_le_dstEnd.trans dstEnd_le_checkPos
    have hcomplete := hvalid.complete
    rw [deMux_of_valid hvalid] at hout
    obtain rfl := Option.some.inj (Prod.mk.inj hout).2
    refine ⟨hle, hcomplete, rfl, length_slice (by omega), ?_⟩
    rw [getElem?_of_lt hcomplete]
    exact congrArg some hvalid.check

/-- A frame of two bytes of data with the address of its source. -/
theorem deMux_in_bounds_source :
    deMux [10, 0x55, 0xAA, 0x88, 2, 0xE0, 3, 2, 0, 5, 0x6E] =
        (0, some ⟨[0xE0, 3], some 5, 0x88⟩) ∧
      checkPos [10, 0x55, 0xAA, 0x88, 2, 0xE0, 3, 2, 0, 5, 0x6E] <
        [10, 0x55, 0xAA, 0x88, 2, 0xE0, 3, 2, 0, 5, 0x6E].length := by
  have hout : deMux [10, 0x55, 0xAA, 0x88, 2, 0xE0, 3, 2, 0, 5, 0x6E] =
      (0, some ⟨[0xE0, 3], some 5, 0x88⟩) := by decide
  exact ⟨hout, ((deMux_in_bounds _).2 _ hout).2.1⟩

end SignalEventLoop.Device
