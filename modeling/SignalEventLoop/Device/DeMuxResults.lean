/-
# The results of `DeMux`

`DeMux` is documented to return `-1` when it fails, `0` for a frame and `1` when there are too
few data (`imp/device-update/Protocol.h`).  A buffer has failed when no bytes behind it make a
valid frame of it.  `DeMux` returns `1` for all these buffers, too, since `ret` is a `bool`.
-/
import SignalEventLoop.Device.FrameLayout

namespace SignalEventLoop.Device

open Lib

variable {input : List UInt8}

/-- The three results, as they are documented. -/
def Documented (input : List UInt8) (ret : ℤ) : Prop :=
  (ret = -1 ↔ ¬ ∃ rest, ValidFront (input ++ rest)) ∧
    (ret = 1 ↔ (∃ rest, ValidFront (input ++ rest)) ∧ ¬ ValidFront input) ∧
    (ret = 0 ↔ ValidFront input)

/-- As far as they are in the buffer, the flags and the check code are right, and the section of
the source is not empty. -/
structure Promising (input : List UInt8) : Prop where
  flag1 : 1 < input.length → input.getD 1 0 = 0x55
  flag2 : 2 < input.length → input.getD 2 0 = 0xAA
  src_ne_zero : srcAddrSwitch (input.getD 3 0) = true → dstEnd input < input.length →
    srcSize input ≠ 0
  check : checkPos input < input.length → CheckRight input

lemma Promising.of_append {rest : List UInt8} (h : ValidFront (input ++ rest)) :
    Promising input := by
  have hget : ∀ i < input.length, (input ++ rest).getD i 0 = input.getD i 0 :=
    fun i hi => (getD_of_beginning (List.prefix_append input rest) hi).symm
  refine ⟨fun hlen => ?_, fun hlen => ?_, fun hsrc hlen => ?_, fun hlen => ?_⟩
  · rw [← hget 1 hlen, h.flag1]
  · rw [← hget 2 hlen, h.flag2]
  · have hfive : HEAD_SIZE + dataLength input ≤ dstEnd input := data_le_dstEnd
    rw [HEAD_SIZE] at hfive
    have hdst : dstEnd (input ++ rest) = dstEnd input :=
      dstEnd_congr fun i hi => hget i (by omega)
    have hne := h.src_ne_zero
    rw [srcSize, hdst, hget 3 (by omega), hget _ hlen] at hne
    exact hne hsrc
  · have hpos : checkPos (input ++ rest) = checkPos input :=
      checkPos_congr fun i hi => hget i (by omega)
    have hcheck := h.check
    rw [CheckRight, hpos, hget _ hlen,
      slice_of_beginning (List.prefix_append input rest) (by
        have : dstEnd input ≤ checkPos input := dstEnd_le_checkPos
        have : HEAD_SIZE + dataLength input ≤ dstEnd input := data_le_dstEnd
        rw [HEAD_SIZE] at this
        omega)] at hcheck
    exact hcheck

/-! ## Completing a frame -/

/-- A head without switches and without data, and sizes of one behind it. -/
def completion : List UInt8 := [0, 0x55, 0xAA, 0, 0] ++ List.replicate 768 1

lemma length_completion : completion.length = 773 := by
  rw [completion, List.length_append, List.length_replicate]
  rfl

lemma completion_behind {i : ℕ} (hlo : 5 ≤ i) (hhi : i < 773) : completion.getD i 0 = 1 := by
  rw [completion, List.getD_eq_getElem?_getD, List.getElem?_append_right (by simpa using hlo),
    List.getElem?_replicate, if_pos (by simp; omega), Option.getD_some]

/-- The bytes that are missing are taken from the completion. -/
def padded (input : List UInt8) : List UInt8 := input ++ completion.drop input.length

lemma getD_padded_lt {i : ℕ} (hi : i < input.length) :
    (padded input).getD i 0 = input.getD i 0 :=
  (getD_of_beginning (List.prefix_append input _) hi).symm

lemma getD_padded_ge {i : ℕ} (hi : input.length ≤ i) :
    (padded input).getD i 0 = completion.getD i 0 := by
  rw [padded, List.getD_eq_getElem?_getD, List.getElem?_append_right hi, List.getElem?_drop,
    Nat.add_sub_cancel' hi, List.getD_eq_getElem?_getD]

lemma length_padded : 773 ≤ (padded input).length := by
  rw [padded, List.length_append, List.length_drop, length_completion]
  omega

namespace Promising

lemma flag1_padded (h : Promising input) : (padded input).getD 1 0 = 0x55 := by
  by_cases hlen : 1 < input.length
  · rw [getD_padded_lt hlen, h.flag1 hlen]
  · rw [getD_padded_ge (by omega)]
    rfl

lemma flag2_padded (h : Promising input) : (padded input).getD 2 0 = 0xAA := by
  by_cases hlen : 2 < input.length
  · rw [getD_padded_lt hlen, h.flag2 hlen]
  · rw [getD_padded_ge (by omega)]
    rfl

lemma src_padded (h : Promising input) (hsrc : srcAddrSwitch ((padded input).getD 3 0) = true) :
    srcSize (padded input) ≠ 0 := by
  have hfive : HEAD_SIZE + dataLength (padded input) ≤ dstEnd (padded input) := data_le_dstEnd
  rw [HEAD_SIZE] at hfive
  have hle := dstEnd_le (padded input)
  by_cases hlen : dstEnd (padded input) < input.length
  · have hdst : dstEnd input = dstEnd (padded input) :=
      dstEnd_congr fun i hi => (getD_padded_lt (by omega)).symm
    rw [getD_padded_lt (by omega)] at hsrc
    have hne := h.src_ne_zero hsrc (by omega)
    rwa [srcSize, hdst, ← getD_padded_lt hlen, ← srcSize] at hne
  · rw [srcSize, getD_padded_ge (by omega), completion_behind (by omega) (by omega)]
    decide

/-- A buffer with a check code that is right is valid. -/
lemma validFront (h : Promising input) (hlen : checkPos input < input.length) :
    ValidFront input := by
  have hle : dstEnd input ≤ checkPos input := dstEnd_le_checkPos
  have hfive : HEAD_SIZE + dataLength input ≤ dstEnd input := data_le_dstEnd
  rw [HEAD_SIZE] at hfive
  exact ⟨h.flag1 (by omega), h.flag2 (by omega), fun hsrc => h.src_ne_zero hsrc (by omega), hlen,
    h.check hlen⟩

/-- **A promising buffer can be completed**: it is padded up to the place of the check code, and
the check code is put there. -/
lemma exists_append (h : Promising input) : ∃ rest, ValidFront (input ++ rest) := by
  by_cases hlen : checkPos input < input.length
  · exact ⟨[], (List.append_nil input).symm ▸ h.validFront hlen⟩
  · have hle : dstEnd (padded input) ≤ checkPos (padded input) := dstEnd_le_checkPos
    have hfive : HEAD_SIZE + dataLength (padded input) ≤ dstEnd (padded input) := data_le_dstEnd
    rw [HEAD_SIZE] at hfive
    have hbound := checkPos_le (padded input)
    have hlength : 773 ≤ (padded input).length := length_padded
    have hbehind : input.length ≤ checkPos (padded input) := by
      by_contra hlt
      have hpos : checkPos input = checkPos (padded input) :=
        checkPos_congr fun i hi => (getD_padded_lt (by omega)).symm
      omega
    generalize hk : checkPos (padded input) = k at *
    generalize hcode : genCheckCode (slice (padded input) 3 (k - 3)) = code
    have htake : (padded input).take k ++ [code] =
        input ++ ((completion.drop input.length).take (k - input.length) ++ [code]) := by
      rw [padded, List.take_append, List.take_of_length_le hbehind, List.append_assoc]
    have hktake : ((padded input).take k).length = k := by
      rw [List.length_take]
      omega
    have hget : ∀ i < k, ((padded input).take k ++ [code]).getD i 0 = (padded input).getD i 0 := by
      intro i hi
      rw [← getD_of_beginning (List.prefix_append _ [code]) (by omega),
        getD_of_beginning (List.take_prefix k (padded input)) (by omega)]
    have hpos : checkPos ((padded input).take k ++ [code]) = k :=
      (checkPos_congr fun i hi => hget i (by omega)).trans hk
    have hdst : dstEnd ((padded input).take k ++ [code]) = dstEnd (padded input) :=
      dstEnd_congr fun i hi => hget i (by omega)
    refine ⟨(completion.drop input.length).take (k - input.length) ++ [code], ?_⟩
    rw [← htake]
    refine ⟨?_, ?_, ?_, ?_, ?_⟩
    · rw [hget 1 (by omega), h.flag1_padded]
    · rw [hget 2 (by omega), h.flag2_padded]
    · intro hsrc
      rw [hget 3 (by omega)] at hsrc
      have hlt := dstEnd_lt_checkPos hsrc
      rw [srcSize, hdst, hget _ (by omega), ← srcSize]
      exact h.src_padded hsrc
    · rw [hpos, List.length_append, hktake, List.length_singleton]
      exact Nat.lt_succ_self k
    · rw [CheckRight, hpos, getD_behind rfl hktake.symm,
        slice_of_beginning (List.prefix_append _ [code]) (by omega),
        ← slice_of_beginning (List.take_prefix k (padded input)) (by omega), hcode]

end Promising

/-! ## The results -/

/-- **`DeMux` returns what is documented exactly for promising buffers**: for every buffer, the
result tells whether the bytes can become a frame, may still become one or have become one, if
and only if nothing in the buffer rules a frame out. -/
theorem deMux_documented_iff (input : List UInt8) :
    Documented input (deMux input).1 ↔ Promising input := by
  have hextends : Promising input ↔ ∃ rest, ValidFront (input ++ rest) :=
    ⟨Promising.exists_append, fun ⟨_, h⟩ => Promising.of_append h⟩
  rw [Documented, hextends]
  by_cases hvalid : ValidFront input
  · have hzero : (deMux input).1 = 0 := deMux_eq_zero_iff.mpr hvalid
    have hrest : ∃ rest, ValidFront (input ++ rest) := ⟨[], by rwa [List.append_nil]⟩
    simp [hzero, hvalid, hrest]
  · have hone : (deMux input).1 = 1 := by rw [deMux_of_not_valid hvalid]
    rw [hone]
    simp [hvalid]

/-- Six bytes without the flags are no beginning of a frame, and `DeMux` returns 1. -/
theorem deMux_not_documented :
    deMux [0, 0, 0, 0, 0, 0] = (1, none) ∧
      (¬ ∃ rest, ValidFront ([0, 0, 0, 0, 0, 0] ++ rest)) ∧
      ¬ Documented [0, 0, 0, 0, 0, 0] (deMux [0, 0, 0, 0, 0, 0]).1 := by
  have hnone : ¬ ∃ rest, ValidFront ([0, 0, 0, 0, 0, 0] ++ rest) := by
    rintro ⟨rest, h⟩
    exact absurd ((Promising.of_append h).flag1 (by decide)) (by decide)
  have hout : deMux [0, 0, 0, 0, 0, 0] = (1, none) := by decide
  refine ⟨hout, hnone, fun h => ?_⟩
  rw [hout] at h
  exact hnone (h.2.1.mp rfl).1

end SignalEventLoop.Device
