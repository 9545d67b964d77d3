/-
# Numbers that are read

`parse_number` takes the parts of a number one after the other, and each part ends where the next
character is none of its own.  A number comes to its value unless an integer does not fit into
63 bits, or an exponent into 31.
-/
import SignalEventLoop.Json.JsonText

namespace SignalEventLoop

open Lib

namespace CJson

/-- What may follow a number: the text goes on to a NUL, and the next character is no part of a
number. -/
def Ends (rest : Bytes) : Prop :=
  0 ∈ rest ∧ ∀ c ∈ rest.head?, isDecimalDigit c = false ∧ c ≠ 46 ∧ c ≠ 101 ∧ c ≠ 69

lemma Ends.exists_cons {rest : Bytes} (h : Ends rest) :
    ∃ c s, rest = c :: s ∧ isDecimalDigit c = false ∧ c ≠ 46 ∧ c ≠ 101 ∧ c ≠ 69 := by
  obtain ⟨h0, hhead⟩ := h
  cases rest with
  | nil => exact absurd h0 List.not_mem_nil
  | cons c s => exact ⟨c, s, rfl, hhead c rfl⟩

variable {digits s : Bytes} {c : UInt8}

/-- A loop over digits takes them all. -/
lemma digitRun_append (hd : ∀ c ∈ digits, isDecimalDigit c = true)
    (hc : isDecimalDigit c = false) :
    digitRun (digits ++ c :: s) = .item digits (c :: s) := by
  induction digits with
  | nil => simp [digitRun, hc]
  | cons d digits ih =>
    simp [digitRun, hd d List.mem_cons_self, ih fun c hc => hd c (List.mem_cons_of_mem _ hc),
      Parsed.map, Parsed.andThen]

/-- The first digit of a number that is not zero. -/
lemma decimal_eq_cons {n : ℕ} (hn : n ≠ 0) :
    ∃ d ds, decimal n = d :: ds ∧ 49 ≤ d ∧ d ≤ 57 := by
  have hne : Nat.digits 10 n ≠ [] := Nat.digits_ne_nil_iff_ne_zero.mpr hn
  have hlast : (Nat.digits 10 n).getLast hne ≠ 0 := Nat.getLast_digit_ne_zero 10 hn
  have hlt : (Nat.digits 10 n).getLast hne < 10 :=
    Nat.digits_lt_base (by norm_num) (List.getLast_mem hne)
  refine ⟨digitByte ((Nat.digits 10 n).getLast hne),
    ((Nat.digits 10 n).dropLast.map digitByte).reverse, ?_, ?_, ?_⟩
  · rw [decimal, if_neg hn]
    conv_lhs => rw [← List.dropLast_append_getLast hne]
    simp
  · rw [UInt8.le_iff_toNat_le, digitByte_toNat hlt]
    simp only [UInt8.reduceToNat]
    omega
  · rw [UInt8.le_iff_toNat_le, digitByte_toNat hlt]
    simp only [UInt8.reduceToNat]
    omega

/-- The first character of a number in front of the point. -/
lemma decimal_head (n : ℕ) : ∃ d ds, decimal n = d :: ds ∧ isDecimalDigit d = true := by
  obtain ⟨d, ds, hds⟩ := List.exists_cons_of_ne_nil (decimal_ne_nil n)
  exact ⟨d, ds, hds, isDecimalDigit_of_mem_decimal (n := n) (hds ▸ List.mem_cons_self)⟩

/-- The first character of a number. -/
lemma NumberText.text_head (n : NumberText) :
    ∃ c s, n.text = c :: s ∧ (c = 45 ∨ isDecimalDigit c = true) := by
  obtain ⟨d, ds, hds, hd⟩ := decimal_head n.whole
  rw [text, hds]
  by_cases hneg : n.negative
  · rw [if_pos hneg]
    exact ⟨_, _, rfl, Or.inl rfl⟩
  · rw [if_neg hneg]
    exact ⟨_, _, rfl, Or.inr hd⟩

/-- The digits in front of the point; a zero is passed over. -/
lemma wholePart_decimal (n : ℕ) (hc : isDecimalDigit c = false) :
    wholePart (decimal n ++ c :: s) = .item (if n = 0 then [] else decimal n) (c :: s) := by
  rw [isDecimalDigit, Bool.and_eq_false_iff, decide_eq_false_iff_not, decide_eq_false_iff_not,
    UInt8.le_iff_toNat_le, UInt8.le_iff_toNat_le] at hc
  by_cases hn : n = 0
  · have hend : ¬ (49 ≤ c ∧ c ≤ 57) := by
      simp only [UInt8.le_iff_toNat_le, UInt8.reduceToNat] at hc ⊢
      omega
    subst hn
    simp [decimal, wholePart, look, hend]
  · obtain ⟨d, ds, hds, hd⟩ := decimal_eq_cons hn
    have hzero : d ≠ 48 := by
      rintro rfl
      exact absurd hd.1 (by decide)
    have hrun : digitRun (d :: (ds ++ c :: s)) = .item (d :: ds) (c :: s) := by
      rw [← List.cons_append, ← hds]
      refine digitRun_append (fun c hc => isDecimalDigit_of_mem_decimal hc) ?_
      rw [isDecimalDigit, Bool.and_eq_false_iff, decide_eq_false_iff_not, decide_eq_false_iff_not,
        UInt8.le_iff_toNat_le, UInt8.le_iff_toNat_le]
      exact hc
    rw [hds, List.cons_append, wholePart]
    simp only [look, if_neg hzero, if_pos hd, if_neg hn, hrun]

/-- The digits behind the point. -/
lemma fraction_append (hd : ∀ c ∈ digits, isDecimalDigit c = true)
    (hc : isDecimalDigit c = false) (hpoint : c ≠ 46) :
    fraction ((if digits = [] then [] else 46 :: digits) ++ c :: s) = .item digits (c :: s) := by
  cases digits with
  | nil => simp [fraction, look, hpoint]
  | cons d digits =>
    have hrun : digitRun ((d :: digits) ++ c :: s) = .item (d :: digits) (c :: s) :=
      digitRun_append hd hc
    rw [List.cons_append] at hrun
    simp [fraction, look, hd d List.mem_cons_self, hrun]

/-- The exponent. -/
lemma exponent_text (e : ExponentText) (hc : isDecimalDigit c = false) :
    exponent (e.text ++ c :: s) =
      if decimalValue e.digits.1 < 2 ^ 31 then .item e.value (c :: s) else .fault .outOfRange := by
  obtain ⟨capital, sign, digits, hne, hd⟩ := e
  obtain ⟨d, ds, hds⟩ := List.exists_cons_of_ne_nil hne
  have hsign : d ≠ 43 ∧ d ≠ 45 := by
    have hin := hd d (hds ▸ List.mem_cons_self)
    refine ⟨?_, ?_⟩ <;>
    · rintro rfl
      exact absurd hin (by decide)
  have hrun : digitRun (d :: (ds ++ c :: s)) = .item (d :: ds) (c :: s) := by
    rw [← List.cons_append, ← hds]
    exact digitRun_append hd hc
  have hletter : (if capital then (69 : UInt8) else 101) = 101 ∨
      (if capital then (69 : UInt8) else 101) = 69 := by
    cases capital <;> simp
  subst hds
  simp only [ExponentText.text, ExponentText.value, exponent, List.cons_append, look,
    if_pos hletter, List.tail_cons]
  by_cases hsmall : decimalValue (d :: ds) < 2 ^ 31
  · have hlarge : ¬ 2 ^ 31 ≤ decimalValue (d :: ds) := not_le.mpr hsmall
    rcases sign with _ | negative
    · simp [-Nat.reducePow, hsign, hrun, Parsed.andThen, hsmall, hlarge]
    · cases negative <;> simp [-Nat.reducePow, hrun, Parsed.andThen, hsmall, hlarge]
  · have hlarge : 2 ^ 31 ≤ decimalValue (d :: ds) := not_lt.mp hsmall
    rcases sign with _ | negative
    · simp [-Nat.reducePow, hsign, hrun, Parsed.andThen, hsmall, hlarge]
    · cases negative <;> simp [-Nat.reducePow, hrun, Parsed.andThen, hsmall, hlarge]

/-- Where the exponent begins, if there is one. -/
lemma exponent_elim (e : Option ExponentText) {rest : Bytes} (hrest : Ends rest) :
    (∃ c s, e.elim [] ExponentText.text ++ rest = c :: s ∧ isDecimalDigit c = false ∧ c ≠ 46) ∧
      exponent (e.elim [] ExponentText.text ++ rest) =
        if ∀ x ∈ e, decimalValue x.digits.1 < 2 ^ 31 then .item (e.elim 0 ExponentText.value) rest
        else .fault .outOfRange := by
  obtain ⟨c, s, rfl, hc, hpoint, hsmall, hcapital⟩ := hrest.exists_cons
  cases e with
  | none =>
    refine ⟨⟨c, s, rfl, hc, hpoint⟩, ?_⟩
    simp [exponent, look, hsmall, hcapital]
  | some e =>
    refine ⟨⟨_, _, rfl, ?_, ?_⟩, ?_⟩
    · cases e.capital <;> rfl
    · cases e.capital <;> decide
    · simpa using exponent_text e hc

/-- **What a number is read as**, when no part of a number follows it. -/
theorem parse_number_text {D : Type} (lib : Doubles D) (n : NumberText) {rest : Bytes}
    (hrest : Ends rest) :
    parse_number lib (n.text ++ rest) =
      if n.Readable then .item (n.value lib) rest else .fault .outOfRange := by
  obtain ⟨⟨x, E, hE, hx, hxpoint⟩, hexp⟩ := exponent_elim n.exponent hrest
  have hfraction := fraction_append (s := E) n.decimals.2 hx hxpoint
  obtain ⟨y, F, hF, hy⟩ : ∃ y F, (if n.decimals.1 = [] then [] else 46 :: n.decimals.1) ++
      x :: E = y :: F ∧ isDecimalDigit y = false := by
    split_ifs with h
    · exact ⟨x, E, rfl, hx⟩
    · exact ⟨46, _, rfl, rfl⟩
  have hwhole := wholePart_decimal n.whole (s := F) hy
  obtain ⟨d, ds, hds, hd⟩ := decimal_head n.whole
  have hminus : d ≠ 45 := by
    rintro rfl
    exact absurd hd (by decide)
  -- the sign, and what is read behind it
  have hparts : (wholePart (decimal n.whole ++ y :: F)).andThen (fun whole num =>
      (fraction num).andThen fun decimals num =>
        (exponent num).andThen fun subscale num =>
          if decimals = [] ∧ subscale = 0 then
            if 2 ^ 63 ≤ decimalValue whole then .fault .outOfRange
            else if n.negative then .item (.int (-1) (- Int64.ofNat (decimalValue whole))) num
            else .item (.int 1 (Int64.ofNat (decimalValue whole))) num
          else
            .item (.double (lib.number n.negative (whole ++ decimals)
              (subscale - decimals.length))) num) =
      if n.Readable then .item (n.value lib) rest else .fault .outOfRange := by
    have hvalue : decimalValue (if n.whole = 0 then [] else decimal n.whole) = n.whole := by
      split_ifs with h
      · rw [h]
        rfl
      · exact decimalValue_decimal n.whole
    rw [hwhole, Parsed.andThen, ← hF, hfraction, Parsed.andThen, ← hE, hexp]
    by_cases hscale : ∀ e ∈ n.exponent, decimalValue e.digits.1 < 2 ^ 31
    · rw [if_pos hscale, Parsed.andThen]
      have hreadable : n.Readable ↔ (n.IsInt → n.whole < 2 ^ 63) := and_iff_left hscale
      simp only [hreadable, hvalue, NumberText.value]
      by_cases hint : n.IsInt
      · have hparts : n.decimals.1 = [] ∧ n.exponent.elim 0 ExponentText.value = 0 := hint
        by_cases hlarge : 2 ^ 63 ≤ n.whole
        · simp [-Nat.reducePow, hint, hparts, hlarge, not_lt.mpr hlarge]
        · simp only [hint, hparts, hlarge, not_le.mp hlarge, and_self, if_true, if_false,
            forall_const]
          split_ifs <;> rfl
      · have hparts : ¬ (n.decimals.1 = [] ∧ n.exponent.elim 0 ExponentText.value = 0) := hint
        simp [hint, hparts, NumberText.digits, NumberText.scale]
    · have hunreadable : ¬ n.Readable := fun h => hscale h.2
      rw [if_neg hscale, Parsed.andThen, if_neg hunreadable]
  rw [NumberText.text, List.append_assoc, List.append_assoc, List.append_assoc, hE, hF,
    parse_number]
  by_cases hneg : n.negative
  · simpa [hneg, look] using hparts
  · simp only [hneg] at hparts ⊢
    rw [hds] at hparts ⊢
    simpa [look, hminus] using hparts

end CJson

end SignalEventLoop
