/-
# Numbers in base 16

`hexText upper k n` is what `%0kx` and `%0kX` print for a number of `k` digits, and `scanHex` is
what `%kx` reads from a text: blanks, a sign, `0x` and digits, with `k` characters at most behind
the blanks.  A printed number is read back, whatever follows it.
-/
import SignalEventLoop.Lib.CText

namespace SignalEventLoop.Lib

/-- The digit `d` of a number, with a small or a capital letter from ten on. -/
def hexByte (upper : Bool) (d : ℕ) : UInt8 :=
  UInt8.ofNat (if d < 10 then 48 + d else if upper then 55 + d else 87 + d)

/-- `isxdigit` -/
def isHexDigit (c : UInt8) : Bool :=
  isDecimalDigit c || (65 ≤ c && c ≤ 70) || (97 ≤ c && c ≤ 102)

/-- The value of a digit. -/
def hexDigitValue (c : UInt8) : ℕ :=
  if c ≤ 57 then c.toNat - 48 else if c ≤ 70 then c.toNat - 55 else c.toNat - 87

/-- The number that some digits stand for. -/
def hexValue (digits : Bytes) : ℕ := digits.foldl (fun n c => 16 * n + hexDigitValue c) 0

/-- The last `k` digits of a number. -/
def hexText (upper : Bool) : ℕ → ℕ → Bytes
  | 0, _ => []
  | k + 1, n => hexText upper k (n / 16) ++ [hexByte upper (n % 16)]

/-- A number in base 16 at the beginning of a text, which ends with the text: whether it has a
minus sign, and its value.  `none` when there are no digits. -/
def scanHex (width : ℕ) (s : Bytes) : Option (Bool × ℕ) :=
  let s := s.dropWhile isBlank
  let (negative, s') := scanSign s
  let t := s'.take (width - (s.length - s'.length))
  let t := if (t.take 2) ∈ [[48, 120], [48, 88]] then t.drop 2 else t
  let digits := t.takeWhile isHexDigit
  if digits = [] then none else some (negative, hexValue digits)

/-! ## Digits -/

lemma isHexDigit_hexByte (upper : Bool) {d : ℕ} (hd : d < 16) :
    isHexDigit (hexByte upper d) = true := by
  interval_cases d <;> cases upper <;> rfl

lemma hexDigitValue_hexByte (upper : Bool) {d : ℕ} (hd : d < 16) :
    hexDigitValue (hexByte upper d) = d := by
  interval_cases d <;> cases upper <;> rfl

/-- No digit is a sign, a blank, a NUL or the letter of `0x`. -/
lemma isHexDigit_cases {c : UInt8} (hc : isHexDigit c = true) :
    c ≠ 0 ∧ isBlank c = false ∧ c ≠ 43 ∧ c ≠ 45 ∧ c ≠ 120 ∧ c ≠ 88 := by
  simp only [isHexDigit, isDecimalDigit, Bool.or_eq_true, Bool.and_eq_true, decide_eq_true_eq,
    UInt8.le_iff_toNat_le, UInt8.reduceToNat] at hc
  simp only [isBlank, Bool.or_eq_false_iff, decide_eq_false_iff_not, Bool.and_eq_false_iff,
    UInt8.le_iff_toNat_le, ne_eq, ← UInt8.toNat_inj, UInt8.reduceToNat]
  omega

@[simp] lemma length_hexText (upper : Bool) (k n : ℕ) : (hexText upper k n).length = k := by
  induction k generalizing n with
  | zero => rfl
  | succ k ih => simp [hexText, ih]

lemma isHexDigit_of_mem_hexText {upper : Bool} {k n : ℕ} {c : UInt8}
    (hc : c ∈ hexText upper k n) : isHexDigit c = true := by
  induction k generalizing n with
  | zero => exact absurd hc (List.not_mem_nil)
  | succ k ih =>
    rw [hexText, List.mem_append, List.mem_singleton] at hc
    obtain hc | rfl := hc
    · exact ih hc
    · exact isHexDigit_hexByte upper (Nat.mod_lt n (by norm_num))

lemma hexValue_append_singleton (digits : Bytes) (c : UInt8) :
    hexValue (digits ++ [c]) = 16 * hexValue digits + hexDigitValue c := by
  simp [hexValue]

theorem hexValue_hexText (upper : Bool) (k n : ℕ) :
    hexValue (hexText upper k n) = n % 16 ^ k := by
  induction k generalizing n with
  | zero => simp [hexText, hexValue, Nat.mod_one]
  | succ k ih =>
    rw [hexText, hexValue_append_singleton, ih,
      hexDigitValue_hexByte upper (Nat.mod_lt n (by norm_num)), pow_succ', Nat.mod_mul]
    ring

/-! ## Reading -/

section

variable {digits : Bytes}

lemma scanSign_of_isHexDigit {c : UInt8} (hc : isHexDigit c = true) (s : Bytes) :
    scanSign (c :: s) = (false, c :: s) := by
  obtain ⟨-, -, hplus, hminus, -⟩ := isHexDigit_cases hc
  unfold scanSign
  split
  · rename_i h
    exact absurd (List.cons.inj h).1 hplus
  · rename_i h
    exact absurd (List.cons.inj h).1 hminus
  · rfl

lemma take_two_notMem (hd : ∀ c ∈ digits, isHexDigit c = true) :
    digits.take 2 ∉ [[48, 120], [48, 88]] := by
  intro hmem
  have hin : ∀ c ∈ digits.take 2, isHexDigit c = true := fun c hc => hd c (List.mem_of_mem_take hc)
  rw [List.mem_cons, List.mem_singleton] at hmem
  obtain h | h := hmem
  all_goals
    rw [h] at hin
    exact absurd (hin _ (List.mem_cons_of_mem _ List.mem_cons_self)) (by decide)

/-- **As many digits as are asked for are read**, whatever follows them. -/
theorem scanHex_digits (hne : digits ≠ []) (hd : ∀ c ∈ digits, isHexDigit c = true) (s : Bytes) :
    scanHex digits.length (digits ++ s) = some (false, hexValue digits) := by
  obtain ⟨c, cs, hcs⟩ := List.exists_cons_of_ne_nil hne
  have hc : isHexDigit c = true := hd c (hcs ▸ List.mem_cons_self)
  have hblank : (digits ++ s).dropWhile isBlank = digits ++ s := by
    rw [hcs, List.cons_append,
      List.dropWhile_cons_of_neg (by simp [(isHexDigit_cases hc).2.1])]
  have hsign : scanSign (digits ++ s) = (false, digits ++ s) := by
    rw [hcs, List.cons_append, scanSign_of_isHexDigit hc]
  have hall : digits.takeWhile isHexDigit = digits := List.takeWhile_eq_self_iff.mpr hd
  simp only [scanHex, hblank, hsign, Nat.sub_self, Nat.sub_zero, List.take_left,
    if_neg (take_two_notMem hd), hall, if_neg hne]

/-- **A printed number is read back.** -/
theorem scanHex_hexText (upper : Bool) {k n : ℕ} (hk : 0 < k) (hn : n < 16 ^ k) (s : Bytes) :
    scanHex k (hexText upper k n ++ s) = some (false, n) := by
  have hne : hexText upper k n ≠ [] := by
    rw [← List.length_pos_iff, length_hexText]
    exact hk
  have h := scanHex_digits hne (fun _ => isHexDigit_of_mem_hexText) s
  rwa [length_hexText, hexValue_hexText, Nat.mod_eq_of_lt hn] at h

end

end SignalEventLoop.Lib
