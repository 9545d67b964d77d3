/-
# Texts of C

A text is a list of bytes, and the functions of C see the part in front of the first NUL.
`decimal n` is what `%u`, `%d` and `std::to_string` print for a number that is not negative, and
`scanInteger` is what their counterparts `sscanf`, `strtol` and the functions of `std::string`
read: blanks, a sign and digits, as many as there are.  A printed number is read back, whatever
follows it that is not a digit.
-/
import Mathlib.Data.Nat.Digits.Lemmas
import Mathlib.Data.List.TakeWhile
import Mathlib.Tactic

namespace SignalEventLoop.Lib

abbrev Bytes := List UInt8

/-- The bytes of a string literal in ASCII. -/
def text (s : String) : Bytes := s.toList.map fun c => UInt8.ofNat c.toNat

namespace ByteOrder

/-- The order of `std::string` compares bytes. -/
scoped instance linearOrder : LinearOrder UInt8 where
  le_refl _ := UInt8.le_refl _
  le_trans _ _ _ := UInt8.le_trans
  le_antisymm _ _ := UInt8.le_antisymm
  le_total := UInt8.le_total
  lt_iff_le_not_ge a b := by
    rw [UInt8.lt_iff_toNat_lt, UInt8.le_iff_toNat_le, UInt8.le_iff_toNat_le]
    omega
  toDecidableLE := inferInstance
  toDecidableLT := inferInstance
  toDecidableEq := inferInstance

end ByteOrder

namespace Bytes

/-- What holds of the bytes of a text is decided on them, and not on all bytes there are. -/
scoped instance (priority := high) decidableForallMem {P : UInt8 → Prop} [DecidablePred P]
    {s : Bytes} : Decidable (∀ c ∈ s, P c) :=
  List.decidableBAll P s

scoped instance (priority := high) decidableForallMemOption {P : UInt8 → Prop} [DecidablePred P]
    {o : Option UInt8} : Decidable (∀ c ∈ o, P c) :=
  Option.decidableForallMem o

end Bytes

/-- What the functions of C see of a text. -/
def cString (s : Bytes) : Bytes := s.takeWhile (· ≠ 0)

/-- `isdigit` -/
def isDecimalDigit (c : UInt8) : Bool := 48 ≤ c && c ≤ 57

/-- `isspace` in the C locale. -/
def isBlank (c : UInt8) : Bool := c = 32 || (9 ≤ c && c ≤ 13)

/-- The digit `d` of a number. -/
def digitByte (d : ℕ) : UInt8 := UInt8.ofNat (48 + d)

/-- The text of a number. -/
def decimal (n : ℕ) : Bytes :=
  if n = 0 then [48] else ((Nat.digits 10 n).map digitByte).reverse

/-- The number that some digits stand for. -/
def decimalValue (digits : Bytes) : ℕ :=
  digits.foldl (fun n c => 10 * n + (c.toNat - 48)) 0

/-- The sign of a number, and what follows it. -/
def scanSign : Bytes → Bool × Bytes
  | 43 :: s => (false, s)
  | 45 :: s => (true, s)
  | s => (false, s)

/-- An integer at the beginning of a text: whether it has a minus sign, its digits, and what
follows them.  `none` when there are no digits. -/
def scanInteger (s : Bytes) : Option (Bool × ℕ × Bytes) :=
  let (negative, s) := scanSign (s.dropWhile isBlank)
  let digits := s.takeWhile isDecimalDigit
  if digits = [] then none
  else some (negative, decimalValue digits, s.dropWhile isDecimalDigit)

/-- `std::stoi`; `none` when it throws. -/
def stoi (s : Bytes) : Option ℤ :=
  (scanInteger (cString s)).bind fun (negative, n, _) =>
    let value : ℤ := if negative then - n else n
    if - 2 ^ 31 ≤ value ∧ value < 2 ^ 31 then some value else none

/-! ## The end of a text -/

/-- A text without a NUL is seen whole, with whatever follows it. -/
lemma cString_append {w : Bytes} (hw : ∀ c ∈ w, c ≠ 0) (s : Bytes) :
    cString (w ++ s) = w ++ cString s :=
  List.takeWhile_append_of_pos fun c hc => decide_eq_true (hw c hc)

lemma cString_eq_self {w : Bytes} (hw : ∀ c ∈ w, c ≠ 0) : cString w = w :=
  List.takeWhile_eq_self_iff.mpr fun c hc => decide_eq_true (hw c hc)

lemma cString_cons {c : UInt8} (hc : c ≠ 0) (s : Bytes) : cString (c :: s) = c :: cString s :=
  List.takeWhile_cons_of_pos (decide_eq_true hc)

lemma ne_zero_of_mem_cString {s : Bytes} {c : UInt8} (hc : c ∈ cString s) : c ≠ 0 :=
  of_decide_eq_true (List.mem_takeWhile_imp (p := fun c => decide (c ≠ 0)) hc)

lemma digitByte_toNat {d : ℕ} (hd : d < 10) : (digitByte d).toNat = 48 + d := by
  rw [digitByte, UInt8.toNat_ofNat']
  omega

lemma isDecimalDigit_iff {c : UInt8} : isDecimalDigit c = true ↔ 48 ≤ c.toNat ∧ c.toNat ≤ 57 := by
  simp [isDecimalDigit, UInt8.le_iff_toNat_le]

lemma isDecimalDigit_digitByte {d : ℕ} (hd : d < 10) : isDecimalDigit (digitByte d) = true := by
  rw [isDecimalDigit_iff, digitByte_toNat hd]
  omega

lemma isBlank_eq_false_of_isDecimalDigit {c : UInt8} (h : isDecimalDigit c = true) :
    isBlank c = false := by
  rw [isDecimalDigit_iff] at h
  simp only [isBlank, Bool.or_eq_false_iff, decide_eq_false_iff_not, Bool.and_eq_false_iff,
    UInt8.le_iff_toNat_le, ← UInt8.toNat_inj, UInt8.reduceToNat]
  omega

/-! ## Printed numbers -/

lemma decimal_ne_nil (n : ℕ) : decimal n ≠ [] := by
  rw [decimal]
  split_ifs with hn
  · simp
  · simpa [Nat.digits_ne_nil_iff_ne_zero] using hn

lemma isDecimalDigit_of_mem_decimal {n : ℕ} {c : UInt8} (hc : c ∈ decimal n) :
    isDecimalDigit c = true := by
  rw [decimal] at hc
  split_ifs at hc with hn
  · rw [List.mem_singleton] at hc
    rw [hc]
    rfl
  · rw [List.mem_reverse, List.mem_map] at hc
    obtain ⟨d, hd, rfl⟩ := hc
    exact isDecimalDigit_digitByte (Nat.digits_lt_base (by norm_num) hd)

/-- A byte that is not a digit does not stand in a number. -/
lemma notMem_decimal {n : ℕ} {c : UInt8} (hc : isDecimalDigit c = false) : c ∉ decimal n := by
  intro hmem
  rw [isDecimalDigit_of_mem_decimal hmem] at hc
  exact absurd hc (by simp)

lemma ne_zero_of_mem_decimal {n : ℕ} {c : UInt8} (hc : c ∈ decimal n) : c ≠ 0 := by
  rintro rfl
  exact notMem_decimal (by decide) hc

/-- Digits with the lowest one first, as Mathlib has them. -/
lemma decimalValue_reverse {ds : List ℕ} (hds : ∀ d ∈ ds, d < 10) :
    decimalValue (ds.map digitByte).reverse = Nat.ofDigits 10 ds := by
  induction ds with
  | nil => rfl
  | cons d ds ih =>
    have hd := digitByte_toNat (hds d List.mem_cons_self)
    have ih := ih fun d' hd' => hds d' (List.mem_cons_of_mem _ hd')
    rw [decimalValue] at ih ⊢
    rw [List.map_cons, List.reverse_cons, List.foldl_append, ih, List.foldl_cons, List.foldl_nil,
      hd, Nat.ofDigits_cons]
    omega

@[simp] lemma decimalValue_decimal (n : ℕ) : decimalValue (decimal n) = n := by
  rw [decimal]
  split_ifs with hn
  · rw [hn]
    rfl
  · rw [decimalValue_reverse fun d hd => Nat.digits_lt_base (by norm_num) hd,
      Nat.ofDigits_digits]

lemma decimal_injective : Function.Injective decimal :=
  Function.LeftInverse.injective decimalValue_decimal

lemma length_decimal_le {n k : ℕ} (hk : 0 < k) (hn : n < 10 ^ k) : (decimal n).length ≤ k := by
  rw [decimal]
  split_ifs with h0
  · exact hk
  · rw [List.length_reverse, List.length_map, Nat.digits_length_le_iff (by norm_num)]
    exact hn

lemma length_decimal_mono {m n : ℕ} (h : m ≤ n) : (decimal m).length ≤ (decimal n).length := by
  rcases Nat.eq_zero_or_pos m with rfl | hm
  · exact List.length_pos_iff.mpr (decimal_ne_nil n)
  · rw [decimal, decimal, if_neg hm.ne', if_neg (by omega), List.length_reverse, List.length_map,
      List.length_reverse, List.length_map]
    exact Nat.le_length_digits_le 10 m n h

/-! ## Numbers that are read -/

section digits

variable {digits s : Bytes}

lemma takeWhile_digits_append (hd : ∀ c ∈ digits, isDecimalDigit c = true)
    (hs : ∀ c ∈ s.head?, isDecimalDigit c = false) :
    (digits ++ s).takeWhile isDecimalDigit = digits := by
  rw [List.takeWhile_append_of_pos hd]
  cases s with
  | nil => simp
  | cons c s => simp [hs c rfl]

lemma dropWhile_digits_append (hd : ∀ c ∈ digits, isDecimalDigit c = true)
    (hs : ∀ c ∈ s.head?, isDecimalDigit c = false) :
    (digits ++ s).dropWhile isDecimalDigit = s := by
  rw [List.dropWhile_append_of_pos hd]
  cases s with
  | nil => simp
  | cons c s => simp [hs c rfl]

lemma scanSign_of_isDecimalDigit {c : UInt8} (hc : isDecimalDigit c = true) (s : Bytes) :
    scanSign (c :: s) = (false, c :: s) := by
  rw [isDecimalDigit_iff] at hc
  unfold scanSign
  split
  · rename_i h
    obtain ⟨rfl, -⟩ := List.cons.inj h
    exact absurd hc (by decide)
  · rename_i h
    obtain ⟨rfl, -⟩ := List.cons.inj h
    exact absurd hc (by decide)
  · rfl

/-- **Digits are read**, up to a byte that is none. -/
theorem scanInteger_digits (hne : digits ≠ []) (hd : ∀ c ∈ digits, isDecimalDigit c = true)
    (hs : ∀ c ∈ s.head?, isDecimalDigit c = false) :
    scanInteger (digits ++ s) = some (false, decimalValue digits, s) := by
  obtain ⟨c, cs, hcs⟩ := List.exists_cons_of_ne_nil hne
  have hc : isDecimalDigit c = true := hd c (hcs ▸ List.mem_cons_self)
  have hstart : scanSign ((digits ++ s).dropWhile isBlank) = (false, digits ++ s) := by
    rw [hcs, List.cons_append, List.dropWhile_cons_of_neg
      (by simp [isBlank_eq_false_of_isDecimalDigit hc]), scanSign_of_isDecimalDigit hc]
  simp only [scanInteger, hstart, takeWhile_digits_append hd hs, dropWhile_digits_append hd hs,
    if_neg hne]

/-- The same behind a minus sign. -/
theorem scanInteger_neg_digits (hne : digits ≠ []) (hd : ∀ c ∈ digits, isDecimalDigit c = true)
    (hs : ∀ c ∈ s.head?, isDecimalDigit c = false) :
    scanInteger (45 :: (digits ++ s)) = some (true, decimalValue digits, s) := by
  have hstart : scanSign ((45 :: (digits ++ s)).dropWhile isBlank) = (true, digits ++ s) := by
    rw [List.dropWhile_cons_of_neg (by decide), scanSign]
  simp only [scanInteger, hstart, takeWhile_digits_append hd hs, dropWhile_digits_append hd hs,
    if_neg hne]

end digits

/-- **A printed number is read back.** -/
theorem scanInteger_decimal (n : ℕ) {s : Bytes}
    (hs : ∀ c ∈ s.head?, isDecimalDigit c = false) :
    scanInteger (decimal n ++ s) = some (false, n, s) := by
  rw [scanInteger_digits (decimal_ne_nil n) (fun _ => isDecimalDigit_of_mem_decimal) hs,
    decimalValue_decimal]

/-- A number with a minus sign. -/
theorem scanInteger_neg_decimal (n : ℕ) {s : Bytes}
    (hs : ∀ c ∈ s.head?, isDecimalDigit c = false) :
    scanInteger (45 :: (decimal n ++ s)) = some (true, n, s) := by
  rw [scanInteger_neg_digits (decimal_ne_nil n) (fun _ => isDecimalDigit_of_mem_decimal) hs,
    decimalValue_decimal]

/-- Digits that `stoi` reads; the number has to fit into an `int`. -/
lemma stoi_digits {digits s : Bytes} (hne : digits ≠ [])
    (hd : ∀ c ∈ digits, isDecimalDigit c = true) (hs : ∀ c ∈ s.head?, isDecimalDigit c = false) :
    stoi (digits ++ s) =
      if decimalValue digits < 2 ^ 31 then some (decimalValue digits : ℤ) else none := by
  have hstring : cString (digits ++ s) = digits ++ cString s :=
    cString_append (fun c hc => by rintro rfl; exact absurd (hd 0 hc) (by decide)) s
  have hhead : ∀ c ∈ (cString s).head?, isDecimalDigit c = false := by
    intro c hc
    refine hs c ?_
    cases s with
    | nil => exact hc
    | cons d s =>
      rw [cString, List.takeWhile_cons] at hc
      split_ifs at hc
      · exact hc
      · simp at hc
  rw [stoi, hstring, scanInteger_digits hne hd hhead, Option.bind_some]
  simp only [Bool.false_eq_true, if_false]
  congr 1
  simp only [eq_iff_iff]
  omega

end SignalEventLoop.Lib
