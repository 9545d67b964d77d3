/-
# Numbers as polynomials over two elements

The bits of a number are the coefficients of a polynomial over the field with two elements.
Exclusive or is the sum of polynomials, and doubling is the product with `X`.

A shift register takes in one coefficient after the other, the highest one first, and cancels the
bit that leaves it with the divisor.  It always holds the remainder of what it has taken in.
-/
import Mathlib.Algebra.Field.ZMod
import Mathlib.Algebra.Polynomial.Div
import Mathlib.Data.Nat.BitIndices
import Mathlib.Data.Nat.Bitwise
import Mathlib.Tactic

namespace SignalEventLoop.Lib

open Polynomial

variable {n m r g k i : ℕ} {p : (ZMod 2)[X]}

/-- The polynomial with the bits of a number. -/
noncomputable def bitPoly (n : ℕ) : (ZMod 2)[X] := ∑ i ∈ n.bitIndices.toFinset, X ^ i

@[simp] lemma coeff_bitPoly (n i : ℕ) :
    (bitPoly n).coeff i = if n.testBit i then 1 else 0 := by
  rw [bitPoly, finsetSum_coeff]
  simp only [coeff_X_pow, Finset.sum_ite_eq, List.mem_toFinset, Nat.mem_bitIndices]

@[simp] lemma bitPoly_zero : bitPoly 0 = 0 := by
  ext i
  simp

lemma bitPoly_injective : Function.Injective bitPoly := by
  intro m n h
  refine Nat.eq_of_testBit_eq fun i => ?_
  have hi := congrArg (fun p => p.coeff i) h
  simp only [coeff_bitPoly] at hi
  cases hm : m.testBit i <;> cases hn : n.testBit i <;> simp_all

lemma bitPoly_xor (m n : ℕ) : bitPoly (m ^^^ n) = bitPoly m + bitPoly n := by
  ext i
  simp only [coeff_add, coeff_bitPoly, Nat.testBit_xor]
  cases m.testBit i <;> cases n.testBit i <;> decide

@[simp] lemma bitPoly_two_pow (k : ℕ) : bitPoly (2 ^ k) = X ^ k := by
  rw [bitPoly, Nat.bitIndices_two_pow]
  simp

lemma testBit_eq_false_of_lt (hn : n < 2 ^ k) (hi : k ≤ i) : n.testBit i = false :=
  Nat.testBit_lt_two_pow (lt_of_lt_of_le hn (Nat.pow_le_pow_right (by norm_num) hi))

/-- A number in front of `k` other bits. -/
lemma bitPoly_mul_two_pow_add (n : ℕ) (hm : m < 2 ^ k) :
    bitPoly (2 ^ k * n + m) = bitPoly n * X ^ k + bitPoly m := by
  ext i
  rw [coeff_add, coeff_mul_X_pow']
  simp only [coeff_bitPoly, Nat.testBit_two_pow_mul_add n hm]
  by_cases hi : i < k
  · simp [hi, Nat.not_le.mpr hi]
  · have hge : k ≤ i := by omega
    simp [hi, hge, testBit_eq_false_of_lt hm hge]

/-- A number in front of one other bit. -/
lemma bitPoly_mul_two_add (n : ℕ) {bit : ℕ} (hbit : bit < 2) :
    bitPoly (n * 2 + bit) = bitPoly n * X + bitPoly bit := by
  have hone := bitPoly_mul_two_pow_add (k := 1) n (by simpa using hbit)
  rwa [pow_one, pow_one, mul_comm] at hone

lemma degree_bitPoly_lt_iff : (bitPoly n).degree < k ↔ n < 2 ^ k := by
  rw [degree_lt_iff_coeff_zero]
  constructor
  · intro h
    refine Nat.lt_pow_two_of_testBit n fun i hi => ?_
    have hi := h i hi
    rw [coeff_bitPoly] at hi
    by_contra hbit
    simp [hbit] at hi
  · intro h i hi
    simp [testBit_eq_false_of_lt h hi]

/-! ## The shift register -/

/-- One more coefficient for the register: `g` cancels the bit `k`. -/
def remShift (g k r bit : ℕ) : ℕ :=
  let r := r * 2 + bit
  if r.testBit k then r ^^^ g else r

/-- `g` has the degree `k`. -/
def HasTop (g k : ℕ) : Prop := g < 2 ^ (k + 1) ∧ g.testBit k = true

instance : Decidable (HasTop g k) := inferInstanceAs (Decidable (_ ∧ _))

lemma HasTop.monic (h : HasTop g k) : (bitPoly g).Monic := by
  refine monic_of_degree_le k ?_ (by simp [h.2])
  rw [← Order.lt_succ_iff]
  exact degree_bitPoly_lt_iff.mpr h.1

lemma HasTop.degree (h : HasTop g k) : (bitPoly g).degree = k := by
  refine le_antisymm ?_ (le_degree_of_ne_zero (by simp [h.2]))
  rw [← Order.lt_succ_iff]
  exact degree_bitPoly_lt_iff.mpr h.1

lemma remShift_lt (h : HasTop g k) (hr : r < 2 ^ k) {bit : ℕ} (hbit : bit < 2) :
    remShift g k r bit < 2 ^ k := by
  have hlt : r * 2 + bit < 2 ^ (k + 1) := by
    rw [pow_succ]
    omega
  rw [remShift]
  refine Nat.lt_pow_two_of_testBit _ fun i hi => ?_
  by_cases hik : i = k
  · subst hik
    split_ifs with htop
    · simp [htop, h.2]
    · simpa using htop
  · have habove : k + 1 ≤ i := by omega
    split_ifs with htop
    · rw [Nat.testBit_xor, testBit_eq_false_of_lt hlt habove, testBit_eq_false_of_lt h.1 habove]
      rfl
    · exact testBit_eq_false_of_lt hlt habove

/-- **One step of the division.** -/
theorem remShift_spec (h : HasTop g k) (hr : bitPoly r = p %ₘ bitPoly g) {bit : ℕ}
    (hbit : bit < 2) :
    bitPoly (remShift g k r bit) = (p * X + bitPoly bit) %ₘ bitPoly g := by
  have hlt : r < 2 ^ k := by
    rw [← degree_bitPoly_lt_iff, hr, ← h.degree]
    exact degree_modByMonic_lt p h.monic
  have hself : bitPoly (remShift g k r bit) %ₘ bitPoly g = bitPoly (remShift g k r bit) := by
    rw [modByMonic_eq_self_iff h.monic, h.degree]
    exact degree_bitPoly_lt_iff.mpr (remShift_lt h hlt hbit)
  have hshift := bitPoly_mul_two_add r hbit
  -- the register and the dividend differ by a multiple of the divisor
  have hdvd : bitPoly g ∣ bitPoly r - p := hr ▸ dvd_modByMonic_sub p (bitPoly g)
  rw [← hself]
  refine modByMonic_eq_of_dvd_sub h.monic ?_
  rw [remShift]
  split_ifs
  · rw [bitPoly_xor, hshift]
    have hsum : bitPoly r * X + bitPoly bit + bitPoly g - (p * X + bitPoly bit) =
        (bitPoly r - p) * X + bitPoly g := by ring
    rw [hsum]
    exact dvd_add (Dvd.dvd.mul_right hdvd X) dvd_rfl
  · rw [hshift]
    have hsum : bitPoly r * X + bitPoly bit - (p * X + bitPoly bit) = (bitPoly r - p) * X := by
      ring
    rw [hsum]
    exact Dvd.dvd.mul_right hdvd X

/-- **A run of the register.** -/
theorem foldl_remShift_spec (h : HasTop g k) (hr : bitPoly r = p %ₘ bitPoly g) {bits : List ℕ}
    (hbits : ∀ b ∈ bits, b < 2) :
    bitPoly (bits.foldl (remShift g k) r) =
      (p * X ^ bits.length + bitPoly (Nat.ofDigits 2 bits.reverse)) %ₘ bitPoly g := by
  induction bits using List.reverseRecOn with
  | nil => simpa using hr
  | append_singleton bits b ih =>
    have hb : b < 2 := hbits b (by simp)
    have ih := ih fun c hc => hbits c (by simp [hc])
    have hdigit := bitPoly_mul_two_add (Nat.ofDigits 2 bits.reverse) hb
    rw [mul_comm, add_comm] at hdigit
    -- the coefficients so far move up by one
    have hsum (q : (ZMod 2)[X]) : (p * X ^ bits.length + q) * X + bitPoly b =
        p * (X ^ bits.length * X) + (q * X + bitPoly b) := by ring
    rw [List.foldl_append, List.foldl_cons, List.foldl_nil, remShift_spec h ih hb,
      List.reverse_append, List.reverse_singleton, List.singleton_append, Nat.ofDigits_cons,
      hdigit, List.length_append, List.length_singleton, pow_succ, hsum]

end SignalEventLoop.Lib
