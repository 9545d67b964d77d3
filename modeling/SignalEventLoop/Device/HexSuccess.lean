/-
# When a read of a HEX file succeeds

`readData` returns a value greater than 0 when its comparisons do not take all records for
misses.  A record that only touches the range is no miss for them: one that ends where the range
begins, one that begins where the range ends, and one without bytes.  A record whose last byte is
the last one of the address space is a miss, although it may have bytes in the range.  And when
the end of the range wraps around, the only records that are not taken for misses are those that
begin before the range and reach it.
-/
import SignalEventLoop.Device.HexImage

namespace SignalEventLoop.Device

open Lib

variable {start len a n : ℕ} {w : ℕ × List UInt8}

/-- The record has a byte in the range. -/
def HasByte (start len : ℕ) (w : ℕ × List UInt8) : Prop :=
  ∃ x, start ≤ x ∧ x < start + len ∧ w.1 ≤ x ∧ x < w.1 + w.2.length

/-- The record ends where the range begins, or begins where the range ends, or has no bytes. -/
def OnlyTouches (start len : ℕ) (w : ℕ × List UInt8) : Prop :=
  w.1 < start ∧ w.1 + w.2.length = start ∨ w.1 = start + len ∨
    start ≤ w.1 ∧ w.1 ≤ start + len ∧ w.2 = []

lemma hasByte_iff : HasByte start len w ↔
    0 < len ∧ 0 < w.2.length ∧ w.1 < start + len ∧ start < w.1 + w.2.length := by
  constructor
  · rintro ⟨x, h₁, h₂, h₃, h₄⟩
    omega
  · rintro ⟨hlen, hbytes, hlt, hgt⟩
    exact ⟨max start w.1, by omega, by omega, by omega, by omega⟩

/-- A record that is no miss has a byte in the range, or only touches it. -/
lemma meets_iff (hlen : 0 < len) (hroom : start + len < 2 ^ 32) : Meets start len w ↔
    InSpace w ∧ (HasByte start len w ∨ OnlyTouches start len w) := by
  rw [Meets, if_pos hroom, hasByte_iff, OnlyTouches, ← List.length_eq_zero_iff]
  refine and_congr_right fun _ => ?_
  omega

namespace WellFormedHex

variable {f : WellFormedHex}

/-- `readData` returns, and its value is greater than 0 exactly when an address of the range is
defined. -/
def SuccessMeansData (f : WellFormedHex) (a n : ℕ) : Prop :=
  ∃ ret buf max_read_len, readData f.file a n = some (ret, buf, max_read_len) ∧
    (0 < ret ↔ ∃ x, a ≤ x ∧ x < a + n ∧ f.definedAt x ≠ none)

/-- The condition.  When the end of the range does not wrap around: no record that ends at the end
of the address space begins in the range or where it ends; when another record only touches the
range, some record has a byte in it; and when one that ends at the end of the address space has a
byte in it, one that ends before does not miss it.  When it wraps around: every record that begins
before the range and reaches it ends at its last address or behind, and there is such a record
exactly when some record has a byte in the range. -/
def SuccessWhen (f : WellFormedHex) (a n : ℕ) : Prop :=
  if a + n < 2 ^ 32 then
    (∀ w ∈ f.writes, Closes w → ¬ (a ≤ w.1 ∧ w.1 ≤ a + n)) ∧
      ((∃ w ∈ f.writes, InSpace w ∧ OnlyTouches a n w) → ∃ w ∈ f.writes, HasByte a n w) ∧
      ((∃ w ∈ f.writes, Closes w ∧ HasByte a n w) →
        ∃ w ∈ f.writes, InSpace w ∧ (HasByte a n w ∨ OnlyTouches a n w))
  else
    (∀ w ∈ reaching a f.writes, a + n ≤ w.1 + w.2.length + 1) ∧
      (reaching a f.writes ≠ [] ↔ ∃ w ∈ f.writes, HasByte a n w)

lemma defined_iff : (∃ x, a ≤ x ∧ x < a + n ∧ f.definedAt x ≠ none) ↔
    ∃ w ∈ f.writes, HasByte a n w := by
  simp only [definedAt, image_ne_none_iff, writeAt_ne_none_iff, HasByte]
  constructor
  · rintro ⟨x, h₁, h₂, w, hw, h₃⟩
    exact ⟨w, hw, x, h₁, h₂, h₃⟩
  · rintro ⟨w, hw, x, h₁, h₂, h₃⟩
    exact ⟨x, h₁, h₂, w, hw, h₃⟩

/-- The value is right when the copies stay in their blocks, and the records that are no misses
are there exactly when there are data. -/
lemma successMeansData_iff_meets (ha : a < 2 ^ 32) (hn : n < 2 ^ 32) : SuccessMeansData f a n ↔
    (∀ w ∈ f.writes, StaysInside a n w) ∧
      ((∃ w ∈ f.writes, Meets a n w) ↔ ∃ w ∈ f.writes, HasByte a n w) := by
  obtain ⟨hok, hnot⟩ := readData_range f.file ha hn
  rw [f.fileWrites_eq] at hok hnot
  rw [SuccessMeansData, defined_iff]
  by_cases hall : ∀ w ∈ f.writes, StaysInside a n w
  · obtain ⟨ret, buf, m, hread, hret, -⟩ := hok hall
    rw [and_iff_right hall, ← hret]
    constructor
    · rintro ⟨ret', buf', m', hread', h⟩
      rw [hread, Option.some.injEq, Prod.mk.injEq] at hread'
      rw [hread'.1]
      exact h
    · exact fun h => ⟨ret, buf, m, hread, h⟩
  · refine iff_of_false ?_ fun h => hall h.1
    rintro ⟨ret, buf, m, hread, -⟩
    rw [hnot hall] at hread
    cases hread

/-- A range whose end does not wrap around. -/
lemma successMeansData_of_lt (hpos : 0 < n) (ha : a < 2 ^ 32) (hn : n < 2 ^ 32)
    (hroom : a + n < 2 ^ 32) : SuccessMeansData f a n ↔ SuccessWhen f a n := by
  rw [successMeansData_iff_meets ha hn, SuccessWhen, if_pos hroom, ← f.staysInside_iff hroom]
  simp only [meets_iff hpos hroom]
  refine and_congr_right fun _ => ?_
  constructor
  · intro h
    refine ⟨?_, ?_⟩
    · rintro ⟨w, hw, hin, htouch⟩
      exact h.mp ⟨w, hw, hin, Or.inr htouch⟩
    · rintro ⟨w, hw, -, hbyte⟩
      exact h.mpr ⟨w, hw, hbyte⟩
  · rintro ⟨htouch, hlost⟩
    constructor
    · rintro ⟨w, hw, hin, hbyte | honly⟩
      · exact ⟨w, hw, hbyte⟩
      · exact htouch ⟨w, hw, hin, honly⟩
    · rintro ⟨w, hw, hbyte⟩
      rcases f.inSpace_or_closes hw with hin | hcloses
      · exact ⟨w, hw, hin, Or.inl hbyte⟩
      · exact hlost ⟨w, hw, hcloses, hbyte⟩

/-- A range whose end wraps around. -/
lemma successMeansData_of_le (ha : a < 2 ^ 32) (hn : n < 2 ^ 32) (hwrap : 2 ^ 32 ≤ a + n) :
    SuccessMeansData f a n ↔ SuccessWhen f a n := by
  have hreaching : reaching a f.writes ≠ [] ↔ ∃ w ∈ f.writes, InSpace w ∧ Reaches a w := by
    simp only [← mem_reaching]
    exact ⟨List.exists_mem_of_ne_nil _, fun ⟨w, hw⟩ => List.ne_nil_of_mem hw⟩
  rw [successMeansData_iff_meets ha hn, SuccessWhen, if_neg hwrap.not_gt, hreaching]
  simp only [StaysInside, Meets, if_neg hwrap.not_gt, mem_reaching, and_imp]

/-- **A read succeeds exactly when there are data, unless a record only touches the range** or
something ends at the end of the address space: for every well-formed file and every range that is
not empty, `readData` returns a value greater than 0 exactly when an address of the range is
defined, if and only if the condition holds. -/
theorem successMeansData_iff (f : WellFormedHex) (a n : ℕ) (hpos : 0 < n) (ha : a < 2 ^ 32)
    (hn : n < 2 ^ 32) : SuccessMeansData f a n ↔ SuccessWhen f a n := by
  by_cases hroom : a + n < 2 ^ 32
  · exact successMeansData_of_lt hpos ha hn hroom
  · exact successMeansData_of_le ha hn (not_lt.mp hroom)

/-- The addresses 0 and 1. -/
theorem successMeansData_sample : SuccessMeansData sample 0 2 := by
  refine (successMeansData_iff sample 0 2 (by norm_num) (by norm_num) (by norm_num)).mpr ?_
  rw [SuccessWhen, if_pos (by norm_num)]
  have hbyte : ∃ w ∈ sample.writes, HasByte 0 2 w :=
    ⟨(0, [5]), by decide, hasByte_iff.mpr (by decide)⟩
  refine ⟨by decide, fun _ => hbyte, ?_⟩
  rintro ⟨w, hw, hcloses, -⟩
  exact absurd hcloses ((by decide : ∀ w ∈ sample.writes, ¬ Closes w) w hw)

/-- The byte at the address 0 ends where the range of the address 1 begins, and the byte at the
address 2 begins where it ends: the read succeeds, and nothing is defined. -/
theorem success_without_data :
    readData sample.file 1 1 = some (1, [0, 0], 0) ∧ sample.definedAt 1 = none ∧
      ¬ SuccessMeansData sample 1 1 := by
  have hread : readData sample.file 1 1 = some (1, [0, 0], 0) := by decide
  have hnone : sample.definedAt 1 = none := by decide
  refine ⟨hread, hnone, ?_⟩
  rintro ⟨ret, buf, m, hread', h⟩
  rw [hread, Option.some.injEq, Prod.mk.injEq] at hread'
  obtain ⟨rfl, -⟩ := hread'
  obtain ⟨x, hle, hlt, hx⟩ := h.mp one_pos
  obtain rfl : x = 1 := by omega
  exact hx hnone

end WellFormedHex

end SignalEventLoop.Device
