/-
# The three strings of a device

`AimyUpdater::parserDeviceInfo` (`imp/device-update/device_updater.cpp`) runs once over the block.
It returns when the third field begins, so nobody looks for the end of the date.
-/
import SignalEventLoop.Device.ReplySafety

namespace SignalEventLoop.Device

open Lib

/-- A string that is not empty, without its terminator. -/
def IsWord (word : List UInt8) : Prop :=
  word ≠ [] ∧ 0 ∉ word

/-- What a device sends about itself. -/
structure DeviceStrings where
  version : List UInt8
  product : List UInt8
  date : List UInt8
  isWord_version : IsWord version
  isWord_product : IsWord product
  isWord_date : IsWord date

namespace DeviceStrings

/-- The strings with their terminators. -/
def bytes (s : DeviceStrings) : List UInt8 :=
  s.version ++ 0 :: (s.product ++ 0 :: (s.date ++ [0]))

/-- Where the strings begin. -/
def offsets (s : DeviceStrings) (start : ℕ) : List ℕ :=
  [start, start + s.version.length + 1, start + s.version.length + s.product.length + 2]

end DeviceStrings

/-- The three pointers point to the three strings, which lie in the block. -/
def PointsToStrings (data : List UInt8) (out : List ℕ) : Prop :=
  ∃ (before rest : List UInt8) (s : DeviceStrings),
    data = before ++ s.bytes ++ rest ∧ out = s.offsets before.length

def BeginsWithStrings (data : List UInt8) : Prop :=
  ∃ s : DeviceStrings, s.bytes <+: data

variable {data : List UInt8} {out : List ℕ}

/-- The date has an end in the block. -/
lemma PointsToStrings.date_ends (h : PointsToStrings data out) : 0 ∈ data.drop (out.getD 2 0) := by
  obtain ⟨before, rest, s, rfl, rfl⟩ := h
  have hdrop : (before ++ s.bytes ++ rest).drop
      (before.length + s.version.length + s.product.length + 2) = s.date ++ 0 :: rest := by
    have hsplit : before ++ s.bytes ++ rest =
        (before ++ s.version ++ 0 :: (s.product ++ [0])) ++ (s.date ++ 0 :: rest) := by
      simp [DeviceStrings.bytes]
    rw [hsplit]
    refine List.drop_left' ?_
    simp only [List.length_append, List.length_cons, List.length_nil]
    omega
  simp only [DeviceStrings.offsets, List.getD_cons_succ, List.getD_cons_zero, hdrop]
  simp

/-- Where the date is terminated, the pointers are right. -/
lemma pointsToStrings_of_accepted (hinfo : ¬ UnterminatedDate data)
    (hout : parserDeviceInfo data = some out) : PointsToStrings data out := by
  obtain ⟨version, product, tail, hversion, hproduct, ⟨c, rest, hc, rfl⟩, rfl, rfl⟩ :=
    parserDeviceInfo_eq_some.mp hout
  have hzero : 0 ∈ c :: rest := by
    by_contra hnone
    exact hinfo ⟨version, product, c :: rest, hversion, hproduct, ⟨by simp, hnone⟩, rfl⟩
  obtain ⟨date, tail, hdate, htail⟩ := List.eq_append_cons_of_mem hzero
  have hne : date ≠ [] := by
    rintro rfl
    exact hc (List.cons.inj hdate).1
  refine ⟨[], tail, ⟨version, product, date, hversion, hproduct, hne, htail⟩, ?_, ?_⟩
  · rw [hdate]
    simp [DeviceStrings.bytes]
  · simp [DeviceStrings.offsets]

lemma parser_of_beginsWith (h : BeginsWithStrings data) :
    ∃ out, parserDeviceInfo data = some out := by
  obtain ⟨s, rest, rfl⟩ := h
  obtain ⟨c, date, hdate⟩ := List.exists_cons_of_ne_nil s.isWord_date.1
  have hc : c ≠ 0 := by
    rintro rfl
    exact s.isWord_date.2 (by simp [hdate])
  refine ⟨_, parserDeviceInfo_eq_some.mpr ⟨s.version, s.product, s.date ++ 0 :: rest,
    s.isWord_version, s.isWord_product, ⟨c, date ++ 0 :: rest, hc, by rw [hdate]; simp⟩, ?_, rfl⟩⟩
  simp [DeviceStrings.bytes]

/-- **The strings of `parserDeviceInfo`**: it accepts every block that begins with three strings,
and what it accepts are three strings in the block, for exactly the blocks that are not cut in the
date. -/
theorem parserDeviceInfo_strings (data : List UInt8) :
    ((∀ out, parserDeviceInfo data = some out → PointsToStrings data out) ∧
      (BeginsWithStrings data → ∃ out, parserDeviceInfo data = some out)) ↔
        ¬ UnterminatedDate data := by
  constructor
  · rintro ⟨hpoints, -⟩ hcut
    obtain ⟨out, hout, hnone⟩ := hcut.accepted
    exact hnone (hpoints out hout).date_ends
  · intro hinfo
    exact ⟨fun out hout => pointsToStrings_of_accepted hinfo hout, parser_of_beginsWith⟩

/-- The date of `V\0P\0D` has no end. -/
theorem parserDeviceInfo_cut :
    ¬ ((∀ out, parserDeviceInfo [86, 0, 80, 0, 68] = some out →
        PointsToStrings [86, 0, 80, 0, 68] out) ∧
      (BeginsWithStrings [86, 0, 80, 0, 68] →
        ∃ out, parserDeviceInfo [86, 0, 80, 0, 68] = some out)) := by
  rintro ⟨hpoints, -⟩
  have hend := (hpoints [0, 2, 4] (by decide)).date_ends
  revert hend
  decide

end SignalEventLoop.Device
