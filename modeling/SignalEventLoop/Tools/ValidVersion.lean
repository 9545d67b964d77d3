/-
# The version on the command line

`ChangelogFormatter::isValidVersion` (`imp/changelog-format.cpp`) looks for two dots and for
digits around them, and at last converts the three numbers to print them.  The conversion throws
when a number does not fit into an `int`, and nobody catches it.
-/
import SignalEventLoop.Lib.CText

namespace SignalEventLoop.Tools

open Lib

namespace ValidVersion

/-! ## Model -/

/-- `version.find(c, pos)` -/
def find (version : Bytes) (c : UInt8) (pos : ℕ) : Option ℕ :=
  ((version.drop pos).idxOf? c).map (pos + ·)

/-- The loop over the bytes from `i` up to `j`. -/
def onlyDigits (version : Bytes) (i j : ℕ) : Bool :=
  ((version.take j).drop i).all isDecimalDigit

/-- `ChangelogFormatter::isValidVersion`; `none` when it throws. -/
def isValidVersion (version : Bytes) : Option Bool :=
  match find version 46 0 with
  | none => some false
  | some pos1 =>
    if pos1 = 0 then some false
    else
      match find version 46 (pos1 + 1) with
      | none => some false
      | some pos2 =>
        if pos2 = pos1 + 1 ∨ pos2 = version.length - 1 then some false
        else if !onlyDigits version 0 pos1 then some false
        else if !onlyDigits version (pos1 + 1) pos2 then some false
        else if !onlyDigits version (pos2 + 1) version.length then some false
        else
          -- the second argument of `substr` is a length, so `minor` is cut behind its digits
          (stoi (version.take pos1)).bind fun _ =>
            (stoi ((version.drop (pos1 + 1)).take pos2)).bind fun _ =>
              (stoi (version.drop (pos2 + 1))).map fun _ => true

/-! ## Grammar -/

/-- One of the numbers. -/
def IsDigits (digits : Bytes) : Prop :=
  digits ≠ [] ∧ ∀ c ∈ digits, isDecimalDigit c = true

instance (digits : Bytes) : Decidable (IsDigits digits) :=
  inferInstanceAs (Decidable (_ ∧ _))

/-- Three numbers of any length. -/
structure Version where
  major : Bytes
  minor : Bytes
  iter : Bytes
  isDigits_major : IsDigits major
  isDigits_minor : IsDigits minor
  isDigits_iter : IsDigits iter

namespace Version

/-- The numbers with the dots between them. -/
def bytes (v : Version) : Bytes :=
  v.major ++ 46 :: (v.minor ++ 46 :: v.iter)

/-- Each of the numbers is an `int`. -/
def Fits (v : Version) : Prop :=
  decimalValue v.major < 2 ^ 31 ∧ decimalValue v.minor < 2 ^ 31 ∧ decimalValue v.iter < 2 ^ 31

instance (v : Version) : Decidable v.Fits :=
  inferInstanceAs (Decidable (_ ∧ _))

end Version

def IsVersion (version : Bytes) : Prop :=
  ∃ v : Version, version = v.bytes

/-! ## The dots -/

variable {version w rest : Bytes} {c : UInt8} {pos i : ℕ}

lemma find_append (hdrop : version.drop pos = w ++ c :: rest) (hw : c ∉ w) :
    find version c pos = some (pos + w.length) := by
  rw [find, hdrop, List.idxOf?, List.findIdx?_append]
  have hnone : w.findIdx? (· == c) = none := by
    rw [List.findIdx?_eq_none_iff]
    intro x hx
    simp [ne_of_mem_of_not_mem hx hw]
  rw [hnone, List.findIdx?_cons]
  simp

lemma find_eq_some (h : find version c pos = some i) :
    ∃ w rest, version.drop pos = w ++ c :: rest ∧ c ∉ w ∧ i = pos + w.length := by
  obtain ⟨k, hk, rfl⟩ := Option.map_eq_some_iff.mp h
  have hmem : c ∈ version.drop pos := by
    by_contra hnone
    rw [List.idxOf?_eq_none_iff.mpr hnone] at hk
    simp at hk
  obtain ⟨w, rest, hdrop, hw⟩ := List.eq_append_cons_of_mem hmem
  have hfound := find_append hdrop hw
  rw [h, Option.some.injEq] at hfound
  exact ⟨w, rest, hdrop, hw, hfound⟩

lemma IsDigits.notMem {digits : Bytes} (h : IsDigits digits) : (46 : UInt8) ∉ digits := by
  intro hmem
  exact absurd (h.2 46 hmem) (by decide)

lemma onlyDigits_iff {i j : ℕ} (hword : (version.take j).drop i = w) :
    onlyDigits version i j = true ↔ ∀ c ∈ w, isDecimalDigit c = true := by
  rw [onlyDigits, hword, List.all_eq_true]

/-- What the function does with a text that has two dots. -/
lemma isValidVersion_split {major minor iter : Bytes} (hmajor : 46 ∉ major) (hminor : 46 ∉ minor) :
    isValidVersion (major ++ 46 :: (minor ++ 46 :: iter)) =
      if IsDigits major ∧ IsDigits minor ∧ IsDigits iter then
        (stoi major).bind fun _ =>
          (stoi (minor ++ 46 :: iter.take major.length)).bind fun _ =>
            (stoi iter).map fun _ => true
      else some false := by
  set version := major ++ 46 :: (minor ++ 46 :: iter) with hversion
  set pos2 := major.length + 1 + minor.length with hpos2
  have hbehind : version.drop (major.length + 1) = minor ++ 46 :: iter := by
    rw [hversion, List.append_cons]
    exact List.drop_left' (by simp)
  have hbehind' : version.drop (pos2 + 1) = iter := by
    rw [hpos2, Nat.add_assoc, ← List.drop_drop, hbehind, List.append_cons]
    exact List.drop_left' (by simp)
  have htake : version.take major.length = major := List.take_left' rfl
  have hfind : find version 46 0 = some major.length := by
    rw [find_append (w := major) (by rw [List.drop_zero]) hmajor, Nat.zero_add]
  have hfind' : find version 46 (major.length + 1) = some pos2 := find_append hbehind hminor
  have hlast : pos2 = version.length - 1 ↔ iter = [] := by
    rw [hversion, hpos2, ← List.length_eq_zero_iff]
    simp only [List.length_append, List.length_cons]
    omega
  have hdigits : onlyDigits version 0 major.length = true ↔ ∀ c ∈ major, isDecimalDigit c = true :=
    onlyDigits_iff htake
  have hdigits' : onlyDigits version (major.length + 1) pos2 = true ↔
      ∀ c ∈ minor, isDecimalDigit c = true := by
    refine onlyDigits_iff ?_
    rw [List.drop_take, hbehind, hpos2, Nat.add_sub_cancel_left, List.take_left' rfl]
  have hdigits'' : onlyDigits version (pos2 + 1) version.length = true ↔
      ∀ c ∈ iter, isDecimalDigit c = true := by
    refine onlyDigits_iff ?_
    rw [List.take_length, hbehind']
  have hminorCut : (version.drop (major.length + 1)).take pos2 =
      minor ++ 46 :: iter.take major.length := by
    rw [hbehind, hpos2, List.take_append, List.take_of_length_le (by omega),
      show major.length + 1 + minor.length - minor.length = major.length + 1 by omega,
      List.take_succ_cons]
  have hempty : major.length = 0 ↔ major = [] := List.length_eq_zero_iff
  have hempty' : pos2 = major.length + 1 ↔ minor = [] := by
    rw [hpos2, Nat.add_eq_left, List.length_eq_zero_iff]
  rw [isValidVersion, hfind]
  dsimp only
  rw [hfind']
  dsimp only
  rw [htake, hminorCut, hbehind']
  by_cases hall : IsDigits major ∧ IsDigits minor ∧ IsDigits iter
  · have ⟨⟨hne, h⟩, ⟨hne', h'⟩, hne'', h''⟩ := hall
    rw [if_pos hall, if_neg (hempty.not.mpr hne),
      if_neg (not_or_intro (hempty'.not.mpr hne') (hlast.not.mpr hne'')), hdigits.mpr h,
      hdigits'.mpr h', hdigits''.mpr h'']
    simp only [Bool.not_true, Bool.false_eq_true, if_false]
  · rw [if_neg hall]
    split_ifs with h₁ h₂ h₃ h₄ h₅
    · rfl
    · rfl
    · rfl
    · rfl
    · rfl
    · rw [hempty] at h₁
      rw [hempty', hlast, not_or] at h₂
      rw [Bool.not_eq_true', Bool.not_eq_false] at h₃ h₄ h₅
      exact absurd ⟨⟨h₁, hdigits.mp h₃⟩, ⟨h₂.1, hdigits'.mp h₄⟩, h₂.2, hdigits''.mp h₅⟩ hall

lemma IsDigits.stoi {digits : Bytes} (h : IsDigits digits) : Lib.stoi digits =
    if decimalValue digits < 2 ^ 31 then some (decimalValue digits : ℤ) else none := by
  rw [← stoi_digits h.1 h.2 (s := []) (by simp), List.append_nil]

/-- What the function does with a version. -/
lemma isValidVersion_bytes (v : Version) :
    isValidVersion v.bytes = if v.Fits then some true else none := by
  have hmajor := v.isDigits_major.stoi
  have hiter := v.isDigits_iter.stoi
  rw [Version.bytes, isValidVersion_split v.isDigits_major.notMem v.isDigits_minor.notMem,
    if_pos ⟨v.isDigits_major, v.isDigits_minor, v.isDigits_iter⟩, hmajor,
    stoi_digits v.isDigits_minor.1 v.isDigits_minor.2 (by simp; decide), hiter]
  by_cases hfits : v.Fits
  · have ⟨h, h', h''⟩ := hfits
    rw [if_pos h, if_pos h', if_pos h'', if_pos hfits]
    rfl
  · rw [if_neg hfits]
    rw [Version.Fits] at hfits
    split_ifs <;> first | rfl | omega

/-- Everything else is rejected before a number is converted. -/
lemma isValidVersion_of_not (h : ¬ IsVersion version) : isValidVersion version = some false := by
  cases hfind : find version 46 0 with
  | none => rw [isValidVersion, hfind]
  | some pos1 =>
    obtain ⟨major, rest, hdrop, hmajor, hpos1⟩ := find_eq_some hfind
    rw [List.drop_zero] at hdrop
    rw [Nat.zero_add] at hpos1
    cases hfind' : find version 46 (pos1 + 1) with
    | none =>
      rw [isValidVersion, hfind]
      dsimp only
      rw [hfind', ite_self]
    | some pos2 =>
      obtain ⟨minor, iter, hdrop', hminor, -⟩ := find_eq_some hfind'
      have hrest : version.drop (pos1 + 1) = rest := by
        rw [hdrop, hpos1, List.append_cons]
        exact List.drop_left' (by simp)
      rw [← hrest, hdrop'] at hdrop
      rw [hdrop, isValidVersion_split hmajor hminor, if_neg]
      rintro ⟨hdigits, hdigits', hdigits''⟩
      exact h ⟨⟨major, minor, iter, hdigits, hdigits', hdigits''⟩, hdrop⟩

/-- **The grammar of `isValidVersion`**: it returns, and accepts exactly the versions, for every
text but the versions with a number from 2^31 on. -/
theorem isValidVersion_grammar (version : Bytes) :
    (∃ valid, isValidVersion version = some valid ∧ (valid = true ↔ IsVersion version)) ↔
      ∀ v : Version, version = v.bytes → v.Fits := by
  constructor
  · rintro ⟨valid, hvalid, -⟩ v rfl
    by_contra hfits
    rw [isValidVersion_bytes, if_neg hfits] at hvalid
    simp at hvalid
  · intro hfits
    by_cases hversion : IsVersion version
    · obtain ⟨v, rfl⟩ := hversion
      refine ⟨true, ?_, by simp [IsVersion]⟩
      rw [isValidVersion_bytes, if_pos (hfits v rfl)]
    · exact ⟨false, isValidVersion_of_not hversion, by simp [hversion]⟩

/-- `2147483648.0.0` is a version, and `std::stoi` throws. -/
theorem isValidVersion_throws :
    ¬ ∃ valid, isValidVersion (text "2147483648.0.0") = some valid ∧
      (valid = true ↔ IsVersion (text "2147483648.0.0")) := by
  rintro ⟨valid, hvalid, -⟩
  have hthrows : isValidVersion (text "2147483648.0.0") = none := by decide
  rw [hthrows] at hvalid
  simp at hvalid

end ValidVersion

end SignalEventLoop.Tools
