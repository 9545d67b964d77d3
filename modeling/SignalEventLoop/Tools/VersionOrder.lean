/-
# The order of the versions

`versionsMap` is a `std::map` with the comparator `version_compare_less`
(`imp/changelog-format.h`), which divides both texts into numbers and compares the numbers.  An
empty group counts as 0, nothing stands behind a dot at the end, and any other character makes
the whole text count as no numbers at all.

Whatever the texts look like, the comparison is one of lists of numbers.
-/
import SignalEventLoop.Tools.ChangelogSections
import SignalEventLoop.Tools.ValidVersion

namespace SignalEventLoop.Tools

open Lib ChangelogFormatter

namespace VersionOrder

/-! ## Model -/

/-- `version_compare_less::operator()`; `none` when it throws. -/
def version_compare_less (x y : Bytes) : Option Bool :=
  (str_to_ver x).bind fun vec1 => (str_to_ver y).map fun vec2 => versionCompareLess vec1 vec2

/-- `versionsMap.find(version)`: the first entry that is not less, unless the version is less than
it. -/
def find (version : Bytes) : List (Bytes × VersionInfo) → Option (Option (Bytes × VersionInfo))
  | [] => some none
  | e :: m => (version_compare_less e.1 version).bind fun less =>
    if less then find version m
    else (version_compare_less version e.1).map fun less => if less then none else some e

/-- `ChangelogFormatter::checkVersionExisted` -/
def checkVersionExisted (F : ChangelogFormatter) (version : Bytes) : Option Bool :=
  (find version F.versionsMap).map fun iter => iter.isSome

/-- The map after some entries. -/
def emplaceAll (entries : List (Bytes × VersionInfo)) : Option (List (Bytes × VersionInfo)) :=
  run (fun m e => emplaceVersion e.1 e.2 m) [] entries

/-! ## Versions -/

/-- The groups of digits are numbers of 64 bits. -/
def GroupsFit (version : Bytes) : Prop :=
  ∀ digits ∈ version.splitOnP (!isDecimalDigit ·), decimalValue digits < 2 ^ 64

/-- A version `major.minor.iter` with components of 32 bits. -/
structure Numbered where
  version : ValidVersion.Version
  major_lt : decimalValue version.major < 2 ^ 32
  minor_lt : decimalValue version.minor < 2 ^ 32
  iter_lt : decimalValue version.iter < 2 ^ 32

namespace Numbered

def bytes (x : Numbered) : Bytes := x.version.bytes

def major (x : Numbered) : ℕ := decimalValue x.version.major

def minor (x : Numbered) : ℕ := decimalValue x.version.minor

def iter (x : Numbered) : ℕ := decimalValue x.version.iter

/-- The numbers are in lexicographic order. -/
def Less (x y : Numbered) : Prop :=
  x.major < y.major ∨ x.major = y.major ∧
    (x.minor < y.minor ∨ x.minor = y.minor ∧ x.iter < y.iter)

instance (x y : Numbered) : Decidable (x.Less y) := inferInstanceAs (Decidable (_ ∨ _))

/-- The numbers are the same; leading zeros make no difference. -/
def SameNumbers (x y : Numbered) : Prop :=
  x.major = y.major ∧ x.minor = y.minor ∧ x.iter = y.iter

end Numbered

variable {version digits : Bytes} {ret u v : List ℕ} {e : Bytes × VersionInfo}
  {m : List (Bytes × VersionInfo)}

/-! ## The numbers of a text -/

lemma stoul_of_lt (h : decimalValue digits < 2 ^ 64) : ∃ n, stoul digits = some n :=
  ⟨_, if_pos h⟩

/-- Digits go on the group. -/
lemma strToVerLoop_digits {w : Bytes} (hw : ∀ c ∈ w, isDecimalDigit c = true) (digits rest : Bytes)
    (ret : List ℕ) :
    strToVerLoop digits (w ++ rest) ret = strToVerLoop (digits ++ w) rest ret := by
  induction w generalizing digits with
  | nil => simp
  | cons c w ih =>
    rw [List.forall_mem_cons] at hw
    rw [List.cons_append, strToVerLoop, if_pos hw.1, ih hw.2, List.append_assoc,
      List.singleton_append]

lemma strToVerLoop_fits (hdigits : ∀ c ∈ digits, isDecimalDigit c = true)
    (h : GroupsFit (digits ++ version)) : ∃ v, strToVerLoop digits version ret = some v := by
  induction version generalizing digits ret with
  | nil =>
    rw [List.append_nil, GroupsFit,
      List.splitOnP_eq_singleton fun c hc => by simp [hdigits c hc]] at h
    obtain ⟨n, hn⟩ := stoul_of_lt (h digits (List.mem_singleton_self _))
    rw [strToVerLoop, hn]
    split_ifs
    · exact ⟨_, rfl⟩
    · exact ⟨_, rfl⟩
  | cons c version ih =>
    rw [strToVerLoop]
    by_cases hc : isDecimalDigit c = true
    · have hall : ∀ d ∈ digits ++ [c], isDecimalDigit d = true := by
        simpa [or_imp, forall_and, hc] using hdigits
      rw [if_pos hc]
      refine ih hall ?_
      rwa [List.append_assoc, List.singleton_append]
    · rw [if_neg hc]
      by_cases hdot : c = 46
      · -- the dot ends a group
        rw [GroupsFit, List.splitOnP_append_cons_of_forall_mem
          (fun d hd => by simp [hdigits d hd]) c (by simp [hc]), List.forall_mem_cons] at h
        obtain ⟨n, hn⟩ : ∃ n, (if digits ≠ [] then stoul digits else some 0) = some n := by
          split_ifs
          · exact stoul_of_lt h.1
          · exact ⟨0, rfl⟩
        rw [if_pos hdot, hn, Option.bind_some]
        exact ih (by simp) h.2
      · rw [if_neg hdot]
        exact ⟨[], rfl⟩

/-- The numbers are found. -/
lemma GroupsFit.exists_ver (h : GroupsFit version) : ∃ v, str_to_ver version = some v :=
  strToVerLoop_fits (by simp) h

lemma stoul_of_lt_32 (h : decimalValue digits < 2 ^ 32) :
    stoul digits = some (decimalValue digits) := by
  rw [stoul, if_pos (h.trans (by norm_num)), Nat.mod_eq_of_lt h]

/-- A component with the dot behind it. -/
lemma strToVerLoop_component (hdigits : ValidVersion.IsDigits digits)
    (hlt : decimalValue digits < 2 ^ 32) (rest : Bytes) (ret : List ℕ) :
    strToVerLoop [] (digits ++ 46 :: rest) ret =
      strToVerLoop [] rest (ret ++ [decimalValue digits]) := by
  rw [strToVerLoop_digits hdigits.2, List.nil_append, strToVerLoop, if_neg (by decide),
    if_pos rfl, if_pos hdigits.1, stoul_of_lt_32 hlt, Option.bind_some]

lemma strToVerLoop_last (hdigits : ValidVersion.IsDigits digits)
    (hlt : decimalValue digits < 2 ^ 32) (ret : List ℕ) :
    strToVerLoop [] digits ret = some (ret ++ [decimalValue digits]) := by
  have hall := strToVerLoop_digits hdigits.2 [] [] ret
  rw [List.append_nil, List.nil_append] at hall
  rw [hall, strToVerLoop, if_pos hdigits.1, stoul_of_lt_32 hlt, Option.map_some]

/-- The components of a version. -/
lemma Numbered.str_to_ver (x : Numbered) :
    ChangelogFormatter.str_to_ver x.bytes = some [x.major, x.minor, x.iter] := by
  rw [ChangelogFormatter.str_to_ver, Numbered.bytes, ValidVersion.Version.bytes,
    strToVerLoop_component x.version.isDigits_major x.major_lt,
    strToVerLoop_component x.version.isDigits_minor x.minor_lt,
    strToVerLoop_last x.version.isDigits_iter x.iter_lt]
  rfl

/-! ## The comparison -/

lemma version_compare_less_eq {x y : Bytes} (hx : str_to_ver x = some u)
    (hy : str_to_ver y = some v) : version_compare_less x y = some (decide (u < v)) := by
  rw [version_compare_less, hx, hy, Option.bind_some, Option.map_some, Option.some.injEq,
    Bool.eq_iff_iff, versionCompareLess_iff, decide_eq_true_iff]

/-- The texts whose groups fit, in the order of the comparator. -/
lemma isStrictWeakOrder_version_compare_less :
    IsStrictWeakOrder {version // GroupsFit version}
      (fun x y => version_compare_less x y = some true) := by
  have hnumbers : ∃ f : {version // GroupsFit version} → List ℕ,
      ∀ x, str_to_ver x.1 = some (f x) :=
    ⟨fun x => x.2.exists_ver.choose, fun x => x.2.exists_ver.choose_spec⟩
  obtain ⟨f, hf⟩ := hnumbers
  have hless : (fun x y : {version // GroupsFit version} => version_compare_less x y = some true) =
      Order.Preimage f (· < ·) := by
    funext x y
    rw [version_compare_less_eq (hf x) (hf y), Option.some.injEq, decide_eq_true_iff]
    rfl
  have hlists : IsStrictWeakOrder (List ℕ) (· < ·) := isStrictWeakOrder_of_isOrderConnected
  rw [hless]
  infer_instance

lemma Numbered.less_iff (x y : Numbered) :
    [x.major, x.minor, x.iter] < [y.major, y.minor, y.iter] ↔ x.Less y := by
  simp only [List.cons_lt_cons_iff, List.not_lt_nil, and_false, or_false, Numbered.Less]

lemma Numbered.version_compare_less (x y : Numbered) :
    VersionOrder.version_compare_less x.bytes y.bytes = some (decide (x.Less y)) := by
  rw [version_compare_less_eq x.str_to_ver y.str_to_ver, Option.some.injEq, decide_eq_decide,
    x.less_iff y]

/-- The same version is the same numbers. -/
lemma Numbered.sameVersion_iff (x y : Numbered) :
    SameVersion x.bytes y.bytes ↔ x.SameNumbers y := by
  rw [SameVersion, x.str_to_ver, y.str_to_ver]
  simp [Numbered.SameNumbers, eq_comm]

/-! ## The map -/

/-- What `find` finds in a map that is in its order. -/
lemma find_spec (hm : m.Pairwise Precedes) (hfit : ∀ e ∈ m, GroupsFit e.1)
    (hv : str_to_ver version = some v) :
    ∃ found, find version m = some found ∧
      ∀ e, found = some e ↔ e ∈ m ∧ SameVersion e.1 version := by
  induction m with
  | nil => exact ⟨none, rfl, by simp⟩
  | cons e₀ m ih =>
    have hcons := List.pairwise_cons.mp hm
    rw [List.forall_mem_cons] at hfit
    obtain ⟨u, hu⟩ := hfit.1.exists_ver
    rw [find, version_compare_less_eq hu hv, version_compare_less_eq hv hu]
    -- the entries behind the first one are greater
    have hgreater : ∀ e ∈ m, SameVersion e.1 version → u < v := by
      rintro e he ⟨w, hw, hw'⟩
      obtain ⟨u', w', hu', hw'', hlt⟩ := hcons.1 e he
      obtain rfl : u' = u := Option.some.inj (hu'.symm.trans hu)
      obtain rfl : w' = w := Option.some.inj (hw''.symm.trans hw)
      obtain rfl : w' = v := Option.some.inj (hw'.symm.trans hv)
      exact hlt
    have hfirst : SameVersion e₀.1 version ↔ u = v := by
      rw [SameVersion, hu, hv]
      simp [eq_comm]
    rcases lt_trichotomy u v with hlt | heq | hgt
    · -- the first entry is less, and the search goes on
      obtain ⟨found, hfound, hiff⟩ := ih hcons.2 hfit.2
      refine ⟨found, by simp [hlt, hfound], fun e => ?_⟩
      rw [hiff, List.mem_cons]
      refine and_congr_left fun hsame => ⟨Or.inr, fun he => he.resolve_left ?_⟩
      rintro rfl
      exact hlt.ne (hfirst.mp hsame)
    · refine ⟨some e₀, by simp [heq], fun e => ?_⟩
      rw [Option.some.injEq, List.mem_cons]
      constructor
      · rintro rfl
        exact ⟨Or.inl rfl, hfirst.mpr heq⟩
      · rintro ⟨rfl | he, hsame⟩
        · rfl
        · exact absurd heq (hgreater e he hsame).ne
    · -- the version is less than all entries
      refine ⟨none, by simp [hgt, hgt.asymm], fun e => ?_⟩
      simp only [reduceCtorEq, List.mem_cons, false_iff, not_and]
      rintro (rfl | he) hsame
      · exact hgt.ne' (hfirst.mp hsame)
      · exact hgt.asymm (hgreater e he hsame)

/-- A map whose keys are in their order, and whose comparisons do not throw. -/
structure IsVersionsMap (m : List (Bytes × VersionInfo)) : Prop where
  ordered : m.Pairwise Precedes
  fits : ∀ e ∈ m, GroupsFit e.1

lemma exists_insertVersion (hm : ∀ e' ∈ m, GroupsFit e'.1) (v : List ℕ)
    (e : Bytes × VersionInfo) : ∃ m', insertVersion v e m = some m' := by
  induction m with
  | nil => exact ⟨_, rfl⟩
  | cons e₀ m ih =>
    rw [List.forall_mem_cons] at hm
    obtain ⟨u, hu⟩ := hm.1.exists_ver
    obtain ⟨m', hm'⟩ := ih hm.2
    rw [insertVersion, hu, Option.bind_some]
    split_ifs
    · exact ⟨_, rfl⟩
    · exact ⟨_, by rw [hm', Option.map_some]⟩
    · exact ⟨_, rfl⟩

/-- One more entry. -/
lemma IsVersionsMap.emplaceVersion (hm : IsVersionsMap m) (he : GroupsFit e.1) :
    ∃ m', ChangelogFormatter.emplaceVersion e.1 e.2 m = some m' ∧ IsVersionsMap m' := by
  rw [ChangelogFormatter.emplaceVersion]
  split_ifs
  · exact ⟨_, rfl, List.pairwise_singleton _ _, by simpa using he⟩
  · obtain ⟨v, hv⟩ := he.exists_ver
    obtain ⟨m', hm'⟩ := exists_insertVersion hm.fits v e
    rw [hv, Option.bind_some]
    exact ⟨m', hm', pairwise_insertVersion hm.ordered hv hm',
      forall_insertVersion he hm.fits hm'⟩

lemma exists_emplaceAll {entries : List (Bytes × VersionInfo)} (hm : IsVersionsMap m)
    (hfit : ∀ e ∈ entries, GroupsFit e.1) :
    ∃ m', run (fun m e => ChangelogFormatter.emplaceVersion e.1 e.2 m) m entries = some m' ∧
      IsVersionsMap m' := by
  induction entries generalizing m with
  | nil => exact ⟨m, rfl, hm⟩
  | cons e entries ih =>
    rw [List.forall_mem_cons] at hfit
    obtain ⟨m', hm', hmap⟩ := hm.emplaceVersion hfit.1
    obtain ⟨m'', hm'', hmap'⟩ := ih hmap hfit.2
    exact ⟨m'', run_cons_eq_some.mpr ⟨m', hm', hm''⟩, hmap'⟩

/-- `find` finds the entry of the version, and no other one. -/
def FindsVersion (m : List (Bytes × VersionInfo)) (x : Numbered) : Prop :=
  ∃ found, find x.bytes m = some found ∧
    (∀ e, found = some e ↔ e ∈ m ∧ SameVersion e.1 x.bytes) ∧
    ∀ e ∈ m, ∀ y : Numbered, e.1 = y.bytes → (found = some e ↔ y.SameNumbers x)

lemma IsVersionsMap.findsVersion (hm : IsVersionsMap m) (x : Numbered) : FindsVersion m x := by
  obtain ⟨found, hfound, hiff⟩ := find_spec hm.ordered hm.fits x.str_to_ver
  refine ⟨found, hfound, hiff, fun e he y hy => ?_⟩
  rw [hiff, ← y.sameVersion_iff x, hy]
  exact and_iff_right he

/-- What `checkVersionExisted` says. -/
lemma FindsVersion.checkVersionExisted {F : ChangelogFormatter} {x : Numbered}
    (h : FindsVersion F.versionsMap x) :
    ∃ existed, VersionOrder.checkVersionExisted F x.bytes = some existed ∧
      (existed = true ↔ ∃ e ∈ F.versionsMap, SameVersion e.1 x.bytes) := by
  obtain ⟨found, hfound, hiff, -⟩ := h
  refine ⟨found.isSome, by rw [VersionOrder.checkVersionExisted, hfound, Option.map_some], ?_⟩
  rw [Option.isSome_iff_exists]
  exact exists_congr fun e => hiff e

/-- **The order of the versions**: a strict weak order of all texts whose groups fit, the order of
the numbers for versions, and `find` finds by the numbers. -/
theorem versions_ordered :
    (∀ x y, GroupsFit x → GroupsFit y → ∃ less, version_compare_less x y = some less) ∧
    IsStrictWeakOrder {version // GroupsFit version}
      (fun x y => version_compare_less x y = some true) ∧
    (∀ x y : Numbered, version_compare_less x.bytes y.bytes = some (decide (x.Less y))) ∧
    ∀ entries, (∀ e ∈ entries, GroupsFit e.1) →
      ∃ m, emplaceAll entries = some m ∧ ∀ x : Numbered, FindsVersion m x ∧
        ∀ F : ChangelogFormatter, F.versionsMap = m →
          ∃ existed, checkVersionExisted F x.bytes = some existed ∧
            (existed = true ↔ ∃ e ∈ m, SameVersion e.1 x.bytes) := by
  refine ⟨fun x y hx hy => ?_, isStrictWeakOrder_version_compare_less,
    Numbered.version_compare_less, fun entries hfit => ?_⟩
  · obtain ⟨u, hu⟩ := hx.exists_ver
    obtain ⟨v, hv⟩ := hy.exists_ver
    exact ⟨_, version_compare_less_eq hu hv⟩
  · obtain ⟨m, hm, hmap⟩ := exists_emplaceAll ⟨.nil, by simp⟩ hfit
    refine ⟨m, hm, fun x => ⟨hmap.findsVersion x, ?_⟩⟩
    rintro F rfl
    exact (hmap.findsVersion x).checkVersionExisted

end VersionOrder

end SignalEventLoop.Tools
