/-
# Ordered maps as lists

A `std::map` is the list of its entries, in the order of their keys.  `emplace` keeps the entry
that is there, so that a map that is filled from entries has the first one of each key
(`mem_foldl_emplace_iff`); when the keys are different, it has just these entries, whatever the
order in which they come.
-/
import Mathlib.Data.List.Perm.Lattice
import Mathlib.Data.List.Nodup
import Mathlib.Order.Defs.LinearOrder
import Mathlib.Tactic

namespace SignalEventLoop.Lib.SortedMap

variable {κ ν : Type*} [LinearOrder κ]

/-- The entries are in the order of their keys. -/
def Sorted (m : List (κ × ν)) : Prop := m.Pairwise fun a b => a.1 < b.1

/-- `emplace(k, v)` -/
def emplace (k : κ) (v : ν) : List (κ × ν) → List (κ × ν)
  | [] => [(k, v)]
  | e :: m =>
    if k < e.1 then (k, v) :: e :: m
    else if k = e.1 then e :: m
    else e :: emplace k v m

/-- `find(k)` -/
def find (k : κ) (m : List (κ × ν)) : Option ν := (m.find? fun e => e.1 = k).map Prod.snd

variable {k : κ} {v : ν} {m l : List (κ × ν)} {e : κ × ν}

@[simp] lemma sorted_nil : Sorted ([] : List (κ × ν)) := List.Pairwise.nil

lemma sorted_cons : Sorted (e :: m) ↔ (∀ e' ∈ m, e.1 < e'.1) ∧ Sorted m := List.pairwise_cons

lemma mem_of_mem_emplace (he : e ∈ emplace k v m) : e ∈ m ∨ e = (k, v) := by
  induction m with
  | nil => exact Or.inr (List.mem_singleton.mp he)
  | cons d m ih =>
    rw [emplace] at he
    split_ifs at he
    · rcases List.mem_cons.mp he with he | he
      · exact Or.inr he
      · exact Or.inl he
    · exact Or.inl he
    · rcases List.mem_cons.mp he with he | he
      · exact Or.inl (he ▸ List.mem_cons_self)
      · exact (ih he).imp_left (List.mem_cons_of_mem d)

/-- The entries after `emplace`. -/
lemma mem_emplace (hm : Sorted m) :
    e ∈ emplace k v m ↔ e ∈ m ∨ e = (k, v) ∧ ∀ e' ∈ m, e'.1 ≠ k := by
  induction m with
  | nil => simp [emplace]
  | cons d m ih =>
    obtain ⟨hd, hm⟩ := sorted_cons.mp hm
    rw [emplace]
    split_ifs with hlt heq
    · have hnew : ∀ e' ∈ d :: m, e'.1 ≠ k := by
        intro e' he'
        rcases List.mem_cons.mp he' with rfl | he'
        · exact hlt.ne'
        · exact (hlt.trans (hd e' he')).ne'
      rw [List.mem_cons, and_iff_left hnew, or_comm]
    · have hold : ¬ ∀ e' ∈ d :: m, e'.1 ≠ k := fun h => h d List.mem_cons_self heq.symm
      simp only [hold, and_false, or_false]
    · rw [List.mem_cons, ih hm, List.mem_cons, or_assoc]
      have hdk : d.1 ≠ k := fun h => heq h.symm
      simp only [List.mem_cons, forall_eq_or_imp, ne_eq, hdk, not_false_eq_true, true_and]

lemma emplace_sorted (hm : Sorted m) : Sorted (emplace k v m) := by
  induction m with
  | nil => simp [emplace, Sorted]
  | cons d m ih =>
    obtain ⟨hd, hm'⟩ := sorted_cons.mp hm
    rw [emplace]
    split_ifs with hlt heq
    · refine sorted_cons.mpr ⟨fun e' he' => ?_, hm⟩
      rcases List.mem_cons.mp he' with rfl | he'
      · exact hlt
      · exact hlt.trans (hd e' he')
    · exact hm
    · refine sorted_cons.mpr ⟨fun e' he' => ?_, ih hm'⟩
      rcases (mem_emplace hm').mp he' with he' | ⟨rfl, -⟩
      · exact hd e' he'
      · exact lt_of_le_of_ne (not_lt.mp hlt) (Ne.symm heq)

/-- An ordered map is given by its entries. -/
lemma eq_of_mem_iff (hm : Sorted m) (hl : Sorted l) (h : ∀ e, e ∈ m ↔ e ∈ l) : m = l := by
  have hnodup : ∀ {m : List (κ × ν)}, Sorted m → m.Nodup :=
    fun hm => hm.imp fun hlt heq => absurd (congrArg Prod.fst heq) hlt.ne
  exact List.Perm.eq_of_pairwise (fun _ _ _ _ hab hba => absurd hab hba.asymm) hm hl
    ((List.perm_ext_iff_of_nodup (hnodup hm) (hnodup hl)).mpr h)

/-- **Entries in any order, whose keys may be the same.** The first one of a key is kept. -/
theorem mem_foldl_emplace_iff {es : List (κ × ν)} (hm : Sorted m) :
    e ∈ es.foldl (fun m e => emplace e.1 e.2 m) m ↔
      e ∈ m ∨ es.find? (fun e' => e'.1 = e.1) = some e ∧ ∀ e' ∈ m, e'.1 ≠ e.1 := by
  induction es generalizing m with
  | nil => simp
  | cons d es ih =>
    rw [List.foldl_cons, ih (emplace_sorted hm), List.find?_cons]
    simp only [mem_emplace hm]
    by_cases hd : d.1 = e.1
    · -- the entry `d` is the first one, and later ones are not added
      have hnot : ¬ ∀ e' : κ × ν, (e' ∈ m ∨ e' = (d.1, d.2) ∧ ∀ c ∈ m, c.1 ≠ d.1) →
          e'.1 ≠ e.1 := by
        intro h
        by_cases hin : ∀ c ∈ m, c.1 ≠ d.1
        · exact h (d.1, d.2) (Or.inr ⟨rfl, hin⟩) hd
        · push Not at hin
          obtain ⟨c, hc, heq⟩ := hin
          exact h c (Or.inl hc) (heq.trans hd)
      rw [or_iff_left fun h => hnot h.2]
      simp only [hd, decide_true, Option.some.injEq]
      rw [@eq_comm _ d e, ← hd]
    · have hne : e ≠ (d.1, d.2) := fun h => hd (by rw [h])
      simp only [hne, false_and, or_false, hd, decide_false]
      refine or_congr_right (and_congr_right fun _ => ?_)
      constructor
      · exact fun h e' he' => h e' (Or.inl he')
      · rintro h e' (he' | ⟨rfl, -⟩)
        · exact h e' he'
        · exact hd

/-- Where the keys are different, every entry is the first one of its key. -/
lemma find?_eq_some_iff_mem (hl : (l.map Prod.fst).Nodup) :
    l.find? (fun e' => e'.1 = e.1) = some e ↔ e ∈ l := by
  induction l with
  | nil => simp
  | cons d l ih =>
    rw [List.map_cons, List.nodup_cons, List.mem_map] at hl
    obtain ⟨hd, hl⟩ := hl
    rw [List.find?_cons, List.mem_cons]
    by_cases heq : d.1 = e.1
    · simp only [heq, decide_true, Option.some.injEq]
      have hnot : e ∉ l := fun he => hd ⟨e, he, heq.symm⟩
      rw [or_iff_left hnot, @eq_comm _ d e]
    · have hne : e ≠ d := fun h => heq (by rw [h])
      simp only [heq, decide_false, hne, false_or]
      exact ih hl

lemma foldl_emplace_sorted {es : List (κ × ν)} (hm : Sorted m) :
    Sorted (es.foldl (fun m e => emplace e.1 e.2 m) m) := by
  induction es generalizing m with
  | nil => exact hm
  | cons d es ih => exact ih (emplace_sorted hm)

/-- **Entries with different keys, in any order.** -/
theorem foldl_emplace_eq (hl : (l.map Prod.fst).Nodup) (hm : Sorted m) (h : ∀ e, e ∈ l ↔ e ∈ m) :
    l.foldl (fun m e => emplace e.1 e.2 m) [] = m := by
  refine eq_of_mem_iff (foldl_emplace_sorted sorted_nil) hm fun e => ?_
  rw [mem_foldl_emplace_iff sorted_nil, ← h, find?_eq_some_iff_mem hl]
  simp

lemma keys_nodup (hm : Sorted m) : (m.map Prod.fst).Nodup := by
  rw [List.Nodup, List.pairwise_map]
  exact hm.imp fun hlt => hlt.ne

/-- A map is filled from its own entries. -/
lemma foldl_emplace_self (hm : Sorted m) : m.foldl (fun m e => emplace e.1 e.2 m) [] = m :=
  foldl_emplace_eq (keys_nodup hm) hm fun _ => Iff.rfl

/-- Where the keys are different, an entry is found exactly when it is there. -/
lemma find_eq_some_iff (hl : (l.map Prod.fst).Nodup) : find k l = some v ↔ (k, v) ∈ l := by
  rw [find, Option.map_eq_some_iff, ← find?_eq_some_iff_mem hl]
  constructor
  · rintro ⟨⟨k', v'⟩, hfind, rfl⟩
    obtain rfl : k' = k := by simpa using List.find?_some hfind
    exact hfind
  · exact fun hfind => ⟨(k, v), hfind, rfl⟩

/-- What is found behind entries with different keys. -/
theorem find_foldl_emplace {es : List (κ × ν)} (hes : (es.map Prod.fst).Nodup) :
    find k (es.foldl (fun m e => emplace e.1 e.2 m) []) = some v ↔ (k, v) ∈ es := by
  rw [find_eq_some_iff (keys_nodup (foldl_emplace_sorted sorted_nil)),
    mem_foldl_emplace_iff sorted_nil, ← find?_eq_some_iff_mem hes]
  simp

/-- Entries that are there anyway do not count. -/
theorem foldl_emplace_of_subset {es : List (κ × ν)} (hm : Sorted m)
    (h : ∀ e ∈ m, e ∈ es.foldl (fun m e => emplace e.1 e.2 m) []) :
    es.foldl (fun m e => emplace e.1 e.2 m) m = es.foldl (fun m e => emplace e.1 e.2 m) [] := by
  refine eq_of_mem_iff (foldl_emplace_sorted hm) (foldl_emplace_sorted sorted_nil) fun e => ?_
  have hown : e ∈ es.foldl (fun m e => emplace e.1 e.2 m) [] ↔
      es.find? (fun e' => e'.1 = e.1) = some e := by
    rw [mem_foldl_emplace_iff sorted_nil]
    simp
  rw [mem_foldl_emplace_iff hm, hown]
  constructor
  · rintro (he | ⟨he, -⟩)
    · exact hown.mp (h e he)
    · exact he
  · intro he
    by_cases hkey : ∀ e' ∈ m, e'.1 ≠ e.1
    · exact Or.inr ⟨he, hkey⟩
    · push Not at hkey
      obtain ⟨e', he', heq⟩ := hkey
      -- the keys are different, so the two entries are the same
      have hsame : e' = e := List.inj_on_of_nodup_map
        (keys_nodup (foldl_emplace_sorted sorted_nil)) (h e' he') (hown.mpr he) heq
      exact Or.inl (hsame ▸ he')

end SignalEventLoop.Lib.SortedMap
