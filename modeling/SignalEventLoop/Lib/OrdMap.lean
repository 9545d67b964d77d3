/-
# Ordered maps: erasing an initial segment

A loop that walks an ordered map from its beginning, stops at the first entry that fails a
test, and erases the entries it has passed.  When the test is monotone in the order of the
keys, it removes exactly the entries that pass the test.
-/
import Mathlib.Tactic

namespace SignalEventLoop.Lib

variable {α β : Type*}

/-- On a list that is ordered compatibly with the test, `takeWhile` misses no element that
passes the test. -/
lemma mem_takeWhile_iff_of_pairwise {R : α → α → Prop} {p : α → Bool}
    (hp : ∀ a b, R a b → p b = true → p a = true) {l : List α} (hl : l.Pairwise R) {x : α} :
    x ∈ l.takeWhile p ↔ x ∈ l ∧ p x = true := by
  induction hl with
  | nil => simp
  | @cons a l ha _ ih =>
    by_cases hpa : p a = true
    · rw [List.takeWhile_cons_of_pos hpa, List.mem_cons, List.mem_cons, ih]
      constructor
      · rintro (rfl | ⟨hx, hpx⟩)
        · exact ⟨Or.inl rfl, hpa⟩
        · exact ⟨Or.inr hx, hpx⟩
      · rintro ⟨rfl | hx, hpx⟩
        · exact Or.inl rfl
        · exact Or.inr ⟨hx, hpx⟩
    · rw [List.takeWhile_cons_of_neg hpa]
      simp only [List.not_mem_nil, List.mem_cons, false_iff, not_and]
      rintro (rfl | hx) hpx
      · exact hpa hpx
      · exact hpa (hp a x (ha x hx) hpx)

variable {cmp : α → α → Ordering} [Std.TransCmp cmp] [Std.LawfulEqCmp cmp]

/-- An entry that is found after `erase` was there before, under another key. -/
lemma getElem?_erase_eq_some {m : Std.ExtTreeMap α β cmp} {k a : α} {w : β} :
    (m.erase k)[a]? = some w ↔ k ≠ a ∧ m[a]? = some w := by
  rw [Std.ExtTreeMap.getElem?_erase]
  split_ifs with hk
  · simp [Std.LawfulEqCmp.compare_eq_iff_eq.mp hk]
  · rw [Std.LawfulEqCmp.compare_eq_iff_eq] at hk
    simp [hk]

/-- The entries that are left after the keys of a list of entries were erased. -/
lemma getElem?_foldl_erase_eq_some {l : List (α × β)} {m : Std.ExtTreeMap α β cmp} {k : α}
    {w : β} :
    (l.foldl (fun m e => m.erase e.1) m)[k]? = some w ↔
      (∀ e ∈ l, e.1 ≠ k) ∧ m[k]? = some w := by
  induction l generalizing m with
  | nil => simp
  | cons e l ih =>
    rw [List.foldl_cons, ih, getElem?_erase_eq_some]
    simp only [List.mem_cons, forall_eq_or_imp]
    tauto

/-- The entries of an ordered map that an initial walk passes. -/
lemma mem_takeWhile_toList {m : Std.ExtTreeMap α β cmp} {p : α × β → Bool}
    (hp : ∀ a b, cmp a.1 b.1 = .lt → p b = true → p a = true) {e : α × β} :
    e ∈ m.toList.takeWhile p ↔ m[e.1]? = some e.2 ∧ p e = true := by
  rw [mem_takeWhile_iff_of_pairwise hp Std.ExtTreeMap.ordered_keys_toList,
    ← Std.ExtTreeMap.mem_toList_iff_getElem?_eq_some]

/-- Insertion that keeps an existing entry. -/
lemma getElem?_insertIfNew_of_getElem?_eq_none {m : Std.ExtTreeMap α β cmp} {k : α} {v : β}
    (hk : m[k]? = none) (a : α) [Decidable (k = a)] :
    (m.insertIfNew k v)[a]? = if k = a then some v else m[a]? := by
  have hmem : k ∉ m := by
    rw [Std.ExtTreeMap.mem_iff_isSome_getElem?, hk]
    simp
  rw [Std.ExtTreeMap.getElem?_insertIfNew]
  simp only [Std.LawfulEqCmp.compare_eq_iff_eq, hmem, not_false_eq_true, and_true]

/-- A new entry that is erased again. -/
lemma erase_insertIfNew [DecidableEq α] {m : Std.ExtTreeMap α β cmp} {k : α} {v : β}
    (hk : m[k]? = none) : (m.insertIfNew k v).erase k = m := by
  refine Std.ExtTreeMap.ext_getElem? fun a => ?_
  rw [Std.ExtTreeMap.getElem?_erase, getElem?_insertIfNew_of_getElem?_eq_none hk]
  simp only [Std.LawfulEqCmp.compare_eq_iff_eq]
  split_ifs with ha
  · rw [← ha, hk]
  · rfl

/-- An entry that is found after `insertIfNew` was there before or is the new one. -/
lemma getElem?_insertIfNew_eq_some {m : Std.ExtTreeMap α β cmp} {k a : α} {v w : β}
    (h : (m.insertIfNew k v)[a]? = some w) : m[a]? = some w ∨ (k = a ∧ v = w) := by
  rw [Std.ExtTreeMap.getElem?_insertIfNew] at h
  split_ifs at h with hk
  · exact Or.inr ⟨Std.LawfulEqCmp.compare_eq_iff_eq.mp hk.1, Option.some.inj h⟩
  · exact Or.inl h

/-- `insertIfNew` keeps the entries it finds. -/
lemma getElem?_insertIfNew_of_eq_some {m : Std.ExtTreeMap α β cmp} {k a : α} {v w : β}
    (h : m[a]? = some w) : (m.insertIfNew k v)[a]? = some w := by
  rw [Std.ExtTreeMap.getElem?_insertIfNew, if_neg, h]
  rintro ⟨hk, hmem⟩
  obtain rfl := Std.LawfulEqCmp.compare_eq_iff_eq.mp hk
  rw [Std.ExtTreeMap.mem_iff_isSome_getElem?, h] at hmem
  simp at hmem

end SignalEventLoop.Lib
