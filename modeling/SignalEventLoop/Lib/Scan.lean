/-
# Scanning a text from its beginning

A scanner reads a text from the left.  As long as it stops before the end of the text, it
does not see what follows: the lemmas about `takeWhile` and `dropWhile` say so for a text `xs`
with any `ys` behind it.  `scanUntil` reads up to a stop, as `%[^...]` does, `words` are the runs
between separators, and `search` is the first occurrence of a pattern.
-/
import Mathlib.Data.List.TakeWhile
import Mathlib.Tactic

namespace SignalEventLoop.Lib

variable {α : Type*} {p : α → Bool} {xs ys : List α}

/-! ## Scans that stop -/

lemma drop_length_takeWhile (p : α → Bool) (xs : List α) :
    xs.drop (xs.takeWhile p).length = xs.dropWhile p := by
  induction xs with
  | nil => rfl
  | cons x xs ih =>
    cases hx : p x with
    | true => simp [hx, ih]
    | false => simp [hx]

/-- The scan stops at an element that fails the test. -/
lemma dropWhile_ne_nil_of_mem {x : α} (hx : x ∈ xs) (hp : p x = false) : xs.dropWhile p ≠ [] := by
  intro hnil
  rw [List.dropWhile_eq_nil_iff.mp hnil x hx] at hp
  exact absurd hp (by simp)

lemma eq_false_of_mem_head?_dropWhile {x : α} (hx : x ∈ (xs.dropWhile p).head?) : p x = false := by
  have hstop := List.head?_dropWhile_not p xs
  rw [Option.mem_def.mp hx] at hstop
  exact hstop

lemma dropWhile_append_of_ne_nil (h : xs.dropWhile p ≠ []) :
    (xs ++ ys).dropWhile p = xs.dropWhile p ++ ys := by
  rw [List.dropWhile_append, if_neg (by simpa using h)]

lemma takeWhile_append_of_ne_nil (h : xs.dropWhile p ≠ []) :
    (xs ++ ys).takeWhile p = xs.takeWhile p := by
  rw [List.takeWhile_append, if_neg]
  intro hlen
  have hsum := congrArg List.length (List.takeWhile_append_dropWhile (p := p) (l := xs))
  rw [List.length_append, hlen] at hsum
  exact h (List.length_eq_zero_iff.mp (by omega))

/-- What stands in a piece stands in the whole. -/
lemma mem_of_mem_splitOn [BEq α] {a x : α} {w : List α} (hw : w ∈ xs.splitOn a) (hx : x ∈ w) :
    x ∈ xs := by
  induction xs generalizing w with
  | nil =>
    rw [List.splitOn_nil, List.mem_singleton] at hw
    exact hw ▸ hx
  | cons y xs ih =>
    rw [List.splitOn_cons_eq_if_modifyHead] at hw
    split_ifs at hw
    · rcases List.mem_cons.mp hw with rfl | hw
      · exact absurd hx List.not_mem_nil
      · exact List.mem_cons_of_mem y (ih hw hx)
    · obtain ⟨v, ws, hws⟩ := List.exists_cons_of_ne_nil (List.splitOn_ne_nil a xs)
      rw [hws, List.modifyHead_cons] at hw
      rw [hws] at ih
      rcases List.mem_cons.mp hw with rfl | hw
      · rcases List.mem_cons.mp hx with rfl | hx
        · exact List.mem_cons_self
        · exact List.mem_cons_of_mem y (ih List.mem_cons_self hx)
      · exact List.mem_cons_of_mem y (ih (List.mem_cons_of_mem v hw) hx)

/-! ## Everything up to a stop -/

section scanUntil

variable [DecidableEq α] {stops w : List α}

/-- The elements in front of the first one of `stops`, and the rest; there has to be one. -/
def scanUntil (stops xs : List α) : Option (List α × List α) :=
  if xs.takeWhile (· ∉ stops) = [] then none
  else some (xs.takeWhile (· ∉ stops), xs.dropWhile (· ∉ stops))

lemma takeWhile_notMem_append (hw : ∀ x ∈ w, x ∉ stops) (hs : ∀ x ∈ xs.head?, x ∈ stops) :
    (w ++ xs).takeWhile (· ∉ stops) = w := by
  rw [List.takeWhile_append_of_pos fun x hx => decide_eq_true (hw x hx)]
  cases xs with
  | nil => simp
  | cons x xs => simp [hs x rfl]

lemma dropWhile_notMem_append (hw : ∀ x ∈ w, x ∉ stops) (hs : ∀ x ∈ xs.head?, x ∈ stops) :
    (w ++ xs).dropWhile (· ∉ stops) = xs := by
  rw [List.dropWhile_append_of_pos fun x hx => decide_eq_true (hw x hx)]
  cases xs with
  | nil => simp
  | cons x xs => simp [hs x rfl]

/-- What is read is a word without a stop. -/
lemma scanUntil_eq_some {rest : List α} (h : scanUntil stops xs = some (w, rest)) :
    w ≠ [] ∧ (∀ x ∈ w, x ∉ stops) ∧ xs = w ++ rest := by
  rw [scanUntil] at h
  split_ifs at h with hnil
  obtain ⟨rfl, rfl⟩ := Prod.mk.inj (Option.some.inj h)
  exact ⟨hnil, fun x hx => of_decide_eq_true (List.mem_takeWhile_imp (p := (· ∉ stops)) hx),
    List.takeWhile_append_dropWhile.symm⟩

/-- A word without a stop is read when a stop or the end follows. -/
lemma scanUntil_append (hne : w ≠ []) (hw : ∀ x ∈ w, x ∉ stops)
    (hs : ∀ x ∈ xs.head?, x ∈ stops) : scanUntil stops (w ++ xs) = some (w, xs) := by
  rw [scanUntil, takeWhile_notMem_append hw hs, dropWhile_notMem_append hw hs, if_neg hne]

end scanUntil

/-! ## Words -/

section words

variable {w : List α} {x : α}

/-- The maximal runs of elements that are no separators. -/
def words (p : α → Bool) (xs : List α) : List (List α) := (xs.splitOnP p).filter (· ≠ [])

@[simp] lemma words_nil (p : α → Bool) : words p ([] : List α) = [] := by
  simp [words, List.splitOnP_nil]

/-- The text divides at a separator. -/
lemma words_append_cons (xs ys : List α) (hx : p x = true) :
    words p (xs ++ x :: ys) = words p xs ++ words p ys := by
  rw [words, List.splitOnP_append_cons xs ys hx, List.filter_append]
  rfl

lemma words_cons (ys : List α) (hx : p x = true) : words p (x :: ys) = words p ys := by
  have happend := words_append_cons [] ys hx
  rwa [List.nil_append, words_nil, List.nil_append] at happend

lemma words_dropWhile (p : α → Bool) (xs : List α) : words p (xs.dropWhile p) = words p xs := by
  induction xs with
  | nil => rfl
  | cons x xs ih =>
    cases hx : p x with
    | true => rw [List.dropWhile_cons_of_pos hx, ih, words_cons xs hx]
    | false => rw [List.dropWhile_cons_of_neg (by simp [hx])]

lemma words_of_forall (hne : w ≠ []) (hw : ∀ x ∈ w, p x = false) : words p w = [w] := by
  rw [words, List.splitOnP_eq_singleton hw]
  simp [hne]

lemma ne_nil_of_mem_words (hw : w ∈ words p xs) : w ≠ [] :=
  of_decide_eq_true (List.mem_filter.mp hw).2

lemma length_le_of_mem_words (hw : w ∈ words p xs) : w.length ≤ xs.length := by
  have hsplit := (List.mem_filter.mp hw).1
  clear hw
  induction xs generalizing w with
  | nil =>
    rw [List.splitOnP_nil, List.mem_singleton] at hsplit
    simp [hsplit]
  | cons x xs ih =>
    rw [List.splitOnP_cons_eq_if_modifyHead] at hsplit
    rw [List.length_cons]
    split_ifs at hsplit
    · rcases List.mem_cons.mp hsplit with rfl | hsplit
      · simp
      · exact Nat.le_succ_of_le (ih hsplit)
    · obtain ⟨v, ws, hws⟩ := List.exists_cons_of_ne_nil (List.splitOnP_ne_nil p xs)
      rw [hws, List.modifyHead_cons] at hsplit
      rw [hws] at ih
      rcases List.mem_cons.mp hsplit with rfl | hsplit
      · exact Nat.succ_le_succ (ih List.mem_cons_self)
      · exact Nat.le_succ_of_le (ih (List.mem_cons_of_mem v hsplit))

/-- A word at the front, up to a separator or the end. -/
lemma words_append (hne : w ≠ []) (hw : ∀ x ∈ w, p x = false) (hxs : ∀ x ∈ xs.head?, p x = true) :
    words p (w ++ xs) = w :: words p xs := by
  cases xs with
  | nil => rw [List.append_nil, words_of_forall hne hw, words_nil]
  | cons x xs =>
    rw [words_append_cons w xs (hxs x rfl), words_cons xs (hxs x rfl), words_of_forall hne hw]
    rfl

end words

/-! ## The first occurrence of a pattern -/

section search

variable [DecidableEq α] {pat : List α} {i : ℕ}

/-- `std::search`: where the pattern occurs first. -/
def search (pat : List α) : List α → Option ℕ
  | [] => if pat = [] then some 0 else none
  | x :: xs => if pat.isPrefixOf (x :: xs) then some 0 else (search pat xs).map (· + 1)

lemma search_cons (x : α) (xs : List α) : search pat (x :: xs) =
    if pat <+: x :: xs then some 0 else (search pat xs).map (· + 1) := by
  simp only [search, List.isPrefixOf_iff_prefix]

lemma length_le_of_search (h : search pat xs = some i) : i + pat.length ≤ xs.length := by
  induction xs generalizing i with
  | nil =>
    rw [search] at h
    split_ifs at h with hpat
    obtain rfl := Option.some.inj h
    simp [hpat]
  | cons x xs ih =>
    rw [search_cons] at h
    split_ifs at h with hpre
    · obtain rfl := Option.some.inj h
      rw [zero_add]
      exact hpre.length_le
    · obtain ⟨j, hj, rfl⟩ := Option.map_eq_some_iff.mp h
      have := ih hj
      rw [List.length_cons]
      omega

lemma prefix_drop_of_search (h : search pat xs = some i) : pat <+: xs.drop i := by
  induction xs generalizing i with
  | nil =>
    rw [search] at h
    split_ifs at h with hpat
    simp [hpat]
  | cons x xs ih =>
    rw [search_cons] at h
    split_ifs at h with hpre
    · obtain rfl := Option.some.inj h
      exact hpre
    · obtain ⟨j, hj, rfl⟩ := Option.map_eq_some_iff.mp h
      exact ih hj

/-- What is found is the first occurrence. -/
lemma search_eq_some_iff :
    search pat xs = some i ↔ pat <+: xs.drop i ∧ ∀ j < i, ¬ pat <+: xs.drop j := by
  induction xs generalizing i with
  | nil =>
    rw [search]
    by_cases hpat : pat = []
    · rw [if_pos hpat, Option.some.injEq]
      constructor
      · rintro rfl
        exact ⟨by simp [hpat], by simp⟩
      · rintro ⟨-, h⟩
        by_contra hne
        exact h 0 (by omega) (by simp [hpat])
    · simp [hpat]
  | cons x xs ih =>
    rw [search_cons]
    split_ifs with hpre
    · rw [Option.some.injEq]
      constructor
      · rintro rfl
        exact ⟨hpre, by simp⟩
      · rintro ⟨-, h⟩
        by_contra hne
        exact h 0 (by omega) hpre
    · cases i with
      | zero => simp [hpre]
      | succ i =>
        simp only [Option.map_eq_some_iff, Nat.succ_inj, exists_eq_right, ih, List.drop_succ_cons]
        refine and_congr_right fun _ => ⟨fun h j hj => ?_, fun h j hj => h (j + 1) (by omega)⟩
        cases j with
        | zero => exact hpre
        | succ j => exact h j (by omega)

/-- What is found stays the first occurrence when the text goes on. -/
lemma search_append (h : search pat xs = some i) (ys : List α) :
    search pat (xs ++ ys) = some i := by
  induction xs generalizing i with
  | nil =>
    rw [search] at h
    split_ifs at h with hpat
    obtain rfl := Option.some.inj h
    cases ys <;> simp [search, hpat]
  | cons x xs ih =>
    rw [search_cons] at h
    rw [List.cons_append, search_cons]
    split_ifs at h with hpre
    · have hpre' : pat <+: x :: (xs ++ ys) := List.prefix_append_of_prefix hpre
      rw [if_pos hpre']
      exact h
    · obtain ⟨j, hj, rfl⟩ := Option.map_eq_some_iff.mp h
      have hlen := length_le_of_search hj
      -- an occurrence at the front lies in front of the end of `xs`
      rw [if_neg, ih hj, Option.map_some]
      intro hpre'
      refine hpre (List.prefix_of_prefix_length_le hpre' ?_ (by rw [List.length_cons]; omega))
      exact ⟨ys, rfl⟩

/-- The pattern does not begin at elements that are not its first one. -/
lemma search_append_of_notMem {x : α} (h : x ∉ xs) (ys : List α) :
    search (x :: pat) (xs ++ ys) = (search (x :: pat) ys).map (· + xs.length) := by
  induction xs with
  | nil => simp
  | cons y xs ih =>
    rw [List.mem_cons, not_or] at h
    obtain ⟨hne, hmem⟩ := h
    have hpre : ¬ x :: pat <+: y :: (xs ++ ys) := fun hpre => hne (List.cons_prefix_cons.mp hpre).1
    rw [List.cons_append, search_cons, if_neg hpre, ih hmem, Option.map_map]
    rfl

/-- A text that ends with the first occurrence does not have the pattern before its end. -/
lemma search_eq_none_of_prefix (h : search pat xs = some i) (hend : i + pat.length = xs.length)
    (hpre : ys <+: xs) (hne : ys ≠ xs) : search pat ys = none := by
  cases hys : search pat ys with
  | none => rfl
  | some j =>
    obtain ⟨zs, rfl⟩ := hpre
    have hj := length_le_of_search hys
    rw [search_append hys zs] at h
    obtain rfl := Option.some.inj h
    rw [List.length_append] at hend
    refine absurd ?_ hne
    rw [List.length_eq_zero_iff.mp (show zs.length = 0 by omega), List.append_nil]

end search

end SignalEventLoop.Lib
