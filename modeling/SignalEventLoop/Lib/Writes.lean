/-
# The image that writes leave

A write puts a list of values at an address.  When several writes cover an address, the last
one decides.  A window is a block of memory that stands for a range of addresses, with a flag
for every cell that was written; when the part of a write that lies in the range is stored in
both, the window holds the image of all writes.
-/
import SignalEventLoop.Lib.ByteMem

namespace SignalEventLoop.Lib

variable {α : Type*} {ws : List (ℕ × List α)} {w : ℕ × List α} {a : ℕ}

/-- What a write gives to an address. -/
def writeAt (w : ℕ × List α) (a : ℕ) : Option α := if w.1 ≤ a then w.2[a - w.1]? else none

/-- What a list of writes leaves at an address. -/
def image (ws : List (ℕ × List α)) (a : ℕ) : Option α :=
  ws.foldl (fun old w => (writeAt w a).or old) none

@[simp] lemma image_nil (a : ℕ) : image ([] : List (ℕ × List α)) a = none := rfl

@[simp] lemma image_concat : image (ws ++ [w]) a = (writeAt w a).or (image ws a) := by
  simp [image]

lemma writeAt_eq_none (h : a < w.1 ∨ w.1 + w.2.length ≤ a) : writeAt w a = none := by
  rw [writeAt]
  split_ifs with hle
  · exact List.getElem?_eq_none (by omega)
  · rfl

lemma writeAt_of_le (h : w.1 ≤ a) : writeAt w a = w.2[a - w.1]? := if_pos h

/-- A value comes from one of the writes. -/
lemma exists_of_image {b : α} (h : image ws a = some b) : ∃ w ∈ ws, writeAt w a = some b := by
  induction ws using List.reverseRecOn with
  | nil => simp at h
  | append_singleton ws w ih =>
    rw [image_concat, Option.or_eq_some_iff] at h
    rcases h with h | ⟨-, h⟩
    · exact ⟨w, by simp, h⟩
    · obtain ⟨w', hw', h'⟩ := ih h
      exact ⟨w', List.mem_append_left _ hw', h'⟩

lemma writeAt_ne_none_iff : writeAt w a ≠ none ↔ w.1 ≤ a ∧ a < w.1 + w.2.length := by
  constructor
  · intro h
    by_contra hout
    exact h (writeAt_eq_none (by omega))
  · rintro ⟨hle, hlt⟩
    rw [writeAt_of_le hle, List.getElem?_eq_getElem (by omega)]
    exact Option.some_ne_none _

/-- An address has a value when one of the writes covers it. -/
lemma image_ne_none_iff : image ws a ≠ none ↔ ∃ w ∈ ws, writeAt w a ≠ none := by
  constructor
  · intro h
    obtain ⟨b, hb⟩ := Option.ne_none_iff_exists'.mp h
    obtain ⟨w, hw, hwrite⟩ := exists_of_image hb
    exact ⟨w, hw, by rw [hwrite]; exact Option.some_ne_none b⟩
  · rintro ⟨w, hw, hwrite⟩
    induction ws using List.reverseRecOn with
    | nil => simp at hw
    | append_singleton ws v ih =>
      rw [image_concat, Ne, Option.or_eq_none_iff]
      rintro ⟨hlast, hold⟩
      rcases List.mem_append.mp hw with hw | hw
      · exact ih hw hold
      · rw [List.mem_singleton.mp hw] at hwrite
        exact hwrite hlast

/-- Writes that do not cover the address do not count. -/
lemma image_filter {p : ℕ × List α → Prop} [DecidablePred p]
    (h : ∀ w ∈ ws, ¬ p w → writeAt w a = none) : image (ws.filter p) a = image ws a := by
  induction ws using List.reverseRecOn with
  | nil => rfl
  | append_singleton ws w ih =>
    have hrest := ih fun v hv => h v (List.mem_append_left _ hv)
    rw [List.filter_append, List.filter_singleton, image_concat]
    by_cases hp : p w
    · rw [decide_eq_true hp]
      exact image_concat.trans (by rw [hrest])
    · rw [decide_eq_false hp, h w (by simp) hp, Option.none_or]
      exact (congrArg (image · a) (List.append_nil _)).trans hrest

lemma lt_length_takeWhile_iff {flag : List Bool} {i : ℕ} :
    i < (flag.takeWhile id).length ↔ ∀ j ≤ i, flag[j]? = some true := by
  induction flag generalizing i with
  | nil => simpa using ⟨i, le_rfl⟩
  | cons b flag ih =>
    cases b with
    | false =>
      simp only [List.takeWhile_cons, id, Bool.false_eq_true, if_false, List.length_nil,
        Nat.not_lt_zero, false_iff]
      intro h
      simpa using h 0 (Nat.zero_le i)
    | true =>
      cases i with
      | zero => simp
      | succ i =>
        simp only [List.takeWhile_cons, id, if_true, List.length_cons, Nat.add_lt_add_iff_right, ih]
        constructor
        · intro h j hj
          cases j with
          | zero => rfl
          | succ j => exact h j (by omega)
        · exact fun h j hj => by simpa using h (j + 1) (by omega)

/-- The window from `start` on holds the image, with `filler` where nothing was written. -/
structure Window (start len : ℕ) (filler : α) (ws : List (ℕ × List α)) (mem : List α)
    (flag : List Bool) : Prop where
  mem_eq : ∀ i < len, mem[i]? = some ((image ws (start + i)).getD filler)
  flag_eq : ∀ i < len, flag[i]? = some (image ws (start + i)).isSome

namespace Window

variable {start len off : ℕ} {filler : α} {mem mem' part : List α} {flag flag' : List Bool}

/-- A write outside of the range. -/
lemma miss (h : Window start len filler ws mem flag)
    (hw : w.1 + w.2.length ≤ start ∨ start + len ≤ w.1) :
    Window start len filler (ws ++ [w]) mem flag where
  mem_eq i hi := by
    rw [image_concat, writeAt_eq_none (by omega), Option.none_or]
    exact h.mem_eq i hi
  flag_eq i hi := by
    rw [image_concat, writeAt_eq_none (by omega), Option.none_or]
    exact h.flag_eq i hi

/-- The part of a write in the range is stored. -/
lemma hit (h : Window start len filler ws mem flag)
    (hpart : ∀ i < len, writeAt w (start + i) =
      if off ≤ i ∧ i < off + part.length then part[i - off]? else none)
    (hmem : store mem off part = some mem')
    (hflag : store flag off (List.replicate part.length true) = some flag') :
    Window start len filler (ws ++ [w]) mem' flag' where
  mem_eq i hi := by
    rw [image_concat, hpart i hi, getElem?_of_store hmem]
    split_ifs with hin
    · rw [List.getElem?_eq_getElem (by omega)]
      simp
    · rw [Option.none_or]
      exact h.mem_eq i hi
  flag_eq i hi := by
    rw [image_concat, hpart i hi, getElem?_of_store hflag, List.length_replicate]
    split_ifs with hin
    · rw [List.getElem?_replicate, if_pos (by omega), List.getElem?_eq_getElem (by omega)]
      simp
    · rw [Option.none_or]
      exact h.flag_eq i hi

/-- A window in which nothing was written. -/
lemma empty (start len : ℕ) (filler : α) (n : ℕ) (hn : len ≤ n) :
    Window start len filler [] (List.replicate n filler) (List.replicate len false) where
  mem_eq i hi := by
    rw [List.getElem?_replicate, if_pos (by omega)]
    simp
  flag_eq i hi := by
    rw [List.getElem?_replicate, if_pos hi]
    simp

/-- The number of cells before the first gap. -/
lemma lt_takeWhile_iff (h : Window start len filler ws mem flag) {i : ℕ} (hi : i < len) :
    i < (flag.takeWhile id).length ↔ ∀ j ≤ i, (image ws (start + j)).isSome = true := by
  rw [lt_length_takeWhile_iff]
  refine forall_congr' fun j => forall_congr' fun hj => ?_
  rw [h.flag_eq j (by omega), Option.some.injEq]

end Window

end SignalEventLoop.Lib
