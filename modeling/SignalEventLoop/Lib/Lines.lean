/-
# The lines of a file

`getlines` are the lines that `getline` reads from a file, one call after the other: every line
has its end with it, and only the last one may have none.  A reader takes a step for every line;
`Reads` says that the lines of a text lead it from one state to another, whatever follows.
`trimEnds` takes blanks off both ends of a line; which characters are blanks may differ between
the ends.  `textLines` are the lines without their ends, and without the empty ones; two texts have
the same lines alone as one behind the other unless a line goes over the place between them.
-/
import SignalEventLoop.Lib.CText
import SignalEventLoop.Lib.Run
import Mathlib.Data.List.DropRight

namespace SignalEventLoop.Lib

/-- The lines of a file, with their ends. -/
def getlines : Bytes → List Bytes
  | [] => []
  | c :: s =>
    if c = 10 then [10] :: getlines s
    else
      match getlines s with
      | [] => [[c]]
      | line :: lines => (c :: line) :: lines

/-- A text without the blanks at its ends. -/
def trimEnds (left right : UInt8 → Bool) (s : Bytes) : Bytes := (s.dropWhile left).rdropWhile right

variable {left right : UInt8 → Bool} {w s : Bytes} {c : UInt8}

/-! ## Lines -/

/-- A line in front of the rest of the file. -/
@[simp] lemma getlines_append (hw : 10 ∉ w) (s : Bytes) :
    getlines (w ++ 10 :: s) = (w ++ [10]) :: getlines s := by
  induction w with
  | nil => simp [getlines]
  | cons c w ih =>
    rw [List.mem_cons, not_or] at hw
    rw [List.cons_append, getlines, if_neg (Ne.symm hw.1), ih hw.2, List.cons_append]

/-- The last line of a file may have no end. -/
lemma getlines_of_notMem (hne : w ≠ []) (hw : 10 ∉ w) : getlines w = [w] := by
  induction w with
  | nil => exact absurd rfl hne
  | cons c w ih =>
    rw [List.mem_cons, not_or] at hw
    rw [getlines, if_neg (Ne.symm hw.1)]
    cases w with
    | nil => rfl
    | cons d w => rw [ih (by simp) hw.2]

/-- No byte of the file is lost. -/
lemma flatten_getlines (s : Bytes) : (getlines s).flatten = s := by
  induction s with
  | nil => rfl
  | cons c s ih =>
    rw [getlines]
    split_ifs with hc
    · rw [List.flatten_cons, ih, hc]
      rfl
    · cases hlines : getlines s with
      | nil => rw [← ih, hlines]; rfl
      | cons line lines => rw [← ih, hlines]; rfl

lemma mem_of_mem_getlines {line : Bytes} (hline : line ∈ getlines s) (hc : c ∈ line) : c ∈ s := by
  rw [← flatten_getlines s]
  exact List.mem_flatten.mpr ⟨line, hline, hc⟩

/-- What follows a line is read as it would be alone. -/
lemma getlines_flatten_of_cons {line : Bytes} {lines : List Bytes}
    (h : getlines s = line :: lines) : getlines lines.flatten = lines := by
  by_cases hs : 10 ∈ s
  · obtain ⟨w, rest, rfl, hw⟩ := List.eq_append_cons_of_mem hs
    rw [getlines_append hw] at h
    rw [← (List.cons.inj h).2, flatten_getlines]
  · have hne : s ≠ [] := by
      rintro rfl
      simp [getlines] at h
    rw [getlines_of_notMem hne hs] at h
    rw [← (List.cons.inj h).2]
    rfl

/-- The same for any number of lines. -/
lemma getlines_flatten {lines lines' : List Bytes} (h : getlines s = lines ++ lines') :
    getlines lines'.flatten = lines' := by
  induction lines generalizing s with
  | nil => rw [← show getlines s = lines' from h, flatten_getlines]
  | cons line lines ih => exact ih (getlines_flatten_of_cons h)

/-- A line has at most one end. -/
lemma exists_of_mem_getlines {line : Bytes} (hline : line ∈ getlines s) :
    ∃ w, 10 ∉ w ∧ (line = w ++ [10] ∨ line = w) := by
  obtain ⟨lines, lines', hlines⟩ := List.append_of_mem hline
  have hrest := getlines_flatten hlines
  by_cases h10 : 10 ∈ (line :: lines').flatten
  · obtain ⟨w, rest, hw, hnot⟩ := List.eq_append_cons_of_mem h10
    rw [hw, getlines_append hnot] at hrest
    exact ⟨w, hnot, Or.inl (List.cons.inj hrest).1.symm⟩
  · exact ⟨line, fun h => h10 (by simp [h]), Or.inr rfl⟩

/-! ## Reading line by line -/

section Reads

variable {σ : Type*} {step : σ → Bytes → Option σ} {p q r : σ} {a b : Bytes}

/-- The lines of a text lead from one state to another. -/
def Reads (step : σ → Bytes → Option σ) (p : σ) (w : Bytes) (q : σ) : Prop :=
  ∀ rest, run step p (getlines (w ++ rest)) = run step q (getlines rest)

lemma Reads.nil (p : σ) : Reads step p [] p := fun _ => rfl

lemma Reads.append (h₁ : Reads step p a q) (h₂ : Reads step q b r) : Reads step p (a ++ b) r := by
  intro rest
  rw [List.append_assoc, h₁, h₂]

lemma Reads.line (hw : 10 ∉ w) (h : step p (w ++ [10]) = some q) : Reads step p (w ++ [10]) q := by
  intro rest
  rw [List.append_assoc, List.singleton_append, getlines_append hw, run_cons, h]
  rfl

/-- A whole file. -/
lemma Reads.run_eq (h : Reads step p w q) : run step p (getlines w) = some q := by
  have := h []
  rwa [List.append_nil] at this

end Reads

/-! ## Lines without their ends -/

section textLines

variable {a b v : Bytes}

/-- The lines that are not empty, without their ends. -/
def textLines (s : Bytes) : List Bytes := (s.splitOn 10).filter (· ≠ [])

@[simp] lemma textLines_nil : textLines [] = [] := by simp [textLines]

lemma textLines_append_cons (a b : Bytes) :
    textLines (a ++ 10 :: b) = textLines a ++ textLines b := by
  rw [textLines, List.splitOn_append_cons_self, List.filter_append]
  rfl

lemma textLines_cons (b : Bytes) : textLines (10 :: b) = textLines b :=
  (textLines_append_cons [] b).trans (by simp)

lemma textLines_of_notMem (hw : 10 ∉ w) (hne : w ≠ []) : textLines w = [w] := by
  rw [textLines, List.splitOn_eq_singleton hw]
  simp [hne]

/-- The place between two texts is inside of a line. -/
def InsideLine (a b : Bytes) : Prop := (∃ c ∈ a.getLast?, c ≠ 10) ∧ ∃ c ∈ b.head?, c ≠ 10

instance (a b : Bytes) : Decidable (InsideLine a b) :=
  inferInstanceAs (Decidable (_ ∧ _))

/-- The last line of a text, whatever follows it. -/
lemma exists_last_line (h : ∃ c ∈ a.getLast?, c ≠ 10) :
    ∃ ls w, 10 ∉ w ∧ w ≠ [] ∧ ∀ b, textLines (a ++ b) = ls ++ textLines (w ++ b) := by
  by_cases h10 : 10 ∈ a
  · obtain ⟨w, rest, hrev, hw⟩ := List.eq_append_cons_of_mem (List.mem_reverse.mpr h10)
    have ha : a = rest.reverse ++ 10 :: w.reverse := by
      rw [← List.reverse_reverse a, hrev]
      simp
    refine ⟨textLines rest.reverse, w.reverse, by simpa using hw, ?_, fun b => ?_⟩
    · intro hnil
      obtain ⟨c, hc, hne⟩ := h
      rw [ha, hnil, List.getLast?_append, List.getLast?_singleton] at hc
      exact hne (Option.some.inj hc).symm
    · rw [ha, List.append_assoc, List.cons_append, textLines_append_cons]
  · refine ⟨[], a, h10, ?_, fun b => rfl⟩
    rintro rfl
    simp at h

/-- The first line of a text, whatever is in front of it. -/
lemma exists_first_line (h : ∃ c ∈ b.head?, c ≠ 10) :
    ∃ v ls, v ≠ [] ∧ ∀ w, 10 ∉ w → textLines (w ++ b) = (w ++ v) :: ls := by
  by_cases h10 : 10 ∈ b
  · obtain ⟨v, rest, rfl, hv⟩ := List.eq_append_cons_of_mem h10
    have hne : v ≠ [] := by
      rintro rfl
      simp at h
    refine ⟨v, textLines rest, hne, fun w hw => ?_⟩
    rw [← List.append_assoc, textLines_append_cons, textLines_of_notMem (by simp [hw, hv])
      (by simp [hne])]
    rfl
  · have hne : b ≠ [] := by
      rintro rfl
      simp at h
    refine ⟨b, [], hne, fun w hw => ?_⟩
    rw [textLines_of_notMem (by simp [hw, h10]) (by simp [hne])]

/-- **The lines of two texts, one behind the other**: those of the first one and those of the
second one, or a line goes from the first one into the second one. -/
theorem textLines_append (a b : Bytes) :
    (¬ InsideLine a b ∧ textLines (a ++ b) = textLines a ++ textLines b) ∨
      (InsideLine a b ∧ ∃ ls w v ls', textLines a = ls ++ [w] ∧ textLines b = v :: ls' ∧
        textLines (a ++ b) = ls ++ (w ++ v) :: ls') := by
  by_cases ha : ∃ c ∈ a.getLast?, c ≠ 10
  · by_cases hb : ∃ c ∈ b.head?, c ≠ 10
    · obtain ⟨ls, w, hw, hne, hlast⟩ := exists_last_line ha
      obtain ⟨v, ls', hv, hfirst⟩ := exists_first_line hb
      refine Or.inr ⟨⟨ha, hb⟩, ls, w, v, ls', ?_, hfirst [] (by simp), ?_⟩
      · simpa [textLines_of_notMem hw hne] using hlast []
      · rw [hlast, hfirst w hw]
    · refine Or.inl ⟨fun h => hb h.2, ?_⟩
      cases b with
      | nil => simp
      | cons c b =>
        obtain rfl : c = 10 := by simpa using hb
        rw [textLines_append_cons, textLines_cons]
  · refine Or.inl ⟨fun h => ha h.1, ?_⟩
    cases a using List.reverseRecOn with
    | nil => simp
    | append_singleton a c =>
      obtain rfl : c = 10 := by simpa using ha
      rw [List.append_assoc, List.singleton_append, textLines_append_cons, textLines_append_cons,
        textLines_nil, List.append_nil]

/-- No line goes from one of the pieces of a text into the next ones. -/
def BetweenLines : List Bytes → Prop
  | [] => True
  | a :: as => ¬ InsideLine a as.flatten ∧ BetweenLines as

instance decidableBetweenLines : (as : List Bytes) → Decidable (BetweenLines as)
  | [] => inferInstanceAs (Decidable True)
  | a :: as =>
    have := decidableBetweenLines as
    inferInstanceAs (Decidable (¬ InsideLine a as.flatten ∧ BetweenLines as))

lemma length_textLines_flatten_le (as : List Bytes) :
    (textLines as.flatten).length ≤ (as.flatMap textLines).length := by
  induction as with
  | nil => simp
  | cons a as ih =>
    rw [List.flatten_cons, List.flatMap_cons]
    rcases textLines_append a as.flatten with ⟨-, h⟩ | ⟨-, ls, w, v, ls', ha, hrest, h⟩
    · rw [h, List.length_append, List.length_append]
      omega
    · rw [hrest] at ih
      rw [h, ha]
      simp only [List.length_append, List.length_cons, List.length_nil] at ih ⊢
      omega

/-- **The lines of the pieces are those of the whole** exactly when no line is cut. -/
theorem flatMap_textLines_iff (as : List Bytes) :
    as.flatMap textLines = textLines as.flatten ↔ BetweenLines as := by
  induction as with
  | nil => simp [BetweenLines]
  | cons a as ih =>
    have hlength := length_textLines_flatten_le as
    rw [List.flatten_cons, List.flatMap_cons, BetweenLines]
    rcases textLines_append a as.flatten with ⟨hnot, h⟩ | ⟨hinside, ls, w, v, ls', ha, hrest, h⟩
    · rw [h, List.append_cancel_left_eq, ih, and_iff_right hnot]
    · refine iff_of_false (fun heq => ?_) fun hcut => hcut.1 hinside
      have hboth := congrArg List.length heq
      rw [hrest] at hlength
      rw [h, ha] at hboth
      simp only [List.length_append, List.length_cons, List.length_nil] at hboth hlength
      omega

/-- The lines of a part are not longer than those of the whole. -/
lemma textLines_append_le {n : ℕ} (h : ∀ l ∈ textLines (a ++ b), l.length ≤ n) :
    (∀ l ∈ textLines a, l.length ≤ n) ∧ ∀ l ∈ textLines b, l.length ≤ n := by
  rcases textLines_append a b with ⟨-, hab⟩ | ⟨-, ls, w, v, ls', ha, hb, hab⟩
  · rw [hab, List.forall_mem_append] at h
    exact h
  · rw [hab, List.forall_mem_append, List.forall_mem_cons, List.length_append] at h
    rw [ha, hb, List.forall_mem_append, List.forall_mem_cons, List.forall_mem_cons]
    exact ⟨⟨h.1, by omega, by simp⟩, by omega, h.2.2⟩

end textLines

/-! ## Blanks at the ends -/

lemma mem_of_mem_trimEnds (hc : c ∈ trimEnds left right s) : c ∈ s :=
  (List.dropWhile_sublist left).subset ((List.rdropWhile_prefix right _).subset hc)

lemma length_trimEnds_le (left right : UInt8 → Bool) (s : Bytes) :
    (trimEnds left right s).length ≤ s.length :=
  (List.rdropWhile_prefix right _).length_le.trans (List.dropWhile_sublist left).length_le

lemma trimEnds_eq_nil (hs : ∀ c ∈ s, right c = true) : trimEnds left right s = [] :=
  List.rdropWhile_eq_nil_iff.mpr fun c hc => hs c ((List.dropWhile_sublist left).subset hc)

/-- What is left over begins with no blank. -/
lemma head?_trimEnds (hc : c ∈ (trimEnds left right s).head?) : left c = false := by
  obtain ⟨rest, hrest⟩ := List.rdropWhile_prefix right (s.dropWhile left)
  rw [Option.mem_def] at hc
  have hhead : (s.dropWhile left).head? = some c := by
    rw [← hrest, List.head?_append, show (List.rdropWhile right (s.dropWhile left)).head? = some c
      from hc, Option.some_or]
  have := List.head?_dropWhile_not left s
  rw [hhead] at this
  simpa using this

/-- What is left over ends with no blank. -/
lemma getLast?_trimEnds (hc : c ∈ (trimEnds left right s).getLast?) : right c = false := by
  rw [Option.mem_def, List.getLast?_eq_some_iff] at hc
  obtain ⟨ys, hys⟩ := hc
  have hlast := List.rdropWhile_last_not right (s.dropWhile left) (by
    rw [show List.rdropWhile right (s.dropWhile left) = ys ++ [c] from hys]
    simp)
  simp only [show List.rdropWhile right (s.dropWhile left) = ys ++ [c] from hys,
    List.getLast_append_singleton, Bool.not_eq_true] at hlast
  exact hlast

/-- A text that begins with no blank. -/
lemma trimEnds_cons (hleft : left c = false) (hright : right c = false) (s : Bytes) :
    trimEnds left right (c :: s) = c :: s.rdropWhile right := by
  rw [trimEnds, List.dropWhile_cons_of_neg (by simp [hleft]), List.rdropWhile, List.reverse_cons,
    List.dropWhile_append]
  split_ifs with hs
  · rw [List.dropWhile_cons_of_neg (by simp [hright]), List.rdropWhile, List.isEmpty_iff.mp hs]
    rfl
  · rw [List.reverse_append]
    rfl

/-- A text that ends with no blank. -/
lemma trimEnds_eq_dropWhile (right : UInt8 → Bool) (hlast : ∀ c ∈ s.getLast?, right c = false) :
    trimEnds left right s = s.dropWhile left := by
  rw [trimEnds, List.rdropWhile_eq_self_iff]
  intro hne
  obtain ⟨w, hw⟩ := List.dropWhile_suffix left (l := s)
  have hend : (w ++ s.dropWhile left).getLast? = some ((s.dropWhile left).getLast hne) := by
    rw [List.getLast?_append, List.getLast?_eq_some_getLast hne, Option.some_or]
  rw [hw] at hend
  simp [hlast _ hend]

/-- A text that begins with no blank stands in front of its blanks. -/
lemma exists_append_trimEnds (right : UInt8 → Bool) (hhead : ∀ c ∈ s.head?, left c = false) :
    ∃ rest, s = trimEnds left right s ++ rest := by
  obtain ⟨rest, hrest⟩ := List.rdropWhile_prefix right (s.dropWhile left)
  refine ⟨rest, ?_⟩
  have hdrop : s.dropWhile left = s := by
    cases s with
    | nil => rfl
    | cons c s => rw [List.dropWhile_cons_of_neg (by simp [hhead c rfl])]
  rw [hdrop] at hrest
  rw [trimEnds, hdrop, hrest]

/-- A text without blanks at its ends stays as it is. -/
lemma trimEnds_eq_self (hhead : ∀ c ∈ w.head?, left c = false)
    (hlast : ∀ c ∈ w.getLast?, right c = false) : trimEnds left right w = w := by
  have hdrop : w.dropWhile left = w := by
    cases w with
    | nil => rfl
    | cons c w => rw [List.dropWhile_cons_of_neg (by simp [hhead c rfl])]
  rw [trimEnds, hdrop, List.rdropWhile_eq_self_iff]
  intro hne
  simp [hlast _ (List.getLast?_eq_some_getLast hne)]

@[simp] lemma trimEnds_trimEnds (s : Bytes) :
    trimEnds left right (trimEnds left right s) = trimEnds left right s :=
  trimEnds_eq_self (fun _ => head?_trimEnds) fun _ => getLast?_trimEnds

/-- Blanks behind a text do not count. -/
lemma trimEnds_append (w : Bytes) (hs : ∀ c ∈ s, right c = true) :
    trimEnds left right (w ++ s) = trimEnds left right w := by
  rw [trimEnds, trimEnds, List.dropWhile_append]
  split_ifs with hw
  · rw [List.isEmpty_iff.mp hw, List.rdropWhile_nil]
    exact trimEnds_eq_nil hs
  · induction s using List.reverseRecOn with
    | nil => rw [List.append_nil]
    | append_singleton s c ih =>
      rw [← List.append_assoc, List.rdropWhile_concat_pos _ _ _ (hs c (by simp)),
        ih fun d hd => hs d (by simp [hd])]

end SignalEventLoop.Lib
