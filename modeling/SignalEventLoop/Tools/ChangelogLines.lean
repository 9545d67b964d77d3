/-
# The lines of a changelog

A line that `loadFile` has read is trimmed, and the texts that are cut out of it are trimmed as
well.  Printed behind their marks, with a line end, they are recognised as what they were: the
lemmas here say so for one line at a time.
-/
import SignalEventLoop.Tools.ChangelogFormatter

namespace SignalEventLoop.Tools

open Lib ChangelogFormatter

variable {line data w : Bytes} {c : UInt8}

lemma isTrailingBlank_of_isLeadingBlank (h : isTrailingBlank c = false) :
    isLeadingBlank c = false := by
  simp only [isTrailingBlank, isLeadingBlank, Bool.or_eq_false_iff, decide_eq_false_iff_not] at h ⊢
  exact h.1.1

/-! ## Lines and texts -/

/-- A line as `getline` reads it from a file without NULs and without long lines. -/
structure FileLine (line : Bytes) : Prop where
  newline : ∃ w, 10 ∉ w ∧ (line = w ++ [10] ∨ line = w)
  zero : 0 ∉ line
  size : line.length ≤ 4001

/-- A text that was cut out of a line. -/
structure LineText (d : Bytes) : Prop where
  head : ∀ c ∈ d.head?, isLeadingBlank c = false
  last : ∀ c ∈ d.getLast?, isTrailingBlank c = false
  newline : 10 ∉ d
  zero : 0 ∉ d
  size : d.length ≤ 4001

/-- A trimmed line that is not empty. -/
structure CacheLine (l : Bytes) : Prop extends LineText l where
  isEmptyLine : isEmptyLine l = false

lemma LineText.cString_eq {d : Bytes} (hd : LineText d) : cString d = d :=
  cString_eq_self fun _ hc h => hd.zero (h ▸ hc)

lemma LineText.trim_eq {d : Bytes} (hd : LineText d) : trim d = d :=
  trimEnds_eq_self hd.head hd.last

/-- A part of a text, trimmed. -/
lemma LineText.trim_drop {d : Bytes} (hd : LineText d) (n : ℕ) : LineText (trim (d.drop n)) where
  head _ := head?_trimEnds
  last _ := getLast?_trimEnds
  newline h := hd.newline (List.mem_of_mem_drop (mem_of_mem_trimEnds h))
  zero h := hd.zero (List.mem_of_mem_drop (mem_of_mem_trimEnds h))
  size := by
    have h₁ := length_trimEnds_le isLeadingBlank isTrailingBlank (d.drop n)
    have h₂ := hd.size
    rw [List.length_drop] at h₁
    rw [trim]
    omega

lemma FileLine.trim_newline (hline : FileLine line) : 10 ∉ trim line := by
  obtain ⟨w, hw, rfl | rfl⟩ := hline.newline
  · rw [trim, trimEnds_append w (by simp [isTrailingBlank])]
    exact fun h => hw (mem_of_mem_trimEnds h)
  · exact fun h => hw (mem_of_mem_trimEnds h)

lemma FileLine.lineText (hline : FileLine line) : LineText (trim line) where
  head _ := head?_trimEnds
  last _ := getLast?_trimEnds
  newline := hline.trim_newline
  zero h := hline.zero (mem_of_mem_trimEnds h)
  size := (length_trimEnds_le _ _ line).trans hline.size

/-- What an inner loop caches. -/
lemma FileLine.cacheLine (hline : FileLine line) (h : isEmptyLine (trim line) = false) :
    CacheLine (trim line) :=
  ⟨hline.lineText, h⟩

lemma CacheLine.ne_nil {l : Bytes} (hl : CacheLine l) : l ≠ [] := by
  rintro rfl
  exact absurd hl.isEmptyLine (by decide)

/-- The first byte of a line is no blank of either kind. -/
lemma CacheLine.exists_cons {l : Bytes} (hl : CacheLine l) :
    ∃ c s, l = c :: s ∧ isTrailingBlank c = false := by
  obtain ⟨c, s, rfl⟩ := List.exists_cons_of_ne_nil hl.ne_nil
  refine ⟨c, s, rfl, ?_⟩
  have hhead := hl.head c rfl
  have hempty := hl.isEmptyLine
  simp only [ChangelogFormatter.isEmptyLine, isLeadingBlank, isTrailingBlank, List.head?_cons,
    Option.some.injEq, Bool.or_eq_false_iff, decide_eq_false_iff_not] at hhead hempty ⊢
  exact ⟨⟨hhead, hempty.1.2⟩, hempty.2⟩

/-! ## Printed lines -/

/-- A text in a line of its own, with a line end. -/
lemma trim_printed (hhead : ∀ c ∈ w.head?, isLeadingBlank c = false)
    (hlast : ∀ c ∈ w.getLast?, isTrailingBlank c = false) : trim (w ++ [13, 10]) = w := by
  rw [trim, trimEnds_append w (by simp [isTrailingBlank])]
  exact trimEnds_eq_self hhead hlast

/-- A text behind a mark. -/
lemma trim_marked (mark : Bytes) {d : Bytes} (hd : LineText d) (hne : mark ≠ [])
    (hmark : ∀ c ∈ mark, isTrailingBlank c = false) :
    trim (mark ++ d ++ [13, 10]) = mark ++ d := by
  refine trim_printed (fun c hc => ?_) fun c hc => ?_
  · obtain ⟨m, ms, rfl⟩ := List.exists_cons_of_ne_nil hne
    rw [List.cons_append, List.head?_cons, Option.mem_some_iff] at hc
    exact isTrailingBlank_of_isLeadingBlank (hmark c (hc ▸ List.mem_cons_self))
  · rw [List.getLast?_append, Option.mem_def] at hc
    cases hlast : d.getLast? with
    | none =>
      rw [hlast, Option.none_or] at hc
      exact hmark c (List.mem_of_getLast? hc)
    | some e =>
      rw [hlast, Option.some_or, Option.some.injEq] at hc
      exact hc ▸ hd.last e hlast

lemma markedText_mark {a b : UInt8} {d : Bytes} (hd : LineText d) :
    markedText a b (a :: b :: d) = some d := by
  have hdrop : d.dropWhile isLeadingBlank = d := by
    rw [← trimEnds_eq_dropWhile isTrailingBlank hd.last]
    exact hd.trim_eq
  rw [markedText, if_neg (by simp)]
  simp [hdrop]

/-- The text behind a mark is the trimmed rest of the line. -/
lemma lineText_of_markedText {a b : UInt8} {d : Bytes} (hdata : LineText data)
    (h : markedText a b data = some d) : LineText d := by
  rw [markedText] at h
  split_ifs at h
  obtain rfl := Option.some.inj h
  have hlast : ∀ c ∈ (data.drop 2).getLast?, isTrailingBlank c = false := by
    intro c hc
    rw [List.getLast?_drop] at hc
    split_ifs at hc
    · exact absurd hc (by simp)
    · exact hdata.last c hc
  rw [← trimEnds_eq_dropWhile _ hlast]
  exact hdata.trim_drop 2

/-! ## Titles -/

/-- A line as it is printed and read again. -/
def canonicalLine (l : Bytes) : Bytes :=
  match isTitileLevel1 l with
  | some title => 94 :: title
  | none =>
    match isTitileLevel2 l with
    | some title => 42 :: 42 :: title
    | none => l

/-- What is printed in front of a line. -/
def indent (l : Bytes) : Bytes := if (isTitileLevel2 l).isSome then [32] else []

/-- The lines that a version or a header may have. -/
def TitleLine (l : Bytes) : Prop :=
  isTileMultiLine l = true ∨ (isTitileLevel1 l).isSome ∨ (isTitileLevel2 l).isSome

variable {l title : Bytes}

lemma isTitileLevel1_eq_some (h : isTitileLevel1 l = some title) :
    ∃ s, l = 94 :: s ∧ s ≠ [] ∧ title = trim s := by
  rw [isTitileLevel1] at h
  split_ifs at h with hlen hmark
  obtain rfl := Option.some.inj h
  match l, hlen, hmark with
  | c :: s, hlen, hmark =>
    obtain rfl : c = 94 := by simpa using hmark
    refine ⟨s, rfl, ?_, rfl⟩
    rintro rfl
    simp at hlen

lemma isTitileLevel2_eq_some (h : isTitileLevel2 l = some title) :
    ∃ s, l = 42 :: 42 :: s ∧ title = trim s := by
  rw [isTitileLevel2] at h
  split_ifs at h with hlen hmark
  obtain rfl := Option.some.inj h
  match l, hlen, hmark with
  | c :: d :: s, hlen, hmark =>
    obtain ⟨rfl, rfl⟩ : c = 42 ∧ d = 42 := by simpa using hmark
    exact ⟨s, rfl, rfl⟩

lemma isTitileLevel1_mark {d : Bytes} (hd : LineText d) (hne : d ≠ []) :
    isTitileLevel1 (94 :: d) = some d := by
  obtain ⟨c, s, rfl⟩ := List.exists_cons_of_ne_nil hne
  rw [isTitileLevel1, if_neg (by simp), if_pos (by simp), List.drop_one, List.tail_cons, hd.trim_eq]

lemma isTitileLevel2_mark {d : Bytes} (hd : LineText d) :
    isTitileLevel2 (42 :: 42 :: d) = some d := by
  rw [isTitileLevel2, if_neg (by simp), if_pos (by simp), List.drop_succ_cons, List.drop_one,
    List.tail_cons, hd.trim_eq]

/-- A line of a title has no mark. -/
lemma marks_of_isTileMultiLine (h : isTileMultiLine l = true) :
    isTitileLevel1 l = none ∧ isTitileLevel2 l = none := by
  constructor
  · cases h₁ : isTitileLevel1 l with
    | none => rfl
    | some title =>
      obtain ⟨s, rfl, -, -⟩ := isTitileLevel1_eq_some h₁
      exact absurd h (by simp [isTileMultiLine])
  · cases h₂ : isTitileLevel2 l with
    | none => rfl
    | some title =>
      obtain ⟨s, rfl, -⟩ := isTitileLevel2_eq_some h₂
      exact absurd h (by simp [isTileMultiLine])

lemma isTitileLevel2_of_isTitileLevel1 (h : isTitileLevel1 l = some title) :
    isTitileLevel2 l = none := by
  obtain ⟨s, rfl, -, -⟩ := isTitileLevel1_eq_some h
  cases h₂ : isTitileLevel2 (94 :: s) with
  | none => rfl
  | some title =>
    obtain ⟨s', hs', -⟩ := isTitileLevel2_eq_some h₂
    exact absurd (List.cons.inj hs').1 (by decide)

/-- A text that ends with no blank does not vanish. -/
lemma trim_ne_nil (hne : data ≠ []) (hlast : ∀ c ∈ data.getLast?, isTrailingBlank c = false) :
    trim data ≠ [] := by
  intro hnil
  rw [trim, trimEnds_eq_dropWhile _ hlast, List.dropWhile_eq_nil_iff] at hnil
  have hblank := hnil _ (List.getLast_mem hne)
  rw [isTrailingBlank_of_isLeadingBlank (hlast _ (List.getLast?_eq_some_getLast hne))] at hblank
  exact absurd hblank (by simp)

/-- The three kinds of lines with their printed form. -/
lemma titleLine_cases (hl : CacheLine l) (h : TitleLine l) :
    (isTileMultiLine l = true ∧ canonicalLine l = l ∧ indent l = []) ∨
    (∃ title, isTitileLevel1 l = some title ∧ LineText title ∧ title ≠ [] ∧
      canonicalLine l = 94 :: title ∧ indent l = []) ∨
    (∃ title, isTitileLevel1 l = none ∧ isTitileLevel2 l = some title ∧ LineText title ∧
      canonicalLine l = 42 :: 42 :: title ∧ indent l = [32]) := by
  rcases h with h | h | h
  · obtain ⟨h₁, h₂⟩ := marks_of_isTileMultiLine h
    exact Or.inl ⟨h, by simp [canonicalLine, h₁, h₂], by simp [indent, h₂]⟩
  · obtain ⟨title, h₁⟩ := Option.isSome_iff_exists.mp h
    have h₂ := isTitileLevel2_of_isTitileLevel1 h₁
    obtain ⟨s, rfl, hs, rfl⟩ := isTitileLevel1_eq_some h₁
    have htext : LineText (trim s) := hl.toLineText.trim_drop 1
    have hlast : ∀ c ∈ s.getLast?, isTrailingBlank c = false := by
      intro c hc
      refine hl.last c ?_
      rw [List.getLast?_cons, hc, Option.getD_some]
      rfl
    exact Or.inr (Or.inl ⟨trim s, h₁, htext, trim_ne_nil hs hlast, by simp [canonicalLine, h₁],
      by simp [indent, h₂]⟩)
  · obtain ⟨title, h₂⟩ := Option.isSome_iff_exists.mp h
    have h₁ : isTitileLevel1 l = none := by
      cases h₁ : isTitileLevel1 l with
      | none => rfl
      | some t => exact absurd (isTitileLevel2_of_isTitileLevel1 h₁ ▸ h₂) (by simp)
    obtain ⟨s, rfl, rfl⟩ := isTitileLevel2_eq_some h₂
    exact Or.inr (Or.inr ⟨trim s, h₁, h₂, hl.toLineText.trim_drop 2,
      by simp [canonicalLine, h₁, h₂], by simp [indent, h₂]⟩)

/-- The printed form is of the same kind. -/
lemma canonicalLine_kind (hl : CacheLine l) (h : TitleLine l) :
    isTileMultiLine (canonicalLine l) = isTileMultiLine l ∧
      isTitileLevel1 (canonicalLine l) = isTitileLevel1 l ∧
      isTitileLevel2 (canonicalLine l) = isTitileLevel2 l := by
  rcases titleLine_cases hl h with ⟨-, hc, -⟩ | ⟨title, h₁, ht, hne, hc, -⟩ |
    ⟨title, h₁, h₂, ht, hc, -⟩
  · rw [hc]
    exact ⟨rfl, rfl, rfl⟩
  · have h₂ := isTitileLevel2_of_isTitileLevel1 h₁
    have h₁' := isTitileLevel1_mark ht hne
    obtain ⟨s, rfl, -, -⟩ := isTitileLevel1_eq_some h₁
    rw [hc, h₁, h₂, h₁', isTitileLevel2_of_isTitileLevel1 h₁']
    exact ⟨rfl, rfl, rfl⟩
  · have h₂' := isTitileLevel2_mark ht
    have h₁' : isTitileLevel1 (42 :: 42 :: title) = none := by simp [isTitileLevel1]
    obtain ⟨s, rfl, -⟩ := isTitileLevel2_eq_some h₂
    rw [hc, h₁, h₂, h₁', h₂']
    exact ⟨rfl, rfl, rfl⟩

/-- What is read of a printed line. -/
lemma trim_printedLine (hl : CacheLine l) (h : TitleLine l) :
    trim (indent l ++ canonicalLine l ++ [13, 10]) = canonicalLine l := by
  rcases titleLine_cases hl h with ⟨-, hc, hi⟩ | ⟨title, -, ht, -, hc, hi⟩ |
    ⟨title, -, -, ht, hc, hi⟩
  · rw [hc, hi, List.nil_append]
    exact trim_printed hl.head hl.last
  · rw [hc, hi]
    exact trim_marked [94] ht (by simp) (by simp [isTrailingBlank])
  · rw [hc, hi]
    have hmarked := trim_marked [42, 42] ht (by simp) (by simp [isTrailingBlank])
    -- the blank in front of the mark is taken off
    rw [trim, trimEnds, List.cons_append, List.nil_append, List.cons_append,
      List.dropWhile_cons_of_pos (by decide)]
    exact hmarked

/-- A printed line is one line, and it fits into the buffer. -/
lemma printedLine_line (hl : CacheLine l) (h : TitleLine l) :
    10 ∉ indent l ++ canonicalLine l ∧ (indent l ++ canonicalLine l).length < 4094 := by
  rcases titleLine_cases hl h with ⟨-, hc, hi⟩ | ⟨title, -, ht, -, hc, hi⟩ |
    ⟨title, -, -, ht, hc, hi⟩
  · have hsize := hl.size
    rw [hc, hi, List.nil_append]
    exact ⟨hl.newline, by omega⟩
  · have hsize := ht.size
    rw [hc, hi]
    exact ⟨by simp [ht.newline], by simp; omega⟩
  · have hsize := ht.size
    rw [hc, hi]
    exact ⟨by simp [ht.newline], by simp; omega⟩

/-- A printed line stands in the body of a version or a header. -/
lemma canonicalLine_inner (hl : CacheLine l) (h : TitleLine l) :
    isEmptyLine (canonicalLine l) = false ∧ (canonicalLine l).head? ≠ some 35 ∧
      (canonicalLine l).head? ≠ some 36 := by
  rcases titleLine_cases hl h with ⟨hm, hc, -⟩ | ⟨title, -, -, -, hc, -⟩ | ⟨title, -, -, -, hc, -⟩
  · rw [hc]
    refine ⟨hl.isEmptyLine, ?_, ?_⟩ <;>
    · obtain ⟨c, s, rfl, -⟩ := hl.exists_cons
      rw [List.head?_cons]
      rintro h
      rw [Option.some.inj h] at hm
      exact absurd hm (by simp [isTileMultiLine])
  · rw [hc]
    simp [isEmptyLine]
  · rw [hc]
    simp [isEmptyLine]

lemma isVersionEnd_of_head (h : data.head? ≠ some 35) : isVersionEnd data = false := by
  cases data with
  | nil => rfl
  | cons c s =>
    simp only [isVersionEnd, Bool.and_eq_false_iff, decide_eq_false_iff_not]
    right
    intro heq
    exact h (congrArg some (List.cons.inj heq).1)

lemma isHeaderEnd_of_head (h : data.head? ≠ some 36) : isHeaderEnd data = false := by
  cases data with
  | nil => rfl
  | cons c s =>
    simp only [isHeaderEnd, Bool.and_eq_false_iff, decide_eq_false_iff_not]
    right
    intro heq
    exact h (congrArg some (List.cons.inj heq).1)

/-! ## The start of a version -/

/-- Eight `#`. -/
def hashes : Bytes := List.replicate 8 35

lemma length_hashes : hashes.length = 8 := rfl

/-- The words in the first line of a version. -/
structure VersionWords (ver time : Bytes) : Prop where
  ver_ne_nil : ver ≠ []
  ver_notMem : 40 ∉ ver
  time_ne_nil : time ≠ []
  time_notMem : 41 ∉ time

/-- The first line of a version, with what follows it. -/
def versionLine (ver time rest : Bytes) : Bytes :=
  hashes ++ (ver ++ 40 :: (time ++ 41 :: (hashes ++ rest)))

lemma findFrom_append {start : ℕ} {a rest : Bytes} (ha : a.length = start) (hw : c ∉ w) :
    findFrom c start (a ++ (w ++ c :: rest)) = start + w.length := by
  have hdrop : (a ++ (w ++ c :: rest)).drop start = w ++ c :: rest := by
    rw [← ha, List.drop_left]
  rw [findFrom, hdrop, if_pos (by simp), List.idxOf_append_of_notMem hw, List.idxOf_cons_self,
    add_zero]

lemma exists_of_findFrom {start : ℕ} (h : findFrom c start data ≠ 0) :
    ∃ w rest, data.drop start = w ++ c :: rest ∧ c ∉ w ∧
      findFrom c start data = start + w.length := by
  rw [findFrom] at h ⊢
  split_ifs at h ⊢ with hmem
  · obtain ⟨w, rest, hsplit, hw⟩ := List.eq_append_cons_of_mem hmem
    refine ⟨w, rest, hsplit, hw, ?_⟩
    rw [hsplit, List.idxOf_append_of_notMem hw, List.idxOf_cons_self, add_zero]
  · exact absurd rfl h

/-- The positions in a line that has the form of a version start. -/
lemma isVersionStart_words {ver time : Bytes} (h : VersionWords ver time) (rest : Bytes) :
    isVersionStart (versionLine ver time rest) =
      some (8, 8 + ver.length, 8 + ver.length + 1, 8 + ver.length + (1 + time.length)) := by
  have hver := List.length_pos_iff.mpr h.ver_ne_nil
  have htime := List.length_pos_iff.mpr h.time_ne_nil
  rw [versionLine]
  have hleft : findFrom 40 8 (hashes ++ (ver ++ 40 :: (time ++ 41 :: (hashes ++ rest)))) =
      8 + ver.length := findFrom_append length_hashes h.ver_notMem
  have hright : findFrom 41 (8 + ver.length)
      (hashes ++ (ver ++ 40 :: (time ++ 41 :: (hashes ++ rest)))) =
      8 + ver.length + (1 + time.length) := by
    have hparen : (41 : UInt8) ∉ 40 :: time := by simp [h.time_notMem]
    have hfind : findFrom 41 (8 + ver.length)
        (hashes ++ ver ++ (40 :: time ++ 41 :: (hashes ++ rest))) =
        8 + ver.length + (40 :: time).length := findFrom_append (by simp [length_hashes]) hparen
    simpa [add_comm] using hfind
  have hend : ((hashes ++ (ver ++ 40 :: (time ++ 41 :: (hashes ++ rest)))).drop
      (8 + ver.length + (1 + time.length) + 1)).take 8 = List.replicate 8 35 := by
    have hsplit : hashes ++ (ver ++ 40 :: (time ++ 41 :: (hashes ++ rest))) =
        (hashes ++ ver ++ 40 :: (time ++ [41])) ++ (hashes ++ rest) := by simp
    have hlen : (hashes ++ ver ++ 40 :: (time ++ [41])).length =
        8 + ver.length + (1 + time.length) + 1 := by
      simp [length_hashes]
      omega
    rw [hsplit, ← hlen, List.drop_left]
    rfl
  have hlen : (hashes ++ (ver ++ 40 :: (time ++ 41 :: (hashes ++ rest)))).length =
      ver.length + time.length + 18 + rest.length := by
    simp [length_hashes]
    omega
  rw [isVersionStart, if_neg (by omega), if_neg (by rw [not_not]; rfl)]
  simp only [hleft, hright, hend, hlen]
  rw [if_neg (by omega), if_neg (by omega), if_neg (by simp)]

/-- A line that is taken as a version start. -/
lemma exists_of_isVersionStart {p₁ p₂ p₃ p₄ : ℕ}
    (h : isVersionStart data = some (p₁, p₂, p₃, p₄)) :
    ∃ ver time rest, VersionWords ver time ∧ data = versionLine ver time rest := by
  simp only [isVersionStart] at h
  split_ifs at h with hlen hfirst hleft hright hlast
  rw [not_not] at hfirst hlast
  have hfound : findFrom 40 8 data ≠ 0 := by omega
  obtain ⟨ver, s, hs, hver, hpos⟩ := exists_of_findFrom hfound
  have hdata : data = hashes ++ (ver ++ 40 :: s) := by
    rw [← hs, hashes, ← hfirst, List.take_append_drop]
  rw [hpos] at hleft hright hlast
  have hfound' : findFrom 41 (8 + ver.length) data ≠ 0 := by omega
  obtain ⟨w, r, hr, hw, hpos'⟩ := exists_of_findFrom hfound'
  rw [hpos'] at hright hlast
  have hdrop : data.drop (8 + ver.length) = 40 :: s := by
    rw [hdata, ← length_hashes, ← List.length_append, ← List.append_assoc, List.drop_left]
  -- the search for `)` begins at the `(`
  obtain ⟨d, time, rfl⟩ : ∃ d time, w = d :: time := by
    refine List.exists_cons_of_ne_nil fun hnil => ?_
    rw [hnil, List.length_nil] at hright
    omega
  have hparts := hdrop.symm.trans hr
  rw [List.cons_append] at hparts
  obtain ⟨rfl, rfl⟩ := List.cons.inj hparts
  rw [List.mem_cons, not_or] at hw
  rw [List.length_cons] at hright hlast
  have hlast' : r.take 8 = hashes := by
    have hsplit : data = (hashes ++ ver ++ 40 :: (time ++ [41])) ++ r := by
      rw [hdata]
      simp
    have hlen' : 8 + ver.length + (time.length + 1) + 1 =
        (hashes ++ ver ++ 40 :: (time ++ [41])).length := by
      simp [length_hashes]
      omega
    rw [hsplit, hlen', List.drop_left] at hlast
    exact hlast
  refine ⟨ver, time, r.drop 8, ⟨?_, hver, ?_, hw.2⟩, ?_⟩
  · rintro rfl
    simp at hleft
  · rintro rfl
    simp at hright
  · have hend : hashes ++ r.drop 8 = r := by rw [← hlast', List.take_append_drop]
    rw [versionLine, hend]
    exact hdata

/-- The words stand at their positions. -/
lemma slices_versionLine (ver time rest : Bytes) :
    ((versionLine ver time rest).drop 8).take (8 + ver.length - 8) = ver ∧
      ((versionLine ver time rest).drop (8 + ver.length + 1)).take
        (8 + ver.length + (1 + time.length) - (8 + ver.length + 1)) = time := by
  have htime : versionLine ver time rest =
      (hashes ++ ver ++ [40]) ++ (time ++ 41 :: (hashes ++ rest)) := by
    simp [versionLine]
  have hlen : 8 + ver.length + 1 = (hashes ++ ver ++ [40]).length := by
    simp [length_hashes]
    omega
  constructor
  · rw [versionLine, ← length_hashes, List.drop_left, Nat.add_sub_cancel_left, List.take_left]
  · rw [show 8 + ver.length + (1 + time.length) - (8 + ver.length + 1) = time.length by omega,
      hlen, htime, List.drop_left, List.take_left]

/-! ## The titles of a version or a header -/

variable {start d : LineData} {ctx ctx' : List LineData} {ls : List Bytes}

/-- What is written for some entries. -/
def dumpEntries (ctx : List LineData) : Bytes := ctx.flatMap dumpEntry

/-- What is written for the lines of a version or a header. -/
def printedLines (ls : List Bytes) : Bytes :=
  ls.flatMap fun l => indent l ++ canonicalLine l ++ [13, 10]

lemma appendLast_concat (text : Bytes) (ctx : List LineData) (d : LineData) :
    appendLast text (ctx ++ [d]) = ctx ++ [{ d with data := d.data ++ text }] := by
  induction ctx with
  | nil => rfl
  | cons e ctx ih =>
    cases ctx with
    | nil => rfl
    | cons e' ctx => exact congrArg (e :: ·) ih

/-- An entry of a title. -/
structure TitleEntry (d : LineData) : Prop where
  type : d.type = .titleLevel1 ∨ d.type = .titleLevel2
  zero : 0 ∉ d.data

/-- A further line of a title is printed behind it. -/
lemma dumpEntry_append (hd : TitleEntry d) (hl : 0 ∉ l) :
    dumpEntry { d with data := d.data ++ ([13, 10] ++ l) } = dumpEntry d ++ (l ++ [13, 10]) := by
  obtain ⟨type, data⟩ := d
  have hzero : cString data = data := cString_eq_self fun c hc h => hd.zero (h ▸ hc)
  have hboth : cString (data ++ 13 :: 10 :: l) = data ++ 13 :: 10 :: l := by
    refine cString_eq_self fun c hc => ?_
    rcases List.mem_append.mp hc with hc | hc
    · exact fun h => hd.zero (h ▸ hc)
    · rcases List.mem_cons.mp hc with rfl | hc
      · decide
      · rcases List.mem_cons.mp hc with rfl | hc
        · decide
        · exact fun h => hl (h ▸ hc)
  rcases hd.type with rfl | rfl <;>
    simp [dumpEntry, hzero, hboth]

lemma dumpEntries_concat (ctx : List LineData) (d : LineData) :
    dumpEntries (ctx ++ [d]) = dumpEntries ctx ++ dumpEntry d := by
  simp [dumpEntries]

lemma printedLines_cons (l : Bytes) (ls : List Bytes) :
    printedLines (l :: ls) = indent l ++ canonicalLine l ++ [13, 10] ++ printedLines ls :=
  List.flatMap_cons

/-- An entry for a title that was found. -/
lemma dumpEntry_title (hl : CacheLine l) :
    (∀ t, isTitileLevel1 l = some t → TitleEntry ⟨.titleLevel1, t⟩ ∧
      dumpEntry ⟨.titleLevel1, t⟩ = indent l ++ canonicalLine l ++ [13, 10]) ∧
    (∀ t, isTitileLevel1 l = none → isTitileLevel2 l = some t → TitleEntry ⟨.titleLevel2, t⟩ ∧
      dumpEntry ⟨.titleLevel2, t⟩ = indent l ++ canonicalLine l ++ [13, 10]) := by
  constructor
  · intro t h₁
    have h₂ := isTitileLevel2_of_isTitileLevel1 h₁
    have hcan : canonicalLine l = 94 :: t := by simp [canonicalLine, h₁]
    have hind : indent l = [] := by simp [indent, h₂]
    obtain ⟨s, rfl, -, rfl⟩ := isTitileLevel1_eq_some h₁
    have ht : LineText (trim s) := hl.toLineText.trim_drop 1
    exact ⟨⟨Or.inl rfl, ht.zero⟩, by simp [dumpEntry, ht.cString_eq, hcan, hind]⟩
  · intro t h₁ h₂
    have hcan : canonicalLine l = 42 :: 42 :: t := by simp [canonicalLine, h₁, h₂]
    have hind : indent l = [32] := by simp [indent, h₂]
    obtain ⟨s, rfl, rfl⟩ := isTitileLevel2_eq_some h₂
    have ht : LineText (trim s) := hl.toLineText.trim_drop 2
    exact ⟨⟨Or.inr rfl, ht.zero⟩, by simp [dumpEntry, ht.cString_eq, hcan, hind]⟩

/-- A title that is pushed, by its line or by the canonical one. -/
lemma titleLoop_title (hkind : isTileMultiLine l = false) (ls : List Bytes) :
    (∀ t, isTitileLevel1 l = some t →
      titleLoop ctx (l :: ls) = titleLoop (ctx ++ [⟨.titleLevel1, t⟩]) ls) ∧
    (∀ t, isTitileLevel1 l = none → isTitileLevel2 l = some t →
      titleLoop ctx (l :: ls) = titleLoop (ctx ++ [⟨.titleLevel2, t⟩]) ls) := by
  constructor
  · intro t h₁
    simp [titleLoop, hkind, h₁]
  · intro t h₁ h₂
    simp [titleLoop, hkind, h₁, h₂]

/-- **The titles that were found**: their lines, what is printed for them, and that it is found
again. -/
lemma titleLoop_spec (hls : ∀ l ∈ ls, CacheLine l) (hd : TitleEntry d)
    (h : titleLoop (ctx ++ [d]) ls = some ctx') :
    (∀ l ∈ ls, TitleLine l) ∧
      dumpEntries ctx' = dumpEntries (ctx ++ [d]) ++ printedLines ls ∧
      titleLoop (ctx ++ [d]) (ls.map canonicalLine) = some ctx' ∧
      ∃ titles, ctx' = ctx ++ titles ∧ ∀ e ∈ titles, TitleEntry e := by
  induction ls generalizing ctx d with
  | nil =>
    obtain rfl := Option.some.inj h
    refine ⟨by simp, by simp [printedLines], rfl, [d], rfl, ?_⟩
    simpa using hd
  | cons l ls ih =>
    have hl := hls l List.mem_cons_self
    have hls' := fun l' hl' => hls l' (List.mem_cons_of_mem l hl')
    -- a new title: the induction goes on behind it
    have hnew : ∀ {e : LineData}, TitleLine l → TitleEntry e →
        dumpEntry e = indent l ++ canonicalLine l ++ [13, 10] →
        titleLoop (ctx ++ [d] ++ [e]) ls = some ctx' →
        titleLoop (ctx ++ [d]) (canonicalLine l :: ls.map canonicalLine) =
          titleLoop (ctx ++ [d] ++ [e]) (ls.map canonicalLine) →
        (∀ l' ∈ l :: ls, TitleLine l') ∧
          dumpEntries ctx' = dumpEntries (ctx ++ [d]) ++ printedLines (l :: ls) ∧
          titleLoop (ctx ++ [d]) ((l :: ls).map canonicalLine) = some ctx' ∧
          ∃ titles, ctx' = ctx ++ titles ∧ ∀ e ∈ titles, TitleEntry e := by
      intro e hline he hdump hloop hcan
      obtain ⟨hlines, hprinted, hagain, titles, rfl, htitles⟩ := ih hls' he hloop
      refine ⟨List.forall_mem_cons.mpr ⟨hline, hlines⟩, ?_, by rw [List.map_cons, hcan, hagain],
        d :: titles, by simp, List.forall_mem_cons.mpr ⟨hd, htitles⟩⟩
      rw [hprinted, dumpEntries_concat, hdump, printedLines_cons, List.append_assoc]
    cases hm : isTileMultiLine l with
    | true =>
      -- a further line of the last title
      have hline : TitleLine l := Or.inl hm
      obtain ⟨h₁, h₂⟩ := marks_of_isTileMultiLine hm
      have hcan : canonicalLine l = l := by simp [canonicalLine, h₁, h₂]
      have hind : indent l = [] := by simp [indent, h₂]
      have hloop : ∀ ls, titleLoop (ctx ++ [d]) (l :: ls) =
          titleLoop (ctx ++ [{ d with data := d.data ++ ([13, 10] ++ l) }]) ls := by
        intro ls
        rw [titleLoop, if_pos hm, appendLast_concat]
      have hd' : TitleEntry { d with data := d.data ++ ([13, 10] ++ l) } :=
        ⟨hd.type, by simp [hd.zero, hl.zero]⟩
      rw [hloop] at h
      obtain ⟨hlines, hprinted, hagain, titles, rfl, htitles⟩ := ih hls' hd' h
      refine ⟨List.forall_mem_cons.mpr ⟨hline, hlines⟩, ?_, ?_, titles, rfl, htitles⟩
      · simp only [hprinted, dumpEntries_concat, dumpEntry_append hd hl.zero, printedLines_cons,
          hcan, hind, List.nil_append, List.append_assoc]
      · rw [List.map_cons, hcan, hloop, hagain]
    | false =>
      cases h₁ : isTitileLevel1 l with
      | some t =>
        have hline : TitleLine l := Or.inr (Or.inl (by simp [h₁]))
        obtain ⟨hk, hk₁, hk₂⟩ := canonicalLine_kind hl hline
        rw [(titleLoop_title hm ls).1 t h₁] at h
        obtain ⟨he, hdump⟩ := (dumpEntry_title hl).1 t h₁
        exact hnew hline he hdump h ((titleLoop_title (hk.trans hm) _).1 t (hk₁.trans h₁))
      | none =>
        cases h₂ : isTitileLevel2 l with
        | some t =>
          have hline : TitleLine l := Or.inr (Or.inr (by simp [h₂]))
          obtain ⟨hk, hk₁, hk₂⟩ := canonicalLine_kind hl hline
          rw [(titleLoop_title hm ls).2 t h₁ h₂] at h
          obtain ⟨he, hdump⟩ := (dumpEntry_title hl).2 t h₁ h₂
          exact hnew hline he hdump h
            ((titleLoop_title (hk.trans hm) _).2 t (hk₁.trans h₁) (hk₂.trans h₂))
        | none => simp [titleLoop, hm, h₁, h₂] at h

/-- The same for a version or a header, with its first entry. -/
lemma checkTitles_spec (hls : ∀ l ∈ ls, CacheLine l) (h : checkTitles start ls = some ctx) :
    (∀ l ∈ ls, TitleLine l) ∧ dumpEntries ctx = dumpEntry start ++ printedLines ls ∧
      checkTitles start (ls.map canonicalLine) = some ctx ∧
      ∃ titles, ctx = start :: titles ∧ ∀ e ∈ titles, TitleEntry e := by
  cases ls with
  | nil =>
    obtain rfl := Option.some.inj h
    exact ⟨by simp, by simp [dumpEntries, printedLines], rfl, [], rfl, by simp⟩
  | cons l ls =>
    have hl := hls l List.mem_cons_self
    obtain ⟨t, h₁, hloop⟩ := Option.bind_eq_some_iff.mp h
    have hline : TitleLine l := Or.inr (Or.inl (by simp [h₁]))
    obtain ⟨-, hk₁, -⟩ := canonicalLine_kind hl hline
    obtain ⟨he, hdump⟩ := (dumpEntry_title hl).1 t h₁
    replace hloop : titleLoop ([start] ++ [⟨.titleLevel1, t⟩]) ls = some ctx := hloop
    obtain ⟨hlines, hprinted, hagain, titles, rfl, htitles⟩ :=
      titleLoop_spec (fun l' hl' => hls l' (List.mem_cons_of_mem l hl')) he hloop
    refine ⟨List.forall_mem_cons.mpr ⟨hline, hlines⟩, ?_, ?_, titles, rfl, htitles⟩
    · rw [hprinted, dumpEntries_concat, hdump, printedLines_cons]
      simp [dumpEntries]
    · rw [List.map_cons, checkTitles, hk₁, h₁, Option.bind_some]
      exact hagain

end SignalEventLoop.Tools
