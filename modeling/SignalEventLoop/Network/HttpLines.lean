/-
# The lines of an HTTP head

`ProtocalHttp::decodeFrameHeader` scans a key and a value from the start of every line of the
head, but `sscanf` does not stop at the end of the line: the key goes up to the next colon, and
the blanks in front of the value include line ends.

`keyRun` and `valueRun` are what is read from a text, `Broken` says that there is no pair to read
and `Overlong` that a buffer overflows.  A head whose lines end with CR LF has the line starts
that one expects (`lineStarts_headText`), its first line is read (`StartLine`), and a line with a
name and a value is read as it stands (`IsField`).
-/
import SignalEventLoop.Lib.CText
import SignalEventLoop.Network.HttpHead

namespace SignalEventLoop.Network

namespace ProtocalHttp

/-! ## Keys and values -/

/-- The text up to a colon. -/
def keyRun (t : Text) : Text := t.takeWhile fun c => c ≠ 0 && c ≠ 58

/-- What begins with the colon. -/
def colonRun (t : Text) : Text := t.dropWhile fun c => c ≠ 0 && c ≠ 58

/-- The text behind a colon and blanks, up to the end of its line. -/
def valueRun (t : Text) : Text :=
  (skipSpace (colonRun t).tail).takeWhile fun c => c ≠ 0 && !isLineEnd c

/-- There is no key, no colon or no value before the end of the text. -/
def Broken (t : Text) : Prop :=
  keyRun t = [] ∨ (colonRun t).head? ≠ some 58 ∨ valueRun t = []

/-- A key, or a value behind a key and a colon, does not fit into its buffer. -/
def Overlong (t : Text) : Prop :=
  4096 ≤ (keyRun t).length ∨
    keyRun t ≠ [] ∧ (colonRun t).head? = some 58 ∧ 4096 ≤ (valueRun t).length

instance (t : Text) : Decidable (Broken t) := inferInstanceAs (Decidable (_ ∨ _))

instance (t : Text) : Decidable (Overlong t) := inferInstanceAs (Decidable (_ ∨ _))

lemma scanKeyLine_eq (t : Text) : scanKeyLine t =
    if Overlong t then .error .bufferOverflow
    else if Broken t then .ok none
    else .ok (some (keyRun t, valueRun t)) := by
  have hkey : scanWhile (fun c => c ≠ 58) t =
      if keyRun t = [] then .ok none
      else if (keyRun t).length ≥ 4096 then .error .bufferOverflow
      else .ok (some (keyRun t, colonRun t)) := rfl
  rw [scanKeyLine, hkey]
  by_cases hnil : keyRun t = []
  · have hfit : ¬ Overlong t := by simp [Overlong, hnil]
    rw [if_pos hnil, if_neg hfit, if_pos (show Broken t from Or.inl hnil)]
    rfl
  rw [if_neg hnil]
  by_cases hlong : 4096 ≤ (keyRun t).length
  · rw [if_pos hlong, if_pos (show Overlong t from Or.inl hlong)]
    rfl
  rw [if_neg hlong]
  by_cases hcolon : (colonRun t).head? = some 58
  · obtain ⟨s, hs⟩ := List.head?_eq_some_iff.mp hcolon
    have hvalue : scanWhile (fun c => !isLineEnd c) (skipSpace s) =
        if valueRun t = [] then .ok none
        else if (valueRun t).length ≥ 4096 then .error .bufferOverflow
        else .ok (some (valueRun t, (skipSpace s).dropWhile fun c => c ≠ 0 && !isLineEnd c)) := by
      rw [valueRun, hs]
      rfl
    have hover : Overlong t ↔ 4096 ≤ (valueRun t).length := by
      simp only [Overlong, hlong, hcolon, hnil, ne_eq, not_false_eq_true, true_and, false_or]
    have hbroken : Broken t ↔ valueRun t = [] := by
      simp only [Broken, hcolon, hnil, ne_eq, not_true_eq_false, false_or]
    simp only [hover, hbroken]
    rw [hs]
    show (scanWhile (fun c => !isLineEnd c) (skipSpace s) >>= _) = _
    rw [hvalue]
    by_cases hempty : valueRun t = []
    · rw [if_pos hempty, if_neg (by simp [hempty]), if_pos hempty]
      rfl
    · rw [if_neg hempty]
      split_ifs <;> rfl
  · have hfit : ¬ Overlong t := by simp [Overlong, hlong, hcolon]
    rw [if_neg hfit, if_pos (show Broken t from Or.inr (Or.inl hcolon))]
    simp only [bind, Except.bind]
    split
    · next s hs => exact absurd (by rw [hs]; rfl) hcolon
    · rfl

/-- The starts of the lines behind the first one, as long as more than `left` bytes follow. -/
def lineStarts (left : ℕ) : ℕ → Text → List Text
  | 0, _ => []
  | fuel + 1, temp =>
    match getNextLine temp with
    | none => []
    | some temp => if temp.length ≤ left then [] else temp :: lineStarts left fuel temp

/-- The keys that are read from some line starts; the flag tells whether one is broken. -/
def scanLines : KeysMap → List Text → Except Fault (Bool × KeysMap)
  | keys, [] => .ok (false, keys)
  | keys, t :: ts =>
    if Overlong t then .error .bufferOverflow
    else if Broken t then .ok (true, [])
    else scanLines (keys.emplace (keyRun t) (valueRun t)) ts

lemma decodeKeys_eq (left fuel : ℕ) (keys : KeysMap) (temp : Text) :
    decodeKeys left fuel keys temp = scanLines keys (lineStarts left fuel temp) := by
  induction fuel generalizing keys temp with
  | zero => rfl
  | succ fuel ih =>
    rw [decodeKeys, lineStarts]
    cases getNextLine temp with
    | none => rfl
    | some t =>
      dsimp only
      by_cases hleft : t.length ≤ left
      · rw [if_pos hleft, if_pos hleft]
        rfl
      · rw [if_neg hleft, if_neg hleft, scanLines, scanKeyLine_eq]
        split_ifs
        · rfl
        · rfl
        · exact ih _ _

/-- Up to the first broken line start, everything that is read fits into its buffer. -/
def TokensFit : List Text → Prop
  | [] => True
  | t :: ts => ¬ Overlong t ∧ (Broken t ∨ TokensFit ts)

instance decidableTokensFit : (ts : List Text) → Decidable (TokensFit ts)
  | [] => inferInstanceAs (Decidable True)
  | t :: ts =>
    haveI := decidableTokensFit ts
    inferInstanceAs (Decidable (¬ Overlong t ∧ (Broken t ∨ TokensFit ts)))

/-- The keys of line starts that are not broken. -/
def keysOf (keys : KeysMap) (ts : List Text) : KeysMap :=
  ts.foldl (fun keys t => keys.emplace (keyRun t) (valueRun t)) keys

lemma scanLines_of_tokensFit {ts : List Text} (h : TokensFit ts) (keys : KeysMap) :
    scanLines keys ts =
      .ok (if ∃ t ∈ ts, Broken t then (true, []) else (false, keysOf keys ts)) := by
  induction ts generalizing keys with
  | nil => simp [scanLines, keysOf]
  | cons t ts ih =>
    obtain ⟨hfit, hrest⟩ := h
    rw [scanLines, if_neg hfit]
    by_cases hbroken : Broken t
    · rw [if_pos hbroken, if_pos ⟨t, List.mem_cons_self, hbroken⟩]
    · rw [if_neg hbroken, ih (hrest.resolve_left hbroken)]
      simp only [List.mem_cons, exists_eq_or_imp, hbroken, false_or, keysOf, List.foldl_cons]

lemma scanLines_of_not_tokensFit {ts : List Text} (h : ¬ TokensFit ts) (keys : KeysMap) :
    scanLines keys ts = .error .bufferOverflow := by
  induction ts generalizing keys with
  | nil => exact absurd trivial h
  | cons t ts ih =>
    rw [scanLines]
    by_cases hfit : Overlong t
    · rw [if_pos hfit]
    · have hrest : ¬ Broken t ∧ ¬ TokensFit ts := by
        rw [← not_or]
        exact fun hor => h ⟨hfit, hor⟩
      rw [if_neg hfit, if_neg hrest.1]
      exact ih hrest.2 _

/-! ## Heads with lines that end with CR LF -/

/-- A line of a head: it is not empty, and no byte of it ends a line or the text. -/
structure IsLine (l : Text) : Prop where
  ne_nil : l ≠ []
  clean : ∀ c ∈ l, c ≠ 0 ∧ c ≠ 13 ∧ c ≠ 10

/-- The lines, each with its end. -/
def linesText (lines : List Text) : Text := (lines.map (· ++ lineEnd)).flatten

/-- A head with these lines. -/
def headText (first : Text) (lines : List Text) : Text := linesText (first :: lines) ++ lineEnd

/-- The text from each of the lines on, when `rest` follows them. -/
def lineTexts : List Text → Text → List Text
  | [], _ => []
  | l :: lines, rest => (linesText (l :: lines) ++ rest) :: lineTexts lines rest

lemma linesText_cons (l : Text) (lines : List Text) (rest : Text) :
    linesText (l :: lines) ++ rest = l ++ (lineEnd ++ (linesText lines ++ rest)) := by
  simp [linesText]

variable {l first : Text} {lines : List Text}

lemma getNextLine_line (hl : ∀ c ∈ l, c ≠ 0 ∧ c ≠ 13 ∧ c ≠ 10) (s : Text) :
    getNextLine (l ++ (lineEnd ++ s)) = some s := by
  induction l with
  | nil => rfl
  | cons c l ih =>
    obtain ⟨⟨hzero, hcr, hlf⟩, hl⟩ := List.forall_mem_cons.mp hl
    rw [List.cons_append, getNextLine, if_neg hzero, if_neg (by simp [isLineEnd, hcr, hlf]), ih hl]

/-- The line starts of a head are those of its lines. -/
lemma lineStarts_headText (hfirst : IsLine first) (hlines : ∀ l ∈ lines, IsLine l) (body : Text)
    {fuel : ℕ} (hfuel : (headText first lines ++ body).length ≤ fuel) :
    lineStarts (4 + body.length) fuel (headText first lines ++ body) =
      lineTexts lines (lineEnd ++ body) := by
  rw [headText, List.append_assoc, linesText_cons] at *
  induction lines generalizing first fuel with
  | nil =>
    obtain _ | fuel := fuel
    · rfl
    · rw [lineStarts, getNextLine_line hfirst.clean]
      dsimp only
      rw [if_pos]
      · rfl
      · simp [linesText, lineEnd]
        omega
  | cons l lines ih =>
    obtain ⟨hl, hlines⟩ := List.forall_mem_cons.mp hlines
    obtain _ | fuel := fuel
    · simp [lineEnd] at hfuel
    · have hpos := List.length_pos_of_ne_nil hl.ne_nil
      rw [lineStarts, getNextLine_line hfirst.clean]
      dsimp only
      rw [linesText_cons] at hfuel ⊢
      simp only [List.length_append, lineEnd, List.length_cons, List.length_nil] at hfuel
      rw [lineTexts, linesText_cons, if_neg]
      · refine congrArg _ (ih hl hlines ?_)
        simp only [List.length_append, lineEnd, List.length_cons, List.length_nil]
        omega
      · simp only [List.length_append, lineEnd, List.length_cons, List.length_nil]
        omega

/-- The empty line is found behind the last line. -/
lemma search_headText (hfirst : IsLine first) (hlines : ∀ l ∈ lines, IsLine l) (body : Text) :
    Lib.search headEnd (headText first lines ++ body) =
      some ((headText first lines).length - 4) := by
  have hcr : ∀ {l : Text}, IsLine l → (13 : UInt8) ∉ l := fun hl hmem => (hl.clean 13 hmem).2.1 rfl
  induction lines generalizing first with
  | nil =>
    have hfound : Lib.search headEnd (13 :: 10 :: 13 :: 10 :: body) = some 0 := by
      rw [headEnd, Lib.search_cons, if_pos ⟨body, rfl⟩]
    rw [headText, List.append_assoc, linesText_cons, headEnd,
      Lib.search_append_of_notMem (hcr hfirst)]
    refine (congrArg (Option.map (· + first.length)) hfound).trans ?_
    simp [linesText, lineEnd]
  | cons l lines ih =>
    obtain ⟨hl, hlines⟩ := List.forall_mem_cons.mp hlines
    have hrest := ih hl hlines
    obtain ⟨c, t, ht⟩ := List.exists_cons_of_ne_nil hl.ne_nil
    have hstart : headText l lines ++ body = c :: (t ++ (lineEnd ++ (linesText lines ++
        (lineEnd ++ body)))) := by
      rw [headText, List.append_assoc, linesText_cons, ht, List.cons_append]
    have hc : c ≠ 13 := (hl.clean c (by rw [ht]; exact List.mem_cons_self)).2.1
    -- the end of a line that another one follows is not the empty line
    have hskip : Lib.search headEnd (13 :: 10 :: (headText l lines ++ body)) =
        some ((headText l lines).length - 4 + 1 + 1) := by
      have hnot : ¬ headEnd <+: 13 :: 10 :: (headText l lines ++ body) := by
        rw [hstart, headEnd, List.cons_prefix_cons, List.cons_prefix_cons, List.cons_prefix_cons]
        exact fun h => hc h.2.2.1.symm
      have hnot' : ¬ headEnd <+: 10 :: (headText l lines ++ body) := by
        rw [headEnd, List.cons_prefix_cons]
        exact fun h => absurd h.1 (by decide)
      rw [Lib.search_cons, if_neg hnot, Lib.search_cons, if_neg hnot', hrest]
      rfl
    rw [headText, List.append_assoc, linesText_cons, headEnd,
      Lib.search_append_of_notMem (hcr hfirst)]
    rw [headText, List.append_assoc] at hskip
    refine (congrArg (Option.map (· + first.length)) hskip).trans ?_
    have hlen : (headText l lines).length = (linesText (l :: lines)).length + 2 := by
      rw [headText, List.length_append]
      rfl
    have hpos : 2 ≤ (linesText (l :: lines)).length := by
      simp [linesText, lineEnd]
      omega
    simp only [headText, List.length_append, Option.map_some, Option.some.injEq, linesText,
      List.map_cons, List.flatten_cons, lineEnd, List.length_cons, List.length_nil] at hlen hpos ⊢
    omega

/-! ## What is read from a line -/

open scoped Lib.Bytes

/-- Blanks that do not end a line. -/
def Blanks (s : Text) : Prop := ∀ c ∈ s, isSpace c = true ∧ c ≠ 0 ∧ c ≠ 13 ∧ c ≠ 10

lemma blanks_space : Blanks (ascii " ") := by
  intro c hc
  obtain rfl := List.mem_singleton.mp hc
  decide

/-- What `%s` reads. -/
structure IsWord (t : Text) : Prop where
  ne_nil : t ≠ []
  noSpace : ∀ c ∈ t, c ≠ 0 ∧ isSpace c = false
  length_lt : t.length < 4096

/-- The name of a field ends at a colon. -/
structure IsName (name : Text) : Prop where
  ne_nil : name ≠ []
  clean : ∀ c ∈ name, c ≠ 0 ∧ c ≠ 13 ∧ c ≠ 10
  noColon : ∀ c ∈ name, c ≠ 58
  length_lt : name.length < 4096

/-- The value of a field may be empty; the blanks in front of it do not belong to it. -/
structure IsValue (value : Text) : Prop where
  clean : ∀ c ∈ value, c ≠ 0 ∧ c ≠ 13 ∧ c ≠ 10
  noBlank : ∀ c ∈ value.head?, isSpace c = false
  length_lt : value.length < 4096

instance (l : Text) : Decidable (IsLine l) :=
  decidable_of_iff (l ≠ [] ∧ ∀ c ∈ l, c ≠ 0 ∧ c ≠ 13 ∧ c ≠ 10)
    ⟨fun ⟨h₁, h₂⟩ => ⟨h₁, h₂⟩, fun ⟨h₁, h₂⟩ => ⟨h₁, h₂⟩⟩

instance (t : Text) : Decidable (IsWord t) :=
  decidable_of_iff (t ≠ [] ∧ (∀ c ∈ t, c ≠ 0 ∧ isSpace c = false) ∧ t.length < 4096)
    ⟨fun ⟨h₁, h₂, h₃⟩ => ⟨h₁, h₂, h₃⟩, fun ⟨h₁, h₂, h₃⟩ => ⟨h₁, h₂, h₃⟩⟩

instance (name : Text) : Decidable (IsName name) :=
  decidable_of_iff (name ≠ [] ∧ (∀ c ∈ name, c ≠ 0 ∧ c ≠ 13 ∧ c ≠ 10) ∧ (∀ c ∈ name, c ≠ 58) ∧
    name.length < 4096)
    ⟨fun ⟨h₁, h₂, h₃, h₄⟩ => ⟨h₁, h₂, h₃, h₄⟩, fun ⟨h₁, h₂, h₃, h₄⟩ => ⟨h₁, h₂, h₃, h₄⟩⟩

instance (value : Text) : Decidable (IsValue value) :=
  decidable_of_iff ((∀ c ∈ value, c ≠ 0 ∧ c ≠ 13 ∧ c ≠ 10) ∧
    (∀ c ∈ value.head?, isSpace c = false) ∧ value.length < 4096)
    ⟨fun ⟨h₁, h₂, h₃⟩ => ⟨h₁, h₂, h₃⟩, fun ⟨h₁, h₂, h₃⟩ => ⟨h₁, h₂, h₃⟩⟩

/-- A first line of three parts. -/
structure StartLine (first a b c : Text) : Prop where
  eq_append : ∃ s₁ s₂, s₁ ≠ [] ∧ s₂ ≠ [] ∧ Blanks s₁ ∧ Blanks s₂ ∧
    first = a ++ (s₁ ++ (b ++ (s₂ ++ c)))
  word₁ : IsWord a
  word₂ : IsWord b
  rest : IsValue c
  rest_ne_nil : c ≠ []

section runs

variable {p : UInt8 → Bool} {t s name blanks value a b c : Text} {d : UInt8}

lemma scanWhile_stop (hne : t ≠ []) (ht : ∀ c ∈ t, c ≠ 0 ∧ p c = true) (hlen : t.length < 4096)
    (hd : d = 0 ∨ p d = false) : scanWhile p (t ++ d :: s) = .ok (some (t, d :: s)) := by
  have hall : ∀ c ∈ t, (decide (c ≠ 0) && p c) = true := by
    intro c hc
    rw [(ht c hc).2, Bool.and_true, decide_eq_true_eq]
    exact (ht c hc).1
  have hstop : ¬ (decide (d ≠ 0) && p d) = true := by
    rcases hd with rfl | hd
    · simp
    · simp [hd]
  refine scanWhile_eq_some.mpr ⟨hne, hlen, ?_, ?_⟩
  · rw [List.takeWhile_append_of_pos hall, List.takeWhile_cons, if_neg hstop, List.append_nil]
  · rw [List.dropWhile_append_of_pos hall, List.dropWhile_cons, if_neg hstop]

/-- Blanks are skipped, up to what is none. -/
lemma skipSpace_append (hblanks : ∀ c ∈ blanks, isSpace c = true)
    (hs : ∀ c ∈ s.head?, isSpace c = false) : skipSpace (blanks ++ s) = s := by
  rw [skipSpace, List.dropWhile_append_of_pos hblanks]
  obtain _ | ⟨d, s⟩ := s
  · rfl
  · rw [List.dropWhile_cons_of_neg]
    rw [hs d rfl]
    exact Bool.false_ne_true

lemma scanWord_append_blank (hblanks : ∀ c ∈ blanks, isSpace c = true) (ht : IsWord t)
    (hd : isSpace d = true) (s : Text) :
    scanWord (blanks ++ (t ++ d :: s)) = .ok (some (t, d :: s)) := by
  rw [scanWord, skipSpace_append hblanks]
  · refine scanWhile_stop ht.ne_nil (fun c hc => ?_) ht.length_lt (Or.inr (by rw [hd]; rfl))
    rw [(ht.noSpace c hc).2]
    exact ⟨(ht.noSpace c hc).1, rfl⟩
  · obtain ⟨e, u, rfl⟩ := List.exists_cons_of_ne_nil ht.ne_nil
    intro c hc
    obtain rfl := Option.some.inj hc
    exact (ht.noSpace _ List.mem_cons_self).2

lemma isLineEnd_eq_false (h : d ≠ 13 ∧ d ≠ 10) : isLineEnd d = false := by
  simp [isLineEnd, h.1, h.2]

/-- The three parts of the first line are read. -/
lemma StartLine.scanFirstLine_eq (h : StartLine first a b c) (s : Text) :
    scanFirstLine (first ++ (lineEnd ++ s)) = .ok (some (a, b, c)) := by
  obtain ⟨s₁, s₂, hne₁, hne₂, hs₁, hs₂, rfl⟩ := h.eq_append
  obtain ⟨d₁, u₁, rfl⟩ := List.exists_cons_of_ne_nil hne₁
  obtain ⟨d₂, u₂, rfl⟩ := List.exists_cons_of_ne_nil hne₂
  have hnone : ∀ c ∈ ([] : Text), isSpace c = true := by simp
  have ha := scanWord_append_blank hnone h.word₁ (hs₁ d₁ List.mem_cons_self).1
    (u₁ ++ (b ++ (d₂ :: (u₂ ++ (c ++ (lineEnd ++ s))))))
  have hb := scanWord_append_blank (fun c hc => (hs₁ c hc).1) h.word₂
    (hs₂ d₂ List.mem_cons_self).1 (u₂ ++ (c ++ (lineEnd ++ s)))
  have hskip : skipSpace (d₂ :: u₂ ++ (c ++ (lineEnd ++ s))) = c ++ (lineEnd ++ s) := by
    refine skipSpace_append (fun c hc => (hs₂ c hc).1) ?_
    rw [List.head?_append_of_ne_nil _ h.rest_ne_nil]
    exact h.rest.noBlank
  have hc : scanWhile (fun c => !isLineEnd c) (c ++ 13 :: 10 :: s) =
      .ok (some (c, 13 :: 10 :: s)) := by
    refine scanWhile_stop h.rest_ne_nil (fun d hd => ?_) h.rest.length_lt (Or.inr rfl)
    obtain ⟨hzero, hclean⟩ := h.rest.clean d hd
    exact ⟨hzero, by rw [isLineEnd_eq_false hclean]; rfl⟩
  simp only [List.nil_append, List.cons_append] at ha hb hskip
  simp only [List.append_assoc, List.cons_append]
  rw [scanFirstLine, ha]
  simp only [bind, Except.bind]
  rw [hb]
  simp only
  rw [hskip]
  simp only [lineEnd, List.cons_append, List.nil_append] at hc ⊢
  rw [hc]

lemma StartLine.isLine (h : StartLine first a b c) : IsLine first := by
  obtain ⟨s₁, s₂, -, -, hs₁, hs₂, rfl⟩ := h.eq_append
  have hword : ∀ {t : Text}, IsWord t → ∀ d ∈ t, d ≠ 0 ∧ d ≠ 13 ∧ d ≠ 10 := by
    intro t ht d hd
    obtain ⟨hzero, hspace⟩ := ht.noSpace d hd
    refine ⟨hzero, ?_, ?_⟩
    · rintro rfl
      exact absurd hspace (by decide)
    · rintro rfl
      exact absurd hspace (by decide)
  constructor
  · intro hnil
    exact h.word₁.ne_nil (List.append_eq_nil_iff.mp hnil).1
  · intro d hd
    simp only [List.mem_append] at hd
    rcases hd with hd | hd | hd | hd | hd
    · exact hword h.word₁ d hd
    · exact (hs₁ d hd).2
    · exact hword h.word₂ d hd
    · exact (hs₂ d hd).2
    · exact h.rest.clean d hd

lemma IsName.forall_mem (h : IsName name) :
    ∀ c ∈ name, (decide (c ≠ 0) && decide (c ≠ 58)) = true := by
  intro c hc
  simp [(h.clean c hc).1, h.noColon c hc]

lemma keyRun_append (h : IsName name) (s : Text) : keyRun (name ++ 58 :: s) = name := by
  rw [keyRun, List.takeWhile_append_of_pos h.forall_mem, List.takeWhile_cons_of_neg (by simp),
    List.append_nil]

lemma colonRun_append (h : IsName name) (s : Text) : colonRun (name ++ 58 :: s) = 58 :: s := by
  rw [colonRun, List.dropWhile_append_of_pos h.forall_mem, List.dropWhile_cons_of_neg (by simp)]

lemma valueRun_append (h : IsName name) (s : Text) : valueRun (name ++ 58 :: s) =
    (skipSpace s).takeWhile fun c => c ≠ 0 && !isLineEnd c := by
  rw [valueRun, colonRun_append h, List.tail_cons]

/-- A value that is not empty is read up to the end of its line. -/
lemma takeWhile_value (hblanks : Blanks blanks) (h : IsValue value) (hne : value ≠ [])
    (s : Text) : (skipSpace (blanks ++ (value ++ (lineEnd ++ s)))).takeWhile
      (fun c => c ≠ 0 && !isLineEnd c) = value := by
  have hall : ∀ c ∈ value, (decide (c ≠ 0) && !isLineEnd c) = true := by
    intro c hc
    obtain ⟨hzero, hclean⟩ := h.clean c hc
    simp [hzero, isLineEnd_eq_false hclean]
  rw [skipSpace_append fun c hc => (hblanks c hc).1]
  · rw [List.takeWhile_append_of_pos hall, lineEnd, List.cons_append,
      List.takeWhile_cons_of_neg (by decide), List.append_nil]
  · rw [List.head?_append_of_ne_nil _ hne]
    exact h.noBlank

/-- A line with a name, a colon, blanks and a value. -/
structure IsField (l name value : Text) : Prop where
  eq_append : ∃ blanks, Blanks blanks ∧ l = name ++ 58 :: (blanks ++ value)
  isName : IsName name
  isValue : IsValue value

namespace IsField

lemma isLine (h : IsField l name value) : IsLine l := by
  obtain ⟨blanks, hblanks, rfl⟩ := h.eq_append
  refine ⟨by simp, fun c hc => ?_⟩
  simp only [List.mem_append, List.mem_cons] at hc
  rcases hc with hc | rfl | hc | hc
  · exact h.isName.clean c hc
  · decide
  · exact (hblanks c hc).2
  · exact h.isValue.clean c hc

lemma mem_colon (h : IsField l name value) : (58 : UInt8) ∈ l := by
  obtain ⟨blanks, -, rfl⟩ := h.eq_append
  simp

lemma keyRun_eq (h : IsField l name value) (s : Text) : keyRun (l ++ s) = name := by
  obtain ⟨blanks, -, rfl⟩ := h.eq_append
  rw [List.append_assoc, List.cons_append]
  exact keyRun_append h.isName _

lemma head?_colonRun (h : IsField l name value) (s : Text) :
    (colonRun (l ++ s)).head? = some 58 := by
  obtain ⟨blanks, -, rfl⟩ := h.eq_append
  rw [List.append_assoc, List.cons_append, colonRun_append h.isName]
  rfl

lemma valueRun_eq (h : IsField l name value) (hne : value ≠ []) (s : Text) :
    valueRun (l ++ (lineEnd ++ s)) = value := by
  obtain ⟨blanks, hblanks, rfl⟩ := h.eq_append
  rw [List.append_assoc, List.cons_append, valueRun_append h.isName, List.append_assoc]
  exact takeWhile_value hblanks h.isValue hne s

lemma broken_iff (h : IsField l name value) (s : Text) :
    Broken (l ++ s) ↔ valueRun (l ++ s) = [] := by
  simp only [Broken, h.keyRun_eq, h.isName.ne_nil, h.head?_colonRun, ne_eq, not_true_eq_false,
    false_or]

lemma overlong_iff (h : IsField l name value) (s : Text) :
    Overlong (l ++ s) ↔ 4096 ≤ (valueRun (l ++ s)).length := by
  simp only [Overlong, h.keyRun_eq, not_le.mpr h.isName.length_lt, h.isName.ne_nil,
    h.head?_colonRun, ne_eq, not_false_eq_true, true_and, false_or]

end IsField

end runs

/-! ## What is read from a head -/

/-- What `decodeFrameHeader` stores after the keys were read. -/
def storeKeys (parts : List Text) (header_offset : ℕ) (bad : Bool) (keys : KeysMap) :
    Except Fault StreamHttpHeader :=
  if keys ≠ [] ∧ bad = false then do
    let content_length ← contentLength keys
    .ok ⟨parts, keys, content_length, header_offset, false, false⟩
  else .ok { StreamHttpHeader.init with keys := keys, parse_error := bad }

/-- `decodeFrameHeader` for the first complete head. -/
lemma decodeFrameHeader_eq {data : Text} {data_len tmp_pos : ℕ}
    (hpos : Lib.search headEnd (data.take data_len) = some tmp_pos) :
    decodeFrameHeader .init data data_len = (do
      match ← scanFirstLine data with
      | none => .ok { StreamHttpHeader.init with parse_error := true }
      | some (a, b, c) =>
        let (bad, keys) ← scanLines [] (lineStarts (data.length - tmp_pos) data.length data)
        storeKeys [a, b, c] (tmp_pos + 4) bad keys) := by
  rw [decodeFrameHeader, if_neg (by decide), hpos]
  refine bind_congr fun first => ?_
  obtain _ | ⟨a, b, c⟩ := first
  · rfl
  · rw [decodeKeys_eq]
    refine bind_congr fun read => ?_
    obtain ⟨bad, keys⟩ := read
    simp only [storeKeys, StreamHttpHeader.init, Bool.false_or, List.nil_append]
    by_cases hgood : keys ≠ [] ∧ bad = false
    · rw [if_pos hgood, if_pos hgood, hgood.2]
      rfl
    · rw [if_neg hgood, if_neg hgood]

lemma four_le_length_headText (hfirst : IsLine first) (lines : List Text) :
    4 ≤ (headText first lines).length := by
  have hpos := List.length_pos_of_ne_nil hfirst.ne_nil
  simp only [headText, linesText, List.map_cons, List.flatten_cons, List.length_append, lineEnd,
    List.length_cons, List.length_nil]
  omega

/-- `decodeFrameHeader` for a head with these lines. -/
lemma decodeFrameHeader_headText {a b c : Text} (hfirst : StartLine first a b c)
    (hlines : ∀ l ∈ lines, IsLine l) (body : Text) {data_len : ℕ}
    (hlen : (headText first lines).length ≤ data_len) :
    decodeFrameHeader .init (headText first lines ++ body) data_len = (do
      let (bad, keys) ← scanLines [] (lineTexts lines (lineEnd ++ body))
      storeKeys [a, b, c] (headText first lines).length bad keys) := by
  have hfour := four_le_length_headText hfirst.isLine lines
  have hpos : Lib.search headEnd ((headText first lines ++ body).take data_len) =
      some ((headText first lines).length - 4) := by
    rw [List.take_append, List.take_of_length_le hlen]
    exact search_headText hfirst.isLine hlines _
  have hscan : scanFirstLine (headText first lines ++ body) = .ok (some (a, b, c)) := by
    rw [headText, List.append_assoc, linesText_cons]
    exact hfirst.scanFirstLine_eq _
  have hleft : (headText first lines ++ body).length - ((headText first lines).length - 4) =
      4 + body.length := by
    rw [List.length_append]
    omega
  rw [decodeFrameHeader_eq hpos, hscan, hleft, lineStarts_headText hfirst.isLine hlines body le_rfl,
    Nat.sub_add_cancel hfour]
  rfl

end ProtocalHttp

end SignalEventLoop.Network
