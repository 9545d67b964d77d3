/-
# Where the head of an HTTP frame is read line by line

`decodeFrameHeader` starts at every line of a head, but what it reads there may go on in the next
lines: behind a name without a value, the next line is the value, and a line without a colon is
the beginning of a name that ends in another line.

A head is read line by line (`LineByLine`) when what is read of it is what its lines say.  This
is so exactly when a value is missing only where the name has occurred before, and when a line
without a colon has a line start at which nothing can be read (`head_lineByLine_iff`).
-/
import SignalEventLoop.Network.HttpKeys
import SignalEventLoop.Network.HttpLines

namespace SignalEventLoop.Network

namespace ProtocalHttp

/-! ## What the lines say -/

/-- The name and the value on a line fit into their buffers. -/
def ShortTokens (l : Text) : Prop := (keyRun l).length < 4096 ∧ (valueRun l).length < 4096

instance (l : Text) : Decidable (ShortTokens l) := inferInstanceAs (Decidable (_ ∧ _))

/-- The flag and the keys are those of the lines. -/
structure LineByLine (lines : List Text) (bad : Bool) (keys : KeysMap) : Prop where
  fields : ∀ fields, List.Forall₂ (fun l e => IsField l e.1 e.2) lines fields →
    bad = false ∧ KeysMap.FirstOf fields keys
  noColon : (∃ l ∈ lines, (58 : UInt8) ∉ l) → bad = true
  within : ∀ e ∈ keys, ∃ l ∈ lines, e.1 <:+: l ∧ e.2 <:+: l

/-- The flag and the keys that the loop of `decodeFrameHeader` stores for a head. -/
def headKeys (first : Text) (lines : List Text) (body : Text) : Except Fault (Bool × KeysMap) :=
  let data := headText first lines ++ body
  decodeKeys (data.length - ((headText first lines).length - 4)) data.length [] data

/-! ## What is read instead -/

/-- The name of a field without a value is one of `seen`, or occurs in front of it. -/
def Repeated (seen : List Text) : List (Text × Text) → Prop
  | [] => True
  | e :: fields => (e.2 = [] → e.1 ∈ seen) ∧ Repeated (e.1 :: seen) fields

/-- The text at the line starts is read like the lines: everything fits into its buffer up to
the first line start that is broken; where all lines are fields, none is broken, and a value is
missing only where the name has occurred before; where a line has no colon, one is broken. -/
structure ReadLikeLines (lines : List Text) (body : Text) : Prop where
  fits : TokensFit (lineTexts lines (lineEnd ++ body))
  fields : ∀ fields, List.Forall₂ (fun l e => IsField l e.1 e.2) lines fields →
    Repeated [] fields ∧ ∀ t ∈ lineTexts lines (lineEnd ++ body), ¬ Broken t
  noColon : (∃ l ∈ lines, (58 : UInt8) ∉ l) →
    ∃ t ∈ lineTexts lines (lineEnd ++ body), Broken t

/-- A field, and what is read at the start of its line. -/
structure Agree (e read : Text × Text) : Prop where
  name : read.1 = e.1
  ne_nil : read.2 ≠ []
  value : e.2 ≠ [] → read.2 = e.2

variable {lines : List Text} {fields reads : List (Text × Text)} {keys : KeysMap}
  {l rest : Text} {e : Text × Text}

/-- The first fields with a name are those that are read, where values are missing only behind
an earlier field with the name. -/
lemma find?_iff_repeated (h : List.Forall₂ Agree fields reads) (seen : List Text) :
    (∀ e : Text × Text, e.1 ∉ seen → (fields.find? (fun e' => e'.1 = e.1) = some e ↔
      reads.find? (fun e' => e'.1 = e.1) = some e)) ↔ Repeated seen fields := by
  induction h generalizing seen with
  | nil => simp [Repeated]
  | @cons d r fields reads hd hrest ih =>
    have hvalue : (d.1 ∉ seen → d = r) ↔ (d.2 = [] → d.1 ∈ seen) := by
      constructor
      · intro h hnil
        by_contra hnot
        exact hd.ne_nil (h hnot ▸ hnil)
      · intro h hnot
        exact Prod.ext hd.name.symm (hd.value fun hnil => hnot (h hnil)).symm
    rw [Repeated, ← hvalue, ← ih (d.1 :: seen)]
    simp only [List.find?_cons, hd.name]
    constructor
    · intro h
      refine ⟨fun hnot => ?_, fun e he => ?_⟩
      · have hself := h d hnot
        simp only [decide_true, Option.some.injEq, true_iff] at hself
        exact hself.symm
      · rw [List.mem_cons, not_or] at he
        have htail := h e he.2
        simpa only [Ne.symm he.1, decide_false] using htail
    · rintro ⟨hhead, htail⟩ e he
      by_cases heq : d.1 = e.1
      · simp only [heq, decide_true, Option.some.injEq]
        rw [hhead (heq ▸ he)]
      · simp only [heq, decide_false]
        exact htail e (by simp [he, Ne.symm heq])

/-! ## Lines and what is read at their starts -/

lemma IsField.within (h : IsField l e.1 e.2) : e.1 <:+: l ∧ e.2 <:+: l := by
  obtain ⟨blanks, -, rfl⟩ := h.eq_append
  refine ⟨(List.prefix_append _ _).isInfix, List.IsSuffix.isInfix ?_⟩
  exact ((List.suffix_append blanks e.2).trans (List.suffix_cons _ _)).trans
    (List.suffix_append _ _)

/-- The name of a line with a colon does not depend on what follows the line. -/
lemma keyRun_append_of_mem (hcolon : (58 : UInt8) ∈ l) (rest : Text) :
    keyRun (l ++ rest) = keyRun l :=
  Lib.takeWhile_append_of_ne_nil (Lib.dropWhile_ne_nil_of_mem hcolon (by simp))

/-- A line with a name and a colon is a field. -/
lemma isField_of_isLine (hl : IsLine l) (hshort : ShortTokens l) (hcolon : (58 : UInt8) ∈ l)
    (hname : keyRun l ≠ []) : IsField l (keyRun l) (valueRun l) := by
  have hsplit : l = keyRun l ++ colonRun l := List.takeWhile_append_dropWhile.symm
  have hne : colonRun l ≠ [] := Lib.dropWhile_ne_nil_of_mem hcolon (by simp)
  obtain ⟨d, s, hs⟩ := List.exists_cons_of_ne_nil hne
  have hmem : ∀ c ∈ colonRun l, c ≠ 0 ∧ c ≠ 13 ∧ c ≠ 10 := by
    intro c hc
    refine hl.clean c ?_
    rw [hsplit]
    exact List.mem_append_right _ hc
  -- the scan of the name stops at the colon
  have hd : d = 58 := by
    have hhead : d ∈ (colonRun l).head? := by
      rw [hs]
      rfl
    have hstop := Lib.eq_false_of_mem_head?_dropWhile hhead
    have hzero := (hmem d (by rw [hs]; exact List.mem_cons_self)).1
    simpa [hzero] using hstop
  subst hd
  have htail : ∀ c ∈ s, c ≠ 0 ∧ c ≠ 13 ∧ c ≠ 10 := fun c hc =>
    hmem c (by rw [hs]; exact List.mem_cons_of_mem _ hc)
  have hskip : ∀ c ∈ skipSpace s, c ≠ 0 ∧ c ≠ 13 ∧ c ≠ 10 := fun c hc =>
    htail c ((List.dropWhile_suffix _).subset hc)
  have hvalue : valueRun l = skipSpace s := by
    rw [valueRun, hs, List.tail_cons, List.takeWhile_eq_self_iff]
    intro c hc
    obtain ⟨hzero, hclean⟩ := hskip c hc
    simp [hzero, isLineEnd_eq_false hclean]
  refine ⟨⟨s.takeWhile isSpace, fun c hc => ?_, ?_⟩, ⟨hname, fun c hc => ?_, fun c hc => ?_,
    hshort.1⟩, ⟨fun c hc => hskip c (hvalue ▸ hc), fun c hc => ?_, hshort.2⟩⟩
  · exact ⟨List.mem_takeWhile_imp hc, htail c ((List.takeWhile_prefix _).subset hc)⟩
  · rw [hvalue, skipSpace, List.takeWhile_append_dropWhile, ← hs]
    exact hsplit
  · exact hl.clean c (by rw [hsplit]; exact List.mem_append_left _ hc)
  · have hin := List.mem_takeWhile_imp hc
    simp only [Bool.and_eq_true, decide_eq_true_eq] at hin
    exact hin.2
  · rw [hvalue] at hc
    exact Lib.eq_false_of_mem_head?_dropWhile hc

/-- What is read at the line starts that are not broken. -/
lemma agree_lineTexts (h : List.Forall₂ (fun l e => IsField l e.1 e.2) lines fields)
    (hgood : ∀ t ∈ lineTexts lines rest, ¬ Broken t) :
    List.Forall₂ Agree fields
      ((lineTexts lines rest).map fun t => (keyRun t, valueRun t)) := by
  induction h with
  | nil => exact List.Forall₂.nil
  | @cons l e lines fields hfield hfields ih =>
    rw [lineTexts, List.forall_mem_cons, linesText_cons] at hgood
    rw [lineTexts, List.map_cons, linesText_cons]
    refine List.Forall₂.cons ⟨hfield.keyRun_eq _, ?_, fun hne => ?_⟩ (ih hgood.2)
    · exact mt (hfield.broken_iff _).mpr hgood.1
    · exact hfield.valueRun_eq hne _

/-- All lines are fields, where no line start is broken and every line has a colon. -/
lemma forall₂_isField (hlines : ∀ l ∈ lines, IsLine l ∧ ShortTokens l)
    (hcolon : ∀ l ∈ lines, (58 : UInt8) ∈ l) (hgood : ∀ t ∈ lineTexts lines rest, ¬ Broken t) :
    List.Forall₂ (fun l e => IsField l e.1 e.2) lines
      (lines.map fun l => (keyRun l, valueRun l)) := by
  induction lines with
  | nil => exact List.Forall₂.nil
  | cons l lines ih =>
    rw [List.forall_mem_cons] at hlines hcolon
    rw [lineTexts, List.forall_mem_cons, linesText_cons] at hgood
    have hname : keyRun l ≠ [] := by
      rw [← keyRun_append_of_mem hcolon.1]
      exact fun hnil => hgood.1 (Or.inl hnil)
    exact List.Forall₂.cons (isField_of_isLine hlines.1.1 hlines.1.2 hcolon.1 hname)
      (ih hlines.2 hcolon.2 hgood.2)

lemma firstOf_keysOf (ts : List Text) :
    KeysMap.FirstOf (ts.map fun t => (keyRun t, valueRun t)) (keysOf [] ts) := by
  have h := KeysMap.firstOf_foldl (ts.map fun t => (keyRun t, valueRun t))
  rwa [List.foldl_map] at h

/-- The fields of the lines are what is read, where no line start is broken. -/
lemma firstOf_keysOf_iff (h : List.Forall₂ (fun l e => IsField l e.1 e.2) lines fields)
    (hgood : ∀ t ∈ lineTexts lines rest, ¬ Broken t) :
    KeysMap.FirstOf fields (keysOf [] (lineTexts lines rest)) ↔ Repeated [] fields := by
  have hread := firstOf_keysOf (lineTexts lines rest)
  rw [← find?_iff_repeated (agree_lineTexts h hgood)]
  constructor
  · intro hfields e _
    rw [← hfields.mem_iff, hread.mem_iff]
  · intro hiff
    refine ⟨hread.isMap, fun e => ?_⟩
    rw [hread.mem_iff, hiff e List.not_mem_nil]

/-! ## The head -/

lemma headKeys_eq {first : Text} (hfirst : IsLine first) (hlines : ∀ l ∈ lines, IsLine l)
    (body : Text) :
    headKeys first lines body = scanLines [] (lineTexts lines (lineEnd ++ body)) := by
  have hleft : (headText first lines ++ body).length - ((headText first lines).length - 4) =
      4 + body.length := by
    have := four_le_length_headText hfirst lines
    rw [List.length_append]
    omega
  rw [headKeys, decodeKeys_eq, hleft, lineStarts_headText hfirst hlines body le_rfl]

lemma lineByLine_iff (hlines : ∀ l ∈ lines, IsLine l ∧ ShortTokens l) (body : Text) :
    (∃ bad keys, scanLines [] (lineTexts lines (lineEnd ++ body)) = .ok (bad, keys) ∧
      LineByLine lines bad keys) ↔ ReadLikeLines lines body := by
  by_cases hfits : TokensFit (lineTexts lines (lineEnd ++ body))
  · rw [scanLines_of_tokensFit hfits]
    by_cases hbroken : ∃ t ∈ lineTexts lines (lineEnd ++ body), Broken t
    · rw [if_pos hbroken]
      constructor
      · rintro ⟨bad, keys, heq, h⟩
        obtain ⟨rfl, rfl⟩ := Prod.mk.inj (Except.ok.inj heq)
        exact ⟨hfits, fun fields hfields => absurd (h.fields fields hfields).1 (by simp),
          fun _ => hbroken⟩
      · intro h
        refine ⟨true, [], rfl, fun fields hfields => ?_, fun _ => rfl, by simp⟩
        obtain ⟨t, ht, hb⟩ := hbroken
        exact absurd hb ((h.fields fields hfields).2 t ht)
    · rw [if_neg hbroken]
      push Not at hbroken
      constructor
      · rintro ⟨bad, keys, heq, h⟩
        obtain ⟨rfl, rfl⟩ := Prod.mk.inj (Except.ok.inj heq)
        refine ⟨hfits, fun fields hfields => ⟨?_, hbroken⟩, fun hno => ?_⟩
        · exact (firstOf_keysOf_iff hfields hbroken).mp (h.fields fields hfields).2
        · exact absurd (h.noColon hno) (by simp)
      · intro h
        have hcolon : ∀ l ∈ lines, (58 : UInt8) ∈ l := by
          intro l hl
          by_contra hno
          obtain ⟨t, ht, hb⟩ := h.noColon ⟨l, hl, hno⟩
          exact hbroken t ht hb
        have hfields := forall₂_isField hlines hcolon hbroken
        have hfirst := (firstOf_keysOf_iff hfields hbroken).mpr (h.fields _ hfields).1
        refine ⟨false, _, rfl, fun fields hfields => ⟨rfl, ?_⟩, fun ⟨l, hl, hno⟩ =>
          absurd (hcolon l hl) hno, fun e he => ?_⟩
        · exact (firstOf_keysOf_iff hfields hbroken).mpr (h.fields fields hfields).1
        · -- an entry is a field of one of the lines
          have hmem := List.mem_of_find?_eq_some ((hfirst.mem_iff e).mp he)
          obtain ⟨l, hl, rfl⟩ := List.mem_map.mp hmem
          rw [List.forall₂_map_right_iff, List.forall₂_same] at hfields
          exact ⟨l, hl, (hfields l hl).within⟩
  · rw [scanLines_of_not_tokensFit hfits]
    constructor
    · rintro ⟨bad, keys, heq, -⟩
      cases heq
    · exact fun h => absurd h.fits hfits

/-- **When a head is read line by line.** -/
theorem head_lineByLine_iff {first a b c : Text} {lines : List Text}
    (hfirst : StartLine first a b c) (hlines : ∀ l ∈ lines, IsLine l ∧ ShortTokens l)
    (body : Text) :
    (∀ data_len, (headText first lines).length ≤ data_len →
      decodeFrameHeader .init (headText first lines ++ body) data_len = (do
        let (bad, keys) ← headKeys first lines body
        storeKeys [a, b, c] (headText first lines).length bad keys)) ∧
      ((∃ bad keys, headKeys first lines body = .ok (bad, keys) ∧ LineByLine lines bad keys) ↔
        ReadLikeLines lines body) := by
  have hline : ∀ l ∈ lines, IsLine l := fun l hl => (hlines l hl).1
  rw [headKeys_eq hfirst.isLine hline]
  exact ⟨fun _ hlen => decodeFrameHeader_headText hfirst hline body hlen,
    lineByLine_iff hlines body⟩

section sample

/-- `GET / HTTP/1.1` -/
def sampleFirst : Text := ascii "GET / HTTP/1.1"

lemma startLine_sampleFirst :
    StartLine sampleFirst (ascii "GET") (ascii "/") (ascii "HTTP/1.1") :=
  ⟨⟨_, _, by decide, by decide, blanks_space, blanks_space, rfl⟩, by decide, by decide, by decide,
    by decide⟩

/-- The last line has no colon. -/
def colonlessLines : List Text := [ascii "Host: a", ascii "x"]

theorem head_lineByLine_colonless :
    ∃ bad keys, headKeys sampleFirst colonlessLines [] = .ok (bad, keys) ∧
      LineByLine colonlessLines bad keys := by
  have hlines : ∀ l ∈ colonlessLines, IsLine l ∧ ShortTokens l := by
    rw [colonlessLines, List.forall_mem_cons, List.forall_mem_singleton]
    decide
  refine (head_lineByLine_iff startLine_sampleFirst hlines []).2.mpr
    ⟨by decide, fun fields h => ?_, fun _ => by decide⟩
  -- the second line is no field
  obtain _ | ⟨-, h⟩ := h
  obtain _ | ⟨hfield, -⟩ := h
  exact absurd hfield.mem_colon (by decide)

/-- A name without a value, and a line without a colon, in front of a field. -/
def emptyValueLines : List Text := [ascii "Host:", ascii "A: b"]

def noColonLines : List Text := [ascii "Host", ascii "A: b"]

/-- The value of `Host` is the next line; and a line without a colon is no error. -/
theorem not_lineByLine :
    (¬ ∃ bad keys, headKeys sampleFirst emptyValueLines [] = .ok (bad, keys) ∧
      LineByLine emptyValueLines bad keys) ∧
    ¬ ∃ bad keys, headKeys sampleFirst noColonLines [] = .ok (bad, keys) ∧
      LineByLine noColonLines bad keys := by
  have hempty : headKeys sampleFirst emptyValueLines [] =
      .ok (false, [(ascii "A", ascii "b"), (ascii "Host", ascii "A: b")]) := by decide +kernel
  have hcolon : headKeys sampleFirst noColonLines [] =
      .ok (false, [(ascii "A", ascii "b"), (ascii "Host\r\nA", ascii "b")]) := by decide +kernel
  constructor
  · rintro ⟨bad, keys, heq, h⟩
    rw [hempty] at heq
    obtain ⟨rfl, rfl⟩ := Prod.mk.inj (Except.ok.inj heq)
    have hhost : IsField (ascii "Host:") (ascii "Host") [] :=
      ⟨⟨[], by simp [Blanks], rfl⟩, by decide, by decide⟩
    have ha : IsField (ascii "A: b") (ascii "A") (ascii "b") :=
      ⟨⟨ascii " ", blanks_space, rfl⟩, by decide, by decide⟩
    have hfirst := (h.fields [(ascii "Host", []), (ascii "A", ascii "b")]
      (.cons hhost (.cons ha .nil))).2
    exact absurd ((hfirst.mem_iff (ascii "Host", [])).mpr (by decide)) (by decide)
  · rintro ⟨bad, keys, heq, h⟩
    rw [hcolon] at heq
    obtain ⟨rfl, rfl⟩ := Prod.mk.inj (Except.ok.inj heq)
    exact absurd (h.noColon ⟨ascii "Host", by decide, by decide⟩) (by decide)

end sample

end ProtocalHttp

end SignalEventLoop.Network
