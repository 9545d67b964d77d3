/-
# Blanks in front of the lines of a changelog

`loadFile` (`imp/changelog-format.cpp`) trims a line before it looks at it.  Only the version and
the time are cut out of the line as it was read, at the positions that they have in the trimmed
one, so that blanks in front of a version start move them.
-/
import SignalEventLoop.Tools.ChangelogSections

namespace SignalEventLoop.Tools

open Lib ChangelogFormatter ChangelogLoader
open scoped Bytes

/-! ## Indented files -/

/-- A line of a file, and the blanks that come in front of it. -/
structure IndentedLine where
  blanks : Bytes
  line : Bytes
  isLeadingBlank_blanks : ∀ c ∈ blanks, isLeadingBlank c = true

def IndentedLine.indented (p : IndentedLine) : Bytes := p.blanks ++ p.line

/-- The lines of a file; behind the last line end there may be another line or nothing. -/
structure IndentedFile where
  lines : List IndentedLine
  last : IndentedLine
  newline : ∀ p ∈ lines, ∃ w, 10 ∉ w ∧ p.line = w ++ [10]
  newline_last : 10 ∉ last.line

namespace IndentedFile

variable (f : IndentedFile)

def all : List IndentedLine := f.lines ++ [f.last]

/-- The file without the blanks. -/
def file : Bytes := (f.all.map IndentedLine.line).flatten

def indentedFile : Bytes := (f.all.map IndentedLine.indented).flatten

end IndentedFile

/-! ## Version starts -/

/-- The words that are cut out of the start of a version. -/
def versionWords (line : Bytes) : Option (Bytes × Bytes) :=
  (isVersionStart (trim line)).map fun (ver_p_1, ver_p_2, tim_p_1, tim_p_2) =>
    ((line.drop ver_p_1).take (ver_p_2 - ver_p_1), (line.drop tim_p_1).take (tim_p_2 - tim_p_1))

/-- The line is read as the start of a version. -/
def startsVersion (L : ChangelogLoader) (line : Bytes) : Bool :=
  L.mode = .main &&
    match (L.readMain line).mode with
    | .version _ _ _ => true
    | _ => false

/-- The lines up to the end of the version are accepted. -/
def acceptsVersion : List Bytes → List Bytes → Bool
  | _, [] => false
  | cachelist, line :: lines =>
    if isVersionEnd (trim line) then (checkTitles ⟨.versionStart, []⟩ cachelist).isSome
    else acceptsVersion (cacheLine cachelist (trim line)) lines

/-- The blanks leave the words of every version that is accepted. -/
def KeepsVersions : ChangelogLoader → List IndentedLine → Prop
  | _, [] => True
  | L, p :: ps =>
    (startsVersion L p.line = true → acceptsVersion [] (ps.map IndentedLine.line) = true →
      versionWords p.indented = versionWords p.line) ∧
    ∀ L', step L p.line = some L' → KeepsVersions L' ps

/-- There are no blanks in front of the lines that are discarded. -/
def KeepsDiscarded (L : ChangelogLoader) (ps : List IndentedLine) : Prop :=
  AllSteps (fun L p => step L (IndentedLine.line p))
    (fun L p => L.mode = .discard → p.blanks = []) L ps

/-! ## One line -/

variable {L L' : ChangelogLoader} {line data w : Bytes} {p : IndentedLine} {ps : List IndentedLine}
  {F F' : ChangelogFormatter} {b : Bool} {ver time ver' time' : Bytes} {cachelist : List Bytes}
  {pre pre' : List LineData} {r : Bool × ChangelogFormatter}

lemma trim_indented (p : IndentedLine) : trim p.indented = trim p.line := by
  rw [trim, trimEnds, IndentedLine.indented, List.dropWhile_append_of_pos p.isLeadingBlank_blanks]
  rfl

/-- The length of the version is that between its positions. -/
lemma length_version {p₁ p₂ p₃ p₄ : ℕ} (h : isVersionStart data = some (p₁, p₂, p₃, p₄))
    (hlen : data.length ≤ line.length) : ((line.drop p₁).take (p₂ - p₁)).length = p₂ - p₁ := by
  simp only [isVersionStart] at h
  split_ifs at h with hlength hfirst hleft hright hlast
  simp only [Option.some.injEq, Prod.mk.injEq] at h
  obtain ⟨rfl, rfl, -, -⟩ := h
  rw [List.length_take, List.length_drop]
  omega

lemma length_le_indented (p : IndentedLine) : p.line.length ≤ p.indented.length := by
  rw [IndentedLine.indented, List.length_append]
  omega

/-- A line outside of the inner loops: only the words of a version start depend on the blanks. -/
lemma readMain_indented (hmode : L.mode = .main) (p : IndentedLine) :
    (startsVersion L p.line = false ∧ L.readMain p.indented = L.readMain p.line) ∨
      (startsVersion L p.line = true ∧ ∃ ver time ver' time',
        versionWords p.line = some (ver, time) ∧ versionWords p.indented = some (ver', time') ∧
        ver'.length = ver.length ∧ L.readMain p.line = { L with mode := .version ver time [] } ∧
        L.readMain p.indented = { L with mode := .version ver' time' [] }) := by
  have hstarts : startsVersion L p.line =
      match (L.readMain p.line).mode with
      | .version _ _ _ => true
      | _ => false := by
    rw [startsVersion, hmode]
    rfl
  have htrim := trim_indented p
  rw [hstarts]
  simp only [readMain, htrim]
  by_cases hempty : isEmptyLine (trim p.line) = true
  · simp only [hempty, if_true, hmode]
    exact Or.inl ⟨trivial, trivial⟩
  rw [if_neg hempty, if_neg hempty]
  cases hheader : if L.formatter.contextMap = [] then isHeaderStart (trim p.line) else none with
  | some description => exact Or.inl ⟨rfl, rfl⟩
  | none =>
    dsimp only
    by_cases hdiscard : isDiscard (trim p.line) = true
    · rw [if_pos hdiscard, if_pos hdiscard]
      exact Or.inl ⟨rfl, rfl⟩
    rw [if_neg hdiscard, if_neg hdiscard, readEntry, readEntry]
    cases hcomment : isLineComment (trim p.line) with
    | some comment =>
      simp only [push, hmode]
      exact Or.inl ⟨trivial, trivial⟩
    | none =>
      dsimp only
      by_cases hscope : isScopeCommentStart (trim p.line) = true
      · rw [if_pos hscope, if_pos hscope]
        exact Or.inl ⟨rfl, rfl⟩
      rw [if_neg hscope, if_neg hscope]
      cases hversion : isVersionStart (trim p.line) with
      | none =>
        simp only [hmode]
        exact Or.inl ⟨trivial, trivial⟩
      | some positions =>
        obtain ⟨p₁, p₂, p₃, p₄⟩ := positions
        have hlen := length_trimEnds_le isLeadingBlank isTrailingBlank p.line
        have hwords := length_version hversion hlen
        have hwords' := length_version hversion (hlen.trans (length_le_indented p))
        refine Or.inr ⟨rfl, _, _, _, _, ?_, ?_, hwords'.trans hwords.symm, rfl, rfl⟩
        · rw [versionWords, hversion, Option.map_some]
        · rw [versionWords, htrim, hversion, Option.map_some]

/-- In the inner loops the blanks do not count. -/
lemma step_indented (hmode : L.mode ≠ .main) (hdiscard : L.mode = .discard → p.blanks = [])
    (hlen : p.indented.length < 4096) : step L p.indented = step L p.line := by
  have hline := (length_le_indented p).trans_lt hlen
  rw [step, step, if_neg (not_le.mpr hlen), if_neg (not_le.mpr hline), trim_indented]
  cases hL : L.mode with
  | main => exact absurd hL hmode
  | header description cachelist => rfl
  | scopeComment cachelist => rfl
  | version ver time cachelist => rfl
  | discard => rw [IndentedLine.indented, hdiscard hL, List.nil_append]

lemma step_of_main (hmode : L.mode = .main) (hlen : line.length < 4096) :
    step L line = some (L.readMain line) := by
  rw [step, if_neg (not_le.mpr hlen), hmode]

/-! ## Entries stay -/

/-- `contextMap` begins with some entries, and goes on behind them. -/
def Begins (pre : List LineData) (F : ChangelogFormatter) : Prop :=
  ∃ d more, F.contextMap = pre ++ d :: more

lemma exists_appendLast (text : Bytes) (pre : List LineData) (d : LineData)
    (more : List LineData) :
    ∃ d' more', appendLast text (pre ++ d :: more) = pre ++ d' :: more' := by
  induction pre with
  | nil =>
    cases more with
    | nil => exact ⟨_, _, rfl⟩
    | cons d' more => exact ⟨_, _, rfl⟩
  | cons e pre ih =>
    obtain ⟨d', more', h⟩ := ih
    refine ⟨d', more', ?_⟩
    cases pre with
    | nil => exact congrArg (e :: ·) h
    | cons e' pre => exact congrArg (e :: ·) h

lemma begins_append {more : List LineData} (h : Begins pre F)
    (hF : F'.contextMap = F.contextMap ++ more) : Begins pre F' := by
  obtain ⟨d, rest, hd⟩ := h
  exact ⟨d, rest ++ more, by rw [hF, hd, List.append_assoc, List.cons_append]⟩

lemma readEntry_contextMap (L : ChangelogLoader) (line data : Bytes) :
    ∃ more, (L.readEntry line data).formatter.contextMap = L.formatter.contextMap ++ more := by
  rw [readEntry]
  split
  · exact ⟨_, rfl⟩
  · split_ifs
    · exact ⟨[], (List.append_nil _).symm⟩
    · split
      · exact ⟨[], (List.append_nil _).symm⟩
      · exact ⟨[], (List.append_nil _).symm⟩

lemma readMain_contextMap (L : ChangelogLoader) (line : Bytes) :
    ∃ more, (L.readMain line).formatter.contextMap = L.formatter.contextMap ++ more := by
  rw [readMain]
  dsimp only
  by_cases hempty : isEmptyLine (trim line) = true
  · rw [if_pos hempty]
    exact ⟨[], (List.append_nil _).symm⟩
  rw [if_neg hempty]
  cases if L.formatter.contextMap = [] then isHeaderStart (trim line) else none with
  | some description => exact ⟨[], (List.append_nil _).symm⟩
  | none =>
    dsimp only
    split_ifs
    · exact ⟨_, rfl⟩
    · exact readEntry_contextMap L line _

lemma checkHeader_contextMap (F : ChangelogFormatter) (cachelist : List Bytes)
    (description : Bytes) :
    ∃ more, (F.checkHeader cachelist description).2.contextMap = F.contextMap ++ more := by
  rw [checkHeader]
  split
  · exact ⟨[], (List.append_nil _).symm⟩
  · exact ⟨_, rfl⟩

lemma checkVersion_contextMap (h : F.checkVersion cachelist ver time = some (b, F')) :
    ∃ more, F'.contextMap = F.contextMap ++ more := by
  rw [checkVersion] at h
  split at h
  · obtain ⟨-, rfl⟩ := Prod.mk.inj (Option.some.inj h)
    exact ⟨[], (List.append_nil _).symm⟩
  · obtain ⟨m, -, h⟩ := Option.map_eq_some_iff.mp h
    obtain ⟨-, rfl⟩ := Prod.mk.inj h
    exact ⟨_, rfl⟩

/-- What a line adds to `contextMap`. -/
lemma step_contextMap (h : step L line = some L') :
    (∃ more, L'.formatter.contextMap = L.formatter.contextMap ++ more) ∨
      L'.formatter.contextMap = appendLast line L.formatter.contextMap := by
  have hsame {L' : ChangelogLoader} (hF : L'.formatter = L.formatter) :
      ∃ more, L'.formatter.contextMap = L.formatter.contextMap ++ more :=
    ⟨[], by rw [hF, List.append_nil]⟩
  have hlen : ¬ line.length ≥ 4096 := by
    intro hlen
    rw [step, if_pos hlen] at h
    exact absurd h (by simp)
  rw [step, if_neg hlen] at h
  cases hmode : L.mode with
  | main =>
    simp only [hmode, Option.some.injEq] at h
    exact Or.inl (h ▸ readMain_contextMap L line)
  | header description cachelist =>
    simp only [hmode] at h
    split_ifs at h
    · obtain rfl := Option.some.inj h
      exact Or.inl (checkHeader_contextMap _ _ _)
    · obtain rfl := Option.some.inj h
      exact Or.inl (hsame rfl)
  | scopeComment cachelist =>
    simp only [hmode] at h
    split_ifs at h
    · obtain rfl := Option.some.inj h
      exact Or.inl (hsame rfl)
    · obtain rfl := Option.some.inj h
      exact Or.inl ⟨_, rfl⟩
    · obtain rfl := Option.some.inj h
      exact Or.inl (hsame rfl)
  | version ver time cachelist =>
    simp only [hmode] at h
    split_ifs at h
    · obtain ⟨⟨checked, F'⟩, hF', rfl⟩ := Option.map_eq_some_iff.mp h
      exact Or.inl (checkVersion_contextMap hF')
    · obtain rfl := Option.some.inj h
      exact Or.inl (hsame rfl)
  | discard =>
    simp only [hmode, Option.some.injEq] at h
    exact Or.inr (by rw [← h])

lemma begins_step (h : Begins pre L.formatter) (hstep : step L line = some L') :
    Begins pre L'.formatter := by
  rcases step_contextMap hstep with ⟨more, hmore⟩ | happend
  · exact begins_append h hmore
  · obtain ⟨d, more, hd⟩ := h
    rw [hd] at happend
    obtain ⟨d', more', hd'⟩ := exists_appendLast line pre d more
    exact ⟨d', more', happend.trans hd'⟩

/-! ## The rest of a file -/

/-- The lines lead from `L` to the result `r`. -/
def Loads (L : ChangelogLoader) (lines : List Bytes) (r : Bool × ChangelogFormatter) : Prop :=
  (run step L lines).map result = some r

lemma loads_cons {lines : List Bytes} :
    Loads L (line :: lines) r ↔ ∃ L', step L line = some L' ∧ Loads L' lines r := by
  simp only [Loads, run_cons, Option.map_eq_some_iff, Option.bind_eq_some_iff]
  constructor
  · rintro ⟨M, ⟨L', hL', hM⟩, hr⟩
    exact ⟨L', hL', M, hM, hr⟩
  · rintro ⟨L', hL', M, hM, hr⟩
    exact ⟨M, ⟨L', hL', hM⟩, hr⟩

lemma result_formatter (L : ChangelogLoader) : L.result.2 = L.formatter := by
  rw [result]
  split <;> rfl

lemma Loads.begins {lines : List Bytes} (h : Loads L lines r) (hL : Begins pre L.formatter) :
    Begins pre r.2 := by
  obtain ⟨M, hM, rfl⟩ := Option.map_eq_some_iff.mp h
  rw [result_formatter]
  exact run_inv (I := fun L => Begins pre L.formatter) (fun _ _ _ => begins_step) hL hM

/-- Entries that differ lead to results that differ. -/
lemma Loads.not_loads {lines lines' : List Bytes} (h : Loads L lines r)
    (hL : Begins pre L.formatter) (hL' : Begins pre' L'.formatter)
    (hlen : pre'.length = pre.length) (hne : pre' ≠ pre) : ¬ Loads L' lines' r := by
  intro h'
  obtain ⟨d, more, hd⟩ := h.begins hL
  obtain ⟨d', more', hd'⟩ := h'.begins hL'
  exact hne (List.append_inj_left (hd'.symm.trans hd) hlen)

lemma loads_cons_of_step {lines : List Bytes} (h : step L line = some L') :
    Loads L (line :: lines) r ↔ Loads L' lines r := by
  rw [loads_cons, h]
  simp

lemma not_loads_of_long {lines : List Bytes} (h : ¬ line.length < 4096) :
    ¬ Loads L (line :: lines) r := by
  rw [loads_cons, step, if_pos (not_lt.mp h)]
  simp

lemma keepsVersions_cons (h : step L p.line = some L') :
    KeepsVersions L (p :: ps) ↔
      (startsVersion L p.line = true → acceptsVersion [] (ps.map IndentedLine.line) = true →
        versionWords p.indented = versionWords p.line) ∧ KeepsVersions L' ps := by
  rw [KeepsVersions, h]
  simp

/-! ## Whole files -/

/-- From one state, the rest of the file and the indented rest lead to one result. -/
def Unchanged (r : Bool × ChangelogFormatter) (ps : List IndentedLine) : Prop :=
  ∀ L, Loads L (ps.map IndentedLine.line) r → KeepsDiscarded L ps →
    (Loads L (ps.map IndentedLine.indented) r ↔
      (∀ p ∈ ps, p.indented.length < 4096) ∧ KeepsVersions L ps)

/-- The same inside a version for which other words were cut out: it must not be accepted. -/
def Rejected (r : Bool × ChangelogFormatter) (ps : List IndentedLine) : Prop :=
  ∀ F b ver time ver' time' cachelist, ver'.length = ver.length → ¬ (ver' = ver ∧ time' = time) →
    Loads ⟨F, b, .version ver time cachelist⟩ (ps.map IndentedLine.line) r →
    KeepsDiscarded ⟨F, b, .version ver time cachelist⟩ ps →
      (Loads ⟨F, b, .version ver' time' cachelist⟩ (ps.map IndentedLine.indented) r ↔
        (∀ p ∈ ps, p.indented.length < 4096) ∧
          ¬ acceptsVersion cachelist (ps.map IndentedLine.line) = true ∧
          KeepsVersions ⟨F, b, .version ver time cachelist⟩ ps)

lemma unchanged_cons (hps : Unchanged r ps) (hversion : Rejected r ps) : Unchanged r (p :: ps) := by
  intro L hload hdiscard
  rw [List.map_cons] at hload ⊢
  rw [List.forall_mem_cons]
  obtain ⟨L', hL', hload'⟩ := loads_cons.mp hload
  obtain ⟨hblanks, hdiscard'⟩ := hdiscard
  have hdiscard' := hdiscard' L' hL'
  rw [keepsVersions_cons hL']
  by_cases hlen : p.indented.length < 4096
  · rw [and_iff_right hlen]
    by_cases hmode : L.mode = .main
    · have hline := step_of_main hmode ((length_le_indented p).trans_lt hlen)
      have hindented := step_of_main hmode hlen
      obtain rfl : L.readMain p.line = L' := Option.some.inj (hline.symm.trans hL')
      rcases readMain_indented hmode p with ⟨hstarts, hsame⟩ |
        ⟨hstarts, ver, time, ver', time', hwords, hwords', hlength, hread, hread'⟩
      · rw [hsame] at hindented
        rw [loads_cons_of_step hindented, hps _ hload' hdiscard', hstarts]
        simp
      · by_cases hsame : ver' = ver ∧ time' = time
        · obtain ⟨rfl, rfl⟩ := hsame
          rw [hread', ← hread] at hindented
          rw [loads_cons_of_step hindented, hps _ hload' hdiscard', hwords, hwords']
          simp
        · rw [hread] at hload' hdiscard' ⊢
          rw [hread'] at hindented
          rw [loads_cons_of_step hindented,
            hversion _ _ _ _ _ _ _ hlength hsame hload' hdiscard', hstarts, hwords, hwords']
          simp [hsame]
    · have hindented := (step_indented hmode hblanks hlen).trans hL'
      have hstarts : startsVersion L p.line = false := by simp [startsVersion, hmode]
      rw [loads_cons_of_step hindented, hps _ hload' hdiscard', hstarts]
      simp
  · simp [not_loads_of_long hlen, hlen]

/-- Inside a version, up to its end. -/
lemma step_version (hlen : line.length < 4096) :
    step ⟨F, b, .version ver time cachelist⟩ line =
      if isVersionEnd (trim line) then
        (F.checkVersion cachelist ver time).map fun (checked, F) => ⟨F, b && checked, .main⟩
      else some ⟨F, b, .version ver time (cacheLine cachelist (trim line))⟩ := by
  rw [step, if_neg (not_le.mpr hlen)]

/-- Whether a version is accepted does not depend on its words. -/
lemma checkVersion_rejected (h : ¬ (checkTitles ⟨.versionStart, []⟩ cachelist).isSome = true) :
    F.checkVersion cachelist ver time = some (false, F) := by
  have hnone : checkTitles ⟨.versionStart, versionText ver time⟩ cachelist = none := by
    rw [Option.eq_none_iff_forall_ne_some]
    intro out hout
    obtain ⟨titles, hbody, -⟩ := checkTitles_eq_some.mp hout
    simp [hbody.checkTitles] at h
  rw [checkVersion, hnone]

/-- The words of an accepted version stand in `contextMap`. -/
lemma begins_checkVersion (h : (checkTitles ⟨.versionStart, []⟩ cachelist).isSome = true)
    (hF' : F.checkVersion cachelist ver time = some (b, F')) :
    Begins (F.contextMap ++ [⟨.versionStart, versionText ver time⟩]) F' := by
  obtain ⟨out, hout⟩ := Option.isSome_iff_exists.mp h
  obtain ⟨titles, hbody, -⟩ := checkTitles_eq_some.mp hout
  rw [checkVersion, hbody.checkTitles] at hF'
  obtain ⟨m, -, hF'⟩ := Option.map_eq_some_iff.mp hF'
  obtain ⟨-, rfl⟩ := Prod.mk.inj hF'
  have hne : titles.map Title.entry ++ [⟨.versionEnd, []⟩] ≠ [] := by simp
  obtain ⟨d, more, hd⟩ := List.exists_cons_of_ne_nil hne
  refine ⟨d, more, ?_⟩
  dsimp only
  rw [List.cons_append, hd, List.append_assoc, List.singleton_append]

/-- Other words make another entry. -/
lemma versionText_ne (hlength : ver'.length = ver.length) (hwords : ¬ (ver' = ver ∧ time' = time)) :
    versionText ver' time' ≠ versionText ver time := by
  intro h
  obtain ⟨hver, htime⟩ := List.append_inj h hlength
  exact hwords ⟨hver, List.append_cancel_right (List.cons.inj htime).2⟩

lemma rejected_cons (hps : Unchanged r ps) (hversion : Rejected r ps) : Rejected r (p :: ps) := by
  intro F b ver time ver' time' cachelist hlength hwords hload hdiscard
  rw [List.map_cons] at hload ⊢
  rw [List.map_cons, List.forall_mem_cons]
  obtain ⟨L', hL', hload'⟩ := loads_cons.mp hload
  obtain ⟨-, hdiscard'⟩ := hdiscard
  have hdiscard' := hdiscard' L' hL'
  rw [keepsVersions_cons hL', acceptsVersion]
  have hstarts : startsVersion ⟨F, b, .version ver time cachelist⟩ p.line = false := by
    simp [startsVersion]
  rw [hstarts]
  by_cases hlen : p.indented.length < 4096
  · rw [and_iff_right hlen]
    have hline := (length_le_indented p).trans_lt hlen
    rw [step_version hline] at hL'
    have hstep : step ⟨F, b, .version ver' time' cachelist⟩ p.indented = _ := step_version hlen
    rw [trim_indented] at hstep
    by_cases hend : isVersionEnd (trim p.line) = true
    · rw [if_pos hend] at hL' hstep ⊢
      by_cases haccept : (checkTitles ⟨.versionStart, []⟩ cachelist).isSome = true
      · -- the words stay in `contextMap`
        obtain ⟨⟨checked, F'⟩, hF', rfl⟩ := Option.map_eq_some_iff.mp hL'
        refine iff_of_false (fun h => ?_) (by simp [haccept])
        obtain ⟨M, hM, hloadM⟩ := loads_cons.mp h
        obtain ⟨⟨checked', F''⟩, hF'', rfl⟩ := Option.map_eq_some_iff.mp (hstep.symm.trans hM)
        refine hload'.not_loads (begins_checkVersion haccept hF')
          (begins_checkVersion haccept hF'') (by simp) ?_ hloadM
        simpa using versionText_ne hlength hwords
      · -- nothing is left of the words
        rw [checkVersion_rejected haccept] at hL' hstep
        obtain rfl := Option.some.inj hL'
        rw [loads_cons_of_step hstep, hps _ hload' hdiscard']
        simp [haccept]
    · rw [if_neg hend] at hL' hstep ⊢
      obtain rfl := Option.some.inj hL'
      rw [loads_cons_of_step hstep, hversion _ _ _ _ _ _ _ hlength hwords hload' hdiscard']
      simp
  · simp [not_loads_of_long hlen, hlen]

lemma unchanged_rejected (r : Bool × ChangelogFormatter) (ps : List IndentedLine) :
    Unchanged r ps ∧ Rejected r ps := by
  induction ps with
  | nil =>
    refine ⟨fun L hload _ => ?_, fun F b ver time ver' time' cachelist _ _ hload _ => ?_⟩
    · simpa [KeepsVersions] using hload
    · simpa [KeepsVersions, acceptsVersion, Loads, result] using hload
  | cons p ps ih => exact ⟨unchanged_cons ih.1 ih.2, rejected_cons ih.1 ih.2⟩

lemma step_nil (L : ChangelogLoader) : step L [] = some L := by
  obtain ⟨F, b, mode⟩ := L
  cases mode with
  | main => rfl
  | header description cachelist => rfl
  | scopeComment cachelist => rfl
  | version ver time cachelist => rfl
  | discard =>
    have hnil : ∀ ctx : List LineData, appendLast [] ctx = ctx := by
      intro ctx
      cases ctx using List.reverseRecOn with
      | nil => rfl
      | append_singleton ctx d => rw [appendLast_concat, List.append_nil]
    rw [step, if_neg (by simp)]
    simp only [hnil]

/-- Reading the lines one by one; an empty rest behind them does not count. -/
lemma run_getlines {lines : List Bytes} {last : Bytes}
    (hlines : ∀ l ∈ lines, ∃ w, 10 ∉ w ∧ l = w ++ [10]) (hlast : 10 ∉ last) (L : ChangelogLoader) :
    run step L (getlines (lines ++ [last]).flatten) = run step L (lines ++ [last]) := by
  induction lines generalizing L with
  | nil =>
    rw [List.nil_append, List.flatten_singleton]
    by_cases hne : last = []
    · rw [hne, run_cons, step_nil]
      rfl
    · rw [getlines_of_notMem hne hlast]
  | cons l lines ih =>
    rw [List.forall_mem_cons] at hlines
    obtain ⟨⟨w, hw, rfl⟩, hlines⟩ := hlines
    rw [List.cons_append, List.flatten_cons, List.append_assoc, List.singleton_append,
      getlines_append hw, run_cons, run_cons]
    exact Option.bind_congr fun L' _ => ih hlines L'

lemma notMem_indented (hp : 10 ∉ line) (hblanks : ∀ c ∈ w, isLeadingBlank c = true) :
    10 ∉ w ++ line := by
  rw [List.mem_append, not_or]
  exact ⟨fun h => absurd (hblanks 10 h) (by decide), hp⟩

lemma loads_file (f : IndentedFile) :
    F.loadFile f.file = some r ↔
      Loads ⟨F.clear, true, .main⟩ (f.all.map IndentedLine.line) r := by
  have hlines : ∀ l ∈ f.lines.map IndentedLine.line, ∃ w, 10 ∉ w ∧ l = w ++ [10] := by
    intro l hl
    obtain ⟨p, hp, rfl⟩ := List.mem_map.mp hl
    exact f.newline p hp
  rw [loadFile, Loads, IndentedFile.file, IndentedFile.all, List.map_append, List.map_singleton,
    run_getlines hlines f.newline_last]

lemma loads_indentedFile (f : IndentedFile) :
    F.loadFile f.indentedFile = some r ↔
      Loads ⟨F.clear, true, .main⟩ (f.all.map IndentedLine.indented) r := by
  have hlines : ∀ l ∈ f.lines.map IndentedLine.indented, ∃ w, 10 ∉ w ∧ l = w ++ [10] := by
    intro l hl
    obtain ⟨p, hp, rfl⟩ := List.mem_map.mp hl
    obtain ⟨w, hw, hline⟩ := f.newline p hp
    refine ⟨p.blanks ++ w, notMem_indented hw p.isLeadingBlank_blanks, ?_⟩
    rw [IndentedLine.indented, hline, List.append_assoc]
  have hlast : 10 ∉ f.last.indented :=
    notMem_indented f.newline_last f.last.isLeadingBlank_blanks
  rw [loadFile, Loads, IndentedFile.indentedFile, IndentedFile.all, List.map_append,
    List.map_singleton, run_getlines hlines hlast]

/-- **Blanks in front of the lines**: for every file that is loaded and all blanks outside of the
discarded rest, the result stays the same exactly when the lines still fit into the buffer and no
accepted version gets other words. -/
theorem loadFile_indent_iff (F : ChangelogFormatter) (f : IndentedFile)
    (r : Bool × ChangelogFormatter) (hload : F.loadFile f.file = some r)
    (hdiscard : KeepsDiscarded ⟨F.clear, true, .main⟩ f.all) :
    F.loadFile f.indentedFile = some r ↔
      (∀ p ∈ f.all, p.indented.length < 4096) ∧ KeepsVersions ⟨F.clear, true, .main⟩ f.all := by
  rw [loads_indentedFile]
  exact (unchanged_rejected r f.all).1 _ ((loads_file f).mp hload) hdiscard

instance (L : ChangelogLoader) (ps : List IndentedLine) : Decidable (KeepsDiscarded L ps) :=
  inferInstanceAs (Decidable (AllSteps _ _ L ps))

/-- A version, with blanks in front of some lines. -/
def exampleIndented (first second : Bytes) (hfirst : ∀ c ∈ first, isLeadingBlank c = true)
    (hsecond : ∀ c ∈ second, isLeadingBlank c = true) : IndentedFile where
  lines := [⟨first, text "########1.0.0(2024)########\n", hfirst⟩, ⟨second, text "^ a\n", hsecond⟩]
  last := ⟨[], text "################", by simp⟩
  newline := by
    simp only [List.forall_mem_cons]
    exact ⟨⟨text "########1.0.0(2024)########", by decide, by decide⟩,
      ⟨text "^ a", by decide, by decide⟩, by simp⟩
  newline_last := by decide

/-- Blanks in front of the title. -/
theorem loadFile_indent_iff_exampleIndented : ∃ r : Bool × ChangelogFormatter,
    new.loadFile (exampleIndented [] [32, 9] (by simp) (by decide)).file = some r ∧
      (new.loadFile (exampleIndented [] [32, 9] (by simp) (by decide)).indentedFile = some r ↔
        (∀ p ∈ (exampleIndented [] [32, 9] (by simp) (by decide)).all, p.indented.length < 4096) ∧
          KeepsVersions ⟨new.clear, true, .main⟩
            (exampleIndented [] [32, 9] (by simp) (by decide)).all) := by
  obtain ⟨r, hload⟩ := Option.isSome_iff_exists.mp (show (new.loadFile
    (exampleIndented [] [32, 9] (by simp) (by decide)).file).isSome = true by decide +kernel)
  exact ⟨r, hload, loadFile_indent_iff _ _ r hload (by decide +kernel)⟩

/-- One blank in front of the version start, and the version is `#1.0.`. -/
theorem loadFile_indented_version :
    ¬ new.loadFile (exampleIndented [32] [] (by decide) (by simp)).indentedFile =
      new.loadFile (exampleIndented [32] [] (by decide) (by simp)).file := by
  decide +kernel

end SignalEventLoop.Tools
