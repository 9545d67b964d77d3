/-
# Headers and versions of a changelog

`ChangelogFormatter::checkHeader` and `checkVersion` (`imp/changelog-format.cpp`) look at the lines
of a header or of a version and take over all of it or nothing.  The header is not quite so: its
description and its lines are set before the first line is looked at.  And a version that is there
already keeps the lines that were recorded for it, when another one of the same number comes.
-/
import SignalEventLoop.Tools.ChangelogLines

namespace SignalEventLoop.Tools

open Lib ChangelogFormatter

/-! ## Titles -/

/-- A title, with the lines behind it that belong to it. -/
structure Title where
  level : LineType
  title : Bytes
  more : List Bytes

/-- The lines of a title in one. -/
def joinTitle (title : Bytes) (more : List Bytes) : Bytes :=
  title ++ more.flatMap fun line => [13, 10] ++ line

namespace Title

/-- What stands in `contextMap`. -/
def entry (t : Title) : LineData := ⟨t.level, joinTitle t.title t.more⟩

/-- The first line of a title. -/
def IsFirstLine (t : Title) (line : Bytes) : Prop :=
  (t.level = .titleLevel1 ∧ isTitileLevel1 line = some t.title) ∨
    (t.level = .titleLevel2 ∧ isTitileLevel2 line = some t.title)

end Title

/-- The lines of some titles. -/
inductive TitleLines : List Title → List Bytes → Prop
  | nil : TitleLines [] []
  | cons {t : Title} {line : Bytes} {titles : List Title} {lines : List Bytes}
      (first : t.IsFirstLine line) (more : ∀ l ∈ t.more, isTileMultiLine l = true)
      (rest : TitleLines titles lines) :
      TitleLines (t :: titles) (line :: (t.more ++ lines))

/-- The lines between the first one and the last one; the first title is of level 1. -/
def IsBody (titles : List Title) (lines : List Bytes) : Prop :=
  TitleLines titles lines ∧ ∀ t ∈ titles.head?, t.level = .titleLevel1

variable {titles : List Title} {line l : Bytes} {lines more rest : List Bytes}
  {ctx out : List LineData} {d start : LineData}

lemma Title.IsFirstLine.not_multiLine {t : Title} (h : t.IsFirstLine line) :
    isTileMultiLine line = false := by
  rw [← Bool.not_eq_true]
  intro hmulti
  obtain ⟨h₁, h₂⟩ := marks_of_isTileMultiLine hmulti
  rcases h with ⟨-, h⟩ | ⟨-, h⟩
  · simp [h₁] at h
  · simp [h₂] at h

/-- A title is pushed. -/
lemma Title.IsFirstLine.titleLoop {t : Title} (h : t.IsFirstLine line) (ctx : List LineData)
    (lines : List Bytes) :
    ChangelogFormatter.titleLoop ctx (line :: lines) =
      ChangelogFormatter.titleLoop (ctx ++ [⟨t.level, t.title⟩]) lines := by
  have hmulti := h.not_multiLine
  rcases h with ⟨hlevel, h₁⟩ | ⟨hlevel, h₂⟩
  · rw [hlevel, (titleLoop_title hmulti lines).1 t.title h₁]
  · have h₁ : isTitileLevel1 line = none := by
      rw [Option.eq_none_iff_forall_ne_some]
      intro title h₁
      simp [isTitileLevel2_of_isTitileLevel1 h₁] at h₂
    rw [hlevel, (titleLoop_title hmulti lines).2 t.title h₁ h₂]

/-- The lines of a title are appended to it. -/
lemma titleLoop_more (hmore : ∀ l ∈ more, isTileMultiLine l = true) (ctx : List LineData)
    (d : LineData) (rest : List Bytes) :
    titleLoop (ctx ++ [d]) (more ++ rest) =
      titleLoop (ctx ++ [⟨d.type, joinTitle d.data more⟩]) rest := by
  induction more generalizing d with
  | nil => simp [joinTitle]
  | cons l more ih =>
    rw [List.forall_mem_cons] at hmore
    rw [List.cons_append, titleLoop, if_pos hmore.1, appendLast_concat, ih hmore.2]
    simp [joinTitle]

lemma TitleLines.titleLoop (h : TitleLines titles lines) (ctx : List LineData) :
    ChangelogFormatter.titleLoop ctx lines = some (ctx ++ titles.map Title.entry) := by
  induction h generalizing ctx with
  | nil => simp [ChangelogFormatter.titleLoop]
  | cons first more _ ih =>
    rw [first.titleLoop, titleLoop_more more, ih]
    simp [Title.entry]

/-- What the loop accepts behind a title. -/
lemma exists_titleLines (h : titleLoop (ctx ++ [d]) lines = some out) :
    ∃ more rest titles, lines = more ++ rest ∧ (∀ l ∈ more, isTileMultiLine l = true) ∧
      TitleLines titles rest := by
  induction lines generalizing ctx d with
  | nil => exact ⟨[], [], [], rfl, by simp, .nil⟩
  | cons line lines ih =>
    -- the lines behind a title that was found are those of the induction hypothesis
    have htitle (t : Title) (hfirst : t.IsFirstLine line) (hmore : t.more = [])
        (hloop : titleLoop (ctx ++ [d] ++ [⟨t.level, t.title⟩]) lines = some out) :
        ∃ more rest titles, line :: lines = more ++ rest ∧
          (∀ l ∈ more, isTileMultiLine l = true) ∧ TitleLines titles rest := by
      obtain ⟨more, rest, titles, rfl, hmulti, htitles⟩ := ih hloop
      exact ⟨[], _, { t with more := more } :: titles, rfl, by simp, .cons hfirst hmulti htitles⟩
    cases hmulti : isTileMultiLine line with
    | true =>
      rw [titleLoop, if_pos hmulti, appendLast_concat] at h
      obtain ⟨more, rest, titles, rfl, hmore, htitles⟩ := ih h
      exact ⟨line :: more, rest, titles, rfl, List.forall_mem_cons.mpr ⟨hmulti, hmore⟩, htitles⟩
    | false =>
      cases h₁ : isTitileLevel1 line with
      | some title =>
        rw [(titleLoop_title hmulti lines).1 title h₁] at h
        exact htitle ⟨.titleLevel1, title, []⟩ (Or.inl ⟨rfl, h₁⟩) rfl h
      | none =>
        cases h₂ : isTitileLevel2 line with
        | some title =>
          rw [(titleLoop_title hmulti lines).2 title h₁ h₂] at h
          exact htitle ⟨.titleLevel2, title, []⟩ (Or.inr ⟨rfl, h₂⟩) rfl h
        | none => simp [titleLoop, hmulti, h₁, h₂] at h

/-- **The titles of a section.** -/
lemma checkTitles_eq_some : checkTitles start lines = some out ↔
    ∃ titles, IsBody titles lines ∧ out = start :: titles.map Title.entry := by
  constructor
  · intro h
    cases lines with
    | nil => exact ⟨[], ⟨.nil, by simp⟩, (Option.some.inj h).symm⟩
    | cons line lines =>
      obtain ⟨title, h₁, hloop⟩ := Option.bind_eq_some_iff.mp h
      have hloop : titleLoop ([start] ++ [⟨.titleLevel1, title⟩]) lines = some out := hloop
      obtain ⟨more, rest, titles, rfl, hmore, htitles⟩ := exists_titleLines hloop
      have hfirst : (⟨.titleLevel1, title, more⟩ : Title).IsFirstLine line := Or.inl ⟨rfl, h₁⟩
      have hbody := TitleLines.cons hfirst hmore htitles
      refine ⟨_, ⟨hbody, by simp⟩, ?_⟩
      have hall := hbody.titleLoop [start]
      rw [hfirst.titleLoop, hloop] at hall
      exact Option.some.inj hall
  · rintro ⟨titles, ⟨htitles, hlevel⟩, rfl⟩
    have hloop := htitles.titleLoop [start]
    cases htitles with
    | nil => rfl
    | @cons t line titles lines first more rest =>
      have h₁ : isTitileLevel1 line = some t.title := by
        rcases first with ⟨-, h₁⟩ | ⟨h₂, -⟩
        · exact h₁
        · have h₁ := hlevel t rfl
          rw [h₁] at h₂
          exact absurd h₂ (by decide)
      rw [first.titleLoop, hlevel t rfl] at hloop
      rw [checkTitles, h₁]
      exact hloop

lemma IsBody.checkTitles (h : IsBody titles lines) (start : LineData) :
    ChangelogFormatter.checkTitles start lines = some (start :: titles.map Title.entry) :=
  checkTitles_eq_some.mpr ⟨titles, h, rfl⟩

/-- The lines have one number of titles. -/
lemma IsBody.length_eq {titles' : List Title} (h : IsBody titles lines)
    (h' : IsBody titles' lines) : titles'.length = titles.length := by
  have hboth := (h'.checkTitles ⟨.undefinedType, []⟩).symm.trans (h.checkTitles _)
  simpa using congrArg List.length (Option.some.inj hboth)

/-! ## The order of the versions -/

lemma versionCompareLess_iff (u v : List ℕ) : versionCompareLess u v = true ↔ u < v := by
  induction u generalizing v with
  | nil => cases v <;> simp [versionCompareLess]
  | cons a u ih =>
    cases v with
    | nil => simp [versionCompareLess]
    | cons b v =>
      rw [versionCompareLess, List.cons_lt_cons_iff, ← ih]
      split_ifs with h h'
      · simp [h]
      · simp [h, h'.ne']
      · simp [show a = b by omega]

/-- One version is in front of another one in `versionsMap`. -/
def Precedes (a b : Bytes × VersionInfo) : Prop :=
  ∃ u v, str_to_ver a.1 = some u ∧ str_to_ver b.1 = some v ∧ u < v

/-- Two texts for one version. -/
def SameVersion (a b : Bytes) : Prop :=
  ∃ v, str_to_ver a = some v ∧ str_to_ver b = some v

variable {v : List ℕ} {e e' : Bytes × VersionInfo} {m m' : List (Bytes × VersionInfo)}

/-- A version that is there stays as it is. -/
lemma insertVersion_of_mem (hm : m.Pairwise Precedes) (he : e' ∈ m)
    (hv : str_to_ver e'.1 = some v) : insertVersion v e m = some m := by
  induction m with
  | nil => simp at he
  | cons e₀ m ih =>
    rw [List.pairwise_cons] at hm
    rcases List.mem_cons.mp he with rfl | he
    · have hirrefl : versionCompareLess v v = false := by
        rw [← Bool.not_eq_true, versionCompareLess_iff]
        exact lt_irrefl v
      rw [insertVersion, hv, Option.bind_some, hirrefl]
      rfl
    · obtain ⟨u, w, hu, hw, hlt⟩ := hm.1 e' he
      obtain rfl : w = v := Option.some.inj (hw.symm.trans hv)
      have hnot : versionCompareLess w u = false := by
        rw [← Bool.not_eq_true, versionCompareLess_iff]
        exact hlt.asymm
      rw [insertVersion, hu, Option.bind_some, hnot, (versionCompareLess_iff u w).mpr hlt,
        ih hm.2 he]
      rfl

/-- A version that is not there is new, or the comparison throws. -/
lemma mem_insertVersion (hnew : ∀ e' ∈ m, str_to_ver e'.1 ≠ some v)
    (h : insertVersion v e m = some m') : e ∈ m' := by
  induction m generalizing m' with
  | nil =>
    obtain rfl := Option.some.inj h
    simp
  | cons e₀ m ih =>
    rw [List.forall_mem_cons] at hnew
    obtain ⟨u, hu, h⟩ := Option.bind_eq_some_iff.mp h
    split_ifs at h with hless hless'
    · obtain rfl := Option.some.inj h
      simp
    · obtain ⟨m₀, hm₀, rfl⟩ := Option.map_eq_some_iff.mp h
      exact List.mem_cons_of_mem _ (ih hnew.2 hm₀)
    · rw [versionCompareLess_iff] at hless hless'
      rw [hu, le_antisymm (not_lt.mp hless) (not_lt.mp hless')] at hnew
      exact absurd rfl hnew.1

lemma not_precedes (hv : str_to_ver e.1 = some v) (hv' : str_to_ver e'.1 = some v) :
    ¬ Precedes e e' := by
  rintro ⟨u, w, hu, hw, hlt⟩
  obtain rfl : v = u := Option.some.inj (hv.symm.trans hu)
  obtain rfl : v = w := Option.some.inj (hv'.symm.trans hw)
  exact lt_irrefl v hlt

/-- A version is there at most once. -/
lemma eq_of_version (hm : m.Pairwise Precedes) (he : e ∈ m) (he' : e' ∈ m)
    (hv : str_to_ver e.1 = some v) (hv' : str_to_ver e'.1 = some v) : e = e' := by
  induction m with
  | nil => simp at he
  | cons e₀ m ih =>
    rw [List.pairwise_cons] at hm
    rcases List.mem_cons.mp he with rfl | hmem
    · rcases List.mem_cons.mp he' with rfl | hmem'
      · rfl
      · exact absurd (hm.1 e' hmem') (not_precedes hv hv')
    · rcases List.mem_cons.mp he' with rfl | hmem'
      · exact absurd (hm.1 e hmem) (not_precedes hv' hv)
      · exact ih hm.2 hmem hmem'

variable {verion : Bytes} {ver : VersionInfo}

lemma emplaceVersion_of_mem (hm : m.Pairwise Precedes) (he : e ∈ m) (h : SameVersion e.1 verion) :
    emplaceVersion verion ver m = some m := by
  obtain ⟨v, hv, hv'⟩ := h
  rw [emplaceVersion, if_neg (List.ne_nil_of_mem he), hv', Option.bind_some,
    insertVersion_of_mem hm he hv]

lemma mem_emplaceVersion (hnew : ∀ e ∈ m, ¬ SameVersion e.1 verion)
    (h : emplaceVersion verion ver m = some m') : (verion, ver) ∈ m' := by
  rw [emplaceVersion] at h
  split_ifs at h
  · obtain rfl := Option.some.inj h
    simp
  · obtain ⟨v, hv, h⟩ := Option.bind_eq_some_iff.mp h
    exact mem_insertVersion (fun e he hev => hnew e he ⟨v, hev, hv⟩) h

lemma forall_insertVersion {P : Bytes × VersionInfo → Prop} (he : P e) (hm : ∀ e' ∈ m, P e')
    (h : insertVersion v e m = some m') : ∀ e' ∈ m', P e' := by
  induction m generalizing m' with
  | nil =>
    obtain rfl := Option.some.inj h
    simpa using he
  | cons e₀ m ih =>
    obtain ⟨u, -, h⟩ := Option.bind_eq_some_iff.mp h
    split_ifs at h
    · obtain rfl := Option.some.inj h
      exact List.forall_mem_cons.mpr ⟨he, hm⟩
    · obtain ⟨m₀, hm₀, rfl⟩ := Option.map_eq_some_iff.mp h
      rw [List.forall_mem_cons] at hm
      exact List.forall_mem_cons.mpr ⟨hm.1, ih hm.2 hm₀⟩
    · obtain rfl := Option.some.inj h
      exact hm

lemma pairwise_insertVersion (hm : m.Pairwise Precedes) (hv : str_to_ver e.1 = some v)
    (h : insertVersion v e m = some m') : m'.Pairwise Precedes := by
  induction m generalizing m' with
  | nil =>
    obtain rfl := Option.some.inj h
    exact List.pairwise_singleton _ _
  | cons e₀ m ih =>
    have hcons := List.pairwise_cons.mp hm
    obtain ⟨u, hu, h⟩ := Option.bind_eq_some_iff.mp h
    split_ifs at h with hless hless'
    · obtain rfl := Option.some.inj h
      rw [versionCompareLess_iff] at hless
      refine List.pairwise_cons.mpr ⟨List.forall_mem_cons.mpr ⟨⟨v, u, hv, hu, hless⟩, ?_⟩, hm⟩
      intro e' he'
      obtain ⟨u', w, hu', hw, hlt⟩ := hcons.1 e' he'
      obtain rfl : u' = u := Option.some.inj (hu'.symm.trans hu)
      exact ⟨v, w, hv, hw, hless.trans hlt⟩
    · obtain ⟨m₀, hm₀, rfl⟩ := Option.map_eq_some_iff.mp h
      rw [versionCompareLess_iff] at hless'
      exact List.pairwise_cons.mpr
        ⟨forall_insertVersion ⟨u, v, hu, hv, hless'⟩ hcons.1 hm₀, ih hcons.2 hm₀⟩
    · obtain rfl := Option.some.inj h
      exact hm

/-! ## Sections -/

/-- A formatter; `std::map` keeps `versionsMap` in order. -/
structure FormatterState where
  formatter : ChangelogFormatter
  ordered : formatter.versionsMap.Pairwise Precedes

variable {F F' : ChangelogFormatter} {description time : Bytes} {checked : Bool}

/-- `contextMap` has grown by the lines of a section, the first of which has the number
`start_line`, counted from 1, and the last one `end_line`. -/
def Appended (F F' : ChangelogFormatter) (start stop : LineData) (lines : List Bytes)
    (start_line end_line : ℕ) : Prop :=
  (∃ titles, IsBody titles lines ∧
    F'.contextMap = F.contextMap ++ (start :: (titles.map Title.entry ++ [stop]))) ∧
  start_line = F.contextMap.length + 1 ∧ end_line = F'.contextMap.length

/-- `checkHeader` does all or nothing. -/
def HeaderCommits (F : ChangelogFormatter) (lines : List Bytes) (description : Bytes) : Prop :=
  ∀ checked F', F.checkHeader lines description = (checked, F') →
    (checked = false → F' = F) ∧
    (checked = true → Appended F F' ⟨.headerStart, description⟩ ⟨.headerEnd, []⟩ lines
      F'.header.start_line F'.header.end_line)

/-- `checkVersion` does all or nothing, unless it throws. -/
def VersionCommits (F : ChangelogFormatter) (lines : List Bytes) (verion time : Bytes) : Prop :=
  ∀ checked F', F.checkVersion lines verion time = some (checked, F') →
    (checked = false → F' = F) ∧
    (checked = true → ∃ e ∈ F'.versionsMap, (e.1 = verion ∨ SameVersion e.1 verion) ∧
      Appended F F' ⟨.versionStart, versionText verion time⟩ ⟨.versionEnd, []⟩ lines
        e.2.start_line e.2.end_line)

/-- The lines are those of a header, or `header` is what `checkHeader` leaves there anyway. -/
def HeaderFits (F : ChangelogFormatter) (lines : List Bytes) (description : Bytes) : Prop :=
  (∃ titles, IsBody titles lines) ∨ F.header = ⟨description, F.contextMap.length + 1, 0⟩

/-- When the lines are those of a version, it is not recorded yet, or with the lines that it is
about to get. -/
def VersionFits (F : ChangelogFormatter) (lines : List Bytes) (verion : Bytes) : Prop :=
  ∀ titles, IsBody titles lines → ∀ e ∈ F.versionsMap, SameVersion e.1 verion →
    e.2.start_line = F.contextMap.length + 1 ∧
      e.2.end_line = F.contextMap.length + titles.length + 2

lemma headerCommits_iff : HeaderCommits F lines description ↔ HeaderFits F lines description := by
  rw [HeaderCommits, HeaderFits]
  cases hcheck : checkTitles ⟨.headerStart, description⟩ lines with
  | none =>
    have hnone : ¬ ∃ titles, IsBody titles lines := by
      rintro ⟨titles, hbody⟩
      simp [hbody.checkTitles] at hcheck
    rw [or_iff_right hnone, checkHeader, hcheck]
    constructor
    · intro h
      exact (congrArg header ((h _ _ rfl).1 rfl)).symm
    · rintro hheader checked F' hF'
      obtain ⟨rfl, rfl⟩ := Prod.mk.inj hF'
      exact ⟨fun _ => by rw [← hheader], by simp⟩
  | some ctx =>
    obtain ⟨titles, hbody, rfl⟩ := checkTitles_eq_some.mp hcheck
    refine ⟨fun _ => Or.inl ⟨titles, hbody⟩, fun _ checked F' hF' => ?_⟩
    rw [checkHeader, hcheck] at hF'
    obtain ⟨rfl, rfl⟩ := Prod.mk.inj hF'
    exact ⟨by simp, fun _ => ⟨⟨titles, hbody, by simp⟩, rfl, rfl⟩⟩

lemma versionCommits_iff (hF : F.versionsMap.Pairwise Precedes) :
    VersionCommits F lines verion time ↔ VersionFits F lines verion := by
  rw [VersionCommits, VersionFits]
  cases hcheck : checkTitles ⟨.versionStart, versionText verion time⟩ lines with
  | none =>
    have hnone : ∀ titles, ¬ IsBody titles lines := by
      intro titles hbody
      simp [hbody.checkTitles] at hcheck
    refine ⟨fun _ titles hbody => absurd hbody (hnone titles), fun _ checked F' hF' => ?_⟩
    rw [checkVersion, hcheck] at hF'
    obtain ⟨rfl, rfl⟩ := Prod.mk.inj (Option.some.inj hF')
    exact ⟨fun _ => rfl, by simp⟩
  | some ctx =>
    obtain ⟨titles, hbody, rfl⟩ := checkTitles_eq_some.mp hcheck
    set contextMap := F.contextMap ++
      (⟨.versionStart, versionText verion time⟩ :: titles.map Title.entry ++ [⟨.versionEnd, []⟩])
      with hcontextMap
    have hnew : contextMap.length = F.contextMap.length + titles.length + 2 := by
      simp [hcontextMap]
      omega
    by_cases hsame : ∃ e ∈ F.versionsMap, SameVersion e.1 verion
    · -- the recorded lines are the old ones
      obtain ⟨e, he, v, hv, hv'⟩ := hsame
      have honly : ∀ e' ∈ F.versionsMap, e'.1 = verion ∨ SameVersion e'.1 verion → e' = e := by
        rintro e' he' (hkey | ⟨w, hw, hw'⟩)
        · exact eq_of_version hF he' he (by rw [hkey, hv']) hv
        · obtain rfl : w = v := Option.some.inj (hw'.symm.trans hv')
          exact eq_of_version hF he' he hw hv
      have hresult : F.checkVersion lines verion time =
          some (true, { F with contextMap := contextMap }) := by
        rw [checkVersion, hcheck]
        dsimp only
        rw [emplaceVersion_of_mem hF he ⟨v, hv, hv'⟩]
        rfl
      constructor
      · intro h titles' hbody' e' he' hsame'
        obtain ⟨e'', he'', hkey, -, hstart, hend⟩ := (h _ _ hresult).2 rfl
        rw [honly e' he' (Or.inr hsame'), ← honly e'' he'' hkey, hbody.length_eq hbody', ← hnew]
        exact ⟨hstart, hend⟩
      · intro h checked F' hF'
        obtain ⟨rfl, rfl⟩ := Prod.mk.inj (Option.some.inj (hresult.symm.trans hF'))
        obtain ⟨hstart, hend⟩ := h titles hbody e he ⟨v, hv, hv'⟩
        refine ⟨by simp, fun _ => ⟨e, he, Or.inr ⟨v, hv, hv'⟩, ⟨titles, hbody, rfl⟩, hstart, ?_⟩⟩
        rw [hend, ← hnew]
    · -- the version is new, unless the comparison throws
      push Not at hsame
      refine ⟨fun _ titles' _ e he h => absurd h (hsame e he), fun _ checked F' hF' => ?_⟩
      rw [checkVersion, hcheck] at hF'
      obtain ⟨m', hm', hF'⟩ := Option.map_eq_some_iff.mp hF'
      obtain ⟨rfl, rfl⟩ := Prod.mk.inj hF'
      exact ⟨by simp, fun _ => ⟨_, mem_emplaceVersion hsame hm', Or.inl rfl, ⟨titles, hbody, rfl⟩,
        rfl, rfl⟩⟩

/-- **All or nothing**: for every formatter, whatever the lines, the description, the version and
the time are. -/
theorem sections_commit_iff (F : FormatterState) (lines : List Bytes)
    (description verion time : Bytes) :
    (HeaderCommits F.formatter lines description ∧ VersionCommits F.formatter lines verion time) ↔
      (HeaderFits F.formatter lines description ∧ VersionFits F.formatter lines verion) :=
  and_congr headerCommits_iff (versionCommits_iff F.ordered)

/-- A header with the line `abc` is rejected, and its description stays. -/
theorem checkHeader_leaves_trace :
    ¬ (HeaderCommits ChangelogFormatter.new [text "abc"] (text "d") ∧
      VersionCommits ChangelogFormatter.new [text "abc"] (text "1.0.0") (text "today")) := by
  rintro ⟨hheader, -⟩
  have hfalse : (ChangelogFormatter.new.checkHeader [text "abc"] (text "d")).1 = false := by decide
  have hsame := (hheader _ _ rfl).1 hfalse
  exact absurd (congrArg header hsame) (by decide)

end SignalEventLoop.Tools
