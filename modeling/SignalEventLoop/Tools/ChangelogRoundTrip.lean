/-
# Writing a changelog and reading it again

What `dumpToFile` writes for the entries of a comment, a header or a version is read as these
entries, whatever was read before.  While a file is loaded, the printed form of what `contextMap`
has is therefore always read as what it has, which is the invariant `Printed`.  The rest of a file
behind a `$` is taken as it is.
-/
import SignalEventLoop.Tools.ChangelogLines

namespace SignalEventLoop.Tools

open Lib ChangelogFormatter ChangelogLoader
open scoped Bytes

variable {F F' : ChangelogFormatter} {L L' : ChangelogLoader} {r : Bool} {line data w d : Bytes}
  {ver time description : Bytes} {cachelist : List Bytes}

/-! ## Single lines -/

/-- A line that is printed with its end. -/
lemma reads_line (hw : 10 ∉ w) (h : step L (w ++ [13, 10]) = some L') :
    Reads step L (w ++ [13, 10]) L' := by
  have hline : w ++ [13, 10] = w ++ [13] ++ [10] := by simp
  rw [hline] at h ⊢
  exact Reads.line (by simpa using hw) h

lemma step_main (hlen : line.length < 4096) :
    step ⟨F, r, .main⟩ line = some (readMain ⟨F, r, .main⟩ line) := by
  rw [step, if_neg (not_le.mpr hlen)]

/-- An empty line is passed over. -/
lemma reads_blank : Reads step ⟨F, r, .main⟩ [13, 10] ⟨F, r, .main⟩ := by
  refine reads_line (w := []) (by simp) ?_
  rw [step_main (by simp)]
  rfl

lemma markedText_of_head {a b : UInt8} (h : data.head? ≠ some a) : markedText a b data = none := by
  rw [markedText]
  split_ifs with hlen hmark
  · rfl
  · cases data with
    | nil => simp at hlen
    | cons c s => exact absurd (congrArg some (List.cons.inj hmark).1) h
  · rfl

/-- A line outside of the inner loops that begins with no `$`. -/
lemma readMain_of_head (hne : isEmptyLine (trim line) = false)
    (hhead : (trim line).head? ≠ some 36) : readMain L line = L.readEntry line (trim line) := by
  have hheader : isHeaderStart (trim line) = none := markedText_of_head hhead
  have hdiscard : isDiscard (trim line) = false := by simpa [isDiscard] using hhead
  simp only [readMain, hne, hheader, hdiscard, ite_self, Bool.false_eq_true, if_false]

lemma reads_lineComment (hd : LineText d) : Reads step ⟨F, r, .main⟩
    (dumpEntry ⟨.lineComment, d⟩) (push ⟨F, r, .main⟩ [⟨.lineComment, d⟩]) := by
  have hdump : dumpEntry ⟨.lineComment, d⟩ = [47, 47] ++ d ++ [13, 10] := by
    simp [dumpEntry, hd.cString_eq]
  have htrim : trim ([47, 47] ++ d ++ [13, 10]) = [47, 47] ++ d :=
    trim_marked _ hd (by simp) (by simp [isTrailingBlank])
  have hsize := hd.size
  rw [hdump]
  refine reads_line (by simp [hd.newline]) ?_
  have hcomment : isLineComment ([47, 47] ++ d) = some d := markedText_mark hd
  rw [step_main (by simp; omega), readMain_of_head (by rw [htrim]; rfl) (by rw [htrim]; simp),
    htrim, readEntry, hcomment]

/-! ## The body of a comment, a header or a version -/

/-- **The lines of an inner loop** end up in its cache. -/
lemma reads_body (body : List Bytes → LoadMode) (isEnd : Bytes → Bool)
    (hbody : ∀ cachelist line, line.length < 4096 → isEnd (trim line) = false →
      step ⟨F, r, body cachelist⟩ line = some ⟨F, r, body (cacheLine cachelist (trim line))⟩)
    (printed content : Bytes → Bytes) {ls : List Bytes}
    (hls : ∀ l ∈ ls, 10 ∉ printed l ∧ (printed l).length < 4094 ∧
      trim (printed l ++ [13, 10]) = content l ∧ isEmptyLine (content l) = false ∧
      isEnd (content l) = false) (cachelist : List Bytes) :
    Reads step ⟨F, r, body cachelist⟩ (ls.flatMap fun l => printed l ++ [13, 10])
      ⟨F, r, body (cachelist ++ ls.map content)⟩ := by
  induction ls generalizing cachelist with
  | nil => simpa using Reads.nil _
  | cons l ls ih =>
    obtain ⟨hline, hlen, htrim, hempty, hend⟩ := hls l List.mem_cons_self
    have hstep := hbody cachelist (printed l ++ [13, 10]) (by simp; omega) (by rw [htrim, hend])
    rw [htrim, cacheLine, if_neg (by simp [hempty])] at hstep
    have hrest := ih (fun l' hl' => hls l' (List.mem_cons_of_mem l hl')) (cachelist ++ [content l])
    rw [List.append_assoc, List.singleton_append] at hrest
    rw [List.flatMap_cons, List.map_cons]
    exact (reads_line hline hstep).append hrest

/-! ## Comments -/

lemma joinLines_append {l : Bytes} (ls : List Bytes) :
    joinLines (l :: ls) ++ [13, 10] = (l :: ls).flatMap fun l => l ++ [13, 10] := by
  induction ls generalizing l with
  | nil => simp [joinLines, List.intercalate]
  | cons l' ls ih =>
    have hjoin : joinLines (l :: l' :: ls) = l ++ ([13, 10] ++ joinLines (l' :: ls)) := by
      simp [joinLines, List.intercalate]
    rw [hjoin, List.flatMap_cons, ← ih]
    simp

lemma cString_joinLines {ls : List Bytes} (hls : ∀ l ∈ ls, CacheLine l) :
    cString (joinLines ls) = joinLines ls := by
  cases ls with
  | nil => rfl
  | cons l ls =>
    refine cString_eq_self fun c hc => ?_
    have hmem : c ∈ joinLines (l :: ls) ++ [13, 10] := List.mem_append_left _ hc
    rw [joinLines_append, List.mem_flatMap] at hmem
    obtain ⟨l', hl', hc'⟩ := hmem
    rcases List.mem_append.mp hc' with hc' | hc'
    · exact fun h => (hls l' hl').zero (h ▸ hc')
    · simp only [List.mem_cons, List.not_mem_nil, or_false] at hc'
      rcases hc' with rfl | rfl <;> decide

/-- The entries of a comment. -/
def scopeEntries (cachelist : List Bytes) : List LineData :=
  [⟨.scopeCommentStart, joinLines cachelist⟩, ⟨.scopeCommentEnd, []⟩]

lemma reads_scopeComment (hne : cachelist ≠ [])
    (hls : ∀ l ∈ cachelist, CacheLine l ∧ isScopeCommentEnd l = false) :
    Reads step ⟨F, r, .main⟩ (dumpEntries (scopeEntries cachelist))
      (push ⟨F, r, .main⟩ (scopeEntries cachelist)) := by
  have hdump : dumpEntries (scopeEntries cachelist) = [47, 42] ++ [13, 10] ++
      (cachelist.flatMap fun l => l ++ [13, 10]) ++ ([42, 47] ++ [13, 10]) ++ [13, 10] := by
    obtain ⟨l, ls, rfl⟩ := List.exists_cons_of_ne_nil hne
    rw [← joinLines_append]
    simp [dumpEntries, scopeEntries, dumpEntry, cString_joinLines fun l hl => (hls l hl).1]
  have hstart : step ⟨F, r, .main⟩ ([47, 42] ++ [13, 10]) = some ⟨F, r, .scopeComment []⟩ := by
    rw [step_main (by simp), readMain_of_head rfl (by decide)]
    rfl
  have hbody := reads_body (F := F) (r := r) .scopeComment isScopeCommentEnd
    (fun cachelist line hlen hend => by rw [step, if_neg (not_le.mpr hlen)]; simp [hend])
    id id (fun l (hl : l ∈ cachelist) => by
      have hc := (hls l hl).1
      have hsize := hc.size
      exact ⟨hc.newline, by rw [id]; omega, trim_printed hc.head hc.last, hc.isEmptyLine,
        (hls l hl).2⟩) []
  have hend : step ⟨F, r, .scopeComment cachelist⟩ ([42, 47] ++ [13, 10]) =
      some (push ⟨F, r, .main⟩ (scopeEntries cachelist)) := by
    have htrim : isScopeCommentEnd (trim ([42, 47] ++ [13, 10])) = true := by decide
    rw [step, if_neg (by simp)]
    simp only [htrim, if_true, if_neg hne, scopeEntries]
  rw [List.nil_append, List.map_id] at hbody
  rw [hdump]
  exact (((reads_line (by simp) hstart).append hbody).append (reads_line (by simp) hend)).append
    reads_blank

/-! ## Headers and versions -/

/-- The body of a header or of a version is printed as lines that stand in one. -/
lemma printedLines_inner {isEnd : Bytes → Bool} {ls : List Bytes}
    (hls : ∀ l ∈ ls, CacheLine l ∧ TitleLine l)
    (hend : ∀ data : Bytes, data.head? ≠ some 35 → data.head? ≠ some 36 → isEnd data = false) :
    ∀ l ∈ ls, 10 ∉ indent l ++ canonicalLine l ∧ (indent l ++ canonicalLine l).length < 4094 ∧
      trim (indent l ++ canonicalLine l ++ [13, 10]) = canonicalLine l ∧
      isEmptyLine (canonicalLine l) = false ∧ isEnd (canonicalLine l) = false := by
  intro l hl
  obtain ⟨hc, ht⟩ := hls l hl
  obtain ⟨hempty, hversion, hheader⟩ := canonicalLine_inner hc ht
  have hprinted := trim_printedLine hc ht
  obtain ⟨hline, hsize⟩ := printedLine_line hc ht
  exact ⟨hline, hsize, hprinted, hempty, hend _ hversion hheader⟩

lemma TitleEntry.not_discard {e : LineData} (he : TitleEntry e) : e.type ≠ .discardContext := by
  rcases he.type with h | h <;> simp [h]

/-- A header or a version: its first line, its titles and its last line. -/
lemma reads_titled {start stop : LineData} {ctx : List LineData} {first last : Bytes}
    (body : List Bytes → LoadMode) (isEnd : Bytes → Bool) (hls : ∀ l ∈ cachelist, CacheLine l)
    (hctx : checkTitles start cachelist = some ctx)
    (hF' : F'.contextMap = F.contextMap ++ (ctx ++ [stop]))
    (htype : start.type ≠ .discardContext ∧ stop.type ≠ .discardContext)
    (hfirst : dumpEntry start = first ++ [13, 10] ∧ 10 ∉ first)
    (hlast : dumpEntry stop = last ++ [13, 10] ++ [13, 10] ∧ 10 ∉ last)
    (hstart : step ⟨F, true, .main⟩ (first ++ [13, 10]) = some ⟨F, true, body []⟩)
    (hbody : ∀ cachelist line, line.length < 4096 → isEnd (trim line) = false →
      step ⟨F, true, body cachelist⟩ line =
        some ⟨F, true, body (cacheLine cachelist (trim line))⟩)
    (hisEnd : ∀ data : Bytes, data.head? ≠ some 35 → data.head? ≠ some 36 → isEnd data = false)
    (hend : checkTitles start (cachelist.map canonicalLine) = some ctx →
      step ⟨F, true, body (cachelist.map canonicalLine)⟩ (last ++ [13, 10]) =
        some ⟨F', true, .main⟩) : ∃ entries,
      F'.contextMap = F.contextMap ++ entries ∧ (∀ e ∈ entries, e.type ≠ .discardContext) ∧
        Reads step ⟨F, true, .main⟩ (dumpEntries entries) ⟨F', true, .main⟩ := by
  obtain ⟨hlines, hprinted, hagain, titles, rfl, htitles⟩ := checkTitles_spec hls hctx
  refine ⟨_, hF', ?_, ?_⟩
  · simp only [List.cons_append, List.mem_cons, List.mem_append, List.not_mem_nil, or_false]
    rintro e (rfl | he | rfl)
    · exact htype.1
    · exact (htitles e he).not_discard
    · exact htype.2
  · have hinner := reads_body body isEnd hbody (fun l => indent l ++ canonicalLine l) canonicalLine
      (printedLines_inner (fun l hl => ⟨hls l hl, hlines l hl⟩) hisEnd) []
    have hdump : dumpEntries (start :: titles ++ [stop]) =
        first ++ [13, 10] ++ printedLines cachelist ++ (last ++ [13, 10]) ++ [13, 10] := by
      rw [dumpEntries_concat, hprinted, hfirst.1, hlast.1]
      simp
    rw [List.nil_append] at hinner
    rw [hdump]
    exact (((reads_line hfirst.2 hstart).append hinner).append
      (reads_line hlast.2 (hend hagain))).append reads_blank

lemma checkHeader_eq_true (h : F.checkHeader cachelist description = (true, F')) :
    ∃ ctx, checkTitles ⟨.headerStart, description⟩ cachelist = some ctx ∧
      F'.contextMap = F.contextMap ++ (ctx ++ [⟨.headerEnd, []⟩]) := by
  rw [checkHeader] at h
  cases hctx : checkTitles ⟨.headerStart, description⟩ cachelist with
  | none => simp [hctx] at h
  | some ctx =>
    simp only [hctx] at h
    obtain ⟨-, rfl⟩ := Prod.mk.inj h
    exact ⟨ctx, rfl, rfl⟩

/-- A header that was accepted. -/
lemma reads_header (hF : F.contextMap = []) (hd : LineText description)
    (hls : ∀ l ∈ cachelist, CacheLine l)
    (h : F.checkHeader cachelist description = (true, F')) : ∃ entries,
      F'.contextMap = F.contextMap ++ entries ∧ (∀ e ∈ entries, e.type ≠ .discardContext) ∧
        Reads step ⟨F, true, .main⟩ (dumpEntries entries) ⟨F', true, .main⟩ := by
  obtain ⟨ctx, hctx, hF'⟩ := checkHeader_eq_true h
  have hsize := hd.size
  have htrim : trim ([36, 36] ++ description ++ [13, 10]) = [36, 36] ++ description :=
    trim_marked _ hd (by simp) (by simp [isTrailingBlank])
  have hstart : step ⟨F, true, .main⟩ ([36, 36] ++ description ++ [13, 10]) =
      some ⟨F, true, .header description []⟩ := by
    have hheader : isHeaderStart ([36, 36] ++ description) = some description :=
      markedText_mark hd
    have hempty : isEmptyLine ([36, 36] ++ description) = false := rfl
    rw [step_main (by simp; omega)]
    simp only [readMain, htrim, hempty, hF, hheader, if_true, Bool.false_eq_true, if_false]
  have hend (hagain : checkTitles ⟨.headerStart, description⟩ (cachelist.map canonicalLine) =
      some ctx) : step ⟨F, true, .header description (cachelist.map canonicalLine)⟩
        ([36, 36, 36, 36] ++ [13, 10]) = some ⟨F', true, .main⟩ := by
    have hcheck : F.checkHeader (cachelist.map canonicalLine) description = (true, F') := by
      rw [← h, checkHeader, checkHeader, hagain, hctx]
    have htrim : isHeaderEnd (trim ([36, 36, 36, 36] ++ [13, 10])) = true := by decide
    rw [step, if_neg (by simp)]
    simp only [htrim, if_true, hcheck, Bool.and_true]
  refine reads_titled (.header description) isHeaderEnd hls hctx hF' (by simp)
    ⟨by simp [dumpEntry, hd.cString_eq], by simp [hd.newline]⟩ ⟨by simp [dumpEntry], by simp⟩ hstart
    (fun cachelist line hlen hend => ?_) (fun data _ hhead => isHeaderEnd_of_head hhead) hend
  rw [step, if_neg (not_le.mpr hlen)]
  simp [hend]

/-- The words of a version start that was read. -/
structure VersionText (ver time : Bytes) : Prop extends VersionWords ver time where
  newline : 10 ∉ ver ∧ 10 ∉ time
  zero : 0 ∉ ver ∧ 0 ∉ time
  size : ver.length + time.length ≤ 4001

lemma versionText_of_lineText {rest : Bytes} (h : VersionWords ver time)
    (hline : LineText (versionLine ver time rest)) : VersionText ver time where
  toVersionWords := h
  newline := by
    have := hline.newline
    simp only [versionLine, List.mem_append, List.mem_cons, not_or] at this
    exact ⟨this.2.1, this.2.2.2.1⟩
  zero := by
    have := hline.zero
    simp only [versionLine, List.mem_append, List.mem_cons, not_or] at this
    exact ⟨this.2.1, this.2.2.2.1⟩
  size := by
    have := hline.size
    simp only [versionLine, List.length_append, List.length_cons, length_hashes] at this
    omega

lemma versionLine_append (ver time : Bytes) :
    versionLine ver time [13, 10] = versionLine ver time [] ++ [13, 10] := by
  simp [versionLine]

lemma trim_versionLine (ver time : Bytes) :
    trim (versionLine ver time [13, 10]) = versionLine ver time [] := by
  have hlast : versionLine ver time [] =
      hashes ++ (ver ++ 40 :: (time ++ 41 :: List.replicate 7 35)) ++ [35] := by
    simp [versionLine, hashes]
  rw [versionLine_append]
  refine trim_printed (by simp [versionLine, hashes, isLeadingBlank]) fun c hc => ?_
  rw [hlast, List.getLast?_append, List.getLast?_singleton, Option.some_or,
    Option.mem_some_iff] at hc
  rw [← hc]
  decide

/-- A line that is read as the start of a version. -/
lemma step_versionStart {rest rest' : Bytes} (hwords : VersionWords ver time)
    (hlen : (versionLine ver time rest').length < 4096)
    (htrim : trim (versionLine ver time rest') = versionLine ver time rest) :
    step ⟨F, r, .main⟩ (versionLine ver time rest') = some ⟨F, r, .version ver time []⟩ := by
  obtain ⟨hver, htime⟩ := slices_versionLine ver time rest'
  have hcomment : isLineComment (versionLine ver time rest) = none :=
    markedText_of_head (by simp [versionLine, hashes])
  have hscope : isScopeCommentStart (versionLine ver time rest) = false := by
    simp [isScopeCommentStart, versionLine, hashes]
  rw [step_main hlen, readMain_of_head (by rw [htrim]; simp [versionLine, hashes, isEmptyLine])
    (by rw [htrim]; simp [versionLine, hashes]), htrim, readEntry, hcomment]
  simp only [hscope, Bool.false_eq_true, if_false, isVersionStart_words hwords, hver, htime]

lemma checkVersion_eq_true (h : F.checkVersion cachelist ver time = some (true, F')) :
    ∃ ctx, checkTitles ⟨.versionStart, versionText ver time⟩ cachelist = some ctx ∧
      F'.contextMap = F.contextMap ++ (ctx ++ [⟨.versionEnd, []⟩]) := by
  rw [checkVersion] at h
  cases hctx : checkTitles ⟨.versionStart, versionText ver time⟩ cachelist with
  | none => simp [hctx] at h
  | some ctx =>
    simp only [hctx] at h
    obtain ⟨versionsMap, -, heq⟩ := Option.map_eq_some_iff.mp h
    obtain ⟨-, rfl⟩ := Prod.mk.inj heq
    exact ⟨ctx, rfl, rfl⟩

/-- A version that was accepted. -/
lemma reads_version (hv : VersionText ver time) (hls : ∀ l ∈ cachelist, CacheLine l)
    (h : F.checkVersion cachelist ver time = some (true, F')) : ∃ entries,
      F'.contextMap = F.contextMap ++ entries ∧ (∀ e ∈ entries, e.type ≠ .discardContext) ∧
        Reads step ⟨F, true, .main⟩ (dumpEntries entries) ⟨F', true, .main⟩ := by
  obtain ⟨ctx, hctx, hF'⟩ := checkVersion_eq_true h
  have hsize := hv.size
  have hzero : cString (versionText ver time) = versionText ver time := by
    refine cString_eq_self fun c hc h => ?_
    subst h
    simp [versionText, hv.zero] at hc
  have hfirst : dumpEntry ⟨.versionStart, versionText ver time⟩ =
      versionLine ver time [] ++ [13, 10] := by
    simp only [dumpEntry, hzero]
    simp [versionText, versionLine, hashes]
  have hstart : step ⟨F, true, .main⟩ (versionLine ver time [] ++ [13, 10]) =
      some ⟨F, true, .version ver time []⟩ := by
    rw [← versionLine_append]
    exact step_versionStart hv.toVersionWords (by simp [versionLine, length_hashes]; omega)
      (trim_versionLine ver time)
  have hend (hagain : checkTitles ⟨.versionStart, versionText ver time⟩
      (cachelist.map canonicalLine) = some ctx) :
      step ⟨F, true, .version ver time (cachelist.map canonicalLine)⟩
        (List.replicate 32 35 ++ [13, 10]) = some ⟨F', true, .main⟩ := by
    have hcheck : F.checkVersion (cachelist.map canonicalLine) ver time = some (true, F') := by
      rw [← h, checkVersion, checkVersion, hagain, hctx]
    have htrim : isVersionEnd (trim (List.replicate 32 35 ++ [13, 10])) = true := by decide
    rw [step, if_neg (by simp)]
    simp only [htrim, if_true, hcheck, Option.map_some, Bool.and_true]
  refine reads_titled (.version ver time) isVersionEnd hls hctx hF' (by simp)
    ⟨hfirst, by simp [versionLine, hashes, hv.newline]⟩ ⟨by simp [dumpEntry], by simp⟩ hstart
    (fun cachelist line hlen hend => ?_) (fun data hhead _ => isVersionEnd_of_head hhead) hend
  rw [step, if_neg (not_le.mpr hlen)]
  simp [hend]

/-! ## The invariant -/

/-- What the loop that reads the next line has found up to now. -/
def ModeRead (F : ChangelogFormatter) : LoadMode → Prop
  | .main => True
  | .header description cachelist =>
    F.contextMap = [] ∧ LineText description ∧ ∀ l ∈ cachelist, CacheLine l
  | .scopeComment cachelist => ∀ l ∈ cachelist, CacheLine l ∧ isScopeCommentEnd l = false
  | .version ver time cachelist => VersionText ver time ∧ ∀ l ∈ cachelist, CacheLine l
  | .discard => False

/-- The printed form of what was read is read as what was read. -/
structure Printed (L : ChangelogLoader) : Prop where
  reads : Reads step ⟨new, true, .main⟩ (dumpEntries L.formatter.contextMap)
    ⟨L.formatter, true, .main⟩
  not_discard : ∀ e ∈ L.formatter.contextMap, e.type ≠ .discardContext
  mode : ModeRead L.formatter L.mode

lemma printed_new : Printed ⟨new, true, .main⟩ := ⟨Reads.nil _, by simp [new], trivial⟩

/-- Another loop reads the next line. -/
lemma Printed.setMode {mode mode' : LoadMode} (hL : Printed ⟨F, r, mode⟩) (r' : Bool)
    (hmode : ModeRead F mode') : Printed ⟨F, r', mode'⟩ :=
  ⟨hL.reads, hL.not_discard, hmode⟩

/-- Further entries were read. -/
lemma Printed.extend (hL : Printed L) (entries : List LineData)
    (hF' : F'.contextMap = L.formatter.contextMap ++ entries)
    (hentries : ∀ e ∈ entries, e.type ≠ .discardContext)
    (hreads : Reads step ⟨L.formatter, true, .main⟩ (dumpEntries entries) ⟨F', true, .main⟩)
    (r : Bool) : Printed ⟨F', r, .main⟩ := by
  refine ⟨?_, fun e he => ?_, trivial⟩
  · rw [hF', dumpEntries, List.flatMap_append]
    exact hL.reads.append hreads
  · rw [hF'] at he
    exact (List.mem_append.mp he).elim (hL.not_discard e) (hentries e)

/-- What a file has to be: the start of a version has no blanks in front of it, and a header is
accepted. -/
def Regular (L : ChangelogLoader) (line : Bytes) : Prop :=
  match L.mode with
  | .main => (isVersionStart (trim line)).isSome → ∀ c ∈ line.head?, isLeadingBlank c = false
  | .header description cachelist =>
    isHeaderEnd (trim line) = true → (L.formatter.checkHeader cachelist description).1 = true
  | .scopeComment _ | .version _ _ _ | .discard => True

instance (L : ChangelogLoader) (line : Bytes) : Decidable (Regular L line) :=
  match h : L.mode with
  | .main => decidable_of_iff
      ((isVersionStart (trim line)).isSome → ∀ c ∈ line.head?, isLeadingBlank c = false)
      (by rw [Regular, h])
  | .header description cachelist => decidable_of_iff
      (isHeaderEnd (trim line) = true → (L.formatter.checkHeader cachelist description).1 = true)
      (by rw [Regular, h])
  | .scopeComment _ | .version _ _ _ | .discard => isTrue (by rw [Regular, h]; trivial)

lemma cacheLine_forall {P : Bytes → Prop} (hls : ∀ l ∈ cachelist, P l)
    (h : isEmptyLine data = false → P data) : ∀ l ∈ cacheLine cachelist data, P l := by
  rw [cacheLine]
  split_ifs with hempty
  · exact hls
  · intro l hl
    rcases List.mem_append.mp hl with hl | hl
    · exact hls l hl
    · rw [List.mem_singleton.mp hl]
      exact h (by simpa using hempty)

/-- A line outside of the inner loops. -/
lemma Printed.readMain (hL : Printed ⟨F, r, .main⟩) (hline : FileLine line)
    (hreg : (isVersionStart (trim line)).isSome → ∀ c ∈ line.head?, isLeadingBlank c = false)
    (hdiscard : (readMain ⟨F, r, .main⟩ line).mode ≠ .discard) :
    Printed (readMain ⟨F, r, .main⟩ line) := by
  rw [ChangelogLoader.readMain] at hdiscard ⊢
  by_cases hempty : isEmptyLine (trim line) = true
  · rw [if_pos hempty]
    exact hL
  simp only [if_neg hempty] at hdiscard ⊢
  cases hheader : if F.contextMap = [] then isHeaderStart (trim line) else none with
  | some description =>
    obtain ⟨hnil, hstart⟩ : F.contextMap = [] ∧ isHeaderStart (trim line) = some description := by
      split_ifs at hheader with hnil
      exact ⟨hnil, hheader⟩
    exact hL.setMode r ⟨hnil, lineText_of_markedText hline.lineText hstart, by simp⟩
  | none =>
    simp only [hheader] at hdiscard
    by_cases hdollar : isDiscard (trim line) = true
    · rw [if_pos hdollar] at hdiscard
      exact absurd rfl hdiscard
    · simp only [if_neg hdollar, readEntry]
      cases hcomment : isLineComment (trim line) with
      | some comment =>
        have htext := lineText_of_markedText hline.lineText hcomment
        have hreads := reads_lineComment (F := F) (r := true) htext
        exact hL.extend [⟨.lineComment, comment⟩] rfl (by simp)
          (by simpa [dumpEntries, push] using hreads) r
      | none =>
        by_cases hscope : isScopeCommentStart (trim line) = true
        · simp only [if_pos hscope]
          exact hL.setMode r (by simp [ModeRead])
        · simp only [if_neg hscope]
          cases hstart : isVersionStart (trim line) with
          | none => exact hL.setMode false trivial
          | some p =>
            obtain ⟨p₁, p₂, p₃, p₄⟩ := p
            obtain ⟨ver, time, rest, hwords, htrim⟩ := exists_of_isVersionStart hstart
            -- without blanks in front the positions are those in the line
            obtain ⟨tail, htail⟩ := exists_append_trimEnds isTrailingBlank
              (hreg (by simp [hstart]))
            have hword := versionText_of_lineText hwords (htrim ▸ hline.lineText)
            rw [htrim, isVersionStart_words hwords] at hstart
            simp only [Option.some.injEq, Prod.mk.injEq] at hstart
            obtain ⟨rfl, rfl, rfl, rfl⟩ := hstart
            have hsplit : line = versionLine ver time (rest ++ tail) := by
              rw [htail, show trimEnds isLeadingBlank isTrailingBlank line = trim line from rfl,
                htrim]
              simp [versionLine]
            obtain ⟨hver, htime⟩ := slices_versionLine ver time (rest ++ tail)
            simp only [hsplit, hver, htime]
            exact hL.setMode r ⟨hword, by simp⟩

/-- **What was read stays printable**, line by line, up to a discarded rest. -/
lemma Printed.step (hL : Printed L) (hline : FileLine line) (hreg : Regular L line)
    (h : L.step line = some L') (hdiscard : L'.mode ≠ .discard) : Printed L' := by
  obtain ⟨F, r, mode⟩ := L
  have hlen : ¬ line.length ≥ 4096 := by
    have := hline.size
    omega
  rw [ChangelogLoader.step, if_neg hlen] at h
  cases mode with
  | main =>
    obtain rfl := Option.some.inj h
    exact hL.readMain hline hreg hdiscard
  | header description cachelist =>
    obtain ⟨hnil, hdesc, hls⟩ := hL.mode
    simp only at h
    split_ifs at h with hend
    · obtain rfl := Option.some.inj h
      cases hcheck : F.checkHeader cachelist description with
      | mk checked F' =>
        have hchecked : checked = true := by simpa [hcheck] using hreg hend
        rw [hchecked] at hcheck
        obtain ⟨entries, hF', hentries, hreads⟩ := reads_header hnil hdesc hls hcheck
        exact hL.extend entries hF' hentries hreads _
    · obtain rfl := Option.some.inj h
      exact hL.setMode r ⟨hnil, hdesc, cacheLine_forall hls hline.cacheLine⟩
  | scopeComment cachelist =>
    have hls : ∀ l ∈ cachelist, CacheLine l ∧ isScopeCommentEnd l = false := hL.mode
    simp only at h
    split_ifs at h with hend hnil
    · obtain rfl := Option.some.inj h
      exact hL.setMode r trivial
    · obtain rfl := Option.some.inj h
      exact hL.extend (scopeEntries cachelist) rfl (by simp [scopeEntries])
        (reads_scopeComment hnil hls) r
    · obtain rfl := Option.some.inj h
      refine hL.setMode r (cacheLine_forall hls fun hempty => ⟨hline.cacheLine hempty, ?_⟩)
      simpa using hend
  | version ver time cachelist =>
    obtain ⟨htext, hls⟩ := hL.mode
    simp only at h
    split_ifs at h with hend
    · obtain ⟨⟨checked, F'⟩, hcheck, rfl⟩ := Option.map_eq_some_iff.mp h
      cases checked with
      | true =>
        obtain ⟨entries, hF', hentries, hreads⟩ := reads_version htext hls hcheck
        exact hL.extend entries hF' hentries hreads _
      | false =>
        -- a version that is rejected leaves no trace
        have hF' : F' = F := by
          rw [checkVersion] at hcheck
          split at hcheck
          · exact (Prod.mk.inj (Option.some.inj hcheck)).2.symm
          · obtain ⟨versionsMap, -, heq⟩ := Option.map_eq_some_iff.mp hcheck
            exact absurd (Prod.mk.inj heq).1 (by simp)
        rw [hF']
        exact hL.setMode _ trivial
    · obtain rfl := Option.some.inj h
      exact hL.setMode r ⟨htext, cacheLine_forall hls hline.cacheLine⟩
  | discard => exact absurd hL.mode id

/-! ## The discarded rest -/

/-- A formatter that has kept the rest of a file. -/
def discarding (F : ChangelogFormatter) (rest : Bytes) : ChangelogFormatter :=
  { F with contextMap := F.contextMap ++ [⟨.discardContext, rest⟩] }

/-- The lines behind a `$` are kept as they are. -/
lemma run_discard {lines : List Bytes} (hlines : ∀ l ∈ lines, l.length < 4096) (rest : Bytes) :
    run step ⟨discarding F rest, r, .discard⟩ lines =
      some ⟨discarding F (rest ++ lines.flatten), r, .discard⟩ := by
  induction lines generalizing rest with
  | nil => simp
  | cons l lines ih =>
    have hstep : step ⟨discarding F rest, r, .discard⟩ l =
        some ⟨discarding F (rest ++ l), r, .discard⟩ := by
      rw [step, if_neg (not_le.mpr (hlines l List.mem_cons_self))]
      simp only [discarding, appendLast_concat]
    rw [run_cons, hstep, Option.bind_some, ih fun l' hl' => hlines l' (List.mem_cons_of_mem l hl'),
      List.flatten_cons, List.append_assoc]

lemma readEntry_mode (hmode : L.mode ≠ .discard) : (L.readEntry line data).mode ≠ .discard := by
  rw [readEntry]
  split
  · exact hmode
  · split_ifs
    · simp
    · split <;> simp [hmode]

/-- The line that leads to the discarded rest. -/
lemma step_discard (hL : Printed L) (h : L.step line = some L') (hmode : L'.mode = .discard) :
    ∃ r, L' = ⟨discarding L.formatter [], r, .discard⟩ := by
  obtain ⟨F, r, mode⟩ := L
  rw [ChangelogLoader.step] at h
  by_cases hlen : line.length ≥ 4096
  · simp [hlen] at h
  rw [if_neg hlen] at h
  cases mode with
  | main =>
    obtain rfl := Option.some.inj h
    rw [ChangelogLoader.readMain] at hmode ⊢
    by_cases hempty : isEmptyLine (trim line) = true
    · simp [hempty] at hmode
    simp only [if_neg hempty] at hmode ⊢
    cases hheader : if F.contextMap = [] then isHeaderStart (trim line) else none with
    | some description => simp [hheader] at hmode
    | none =>
      simp only [hheader] at hmode
      by_cases hdollar : isDiscard (trim line) = true
      · simp only [if_pos hdollar]
        exact ⟨r, rfl⟩
      · rw [if_neg hdollar] at hmode
        exact absurd hmode (readEntry_mode (by simp))
  | header description cachelist =>
    simp only at h
    split_ifs at h <;>
    · obtain rfl := Option.some.inj h
      simp at hmode
  | scopeComment cachelist =>
    simp only at h
    split_ifs at h <;>
    · obtain rfl := Option.some.inj h
      simp [push] at hmode
  | version ver time cachelist =>
    simp only at h
    split_ifs at h
    · obtain ⟨_, -, rfl⟩ := Option.map_eq_some_iff.mp h
      simp at hmode
    · obtain rfl := Option.some.inj h
      simp at hmode
  | discard => exact absurd hL.mode id

/-- **A file that was loaded** is printable, up to a discarded rest. -/
theorem run_printed {lines : List Bytes} (hL : Printed L)
    (hlines : AllSteps step Regular L lines) (hfile : ∀ l ∈ lines, FileLine l)
    (h : run step L lines = some L') : Printed L' ∨ ∃ L₁ pre line rest r,
      lines = pre ++ line :: rest ∧ Printed L₁ ∧
        L' = ⟨discarding L₁.formatter rest.flatten, r, .discard⟩ := by
  induction lines generalizing L with
  | nil =>
    obtain rfl : L = L' := by simpa using h
    exact Or.inl hL
  | cons line lines ih =>
    obtain ⟨L₁, hstep, hrun⟩ := run_cons_eq_some.mp h
    have hline := hfile line List.mem_cons_self
    have hfile' := fun l hl => hfile l (List.mem_cons_of_mem line hl)
    by_cases hdiscard : L₁.mode = .discard
    · obtain ⟨r, rfl⟩ := step_discard hL hstep hdiscard
      have hshort : ∀ l ∈ lines, l.length < 4096 := by
        intro l hl
        have := (hfile' l hl).size
        omega
      rw [run_discard hshort, List.nil_append] at hrun
      exact Or.inr ⟨L, [], line, lines, r, rfl, hL, (Option.some.inj hrun).symm⟩
    · rcases ih (hL.step hline hlines.1 hstep hdiscard) (hlines.2 L₁ hstep) hfile' hrun with
        hprinted | ⟨L₂, pre, line', rest, r, rfl, hL₂, rfl⟩
      · exact Or.inl hprinted
      · exact Or.inr ⟨L₂, line :: pre, line', rest, r, rfl, hL₂, rfl⟩

/-! ## The round trip -/

lemma dumpLoop_eq {ctx : List LineData} (hctx : ∀ e ∈ ctx, e.type ≠ .discardContext) :
    dumpLoop ctx = dumpEntries ctx := by
  induction ctx with
  | nil => rfl
  | cons e ctx ih =>
    rw [dumpLoop, if_neg (hctx e List.mem_cons_self),
      ih fun e' he' => hctx e' (List.mem_cons_of_mem e he')]
    rfl

/-- The rest is written last. -/
lemma dumpLoop_discard {ctx : List LineData} (hctx : ∀ e ∈ ctx, e.type ≠ .discardContext)
    (rest : Bytes) : dumpLoop (ctx ++ [⟨.discardContext, rest⟩]) =
      dumpEntries ctx ++ ([36] ++ [13, 10]) ++ cString rest := by
  induction ctx with
  | nil => simp [dumpLoop, dumpEntry, dumpEntries]
  | cons e ctx ih =>
    rw [List.cons_append, dumpLoop, if_neg (hctx e List.mem_cons_self),
      ih fun e' he' => hctx e' (List.mem_cons_of_mem e he')]
    simp [dumpEntries]

lemma fileLine_of_mem {file : Bytes} (hzero : 0 ∉ file)
    (hsize : ∀ line ∈ getlines file, line.length ≤ 4001) (hline : line ∈ getlines file) :
    FileLine line :=
  ⟨exists_of_mem_getlines hline, fun h => hzero (mem_of_mem_getlines hline h), hsize line hline⟩

/-- **The round trip.**  A file without NULs and without long lines, whose version starts have no
blanks in front and whose header is accepted: what `dumpToFile` writes for it is loaded, and gives
the same formatter. -/
theorem loadFile_dumpToFile {file : Bytes} {ret : Bool} {S : ChangelogFormatter}
    (hzero : 0 ∉ file) (hsize : ∀ line ∈ getlines file, line.length ≤ 4001)
    (hregular : AllSteps step Regular ⟨new, true, .main⟩ (getlines file))
    (hload : new.loadFile file = some (ret, S)) :
    new.loadFile S.dumpToFile = some (true, S) := by
  obtain ⟨L, hrun, hresult⟩ := Option.map_eq_some_iff.mp hload
  have hS : S = L.formatter := by
    rw [result] at hresult
    split at hresult <;> exact (Prod.mk.inj hresult).2.symm
  have hfile : ∀ line ∈ getlines file, FileLine line := fun _ => fileLine_of_mem hzero hsize
  rcases run_printed printed_new hregular hfile hrun with
    hprinted | ⟨L₁, pre, line, rest, r, hlines, hL₁, rfl⟩
  · have hdump : S.dumpToFile = dumpEntries L.formatter.contextMap := by
      rw [hS, dumpToFile, dumpLoop_eq hprinted.not_discard]
    rw [loadFile, hdump, show new.clear = new from rfl, hprinted.reads.run_eq, hS]
    rfl
  · have hsplit : getlines file = (pre ++ [line]) ++ rest := by
      rw [hlines, List.append_assoc, List.singleton_append]
    have hrest : ∀ l ∈ rest, l ∈ getlines file := fun l hl => hlines ▸ by simp [hl]
    have hnul : cString rest.flatten = rest.flatten := by
      refine cString_eq_self fun c hc h => ?_
      obtain ⟨l, hl, hc⟩ := List.mem_flatten.mp hc
      exact (hfile l (hrest l hl)).zero (h ▸ hc)
    have hdump : S.dumpToFile =
        dumpEntries L₁.formatter.contextMap ++ ([36] ++ [13, 10]) ++ rest.flatten := by
      rw [hS, dumpToFile, discarding, dumpLoop_discard hL₁.not_discard, hnul]
    have hdollar : step ⟨L₁.formatter, true, .main⟩ ([36] ++ [13, 10]) =
        some ⟨discarding L₁.formatter [], true, .discard⟩ := by
      have htrim : trim ([36] ++ [13, 10]) = [36] := by decide
      have hheader : isHeaderStart [36] = none := by decide
      rw [step_main (by simp)]
      simp only [readMain, htrim, hheader, ite_self]
      rfl
    have hshort : ∀ l ∈ rest, l.length < 4096 := by
      intro l hl
      have := hsize l (hrest l hl)
      omega
    have hreads := hL₁.reads.append (reads_line (by simp) hdollar)
    rw [loadFile, hdump, show new.clear = new from rfl, hreads, getlines_flatten hsplit,
      run_discard hshort, List.nil_append, hS]
    rfl

/-- A header, comments, a version that is accepted and one that is rejected, and a rest. -/
def exampleFile : Bytes :=
  text "$$ v \n ^ a\n  b\n** c\n$$$$\n// d\n/* e\n f\n */\n" ++
  text "########1.0.0(2024)########\n ^ g\n** h\n################\n" ++
  text "########1.0.1(2024)########\n ** i\n################\n$ j\n  k"

theorem loadFile_dumpToFile_exampleFile : ∃ S : ChangelogFormatter,
    new.loadFile exampleFile = some (false, S) ∧ S.contextMap.length = 12 ∧
      new.loadFile S.dumpToFile = some (true, S) := by
  have h : (new.loadFile exampleFile).map (fun result => (result.1, result.2.contextMap.length)) =
      some (false, 12) := by decide +kernel
  obtain ⟨⟨ret, S⟩, hload, hresult⟩ := Option.map_eq_some_iff.mp h
  obtain ⟨rfl, hlen⟩ := Prod.mk.inj hresult
  exact ⟨S, hload, hlen, loadFile_dumpToFile (by decide +kernel) (by decide +kernel)
    (by decide +kernel) hload⟩

end SignalEventLoop.Tools
