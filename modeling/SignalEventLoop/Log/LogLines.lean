/-
# The lines in the log files

The rotated files, from the oldest one to the newest one, and then the log hold what was written,
line for line, less the oldest lines, which were in files that a rotation removed.  What was
written is what was taken from the queue, and so what was accepted, as far as it is not in the
queue any more.
-/
import SignalEventLoop.Log.LoggerRuns
import SignalEventLoop.Log.NewestLogs

namespace SignalEventLoop.Log

open Lib

section

variable {name : Bytes} {m : ℕ} {d : Dir} {order : List Bytes} {log : List Bytes}
  {rotated : List (List Bytes)}

/-- The lines of the log, and of the rotated files, the newest one first. -/
structure HoldsLines (name : Bytes) (log : List Bytes) (rotated : List (List Bytes)) (d : Dir) :
    Prop where
  content : ∀ i, d (fileName name i) = ((log :: rotated)[i]?).map List.flatten
  indexed : Indexed name rotated.length d

lemma HoldsLines.log_eq (h : HoldsLines name log rotated d) :
    d (logFileName name) = some log.flatten := h.content 0

/-- A line is appended to the log. -/
lemma HoldsLines.append (h : HoldsLines name log rotated d) (line : Bytes) :
    HoldsLines name (log ++ [line]) rotated (appendLog name line d) := by
  refine ⟨fun i => ?_, h.indexed.write_log _⟩
  cases i with
  | zero =>
    rw [fileName, appendLog, Directory.write_self, h.log_eq]
    simp
  | succ i =>
    have hne : fileName name (i + 1) ≠ logFileName name := indexFileName_ne_logFileName name (i + 1)
    rw [appendLog, Directory.write_of_ne hne, h.content]
    simp

/-- Without a limit the loop keeps all files. -/
lemma rename_file_zero {k : ℕ} (h : Indexed name k d) (horder : d.Lists order)
    (hlt : k + 1 < 2 ^ 32) : rename_file name 0 order d = rename_file name (k + 1) order d := by
  have hzero : (if 0 > 0 then if (k + 1) % 2 ^ 32 > 0 then 0 else (k + 1) % 2 ^ 32
      else (k + 1) % 2 ^ 32) = k + 1 := by
    rw [if_neg (lt_irrefl 0), Nat.mod_eq_of_lt hlt]
  have hall : (if k + 1 > 0 then if (k + 1) % 2 ^ 32 > k + 1 then k + 1 else (k + 1) % 2 ^ 32
      else (k + 1) % 2 ^ 32) = k + 1 := by
    rw [Nat.mod_eq_of_lt hlt, if_pos (Nat.succ_pos k), if_neg (lt_irrefl _)]
  simp only [rename_file, h.scanDir_eq horder, length_entries, hzero, hall]

/-- One call of `rename_file`, with a limit or without one. -/
lemma rename_file_kept {k : ℕ} (h : Indexed name k d) (horder : d.Lists order)
    (hlt : 2 * k + 1 < 2 ^ 32) (hlen : (fileName name (2 * k + 1)).length ≤ 255) :
    Shifted name (keptCount m (k + 1)) d (rename_file name m order d) := by
  rw [keptCount]
  split_ifs with hm
  · rw [hm, rename_file_zero h horder (by omega)]
    have hshift := rename_file_shifted (m := k + 1) h horder (by omega) (by rw [min_self]; omega)
      ((length_fileName_mono (by rw [min_self]; omega)).trans hlen)
    rwa [min_self] at hshift
  · exact rename_file_shifted h horder (by omega) (by omega)
      ((length_fileName_mono (by omega)).trans hlen)

/-- A rotation: the log becomes the newest rotated file. -/
lemma HoldsLines.rotate (h : HoldsLines name log rotated d) (hname : IsProName name)
    (h_ : 95 ∉ name) (horder : d.Lists order) (hlt : 2 * rotated.length + 1 < 2 ^ 32)
    (hlen : (fileName name (2 * rotated.length + 1)).length ≤ 255) :
    HoldsLines name [] ((log :: rotated).take (keptCount m (rotated.length + 1)))
      (openLog name (rename_file name m order d)) := by
  set r := keptCount m (rotated.length + 1) with hr
  have hle : r ≤ rotated.length + 1 := by
    rw [hr, keptCount]
    split_ifs <;> omega
  have hshift : Shifted name r d (rename_file name m order d) :=
    rename_file_kept h.indexed horder hlt hlen
  have hopen : openLog name (rename_file name m order d) =
      (rename_file name m order d).write (fileName name 0) [] := openLog_eq_write hshift.log
  have hlength : ((log :: rotated).take r).length = r := by
    rw [List.length_take, List.length_cons]
    omega
  rw [hopen]
  refine ⟨fun i => ?_, ?_⟩
  · cases i with
    | zero => simp
    | succ i =>
      rw [Directory.write_of_ne (fileName_ne (Nat.succ_ne_zero i)), List.getElem?_cons_succ]
      by_cases hi : i < r
      · rw [hshift.kept i hi, h.content, List.getElem?_take_of_lt hi]
      · rw [hshift.gone i (by omega), List.getElem?_eq_none (by omega)]
        rfl
  · rw [hlength]
    exact hshift.indexed h.indexed hname h_ hle (by omega)
      ((length_fileName_mono (by omega)).trans hlen) []

/-- The log that a program finds or makes when it begins. -/
lemma holdsLines_openLog (h : Fresh name d) :
    HoldsLines name [(d (logFileName name)).getD []] [] (openLog name d) := by
  have hinitial := LogState.rotated_initial (m := 1) h
  refine ⟨fun i => ?_, hinitial.indexed⟩
  cases i with
  | zero =>
    rw [fileName, openLog]
    cases hlog : d (logFileName name) <;> simp [hlog]
  | succ i => simpa [LogState.initial, fileName] using hinitial.kept i

lemma openLog_of_ne_none (h : d (logFileName name) ≠ none) : openLog name d = d := by
  obtain ⟨content, hcontent⟩ := Option.ne_none_iff_exists'.mp h
  simp only [openLog, hcontent]

end

/-! ## Runs -/

namespace LoggerSystem

variable {name : Bytes} {m : ℕ} {s s' t : LoggerSystem} {a : Action} {lines : List Bytes}

/-- The logger after `set_log_path`: texts are accepted, and nothing is deleted. -/
structure Ready (name : Bytes) (m : ℕ) (s : LoggerSystem) : Prop where
  m_pro_name : s.logger.m_pro_name = name
  m_log_file_cache_max_cnts : s.logger.m_log_file_cache_max_cnts = m
  m_env_set : s.logger.m_env_set = true
  m_save_path : s.logger.m_save_path ≠ []
  m_clear_flag : s.logger.m_clear_flag = false
  m_write_error_cnt : s.logger.m_write_error_cnt ≤ MAX_WRITE_ERROR_TRY

/-- The directory and the settings that decide about the files are not changed.  While texts are
written, the log can be opened, `readdir` gives every file once, and there is room for the names
that a rotation needs on its way. -/
def Fits (name : Bytes) (s : LoggerSystem) (a : Action) : Prop :=
  a.Settled ∧ ∀ order fopen, a = .run order fopen → s.logger.m_thread = some .writing →
    fopen = true ∧ s.dir.Lists order ∧ ∀ k, s.dir (fileName name k) ≠ none →
      2 * k + 1 < 2 ^ 32 ∧ (fileName name (2 * k + 1)).length ≤ 255

/-- The files hold these lines, less some that were in files which a rotation removed. -/
def FilesHold (name : Bytes) (m : ℕ) (lines : List Bytes) (d : Dir) : Prop :=
  ∃ lost log rotated, HoldsLines name log rotated d ∧
    lines = lost ++ (log :: rotated).reverse.flatten ∧ (m ≠ 0 → rotated.length ≤ m) ∧
    (lost = [] ∨ m ≠ 0 ∧ rotated.length = m)

structure Logging (name : Bytes) (m : ℕ) (s : LoggerSystem) (lines : List Bytes) : Prop where
  ready : s.Ready name m
  m_fp : s.logger.m_fp = true → s.dir (logFileName name) ≠ none
  files : FilesHold name m lines (openLog name s.dir)

lemma Quiet.ready (h : Quiet s s') (hs : s.Ready name m) : s'.Ready name m := by
  refine ⟨h.m_pro_name.trans hs.1, h.m_log_file_cache_max_cnts.trans hs.2, h.m_env_set.trans hs.3,
    h.m_save_path ▸ hs.4, h.m_clear_flag.trans hs.5, ?_⟩
  rw [h.m_write_error_cnt]
  exact hs.6

lemma Quiet.logging (h : Quiet s s') (hs : s.Logging name m lines) : s'.Logging name m lines := by
  have hdir : s'.dir = s.dir := by rw [dir, dir, h.disk, h.m_save_path]
  refine ⟨h.ready hs.ready, fun hfp => ?_, ?_⟩
  · rw [hdir]
    exact hs.m_fp (h.m_fp hfp)
  · rw [hdir]
    exact hs.files

@[simp] lemma setDir_logger (s : LoggerSystem) (d : Dir) : (s.setDir d).logger = s.logger := rfl

@[simp] lemma setDir_dir (s : LoggerSystem) (d : Dir) : (s.setDir d).dir = d :=
  Function.update_self _ _ _

/-- A rotation removes the oldest lines. -/
lemma FilesHold.rotate {d : Dir} {order : List Bytes} (h : FilesHold name m lines d)
    (hname : IsProName name) (h_ : 95 ∉ name) (horder : d.Lists order)
    (hroom : ∀ k, d (fileName name k) ≠ none →
      2 * k + 1 < 2 ^ 32 ∧ (fileName name (2 * k + 1)).length ≤ 255) :
    FilesHold name m lines (openLog name (rename_file name m order d)) := by
  obtain ⟨lost, log, rotated, hfiles, hlines, hle, hlost⟩ := h
  obtain ⟨hlt, hlen⟩ := hroom rotated.length (by simp [hfiles.content])
  set r := keptCount m (rotated.length + 1) with hr
  refine ⟨lost ++ ((log :: rotated).drop r).reverse.flatten, [], (log :: rotated).take r,
    hfiles.rotate hname h_ horder hlt hlen, ?_, fun hm => ?_, ?_⟩
  · have hsplit : (log :: rotated).reverse.flatten = ((log :: rotated).drop r).reverse.flatten ++
        ((log :: rotated).take r).reverse.flatten := by
      rw [← List.flatten_append, ← List.reverse_append, List.take_append_drop]
    rw [hlines, hsplit]
    simp
  · rw [List.length_take, hr, keptCount, if_neg hm]
    omega
  · rw [keptCount] at hr
    by_cases hm : m = 0
    · rw [if_pos hm] at hr
      left
      rw [hlost.resolve_right fun h => h.1 hm, List.drop_eq_nil_of_le (by simp [hr])]
      rfl
    · rw [if_neg hm] at hr
      by_cases hfull : rotated.length + 1 ≤ m
      · left
        rw [List.drop_eq_nil_of_le (by simp; omega)]
        rcases hlost with rfl | hlost
        · rfl
        · omega
      · right
        refine ⟨hm, ?_⟩
        rw [List.length_take, List.length_cons]
        omega

lemma Ready.fopenLog (hs : s.Ready name m) (hfiles : FilesHold name m lines (openLog name s.dir)) :
    s.fopenLog.Logging name m lines ∧ s.fopenLog.dir (logFileName name) ≠ none := by
  have hdir : s.fopenLog.dir = openLog name s.dir := by
    rw [LoggerSystem.fopenLog, hs.m_pro_name]
    exact setDir_dir _ _
  have hlog : s.fopenLog.dir (logFileName name) ≠ none := by
    obtain ⟨lost, log, rotated, hholds, -⟩ := hfiles
    rw [hdir, hholds.log_eq]
    simp
  refine ⟨⟨⟨hs.1, hs.2, hs.3, hs.4, hs.5, hs.6⟩, fun _ => hlog, ?_⟩, hlog⟩
  rwa [openLog_of_ne_none hlog, hdir]

/-- The log is rotated when it is full, and opened. -/
lemma Logging.beforeOpen {order : List Bytes} (hs : s.Logging name m lines)
    (hname : IsProName name) (h_ : 95 ∉ name) (horder : s.dir.Lists order)
    (hroom : ∀ k, s.dir (fileName name k) ≠ none →
      2 * k + 1 < 2 ^ 32 ∧ (fileName name (2 * k + 1)).length ≤ 255) :
    (s.beforeOpen order).fopenLog.Logging name m lines ∧
      (s.beforeOpen order).fopenLog.dir (logFileName name) ≠ none := by
  have hready := hs.ready
  cases hfp : s.logger.m_fp with
  | false =>
    have hbefore : s.beforeOpen order = s.close := by
      simp only [LoggerSystem.beforeOpen, hfp, Bool.false_eq_true, if_false, hready.m_clear_flag]
    rw [hbefore]
    have hclosed : s.close.Ready name m :=
      ⟨hready.1, hready.2, hready.3, hready.4, hready.5, hready.6⟩
    exact hclosed.fopenLog hs.files
  | true =>
    have hbefore : s.beforeOpen order = (s.setDir (rename_file name m order s.dir)).close := by
      simp only [LoggerSystem.beforeOpen, hfp, if_true, setDir_logger, hready.m_clear_flag,
        Bool.false_eq_true, if_false, hready.m_pro_name, hready.m_log_file_cache_max_cnts]
    rw [hbefore]
    have hclosed : (s.setDir (rename_file name m order s.dir)).close.Ready name m :=
      ⟨hready.1, hready.2, hready.3, hready.4, hready.5, hready.6⟩
    refine hclosed.fopenLog ?_
    have hfiles := hs.files
    rw [openLog_of_ne_none (hs.m_fp hfp)] at hfiles
    have hdir : (s.setDir (rename_file name m order s.dir)).close.dir =
        rename_file name m order s.dir := setDir_dir _ _
    rw [hdir]
    exact hfiles.rotate hname h_ horder hroom

/-- The log is opened, and it has the lines that it should have. -/
lemma Logging.open_file {order : List Bytes} (hs : s.Logging name m lines)
    (hname : IsProName name) (h_ : 95 ∉ name) (horder : s.dir.Lists order)
    (hroom : ∀ k, s.dir (fileName name k) ≠ none →
      2 * k + 1 < 2 ^ 32 ∧ (fileName name (2 * k + 1)).length ≤ 255) :
    ∃ s', s.open_file order true = some (s', true) ∧ s'.Logging name m lines ∧
      s'.dir (logFileName name) ≠ none := by
  have hset : ¬ ((!s.logger.m_env_set || decide (s.logger.m_save_path = [])) = true) := by
    simp [hs.ready.m_env_set, hs.ready.m_save_path]
  rw [LoggerSystem.open_file, if_neg hset]
  by_cases hfp : s.logger.m_fp ∧ (s.fileSize : ℤ) ≤ s.logger.m_max_file_size
  · rw [if_pos hfp]
    exact ⟨s, rfl, hs, hs.m_fp hfp.1⟩
  · rw [if_neg hfp, if_pos rfl]
    exact ⟨_, rfl, hs.beforeOpen hname h_ horder hroom⟩

/-- The line is appended. -/
lemma Logging.append_to_file (hs : s.Logging name m lines)
    (hlog : s.dir (logFileName name) ≠ none) (line : Bytes) :
    (s.append_to_file line).1.Logging name m (lines ++ [line]) := by
  obtain ⟨lost, log, rotated, hfiles, hlines, hle, hlost⟩ := hs.files
  have hdir : (s.append_to_file line).1.dir = appendLog name line s.dir := by
    rw [LoggerSystem.append_to_file, hs.ready.m_pro_name]
    exact setDir_dir _ _
  have hsome : appendLog name line s.dir (logFileName name) ≠ none := by simp [appendLog]
  rw [openLog_of_ne_none hlog] at hfiles
  refine ⟨⟨hs.ready.1, hs.ready.2, hs.ready.3, hs.ready.4, hs.ready.5, hs.ready.6⟩, fun _ => ?_,
    lost, log ++ [line], rotated, ?_, ?_, hle, hlost⟩
  · rwa [hdir]
  · rw [hdir, openLog_of_ne_none hsome]
    exact hfiles.append line
  · rw [hlines]
    simp

/-- **One text is written.** -/
lemma Logging.write {text : Bytes} {rest : List Bytes} {order : List Bytes}
    (hs : s.Logging name m lines) (hbuf : s.logger.m_log_buf = text :: rest)
    (hname : IsProName name) (h_ : 95 ∉ name) (horder : s.dir.Lists order)
    (hroom : ∀ k, s.dir (fileName name k) ≠ none →
      2 * k + 1 < 2 ^ 32 ∧ (fileName name (2 * k + 1)).length ≤ 255) :
    (s.write order true).Logging name m (lines ++ [text ++ LINE_END]) := by
  obtain ⟨s₁, hopen, hs₁, hlog⟩ := hs.open_file hname h_ horder hroom
  have happend := hs₁.append_to_file hlog (text ++ LINE_END)
  set s₂ := (s₁.append_to_file (text ++ LINE_END)).1 with hs₂
  have hwrite : s.writeLog order true (text ++ LINE_END) = some s₂ := by
    rw [writeLog, hopen]
    rfl
  have herrors : s₂.checkErrors = s₂ := by
    rw [checkErrors, if_neg]
    rintro ⟨herrors, -⟩
    exact absurd happend.ready.m_write_error_cnt (by omega)
  have hpop : s.write order true = s₂.pop := by
    simp only [LoggerSystem.write, hbuf, hwrite, herrors]
  rw [hpop]
  have hready := happend.ready
  exact ⟨⟨hready.1, hready.2, hready.3, hready.4, hready.5, hready.6⟩, happend.m_fp, happend.files⟩

/-- The texts that a step takes, as lines. -/
def written (s : LoggerSystem) (a : Action) : List Bytes := (s.taken a).map (· ++ LINE_END)

/-- **One step.** -/
lemma Logging.step (hs : s.Logging name m lines) (hname : IsProName name) (h_ : 95 ∉ name)
    (hfits : s.Fits name a) (h : s.step a = some s') :
    s'.Logging name m (lines ++ s.written a) := by
  obtain ⟨hsettled, hfits⟩ := hfits
  rcases step_cases h with ⟨order, fopen, rfl, hpc, rfl⟩ | ⟨hwriting, hquiet, -, -⟩
  · obtain ⟨rfl, horder, hroom⟩ := hfits order fopen rfl hpc
    cases hbuf : s.logger.m_log_buf with
    | nil =>
      have hnone : s.write order true = s := by simp only [LoggerSystem.write, hbuf]
      rw [hnone, written, taken, hbuf]
      simpa using hs
    | cons text rest =>
      have htaken : s.taken (.run order true) = [text] := by
        rw [taken, if_pos ⟨hpc, open_file_isSome order⟩, hbuf]
        rfl
      rw [written, htaken]
      exact hs.write hbuf hname h_ horder hroom
  · rw [written, taken_of_not_writing hwriting, List.map_nil, List.append_nil]
    exact (hquiet hsettled).logging hs

/-- What the files of the program hold, from the oldest one to the log. -/
def logText (name : Bytes) (k : ℕ) (d : Dir) : Bytes :=
  (List.range (k + 1)).reverse.flatMap fun i => (d (fileName name i)).getD []

lemma openLog_of_ne {x : Bytes} (hx : x ≠ logFileName name) (d : Dir) :
    openLog name d x = d x := by
  cases hlog : d (logFileName name) with
  | none => rw [openLog_eq_write hlog, Directory.write_of_ne hx]
  | some content => rw [openLog_of_ne_none (by simp [hlog])]

lemma openLog_getD (d : Dir) (x : Bytes) : (openLog name d x).getD [] = (d x).getD [] := by
  by_cases hx : x = logFileName name
  · subst hx
    cases hlog : d (logFileName name) with
    | none => simp [openLog_eq_write hlog]
    | some content => rw [openLog_of_ne_none (by simp [hlog]), hlog]
  · rw [openLog_of_ne hx]

lemma logText_eq {log : List Bytes} {rotated : List (List Bytes)} {d : Dir}
    (h : HoldsLines name log rotated (openLog name d)) :
    logText name rotated.length d = (log :: rotated).reverse.flatten.flatten := by
  have hfile : ∀ i, (d (fileName name i)).getD [] =
      (((log :: rotated)[i]?).map List.flatten).getD [] := by
    intro i
    rw [← @openLog_getD name, h.content]
  have hmap : (List.range (rotated.length + 1)).map (fun i => (d (fileName name i)).getD []) =
      (log :: rotated).map List.flatten := by
    refine List.ext_getElem (by simp) fun i hi hi' => ?_
    rw [List.getElem_map, List.getElem_range, hfile, List.getElem?_eq_getElem (by simpa using hi'),
      List.getElem_map]
    rfl
  rw [logText, List.flatMap_def, List.map_reverse, hmap, ← List.map_reverse, List.flatten_flatten]

/-- **From the call to the file.** Whatever the threads do at the same time, the files of the
program hold, line for line and in the order of acceptance, all texts that were accepted and are
not in the queue any more, behind the log that was there, less the lines of the oldest files when
there are more than `m_log_file_cache_max_cnts`. -/
theorem log_lines_kept (name : Bytes) (m : ℕ) (s t : LoggerSystem) (actions : List Action)
    (hname : IsProName name) (h_ : 95 ∉ name) (hready : s.Ready name m)
    (hclosed : s.logger.m_fp = false) (hbuf : s.logger.m_log_buf = []) (hfresh : Fresh name s.dir)
    (hfits : AllSteps step (Fits name) s actions) (hrun : run step s actions = some t) :
    ∃ (lost kept : List Bytes) (k : ℕ),
      (s.dir (logFileName name)).getD [] ::
          (outputs step accepted s actions).map (· ++ LINE_END) =
        lost ++ kept ++ t.logger.m_log_buf.map (· ++ LINE_END) ∧
      logText name k t.dir = kept.flatten ∧
      (∀ i, t.dir (indexFileName name (i + 1)) ≠ none ↔ i < k) ∧
      (m ≠ 0 → k ≤ m) ∧ (lost = [] ∨ m ≠ 0 ∧ k = m) := by
  have hstart : s.Logging name m [(s.dir (logFileName name)).getD []] := by
    refine ⟨hready, fun hfp => absurd hfp (by simp [hclosed]), [], _, [], holdsLines_openLog hfresh,
      rfl, fun _ => Nat.zero_le m, Or.inl rfl⟩
  have hend : t.Logging name m _ :=
    run_outputs_inv (fun s a s' lines hs hfits h => hs.step hname h_ hfits h) hstart hfits hrun
  have hqueue := outputs_queue (fun s a s' h => step_log_buf h) hrun
  rw [hbuf, List.nil_append] at hqueue
  obtain ⟨lost, log, rotated, hfiles, hlines, hle, hlost⟩ := hend.files
  have hwritten : outputs step written s actions =
      (outputs step taken s actions).map (· ++ LINE_END) := outputs_map _ _ _
  refine ⟨lost, (log :: rotated).reverse.flatten, rotated.length, ?_, logText_eq hfiles,
    fun i => ?_, hle, hlost⟩
  · rw [hqueue, List.map_append, ← hwritten, ← hlines]
    rfl
  · have hindex := hfiles.indexed.found (i + 1)
    rw [fileName, openLog_of_ne (indexFileName_ne_logFileName name (i + 1))] at hindex
    rw [hindex]
    omega

/-- The logger of the program `test`, with its thread in `wait_for`. -/
def waitingLogger : LoggerSystem where
  logger :=
    { m_registered := true
      m_thread := some .waiting
      m_pro_name := [116, 101, 115, 116]
      m_env_set := true }
  disk := fun _ _ => none

/-- One thread logs `a`, and the thread of the logger wakes up and writes it. -/
def logOne : List Action := [.log 0 2 [97], .check 0, .push 0, .run [] true, .run [] true]

theorem log_lines_kept_test :
    ∃ t, run step waitingLogger logOne = some t ∧ ∃ (lost kept : List Bytes) (k : ℕ),
      [] :: (outputs step accepted waitingLogger logOne).map (· ++ LINE_END) =
        lost ++ kept ++ t.logger.m_log_buf.map (· ++ LINE_END) ∧
      logText [116, 101, 115, 116] k t.dir = kept.flatten ∧
      (∀ i, t.dir (indexFileName [116, 101, 115, 116] (i + 1)) ≠ none ↔ i < k) ∧
      (20 ≠ 0 → k ≤ 20) ∧ (lost = [] ∨ 20 ≠ 0 ∧ k = 20) := by
  have hfits : AllSteps step (Fits [116, 101, 115, 116]) waitingLogger logOne := by
    refine (allSteps_cons_of_eq_some rfl).mpr ⟨⟨trivial, by simp⟩, ?_⟩
    refine (allSteps_cons_of_eq_some rfl).mpr ⟨⟨trivial, by simp⟩, ?_⟩
    refine (allSteps_cons_of_eq_some rfl).mpr ⟨⟨trivial, by simp⟩, ?_⟩
    refine (allSteps_cons_of_eq_some rfl).mpr ⟨⟨trivial, fun _ _ _ hpc => ?_⟩, ?_⟩
    · exact nomatch Option.some.inj hpc
    refine (allSteps_cons_of_eq_some rfl).mpr ⟨⟨trivial, fun order fopen ha _ => ?_⟩, trivial⟩
    obtain ⟨rfl, rfl⟩ := Action.run.inj ha
    refine ⟨rfl, ⟨List.nodup_nil, fun x => ?_⟩, fun k hk => absurd rfl hk⟩
    exact ⟨fun h => absurd h List.not_mem_nil, fun h => absurd rfl h⟩
  exact ⟨_, rfl, log_lines_kept [116, 101, 115, 116] 20 waitingLogger _ logOne
    ⟨by decide, by simp, by simp⟩ (by decide) ⟨rfl, rfl, rfl, by decide, rfl, by decide⟩ rfl rfl
    (fresh_empty _) hfits rfl⟩

end LoggerSystem

end SignalEventLoop.Log
