/-
# Writing and reading the config file of a session

The file that `dumpConfig` writes is read line by line, and every line adds its entry to the item
of the session.  The entries are the fields, so that `loadConfig` sets each field to what it was.
An environment variable is different: `splitEnvInput` needs a name and a value, and a variable
without a value, which the line `name=,\` stands for, is lost.
-/
import SignalEventLoop.Daemon.ConfigLines

namespace SignalEventLoop.Daemon

open Lib
open scoped ByteOrder Bytes

namespace SessionConfig

open DaemonFileHelper

variable {s t : SessionConfig} {n : Int64}

/-! ## Numbers and truth values -/

lemma toString64_ne_nil (n : Int64) : toString64 n ≠ [] := by
  rw [toString64]
  split_ifs
  · simp
  · exact decimal_ne_nil _

/-- A number that is written is read with its sign. -/
lemma scanInteger_toString64 (n : Int64) : ∃ negative k, scanInteger (toString64 n) =
    some (negative, k, []) ∧ (if negative then -(k : ℤ) else k) = n.toInt := by
  rw [toString64]
  split_ifs with hn
  · refine ⟨true, (-n.toInt).toNat, ?_, ?_⟩
    · simpa using scanInteger_neg_decimal (-n.toInt).toNat (s := []) (by simp)
    rw [Int64.lt_iff_toInt_lt, Int64.toInt_zero] at hn
    rw [if_pos rfl]
    omega
  · refine ⟨false, n.toInt.toNat, ?_, ?_⟩
    · simpa using scanInteger_decimal n.toInt.toNat (s := []) (by simp)
    rw [Int64.lt_iff_toInt_lt, Int64.toInt_zero] at hn
    rw [if_neg (by simp)]
    omega

lemma stold_toString64 (n : Int64) : stold (toString64 n) = some n := by
  obtain ⟨negative, k, hscan, hk⟩ := scanInteger_toString64 n
  rw [stold, hscan, Option.bind_some]
  simp only [hk, Int64.ofInt_toInt]
  rw [if_pos ⟨Int64.le_toInt n, Int64.toInt_lt n⟩]

lemma stoul_toString64 (n : Int64) : stoul (toString64 n) = some n := by
  obtain ⟨negative, k, hscan, hk⟩ := scanInteger_toString64 n
  have hlow := Int64.le_toInt n
  have hhigh := Int64.toInt_lt n
  have hsize : ¬ k ≥ 2 ^ 64 := by
    rw [← hk] at hlow hhigh
    split_ifs at hlow hhigh <;> omega
  rw [stoul, hscan, Option.bind_some]
  simp only [hk, Int64.ofInt_toInt, if_neg hsize]

/-! ## The entries of a session -/

/-- What stands behind an entry in the file. -/
def itemValue (s : SessionConfig) : ConfigItemType → Bytes
  | .cmd => s.execCmd
  | .autoStart => boolText s.autoStart
  | .autoRestart => boolText s.autoRestart
  | .startDelaySec => toString64 s.startDelaySec
  | .restartIntervalSec => toString64 s.restartIntervalSec
  | .env => envText s.envMap
  | .workPath => s.workPath
  | .logPath => s.logFilePath
  | .logFileSizeLimitKb => toString64 s.logFileSizeKBytesLimit
  | .maxErrorRebootCnt => toString64 s.maxErrorRebootCnt
  | .errorThreshold => toString64 s.errorRebootThresholdSec
  | .execType => s.sessionType
  | .subType => s.subType
  | .saveLog => boolText s.saveLog
  | .logToTerminal | .statusPrintIntervalSec | .logMaxFileCnts => []

/-- The variables that have a name and a value. -/
def readEnv (m : StringMap) : StringMap := m.filter fun e => e.1 ≠ [] ∧ e.2 ≠ []

/-- A session with one of the fields of another one. -/
def copyItem (s t : SessionConfig) : ConfigItemType → SessionConfig
  | .cmd => { t with execCmd := s.execCmd }
  | .autoStart => { t with autoStart := s.autoStart }
  | .autoRestart => { t with autoRestart := s.autoRestart }
  | .startDelaySec => { t with startDelaySec := s.startDelaySec }
  | .restartIntervalSec => { t with restartIntervalSec := s.restartIntervalSec }
  | .env => { t with env := envText s.envMap, envMap := readEnv s.envMap }
  | .workPath => { t with workPath := s.workPath }
  | .logPath => { t with logFilePath := s.logFilePath }
  | .logFileSizeLimitKb => { t with logFileSizeKBytesLimit := s.logFileSizeKBytesLimit }
  | .maxErrorRebootCnt => { t with maxErrorRebootCnt := s.maxErrorRebootCnt }
  | .errorThreshold => { t with errorRebootThresholdSec := s.errorRebootThresholdSec }
  | .execType => { t with sessionType := s.sessionType }
  | .subType => { t with subType := s.subType }
  | .saveLog => { t with saveLog := s.saveLog }
  | .logToTerminal | .statusPrintIntervalSec | .logMaxFileCnts => t

/-- A text field that can stand in a line of its own. -/
structure Plain (w : Bytes) : Prop where
  newline : 10 ∉ w
  head : ∀ c ∈ w.head?, isTrimCharacter c = false
  last : ∀ c ∈ w.getLast?, isTrimCharacter c = false
  backslash : w.getLast? ≠ some 92

/-- The sessions whose config file can be written: the texts, the numbers, and the sizes of the
arrays of the reader. -/
structure Dumpable (s : SessionConfig) : Prop where
  name_ne_nil : s.configName ≠ []
  name_notMem : 58 ∉ s.configName ∧ 93 ∉ s.configName
  name : Plain s.configName
  execCmd : Plain s.execCmd
  sessionType : Plain s.sessionType
  subType : Plain s.subType
  logFilePath : Plain s.logFilePath
  workPath : Plain s.workPath
  startDelaySec : 0 ≤ s.startDelaySec
  restartIntervalSec : 1 ≤ s.restartIntervalSec
  envSorted : SortedMap.Sorted s.envMap
  envName : ∀ e ∈ s.envMap, 61 ∉ e.1 ∧ 44 ∉ e.1 ∧ e.1.head? ≠ some 35 ∧ e.1.head? ≠ some 91
  envValue : ∀ e ∈ s.envMap, 44 ∉ e.2
  name_size : s.configName.length < 128
  value_size : ∀ type, (s.itemValue type).length < 128 * 1024 + 1
  env_size : ∀ e ∈ s.envMap, e.1.length < 512 ∧ e.2.length < 2048

lemma Plain.trimmed {w : Bytes} (hw : Plain w) : trim w = w := trim_eq_self hw.head hw.last

lemma Dumpable.envEntry (hs : Dumpable s) (hl : Loaded s) : ∀ e ∈ s.envMap, EnvEntry e := by
  intro e he
  obtain ⟨hequals, hcomma, hcomment, hitem⟩ := hs.envName e he
  exact ⟨(hl.envMap e he).1, (hl.envMap e he).2, ⟨hequals, hcomma⟩, hs.envValue e he, hcomment,
    hitem, (hs.env_size e he).1, (hs.env_size e he).2⟩

lemma setNonempty_of_ne_nil {α : Type*} {read : Bytes → Option α} {value : Bytes}
    (hne : value ≠ []) (old : α) : setNonempty read value old = read value := if_neg hne

lemma setNonempty_boolText (b old : Bool) : setNonempty readBool (boolText b) old = some b := by
  cases b <;> rfl

lemma setNonempty_stold (n old : Int64) : setNonempty stold (toString64 n) old = some n := by
  rw [setNonempty_of_ne_nil (toString64_ne_nil n), stold_toString64]

lemma setNonempty_stoul (n old : Int64) : setNonempty stoul (toString64 n) old = some n := by
  rw [setNonempty_of_ne_nil (toString64_ne_nil n), stoul_toString64]

/-- **An entry of the file sets its field**, and of the environment what can be read. -/
lemma setItem_itemValue (hs : Dumpable s) (hl : Loaded s) (t : SessionConfig)
    (type : ConfigItemType) : t.setItem (s.itemValue type) type = some (s.copyItem t type) := by
  cases type with
  | cmd | workPath | logPath | logToTerminal | statusPrintIntervalSec | logMaxFileCnts => rfl
  | autoStart | autoRestart | saveLog =>
    simp only [setItem, itemValue, setNonempty_boolText, Option.map_some, copyItem]
  | maxErrorRebootCnt | errorThreshold =>
    simp only [setItem, itemValue, setNonempty_stold, Option.map_some, copyItem]
  | logFileSizeLimitKb =>
    simp only [setItem, itemValue, setNonempty_stoul, Option.map_some, copyItem]
  | startDelaySec =>
    have hn : ¬ s.startDelaySec < 0 := Int64.not_lt.mpr hs.startDelaySec
    simp only [setItem, itemValue, setNonempty_stold, Option.map_some, copyItem, if_neg hn]
  | restartIntervalSec =>
    have hn : ¬ s.restartIntervalSec < 1 := Int64.not_lt.mpr hs.restartIntervalSec
    simp only [setItem, itemValue, setNonempty_stold, Option.map_some, copyItem, if_neg hn]
  | env =>
    simp only [setItem, itemValue, splitEnvInput_envText (hs.envEntry hl) hs.envSorted,
      Option.map_some, copyItem, readEnv]
  | execType =>
    have hknown : ¬ (s.sessionType ≠ DAEMON_PROCESS_TYPE ∧ s.sessionType ≠ DAEMON_SHELL_TYPE) :=
      fun h => hl.sessionType.elim h.1 h.2
    rw [setItem, itemValue, copyItem, if_neg hknown]
  | subType =>
    have hknown : ¬ (s.subType ≠ DAEMON_SUB_TYPE_1 ∧ s.subType ≠ DAEMON_SUB_TYPE_2) :=
      fun h => hl.subType.elim h.1 h.2
    rw [setItem, itemValue, copyItem, if_neg hknown]

lemma configItem_ConfigItemString (type : ConfigItemType) :
    configItem (ConfigItemString type) = some type := by
  cases type <;> decide

/-- The entries of some types set the fields of these types. -/
lemma run_setEntry (hs : Dumpable s) (hl : Loaded s) (types : List ConfigItemType)
    (t : SessionConfig) :
    run setEntry t (types.map fun type => (ConfigItemString type, s.itemValue type)) =
      some (types.foldl s.copyItem t) := by
  induction types generalizing t with
  | nil => rfl
  | cons type types ih =>
    rw [List.map_cons, run_cons, setEntry, configItem_ConfigItemString]
    simp only [setItem_itemValue hs hl, Option.bind_some, ih, List.foldl_cons]

/-! ## The whole file -/

/-- The entries in the order in which they are written. -/
def dumpOrder : List ConfigItemType :=
  [.cmd, .execType, .subType, .autoStart, .autoRestart, .saveLog, .logFileSizeLimitKb, .logPath,
    .startDelaySec, .restartIntervalSec, .workPath, .errorThreshold, .maxErrorRebootCnt, .env]

/-- The entries in the order of their keys. -/
def keyOrder : List ConfigItemType :=
  [.autoRestart, .autoStart, .cmd, .workPath, .env, .execType, .logFileSizeLimitKb, .logPath,
    .maxErrorRebootCnt, .errorThreshold, .restartIntervalSec, .saveLog, .startDelaySec, .subType]

/-- The item of a session. -/
def entries (s : SessionConfig) (types : List ConfigItemType) : StringMap :=
  types.map fun type => (ConfigItemString type, s.itemValue type)

/-- The map of the entries does not depend on the order in which they are written. -/
lemma foldl_entries (s : SessionConfig) :
    (s.entries dumpOrder).foldl (fun m e => SortedMap.emplace e.1 e.2 m) [] =
      s.entries keyOrder := by
  refine SortedMap.foldl_emplace_eq ?_ ?_ fun e => ?_
  · have hkeys : (dumpOrder.map ConfigItemString).Nodup := by decide
    rw [entries, List.map_map]
    exact hkeys
  · have hkeys : (keyOrder.map ConfigItemString).Pairwise (· < ·) := by decide
    rw [List.pairwise_map] at hkeys
    rw [SortedMap.Sorted, entries, List.pairwise_map]
    exact hkeys
  · have hperm : dumpOrder.Perm keyOrder := by decide
    exact (hperm.map _).mem_iff

lemma plain_of_forall {w : Bytes} (hblank : ∀ c ∈ w, isTrimCharacter c = false)
    (hslash : 92 ∉ w) : Plain w where
  newline h := absurd (hblank 10 h) (by decide)
  head c hc := hblank c (List.mem_of_mem_head? hc)
  last c hc := hblank c (List.mem_of_mem_getLast? hc)
  backslash h := hslash (List.mem_of_getLast? h)

lemma mem_toString64 {c : UInt8} (hc : c ∈ toString64 n) : c = 45 ∨ isDecimalDigit c = true := by
  rw [toString64] at hc
  split_ifs at hc
  · rcases List.mem_cons.mp hc with hc | hc
    · exact Or.inl hc
    · exact Or.inr (isDecimalDigit_of_mem_decimal hc)
  · exact Or.inr (isDecimalDigit_of_mem_decimal hc)

/-- No byte of a number is special. -/
lemma notMem_toString64 {c : UInt8} (hc : c ≠ 45) (hdigit : isDecimalDigit c = false) :
    c ∉ toString64 n := by
  intro h
  rcases mem_toString64 h with h | h
  · exact hc h
  · rw [h] at hdigit
    exact absurd hdigit (by simp)

lemma plain_toString64 (n : Int64) : Plain (toString64 n) ∧ OneLine (toString64 n) := by
  refine ⟨plain_of_forall (fun c hc => ?_) (notMem_toString64 (by decide) (by decide)),
    fun c hc => ⟨?_, ?_, ?_⟩⟩
  · have hnot : ∀ d : UInt8, isTrimCharacter d = true → d ∉ toString64 n := by
      intro d hd
      simp only [isTrimCharacter, Bool.or_eq_true, decide_eq_true_eq] at hd
      rcases hd with ((rfl | rfl) | rfl) | rfl <;>
        exact notMem_toString64 (by decide) (by decide)
    exact Bool.eq_false_iff.mpr fun h => hnot c h hc
  · exact ne_of_mem_of_not_mem hc (notMem_toString64 (by decide) (by decide))
  · exact ne_of_mem_of_not_mem hc (notMem_toString64 (by decide) (by decide))
  · exact ne_of_mem_of_not_mem hc (notMem_toString64 (by decide) (by decide))

lemma plain_boolText (b : Bool) : Plain (boolText b) ∧ OneLine (boolText b) := by
  cases b <;> exact ⟨plain_of_forall (by decide) (by decide), by decide⟩

/-- The entries in front of the environment stand in lines of their own. -/
lemma itemValue_plain (hs : Dumpable s) (hl : Loaded s) {type : ConfigItemType}
    (hne : type ≠ .env) : Plain (s.itemValue type) ∧ OneLine (s.itemValue type) := by
  cases type with
  | cmd => exact ⟨hs.execCmd, hl.execCmd⟩
  | workPath => exact ⟨hs.workPath, hl.workPath⟩
  | logPath => exact ⟨hs.logFilePath, hl.logFilePath⟩
  | execType =>
    refine ⟨hs.sessionType, ?_⟩
    rw [itemValue]
    rcases hl.sessionType with h | h <;> rw [h] <;> decide
  | subType =>
    refine ⟨hs.subType, ?_⟩
    rw [itemValue]
    rcases hl.subType with h | h <;> rw [h] <;> decide
  | autoStart | autoRestart | saveLog => exact plain_boolText _
  | startDelaySec | restartIntervalSec | maxErrorRebootCnt | errorThreshold
  | logFileSizeLimitKb => exact plain_toString64 _
  | logToTerminal | statusPrintIntervalSec | logMaxFileCnts =>
    exact ⟨plain_of_forall (by simp [itemValue]) (by simp [itemValue]), oneLine_nil⟩
  | env => exact absurd rfl hne

lemma dumpItems_values (s : SessionConfig) :
    s.dumpItems.map (fun i => (ConfigItemString i.1, i.2.1)) ++
      [(ConfigItemString .env, envText s.envMap)] = s.entries dumpOrder := rfl

lemma mem_dumpItems {i : ConfigItemType × Bytes × Bytes} (hi : i ∈ s.dumpItems) :
    i.1 ≠ .env ∧ i.2.1 = s.itemValue i.1 ∧ OneLine i.2.2 := by
  simp only [dumpItems, List.mem_cons, List.not_mem_nil, or_false] at hi
  rcases hi with rfl | rfl | rfl | rfl | rfl | rfl | rfl | rfl | rfl | rfl | rfl | rfl | rfl <;>
    refine ⟨?_, rfl, ?_⟩ <;> dsimp only <;> decide

lemma entryKey_program : EntryKey (text "program") := by
  constructor <;> decide

/-- The comment at the beginning has two lines. -/
lemma reads_info_str (p : DaemonFileHelper) : Reads readLine p (commentLine info_str) p := by
  obtain ⟨first, second, htwo, hfirst, hsecond⟩ : ∃ first second, commentLine info_str =
      35 :: (first ++ [10]) ++ 35 :: (second ++ [10]) ∧ 10 ∉ first ∧ 10 ∉ second :=
    ⟨info_str.takeWhile (· ≠ 10), (info_str.dropWhile (· ≠ 10)).drop 2, by decide +kernel⟩
  rw [htwo]
  exact (reads_comment hfirst).append (reads_comment hsecond)

/-- The item behind the last entry. -/
lemma insertEntry_dumpItems (s : SessionConfig) :
    insertEntry (s.dumpItems.foldl (fun info i => insertEntry info (ConfigItemString i.1) i.2.1)
        ⟨text "program", s.configName, []⟩) (ConfigItemString .env) (envText s.envMap) =
      ⟨text "program", s.configName, s.entries keyOrder⟩ := by
  rw [foldl_insertEntry (fun i : ConfigItemType × Bytes × Bytes => ConfigItemString i.1)
    (fun i => i.2.1), ← foldl_entries, ← dumpItems_values, List.foldl_append, insertEntry,
    List.foldl_cons, List.foldl_nil]

/-- The parts of the file. -/
lemma dumpConfig_eq (hs : Dumpable s) (hl : Loaded s) {ws : List Bytes} {w : Bytes}
    (hws : s.dumpItems.mapM (fun i => appendKeyValueTofile (ConfigItemString i.1) i.2.1 i.2.2) =
      some ws)
    (hw : appendKeyValuelistTofile (ConfigItemString .env) (s.envMap.map fun i => i.1 ++ 61 :: i.2)
      (text "specify the environment") = some w) :
    s.dumpConfig = some (commentLine info_str ++
      91 :: (text "program" ++ 58 :: (s.configName ++ [93, 10])) ++ ws.flatten ++ w) := by
  have happend : appendItemTofile (text "program") s.configName info_str =
      some (commentLine info_str ++
        91 :: (text "program" ++ 58 :: (s.configName ++ [93, 10]))) := by
    rw [appendItemTofile, if_neg (by decide), if_neg hs.name_ne_nil,
      cString_eq_self hl.configName, cString_text entryKey_program.oneLine]
  simp only [dumpConfig, happend, hws, hw, Option.bind_eq_bind, Option.bind_some, Option.pure_def]

/-- **The reader goes through the file** and finds one item. -/
lemma parser_dumpConfig (hs : Dumpable s) (hl : Loaded s) : ∃ file, s.dumpConfig = some file ∧
    parser file = some [(text "program", ⟨text "program", s.configName, s.entries keyOrder⟩)] := by
  have hitem := reads_item entryKey_program (by decide)
    hs.name_ne_nil hl.configName hs.name.newline hs.name_notMem.2 hs.name.trimmed hs.name_size
  obtain ⟨ws, hws, hentries⟩ := reads_entries
    (p := ⟨[], ⟨text "program", s.configName, []⟩, []⟩) (fun i (hi : i ∈ s.dumpItems) => by
      obtain ⟨hne, hvalue, hcomment⟩ := mem_dumpItems hi
      obtain ⟨hplain, hline⟩ := itemValue_plain hs hl hne
      rw [hvalue]
      exact ⟨⟨hplain.trimmed, hline, hs.value_size i.1⟩, hplain.backslash, hcomment⟩) rfl
  obtain ⟨w, q, hw, henv, hfinish⟩ := reads_environment
    (p := ⟨[], s.dumpItems.foldl (fun info i => insertEntry info (ConfigItemString i.1) i.2.1)
      ⟨text "program", s.configName, []⟩, []⟩) (m := s.envMap)
    (entryKey_ConfigItemString .env) (hs.envEntry hl) (hs.value_size .env)
    (by decide : OneLine (text "specify the environment")) rfl
  refine ⟨_, dumpConfig_eq hs hl hws hw, ?_⟩
  have hall := ((reads_info_str _).append hitem).append hentries |>.append henv
  rw [parser, hall.run_eq, Option.bind_some, hfinish, insertEntry_dumpItems]
  have htrim : trim (text "program") = text "program" := entryKey_program.trimmed
  rw [flushItem, if_pos ⟨entryKey_program.ne_nil, by simp [entries, keyOrder]⟩, htrim]
  rfl

/-- The fields behind the last entry. -/
lemma foldl_copyItem (s t : SessionConfig) :
    keyOrder.foldl s.copyItem { t with configName := s.configName } =
      { s with env := envText s.envMap, envMap := readEnv s.envMap } := by
  simp only [keyOrder, List.foldl_cons, List.foldl_nil, copyItem]

/-- **What is read of the file that was written**: all fields, and the variables of the
environment that have a name and a value. -/
theorem loadConfig_dumpConfig (hs : Dumpable s) (hl : Loaded s) (t : SessionConfig) :
    s.dumpConfig.bind t.loadConfig =
      some { s with env := envText s.envMap, envMap := readEnv s.envMap } := by
  obtain ⟨file, hfile, hparser⟩ := parser_dumpConfig hs hl
  rw [hfile, Option.bind_some, loadConfig, hparser, Option.bind_some]
  have hfind : SortedMap.find (text "program")
      [(text "program", (⟨text "program", s.configName, s.entries keyOrder⟩ : DaemonConfigInfo))] =
      some ⟨text "program", s.configName, s.entries keyOrder⟩ := by
    simp [SortedMap.find]
  rw [hfind, Option.bind_some, if_neg hs.name_ne_nil, entries, run_setEntry hs hl, foldl_copyItem]

/-- Whatever the fields of a session are, they are those of the other one after its file was
loaded; `env` is the text that was loaded. -/
def Restored (s : SessionConfig) : Prop :=
  ∀ t : SessionConfig, ∃ t', s.dumpConfig.bind t.loadConfig = some t' ∧ { t' with env := s.env } = s

/-- **The round trip.** -/
theorem restored_iff (hs : Dumpable s) :
    Restored s ↔ Loaded s ∧ ∀ e ∈ s.envMap, e.1 ≠ [] ∧ e.2 ≠ [] := by
  constructor
  · intro h
    obtain ⟨t', hload, heq⟩ := h new
    obtain ⟨file, -, hfile⟩ := Option.bind_eq_some_iff.mp hload
    have hl : Loaded s := heq ▸ { loadConfig_loaded loaded_new hfile with }
    refine ⟨hl, ?_⟩
    rw [loadConfig_dumpConfig hs hl] at hload
    obtain rfl := Option.some.inj hload
    have henv : readEnv s.envMap = s.envMap := congrArg envMap heq
    rw [readEnv, List.filter_eq_self] at henv
    simpa using henv
  · rintro ⟨hl, henv⟩ t
    have hfilter : readEnv s.envMap = s.envMap := by
      rw [readEnv, List.filter_eq_self]
      simpa using henv
    exact ⟨_, loadConfig_dumpConfig hs hl t, by rw [hfilter]⟩

/-- The session of `generateTaskExampleConfig`, with the date of the build. -/
def taskExample (date : Bytes) : SessionConfig :=
  { new with envMap := [(text "aamDaemon", date), (text "aamDaemonDouble", date)] }

lemma dumpable_taskExample : Dumpable (taskExample (text "Jan  1 2024")) where
  name_ne_nil := by decide
  name_notMem := by decide
  name := plain_of_forall (by decide) (by decide)
  execCmd := plain_of_forall (by decide) (by decide)
  sessionType := plain_of_forall (by decide) (by decide)
  subType := plain_of_forall (by decide) (by decide)
  logFilePath := plain_of_forall (by decide) (by decide)
  workPath := plain_of_forall (by decide) (by decide)
  startDelaySec := by decide
  restartIntervalSec := by decide
  envSorted := by simp only [taskExample, SortedMap.Sorted]; decide
  envName := by decide
  envValue := by decide
  name_size := by decide
  value_size type := by cases type <;> decide
  env_size := by decide

theorem restored_taskExample : Restored (taskExample (text "Jan  1 2024")) :=
  (restored_iff dumpable_taskExample).mpr
    ⟨{ loaded_new with configName := by decide, envMap := by unfold EnvWord; decide }, by decide⟩

/-- A session with a variable that is set to nothing. -/
def emptyVariable : SessionConfig := { new with envMap := [(text "DISPLAY", [])] }

lemma dumpable_emptyVariable : Dumpable emptyVariable :=
  { dumpable_taskExample with
    envSorted := by simp [emptyVariable, SortedMap.Sorted]
    envName := by decide
    envValue := by decide
    value_size := fun type => by cases type <;> decide
    env_size := by decide }

/-- The variable is lost. -/
theorem emptyVariable_lost : Dumpable emptyVariable ∧ ¬ Restored emptyVariable := by
  refine ⟨dumpable_emptyVariable, fun h => ?_⟩
  obtain ⟨t', hload, heq⟩ := h new
  have hloaded : Loaded emptyVariable :=
    { loaded_new with configName := by decide, envMap := by unfold EnvWord; decide }
  rw [loadConfig_dumpConfig dumpable_emptyVariable hloaded] at hload
  obtain rfl := Option.some.inj hload
  have henv : readEnv emptyVariable.envMap = emptyVariable.envMap := congrArg envMap heq
  exact absurd henv (by decide)

end SessionConfig

end SignalEventLoop.Daemon
