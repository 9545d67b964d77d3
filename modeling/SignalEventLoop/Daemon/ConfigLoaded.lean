/-
# What `loadConfig` can give a session

Whatever the file is, the texts that are read from it are words of `sscanf`: they have no NUL, and
the values no line end.  The names and the values of the environment have no blanks at their ends,
and the types are known ones.  `Loaded` says so for the fields of a session, and it holds as soon as
the session comes from the constructor and `loadConfig`.
-/
import SignalEventLoop.Daemon.SessionConfig

namespace SignalEventLoop.Daemon

open Lib
open scoped ByteOrder Bytes

/-- A text that `%[^\r\n]` reads to its end. -/
def OneLine (w : Bytes) : Prop := ∀ c ∈ w, c ≠ 0 ∧ c ≠ 13 ∧ c ≠ 10

instance (w : Bytes) : Decidable (OneLine w) := inferInstanceAs (Decidable (∀ c ∈ w, _))

lemma oneLine_nil : OneLine [] := fun _ hc => absurd hc List.not_mem_nil

lemma OneLine.trim {w : Bytes} (hw : OneLine w) : OneLine (DaemonFileHelper.trim w) :=
  fun c hc => hw c (mem_of_mem_trimEnds hc)

namespace DaemonFileHelper

variable {separator : UInt8} {stops first second s data src : Bytes} {size₁ size₂ : ℕ}
  {info info' : DaemonConfigInfo}

@[simp] lemma trim_trim (s : Bytes) : trim (trim s) = trim s := trimEnds_trimEnds s

/-- When a `sscanf` reads both words. -/
lemma scanTwo_eq_some (h : scanTwo separator stops size₁ size₂ s = some (some (first, second))) :
    ∃ rest rest', scanUntil [separator] (cString s) = some (first, rest) ∧
      first.length < size₁ ∧ scanUntil stops (rest.drop 1) = some (second, rest') ∧
      second.length < size₂ := by
  rw [scanTwo] at h
  split at h
  · exact absurd h (by simp)
  · rename_i w rest hfirst
    split_ifs at h with hsize₁
    split at h
    · exact absurd h (by simp)
    · rename_i v rest' hsecond
      split_ifs at h with hsize₂
      obtain ⟨rfl, rfl⟩ := Prod.mk.inj (Option.some.inj (Option.some.inj h))
      exact ⟨rest, rest', hfirst, not_le.mp hsize₁, hsecond, not_le.mp hsize₂⟩

/-- The words of a `sscanf`. -/
lemma mem_of_scanTwo (h : scanTwo separator stops size₁ size₂ s = some (some (first, second))) :
    (∀ c ∈ first, c ∈ s ∧ c ≠ 0) ∧ ∀ c ∈ second, c ∈ s ∧ c ≠ 0 ∧ c ∉ stops := by
  have hseen : ∀ c ∈ cString s, c ∈ s ∧ c ≠ 0 := fun c hc =>
    ⟨(List.takeWhile_sublist _).subset hc, ne_zero_of_mem_cString hc⟩
  obtain ⟨rest, rest', hfirst, -, hsecond, -⟩ := scanTwo_eq_some h
  obtain ⟨-, -, hw⟩ := scanUntil_eq_some hfirst
  obtain ⟨-, hstops, hv⟩ := scanUntil_eq_some hsecond
  refine ⟨fun c hc => hseen c (hw ▸ List.mem_append_left _ hc), fun c hc => ?_⟩
  have hmem : c ∈ rest.drop 1 := hv ▸ List.mem_append_left _ hc
  obtain ⟨hs, hzero⟩ := hseen c (hw ▸ List.mem_append_right _ (List.mem_of_mem_drop hmem))
  exact ⟨hs, hzero, hstops c hc⟩

lemma oneLine_of_scanTwo
    (h : scanTwo separator [13, 10] size₁ size₂ s = some (some (first, second))) :
    OneLine second := by
  intro c hc
  obtain ⟨-, hzero, hstops⟩ := (mem_of_scanTwo h).2 c hc
  simp only [List.mem_cons, List.not_mem_nil, or_false, not_or] at hstops
  exact ⟨hzero, hstops⟩

lemma oneLine_of_scanKeyValue (h : scanKeyValue s = some (some (first, second))) :
    OneLine second := by
  rw [scanKeyValue, Option.bind_eq_some_iff] at h
  obtain ⟨pair, hpair, h⟩ := h
  cases pair with
  | none => exact oneLine_of_scanTwo h
  | some pair =>
    obtain rfl := Option.some.inj (Option.some.inj h)
    exact oneLine_of_scanTwo hpair

/-! ## The items -/

/-- The texts of an item. -/
def ReadItem (info : DaemonConfigInfo) : Prop :=
  (∀ c ∈ info.description, c ≠ 0) ∧ ∀ e ∈ info.configMap, OneLine e.2

lemma ReadItem.insertEntry (hinfo : ReadItem info) (key : Bytes) {value : Bytes}
    (hvalue : OneLine value) : ReadItem (insertEntry info key value) := by
  refine ⟨hinfo.1, fun e he => ?_⟩
  rcases SortedMap.mem_of_mem_emplace he with he | rfl
  · exact hinfo.2 e he
  · exact hvalue

lemma handleCache_readItem {data_cache data_cache' : Bytes} (hinfo : ReadItem info)
    (h : handleCache data_cache info = some (data_cache', info')) : ReadItem info' := by
  rw [handleCache] at h
  by_cases hlen : data_cache.length ≥ 2
  · rw [if_pos hlen] at h
    obtain ⟨pair, hpair, h⟩ := Option.map_eq_some_iff.mp h
    cases pair with
    | some pair =>
      obtain ⟨-, rfl⟩ := Prod.mk.inj h
      exact hinfo.insertEntry _ (oneLine_of_scanKeyValue hpair).trim
    | none =>
      simp only at h
      split_ifs at h
      · obtain ⟨-, rfl⟩ := Prod.mk.inj h
        exact hinfo.insertEntry _ oneLine_nil
      · obtain ⟨-, rfl⟩ := Prod.mk.inj h
        exact hinfo
  · rw [if_neg hlen] at h
    obtain ⟨-, rfl⟩ := Prod.mk.inj (Option.some.inj h)
    exact hinfo

lemma scanItem_readItem (hinfo : ReadItem info) (h : scanItem data info = some info') :
    ReadItem info' := by
  rw [scanItem] at h
  split_ifs at h
  · obtain rfl := Option.some.inj h
    exact hinfo
  · obtain ⟨pair, hpair, rfl⟩ := Option.map_eq_some_iff.mp h
    cases pair with
    | none => exact ⟨hinfo.1, hinfo.2⟩
    | some pair =>
      exact ⟨fun c hc => ((mem_of_scanTwo hpair).2 c (mem_of_mem_trimEnds hc)).2.1, hinfo.2⟩

/-- All texts that were read up to now. -/
def ReadTexts (p : DaemonFileHelper) : Prop := ReadItem p.info ∧ ∀ e ∈ p.itemMap, ReadItem e.2

lemma flushItem_readTexts (data_cache : Bytes) {itemMap : List (Bytes × DaemonConfigInfo)}
    (hinfo : ReadItem info) (hitems : ∀ e ∈ itemMap, ReadItem e.2) :
    ReadTexts ⟨data_cache, (flushItem info itemMap).1, (flushItem info itemMap).2⟩ := by
  rw [flushItem]
  split_ifs
  · refine ⟨⟨by simp, by simp⟩, fun e he => ?_⟩
    rcases SortedMap.mem_of_mem_emplace he with he | rfl
    · exact hitems e he
    · exact hinfo
  · exact ⟨hinfo, hitems⟩

lemma readLine_readTexts (p : DaemonFileHelper) (line : Bytes) (p' : DaemonFileHelper)
    (hp : ReadTexts p) (h : readLine p line = some p') : ReadTexts p' := by
  simp only [readLine] at h
  split_ifs at h
  · obtain rfl := Option.some.inj h
    exact hp
  · obtain ⟨⟨data_cache, info⟩, hcache, h⟩ := Option.bind_eq_some_iff.mp h
    obtain ⟨info', hitem, rfl⟩ := Option.map_eq_some_iff.mp h
    have hflush := flushItem_readTexts data_cache
      (handleCache_readItem hp.1 hcache) hp.2
    exact ⟨scanItem_readItem hflush.1 hitem, hflush.2⟩
  · obtain rfl := Option.some.inj h
    exact hp
  · obtain ⟨⟨data_cache, info⟩, hcache, rfl⟩ := Option.map_eq_some_iff.mp h
    exact ⟨handleCache_readItem hp.1 hcache, hp.2⟩

/-- The texts of a file that was read. -/
theorem parser_readItem {file : Bytes} {itemMap : List (Bytes × DaemonConfigInfo)}
    (h : parser file = some itemMap) : ∀ e ∈ itemMap, ReadItem e.2 := by
  obtain ⟨p, hrun, hfinish⟩ := Option.bind_eq_some_iff.mp h
  have hp : ReadTexts p := run_inv readLine_readTexts
    (show ReadTexts ⟨[], ⟨[], [], []⟩, []⟩ from ⟨⟨by simp, by simp⟩, by simp⟩) hrun
  obtain ⟨⟨data_cache, info⟩, hcache, rfl⟩ := Option.map_eq_some_iff.mp hfinish
  exact (flushItem_readTexts data_cache (handleCache_readItem hp.1 hcache) hp.2).2

/-! ## The environment -/

/-- A word of the environment. -/
def EnvWord (w : Bytes) : Prop := OneLine w ∧ DaemonFileHelper.trim w = w

lemma splitEnvLoop_envWord {cache : List Bytes} {ret envMap : StringMap}
    (hcache : ∀ i ∈ cache, OneLine i) (hret : ∀ e ∈ ret, EnvWord e.1 ∧ EnvWord e.2)
    (h : splitEnvLoop cache ret = some envMap) : ∀ e ∈ envMap, EnvWord e.1 ∧ EnvWord e.2 := by
  induction cache generalizing ret with
  | nil =>
    obtain rfl := Option.some.inj h
    exact hret
  | cons i cache ih =>
    have hcache' := fun j hj => hcache j (List.mem_cons_of_mem i hj)
    rw [splitEnvLoop] at h
    split_ifs at h
    · exact ih hcache' hret h
    · obtain ⟨pair, hpair, h⟩ := Option.bind_eq_some_iff.mp h
      cases pair with
      | none => exact ih hcache' hret h
      | some pair =>
        obtain ⟨key, value⟩ := pair
        refine ih hcache' (fun e he => ?_) h
        rcases SortedMap.mem_of_mem_emplace he with he | rfl
        · exact hret e he
        · have hi := hcache i List.mem_cons_self
          have hkey : OneLine key := fun c hc => hi c ((mem_of_scanTwo hpair).1 c hc).1
          exact ⟨⟨hkey.trim, trim_trim key⟩,
            ⟨(oneLine_of_scanTwo hpair).trim, trim_trim value⟩⟩

lemma splitEnvInput_envWord {envMap : StringMap} {split_char : UInt8} (hsrc : OneLine src)
    (h : splitEnvInput src split_char = some envMap) :
    ∀ e ∈ envMap, EnvWord e.1 ∧ EnvWord e.2 := by
  exact splitEnvLoop_envWord (fun i hi c hc => hsrc c (mem_of_mem_splitOn hi hc)) (by simp) h

end DaemonFileHelper

namespace SessionConfig

open DaemonFileHelper

/-! ## The fields of a session -/

/-- What the constructor and `loadConfig` give a session. -/
structure Loaded (t : SessionConfig) : Prop where
  configName : ∀ c ∈ t.configName, c ≠ 0
  execCmd : OneLine t.execCmd
  logFilePath : OneLine t.logFilePath
  workPath : OneLine t.workPath
  sessionType : t.sessionType = DAEMON_PROCESS_TYPE ∨ t.sessionType = DAEMON_SHELL_TYPE
  subType : t.subType = DAEMON_SUB_TYPE_1 ∨ t.subType = DAEMON_SUB_TYPE_2
  envMap : ∀ e ∈ t.envMap, EnvWord e.1 ∧ EnvWord e.2

variable {t t' : SessionConfig} {value file : Bytes} {type : ConfigItemType}

lemma loaded_new : Loaded new where
  configName := by decide
  execCmd := oneLine_nil
  logFilePath := oneLine_nil
  workPath := oneLine_nil
  sessionType := Or.inl rfl
  subType := Or.inl rfl
  envMap := by simp [new]

/-- An unknown value of a type is replaced. -/
lemma known_or_default {a b : Bytes} :
    (if value ≠ a ∧ value ≠ b then a else value) = a ∨
      (if value ≠ a ∧ value ≠ b then a else value) = b := by
  by_cases ha : value = a
  · simp [ha]
  · by_cases hb : value = b <;> simp [ha, hb]

lemma setItem_loaded (ht : Loaded t) (hvalue : OneLine value)
    (h : t.setItem value type = some t') : Loaded t' := by
  cases type with
  | cmd =>
    obtain rfl := Option.some.inj h
    exact { ht with execCmd := hvalue }
  | workPath =>
    obtain rfl := Option.some.inj h
    exact { ht with workPath := hvalue }
  | logPath =>
    obtain rfl := Option.some.inj h
    exact { ht with logFilePath := hvalue }
  | execType =>
    obtain rfl := Option.some.inj h
    exact { ht with sessionType := known_or_default }
  | subType =>
    obtain rfl := Option.some.inj h
    exact { ht with subType := known_or_default }
  | env =>
    obtain ⟨envMap, henv, rfl⟩ := Option.map_eq_some_iff.mp h
    exact { ht with envMap := splitEnvInput_envWord hvalue henv }
  | logToTerminal | statusPrintIntervalSec | logMaxFileCnts =>
    obtain rfl := Option.some.inj h
    exact ht
  | autoStart | autoRestart | saveLog | startDelaySec | restartIntervalSec | maxErrorRebootCnt
  | errorThreshold | logFileSizeLimitKb =>
    -- the texts stay as they are
    obtain ⟨_, -, rfl⟩ := Option.map_eq_some_iff.mp h
    exact { ht with }

lemma setEntry_loaded (t : SessionConfig) (i : Bytes × Bytes) (t' : SessionConfig)
    (hi : OneLine i.2) (ht : Loaded t) (h : t.setEntry i = some t') : Loaded t' := by
  rw [setEntry] at h
  split at h
  · exact setItem_loaded ht hi h
  · obtain rfl := Option.some.inj h
    exact ht

/-- **What a session can be behind `loadConfig`.** -/
theorem loadConfig_loaded (ht : Loaded t) (h : t.loadConfig file = some t') : Loaded t' := by
  obtain ⟨itemMap, hparser, h⟩ := Option.bind_eq_some_iff.mp h
  obtain ⟨info, hfind, h⟩ := Option.bind_eq_some_iff.mp h
  obtain ⟨e, he, rfl⟩ := Option.map_eq_some_iff.mp hfind
  have hinfo := parser_readItem hparser e (List.mem_of_find?_eq_some he)
  split_ifs at h
  have hname : Loaded { t with configName := e.2.description } := { ht with configName := hinfo.1 }
  exact run_inv_of_allSteps (fun t i t' ht hi h => setEntry_loaded t i t' hi ht h) hname
    (allSteps_of_forall _ hinfo.2) h

end SessionConfig

end SignalEventLoop.Daemon
