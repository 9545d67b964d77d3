/-
# The output of a child

`DaemonWorker::handleStdoutRedirectTask` (`sub_project/daemon-service/src/daemon-instance.cpp`)
reads what a child has written, as long as there is something.  `handleStdoutMessage` delivers the
lines and keeps the last one, when it has no end yet, for the next read.  But behind every batch
of reads `flushStdoutMessage` delivers what was kept, so that a line is cut where a batch ends.
-/
import SignalEventLoop.Lib.Lines

namespace SignalEventLoop.Daemon

open Lib

namespace ChildOutput

/-! ## Model -/

structure MonitorHandle where
  snapshotInfo : Bytes
  snapshotCache : Bytes
  data_cache : Bytes
deriving DecidableEq

/-- `DaemonSession`, and what was delivered: to `updateSnapShotInfo`, with `AIMY_DEBUG`, and to the
logger of the session. -/
structure MonitoredSession where
  /-- `subType==DAEMON_SUB_TYPE_2` -/
  subType2 : Bool
  loggerHandle : Bool
  monitorHandle : MonitorHandle
  updates : List Bytes
  debugged : List Bytes
  logged : List Bytes
deriving DecidableEq

/-- The characters `#` at the beginning. -/
def countHashes (data : Bytes) : ℕ := (data.takeWhile (· = 35)).length

def isSnapShotBegin (data : Bytes) : Bool :=
  !(data.length < 8 || data.head? ≠ some 35) && countHashes data = 8

def isSnapShotEnd (data : Bytes) : Bool :=
  !(data.length < 10 || data.head? ≠ some 35) && countHashes data = 10

/-- `MonitorHandle::updateSnapShotInfo`, with the text of `AimyLogger::get_local_time`. -/
def MonitorHandle.updateSnapShotInfo (m : MonitorHandle) (local_time data : Bytes) :
    MonitorHandle :=
  if m.snapshotCache = [] then
    if isSnapShotBegin data then { m with snapshotCache := local_time ++ [10] } else m
  else if isSnapShotEnd data then { m with snapshotInfo := m.snapshotCache, snapshotCache := [] }
  else { m with snapshotCache := m.snapshotCache ++ (data ++ [10]) }

/-- The loop over `data_cache`, inside of a line that begins with `line`: the messages, and the
rest behind the last line end. -/
def messageLoop : Bytes → Bytes → List Bytes × Bytes
  | line, [] => ([], line)
  | line, c :: data =>
    if c = 10 then
      let (messages, rest) := messageLoop [] data
      (if line ≠ [] then line :: messages else messages, rest)
    else messageLoop (line ++ [c]) data

section

-- the time at the n-th call of `updateSnapShotInfo`
variable (clock : ℕ → Bytes)

namespace MonitoredSession

/-- What is done with a message; `%s` prints it up to a NUL. -/
def deliver (s : MonitoredSession) (message : Bytes) : MonitoredSession :=
  { s with
    monitorHandle := if s.subType2 then
        s.monitorHandle.updateSnapShotInfo (clock s.updates.length) message
      else s.monitorHandle
    updates := if s.subType2 then s.updates ++ [message] else s.updates
    debugged := s.debugged ++ [cString message]
    logged := if s.loggerHandle then s.logged ++ [cString message] else s.logged }

def setCache (s : MonitoredSession) (data_cache : Bytes) : MonitoredSession :=
  { s with monitorHandle := { s.monitorHandle with data_cache := data_cache } }

def handleStdoutMessage (s : MonitoredSession) (buf : Bytes) : MonitoredSession :=
  let (messages, rest) := messageLoop [] (s.monitorHandle.data_cache ++ buf)
  let s := messages.foldl (deliver clock) s
  -- the rest is taken as a C string
  if rest.length > 2048 then (s.deliver clock (cString rest)).setCache []
  else s.setCache rest

def flushStdoutMessage (s : MonitoredSession) : MonitoredSession :=
  if s.monitorHandle.data_cache ≠ [] then
    (s.deliver clock s.monitorHandle.data_cache).setCache []
  else s

/-- A batch of reads. -/
def handleStdoutRedirectTask (s : MonitoredSession) (reads : List Bytes) : MonitoredSession :=
  (reads.foldl (handleStdoutMessage clock) s).flushStdoutMessage clock

end MonitoredSession

/-- A session with a logger, of the kind that has snapshots. -/
def monitored : MonitoredSession := ⟨true, true, ⟨[], [], []⟩, [], [], []⟩

/-- The session behind all batches. -/
def childOutput (batches : List (List Bytes)) : MonitoredSession :=
  batches.foldl (MonitoredSession.handleStdoutRedirectTask clock) monitored

end

/-! ## One read -/

variable {clock : ℕ → Bytes} {s : MonitoredSession} {line : Bytes}

/-- A text that ends at the end of a line. -/
def WholeLines (pre : Bytes) : Prop :=
  ∀ b, textLines (pre ++ b) = textLines pre ++ textLines b

lemma wholeLines_nil : WholeLines [] := fun b => by simp

lemma WholeLines.append {pre pre' : Bytes} (h : WholeLines pre) (h' : WholeLines pre') :
    WholeLines (pre ++ pre') := by
  intro b
  rw [List.append_assoc, h, h', h, List.append_assoc]

/-- The messages are the lines up to the last line end. -/
lemma messageLoop_spec (data : Bytes) (hline : 10 ∉ line) :
    ∃ pre rest, line ++ data = pre ++ rest ∧ 10 ∉ rest ∧ WholeLines pre ∧
      messageLoop line data = (textLines pre, rest) := by
  induction data generalizing line with
  | nil => exact ⟨[], line, by simp, hline, wholeLines_nil, by rw [messageLoop, textLines_nil]⟩
  | cons c data ih =>
    rw [messageLoop]
    split_ifs with hc hnil
    · obtain ⟨pre, rest, hdata, hrest, hpre, hloop⟩ := ih List.not_mem_nil
      rw [List.nil_append] at hdata
      refine ⟨line ++ 10 :: pre, rest, by rw [hc, hdata]; simp, hrest, fun b => ?_, ?_⟩
      · rw [List.append_assoc, List.cons_append, textLines_append_cons, hpre,
          textLines_append_cons, List.append_assoc]
      · rw [hloop, textLines_append_cons, textLines_of_notMem hline hnil]
        rfl
    · obtain ⟨pre, rest, hdata, hrest, hpre, hloop⟩ := ih List.not_mem_nil
      rw [List.nil_append] at hdata
      refine ⟨line ++ 10 :: pre, rest, by rw [hc, hdata]; simp, hrest, fun b => ?_, ?_⟩
      · rw [List.append_assoc, List.cons_append, textLines_append_cons, hpre,
          textLines_append_cons, List.append_assoc]
      · rw [hloop, not_not.mp hnil, List.nil_append, textLines_cons]
    · obtain ⟨pre, rest, hdata, hrest, hpre, hloop⟩ :=
        ih (show 10 ∉ line ++ [c] by simp [hline, Ne.symm hc])
      exact ⟨pre, rest, by rw [← hdata]; simp, hrest, hpre, hloop⟩

namespace MonitoredSession

@[simp] lemma setCache_setCache (s : MonitoredSession) (c c' : Bytes) :
    (s.setCache c).setCache c' = s.setCache c' := rfl

@[simp] lemma data_cache_setCache (s : MonitoredSession) (c : Bytes) :
    (s.setCache c).monitorHandle.data_cache = c := rfl

/-- The cache has no part in what is done with a message. -/
lemma deliver_setCache (s : MonitoredSession) (c message : Bytes) :
    (s.setCache c).deliver clock message = (s.deliver clock message).setCache c := by
  have hupdate : ∀ m : MonitorHandle, ∀ time : Bytes,
      ({ m with data_cache := c } : MonitorHandle).updateSnapShotInfo time message =
        { m.updateSnapShotInfo time message with data_cache := c } := by
    intro m time
    simp only [MonitorHandle.updateSnapShotInfo]
    split_ifs <;> rfl
  cases hsub : s.subType2 <;> simp [deliver, setCache, hupdate, hsub]

lemma foldl_deliver_setCache (s : MonitoredSession) (c : Bytes) (messages : List Bytes) :
    messages.foldl (deliver clock) (s.setCache c) =
      (messages.foldl (deliver clock) s).setCache c := by
  induction messages generalizing s with
  | nil => rfl
  | cons message messages ih => rw [List.foldl_cons, List.foldl_cons, deliver_setCache, ih]

/-- The reads of a batch, up to the last line end. -/
lemma foldl_handleStdoutMessage (clock : ℕ → Bytes) (reads : List Bytes)
    (hs : 10 ∉ s.monitorHandle.data_cache)
    (hshort : ∀ l ∈ textLines (s.monitorHandle.data_cache ++ reads.flatten), l.length ≤ 2048) :
    ∃ pre rest, s.monitorHandle.data_cache ++ reads.flatten = pre ++ rest ∧ 10 ∉ rest ∧
      WholeLines pre ∧ reads.foldl (handleStdoutMessage clock) s =
        ((textLines pre).foldl (deliver clock) s).setCache rest := by
  induction reads generalizing s with
  | nil =>
    refine ⟨[], s.monitorHandle.data_cache, by simp, hs, wholeLines_nil, ?_⟩
    rw [textLines_nil]
    rfl
  | cons buf reads ih =>
    obtain ⟨pre, rest, hdata, hrest, hpre, hloop⟩ :=
      messageLoop_spec (s.monitorHandle.data_cache ++ buf) List.not_mem_nil
    rw [List.nil_append] at hdata
    rw [List.flatten_cons, ← List.append_assoc, hdata, List.append_assoc] at hshort ⊢
    have hshort' := (textLines_append_le hshort).2
    have hlen : ¬ rest.length > 2048 := by
      have hline := (textLines_append_le hshort').1
      by_cases hnil : rest = []
      · simp [hnil]
      · rw [textLines_of_notMem hrest hnil, List.forall_mem_singleton] at hline
        omega
    have hstep : s.handleStdoutMessage clock buf =
        ((textLines pre).foldl (deliver clock) s).setCache rest := by
      rw [handleStdoutMessage, hloop]
      exact if_neg hlen
    obtain ⟨pre', rest', hdata', hrest', hpre', hrun⟩ :=
      ih (s := ((textLines pre).foldl (deliver clock) s).setCache rest) hrest hshort'
    refine ⟨pre ++ pre', rest', by rw [List.append_assoc, ← hdata']; rfl, hrest',
      hpre.append hpre', ?_⟩
    rw [List.foldl_cons, hstep, hrun, foldl_deliver_setCache, setCache_setCache, hpre,
      List.foldl_append]

/-- A batch delivers its lines, the last one also when it has no end. -/
lemma handleStdoutRedirectTask_eq (reads : List Bytes) (hs : s.monitorHandle.data_cache = [])
    (hshort : ∀ l ∈ textLines reads.flatten, l.length ≤ 2048) :
    s.handleStdoutRedirectTask clock reads =
      ((textLines reads.flatten).foldl (deliver clock) s).setCache [] := by
  have hcache : s.monitorHandle.data_cache ++ reads.flatten = reads.flatten := by rw [hs]; rfl
  obtain ⟨pre, rest, hdata, hrest, hpre, hrun⟩ := foldl_handleStdoutMessage clock reads
    (by rw [hs]; exact List.not_mem_nil) (by rwa [hcache])
  rw [hcache] at hdata
  rw [handleStdoutRedirectTask, hrun, flushStdoutMessage, data_cache_setCache, hdata, hpre]
  split_ifs with hnil
  · rw [textLines_of_notMem hrest hnil, List.foldl_append, deliver_setCache, setCache_setCache]
    rfl
  · rw [not_not.mp hnil, textLines_nil, List.append_nil]

end MonitoredSession

/-! ## All batches -/

open MonitoredSession

/-- The pieces of the stream that the batches have read. -/
def contents (batches : List (List Bytes)) : List Bytes := batches.map List.flatten

lemma foldl_handleStdoutRedirectTask (batches : List (List Bytes))
    (hs : s.monitorHandle.data_cache = [])
    (hshort : ∀ l ∈ textLines (contents batches).flatten, l.length ≤ 2048) :
    batches.foldl (handleStdoutRedirectTask clock) s =
      (((contents batches).flatMap textLines).foldl (deliver clock) s).setCache [] := by
  induction batches generalizing s with
  | nil =>
    rw [← hs]
    rfl
  | cons reads batches ih =>
    rw [contents, List.map_cons, List.flatten_cons] at hshort
    obtain ⟨hreads, hrest⟩ := textLines_append_le hshort
    rw [List.foldl_cons, handleStdoutRedirectTask_eq reads hs hreads,
      ih (data_cache_setCache _ _) hrest, contents, contents, List.map_cons, List.flatMap_cons,
      List.foldl_append, foldl_deliver_setCache, setCache_setCache]

/-- **What is delivered**: the lines of every batch. -/
lemma childOutput_eq (batches : List (List Bytes))
    (hshort : ∀ l ∈ textLines (contents batches).flatten, l.length ≤ 2048) :
    childOutput clock batches =
      (((contents batches).flatMap textLines).foldl (deliver clock) monitored).setCache [] :=
  foldl_handleStdoutRedirectTask batches rfl hshort

lemma foldl_deliver (clock : ℕ → Bytes) (messages : List Bytes) (hsub : s.subType2 = true)
    (hlogger : s.loggerHandle = true) :
    (messages.foldl (deliver clock) s).updates = s.updates ++ messages ∧
      (messages.foldl (deliver clock) s).debugged = s.debugged ++ messages.map cString ∧
      (messages.foldl (deliver clock) s).logged = s.logged ++ messages.map cString := by
  induction messages generalizing s with
  | nil => simp
  | cons message messages ih =>
    obtain ⟨hupdates, hdebugged, hlogged⟩ := ih (s := s.deliver clock message) hsub hlogger
    rw [List.foldl_cons, hupdates, hdebugged, hlogged]
    simp [deliver, hsub, hlogger]

/-- Both sessions got the lines of the stream, and have the same snapshot. -/
structure SameLines (stream : Bytes) (s s' : MonitoredSession) : Prop where
  updates : s.updates = textLines stream ∧ s'.updates = textLines stream
  debugged : s.debugged = textLines stream ∧ s'.debugged = textLines stream
  logged : s.logged = textLines stream ∧ s'.logged = textLines stream
  snapshotInfo : s.monitorHandle.snapshotInfo = s'.monitorHandle.snapshotInfo

lemma map_cString_eq_self {ls : List Bytes} : ls.map cString = ls ↔ ∀ l ∈ ls, 0 ∉ l := by
  have hmap : ls.map cString = ls.map id ↔ ∀ l ∈ ls, cString l = id l := List.map_inj_left
  rw [List.map_id] at hmap
  rw [hmap]
  refine forall₂_congr fun l _ => ?_
  constructor
  · intro h hzero
    rw [← show cString l = l from h] at hzero
    exact ne_zero_of_mem_cString hzero rfl
  · intro h
    exact cString_eq_self fun c hc => ne_of_mem_of_not_mem hc h

/-- **The lines of a child**: two ways of cutting the stream into batches and reads deliver the
same messages, the lines of the stream that are not empty, when no batch ends inside of a line and
no line has a NUL, and only then. -/
theorem childOutput_lines_iff (clock : ℕ → Bytes) (stream : Bytes)
    (batches batches' : List (List Bytes)) (hstream : (contents batches).flatten = stream)
    (hstream' : (contents batches').flatten = stream)
    (hshort : ∀ l ∈ textLines stream, l.length ≤ 2048) :
    SameLines stream (childOutput clock batches) (childOutput clock batches') ↔
      BetweenLines (contents batches) ∧ BetweenLines (contents batches') ∧
        ∀ l ∈ textLines stream, 0 ∉ l := by
  rw [childOutput_eq batches (by rwa [hstream]), childOutput_eq batches' (by rwa [hstream']),
    ← flatMap_textLines_iff, ← flatMap_textLines_iff, hstream, hstream', ← map_cString_eq_self]
  set messages := (contents batches).flatMap textLines
  set messages' := (contents batches').flatMap textLines
  obtain ⟨hupdates, hdebugged, hlogged⟩ :=
    foldl_deliver clock (s := monitored) messages rfl rfl
  obtain ⟨hupdates', hdebugged', hlogged'⟩ :=
    foldl_deliver clock (s := monitored) messages' rfl rfl
  constructor
  · rintro ⟨⟨h, h'⟩, ⟨hnul, -⟩, -, -⟩
    have hlines : messages = textLines stream := hupdates.symm.trans h
    have hlines' : messages' = textLines stream := hupdates'.symm.trans h'
    have hmap : messages.map cString = textLines stream := hdebugged.symm.trans hnul
    rw [hlines] at hmap
    exact ⟨hlines, hlines', hmap⟩
  · rintro ⟨h, h', hnul⟩
    rw [h] at hupdates hdebugged hlogged ⊢
    rw [h'] at hupdates' hdebugged' hlogged' ⊢
    rw [hnul] at hdebugged hlogged hdebugged' hlogged'
    exact ⟨⟨hupdates, hupdates'⟩, ⟨hdebugged, hdebugged'⟩, ⟨hlogged, hlogged'⟩, rfl⟩

/-- Snapshots whose last line is cut, by two reads of one batch and by two batches. -/
def exampleReads : List Bytes := [text "########\na\n####", text "######\n"]

theorem childOutput_lines_iff_exampleReads :
    SameLines (text "########\na\n##########\n") (childOutput decimal [exampleReads])
        (childOutput decimal [[text "########\n"], [text "a\n##########\n"]]) ↔
      BetweenLines (contents [exampleReads]) ∧
        BetweenLines (contents [[text "########\n"], [text "a\n##########\n"]]) ∧
          ∀ l ∈ textLines (text "########\na\n##########\n"), 0 ∉ l :=
  childOutput_lines_iff decimal _ [exampleReads] _ (by decide) (by decide) (by decide)

/-- When a batch ends inside of the last line, there is no snapshot. -/
theorem childOutput_cut :
    ¬ SameLines (text "########\na\n##########\n") (childOutput decimal [exampleReads])
      (childOutput decimal (exampleReads.map fun read => [read])) := by
  intro h
  exact absurd h.snapshotInfo (by decide)

end ChildOutput

end SignalEventLoop.Daemon
