/-
# The logger and its thread

A call of `log` (`log/aimy-log.cpp`) puts its text into `m_log_buf`, and the thread of the logger
takes the texts out again and writes them into the log file.  Both do so under `m_mutex`: every
other thread waits while the thread of the logger is between two calls of `wait_for`, but
`m_stop`, `m_registered` and `m_level` can change at any time.  So a state has, for every thread,
the place where it is, and an action is one step of one thread.

The disk takes what is written, and no other program changes the log files.
-/
import SignalEventLoop.Log.RenameFile

namespace SignalEventLoop.Log

open Lib

/-- The thread of the logger in `run`. -/
inductive WriterPc
  /-- it has not got the lock -/
  | created
  /-- before the first test of `m_stop` -/
  | entered
  /-- before another test of `m_stop` -/
  | again
  /-- `m_stop` was not set -/
  | body
  /-- in `wait_for`, without the lock -/
  | waiting
  /-- in the inner loop, with a text in the queue -/
  | writing
  | exited
  /-- `fileno` got a null pointer -/
  | crashed
deriving DecidableEq

/-- The thread that calls `register_handle` and `unregister_handle`. -/
inductive ControlPc
  | idle
  /-- `m_registered` is set -/
  | registering
  /-- `m_stop` is reset -/
  | creating
  /-- `m_stop` is set -/
  | stopping
  /-- the thread of the logger was notified -/
  | joining
  /-- `m_thread` is reset -/
  | joined
deriving DecidableEq

/-- A thread that calls `log`. -/
inductive CallPc
  | idle
  /-- the level is high enough -/
  | formatting (text : Bytes)
  /-- the logger was registered -/
  | pushing (text : Bytes)
deriving DecidableEq

structure AimyLogger where
  m_registered : Bool := false
  m_stop : Bool := false
  /-- `none` when `m_thread` is null -/
  m_thread : Option WriterPc := none
  /-- whether the log file is open -/
  m_fp : Bool := false
  m_save_path : Bytes := [46, 47]
  m_pro_name : Bytes := []
  m_env_set : Bool := false
  m_level : ℤ := 0
  m_clear_flag : Bool := false
  m_max_file_size : ℤ := 32 * 1024
  m_write_error_cnt : ℕ := 0
  m_log_file_cache_max_cnts : ℕ := 20
  m_log_buf : List Bytes := []

/-- The logger, the regular files of every directory, and the threads. -/
structure LoggerSystem where
  logger : AimyLogger := {}
  disk : Bytes → Dir
  control : ControlPc := .idle
  calls : ℕ → CallPc := fun _ => .idle

def MAX_LOG_QUEUE_SIZE : ℕ := 100000

def MIN_LOG_FILE_SIZE : ℤ := 32 * 1024

def MAX_LOG_FILE_SIZE : ℤ := 2 * 1024 * 1024 * 1024

def MAX_WRITE_ERROR_TRY : ℕ := 10

def LOG_BACKTRACE : ℤ := 6

def LOG_FATALERROR : ℤ := 4

/-- `LINE_END` -/
def LINE_END : Bytes := [10]

/-- The names that the shell puts for `*.log`. -/
def isGlobLog (name : Bytes) : Bool :=
  [46, 108, 111, 103].isSuffixOf name && name.head? ≠ some 46

namespace LoggerSystem

/-- The directory of the log. -/
def dir (s : LoggerSystem) : Dir := s.disk s.logger.m_save_path

def setDir (s : LoggerSystem) (d : Dir) : LoggerSystem :=
  { s with disk := Function.update s.disk s.logger.m_save_path d }

/-- `fclose(m_fp);m_fp=nullptr;` -/
def close (s : LoggerSystem) : LoggerSystem := { s with logger := { s.logger with m_fp := false } }

/-- `reset_file` -/
def reset_file (s : LoggerSystem) : LoggerSystem :=
  ({ s.close with logger := { s.close.logger with m_write_error_cnt := 0 } }).setDir
    fun name => if isGlobLog name then none else s.dir name

/-- What `ftell(m_fp)` tells: the file was written to at its end. -/
def fileSize (s : LoggerSystem) : ℕ := ((s.dir (logFileName s.logger.m_pro_name)).getD []).length

/-- What `open_file` does before it opens the file: the log that is full is rotated. -/
def beforeOpen (order : List Bytes) (s : LoggerSystem) : LoggerSystem :=
  let s :=
    if s.logger.m_fp then
      s.setDir (rename_file s.logger.m_pro_name s.logger.m_log_file_cache_max_cnts order s.dir)
    else s
  if s.logger.m_clear_flag then s.close.reset_file else s.close

/-- `m_fp=fopen(file_name.c_str(),"a+")`, when the file can be opened. -/
def fopenLog (s : LoggerSystem) : LoggerSystem :=
  ({ s with logger := { s.logger with m_fp := true } }).setDir
    (openLog s.logger.m_pro_name s.dir)

/-- `open_file`, with what `readdir` gives and whether `fopen` opens the file; `none` when `fileno`
gets a null pointer. -/
def open_file (order : List Bytes) (fopen : Bool) (s : LoggerSystem) :
    Option (LoggerSystem × Bool) :=
  if !s.logger.m_env_set || s.logger.m_save_path = [] then some (s, false)
  else if s.logger.m_fp ∧ (s.fileSize : ℤ) ≤ s.logger.m_max_file_size then some (s, true)
  else if fopen then some ((s.beforeOpen order).fopenLog, true)
  else none

/-- `append_to_file`; the result of `fwrite` gets lost in the inner `ret`. -/
def append_to_file (log_message : Bytes) (s : LoggerSystem) : LoggerSystem × Bool :=
  (s.setDir (appendLog s.logger.m_pro_name log_message s.dir), true)

/-- `if(!open_file()||!append_to_file(log_info))m_write_error_cnt++;` -/
def writeLog (order : List Bytes) (fopen : Bool) (log_info : Bytes) (s : LoggerSystem) :
    Option LoggerSystem :=
  (s.open_file order fopen).map fun (s, opened) =>
    let (s, written) := if opened then s.append_to_file log_info else (s, false)
    if written then s
    else { s with logger := { s.logger with m_write_error_cnt := s.logger.m_write_error_cnt + 1 } }

/-- `if(m_write_error_cnt>MAX_WRITE_ERROR_TRY&&m_env_set)reset_file();` -/
def checkErrors (s : LoggerSystem) : LoggerSystem :=
  if s.logger.m_write_error_cnt > MAX_WRITE_ERROR_TRY ∧ s.logger.m_env_set then s.reset_file else s

def setThread (s : LoggerSystem) (pc : Option WriterPc) : LoggerSystem :=
  { s with logger := { s.logger with m_thread := pc } }

/-- Where the thread goes with the lock, when it has looked at the queue. -/
def queuePc (m_log_buf : List Bytes) : WriterPc := if m_log_buf = [] then .again else .writing

/-- `m_log_buf.pop()` -/
def pop (s : LoggerSystem) : LoggerSystem :=
  { s with logger :=
    { s.logger with
      m_log_buf := s.logger.m_log_buf.tail
      m_thread := some (queuePc s.logger.m_log_buf.tail) } }

/-- The inner loop of `run`, once. -/
def write (order : List Bytes) (fopen : Bool) (s : LoggerSystem) : LoggerSystem :=
  match s.logger.m_log_buf with
  | [] => s
  | text :: _ =>
    match s.writeLog order fopen (text ++ LINE_END) with
    | none => s.setThread (some .crashed)
    | some s => s.checkErrors.pop

/-- The next step of the thread of the logger. -/
def runStep (order : List Bytes) (fopen : Bool) (s : LoggerSystem) : Option LoggerSystem :=
  match s.logger.m_thread with
  | some .created => some (s.setThread (some .entered))
  | some .entered | some .again =>
    some <|
      if s.logger.m_stop then s.close.setThread (some .exited)
      else s.setThread (some .body)
  | some .body =>
    some (s.setThread (some (if s.logger.m_log_buf = [] then .waiting else .writing)))
  | some .waiting => some (s.setThread (some (queuePc s.logger.m_log_buf)))
  | some .writing => some (s.write order fopen)
  | some .exited | some .crashed | none => none

/-- The next step inside `register_handle` or `unregister_handle`. -/
def controlStep (s : LoggerSystem) : Option LoggerSystem :=
  match s.control with
  | .idle => none
  | .registering =>
    some { s with logger := { s.logger with m_stop := false }, control := .creating }
  | .creating => some { s.setThread (some .created) with control := .idle }
  | .stopping => some { s with control := .joining }
  | .joining =>
    if s.logger.m_thread = none ∨ s.logger.m_thread = some .exited then
      some { s.setThread none with control := .joined }
    else none
  | .joined =>
    some { s with logger := { s.logger with m_registered := false }, control := .idle }

def setCall (s : LoggerSystem) (thread : ℕ) (pc : CallPc) : LoggerSystem :=
  { s with calls := Function.update s.calls thread pc }

/-- What `log` does to the queue under the lock. -/
def enqueue (text : Bytes) (l : AimyLogger) : AimyLogger :=
  if l.m_env_set ∧ l.m_log_buf.length < MAX_LOG_QUEUE_SIZE then
    { l with m_log_buf := l.m_log_buf ++ [text] }
  else l

/-- The second half of `log`. -/
def push (thread : ℕ) (s : LoggerSystem) : Option LoggerSystem :=
  match s.calls thread with
  | .pushing text => some { s.setCall thread .idle with logger := enqueue text s.logger }
  | _ => none

/-- `set_log_path`; `access` tells whether the directory is there and can be written. -/
def set_log_path (path proname : Bytes) (access : Bool) (s : LoggerSystem) : LoggerSystem :=
  let s := if s.logger.m_clear_flag then s.close.reset_file else s.close
  { s with logger :=
    { s.logger with
      m_save_path := if path = [] then [46, 47] else path
      m_pro_name := proname
      m_env_set := access } }

/-- Whether the thread of the logger has the lock. -/
def Locked (s : LoggerSystem) : Prop :=
  ∃ pc ∈ s.logger.m_thread, pc ∈ [.entered, .again, .body, .writing]

instance (s : LoggerSystem) : Decidable s.Locked := by
  unfold Locked
  infer_instance

/-- A step of a thread; the lists that `readdir` gives, the results of `fopen` and `access`, and
the texts are inputs. -/
inductive Action
  /-- `log` begins -/
  | log (thread : ℕ) (level : ℤ) (text : Bytes)
  /-- `log` tests `m_registered` -/
  | check (thread : ℕ)
  /-- `log` gets the lock -/
  | push (thread : ℕ)
  | run (order : List Bytes) (fopen : Bool)
  | register_handle
  | unregister_handle
  | control
  | set_log_path (path proname : Bytes) (access : Bool)
  | set_minimum_log_level (level : ℤ)
  | set_clear_flag (clear : Bool)
  | set_log_file_size (size : ℤ)
  | set_max_log_file_cnts (cnt : ℤ)

/-- The actions for which a thread other than that of the logger needs the lock. -/
def needsLock (s : LoggerSystem) : Action → Bool
  | .push _ | .set_log_path _ _ _ | .set_clear_flag _ | .set_log_file_size _
  | .set_max_log_file_cnts _ => true
  | .control => s.control = .creating || s.control = .stopping
  | _ => false

/-- What an action does when nothing blocks it. -/
def act (s : LoggerSystem) : Action → Option LoggerSystem
  | .log thread level text =>
    if s.calls thread ≠ .idle then none
    else if level < s.logger.m_level ∨ level > LOG_BACKTRACE then some s
    else some (s.setCall thread (.formatting text))
  | .check thread =>
    match s.calls thread with
    | .formatting text =>
      some (s.setCall thread (if s.logger.m_registered then .pushing text else .idle))
    | _ => none
  | .push thread => s.push thread
  | .run order fopen => s.runStep order fopen
  | .register_handle =>
    if s.control ≠ .idle then none
    else if s.logger.m_registered then some s
    else some { s with logger := { s.logger with m_registered := true }, control := .registering }
  | .unregister_handle =>
    if s.control ≠ .idle then none
    else some { s with logger := { s.logger with m_stop := true }, control := .stopping }
  | .control => s.controlStep
  | .set_log_path path proname access => some (s.set_log_path path proname access)
  | .set_minimum_log_level level =>
    some { s with logger := { s.logger with
      m_level := if level < 0 then 0 else if level > LOG_FATALERROR then LOG_FATALERROR
        else level } }
  | .set_clear_flag clear => some { s with logger := { s.logger with m_clear_flag := clear } }
  | .set_log_file_size size =>
    some { s with logger := { s.logger with
      m_max_file_size := if size < MIN_LOG_FILE_SIZE then MIN_LOG_FILE_SIZE
        else if size > MAX_LOG_FILE_SIZE then MAX_LOG_FILE_SIZE else size } }
  | .set_max_log_file_cnts cnt =>
    some { s with logger := { s.logger with m_log_file_cache_max_cnts := cnt.toNat } }

/-- A step of the process; a crash is the end of all threads. -/
def step (s : LoggerSystem) (a : Action) : Option LoggerSystem :=
  if s.logger.m_thread = some .crashed then none
  else if s.needsLock a ∧ s.Locked then none
  else s.act a

/-- The texts that a step puts into the queue. -/
def accepted (s : LoggerSystem) : Action → List Bytes
  | .push thread =>
    match s.calls thread with
    | .pushing text =>
      if s.logger.m_env_set ∧ s.logger.m_log_buf.length < MAX_LOG_QUEUE_SIZE then [text] else []
    | _ => []
  | _ => []

/-- The texts that a step takes out of the queue. -/
def taken (s : LoggerSystem) : Action → List Bytes
  | .run order fopen =>
    if s.logger.m_thread = some .writing ∧ (s.open_file order fopen).isSome then
      s.logger.m_log_buf.take 1
    else []
  | _ => []

end LoggerSystem

end SignalEventLoop.Log
