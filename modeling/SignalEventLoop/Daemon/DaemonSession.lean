/-
# A session of the daemon

`DaemonSession` (`sub_project/daemon-service/src/daemon-instance.cpp`): `start`, `restart`,
`stop`, `check` and `loadConfig`, with `exec`, `releaseProcess`, `resetBootStatus` and
`setRunningStatus`.  A session runs one program.  `check` is called all the time; it looks
whether the program has ended, and starts it when it is time to.

What the system calls return is an argument of the operations.  An operation gives the session
behind it, and the effects on the world outside in their order: children that are forked and
reaped, and the read end of the pipe for the output of the program.  Of the pipe only the read
end is modelled, since the write end is closed by `exec` itself.
-/
import Mathlib.Tactic

namespace SignalEventLoop.Daemon

/-- `DaemonSessionStatus`. -/
inductive DaemonSessionStatus where
  | exited
  | waitStarted
  | running
  | fatalError
deriving DecidableEq

/-- The values that `loadConfig` reads and the operations use. -/
structure DaemonConfig where
  autoStart : Bool
  autoRestart : Bool
  startDelaySec : ℤ
  restartIntervalSec : ℤ
  maxErrorRebootCnt : ℤ
  errorRebootThresholdSec : ℤ
deriving DecidableEq

/-- `DaemonSession`; `readFd` is `monitorHandle->readFd`, and `worker` says whether there is
one. -/
structure DaemonSession where
  config : DaemonConfig
  pid : ℤ
  status : DaemonSessionStatus
  lastBootTime : ℤ
  nextBootTime : ℤ
  bootCnt : ℤ
  lastRebootCnt : ℤ
  errorBootCnt : ℤ
  readFd : ℤ
  worker : Bool
deriving DecidableEq

/-- An effect on the world outside. -/
inductive Effect where
  /-- A `waitpid` returned the child. -/
  | reaped (pid : ℤ)
  /-- `exec()` was called. -/
  | execCalled
  | forked (pid : ℤ)
  /-- `pipe2` succeeded, with this read end. -/
  | pipeOpened (fd : ℤ)
  | addStdoutRedirectTask (fd : ℤ)
  | removeStdoutRedirectTask (fd : ℤ)
  | closed (fd : ℤ)
deriving DecidableEq

/-- An `int` that was counted up. -/
def countUp (n : ℤ) : ℤ := Int.bmod (n + 1) (2 ^ 32)

/-- The results of the system calls of `exec`: the two ends of the pipe when `pipe2` succeeds, and
what `fork` returns in the parent. -/
structure ExecResult where
  pipe : Option (ℤ × ℤ)
  fork : ℤ
deriving DecidableEq

/-- The results of the system calls of `releaseProcess`.  A `waitpid` returns 0 when no result is
given for it. -/
structure ReleaseResult where
  kill : ℤ
  waits : List ℤ
deriving DecidableEq

/-- The results of the system calls of `check`: the `waitpid`, the three readings of the clock,
and those of `exec`. -/
structure CheckResult where
  wait : ℤ
  exitClock : ℤ
  restartClock : ℤ
  nowClock : ℤ
  exec : ExecResult
deriving DecidableEq

namespace DaemonSession

/-- The constructor. -/
def new (worker : Bool) : DaemonSession where
  config := ⟨false, true, 0, 5, 0, 0⟩
  pid := 0
  status := .exited
  lastBootTime := 0
  nextBootTime := 0
  bootCnt := 0
  lastRebootCnt := 0
  errorBootCnt := 0
  readFd := -1
  worker := worker

variable (s : DaemonSession)

def resetBootStatus : DaemonSession × List Effect :=
  let effects :=
    if s.readFd > 0 then
      (if s.worker then [.removeStdoutRedirectTask s.readFd] else []) ++ [.closed s.readFd]
    else []
  ({ s with
      status := .exited
      pid := 0
      nextBootTime := 0
      readFd := if s.readFd > 0 then -1 else s.readFd }, effects)

def setRunningStatus (new_pid boot_time : ℤ) : DaemonSession :=
  { s with pid := new_pid, lastBootTime := boot_time, status := .running }

/-- `exec`, in the parent: the session, what it returns, and its effects. -/
def exec (r : ExecResult) : DaemonSession × ℤ × List Effect :=
  let pipe := if s.worker then r.pipe else none
  let pipe_fd := pipe.getD (-1, -1)
  let opened := if pipe.isSome then [.pipeOpened pipe_fd.1] else []
  let forked := if r.fork > 0 then [.forked r.fork] else []
  let session := if pipe_fd.2 > 0 then { s with readFd := pipe_fd.1 } else s
  let added := if pipe_fd.2 > 0 then [.addStdoutRedirectTask pipe_fd.1] else []
  (session, r.fork, .execCalled :: (opened ++ forked ++ added))

/-- The loop of `releaseProcess`, for up to `max_cnts` calls of `waitpid`: whether one of them
returned the child.  It also sends `killSignal`, and does not look at the result. -/
def waitLoop (pid : ℤ) : ℕ → List ℤ → Bool
  | 0, _ => false
  | max_cnts + 1, waits =>
    if waits.headD 0 = pid then true else waitLoop pid max_cnts waits.tail

def releaseProcess (r : ReleaseResult) : DaemonSession × List Effect :=
  let reaped := if s.status = .running ∧ r.kill = 0 ∧ waitLoop s.pid 50 r.waits then
      [.reaped s.pid]
    else []
  let (session, effects) := s.resetBootStatus
  (session, reaped ++ effects)

def start (clock : ℤ) : DaemonSession :=
  if s.status = .running then s
  else { s with lastRebootCnt := 0, status := .waitStarted, nextBootTime := clock }

def restart (r : ReleaseResult) (clock : ℤ) : DaemonSession × List Effect :=
  let (session, effects) := s.releaseProcess r
  (session.start clock, effects)

def stop (r : ReleaseResult) : DaemonSession × List Effect := s.releaseProcess r

/-- The value of `errorBootCnt` behind a run that `check` notices at the time `clock`. -/
def nextErrorBootCnt (clock : ℤ) : ℤ :=
  let time_diff := clock - s.lastBootTime
  if s.config.errorRebootThresholdSec > 0 ∧ time_diff < s.config.errorRebootThresholdSec then
    countUp s.errorBootCnt
  else 0

/-- The first part of `check`: the program has ended. -/
def checkExited (r : CheckResult) : DaemonSession × List Effect :=
  let (session, effects) := s.resetBootStatus
  let c := s.config
  let cnt := session.nextErrorBootCnt r.exitClock
  if c.maxErrorRebootCnt > 0 ∧ cnt ≥ c.maxErrorRebootCnt then
    ({ session with errorBootCnt := 0, status := .fatalError }, effects)
  else if c.autoRestart then
    ({ session with
        errorBootCnt := cnt
        status := .waitStarted
        nextBootTime := r.restartClock + c.restartIntervalSec }, effects)
  else ({ session with errorBootCnt := cnt }, effects)

/-- The second part of `check`: the program is started when it is time to. -/
def checkStart (r : CheckResult) : DaemonSession × List Effect :=
  if s.status = .waitStarted ∧ s.nextBootTime ≠ 0 ∧ r.nowClock ≥ s.nextBootTime then
    let (session, new_pid, effects) := s.exec r.exec
    let session := { session with
      bootCnt := countUp session.bootCnt
      lastRebootCnt := countUp session.lastRebootCnt }
    if new_pid ≤ 0 then
      ({ session with nextBootTime := r.nowClock + s.config.restartIntervalSec }, effects)
    else (session.setRunningStatus new_pid r.nowClock, effects)
  else (s, [])

def check (r : CheckResult) : DaemonSession × List Effect :=
  let (session, effects) :=
    if s.status = .running ∧ r.wait = s.pid then
      let (session, effects) := s.checkExited r
      (session, .reaped s.pid :: effects)
    else (s, [])
  let (session, effects') := session.checkStart r
  (session, effects ++ effects')

/-- `loadConfig`; `config` are the values behind it, when the file could be read. -/
def loadConfig (config : Option DaemonConfig) (clock : ℤ) : DaemonSession :=
  match config with
  | none => s
  | some c =>
    let session := { s with config := c }
    if c.autoStart then
      { session with status := .waitStarted, nextBootTime := clock + c.startDelaySec }
    else session

/-! ## What `start` and `exec` leave alone -/

@[simp] lemma start_pid (clock : ℤ) : (s.start clock).pid = s.pid := by
  rw [start]
  split_ifs <;> rfl

@[simp] lemma start_config (clock : ℤ) : (s.start clock).config = s.config := by
  rw [start]
  split_ifs <;> rfl

@[simp] lemma start_errorBootCnt (clock : ℤ) : (s.start clock).errorBootCnt = s.errorBootCnt := by
  rw [start]
  split_ifs <;> rfl

@[simp] lemma start_readFd (clock : ℤ) : (s.start clock).readFd = s.readFd := by
  rw [start]
  split_ifs <;> rfl

@[simp] lemma start_worker (clock : ℤ) : (s.start clock).worker = s.worker := by
  rw [start]
  split_ifs <;> rfl

lemma start_running (clock : ℤ) : (s.start clock).status = .running ↔ s.status = .running := by
  rw [start]
  split_ifs with hs <;> simp [hs]

@[simp] lemma exec_fork (r : ExecResult) : (s.exec r).2.1 = r.fork := rfl

@[simp] lemma exec_status (r : ExecResult) : (s.exec r).1.status = s.status := by
  simp only [exec]
  split_ifs <;> rfl

@[simp] lemma exec_config (r : ExecResult) : (s.exec r).1.config = s.config := by
  simp only [exec]
  split_ifs <;> rfl

@[simp] lemma exec_errorBootCnt (r : ExecResult) :
    (s.exec r).1.errorBootCnt = s.errorBootCnt := by
  simp only [exec]
  split_ifs <;> rfl

@[simp] lemma exec_worker (r : ExecResult) : (s.exec r).1.worker = s.worker := by
  simp only [exec]
  split_ifs <;> rfl

end DaemonSession

end SignalEventLoop.Daemon
