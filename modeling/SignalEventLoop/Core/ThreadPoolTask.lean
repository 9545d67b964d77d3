/-
# One task of the thread pool

The life of one `ThreadPoolFutureInterface`: threads call `ThreadPool::pushTask` and
`cancelTask` on it, workers dequeue it and call `run`.  Each of these is split into its loads
and exchanges of `runningState`, the locked push, the call of `runFunction` and the
`set_value` of the promise; any interleaving of the steps is a run.  Of the queue only the
number of entries that hold this task matters here.

`setStatus` is a load and, when another state was found, an exchange followed by the emission
of `notifyStatus`; the emission runs slots, whose calls are steps of other threads.

Both `pushTask` and `cancelTask` test the state and set it in separate steps, and so does
`run`; what follows from this for several calls at once is the subject of
`Core/ThreadPoolPush.lean` and `Core/ThreadPoolCancel.lean`.
-/
import SignalEventLoop.Lib.Threads

namespace SignalEventLoop.Core

/-- `concurrent::TaskState`. -/
inductive TaskState where
  | init
  | waitStart
  | cancelled
  | running
  | finished
deriving DecidableEq

/-- Where a thread stands with the task. -/
inductive TaskPc where
  | idle
  /-- `setStatus` was called; its load comes next. -/
  | setting (status : TaskState)
  /-- The load of `setStatus` has found another state; the exchange comes next. -/
  | exchanging (status : TaskState)
  /-- `pushTask` has set the state; the locked push comes next. -/
  | pushing
  /-- A worker has dequeued the task; the load of `run` comes next. -/
  | starting
  /-- `run` has set the state; `runFunction` comes next. -/
  | executing
  /-- `runTask` has returned or thrown; `set_value` comes next. -/
  | resolving
  /-- `set_value` has thrown. -/
  | thrown
deriving DecidableEq

/-- The task, and what has happened to it. -/
structure TaskShared where
  runningState : TaskState
  /-- The entries of `mTasks` that hold the task. -/
  queued : ℕ
  /-- The states that were set, in order; `notifyStatus` is emitted with each. -/
  notified : List TaskState
  /-- How often `runFunction` was called. -/
  executions : ℕ
  /-- How often `set_value` was called. -/
  setValues : ℕ
  /-- What the calls of `cancelTask` returned. -/
  cancels : List Bool

/-- The atomic steps. -/
inductive TaskStep where
  /-- The load of `pushTask`. -/
  | pushTask
  /-- The load of `cancelTask`. -/
  | cancelTask
  | dequeue
  /-- The load of `run`. -/
  | run
  /-- The load of `setStatus`. -/
  | load
  | exchange
  | push
  | runFunction
  | setValue
deriving DecidableEq

/-- What follows `setStatus` in the function that called it. -/
def afterStatus (sh : TaskShared) : TaskState → TaskShared × TaskPc
  | .waitStart => (sh, .pushing)
  | .cancelled => ({ sh with cancels := sh.cancels ++ [true] }, .idle)
  | .running => (sh, .executing)
  | .finished | .init => (sh, .idle)

section AfterStatus

variable (sh : TaskShared) (status : TaskState)

@[simp] lemma afterStatus_runningState :
    (afterStatus sh status).1.runningState = sh.runningState := by
  cases status <;> rfl

@[simp] lemma afterStatus_queued : (afterStatus sh status).1.queued = sh.queued := by
  cases status <;> rfl

@[simp] lemma afterStatus_notified : (afterStatus sh status).1.notified = sh.notified := by
  cases status <;> rfl

@[simp] lemma afterStatus_executions : (afterStatus sh status).1.executions = sh.executions := by
  cases status <;> rfl

end AfterStatus

/-- One atomic step of one thread. -/
def taskStep (sh : TaskShared) : TaskPc → TaskStep → Option (TaskShared × TaskPc)
  | .idle, .pushTask =>
    some (sh, if sh.runningState ≠ .init then .idle else .setting .waitStart)
  | .idle, .cancelTask =>
    some (if sh.runningState = .waitStart then (sh, .setting .cancelled)
      else ({ sh with cancels := sh.cancels ++ [false] }, .idle))
  | .idle, .dequeue =>
    if sh.queued = 0 then none else some ({ sh with queued := sh.queued - 1 }, .starting)
  | .starting, .run =>
    some (sh, .setting (if sh.runningState = .waitStart then .running else .finished))
  | .setting status, .load =>
    some (if status ≠ sh.runningState then (sh, .exchanging status) else afterStatus sh status)
  | .exchanging status, .exchange =>
    some (afterStatus { sh with runningState := status, notified := sh.notified ++ [status] }
      status)
  | .pushing, .push => some ({ sh with queued := sh.queued + 1 }, .idle)
  | .executing, .runFunction => some ({ sh with executions := sh.executions + 1 }, .resolving)
  | .resolving, .setValue =>
    some ({ sh with setValues := sh.setValues + 1 },
      if sh.setValues = 0 then .setting .finished else .thrown)
  | _, _ => none

/-- The task with all threads that call it. -/
abbrev TaskConf (ι : Type*) := Lib.Threads ι TaskShared TaskPc

namespace TaskConf

variable {ι : Type*} [DecidableEq ι]

/-- A task made by `buildTask`. -/
def built : TaskConf ι := ⟨⟨.init, 0, [], 0, 0, []⟩, fun _ => .idle⟩

/-- A task made by `schedule`: it waits in the queue. -/
def scheduled : TaskConf ι := ⟨⟨.waitStart, 1, [.waitStart], 0, 0, []⟩, fun _ => .idle⟩

/-- One atomic step of one thread. -/
def step : TaskConf ι → ι × TaskStep → Option (TaskConf ι) :=
  Lib.Threads.step taskStep

end TaskConf

/-! ## What a step can do -/

/-- What one step of a thread does, by the position it starts from. -/
inductive TaskMove (sh : TaskShared) : TaskPc → TaskStep → TaskShared × TaskPc → Prop
  | pushTask_refused (h : sh.runningState ≠ .init) : TaskMove sh .idle .pushTask (sh, .idle)
  | pushTask (h : sh.runningState = .init) :
    TaskMove sh .idle .pushTask (sh, .setting .waitStart)
  | cancelTask (h : sh.runningState = .waitStart) :
    TaskMove sh .idle .cancelTask (sh, .setting .cancelled)
  | cancelTask_refused (h : sh.runningState ≠ .waitStart) :
    TaskMove sh .idle .cancelTask ({ sh with cancels := sh.cancels ++ [false] }, .idle)
  | dequeue (h : sh.queued ≠ 0) :
    TaskMove sh .idle .dequeue ({ sh with queued := sh.queued - 1 }, .starting)
  | run (h : sh.runningState = .waitStart) : TaskMove sh .starting .run (sh, .setting .running)
  | run_refused (h : sh.runningState ≠ .waitStart) :
    TaskMove sh .starting .run (sh, .setting .finished)
  | load (status : TaskState) (h : status ≠ sh.runningState) :
    TaskMove sh (.setting status) .load (sh, .exchanging status)
  | load_same (status : TaskState) (h : status = sh.runningState) :
    TaskMove sh (.setting status) .load (afterStatus sh status)
  | exchange (status : TaskState) :
    TaskMove sh (.exchanging status) .exchange
      (afterStatus { sh with runningState := status, notified := sh.notified ++ [status] } status)
  | push : TaskMove sh .pushing .push ({ sh with queued := sh.queued + 1 }, .idle)
  | runFunction :
    TaskMove sh .executing .runFunction ({ sh with executions := sh.executions + 1 }, .resolving)
  | setValue (h : sh.setValues = 0) :
    TaskMove sh .resolving .setValue
      ({ sh with setValues := sh.setValues + 1 }, .setting .finished)
  | setValue_throws (h : sh.setValues ≠ 0) :
    TaskMove sh .resolving .setValue ({ sh with setValues := sh.setValues + 1 }, .thrown)

lemma TaskMove.of_taskStep {sh : TaskShared} {c : TaskPc} {x : TaskStep}
    {r : TaskShared × TaskPc} (h : taskStep sh c x = some r) : TaskMove sh c x r := by
  unfold taskStep at h
  split at h
  · obtain rfl := Option.some.inj h
    split_ifs with hinit
    · exact .pushTask_refused hinit
    · exact .pushTask (not_not.mp hinit)
  · obtain rfl := Option.some.inj h
    split_ifs with hwait
    · exact .cancelTask hwait
    · exact .cancelTask_refused hwait
  · split_ifs at h with hq
    obtain rfl := Option.some.inj h
    exact .dequeue hq
  · obtain rfl := Option.some.inj h
    split_ifs with hwait
    · exact .run hwait
    · exact .run_refused hwait
  · obtain rfl := Option.some.inj h
    split_ifs with hst
    · exact .load _ hst
    · exact .load_same _ (not_not.mp hst)
  · obtain rfl := Option.some.inj h
    exact .exchange _
  · obtain rfl := Option.some.inj h
    exact .push
  · obtain rfl := Option.some.inj h
    exact .runFunction
  · obtain rfl := Option.some.inj h
    split_ifs with hv
    · exact .setValue hv
    · exact .setValue_throws hv
  · exact absurd h (by simp)

/-- A step of the whole task is a move of one thread. -/
lemma TaskConf.step_eq_some {ι : Type*} [DecidableEq ι] {s s' : TaskConf ι} {a : ι × TaskStep}
    (h : TaskConf.step s a = some s') :
    ∃ r, TaskMove s.shared (s.pcs a.1) a.2 r ∧ s.move a.1 r = s' := by
  obtain ⟨r, hr, hs'⟩ := Lib.Threads.step_eq_some.mp h
  exact ⟨r, .of_taskStep hr, hs'⟩

end SignalEventLoop.Core
