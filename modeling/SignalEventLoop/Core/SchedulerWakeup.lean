/-
# Calls from other threads

`Object::invoke` of another thread puts an event into the trigger queue of a scheduler, writes a
byte into its pipe and waits for the result; the loop of `TaskScheduler::exec` runs the events,
asks `getNextTimeOut` how long it may sleep, and waits in `epoll_wait`, where a byte in the pipe
wakes it up.  The slot that empties the pipe is itself an event of the queue, which the loop
thread puts there when `epoll_wait` reports the pipe.

The threads take their atomic steps in any order: the two loads of `execing`, the locked push and
the write of a caller, and each step of the loop.  `isExecing` is set before the loop thread is
created and reset by `stopThread`; `threadId` is set by the loop thread itself, for as long as it
runs, so that a scheduler that was stopped still takes calls until its loop thread has come to an
end.  Of the objects below the scheduler only the time matters that `getNextTimeOut` gets from
them; callbacks may submit events.  A function that is run at once by its caller needs no state.
-/
import SignalEventLoop.Core.TriggerQueue
import SignalEventLoop.Core.NextTimeOut

namespace SignalEventLoop.Core

/-- An event in the trigger queue of a scheduler. -/
inductive SchedulerEvent (ι ε : Type*) where
  /-- `invoke` of the thread, which waits for the result. -/
  | call (caller : ι) (f : ε)
  /-- `addTriggerEvent` of the thread. -/
  | post (poster : ι) (f : ε)
  /-- An event of the loop thread itself. -/
  | own (f : ε)
  | onWakeupChannelRecv
deriving DecidableEq

/-- Where another thread stands. -/
inductive CallerPc (ε : Type*) where
  | idle
  /-- `execing` has loaded `isExecing`, which was false, and loads `threadId` next. -/
  | loaded (f : ε)
  /-- `execing` has returned true. -/
  | checked (f : ε)
  /-- The queue has accepted the event, of an `invoke` or not, and `wakeup` comes next. -/
  | accepted (call : Option ε)
  /-- In `ObjectFuture::result`. -/
  | waiting (f : ε)
  /-- `isExecing` is reset, and `wakeup` comes next. -/
  | stopping
deriving DecidableEq

/-- Where the loop thread stands in `Athread::threadTask` and `TaskScheduler::exec`. -/
inductive ExecPc (ι ε : Type*) where
  | stopped
  /-- `setThreadId` with the id of the thread comes next. -/
  | created
  | test
  /-- `handleEvent` is called. -/
  | handle
  /-- `handleTriggerQueue` runs what it has taken. -/
  | run (execQueue : List (SchedulerEvent ι ε))
  /-- `onWakeupChannelRecv`, as an event. -/
  | recv (execQueue : List (SchedulerEvent ι ε))
  /-- `handleChildEvent` and `handleTimerEvent` -/
  | objects
  | timeout
  /-- In `epoll_wait`. -/
  | poll (timeout : ℤ)
  /-- The ready channels; the flag tells whether the wakeup channel is one that is to come. -/
  | channels (wake : Bool)
  /-- `bytesReady` of the wakeup channel has found the scheduler execing. -/
  | emit
  /-- `onWakeupChannelRecv`, run at once. -/
  | recvDirect
  /-- The wakeup channel is stopped, and `setThreadId(0)` comes next. -/
  | leaving
  /-- `isExecing` is reset next. -/
  | finished
deriving DecidableEq

/-- The events that were taken from the queue and not run yet. -/
def ExecPc.execQueue {ι ε : Type*} : ExecPc ι ε → List (SchedulerEvent ι ε)
  | .run execQueue | .recv execQueue => execQueue
  | _ => []

/-- Callbacks may be running. -/
def ExecPc.runsCallbacks {ι ε : Type*} : ExecPc ι ε → Bool
  | .run _ | .objects | .channels _ => true
  | _ => false

/-- The shared state and the position of every thread; `ι` are the other threads. -/
structure SchedulerConf (ι ε : Type*) where
  triggerEventQueue : List (SchedulerEvent ι ε)
  isExecing : Bool
  /-- `threadId` is not 0. -/
  threadId : Bool
  /-- The number of bytes in the pipe. -/
  pipe : ℕ
  loop : ExecPc ι ε
  /-- The loop thread has to write into the pipe next. -/
  owes : Bool
  callers : ι → CallerPc ε
  /-- The result of the last call is set. -/
  isSet : ι → Bool

/-- The steps of the loop thread. -/
inductive ExecAction (ε : Type*) where
  | setThreadId
  | test
  | handle
  | runFront
  | runEnd
  | read
  | objects
  /-- `getNextTimeOut`; the timers and the objects below give the value `rest`. -/
  | getNextTimeOut (rest : ℤ)
  /-- `epoll_wait` reports the wakeup channel. -/
  | ready
  /-- `epoll_wait` reports other channels, or is interrupted. -/
  | others
  /-- `epoll_wait` reports nothing at the end of the timeout. -/
  | elapsed
  | bytesReady
  | pushRecv
  | channelsEnd
  /-- A callback submits an event. -/
  | post (f : ε)
  | wakeup
  /-- A callback stops the scheduler. -/
  | stopThread
  | leave
deriving DecidableEq

/-- The steps of another thread. -/
inductive CallerAction (ε : Type*) where
  /-- `invoke`, which loads `isExecing`. -/
  | invoke (f : ε)
  | loadThreadId
  | push
  | addTriggerEvent (f : ε)
  | wakeup
  | result
  | stopThread
deriving DecidableEq

/-- The atomic steps. -/
inductive SchedulerAction (ι ε : Type*) where
  | loop (a : ExecAction ε)
  | caller (t : ι) (a : CallerAction ε)
  /-- `startThread`, behind its `stopThread`. -/
  | start
deriving DecidableEq

/-- The size of a pipe. -/
def pipeCapacity : ℕ := 65536

/-- `wakeupPipe->write` of one byte, which a full pipe refuses. -/
def writePipe (pipe : ℕ) : ℕ := min (pipe + 1) pipeCapacity

lemma writePipe_pos (pipe : ℕ) : 0 < writePipe pipe := by
  simp [writePipe, pipeCapacity]

namespace SchedulerConf

variable {ι ε : Type*} [DecidableEq ι]

/-- A scheduler that was not started. -/
def init : SchedulerConf ι ε :=
  ⟨[], false, false, 0, .stopped, false, fun _ => .idle, fun _ => false⟩

/-- `Object::execing` -/
def execing (s : SchedulerConf ι ε) : Bool := s.isExecing || s.threadId

/-- Move a caller. -/
def setPc (s : SchedulerConf ι ε) (t : ι) (pc : CallerPc ε) : SchedulerConf ι ε :=
  { s with callers := Function.update s.callers t pc }

@[simp] lemma setPc_callers_self (s : SchedulerConf ι ε) (t : ι) (pc : CallerPc ε) :
    (s.setPc t pc).callers t = pc := Function.update_self _ _ _

lemma setPc_callers_ne (s : SchedulerConf ι ε) {t u : ι} (h : u ≠ t) (pc : CallerPc ε) :
    (s.setPc t pc).callers u = s.callers u := Function.update_of_ne h _ _

/-- One step of another thread. -/
def callerStep (s : SchedulerConf ι ε) (t : ι) : CallerAction ε → Option (SchedulerConf ι ε)
  | .invoke f =>
    match s.callers t with
    | .idle => some (s.setPc t (if s.isExecing then .checked f else .loaded f))
    | _ => none
  | .loadThreadId =>
    match s.callers t with
    -- a scheduler that is not execing leaves the function to the caller
    | .loaded f => some (s.setPc t (if s.threadId then .checked f else .idle))
    | _ => none
  | .push =>
    match s.callers t with
    | .checked f =>
      let pushed := pushTrigger s.triggerEventQueue (.call t f)
      let s₁ := { s with triggerEventQueue := pushed.2, isSet := Function.update s.isSet t false }
      -- so does a full queue
      some (if pushed.1 then s₁.setPc t (.accepted (some f)) else s.setPc t .idle)
    | _ => none
  | .addTriggerEvent f =>
    match s.callers t with
    | .idle =>
      let pushed := pushTrigger s.triggerEventQueue (.post t f)
      some (if pushed.1 then { s with triggerEventQueue := pushed.2 }.setPc t (.accepted none)
        else s)
    | _ => none
  | .wakeup =>
    let s₁ := { s with pipe := writePipe s.pipe }
    match s.callers t with
    | .accepted (some f) => some (s₁.setPc t (.waiting f))
    | .accepted none | .stopping => some (s₁.setPc t .idle)
    -- the parent of another object is woken up
    | .idle => some s₁
    | _ => none
  | .result =>
    match s.callers t with
    | .waiting _ => if s.isSet t then some (s.setPc t .idle) else none
    | _ => none
  | .stopThread =>
    match s.callers t with
    | .idle => some ({ s with isExecing := false }.setPc t .stopping)
    | _ => none

/-- The first event that was taken is run. -/
def runFront (s : SchedulerConf ι ε) (rest : List (SchedulerEvent ι ε)) :
    SchedulerEvent ι ε → SchedulerConf ι ε
  | .call t _ => { s with loop := .run rest, isSet := Function.update s.isSet t true }
  | .post _ _ | .own _ => { s with loop := .run rest }
  | .onWakeupChannelRecv => { s with loop := .recv rest }

/-- One step of the loop thread, which does not write into the pipe. -/
def execStep (s : SchedulerConf ι ε) : ExecAction ε → Option (SchedulerConf ι ε)
  | .setThreadId =>
    match s.loop with
    -- the wakeup channel is synced next, and wakes the loop up
    | .created => some { s with threadId := true, loop := .test, owes := true }
    | .leaving => some { s with threadId := false, loop := .finished }
    | _ => none
  | .test =>
    match s.loop with
    | .test =>
      some (if s.isExecing then { s with loop := .handle }
        else { s with loop := .leaving, owes := true })
    | _ => none
  | .handle =>
    match s.loop with
    | .handle => some { s with loop := .run s.triggerEventQueue, triggerEventQueue := [] }
    | _ => none
  | .runFront =>
    match s.loop with
    | .run (e :: rest) => some (s.runFront rest e)
    | _ => none
  | .runEnd =>
    match s.loop with
    | .run [] => some { s with loop := .objects }
    | _ => none
  | .read =>
    match s.loop with
    | .recv execQueue =>
      some (if s.pipe > 0 then { s with pipe := s.pipe - 1 } else { s with loop := .run execQueue })
    | .recvDirect =>
      some (if s.pipe > 0 then { s with pipe := s.pipe - 1 }
        else { s with loop := .channels false })
    | _ => none
  | .objects =>
    match s.loop with
    | .objects => some { s with loop := .timeout }
    | _ => none
  | .getNextTimeOut rest =>
    match s.loop with
    | .timeout =>
      let timeout := if s.triggerEventQueue.isEmpty then rest else 0
      some { s with loop := .poll (TaskScheduler.networkTimeout timeout) }
    | _ => none
  | .ready =>
    match s.loop with
    | .poll _ => if s.pipe > 0 then some { s with loop := .channels true } else none
    | _ => none
  | .others =>
    match s.loop with
    | .poll _ => some { s with loop := .channels false }
    | _ => none
  | .elapsed =>
    match s.loop with
    | .poll _ => if s.pipe > 0 then none else some { s with loop := .channels false }
    | _ => none
  | .bytesReady =>
    match s.loop with
    | .channels true => some { s with loop := if s.execing then .emit else .recvDirect }
    | _ => none
  | .pushRecv =>
    match s.loop with
    | .emit =>
      let pushed := pushTrigger s.triggerEventQueue .onWakeupChannelRecv
      some (if pushed.1 then
          { s with triggerEventQueue := pushed.2, loop := .channels false, owes := true }
        else { s with loop := .recvDirect })
    | _ => none
  | .channelsEnd =>
    match s.loop with
    | .channels false => some { s with loop := .test }
    | _ => none
  | .post f =>
    if s.loop.runsCallbacks then
      let pushed := pushTrigger s.triggerEventQueue (.own f)
      some (if pushed.1 then { s with triggerEventQueue := pushed.2, owes := true } else s)
    else none
  | .wakeup =>
    -- a callback updates a channel
    if s.loop.runsCallbacks then some { s with pipe := writePipe s.pipe } else none
  | .stopThread =>
    if s.loop.runsCallbacks then some { s with isExecing := false, owes := true } else none
  | .leave =>
    match s.loop with
    | .finished => some { s with loop := .stopped, isExecing := false }
    | _ => none

/-- One step of the loop thread. -/
def loopStep (s : SchedulerConf ι ε) (a : ExecAction ε) : Option (SchedulerConf ι ε) :=
  if s.owes then
    match a with
    | .wakeup => some { s with pipe := writePipe s.pipe, owes := false }
    | _ => none
  else s.execStep a

/-- One atomic step of one thread. -/
def step (s : SchedulerConf ι ε) : SchedulerAction ι ε → Option (SchedulerConf ι ε)
  | .loop a => s.loopStep a
  | .caller t a => s.callerStep t a
  | .start =>
    match s.loop with
    | .stopped => some { s with isExecing := true, loop := .created }
    | _ => none

end SchedulerConf

/-! ## What the loop thread can do -/

namespace SchedulerEvent

variable {ι ε : Type*} [DecidableEq ι]

/-- The function of a call of the thread. -/
def callOf (t : ι) : SchedulerEvent ι ε → Option ε
  | .call caller f => if caller = t then some f else none
  | .post _ _ | .own _ | .onWakeupChannelRecv => none

@[simp] lemma callOf_call_self (t : ι) (f : ε) : (call t f).callOf t = some f := if_pos rfl

lemma callOf_call_ne {t u : ι} (h : u ≠ t) (f : ε) : (call u f).callOf t = none := if_neg h

@[simp] lemma callOf_post (t u : ι) (f : ε) : (post u f).callOf t = none := rfl

@[simp] lemma callOf_own (t : ι) (f : ε) : (own f : SchedulerEvent ι ε).callOf t = none := rfl

@[simp] lemma callOf_onWakeupChannelRecv (t : ι) :
    (onWakeupChannelRecv : SchedulerEvent ι ε).callOf t = none := rfl

omit [DecidableEq ι] in
/-- The thread that has submitted the event. -/
def submitter : SchedulerEvent ι ε → Option ι
  | .call t _ | .post t _ => some t
  | .own _ | .onWakeupChannelRecv => none

end SchedulerEvent

open SchedulerEvent

namespace SchedulerConf

variable {ι ε : Type*} [DecidableEq ι] {s s' : SchedulerConf ι ε} {t u : ι}

/-- The functions of the calls of the thread that are not run yet, in order. -/
def calls (s : SchedulerConf ι ε) (t : ι) : List ε :=
  (s.loop.execQueue ++ s.triggerEventQueue).filterMap (callOf t)

/-- A step that runs no call and submits none: the callers and their results stay as they are, and
the loop goes to sleep only when the queue is empty. -/
structure Keeps (s s' : SchedulerConf ι ε) : Prop where
  callers : s'.callers = s.callers
  isSet : s'.isSet = s.isSet
  calls : ∀ t, s'.calls t = s.calls t
  asleep : ∀ timeout, s'.loop = .poll timeout → timeout ≠ 0 → s'.triggerEventQueue = []

lemma Keeps.of_events (hcallers : s'.callers = s.callers) (hisSet : s'.isSet = s.isSet)
    (hevents : s'.loop.execQueue ++ s'.triggerEventQueue =
      s.loop.execQueue ++ s.triggerEventQueue)
    (hloop : ∀ timeout, s'.loop ≠ .poll timeout) : Keeps s s' :=
  ⟨hcallers, hisSet, fun t => by rw [SchedulerConf.calls, hevents]; rfl,
    fun timeout h => absurd h (hloop timeout)⟩

/-- A push of an event that is not a call. -/
lemma Keeps.of_push {e : SchedulerEvent ι ε} (he : ∀ t, e.callOf t = none)
    (hcallers : s'.callers = s.callers) (hisSet : s'.isSet = s.isSet)
    (hevents : s'.loop.execQueue ++ s'.triggerEventQueue =
      s.loop.execQueue ++ (pushTrigger s.triggerEventQueue e).2)
    (hloop : ∀ timeout, s'.loop ≠ .poll timeout) : Keeps s s' := by
  refine ⟨hcallers, hisSet, fun t => ?_, fun timeout h => absurd h (hloop timeout)⟩
  rw [SchedulerConf.calls, hevents, SchedulerConf.calls, pushTrigger]
  split_ifs
  · rfl
  · simp [he]

omit [DecidableEq ι] in
lemma runsCallbacks_ne_poll {pc : ExecPc ι ε} (h : pc.runsCallbacks = true) (timeout : ℤ) :
    pc ≠ .poll timeout := by
  rintro rfl
  simp [ExecPc.runsCallbacks] at h

/-- The loop thread runs a call, or it keeps all of them. -/
lemma execStep_cases {a : ExecAction ε} (h : s.execStep a = some s') :
    (∃ u f rest, a = .runFront ∧ s.loop = .run (.call u f :: rest) ∧
      s' = { s with loop := .run rest, isSet := Function.update s.isSet u true }) ∨
    (Keeps s s' ∧ ∀ u f rest, a = .runFront → s.loop ≠ .run (.call u f :: rest)) := by
  cases a with
  | runFront =>
    rw [execStep] at h
    split at h
    case h_2 => exact absurd h (by simp)
    case h_1 e rest hloop =>
      obtain rfl := Option.some.inj h
      have hkeeps : (∀ t, e.callOf t = none) → (s.runFront rest e).callers = s.callers →
          (s.runFront rest e).isSet = s.isSet →
          (s.runFront rest e).loop.execQueue ++ (s.runFront rest e).triggerEventQueue =
            rest ++ s.triggerEventQueue →
          (∀ timeout, (s.runFront rest e).loop ≠ .poll timeout) → Keeps s (s.runFront rest e) := by
        intro he hcallers hisSet hevents hpoll
        refine ⟨hcallers, hisSet, fun t => ?_, fun timeout h => absurd h (hpoll timeout)⟩
        rw [SchedulerConf.calls, hevents, SchedulerConf.calls, hloop]
        simp [ExecPc.execQueue, he]
      cases e with
      | call u f => exact Or.inl ⟨u, f, rest, rfl, hloop, rfl⟩
      | post u f =>
        exact Or.inr ⟨hkeeps (fun _ => rfl) rfl rfl rfl (by simp [runFront]), by simp [hloop]⟩
      | own f =>
        exact Or.inr ⟨hkeeps (fun _ => rfl) rfl rfl rfl (by simp [runFront]), by simp [hloop]⟩
      | onWakeupChannelRecv =>
        exact Or.inr ⟨hkeeps (fun _ => rfl) rfl rfl rfl (by simp [runFront]), by simp [hloop]⟩
  | getNextTimeOut rest =>
    refine Or.inr ⟨?_, by simp⟩
    rw [execStep] at h
    split at h
    case h_2 => exact absurd h (by simp)
    case h_1 hloop =>
      obtain rfl := Option.some.inj h
      refine ⟨rfl, rfl, fun t => by simp [calls, hloop, ExecPc.execQueue], ?_⟩
      intro timeout hpoll hne
      by_contra hqueue
      have htimeout := ExecPc.poll.inj hpoll
      rw [if_neg (by simpa using hqueue)] at htimeout
      exact hne (by rw [← htimeout]; decide)
  | post f =>
    refine Or.inr ⟨?_, by simp⟩
    rw [execStep] at h
    split_ifs at h with hcallbacks
    obtain rfl := Option.some.inj h
    have hpoll := runsCallbacks_ne_poll hcallbacks
    split_ifs
    · exact Keeps.of_push (e := .own f) (fun _ => rfl) rfl rfl rfl hpoll
    · exact Keeps.of_events rfl rfl rfl hpoll
  | pushRecv =>
    refine Or.inr ⟨?_, by simp⟩
    rw [execStep] at h
    split at h
    case h_2 => exact absurd h (by simp)
    case h_1 hloop =>
      obtain rfl := Option.some.inj h
      split_ifs
      · exact Keeps.of_push (e := .onWakeupChannelRecv) (fun _ => rfl) rfl rfl
          (by simp [hloop, ExecPc.execQueue]) (by simp)
      · exact Keeps.of_events rfl rfl (by simp [hloop, ExecPc.execQueue]) (by simp)
  | setThreadId =>
    refine Or.inr ⟨?_, by simp⟩
    rw [execStep] at h
    split at h
    case h_3 => exact absurd h (by simp)
    all_goals
      rename_i hloop
      obtain rfl := Option.some.inj h
      exact Keeps.of_events rfl rfl (by simp [hloop, ExecPc.execQueue]) (by simp)
  | read =>
    refine Or.inr ⟨?_, by simp⟩
    rw [execStep] at h
    split at h
    case h_3 => exact absurd h (by simp)
    all_goals
      rename_i hloop
      obtain rfl := Option.some.inj h
      split_ifs
      · exact Keeps.of_events rfl rfl rfl (by simp [hloop])
      · exact Keeps.of_events rfl rfl (by simp [hloop, ExecPc.execQueue]) (by simp)
  | wakeup =>
    refine Or.inr ⟨?_, by simp⟩
    rw [execStep] at h
    split_ifs at h with hcallbacks
    obtain rfl := Option.some.inj h
    exact Keeps.of_events rfl rfl rfl (runsCallbacks_ne_poll hcallbacks)
  | stopThread =>
    refine Or.inr ⟨?_, by simp⟩
    rw [execStep] at h
    split_ifs at h with hcallbacks
    obtain rfl := Option.some.inj h
    exact Keeps.of_events rfl rfl rfl (runsCallbacks_ne_poll hcallbacks)
  | _ =>
    -- the other steps only move the loop thread
    refine Or.inr ⟨?_, by simp⟩
    rw [execStep] at h
    split at h
    case h_2 => exact absurd h (by simp)
    case h_1 hloop =>
      try split_ifs at h
      all_goals
        obtain rfl := Option.some.inj h
        try split_ifs
        all_goals exact Keeps.of_events rfl rfl (by simp [hloop, ExecPc.execQueue]) (by simp)

/-- A step of the loop thread: it writes the byte that it owes, runs a call, or keeps all calls. -/
lemma loopStep_cases {a : ExecAction ε} (h : s.loopStep a = some s') :
    (a = .wakeup ∧ s' = { s with pipe := writePipe s.pipe, owes := false }) ∨
    (∃ u f rest, a = .runFront ∧ s.owes = false ∧ s.loop = .run (.call u f :: rest) ∧
      s' = { s with loop := .run rest, isSet := Function.update s.isSet u true }) ∨
    (Keeps s s' ∧ ∀ u f rest, a = .runFront → s.loop ≠ .run (.call u f :: rest)) := by
  rw [loopStep.eq_def] at h
  split_ifs at h with howes
  · split at h
    case h_1 => exact Or.inl ⟨rfl, (Option.some.inj h).symm⟩
    case h_2 => exact absurd h (by simp)
  · rcases execStep_cases h with ⟨u, f, rest, ha, hloop, hs'⟩ | hkeeps
    · exact Or.inr (Or.inl ⟨u, f, rest, ha, by simpa using howes, hloop, hs'⟩)
    · exact Or.inr (Or.inr hkeeps)

/-! ## The loop does not sleep over an event -/

/-- The loop sleeps only while every event in the queue has a byte in the pipe, or a submitter that
is about to write one. -/
def Awake (s : SchedulerConf ι ε) : Prop :=
  ∀ timeout, s.loop = .poll timeout → timeout ≠ 0 → ∀ e ∈ s.triggerEventQueue,
    ∃ t, e.submitter = some t ∧ (0 < s.pipe ∨ ∃ call, s.callers t = .accepted call)

omit [DecidableEq ι] in
lemma awake_of_pipe (h : ∀ timeout, s.loop = .poll timeout → timeout ≠ 0 →
    ∀ e ∈ s.triggerEventQueue, ∃ t, e.submitter = some t) (hpipe : 0 < s.pipe) : s.Awake := by
  intro timeout hloop hne e he
  obtain ⟨t, ht⟩ := h timeout hloop hne e he
  exact ⟨t, ht, Or.inl hpipe⟩

omit [DecidableEq ι] in
lemma Awake.submitter (h : s.Awake) (timeout : ℤ) (hloop : s.loop = .poll timeout)
    (hne : timeout ≠ 0) (e : SchedulerEvent ι ε) (he : e ∈ s.triggerEventQueue) :
    ∃ t, e.submitter = some t := by
  obtain ⟨t, ht, -⟩ := h timeout hloop hne e he
  exact ⟨t, ht⟩

/-- A caller that does not owe a byte moves. -/
lemma Awake.setPc (h : s.Awake) (hpc : ∀ call, s.callers t ≠ .accepted call) (pc : CallerPc ε) :
    (s.setPc t pc).Awake := by
  intro timeout hloop hne e he
  obtain ⟨u, hu, hpipe | ⟨call, hcall⟩⟩ := h timeout hloop hne e he
  · exact ⟨u, hu, Or.inl hpipe⟩
  · refine ⟨u, hu, Or.inr ⟨call, ?_⟩⟩
    have hut : u ≠ t := by
      rintro rfl
      exact hpc call hcall
    rw [setPc_callers_ne s hut]
    exact hcall

/-- A caller submits an event and owes a byte. -/
lemma Awake.push (h : s.Awake) {e : SchedulerEvent ι ε} (he : e.submitter = some t)
    (call : Option ε) (isSet : ι → Bool) :
    ({ s with triggerEventQueue := (pushTrigger s.triggerEventQueue e).2, isSet := isSet }.setPc t
      (.accepted call)).Awake := by
  intro timeout hloop hne e' he'
  have hold : e' ∈ s.triggerEventQueue ∨ e' = e := by
    have hmem : e' ∈ (pushTrigger s.triggerEventQueue e).2 := he'
    rw [pushTrigger] at hmem
    split_ifs at hmem
    · exact Or.inl hmem
    · exact (List.mem_append.mp hmem).imp_right List.mem_singleton.mp
  rcases hold with hold | rfl
  · obtain ⟨u, hu, hpipe | ⟨call', hcall⟩⟩ := h timeout hloop hne e' hold
    · exact ⟨u, hu, Or.inl hpipe⟩
    · refine ⟨u, hu, Or.inr ?_⟩
      by_cases hut : u = t
      · exact ⟨call, by rw [hut, setPc_callers_self]⟩
      · exact ⟨call', by rw [setPc_callers_ne _ hut]; exact hcall⟩
  · exact ⟨t, he, Or.inr ⟨call, setPc_callers_self _ _ _⟩⟩

lemma Awake.callerStep (h : s.Awake) {a : CallerAction ε} (hs' : s.callerStep t a = some s') :
    s'.Awake := by
  cases a with
  | invoke f =>
    rw [SchedulerConf.callerStep] at hs'
    split at hs'
    case h_2 => exact absurd hs' (by simp)
    case h_1 hpc =>
      obtain rfl := Option.some.inj hs'
      exact h.setPc (by simp [hpc]) _
  | loadThreadId =>
    rw [SchedulerConf.callerStep] at hs'
    split at hs'
    case h_2 => exact absurd hs' (by simp)
    case h_1 f hpc =>
      obtain rfl := Option.some.inj hs'
      exact h.setPc (by simp [hpc]) _
  | push =>
    rw [SchedulerConf.callerStep] at hs'
    split at hs'
    case h_2 => exact absurd hs' (by simp)
    case h_1 f hpc =>
      obtain rfl := Option.some.inj hs'
      split_ifs
      · exact h.push rfl _ _
      · exact h.setPc (by simp [hpc]) _
  | addTriggerEvent f =>
    rw [SchedulerConf.callerStep] at hs'
    split at hs'
    case h_2 => exact absurd hs' (by simp)
    case h_1 hpc =>
      obtain rfl := Option.some.inj hs'
      split_ifs
      · exact h.push rfl none s.isSet
      · exact h
  | wakeup =>
    -- there is a byte in the pipe now
    rw [SchedulerConf.callerStep] at hs'
    split at hs'
    case h_5 => exact absurd hs' (by simp)
    all_goals
      obtain rfl := Option.some.inj hs'
      exact awake_of_pipe h.submitter (writePipe_pos s.pipe)
  | result =>
    rw [SchedulerConf.callerStep] at hs'
    split at hs'
    case h_2 => exact absurd hs' (by simp)
    case h_1 f hpc =>
      split_ifs at hs'
      obtain rfl := Option.some.inj hs'
      exact h.setPc (by simp [hpc]) _
  | stopThread =>
    rw [SchedulerConf.callerStep] at hs'
    split at hs'
    case h_2 => exact absurd hs' (by simp)
    case h_1 hpc =>
      obtain rfl := Option.some.inj hs'
      exact Awake.setPc (s := { s with isExecing := false }) h (by simp [hpc]) _

lemma Awake.step (h : s.Awake) {a : SchedulerAction ι ε} (hs' : s.step a = some s') :
    s'.Awake := by
  cases a with
  | caller t a => exact h.callerStep hs'
  | start =>
    rw [SchedulerConf.step.eq_def] at hs'
    dsimp only at hs'
    split at hs'
    case h_2 => exact absurd hs' (by simp)
    case h_1 =>
      obtain rfl := Option.some.inj hs'
      exact fun timeout hloop => absurd hloop (by simp)
  | loop a =>
    rcases loopStep_cases hs' with ⟨-, rfl⟩ | ⟨u, f, rest, -, -, -, rfl⟩ | ⟨hkeeps, -⟩
    · exact awake_of_pipe h.submitter (writePipe_pos s.pipe)
    · exact fun timeout hloop => absurd hloop (by simp)
    · intro timeout hloop hne e he
      rw [hkeeps.asleep timeout hloop hne] at he
      exact absurd he List.not_mem_nil

omit [DecidableEq ι] in
lemma awake_init : (init : SchedulerConf ι ε).Awake :=
  fun timeout hloop => absurd hloop (by simp [init])

/-- **No event is slept over.** In every interleaving, whatever the timers and the objects below
give, while the loop thread is in `epoll_wait` with a timeout other than 0, each event in the queue
has a byte in the pipe, or its submitter is between the push and the write of its byte. -/
theorem no_event_slept_over (actions : List (SchedulerAction ι ε)) (s : SchedulerConf ι ε)
    (hrun : Lib.run step init actions = some s) (timeout : ℤ) (hloop : s.loop = .poll timeout)
    (hne : timeout ≠ 0) (e : SchedulerEvent ι ε) (he : e ∈ s.triggerEventQueue) :
    ∃ t, e.submitter = some t ∧ (0 < s.pipe ∨ ∃ call, s.callers t = .accepted call) :=
  Lib.run_inv (fun _ _ _ h hs' => h.step hs') awake_init hrun timeout hloop hne e he

/-- The loop goes to sleep, and then a thread pushes a call. -/
def callWhileAsleep : List (SchedulerAction ℕ ℕ) :=
  [.start, .loop .setThreadId, .loop .wakeup, .loop .test, .loop .handle, .loop .runEnd,
    .loop .objects, .loop (.getNextTimeOut (-1)), .caller 0 (.invoke 7), .caller 0 .push]

theorem no_event_slept_over_call : ∃ s, Lib.run step init callWhileAsleep = some s ∧
    s.loop = .poll 5000 ∧ s.triggerEventQueue = [.call 0 7] ∧
    (0 < s.pipe ∨ ∃ call, s.callers 0 = .accepted call) := by
  have hend : (Lib.run step init callWhileAsleep).map (fun s => (s.loop, s.triggerEventQueue)) =
      some (.poll 5000, [.call 0 7]) := by
    decide +kernel
  obtain ⟨s, hrun, hs⟩ := Option.map_eq_some_iff.mp hend
  obtain ⟨hloop, hqueue⟩ := Prod.mk.inj hs
  obtain ⟨t, ht, h⟩ := no_event_slept_over callWhileAsleep s hrun 5000 hloop (by decide)
    (.call 0 7) (by simp [hqueue])
  obtain rfl : 0 = t := Option.some.inj ht
  exact ⟨s, hrun, hloop, hqueue, h⟩

end SchedulerConf

end SignalEventLoop.Core
