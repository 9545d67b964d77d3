/-
# The loop thread of one object, as seen by its timers

The actions of the loop thread on the timers of one object, as a step function.  A call
of `Object::handleTimerEvent` is not one step: it takes the expired timers out of
`timerEventsMap`, then delivers the timeout of each of them, and every slot that runs
meanwhile (one connected with `connectFunc` is called directly by `Signal::emit`) may call
the public operations of any timer, or `handleTimerEvent` itself.  A configuration
therefore carries the stack of the activations of `handleTimerEvent` that have not
returned, and the user may act when no activation is there or when the slots of the
innermost one are running.

The clock is read from a `steady_clock`: it never goes back, and may advance between any
two steps.
-/
import SignalEventLoop.Core.Timer
import SignalEventLoop.Lib.Run

namespace SignalEventLoop.Core

/-- The local variables of an activation of `Object::handleTimerEvent`. -/
structure Pass where
  timeoutQueue : List TimerRef
  cycleQueue : List TimerRef
  /-- The slots of the front of `timeoutQueue` are running. -/
  inSlots : Bool

namespace Pass

/-- The batch of expired timers is taken out of `timerEventsMap`. -/
def start (s : TimerTables) (now : ℤ) : Pass × TimerTables :=
  (⟨(s.expired now).map Prod.snd, [], false⟩, s.dropExpired now)

/-- `timeoutQueue.front()->handleTimeoutEvent()` begins; the timer whose `timeout` signal
is emitted. -/
def emitTimeout (p : Pass) : Option (TimerRef × Pass) :=
  match p.inSlots, p.timeoutQueue with
  | false, r :: _ => some (r, { p with inSlots := true })
  | _, _ => none

/-- The slots have returned: the front timer goes to `cycleQueue` or stops working. -/
def slotsReturn (p : Pass) (s : TimerTables) : Option (Pass × TimerTables) :=
  match p.inSlots, p.timeoutQueue with
  | true, r :: rest =>
    if s.cyclic r then some (⟨rest, p.cycleQueue ++ [r], false⟩, s)
    else some (⟨rest, p.cycleQueue, false⟩, s.setTimer r ((s.timers r).setWorkState false))
  | _, _ => none

/-- The batch is delivered: the cyclic timers are armed again. -/
def finish (p : Pass) (s : TimerTables) (now : ℤ) : Option TimerTables :=
  match p.inSlots, p.timeoutQueue with
  | false, [] => some (s.requeue now p.cycleQueue)
  | _, _ => none

/-- The timers of the batch whose timeout was not emitted yet. -/
def waiting (p : Pass) : List TimerRef :=
  if p.inSlots then p.timeoutQueue.tail else p.timeoutQueue

/-- The timers that the activation still works on. -/
def held (p : Pass) : List TimerRef := p.timeoutQueue ++ p.cycleQueue

end Pass

/-- A call of a public operation of an object's timers. -/
inductive TimerOp where
  | addTimer (interval : ℤ)
  | setInterval (r : TimerRef) (interval : ℤ)
  | setSingle (r : TimerRef) (single : Bool)
  | start (r : TimerRef)
  | stop (r : TimerRef)
  | release (r : TimerRef)
deriving DecidableEq

/-- The user has the pointer that the operation is called on. -/
def TimerOp.known (s : TimerTables) : TimerOp → Bool
  | .addTimer _ => true
  | .setInterval r _ | .setSingle r _ | .start r | .stop r | .release r => decide (r < s.nextRef)

/-- The effect of an operation at the clock value `now`. -/
def TimerTables.apply (s : TimerTables) (now : ℤ) : TimerOp → TimerTables
  | .addTimer interval => (s.addTimer interval).2
  | .setInterval r interval => s.setTimer r ((s.timers r).setInterval interval).2
  | .setSingle r single => s.setTimer r ((s.timers r).setSingle single).2
  | .start r => (s.start now r).2
  | .stop r => s.stop r
  | .release r => s.release r

/-- A configuration of the loop thread. -/
structure TimerConf where
  clock : ℤ
  tables : TimerTables
  /-- The activations of `handleTimerEvent`, innermost first. -/
  stack : List Pass

/-- The actions of the loop thread. -/
inductive TimerAction where
  /-- Time passes. -/
  | tick (ms : ℕ)
  | call (op : TimerOp)
  /-- `handleTimerEvent` is called. -/
  | handleTimerEvent
  | emitTimeout
  | slotsReturn
  /-- `handleTimerEvent` returns. -/
  | finish
deriving DecidableEq

namespace TimerConf

/-- A new object, when the clock reads `clock`. -/
def init (clock : ℤ) : TimerConf := ⟨clock, .empty, []⟩

/-- User code is running: outside of `handleTimerEvent`, or in a slot. -/
def userTurn (c : TimerConf) : Bool :=
  match c.stack with
  | [] => true
  | p :: _ => p.inSlots

/-- One step of the loop thread. -/
def step (c : TimerConf) : TimerAction → Option TimerConf
  | .tick ms => if c.clock + ms < 2 ^ 63 then some { c with clock := c.clock + ms } else none
  | .call op =>
    if c.userTurn && op.known c.tables then some { c with tables := c.tables.apply c.clock op }
    else none
  | .handleTimerEvent =>
    if c.userTurn then
      some ⟨c.clock, (Pass.start c.tables c.clock).2, (Pass.start c.tables c.clock).1 :: c.stack⟩
    else none
  | .emitTimeout =>
    match c.stack with
    | [] => none
    | p :: ps => p.emitTimeout.map fun e => { c with stack := e.2 :: ps }
  | .slotsReturn =>
    match c.stack with
    | [] => none
    | p :: ps => (p.slotsReturn c.tables).map fun e => ⟨c.clock, e.2, e.1 :: ps⟩
  | .finish =>
    match c.stack with
    | [] => none
    | p :: ps => (p.finish c.tables c.clock).map fun s => ⟨c.clock, s, ps⟩

/-- The timer whose `timeout` signal the action emits, if it emits one. -/
def emits (c : TimerConf) : TimerAction → List TimerRef
  | .emitTimeout =>
    match c.stack with
    | [] => []
    | p :: _ => (p.emitTimeout.map Prod.fst).toList
  | _ => []

/-- The value that `Timer::start` returns in the configuration. -/
def startResult (c : TimerConf) (r : TimerRef) : Bool := (c.tables.start c.clock r).1

/-- The configurations that a new object reaches. -/
def Reachable (c : TimerConf) : Prop :=
  ∃ clock as, 0 ≤ clock ∧ clock < 2 ^ 63 ∧ Lib.run step (init clock) as = some c

/-! ## What a step can do -/

variable {c c' : TimerConf}

lemma step_tick {ms : ℕ} (h : c.step (.tick ms) = some c') :
    c' = { c with clock := c.clock + ms } ∧ c.clock + ms < 2 ^ 63 := by
  rw [step] at h
  split at h
  · next hlt => exact ⟨(Option.some.inj h).symm, hlt⟩
  · exact absurd h (by simp)

lemma step_call {op : TimerOp} (h : c.step (.call op) = some c') :
    c' = { c with tables := c.tables.apply c.clock op } ∧ c.userTurn = true ∧
      op.known c.tables = true := by
  rw [step] at h
  split at h
  · next hop =>
    rw [Bool.and_eq_true] at hop
    exact ⟨(Option.some.inj h).symm, hop.1, hop.2⟩
  · exact absurd h (by simp)

lemma step_handleTimerEvent (h : c.step .handleTimerEvent = some c') :
    c' = ⟨c.clock, c.tables.dropExpired c.clock,
      ⟨(c.tables.expired c.clock).map Prod.snd, [], false⟩ :: c.stack⟩ ∧ c.userTurn = true := by
  rw [step] at h
  split at h
  · next hturn => exact ⟨(Option.some.inj h).symm, hturn⟩
  · exact absurd h (by simp)

lemma step_emitTimeout (h : c.step .emitTimeout = some c') :
    ∃ r rest cyc ps, c.stack = ⟨r :: rest, cyc, false⟩ :: ps ∧
      c' = { c with stack := ⟨r :: rest, cyc, true⟩ :: ps } ∧ c.emits .emitTimeout = [r] := by
  rcases c with ⟨clock, s, _ | ⟨⟨_ | ⟨r, rest⟩, cyc, _ | _⟩, ps⟩⟩ <;>
    simp only [step, Pass.emitTimeout, Option.map_none, Option.map_some, reduceCtorEq,
      Option.some.injEq] at h
  exact ⟨r, rest, cyc, ps, rfl, h.symm, rfl⟩

lemma step_slotsReturn (h : c.step .slotsReturn = some c') :
    ∃ r rest cyc ps, c.stack = ⟨r :: rest, cyc, true⟩ :: ps ∧
      ((c.tables.cyclic r = true ∧
          c' = ⟨c.clock, c.tables, ⟨rest, cyc ++ [r], false⟩ :: ps⟩) ∨
        (c.tables.cyclic r = false ∧
          c' = ⟨c.clock, c.tables.setTimer r ((c.tables.timers r).setWorkState false),
            ⟨rest, cyc, false⟩ :: ps⟩)) := by
  rcases c with ⟨clock, s, _ | ⟨⟨_ | ⟨r, rest⟩, cyc, _ | _⟩, ps⟩⟩ <;>
    simp only [step, Pass.slotsReturn, Option.map_none, reduceCtorEq] at h
  refine ⟨r, rest, cyc, ps, rfl, ?_⟩
  cases hc : s.cyclic r with
  | true =>
    simp only [hc, if_true, Option.map_some, Option.some.injEq] at h
    exact Or.inl ⟨rfl, h.symm⟩
  | false =>
    simp only [hc, Bool.false_eq_true, if_false, Option.map_some, Option.some.injEq] at h
    exact Or.inr ⟨rfl, h.symm⟩

lemma step_finish (h : c.step .finish = some c') :
    ∃ cyc ps, c.stack = ⟨[], cyc, false⟩ :: ps ∧
      c' = ⟨c.clock, c.tables.requeue c.clock cyc, ps⟩ := by
  rcases c with ⟨clock, s, _ | ⟨⟨_ | ⟨r, rest⟩, cyc, _ | _⟩, ps⟩⟩ <;>
    simp only [step, Pass.finish, Option.map_none, Option.map_some, reduceCtorEq,
      Option.some.injEq] at h
  exact ⟨cyc, ps, rfl, h.symm⟩

/-- Only `emitTimeout` emits. -/
lemma emits_eq_nil {a : TimerAction} (h : a ≠ .emitTimeout) : c.emits a = [] := by
  cases a <;> first | rfl | exact absurd rfl h

end TimerConf

end SignalEventLoop.Core
