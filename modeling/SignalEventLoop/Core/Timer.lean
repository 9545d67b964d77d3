/-
# The timers of an object

`Timer` and the timer tables of `Object` (`core/object.h`, `core/object.cpp`), for an
object that lives on its loop thread: every `invoke` then runs its function directly.

A `Timer` is shared between the tables and the user through a `shared_ptr`.  The model
keeps the timers in a store `timers`, indexed by a reference; a reference is handed out
by `addTimer` and is never reused, as the user may keep the pointer for ever.

`int64_t` values are integers, and the only sum that can leave the range, the one of
`setNextTimeout`, is reduced to it by `wrap64`.  `TimerId` is a `uint32_t`.
-/
import Mathlib.Tactic

namespace SignalEventLoop.Core

/-- The value of an `int64_t` that holds the sum `x`. -/
def wrap64 (x : ℤ) : ℤ := Int.bmod x (2 ^ 64)

/-- `INVALID_TIMER_ID`. -/
def invalidTimerId : ℕ := 0

/-- `Object::isValidTimerId`. -/
def isValidTimerId (id : ℕ) : Bool := id != invalidTimerId

/-- A pointer to a timer. -/
abbrev TimerRef := ℕ

/-- The fields of a `Timer`, with the values its constructor gives them. -/
structure Timer where
  isSingle : Bool := false
  isWorking : Bool := false
  interval : ℤ := 1
  nextTimeout : ℤ := 0
  timerId : ℕ := invalidTimerId

namespace Timer

/-- `Timer::working`. -/
def working (t : Timer) : Bool := isValidTimerId t.timerId && t.isWorking

/-- `Timer::setInterval`; refused while the timer is working. -/
def setInterval (t : Timer) (interval : ℤ) : Bool × Timer :=
  if t.working then (false, t)
  else (true, { t with interval := if interval ≤ 0 then 1 else interval })

/-- `Timer::setSingle`; refused while the timer is working. -/
def setSingle (t : Timer) (single : Bool) : Bool × Timer :=
  if t.working then (false, t) else (true, { t with isSingle := single })

/-- `Timer::setNextTimeout`. -/
def setNextTimeout (t : Timer) (currentTimePoint : ℤ) : Timer :=
  { t with nextTimeout := wrap64 (currentTimePoint + t.interval) }

/-- `Timer::setWorkState`. -/
def setWorkState (t : Timer) (isworking : Bool) : Timer := { t with isWorking := isworking }

/-- `Timer::setTimerId`. -/
def setTimerId (t : Timer) (id : ℕ) : Timer := { t with timerId := id }

/-- The key of the timer in `timerEventsMap`. -/
def key (t : Timer) : ℤ × ℕ := (t.nextTimeout, t.timerId)

/-- `Timer::Timer`. -/
def create (interval : ℤ) : Timer := (({} : Timer).setInterval interval).2

end Timer

/-- The order of `std::pair<int64_t, TimerId>`. -/
def timerKeyCmp : ℤ × ℕ → ℤ × ℕ → Ordering :=
  compareLex (compareOn Prod.fst) (compareOn Prod.snd)

instance : Std.TransCmp timerKeyCmp :=
  inferInstanceAs (Std.TransCmp (compareLex (compareOn Prod.fst) (compareOn Prod.snd)))

instance : Std.LawfulEqCmp timerKeyCmp where
  eq_of_compare := by
    intro a b h
    simp only [timerKeyCmp, compareLex_eq_eq, compareOn, Std.LawfulEqCmp.compare_eq_iff_eq] at h
    exact Prod.ext h.1 h.2

/-- The timer part of an `Object`, and the timers it has created. -/
structure TimerTables where
  /-- The timers, by reference. -/
  timers : TimerRef → Timer
  /-- The first reference that was not handed out yet. -/
  nextRef : TimerRef
  lastTimerId : ℕ
  availableIdSet : Std.ExtTreeSet ℕ
  timerMap : Std.ExtTreeMap ℕ TimerRef
  timerEventsMap : Std.ExtTreeMap (ℤ × ℕ) TimerRef timerKeyCmp

namespace TimerTables

/-- The tables of a new object. -/
def empty : TimerTables where
  timers := fun _ => {}
  nextRef := 0
  lastTimerId := invalidTimerId
  availableIdSet := ∅
  timerMap := ∅
  timerEventsMap := ∅

/-- Replace a timer. -/
def setTimer (s : TimerTables) (r : TimerRef) (t : Timer) : TimerTables :=
  { s with timers := Function.update s.timers r t }

/-- `Object::getNextTimerId`: the smallest released id, or else the next new one. -/
def getNextTimerId (s : TimerTables) : ℕ × TimerTables :=
  match s.availableIdSet.toList.head? with
  | some id => (id, { s with availableIdSet := s.availableIdSet.erase id })
  | none =>
    let next_timer_id := (s.lastTimerId + 1) % 2 ^ 32
    if s.lastTimerId ≤ next_timer_id then
      (next_timer_id, { s with lastTimerId := next_timer_id })
    else (invalidTimerId, s)

/-- `Object::addTimer`; `none` is the null pointer. -/
def addTimer (s : TimerTables) (interval : ℤ) : Option TimerRef × TimerTables :=
  let (id, s₁) := s.getNextTimerId
  let ret := (Timer.create interval).setTimerId id
  if isValidTimerId ret.timerId then
    (some s₁.nextRef,
      { s₁ with
        timers := Function.update s₁.timers s₁.nextRef ret
        nextRef := s₁.nextRef + 1
        timerMap := s₁.timerMap.insertIfNew ret.timerId s₁.nextRef })
  else (none, s₁)

/-- `Object::startTimer` at the clock value `now`. -/
def startTimer (s : TimerTables) (now : ℤ) (timerId : ℕ) : Bool × TimerTables :=
  match s.timerMap[timerId]? with
  | none => (false, s)
  | some r =>
    if (s.timers r).working then (true, s)
    else
      let timer := ((s.timers r).setWorkState true).setNextTimeout now
      (true,
        { s.setTimer r timer with
          timerEventsMap := s.timerEventsMap.insertIfNew (timer.nextTimeout, timerId) r })

/-- `Object::stopTimer`. -/
def stopTimer (s : TimerTables) (timerId : ℕ) : TimerTables :=
  match s.timerMap[timerId]? with
  | none => s
  | some r =>
    let timer := (s.timers r).setWorkState false
    { s.setTimer r timer with
      timerEventsMap := s.timerEventsMap.erase (timer.nextTimeout, timerId) }

/-- `Object::releaseTimer`. -/
def releaseTimer (s : TimerTables) (timerId : ℕ) : TimerTables :=
  match s.timerMap[timerId]? with
  | none => s
  | some r =>
    { s.setTimer r ((s.timers r).setTimerId invalidTimerId) with
      timerEventsMap := s.timerEventsMap.erase ((s.timers r).nextTimeout, timerId)
      timerMap := s.timerMap.erase timerId
      availableIdSet := s.availableIdSet.insert timerId }

/-- `Timer::start`. -/
def start (s : TimerTables) (now : ℤ) (r : TimerRef) : Bool × TimerTables :=
  if isValidTimerId (s.timers r).timerId then s.startTimer now (s.timers r).timerId
  else (false, s)

/-- `Timer::stop`. -/
def stop (s : TimerTables) (r : TimerRef) : TimerTables :=
  if isValidTimerId (s.timers r).timerId then s.stopTimer (s.timers r).timerId else s

/-- `Timer::release`. -/
def release (s : TimerTables) (r : TimerRef) : TimerTables :=
  if isValidTimerId (s.timers r).timerId then s.releaseTimer (s.timers r).timerId else s

/-! ## The parts of `Object::handleTimerEvent` -/

/-- The expired entries: the loop walks `timerEventsMap` from its beginning and stops at
the first entry whose deadline is after `now`. -/
def expired (s : TimerTables) (now : ℤ) : List ((ℤ × ℕ) × TimerRef) :=
  s.timerEventsMap.toList.takeWhile fun e => decide (e.1.1 ≤ now)

/-- The tables after the expired entries were erased. -/
def dropExpired (s : TimerTables) (now : ℤ) : TimerTables :=
  { s with timerEventsMap := (s.expired now).foldl (fun m e => m.erase e.1) s.timerEventsMap }

/-- Is the timer queued again after its timeout was delivered? -/
def cyclic (s : TimerTables) (r : TimerRef) : Bool :=
  !(s.timers r).isSingle && (s.timers r).working

/-- One step of the last loop: arm a cyclic timer again. -/
def requeueOne (now : ℤ) (s : TimerTables) (r : TimerRef) : TimerTables :=
  let timer := (s.timers r).setNextTimeout now
  { s.setTimer r timer with timerEventsMap := s.timerEventsMap.insertIfNew timer.key r }

/-- The last loop of `handleTimerEvent`. -/
def requeue (s : TimerTables) (now : ℤ) (cycleQueue : List TimerRef) : TimerTables :=
  cycleQueue.foldl (requeueOne now) s

end TimerTables

end SignalEventLoop.Core
