/-
# Producers and the loop thread at one trigger queue

A child object whose parent is a scheduler: producer threads call
`Object::addTriggerEvent`, and the loop thread takes the child out of the parent's
`execSubObjectSet` and runs `Object::handleEvent`.  Both are split into their atomic steps,
and any interleaving of these is a run.

Of the parent only one bit matters, the membership of the child in `execSubObjectSet`.  The
timers and the children of the child belong to the loop thread; whether they leave work
when `handleEvent` looks at them is a parameter of that step.  `wakeup` only ends a wait of
the scheduler and has no step.

An accepted event is lost when its producer reads `isTriggering` as true after the loop
thread has found the queue empty and before it resets the flag: the producer leaves the
work to the loop thread, which does not look again.
-/
import SignalEventLoop.Lib.Run

namespace SignalEventLoop.Core

/-- The capacity of a `TriggerEventQueueForObject`. -/
def triggerCapacity : ℕ := 100000

/-- `TriggerEventQueueForObject::addTriggerEvent`: a full queue refuses the event. -/
def pushTrigger {ε : Type*} (cache : List ε) (event : ε) : Bool × List ε :=
  if triggerCapacity ≤ cache.length then (false, cache) else (true, cache ++ [event])

/-- Where a thread stands in `Object::addTriggerEvent`. -/
inductive ProducerPc where
  | idle
  /-- The queue has accepted the event. -/
  | pushed
  /-- `isTriggering` was read as false. -/
  | loadedFalse
  /-- `isTriggering` is set, and `pushExec` comes next. -/
  | stored
deriving DecidableEq

/-- Where the loop thread stands with the child. -/
inductive LoopPc (ε : Type*) where
  | idle
  /-- The parent has taken the child out of `execSubObjectSet`. -/
  | taken
  /-- The queue was drained into `execQueue`, whose events are run; the children and the
  timers follow. -/
  | running (execQueue : List ε)
  /-- There is work left: `pushExec` comes next. -/
  | pushing
  /-- There is no work left: `isTriggering` is reset next. -/
  | resetting
deriving DecidableEq

/-- The loop thread still drains the queue, looks at it again, or has seen work in it. -/
def LoopPc.attends {ε : Type*} : LoopPc ε → Bool
  | .taken | .running _ | .pushing => true
  | .idle | .resetting => false

/-- The shared state and the position of every thread; `ι` are the producers. -/
structure WakeConf (ι ε : Type*) where
  triggerEventQueue : List ε
  isTriggering : Bool
  /-- The child is in the parent's `execSubObjectSet`. -/
  inExecSet : Bool
  loop : LoopPc ε
  producers : ι → ProducerPc

/-- The atomic steps. -/
inductive WakeAction (ι ε : Type*) where
  | push (p : ι) (event : ε)
  | load (p : ι)
  | store (p : ι)
  /-- `pushExec` of the producer. -/
  | insert (p : ι)
  | take
  | drain
  | runEvent
  /-- The test at the end of `handleEvent`; `work` tells whether `timerEventsMap` or
  `execSubObjectSet` of the child is not empty. -/
  | check (work : Bool)
  /-- `pushExec` of the loop thread. -/
  | rePush
  | reset
deriving DecidableEq

namespace WakeConf

variable {ι ε : Type*} [DecidableEq ι]

/-- A new child, with all threads idle. -/
def init : WakeConf ι ε := ⟨[], false, false, .idle, fun _ => .idle⟩

/-- Move a producer. -/
def setPc (s : WakeConf ι ε) (p : ι) (pc : ProducerPc) : WakeConf ι ε :=
  { s with producers := Function.update s.producers p pc }

/-- One atomic step of one thread. -/
def step (s : WakeConf ι ε) : WakeAction ι ε → Option (WakeConf ι ε)
  | .push p event =>
    match s.producers p with
    | .idle =>
      let (ret, queue) := pushTrigger s.triggerEventQueue event
      let s₁ := { s with triggerEventQueue := queue }
      some (if ret then s₁.setPc p .pushed else s₁)
    | _ => none
  | .load p =>
    match s.producers p with
    | .pushed => some (s.setPc p (if s.isTriggering then .idle else .loadedFalse))
    | _ => none
  | .store p =>
    match s.producers p with
    | .loadedFalse => some { s.setPc p .stored with isTriggering := true }
    | _ => none
  | .insert p =>
    match s.producers p with
    | .stored => some { s.setPc p .idle with inExecSet := true }
    | _ => none
  | .take =>
    match s.loop, s.inExecSet with
    | .idle, true => some { s with loop := .taken, inExecSet := false }
    | _, _ => none
  | .drain =>
    match s.loop with
    | .taken => some { s with loop := .running s.triggerEventQueue, triggerEventQueue := [] }
    | _ => none
  | .runEvent =>
    match s.loop with
    | .running (_ :: rest) => some { s with loop := .running rest }
    | _ => none
  | .check work =>
    match s.loop with
    | .running [] =>
      some { s with loop := if !s.triggerEventQueue.isEmpty || work then .pushing else .resetting }
    | _ => none
  | .rePush =>
    match s.loop with
    | .pushing => some { s with loop := .idle, inExecSet := true }
    | _ => none
  | .reset =>
    match s.loop with
    | .resetting => some { s with loop := .idle, isTriggering := false }
    | _ => none

/-- No event is queued with nobody left to run it. -/
def NoLostWakeup (s : WakeConf ι ε) : Prop :=
  s.triggerEventQueue ≠ [] →
    s.inExecSet = true ∨ s.loop.attends = true ∨ ∃ p, s.producers p ≠ .idle

/-- The condition on a step: no producer reads `isTriggering` as true, with events in the
queue, while the loop thread is about to reset the flag. -/
def NoLateLoad (s : WakeConf ι ε) (a : WakeAction ι ε) : Prop :=
  ∀ p, a = .load p → s.isTriggering = true → s.loop = .resetting → s.triggerEventQueue = []

/-! ## What a step can do -/

variable {s s' : WakeConf ι ε}

lemma setPc_producers_self (s : WakeConf ι ε) (p : ι) (pc : ProducerPc) :
    (s.setPc p pc).producers p = pc := by
  simp [setPc]

lemma setPc_producers_ne (s : WakeConf ι ε) {p q : ι} (pc : ProducerPc) (h : q ≠ p) :
    (s.setPc p pc).producers q = s.producers q := by
  simp [setPc, h]

/-- A full queue changes nothing; otherwise the event is queued and its producer goes on. -/
lemma step_push {p : ι} {event : ε} (h : s.step (.push p event) = some s') :
    s.producers p = .idle ∧ (s' = s ∨
      s' = { s.setPc p .pushed with triggerEventQueue := s.triggerEventQueue ++ [event] }) := by
  rw [step] at h
  split at h
  · next hp =>
    refine ⟨hp, ?_⟩
    by_cases hfull : triggerCapacity ≤ s.triggerEventQueue.length
    · exact Or.inl (by simpa [pushTrigger, hfull] using h.symm)
    · exact Or.inr (by simpa [pushTrigger, hfull, setPc] using h.symm)
  · exact absurd h (by simp)

lemma step_load {p : ι} (h : s.step (.load p) = some s') :
    s.producers p = .pushed ∧ ((s.isTriggering = true ∧ s' = s.setPc p .idle) ∨
      (s.isTriggering = false ∧ s' = s.setPc p .loadedFalse)) := by
  rw [step] at h
  split at h
  · next hp =>
    refine ⟨hp, ?_⟩
    cases hflag : s.isTriggering with
    | true => exact Or.inl ⟨rfl, by simpa [hflag] using h.symm⟩
    | false => exact Or.inr ⟨rfl, by simpa [hflag] using h.symm⟩
  · exact absurd h (by simp)

lemma step_store {p : ι} (h : s.step (.store p) = some s') :
    s.producers p = .loadedFalse ∧ s' = { s.setPc p .stored with isTriggering := true } := by
  rw [step] at h
  split at h
  · next hp => exact ⟨hp, (Option.some.inj h).symm⟩
  · exact absurd h (by simp)

lemma step_insert {p : ι} (h : s.step (.insert p) = some s') :
    s.producers p = .stored ∧ s' = { s.setPc p .idle with inExecSet := true } := by
  rw [step] at h
  split at h
  · next hp => exact ⟨hp, (Option.some.inj h).symm⟩
  · exact absurd h (by simp)

lemma step_take (h : s.step .take = some s') :
    s.loop = .idle ∧ s' = { s with loop := .taken, inExecSet := false } := by
  rw [step] at h
  split at h
  · next hl _ => exact ⟨hl, (Option.some.inj h).symm⟩
  · exact absurd h (by simp)

lemma step_drain (h : s.step .drain = some s') :
    s.loop = .taken ∧
      s' = { s with loop := .running s.triggerEventQueue, triggerEventQueue := [] } := by
  rw [step] at h
  split at h
  · next hl => exact ⟨hl, (Option.some.inj h).symm⟩
  · exact absurd h (by simp)

lemma step_runEvent (h : s.step .runEvent = some s') :
    ∃ event rest, s.loop = .running (event :: rest) ∧ s' = { s with loop := .running rest } := by
  rw [step] at h
  split at h
  · next event rest hl => exact ⟨event, rest, hl, (Option.some.inj h).symm⟩
  · exact absurd h (by simp)

lemma step_check {work : Bool} (h : s.step (.check work) = some s') :
    s.loop = .running [] ∧ (s' = { s with loop := .pushing } ∨
      (s.triggerEventQueue = [] ∧ s' = { s with loop := .resetting })) := by
  rw [step] at h
  split at h
  · next hl =>
    refine ⟨hl, ?_⟩
    obtain rfl := Option.some.inj h
    split_ifs with hwork
    · exact Or.inl rfl
    · refine Or.inr ⟨?_, rfl⟩
      simp only [Bool.or_eq_true, Bool.not_eq_true', not_or, Bool.not_eq_false,
        List.isEmpty_iff] at hwork
      exact hwork.1
  · exact absurd h (by simp)

lemma step_rePush (h : s.step .rePush = some s') :
    s' = { s with loop := .idle, inExecSet := true } := by
  rw [step] at h
  split at h
  · exact (Option.some.inj h).symm
  · exact absurd h (by simp)

lemma step_reset (h : s.step .reset = some s') :
    s.loop = .resetting ∧ s' = { s with loop := .idle, isTriggering := false } := by
  rw [step] at h
  split at h
  · next hl => exact ⟨hl, (Option.some.inj h).symm⟩
  · exact absurd h (by simp)

/-! ## The invariant -/

/-- When the flag is set somebody is responsible for resetting it. -/
def FlagOwned (s : WakeConf ι ε) : Prop :=
  s.isTriggering = true →
    s.inExecSet = true ∨ s.loop ≠ .idle ∨ ∃ p, s.producers p = .stored

/-- A producer that moves between two other positions does not change who owns the flag. -/
lemma exists_stored_setPc (p : ι) (pc : ProducerPc) (hp : s.producers p ≠ .stored)
    (h : ∃ q, s.producers q = .stored) : ∃ q, (s.setPc p pc).producers q = .stored := by
  obtain ⟨q, hq⟩ := h
  have hne : q ≠ p := by
    rintro rfl
    exact hp hq
  exact ⟨q, by rw [setPc_producers_ne s pc hne]; exact hq⟩

lemma FlagOwned.setPc (hf : s.FlagOwned) (p : ι) (pc : ProducerPc)
    (hp : s.producers p ≠ .stored) : (s.setPc p pc).FlagOwned := by
  intro hflag
  rcases hf hflag with h | h | h
  · exact Or.inl h
  · exact Or.inr (Or.inl h)
  · exact Or.inr (Or.inr (exists_stored_setPc p pc hp h))

lemma step_flagOwned {a : WakeAction ι ε} (hf : s.FlagOwned) (h : s.step a = some s') :
    s'.FlagOwned := by
  cases a with
  | push p event =>
    obtain ⟨hp, rfl | rfl⟩ := step_push h
    · exact hf
    · exact fun hflag => hf.setPc p .pushed (by simp [hp]) hflag
  | load p =>
    obtain ⟨hp, ⟨-, rfl⟩ | ⟨-, rfl⟩⟩ := step_load h
    · exact hf.setPc _ _ (by simp [hp])
    · exact hf.setPc _ _ (by simp [hp])
  | store p =>
    obtain ⟨-, rfl⟩ := step_store h
    exact fun _ => Or.inr (Or.inr ⟨p, setPc_producers_self s p .stored⟩)
  | insert p =>
    obtain ⟨-, rfl⟩ := step_insert h
    exact fun _ => Or.inl rfl
  | take =>
    obtain ⟨-, rfl⟩ := step_take h
    exact fun _ => Or.inr (Or.inl (by simp))
  | drain =>
    obtain ⟨-, rfl⟩ := step_drain h
    exact fun _ => Or.inr (Or.inl (by simp))
  | runEvent =>
    obtain ⟨event, rest, -, rfl⟩ := step_runEvent h
    exact fun _ => Or.inr (Or.inl (by simp))
  | check work =>
    obtain ⟨-, rfl | ⟨-, rfl⟩⟩ := step_check h
    · exact fun _ => Or.inr (Or.inl (by simp))
    · exact fun _ => Or.inr (Or.inl (by simp))
  | rePush =>
    obtain rfl := step_rePush h
    exact fun _ => Or.inl rfl
  | reset =>
    obtain ⟨-, rfl⟩ := step_reset h
    exact fun hflag => absurd hflag (by simp)

/-- A load that reads true leaves the event to somebody else, whom the flag names. -/
lemma load_noLostWakeup {p : ι} (hf : s.FlagOwned) (hok : s.NoLateLoad (.load p))
    (hp : s.producers p = .pushed) (hflag : s.isTriggering = true) :
    (s.setPc p .idle).NoLostWakeup := by
  intro hqueue
  rcases hf hflag with h | h | h
  · exact Or.inl h
  · -- the loop thread is busy, and will look at the queue again unless it is about to reset
    have hloop : s.loop ≠ .resetting := fun hl => hqueue (hok p rfl hflag hl)
    refine Or.inr (Or.inl ?_)
    show s.loop.attends = true
    cases hl : s.loop with
    | idle => exact absurd hl h
    | resetting => exact absurd hl hloop
    | taken => rfl
    | running execQueue => rfl
    | pushing => rfl
  · obtain ⟨q, hq⟩ := exists_stored_setPc p .idle (by simp [hp]) h
    exact Or.inr (Or.inr ⟨q, by simp [hq]⟩)

lemma step_noLostWakeup {a : WakeAction ι ε} (hf : s.FlagOwned) (hs : s.NoLostWakeup)
    (hok : s.NoLateLoad a) (h : s.step a = some s') : s'.NoLostWakeup := by
  cases a with
  | push p event =>
    obtain ⟨-, rfl | rfl⟩ := step_push h
    · exact hs
    · exact fun _ => Or.inr (Or.inr ⟨p, by simp [setPc_producers_self]⟩)
  | load p =>
    obtain ⟨hp, ⟨hflag, rfl⟩ | ⟨-, rfl⟩⟩ := step_load h
    · exact load_noLostWakeup hf hok hp hflag
    · exact fun _ => Or.inr (Or.inr ⟨p, by simp [setPc_producers_self]⟩)
  | store p =>
    obtain ⟨-, rfl⟩ := step_store h
    exact fun _ => Or.inr (Or.inr ⟨p, by simp [setPc_producers_self]⟩)
  | insert p =>
    obtain ⟨-, rfl⟩ := step_insert h
    exact fun _ => Or.inl rfl
  | take =>
    obtain ⟨-, rfl⟩ := step_take h
    exact fun _ => Or.inr (Or.inl rfl)
  | drain =>
    obtain ⟨-, rfl⟩ := step_drain h
    exact fun hqueue => absurd rfl hqueue
  | runEvent =>
    obtain ⟨event, rest, -, rfl⟩ := step_runEvent h
    exact fun _ => Or.inr (Or.inl rfl)
  | check work =>
    obtain ⟨-, rfl | ⟨hempty, rfl⟩⟩ := step_check h
    · exact fun _ => Or.inr (Or.inl rfl)
    · -- the loop thread stops looking only when it has found the queue empty
      exact fun hqueue => absurd hempty hqueue
  | rePush =>
    obtain rfl := step_rePush h
    exact fun _ => Or.inl rfl
  | reset =>
    -- the loop thread did not attend to the queue before the step either
    obtain ⟨hl, rfl⟩ := step_reset h
    intro hqueue
    rcases hs hqueue with h | h | h
    · exact Or.inl h
    · simp [hl, LoopPc.attends] at h
    · exact Or.inr (Or.inr h)

/-- **No lost wake-up.** In every interleaving in which no producer reads `isTriggering` as
true between the last look of the loop thread at the queue and its reset of the flag, an
accepted event always has somebody who will run it. -/
theorem no_lost_wakeup (as : List (WakeAction ι ε)) (s : WakeConf ι ε)
    (hok : Lib.AllSteps step NoLateLoad init as) (hrun : Lib.run step init as = some s) :
    s.NoLostWakeup := by
  have hinv : s.FlagOwned ∧ s.NoLostWakeup :=
    Lib.run_inv_of_allSteps (I := fun s => s.FlagOwned ∧ s.NoLostWakeup)
      (fun _ _ _ hs hok h => ⟨step_flagOwned hs.1 h, step_noLostWakeup hs.1 hs.2 hok h⟩)
      ⟨fun hflag => absurd hflag (by simp [init]), fun hqueue => absurd rfl hqueue⟩ hok hrun
  exact hinv.2

instance decidableNoLateLoad [Fintype ι] [DecidableEq ε] (s : WakeConf ι ε) (a : WakeAction ι ε) :
    Decidable (s.NoLateLoad a) :=
  inferInstanceAs (Decidable (∀ _, _))

instance decidableNoLostWakeup [Fintype ι] (s : WakeConf ι ε) : Decidable s.NoLostWakeup :=
  inferInstanceAs (Decidable (_ → _))

/-- Two producers whose second push falls into the run of the first event: the loop thread
finds the second event at its last look and pushes the child again. -/
theorem push_while_running_found : ∃ s : WakeConf Bool ℕ,
    Lib.run step init [.push false 1, .load false, .store false, .insert false, .take, .drain,
      .push true 2, .load true, .runEvent, .check false, .rePush] = some s ∧
    s.triggerEventQueue = [2] ∧ s.NoLostWakeup := by
  let as : List (WakeAction Bool ℕ) := [.push false 1, .load false, .store false, .insert false,
    .take, .drain, .push true 2, .load true, .runEvent, .check false, .rePush]
  have hok : Lib.AllSteps step NoLateLoad init as := by decide +kernel
  have hrun : (Lib.run step init as).map triggerEventQueue = some [2] := by decide +kernel
  obtain ⟨s, hs, hqueue⟩ := Option.map_eq_some_iff.mp hrun
  exact ⟨s, hs, hqueue, no_lost_wakeup as s hok hs⟩

/-- The second producer pushes and reads the flag between the last look of the loop thread
and its reset: all threads are idle, and the event is still queued. -/
theorem push_before_reset_lost : ∃ (as : List (WakeAction Bool ℕ)) (s : WakeConf Bool ℕ),
    Lib.run step init as = some s ∧ ¬ s.NoLostWakeup := by
  let as : List (WakeAction Bool ℕ) := [.push false 1, .load false, .store false, .insert false,
    .take, .drain, .runEvent, .check false, .push true 2, .load true, .reset]
  have hrun : (Lib.run step init as).map (fun s => decide s.NoLostWakeup) = some false := by
    decide +kernel
  obtain ⟨s, hs, hlost⟩ := Option.map_eq_some_iff.mp hrun
  exact ⟨as, s, hs, by simpa using hlost⟩

end WakeConf

end SignalEventLoop.Core
