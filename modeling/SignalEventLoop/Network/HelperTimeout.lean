/-
# The deadline of the handshake

`WebsocketConnectionHelper::setTimeout` makes a timer in the scheduler, sets it to single shot
and connects its `timeout` to `abort`; `handleConnectSuccess` stops it.  Nobody starts it.  The
helper does not give the pointer away, so that the timer is silent for ever: it never aborts a
connection, whether the handshake is finished or not.

A slot that is connected to `timeout` is queued on the helper and runs later.  The effect
`stopTimer` of an event is carried out on the timers of the scheduler.
-/
import SignalEventLoop.Core.TimerStop
import SignalEventLoop.Network.Handshake

namespace SignalEventLoop.Network

open SignalEventLoop.Core ConnectionHelper

/-- A helper, and the timers of its scheduler. -/
structure TimedHelper where
  helper : HelperState
  timeoutTimer : Option TimerRef
  /-- The calls of `abort` that are queued by `timeout`. -/
  queuedAborts : ℕ
  timers : TimerConf

/-- What happens on the loop thread. -/
inductive TimedAction where
  | event (e : HelperEvent)
  | setTimeout (time_msec : UInt32)
  /-- The scheduler handles its timers, or somebody else uses a timer of his own. -/
  | timer (a : TimerAction)
  /-- A queued call of `abort` runs. -/
  | runAbort

namespace TimedHelper

/-- A new helper, when the clock reads `clock`. -/
def init (clock : ℤ) : TimedHelper := ⟨.init, none, 0, .init clock⟩

/-- The action is a call on this timer. -/
def CallsOn (r : TimerRef) : TimerAction → Prop
  | .call (.setInterval r' _) | .call (.setSingle r' _) | .call (.start r') | .call (.stop r')
  | .call (.release r') => r' = r
  | _ => False

instance decidableCallsOn (r : TimerRef) : (a : TimerAction) → Decidable (CallsOn r a)
  | .call (.setInterval r' _) | .call (.setSingle r' _) | .call (.start r') | .call (.stop r')
  | .call (.release r') => inferInstanceAs (Decidable (r' = r))
  | .call (.addTimer _) | .tick _ | .handleTimerEvent | .emitTimeout | .slotsReturn | .finish =>
    isFalse id

/-- `if(timeoutTimer)timeoutTimer->stop()`, when `stops` says so. -/
def stopTimeout (x : TimedHelper) (stops : Bool) : Option TimerConf :=
  match x.timeoutTimer with
  | some r => if stops then x.timers.step (.call (.stop r)) else some x.timers
  | none => some x.timers

/-- `WebsocketConnectionHelper::setTimeout`; a null timer has no result. -/
def setTimeout (x : TimedHelper) (time_msec : UInt32) : Option TimedHelper :=
  if x.helper.connectionStatus = .closed then some x
  else
    match x.timeoutTimer with
    | some _ => some x
    | none => do
      let r ← (x.timers.tables.addTimer time_msec.toNat).1
      let timers ← x.timers.step (.call (.addTimer time_msec.toNat))
      let timers ← timers.step (.call (.setSingle r true))
      some { x with timeoutTimer := some r, timers := timers }

/-- How often `timeout` of the own timer is emitted. -/
def timeouts (x : TimedHelper) (a : TimerAction) : ℕ :=
  match x.timeoutTimer with
  | some r => (x.timers.emits a).count r
  | none => 0

variable (H : ConnectionHelper)

/-- The state after an action. -/
def step (x : TimedHelper) : TimedAction → Option TimedHelper
  | .event e => do
    let helper ← (H.step x.helper e).toOption
    let timers ← x.stopTimeout
      (decide (Effect.stopTimer ∈ helper.log.drop x.helper.log.length))
    some { x with helper := helper, timers := timers }
  | .setTimeout time_msec => x.setTimeout time_msec
  | .timer a =>
    if x.timeoutTimer.any fun r => decide (CallsOn r a) then none
    else (x.timers.step a).map fun timers =>
      { x with timers := timers, queuedAborts := x.queuedAborts + x.timeouts a }
  | .runAbort =>
    if x.queuedAborts = 0 then none
    else some { x with helper := abort x.helper, queuedAborts := x.queuedAborts - 1 }

/-- The states that a new helper reaches. -/
def Reachable (x : TimedHelper) : Prop :=
  ∃ clock as, Lib.run (step H) (init clock) as = some x

/-- The handshake goes on. -/
def Unfinished (x : TimedHelper) : Prop :=
  x.helper.connectionStatus = .passive ∨ x.helper.connectionStatus = .activeConnecting ∨
    x.helper.connectionStatus = .passiveConnecting

/-- What `setTimeout` promises for a deadline: the timer is working with this deadline while the
handshake goes on, and it is not working and does not abort any more when it is over. -/
structure Promise (deadline : ℤ) (x : TimedHelper) : Prop where
  armed : x.Unfinished → ∃ r, x.timeoutTimer = some r ∧
    (x.timers.tables.timers r).working = true ∧
    (x.timers.tables.timers r).nextTimeout = deadline
  disarmed : x.helper.connectionStatus = .connected ∨ x.helper.connectionStatus = .closed →
    (∀ r, x.timeoutTimer = some r → (x.timers.tables.timers r).working = false) ∧
    x.queuedAborts = 0

/-! ## The timer is never started -/

variable {H} {x x' : TimedHelper}

/-- The timer is silent, and nothing is queued for it. -/
structure Quiet (x : TimedHelper) : Prop where
  known : x.timers.QueueKnown
  silent : ∀ r, x.timeoutTimer = some r → x.timers.Silent r
  noAbort : x.queuedAborts = 0

lemma quiet_init (clock : ℤ) : Quiet (init clock) :=
  ⟨TimerConf.queueKnown_init clock, by simp [init], rfl⟩

lemma not_starts_of_ne {c : TimerConf} {r : TimerRef} {a : TimerAction}
    (h : a ≠ .call (.start r)) : ¬ TimerConf.Starts r c a := fun hs => h hs.1

lemma Quiet.setTimeout (h : Quiet x) {time_msec : UInt32}
    (hx' : x.setTimeout time_msec = some x') : Quiet x' := by
  rw [TimedHelper.setTimeout] at hx'
  split_ifs at hx' with hclosed
  · obtain rfl := Option.some.inj hx'
    exact h
  · split at hx'
    · obtain rfl := Option.some.inj hx'
      exact h
    · obtain ⟨r, hr, hx'⟩ := Option.bind_eq_some_iff.mp hx'
      obtain ⟨c₁, hc₁, hx'⟩ := Option.bind_eq_some_iff.mp hx'
      obtain ⟨c₂, hc₂, hx'⟩ := Option.bind_eq_some_iff.mp hx'
      obtain rfl := Option.some.inj hx'
      have hknown₁ := h.known.step hc₁
      have hsilent := TimerConf.silent_of_addTimer h.known hr hc₁
      refine ⟨hknown₁.step hc₂, ?_, h.noAbort⟩
      intro r' hr'
      obtain rfl := Option.some.inj hr'
      exact TimerConf.step_silent hknown₁.ids hsilent (not_starts_of_ne (by simp)) hc₂

lemma Quiet.stopTimeout (h : Quiet x) {stops : Bool} {timers : TimerConf}
    (hstop : x.stopTimeout stops = some timers) : timers.QueueKnown ∧
      ∀ r, x.timeoutTimer = some r → timers.Silent r := by
  rw [TimedHelper.stopTimeout] at hstop
  split at hstop
  · rename_i r hr
    split_ifs at hstop
    · refine ⟨h.known.step hstop, fun r' hr' => ?_⟩
      exact TimerConf.step_silent h.known.ids (h.silent r' hr') (not_starts_of_ne (by simp)) hstop
    · obtain rfl := Option.some.inj hstop
      exact ⟨h.known, h.silent⟩
  · obtain rfl := Option.some.inj hstop
    exact ⟨h.known, h.silent⟩

lemma Quiet.step (h : Quiet x) {a : TimedAction} (hx' : x.step H a = some x') : Quiet x' := by
  cases a with
  | event e =>
    obtain ⟨helper, -, hx'⟩ := Option.bind_eq_some_iff.mp hx'
    obtain ⟨timers, hstop, hx'⟩ := Option.bind_eq_some_iff.mp hx'
    obtain rfl := Option.some.inj hx'
    obtain ⟨hknown, hsilent⟩ := h.stopTimeout hstop
    exact ⟨hknown, hsilent, h.noAbort⟩
  | setTimeout time_msec => exact h.setTimeout hx'
  | timer a =>
    rw [TimedHelper.step] at hx'
    split_ifs at hx' with hcalls
    obtain ⟨timers, htimers, rfl⟩ := Option.map_eq_some_iff.mp hx'
    refine ⟨h.known.step htimers, fun r hr => ?_, ?_⟩
    · refine TimerConf.step_silent h.known.ids (h.silent r hr) (not_starts_of_ne ?_) htimers
      rintro rfl
      have hr' : x.timeoutTimer = some r := hr
      simp [hr', CallsOn] at hcalls
    · -- the timer is not emitted
      show x.queuedAborts + x.timeouts a = 0
      rw [h.noAbort, timeouts]
      split
      · rename_i r hr
        rw [List.count_eq_zero.mpr ((h.silent r hr).not_emits htimers)]
      · rfl
  | runAbort =>
    rw [TimedHelper.step, if_pos h.noAbort] at hx'
    simp at hx'

lemma quiet_of_run {as : List TimedAction} (h : Quiet x)
    (hrun : Lib.run (step H) x as = some x') : Quiet x' :=
  Lib.run_inv (I := Quiet) (fun _ _ _ hx hx' => hx.step hx') h hrun

/-! ## A finished handshake stays finished -/

lemma setTimeout_helper {time_msec : UInt32} (hx' : x.setTimeout time_msec = some x') :
    x'.helper = x.helper := by
  rw [setTimeout] at hx'
  split_ifs at hx'
  · rw [← Option.some.inj hx']
  · split at hx'
    · rw [← Option.some.inj hx']
    · obtain ⟨r, -, hx'⟩ := Option.bind_eq_some_iff.mp hx'
      obtain ⟨c₁, -, hx'⟩ := Option.bind_eq_some_iff.mp hx'
      obtain ⟨c₂, -, hx'⟩ := Option.bind_eq_some_iff.mp hx'
      rw [← Option.some.inj hx']

/-- The handshake is over. -/
def Finished (x : TimedHelper) : Prop :=
  x.helper.connectionStatus = .connected ∨ x.helper.connectionStatus = .closed

lemma Finished.step (h : x.Finished) {a : TimedAction} (hx' : x.step H a = some x') :
    x'.Finished := by
  cases a with
  | event e =>
    obtain ⟨helper, he, hx'⟩ := Option.bind_eq_some_iff.mp hx'
    obtain ⟨timers, -, hx'⟩ := Option.bind_eq_some_iff.mp hx'
    obtain rfl := Option.some.inj hx'
    have hstep := ConnectionHelper.next_eq_some.mp he
    cases outcome_of_step hstep with
    | keeps _ _ _ hmoves _ _ =>
      rcases hmoves with heq | hnext
      · show helper.connectionStatus = .connected ∨ helper.connectionStatus = .closed
        rw [← heq]
        exact h
      · rcases h with h | h <;> rw [h] at hnext <;> simp [WebsocketStatus.next] at hnext
        exact Or.inr hnext
    | handsOff _ _ _ _ hst _ _ _ => exact Or.inl hst
  | setTimeout time_msec =>
    have hsame : x'.helper = x.helper := setTimeout_helper hx'
    rw [Finished, hsame]
    exact h
  | timer a =>
    rw [TimedHelper.step] at hx'
    split_ifs at hx'
    obtain ⟨timers, -, rfl⟩ := Option.map_eq_some_iff.mp hx'
    exact h
  | runAbort =>
    rw [TimedHelper.step] at hx'
    split_ifs at hx'
    obtain rfl := Option.some.inj hx'
    exact Or.inr rfl

/-- A quiet timer is not armed. -/
lemma Quiet.not_unfinished (h : Quiet x) {deadline : ℤ} (hpromise : Promise deadline x) :
    ¬ x.Unfinished := by
  intro hunfinished
  obtain ⟨r, hr, hworking, -⟩ := hpromise.armed hunfinished
  rw [(h.silent r hr).idle] at hworking
  exact absurd hworking (by simp)

/-- After the handshake a quiet timer keeps the promise. -/
lemma Quiet.promise (h : Quiet x) (hfinished : x.Finished) (deadline : ℤ) :
    Promise deadline x := by
  refine ⟨fun hunfinished => ?_, fun _ => ⟨fun r hr => (h.silent r hr).idle, h.noAbort⟩⟩
  rcases hfinished with hst | hst <;> rcases hunfinished with h' | h' | h' <;>
    exact absurd (hst.symm.trans h') (by simp)

/-- **The deadline of the handshake.** Whatever happens after a call of `setTimeout` on a
connection that is not closed: the timer is armed while the handshake goes on, and silent when
it is over, if and only if the handshake was over at the time of the call.  A handshake that
goes on has no deadline. -/
theorem deadline_iff_connected (H : ConnectionHelper) (x : TimedHelper) (hx : x.Reachable H)
    (hst : x.helper.connectionStatus ≠ .closed) (time_msec : UInt32) (x₁ : TimedHelper)
    (hcall : x.step H (.setTimeout time_msec) = some x₁) :
    (∀ as x₂, Lib.run (step H) x₁ as = some x₂ →
      Promise (x.timers.clock + time_msec.toNat) x₂) ↔
    x.helper.connectionStatus = .connected := by
  obtain ⟨clock, before, hrun⟩ := hx
  have hquiet₁ : Quiet x₁ := (quiet_of_run (quiet_init clock) hrun).step hcall
  have hsame : x₁.helper = x.helper := setTimeout_helper hcall
  constructor
  · intro hall
    have hnot := hquiet₁.not_unfinished (hall [] x₁ rfl)
    rw [Unfinished, hsame] at hnot
    cases hstatus : x.helper.connectionStatus <;> simp_all
  · intro hconnected as x₂ hrun₂
    have hfinished : x₁.Finished := Or.inl (by rw [hsame, hconnected])
    refine (quiet_of_run hquiet₁ hrun₂).promise ?_ _
    exact Lib.run_inv (I := Finished) (fun _ _ _ h hx' => h.step hx') hfinished hrun₂

/-- Without a timer an event is an event of the helper. -/
lemma step_event (htimer : x.timeoutTimer = none) {e : HelperEvent} {s' : HelperState}
    (hs' : H.step x.helper e = .ok s') :
    x.step H (.event e) = some { x with helper := s' } := by
  refine Option.bind_eq_some_iff.mpr ⟨s', next_eq_some.mpr hs', ?_⟩
  rw [stopTimeout, htimer]
  rfl

/-- `setTimeout` after a handshake. -/
theorem setTimeout_after_handshake : ∃ x x₁ : TimedHelper, x.Reachable sampleHelper ∧
    x.step sampleHelper (.setTimeout 5000) = some x₁ ∧
    ∀ as x₂, Lib.run (step sampleHelper) x₁ as = some x₂ → Promise 5000 x₂ := by
  obtain ⟨s, s', hs, -, -, -, hstep, hst, -⟩ := sample_connects
  have hsetup : (init 0).step sampleHelper (.event (.activeSetup (ascii "/chat"))) =
      some ⟨s, none, 0, .init 0⟩ := step_event rfl hs
  have hrecv : (⟨s, none, 0, .init 0⟩ : TimedHelper).step sampleHelper
      (.event (.recv [.data sampleResponse])) = some ⟨s', none, 0, .init 0⟩ :=
    step_event rfl hstep
  have hreach : (⟨s', none, 0, .init 0⟩ : TimedHelper).Reachable sampleHelper := by
    refine ⟨0, [.event (.activeSetup (ascii "/chat")),
      .event (.recv [.data sampleResponse])], ?_⟩
    rw [Lib.run_cons, hsetup, Option.bind_some, Lib.run_cons, hrecv, Option.bind_some, Lib.run_nil]
  obtain ⟨x₁, hx₁⟩ : ∃ x₁, (⟨s', none, 0, .init 0⟩ : TimedHelper).step sampleHelper
      (.setTimeout 5000) = some x₁ := by
    have hadd : ((TimerConf.init 0).tables.addTimer 5000).1 = some 0 := by decide +kernel
    have hcalls : (Lib.run TimerConf.step (.init 0)
        [.call (.addTimer 5000), .call (.setSingle 0 true)]).isSome = true := by decide +kernel
    obtain ⟨c₂, hc₂⟩ := Option.isSome_iff_exists.mp hcalls
    obtain ⟨c₁, hc₁, hrun₁⟩ := Lib.run_cons_eq_some.mp hc₂
    obtain ⟨c₂', hc₂', -⟩ := Lib.run_cons_eq_some.mp hrun₁
    refine ⟨⟨s', some 0, 0, c₂'⟩, ?_⟩
    rw [step, setTimeout, if_neg (by simp [hst])]
    exact Option.bind_eq_some_iff.mpr ⟨0, hadd, Option.bind_eq_some_iff.mpr ⟨c₁, hc₁,
      Option.bind_eq_some_iff.mpr ⟨c₂', hc₂', rfl⟩⟩⟩
  exact ⟨_, x₁, hreach, hx₁,
    (deadline_iff_connected sampleHelper _ hreach (by simp [hst]) 5000 x₁ hx₁).mpr hst⟩

/-- A new connection with a timeout of five seconds: after ten seconds and a pass over the
timers it still waits, and the timer is not working. -/
theorem timeout_never_fires : ∃ x₁ x₂ : TimedHelper,
    (init 0).step sampleHelper (.setTimeout 5000) = some x₁ ∧
    Lib.run (step sampleHelper) x₁ [.timer (.tick 10000), .timer .handleTimerEvent,
      .timer .finish] = some x₂ ∧
    x₂.Unfinished ∧ 5000 < x₂.timers.clock ∧ ¬ Promise 5000 x₂ := by
  have hrun : (((init 0).step sampleHelper (.setTimeout 5000)).bind fun x₁ =>
      (Lib.run (step sampleHelper) x₁ [.timer (.tick 10000), .timer .handleTimerEvent,
        .timer .finish]).map fun x₂ => (x₂.helper.connectionStatus, x₂.timers.clock,
          x₂.timeoutTimer, (x₂.timers.tables.timers 0).working)) =
      some (.passive, 10000, some 0, false) := by decide +kernel
  obtain ⟨x₁, hx₁, hrest⟩ := Option.bind_eq_some_iff.mp hrun
  obtain ⟨x₂, hx₂, hobs⟩ := Option.map_eq_some_iff.mp hrest
  simp only [Prod.mk.injEq] at hobs
  obtain ⟨hst, hclock, htimer, hworking⟩ := hobs
  have hunfinished : x₂.Unfinished := Or.inl hst
  refine ⟨x₁, x₂, hx₁, hx₂, hunfinished, by rw [hclock]; norm_num, fun hpromise => ?_⟩
  obtain ⟨r, hr, hr', -⟩ := hpromise.armed hunfinished
  obtain rfl : 0 = r := Option.some.inj (htimer.symm.trans hr)
  rw [hworking] at hr'
  exact absurd hr' (by simp)

end TimedHelper

end SignalEventLoop.Network
