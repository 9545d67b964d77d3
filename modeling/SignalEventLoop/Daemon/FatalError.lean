/-
# The fatal state

`check` counts the runs that end by themselves in less than `errorRebootThresholdSec` seconds,
and gives up when there are `maxErrorRebootCnt` of them.  They are meant to be consecutive
(`errorBootCnt` and `DaemonSessionFatalError` in `daemon-instance.h`): a longer run sets the
counter back.  A stop or a restart by hand does not; and a run is as long as it takes `check`
to notice its end.

The history of a session is the list of its runs that ended by themselves and of its stops and
restarts by hand, the last one first.
-/
import SignalEventLoop.Lib.Run
import SignalEventLoop.Daemon.DaemonSession

namespace SignalEventLoop.Daemon

open Lib

/-! ## Histories -/

inductive RunEvent where
  /-- A run ended by itself after `duration` seconds; `fatal` says whether the `check` that
  noticed it entered the fatal state. -/
  | ended (duration : ℤ) (fatal : Bool)
  /-- A stop or a restart by hand. -/
  | manual
deriving DecidableEq

/-- The number of the last runs that were short, since a longer run, a stop or restart by hand, or
the fatal state. -/
def streak (threshold : ℤ) : List RunEvent → ℕ
  | .ended duration false :: events =>
    if duration < threshold then streak threshold events + 1 else 0
  | _ => 0

/-- The fatal state was entered with a run exactly when it was the last of `m` consecutive short
runs. -/
def Consecutive (m threshold : ℤ) : List RunEvent → Prop
  | [] => True
  | .ended duration fatal :: events =>
    (fatal = true ↔ duration < threshold ∧ m ≤ streak threshold events + 1) ∧
      Consecutive m threshold events
  | .manual :: events => Consecutive m threshold events

/-- A session with its history.  `exitTime` is when the current process ended, when it has ended,
and `clock` the last time that is known. -/
structure Monitored where
  session : DaemonSession
  exitTime : Option ℤ
  clock : ℤ
  events : List RunEvent
deriving DecidableEq

inductive MonitoredAction where
  | start (clock : ℤ)
  | stop (r : ReleaseResult)
  | restart (r : ReleaseResult) (clock : ℤ)
  | check (r : CheckResult)
  /-- The process ends by itself. -/
  | childExit (time : ℤ)

namespace Monitored

/-- `check` notices that the process has ended. -/
def Notices (s : Monitored) (r : CheckResult) : Prop :=
  s.session.status = .running ∧ r.wait = s.session.pid

instance decidableNotices (s : Monitored) (r : CheckResult) : Decidable (s.Notices r) :=
  inferInstanceAs (Decidable (_ ∧ _))

/-- The readings of the clock by `check`. -/
def Readings (s : Monitored) (r : CheckResult) : Prop :=
  s.clock ≤ r.exitClock ∧ r.exitClock ≤ r.restartClock ∧ r.restartClock ≤ r.nowClock

instance decidableReadings (s : Monitored) (r : CheckResult) : Decidable (s.Readings r) :=
  inferInstanceAs (Decidable (_ ∧ _ ∧ _))

/-- One step.  The clock does not go back, and `waitpid` returns a process only when it has
ended. -/
def step (s : Monitored) : MonitoredAction → Option Monitored
  | .start clock =>
    if s.clock ≤ clock then some { s with session := s.session.start clock, clock := clock }
    else none
  | .stop r =>
    some { s with
      session := (s.session.stop r).1, exitTime := none, events := .manual :: s.events }
  | .restart r clock =>
    if s.clock ≤ clock then
      some ⟨(s.session.restart r clock).1, none, clock, .manual :: s.events⟩
    else none
  | .check r =>
    if s.Readings r then
      let session := (s.session.check r).1
      if s.Notices r then
        s.exitTime.map fun time =>
          ⟨session, none, r.nowClock,
            .ended (time - s.session.lastBootTime) (session.status = .fatalError) :: s.events⟩
      else some { s with session := session, clock := r.nowClock }
    else none
  | .childExit time =>
    if s.session.status = .running ∧ s.exitTime = none ∧ s.clock ≤ time then
      some { s with exitTime := some time, clock := time }
    else none

/-- A new session with a configuration. -/
def initial (worker : Bool) (config : DaemonConfig) : Monitored :=
  ⟨{ DaemonSession.new worker with config := config }, none, 0, []⟩

/-- The history is as it should be. -/
def FatalMeansConsecutive (s : Monitored) : Prop :=
  Consecutive s.session.config.maxErrorRebootCnt s.session.config.errorRebootThresholdSec s.events

/-- No stop or restart by hand while runs are counted, and the end of a short run is noticed while
it still counts as short. -/
def Undisturbed (s : Monitored) : MonitoredAction → Prop
  | .stop _ | .restart _ _ => s.session.errorBootCnt = 0
  | .check r => s.Notices r → ∀ time, s.exitTime = some time →
      time - s.session.lastBootTime < s.session.config.errorRebootThresholdSec →
      r.exitClock - s.session.lastBootTime < s.session.config.errorRebootThresholdSec
  | _ => True

end Monitored

/-! ## What the operations do to the counter -/

section Counter

variable (s : DaemonSession)

/-- The second part of `check` leaves the counter alone and does not enter the fatal state. -/
lemma checkStart_counter (r : CheckResult) :
    (s.checkStart r).1.errorBootCnt = s.errorBootCnt ∧ (s.checkStart r).1.config = s.config ∧
      ((s.checkStart r).1.status = .fatalError ↔ s.status = .fatalError) := by
  simp only [DaemonSession.checkStart]
  split_ifs with hboot hfail
  · simp
  · simp [DaemonSession.setRunningStatus, hboot.1]
  · exact ⟨rfl, rfl, Iff.rfl⟩

/-- The first part of `check`: the fatal state is entered when the counter has reached its limit,
and the counter begins again. -/
lemma checkExited_counter (r : CheckResult) (hm : 0 < s.config.maxErrorRebootCnt) :
    (s.checkExited r).1.config = s.config ∧
      ((s.checkExited r).1.status = .fatalError ↔
        s.config.maxErrorRebootCnt ≤ s.nextErrorBootCnt r.exitClock) ∧
      (s.checkExited r).1.errorBootCnt =
        if s.config.maxErrorRebootCnt ≤ s.nextErrorBootCnt r.exitClock then 0
        else s.nextErrorBootCnt r.exitClock := by
  have hcnt : s.resetBootStatus.1.nextErrorBootCnt r.exitClock = s.nextErrorBootCnt r.exitClock :=
    rfl
  simp only [DaemonSession.checkExited, hcnt]
  by_cases hle : s.config.maxErrorRebootCnt ≤ s.nextErrorBootCnt r.exitClock
  · simp [hm, hle, DaemonSession.resetBootStatus]
  · by_cases hauto : s.config.autoRestart = true
    · simp [hle, hauto, DaemonSession.resetBootStatus]
    · simp [hle, hauto, DaemonSession.resetBootStatus]

end Counter

/-! ## The invariant -/

namespace Monitored

variable {s s' : Monitored}

/-- The counter is the number of consecutive short runs. -/
structure Counted (s : Monitored) : Prop where
  consecutive : s.FatalMeansConsecutive
  cnt : s.session.errorBootCnt = streak s.session.config.errorRebootThresholdSec s.events
  cnt_lt : s.session.errorBootCnt < s.session.config.maxErrorRebootCnt
  max_lt : s.session.config.maxErrorRebootCnt < 2 ^ 31
  threshold_pos : 0 < s.session.config.errorRebootThresholdSec
  exit_le : ∀ time, s.exitTime = some time → time ≤ s.clock

lemma Counted.max_pos (h : s.Counted) : 0 < s.session.config.maxErrorRebootCnt := by
  have := h.cnt
  have := h.cnt_lt
  omega

/-- The counter behind a run, when its end was noticed in time. -/
lemma Counted.nextErrorBootCnt (h : s.Counted) {clock time : ℤ} (hle : time ≤ clock)
    (hok : time - s.session.lastBootTime < s.session.config.errorRebootThresholdSec →
      clock - s.session.lastBootTime < s.session.config.errorRebootThresholdSec) :
    s.session.nextErrorBootCnt clock =
      if time - s.session.lastBootTime < s.session.config.errorRebootThresholdSec then
        (streak s.session.config.errorRebootThresholdSec s.events : ℤ) + 1
      else 0 := by
  have hcnt := h.cnt
  have hlt := h.cnt_lt
  have hmax := h.max_lt
  have hup : countUp s.session.errorBootCnt = s.session.errorBootCnt + 1 := by
    rw [countUp, Int.bmod_eq_of_le]
    · norm_num
      omega
    · norm_num
      omega
  rw [DaemonSession.nextErrorBootCnt]
  by_cases hshort : time - s.session.lastBootTime < s.session.config.errorRebootThresholdSec
  · rw [if_pos ⟨h.threshold_pos, hok hshort⟩, if_pos hshort, hup, hcnt]
  · rw [if_neg (fun hc => hshort (by omega)), if_neg hshort]

/-- A stop or restart by hand, when no run is counted. -/
lemma Counted.manual (h : s.Counted) (hzero : s.session.errorBootCnt = 0) (session : DaemonSession)
    (hcnt : session.errorBootCnt = s.session.errorBootCnt)
    (hconfig : session.config = s.session.config)
    (clock : ℤ) : Counted ⟨session, none, clock, .manual :: s.events⟩ := by
  have hmax := h.max_pos
  refine ⟨?_, ?_, ?_, ?_, ?_, by simp⟩
  · simpa [FatalMeansConsecutive, Consecutive, hconfig] using h.consecutive
  · simp [hcnt, hzero, streak]
  · simp only [hconfig, hcnt, hzero]
    exact hmax
  · simp only [hconfig]
    exact h.max_lt
  · simp only [hconfig]
    exact h.threshold_pos

/-- A step that does not end a run. -/
lemma Counted.same (h : s.Counted) {session : DaemonSession} {exitTime : Option ℤ} {clock : ℤ}
    (hcnt : session.errorBootCnt = s.session.errorBootCnt)
    (hconfig : session.config = s.session.config)
    (hexit : ∀ time, exitTime = some time → time ≤ clock) :
    Counted ⟨session, exitTime, clock, s.events⟩ := by
  refine ⟨?_, ?_, ?_, ?_, ?_, hexit⟩
  · simpa [FatalMeansConsecutive, hconfig] using h.consecutive
  · simpa [hconfig, hcnt] using h.cnt
  · simpa [hconfig, hcnt] using h.cnt_lt
  · simpa [hconfig] using h.max_lt
  · simpa [hconfig] using h.threshold_pos

/-- A run is added to the history, as the rule wants it. -/
lemma Counted.record (h : s.Counted) {session : DaemonSession} {duration : ℤ} {fatal : Bool}
    (clock : ℤ) (hconfig : session.config = s.session.config)
    (hfatal : fatal = true ↔ duration < s.session.config.errorRebootThresholdSec ∧
      s.session.config.maxErrorRebootCnt ≤
        streak s.session.config.errorRebootThresholdSec s.events + 1)
    (hcnt : session.errorBootCnt =
      if duration < s.session.config.errorRebootThresholdSec ∧ fatal = false then
        (streak s.session.config.errorRebootThresholdSec s.events : ℤ) + 1
      else 0) :
    Counted ⟨session, none, clock, .ended duration fatal :: s.events⟩ := by
  have hpos := h.max_pos
  refine ⟨?_, ?_, ?_, by simpa only [hconfig] using h.max_lt,
    by simpa only [hconfig] using h.threshold_pos, by simp⟩
  · simp only [FatalMeansConsecutive, Consecutive, hconfig]
    exact ⟨hfatal, h.consecutive⟩
  · simp only [hconfig, hcnt]
    cases fatal with
    | true => simp [streak]
    | false =>
      simp only [streak, and_true]
      split_ifs <;> simp
  · simp only [hconfig, hcnt]
    cases fatal with
    | true =>
      simp only [Bool.true_eq_false, and_false, if_false]
      exact hpos
    | false =>
      split_ifs with hshort
      · exact lt_of_not_ge fun hle => absurd (hfatal.mpr ⟨hshort.1, hle⟩) (by simp)
      · exact hpos

/-- **A run ends by itself.** -/
lemma Counted.ended (h : s.Counted) {r : CheckResult} {time : ℤ} (hnotices : s.Notices r)
    (hle : time ≤ r.exitClock)
    (hok : time - s.session.lastBootTime < s.session.config.errorRebootThresholdSec →
      r.exitClock - s.session.lastBootTime < s.session.config.errorRebootThresholdSec) :
    Counted ⟨(s.session.check r).1, none, r.nowClock,
      .ended (time - s.session.lastBootTime) ((s.session.check r).1.status = .fatalError) ::
        s.events⟩ := by
  have hcheck : (s.session.check r).1 = ((s.session.checkExited r).1.checkStart r).1 := by
    have hend : s.session.status = .running ∧ r.wait = s.session.pid := hnotices
    simp only [DaemonSession.check, if_pos hend]
  obtain ⟨hcnt, hconfig, hstatus⟩ := checkStart_counter (s.session.checkExited r).1 r
  obtain ⟨hconfig', hfatal, hcnt'⟩ := checkExited_counter s.session r h.max_pos
  have hnext := h.nextErrorBootCnt hle hok
  have hpos := h.max_pos
  rw [← hcheck] at hcnt hconfig hstatus
  -- the counter reaches its limit exactly with a short run that is the last of the streak
  have hlimit : s.session.config.maxErrorRebootCnt ≤ s.session.nextErrorBootCnt r.exitClock ↔
      time - s.session.lastBootTime < s.session.config.errorRebootThresholdSec ∧
        s.session.config.maxErrorRebootCnt ≤
          streak s.session.config.errorRebootThresholdSec s.events + 1 := by
    rw [hnext]
    split_ifs with hshort
    · simp [hshort]
    · simp [hshort, hpos]
  refine h.record _ (hconfig.trans hconfig') ?_ ?_
  · rw [decide_eq_true_iff, hstatus, hfatal, hlimit]
  · rw [hcnt, hcnt']
    by_cases hmax : s.session.config.maxErrorRebootCnt ≤ s.session.nextErrorBootCnt r.exitClock
    · simp [hmax, hstatus.mpr (hfatal.mpr hmax)]
    · have hnot : (s.session.check r).1.status ≠ .fatalError :=
        fun hc => hmax (hfatal.mp (hstatus.mp hc))
      simp only [if_neg hmax, hnot, decide_false, and_true]
      exact hnext

lemma Counted.next {a : MonitoredAction} (h : s.Counted) (hok : s.Undisturbed a)
    (hstep : s.step a = some s') : s'.Counted := by
  cases a with
  | start clock =>
    simp only [step] at hstep
    split_ifs at hstep with hclock
    obtain rfl := Option.some.inj hstep
    exact h.same (by simp) (by simp) fun time htime => (h.exit_le time htime).trans hclock
  | stop r =>
    obtain rfl := Option.some.inj hstep
    exact h.manual hok (s.session.stop r).1 rfl rfl s.clock
  | restart r clock =>
    simp only [step] at hstep
    split_ifs at hstep with hclock
    obtain rfl := Option.some.inj hstep
    refine h.manual hok _ ?_ ?_ clock
    · exact DaemonSession.start_errorBootCnt _ _
    · exact DaemonSession.start_config _ _
  | check r =>
    simp only [step] at hstep
    split_ifs at hstep with hclock hnotices
    · obtain ⟨time, htime, rfl⟩ := Option.map_eq_some_iff.mp hstep
      exact h.ended hnotices ((h.exit_le time htime).trans hclock.1) (hok hnotices time htime)
    · obtain rfl := Option.some.inj hstep
      have hcheck : (s.session.check r).1 = (s.session.checkStart r).1 := by
        have hend : ¬ (s.session.status = .running ∧ r.wait = s.session.pid) := hnotices
        simp only [DaemonSession.check, if_neg hend]
      obtain ⟨hcnt, hconfig, -⟩ := checkStart_counter s.session r
      rw [hcheck]
      refine h.same hcnt hconfig fun time htime => (h.exit_le time htime).trans ?_
      exact hclock.1.trans (hclock.2.1.trans hclock.2.2)
  | childExit time =>
    simp only [step] at hstep
    split_ifs at hstep with hexit
    obtain rfl := Option.some.inj hstep
    refine h.same rfl rfl fun time' htime => ?_
    rw [Option.some.inj htime]

end Monitored

/-- **The fatal state means consecutive failures.** In every run without a stop or restart by
hand while runs are counted, and in which the end of a short run is noticed in time, the fatal
state is entered exactly with the last of `maxErrorRebootCnt` consecutive short runs. -/
theorem fatal_means_consecutive (worker : Bool) (config : DaemonConfig)
    (hmax : 0 < config.maxErrorRebootCnt) (hlt : config.maxErrorRebootCnt < 2 ^ 31)
    (hthreshold : 0 < config.errorRebootThresholdSec) (as : List MonitoredAction)
    (h : AllSteps Monitored.step Monitored.Undisturbed (.initial worker config) as) :
    AllStates Monitored.step Monitored.FatalMeansConsecutive (.initial worker config) as :=
  allStates_of_allSteps (fun _ _ _ hs hok hstep => hs.next hok hstep)
    (fun _ hs => hs.consecutive)
    (⟨trivial, rfl, hmax, hlt, hthreshold, by simp [Monitored.initial]⟩ :
      (Monitored.initial worker config).Counted) h

/-- Two short runs, of at most 30 seconds, are fatal. -/
def twoRuns : DaemonConfig := ⟨false, true, 0, 5, 2, 30⟩

/-- Two short runs one after the other. -/
theorem fatal_means_consecutive_twoRuns :
    AllStates Monitored.step Monitored.FatalMeansConsecutive (.initial false twoRuns)
      [.start 1, .check ⟨0, 1, 1, 1, ⟨none, 100⟩⟩, .childExit 2, .check ⟨100, 2, 2, 2, ⟨none, -1⟩⟩,
        .check ⟨0, 7, 7, 7, ⟨none, 101⟩⟩, .childExit 9, .check ⟨101, 9, 9, 9, ⟨none, -1⟩⟩] :=
  fatal_means_consecutive false twoRuns (by decide) (by decide) (by decide) _ (by
    refine ⟨trivial, fun s hs => ?_⟩
    obtain rfl := Option.some.inj hs
    refine ⟨by rintro ⟨h, -⟩; exact absurd h (by decide), fun s hs => ?_⟩
    obtain rfl := Option.some.inj hs
    refine ⟨trivial, fun s hs => ?_⟩
    obtain rfl := Option.some.inj hs
    refine ⟨fun _ _ _ _ => by decide, fun s hs => ?_⟩
    obtain rfl := Option.some.inj hs
    refine ⟨by rintro ⟨h, -⟩; exact absurd h (by decide), fun s hs => ?_⟩
    obtain rfl := Option.some.inj hs
    refine ⟨trivial, fun s hs => ?_⟩
    obtain rfl := Option.some.inj hs
    exact ⟨fun _ _ _ _ => by decide, fun _ _ => trivial⟩)

/-- A short run, a stop and a start by hand, and a second short run: the session is fatal. -/
theorem fatal_after_manual_stop :
    ∃ s, run Monitored.step (.initial false twoRuns)
        [.start 1, .check ⟨0, 1, 1, 1, ⟨none, 100⟩⟩, .childExit 2,
          .check ⟨100, 2, 2, 2, ⟨none, -1⟩⟩, .stop ⟨0, []⟩, .start 60,
          .check ⟨0, 60, 60, 60, ⟨none, 101⟩⟩, .childExit 62,
          .check ⟨101, 62, 62, 62, ⟨none, -1⟩⟩] = some s ∧
      s.session.status = .fatalError ∧ s.events = [.ended 2 true, .manual, .ended 1 false] ∧
      ¬ s.FatalMeansConsecutive :=
  ⟨_, rfl, rfl, rfl, fun h => absurd (h.1.mp rfl).2 (by decide)⟩

end SignalEventLoop.Daemon
