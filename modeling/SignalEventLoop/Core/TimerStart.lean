/-
# A successful `start` is honoured

`Timer::start` that returns true promises a timeout: at `t + I` when it was called at `t`
on a stopped timer with interval `I`, or at the deadline the timer was already armed for.
The promise is kept when the call really leaves the timer armed (`LeavesArmed`): a stopped
timer gets its entry, since no other timer occupies its key, and a working timer has an
entry or still waits in the batch that is being delivered.

It is not kept for a working timer whose timeout was already emitted by the activation
that holds it: `start` then returns true because `isWorking` is still set, and arms
nothing.  A single-shot timer is afterwards marked as stopped, and a cyclic one is armed
from the later clock value at which `handleTimerEvent` returns.
-/
import SignalEventLoop.Core.TimerSpec

namespace SignalEventLoop.Core

namespace TimerConf

variable {c c' : TimerConf} {a : TimerAction} {r : TimerRef}

/-- The condition on a call of `start`, in the configuration before it. -/
def LeavesArmed (c : TimerConf) (r : TimerRef) : Prop :=
  if (c.tables.timers r).working then
    (∃ e ∈ c.tables.timerEventsMap.toList, e.2 = r ∧ e.1.2 = (c.tables.timers r).timerId) ∨
      ∃ p ∈ c.stack, r ∈ p.waiting
  else
    ∀ r' ∈ c.tables.timerEventsMap[(wrap64 (c.clock + (c.tables.timers r).interval),
      (c.tables.timers r).timerId)]?, r' = r

/-- The action neither stops nor releases the timer, nor is it a call of
`handleTimerEvent` whose clock reading has reached `d`. -/
def Before (r : TimerRef) (d : ℤ) (c : TimerConf) (a : TimerAction) : Prop :=
  a ≠ .call (.stop r) ∧ a ≠ .call (.release r) ∧ (a = .handleTimerEvent → c.clock < d)

/-- The first call of `handleTimerEvent` whose clock reading is at least `d` emits the
timeout of the timer before it returns, unless the timer is stopped or released before. -/
def FiresBy (c : TimerConf) (r : TimerRef) (d : ℤ) : Prop :=
  ∀ (as : List TimerAction) (c₁ c₂ : TimerConf) (bs : List TimerAction) (c₃ : TimerConf),
    Lib.AllSteps step (Before r d) c as → Lib.run step c as = some c₁ → d ≤ c₁.clock →
    c₁.step .handleTimerEvent = some c₂ → Lib.run step c₂ bs = some c₃ →
    c₃.stack.length ≤ c₁.stack.length → r ∈ Lib.outputs step emits c₂ bs

/-- The activation of `handleTimerEvent` that has `n` others below it emits the timeout of
the timer before it returns. -/
def FiresIn (c : TimerConf) (r : TimerRef) (n : ℕ) : Prop :=
  ∀ (as : List TimerAction) (c₁ : TimerConf),
    Lib.run step c as = some c₁ → c₁.stack.length ≤ n → r ∈ Lib.outputs step emits c as

instance decidableLeavesArmed (c : TimerConf) (r : TimerRef) : Decidable (c.LeavesArmed r) :=
  inferInstanceAs (Decidable (ite _ _ _))

instance decidableBefore (r : TimerRef) (d : ℤ) (c : TimerConf) (a : TimerAction) :
    Decidable (Before r d c a) :=
  inferInstanceAs (Decidable (_ ∧ _))

/-! ## A batch is delivered completely -/

/-- The timer waits in the activation that has `n` others below it. -/
def WaitsIn (c : TimerConf) (r : TimerRef) (n : ℕ) : Prop :=
  ∃ inner p outer, c.stack = inner ++ p :: outer ∧ outer.length = n ∧ r ∈ p.waiting

lemma step_waitsIn {n : ℕ} (hw : c.WaitsIn r n) (h : c.step a = some c') :
    r ∈ c.emits a ∨ c'.WaitsIn r n := by
  obtain ⟨inner, p, outer, hstack, hn, hr⟩ := hw
  cases a with
  | tick ms =>
    obtain ⟨rfl, -⟩ := step_tick h
    exact Or.inr ⟨inner, p, outer, hstack, hn, hr⟩
  | call op =>
    obtain ⟨rfl, -, -⟩ := step_call h
    exact Or.inr ⟨inner, p, outer, hstack, hn, hr⟩
  | handleTimerEvent =>
    obtain ⟨rfl, -⟩ := step_handleTimerEvent h
    exact Or.inr ⟨_ :: inner, p, outer, congrArg (List.cons _) hstack, hn, hr⟩
  | emitTimeout =>
    obtain ⟨r₀, rest, cyc, ps, hstack', rfl, he⟩ := step_emitTimeout h
    rw [hstack'] at hstack
    -- the innermost activation emits: it is the one of the timer, or lies above it
    cases inner with
    | nil =>
      obtain ⟨rfl, rfl⟩ := List.cons.inj hstack
      simp only [Pass.waiting, Bool.false_eq_true, if_false] at hr
      rcases List.mem_cons.mp hr with rfl | hr
      · exact Or.inl (by simp [he])
      · exact Or.inr ⟨[], _, ps, rfl, hn, by simpa [Pass.waiting] using hr⟩
    | cons q inner =>
      obtain ⟨-, rfl⟩ := List.cons.inj hstack
      exact Or.inr ⟨_ :: inner, p, outer, rfl, hn, hr⟩
  | slotsReturn =>
    obtain ⟨r₀, rest, cyc, ps, hstack', hcase⟩ := step_slotsReturn h
    rw [hstack'] at hstack
    cases inner with
    | nil =>
      obtain ⟨rfl, rfl⟩ := List.cons.inj hstack
      have hrest : r ∈ rest := by simpa [Pass.waiting] using hr
      rcases hcase with ⟨-, rfl⟩ | ⟨-, rfl⟩
      · exact Or.inr ⟨[], _, ps, rfl, hn, by simpa [Pass.waiting] using hrest⟩
      · exact Or.inr ⟨[], _, ps, rfl, hn, by simpa [Pass.waiting] using hrest⟩
    | cons q inner =>
      obtain ⟨-, rfl⟩ := List.cons.inj hstack
      rcases hcase with ⟨-, rfl⟩ | ⟨-, rfl⟩
      · exact Or.inr ⟨_ :: inner, p, outer, rfl, hn, hr⟩
      · exact Or.inr ⟨_ :: inner, p, outer, rfl, hn, hr⟩
  | finish =>
    obtain ⟨cyc, ps, hstack', rfl⟩ := step_finish h
    rw [hstack'] at hstack
    cases inner with
    | nil =>
      -- the activation that returns has an empty `timeoutQueue`
      obtain ⟨rfl, rfl⟩ := List.cons.inj hstack
      simp [Pass.waiting] at hr
    | cons q inner =>
      obtain ⟨-, rfl⟩ := List.cons.inj hstack
      exact Or.inr ⟨inner, p, outer, rfl, hn, hr⟩

/-- Every timer that waits in an activation is emitted before the activation returns. -/
lemma WaitsIn.firesIn {n : ℕ} (hw : c.WaitsIn r n) : c.FiresIn r n := by
  intro as
  induction as generalizing c with
  | nil =>
    intro c₁ hrun hlen
    obtain rfl : c = c₁ := by simpa using hrun
    -- the activation is still there, so the stack is longer than `n`
    obtain ⟨inner, p, outer, hstack, hn, -⟩ := hw
    rw [hstack] at hlen
    simp only [List.length_append, List.length_cons] at hlen
    omega
  | cons a as ih =>
    intro c₁ hrun hlen
    obtain ⟨c', h, hrun'⟩ := Lib.run_cons_eq_some.mp hrun
    rw [Lib.mem_outputs_cons h]
    rcases step_waitsIn hw h with he | hw'
    · exact Or.inl he
    · exact Or.inr (ih hw' c₁ hrun' hlen)

/-! ## An entry stays until its deadline -/

/-- The live timer has an entry with the deadline `d`. -/
def ArmedFor (c : TimerConf) (r : TimerRef) (d : ℤ) : Prop :=
  (c.tables.timers r).timerId ≠ 0 ∧
    c.tables.timerEventsMap[(d, (c.tables.timers r).timerId)]? = some r

lemma requeue_armedFor {d : ℤ} (now : ℤ) (q : List TimerRef) (s : TimerTables) {id : ℕ}
    (hid : (s.timers r).timerId = id) (hd : s.timerEventsMap[(d, id)]? = some r) :
    ((s.requeue now q).timers r).timerId = id ∧
      (s.requeue now q).timerEventsMap[(d, id)]? = some r := by
  induction q generalizing s with
  | nil => exact ⟨hid, hd⟩
  | cons r' q ih =>
    refine ih (s.requeueOne now r') ?_ (Lib.getElem?_insertIfNew_of_eq_some hd)
    rw [TimerTables.requeueOne_timers]
    exact (TimerTables.setTimer_timerId (t := (s.timers r').setNextTimeout now) rfl r).trans hid

/-- An operation on another timer erases no entry of this one. -/
lemma erase_armedFor {d : ℤ} (hids : c.tables.IdInv) (hd : c.ArmedFor r d) {r' : TimerRef}
    (hne : r' ≠ r) : (c.tables.timerEventsMap.erase
      (c.tables.timers r').key)[(d, (c.tables.timers r).timerId)]? = some r := by
  refine Lib.getElem?_erase_eq_some.mpr ⟨fun hkey => ?_, hd.2⟩
  exact hne (hids.eq_of_timerId_eq hd.1 (congrArg Prod.snd hkey))

lemma call_armedFor {d : ℤ} {op : TimerOp} (hids : c.tables.IdInv) (hd : c.ArmedFor r d)
    (hstop : op ≠ .stop r) (hrel : op ≠ .release r) :
    ((c.tables.apply c.clock op).timers r).timerId = (c.tables.timers r).timerId ∧
      (c.tables.apply c.clock op).timerEventsMap[(d, (c.tables.timers r).timerId)]? = some r := by
  cases op with
  | addTimer i =>
    obtain ⟨he, -, ht⟩ := c.tables.addTimer_frame i
    rw [TimerTables.apply, he, ht r (ne_of_lt (hids.lt_nextRef hd.1))]
    exact ⟨rfl, hd.2⟩
  | setInterval r' i =>
    exact ⟨TimerTables.setTimer_timerId (Timer.setInterval_sameState _ i).timerId r, hd.2⟩
  | setSingle r' b =>
    exact ⟨TimerTables.setTimer_timerId (Timer.setSingle_sameState _ b).timerId r, hd.2⟩
  | start r' =>
    rcases hids.start_cases c.clock r' with ⟨-, he⟩ | ⟨-, he⟩ | ⟨-, -, he⟩
    · simpa only [TimerTables.apply, he, true_and] using hd.2
    · simpa only [TimerTables.apply, he, true_and] using hd.2
    · simp only [TimerTables.apply, he]
      rw [TimerTables.arm_timers]
      exact ⟨TimerTables.setTimer_timerId
        (t := ((c.tables.timers r').setWorkState true).setNextTimeout c.clock) rfl r,
        Lib.getElem?_insertIfNew_of_eq_some hd.2⟩
  | stop r' =>
    by_cases hr' : (c.tables.timers r').timerId = 0
    · simpa only [TimerTables.apply, TimerTables.stop_of_invalid hr', true_and] using hd.2
    · simp only [TimerTables.apply, hids.stop_of_valid hr']
      rw [TimerTables.disarm_timers]
      exact ⟨TimerTables.setTimer_timerId (t := (c.tables.timers r').setWorkState false) rfl r,
        erase_armedFor hids hd (by rintro rfl; exact hstop rfl)⟩
  | release r' =>
    by_cases hr' : (c.tables.timers r').timerId = 0
    · simpa only [TimerTables.apply, TimerTables.release_of_invalid hr', true_and] using hd.2
    · have hne : r' ≠ r := by
        rintro rfl
        exact hrel rfl
      simp only [TimerTables.apply, hids.release_of_valid hr']
      refine ⟨?_, erase_armedFor hids hd hne⟩
      rw [TimerTables.forget_timers, TimerTables.setTimer_timers_ne _ _ hne.symm]

lemma step_armedFor {d : ℤ} (hids : c.tables.IdInv) (hd : c.ArmedFor r d)
    (hbefore : Before r d c a) (h : c.step a = some c') : c'.ArmedFor r d := by
  cases a with
  | tick ms =>
    obtain ⟨rfl, -⟩ := step_tick h
    exact hd
  | call op =>
    obtain ⟨rfl, -, -⟩ := step_call h
    obtain ⟨hid, he⟩ := call_armedFor hids hd (fun heq => hbefore.1 (heq ▸ rfl))
      (fun heq => hbefore.2.1 (heq ▸ rfl))
    exact ⟨by rw [hid]; exact hd.1, by rw [hid]; exact he⟩
  | handleTimerEvent =>
    obtain ⟨rfl, -⟩ := step_handleTimerEvent h
    exact ⟨hd.1, TimerTables.dropExpired_getElem?.mpr ⟨hd.2, hbefore.2.2 rfl⟩⟩
  | emitTimeout =>
    obtain ⟨r₀, rest, cyc, ps, -, rfl, -⟩ := step_emitTimeout h
    exact hd
  | slotsReturn =>
    obtain ⟨r₀, rest, cyc, ps, -, ⟨-, rfl⟩ | ⟨-, rfl⟩⟩ := step_slotsReturn h
    · exact hd
    · have hid := TimerTables.setTimer_timerId (s := c.tables) (r := r₀)
        (t := (c.tables.timers r₀).setWorkState false) rfl r
      exact ⟨by rw [hid]; exact hd.1, by rw [hid]; exact hd.2⟩
  | finish =>
    obtain ⟨cyc, ps, -, rfl⟩ := step_finish h
    obtain ⟨hid, he⟩ := requeue_armedFor c.clock cyc c.tables rfl hd.2
    exact ⟨by rw [hid]; exact hd.1, by rw [hid]; exact he⟩

/-- An armed timer fires in the first pass that reaches its deadline. -/
lemma ArmedFor.firesBy {d : ℤ} (hids : c.tables.IdInv) (hd : c.ArmedFor r d) : c.FiresBy r d := by
  intro as c₁ c₂ bs c₃ hbefore hrun hreach hpass
  have hinv : c₁.tables.IdInv ∧ c₁.ArmedFor r d :=
    Lib.run_inv_of_allSteps (I := fun c => c.tables.IdInv ∧ c.ArmedFor r d)
      (fun _ _ _ hc hok hs => ⟨step_idInv hc.1 hs, step_armedFor hc.1 hc.2 hok hs⟩)
      ⟨hids, hd⟩ hbefore hrun
  obtain ⟨rfl, -⟩ := step_handleTimerEvent hpass
  refine WaitsIn.firesIn ⟨[], _, c₁.stack, rfl, rfl, ?_⟩ bs c₃
  simp only [Pass.waiting, Bool.false_eq_true, if_false, List.mem_map]
  exact ⟨((d, (c₁.tables.timers r).timerId), r),
    TimerTables.mem_expired.mpr ⟨hinv.2.2, hreach⟩, rfl⟩

/-! ## The clock and the intervals -/

lemma Reachable.clock_range (h : c.Reachable) : 0 ≤ c.clock ∧ c.clock < 2 ^ 63 := by
  obtain ⟨clock, as, h0, hlt, hrun⟩ := h
  refine Lib.run_inv (I := fun c => 0 ≤ c.clock ∧ c.clock < 2 ^ 63) ?_ ⟨h0, hlt⟩ hrun
  intro c a c' hc hs
  cases a with
  | tick ms =>
    obtain ⟨rfl, hlt⟩ := step_tick hs
    exact ⟨by have := hc.1; dsimp only; omega, hlt⟩
  | call op =>
    obtain ⟨rfl, -, -⟩ := step_call hs
    exact hc
  | handleTimerEvent =>
    obtain ⟨rfl, -⟩ := step_handleTimerEvent hs
    exact hc
  | emitTimeout =>
    obtain ⟨r₀, rest, cyc, ps, -, rfl, -⟩ := step_emitTimeout hs
    exact hc
  | slotsReturn =>
    obtain ⟨r₀, rest, cyc, ps, -, ⟨-, rfl⟩ | ⟨-, rfl⟩⟩ := step_slotsReturn hs
    · exact hc
    · exact hc
  | finish =>
    obtain ⟨cyc, ps, -, rfl⟩ := step_finish hs
    exact hc

/-- Every timer has a positive interval. -/
def PosIntervals (s : TimerTables) : Prop := ∀ r, 1 ≤ (s.timers r).interval

lemma PosIntervals.setTimer {s : TimerTables} (hs : PosIntervals s) {t : Timer}
    (ht : 1 ≤ t.interval) : PosIntervals (s.setTimer r t) := by
  intro r'
  rw [TimerTables.setTimer_timers]
  split
  · exact ht
  · exact hs r'

lemma setInterval_pos {t : Timer} (ht : 1 ≤ t.interval) (i : ℤ) :
    1 ≤ (t.setInterval i).2.interval := by
  unfold Timer.setInterval
  split
  · exact ht
  · dsimp only
    split <;> omega

lemma setSingle_interval (t : Timer) (b : Bool) : (t.setSingle b).2.interval = t.interval := by
  unfold Timer.setSingle
  split <;> rfl

lemma PosIntervals.apply {s : TimerTables} (hs : PosIntervals s) (hids : s.IdInv) (now : ℤ)
    (op : TimerOp) : PosIntervals (s.apply now op) := by
  cases op with
  | addTimer i =>
    intro r'
    by_cases hr' : r' = s.nextRef
    · obtain ⟨ht, hn, -, -⟩ := s.getNextTimerId_frame
      subst hr'
      simp only [TimerTables.apply, TimerTables.addTimer]
      split
      · simpa [hn, Timer.setTimerId, Timer.create] using
          setInterval_pos (t := ({} : Timer)) (le_refl _) i
      · rw [ht]
        exact hs _
    · rw [TimerTables.apply, (s.addTimer_frame i).2.2 r' hr']
      exact hs r'
  | setInterval r' i => exact hs.setTimer (setInterval_pos (hs r') i)
  | setSingle r' b => exact hs.setTimer (by rw [setSingle_interval]; exact hs r')
  | start r' =>
    rcases hids.start_cases now r' with ⟨-, he⟩ | ⟨-, he⟩ | ⟨-, -, he⟩
    · simpa only [TimerTables.apply, he] using hs
    · simpa only [TimerTables.apply, he] using hs
    · simp only [TimerTables.apply, he]
      exact fun r =>
        hs.setTimer (t := ((s.timers r').setWorkState true).setNextTimeout now) (hs r') r
  | stop r' =>
    by_cases hr' : (s.timers r').timerId = 0
    · simpa only [TimerTables.apply, TimerTables.stop_of_invalid hr'] using hs
    · simp only [TimerTables.apply, hids.stop_of_valid hr']
      exact fun r => hs.setTimer (t := (s.timers r').setWorkState false) (hs r') r
  | release r' =>
    by_cases hr' : (s.timers r').timerId = 0
    · simpa only [TimerTables.apply, TimerTables.release_of_invalid hr'] using hs
    · simp only [TimerTables.apply, hids.release_of_valid hr']
      exact fun r => hs.setTimer (t := (s.timers r').setTimerId invalidTimerId) (hs r') r

lemma PosIntervals.requeue {s : TimerTables} (hs : PosIntervals s) (now : ℤ)
    (q : List TimerRef) : PosIntervals (s.requeue now q) := by
  induction q generalizing s with
  | nil => exact hs
  | cons r' q ih =>
    refine ih (s := s.requeueOne now r') fun r => ?_
    exact hs.setTimer (t := (s.timers r').setNextTimeout now) (hs r') r

lemma Reachable.posIntervals (h : c.Reachable) : PosIntervals c.tables := by
  obtain ⟨clock, as, -, -, hrun⟩ := h
  refine (Lib.run_inv (I := fun c => c.tables.IdInv ∧ PosIntervals c.tables) ?_
    ⟨TimerTables.idInv_empty, fun _ => le_refl _⟩ hrun).2
  rintro c a c' ⟨hids, hc⟩ hs
  refine ⟨step_idInv hids hs, ?_⟩
  cases a with
  | tick ms =>
    obtain ⟨rfl, -⟩ := step_tick hs
    exact hc
  | call op =>
    obtain ⟨rfl, -, -⟩ := step_call hs
    exact hc.apply hids c.clock op
  | handleTimerEvent =>
    obtain ⟨rfl, -⟩ := step_handleTimerEvent hs
    exact hc
  | emitTimeout =>
    obtain ⟨r₀, rest, cyc, ps, -, rfl, -⟩ := step_emitTimeout hs
    exact hc
  | slotsReturn =>
    obtain ⟨r₀, rest, cyc, ps, -, ⟨-, rfl⟩ | ⟨-, rfl⟩⟩ := step_slotsReturn hs
    · exact hc
    · exact hc.setTimer (hc r₀)
  | finish =>
    obtain ⟨cyc, ps, -, rfl⟩ := step_finish hs
    exact hc.requeue c.clock cyc

lemma wrap64_eq {x : ℤ} (h0 : 0 ≤ x) (hlt : x < 2 ^ 63) : wrap64 x = x := by
  rw [wrap64, Int.bmod_def]
  have hmod : x % ((2 ^ 64 : ℕ) : ℤ) = x := Int.emod_eq_of_lt h0 (by norm_num at hlt ⊢; omega)
  rw [hmod, if_pos (by norm_num at hlt ⊢; omega)]

/-- The clock never reaches a deadline that does not fit into `int64_t`. -/
lemma firesBy_wrap64 {d : ℤ} (hc : c.Reachable) (h0 : 0 ≤ d) (h : c.FiresBy r (wrap64 d)) :
    c.FiresBy r d := by
  intro as c₁ c₂ bs c₃ hbefore hrun hreach
  have hc₁ : c₁.Reachable := by
    obtain ⟨clock, as₀, h1, h2, hrun₀⟩ := hc
    exact ⟨clock, as₀ ++ as, h1, h2, Lib.run_append_eq_some.mpr ⟨c, hrun₀, hrun⟩⟩
  rw [wrap64_eq h0 (lt_of_le_of_lt hreach hc₁.clock_range.2)] at h
  exact h as c₁ c₂ bs c₃ hbefore hrun hreach

/-! ## The promise of `start` -/

/-- **A successful `start` is honoured.**  If `start` returns true and leaves the timer
armed, then the first pass that reaches the promised deadline emits the timeout: the
deadline is `t + I` for a stopped timer, the deadline it was armed for for a working one;
a timer that already waits in a batch under delivery is emitted by that pass. -/
theorem start_honoured (c : TimerConf) (hc : c.Reachable) (r : TimerRef) (c' : TimerConf)
    (hstep : c.step (.call (.start r)) = some c') (htrue : c.startResult r = true)
    (harmed : c.LeavesArmed r) :
    ((c.tables.timers r).working = false →
        c'.FiresBy r (c.clock + (c.tables.timers r).interval)) ∧
      ((c.tables.timers r).working = true →
        (∃ d, c.tables.timerEventsMap[(d, (c.tables.timers r).timerId)]? = some r ∧
          c'.FiresBy r d) ∨
        ∃ inner p outer, c.stack = inner ++ p :: outer ∧ r ∈ p.waiting ∧
          c'.FiresIn r outer.length) := by
  have hids := hc.idInv
  have hc' : c'.Reachable := by
    obtain ⟨clock, as, h1, h2, hrun⟩ := hc
    exact ⟨clock, as ++ [.call (.start r)], h1, h2, Lib.run_concat_eq_some.mpr ⟨c, hrun, hstep⟩⟩
  obtain ⟨rfl, -, -⟩ := step_call hstep
  simp only [TimerTables.apply] at hc' ⊢
  rcases hids.start_cases c.clock r with ⟨-, he⟩ | ⟨hw, he⟩ | ⟨hr, hw, he⟩
  · -- a released timer cannot be started
    rw [startResult, he] at htrue
    exact absurd htrue (by simp)
  · -- the call does nothing: the timer is armed, or waits
    simp only [he] at hc' ⊢
    rw [LeavesArmed, if_pos hw] at harmed
    refine ⟨fun hw' => absurd (hw.symm.trans hw') (by simp), fun _ => ?_⟩
    rcases harmed with ⟨⟨⟨d, id⟩, r'⟩, hmem, rfl, hid⟩ | ⟨p, hp, hwait⟩
    · dsimp only at hid
      subst hid
      rw [Std.ExtTreeMap.mem_toList_iff_getElem?_eq_some] at hmem
      exact Or.inl ⟨d, hmem, ArmedFor.firesBy hids ⟨(Timer.working_iff.mp hw).1, hmem⟩⟩
    · obtain ⟨inner, outer, hstack⟩ := List.append_of_mem hp
      exact Or.inr ⟨inner, p, outer, hstack, hwait,
        WaitsIn.firesIn ⟨inner, p, outer, hstack, rfl, hwait⟩⟩
  · -- the call inserts the entry
    simp only [he] at hc' ⊢
    rw [LeavesArmed, if_neg (by simp [hw])] at harmed
    refine ⟨fun _ => ?_, fun hw' => absurd (hw.symm.trans hw') (by simp)⟩
    -- the deadline is not negative, so it wraps only when the clock cannot reach it
    have h0 : 0 ≤ c.clock + (c.tables.timers r).interval :=
      Int.add_nonneg hc.clock_range.1 (le_trans (by norm_num) (hc.posIntervals r))
    have hid : ((c.tables.arm c.clock r).timers r).timerId = (c.tables.timers r).timerId := by
      rw [TimerTables.arm_timers]
      exact TimerTables.setTimer_timerId
        (t := ((c.tables.timers r).setWorkState true).setNextTimeout c.clock) rfl r
    refine firesBy_wrap64 hc' h0 (ArmedFor.firesBy (hids.arm c.clock r) ⟨?_, ?_⟩)
    · rw [hid]
      exact hr
    · rw [hid, TimerTables.arm]
      dsimp only
      cases hold : c.tables.timerEventsMap[(wrap64 (c.clock + (c.tables.timers r).interval),
          (c.tables.timers r).timerId)]? with
      | none => rw [Lib.getElem?_insertIfNew_of_getElem?_eq_none hold, if_pos rfl]
      | some r' =>
        obtain rfl := harmed r' hold
        exact Lib.getElem?_insertIfNew_of_eq_some hold

/-- A new timer of interval 5 that is started at 0 fires in the first pass from 5 on. -/
theorem start_honoured_new :
    ∃ c c' : TimerConf, c.Reachable ∧ c.step (.call (.start 0)) = some c' ∧
      c.startResult 0 = true ∧ c.LeavesArmed 0 ∧ c'.FiresBy 0 5 := by
  have hrun : ((Lib.run step (init 0) [.call (.addTimer 5)]).bind fun c =>
      (c.step (.call (.start 0))).map fun _ => (c.startResult 0, decide (c.LeavesArmed 0),
        (c.tables.timers 0).working, c.clock + (c.tables.timers 0).interval)) =
          some (true, true, false, 5) := by
    decide +kernel
  obtain ⟨c, hc, hrest⟩ := Option.bind_eq_some_iff.mp hrun
  obtain ⟨c', hc', hobs⟩ := Option.map_eq_some_iff.mp hrest
  simp only [Prod.mk.injEq, decide_eq_true_eq] at hobs
  obtain ⟨htrue, harmed, hw, hd⟩ := hobs
  have hreach : c.Reachable := ⟨0, [.call (.addTimer 5)], by norm_num, by norm_num, hc⟩
  have hfires := (start_honoured c hreach 0 c' hc' htrue harmed).1 hw
  rw [hd] at hfires
  exact ⟨c, c', hreach, hc', htrue, harmed, hfires⟩

/-- The slot of a single-shot timer of interval 5 starts the timer again at 5.  The call
returns true, but `handleTimerEvent` marks the timer as stopped after the slot, and a pass
at 105 emits nothing. -/
theorem restart_in_own_slot_lost :
    ∃ c c' : TimerConf, c.Reachable ∧ c.step (.call (.start 0)) = some c' ∧
      c.startResult 0 = true ∧ ¬ c'.FiresBy 0 (c.clock + (c.tables.timers 0).interval) := by
  let before : List TimerAction := [.call (.addTimer 5), .call (.setSingle 0 true),
    .call (.start 0), .tick 5, .handleTimerEvent, .emitTimeout]
  let after : List TimerAction := [.slotsReturn, .finish, .tick 100]
  have hrun : ((Lib.run step (init 0) before).bind fun c =>
      (c.step (.call (.start 0))).bind fun c' => (Lib.run step c' after).bind fun c₁ =>
        (c₁.step .handleTimerEvent).bind fun c₂ => (Lib.run step c₂ [.finish]).map fun c₃ =>
          (c.startResult 0, c.clock + (c.tables.timers 0).interval,
            decide (Lib.AllSteps step (Before 0 10) c' after ∧ 10 ≤ c₁.clock ∧
              c₃.stack.length ≤ c₁.stack.length ∧ Lib.outputs step emits c₂ [.finish] = []))) =
          some (true, 10, true) := by
    decide +kernel
  simp only [Option.bind_eq_some_iff, Option.map_eq_some_iff, Prod.mk.injEq,
    decide_eq_true_eq] at hrun
  obtain ⟨c, hc, c', hc', c₁, hc₁, c₂, hc₂, c₃, hc₃, htrue, hd, hbefore, hreach, hlen, hout⟩ := hrun
  refine ⟨c, c', ⟨0, before, by norm_num, by norm_num, hc⟩, hc', htrue, fun hfires => ?_⟩
  rw [hd] at hfires
  have hmem := hfires after c₁ c₂ [.finish] c₃ hbefore hc₁ hreach hc₂ hc₃ hlen
  rw [hout] at hmem
  exact absurd hmem (by simp)

end TimerConf

end SignalEventLoop.Core
