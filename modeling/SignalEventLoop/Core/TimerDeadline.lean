/-
# Exact deadlines

`Timer::setNextTimeout` adds the interval of a timer to the present time; `startTimer` calls it,
and `handleTimerEvent` for a cyclic timer.  The interval is bounded from below only
(`Timer::setInterval`), so that the sum may leave the range of `int64_t`: the deadline is then a
negative number, and the timer is due at once.

The runs carry, beside the configuration, the deadline that every timer was promised when it was
last armed, as an integer, and the clock reading of every activation of `handleTimerEvent`.  When
every sum is in range and the table stays coherent (`HoldSafe`), no timer is emitted by an
activation whose clock reading is below its promised deadline.
-/
import SignalEventLoop.Core.TimerStart
import SignalEventLoop.Core.TimerStop
import SignalEventLoop.Core.TimerTable

namespace SignalEventLoop.Core

/-- The sum is exact when it is in the range of `int64_t`, and only then. -/
lemma wrap64_eq_iff {x : ℤ} (h0 : 0 ≤ x) : wrap64 x = x ↔ x < 2 ^ 63 := by
  refine ⟨fun h => ?_, TimerConf.wrap64_eq h0⟩
  have hlt : wrap64 x < (((2 ^ 64 : ℕ) : ℤ) + 1) / 2 := Int.bmod_lt (by norm_num)
  rw [h] at hlt
  norm_num at hlt ⊢
  omega

namespace TimerTables

lemma setNextTimeout_setNextTimeout (t : Timer) (now : ℤ) :
    (t.setNextTimeout now).setNextTimeout now = t.setNextTimeout now := rfl

/-- Every timer of the queue is armed for the same clock value, also one that stands in it
twice. -/
lemma requeue_timers (now : ℤ) (q : List TimerRef) (s : TimerTables) (r : TimerRef) :
    (s.requeue now q).timers r =
      if r ∈ q then (s.timers r).setNextTimeout now else s.timers r := by
  induction q generalizing s with
  | nil => rfl
  | cons r' q ih =>
    have hone := s.setTimer_timers r' r ((s.timers r').setNextTimeout now)
    rw [← requeueOne_timers] at hone
    rw [requeue, List.foldl_cons, ← requeue, ih, hone]
    by_cases hr : r = r'
    · subst hr
      simp [setNextTimeout_setNextTimeout]
    · simp [hr]

end TimerTables

namespace TimerConf

/-- The timers that the action arms: the one that is started, or the cyclic ones that are queued
again. -/
def arms (c : TimerConf) : TimerAction → List TimerRef
  | .call (.start r) =>
    if isValidTimerId (c.tables.timers r).timerId && !(c.tables.timers r).working then [r] else []
  | .finish =>
    match c.stack with
    | [] => []
    | p :: _ => p.cycleQueue
  | _ => []

/-- The deadline that a timer has when it is armed now. -/
def promised (c : TimerConf) (r : TimerRef) : ℤ := c.clock + (c.tables.timers r).interval

/-- Every timer that the action arms gets `now + interval` as its deadline. -/
def ArmsExactly (c : TimerConf) (a : TimerAction) : Prop :=
  ∀ c', c.step a = some c' → ∀ r ∈ c.arms a, (c'.tables.timers r).nextTimeout = c.promised r

/-- The condition on a step: the sums are in the range of `int64_t`. -/
def InRange (c : TimerConf) (a : TimerAction) : Prop := ∀ r ∈ c.arms a, c.promised r < 2 ^ 63

instance (c : TimerConf) (a : TimerAction) : Decidable (c.InRange a) :=
  inferInstanceAs (Decidable (∀ r ∈ c.arms a, c.promised r < 2 ^ 63))

instance (c : TimerConf) (a : TimerAction) : Decidable (c.ArmsExactly a) :=
  decidable_of_iff
    (∀ c' ∈ c.step a, ∀ r ∈ c.arms a, (c'.tables.timers r).nextTimeout = c.promised r) Iff.rfl

variable {c c' : TimerConf} {a : TimerAction} {r : TimerRef}

lemma mem_arms_start {r' : TimerRef} : r ∈ c.arms (.call (.start r')) ↔
    r = r' ∧ (c.tables.timers r').timerId ≠ 0 ∧ (c.tables.timers r').working = false := by
  simp only [arms, Bool.and_eq_true, isValidTimerId_iff, Bool.not_eq_true']
  split_ifs with h
  · simp [h]
  · simp [h]

/-- The deadline of a timer that is armed, as the sum comes out. -/
lemma nextTimeout_of_mem_arms (hids : c.tables.IdInv) (h : c.step a = some c')
    (hr : r ∈ c.arms a) : (c'.tables.timers r).nextTimeout = wrap64 (c.promised r) := by
  cases a with
  | tick _ | handleTimerEvent | emitTimeout | slotsReturn => exact absurd hr List.not_mem_nil
  | call op =>
    cases op with
    | addTimer _ | setInterval _ _ | setSingle _ _ | stop _ | release _ =>
      exact absurd hr List.not_mem_nil
    | start r' =>
      obtain ⟨rfl, hid, hw⟩ := mem_arms_start.mp hr
      obtain ⟨rfl, -, -⟩ := step_call h
      rw [TimerTables.apply, hids.start_of_not_working c.clock hid hw, TimerTables.arm_timers,
        TimerTables.setTimer_timers_self]
      rfl
  | finish =>
    obtain ⟨cyc, ps, hstack, rfl⟩ := step_finish h
    rw [arms, hstack] at hr
    rw [TimerTables.requeue_timers, if_pos hr]
    rfl

/-- A timer that was just stopped does not work. -/
lemma setTimer_of_stopped {s : TimerTables} {r₀ : TimerRef} {t : Timer} (ht : t.working = false)
    (hw : ((s.setTimer r₀ t).timers r).working = true) :
    (s.setTimer r₀ t).timers r = s.timers r := by
  rw [TimerTables.setTimer_timers] at hw ⊢
  split_ifs at hw ⊢ with heq
  · rw [ht] at hw
    exact absurd hw (by simp)
  · rfl

/-- A change of the interval or of the mode is no change of the state. -/
lemma setTimer_of_sameState {s : TimerTables} {r₀ : TimerRef} {t : Timer}
    (ht : Timer.SameState (s.timers r₀) t)
    (hw : ((s.setTimer r₀ t).timers r).working = true) : (s.timers r).working = true ∧
      ((s.setTimer r₀ t).timers r).nextTimeout = (s.timers r).nextTimeout := by
  rw [TimerTables.setTimer_timers] at hw ⊢
  split_ifs at hw ⊢ with heq
  · subst heq
    exact ⟨ht.working ▸ hw, ht.nextTimeout⟩
  · exact ⟨hw, rfl⟩

/-- A timer that works after a call that did not arm it worked before, with the same deadline. -/
lemma kept_of_call {op : TimerOp} (hids : c.tables.IdInv) (hr : r ∉ c.arms (.call op))
    (hw : ((c.tables.apply c.clock op).timers r).working = true) :
    (c.tables.timers r).working = true ∧
      ((c.tables.apply c.clock op).timers r).nextTimeout = (c.tables.timers r).nextTimeout := by
  cases op with
  | addTimer i =>
    by_cases hrn : r = c.tables.nextRef
    · subst hrn
      rw [TimerTables.apply, hids.addTimer_new i] at hw
      exact absurd hw (by simp)
    · rw [TimerTables.apply, (c.tables.addTimer_frame i).2.2 r hrn] at hw ⊢
      exact ⟨hw, rfl⟩
  | setInterval r₀ i => exact setTimer_of_sameState (Timer.setInterval_sameState _ i) hw
  | setSingle r₀ b => exact setTimer_of_sameState (Timer.setSingle_sameState _ b) hw
  | start r₀ =>
    rcases hids.start_cases c.clock r₀ with ⟨-, he⟩ | ⟨-, he⟩ | ⟨hid, hidle, he⟩ <;>
      simp only [TimerTables.apply, he] at hw ⊢
    · exact ⟨hw, trivial⟩
    · exact ⟨hw, trivial⟩
    · have hne : r ≠ r₀ := fun heq => hr (mem_arms_start.mpr ⟨heq, hid, hidle⟩)
      rw [TimerTables.arm_timers, TimerTables.setTimer_timers_ne _ _ hne] at hw ⊢
      exact ⟨hw, rfl⟩
  | stop r₀ =>
    by_cases hid : (c.tables.timers r₀).timerId = 0
    · simp only [TimerTables.apply, TimerTables.stop_of_invalid hid] at hw ⊢
      exact ⟨hw, trivial⟩
    · simp only [TimerTables.apply, hids.stop_of_valid hid, TimerTables.disarm_timers] at hw ⊢
      have heq := setTimer_of_stopped (Timer.setWorkState_false_working _) hw
      rw [heq] at hw ⊢
      exact ⟨hw, rfl⟩
  | release r₀ =>
    by_cases hid : (c.tables.timers r₀).timerId = 0
    · simp only [TimerTables.apply, TimerTables.release_of_invalid hid] at hw ⊢
      exact ⟨hw, trivial⟩
    · simp only [TimerTables.apply, hids.release_of_valid hid, TimerTables.forget_timers] at hw ⊢
      have heq := setTimer_of_stopped (Timer.setTimerId_invalid_working _) hw
      rw [heq] at hw ⊢
      exact ⟨hw, rfl⟩

/-- A timer that works and is not held was so before, and keeps its deadline, when the action does
not arm it. -/
lemma kept_of_not_mem_arms (hids : c.tables.IdInv) (h : c.step a = some c') (hr : r ∉ c.arms a)
    (hw : (c'.tables.timers r).working = true) (hheld : r ∉ c'.held) :
    (c.tables.timers r).working = true ∧ r ∉ c.held ∧
      (c'.tables.timers r).nextTimeout = (c.tables.timers r).nextTimeout := by
  cases a with
  | tick ms =>
    obtain ⟨rfl, -⟩ := step_tick h
    exact ⟨hw, hheld, rfl⟩
  | call op =>
    obtain ⟨rfl, -, -⟩ := step_call h
    obtain ⟨hworks, hdeadline⟩ := kept_of_call hids hr hw
    exact ⟨hworks, hheld, hdeadline⟩
  | handleTimerEvent =>
    obtain ⟨rfl, -⟩ := step_handleTimerEvent h
    refine ⟨hw, fun hmem => hheld ?_, rfl⟩
    simp only [held, List.flatMap_cons, List.mem_append]
    exact Or.inr hmem
  | emitTimeout =>
    obtain ⟨r₀, rest, cyc, ps, hstack, rfl, -⟩ := step_emitTimeout h
    refine ⟨hw, fun hmem => hheld ?_, rfl⟩
    simpa [held, Pass.held, hstack] using hmem
  | slotsReturn =>
    obtain ⟨r₀, rest, cyc, ps, hstack, ⟨-, rfl⟩ | ⟨-, rfl⟩⟩ := step_slotsReturn h
    · refine ⟨hw, fun hmem => hheld ?_, rfl⟩
      simp only [held, Pass.held, hstack, List.flatMap_cons, List.mem_append, List.mem_cons,
        List.not_mem_nil, or_false] at hmem ⊢
      tauto
    · have heq := setTimer_of_stopped (Timer.setWorkState_false_working _) hw
      dsimp only at hw ⊢
      have hne : r ≠ r₀ := by
        rintro rfl
        rw [TimerTables.setTimer_timers_self] at hw
        exact absurd hw (by simp)
      rw [heq] at hw ⊢
      refine ⟨hw, fun hmem => hheld ?_, rfl⟩
      simp only [held, Pass.held, hstack, List.flatMap_cons, List.mem_append, List.mem_cons,
        hne, false_or] at hmem ⊢
      tauto
  | finish =>
    obtain ⟨cyc, ps, hstack, rfl⟩ := step_finish h
    have hcyc : r ∉ cyc := by
      intro hmem
      exact hr (by simp only [arms, hstack]; exact hmem)
    dsimp only at hw ⊢
    rw [TimerTables.requeue_timers, if_neg hcyc] at hw ⊢
    refine ⟨hw, fun hmem => hheld ?_, rfl⟩
    simpa [held, Pass.held, hstack, hcyc] using hmem

lemma Reachable.next (hc : c.Reachable) (h : c.step a = some c') : c'.Reachable := by
  obtain ⟨clock, as, h0, hlt, hrun⟩ := hc
  exact ⟨clock, as ++ [a], h0, hlt, Lib.run_concat_eq_some.mpr ⟨c, hrun, h⟩⟩

lemma Reachable.promised_nonneg (hc : c.Reachable) (r : TimerRef) : 0 ≤ c.promised r :=
  Int.add_nonneg hc.clock_range.1 (le_trans (by norm_num) (hc.posIntervals r))

lemma Reachable.armsExactly_iff (hc : c.Reachable) (h : c.step a = some c') :
    c.ArmsExactly a ↔ c.InRange a := by
  constructor
  · intro hexact r hr
    have he := hexact c' h r hr
    rw [nextTimeout_of_mem_arms hc.idInv h hr] at he
    exact (wrap64_eq_iff (hc.promised_nonneg r)).mp he
  · intro hrange c₁ h₁ r hr
    rw [nextTimeout_of_mem_arms hc.idInv h₁ hr]
    exact wrap64_eq (hc.promised_nonneg r) (hrange r hr)

end TimerConf

/-- A configuration, with the deadlines promised so far and the clock readings of the activations,
innermost first. -/
structure DueConf where
  conf : TimerConf
  due : TimerRef → ℤ
  clocks : List ℤ

namespace DueConf

/-- A new object. -/
def init (clock : ℤ) : DueConf := ⟨.init clock, fun _ => 0, []⟩

/-- The deadlines that are promised after the action. -/
def nextDue (x : DueConf) (a : TimerAction) (r : TimerRef) : ℤ :=
  if r ∈ x.conf.arms a then x.conf.promised r else x.due r

/-- The clock readings after the action. -/
def nextClocks (x : DueConf) : TimerAction → List ℤ
  | .handleTimerEvent => x.conf.clock :: x.clocks
  | .finish => x.clocks.tail
  | _ => x.clocks

/-- One step of the loop thread. -/
def step (x : DueConf) (a : TimerAction) : Option DueConf :=
  (x.conf.step a).map fun c => ⟨c, x.nextDue a, x.nextClocks a⟩

/-- A timer is emitted only by an activation whose clock reading has reached its deadline. -/
def NotEarly (x : DueConf) (a : TimerAction) : Prop :=
  ∀ r ∈ x.conf.emits a, ∀ now ∈ x.clocks.head?, x.due r ≤ now

instance (x : DueConf) (a : TimerAction) : Decidable (x.NotEarly a) :=
  inferInstanceAs (Decidable (∀ r ∈ x.conf.emits a, ∀ now ∈ x.clocks.head?, x.due r ≤ now))

variable {x x' : DueConf} {a : TimerAction}

lemma step_eq_some : x.step a = some x' ↔
    ∃ c, x.conf.step a = some c ∧ x' = ⟨c, x.nextDue a, x.nextClocks a⟩ := by
  simp only [step, Option.map_eq_some_iff]
  exact exists_congr fun c => and_congr_right fun _ => eq_comm

lemma nextDue_of_not_mem {r : TimerRef} (h : r ∉ x.conf.arms a) : x.nextDue a r = x.due r :=
  if_neg h

lemma nextDue_of_mem {r : TimerRef} (h : r ∈ x.conf.arms a) :
    x.nextDue a r = x.conf.promised r := if_pos h

/-! ## The invariant -/

/-- A timer that works and is not held has the promised deadline, and an activation has taken out
only timers whose deadline its clock reading has reached. -/
structure Punctual (x : DueConf) : Prop where
  reach : x.conf.Reachable
  tables : x.conf.TableInv
  deadline : ∀ r, (x.conf.tables.timers r).working = true → r ∉ x.conf.held →
    (x.conf.tables.timers r).nextTimeout = x.due r
  lengths : x.clocks.length = x.conf.stack.length
  batches : ∀ e ∈ x.conf.stack.zip x.clocks, ∀ r ∈ e.1.timeoutQueue, x.due r ≤ e.2

lemma punctual_init {clock : ℤ} (h0 : 0 ≤ clock) (hlt : clock < 2 ^ 63) :
    (init clock).Punctual where
  reach := ⟨clock, [], h0, hlt, rfl⟩
  tables := TimerTables.held_empty
  deadline := by simp [init, TimerConf.init, TimerTables.empty, Timer.working]
  lengths := rfl
  batches := by simp [init]

/-- An action whose condition holds does not arm a timer that waits in a batch. -/
lemma Punctual.not_mem_arms (hx : x.Punctual) (hsafe : x.conf.HoldSafe a) {c : TimerConf}
    (h : x.conf.step a = some c) {p : Pass} (hp : p ∈ x.conf.stack) {r : TimerRef}
    (hr : r ∈ p.timeoutQueue) : r ∉ x.conf.arms a := by
  cases a with
  | tick _ | handleTimerEvent | emitTimeout | slotsReturn => exact List.not_mem_nil
  | call op =>
    cases op with
    | addTimer _ | setInterval _ _ | setSingle _ _ | stop _ | release _ => exact List.not_mem_nil
    | start r' =>
      rw [TimerConf.mem_arms_start]
      rintro ⟨rfl, hid, hw⟩
      exact (hsafe hid hw p hp).1 hr
  | finish =>
    -- a timer is held once only: it is not in a `cycleQueue` as well
    obtain ⟨cyc, ps, hstack, -⟩ := TimerConf.step_finish h
    have hnd : (cyc ++ ps.flatMap Pass.held).Nodup := by
      have := hx.tables.nodup
      simpa [TimerConf.held, Pass.held, hstack] using this
    simp only [TimerConf.arms, hstack]
    rw [hstack, List.mem_cons] at hp
    rcases hp with rfl | hp
    · exact absurd hr List.not_mem_nil
    · intro hcyc
      exact (List.nodup_append.mp hnd).2.2 r hcyc r
        (List.mem_flatMap.mpr ⟨p, hp, List.mem_append_left _ hr⟩) rfl

/-- The timers of the new batch have reached their deadlines. -/
lemma Punctual.due_le_of_mem_expired (hx : x.Punctual) {r : TimerRef}
    (hr : r ∈ (x.conf.tables.expired x.conf.clock).map Prod.snd) : x.due r ≤ x.conf.clock := by
  obtain ⟨e, he, rfl⟩ := List.mem_map.mp hr
  obtain ⟨hentry, hle⟩ := TimerTables.mem_expired.mp he
  obtain ⟨hkey, hw, hheld⟩ := hx.tables.entry e.1 e.2 hentry
  rw [← hx.deadline e.2 hw hheld]
  have : e.1.1 = (x.conf.tables.timers e.2).nextTimeout := congrArg Prod.fst hkey
  omega

/-- The batches after an action. -/
lemma Punctual.batches_next (hx : x.Punctual) (hsafe : x.conf.HoldSafe a) {c : TimerConf}
    (h : x.conf.step a = some c) : (x.nextClocks a).length = c.stack.length ∧
      ∀ e ∈ c.stack.zip (x.nextClocks a), ∀ r ∈ e.1.timeoutQueue, x.nextDue a r ≤ e.2 := by
  have hlen := hx.lengths
  have hold : ∀ e ∈ x.conf.stack.zip x.clocks, ∀ r ∈ e.1.timeoutQueue, x.nextDue a r ≤ e.2 := by
    intro e he r hr
    rw [nextDue_of_not_mem (hx.not_mem_arms hsafe h (List.of_mem_zip he).1 hr)]
    exact hx.batches e he r hr
  -- the clock reading of the innermost activation
  have hcons : ∀ p ps, x.conf.stack = p :: ps → ∃ now clocks, x.clocks = now :: clocks ∧
      clocks.length = ps.length := by
    intro p ps hstack
    rw [hstack, List.length_cons] at hlen
    obtain ⟨now, clocks, hclocks⟩ := List.exists_cons_of_length_eq_add_one hlen
    rw [hclocks, List.length_cons, Nat.add_right_cancel_iff] at hlen
    exact ⟨now, clocks, hclocks, hlen⟩
  cases a with
  | tick ms =>
    obtain ⟨rfl, -⟩ := TimerConf.step_tick h
    exact ⟨hlen, hold⟩
  | call op =>
    obtain ⟨rfl, -, -⟩ := TimerConf.step_call h
    exact ⟨hlen, hold⟩
  | handleTimerEvent =>
    obtain ⟨rfl, -⟩ := TimerConf.step_handleTimerEvent h
    refine ⟨by simp [nextClocks, hlen], ?_⟩
    intro e he r hr
    rw [nextClocks, List.zip_cons_cons, List.mem_cons] at he
    rcases he with rfl | he
    · rw [nextDue_of_not_mem (by simp [TimerConf.arms])]
      exact hx.due_le_of_mem_expired hr
    · exact hold e he r hr
  | emitTimeout =>
    obtain ⟨r₀, rest, cyc, ps, hstack, rfl, -⟩ := TimerConf.step_emitTimeout h
    obtain ⟨now, clocks, hclocks, hlen'⟩ := hcons _ _ hstack
    rw [hstack, hclocks, List.zip_cons_cons] at hold
    simp only [nextClocks, hclocks, List.zip_cons_cons, List.length_cons, hlen', true_and]
    intro e he r hr
    rcases List.mem_cons.mp he with rfl | he
    · exact hold (⟨r₀ :: rest, cyc, false⟩, now) List.mem_cons_self r hr
    · exact hold e (List.mem_cons_of_mem _ he) r hr
  | slotsReturn =>
    obtain ⟨r₀, rest, cyc, ps, hstack, hcase⟩ := TimerConf.step_slotsReturn h
    obtain ⟨now, clocks, hclocks, hlen'⟩ := hcons _ _ hstack
    rw [hstack, hclocks, List.zip_cons_cons] at hold
    obtain ⟨cyc', hc⟩ : ∃ cyc', c.stack = ⟨rest, cyc', false⟩ :: ps := by
      rcases hcase with ⟨-, rfl⟩ | ⟨-, rfl⟩ <;> exact ⟨_, rfl⟩
    simp only [nextClocks, hclocks, hc, List.zip_cons_cons, List.length_cons, hlen', true_and]
    intro e he r hr
    rcases List.mem_cons.mp he with rfl | he
    · exact hold _ List.mem_cons_self r (List.mem_cons_of_mem _ hr)
    · exact hold e (List.mem_cons_of_mem _ he) r hr
  | finish =>
    obtain ⟨cyc, ps, hstack, rfl⟩ := TimerConf.step_finish h
    obtain ⟨now, clocks, hclocks, hlen'⟩ := hcons _ _ hstack
    rw [hstack, hclocks, List.zip_cons_cons] at hold
    simp only [nextClocks, hclocks, List.tail_cons, hlen', true_and]
    exact fun e he => hold e (List.mem_cons_of_mem _ he)

/-- One step: nothing is emitted early, and the invariant is kept. -/
lemma Punctual.next (hx : x.Punctual) (hrange : x.conf.InRange a) (hsafe : x.conf.HoldSafe a)
    (h : x.step a = some x') : x.NotEarly a ∧ x'.Punctual := by
  obtain ⟨c, hc, rfl⟩ := step_eq_some.mp h
  obtain ⟨hlen, hbatches⟩ := hx.batches_next hsafe hc
  refine ⟨?_, hx.reach.next hc, TimerConf.step_tableInv hx.tables hsafe hc, ?_, hlen, hbatches⟩
  · intro r hr now hnow
    by_cases ha : a = .emitTimeout
    · subst ha
      obtain ⟨r₀, rest, cyc, ps, hstack, -, hemits⟩ := TimerConf.step_emitTimeout hc
      rw [hemits, List.mem_singleton] at hr
      subst hr
      obtain ⟨clocks, hclocks⟩ := List.head?_eq_some_iff.mp hnow
      have hb := hx.batches
      rw [hstack, hclocks, List.zip_cons_cons] at hb
      exact hb _ List.mem_cons_self r List.mem_cons_self
    · rw [TimerConf.emits_eq_nil ha] at hr
      exact absurd hr List.not_mem_nil
  · intro r hw hheld
    by_cases hr : r ∈ x.conf.arms a
    · dsimp only
      rw [nextDue_of_mem hr, TimerConf.nextTimeout_of_mem_arms hx.reach.idInv hc hr]
      exact TimerConf.wrap64_eq (hx.reach.promised_nonneg r) (hrange r hr)
    · obtain ⟨hw', hheld', he⟩ := TimerConf.kept_of_not_mem_arms hx.reach.idInv hc hr hw hheld
      dsimp only
      rw [nextDue_of_not_mem hr, he]
      exact hx.deadline r hw' hheld'

/-! ## Whole runs -/

/-- **Exact deadlines, in every run.**  All timers are armed for exactly `now + interval` if and
only if no sum leaves the range of `int64_t`; and when moreover no slot restarts, stops or releases
a timer in a way that `handleTimerEvent` undoes, no timer is emitted before its deadline. -/
theorem timer_deadlines (clock : ℤ) (h0 : 0 ≤ clock) (hlt : clock < 2 ^ 63)
    (as : List TimerAction) (x : DueConf) (hrun : Lib.run step (init clock) as = some x) :
    (Lib.AllSteps step (fun x a => x.conf.ArmsExactly a) (init clock) as ↔
      Lib.AllSteps step (fun x a => x.conf.InRange a) (init clock) as) ∧
    (Lib.AllSteps step (fun x a => x.conf.InRange a ∧ x.conf.HoldSafe a) (init clock) as →
      Lib.AllSteps step NotEarly (init clock) as) := by
  have hreach : (init clock).conf.Reachable := ⟨clock, [], h0, hlt, rfl⟩
  have hiff : ∀ (x : DueConf) a x', x.conf.Reachable → x.step a = some x' →
      (x.conf.ArmsExactly a ↔ x.conf.InRange a) ∧ x'.conf.Reachable := by
    intro x a x' hx h
    obtain ⟨c, hc, rfl⟩ := step_eq_some.mp h
    exact ⟨hx.armsExactly_iff hc, hx.next hc⟩
  refine ⟨⟨fun hall => ?_, fun hall => ?_⟩, fun hall => ?_⟩
  · refine hall.of_inv (I := fun x => x.conf.Reachable) (fun x a x' hx hok h => ?_) hreach hrun
    exact ⟨(hiff x a x' hx h).1.mp hok, (hiff x a x' hx h).2⟩
  · refine hall.of_inv (I := fun x => x.conf.Reachable) (fun x a x' hx hok h => ?_) hreach hrun
    exact ⟨(hiff x a x' hx h).1.mpr hok, (hiff x a x' hx h).2⟩
  · exact hall.of_inv (I := Punctual) (fun x a x' hx hok h => hx.next hok.1 hok.2 h)
      (punctual_init h0 hlt) hrun

/-- A cyclic timer of interval 5 that fires at 5 and at 10. -/
def twoPeriods : List TimerAction :=
  [.call (.addTimer 5), .call (.start 0), .tick 5, .handleTimerEvent, .emitTimeout, .slotsReturn,
    .finish, .tick 5, .handleTimerEvent, .emitTimeout]

theorem timer_deadlines_twoPeriods :
    Lib.AllSteps step (fun x a => x.conf.ArmsExactly a) (init 0) twoPeriods ∧
      Lib.AllSteps step NotEarly (init 0) twoPeriods := by
  have hrun : ((Lib.run step (init 0) twoPeriods).map fun x => x.due 0) = some 10 := by
    decide +kernel
  obtain ⟨x, hx, -⟩ := Option.map_eq_some_iff.mp hrun
  obtain ⟨hexact, hearly⟩ := timer_deadlines 0 (by norm_num) (by norm_num) twoPeriods x hx
  exact ⟨hexact.mpr (by decide +kernel), hearly (by decide +kernel)⟩

/-- A timer with the largest interval, started when the clock reads 1. -/
def largestInterval : List TimerAction :=
  [.call (.addTimer (2 ^ 63 - 1)), .call (.start 0), .handleTimerEvent, .emitTimeout]

/-- The deadline wraps around to `-2 ^ 63`, and the timer fires at once. -/
theorem largestInterval_fires_at_once :
    ((Lib.run step (init 1) largestInterval).map fun x =>
      (x.conf.tables.timers 0).nextTimeout) = some (-2 ^ 63) ∧
    ¬ Lib.AllSteps step (fun x a => x.conf.ArmsExactly a) (init 1) largestInterval ∧
    ¬ Lib.AllSteps step NotEarly (init 1) largestInterval := by
  decide +kernel

end DueConf

end SignalEventLoop.Core
