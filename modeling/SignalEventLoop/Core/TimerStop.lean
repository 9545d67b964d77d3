/-
# No timeout after `stop`

After `Timer::stop` or `Timer::release` has returned, the timer must stay silent until a
later `Timer::start` succeeds.  A timer can only fire from three places: an entry of
`timerEventsMap`, the rest of a batch that `handleTimerEvent` is delivering, and a
`cycleQueue`, from which it goes back into the map.  `stop` and `release` erase the one
entry that has the timer's current key and touch no batch, so they silence the timer when
it stands in none of these places but that entry (`OnlyKeyed`).
-/
import SignalEventLoop.Core.TimerSpec

namespace SignalEventLoop.Core

namespace TimerConf

variable {c c' : TimerConf} {a : TimerAction} {r : TimerRef}

/-- The timer is in no batch whose delivery is going on, and its only entry in
`timerEventsMap`, if any, is the one that `stop` and `release` erase. -/
def OnlyKeyed (c : TimerConf) (r : TimerRef) : Prop :=
  (∀ p ∈ c.stack, r ∉ p.waiting ∧ r ∉ p.cycleQueue) ∧
    ∀ e ∈ c.tables.timerEventsMap.toList, e.2 = r →
      (c.tables.timers r).timerId ≠ 0 ∧ e.1 = (c.tables.timers r).key

instance (c : TimerConf) (r : TimerRef) : Decidable (c.OnlyKeyed r) :=
  inferInstanceAs (Decidable (_ ∧ _))

/-- The action is a call of `Timer::start` on the timer that returns true. -/
def Starts (r : TimerRef) (c : TimerConf) (a : TimerAction) : Prop :=
  a = .call (.start r) ∧ c.startResult r = true

instance (r : TimerRef) (c : TimerConf) (a : TimerAction) : Decidable (Starts r c a) :=
  inferInstanceAs (Decidable (_ ∧ _))

/-- The timer can fire from none of the three places. -/
structure Silent (c : TimerConf) (r : TimerRef) : Prop where
  known : r < c.tables.nextRef
  idle : (c.tables.timers r).working = false
  no_entry : ∀ k : ℤ × ℕ, c.tables.timerEventsMap[k]? ≠ some r
  not_waiting : ∀ p ∈ c.stack, r ∉ p.waiting
  not_cycling : ∀ p ∈ c.stack, r ∉ p.cycleQueue

lemma setTimer_working_false {s : TimerTables} (hr : (s.timers r).working = false)
    {r' : TimerRef} {t : Timer} (ht : (s.timers r').working = false → t.working = false) :
    ((s.setTimer r' t).timers r).working = false := by
  rw [TimerTables.setTimer_timers]
  split
  · next he =>
    subst he
    exact ht hr
  · exact hr

lemma call_silent {op : TimerOp} (hids : c.tables.IdInv) (hr : c.Silent r)
    (hno : ¬ Starts r c (.call op)) :
    r < (c.tables.apply c.clock op).nextRef ∧
      ((c.tables.apply c.clock op).timers r).working = false ∧
      ∀ k : ℤ × ℕ, (c.tables.apply c.clock op).timerEventsMap[k]? ≠ some r := by
  cases op with
  | addTimer i =>
    obtain ⟨he, hn, ht⟩ := c.tables.addTimer_frame i
    refine ⟨lt_of_lt_of_le hr.known hn, ?_, ?_⟩
    · rw [TimerTables.apply, ht r (ne_of_lt hr.known)]
      exact hr.idle
    · rw [TimerTables.apply, he]
      exact hr.no_entry
  | setInterval r' i =>
    refine ⟨hr.known, setTimer_working_false hr.idle fun h => ?_, hr.no_entry⟩
    rw [(Timer.setInterval_sameState _ i).working, h]
  | setSingle r' b =>
    refine ⟨hr.known, setTimer_working_false hr.idle fun h => ?_, hr.no_entry⟩
    rw [(Timer.setSingle_sameState _ b).working, h]
  | start r' =>
    rcases hids.start_cases c.clock r' with ⟨-, he⟩ | ⟨-, he⟩ | ⟨hr', hw', he⟩
    · simpa only [TimerTables.apply, he] using ⟨hr.known, hr.idle, hr.no_entry⟩
    · simpa only [TimerTables.apply, he] using ⟨hr.known, hr.idle, hr.no_entry⟩
    · -- it is another timer that is armed
      have hne : r ≠ r' := by
        rintro rfl
        exact hno ⟨rfl, by rw [startResult, he]⟩
      simp only [TimerTables.apply, he]
      refine ⟨hr.known, ?_, ?_⟩
      · rw [TimerTables.arm_timers, TimerTables.setTimer_timers_ne _ _ hne]
        exact hr.idle
      · intro k hk
        rcases Lib.getElem?_insertIfNew_eq_some hk with hk | ⟨-, hk⟩
        · exact hr.no_entry k hk
        · exact hne hk.symm
  | stop r' =>
    by_cases hr' : (c.tables.timers r').timerId = 0
    · simpa only [TimerTables.apply, TimerTables.stop_of_invalid hr'] using
        ⟨hr.known, hr.idle, hr.no_entry⟩
    · simp only [TimerTables.apply, hids.stop_of_valid hr']
      refine ⟨hr.known, setTimer_working_false hr.idle (by simp), fun k hk => ?_⟩
      exact hr.no_entry k (Lib.getElem?_erase_eq_some.mp hk).2
  | release r' =>
    by_cases hr' : (c.tables.timers r').timerId = 0
    · simpa only [TimerTables.apply, TimerTables.release_of_invalid hr'] using
        ⟨hr.known, hr.idle, hr.no_entry⟩
    · simp only [TimerTables.apply, hids.release_of_valid hr']
      refine ⟨hr.known, setTimer_working_false hr.idle (by simp), fun k hk => ?_⟩
      exact hr.no_entry k (Lib.getElem?_erase_eq_some.mp hk).2

/-- Arming the cyclic timers again does not touch the other timers. -/
lemma requeue_frame (now : ℤ) (q : List TimerRef) (s : TimerTables) (hr : r ∉ q) :
    (s.requeue now q).nextRef = s.nextRef ∧ (s.requeue now q).timers r = s.timers r ∧
      ((∀ k : ℤ × ℕ, s.timerEventsMap[k]? ≠ some r) →
        ∀ k : ℤ × ℕ, (s.requeue now q).timerEventsMap[k]? ≠ some r) := by
  induction q generalizing s with
  | nil => exact ⟨rfl, rfl, id⟩
  | cons r' q ih =>
    rw [List.mem_cons, not_or] at hr
    obtain ⟨h1, h2, h3⟩ := ih (s.requeueOne now r') hr.2
    refine ⟨h1, h2.trans (s.setTimer_timers_ne _ hr.1), fun hno => h3 fun k hk => ?_⟩
    rcases Lib.getElem?_insertIfNew_eq_some hk with hk | ⟨-, hk⟩
    · exact hno k hk
    · exact hr.1 hk.symm

/-- A silent timer stays silent until it is started. -/
lemma step_silent (hids : c.tables.IdInv) (hr : c.Silent r) (hno : ¬ Starts r c a)
    (h : c.step a = some c') : c'.Silent r := by
  cases a with
  | tick ms =>
    obtain ⟨rfl, -⟩ := step_tick h
    exact ⟨hr.known, hr.idle, hr.no_entry, hr.not_waiting, hr.not_cycling⟩
  | call op =>
    obtain ⟨rfl, -, -⟩ := step_call h
    obtain ⟨h1, h2, h3⟩ := call_silent hids hr hno
    exact ⟨h1, h2, h3, hr.not_waiting, hr.not_cycling⟩
  | handleTimerEvent =>
    obtain ⟨rfl, -⟩ := step_handleTimerEvent h
    refine ⟨hr.known, hr.idle, fun k hk => hr.no_entry k (TimerTables.dropExpired_getElem?.mp hk).1,
      ?_, ?_⟩
    · intro p hp
      rcases List.mem_cons.mp hp with rfl | hp
      · simp only [Pass.waiting, Bool.false_eq_true, if_false, List.mem_map, not_exists, not_and]
        rintro e he rfl
        exact hr.no_entry e.1 (TimerTables.mem_expired.mp he).1
      · exact hr.not_waiting p hp
    · intro p hp
      rcases List.mem_cons.mp hp with rfl | hp
      · simp
      · exact hr.not_cycling p hp
  | emitTimeout =>
    obtain ⟨r₀, rest, cyc, ps, hstack, rfl, -⟩ := step_emitTimeout h
    have hw := hr.not_waiting
    have hcyc := hr.not_cycling
    rw [hstack, List.forall_mem_cons] at hw hcyc
    simp only [Pass.waiting, Bool.false_eq_true, if_false, List.mem_cons, not_or] at hw
    refine ⟨hr.known, hr.idle, hr.no_entry, List.forall_mem_cons.mpr ⟨?_, hw.2⟩,
      List.forall_mem_cons.mpr hcyc⟩
    simpa [Pass.waiting] using hw.1.2
  | slotsReturn =>
    obtain ⟨r₀, rest, cyc, ps, hstack, hcase⟩ := step_slotsReturn h
    have hw := hr.not_waiting
    have hcyc := hr.not_cycling
    rw [hstack, List.forall_mem_cons] at hw hcyc
    have hrest : r ∉ rest := by simpa [Pass.waiting] using hw.1
    rcases hcase with ⟨hcy, rfl⟩ | ⟨-, rfl⟩
    · -- a timer that does not work is not queued again
      have hne : r ≠ r₀ := by
        rintro rfl
        rw [TimerTables.cyclic, hr.idle, Bool.and_false] at hcy
        exact absurd hcy (by simp)
      refine ⟨hr.known, hr.idle, hr.no_entry, List.forall_mem_cons.mpr ⟨hrest, hw.2⟩,
        List.forall_mem_cons.mpr ⟨?_, hcyc.2⟩⟩
      simpa [hne] using hcyc.1
    · exact ⟨hr.known, setTimer_working_false hr.idle (by simp), hr.no_entry,
        List.forall_mem_cons.mpr ⟨hrest, hw.2⟩, List.forall_mem_cons.mpr hcyc⟩
  | finish =>
    obtain ⟨cyc, ps, hstack, rfl⟩ := step_finish h
    have hw := hr.not_waiting
    have hcyc := hr.not_cycling
    rw [hstack, List.forall_mem_cons] at hw hcyc
    obtain ⟨h1, h2, h3⟩ := requeue_frame c.clock cyc c.tables hcyc.1
    refine ⟨by rw [h1]; exact hr.known, by rw [h2]; exact hr.idle, h3 hr.no_entry, hw.2, hcyc.2⟩

/-- A silent timer is not the one that is emitted. -/
lemma Silent.not_emits (hr : c.Silent r) (h : c.step a = some c') : r ∉ c.emits a := by
  by_cases ha : a = .emitTimeout
  · subst ha
    obtain ⟨r₀, rest, cyc, ps, hstack, -, he⟩ := step_emitTimeout h
    have hw := hr.not_waiting
    rw [hstack, List.forall_mem_cons] at hw
    simp only [Pass.waiting, Bool.false_eq_true, if_false, List.mem_cons, not_or] at hw
    rw [he, List.mem_singleton]
    exact hw.1.1
  · rw [emits_eq_nil ha]
    simp

/-- A silent timer is not emitted in a run that does not start it. -/
lemma Silent.not_mem_outputs (hids : c.tables.IdInv) (hr : c.Silent r) {as : List TimerAction}
    (hno : Lib.AllSteps step (fun c a => ¬ Starts r c a) c as) :
    r ∉ Lib.outputs step emits c as := by
  induction as generalizing c with
  | nil => simp
  | cons a as ih =>
    obtain ⟨hna, hrest⟩ := hno
    cases h : c.step a with
    | none =>
      rw [Lib.outputs_cons_of_eq_none as h]
      simp
    | some c' =>
      rw [Lib.mem_outputs_cons h, not_or]
      exact ⟨hr.not_emits h, ih (step_idInv hids h) (step_silent hids hr hna h) (hrest c' h)⟩

/-- `stop` and `release` silence a timer that stands nowhere but under its key. -/
lemma silent_of_call {op : TimerOp} (hids : c.tables.IdInv) (hkeyed : c.OnlyKeyed r)
    (hop : op = .stop r ∨ op = .release r) (h : c.step (.call op) = some c') : c'.Silent r := by
  obtain ⟨rfl, -, hknown⟩ := step_call h
  obtain ⟨hbatch, hlist⟩ := hkeyed
  have hentry : ∀ k : ℤ × ℕ, c.tables.timerEventsMap[k]? = some r →
      (c.tables.timers r).timerId ≠ 0 ∧ k = (c.tables.timers r).key := fun k hk =>
    hlist (k, r) (Std.ExtTreeMap.mem_toList_iff_getElem?_eq_some.mpr hk) rfl
  have hkn : r < c.tables.nextRef := by
    rcases hop with rfl | rfl <;> simpa [TimerOp.known] using hknown
  by_cases hr : (c.tables.timers r).timerId = 0
  · -- the timer was released before: the call does nothing, and no entry can be left
    have hsame : c.tables.apply c.clock op = c.tables := by
      rcases hop with rfl | rfl
      · exact TimerTables.stop_of_invalid hr
      · exact TimerTables.release_of_invalid hr
    rw [hsame]
    refine ⟨hkn, ?_, fun k hk => (hentry k hk).1 hr, fun p hp => (hbatch p hp).1,
      fun p hp => (hbatch p hp).2⟩
    simp [Timer.working, isValidTimerId, invalidTimerId, hr]
  · -- the one entry that the timer may have is erased
    have hgone : ∀ k : ℤ × ℕ,
        (c.tables.timerEventsMap.erase (c.tables.timers r).key)[k]? ≠ some r := by
      intro k hk
      obtain ⟨hne, hk⟩ := Lib.getElem?_erase_eq_some.mp hk
      exact hne (hentry k hk).2.symm
    rcases hop with rfl | rfl
    · simp only [TimerTables.apply, hids.stop_of_valid hr]
      refine ⟨hkn, ?_, hgone, fun p hp => (hbatch p hp).1, fun p hp => (hbatch p hp).2⟩
      simp [TimerTables.disarm_timers]
    · simp only [TimerTables.apply, hids.release_of_valid hr]
      refine ⟨hkn, ?_, hgone, fun p hp => (hbatch p hp).1, fun p hp => (hbatch p hp).2⟩
      simp [TimerTables.forget_timers]

/-- **No timeout after `stop`.** When `stop` or `release` is called on a timer that stands
in no batch under delivery and has no entry but the one under its current key, no run that
follows emits its timeout before a call of `start` on it returns true. -/
theorem no_timeout_after_stop (c : TimerConf) (hc : c.Reachable) (r : TimerRef) (op : TimerOp)
    (hop : op = .stop r ∨ op = .release r) (hkeyed : c.OnlyKeyed r) (c' : TimerConf)
    (hstep : c.step (.call op) = some c') (as : List TimerAction)
    (hno : Lib.AllSteps step (fun c a => ¬ Starts r c a) c' as) :
    r ∉ Lib.outputs step emits c' as :=
  (silent_of_call hc.idInv hkeyed hop hstep).not_mem_outputs (step_idInv hc.idInv hstep) hno

/-- A timer that is stopped before it expires is not emitted by a later pass. -/
theorem no_timeout_after_stop_outside :
    ∃ c c' : TimerConf, c.Reachable ∧ c.OnlyKeyed 0 ∧ c.step (.call (.stop 0)) = some c' ∧
      0 ∉ Lib.outputs step emits c' [.tick 10, .handleTimerEvent, .finish] := by
  let before : List TimerAction := [.call (.addTimer 5), .call (.start 0)]
  let after : List TimerAction := [.tick 10, .handleTimerEvent, .finish]
  have hrun : ((Lib.run step (init 0) before).bind fun c =>
      (c.step (.call (.stop 0))).map fun c' => (decide (c.OnlyKeyed 0),
        decide (Lib.AllSteps step (fun c a => ¬ Starts 0 c a) c' after))) =
          some (true, true) := by
    decide +kernel
  obtain ⟨c, hc, hrest⟩ := Option.bind_eq_some_iff.mp hrun
  obtain ⟨c', hc', hobs⟩ := Option.map_eq_some_iff.mp hrest
  simp only [Prod.mk.injEq, decide_eq_true_eq] at hobs
  have hreach : c.Reachable := ⟨0, before, by norm_num, by norm_num, hc⟩
  exact ⟨c, c', hreach, hobs.1, hc', no_timeout_after_stop c hreach 0 (.stop 0) (Or.inl rfl)
    hobs.1 c' hc' after hobs.2⟩

/-- Two timers expire together; the slot of the first one stops the second one.  The second
timer is emitted all the same. -/
theorem timeout_after_stop_in_batch :
    ∃ c c' : TimerConf, c.Reachable ∧ c.step (.call (.stop 1)) = some c' ∧
      Lib.AllSteps step (fun c a => ¬ Starts 1 c a) c' [.slotsReturn, .emitTimeout] ∧
      1 ∈ Lib.outputs step emits c' [.slotsReturn, .emitTimeout] := by
  let before : List TimerAction := [.call (.addTimer 5), .call (.addTimer 5), .call (.start 0),
    .call (.start 1), .tick 5, .handleTimerEvent, .emitTimeout]
  have hrun : ((Lib.run step (init 0) before).bind fun c =>
      (c.step (.call (.stop 1))).map fun c' => (decide (Lib.AllSteps step
        (fun c a => ¬ Starts 1 c a) c' [.slotsReturn, .emitTimeout]),
        Lib.outputs step emits c' [.slotsReturn, .emitTimeout])) = some (true, [1]) := by
    decide +kernel
  obtain ⟨c, hc, hrest⟩ := Option.bind_eq_some_iff.mp hrun
  obtain ⟨c', hc', hobs⟩ := Option.map_eq_some_iff.mp hrest
  simp only [Prod.mk.injEq, decide_eq_true_eq] at hobs
  exact ⟨c, c', ⟨0, before, by norm_num, by norm_num, hc⟩, hc', hobs.1, by simp [hobs.2]⟩

/-! ## A new timer is silent -/

/-- The timer stands in the queue of the object, or in a batch. -/
def Queued (c : TimerConf) (r : TimerRef) : Prop :=
  (∃ k : ℤ × ℕ, c.tables.timerEventsMap[k]? = some r) ∨ ∃ p ∈ c.stack, r ∈ p.held

lemma queued_of_call {op : TimerOp} {k : ℤ × ℕ} (hids : c.tables.IdInv)
    (hk : (c.tables.apply c.clock op).timerEventsMap[k]? = some r) :
    c.tables.timerEventsMap[k]? = some r ∨ op = .start r := by
  cases op with
  | addTimer i =>
    rw [TimerTables.apply, (c.tables.addTimer_frame i).1] at hk
    exact Or.inl hk
  | setInterval r' i => exact Or.inl hk
  | setSingle r' b => exact Or.inl hk
  | start r' =>
    rcases hids.start_cases c.clock r' with ⟨-, he⟩ | ⟨-, he⟩ | ⟨-, -, he⟩
    · rw [TimerTables.apply, he] at hk
      exact Or.inl hk
    · rw [TimerTables.apply, he] at hk
      exact Or.inl hk
    · rw [TimerTables.apply, he] at hk
      rcases Lib.getElem?_insertIfNew_eq_some hk with hk | ⟨-, rfl⟩
      · exact Or.inl hk
      · exact Or.inr rfl
  | stop r' =>
    by_cases hr' : (c.tables.timers r').timerId = 0
    · rw [TimerTables.apply, TimerTables.stop_of_invalid hr'] at hk
      exact Or.inl hk
    · rw [TimerTables.apply, hids.stop_of_valid hr'] at hk
      exact Or.inl (Lib.getElem?_erase_eq_some.mp hk).2
  | release r' =>
    by_cases hr' : (c.tables.timers r').timerId = 0
    · rw [TimerTables.apply, TimerTables.release_of_invalid hr'] at hk
      exact Or.inl hk
    · rw [TimerTables.apply, hids.release_of_valid hr'] at hk
      exact Or.inl (Lib.getElem?_erase_eq_some.mp hk).2

/-- Only `start` puts a timer into the queue. -/
lemma queued_of_step (hids : c.tables.IdInv) (h : c.step a = some c') (hq : c'.Queued r) :
    c.Queued r ∨ a = .call (.start r) := by
  cases a with
  | tick ms =>
    obtain ⟨rfl, -⟩ := step_tick h
    exact Or.inl hq
  | call op =>
    obtain ⟨rfl, -, -⟩ := step_call h
    rcases hq with ⟨k, hk⟩ | hstack
    · rcases queued_of_call hids hk with hk | rfl
      · exact Or.inl (Or.inl ⟨k, hk⟩)
      · exact Or.inr rfl
    · exact Or.inl (Or.inr hstack)
  | handleTimerEvent =>
    obtain ⟨rfl, -⟩ := step_handleTimerEvent h
    refine Or.inl ?_
    rcases hq with ⟨k, hk⟩ | ⟨p, hp, hr⟩
    · exact Or.inl ⟨k, (TimerTables.dropExpired_getElem?.mp hk).1⟩
    · rcases List.mem_cons.mp hp with rfl | hp
      · obtain ⟨e, he, rfl⟩ : ∃ e ∈ c.tables.expired c.clock, e.2 = r := by
          simpa [Pass.held] using hr
        exact Or.inl ⟨e.1, (TimerTables.mem_expired.mp he).1⟩
      · exact Or.inr ⟨p, hp, hr⟩
  | emitTimeout =>
    obtain ⟨r₀, rest, cyc, ps, hstack, rfl, -⟩ := step_emitTimeout h
    refine Or.inl (hq.imp id ?_)
    rintro ⟨p, hp, hr⟩
    rw [hstack]
    rcases List.mem_cons.mp hp with rfl | hp
    · exact ⟨_, List.mem_cons_self, hr⟩
    · exact ⟨p, List.mem_cons_of_mem _ hp, hr⟩
  | slotsReturn =>
    obtain ⟨r₀, rest, cyc, ps, hstack, ⟨-, rfl⟩ | ⟨-, rfl⟩⟩ := step_slotsReturn h
    all_goals
      refine Or.inl (hq.imp id ?_)
      rintro ⟨p, hp, hr⟩
      rw [hstack]
      rcases List.mem_cons.mp hp with rfl | hp
      · refine ⟨_, List.mem_cons_self, ?_⟩
        simp only [Pass.held, List.mem_append, List.mem_cons, List.not_mem_nil, or_false] at hr ⊢
        tauto
      · exact ⟨p, List.mem_cons_of_mem _ hp, hr⟩
  | finish =>
    obtain ⟨cyc, ps, hstack, rfl⟩ := step_finish h
    refine Or.inl ?_
    rcases hq with ⟨k, hk⟩ | ⟨p, hp, hr⟩
    · by_cases hr : r ∈ cyc
      · refine Or.inr ⟨⟨[], cyc, false⟩, by rw [hstack]; exact List.mem_cons_self, ?_⟩
        simpa [Pass.held] using hr
      · by_contra hnot
        refine (requeue_frame c.clock cyc c.tables hr).2.2 ?_ k hk
        exact fun k hk => hnot (Or.inl ⟨k, hk⟩)
    · exact Or.inr ⟨p, by rw [hstack]; exact List.mem_cons_of_mem _ hp, hr⟩

/-- References are never taken back. -/
lemma nextRef_le_of_step (hids : c.tables.IdInv) (h : c.step a = some c') :
    c.tables.nextRef ≤ c'.tables.nextRef := by
  cases a with
  | tick ms =>
    obtain ⟨rfl, -⟩ := step_tick h
    exact le_rfl
  | call op =>
    obtain ⟨rfl, -, -⟩ := step_call h
    cases op with
    | addTimer i => exact (c.tables.addTimer_frame i).2.1
    | setInterval r' i => exact le_rfl
    | setSingle r' b => exact le_rfl
    | start r' =>
      rcases hids.start_cases c.clock r' with ⟨-, he⟩ | ⟨-, he⟩ | ⟨-, -, he⟩ <;>
        simp [TimerTables.apply, he, TimerTables.arm, TimerTables.setTimer]
    | stop r' =>
      by_cases hr' : (c.tables.timers r').timerId = 0
      · simp [TimerTables.apply, TimerTables.stop_of_invalid hr']
      · simp [TimerTables.apply, hids.stop_of_valid hr', TimerTables.disarm, TimerTables.setTimer]
    | release r' =>
      by_cases hr' : (c.tables.timers r').timerId = 0
      · simp [TimerTables.apply, TimerTables.release_of_invalid hr']
      · simp [TimerTables.apply, hids.release_of_valid hr', TimerTables.forget,
          TimerTables.setTimer]
  | handleTimerEvent =>
    obtain ⟨rfl, -⟩ := step_handleTimerEvent h
    exact le_rfl
  | emitTimeout =>
    obtain ⟨r₀, rest, cyc, ps, -, rfl, -⟩ := step_emitTimeout h
    exact le_rfl
  | slotsReturn =>
    obtain ⟨r₀, rest, cyc, ps, -, ⟨-, rfl⟩ | ⟨-, rfl⟩⟩ := step_slotsReturn h <;> exact le_rfl
  | finish =>
    obtain ⟨cyc, ps, -, rfl⟩ := step_finish h
    show c.tables.nextRef ≤ (c.tables.requeue c.clock cyc).nextRef
    clear h
    generalize c.tables = s
    induction cyc generalizing s with
    | nil => exact le_rfl
    | cons r' cyc ih => exact ih (s.requeueOne c.clock r')

/-- Every timer that is queued was handed out. -/
structure QueueKnown (c : TimerConf) : Prop where
  ids : c.tables.IdInv
  known : ∀ r, c.Queued r → r < c.tables.nextRef

lemma queueKnown_init (clock : ℤ) : (init clock).QueueKnown :=
  ⟨TimerTables.idInv_empty, by simp [Queued, init, TimerTables.empty]⟩

lemma QueueKnown.step (hc : c.QueueKnown) (h : c.step a = some c') : c'.QueueKnown := by
  refine ⟨step_idInv hc.ids h, fun r hr => ?_⟩
  have hle := nextRef_le_of_step hc.ids h
  rcases queued_of_step hc.ids h hr with hr | rfl
  · exact lt_of_lt_of_le (hc.known r hr) hle
  · obtain ⟨-, -, hknown⟩ := step_call h
    exact lt_of_lt_of_le (by simpa [TimerOp.known] using hknown) hle

/-- A timer that `addTimer` has just made is silent. -/
lemma silent_of_addTimer (hc : c.QueueKnown) {i : ℤ} (hr : (c.tables.addTimer i).1 = some r)
    (h : c.step (.call (.addTimer i)) = some c') : c'.Silent r := by
  obtain ⟨rfl, -, -⟩ := step_call h
  obtain ⟨hevents, -, -⟩ := c.tables.addTimer_frame i
  have hnew := hc.ids.addTimer_new i
  obtain ⟨-, hn, -, -⟩ := c.tables.getNextTimerId_frame
  obtain ⟨rfl, hlt⟩ : r = c.tables.nextRef ∧
      c.tables.nextRef < (c.tables.addTimer i).2.nextRef := by
    unfold TimerTables.addTimer at hr ⊢
    dsimp only at hr ⊢
    split at hr
    · next hvalid =>
      rw [if_pos hvalid]
      obtain rfl := Option.some.inj hr
      rw [hn]
      exact ⟨rfl, Nat.lt_succ_self _⟩
    · simp at hr
  have hnot : ¬ c.Queued c.tables.nextRef := fun hq => lt_irrefl _ (hc.known _ hq)
  refine ⟨hlt, hnew, fun k hk => hnot (Or.inl ⟨k, ?_⟩), fun p hp hw => hnot (Or.inr ⟨p, hp, ?_⟩),
    fun p hp hw => hnot (Or.inr ⟨p, hp, List.mem_append_right _ hw⟩)⟩
  · rw [TimerTables.apply, hevents] at hk
    exact hk
  · refine List.mem_append_left _ ?_
    rw [Pass.waiting] at hw
    split_ifs at hw
    · exact List.mem_of_mem_tail hw
    · exact hw

end TimerConf

end SignalEventLoop.Core
