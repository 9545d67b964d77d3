/-
# Cancelling a task that waits

A task in `TASK_WAIT_START` with one entry in the queue, the worker that runs this entry, and
any number of `cancelTask` calls.  Both `cancelTask` and `run` test for `TASK_WAIT_START`
first and set the state in a later step.  A call that has passed its test is committed: the
cancel is going to return true, the worker is going to call `runFunction`.  Both happen for
one task exactly when one side makes its test while the other stands between its own test
and its exchange.
-/
import SignalEventLoop.Core.ThreadPoolPush

namespace SignalEventLoop.Core

open Lib (Threads)

namespace TaskPc

/-- `cancelTask` has found `TASK_WAIT_START` and is going to return true. -/
def cancelling : TaskPc → Bool
  | .setting .cancelled | .exchanging .cancelled => true
  | _ => false

/-- `run` has found `TASK_WAIT_START` and has not set `TASK_RUNNING` yet. -/
def beginning : TaskPc → Bool
  | .setting .running | .exchanging .running => true
  | _ => false

/-- `run` is going to set `TASK_FINISHED`. -/
def finishing : TaskPc → Bool
  | .setting .finished | .exchanging .finished => true
  | _ => false

end TaskPc

namespace TaskConf

variable {ι : Type*}

/-- A cancel that returned true means that the task does not run. -/
def CancelledNeverRun (s : TaskConf ι) : Prop :=
  true ∈ s.shared.cancels → s.shared.executions = 0 ∧ TaskState.running ∉ s.shared.notified

/-- The worker and all calls have returned. -/
def Complete (s : TaskConf ι) : Prop :=
  s.shared.queued = 0 ∧ ∀ p, s.pcs p = .idle

/-- The condition on a step: neither `run` nor `cancelTask` finds `TASK_WAIT_START` while a
call of the other stands between its own test and its exchange. -/
def NoRace (s : TaskConf ι) (a : ι × TaskStep) : Prop :=
  ∀ q, s.shared.runningState = .waitStart →
    (a.2 = .run → (s.pcs q).cancelling = false) ∧
      (a.2 = .cancelTask → (s.pcs q).beginning = false)

/-- Some cancel has returned true or is going to. -/
def CancelWins (s : TaskConf ι) : Prop :=
  true ∈ s.shared.cancels ∨ ∃ q, (s.pcs q).cancelling = true

/-- `run` has found `TASK_WAIT_START` and is going to call `runFunction`, or has called it. -/
def RunWins (s : TaskConf ι) : Prop :=
  0 < s.shared.executions ∨ ∃ q, (s.pcs q).beginning = true ∨ s.pcs q = .executing

variable [DecidableEq ι] {s s' : TaskConf ι} {a : ι × TaskStep}

/-! ## Who is committed after a step -/

/-- The return from `setStatus` turns a cancel that is going to return true into one that
has. -/
lemma cancelWins_afterStatus {p : ι} {sh : TaskShared} {status : TaskState}
    (hp : s.pcs p = .setting status ∨ s.pcs p = .exchanging status)
    (hsh : sh.cancels = s.shared.cancels) :
    CancelWins (s.move p (afterStatus sh status)) ↔ CancelWins s := by
  by_cases hstatus : status = .cancelled
  · subst hstatus
    refine iff_of_true (Or.inl (by simp [afterStatus])) (Or.inr ⟨p, ?_⟩)
    rcases hp with hp | hp <;> rw [hp] <;> rfl
  · have hcancels : (afterStatus sh status).1.cancels = s.shared.cancels := by
      rw [← hsh]
      cases status <;> first | rfl | exact absurd rfl hstatus
    refine or_congr (by rw [Threads.move_shared, hcancels])
      (Threads.exists_move_iff (TaskPc.cancelling · = true) ?_)
    rcases hp with hp | hp <;> rw [hp] <;> cases status <;>
      first | exact Iff.rfl | exact absurd rfl hstatus

/-- A cancel becomes committed at its test only. -/
lemma step_cancelWins (h : step s a = some s') :
    CancelWins s' ↔
      CancelWins s ∨ a.2 = .cancelTask ∧ s.shared.runningState = .waitStart := by
  obtain ⟨r, hr, rfl⟩ := step_eq_some h
  obtain ⟨p, x⟩ := a
  dsimp only at hr ⊢
  -- a move that touches neither the results nor the positions of cancels
  have hquiet : (true ∈ r.1.cancels ↔ true ∈ s.shared.cancels) →
      (r.2.cancelling = true ↔ (s.pcs p).cancelling = true) →
      (CancelWins (s.move p r) ↔ CancelWins s) := fun hres hpc =>
    or_congr hres (Threads.exists_move_iff (TaskPc.cancelling · = true) hpc)
  generalize hc : s.pcs p = c at hr hquiet
  cases hr with
  | cancelTask hwait =>
    exact iff_of_true (Or.inr (Threads.exists_move_of_new (TaskPc.cancelling · = true) rfl))
      (Or.inr ⟨rfl, hwait⟩)
  | cancelTask_refused hwait =>
    rw [hquiet (by simp) Iff.rfl]
    simp [hwait]
  | load status hst =>
    rw [hquiet Iff.rfl (by cases status <;> rfl)]
    simp
  | load_same status hst =>
    exact Iff.trans (cancelWins_afterStatus (Or.inl hc) rfl) (by simp)
  | exchange status =>
    exact Iff.trans (cancelWins_afterStatus (Or.inr hc) rfl) (by simp)
  | _ =>
    rw [hquiet Iff.rfl (by simp [TaskPc.cancelling])]
    simp

/-- The return from `setStatus` takes `run` on to `runFunction`. -/
lemma runWins_afterStatus {p : ι} {sh : TaskShared} {status : TaskState}
    (hp : s.pcs p = .setting status ∨ s.pcs p = .exchanging status)
    (hsh : sh.executions = s.shared.executions) :
    RunWins (s.move p (afterStatus sh status)) ↔ RunWins s := by
  refine or_congr (by rw [Threads.move_shared, afterStatus_executions, hsh])
    (Threads.exists_move_iff (fun c : TaskPc => c.beginning = true ∨ c = .executing) ?_)
  rcases hp with hp | hp <;> rw [hp] <;> cases status <;> simp [afterStatus, TaskPc.beginning]

/-- `run` becomes committed at its test only. -/
lemma step_runWins (h : step s a = some s') :
    RunWins s' ↔ RunWins s ∨ a.2 = .run ∧ s.shared.runningState = .waitStart := by
  obtain ⟨r, hr, rfl⟩ := step_eq_some h
  obtain ⟨p, x⟩ := a
  dsimp only at hr ⊢
  have hquiet : r.1.executions = s.shared.executions →
      ((r.2.beginning = true ∨ r.2 = .executing) ↔
        ((s.pcs p).beginning = true ∨ s.pcs p = .executing)) →
      (RunWins (s.move p r) ↔ RunWins s) := fun hexec hpc =>
    or_congr (by rw [Threads.move_shared, hexec])
      (Threads.exists_move_iff (fun c : TaskPc => c.beginning = true ∨ c = .executing) hpc)
  generalize hc : s.pcs p = c at hr hquiet
  cases hr with
  | run hwait =>
    exact iff_of_true (Or.inr ⟨p, by simp [TaskPc.beginning]⟩) (Or.inr ⟨rfl, hwait⟩)
  | run_refused hwait =>
    rw [hquiet rfl (by simp [TaskPc.beginning])]
    simp [hwait]
  | load status hst =>
    rw [hquiet rfl (by cases status <;> simp [TaskPc.beginning])]
    simp
  | load_same status hst =>
    exact Iff.trans (runWins_afterStatus (Or.inl hc) rfl) (by simp)
  | exchange status =>
    exact Iff.trans (runWins_afterStatus (Or.inr hc) rfl) (by simp)
  | runFunction =>
    exact iff_of_true (Or.inl (by simp)) (Or.inl (Or.inr ⟨p, Or.inr hc⟩))
  | _ =>
    rw [hquiet rfl (by simp [TaskPc.beginning])]
    simp

/-! ## The state of a task that was pushed -/

/-- What holds of a task from the time it waits in the queue, whatever the order of the
steps. -/
structure Waited (s : TaskConf ι) : Prop where
  ticket : ∃ t, OneTicket s t
  started : s.shared.runningState ≠ .init
  cancelled : true ∈ s.shared.cancels → s.shared.runningState ≠ .waitStart
  ran : (0 < s.shared.executions ∨ ∃ q, s.pcs q = .executing) →
    s.shared.runningState ≠ .waitStart
  running : TaskState.running ∈ s.shared.notified → RunWins s
  /-- While nobody is committed the task waits for its worker. -/
  waits : ¬ CancelWins s → ¬ RunWins s → s.shared.runningState = .waitStart ∧
    (s.shared.queued ≠ 0 ∨ ∃ q, s.pcs q = .starting)
  finishes : (∃ q, (s.pcs q).finishing = true) → CancelWins s ∨ RunWins s

omit [DecidableEq ι] in
lemma scheduled_waited : Waited (scheduled : TaskConf ι) where
  ticket := ⟨_, scheduled_oneTicket⟩
  started := by simp [scheduled]
  cancelled := by simp [scheduled]
  ran := by simp [scheduled]
  running := by simp [scheduled]
  waits := fun _ _ => ⟨rfl, Or.inl (by simp [scheduled])⟩
  finishes := by simp [scheduled, TaskPc.finishing]

omit [DecidableEq ι] in
/-- `setStatus` is not going to set `TASK_INIT` or `TASK_WAIT_START`. -/
lemma Waited.status_ne (hs : Waited s) {p : ι} {status : TaskState}
    (hp : s.pcs p = .setting status ∨ s.pcs p = .exchanging status) :
    status ≠ .init ∧ status ≠ .waitStart := by
  obtain ⟨t, ht⟩ := hs.ticket
  constructor
  · rintro rfl
    have hreg := ht.pcs_regular p
    rcases hp with hp | hp <;> simp [hp, TaskPc.regular] at hreg
  · rintro rfl
    refine hs.started (ht.tested_init p ?_)
    rcases hp with hp | hp <;> rw [hp] <;> rfl

/-- The state changes at an exchange only, and never back. -/
lemma Waited.step_state (hs : Waited s) (h : step s a = some s') :
    s'.shared.runningState ≠ .init ∧
      (s.shared.runningState ≠ .waitStart → s'.shared.runningState ≠ .waitStart) := by
  obtain ⟨r, hr, rfl⟩ := step_eq_some h
  obtain ⟨p, x⟩ := a
  dsimp only at hr ⊢
  generalize hc : s.pcs p = c at hr
  cases hr with
  | load_same status hst =>
    rw [Threads.move_shared, afterStatus_runningState]
    exact ⟨hs.started, fun h => h⟩
  | exchange status =>
    rw [Threads.move_shared, afterStatus_runningState]
    exact ⟨(hs.status_ne (Or.inr hc)).1, fun _ => (hs.status_ne (Or.inr hc)).2⟩
  | _ => exact ⟨hs.started, fun h => h⟩

/-- A cancel returns true with the state `TASK_CANCELLED`. -/
lemma step_cancels (h : step s a = some s') (hcancels : true ∈ s'.shared.cancels) :
    true ∈ s.shared.cancels ∨ s'.shared.runningState = .cancelled := by
  obtain ⟨r, hr, rfl⟩ := step_eq_some h
  obtain ⟨p, x⟩ := a
  dsimp only at hr ⊢
  have hafter : ∀ (sh : TaskShared) (status : TaskState), sh.cancels = s.shared.cancels →
      sh.runningState = status → true ∈ (afterStatus sh status).1.cancels →
      true ∈ s.shared.cancels ∨ (afterStatus sh status).1.runningState = .cancelled := by
    intro sh status hsh hstatus hmem
    cases status with
    | cancelled => exact Or.inr hstatus
    | _ => exact Or.inl (hsh ▸ hmem)
  generalize s.pcs p = c at hr
  cases hr with
  | cancelTask_refused hwait => exact Or.inl (by simpa using hcancels)
  | load_same status hst => exact hafter s.shared status rfl hst.symm hcancels
  | exchange status => exact hafter _ status rfl rfl hcancels
  | _ => exact Or.inl hcancels

/-- `runFunction` is called after the state `TASK_RUNNING` was set. -/
lemma step_ran (h : step s a = some s')
    (hran : 0 < s'.shared.executions ∨ ∃ q, s'.pcs q = .executing) :
    (0 < s.shared.executions ∨ ∃ q, s.pcs q = .executing) ∨
      s'.shared.runningState = .running := by
  obtain ⟨r, hr, rfl⟩ := step_eq_some h
  obtain ⟨p, x⟩ := a
  dsimp only at hr ⊢
  -- a move that does not call `runFunction` and does not come to its call
  have hquiet : r.1.executions = s.shared.executions → r.2 ≠ .executing →
      0 < s.shared.executions ∨ ∃ q, s.pcs q = .executing := by
    intro hexec hpc
    refine Or.imp (fun h => ?_) (fun h => ?_) hran
    · rwa [Threads.move_shared, hexec] at h
    · obtain ⟨q, -, hq⟩ := (Threads.exists_of_move (· = TaskPc.executing) h).resolve_left hpc
      exact ⟨q, hq⟩
  have hafter : ∀ (sh : TaskShared) (status : TaskState), r = afterStatus sh status →
      sh.executions = s.shared.executions → sh.runningState = status →
      (0 < s.shared.executions ∨ ∃ q, s.pcs q = .executing) ∨ r.1.runningState = .running := by
    rintro sh status rfl hsh hstatus
    by_cases hrunning : status = .running
    · exact Or.inr (by rw [afterStatus_runningState, hstatus, hrunning])
    · refine Or.inl (hquiet (by rw [afterStatus_executions, hsh]) ?_)
      cases status with
      | running => exact absurd rfl hrunning
      | _ => simp [afterStatus]
  generalize hc : s.pcs p = c at hr
  cases hr with
  | load_same status hst => exact hafter s.shared status rfl rfl hst.symm
  | exchange status => exact hafter _ status rfl rfl rfl
  | runFunction => exact Or.inl (Or.inr ⟨p, hc⟩)
  | _ => exact Or.inl (hquiet rfl (by simp))

/-- The state becomes `TASK_RUNNING` at the exchange of a committed `run`. -/
lemma step_notified (h : step s a = some s') (hmem : TaskState.running ∈ s'.shared.notified) :
    TaskState.running ∈ s.shared.notified ∨ RunWins s := by
  obtain ⟨r, hr, rfl⟩ := step_eq_some h
  obtain ⟨p, x⟩ := a
  dsimp only at hr
  generalize hc : s.pcs p = c at hr
  cases hr with
  | load_same status hst =>
    rw [Threads.move_shared, afterStatus_notified] at hmem
    exact Or.inl hmem
  | exchange status =>
    rw [Threads.move_shared, afterStatus_notified] at hmem
    rcases List.mem_append.mp hmem with hmem | hmem
    · exact Or.inl hmem
    · obtain rfl := List.mem_singleton.mp hmem
      exact Or.inr (Or.inr ⟨p, Or.inl (by rw [hc]; rfl)⟩)
  | _ => exact Or.inl hmem

omit [DecidableEq ι] in
/-- A worker that is going to set the value has called `runFunction`. -/
lemma Waited.runWins_of_resolving (hs : Waited s) {p : ι} (hp : s.pcs p = .resolving) :
    RunWins s := by
  obtain ⟨t, ht⟩ := hs.ticket
  obtain rfl := ht.eq_held (p := p) (by rw [hp]; rfl)
  have he := ht.ticket.2.2.2.1
  rw [if_pos hp] at he
  exact Or.inl (by simp [he])

/-- A worker comes to `TASK_FINISHED` when it did not find `TASK_WAIT_START`, or after
`runFunction`. -/
lemma Waited.step_finishes (hs : Waited s) (h : step s a = some s')
    (hfin : ∃ q, (s'.pcs q).finishing = true) : CancelWins s ∨ RunWins s := by
  obtain ⟨r, hr, rfl⟩ := step_eq_some h
  obtain ⟨p, x⟩ := a
  dsimp only at hr
  have hquiet : (r.2.finishing = true → (s.pcs p).finishing = true) →
      CancelWins s ∨ RunWins s := by
    intro hpc
    rcases Threads.exists_of_move (TaskPc.finishing · = true) hfin with hnew | ⟨q, -, hq⟩
    · exact hs.finishes ⟨p, hpc hnew⟩
    · exact hs.finishes ⟨q, hq⟩
  generalize hc : s.pcs p = c at hr hquiet
  cases hr with
  | run_refused hwait =>
    by_contra hnone
    rw [not_or] at hnone
    exact hwait (hs.waits hnone.1 hnone.2).1
  | load status hst => exact hquiet (by cases status <;> simp [TaskPc.finishing])
  | load_same status hst => exact hquiet (by cases status <;> simp [TaskPc.finishing, afterStatus])
  | exchange status => exact hquiet (by cases status <;> simp [TaskPc.finishing, afterStatus])
  | setValue hzero => exact Or.inr (hs.runWins_of_resolving hc)
  | _ => exact hquiet (by simp [TaskPc.finishing])

/-- While nobody is committed after a step the task still waits for its worker. -/
lemma Waited.step_waits (hs : Waited s) (h : step s a = some s') (hcancel : ¬ CancelWins s')
    (hrun : ¬ RunWins s') : s'.shared.runningState = .waitStart ∧
      (s'.shared.queued ≠ 0 ∨ ∃ q, s'.pcs q = .starting) := by
  rw [step_cancelWins h, not_or] at hcancel
  rw [step_runWins h, not_or] at hrun
  obtain ⟨hwait, hplace⟩ := hs.waits hcancel.1 hrun.1
  obtain ⟨r, hr, rfl⟩ := step_eq_some h
  obtain ⟨p, x⟩ := a
  dsimp only at hr hcancel hrun
  have hstays : r.1.queued = s.shared.queued → s.pcs p ≠ .starting →
      r.1.queued ≠ 0 ∨ ∃ q, (s.move p r).pcs q = .starting := by
    intro hqueued hpc
    rw [hqueued]
    exact hplace.imp_right fun hex =>
      Threads.exists_move (· = TaskPc.starting) hex fun hp => absurd hp hpc
  generalize hc : s.pcs p = c at hr
  cases hr with
  | pushTask_refused hinit => exact ⟨hwait, hstays rfl (by simp [hc])⟩
  | pushTask hinit => exact absurd hinit hs.started
  | cancelTask _ => exact absurd ⟨rfl, hwait⟩ hcancel.2
  | cancelTask_refused hne => exact absurd hwait hne
  | dequeue hq =>
    exact ⟨hwait, Or.inr (Threads.exists_move_of_new (· = TaskPc.starting) rfl)⟩
  | run _ => exact absurd ⟨rfl, hwait⟩ hrun.2
  | run_refused hne => exact absurd hwait hne
  | load status hst => exact ⟨hwait, hstays rfl (by simp [hc])⟩
  | load_same status hst => exact absurd (hst.trans hwait) (hs.status_ne (Or.inl hc)).2
  | exchange status =>
    -- whoever makes an exchange is committed
    exfalso
    cases status with
    | init => exact (hs.status_ne (Or.inr hc)).1 rfl
    | waitStart => exact (hs.status_ne (Or.inr hc)).2 rfl
    | cancelled => exact hcancel.1 (Or.inr ⟨p, by rw [hc]; rfl⟩)
    | running => exact hrun.1 (Or.inr ⟨p, Or.inl (by rw [hc]; rfl)⟩)
    | finished => exact (hs.finishes ⟨p, by rw [hc]; rfl⟩).elim hcancel.1 hrun.1
  | push => exact ⟨hwait, Or.inl (by simp)⟩
  | runFunction => exact absurd (Or.inr ⟨p, Or.inr hc⟩) hrun.1
  | setValue hzero => exact absurd (hs.runWins_of_resolving hc) hrun.1
  | setValue_throws hzero => exact absurd (hs.runWins_of_resolving hc) hrun.1

lemma Waited.next (hs : Waited s) (h : step s a = some s') : Waited s' where
  ticket := step_oneTicket hs.ticket (fun _ _ hinit => absurd hinit hs.started) h
  started := (hs.step_state h).1
  cancelled := by
    intro hmem
    rcases step_cancels h hmem with hold | hnew
    · exact (hs.step_state h).2 (hs.cancelled hold)
    · simp [hnew]
  ran := by
    intro hran
    rcases step_ran h hran with hold | hnew
    · exact (hs.step_state h).2 (hs.ran hold)
    · simp [hnew]
  running := by
    intro hmem
    rw [step_runWins h]
    rcases step_notified h hmem with hold | hwins
    · exact Or.inl (hs.running hold)
    · exact Or.inl hwins
  waits := hs.step_waits h
  finishes := by
    intro hfin
    rw [step_cancelWins h, step_runWins h]
    exact (hs.step_finishes h hfin).imp Or.inl Or.inl

/-! ## Whole runs -/

/-- A cancel and the worker are both committed. -/
def BothWin (s : TaskConf ι) : Prop :=
  CancelWins s ∧ RunWins s

/-- A step that meets the condition does not make the second side committed. -/
lemma Waited.step_not_bothWin (hs : Waited s) (hnot : ¬ BothWin s) (hok : NoRace s a)
    (h : step s a = some s') : ¬ BothWin s' := by
  rintro ⟨hcancel, hrun⟩
  rw [step_cancelWins h] at hcancel
  rw [step_runWins h] at hrun
  rcases hcancel with hcancel | ⟨hx, hwait⟩
  · rcases hrun with hrun | ⟨hx, hwait⟩
    · exact hnot ⟨hcancel, hrun⟩
    · rcases hcancel with hres | ⟨q, hq⟩
      · exact hs.cancelled hres hwait
      · exact absurd hq (by simp [(hok q hwait).1 hx])
  · rcases hrun with (hexec | ⟨q, hq | hq⟩) | ⟨hx', -⟩
    · exact hs.ran (Or.inl hexec) hwait
    · exact absurd hq (by simp [(hok q hwait).2 hx])
    · exact hs.ran (Or.inr ⟨q, hq⟩) hwait
    · exact absurd (hx.symm.trans hx') (by simp)

lemma step_bothWin_of_not (hok : ¬ NoRace s a) (h : step s a = some s') : BothWin s' := by
  rw [BothWin, step_cancelWins h, step_runWins h]
  simp only [NoRace, not_forall, not_and_or, Bool.not_eq_false] at hok
  obtain ⟨q, hwait, ⟨hx, hq⟩ | ⟨hx, hq⟩⟩ := hok
  · exact ⟨Or.inl (Or.inr ⟨q, hq⟩), Or.inr ⟨hx, hwait⟩⟩
  · exact ⟨Or.inr ⟨hx, hwait⟩, Or.inl (Or.inr ⟨q, Or.inl hq⟩)⟩

lemma step_bothWin (hs : BothWin s) (h : step s a = some s') : BothWin s' := by
  rw [BothWin, step_cancelWins h, step_runWins h]
  exact ⟨Or.inl hs.1, Or.inl hs.2⟩

lemma not_bothWin_iff {as : List (ι × TaskStep)} (hrun : Lib.run step scheduled as = some s) :
    ¬ BothWin s ↔ Lib.AllSteps step NoRace scheduled as := by
  have hinit : Waited (scheduled : TaskConf ι) ∧ ¬ BothWin (scheduled : TaskConf ι) :=
    ⟨scheduled_waited, by simp [BothWin, CancelWins, scheduled, TaskPc.cancelling]⟩
  have hbad : ∀ (s : TaskConf ι) a s', Waited s ∧ ¬ BothWin s → ¬ NoRace s a →
      step s a = some s' → BothWin s' :=
    fun _ _ _ _ hok h => step_bothWin_of_not hok h
  exact Lib.run_iff_allSteps (fun _ _ _ hs hok h => ⟨hs.1.next h, hs.1.step_not_bothWin hs.2 hok h⟩)
    hbad (fun _ _ _ hs h => step_bothWin hs h) (fun _ hs => hs.2) (fun _ hs hnot => hnot hs)
    hinit hrun

omit [DecidableEq ι] in
lemma Waited.cancelledNeverRun (hs : Waited s) (hnot : ¬ BothWin s) : CancelledNeverRun s := by
  intro hmem
  have hrun : ¬ RunWins s := fun hrun => hnot ⟨Or.inl hmem, hrun⟩
  refine ⟨?_, fun h => hrun (hs.running h)⟩
  by_contra hexec
  exact hrun (Or.inl (Nat.pos_of_ne_zero hexec))

omit [DecidableEq ι] in
lemma Complete.cancelWins_iff (hs : Complete s) : CancelWins s ↔ true ∈ s.shared.cancels := by
  simp [CancelWins, hs.2, TaskPc.cancelling]

omit [DecidableEq ι] in
lemma Complete.runWins_iff (hs : Complete s) : RunWins s ↔ 0 < s.shared.executions := by
  simp [RunWins, hs.2, TaskPc.beginning]

omit [DecidableEq ι] in
/-- A task that no call has cancelled was run once when its worker has returned. -/
lemma Waited.executions_eq_one (hs : Waited s) (hend : Complete s)
    (hcancels : true ∉ s.shared.cancels) : s.shared.executions = 1 := by
  have hrun : RunWins s := by
    by_contra hrun
    obtain ⟨-, hqueued | ⟨q, hq⟩⟩ := hs.waits (by rwa [hend.cancelWins_iff]) hrun
    · exact hqueued hend.1
    · exact absurd hq (by simp [hend.2 q])
  obtain ⟨t, ht⟩ := hs.ticket
  exact le_antisymm ht.runsOnce.1 (hend.runWins_iff.mp hrun)

/-- **A cancelled task does not run exactly when no test falls into the other side's test and
set.** When neither `run` nor `cancelTask` finds `TASK_WAIT_START` while the other stands
between its test and its exchange, a cancel that returned true means that `runFunction` is not
called and the state does not become `TASK_RUNNING`; and in a run in which all calls have
returned there is no other way.  A task whose cancels all returned false runs once in any
case. -/
theorem cancelled_never_run_iff (as : List (ι × TaskStep)) (s : TaskConf ι)
    (hrun : Lib.run step scheduled as = some s) :
    (Lib.AllSteps step NoRace scheduled as → CancelledNeverRun s) ∧
      (Complete s → CancelledNeverRun s → Lib.AllSteps step NoRace scheduled as) ∧
      (Complete s → true ∉ s.shared.cancels → s.shared.executions = 1) := by
  have hs : Waited s := Lib.run_inv (fun _ _ _ hs h => hs.next h) scheduled_waited hrun
  refine ⟨fun hok => hs.cancelledNeverRun ((not_bothWin_iff hrun).mpr hok), ?_, ?_⟩
  · intro hend hnever
    refine (not_bothWin_iff hrun).mp ?_
    rintro ⟨hcancel, hwins⟩
    rw [hend.cancelWins_iff] at hcancel
    rw [hend.runWins_iff] at hwins
    exact absurd (hnever hcancel).1 (by omega)
  · exact hs.executions_eq_one

instance decidableNoRace [Fintype ι] (s : TaskConf ι) (a : ι × TaskStep) :
    Decidable (NoRace s a) :=
  inferInstanceAs (Decidable (∀ _, _))

/-- The cancel is through before the worker makes its test: it returns true, and the worker
only sets `TASK_FINISHED`. -/
theorem cancel_before_run : ∃ s : TaskConf Bool,
    Lib.run step scheduled [(true, .dequeue), (false, .cancelTask), (false, .load),
      (false, .exchange), (true, .run), (true, .load), (true, .exchange)] = some s ∧
    s.shared.cancels = [true] ∧ CancelledNeverRun s := by
  let as : List (Bool × TaskStep) := [(true, .dequeue), (false, .cancelTask), (false, .load),
    (false, .exchange), (true, .run), (true, .load), (true, .exchange)]
  have hok : Lib.AllSteps step NoRace scheduled as := by decide +kernel
  have hrun : (Lib.run step scheduled as).map (·.shared.cancels) = some [true] := by
    decide +kernel
  obtain ⟨s, hs, hcancels⟩ := Option.map_eq_some_iff.mp hrun
  exact ⟨s, hs, hcancels, (cancelled_never_run_iff as s hs).1 hok⟩

/-- The worker makes its test between the test of the cancel and its exchange: the cancel
returns true, and the task runs. -/
theorem cancel_during_run : ∃ (as : List (Bool × TaskStep)) (s : TaskConf Bool),
    Lib.run step scheduled as = some s ∧ s.shared.cancels = [true] ∧
      s.shared.executions = 1 ∧ ¬ CancelledNeverRun s := by
  let as : List (Bool × TaskStep) := [(true, .dequeue), (false, .cancelTask), (true, .run),
    (false, .load), (false, .exchange), (true, .load), (true, .exchange), (true, .runFunction)]
  have hrun : (Lib.run step scheduled as).map
      (fun s => (s.shared.cancels, s.shared.executions)) = some ([true], 1) := by
    decide +kernel
  obtain ⟨s, hs, hend⟩ := Option.map_eq_some_iff.mp hrun
  simp only [Prod.mk.injEq] at hend
  obtain ⟨hcancels, hexec⟩ := hend
  exact ⟨as, s, hs, hcancels, hexec, fun h => by simp [CancelledNeverRun, hcancels, hexec] at h⟩

end TaskConf

end SignalEventLoop.Core
