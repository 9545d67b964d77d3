/-
# Pushing one task from several threads

`ThreadPool::pushTask` tests the state of the task and sets it in separate steps.  Two calls
that both find `TASK_INIT` push two entries; two workers that dequeue them may both find
`TASK_WAIT_START`, call `runFunction` twice and set the value of the promise twice.

When the test finds `TASK_INIT` for one call at a time there is one ticket: it is with the
thread that pushes the task, in the queue, or with the worker that runs it, and only its
holder comes to `runFunction` and `set_value`.
-/
import SignalEventLoop.Core.ThreadPoolTask

namespace SignalEventLoop.Core

open Lib (Threads)

namespace TaskPc

/-- `pushTask` has found `TASK_INIT` and has not set another state yet. -/
def testedInit : TaskPc → Bool
  | .setting .waitStart | .exchanging .waitStart => true
  | _ => false

/-- Every position but the end by an exception; `setStatus` is never called with
`TASK_INIT`. -/
def regular : TaskPc → Bool
  | .thrown | .setting .init | .exchanging .init => false
  | _ => true

/-- The thread holds the task on its way to `set_value`. -/
def carries : TaskPc → Bool
  | .setting .waitStart | .exchanging .waitStart | .pushing | .starting | .setting .running
  | .exchanging .running | .executing | .resolving => true
  | _ => false

lemma carries_of_testedInit {c : TaskPc} (h : c.testedInit = true) : c.carries = true := by
  unfold testedInit at h
  split at h
  · rfl
  · rfl
  · exact absurd h (by simp)

end TaskPc

/-- The one place from which the task can still reach `set_value`. -/
inductive Ticket (ι : Type*) where
  | unused
  | held (p : ι)
  | queued
  | spent

namespace TaskConf

variable {ι : Type*} {s s' : TaskConf ι} {t : Ticket ι} {p : ι}

/-- `runFunction` is called at most once, and so is `set_value`. -/
def RunsOnce (s : TaskConf ι) : Prop :=
  s.shared.executions ≤ 1 ∧ s.shared.setValues ≤ 1 ∧ ∀ p, s.pcs p ≠ .thrown

/-- The condition on a step: the test of a `pushTask` finds `TASK_INIT` only when no other
`pushTask` stands between its own test and its exchange. -/
def NoTwoPushes (s : TaskConf ι) (a : ι × TaskStep) : Prop :=
  ∀ q, a.2 = .pushTask → s.shared.runningState = .init → (s.pcs q).testedInit = false

/-! ## Where the task is -/

/-- No thread holds the task. -/
def NoCarrier (s : TaskConf ι) : Prop :=
  ∀ q, (s.pcs q).carries = false

/-- The ticket is at the given place, and what has happened so far fits to it. -/
def TicketAt (s : TaskConf ι) : Ticket ι → Prop
  | .unused => s.shared.runningState = .init ∧ s.shared.queued = 0 ∧ NoCarrier s ∧
      s.shared.executions = 0 ∧ s.shared.setValues = 0
  | .held p => s.shared.queued = 0 ∧ (s.pcs p).carries = true ∧
      (∀ q, q ≠ p → (s.pcs q).carries = false) ∧
      s.shared.executions = (if s.pcs p = .resolving then 1 else 0) ∧ s.shared.setValues = 0
  | .queued => s.shared.runningState ≠ .init ∧ s.shared.queued = 1 ∧ NoCarrier s ∧
      s.shared.executions = 0 ∧ s.shared.setValues = 0
  | .spent => s.shared.runningState ≠ .init ∧ s.shared.queued = 0 ∧ NoCarrier s ∧
      s.shared.executions ≤ 1 ∧ s.shared.setValues ≤ 1

/-- There is one ticket, and the state is `TASK_INIT` exactly until a `pushTask` has made its
exchange. -/
structure OneTicket (s : TaskConf ι) (t : Ticket ι) : Prop where
  ticket : TicketAt s t
  init_pcs : s.shared.runningState = .init → ∀ q, s.pcs q = .idle ∨ (s.pcs q).testedInit = true
  tested_init : ∀ q, (s.pcs q).testedInit = true → s.shared.runningState = .init
  pcs_regular : ∀ q, (s.pcs q).regular = true

lemma built_oneTicket : OneTicket (built : TaskConf ι) .unused := by
  refine ⟨⟨rfl, rfl, fun _ => rfl, rfl, rfl⟩, fun _ _ => Or.inl rfl, fun q hq => ?_, fun _ => rfl⟩
  exact absurd hq (by simp [built, TaskPc.testedInit])

lemma scheduled_oneTicket : OneTicket (scheduled : TaskConf ι) .queued := by
  refine ⟨⟨by simp [scheduled], rfl, fun _ => rfl, rfl, rfl⟩, fun _ _ => Or.inl rfl,
    fun q hq => ?_, fun _ => rfl⟩
  exact absurd hq (by simp [scheduled, TaskPc.testedInit])

lemma OneTicket.runsOnce (hs : OneTicket s t) : RunsOnce s := by
  have hcount : s.shared.executions ≤ 1 ∧ s.shared.setValues ≤ 1 := by
    have hat := hs.ticket
    cases t with
    | unused => exact ⟨by simp [hat.2.2.2.1], by simp [hat.2.2.2.2]⟩
    | held p =>
      refine ⟨?_, by simp [hat.2.2.2.2]⟩
      rw [hat.2.2.2.1]
      split <;> simp
    | queued => exact ⟨by simp [hat.2.2.2.1], by simp [hat.2.2.2.2]⟩
    | spent => exact hat.2.2.2
  refine ⟨hcount.1, hcount.2, fun q hq => ?_⟩
  simpa [hq, TaskPc.regular] using hs.pcs_regular q

/-- A thread that holds the task holds the only ticket. -/
lemma OneTicket.eq_held (hs : OneTicket s t) (hp : (s.pcs p).carries = true) : t = .held p := by
  have hat := hs.ticket
  cases t with
  | unused => exact absurd hp (by simp [hat.2.2.1 p])
  | held q =>
    by_contra hne
    have hpq : p ≠ q := fun h => hne (by rw [h])
    exact absurd hp (by simp [hat.2.2.1 p hpq])
  | queued => exact absurd hp (by simp [hat.2.2.1 p])
  | spent => exact absurd hp (by simp [hat.2.2.1 p])

lemma OneTicket.eq_queued (hs : OneTicket s t) (hq : s.shared.queued ≠ 0) : t = .queued := by
  have hat := hs.ticket
  cases t with
  | unused => exact absurd hat.2.1 hq
  | held q => exact absurd hat.1 hq
  | queued => rfl
  | spent => exact absurd hat.2.1 hq

/-- A thread that is neither idle nor at the test of `pushTask` shows that the state has left
`TASK_INIT`. -/
lemma OneTicket.state_ne_init (hs : OneTicket s t) (hidle : s.pcs p ≠ .idle)
    (htested : (s.pcs p).testedInit = false) : s.shared.runningState ≠ .init := by
  intro hinit
  rcases hs.init_pcs hinit p with h | h
  · exact hidle h
  · exact absurd h (by simp [htested])

/-! ## One thread moves -/

section Move

variable [DecidableEq ι] {r : TaskShared × TaskPc}

/-- A thread that does not hold the task moves and does not take it. -/
lemma OneTicket.idle_move (hs : OneTicket s t) (hqueued : r.1.queued = s.shared.queued)
    (hexec : r.1.executions = s.shared.executions) (hvalues : r.1.setValues = s.shared.setValues)
    (hold : (s.pcs p).carries = false) (hnew : r.2.carries = false)
    (hstate : r.1.runningState = .init ↔ s.shared.runningState = .init)
    (hinit : s.shared.runningState = .init → r.2 = .idle) (hreg : r.2.regular = true) :
    OneTicket (s.move p r) t := by
  have hnone : NoCarrier s → NoCarrier (s.move p r) := fun h =>
    Threads.forall_move (TaskPc.carries · = false) hnew fun q _ => h q
  constructor
  · have hat := hs.ticket
    cases t with
    | held o =>
      obtain ⟨hq, ho, hrest, he, hv⟩ := hat
      have hne : o ≠ p := by
        rintro rfl
        simp [hold] at ho
      refine ⟨hqueued.trans hq, by rw [Threads.move_pcs_ne hne, ho], ?_, ?_, hvalues.trans hv⟩
      · intro q hqo
        by_cases hqp : q = p
        · rw [hqp, Threads.move_pcs_self, hnew]
        · rw [Threads.move_pcs_ne hqp, hrest q hqo]
      · rw [Threads.move_pcs_ne hne]
        exact hexec.trans he
    | unused =>
      obtain ⟨hi, hq, hc, he, hv⟩ := hat
      exact ⟨hstate.mpr hi, hqueued.trans hq, hnone hc, hexec.trans he, hvalues.trans hv⟩
    | queued =>
      obtain ⟨hi, hq, hc, he, hv⟩ := hat
      exact ⟨mt hstate.mp hi, hqueued.trans hq, hnone hc, hexec.trans he, hvalues.trans hv⟩
    | spent =>
      obtain ⟨hi, hq, hc, he, hv⟩ := hat
      exact ⟨mt hstate.mp hi, hqueued.trans hq, hnone hc, hexec.trans_le he, hvalues.trans_le hv⟩
  · intro hi
    exact Threads.forall_move (fun c : TaskPc => c = .idle ∨ c.testedInit = true)
      (Or.inl (hinit (hstate.mp hi))) fun q _ => hs.init_pcs (hstate.mp hi) q
  · refine Threads.forall_move (TaskPc.testedInit · = true → r.1.runningState = .init) ?_ ?_
    · exact fun h => absurd (TaskPc.carries_of_testedInit h) (by simp [hnew])
    · exact fun q _ h => hstate.mpr (hs.tested_init q h)
  · exact Threads.forall_move (TaskPc.regular · = true) hreg fun q _ => hs.pcs_regular q

/-- A step of the one thread that can hold the task. -/
lemma OneTicket.of_others {t' : Ticket ι} (hs : OneTicket s t)
    (hothers : ∀ q, q ≠ p → (s.pcs q).carries = false)
    (hback : r.1.runningState = .init → s.shared.runningState = .init)
    (hpc : r.1.runningState = .init → r.2 = .idle ∨ r.2.testedInit = true)
    (htested : r.2.testedInit = true → r.1.runningState = .init) (hreg : r.2.regular = true)
    (hat : TicketAt (s.move p r) t') : OneTicket (s.move p r) t' := by
  refine ⟨hat, ?_, ?_, ?_⟩
  · intro hi
    exact Threads.forall_move (fun c : TaskPc => c = .idle ∨ c.testedInit = true) (hpc hi)
      fun q _ => hs.init_pcs (hback hi) q
  · refine Threads.forall_move (TaskPc.testedInit · = true → r.1.runningState = .init) htested ?_
    exact fun q hqp h => absurd (TaskPc.carries_of_testedInit h) (by simp [hothers q hqp])
  · exact Threads.forall_move (TaskPc.regular · = true) hreg fun q _ => hs.pcs_regular q

/-- The thread that can hold the task holds it after the step. -/
lemma OneTicket.to_held (hs : OneTicket s t) (hothers : ∀ q, q ≠ p → (s.pcs q).carries = false)
    (hqueued : r.1.queued = 0) (hvalues : r.1.setValues = 0) (hnew : r.2.carries = true)
    (hexec : r.1.executions = if r.2 = .resolving then 1 else 0)
    (hback : r.1.runningState = .init → s.shared.runningState = .init)
    (htested : r.1.runningState = .init ↔ r.2.testedInit = true) (hreg : r.2.regular = true) :
    OneTicket (s.move p r) (.held p) := by
  refine hs.of_others hothers hback (fun hi => Or.inr (htested.mp hi)) htested.mpr hreg ?_
  refine ⟨hqueued, by rw [Threads.move_pcs_self, hnew], ?_, ?_, hvalues⟩
  · intro q hqp
    rw [Threads.move_pcs_ne hqp, hothers q hqp]
  · rw [Threads.move_pcs_self]
    exact hexec

/-- The thread that holds the task goes on with it, not yet at the call of `runFunction`. -/
lemma OneTicket.go_on (hs : OneTicket s t) (hqueued : r.1.queued = s.shared.queued)
    (hvalues : r.1.setValues = s.shared.setValues)
    (hexec : r.1.executions = s.shared.executions) (hold : (s.pcs p).carries = true)
    (hres : s.pcs p ≠ .resolving) (hnew : r.2.carries = true) (hres' : r.2 ≠ .resolving)
    (hback : r.1.runningState = .init → s.shared.runningState = .init)
    (htested : r.1.runningState = .init ↔ r.2.testedInit = true) (hreg : r.2.regular = true) :
    OneTicket (s.move p r) t := by
  obtain rfl := hs.eq_held hold
  obtain ⟨hq, -, hothers, he, hv⟩ := hs.ticket
  rw [if_neg hres] at he
  refine hs.to_held hothers (hqueued.trans hq) (hvalues.trans hv) hnew ?_ hback htested hreg
  rw [hexec, he, if_neg hres']

/-- The thread that holds the task gives it away. -/
lemma OneTicket.drop {t' : Ticket ι} (hs : OneTicket s t) (hold : (s.pcs p).carries = true)
    (hnew : r.2.carries = false) (hreg : r.2.regular = true) (hstate : r.1.runningState ≠ .init)
    (hat : NoCarrier (s.move p r) → TicketAt (s.move p r) t') : OneTicket (s.move p r) t' := by
  obtain rfl := hs.eq_held hold
  have hothers := hs.ticket.2.2.1
  have hnotTested : r.2.testedInit = true → r.1.runningState = .init := fun h =>
    absurd (TaskPc.carries_of_testedInit h) (by simp [hnew])
  exact hs.of_others hothers (fun h => absurd h hstate) (fun h => absurd h hstate) hnotTested hreg
    (hat (Threads.forall_move (TaskPc.carries · = false) hnew hothers))

end Move

/-! ## Every step keeps the one ticket -/

section Steps

variable [DecidableEq ι]

lemma OneTicket.pushTask (hs : OneTicket s t) (hinit : s.shared.runningState = .init)
    (hok : ∀ q, (s.pcs q).testedInit = false) :
    OneTicket (s.move p (s.shared, .setting .waitStart)) (.held p) := by
  have hnone : NoCarrier s := fun q => by
    have hq : s.pcs q = .idle := (hs.init_pcs hinit q).resolve_right (by simp [hok q])
    simp [hq, TaskPc.carries]
  have hat := hs.ticket
  cases t with
  | unused =>
    exact hs.to_held (fun q _ => hnone q) hat.2.1 hat.2.2.2.2 rfl hat.2.2.2.1 (fun h => h)
      (iff_of_true hinit rfl) rfl
  | held q => exact absurd hat.2.1 (by simp [hnone q])
  | queued => exact absurd hinit hat.1
  | spent => exact absurd hinit hat.1

lemma OneTicket.dequeue (hs : OneTicket s t) (hq : s.shared.queued ≠ 0) :
    OneTicket (s.move p ({ s.shared with queued := s.shared.queued - 1 }, .starting))
      (.held p) := by
  obtain rfl := hs.eq_queued hq
  obtain ⟨hstate, hone, hnone, he, hv⟩ := hs.ticket
  exact hs.to_held (fun q _ => hnone q) (by simp [hone]) hv rfl he (fun h => h)
    (iff_of_false hstate (by simp [TaskPc.testedInit])) rfl

/-- What follows `setStatus` when the state is set. -/
lemma OneTicket.afterStatus (hs : OneTicket s t) {status : TaskState} {sh : TaskShared}
    (hp : s.pcs p = .setting status ∨ s.pcs p = .exchanging status)
    (hstatus : sh.runningState = status) (hqueued : sh.queued = s.shared.queued)
    (hexec : sh.executions = s.shared.executions) (hvalues : sh.setValues = s.shared.setValues) :
    OneTicket (s.move p (Core.afterStatus sh status)) t := by
  have hreg := hs.pcs_regular p
  have hne : status ≠ .init := by
    rintro rfl
    rcases hp with hp | hp
    · simp [hp, TaskPc.regular] at hreg
    · simp [hp, TaskPc.regular] at hreg
  have hstate : sh.runningState ≠ .init := by rwa [hstatus]
  have hres : s.pcs p ≠ .resolving := by
    rcases hp with hp | hp
    · simp [hp]
    · simp [hp]
  cases status with
  | init => exact absurd rfl hne
  | waitStart | running =>
    have hold : (s.pcs p).carries = true := by rcases hp with hp | hp <;> rw [hp] <;> rfl
    exact hs.go_on hqueued hvalues hexec hold hres rfl (by simp [Core.afterStatus])
      (fun h => absurd h hstate)
      (iff_of_false hstate (by simp [Core.afterStatus, TaskPc.testedInit])) rfl
  | cancelled | finished =>
    have hold : (s.pcs p).carries = false := by rcases hp with hp | hp <;> rw [hp] <;> rfl
    have hbefore : s.shared.runningState ≠ .init := by
      rcases hp with hp | hp
      · exact hs.state_ne_init (p := p) (by simp [hp]) (by simp [hp, TaskPc.testedInit])
      · exact hs.state_ne_init (p := p) (by simp [hp]) (by simp [hp, TaskPc.testedInit])
    exact hs.idle_move hqueued hexec hvalues hold rfl (iff_of_false hstate hbefore)
      (fun _ => rfl) rfl

/-- The load of `setStatus` has found another state. -/
lemma OneTicket.load (hs : OneTicket s t) {status : TaskState} (hp : s.pcs p = .setting status) :
    OneTicket (s.move p (s.shared, .exchanging status)) t := by
  have hreg := hs.pcs_regular p
  have hsame : (TaskPc.exchanging status).carries = (s.pcs p).carries := by
    rw [hp]
    cases status <;> rfl
  have htested : (TaskPc.exchanging status).testedInit = (s.pcs p).testedInit := by
    rw [hp]
    cases status <;> rfl
  have hreg' : (TaskPc.exchanging status).regular = true := by
    rw [← hreg, hp]
    cases status <;> rfl
  have hinit : s.shared.runningState = .init ↔ (TaskPc.exchanging status).testedInit = true := by
    rw [htested]
    exact ⟨fun h => (hs.init_pcs h p).resolve_left (by simp [hp]), hs.tested_init p⟩
  cases hc : (s.pcs p).carries with
  | true =>
    exact hs.go_on rfl rfl rfl hc (by simp [hp]) (hsame.trans hc) (by simp) (fun h => h) hinit hreg'
  | false =>
    refine hs.idle_move rfl rfl rfl hc (hsame.trans hc) Iff.rfl (fun h => ?_) hreg'
    exact absurd (TaskPc.carries_of_testedInit (hinit.mp h)) (by simp [hsame, hc])

/-- The holder of the ticket gives it back to the queue or has no use for it any more. -/
lemma OneTicket.drop_of {r : TaskShared × TaskPc} {t' : Ticket ι} (hs : OneTicket s t)
    (hold : (s.pcs p).carries = true) (htested : (s.pcs p).testedInit = false)
    (hnew : r.2.carries = false) (hreg : r.2.regular = true)
    (hstate : r.1.runningState = s.shared.runningState)
    (hat : s.shared.queued = 0 → s.shared.setValues = 0 →
      s.shared.executions = (if s.pcs p = .resolving then 1 else 0) →
      r.1.runningState ≠ .init → NoCarrier (s.move p r) → TicketAt (s.move p r) t') :
    OneTicket (s.move p r) t' := by
  have hidle : s.pcs p ≠ .idle := by
    rintro hidle
    simp [hidle, TaskPc.carries] at hold
  have hinit : r.1.runningState ≠ .init := by
    rw [hstate]
    exact hs.state_ne_init hidle htested
  obtain rfl := hs.eq_held hold
  obtain ⟨hq, -, -, he, hv⟩ := hs.ticket
  exact hs.drop hold hnew hreg hinit (hat hq hv he hinit)

/-- Every step that meets the condition keeps the one ticket. -/
lemma step_oneTicket {a : ι × TaskStep} (hs : ∃ t, OneTicket s t) (hok : NoTwoPushes s a)
    (h : step s a = some s') : ∃ t, OneTicket s' t := by
  obtain ⟨t, hs⟩ := hs
  obtain ⟨r, hr, rfl⟩ := step_eq_some h
  obtain ⟨p, x⟩ := a
  dsimp only at hr hok ⊢
  generalize hc : s.pcs p = c at hr
  cases hr with
  | pushTask_refused hinit =>
    exact ⟨t, hs.idle_move rfl rfl rfl (by rw [hc]; rfl) rfl Iff.rfl (fun _ => rfl) rfl⟩
  | pushTask hinit => exact ⟨_, hs.pushTask hinit fun q => hok q rfl hinit⟩
  | cancelTask hwait =>
    refine ⟨t, hs.idle_move rfl rfl rfl (by rw [hc]; rfl) rfl Iff.rfl (fun hi => ?_) rfl⟩
    exact absurd (hwait.symm.trans hi) (by simp)
  | cancelTask_refused hwait =>
    exact ⟨t, hs.idle_move rfl rfl rfl (by rw [hc]; rfl) rfl Iff.rfl (fun _ => rfl) rfl⟩
  | dequeue hq => exact ⟨_, hs.dequeue hq⟩
  | run hwait =>
    have hstate : s.shared.runningState ≠ .init := by simp [hwait]
    exact ⟨t, hs.go_on rfl rfl rfl (by rw [hc]; rfl) (by simp [hc]) rfl (by simp) (fun h => h)
      (iff_of_false hstate (by simp [TaskPc.testedInit])) rfl⟩
  | run_refused hwait =>
    refine ⟨.spent, hs.drop_of (by rw [hc]; rfl) (by rw [hc]; rfl) rfl rfl rfl ?_⟩
    intro hq hv he hinit hnone
    rw [if_neg (by simp [hc])] at he
    exact ⟨hinit, hq, hnone, he.trans_le (by simp), hv.trans_le (by simp)⟩
  | load status hst => exact ⟨t, hs.load hc⟩
  | load_same status hst => exact ⟨t, hs.afterStatus (Or.inl hc) hst.symm rfl rfl rfl⟩
  | exchange status => exact ⟨t, hs.afterStatus (Or.inr hc) rfl rfl rfl rfl⟩
  | push =>
    refine ⟨.queued, hs.drop_of (by rw [hc]; rfl) (by rw [hc]; rfl) rfl rfl rfl ?_⟩
    intro hq hv he hinit hnone
    rw [if_neg (by simp [hc])] at he
    exact ⟨hinit, by simp [hq], hnone, he, hv⟩
  | runFunction =>
    have hold : (s.pcs p).carries = true := by rw [hc]; rfl
    have hstate : s.shared.runningState ≠ .init :=
      hs.state_ne_init (p := p) (by simp [hc]) (by rw [hc]; rfl)
    obtain rfl := hs.eq_held hold
    obtain ⟨hq, -, hothers, he, hv⟩ := hs.ticket
    rw [if_neg (by simp [hc])] at he
    exact ⟨_, hs.to_held hothers hq hv rfl (by simp [he]) (fun h => h)
      (iff_of_false hstate (by simp [TaskPc.testedInit])) rfl⟩
  | setValue hzero =>
    refine ⟨.spent, hs.drop_of (by rw [hc]; rfl) (by rw [hc]; rfl) rfl rfl rfl ?_⟩
    intro hq hv he hinit hnone
    rw [if_pos hc] at he
    exact ⟨hinit, hq, hnone, he.le, by simp [hv]⟩
  | setValue_throws hzero =>
    -- the holder of the ticket is the first to set the value
    have hold : (s.pcs p).carries = true := by rw [hc]; rfl
    obtain rfl := hs.eq_held hold
    exact absurd hs.ticket.2.2.2.2 hzero

end Steps

/-! ## Two calls that both find `TASK_INIT` -/

section Runs

variable [DecidableEq ι]

/-- The two threads set the state and push the task. -/
def pushBoth (p q : ι) : List (ι × TaskStep) :=
  [(q, .exchange), (q, .push), (p, .load), (p, .push)]

/-- Both dequeue the task and test its state. -/
def startBoth (p q : ι) : List (ι × TaskStep) :=
  [(p, .dequeue), (q, .dequeue), (p, .run), (q, .run)]

/-- Both set the state and call `runFunction`. -/
def executeBoth (p q : ι) : List (ι × TaskStep) :=
  [(p, .load), (p, .exchange), (q, .load), (p, .runFunction), (q, .runFunction)]

lemma run_pushBoth {q : ι} (hne : p ≠ q) (hp : s.pcs p = .setting .waitStart)
    (hq : s.pcs q = .exchanging .waitStart) (hqueued : s.shared.queued = 0)
    (hexec : s.shared.executions = 0) :
    ∃ s', Lib.run step s (pushBoth p q) = some s' ∧ s'.shared.runningState = .waitStart ∧
      s'.shared.queued = 2 ∧ s'.shared.executions = 0 ∧ s'.pcs p = .idle ∧ s'.pcs q = .idle := by
  simp [pushBoth, Lib.run, step, Threads.step, Threads.move, taskStep, afterStatus, hq, hp, hne,
    hne.symm, hqueued, hexec]

lemma run_startBoth {q : ι} (hne : p ≠ q) (hstate : s.shared.runningState = .waitStart)
    (hqueued : s.shared.queued = 2) (hexec : s.shared.executions = 0) (hp : s.pcs p = .idle)
    (hq : s.pcs q = .idle) :
    ∃ s', Lib.run step s (startBoth p q) = some s' ∧ s'.shared.runningState = .waitStart ∧
      s'.shared.executions = 0 ∧ s'.pcs p = .setting .running ∧ s'.pcs q = .setting .running := by
  simp [startBoth, Lib.run, step, Threads.step, Threads.move, taskStep, hq, hp, hne, hne.symm,
    hqueued, hexec, hstate]

lemma run_executeBoth {q : ι} (hne : p ≠ q) (hstate : s.shared.runningState = .waitStart)
    (hexec : s.shared.executions = 0) (hp : s.pcs p = .setting .running)
    (hq : s.pcs q = .setting .running) :
    (Lib.run step s (executeBoth p q)).map (·.shared.executions) = some 2 := by
  simp [executeBoth, Lib.run, step, Threads.step, Threads.move, taskStep, afterStatus, hq, hp, hne,
    hne.symm, hexec, hstate]

/-- The two threads push the task, dequeue it and run it side by side. -/
def sideBySide (p q : ι) : List (ι × TaskStep) :=
  pushBoth p q ++ (startBoth p q ++ executeBoth p q)

lemma run_sideBySide {q : ι} (hne : p ≠ q) (hp : s.pcs p = .setting .waitStart)
    (hq : s.pcs q = .exchanging .waitStart) (hqueued : s.shared.queued = 0)
    (hexec : s.shared.executions = 0) :
    (Lib.run step s (sideBySide p q)).map (·.shared.executions) = some 2 := by
  obtain ⟨s₁, hs₁, hstate₁, hqueued₁, hexec₁, hp₁, hq₁⟩ := run_pushBoth hne hp hq hqueued hexec
  obtain ⟨s₂, hs₂, hstate₂, hexec₂, hp₂, hq₂⟩ :=
    run_startBoth hne hstate₁ hqueued₁ hexec₁ hp₁ hq₁
  have hrun : Lib.run step s (sideBySide p q) = Lib.run step s₂ (executeBoth p q) := by
    rw [sideBySide, Lib.run_append, hs₁, Option.bind_some, Lib.run_append, hs₂, Option.bind_some]
  rw [hrun]
  exact run_executeBoth hne hstate₂ hexec₂ hp₂ hq₂

/-- After a test that finds `TASK_INIT` while another call stands before its exchange, the
task can be run twice. -/
lemma OneTicket.runs_twice {a : ι × TaskStep} (hs : OneTicket s t) (hok : ¬ NoTwoPushes s a)
    (h : step s a = some s') :
    ∃ bs, (Lib.run step s' bs).map (·.shared.executions) = some 2 := by
  obtain ⟨p, x⟩ := a
  simp only [NoTwoPushes, not_forall, Bool.not_eq_false] at hok
  obtain ⟨q, rfl, hinit, hq⟩ := hok
  obtain ⟨r, hr, rfl⟩ := step_eq_some h
  dsimp only at hr
  generalize hp : s.pcs p = c at hr
  cases hr with
  | pushTask_refused hinit' => exact absurd hinit hinit'
  | pushTask _ =>
    have hne : p ≠ q := by
      rintro rfl
      simp [hp, TaskPc.testedInit] at hq
    obtain rfl := hs.eq_held (TaskPc.carries_of_testedInit hq)
    obtain ⟨hqueued, -, -, hexec, -⟩ := hs.ticket
    have hexec : s.shared.executions = 0 := by
      rw [hexec, if_neg]
      intro hres
      simp [hres, TaskPc.testedInit] at hq
    have hq' : (s.move p (s.shared, .setting .waitStart)).pcs q = s.pcs q :=
      Threads.move_pcs_ne hne.symm
    -- the other call has still to load the state in `setStatus`, or is about to exchange it
    unfold TaskPc.testedInit at hq
    split at hq
    · next hset =>
      refine ⟨(q, .load) :: sideBySide p q, ?_⟩
      have hload : step (s.move p (s.shared, .setting .waitStart)) (q, .load) =
          some ((s.move p (s.shared, .setting .waitStart)).move q
            (s.shared, .exchanging .waitStart)) := by
        simp [step, Threads.step, taskStep, hq', hset, hinit]
      rw [Lib.run_cons, hload, Option.bind_some]
      refine run_sideBySide hne ?_ Threads.move_pcs_self hqueued hexec
      rw [Threads.move_pcs_ne hne, Threads.move_pcs_self]
    · next hexch =>
      exact ⟨sideBySide p q,
        run_sideBySide hne Threads.move_pcs_self (hq'.trans hexch) hqueued hexec⟩
    · exact absurd hq (by simp)

/-- **A task runs at most once when its pushes do not overlap.** In every interleaving in
which a `pushTask` finds `TASK_INIT` only while no other one stands between its test and its
exchange, `runFunction` is called at most once, `set_value` is called at most once and no
worker throws.  The first test that does not meet this can be followed by steps in which the
task is run twice. -/
theorem pushTask_runsOnce (as : List (ι × TaskStep)) (s : TaskConf ι)
    (hok : Lib.AllSteps step NoTwoPushes built as) (hrun : Lib.run step built as = some s) :
    RunsOnce s ∧ ∀ a s', step s a = some s' → ¬ NoTwoPushes s a →
      ∃ bs, (Lib.run step s' bs).map (·.shared.executions) = some 2 := by
  obtain ⟨t, ht⟩ : ∃ t, OneTicket s t :=
    Lib.run_inv_of_allSteps (fun _ _ _ hs hok h => step_oneTicket hs hok h)
      ⟨.unused, built_oneTicket⟩ hok hrun
  exact ⟨ht.runsOnce, fun a s' h hbad => ht.runs_twice hbad h⟩

instance decidableNoTwoPushes [Fintype ι] (s : TaskConf ι) (a : ι × TaskStep) :
    Decidable (NoTwoPushes s a) :=
  inferInstanceAs (Decidable (∀ _, _))

/-- The second `pushTask` comes after the exchange of the first and finds another state: the
task is pushed once and runs once. -/
theorem pushTask_after_exchange : ∃ s : TaskConf Bool,
    Lib.run step built [(false, .pushTask), (false, .load), (false, .exchange),
      (true, .pushTask), (false, .push), (true, .dequeue), (true, .run), (true, .load),
      (true, .exchange), (true, .runFunction), (true, .setValue), (true, .load),
      (true, .exchange)] = some s ∧
    s.shared.executions = 1 ∧ RunsOnce s := by
  let as : List (Bool × TaskStep) := [(false, .pushTask), (false, .load), (false, .exchange),
    (true, .pushTask), (false, .push), (true, .dequeue), (true, .run), (true, .load),
    (true, .exchange), (true, .runFunction), (true, .setValue), (true, .load), (true, .exchange)]
  have hok : Lib.AllSteps step NoTwoPushes built as := by decide +kernel
  have hrun : (Lib.run step built as).map (·.shared.executions) = some 1 := by decide +kernel
  obtain ⟨s, hs, hexec⟩ := Option.map_eq_some_iff.mp hrun
  exact ⟨s, hs, hexec, (pushTask_runsOnce as s hok hs).1⟩

/-- Two threads push the task at once and then run it side by side: `runFunction` is called
twice, and the second `set_value` throws. -/
theorem pushTask_twice : ∃ (as : List (Bool × TaskStep)) (s : TaskConf Bool),
    Lib.run step built as = some s ∧ s.shared.executions = 2 ∧ s.shared.setValues = 2 ∧
      s.pcs true = .thrown ∧ ¬ RunsOnce s := by
  let as : List (Bool × TaskStep) := [(false, .pushTask), (true, .pushTask), (false, .load),
    (false, .exchange), (false, .push), (true, .load), (true, .push), (false, .dequeue),
    (true, .dequeue), (false, .run), (true, .run), (false, .load), (false, .exchange),
    (true, .load), (false, .runFunction), (true, .runFunction), (false, .setValue),
    (true, .setValue)]
  have hrun : (Lib.run step built as).map
      (fun s => (s.shared.executions, s.shared.setValues, s.pcs true)) =
      some (2, 2, .thrown) := by
    decide +kernel
  obtain ⟨s, hs, hend⟩ := Option.map_eq_some_iff.mp hrun
  simp only [Prod.mk.injEq] at hend
  obtain ⟨hexec, hvalues, hthrown⟩ := hend
  exact ⟨as, s, hs, hexec, hvalues, hthrown, fun h => by simp [RunsOnce, hexec] at h⟩

end Runs

end TaskConf

end SignalEventLoop.Core
