/-
# Active connections are finished once

A task is pending, with no effect in the log; or some frame of the stack is finishing it, and
it is still in `connections_map`; or it is gone, with its effects settled.  Every step that
meets the condition `SafeCall` keeps these accounts, since it finds the tasks that it touches
in the first of the three.
-/
import SignalEventLoop.Network.ActiveNotify

namespace SignalEventLoop.Network

namespace ActiveFrame

/-- The tasks that the frame is finishing and has closed already. -/
def closed : ActiveFrame → List ConnectionTask
  | .finished | .timeout _ => []
  | .cancel _ task => [task]
  | .stop visited _ => visited

lemma closed_subset_tasks {frame : ActiveFrame} {task : ConnectionTask}
    (h : task ∈ frame.closed) : task ∈ frame.tasks := by
  cases frame with
  | finished => exact h
  | timeout t => exact absurd h (by simp [closed])
  | cancel token t => exact h
  | stop visited rest => exact h

end ActiveFrame

namespace ActiveState

/-! ## The invariant -/

/-- The tasks that are being finished and are closed already. -/
def closing (s : ActiveState) : List ConnectionTask := s.stack.flatMap ActiveFrame.closed

/-- The effects of the log on a task: none while it is pending, one notification and perhaps
one close while it is being finished, and at most one of both when it is gone. -/
structure Account (s : ActiveState) (task : ConnectionTask) : Prop where
  pending : s.At task →
    notifyCount s.log task = (if task ∈ s.held then 1 else 0) ∧
      s.log.count (.close task) = (if task ∈ s.closing then 1 else 0) ∧
      .notify task true ∉ s.log
  gone : ¬ s.At task →
    notifyCount s.log task ≤ 1 ∧ s.log.count (.close task) ≤ 1 ∧
      (.notify task true ∈ s.log → .close task ∉ s.log)

/-- Timeouts and the events of channels begin with an empty stack, and nothing is being
finished when `stopAll` begins. -/
def WellStacked : List ActiveFrame → Prop
  | [] => True
  | .finished :: stack | .timeout _ :: stack => stack = []
  | .cancel _ _ :: stack => WellStacked stack
  | .stop _ _ :: stack => (∀ frame ∈ stack, frame.tasks = []) ∧ WellStacked stack

/-- What holds for a `stopAll` that is going on: every entry is met, and no timer waits. -/
structure Stopping (s : ActiveState) (visited : List ConnectionTask) (rest : List ℕ) : Prop where
  batch : s.batch = []
  nodup : rest.Nodup
  disjoint : ∀ task ∈ visited, task.fd ∉ rest
  all : ∀ task, s.At task → task ∈ visited ∨ task.fd ∈ rest

/-- The effect is on this task. -/
def On (task : ConnectionTask) (e : ActiveEffect) : Prop :=
  e = .notify task true ∨ e = .notify task false ∨ e = .close task

/-- The tasks stand under their descriptors, and the log is about tasks that there were. -/
structure Base (s : ActiveState) : Prop where
  fd_eq : ∀ (fd : ℕ) (task : ConnectionTask), s.server.connectionsMap[fd]? = some task →
    task.fd = fd
  id_lt : ∀ task, s.At task → task.id < s.server.nextId
  known : ∀ task, ∀ e ∈ s.log, On task e → task.id < s.server.nextId
  valid : .invalidIterator ∉ s.log

/-- The invariant. -/
structure Inv (s : ActiveState) : Prop extends Base s where
  held_at : ∀ task ∈ s.held, s.At task
  held_nodup : s.held.Nodup
  batch_at : ∀ task ∈ s.batch, s.At task
  batch_held : ∀ task ∈ s.batch, task ∉ s.held
  batch_nodup : s.batch.Nodup
  stacked : WellStacked s.stack
  cancel : ∀ token task, .cancel token task ∈ s.stack →
    s.server.tokenDirectory[token]? = some task.fd
  stop : ∀ visited rest, .stop visited rest ∈ s.stack → Stopping s visited rest
  account : ∀ task, Account s task

variable {s s' : ActiveState} {task other : ConnectionTask}

lemma closing_subset_held : ∀ task ∈ s.closing, task ∈ s.held := by
  intro task h
  obtain ⟨frame, hframe, htask⟩ := List.mem_flatMap.mp h
  exact List.mem_flatMap.mpr ⟨frame, hframe, ActiveFrame.closed_subset_tasks htask⟩

lemma mem_held {frame : ActiveFrame} (hframe : frame ∈ s.stack) (htask : task ∈ frame.tasks) :
    task ∈ s.held :=
  List.mem_flatMap.mpr ⟨frame, hframe, htask⟩

lemma held_of_stack_eq_nil (h : s.stack = []) : s.held = [] := by
  rw [held, h]
  rfl

/-- Nothing is being finished, and no timer waits. -/
lemma Base.inv_of_idle (h : Base s) (hheld : s.held = []) (hbatch : s.batch = [])
    (hstacked : WellStacked s.stack)
    (hstop : ∀ visited rest, .stop visited rest ∈ s.stack → Stopping s visited rest)
    (haccount : ∀ task, Account s task) : Inv s := by
  refine ⟨h, ?_, ?_, ?_, ?_, ?_, hstacked, ?_, hstop, haccount⟩
  · simp [hheld]
  · simp [hheld]
  · simp [hbatch]
  · simp [hbatch]
  · simp [hbatch]
  · intro token task hmem
    have hin : task ∈ s.held := mem_held hmem (List.mem_singleton_self task)
    rw [hheld] at hin
    exact absurd hin (by simp)

lemma inv_init : Inv init := by
  refine Base.inv_of_idle ⟨?_, ?_, ?_, ?_⟩ rfl rfl trivial ?_ fun task => ⟨fun h => ?_, fun _ => ?_⟩
  · intro fd task h
    simp [init, ITcpServer.init] at h
  · intro task h
    simp [At, init, ITcpServer.init] at h
  · intro task e h
    simp [init] at h
  · simp [init]
  · intro visited rest h
    simp [init] at h
  · simp [At, init, ITcpServer.init] at h
  · simp [notifyCount, init]

lemma Inv.finishedOnce (h : Inv s) : FinishedOnce s.log where
  notified := by
    intro task
    by_cases hat : s.At task
    · rw [((h.account task).pending hat).1]
      split_ifs <;> omega
    · exact ((h.account task).gone hat).1
  closed := by
    intro task
    by_cases hat : s.At task
    · rw [((h.account task).pending hat).2.1]
      split_ifs <;> omega
    · exact ((h.account task).gone hat).2.1
  handed := by
    intro task hmem
    by_cases hat : s.At task
    · exact absurd hmem ((h.account task).pending hat).2.2
    · exact ((h.account task).gone hat).2.2 hmem
  valid := h.valid

/-! ## The effects on one task -/

lemma on_iff {e : ActiveEffect} (h : On other e) : On task e ↔ task = other := by
  rcases h with rfl | rfl | rfl <;> simp [On, eq_comm]

/-- A step that only takes tasks out of the map and whose effects are on one task of it. -/
lemma Base.touch (h : Base s) (hat : s.At task)
    (hsub : ∀ (fd : ℕ) (t : ConnectionTask), s'.server.connectionsMap[fd]? = some t →
      s.server.connectionsMap[fd]? = some t)
    (hid : s'.server.nextId = s.server.nextId) {new : List ActiveEffect}
    (hlog : s'.log = s.log ++ new) (hnew : ∀ e ∈ new, On task e) : Base s' where
  fd_eq := fun fd t ht => h.fd_eq fd t (hsub fd t ht)
  id_lt := by
    intro t ht
    rw [hid]
    exact h.id_lt t (hsub _ _ ht)
  known := by
    intro t e he hon
    rw [hid]
    rw [hlog] at he
    rcases List.mem_append.mp he with he | he
    · exact h.known t e he hon
    · rw [(on_iff (hnew e he)).mp hon]
      exact h.id_lt task hat
  valid := by
    rw [hlog]
    intro hmem
    rcases List.mem_append.mp hmem with hmem | hmem
    · exact h.valid hmem
    · rcases hnew _ hmem with he | he | he <;> exact absurd he (by simp)

/-- Effects on another task do not change the account. -/
lemma Account.of_other (h : Account s task) (hat : s'.At task ↔ s.At task)
    (hheld : task ∈ s'.held ↔ task ∈ s.held) (hclosing : task ∈ s'.closing ↔ task ∈ s.closing)
    {new : List ActiveEffect} (hlog : s'.log = s.log ++ new) (hnew : ∀ e ∈ new, On other e)
    (hne : task ≠ other) : Account s' task := by
  replace hnew : ∀ e ∈ new, ¬ On task e := fun e he hon => hne ((on_iff (hnew e he)).mp hon)
  have hzero : ∀ e, On task e → new.count e = 0 :=
    fun e he => List.count_eq_zero.mpr fun hmem => hnew e hmem he
  have hmem : ∀ e, On task e → (e ∈ s'.log ↔ e ∈ s.log) := by
    intro e he
    rw [hlog, List.mem_append, or_iff_left fun hmem => hnew e hmem he]
  have hnotify : notifyCount s'.log task = notifyCount s.log task := by
    simp only [notifyCount, hlog, List.count_append, hzero _ (Or.inl rfl),
      hzero _ (Or.inr (Or.inl rfl)), Nat.add_zero]
  have hclose : s'.log.count (.close task) = s.log.count (.close task) := by
    rw [hlog, List.count_append, hzero _ (Or.inr (Or.inr rfl)), Nat.add_zero]
  refine ⟨fun hs' => ?_, fun hs' => ?_⟩
  · rw [hnotify, hclose, hmem _ (Or.inl rfl)]
    simp only [hheld, hclosing]
    exact h.pending (hat.mp hs')
  · rw [hnotify, hclose, hmem _ (Or.inl rfl), hmem _ (Or.inr (Or.inr rfl))]
    exact h.gone fun hs => hs' (hat.mpr hs)

/-- Erasing a task leaves the others. -/
lemma at_erase (hat : s.At task) (hne : other ≠ task)
    (hconn : s'.server.connectionsMap = s.server.connectionsMap.erase task.fd) :
    s'.At other ↔ s.At other := by
  rw [At, At, hconn, Lib.getElem?_erase_eq_some]
  refine ⟨fun h => h.2, fun h => ⟨fun hfd => hne ?_, h⟩⟩
  have hsame : s.server.connectionsMap[other.fd]? = some task := hfd ▸ hat
  exact Option.some.inj (h.symm.trans hsame)

lemma not_at_erase (hconn : s'.server.connectionsMap = s.server.connectionsMap.erase task.fd) :
    ¬ s'.At task := by
  rw [At, hconn, Lib.getElem?_erase_eq_some]
  exact fun h => h.1 rfl

lemma erase_sub {m : Std.ExtTreeMap ℕ ConnectionTask} {k fd : ℕ} {t : ConnectionTask}
    (h : (m.erase k)[fd]? = some t) : m[fd]? = some t :=
  (Lib.getElem?_erase_eq_some.mp h).2

/-- A pending task that nothing is done to yet. -/
lemma Inv.untouched (h : Inv s) (hat : s.At task) (hheld : task ∉ s.held) :
    s.log.count (.notify task true) = 0 ∧ s.log.count (.notify task false) = 0 ∧
      s.log.count (.close task) = 0 := by
  obtain ⟨hnotify, hclose, -⟩ := (h.account task).pending hat
  rw [if_neg hheld, notifyCount] at hnotify
  rw [if_neg fun hc => hheld (closing_subset_held task hc)] at hclose
  exact ⟨by omega, by omega, hclose⟩

lemma on_closed : ∀ e ∈ [ActiveEffect.close task, .notify task false], On task e := by
  intro e he
  rcases List.mem_cons.mp he with rfl | he
  · exact Or.inr (Or.inr rfl)
  · rw [List.mem_singleton.mp he]
    exact Or.inr (Or.inl rfl)

/-- A task is closed and notified, and a frame takes it over. -/
lemma Inv.account_closed (h : Inv s) (hat : s.At task) (hheld : task ∉ s.held)
    (hs' : s'.At task) (hheld' : task ∈ s'.held) (hclosing' : task ∈ s'.closing)
    (hlog : s'.log = s.log ++ [.close task, .notify task false]) : Account s' task := by
  obtain ⟨hn₁, hn₂, hc⟩ := h.untouched hat hheld
  refine ⟨fun _ => ⟨?_, ?_, ?_⟩, fun hnot => absurd hs' hnot⟩
  · rw [if_pos hheld', hlog]
    simp [notifyCount, hn₁, hn₂]
  · rw [if_pos hclosing', hlog]
    simp [hc]
  · rw [hlog]
    simpa using List.count_eq_zero.mp hn₁

lemma Stopping.congr {visited : List ConnectionTask} {rest : List ℕ} (h : Stopping s visited rest)
    (hbatch : s'.batch = s.batch) (hat : ∀ t, s'.At t → s.At t) : Stopping s' visited rest :=
  ⟨hbatch.trans h.batch, h.nodup, h.disjoint, fun t ht => h.all t (hat t ht)⟩

lemma WellStacked.tail {frame : ActiveFrame} {stack : List ActiveFrame}
    (h : WellStacked (frame :: stack)) : WellStacked stack := by
  cases frame with
  | finished => exact (show stack = [] from h) ▸ trivial
  | timeout task => exact (show stack = [] from h) ▸ trivial
  | cancel token task => exact h
  | stop visited rest => exact h.2

/-- A step that touches no task: it changes the stack and `token_directory` only, and the tasks
that are being finished stay the same. -/
lemma Inv.rebook (h : Inv s) (hconn : s'.server.connectionsMap = s.server.connectionsMap)
    (hid : s'.server.nextId = s.server.nextId) (hbatch : s'.batch = s.batch)
    (hlog : s'.log = s.log) (hheld : s'.held = s.held) (hclosing : s'.closing = s.closing)
    (hstacked : WellStacked s'.stack)
    (hcancel : ∀ token t, .cancel token t ∈ s'.stack →
      s'.server.tokenDirectory[token]? = some t.fd)
    (hstop : ∀ visited rest, .stop visited rest ∈ s'.stack → Stopping s' visited rest) :
    Inv s' := by
  have hsame : ∀ t, s'.At t ↔ s.At t := fun t => by rw [At, At, hconn]
  refine ⟨⟨?_, ?_, ?_, ?_⟩, ?_, ?_, ?_, ?_, ?_, hstacked, hcancel, hstop, fun t => ⟨?_, ?_⟩⟩
  · rw [hconn]
    exact h.fd_eq
  · intro t ht
    rw [hid]
    exact h.id_lt t ((hsame t).mp ht)
  · rw [hlog, hid]
    exact h.known
  · rw [hlog]
    exact h.valid
  · intro t ht
    exact (hsame t).mpr (h.held_at t (hheld ▸ ht))
  · rw [hheld]
    exact h.held_nodup
  · intro t ht
    exact (hsame t).mpr (h.batch_at t (hbatch ▸ ht))
  · rw [hbatch, hheld]
    exact h.batch_held
  · rw [hbatch]
    exact h.batch_nodup
  · rw [hsame, hlog, hheld, hclosing]
    exact (h.account t).pending
  · rw [hsame, hlog]
    exact (h.account t).gone

/-- A frame with one task ends: the task is erased, and its account is settled. -/
lemma Inv.popTask (h : Inv s) {frame : ActiveFrame} {stack : List ActiveFrame}
    (hstack : s.stack = frame :: stack) (htasks : frame.tasks = [task]) (hstack' : s'.stack = stack)
    (hconn : s'.server.connectionsMap = s.server.connectionsMap.erase task.fd)
    (hid : s'.server.nextId = s.server.nextId) (hbatch : s'.batch = s.batch)
    {new : List ActiveEffect} (hlog : s'.log = s.log ++ new) (hnew : ∀ e ∈ new, On task e)
    (hcancel : ∀ token t, .cancel token t ∈ stack →
      s'.server.tokenDirectory[token]? = some t.fd)
    (haccount : Account s' task) : Inv s' := by
  have hheld : s.held = task :: s'.held := by
    rw [held, hstack, List.flatMap_cons, htasks, held, hstack']
    rfl
  have hat : s.At task := h.held_at task (hheld ▸ List.mem_cons_self)
  have hnodup := h.held_nodup
  rw [hheld] at hnodup
  obtain ⟨hnot, hnodup'⟩ := List.nodup_cons.mp hnodup
  have hsub : ∀ (fd : ℕ) (t : ConnectionTask), s'.server.connectionsMap[fd]? = some t →
      s.server.connectionsMap[fd]? = some t := by
    intro fd t ht
    rw [hconn] at ht
    exact erase_sub ht
  refine ⟨h.toBase.touch hat hsub hid hlog hnew, ?_, hnodup', ?_, ?_, hbatch ▸ h.batch_nodup, ?_,
    ?_, ?_, ?_⟩
  · intro t ht
    refine (at_erase hat ?_ hconn).mpr (h.held_at t (hheld ▸ List.mem_cons_of_mem _ ht))
    rintro rfl
    exact hnot ht
  · intro t ht
    rw [hbatch] at ht
    refine (at_erase hat ?_ hconn).mpr (h.batch_at t ht)
    rintro rfl
    exact h.batch_held t ht (hheld ▸ List.mem_cons_self)
  · intro t ht hmem
    rw [hbatch] at ht
    exact h.batch_held t ht (hheld ▸ List.mem_cons_of_mem _ hmem)
  · have hstacked := h.stacked
    rw [hstack] at hstacked
    rw [hstack']
    exact hstacked.tail
  · intro token t hmem
    rw [hstack'] at hmem
    exact hcancel token t hmem
  · intro v r hmem
    rw [hstack'] at hmem
    exact (h.stop v r (hstack ▸ List.mem_cons_of_mem _ hmem)).congr hbatch fun t => hsub _ _
  · intro t
    by_cases htask : t = task
    · exact htask ▸ haccount
    · have hclosed : t ∉ frame.closed := by
        intro hmem
        have hin := ActiveFrame.closed_subset_tasks hmem
        rw [htasks] at hin
        exact htask (List.mem_singleton.mp hin)
      refine (h.account t).of_other (at_erase hat htask hconn) ?_ ?_ hlog hnew htask
      · rw [hheld, List.mem_cons]
        simp [htask]
      · rw [closing, closing, hstack, hstack', List.flatMap_cons, List.mem_append]
        simp [hclosed]

/-! ## `cancelActiveConnecttion` -/

/-- A token whose descriptor is not in `connections_map` is forgotten. -/
lemma Inv.eraseToken (h : Inv s) {token fd : ℕ} (hdir : s.server.tokenDirectory[token]? = some fd)
    (hconn : s.server.connectionsMap[fd]? = none) :
    Inv { s with
      server := { s.server with tokenDirectory := s.server.tokenDirectory.erase token } } := by
  refine h.rebook rfl rfl rfl rfl rfl rfl h.stacked ?_ ?_
  · intro token' task' hmem
    -- the entry of a task that is being cancelled is another one
    have hold := h.cancel token' task' hmem
    refine Lib.getElem?_erase_eq_some.mpr ⟨?_, hold⟩
    rintro rfl
    have hat : s.At task' := h.held_at task' (mem_held hmem (List.mem_singleton_self task'))
    rw [hdir, Option.some.injEq] at hold
    rw [At, ← hold, hconn] at hat
    exact absurd hat (by simp)
  · exact fun v r hmem => (h.stop v r hmem).congr rfl fun _ => id

lemma Inv.pushCancel (h : Inv s) {token : ℕ} (hat : s.At task) (hheld : task ∉ s.held)
    (hbatch : task ∉ s.batch) (hdir : s.server.tokenDirectory[token]? = some task.fd) :
    Inv { s with
      stack := .cancel token task :: s.stack
      log := s.log ++ [.close task, .notify task false] } := by
  refine ⟨h.toBase.touch hat (fun _ _ ht => ht) rfl rfl on_closed, ?_, ?_, h.batch_at, ?_,
    h.batch_nodup, h.stacked, ?_, ?_, ?_⟩
  · intro t ht
    rcases List.mem_cons.mp ht with rfl | ht
    · exact hat
    · exact h.held_at t ht
  · exact List.nodup_cons.mpr ⟨hheld, h.held_nodup⟩
  · intro t ht hmem
    rcases List.mem_cons.mp hmem with rfl | hmem
    · exact hbatch ht
    · exact h.batch_held t ht hmem
  · intro token' task' hmem
    rcases List.mem_cons.mp hmem with hmem | hmem
    · obtain ⟨rfl, rfl⟩ := (ActiveFrame.cancel.injEq _ _ _ _).mp hmem
      exact hdir
    · exact h.cancel token' task' hmem
  · intro v r hmem
    rcases List.mem_cons.mp hmem with hmem | hmem
    · exact absurd hmem (by simp)
    · exact (h.stop v r hmem).congr rfl fun _ => id
  · intro t
    by_cases htask : t = task
    · subst htask
      exact h.account_closed hat hheld hat List.mem_cons_self List.mem_cons_self rfl
    · refine (h.account t).of_other Iff.rfl ?_ ?_ rfl on_closed htask
      · simp [held, ActiveFrame.tasks, htask]
      · simp [closing, ActiveFrame.closed, htask]

lemma Inv.cancelCall (h : Inv s) {token : ℕ}
    (hsafe : s.SafeCall (.cancelActiveConnecttion token)) :
    Inv (s.cancelActiveConnecttion token) := by
  rw [cancelActiveConnecttion]
  cases hdir : s.server.tokenDirectory[token]? with
  | none => exact h
  | some fd =>
    dsimp only
    cases hconn : s.server.connectionsMap[fd]? with
    | none => exact h.eraseToken hdir hconn
    | some task =>
      obtain rfl := h.fd_eq fd task hconn
      obtain ⟨hheld, hbatch⟩ := hsafe task.fd hdir task hconn
      exact h.pushCancel hconn hheld hbatch hdir

/-- The end of `cancelActiveConnecttion`: the entries are still there. -/
lemma Inv.popCancel (h : Inv s) {token : ℕ} {stack : List ActiveFrame}
    (hstack : s.stack = .cancel token task :: stack) :
    Inv { s with
      server := { s.server with
        connectionsMap := s.server.connectionsMap.erase task.fd
        tokenDirectory := s.server.tokenDirectory.erase token }
      stack := stack } := by
  have hframe : .cancel token task ∈ s.stack := hstack ▸ List.mem_cons_self
  have hheld : task ∈ s.held := mem_held hframe (List.mem_singleton_self task)
  have hclosing : task ∈ s.closing :=
    List.mem_flatMap.mpr ⟨_, hframe, List.mem_singleton_self task⟩
  have hat := h.held_at task hheld
  refine h.popTask hstack rfl rfl rfl rfl rfl (List.append_nil _).symm (by simp) ?_ ?_
  · intro token' t hmem
    have hold := h.cancel token' t (hstack ▸ List.mem_cons_of_mem _ hmem)
    refine Lib.getElem?_erase_eq_some.mpr ⟨?_, hold⟩
    rintro rfl
    -- two frames for one token would be two frames for one task
    have hfd : task.fd = t.fd := Option.some.inj ((h.cancel token task hframe).symm.trans hold)
    have hframe' : .cancel token t ∈ s.stack := hstack ▸ List.mem_cons_of_mem _ hmem
    have hat' : s.At t := h.held_at t (mem_held hframe' (List.mem_singleton_self t))
    obtain rfl : task = t := by
      rw [At, hfd] at hat
      exact Option.some.inj (hat.symm.trans hat')
    have hnodup := h.held_nodup
    rw [held, hstack, List.flatMap_cons] at hnodup
    exact (List.nodup_cons.mp hnodup).1
      (List.mem_flatMap.mpr ⟨_, hmem, List.mem_singleton_self task⟩)
  · obtain ⟨hnotify, hclose, hhanded⟩ := (h.account task).pending hat
    rw [if_pos hheld] at hnotify
    rw [if_pos hclosing] at hclose
    refine ⟨fun hs' => absurd hs' (not_at_erase rfl), fun _ => ⟨?_, ?_, ?_⟩⟩
    · exact le_of_eq hnotify
    · exact le_of_eq hclose
    · exact fun hmem => absurd hmem hhanded

/-! ## Timers and channels -/

/-- The end of a timeout. -/
lemma Inv.popTimeout (h : Inv s) {stack : List ActiveFrame}
    (hstack : s.stack = .timeout task :: stack) :
    Inv { s with
      server := s.server.releaseTask task
      stack := stack
      log := s.log ++ [.close task] } := by
  have hnil : stack = [] := by
    have hstacked := h.stacked
    rw [hstack] at hstacked
    exact hstacked
  subst hnil
  have hheld : s.held = [task] := by
    rw [held, hstack]
    rfl
  have hclosing : s.closing = [] := by
    rw [closing, hstack]
    rfl
  have hat := h.held_at task (by rw [hheld]; exact List.mem_singleton_self task)
  obtain ⟨hnotify, hclose, hhanded⟩ := (h.account task).pending hat
  rw [if_pos (by rw [hheld]; exact List.mem_singleton_self task)] at hnotify
  rw [if_neg (by rw [hclosing]; simp)] at hclose
  refine h.popTask hstack rfl rfl rfl rfl rfl rfl ?_ (by simp) ?_
  · intro e he
    rw [List.mem_singleton.mp he]
    exact Or.inr (Or.inr rfl)
  · refine ⟨fun hs' => absurd hs' (not_at_erase rfl), fun _ => ⟨?_, ?_, ?_⟩⟩
    · simpa [notifyCount] using le_of_eq hnotify
    · simp [hclose]
    · intro hmem
      exact absurd (by simpa using hmem) hhanded

/-- A timer fires. -/
lemma Inv.fire (h : Inv s) {batch : List ConnectionTask} (hstack : s.stack = [])
    (hbatch : s.batch = task :: batch) :
    Inv { s with
      stack := [.timeout task]
      batch := batch
      log := s.log ++ [.notify task false] } := by
  have hat := h.batch_at task (by rw [hbatch]; exact List.mem_cons_self)
  have hheld := h.batch_held task (by rw [hbatch]; exact List.mem_cons_self)
  have hnodup := h.batch_nodup
  rw [hbatch] at hnodup
  obtain ⟨hnot, hnodup'⟩ := List.nodup_cons.mp hnodup
  obtain ⟨hn₁, hn₂, hc⟩ := h.untouched hat hheld
  have hon : ∀ e ∈ [ActiveEffect.notify task false], On task e := by
    intro e he
    rw [List.mem_singleton.mp he]
    exact Or.inr (Or.inl rfl)
  have hsingle : ∀ t, t ∈ ActiveState.held ⟨s.server, [.timeout task], batch,
      s.log ++ [.notify task false]⟩ → t = task := fun t ht => by
    simpa [held, ActiveFrame.tasks] using ht
  refine ⟨h.toBase.touch hat (fun _ _ ht => ht) rfl rfl hon, ?_, ?_, ?_, ?_, hnodup', rfl, ?_, ?_,
    ?_⟩
  · intro t ht
    rw [hsingle t ht]
    exact hat
  · exact List.nodup_singleton task
  · exact fun t ht => h.batch_at t (by rw [hbatch]; exact List.mem_cons_of_mem _ ht)
  · intro t ht hmem
    rw [hsingle t hmem] at ht
    exact hnot ht
  · intro token t hmem
    simp at hmem
  · intro v r hmem
    simp at hmem
  · intro t
    by_cases htask : t = task
    · subst htask
      refine ⟨fun _ => ⟨?_, ?_, ?_⟩, fun hs' => absurd hat hs'⟩
      · rw [if_pos (by simp [held, ActiveFrame.tasks])]
        simp [notifyCount, hn₁, hn₂]
      · rw [if_neg (by simp [closing, ActiveFrame.closed])]
        simp [hc]
      · simpa using List.count_eq_zero.mp hn₁
    · refine (h.account t).of_other Iff.rfl ?_ ?_ rfl hon htask
      · simp [held, hstack, ActiveFrame.tasks, htask]
      · simp [closing, hstack, ActiveFrame.closed]

/-- A released task whose effects are one notification, and a close if it failed. -/
lemma Inv.release (h : Inv s) (hat : s.At task) (hstack : s.stack = []) (hbatch : s.batch = [])
    {new : List ActiveEffect}
    (hnew : new = [.notify task true] ∨ new = [.close task, .notify task false]) :
    Inv { s with
      server := s.server.releaseTask task
      stack := .finished :: s.stack
      log := s.log ++ new } := by
  obtain ⟨hn₁, hn₂, hc⟩ := h.untouched hat (by rw [held_of_stack_eq_nil hstack]; simp)
  have hon : ∀ e ∈ new, On task e := by
    rcases hnew with rfl | rfl
    · intro e he
      rw [List.mem_singleton.mp he]
      exact Or.inl rfl
    · exact on_closed
  refine Base.inv_of_idle (h.toBase.touch hat (fun _ _ ht => erase_sub ht) rfl rfl hon) ?_ hbatch
    hstack ?_ ?_
  · show s.held = []
    exact held_of_stack_eq_nil hstack
  · intro v r hmem
    simp [hstack] at hmem
  · intro t
    by_cases htask : t = task
    · subst htask
      refine ⟨fun hs' => absurd hs' (not_at_erase rfl), fun _ => ?_⟩
      have hnone := List.count_eq_zero.mp hn₁
      have hopen := List.count_eq_zero.mp hc
      rcases hnew with rfl | rfl
      · simp [notifyCount, hn₁, hn₂, hc, hopen]
      · simp [notifyCount, hn₁, hn₂, hc, hnone]
    · refine (h.account t).of_other (at_erase hat htask rfl) ?_ ?_ rfl hon htask
      · simp [held, hstack, ActiveFrame.tasks]
      · simp [closing, hstack, ActiveFrame.closed]

/-! ## New connections -/

/-- The task of a new connection is not in the log. -/
lemma Inv.enter (h : Inv s) (hstack : s.stack = []) (hbatch : s.batch = []) (token fd : ℕ) :
    Inv { s with server := s.server.enter token fd } := by
  obtain ⟨new, hnew⟩ : ∃ new : ConnectionTask, new = ⟨s.server.nextId, token, fd⟩ := ⟨_, rfl⟩
  have hconn : ∀ (k : ℕ) (t : ConnectionTask),
      (s.server.enter token fd).connectionsMap[k]? = some t →
        s.server.connectionsMap[k]? = some t ∨ fd = k ∧ new = t := by
    intro k t ht
    rw [hnew]
    exact Lib.getElem?_insertIfNew_eq_some ht
  have hheld := held_of_stack_eq_nil hstack
  have habsent : ∀ e, On new e → e ∉ s.log := by
    intro e he hmem
    have hlt := h.known new e hmem he
    rw [hnew] at hlt
    exact lt_irrefl _ hlt
  refine Base.inv_of_idle ⟨?_, ?_, ?_, h.valid⟩ hheld hbatch h.stacked ?_ ?_
  · intro k t ht
    rcases hconn k t ht with ht | ⟨rfl, rfl⟩
    · exact h.fd_eq k t ht
    · rw [hnew]
  · intro t ht
    rcases hconn _ t ht with ht | ⟨-, rfl⟩
    · exact Nat.lt_succ_of_lt (h.id_lt t ht)
    · rw [hnew]
      exact Nat.lt_succ_self _
  · exact fun t e hmem hon => Nat.lt_succ_of_lt (h.known t e hmem hon)
  · intro v r hmem
    simp [hstack] at hmem
  · intro t
    by_cases ht : t = new
    · subst ht
      have hzero : ∀ e, On t e → s.log.count e = 0 :=
        fun e he => List.count_eq_zero.mpr (habsent e he)
      have hnotify : notifyCount s.log t = 0 := by
        rw [notifyCount, hzero _ (Or.inl rfl), hzero _ (Or.inr (Or.inl rfl))]
      have hclosing : t ∉ s.closing := fun hc => by
        have hc' := closing_subset_held t hc
        rw [hheld] at hc'
        exact absurd hc' (by simp)
      refine ⟨fun _ => ⟨?_, ?_, habsent _ (Or.inl rfl)⟩, fun _ => ⟨?_, ?_, ?_⟩⟩
      · exact hnotify.trans (if_neg (show t ∉ s.held by rw [hheld]; simp)).symm
      · exact (hzero _ (Or.inr (Or.inr rfl))).trans (if_neg hclosing).symm
      · exact hnotify.le.trans (Nat.zero_le 1)
      · exact (hzero _ (Or.inr (Or.inr rfl))).le.trans (Nat.zero_le 1)
      · exact fun hmem => absurd hmem (habsent _ (Or.inl rfl))
    · refine ⟨fun hat => (h.account t).pending ?_, fun hnot => (h.account t).gone ?_⟩
      · exact (hconn _ t hat).resolve_right fun hnew' => ht hnew'.2.symm
      · exact fun hat => hnot (Lib.getElem?_insertIfNew_of_eq_some hat)

lemma Inv.connect (h : Inv s) (hstack : s.stack = []) (hbatch : s.batch = [])
    {request : ConnectRequest} {server : ITcpServer}
    (hstep : s.server.step (.activeConnect request) = some server) :
    Inv { s with server := server } := by
  rw [ITcpServer.step] at hstep
  split_ifs at hstep
  rw [Option.some.injEq] at hstep
  subst hstep
  rcases ITcpServer.activeConnect_cases (s := s.server) request with hnone | ⟨-, -, fd, -, hsome⟩
  · rw [hnone]
    exact h
  · rw [hsome]
    exact h.enter hstack hbatch _ fd

/-- The expired timers are taken out of the map. -/
lemma Inv.timerEvent (h : Inv s) (hstack : s.stack = []) {tasks : List ConnectionTask}
    (hnodup : tasks.Nodup) (hat : ∀ task ∈ tasks, s.At task) :
    Inv { s with batch := tasks } := by
  refine ⟨⟨h.fd_eq, h.id_lt, h.known, h.valid⟩, h.held_at, h.held_nodup, hat, ?_, hnodup,
    h.stacked, h.cancel, ?_, fun t => ⟨(h.account t).pending, (h.account t).gone⟩⟩
  · intro t _ hmem
    exact absurd (show t ∈ s.held from hmem) (by rw [held, hstack]; simp)
  · intro v r hmem
    exact absurd (show .stop v r ∈ s.stack from hmem) (by rw [hstack]; simp)

/-! ## `stopAll` -/

/-- Nothing is being finished below a `stopAll`. -/
lemma WellStacked.tasks_of_stop {visited : List ConnectionTask} {rest : List ℕ}
    {stack : List ActiveFrame} (h : WellStacked (.stop visited rest :: stack)) :
    stack.flatMap ActiveFrame.tasks = [] :=
  List.flatMap_eq_nil_iff.mpr h.1

/-- A `stopAll` at the top holds the tasks that it has visited, all of them closed, and no
others. -/
lemma held_of_stop {visited : List ConnectionTask} {rest : List ℕ} {stack : List ActiveFrame}
    (hstack : s.stack = .stop visited rest :: stack) (hstacked : WellStacked s.stack) :
    s.held = visited ∧ s.closing = visited := by
  rw [hstack] at hstacked
  have hclosed : stack.flatMap ActiveFrame.closed = [] := by
    refine List.eq_nil_iff_forall_not_mem.mpr fun t ht => ?_
    obtain ⟨frame, hframe, hmem⟩ := List.mem_flatMap.mp ht
    have htasks := ActiveFrame.closed_subset_tasks hmem
    rw [hstacked.1 frame hframe] at htasks
    exact absurd htasks (by simp)
  rw [held, closing, hstack, List.flatMap_cons, List.flatMap_cons, hstacked.tasks_of_stop, hclosed,
    List.append_nil, List.append_nil]
  exact ⟨rfl, rfl⟩

/-- An entry that was erased is not met. -/
lemma Stopping.skip {visited : List ConnectionTask} {fd : ℕ} {rest : List ℕ}
    (h : Stopping s visited (fd :: rest)) (hfd : s.server.connectionsMap[fd]? = none) :
    Stopping s visited rest where
  batch := h.batch
  nodup := (List.nodup_cons.mp h.nodup).2
  disjoint := fun t ht hin => h.disjoint t ht (List.mem_cons_of_mem _ hin)
  all := by
    intro t ht
    refine (h.all t ht).imp id fun hin => (List.mem_cons.mp hin).resolve_left ?_
    rintro rfl
    rw [At, hfd] at ht
    exact absurd ht (by simp)

/-- The next entry is visited. -/
lemma Stopping.visit {visited : List ConnectionTask} {rest : List ℕ}
    (h : Stopping s visited (task.fd :: rest)) (hat : s.At task) :
    Stopping s (visited ++ [task]) rest where
  batch := h.batch
  nodup := (List.nodup_cons.mp h.nodup).2
  disjoint := by
    intro t ht
    rcases List.mem_append.mp ht with ht | ht
    · exact fun hin => h.disjoint t ht (List.mem_cons_of_mem _ hin)
    · rw [List.mem_singleton.mp ht]
      exact (List.nodup_cons.mp h.nodup).1
  all := by
    intro t ht
    rcases h.all t ht with hin | hin
    · exact Or.inl (List.mem_append_left _ hin)
    · rcases List.mem_cons.mp hin with hfd | hin
      · refine Or.inl (List.mem_append_right _ (List.mem_singleton.mpr ?_))
        rw [At, hfd] at ht
        exact Option.some.inj (ht.symm.trans hat)
      · exact Or.inr hin

/-- The end of `stopAll`: every task that is left was visited. -/
lemma Inv.stopEnd {visited : List ConnectionTask}
    (h : Inv { s with stack := .stop visited [] :: s.stack }) :
    Inv { s with server := { s.server with connectionsMap := ∅ } } := by
  have hgone : ∀ t, ¬ At { s with server := { s.server with connectionsMap := ∅ } } t := by
    intro t ht
    simp [At] at ht
  refine Base.inv_of_idle ⟨?_, fun t ht => absurd ht (hgone t), h.known, h.valid⟩
    h.stacked.tasks_of_stop (h.stop visited [] List.mem_cons_self).batch h.stacked.tail ?_ ?_
  · intro fd t ht
    simp at ht
  · intro v r hmem
    exact (h.stop v r (List.mem_cons_of_mem _ hmem)).congr rfl fun t ht => absurd ht (hgone t)
  · intro t
    have honce := h.finishedOnce
    exact ⟨fun ht => absurd ht (hgone t),
      fun _ => ⟨honce.notified t, honce.closed t, honce.handed t⟩⟩

/-- An entry that was erased is passed over. -/
lemma Inv.stopSkip {visited : List ConnectionTask} {fd : ℕ} {rest : List ℕ}
    (h : Inv { s with stack := .stop visited (fd :: rest) :: s.stack })
    (hfd : s.server.connectionsMap[fd]? = none) :
    Inv { s with stack := .stop visited rest :: s.stack } := by
  refine h.rebook rfl rfl rfl rfl rfl rfl h.stacked ?_ ?_
  · intro token t hmem
    refine h.cancel token t (List.mem_cons_of_mem _ ?_)
    simpa using hmem
  · intro v r hmem
    rcases List.mem_cons.mp hmem with hmem | hmem
    · obtain ⟨rfl, rfl⟩ := (ActiveFrame.stop.injEq _ _ _ _).mp hmem
      exact ((h.stop v (fd :: r) List.mem_cons_self).skip hfd).congr rfl fun _ => id
    · exact (h.stop v r (List.mem_cons_of_mem _ hmem)).congr rfl fun _ => id

/-- The next entry is closed and notified. -/
lemma Inv.stopVisit (h : Inv s) {visited : List ConnectionTask} {rest : List ℕ}
    {stack : List ActiveFrame} (hstack : s.stack = .stop visited (task.fd :: rest) :: stack)
    (hat : s.At task) (hconn : s'.server.connectionsMap = s.server.connectionsMap)
    (hid : s'.server.nextId = s.server.nextId) (hbatch : s'.batch = s.batch)
    (hstack' : s'.stack = .stop (visited ++ [task]) rest :: stack)
    (hlog : s'.log = s.log ++ [.close task, .notify task false]) : Inv s' := by
  have hstop := h.stop visited (task.fd :: rest) (hstack ▸ List.mem_cons_self)
  have hvisited : task ∉ visited := fun hin => hstop.disjoint task hin List.mem_cons_self
  have hstacked : WellStacked s'.stack := by
    have hstacked := h.stacked
    rw [hstack] at hstacked
    rw [hstack']
    exact hstacked
  obtain ⟨hheld, hclosing⟩ := held_of_stop hstack h.stacked
  obtain ⟨hheld', hclosing'⟩ := held_of_stop hstack' hstacked
  have hsame : ∀ t, s'.At t ↔ s.At t := fun t => by rw [At, At, hconn]
  refine ⟨h.toBase.touch hat (fun fd t ht => hconn ▸ ht) hid hlog on_closed, ?_, ?_, ?_, ?_,
    hbatch ▸ h.batch_nodup, hstacked, ?_, ?_, ?_⟩
  · intro t ht
    rw [hheld', List.mem_append, List.mem_singleton] at ht
    rw [hsame]
    rcases ht with ht | rfl
    · exact h.held_at t (hheld ▸ ht)
    · exact hat
  · rw [hheld']
    refine List.nodup_append.mpr ⟨hheld ▸ h.held_nodup, List.nodup_singleton task, ?_⟩
    intro t ht t' ht'
    rw [List.mem_singleton.mp ht']
    rintro rfl
    exact hvisited ht
  · rw [hbatch, hstop.batch]
    simp
  · rw [hbatch, hstop.batch]
    simp
  · -- a frame of `cancelActiveConnecttion` would hold a task below
    intro token t hmem
    rw [hstack'] at hmem hstacked
    have hbelow := (List.mem_cons.mp hmem).resolve_left (by simp)
    exact absurd (hstacked.1 _ hbelow) (by simp [ActiveFrame.tasks])
  · intro v r hmem
    rw [hstack'] at hmem
    rcases List.mem_cons.mp hmem with hmem | hmem
    · obtain ⟨rfl, rfl⟩ := (ActiveFrame.stop.injEq _ _ _ _).mp hmem
      exact (hstop.visit hat).congr hbatch fun t => (hsame t).mp
    · exact (h.stop v r (hstack ▸ List.mem_cons_of_mem _ hmem)).congr hbatch fun t => (hsame t).mp
  · intro t
    by_cases htask : t = task
    · subst htask
      refine h.account_closed hat (hheld ▸ hvisited) ((hsame t).mpr hat) ?_ ?_ hlog
      · rw [hheld']
        simp
      · rw [hclosing']
        simp
    · refine (h.account t).of_other (hsame t) ?_ ?_ hlog on_closed htask
      · rw [hheld', hheld]
        simp [htask]
      · rw [hclosing', hclosing]
        simp [htask]

/-- The loop of `stopAll`, up to the next notification or to its end. -/
lemma Inv.stopNext {visited : List ConnectionTask} {rest : List ℕ}
    (h : Inv { s with stack := .stop visited rest :: s.stack }) :
    Inv (s.stopNext visited rest) := by
  induction rest with
  | nil => exact h.stopEnd
  | cons fd rest ih =>
    rw [ActiveState.stopNext]
    cases hfd : s.server.connectionsMap[fd]? with
    | none => exact ih (h.stopSkip hfd)
    | some task =>
      obtain rfl : task.fd = fd := h.fd_eq fd task hfd
      exact h.stopVisit rfl hfd rfl rfl rfl rfl rfl

/-- A call of `stopAll` that meets the condition finds nothing that is being finished. -/
lemma Inv.stopCall (h : Inv s) {order : List ℕ} (hsafe : s.SafeCall (.stopAll order))
    (horder : order.Perm s.server.connectionsMap.keys) : Inv (s.stopNext [] order) := by
  have hentry : ∀ t, s.At t → t ∉ s.held ∧ t ∉ s.batch := fun t ht =>
    hsafe (t.fd, t) (Std.ExtTreeMap.mem_toList_iff_getElem?_eq_some.mpr ht)
  have hheld : s.held = [] :=
    List.eq_nil_iff_forall_not_mem.mpr fun t ht => (hentry t (h.held_at t ht)).1 ht
  have hbatch : s.batch = [] :=
    List.eq_nil_iff_forall_not_mem.mpr fun t ht => (hentry t (h.batch_at t ht)).2 ht
  refine Inv.stopNext (h.rebook rfl rfl rfl rfl rfl rfl
    ⟨List.flatMap_eq_nil_iff.mp hheld, h.stacked⟩ ?_ ?_)
  · intro token t hmem
    exact h.cancel token t ((List.mem_cons.mp hmem).resolve_left (by simp))
  · intro v r hmem
    rcases List.mem_cons.mp hmem with hmem | hmem
    · obtain ⟨rfl, rfl⟩ := (ActiveFrame.stop.injEq _ _ _ _).mp hmem
      refine ⟨hbatch, ?_, fun t ht => absurd ht (by simp), fun t ht => Or.inr ?_⟩
      · rw [horder.nodup_iff]
        exact Std.ExtTreeMap.nodup_keys
      · rw [horder.mem_iff, Std.ExtTreeMap.mem_keys, Std.ExtTreeMap.mem_iff_isSome_getElem?,
          show s.server.connectionsMap[t.fd]? = some t from ht]
        rfl
    · exact (h.stop v r hmem).congr rfl fun _ => id

/-! ## Runs -/

/-- The end of an event of a channel. -/
lemma Inv.popFinished (h : Inv s) {stack : List ActiveFrame}
    (hstack : s.stack = .finished :: stack) : Inv { s with stack := stack } := by
  have hstacked := h.stacked
  rw [hstack] at hstacked
  refine h.rebook rfl rfl rfl rfl ?_ ?_ hstacked.tail ?_ ?_
  · rw [held, held, hstack]
    rfl
  · rw [closing, closing, hstack]
    rfl
  · exact fun token t hmem => h.cancel token t (hstack ▸ List.mem_cons_of_mem _ hmem)
  · exact fun v r hmem =>
      (h.stop v r (hstack ▸ List.mem_cons_of_mem _ hmem)).congr rfl fun _ => id

/-- The slots return. -/
lemma Inv.slotsReturn (h : Inv s) (hstep : s.slotsReturn = some s') : Inv s' := by
  rw [ActiveState.slotsReturn] at hstep
  cases hstack : s.stack with
  | nil => simp [hstack] at hstep
  | cons frame stack =>
    rw [hstack] at hstep
    cases frame with
    | finished =>
      rw [Option.some.injEq] at hstep
      subst hstep
      exact h.popFinished hstack
    | timeout task =>
      rw [Option.some.injEq] at hstep
      subst hstep
      exact h.popTimeout hstack
    | cancel token task =>
      rw [Option.some.injEq] at hstep
      subst hstep
      have hframe : .cancel token task ∈ s.stack := hstack ▸ List.mem_cons_self
      have hat := h.held_at task (mem_held hframe (List.mem_singleton_self task))
      have hdir := h.cancel token task hframe
      have hvalid : useIterator (decide (s.At task ∧
          s.server.tokenDirectory[token]? = some task.fd)) = [] := by
        rw [decide_eq_true ⟨hat, hdir⟩]
        rfl
      rw [hvalid, List.append_nil]
      exact h.popCancel hstack
    | stop visited rest =>
      rw [Option.some.injEq] at hstep
      subst hstep
      have hframe : .stop visited rest ∈ s.stack := hstack ▸ List.mem_cons_self
      have hvalid : useIterator (visited.getLast?.all fun task => decide (s.At task)) = [] := by
        cases hlast : visited.getLast? with
        | none => rfl
        | some last =>
          have hat := h.held_at last (mem_held hframe (List.mem_of_getLast? hlast))
          rw [Option.all_some, decide_eq_true hat]
          rfl
      rw [hvalid, List.append_nil]
      refine Inv.stopNext ?_
      have hsame : ({ s with stack := .stop visited rest :: stack } : ActiveState) = s := by
        rw [← hstack]
      rw [hsame]
      exact h

/-- A step that meets the condition keeps the invariant. -/
lemma Inv.next (h : Inv s) {a : ActiveAction} (hsafe : s.SafeCall a)
    (hstep : s.step a = some s') : Inv s' := by
  cases a with
  | activeConnect request =>
    rw [step] at hstep
    split_ifs at hstep with hidle
    obtain ⟨server, hserver, rfl⟩ := Option.map_eq_some_iff.mp hstep
    exact h.connect hidle.1 hidle.2 hserver
  | cancelActiveConnecttion token =>
    rw [step] at hstep
    split_ifs at hstep
    rw [← Option.some.inj hstep]
    exact h.cancelCall hsafe
  | stopAll order =>
    rw [step] at hstep
    split_ifs at hstep with hcall
    rw [← Option.some.inj hstep]
    exact h.stopCall hsafe hcall.2
  | channelEvent event fd =>
    rw [step] at hstep
    split_ifs at hstep with hidle
    obtain ⟨task, htask, hevent⟩ := Option.bind_eq_some_iff.mp hstep
    obtain rfl := h.fd_eq fd task htask
    cases event with
    | writeReady =>
      rw [← Option.some.inj hevent]
      exact h.release htask hidle.1 hidle.2 (Or.inl rfl)
    | errorEvent =>
      rw [← Option.some.inj hevent]
      exact h.release htask hidle.1 hidle.2 (Or.inr rfl)
    | closeEvent =>
      rw [← Option.some.inj hevent]
      exact h.release htask hidle.1 hidle.2 (Or.inr rfl)
    | timeout => exact absurd hevent (by simp [ActiveState.channelEvent])
  | timerEvent tasks =>
    rw [step] at hstep
    split_ifs at hstep with hidle
    rw [← Option.some.inj hstep]
    exact h.timerEvent hidle.1 hidle.2.2.1 hidle.2.2.2
  | fire =>
    rw [step] at hstep
    split at hstep
    · next task batch hstack hbatch =>
      rw [← Option.some.inj hstep]
      exact h.fire hstack hbatch
    · exact absurd hstep (by simp)
  | slotsReturn => exact h.slotsReturn hstep

/-- **Each active connection is finished once**, in every state of every run in which no slot
calls `cancelActiveConnecttion` or `stopAll` on a task that is being finished, or whose timer
waits in the batch. -/
theorem each_connection_finished_once (actions : List ActiveAction)
    (hsafe : Lib.AllSteps step SafeCall init actions) :
    Lib.AllStates step (fun s => FinishedOnce s.log) init actions :=
  Lib.allStates_of_allSteps (fun _ _ _ h hok hstep => h.next hok hstep)
    (fun _ h => h.finishedOnce) inv_init hsafe

/-! ## Two timers of one batch -/

/-- The `n`-th connection, with the descriptor `n + 5`. -/
def connectAction (n : ℕ) : ActiveAction := .activeConnect ⟨true, fun _ => 0, some (n + 5)⟩

/-- Its task. -/
def connectTask (n : ℕ) : ConnectionTask := ⟨n, n + 1, n + 5⟩

/-- Two timers expire together, and the first slot cancels the connection with this token. -/
def cancelInBatch (token : ℕ) : List ActiveAction :=
  [connectAction 0, connectAction 1, connectAction 2,
    .timerEvent [connectTask 0, connectTask 1],
    .fire, .cancelActiveConnecttion token, .slotsReturn, .slotsReturn,
    .fire, .slotsReturn]

/-- The third connection is in no batch, and its cancellation does no harm. -/
theorem cancel_of_third_connection :
    Lib.AllSteps step SafeCall init (cancelInBatch 3) ∧
    (Lib.run step init (cancelInBatch 3)).isSome ∧
    Lib.AllStates step (fun s => FinishedOnce s.log) init (cancelInBatch 3) := by
  have hsafe : Lib.AllSteps step SafeCall init (cancelInBatch 3) := by decide +kernel
  exact ⟨hsafe, by decide +kernel, each_connection_finished_once _ hsafe⟩

/-- The second connection, which the first slot cancels while its timer waits in the batch, is
notified twice and closed twice. -/
theorem cancelled_connection_times_out : ∃ s, Lib.run step init (cancelInBatch 2) = some s ∧
    s.log =
      [.notify (connectTask 0) false,
        .close (connectTask 1), .notify (connectTask 1) false,
        .close (connectTask 0),
        .notify (connectTask 1) false, .close (connectTask 1)] ∧
    ¬ FinishedOnce s.log := by
  have hlog : (Lib.run step init (cancelInBatch 2)).map ActiveState.log = some
      [.notify (connectTask 0) false,
        .close (connectTask 1), .notify (connectTask 1) false,
        .close (connectTask 0),
        .notify (connectTask 1) false, .close (connectTask 1)] := by decide +kernel
  obtain ⟨s, hrun, hs⟩ := Option.map_eq_some_iff.mp hlog
  refine ⟨s, hrun, hs, fun honce => ?_⟩
  have htwice : notifyCount s.log (connectTask 1) = 2 := by
    rw [hs]
    decide
  have := honce.notified (connectTask 1)
  omega

end ActiveState

end SignalEventLoop.Network
