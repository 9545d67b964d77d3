/-
# The redirect table and the pipes

`DaemonWorker::addStdoutRedirectTask`, `removeStdoutRedirectTask`, `stdoutRedirectThreadTask` and
`handleStdoutRedirectTask` (`sub_project/daemon-service/src/daemon-instance.cpp`), together with
the operations of any number of sessions.  `exec` opens a pipe for the output of the program, and
publishes its read end in `readFd` and in the table of the worker, also when the fork fails.  The
read end is closed when the session is reset.

The numbers of descriptors are used again, so that the read ends are kept in a list, the last one
first, each with the number of times it was closed.

A session whose fork failed keeps its read end and tries again.  The next `exec` with a pipe
overwrites `readFd`: the old read end is never closed, and its entry stays in the table.  This is
the only way in which the table and the descriptors come apart.
-/
import SignalEventLoop.Lib.Run
import SignalEventLoop.Daemon.DaemonSession

namespace SignalEventLoop.Daemon

open Lib

/-! ## The table of the worker -/

/-- The read end of a pipe. -/
structure ReadEnd where
  fd : ℤ
  closes : ℕ
deriving DecidableEq

/-- `close` of a number, which is that of the read end that was opened last. -/
def closeLast (fd : ℤ) : List ReadEnd → List ReadEnd
  | [] => []
  | p :: ps => if p.fd = fd then { p with closes := p.closes + 1 } :: ps else p :: closeLast fd ps

/-- `m_stdoutRedirectTasksMap`, and all read ends that were ever opened; `ι` are the sessions. -/
structure RedirectTable (ι : Type*) where
  stdoutRedirectTasksMap : ℤ → Option ι
  readEnds : List ReadEnd

variable {ι : Type*} [DecidableEq ι]

/-- An effect of an operation of the session `i`.  The system does not give out a number that is
open. -/
def RedirectTable.apply (i : ι) (t : RedirectTable ι) : Effect → Option (RedirectTable ι)
  | .pipeOpened fd =>
    if 0 ≤ fd ∧ ∀ p ∈ t.readEnds, p.fd = fd → p.closes ≠ 0 then
      some { t with readEnds := ⟨fd, 0⟩ :: t.readEnds }
    else none
  | .addStdoutRedirectTask fd =>
    some { t with
      stdoutRedirectTasksMap :=
        if (t.stdoutRedirectTasksMap fd).isSome then t.stdoutRedirectTasksMap
        else Function.update t.stdoutRedirectTasksMap fd (some i) }
  | .removeStdoutRedirectTask fd =>
    some { t with stdoutRedirectTasksMap := Function.update t.stdoutRedirectTasksMap fd none }
  | .closed fd => some { t with readEnds := closeLast fd t.readEnds }
  | _ => some t

/-- The worker.  `runningMap` and `eraseSet` are the local variables of the redirect thread. -/
structure DaemonWorker (ι : Type*) where
  sessions : ι → DaemonSession
  table : RedirectTable ι
  runningMap : ℤ → Option ι
  eraseSet : List ℤ

inductive WorkerAction (ι : Type*) where
  | start (i : ι) (clock : ℤ)
  | stop (i : ι) (r : ReleaseResult)
  | restart (i : ι) (r : ReleaseResult) (clock : ℤ)
  | check (i : ι) (r : CheckResult)
  | exec (i : ι) (r : ExecResult)
  /-- The redirect thread copies the table. -/
  | copyTasks
  /-- `handleStdoutRedirectTask` for an entry of the copy; `readSome` says whether anything was
  read. -/
  | handleStdoutRedirectTask (fd : ℤ) (readSome : Bool)
  /-- The redirect thread takes the entries out that it gave up. -/
  | eraseTasks

namespace DaemonWorker

variable (w : DaemonWorker ι)

/-- An operation of the session `i`: the session behind it, and its effects. -/
def perform (i : ι) (result : DaemonSession × List Effect) : Option (DaemonWorker ι) :=
  (run (RedirectTable.apply i) w.table result.2).map fun table =>
    { w with sessions := Function.update w.sessions i result.1, table := table }

/-- `pipe2` gives two numbers, the one of the read end first. -/
def PipeEnds (r : ExecResult) : Prop := ∀ p ∈ r.pipe, 0 ≤ p.1 ∧ p.1 < p.2

instance decidablePipeEnds (r : ExecResult) : Decidable (PipeEnds r) :=
  inferInstanceAs (Decidable (∀ p ∈ r.pipe, _))

def step : WorkerAction ι → Option (DaemonWorker ι)
  | .start i clock => w.perform i ((w.sessions i).start clock, [])
  | .stop i r => w.perform i ((w.sessions i).stop r)
  | .restart i r clock => w.perform i ((w.sessions i).restart r clock)
  | .check i r => if PipeEnds r.exec then w.perform i ((w.sessions i).check r) else none
  | .exec i r =>
    if PipeEnds r then w.perform i (((w.sessions i).exec r).1, ((w.sessions i).exec r).2.2)
    else none
  | .copyTasks => some { w with runningMap := w.table.stdoutRedirectTasksMap, eraseSet := [] }
  | .handleStdoutRedirectTask fd readSome =>
    (w.runningMap fd).map fun i =>
      if (w.sessions i).readFd ≠ fd ∨ readSome = false then
        { w with eraseSet := fd :: w.eraseSet }
      else w
  | .eraseTasks =>
    some { w with
      table := { w.table with
        stdoutRedirectTasksMap := fun fd =>
          if fd ∈ w.eraseSet then none else w.table.stdoutRedirectTasksMap fd } }

/-- A worker with new sessions. -/
def initial (worker : ι → Bool) : DaemonWorker ι :=
  ⟨fun i => .new (worker i), ⟨fun _ => none, []⟩, fun _ => none, []⟩

/-- Every entry of the table has the `readFd` of its session, and every read end that was opened
is the `readFd` of exactly one session or was closed exactly once. -/
def TableAgrees (w : DaemonWorker ι) : Prop :=
  (∀ fd i, w.table.stdoutRedirectTasksMap fd = some i → fd = (w.sessions i).readFd) ∧
    ∀ p ∈ w.table.readEnds, (p.closes = 0 ∧ ∃! i, (w.sessions i).readFd = p.fd) ∨ p.closes = 1

end DaemonWorker

/-- `exec` with a pipe is only called for a session without one. -/
def DaemonSession.NoPipe (s : DaemonSession) (r : ExecResult) : Prop :=
  s.worker = true → r.pipe.isSome = true → s.readFd = -1

/-- The session in front of the second part of `check`. -/
def DaemonSession.beforeStart (s : DaemonSession) (r : CheckResult) : DaemonSession :=
  if s.status = .running ∧ r.wait = s.pid then (s.checkExited r).1 else s

/-- It is time to start the program. -/
def DaemonSession.Boots (s : DaemonSession) (r : CheckResult) : Prop :=
  s.status = .waitStarted ∧ s.nextBootTime ≠ 0 ∧ r.nowClock ≥ s.nextBootTime

/-- The condition: no step comes to an `exec` with a pipe in a session that has one. -/
def DaemonWorker.NoSecondPipe (w : DaemonWorker ι) : WorkerAction ι → Prop
  | .exec i r => (w.sessions i).NoPipe r
  | .check i r => ((w.sessions i).beforeStart r).Boots r →
      ((w.sessions i).beforeStart r).NoPipe r.exec
  | _ => True

/-! ## Read ends -/

/-- Only the read end that was opened last with a number can be open. -/
def LastOpen (ps : List ReadEnd) : Prop :=
  ps.Pairwise fun later earlier => later.fd = earlier.fd → earlier.closes ≠ 0

/-- `close` of a number that is open closes the read end with this number. -/
lemma mem_closeLast {fd : ℤ} {ps : List ReadEnd} (hlast : LastOpen ps)
    (hopen : ∃ p ∈ ps, p.fd = fd ∧ p.closes = 0) {q : ReadEnd} (hq : q ∈ closeLast fd ps) :
    (q ∈ ps ∧ (q.fd = fd → q.closes ≠ 0)) ∨ q = ⟨fd, 1⟩ := by
  induction ps with
  | nil => exact absurd hq (by simp [closeLast])
  | cons p ps ih =>
    obtain ⟨hhead, htail⟩ := List.pairwise_cons.mp hlast
    rw [closeLast] at hq
    split_ifs at hq with hfd
    · -- the read end in front is the open one
      have hzero : p.closes = 0 := by
        obtain ⟨p', hmem, hfd', hzero⟩ := hopen
        rcases List.mem_cons.mp hmem with rfl | hmem
        · exact hzero
        · exact absurd hzero (hhead p' hmem (hfd.trans hfd'.symm))
      rcases List.mem_cons.mp hq with rfl | hq
      · right
        simp [hfd, hzero]
      · exact .inl ⟨List.mem_cons_of_mem _ hq, fun hqfd => hhead q hq (hfd.trans hqfd.symm)⟩
    · have hopen' : ∃ p ∈ ps, p.fd = fd ∧ p.closes = 0 := by
        obtain ⟨p', hmem, hp'⟩ := hopen
        rcases List.mem_cons.mp hmem with rfl | hmem
        · exact absurd hp'.1 hfd
        · exact ⟨p', hmem, hp'⟩
      rcases List.mem_cons.mp hq with rfl | hq
      · exact .inl ⟨List.mem_cons_self, fun hqfd => absurd hqfd hfd⟩
      · rcases ih htail hopen' hq with ⟨hmem, hclosed⟩ | rfl
        · exact .inl ⟨List.mem_cons_of_mem _ hmem, hclosed⟩
        · exact .inr rfl

/-- The read ends with other numbers stay. -/
lemma mem_closeLast_of_ne {fd : ℤ} {ps : List ReadEnd} {q : ReadEnd} (hq : q ∈ ps)
    (hne : q.fd ≠ fd) : q ∈ closeLast fd ps := by
  induction ps with
  | nil => exact hq
  | cons p ps ih =>
    rw [closeLast]
    rcases List.mem_cons.mp hq with rfl | hq
    · rw [if_neg hne]
      exact List.mem_cons_self
    · split_ifs
      · exact List.mem_cons_of_mem _ hq
      · exact List.mem_cons_of_mem _ (ih hq)

lemma fd_mem_closeLast {fd : ℤ} {ps : List ReadEnd} {q : ReadEnd} (hq : q ∈ closeLast fd ps) :
    ∃ p ∈ ps, p.fd = q.fd ∧ (q.closes = 0 → p.closes = 0) := by
  induction ps with
  | nil => exact absurd hq (by simp [closeLast])
  | cons p ps ih =>
    rw [closeLast] at hq
    split_ifs at hq
    · rcases List.mem_cons.mp hq with rfl | hq
      · exact ⟨p, List.mem_cons_self, rfl, by simp⟩
      · exact ⟨q, List.mem_cons_of_mem _ hq, rfl, id⟩
    · rcases List.mem_cons.mp hq with rfl | hq
      · exact ⟨q, List.mem_cons_self, rfl, id⟩
      · obtain ⟨p', hmem, hp'⟩ := ih hq
        exact ⟨p', List.mem_cons_of_mem _ hmem, hp'⟩

lemma LastOpen.closeLast {fd : ℤ} {ps : List ReadEnd} (h : LastOpen ps) :
    LastOpen (closeLast fd ps) := by
  induction ps with
  | nil => exact h
  | cons p ps ih =>
    obtain ⟨hhead, htail⟩ := List.pairwise_cons.mp h
    rw [Daemon.closeLast]
    split_ifs
    · exact List.pairwise_cons.mpr ⟨hhead, htail⟩
    · refine List.pairwise_cons.mpr ⟨fun q hq hfd hzero => ?_, ih htail⟩
      obtain ⟨p', hmem, hfd', hzero'⟩ := fd_mem_closeLast hq
      exact hhead p' hmem (hfd.trans hfd'.symm) (hzero' hzero)

/-! ## The invariant -/

namespace DaemonWorker

variable {w w' : DaemonWorker ι} {i : ι} {session : DaemonSession}

/-- The open read ends are the `readFd` of the sessions, one for each, and the entries of the
table are among them. -/
structure Booked (w : DaemonWorker ι) : Prop where
  entry : ∀ fd i, w.table.stdoutRedirectTasksMap fd = some i →
    (w.sessions i).readFd = fd ∧ 0 ≤ fd
  isOpen : ∀ i, 0 ≤ (w.sessions i).readFd →
    ∃ p ∈ w.table.readEnds, p.fd = (w.sessions i).readFd ∧ p.closes = 0
  neg : ∀ i, (w.sessions i).readFd < 0 → (w.sessions i).readFd = -1
  worker : ∀ i, 0 ≤ (w.sessions i).readFd → (w.sessions i).worker = true
  inj : ∀ i j, 0 ≤ (w.sessions i).readFd → (w.sessions i).readFd = (w.sessions j).readFd → i = j
  owned : ∀ p ∈ w.table.readEnds, p.closes = 0 → ∃ i, (w.sessions i).readFd = p.fd
  once : ∀ p ∈ w.table.readEnds, p.closes ≤ 1 ∧ 0 ≤ p.fd
  last : LastOpen w.table.readEnds

omit [DecidableEq ι] in
lemma Booked.tableAgrees (h : w.Booked) : w.TableAgrees := by
  refine ⟨fun fd i hentry => (h.entry fd i hentry).1.symm, fun p hp => ?_⟩
  obtain ⟨hle, hpos⟩ := h.once p hp
  by_cases hzero : p.closes = 0
  · obtain ⟨i, hi⟩ := h.owned p hp hzero
    refine .inl ⟨hzero, i, hi, fun j hj => ?_⟩
    exact (h.inj i j (by omega) (hi.trans hj.symm)).symm
  · right
    omega

lemma perform_eq_some {result : DaemonSession × List Effect} : w.perform i result = some w' ↔
    ∃ table, run (RedirectTable.apply i) w.table result.2 = some table ∧
      w' = { w with sessions := Function.update w.sessions i result.1, table := table } := by
  rw [perform, Option.map_eq_some_iff]
  simp only [eq_comm]

/-- Two groups of effects, one after the other. -/
lemma perform_append (s s' : DaemonSession) (xs ys : List Effect) :
    w.perform i (s', xs ++ ys) = (w.perform i (s, xs)).bind fun w => w.perform i (s', ys) := by
  simp only [perform, run_append]
  cases run (RedirectTable.apply i) w.table xs with
  | none => rfl
  | some table => simp [Function.update_idem]

/-- A session whose read end does not change. -/
lemma Booked.update (h : w.Booked) (hfd : session.readFd = (w.sessions i).readFd)
    (hworker : session.worker = (w.sessions i).worker) :
    Booked { w with sessions := Function.update w.sessions i session } := by
  have hfds : ∀ j, (Function.update w.sessions i session j).readFd = (w.sessions j).readFd := by
    intro j
    by_cases hj : j = i
    · subst hj
      simpa using hfd
    · simp [hj]
  have hworkers : ∀ j, (Function.update w.sessions i session j).worker = (w.sessions j).worker := by
    intro j
    by_cases hj : j = i
    · subst hj
      simpa using hworker
    · simp [hj]
  exact ⟨by simpa only [hfds] using h.entry, by simpa only [hfds] using h.isOpen,
    by simpa only [hfds] using h.neg, by simpa only [hfds, hworkers] using h.worker,
    by simpa only [hfds] using h.inj, by simpa only [hfds] using h.owned, h.once, h.last⟩

/-- A session that is reset closes its read end and takes its entry out. -/
lemma Booked.reset (h : w.Booked) (hpos : 0 < (w.sessions i).readFd) (hfd : session.readFd = -1) :
    Booked { w with
      sessions := Function.update w.sessions i session
      table := ⟨Function.update w.table.stdoutRedirectTasksMap (w.sessions i).readFd none,
        closeLast (w.sessions i).readFd w.table.readEnds⟩ } := by
  set fd := (w.sessions i).readFd with hfd'
  have hopen := h.isOpen i hpos.le
  have hother : ∀ j, 0 ≤ (Function.update w.sessions i session j).readFd → j ≠ i := by
    rintro j hj rfl
    simp [hfd] at hj
  have hsame : ∀ j, j ≠ i → Function.update w.sessions i session j = w.sessions j :=
    fun j hj => Function.update_of_ne hj _ _
  -- the other sessions have other read ends
  have hne : ∀ j, j ≠ i → (w.sessions j).readFd ≠ fd := by
    intro j hj heq
    exact hj (h.inj j i (by omega) heq)
  refine ⟨?_, ?_, ?_, ?_, ?_, ?_, ?_, h.last.closeLast⟩
  · intro fd' j hentry
    by_cases hcase : fd' = fd
    · simp [hcase] at hentry
    · obtain ⟨hj, hge⟩ := h.entry fd' j (by simpa [hcase] using hentry)
      have hji : j ≠ i := by
        rintro rfl
        exact hcase hj.symm
      exact ⟨by simpa only [hsame j hji] using hj, hge⟩
  · intro j hj
    have hji := hother j hj
    simp only [hsame j hji] at hj ⊢
    obtain ⟨p, hp, hpfd, hzero⟩ := h.isOpen j hj
    exact ⟨p, mem_closeLast_of_ne hp (by rw [hpfd]; exact hne j hji), hpfd, hzero⟩
  · intro j hj
    by_cases hji : j = i
    · subst hji
      simpa using hfd
    · simp only [hsame j hji] at hj ⊢
      exact h.neg j hj
  · intro j hj
    simp only [hsame j (hother j hj)] at hj ⊢
    exact h.worker j hj
  · intro j k hj heq
    have hk : k ≠ i := hother k (hj.trans_eq heq)
    simp only [hsame j (hother j hj), hsame k hk] at hj heq
    exact h.inj j k hj heq
  · intro p hp hzero
    rcases mem_closeLast h.last hopen hp with ⟨hmem, hclosed⟩ | rfl
    · obtain ⟨j, hj⟩ := h.owned p hmem hzero
      have hji : j ≠ i := by
        rintro rfl
        exact hclosed hj.symm hzero
      exact ⟨j, by simpa only [hsame j hji] using hj⟩
    · simp at hzero
  · intro p hp
    rcases mem_closeLast h.last hopen hp with ⟨hmem, -⟩ | rfl
    · exact h.once p hmem
    · exact ⟨le_rfl, hpos.le⟩

lemma Booked.resetBootStatus (h : w.Booked)
    (hfd : session.readFd = (w.sessions i).resetBootStatus.1.readFd)
    (hworker : session.worker = (w.sessions i).worker)
    (hstep : w.perform i (session, (w.sessions i).resetBootStatus.2) = some w') : w'.Booked := by
  obtain ⟨table, hrun, rfl⟩ := perform_eq_some.mp hstep
  by_cases hpos : (w.sessions i).readFd > 0
  · simp only [DaemonSession.resetBootStatus, if_pos hpos, h.worker i (by omega),
      if_true] at hrun hfd
    obtain rfl := Option.some.inj hrun
    exact h.reset hpos hfd
  · simp only [DaemonSession.resetBootStatus, if_neg hpos] at hrun hfd
    obtain rfl := Option.some.inj hrun
    exact h.update hfd hworker

omit [DecidableEq ι] in
/-- A number that is not open is nobody's read end. -/
lemma Booked.readFd_ne (h : w.Booked) {fd : ℤ} (hge : 0 ≤ fd)
    (hfresh : ∀ p ∈ w.table.readEnds, p.fd = fd → p.closes ≠ 0) (j : ι) :
    (w.sessions j).readFd ≠ fd := by
  intro hj
  obtain ⟨p, hp, hpfd, hzero⟩ := h.isOpen j (by omega)
  exact hfresh p hp (hpfd.trans hj) hzero

omit [DecidableEq ι] in
/-- The number of nobody's read end has no entry. -/
lemma Booked.entry_eq_none (h : w.Booked) {fd : ℤ} (hunused : ∀ j, (w.sessions j).readFd ≠ fd) :
    w.table.stdoutRedirectTasksMap fd = none := by
  cases hentry : w.table.stdoutRedirectTasksMap fd with
  | none => rfl
  | some j => exact absurd (h.entry fd j hentry).1 (hunused j)

/-- A new pipe for a session without one. -/
lemma Booked.publish (h : w.Booked) {fd : ℤ} (hge : 0 ≤ fd)
    (hfresh : ∀ p ∈ w.table.readEnds, p.fd = fd → p.closes ≠ 0)
    (hnone : (w.sessions i).readFd = -1) (hfd : session.readFd = fd)
    (hworker : session.worker = true) :
    Booked { w with
      sessions := Function.update w.sessions i session
      table := ⟨if (w.table.stdoutRedirectTasksMap fd).isSome then w.table.stdoutRedirectTasksMap
        else Function.update w.table.stdoutRedirectTasksMap fd (some i),
        ⟨fd, 0⟩ :: w.table.readEnds⟩ } := by
  have hsame : ∀ j, j ≠ i → Function.update w.sessions i session j = w.sessions j :=
    fun j hj => Function.update_of_ne hj _ _
  have hunused := h.readFd_ne hge hfresh
  simp only [h.entry_eq_none hunused, Option.isSome_none, Bool.false_eq_true, if_false]
  refine ⟨?_, ?_, ?_, ?_, ?_, ?_, ?_, ?_⟩
  · intro fd' j hentry
    by_cases hcase : fd' = fd
    · subst hcase
      obtain rfl : i = j := by simpa using hentry
      exact ⟨by simpa using hfd, hge⟩
    · obtain ⟨hj, hge'⟩ := h.entry fd' j (by simpa [hcase] using hentry)
      have hji : j ≠ i := by
        rintro rfl
        omega
      exact ⟨by simpa only [hsame j hji] using hj, hge'⟩
  · intro j hj
    by_cases hji : j = i
    · subst hji
      exact ⟨⟨fd, 0⟩, List.mem_cons_self, by simp [hfd], rfl⟩
    · simp only [hsame j hji] at hj ⊢
      obtain ⟨p, hp, hp'⟩ := h.isOpen j hj
      exact ⟨p, List.mem_cons_of_mem _ hp, hp'⟩
  · intro j hj
    by_cases hji : j = i
    · subst hji
      simp only [Function.update_self] at hj
      omega
    · simp only [hsame j hji] at hj ⊢
      exact h.neg j hj
  · intro j hj
    by_cases hji : j = i
    · subst hji
      simpa using hworker
    · simp only [hsame j hji] at hj ⊢
      exact h.worker j hj
  · intro j k hj heq
    by_cases hji : j = i <;> by_cases hki : k = i
    · rw [hji, hki]
    · subst hji
      simp only [Function.update_self, hsame k hki, hfd] at heq
      exact absurd heq.symm (hunused k)
    · subst hki
      simp only [Function.update_self, hsame j hji, hfd] at heq
      exact absurd heq (hunused j)
    · simp only [hsame j hji, hsame k hki] at hj heq
      exact h.inj j k hj heq
  · intro p hp hzero
    rcases List.mem_cons.mp hp with rfl | hmem
    · exact ⟨i, by simp [hfd]⟩
    · obtain ⟨j, hj⟩ := h.owned p hmem hzero
      have hji : j ≠ i := by
        rintro rfl
        have := (h.once p hmem).2
        omega
      exact ⟨j, by simpa only [hsame j hji] using hj⟩
  · intro p hp
    rcases List.mem_cons.mp hp with rfl | hp
    · exact ⟨by simp, hge⟩
    · exact h.once p hp
  · exact List.pairwise_cons.mpr ⟨fun p hp hpfd => hfresh p hp hpfd.symm, h.last⟩

omit [DecidableEq ι] in
/-- The effects of `exec` without a pipe. -/
lemma run_exec_none {s : DaemonSession} {r : ExecResult} (t : RedirectTable ι)
    (h : s.worker = false ∨ r.pipe = none) :
    run (RedirectTable.apply i) t (s.exec r).2.2 = some t ∧ (s.exec r).1 = s := by
  have hpipe : (if s.worker then r.pipe else none) = none := by
    rcases h with h | h <;> simp [h]
  simp only [DaemonSession.exec, hpipe]
  refine ⟨?_, by simp⟩
  by_cases hfork : r.fork > 0
  · simp [hfork, run_cons, RedirectTable.apply]
  · simp [hfork, run_cons, RedirectTable.apply]

omit [DecidableEq ι] in
/-- The effects of `exec` with a pipe. -/
lemma run_exec_some {s : DaemonSession} {r : ExecResult} {t t' : RedirectTable ι} {fd fd' : ℤ}
    (hworker : s.worker = true) (hpipe : r.pipe = some (fd, fd')) (hpos : 0 < fd')
    (hrun : run (RedirectTable.apply i) t (s.exec r).2.2 = some t') :
    (0 ≤ fd ∧ ∀ p ∈ t.readEnds, p.fd = fd → p.closes ≠ 0) ∧
      t' = ⟨if (t.stdoutRedirectTasksMap fd).isSome then t.stdoutRedirectTasksMap
        else Function.update t.stdoutRedirectTasksMap fd (some i), ⟨fd, 0⟩ :: t.readEnds⟩ ∧
      (s.exec r).1 = { s with readFd := fd } := by
  simp only [DaemonSession.exec, hworker, hpipe, if_true, Option.getD_some, Option.isSome_some,
    if_pos hpos, List.cons_append, run_cons, Option.bind_eq_some_iff] at hrun
  obtain ⟨t₁, h₁, t₂, h₂, hrest⟩ := hrun
  obtain rfl := Option.some.inj h₁
  simp only [RedirectTable.apply] at h₂
  split_ifs at h₂ with hfresh
  obtain rfl := Option.some.inj h₂
  refine ⟨hfresh, ?_, ?_⟩
  · by_cases hfork : r.fork > 0
    · simp only [if_pos hfork] at hrest
      exact (Option.some.inj hrest).symm
    · simp only [if_neg hfork] at hrest
      exact (Option.some.inj hrest).symm
  · simp [DaemonSession.exec, hworker, hpipe, hpos]

lemma Booked.exec (h : w.Booked) {r : ExecResult} (hends : PipeEnds r)
    (hok : (w.sessions i).NoPipe r) (hfd : session.readFd = ((w.sessions i).exec r).1.readFd)
    (hworker : session.worker = (w.sessions i).worker)
    (hstep : w.perform i (session, ((w.sessions i).exec r).2.2) = some w') : w'.Booked := by
  obtain ⟨table, hrun, rfl⟩ := perform_eq_some.mp hstep
  by_cases hpipe : (w.sessions i).worker = false ∨ r.pipe = none
  · obtain ⟨hrun', hsame⟩ := run_exec_none (i := i) w.table hpipe
    obtain rfl := Option.some.inj (hrun'.symm.trans hrun)
    rw [hsame] at hfd
    exact h.update hfd hworker
  · rw [not_or, Bool.not_eq_false] at hpipe
    obtain ⟨⟨fd, fd'⟩, hsome⟩ := Option.ne_none_iff_exists'.mp hpipe.2
    obtain ⟨hge, hlt⟩ := hends _ hsome
    obtain ⟨⟨-, hfresh⟩, rfl, hexec⟩ := run_exec_some hpipe.1 hsome (hge.trans_lt hlt) hrun
    rw [hexec] at hfd
    exact h.publish hge hfresh (hok hpipe.1 (by simp [hsome])) hfd (hworker.trans hpipe.1)

/-- **A second pipe.** The read end that a session had is neither closed nor anybody's. -/
lemma Booked.not_tableAgrees (h : w.Booked) {r : ExecResult} (hends : PipeEnds r)
    (hbad : ¬ (w.sessions i).NoPipe r) (hfd : session.readFd = ((w.sessions i).exec r).1.readFd)
    (hstep : w.perform i (session, ((w.sessions i).exec r).2.2) = some w') :
    ¬ w'.TableAgrees := by
  obtain ⟨table, hrun, rfl⟩ := perform_eq_some.mp hstep
  simp only [DaemonSession.NoPipe, not_forall] at hbad
  obtain ⟨hworker, hsome, hhas⟩ := hbad
  obtain ⟨⟨fd, fd'⟩, hpipe⟩ := Option.isSome_iff_exists.mp hsome
  obtain ⟨hge, hlt⟩ := hends _ hpipe
  obtain ⟨⟨-, hfresh⟩, rfl, hexec⟩ := run_exec_some hworker hpipe (hge.trans_lt hlt) hrun
  rw [hexec] at hfd
  have hold : 0 ≤ (w.sessions i).readFd := by
    by_contra hneg
    exact hhas (h.neg i (by omega))
  obtain ⟨p, hp, hpfd, hzero⟩ := h.isOpen i hold
  rintro ⟨-, hends'⟩
  rcases hends' p (List.mem_cons_of_mem _ hp) with ⟨-, j, hj, -⟩ | hone
  · by_cases hji : j = i
    · subst hji
      simp only [Function.update_self, hfd] at hj
      exact hfresh p hp hj.symm hzero
    · simp only [Function.update_of_ne hji, hpfd] at hj
      exact hji (h.inj i j hold hj.symm).symm
  · omega

/-! ## The operations -/

/-- The second part of `check`, when it starts the program: what `exec` does to the read end. -/
lemma checkStart_boots {s : DaemonSession} {r : CheckResult} (h : s.Boots r) :
    (s.checkStart r).2 = (s.exec r.exec).2.2 ∧
      (s.checkStart r).1.readFd = (s.exec r.exec).1.readFd ∧
      (s.checkStart r).1.worker = s.worker := by
  have hboot : s.status = .waitStarted ∧ s.nextBootTime ≠ 0 ∧ r.nowClock ≥ s.nextBootTime := h
  simp only [DaemonSession.checkStart, if_pos hboot]
  split_ifs
  · simp
  · simp [DaemonSession.setRunningStatus]

lemma checkStart_not_boots {s : DaemonSession} {r : CheckResult} (h : ¬ s.Boots r) :
    s.checkStart r = (s, []) := if_neg h

lemma perform_nil (session : DaemonSession) :
    w.perform i (session, []) =
      some { w with sessions := Function.update w.sessions i session } := rfl

lemma perform_reaped (session : DaemonSession) (pid : ℤ) (effects : List Effect) :
    w.perform i (session, .reaped pid :: effects) = w.perform i (session, effects) := rfl

lemma Booked.releaseProcess (h : w.Booked) {r : ReleaseResult}
    (hfd : session.readFd = (w.sessions i).resetBootStatus.1.readFd)
    (hworker : session.worker = (w.sessions i).worker)
    (hstep : w.perform i (session, ((w.sessions i).releaseProcess r).2) = some w') :
    w'.Booked := by
  simp only [DaemonSession.releaseProcess] at hstep
  split_ifs at hstep
  · rw [List.singleton_append, perform_reaped] at hstep
    exact h.resetBootStatus hfd hworker hstep
  · rw [List.nil_append] at hstep
    exact h.resetBootStatus hfd hworker hstep

lemma checkExited_readFd (s : DaemonSession) (r : CheckResult) :
    (s.checkExited r).1.readFd = s.resetBootStatus.1.readFd ∧
      (s.checkExited r).1.worker = s.worker ∧ (s.checkExited r).2 = s.resetBootStatus.2 := by
  simp only [DaemonSession.checkExited]
  split_ifs <;> exact ⟨rfl, rfl, rfl⟩

/-- `check` in two steps, the second of which is the start of the program. -/
lemma Booked.check (h : w.Booked) {r : CheckResult}
    (hstep : w.perform i ((w.sessions i).check r) = some w') :
    ∃ w₁ : DaemonWorker ι, w₁.Booked ∧ w₁.sessions i = (w.sessions i).beforeStart r ∧
      w₁.perform i ((w₁.sessions i).checkStart r) = some w' := by
  by_cases hend : (w.sessions i).status = .running ∧ r.wait = (w.sessions i).pid
  · have hbefore : (w.sessions i).beforeStart r = ((w.sessions i).checkExited r).1 := if_pos hend
    obtain ⟨hfd, hworker, heffects⟩ := checkExited_readFd (w.sessions i) r
    simp only [DaemonSession.check, if_pos hend] at hstep
    rw [perform_append ((w.sessions i).checkExited r).1, Option.bind_eq_some_iff] at hstep
    obtain ⟨w₁, hw₁, hstep⟩ := hstep
    rw [perform_reaped, heffects] at hw₁
    have hsession : w₁.sessions i = ((w.sessions i).checkExited r).1 := by
      obtain ⟨table, -, rfl⟩ := perform_eq_some.mp hw₁
      simp
    refine ⟨w₁, h.resetBootStatus hfd hworker hw₁, hsession.trans hbefore.symm, ?_⟩
    rw [hsession]
    exact hstep
  · refine ⟨w, h, (if_neg hend).symm, ?_⟩
    simpa only [DaemonSession.check, if_neg hend, List.nil_append] using hstep

/-- **One step.** -/
lemma Booked.next {a : WorkerAction ι} (h : w.Booked) (hok : w.NoSecondPipe a)
    (hstep : w.step a = some w') : w'.Booked := by
  cases a with
  | start i clock =>
    obtain rfl := Option.some.inj hstep
    exact h.update (by simp) (by simp)
  | stop i r => exact h.releaseProcess rfl rfl hstep
  | restart i r clock =>
    refine h.releaseProcess ?_ ?_ hstep
    · exact DaemonSession.start_readFd _ _
    · exact DaemonSession.start_worker _ _
  | check i r =>
    simp only [step] at hstep
    split_ifs at hstep with hends
    obtain ⟨w₁, hw₁, hsession, hstep⟩ := h.check hstep
    by_cases hboots : (w₁.sessions i).Boots r
    · obtain ⟨heffects, hfd, hworker⟩ := checkStart_boots hboots
      have hnopipe := hok (hsession ▸ hboots)
      rw [← hsession] at hnopipe
      refine hw₁.exec hends hnopipe hfd hworker ?_
      rw [← heffects]
      exact hstep
    · rw [checkStart_not_boots hboots, perform_nil] at hstep
      obtain rfl := Option.some.inj hstep
      exact hw₁.update rfl rfl
  | exec i r =>
    simp only [step] at hstep
    split_ifs at hstep with hends
    exact h.exec hends hok rfl (DaemonSession.exec_worker _ _) hstep
  | copyTasks =>
    obtain rfl := Option.some.inj hstep
    exact ⟨h.entry, h.isOpen, h.neg, h.worker, h.inj, h.owned, h.once, h.last⟩
  | handleStdoutRedirectTask fd readSome =>
    obtain ⟨i, -, rfl⟩ := Option.map_eq_some_iff.mp hstep
    split_ifs
    · exact ⟨h.entry, h.isOpen, h.neg, h.worker, h.inj, h.owned, h.once, h.last⟩
    · exact h
  | eraseTasks =>
    obtain rfl := Option.some.inj hstep
    refine ⟨fun fd i hentry => ?_, h.isOpen, h.neg, h.worker, h.inj, h.owned, h.once, h.last⟩
    simp only at hentry
    split_ifs at hentry
    exact h.entry fd i hentry

/-- A step against the condition leaves a read end open that is nobody's. -/
lemma Booked.not_next {a : WorkerAction ι} (h : w.Booked) (hbad : ¬ w.NoSecondPipe a)
    (hstep : w.step a = some w') : ¬ w'.TableAgrees := by
  cases a with
  | check i r =>
    simp only [step] at hstep
    split_ifs at hstep with hends
    obtain ⟨w₁, hw₁, hsession, hstep⟩ := h.check hstep
    simp only [NoSecondPipe, not_forall, ← hsession] at hbad
    obtain ⟨hboots, hbad⟩ := hbad
    obtain ⟨heffects, hfd, -⟩ := checkStart_boots hboots
    refine hw₁.not_tableAgrees hends hbad hfd ?_
    rw [← heffects]
    exact hstep
  | exec i r =>
    simp only [step] at hstep
    split_ifs at hstep with hends
    exact h.not_tableAgrees hends hbad rfl hstep
  | _ => exact absurd trivial hbad

omit [DecidableEq ι] in
lemma Booked.initial (worker : ι → Bool) : (DaemonWorker.initial worker).Booked := by
  refine ⟨?_, ?_, ?_, ?_, ?_, ?_, ?_, List.Pairwise.nil⟩ <;>
    simp [DaemonWorker.initial, DaemonSession.new]

end DaemonWorker

/-- **The table and the descriptors.** In every possible run of any number of sessions and of the
redirect thread, the entries of the table and the read ends agree with the sessions in every
state, if and only if no step comes to an `exec` with a pipe in a session that has one. -/
theorem redirect_table_iff (worker : ι → Bool) (as : List (WorkerAction ι)) (w : DaemonWorker ι)
    (hrun : run DaemonWorker.step (.initial worker) as = some w) :
    AllStates DaemonWorker.step DaemonWorker.TableAgrees (.initial worker) as ↔
      AllSteps DaemonWorker.step DaemonWorker.NoSecondPipe (.initial worker) as :=
  allStates_iff_allSteps (fun _ _ _ hw hok hstep => hw.next hok hstep)
    (fun _ _ _ hw hbad hstep => hw.not_next hbad hstep) (fun _ hw => hw.tableAgrees)
    (DaemonWorker.Booked.initial worker) hrun

/-- One session that runs once, with a pass of the redirect thread. -/
def oneRunActions : List (WorkerAction Unit) :=
  [.start () 1, .check () ⟨0, 1, 1, 1, ⟨some (5, 6), 100⟩⟩, .copyTasks,
    .handleStdoutRedirectTask 5 true, .eraseTasks, .stop () ⟨0, [100]⟩]

theorem redirect_table_iff_oneRun :
    AllStates DaemonWorker.step DaemonWorker.TableAgrees (.initial fun _ => true) oneRunActions ↔
      AllSteps DaemonWorker.step DaemonWorker.NoSecondPipe (.initial fun _ => true)
        oneRunActions :=
  redirect_table_iff (fun _ => true) oneRunActions _ rfl

/-- The fork fails once.  The read end 5 is then not closed when the session ends, and the table
still has it. -/
theorem redirect_table_leaks :
    ∃ w, run DaemonWorker.step (.initial fun _ : Unit => true)
        [.start () 1, .check () ⟨0, 1, 1, 1, ⟨some (5, 6), -1⟩⟩,
          .check () ⟨0, 6, 6, 6, ⟨some (7, 8), 100⟩⟩, .stop () ⟨0, [100]⟩] = some w ∧
      w.table.stdoutRedirectTasksMap 5 = some () ∧ (w.sessions ()).readFd = -1 ∧
      w.table.readEnds = [⟨7, 1⟩, ⟨5, 0⟩] ∧ ¬ w.TableAgrees :=
  ⟨_, rfl, rfl, rfl, rfl, fun h => absurd (h.1 5 () rfl) (by decide)⟩

end SignalEventLoop.Daemon
