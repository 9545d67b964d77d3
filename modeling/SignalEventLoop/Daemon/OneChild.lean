/-
# One child per session

A child is unreaped from its `fork` until a `waitpid` returns it.  A session that is running has
exactly one unreaped child, the process `pid`, and every other session has none, provided that
two things do not happen.  `releaseProcess` gives the session free even when the child does not
end: `kill` fails, or none of the 50 calls of `waitpid` returns it.  And `loadConfig` with
`autoStart` does not look at the status at all.  In both cases the next `check` starts a second
copy of the program.
-/
import SignalEventLoop.Lib.Run
import SignalEventLoop.Daemon.DaemonSession

namespace SignalEventLoop.Daemon

open Lib

/-! ## Children -/

/-- The children of a session: those that are unreaped, and whether `exec()` was ever called
while there was one. -/
structure Children where
  unreaped : List ℤ
  overlapped : Bool
deriving DecidableEq

/-- A `waitpid` can only return a child that is unreaped, and a `fork` does not return the pid of
one. -/
def Children.apply (c : Children) : Effect → Option Children
  | .reaped pid =>
    if pid ∈ c.unreaped then some { c with unreaped := c.unreaped.erase pid } else none
  | .execCalled => some { c with overlapped := c.overlapped || !c.unreaped.isEmpty }
  | .forked pid =>
    if pid ∈ c.unreaped then none else some { c with unreaped := pid :: c.unreaped }
  | _ => some c

/-- A session with its children. -/
structure Family where
  session : DaemonSession
  children : Children
deriving DecidableEq

inductive SessionAction where
  | start (clock : ℤ)
  | stop (r : ReleaseResult)
  | restart (r : ReleaseResult) (clock : ℤ)
  | check (r : CheckResult)
  | loadConfig (config : Option DaemonConfig) (clock : ℤ)

/-- The session behind an operation, and the effects of the operation. -/
def SessionAction.perform (s : DaemonSession) : SessionAction → DaemonSession × List Effect
  | start clock => (s.start clock, [])
  | stop r => s.stop r
  | restart r clock => s.restart r clock
  | check r => s.check r
  | loadConfig config clock => (s.loadConfig config clock, [])

def Family.step (f : Family) (a : SessionAction) : Option Family :=
  (run Children.apply f.children (a.perform f.session).2).map fun children =>
    ⟨(a.perform f.session).1, children⟩

/-- A new session. -/
def Family.initial (worker : Bool) : Family := ⟨.new worker, [], false⟩

/-- `exec()` was never called while a child was unreaped, and the session is running exactly when
`pid` is an unreaped child. -/
def Family.OneChild (f : Family) : Prop :=
  f.children.overlapped = false ∧
    (f.session.status = .running ↔ f.session.pid ∈ f.children.unreaped)

/-- A running program is stopped with success, and no file with `autoStart` is loaded meanwhile. -/
def Family.Orderly (f : Family) : SessionAction → Prop
  | .stop r | .restart r _ => f.session.status = .running →
      r.kill = 0 ∧ DaemonSession.waitLoop f.session.pid 50 r.waits = true
  | .loadConfig (some c) _ => c.autoStart = true → f.session.status ≠ .running
  | _ => True

/-! ## The invariant -/

/-- A running session has its process as the only child, every other one has no child. -/
structure Family.Single (f : Family) : Prop where
  overlapped : f.children.overlapped = false
  running : f.session.status = .running → f.children.unreaped = [f.session.pid]
  idle : f.session.status ≠ .running → f.children.unreaped = []

variable {f f' : Family}

lemma Family.Single.oneChild (h : f.Single) : f.OneChild := by
  refine ⟨h.overlapped, ?_⟩
  by_cases hs : f.session.status = .running
  · simp [hs, h.running hs]
  · simp [hs, h.idle hs]

lemma Family.step_eq_some {a : SessionAction} : f.step a = some f' ↔
    ∃ children, run Children.apply f.children (a.perform f.session).2 = some children ∧
      f' = ⟨(a.perform f.session).1, children⟩ := by
  rw [Family.step, Option.map_eq_some_iff]
  simp only [eq_comm]

/-- Descriptors do not matter to the children. -/
lemma run_resetBootStatus (s : DaemonSession) (c : Children) :
    run Children.apply c s.resetBootStatus.2 = some c := by
  simp only [DaemonSession.resetBootStatus]
  split_ifs <;> rfl

lemma run_reaped_only (c : Children) (pid : ℤ) (effects : List Effect)
    (h : c.unreaped = [pid]) :
    run Children.apply c (.reaped pid :: effects) =
      run Children.apply { c with unreaped := [] } effects := by
  rw [run_cons, Children.apply, if_pos (by simp [h])]
  simp [h]

/-- A program that is stopped with success leaves no child. -/
lemma Family.Single.releaseProcess (h : f.Single) {r : ReleaseResult}
    (hok : f.session.status = .running →
      r.kill = 0 ∧ DaemonSession.waitLoop f.session.pid 50 r.waits = true) :
    run Children.apply f.children (f.session.releaseProcess r).2 =
      some { f.children with unreaped := [] } := by
  simp only [DaemonSession.releaseProcess]
  by_cases hs : f.session.status = .running
  · rw [if_pos ⟨hs, hok hs⟩, List.singleton_append, run_reaped_only _ _ _ (h.running hs),
      run_resetBootStatus]
  · rw [if_neg (fun hc => hs hc.1), List.nil_append, run_resetBootStatus]
    congr 1
    rw [← h.idle hs]

/-- `exec` in a session without a child. -/
lemma run_exec (s : DaemonSession) (r : ExecResult) {c : Children} (h : c.unreaped = []) :
    run Children.apply c (s.exec r).2.2 =
      some { c with unreaped := if r.fork > 0 then [r.fork] else [] } := by
  have hcall : Children.apply c .execCalled = some c := by
    obtain ⟨unreaped, overlapped⟩ := c
    obtain rfl : unreaped = [] := h
    simp [Children.apply]
  have hopened : ∀ (p : Option (ℤ × ℤ)) (fd : ℤ),
      run Children.apply c (if p.isSome then [.pipeOpened fd] else []) = some c := by
    intro p fd
    split_ifs <;> rfl
  have hforked : run Children.apply c (if r.fork > 0 then [.forked r.fork] else []) =
      some { c with unreaped := if r.fork > 0 then [r.fork] else [] } := by
    split_ifs with hpos
    · rw [run_cons, Children.apply, if_neg (by simp [h]), h]
      rfl
    · rw [run_nil, ← h]
  have hadded : ∀ (p : Prop) [Decidable p] (fd : ℤ) (c : Children),
      run Children.apply c (if p then [.addStdoutRedirectTask fd] else []) = some c := by
    intro p _ fd c
    split_ifs <;> rfl
  simp only [DaemonSession.exec, run_cons, hcall, Option.bind_some, run_append, hopened, hforked,
    hadded]

/-- The second part of `check` in a session without a child. -/
lemma Family.Single.checkStart (h : f.Single) (hidle : f.session.status ≠ .running)
    (r : CheckResult) :
    ∃ children, run Children.apply f.children (f.session.checkStart r).2 = some children ∧
      Family.Single ⟨(f.session.checkStart r).1, children⟩ := by
  have hnone := h.idle hidle
  have hstatus := f.session.exec_status r.exec
  have hrun := run_exec f.session r.exec hnone
  simp only [DaemonSession.checkStart]
  split_ifs with hboot hfail
  · rw [DaemonSession.exec_fork] at hfail
    refine ⟨_, hrun, h.overlapped, fun hc => absurd (hstatus.symm.trans hc) hidle, fun _ => ?_⟩
    simp [hfail]
  · rw [DaemonSession.exec_fork] at hfail
    refine ⟨_, hrun, h.overlapped, fun _ => ?_, fun hc => absurd rfl hc⟩
    simp [lt_of_not_ge hfail, DaemonSession.setRunningStatus]
  · exact ⟨f.children, rfl, h⟩

lemma checkExited_effects (s : DaemonSession) (r : CheckResult) :
    (s.checkExited r).2 = s.resetBootStatus.2 := by
  simp only [DaemonSession.checkExited]
  split_ifs <;> rfl

lemma checkExited_status (s : DaemonSession) (r : CheckResult) :
    (s.checkExited r).1.status ≠ .running := by
  simp only [DaemonSession.checkExited, DaemonSession.resetBootStatus]
  split_ifs <;> simp

lemma Family.Single.check (h : f.Single) (r : CheckResult) :
    ∃ children, run Children.apply f.children (f.session.check r).2 = some children ∧
      Family.Single ⟨(f.session.check r).1, children⟩ := by
  by_cases hend : f.session.status = .running ∧ r.wait = f.session.pid
  · have hidle := checkExited_status f.session r
    have hsingle :
        Family.Single ⟨(f.session.checkExited r).1, { f.children with unreaped := [] }⟩ :=
      ⟨h.overlapped, fun hc => absurd hc hidle, fun _ => rfl⟩
    obtain ⟨children, hrun, hchildren⟩ := hsingle.checkStart hidle r
    simp only [DaemonSession.check, if_pos hend]
    refine ⟨children, ?_, hchildren⟩
    rw [run_append, run_reaped_only _ _ _ (h.running hend.1), checkExited_effects,
      run_resetBootStatus, Option.bind_some]
    exact hrun
  · simp only [DaemonSession.check, if_neg hend, List.nil_append]
    by_cases hs : f.session.status = .running
    · refine ⟨f.children, ?_, ?_⟩
      · simp [DaemonSession.checkStart, hs]
      · simpa [DaemonSession.checkStart, hs] using h
    · exact h.checkStart hs r

/-- **One operation.** -/
lemma Family.Single.step {a : SessionAction} (h : f.Single) (hok : f.Orderly a)
    (hstep : f.step a = some f') : f'.Single := by
  obtain ⟨children, hrun, rfl⟩ := Family.step_eq_some.mp hstep
  cases a with
  | start clock =>
    obtain rfl := Option.some.inj hrun
    refine ⟨h.overlapped, fun hs => ?_, fun hs => ?_⟩
    · rw [h.running ((DaemonSession.start_running _ _).mp hs)]
      exact congrArg (fun pid => [pid]) (DaemonSession.start_pid _ _).symm
    · exact h.idle fun hc => hs ((DaemonSession.start_running _ _).mpr hc)
  | stop r =>
    have hrelease := h.releaseProcess hok
    obtain rfl := Option.some.inj (hrelease.symm.trans hrun)
    refine ⟨h.overlapped, fun hs => absurd hs ?_, fun _ => rfl⟩
    exact fun hc => absurd hc (by decide : DaemonSessionStatus.exited ≠ .running)
  | restart r clock =>
    have hrelease := h.releaseProcess hok
    obtain rfl := Option.some.inj (hrelease.symm.trans hrun)
    refine ⟨h.overlapped, fun hs => absurd ((DaemonSession.start_running _ _).mp hs) ?_,
      fun _ => rfl⟩
    exact fun hc => absurd hc (by decide : DaemonSessionStatus.exited ≠ .running)
  | check r =>
    obtain ⟨children', hrun', hchildren⟩ := h.check r
    obtain rfl := Option.some.inj (hrun'.symm.trans hrun)
    exact hchildren
  | loadConfig config clock =>
    obtain rfl := Option.some.inj hrun
    cases config with
    | none => exact h
    | some c =>
      by_cases hauto : c.autoStart = true
      · have hidle := hok hauto
        refine ⟨h.overlapped, fun hs => ?_, fun _ => h.idle hidle⟩
        simp [SessionAction.perform, DaemonSession.loadConfig, hauto] at hs
      · refine ⟨h.overlapped, fun hs => ?_, fun hs => ?_⟩
        · simp only [SessionAction.perform, DaemonSession.loadConfig, if_neg hauto] at hs ⊢
          exact h.running hs
        · simp only [SessionAction.perform, DaemonSession.loadConfig, if_neg hauto] at hs
          exact h.idle hs

/-! ## Runs -/

/-- **One child.** In every run in which a running program is stopped with success, and no file
with `autoStart` is loaded while it runs, there is never a second child. -/
theorem one_child_of_orderly (worker : Bool) (as : List SessionAction)
    (h : AllSteps Family.step Family.Orderly (.initial worker) as) :
    AllStates Family.step Family.OneChild (.initial worker) as :=
  allStates_of_allSteps (fun _ _ _ hs hok hstep => hs.step hok hstep) (fun _ hs => hs.oneChild)
    (⟨rfl, by simp [Family.initial, DaemonSession.new], fun _ => rfl⟩ :
      (Family.initial worker).Single) h

/-- The condition is needed: a restart that does not get hold of the running program is followed by
a second `exec()` while the first child is still there. -/
theorem overlapped_of_restart (h : f.Single) (hs : f.session.status = .running)
    {r : ReleaseResult}
    (hr : ¬ (r.kill = 0 ∧ DaemonSession.waitLoop f.session.pid 50 r.waits = true)) :
    ∃ f', run Family.step f [.restart r 1, .check ⟨0, 1, 1, 1, ⟨none, -1⟩⟩] = some f' ∧
      f'.children.overlapped = true := by
  have hkeeps : run Children.apply f.children (f.session.releaseProcess r).2 =
      some f.children := by
    simp only [DaemonSession.releaseProcess]
    rw [if_neg (fun hc => hr hc.2), List.nil_append, run_resetBootStatus]
  have hrestart : f.step (.restart r 1) =
      some ⟨(f.session.restart r 1).1, f.children⟩ :=
    Family.step_eq_some.mpr ⟨_, hkeeps, rfl⟩
  have hstatus : (f.session.restart r 1).1.status = .waitStarted := rfl
  have hboot : (f.session.restart r 1).1.nextBootTime = 1 := rfl
  refine ⟨_, run_cons_eq_some.mpr ⟨_, hrestart, run_cons_eq_some.mpr ⟨_,
    Family.step_eq_some.mpr ⟨⟨f.children.unreaped, true⟩, ?_, rfl⟩, rfl⟩⟩, rfl⟩
  simp [SessionAction.perform, DaemonSession.check, DaemonSession.checkStart, hstatus, hboot,
    DaemonSession.exec, run_cons, Children.apply, h.running hs]

/-- The program is started, does not end when it is told to, and is started again. -/
theorem two_children :
    ∃ f', run Family.step (.initial false) [.start 1, .check ⟨0, 1, 1, 1, ⟨none, 100⟩⟩,
        .restart ⟨0, []⟩ 2, .check ⟨0, 2, 2, 2, ⟨none, 101⟩⟩] = some f' ∧
      f'.children = ⟨[101, 100], true⟩ ∧ ¬ f'.OneChild :=
  ⟨_, rfl, by decide, fun h => absurd h.1 (by decide)⟩

/-- A program that is started, stopped with success and started again. -/
theorem one_child_of_orderly_restart :
    AllStates Family.step Family.OneChild (.initial true)
      [.start 1, .check ⟨0, 1, 1, 1, ⟨some (5, 6), 100⟩⟩, .restart ⟨0, [0, 100]⟩ 2,
        .check ⟨0, 2, 2, 2, ⟨some (5, 6), 101⟩⟩] :=
  one_child_of_orderly true _ (by
    refine ⟨trivial, fun s hs => ?_⟩
    obtain rfl := Option.some.inj hs
    refine ⟨trivial, fun s hs => ?_⟩
    obtain rfl := Option.some.inj hs
    refine ⟨fun _ => by decide, fun s hs => ?_⟩
    obtain rfl := Option.some.inj hs
    exact ⟨trivial, fun _ _ => trivial⟩)

end SignalEventLoop.Daemon
