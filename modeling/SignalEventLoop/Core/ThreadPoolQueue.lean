/-
# The queue of delayed tasks of the thread pool

`ThreadPool::schedule` inserts entries with a time under `mTasksMutex`, and workers take them
in `ThreadPool::dequeue`: under the mutex a worker takes the earliest entry when it is due,
leaves when `mJoining` is set, and waits otherwise.  `join` sets `mJoining` without the mutex.
A wait may end at any time, by a notification, by its timeout or for no reason, so a worker
that waits can always try to lock the mutex again.

`mTasks` is a `std::priority_queue` on the time.  Of its order only this is promised: no entry
has an earlier time than the one at the top; which of several earliest entries stands there
is left open.  Any interleaving of the steps below is a run.
-/
import SignalEventLoop.Lib.Threads

namespace SignalEventLoop.Core

/-- `ThreadPool::Task`; the function is named by the number of its insertion. -/
structure DelayedTask where
  func : ℕ
  time : ℤ
deriving DecidableEq

/-- The entry that `mTasks.top()` gives: none has an earlier time. -/
def IsTop (top : DelayedTask) (mTasks : List DelayedTask) : Prop :=
  top ∈ mTasks ∧ ∀ task ∈ mTasks, top.time ≤ task.time

instance decidableIsTop (top : DelayedTask) (mTasks : List DelayedTask) :
    Decidable (IsTop top mTasks) :=
  inferInstanceAs (Decidable (_ ∧ _))

/-- An entry that `dequeue` returned, with the clock it read and the entries it found. -/
structure Taken where
  task : DelayedTask
  now : ℤ
  present : List DelayedTask

/-- A return of the null function: the clock that was read, when there was an entry, and the
entries at that time. -/
structure NullReturn where
  now : Option ℤ
  present : List DelayedTask

/-- None of the entries is due; without a clock reading there is no entry. -/
def NotDue (now : Option ℤ) (tasks : List DelayedTask) : Prop :=
  ∀ task ∈ tasks, ∃ t, now = some t ∧ t < task.time

lemma NotDue.mono {now : Option ℤ} {tasks tasks' : List DelayedTask} (h : NotDue now tasks)
    (hsub : tasks' ⊆ tasks) : NotDue now tasks' :=
  fun task htask => h task (hsub htask)

/-- The earliest entry is not due, so none is. -/
lemma notDue_of_top {now : ℤ} {top : DelayedTask} {tasks : List DelayedTask}
    (htop : IsTop top tasks) (hdue : now < top.time) : NotDue (some now) tasks :=
  fun task htask => ⟨now, rfl, hdue.trans_le (htop.2 task htask)⟩

/-- Where a thread stands. -/
inductive WorkerPc where
  /-- Not a worker. -/
  | outside
  /-- A worker that is not in `dequeue`. -/
  | free
  /-- At the top of the loop of `dequeue`, with the mutex. -/
  | locked
  /-- No entry is due by the clock read, after so many insertions; the load of `mJoining` comes
  next.  The worker has the mutex. -/
  | checked (now : Option ℤ) (seen : ℕ)
  /-- In `wait` or `wait_until`, without the mutex. -/
  | waiting
  /-- `dequeue` has returned the null function after the given check. -/
  | exited (now : Option ℤ) (seen : ℕ)
deriving DecidableEq

/-- The thread has the mutex. -/
def WorkerPc.holds : WorkerPc → Bool
  | .locked | .checked _ _ => true
  | _ => false

/-- The thread pool, and what has happened. -/
structure PoolShared where
  mTasks : List DelayedTask
  mJoining : Bool
  /-- `mTasksMutex` is locked. -/
  mutex : Bool
  /-- The last clock reading; the clock does not go back. -/
  clock : ℤ
  /-- All entries inserted so far. -/
  inserted : List DelayedTask
  taken : List Taken
  nulls : List NullReturn

/-- The steps. -/
inductive PoolStep where
  | schedule (time : ℤ)
  | join
  | acquire
  /-- The loop of `dequeue` finds the queue empty. -/
  | examineEmpty
  /-- The loop of `dequeue` finds `top` at the top of the queue and reads the clock. -/
  | examine (now : ℤ) (top : DelayedTask)
  /-- The load of `mJoining`, and the break or the wait that follows. -/
  | testJoining
deriving DecidableEq

/-- `ThreadPool::schedule`, when the mutex is free. -/
def schedule (sh : PoolShared) (time : ℤ) : PoolShared :=
  let task : DelayedTask := ⟨sh.inserted.length, time⟩
  { sh with mTasks := sh.mTasks ++ [task], inserted := sh.inserted ++ [task] }

/-- One step of one thread. -/
def poolStep (sh : PoolShared) : WorkerPc → PoolStep → Option (PoolShared × WorkerPc)
  | .outside, .schedule time => if sh.mutex then none else some (schedule sh time, .outside)
  | .free, .schedule time => if sh.mutex then none else some (schedule sh time, .free)
  | .outside, .join => some ({ sh with mJoining := true }, .outside)
  | .free, .acquire => if sh.mutex then none else some ({ sh with mutex := true }, .locked)
  | .waiting, .acquire => if sh.mutex then none else some ({ sh with mutex := true }, .locked)
  | .locked, .examineEmpty =>
    if sh.mTasks = [] then some (sh, .checked none sh.inserted.length) else none
  | .locked, .examine now top =>
    if sh.clock ≤ now ∧ IsTop top sh.mTasks then
      if top.time ≤ now then
        some ({ sh with
          mTasks := sh.mTasks.erase top, mutex := false, clock := now,
          taken := sh.taken ++ [⟨top, now, sh.mTasks⟩] }, .free)
      else some ({ sh with clock := now }, .checked (some now) sh.inserted.length)
    else none
  | .checked now seen, .testJoining =>
    if sh.mJoining then
      some ({ sh with mutex := false, nulls := sh.nulls ++ [⟨now, sh.mTasks⟩] }, .exited now seen)
    else some ({ sh with mutex := false }, .waiting)
  | _, _ => none

/-- The thread pool with its workers and the threads that use it. -/
abbrev PoolConf (ι : Type*) := Lib.Threads ι PoolShared WorkerPc

namespace PoolConf

variable {ι : Type*} [DecidableEq ι]

/-- The pool after `spawn`, at some time of the clock. -/
def init (workers : ι → Bool) (clock : ℤ) : PoolConf ι :=
  ⟨⟨[], false, false, clock, [], [], []⟩, fun p => if workers p then .free else .outside⟩

/-- One step of one thread. -/
def step : PoolConf ι → ι × PoolStep → Option (PoolConf ι) :=
  Lib.Threads.step poolStep

end PoolConf

/-! ## What a step can do -/

/-- What one step of a thread does, by the position it starts from. -/
inductive PoolMove (sh : PoolShared) : WorkerPc → PoolStep → PoolShared × WorkerPc → Prop
  | schedule (c : WorkerPc) (time : ℤ) (hc : c = .outside ∨ c = .free)
    (hmutex : sh.mutex = false) : PoolMove sh c (.schedule time) (schedule sh time, c)
  | join : PoolMove sh .outside .join ({ sh with mJoining := true }, .outside)
  | acquire (c : WorkerPc) (hc : c = .free ∨ c = .waiting) (hmutex : sh.mutex = false) :
    PoolMove sh c .acquire ({ sh with mutex := true }, .locked)
  | examineEmpty (hempty : sh.mTasks = []) :
    PoolMove sh .locked .examineEmpty (sh, .checked none sh.inserted.length)
  | take (now : ℤ) (top : DelayedTask) (htop : IsTop top sh.mTasks) (hdue : top.time ≤ now) :
    PoolMove sh .locked (.examine now top)
      ({ sh with
        mTasks := sh.mTasks.erase top, mutex := false, clock := now,
        taken := sh.taken ++ [⟨top, now, sh.mTasks⟩] }, .free)
  | notDue (now : ℤ) (top : DelayedTask) (htop : IsTop top sh.mTasks) (hdue : now < top.time) :
    PoolMove sh .locked (.examine now top)
      ({ sh with clock := now }, .checked (some now) sh.inserted.length)
  | leave (now : Option ℤ) (seen : ℕ) (hjoin : sh.mJoining = true) :
    PoolMove sh (.checked now seen) .testJoining
      ({ sh with mutex := false, nulls := sh.nulls ++ [⟨now, sh.mTasks⟩] }, .exited now seen)
  | wait (now : Option ℤ) (seen : ℕ) (hjoin : sh.mJoining = false) :
    PoolMove sh (.checked now seen) .testJoining ({ sh with mutex := false }, .waiting)

lemma PoolMove.of_poolStep {sh : PoolShared} {c : WorkerPc} {x : PoolStep}
    {r : PoolShared × WorkerPc} (h : poolStep sh c x = some r) : PoolMove sh c x r := by
  unfold poolStep at h
  split at h
  · split_ifs at h with hm
    obtain rfl := Option.some.inj h
    exact .schedule _ _ (Or.inl rfl) (by simpa using hm)
  · split_ifs at h with hm
    obtain rfl := Option.some.inj h
    exact .schedule _ _ (Or.inr rfl) (by simpa using hm)
  · obtain rfl := Option.some.inj h
    exact .join
  · split_ifs at h with hm
    obtain rfl := Option.some.inj h
    exact .acquire _ (Or.inl rfl) (by simpa using hm)
  · split_ifs at h with hm
    obtain rfl := Option.some.inj h
    exact .acquire _ (Or.inr rfl) (by simpa using hm)
  · split_ifs at h with hempty
    obtain rfl := Option.some.inj h
    exact .examineEmpty hempty
  · split_ifs at h with htop hdue
    · obtain rfl := Option.some.inj h
      exact .take _ _ htop.2 hdue
    · obtain rfl := Option.some.inj h
      exact .notDue _ _ htop.2 (not_le.mp hdue)
  · split_ifs at h with hjoin
    · obtain rfl := Option.some.inj h
      exact .leave _ _ hjoin
    · obtain rfl := Option.some.inj h
      exact .wait _ _ (by simpa using hjoin)
  · exact absurd h (by simp)

namespace PoolConf

variable {ι : Type*} [DecidableEq ι] {s s' : PoolConf ι} {a : ι × PoolStep}

lemma step_eq_some (h : step s a = some s') :
    ∃ r, PoolMove s.shared (s.pcs a.1) a.2 r ∧ s.move a.1 r = s' := by
  obtain ⟨r, hr, hs'⟩ := Lib.Threads.step_eq_some.mp h
  exact ⟨r, .of_poolStep hr, hs'⟩

/-! ## The mutex -/

/-- The mutex is locked for the thread that has it, and for one at a time. -/
structure MutexSound (s : PoolConf ι) : Prop where
  locked : ∀ q, (s.pcs q).holds = true → s.shared.mutex = true
  one : ∀ q q', (s.pcs q).holds = true → (s.pcs q').holds = true → q = q'

/-- A thread that does not have the mutex moves and leaves it as it is. -/
lemma MutexSound.keep {p : ι} {r : PoolShared × WorkerPc} (hs : MutexSound s)
    (hmutex : r.1.mutex = s.shared.mutex) (hnew : r.2.holds = (s.pcs p).holds) :
    MutexSound (s.move p r) where
  locked := by
    rw [Lib.Threads.move_shared, hmutex]
    refine Lib.Threads.forall_move (WorkerPc.holds · = true → s.shared.mutex = true) ?_
      fun q _ => hs.locked q
    rw [hnew]
    exact hs.locked p
  one := Lib.Threads.unique_move (WorkerPc.holds · = true) hs.one (by rw [hnew]; exact fun h => h)

/-- The thread that has the mutex unlocks it. -/
lemma MutexSound.unlock {p : ι} {r : PoolShared × WorkerPc} (hs : MutexSound s)
    (hold : (s.pcs p).holds = true) (hnew : r.2.holds = false) : MutexSound (s.move p r) := by
  have hnone : ∀ q, ((s.move p r).pcs q).holds = false :=
    Lib.Threads.forall_move (WorkerPc.holds · = false) hnew fun q hq => by
      by_contra hholds
      exact hq (hs.one q p (by simpa using hholds) hold)
  exact ⟨fun q hq => absurd hq (by simp [hnone q]), fun q _ hq _ => absurd hq (by simp [hnone q])⟩

/-- A thread locks the free mutex. -/
lemma MutexSound.lock {p : ι} {r : PoolShared × WorkerPc} (hs : MutexSound s)
    (hfree : s.shared.mutex = false) (hmutex : r.1.mutex = true) : MutexSound (s.move p r) where
  locked := fun _ _ => hmutex
  one := Lib.Threads.unique_move_of_none (WorkerPc.holds · = true) fun q hq =>
    absurd (hs.locked q hq) (by simp [hfree])

lemma MutexSound.next (hs : MutexSound s) (h : step s a = some s') : MutexSound s' := by
  obtain ⟨r, hr, rfl⟩ := step_eq_some h
  obtain ⟨p, x⟩ := a
  dsimp only at hr ⊢
  generalize hc : s.pcs p = c at hr
  cases hr with
  | schedule _ time hpc hmutex => exact hs.keep rfl (by rw [hc])
  | join => exact hs.keep rfl (by rw [hc])
  | acquire _ hpc hmutex => exact hs.lock hmutex rfl
  | examineEmpty hempty => exact hs.keep rfl (by rw [hc]; rfl)
  | take now top htop hdue => exact hs.unlock (by rw [hc]; rfl) rfl
  | notDue now top htop hdue => exact hs.keep rfl (by rw [hc]; rfl)
  | leave now seen hjoin => exact hs.unlock (by rw [hc]; rfl) rfl
  | wait now seen hjoin => exact hs.unlock (by rw [hc]; rfl) rfl

/-! ## The entries -/

/-- Every entry that was inserted is in the queue or was taken, once. -/
structure EntriesSound (sh : PoolShared) : Prop where
  kept : (sh.mTasks ++ sh.taken.map (·.task)).Perm sh.inserted
  numbered : sh.inserted.map (·.func) = List.range sh.inserted.length
  taken_top : ∀ d ∈ sh.taken, IsTop d.task d.present ∧ d.task.time ≤ d.now

lemma EntriesSound.schedule {sh : PoolShared} (hs : EntriesSound sh) (time : ℤ) :
    EntriesSound (Core.schedule sh time) where
  kept := by
    have hperm := hs.kept.append_right [(⟨sh.inserted.length, time⟩ : DelayedTask)]
    refine List.Perm.trans ?_ hperm
    simp only [Core.schedule, List.append_assoc]
    exact (List.perm_append_comm).append_left _
  numbered := by simp [Core.schedule, hs.numbered, List.range_succ]
  taken_top := hs.taken_top

lemma EntriesSound.take {sh sh' : PoolShared} (hs : EntriesSound sh) {now : ℤ} {top : DelayedTask}
    (htop : IsTop top sh.mTasks) (hdue : top.time ≤ now) (htasks : sh'.mTasks = sh.mTasks.erase top)
    (htaken : sh'.taken = sh.taken ++ [⟨top, now, sh.mTasks⟩]) (hins : sh'.inserted = sh.inserted) :
    EntriesSound sh' where
  kept := by
    have hlast : (sh.mTasks.erase top ++ (sh.taken.map (·.task) ++ [top])).Perm
        (top :: (sh.mTasks.erase top ++ sh.taken.map (·.task))) := by
      rw [← List.append_assoc]
      exact List.perm_append_singleton _ _
    have hback : (top :: (sh.mTasks.erase top ++ sh.taken.map (·.task))).Perm
        (sh.mTasks ++ sh.taken.map (·.task)) :=
      (List.perm_cons_erase htop.1).symm.append_right _
    rw [htasks, htaken, hins, List.map_append]
    exact (hlast.trans hback).trans hs.kept
  numbered := by rw [hins, hs.numbered]
  taken_top := by
    intro d hd
    rw [htaken] at hd
    rcases List.mem_append.mp hd with hd | hd
    · exact hs.taken_top d hd
    · obtain rfl := List.mem_singleton.mp hd
      exact ⟨htop, hdue⟩

lemma EntriesSound.next (hs : EntriesSound s.shared) (h : step s a = some s') :
    EntriesSound s'.shared := by
  obtain ⟨r, hr, rfl⟩ := step_eq_some h
  obtain ⟨p, x⟩ := a
  dsimp only at hr
  generalize s.pcs p = c at hr
  cases hr with
  | schedule _ time hpc hmutex => exact hs.schedule time
  | take now top htop hdue => exact hs.take htop hdue rfl rfl rfl
  | _ => exact ⟨hs.kept, hs.numbered, hs.taken_top⟩

/-! ## The checks -/

/-- What the check of a worker has found still holds: while the worker has the mutex of the
whole queue, and after it has left of the entries inserted before the check. -/
def CheckSound (sh : PoolShared) : WorkerPc → Prop
  | .checked now seen => NotDue now sh.mTasks ∧ seen ≤ sh.inserted.length
  | .exited now seen =>
    NotDue now (sh.mTasks.filter (·.func < seen)) ∧ seen ≤ sh.inserted.length
  | _ => True

/-- Entries may be taken out of the queue. -/
lemma CheckSound.shrink {sh sh' : PoolShared} {c : WorkerPc} (hs : CheckSound sh c)
    (hsub : sh'.mTasks ⊆ sh.mTasks) (hins : sh'.inserted = sh.inserted) : CheckSound sh' c := by
  cases c with
  | checked now seen => exact ⟨hs.1.mono hsub, by rw [hins]; exact hs.2⟩
  | exited now seen =>
    refine ⟨hs.1.mono fun task htask => ?_, by rw [hins]; exact hs.2⟩
    simp only [List.mem_filter] at htask ⊢
    exact ⟨hsub htask.1, htask.2⟩
  | _ => trivial

/-- An entry that is inserted later says nothing against a check. -/
lemma CheckSound.schedule {sh : PoolShared} {c : WorkerPc} (hs : CheckSound sh c)
    (hc : c.holds = false) (time : ℤ) : CheckSound (Core.schedule sh time) c := by
  cases c with
  | checked now seen => exact absurd hc (by simp [WorkerPc.holds])
  | exited now seen =>
    have hlate : ¬ sh.inserted.length < seen := not_lt.mpr hs.2
    refine ⟨?_, hs.2.trans (by simp [Core.schedule])⟩
    simpa [Core.schedule, List.filter_append, hlate] using hs.1
  | _ => trivial

/-- The invariant: the mutex, the entries, the checks and the null returns. -/
structure Sound (s : PoolConf ι) : Prop where
  mutex : MutexSound s
  entries : EntriesSound s.shared
  checks : ∀ q, CheckSound s.shared (s.pcs q)
  nulls : ∀ n ∈ s.shared.nulls, NotDue n.now n.present
  joining : s.shared.nulls ≠ [] → s.shared.mJoining = true

omit [DecidableEq ι] in
lemma init_sound (workers : ι → Bool) (clock : ℤ) : Sound (init workers clock) where
  mutex := by
    have hnone : ∀ q, ((init workers clock).pcs q).holds = false := by
      intro q
      simp only [init]
      split <;> rfl
    exact ⟨fun q hq => absurd hq (by simp [hnone q]), fun q _ hq _ => absurd hq (by simp [hnone q])⟩
  entries := ⟨by simp [init], by simp [init], by simp [init]⟩
  checks := by
    intro q
    simp only [init]
    split <;> trivial
  nulls := by simp [init]
  joining := by simp [init]

lemma Sound.next_checks (hs : Sound s) (h : step s a = some s') :
    ∀ q, CheckSound s'.shared (s'.pcs q) := by
  obtain ⟨r, hr, rfl⟩ := step_eq_some h
  obtain ⟨p, x⟩ := a
  dsimp only at hr ⊢
  rw [Lib.Threads.move_shared]
  have hp := hs.checks p
  have hothers : r.1.mTasks ⊆ s.shared.mTasks → r.1.inserted = s.shared.inserted →
      ∀ q, q ≠ p → CheckSound r.1 (s.pcs q) := fun hsub hins q _ => (hs.checks q).shrink hsub hins
  refine Lib.Threads.forall_move (CheckSound r.1) ?_ ?_
  · -- the thread that moves
    generalize s.pcs p = c at hr hp
    cases hr with
    | schedule _ time hpc hmutex => rcases hpc with rfl | rfl <;> trivial
    | examineEmpty hempty => exact ⟨by simp [NotDue, hempty], le_rfl⟩
    | notDue now top htop hdue => exact ⟨notDue_of_top htop hdue, le_rfl⟩
    | leave now seen hjoin => exact ⟨hp.1.mono (List.filter_subset_self _), hp.2⟩
    | _ => trivial
  · -- the other threads
    generalize s.pcs p = c at hr
    cases hr with
    | schedule _ time hpc hmutex =>
      intro q _
      refine (hs.checks q).schedule ?_ time
      by_contra hholds
      exact absurd (hs.mutex.locked q (by simpa using hholds)) (by simp [hmutex])
    | take now top htop hdue => exact hothers List.erase_subset rfl
    | _ => exact hothers (fun _ h => h) rfl

/-- The null function is returned by the check that the worker made with the mutex. -/
lemma Sound.next_nulls (hs : Sound s) (h : step s a = some s') :
    (∀ n ∈ s'.shared.nulls, NotDue n.now n.present) ∧
      (s'.shared.nulls ≠ [] → s'.shared.mJoining = true) := by
  obtain ⟨r, hr, rfl⟩ := step_eq_some h
  obtain ⟨p, x⟩ := a
  dsimp only at hr
  have hp := hs.checks p
  generalize s.pcs p = c at hr hp
  cases hr with
  | leave now seen hjoin =>
    refine ⟨fun n hn => ?_, fun _ => hjoin⟩
    rcases List.mem_append.mp hn with hn | hn
    · exact hs.nulls n hn
    · obtain rfl := List.mem_singleton.mp hn
      exact hp.1
  | join => exact ⟨hs.nulls, fun _ => rfl⟩
  | _ => exact ⟨hs.nulls, hs.joining⟩

lemma Sound.next (hs : Sound s) (h : step s a = some s') : Sound s' where
  mutex := hs.mutex.next h
  entries := hs.entries.next h
  checks := hs.next_checks h
  nulls := (hs.next_nulls h).1
  joining := (hs.next_nulls h).2

/-- `mJoining` is set by `join` only. -/
lemma join_mem_of_joining {as : List (ι × PoolStep)} {s t : PoolConf ι}
    (hs : s.shared.mJoining = false) (hrun : Lib.run step s as = some t)
    (ht : t.shared.mJoining = true) : ∃ p, (p, PoolStep.join) ∈ as := by
  induction as generalizing s with
  | nil =>
    obtain rfl : s = t := by simpa using hrun
    exact absurd ht (by simp [hs])
  | cons a as ih =>
    obtain ⟨s', hs', hrun'⟩ := Lib.run_cons_eq_some.mp hrun
    cases hj : s'.shared.mJoining with
    | false =>
      obtain ⟨p, hp⟩ := ih hj hrun'
      exact ⟨p, List.mem_cons_of_mem _ hp⟩
    | true =>
      obtain ⟨r, hr, rfl⟩ := step_eq_some hs'
      obtain ⟨p, x⟩ := a
      dsimp only at hr
      generalize s.pcs p = c at hr
      cases hr with
      | join => exact ⟨p, List.mem_cons_self⟩
      | _ => exact absurd (hs.symm.trans hj) (by simp)

/-- **The queue of delayed tasks.** In every interleaving of insertions, examinations by any
number of workers with a clock that does not go back, and a join:
every inserted entry is in the queue or was returned, and none is returned twice; each
returned entry was due by the clock read and the earliest present; the null function is
returned after the join has begun, when no entry is due by the clock read; and of the
entries that a worker found at its last check, those still in the queue when it has left
were not due. -/
theorem dequeue_queue_spec (workers : ι → Bool) (clock : ℤ) (as : List (ι × PoolStep))
    (s : PoolConf ι) (hrun : Lib.run step (init workers clock) as = some s) :
    (s.shared.mTasks ++ s.shared.taken.map (·.task)).Perm s.shared.inserted ∧
    (s.shared.taken.map (·.task)).Nodup ∧
    (∀ d ∈ s.shared.taken, d.task ∈ d.present ∧ d.task.time ≤ d.now ∧
      ∀ task ∈ d.present, d.task.time ≤ task.time) ∧
    (s.shared.nulls ≠ [] → ∃ p, (p, PoolStep.join) ∈ as) ∧
    (∀ n ∈ s.shared.nulls, NotDue n.now n.present) ∧
    (∀ p now seen, s.pcs p = .exited now seen →
      NotDue now (s.shared.mTasks.filter (·.func < seen))) := by
  have hs : Sound s := Lib.run_inv (fun _ _ _ hs h => hs.next h) (init_sound workers clock) hrun
  have hnodup : (s.shared.mTasks ++ s.shared.taken.map (·.task)).Nodup := by
    rw [hs.entries.kept.nodup_iff]
    refine List.Nodup.of_map (·.func) ?_
    rw [hs.entries.numbered]
    exact List.nodup_range
  refine ⟨hs.entries.kept, (List.nodup_append.mp hnodup).2.1, ?_, ?_, hs.nulls, ?_⟩
  · intro d hd
    obtain ⟨⟨hmem, htop⟩, hdue⟩ := hs.entries.taken_top d hd
    exact ⟨hmem, hdue, htop⟩
  · exact fun hnulls => join_mem_of_joining rfl hrun (hs.joining hnulls)
  · intro p now seen hp
    have hcheck := hs.checks p
    rw [hp] at hcheck
    exact hcheck.1

/-- Two workers take two entries in the order of their times; one waits for the third entry,
and both leave after the join, before that entry is due. -/
theorem dequeue_two_workers : ∃ s : PoolConf (Fin 3),
    Lib.run step (init (· < 2) 0) [(2, .schedule 5), (2, .schedule 3), (2, .schedule 100),
      (0, .acquire), (0, .examine 6 ⟨1, 3⟩), (1, .acquire), (1, .examine 7 ⟨0, 5⟩),
      (1, .acquire), (1, .examine 8 ⟨2, 100⟩), (1, .testJoining), (2, .join), (1, .acquire),
      (1, .examine 9 ⟨2, 100⟩), (1, .testJoining), (0, .acquire), (0, .examine 9 ⟨2, 100⟩),
      (0, .testJoining)] = some s ∧
    s.shared.taken.map (·.task) = [⟨1, 3⟩, ⟨0, 5⟩] ∧
    s.pcs 0 = .exited (some 9) 3 ∧ NotDue (some 9) (s.shared.mTasks.filter (·.func < 3)) := by
  let as : List (Fin 3 × PoolStep) := [(2, .schedule 5), (2, .schedule 3), (2, .schedule 100),
    (0, .acquire), (0, .examine 6 ⟨1, 3⟩), (1, .acquire), (1, .examine 7 ⟨0, 5⟩),
    (1, .acquire), (1, .examine 8 ⟨2, 100⟩), (1, .testJoining), (2, .join), (1, .acquire),
    (1, .examine 9 ⟨2, 100⟩), (1, .testJoining), (0, .acquire), (0, .examine 9 ⟨2, 100⟩),
    (0, .testJoining)]
  have hrun : (Lib.run step (init (· < 2) 0) as).map
      (fun s => (s.shared.taken.map (·.task), s.pcs 0)) =
      some ([⟨1, 3⟩, ⟨0, 5⟩], .exited (some 9) 3) := by
    decide +kernel
  obtain ⟨s, hs, hend⟩ := Option.map_eq_some_iff.mp hrun
  simp only [Prod.mk.injEq] at hend
  obtain ⟨htaken, hexit⟩ := hend
  have hspec := dequeue_queue_spec (· < 2) 0 as s hs
  exact ⟨s, hs, htaken, hexit, hspec.2.2.2.2.2 0 _ _ hexit⟩

end PoolConf

end SignalEventLoop.Core
