/-
# The round-robin index of the event loop

`EventLoop::getIndex` picks the task scheduler of the next trigger event, timer or channel.
It loads the atomic `index`, increments it, loads it again to compare it with the number of
task schedulers, and exchanges it with 0 when it has reached that number.  Any number of
threads are in such calls; any interleaving of the four steps is a run.

Between the increment that reaches the number of task schedulers and the exchange the counter
is past the end, and a call that loads it there returns an index without an element.
-/
import SignalEventLoop.Lib.Threads

namespace SignalEventLoop.Core

/-- Where a thread stands in `EventLoop::getIndex`; `ret` is the value of its first load. -/
inductive IndexPc where
  | idle
  | loaded (ret : ℕ)
  | incremented (ret : ℕ)
  /-- The second load has found the counter at the number of task schedulers or past it. -/
  | wrapping (ret : ℕ)
deriving DecidableEq

namespace IndexPc

/-- The value that the call is going to return. -/
def ret? : IndexPc → Option ℕ
  | .idle => none
  | .loaded ret | .incremented ret | .wrapping ret => some ret

/-- The call has incremented the counter and may still have to wrap it. -/
def unwrapped : IndexPc → Bool
  | .incremented _ | .wrapping _ => true
  | .idle | .loaded _ => false

end IndexPc

/-- What the calls share, and the values returned so far. -/
structure IndexShared where
  /-- `index`, a `uint32_t`. -/
  index : ℕ
  returned : List ℕ

/-- The atomic steps of `getIndex`. -/
inductive IndexStep where
  | load
  | increment
  /-- The load for the comparison. -/
  | compare
  | exchange
deriving DecidableEq

/-- One atomic step of `EventLoop::getIndex`, with `n` task schedulers. -/
def getIndex (n : ℕ) (sh : IndexShared) : IndexPc → IndexStep → Option (IndexShared × IndexPc)
  | .idle, .load => some (sh, .loaded sh.index)
  | .loaded ret, .increment =>
    some ({ sh with index := (sh.index + 1) % 2 ^ 32 }, .incremented ret)
  | .incremented ret, .compare =>
    if n ≤ sh.index then some (sh, .wrapping ret)
    else some ({ sh with returned := sh.returned ++ [ret] }, .idle)
  | .wrapping ret, .exchange => some (⟨0, sh.returned ++ [ret]⟩, .idle)
  | _, _ => none

/-- The event loop with the threads that are in `getIndex`. -/
abbrev IndexConf (ι : Type*) := Lib.Threads ι IndexShared IndexPc

namespace IndexConf

variable {ι : Type*} [DecidableEq ι]

/-- A new event loop. -/
def init : IndexConf ι := ⟨⟨0, []⟩, fun _ => .idle⟩

/-- One atomic step of one thread. -/
def step (n : ℕ) : IndexConf ι → ι × IndexStep → Option (IndexConf ι) :=
  Lib.Threads.step (getIndex n)

/-- Every value returned is the position of a task scheduler. -/
def InRange (n : ℕ) (s : IndexConf ι) : Prop :=
  ∀ ret ∈ s.shared.returned, ret < n

/-- The condition on a step: no call makes its first load while another call has incremented
the counter to the number of task schedulers or beyond and the counter is not yet wrapped. -/
def NoLoadBeforeWrap (n : ℕ) (s : IndexConf ι) (a : ι × IndexStep) : Prop :=
  ∀ q, a.2 = .load → (s.pcs q).unwrapped = true → s.shared.index < n

/-! ## What a step can do -/

variable {n : ℕ} {s s' : IndexConf ι} {p : ι} {a : ι × IndexStep}

/-- The four steps of a call. -/
lemma getIndex_cases {sh : IndexShared} {c : IndexPc} {x : IndexStep} {r : IndexShared × IndexPc}
    (h : getIndex n sh c x = some r) :
    (c = .idle ∧ x = .load ∧ r = (sh, .loaded sh.index)) ∨
    (∃ ret, c = .loaded ret ∧ x = .increment ∧
      r = ({ sh with index := (sh.index + 1) % 2 ^ 32 }, .incremented ret)) ∨
    (∃ ret, c = .incremented ret ∧ x = .compare ∧ n ≤ sh.index ∧ r = (sh, .wrapping ret)) ∨
    (∃ ret, c = .incremented ret ∧ x = .compare ∧ sh.index < n ∧
      r = ({ sh with returned := sh.returned ++ [ret] }, .idle)) ∨
    ∃ ret, c = .wrapping ret ∧ x = .exchange ∧ r = (⟨0, sh.returned ++ [ret]⟩, .idle) := by
  unfold getIndex at h
  split at h
  · exact Or.inl ⟨rfl, rfl, (Option.some.inj h).symm⟩
  · next ret => exact Or.inr (Or.inl ⟨ret, rfl, rfl, (Option.some.inj h).symm⟩)
  · next ret =>
    split at h
    · next hn => exact Or.inr (Or.inr (Or.inl ⟨ret, rfl, rfl, hn, (Option.some.inj h).symm⟩))
    · next hn =>
      exact Or.inr (Or.inr (Or.inr (Or.inl
        ⟨ret, rfl, rfl, not_le.mp hn, (Option.some.inj h).symm⟩)))
  · next ret =>
    exact Or.inr (Or.inr (Or.inr (Or.inr ⟨ret, rfl, rfl, (Option.some.inj h).symm⟩)))
  · exact absurd h (by simp)

/-! ## The counter past the end -/

/-- A counter past the end has a call that will look at it again. -/
def WrapOwned (n : ℕ) (s : IndexConf ι) : Prop :=
  n ≤ s.shared.index → ∃ q, (s.pcs q).unwrapped = true

lemma step_wrapOwned (hn : 0 < n) (hs : WrapOwned n s) (h : step n s a = some s') :
    WrapOwned n s' := by
  obtain ⟨r, hr, rfl⟩ := Lib.Threads.step_eq_some.mp h
  rcases getIndex_cases hr with ⟨hp, -, rfl⟩ | ⟨ret, -, -, rfl⟩ | ⟨ret, -, -, -, rfl⟩ |
    ⟨ret, -, -, hlt, rfl⟩ | ⟨ret, -, -, rfl⟩
  · -- the call that makes its first load is not the one that owns the wrap
    exact fun hpast => Lib.Threads.exists_move (IndexPc.unwrapped · = true) (hs hpast)
      (by simp [hp, IndexPc.unwrapped])
  · exact fun _ => Lib.Threads.exists_move_of_new (IndexPc.unwrapped · = true) rfl
  · exact fun _ => Lib.Threads.exists_move_of_new (IndexPc.unwrapped · = true) rfl
  · exact fun hpast => absurd hlt (not_lt.mpr hpast)
  · exact fun hpast => absurd hn (not_lt.mpr hpast)

/-! ## The values on their way -/

/-- `v` was returned, or a call is going to return it. -/
def Carries (s : IndexConf ι) (v : ℕ) : Prop :=
  v ∈ s.shared.returned ∨ ∃ p, (s.pcs p).ret? = some v

/-- A step keeps the value of its call: the call brings it along or returns it. -/
lemma carries_move {r : IndexShared × IndexPc} {ret : ℕ} (v : ℕ)
    (hp : (s.pcs p).ret? = some ret)
    (hr : (r.1.returned = s.shared.returned ∧ r.2.ret? = some ret) ∨
      (r.1.returned = s.shared.returned ++ [ret] ∧ r.2.ret? = none)) :
    Carries (s.move p r) v ↔ Carries s v := by
  rcases hr with ⟨hret, hpc⟩ | ⟨hret, hpc⟩
  · exact or_congr (by rw [Lib.Threads.move_shared, hret])
      (Lib.Threads.exists_move_iff (IndexPc.ret? · = some v) (by rw [hpc, hp]))
  · have hnew : r.2.ret? ≠ some v := by simp [hpc]
    rw [Carries, Lib.Threads.move_shared, hret, List.mem_append, List.mem_singleton]
    constructor
    · rintro ((hv | rfl) | hv)
      · exact Or.inl hv
      · exact Or.inr ⟨p, hp⟩
      · obtain ⟨q, -, hq⟩ :=
          (Lib.Threads.exists_of_move (IndexPc.ret? · = some v) hv).resolve_left hnew
        exact Or.inr ⟨q, hq⟩
    · rintro (hv | ⟨q, hq⟩)
      · exact Or.inl (Or.inl hv)
      · by_cases hqp : q = p
        · subst hqp
          exact Or.inl (Or.inr (Option.some.inj (hq.symm.trans hp)))
        · exact Or.inr ⟨q, by rw [Lib.Threads.move_pcs_ne hqp]; exact hq⟩

/-- Only a first load brings in a new value, the counter. -/
lemma carries_load (v : ℕ) (hp : s.pcs p = .idle) :
    Carries (s.move p (s.shared, .loaded s.shared.index)) v ↔
      v = s.shared.index ∨ Carries s v := by
  constructor
  · rintro (hv | hv)
    · exact Or.inr (Or.inl hv)
    · rcases Lib.Threads.exists_of_move (IndexPc.ret? · = some v) hv with hnew | ⟨q, -, hq⟩
      · exact Or.inl (Option.some.inj hnew).symm
      · exact Or.inr (Or.inr ⟨q, hq⟩)
  · rintro (rfl | hv | hv)
    · exact Or.inr (Lib.Threads.exists_move_of_new (IndexPc.ret? · = some _) rfl)
    · exact Or.inl hv
    · exact Or.inr (Lib.Threads.exists_move (IndexPc.ret? · = some v) hv
        (by simp [hp, IndexPc.ret?]))

/-- The values after a step: those before it, and the counter when the step is a load. -/
lemma step_carries (v : ℕ) (h : step n s a = some s') :
    Carries s' v ↔ (a.2 = .load ∧ v = s.shared.index) ∨ Carries s v := by
  obtain ⟨r, hr, rfl⟩ := Lib.Threads.step_eq_some.mp h
  rcases getIndex_cases hr with ⟨hp, hx, rfl⟩ | ⟨ret, hp, hx, rfl⟩ | ⟨ret, hp, hx, -, rfl⟩ |
    ⟨ret, hp, hx, -, rfl⟩ | ⟨ret, hp, hx, rfl⟩
  · rw [carries_load v hp, hx]
    simp
  · rw [carries_move v (by rw [hp]; rfl) (Or.inl ⟨rfl, rfl⟩), hx]
    simp
  · rw [carries_move v (by rw [hp]; rfl) (Or.inl ⟨rfl, rfl⟩), hx]
    simp
  · rw [carries_move v (by rw [hp]; rfl) (Or.inr ⟨rfl, rfl⟩), hx]
    simp
  · rw [carries_move v (by rw [hp]; rfl) (Or.inr ⟨rfl, rfl⟩), hx]
    simp

/-! ## Whole runs -/

/-- Every value returned or on its way is in range. -/
def AllInRange (n : ℕ) (s : IndexConf ι) : Prop :=
  ∀ v, Carries s v → v < n

/-- A value past the end is returned or on its way. -/
def Astray (n : ℕ) (s : IndexConf ι) : Prop :=
  ∃ v, Carries s v ∧ n ≤ v

omit [DecidableEq ι] in
lemma init_allInRange : AllInRange n (init : IndexConf ι) := by
  rintro v (h | ⟨p, hp⟩)
  · exact absurd h (by simp [init])
  · exact absurd hp (by simp [init, IndexPc.ret?])

/-- A step that meets the condition can only load a counter in range. -/
lemma step_allInRange (hw : WrapOwned n s) (hs : AllInRange n s) (hok : NoLoadBeforeWrap n s a)
    (h : step n s a = some s') : AllInRange n s' := by
  intro v hv
  rcases (step_carries v h).mp hv with ⟨hload, rfl⟩ | hv
  · by_contra hpast
    obtain ⟨q, hq⟩ := hw (not_lt.mp hpast)
    exact hpast (hok q hload hq)
  · exact hs v hv

lemma step_astray_of_not (hok : ¬ NoLoadBeforeWrap n s a) (h : step n s a = some s') :
    Astray n s' := by
  simp only [NoLoadBeforeWrap, not_forall] at hok
  obtain ⟨q, hload, -, hpast⟩ := hok
  exact ⟨s.shared.index, (step_carries _ h).mpr (Or.inl ⟨hload, rfl⟩), not_lt.mp hpast⟩

lemma step_astray (hs : Astray n s) (h : step n s a = some s') : Astray n s' := by
  obtain ⟨v, hv, hpast⟩ := hs
  exact ⟨v, (step_carries v h).mpr (Or.inr hv), hpast⟩

omit [DecidableEq ι] in
lemma Astray.not_allInRange (hs : Astray n s) : ¬ AllInRange n s := by
  obtain ⟨v, hv, hpast⟩ := hs
  exact fun hall => absurd (hall v hv) (not_lt.mpr hpast)

lemma allInRange_iff (hn : 0 < n) {as : List (ι × IndexStep)}
    (hrun : Lib.run (step n) init as = some s) :
    AllInRange n s ↔ Lib.AllSteps (step n) (NoLoadBeforeWrap n) init as := by
  have hinit : WrapOwned n (init : IndexConf ι) ∧ AllInRange n (init : IndexConf ι) :=
    ⟨fun hpast => absurd hn (not_lt.mpr hpast), init_allInRange⟩
  have hbad : ∀ (s : IndexConf ι) a s', WrapOwned n s ∧ AllInRange n s →
      ¬ NoLoadBeforeWrap n s a → step n s a = some s' → Astray n s' :=
    fun _ _ _ _ hok h => step_astray_of_not hok h
  exact Lib.run_iff_allSteps
    (fun _ _ _ hs hok h => ⟨step_wrapOwned hn hs.1 h, step_allInRange hs.1 hs.2 hok h⟩)
    hbad (fun _ _ _ hs h => step_astray hs h) (fun _ hs => hs.2)
    (fun _ hs => hs.not_allInRange) hinit hrun

/-- **The round-robin index stays in range exactly when no load falls before a wrap.** When no
call makes its first load between an increment that takes the counter to the number of task
schedulers and the exchange with 0, every value returned is the position of a task scheduler;
and in a run in which all calls have returned there is no other way. -/
theorem getIndex_inRange_iff (n : ℕ) (hn : 0 < n) (as : List (ι × IndexStep)) (s : IndexConf ι)
    (hrun : Lib.run (step n) init as = some s) :
    (Lib.AllSteps (step n) (NoLoadBeforeWrap n) init as → InRange n s) ∧
      ((∀ p, s.pcs p = .idle) → InRange n s →
        Lib.AllSteps (step n) (NoLoadBeforeWrap n) init as) := by
  constructor
  · intro hok ret hret
    exact (allInRange_iff hn hrun).mpr hok ret (Or.inl hret)
  · intro hidle hrange
    refine (allInRange_iff hn hrun).mp ?_
    rintro v (h | ⟨p, hp⟩)
    · exact hrange v h
    · exact absurd hp (by simp [hidle p, IndexPc.ret?])

instance decidableNoLoadBeforeWrap [Fintype ι] (n : ℕ) (s : IndexConf ι) (a : ι × IndexStep) :
    Decidable (NoLoadBeforeWrap n s a) :=
  inferInstanceAs (Decidable (∀ _, _))

/-- Two threads and two task schedulers, with the loads of both calls before the increments:
both get the first task scheduler, and the third call gets it again. -/
theorem getIndex_two_threads : ∃ s : IndexConf Bool,
    Lib.run (step 2) init [(false, .load), (true, .load), (false, .increment), (false, .compare),
      (true, .increment), (true, .compare), (true, .exchange), (false, .load),
      (false, .increment), (false, .compare)] = some s ∧
    s.shared.returned = [0, 0, 0] ∧ InRange 2 s := by
  let as : List (Bool × IndexStep) := [(false, .load), (true, .load), (false, .increment),
    (false, .compare), (true, .increment), (true, .compare), (true, .exchange), (false, .load),
    (false, .increment), (false, .compare)]
  have hok : Lib.AllSteps (step 2) (NoLoadBeforeWrap 2) init as := by decide +kernel
  have hrun : (Lib.run (step 2) init as).map (·.shared.returned) = some [0, 0, 0] := by
    decide +kernel
  obtain ⟨s, hs, hret⟩ := Option.map_eq_some_iff.mp hrun
  exact ⟨s, hs, hret, (getIndex_inRange_iff 2 (by decide) as s hs).1 hok⟩

/-- One task scheduler: the second thread loads the counter after the increment of the first
and before its exchange, and its call returns 1. -/
theorem getIndex_past_end : ∃ (as : List (Bool × IndexStep)) (s : IndexConf Bool),
    Lib.run (step 1) init as = some s ∧ ¬ InRange 1 s := by
  let as : List (Bool × IndexStep) := [(false, .load), (false, .increment), (true, .load),
    (false, .compare), (false, .exchange), (true, .increment), (true, .compare),
    (true, .exchange)]
  have hrun : (Lib.run (step 1) init as).map (·.shared.returned) = some [0, 1] := by
    decide +kernel
  obtain ⟨s, hs, hret⟩ := Option.map_eq_some_iff.mp hrun
  refine ⟨as, s, hs, fun hrange => ?_⟩
  exact absurd (hrange 1 (by simp [hret])) (by decide)

end IndexConf

end SignalEventLoop.Core
