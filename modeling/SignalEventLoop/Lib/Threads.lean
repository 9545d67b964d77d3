/-
# Threads that share a state

A program of threads is given by what one thread can do alone: `advance sh c x` is the step
`x` of a thread at the position `c` with the shared state `sh`, when it is possible.  A
configuration is the shared state and the position of every thread, and one step of the
program is one step of one thread.  The runs of this step function are the interleavings.

The lemmas say what a step does to statements about all threads, about some thread and about
at most one thread.
-/
import SignalEventLoop.Lib.Run

namespace SignalEventLoop.Lib

/-- The shared state and the position of every thread; `ι` are the threads. -/
structure Threads (ι σ κ : Type*) where
  shared : σ
  pcs : ι → κ

namespace Threads

variable {ι σ κ α : Type*} [DecidableEq ι]

/-- One thread goes to the given position and leaves the given shared state. -/
def move (s : Threads ι σ κ) (p : ι) (r : σ × κ) : Threads ι σ κ :=
  ⟨r.1, Function.update s.pcs p r.2⟩

/-- One step of one thread. -/
def step (advance : σ → κ → α → Option (σ × κ)) (s : Threads ι σ κ) (a : ι × α) :
    Option (Threads ι σ κ) :=
  (advance s.shared (s.pcs a.1) a.2).map (s.move a.1)

variable {advance : σ → κ → α → Option (σ × κ)} {s s' : Threads ι σ κ} {p : ι} {r : σ × κ}

lemma step_eq_some {a : ι × α} :
    step advance s a = some s' ↔
      ∃ r, advance s.shared (s.pcs a.1) a.2 = some r ∧ s.move a.1 r = s' :=
  Option.map_eq_some_iff

@[simp] lemma move_shared : (s.move p r).shared = r.1 := rfl

@[simp] lemma move_pcs_self : (s.move p r).pcs p = r.2 := by
  simp [move]

lemma move_pcs_ne {q : ι} (h : q ≠ p) : (s.move p r).pcs q = s.pcs q := by
  simp [move, h]

/-- What holds of the new position and of the other threads holds of all threads. -/
lemma forall_move (f : κ → Prop) (hnew : f r.2) (hothers : ∀ q, q ≠ p → f (s.pcs q)) :
    ∀ q, f ((s.move p r).pcs q) := by
  intro q
  by_cases hq : q = p
  · rw [hq, move_pcs_self]
    exact hnew
  · rw [move_pcs_ne hq]
    exact hothers q hq

/-- A thread moves to a position that meets `f`. -/
lemma exists_move_of_new (f : κ → Prop) (hnew : f r.2) : ∃ q, f ((s.move p r).pcs q) :=
  ⟨p, by rw [move_pcs_self]; exact hnew⟩

/-- A thread that meets `f` is still there after a step that does not take it away. -/
lemma exists_move (f : κ → Prop) (h : ∃ q, f (s.pcs q)) (hkeep : f (s.pcs p) → f r.2) :
    ∃ q, f ((s.move p r).pcs q) := by
  obtain ⟨q, hq⟩ := h
  by_cases hqp : q = p
  · subst hqp
    exact exists_move_of_new f (hkeep hq)
  · exact ⟨q, by rw [move_pcs_ne hqp]; exact hq⟩

/-- A thread that meets `f` after the step met it before, or came to it by the step. -/
lemma exists_of_move (f : κ → Prop) (h : ∃ q, f ((s.move p r).pcs q)) :
    f r.2 ∨ ∃ q, q ≠ p ∧ f (s.pcs q) := by
  obtain ⟨q, hq⟩ := h
  by_cases hqp : q = p
  · rw [hqp, move_pcs_self] at hq
    exact Or.inl hq
  · rw [move_pcs_ne hqp] at hq
    exact Or.inr ⟨q, hqp, hq⟩

/-- A thread moves between two positions that `f` does not tell apart. -/
lemma exists_move_iff (f : κ → Prop) (h : f r.2 ↔ f (s.pcs p)) :
    (∃ q, f ((s.move p r).pcs q)) ↔ ∃ q, f (s.pcs q) := by
  constructor
  · intro hex
    rcases exists_of_move f hex with hnew | ⟨q, -, hq⟩
    · exact ⟨p, h.mp hnew⟩
    · exact ⟨q, hq⟩
  · exact fun hex => exists_move f hex h.mpr

/-- At most one thread meets `f`, and the thread that moves does not come to it from
elsewhere. -/
lemma unique_move (f : κ → Prop) (hone : ∀ q q', f (s.pcs q) → f (s.pcs q') → q = q')
    (hkeep : f r.2 → f (s.pcs p)) :
    ∀ q q', f ((s.move p r).pcs q) → f ((s.move p r).pcs q') → q = q' := by
  have hback : ∀ q, f ((s.move p r).pcs q) → f (s.pcs q) := by
    intro q hq
    by_cases hqp : q = p
    · rw [hqp, move_pcs_self] at hq
      rw [hqp]
      exact hkeep hq
    · rwa [move_pcs_ne hqp] at hq
  exact fun q q' hq hq' => hone q q' (hback q hq) (hback q' hq')

/-- No thread meets `f` before the step: then at most the one that moves meets it after. -/
lemma unique_move_of_none (f : κ → Prop) (hnone : ∀ q, ¬ f (s.pcs q)) :
    ∀ q q', f ((s.move p r).pcs q) → f ((s.move p r).pcs q') → q = q' := by
  have honly : ∀ q, f ((s.move p r).pcs q) → q = p := by
    intro q hq
    by_contra hqp
    rw [move_pcs_ne hqp] at hq
    exact hnone q hq
  exact fun q q' hq hq' => (honly q hq).trans (honly q' hq').symm

end Threads

end SignalEventLoop.Lib
