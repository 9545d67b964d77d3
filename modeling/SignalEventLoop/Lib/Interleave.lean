/-
# Interleavings of independent parts

An interleaving of several lists is one list of tagged elements; `part k` gives the elements
with the tag `k` back, in their order.  When an action with the tag `k` only touches the
component `k` of a state, every component of a run goes through its own part alone, whatever
the interleaving is.
-/
import SignalEventLoop.Lib.Run

namespace SignalEventLoop.Lib

variable {κ α σ τ : Type*} [DecidableEq κ]

/-- The elements with the tag `k`, in their order. -/
def part (k : κ) (as : List (κ × α)) : List α := (as.filter fun a => a.1 = k).map Prod.snd

@[simp] lemma part_nil (k : κ) : part k ([] : List (κ × α)) = [] := rfl

@[simp] lemma part_cons_self (k : κ) (a : α) (as : List (κ × α)) :
    part k ((k, a) :: as) = a :: part k as := by
  simp [part]

lemma part_cons_ne {k j : κ} (h : k ≠ j) (a : α) (as : List (κ × α)) :
    part j ((k, a) :: as) = part j as := by
  simp [part, h]

/-- **Runs of independent components.** `view k` is the component `k` of a state and `alone k`
its own step.  When each component can go through its part alone, the interleaving is possible,
and it leaves every component where its own run leaves it. -/
theorem run_of_parts {step : σ → α → Option σ} {view : κ → σ → τ} {alone : κ → τ → α → Option τ}
    {I : σ → Prop}
    (hstep : ∀ s k a t, I s → alone k (view k s) a = some t →
      ∃ s', step s a = some s' ∧ I s' ∧ view k s' = t ∧ ∀ j, j ≠ k → view j s' = view j s) :
    ∀ {s : σ} {as : List (κ × α)} {ends : κ → τ}, I s →
      (∀ k, run (alone k) (view k s) (part k as) = some (ends k)) →
      ∃ s', run step s (as.map Prod.snd) = some s' ∧ I s' ∧ ∀ k, view k s' = ends k := by
  intro s as ends
  induction as generalizing s with
  | nil =>
    intro hI hends
    exact ⟨s, rfl, hI, fun k => by simpa using hends k⟩
  | cons a as ih =>
    obtain ⟨k, a⟩ := a
    intro hI hends
    have hk := hends k
    rw [part_cons_self, run_cons_eq_some] at hk
    obtain ⟨t, ht, hrun⟩ := hk
    obtain ⟨s', hs', hI', hview, hothers⟩ := hstep s k a t hI ht
    have hnext : ∀ j, run (alone j) (view j s') (part j as) = some (ends j) := by
      intro j
      by_cases hj : j = k
      · subst hj
        rw [hview, hrun]
      · have := hends j
        rw [part_cons_ne (Ne.symm hj)] at this
        rw [hothers j hj, this]
    obtain ⟨u, hu, hIu, hviews⟩ := ih hI' hnext
    exact ⟨u, run_cons_eq_some.mpr ⟨s', hs', hu⟩, hIu, hviews⟩

end SignalEventLoop.Lib
