/-
# Runs of a partial step function

A system is given by a partial function `step : σ → ι → Option σ`: in the state `s` the
action `a` is possible when `step s a` is defined, and it then leads to that state.  A
run is a list of actions.  This file has the rules by which a property of one step is
carried to whole runs: an invariant, an invariant of the runs all of whose steps meet a
condition, and the outputs that a run produces.
-/
import Mathlib.Tactic

namespace SignalEventLoop.Lib

variable {σ ι ω : Type*}

/-- The state after a list of actions; `none` when one of them is not possible. -/
def run (step : σ → ι → Option σ) : σ → List ι → Option σ
  | s, [] => some s
  | s, a :: as => (step s a).bind fun s' => run step s' as

/-- Every step of a run meets the condition `ok`, which speaks about the action and the
state before it. -/
def AllSteps (step : σ → ι → Option σ) (ok : σ → ι → Prop) : σ → List ι → Prop
  | _, [] => True
  | s, a :: as => ok s a ∧ ∀ s', step s a = some s' → AllSteps step ok s' as

/-- Every state that a run goes through, the first and the last one included, has the
property `P`. -/
def AllStates (step : σ → ι → Option σ) (P : σ → Prop) : σ → List ι → Prop
  | s, [] => P s
  | s, a :: as => P s ∧ ∀ s', step s a = some s' → AllStates step P s' as

/-- The outputs of the steps of a run, in order. -/
def outputs (step : σ → ι → Option σ) (out : σ → ι → List ω) : σ → List ι → List ω
  | _, [] => []
  | s, a :: as => ((step s a).map fun s' => out s a ++ outputs step out s' as).getD []

variable {step : σ → ι → Option σ} {ok : σ → ι → Prop} {out : σ → ι → List ω}

@[simp] lemma run_nil (s : σ) : run step s [] = some s := rfl

lemma run_cons (s : σ) (a : ι) (as : List ι) :
    run step s (a :: as) = (step s a).bind fun s' => run step s' as := rfl

lemma run_cons_eq_some {s t : σ} {a : ι} {as : List ι} :
    run step s (a :: as) = some t ↔ ∃ s', step s a = some s' ∧ run step s' as = some t := by
  rw [run_cons, Option.bind_eq_some_iff]

lemma run_append (s : σ) (as bs : List ι) :
    run step s (as ++ bs) = (run step s as).bind fun s' => run step s' bs := by
  induction as generalizing s with
  | nil => rfl
  | cons a as ih =>
    rw [List.cons_append, run_cons, run_cons, Option.bind_assoc]
    exact Option.bind_congr fun s' _ => ih s'

lemma run_append_eq_some {s t : σ} {as bs : List ι} :
    run step s (as ++ bs) = some t ↔
      ∃ s', run step s as = some s' ∧ run step s' bs = some t := by
  rw [run_append, Option.bind_eq_some_iff]

lemma run_concat_eq_some {s t : σ} {as : List ι} {a : ι} :
    run step s (as ++ [a]) = some t ↔ ∃ s', run step s as = some s' ∧ step s' a = some t := by
  rw [run_append_eq_some]
  refine exists_congr fun s' => and_congr_right fun _ => ?_
  rw [run_cons_eq_some]
  simp

lemma allSteps_cons {s : σ} {a : ι} {as : List ι} :
    AllSteps step ok s (a :: as) ↔
      ok s a ∧ ∀ s', step s a = some s' → AllSteps step ok s' as := Iff.rfl

lemma allSteps_cons_of_eq_some {s s' : σ} {a : ι} {as : List ι} (h : step s a = some s') :
    AllSteps step ok s (a :: as) ↔ ok s a ∧ AllSteps step ok s' as := by
  rw [allSteps_cons, h]
  simp

lemma allSteps_append {s : σ} {as bs : List ι} :
    AllSteps step ok s (as ++ bs) ↔
      AllSteps step ok s as ∧ ∀ s', run step s as = some s' → AllSteps step ok s' bs := by
  induction as generalizing s with
  | nil => simp [AllSteps]
  | cons a as ih =>
    simp only [List.cons_append, allSteps_cons, ih, run_cons_eq_some]
    constructor
    · rintro ⟨hok, h⟩
      refine ⟨⟨hok, fun s' hs' => (h s' hs').1⟩, ?_⟩
      rintro t ⟨s', hs', ht⟩
      exact (h s' hs').2 t ht
    · rintro ⟨⟨hok, h⟩, hbs⟩
      exact ⟨hok, fun s' hs' => ⟨h s' hs', fun t ht => hbs t ⟨s', hs', ht⟩⟩⟩

/-- A condition on the actions alone. -/
lemma allSteps_of_forall {cond : ι → Prop} (s : σ) {as : List ι} (h : ∀ a ∈ as, cond a) :
    AllSteps step (fun _ a => cond a) s as := by
  induction as generalizing s with
  | nil => trivial
  | cons a as ih =>
    exact ⟨h a List.mem_cons_self, fun s' _ => ih s' fun b hb => h b (List.mem_cons_of_mem _ hb)⟩

/-- Whether every step of a concrete run meets a decidable condition can be computed. -/
instance decidableAllSteps [∀ s a, Decidable (ok s a)] :
    (s : σ) → (as : List ι) → Decidable (AllSteps step ok s as)
  | _, [] => isTrue trivial
  | s, a :: as =>
    match h : step s a with
    | none => decidable_of_iff (ok s a) ⟨fun hok => ⟨hok, by simp [h]⟩, fun hall => hall.1⟩
    | some s' =>
      have := decidableAllSteps s' as
      decidable_of_iff (ok s a ∧ AllSteps step ok s' as) (allSteps_cons_of_eq_some h).symm

/-- **The invariant rule, under a condition on the steps.** -/
theorem run_inv_of_allSteps {I : σ → Prop}
    (hstep : ∀ s a s', I s → ok s a → step s a = some s' → I s') :
    ∀ {s t : σ} {as : List ι}, I s → AllSteps step ok s as → run step s as = some t → I t := by
  intro s t as
  induction as generalizing s with
  | nil =>
    intro hI _ hrun
    obtain rfl : s = t := by simpa using hrun
    exact hI
  | cons a as ih =>
    intro hI hall hrun
    obtain ⟨s', hs', hrun'⟩ := run_cons_eq_some.mp hrun
    obtain ⟨hok, hrest⟩ := hall
    exact ih (hstep s a s' hI hok hs') (hrest s' hs') hrun'

/-- **Progress and invariant.** When every step that meets the condition is possible and keeps
the invariant, the whole run is possible. -/
theorem run_total_of_allSteps {I : σ → Prop}
    (hstep : ∀ s a, I s → ok s a → ∃ s', step s a = some s' ∧ I s') :
    ∀ {s : σ} {as : List ι}, I s → AllSteps step ok s as → ∃ t, run step s as = some t ∧ I t := by
  intro s as
  induction as generalizing s with
  | nil => exact fun hI _ => ⟨s, rfl, hI⟩
  | cons a as ih =>
    intro hI hall
    obtain ⟨hok, hrest⟩ := hall
    obtain ⟨s', hs', hI'⟩ := hstep s a hI hok
    obtain ⟨t, ht, hIt⟩ := ih hI' (hrest s' hs')
    exact ⟨t, run_cons_eq_some.mpr ⟨s', hs', ht⟩, hIt⟩

/-- **The invariant rule.** -/
theorem run_inv {I : σ → Prop} (hstep : ∀ s a s', I s → step s a = some s' → I s')
    {s t : σ} {as : List ι} (hI : I s) (hrun : run step s as = some t) : I t := by
  induction as generalizing s with
  | nil =>
    obtain rfl : s = t := by simpa using hrun
    exact hI
  | cons a as ih =>
    obtain ⟨s', hs', hrun'⟩ := run_cons_eq_some.mp hrun
    exact ih (hstep s a s' hI hs') hrun'

/-- **A condition that is necessary and sufficient.** A step that meets the condition keeps the
good states, a step that does not meet it leads to a bad one, and there is no way back. -/
theorem run_iff_allSteps {I Bad P : σ → Prop}
    (hgood : ∀ s a s', I s → ok s a → step s a = some s' → I s')
    (hbad : ∀ s a s', I s → ¬ ok s a → step s a = some s' → Bad s')
    (hstays : ∀ s a s', Bad s → step s a = some s' → Bad s')
    (hI : ∀ s, I s → P s) (hP : ∀ s, Bad s → ¬ P s) :
    ∀ {s t : σ} {as : List ι}, I s → run step s as = some t → (P t ↔ AllSteps step ok s as) := by
  intro s t as
  induction as generalizing s with
  | nil =>
    intro h hrun
    obtain rfl : s = t := by simpa using hrun
    exact ⟨fun _ => trivial, fun _ => hI s h⟩
  | cons a as ih =>
    intro h hrun
    obtain ⟨s', hs', hrun'⟩ := run_cons_eq_some.mp hrun
    by_cases hok : ok s a
    · rw [ih (hgood s a s' h hok hs') hrun', allSteps_cons_of_eq_some hs', and_iff_right hok]
    · have hend : Bad t := run_inv hstays (hbad s a s' h hok hs') hrun'
      exact ⟨fun hp => absurd hp (hP t hend), fun hall => absurd hall.1 hok⟩

/-- A condition that follows from another one, step by step. -/
lemma AllSteps.imp {ok' : σ → ι → Prop} (himp : ∀ s a, ok s a → ok' s a) {s : σ} {as : List ι}
    (h : AllSteps step ok s as) : AllSteps step ok' s as := by
  induction as generalizing s with
  | nil => trivial
  | cons a as ih => exact ⟨himp s a h.1, fun s' hs' => ih (h.2 s' hs')⟩

/-- A property of every step of a possible run, from an invariant and a condition on the steps. -/
theorem AllSteps.of_inv {I : σ → Prop} {P : σ → ι → Prop}
    (h : ∀ s a s', I s → ok s a → step s a = some s' → P s a ∧ I s') {s t : σ} {as : List ι}
    (hI : I s) (hrun : run step s as = some t) (hall : AllSteps step ok s as) :
    AllSteps step P s as := by
  induction as generalizing s with
  | nil => trivial
  | cons a as ih =>
    obtain ⟨s', hs', hrun'⟩ := run_cons_eq_some.mp hrun
    obtain ⟨hP, hI'⟩ := h s a s' hI hall.1 hs'
    exact (allSteps_cons_of_eq_some hs').mpr ⟨hP, ih hI' hrun' (hall.2 s' hs')⟩

lemma AllStates.head {P : σ → Prop} {s : σ} {as : List ι} (h : AllStates step P s as) : P s := by
  cases as with
  | nil => exact h
  | cons a as => exact h.1

/-- **The invariant rule for every state of a run.** -/
theorem allStates_of_allSteps {I P : σ → Prop}
    (hstep : ∀ s a s', I s → ok s a → step s a = some s' → I s') (hI : ∀ s, I s → P s) :
    ∀ {s : σ} {as : List ι}, I s → AllSteps step ok s as → AllStates step P s as := by
  intro s as
  induction as generalizing s with
  | nil => exact fun h _ => hI s h
  | cons a as ih =>
    intro h hall
    exact ⟨hI s h, fun s' hs' => ih (hstep s a s' h hall.1 hs') (hall.2 s' hs')⟩

/-- **A condition for every state of a possible run.** A step that meets the condition keeps the
good states, and a step that does not meet it does not lead to a state with the property. -/
theorem allStates_iff_allSteps {I P : σ → Prop}
    (hgood : ∀ s a s', I s → ok s a → step s a = some s' → I s')
    (hbad : ∀ s a s', I s → ¬ ok s a → step s a = some s' → ¬ P s') (hI : ∀ s, I s → P s) :
    ∀ {s t : σ} {as : List ι}, I s → run step s as = some t →
      (AllStates step P s as ↔ AllSteps step ok s as) := by
  intro s t as h hrun
  constructor
  · intro hall
    induction as generalizing s with
    | nil => trivial
    | cons a as ih =>
      obtain ⟨s', hs', hrun'⟩ := run_cons_eq_some.mp hrun
      have hall' := hall.2 s' hs'
      have hok : ok s a := by
        by_contra hnot
        exact hbad s a s' h hnot hs' hall'.head
      exact (allSteps_cons_of_eq_some hs').mpr ⟨hok, ih (hgood s a s' h hok hs') hrun' hall'⟩
  · exact allStates_of_allSteps hgood hI h

/-- **A condition for every state of a run.** A step that meets the condition is possible and
keeps the good states, and a step that does not meet it does not lead to a state with the
property. -/
theorem run_allStates_iff {I P : σ → Prop}
    (hgood : ∀ s a, I s → ok s a → ∃ s', step s a = some s' ∧ I s')
    (hbad : ∀ s a s', I s → ¬ ok s a → step s a = some s' → ¬ P s') (hI : ∀ s, I s → P s) :
    ∀ {s : σ} {as : List ι}, I s →
      (((∃ t, run step s as = some t) ∧ AllStates step P s as) ↔ AllSteps step ok s as) := by
  have hkeeps : ∀ s a s', I s → ok s a → step s a = some s' → I s' := by
    intro s a s' h hok hs'
    obtain ⟨s'', hs'', h''⟩ := hgood s a h hok
    rw [hs', Option.some.injEq] at hs''
    exact hs'' ▸ h''
  intro s as h
  constructor
  · rintro ⟨⟨t, hrun⟩, hall⟩
    exact (allStates_iff_allSteps hkeeps hbad hI h hrun).mp hall
  · intro hall
    obtain ⟨t, ht, -⟩ := run_total_of_allSteps hgood h hall
    exact ⟨⟨t, ht⟩, allStates_of_allSteps hkeeps hI h hall⟩

/-- **A run is possible when every step is.** -/
theorem run_possible_iff (hstep : ∀ s a, (∃ s', step s a = some s') ↔ ok s a) (s : σ)
    (as : List ι) : (∃ t, run step s as = some t) ↔ AllSteps step ok s as := by
  induction as generalizing s with
  | nil => exact ⟨fun _ => trivial, fun _ => ⟨s, rfl⟩⟩
  | cons a as ih =>
    constructor
    · rintro ⟨t, ht⟩
      obtain ⟨s', hs', ht'⟩ := run_cons_eq_some.mp ht
      exact (allSteps_cons_of_eq_some hs').mpr ⟨(hstep s a).mp ⟨s', hs'⟩, (ih s').mp ⟨t, ht'⟩⟩
    · intro hall
      obtain ⟨s', hs'⟩ := (hstep s a).mpr hall.1
      obtain ⟨t, ht⟩ := (ih s').mpr (hall.2 s' hs')
      exact ⟨t, run_cons_eq_some.mpr ⟨s', hs', ht⟩⟩

@[simp] lemma outputs_nil (s : σ) : outputs step out s [] = [] := rfl

lemma outputs_cons {s s' : σ} {a : ι} (as : List ι) (h : step s a = some s') :
    outputs step out s (a :: as) = out s a ++ outputs step out s' as := by
  simp [outputs, h]

lemma outputs_cons_of_eq_none {s : σ} {a : ι} (as : List ι) (h : step s a = none) :
    outputs step out s (a :: as) = [] := by
  simp [outputs, h]

lemma mem_outputs_cons {s s' : σ} {a : ι} {as : List ι} {x : ω} (h : step s a = some s') :
    x ∈ outputs step out s (a :: as) ↔ x ∈ out s a ∨ x ∈ outputs step out s' as := by
  rw [outputs_cons as h, List.mem_append]

/-- An output comes from an action of the run. -/
lemma exists_of_mem_outputs {s : σ} {as : List ι} {x : ω} (h : x ∈ outputs step out s as) :
    ∃ t, ∃ a ∈ as, x ∈ out t a := by
  induction as generalizing s with
  | nil => exact absurd h List.not_mem_nil
  | cons a as ih =>
    cases hs : step s a with
    | none =>
      rw [outputs_cons_of_eq_none as hs] at h
      exact absurd h List.not_mem_nil
    | some s' =>
      rcases (mem_outputs_cons hs).mp h with h | h
      · exact ⟨s, a, List.mem_cons_self, h⟩
      · obtain ⟨t, b, hb, hx⟩ := ih h
        exact ⟨t, b, List.mem_cons_of_mem _ hb, hx⟩

/-- **The history rule**: an invariant that speaks about all outputs up to now. -/
theorem run_outputs_inv {J : σ → List ω → Prop}
    (hstep : ∀ s a s' h, J s h → ok s a → step s a = some s' → J s' (h ++ out s a)) :
    ∀ {s t : σ} {as : List ι} {h : List ω}, J s h → AllSteps step ok s as →
      run step s as = some t → J t (h ++ outputs step out s as) := by
  intro s t as
  induction as generalizing s with
  | nil =>
    intro h hJ _ hrun
    obtain rfl : s = t := by simpa using hrun
    simpa using hJ
  | cons a as ih =>
    intro h hJ hall hrun
    obtain ⟨s', hs', hrun'⟩ := run_cons_eq_some.mp hrun
    rw [outputs_cons as hs', ← List.append_assoc]
    exact ih (hstep s a s' h hJ hall.1 hs') (hall.2 s' hs') hrun'

/-- **The queue rule**: what comes in goes to the end, what goes out is taken from the front. -/
theorem outputs_queue_of_inv {I : σ → Prop} {out' : σ → ι → List ω} {q : σ → List ω}
    (hstep : ∀ s a s', I s → step s a = some s' → I s' ∧ q s ++ out s a = out' s a ++ q s') :
    ∀ {s t : σ} {as : List ι}, I s → run step s as = some t →
      q s ++ outputs step out s as = outputs step out' s as ++ q t := by
  intro s t as
  induction as generalizing s with
  | nil =>
    intro _ hrun
    obtain rfl : s = t := by simpa using hrun
    simp
  | cons a as ih =>
    intro hI hrun
    obtain ⟨s', hs', hrun'⟩ := run_cons_eq_some.mp hrun
    obtain ⟨hI', hqueue⟩ := hstep s a s' hI hs'
    rw [outputs_cons as hs', outputs_cons as hs', ← List.append_assoc, hqueue,
      List.append_assoc, ih hI' hrun', List.append_assoc]

/-- The queue rule for every state. -/
theorem outputs_queue {out' : σ → ι → List ω} {q : σ → List ω}
    (hstep : ∀ s a s', step s a = some s' → q s ++ out s a = out' s a ++ q s') {s t : σ}
    {as : List ι} (hrun : run step s as = some t) :
    q s ++ outputs step out s as = outputs step out' s as ++ q t :=
  outputs_queue_of_inv (I := fun _ => True) (fun s a s' _ h => ⟨trivial, hstep s a s' h⟩) trivial
    hrun

lemma outputs_map {ω' : Type*} (f : ω → ω') (s : σ) (as : List ι) :
    outputs step (fun s a => (out s a).map f) s as = (outputs step out s as).map f := by
  induction as generalizing s with
  | nil => rfl
  | cons a as ih =>
    cases h : step s a with
    | none => rw [outputs_cons_of_eq_none as h, outputs_cons_of_eq_none as h, List.map_nil]
    | some s' => rw [outputs_cons as h, outputs_cons as h, ih, List.map_append]

end SignalEventLoop.Lib
