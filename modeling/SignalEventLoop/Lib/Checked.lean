/-
# Computations that may fail a check

A computation in `Except ε` stops at the first check that it fails.  `Returns` says that it
gets to its end; the rules take a program apart, so that the condition under which it returns
can be read off.
-/
import Mathlib.Tactic

namespace SignalEventLoop.Lib

variable {ε α β : Type*} {x : Except ε α} {f : α → Except ε β} {p : Prop}

/-- No check fails. -/
def Returns (x : Except ε α) : Prop := ∃ a, x = .ok a

@[simp] lemma returns_ok (a : α) : Returns (.ok a : Except ε α) := ⟨a, rfl⟩

@[simp] lemma not_returns_error (e : ε) : ¬ Returns (.error e : Except ε α) := by
  rintro ⟨a, ha⟩
  cases ha

/-- The rest returns under a condition that does not depend on the first result. -/
lemma returns_bind_iff {q : Prop} (h : ∀ a, x = .ok a → (Returns (f a) ↔ q)) :
    Returns (x.bind f) ↔ Returns x ∧ q := by
  cases x with
  | error e => simp [Except.bind]
  | ok a => simpa [Except.bind] using h a rfl

@[simp] lemma returns_map (g : α → β) : Returns (x.map g) ↔ Returns x := by
  cases x with
  | error e => simp [Except.map]
  | ok a => simp [Except.map]

lemma returns_ite [Decidable p] {y : Except ε α} :
    Returns (if p then x else y) ↔ (p → Returns x) ∧ (¬ p → Returns y) := by
  split_ifs with h <;> simp [h]

lemma returns_iff_toOption : Returns x ↔ ∃ a, x.toOption = some a := by
  cases x with
  | error e => simp [Except.toOption]
  | ok a => simp [Except.toOption]

/-- Every result has the property. -/
def Ensures (x : Except ε α) (P : α → Prop) : Prop := ∀ a, x = .ok a → P a

variable {P : α → Prop} {Q : β → Prop}

@[simp] lemma ensures_ok {a : α} : Ensures (.ok a : Except ε α) P ↔ P a := by simp [Ensures]

lemma ensures_map {g : α → β} : Ensures (x.map g) Q ↔ Ensures x fun a => Q (g a) := by
  cases x with
  | error e => simp [Ensures, Except.map]
  | ok a => simp [Ensures, Except.map]

lemma ensures_bind (h : ∀ a, Ensures (f a) Q) : Ensures (x.bind f) Q := by
  cases x with
  | error e => simp [Ensures, Except.bind]
  | ok a => exact h a

lemma ensures_ite [Decidable p] {y : Except ε α} (hx : Ensures x P) (hy : Ensures y P) :
    Ensures (if p then x else y) P := by
  split_ifs
  · exact hx
  · exact hy

/-- A property of all values holds of every result. -/
lemma ensures_of_forall (h : ∀ a, P a) : Ensures x P := fun a _ => h a

end SignalEventLoop.Lib
