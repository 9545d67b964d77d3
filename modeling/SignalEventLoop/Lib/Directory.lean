/-
# The files of a directory

A directory gives every name the content of its file.  `renameAll` renames one file after the
other.  When no target is the source or the target of a later step, the files end up at the
targets with the contents that they had at the beginning, also when a target is the source of
an earlier step.  When moreover every target is free at the beginning, or the source of another
step, no step renames a file onto one that is there.
-/
import SignalEventLoop.Lib.Run

namespace SignalEventLoop.Lib

variable {ν χ : Type*} [DecidableEq ν]

/-- The content of every file; `none` when there is no file of the name. -/
abbrev Directory (ν χ : Type*) := ν → Option χ

namespace Directory

variable {d : Directory ν χ} {old new x : ν} {valid : ν → Bool}

/-- Every file of the directory is listed once, in any order. -/
def Lists (d : Directory ν χ) (order : List ν) : Prop :=
  order.Nodup ∧ ∀ x, x ∈ order ↔ d x ≠ none

def write (d : Directory ν χ) (name : ν) (content : χ) : Directory ν χ :=
  Function.update d name (some content)

/-- `remove` -/
def remove (d : Directory ν χ) (name : ν) : Directory ν χ := Function.update d name none

/-- `rename`; it fails when there is no file, and when the new name is not valid. -/
def rename (valid : ν → Bool) (d : Directory ν χ) (old new : ν) : Directory ν χ :=
  match d old with
  | none => d
  | some content => if valid new then (d.remove old).write new content else d

def renameAll (valid : ν → Bool) (d : Directory ν χ) (pairs : List (ν × ν)) : Directory ν χ :=
  pairs.foldl (fun d p => d.rename valid p.1 p.2) d

def removeAll (d : Directory ν χ) (names : List ν) : Directory ν χ := names.foldl remove d

@[simp] lemma write_self (content : χ) : d.write x content x = some content :=
  Function.update_self _ _ _

lemma write_of_ne (h : x ≠ new) (content : χ) : d.write new content x = d x :=
  Function.update_of_ne h _ _

lemma removeAll_of_mem {names : List ν} (h : x ∈ names ∨ d x = none) :
    d.removeAll names x = none := by
  induction names generalizing d with
  | nil => exact h.resolve_left (by simp)
  | cons name names ih =>
    refine ih ?_
    by_cases hx : x = name
    · exact Or.inr (hx ▸ Function.update_self _ _ _)
    · refine h.imp (fun h => (List.mem_cons.mp h).resolve_left hx) fun h => ?_
      exact (Function.update_of_ne hx _ _).trans h

lemma removeAll_of_notMem {names : List ν} (h : x ∉ names) : d.removeAll names x = d x := by
  induction names generalizing d with
  | nil => rfl
  | cons name names ih =>
    rw [List.mem_cons, not_or] at h
    exact (ih h.2).trans (Function.update_of_ne h.1 _ _)

/-! ## One step -/

lemma rename_new (hnew : valid new = true) (hold : d old ≠ none) :
    d.rename valid old new new = d old := by
  obtain ⟨content, hcontent⟩ := Option.ne_none_iff_exists'.mp hold
  simp [rename, hcontent, hnew]

lemma rename_old (hnew : valid new = true) (hold : d old ≠ none) (hne : old ≠ new) :
    d.rename valid old new old = none := by
  obtain ⟨content, hcontent⟩ := Option.ne_none_iff_exists'.mp hold
  simp only [rename, hcontent, hnew, if_true]
  exact (write_of_ne hne _).trans (Function.update_self _ _ _)

lemma rename_of_ne (hx : x ≠ old) (hx' : x ≠ new) : d.rename valid old new x = d x := by
  cases hold : d old with
  | none => simp only [rename, hold]
  | some content =>
    simp only [rename, hold]
    split_ifs
    · exact (write_of_ne hx' _).trans (Function.update_of_ne hx _ _)
    · rfl

/-! ## All of them -/

/-- An earlier step moves another file than a later one, to another place, and not to where the
later one finds its file. -/
def Apart (p q : ν × ν) : Prop := p.1 ≠ q.1 ∧ p.2 ≠ q.1 ∧ p.2 ≠ q.2

/-- The steps of a list can be made one after the other. -/
structure Movable (valid : ν → Bool) (d : Directory ν χ) (pairs : List (ν × ν)) : Prop where
  apart : pairs.Pairwise Apart
  ne : ∀ p ∈ pairs, p.1 ≠ p.2
  found : ∀ p ∈ pairs, d p.1 ≠ none
  valid : ∀ p ∈ pairs, valid p.2 = true

variable {pairs : List (ν × ν)} {p : ν × ν}

lemma Movable.tail (h : Movable valid d (p :: pairs)) :
    Movable valid (d.rename valid p.1 p.2) pairs := by
  obtain ⟨hp, hapart⟩ := List.pairwise_cons.mp h.apart
  refine ⟨hapart, fun q hq => h.ne q (List.mem_cons_of_mem _ hq), fun q hq => ?_,
    fun q hq => h.valid q (List.mem_cons_of_mem _ hq)⟩
  rw [rename_of_ne (hp q hq).1.symm (hp q hq).2.1.symm]
  exact h.found q (List.mem_cons_of_mem _ hq)

/-- Away from the sources and the targets nothing changes. -/
lemma renameAll_of_notMem (hx : ∀ p ∈ pairs, x ≠ p.1 ∧ x ≠ p.2) :
    d.renameAll valid pairs x = d x := by
  induction pairs generalizing d with
  | nil => rfl
  | cons p pairs ih =>
    have hp := hx p List.mem_cons_self
    exact (ih fun q hq => hx q (List.mem_cons_of_mem _ hq)).trans (rename_of_ne hp.1 hp.2)

/-- Every file is at its target. -/
theorem renameAll_target (h : Movable valid d pairs) :
    ∀ p ∈ pairs, d.renameAll valid pairs p.2 = d p.1 := by
  induction pairs generalizing d with
  | nil => simp
  | cons p pairs ih =>
    obtain ⟨hp, -⟩ := List.pairwise_cons.mp h.apart
    intro q hq
    rcases List.mem_cons.mp hq with rfl | hq
    · refine (renameAll_of_notMem fun r hr => (hp r hr).2).trans ?_
      exact rename_new (h.valid _ List.mem_cons_self) (h.found _ List.mem_cons_self)
    · refine (ih h.tail q hq).trans ?_
      exact rename_of_ne (hp q hq).1.symm (hp q hq).2.1.symm

/-- A source that is not a target is free. -/
theorem renameAll_source (h : Movable valid d pairs) (hx : ∀ p ∈ pairs, x ≠ p.2)
    (hsource : (∃ p ∈ pairs, x = p.1) ∨ d x = none) : d.renameAll valid pairs x = none := by
  induction pairs generalizing d with
  | nil => exact hsource.resolve_left (by simp)
  | cons p pairs ih =>
    have hp2 : x ≠ p.2 := hx p List.mem_cons_self
    refine ih h.tail (fun q hq => hx q (List.mem_cons_of_mem _ hq)) ?_
    by_cases hp1 : x = p.1
    · right
      subst hp1
      exact rename_old (h.valid p List.mem_cons_self) (h.found p List.mem_cons_self)
        (h.ne p List.mem_cons_self)
    · refine hsource.imp ?_ fun hnone => (rename_of_ne hp1 hp2).trans hnone
      rintro ⟨q, hq, rfl⟩
      exact ⟨q, (List.mem_cons.mp hq).resolve_left fun hqp => hp1 (hqp ▸ rfl), rfl⟩

/-! ## Calls -/

/-- A call that changes a directory. -/
inductive Call (ν : Type*) where
  | rename (old new : ν)
  | remove (name : ν)
  deriving DecidableEq

def Call.step (valid : ν → Bool) (d : Directory ν χ) : Call ν → Option (Directory ν χ)
  | .rename old new => some (d.rename valid old new)
  | .remove name => some (d.remove name)

/-- The call does not rename a file onto one that is there. -/
def Call.NotOnto (d : Directory ν χ) : Call ν → Prop
  | .rename _ new => d new = none
  | .remove _ => True

def renames (pairs : List (ν × ν)) : List (Call ν) := pairs.map fun p => .rename p.1 p.2

lemma run_renames (valid : ν → Bool) (d : Directory ν χ) (pairs : List (ν × ν)) :
    run (Call.step valid) d (renames pairs) = some (d.renameAll valid pairs) := by
  induction pairs generalizing d with
  | nil => rfl
  | cons p pairs ih => exact ih _

lemma run_removes (valid : ν → Bool) (d : Directory ν χ) (names : List ν) :
    run (Call.step valid) d (names.map .remove) = some (d.removeAll names) := by
  induction names generalizing d with
  | nil => rfl
  | cons name names ih => exact ih _

lemma allSteps_removes (valid : ν → Bool) (d : Directory ν χ) (names : List ν) :
    AllSteps (Call.step valid) Call.NotOnto d (names.map .remove) := by
  induction names generalizing d with
  | nil => trivial
  | cons name names ih => exact ⟨trivial, fun d' _ => ih d'⟩

/-- **No step renames onto a file** when every target is free or a source. -/
theorem allSteps_renames (h : Movable valid d pairs)
    (hfree : ∀ p ∈ pairs, d p.2 = none ∨ ∃ q ∈ pairs, p.2 = q.1) :
    AllSteps (Call.step valid) Call.NotOnto d (renames pairs) := by
  induction pairs generalizing d with
  | nil => trivial
  | cons p pairs ih =>
    obtain ⟨hp, -⟩ := List.pairwise_cons.mp h.apart
    have hne : p.1 ≠ p.2 := h.ne p List.mem_cons_self
    have hold : d.rename valid p.1 p.2 p.1 = none :=
      rename_old (h.valid p List.mem_cons_self) (h.found p List.mem_cons_self) hne
    refine (allSteps_cons_of_eq_some rfl).mpr ⟨?_, ih h.tail fun q hq => ?_⟩
    · rcases hfree p List.mem_cons_self with hnone | ⟨r, hr, heq⟩
      · exact hnone
      · rcases List.mem_cons.mp hr with rfl | hr
        · exact absurd heq.symm hne
        · exact absurd heq (hp r hr).2.1
    · -- the place that the file leaves is free, the other places are as they were
      by_cases hq1 : q.2 = p.1
      · exact Or.inl (hq1 ▸ hold)
      · rcases hfree q (List.mem_cons_of_mem _ hq) with hnone | ⟨r, hr, heq⟩
        · exact Or.inl ((rename_of_ne hq1 (hp q hq).2.2.symm).trans hnone)
        · rcases List.mem_cons.mp hr with rfl | hr
          · exact absurd heq hq1
          · exact Or.inr ⟨r, hr, heq⟩

end Directory

end SignalEventLoop.Lib
