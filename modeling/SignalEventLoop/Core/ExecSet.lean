/-
# Every object with work is in the exec set of its parent

An object that has queued events, armed timers or children with work must be found by the
next pass of the scheduler, which walks down the `execSubObjectSet`s.  The invariant is
that an object with work, or whose `isTriggering` is set, is *attended*: it is in the set of
its parent, or in the part of that set that a running `handleChildEvent` has still to visit,
or its own `handleEvent` is running.

`addTriggerEvent`, `pushExec` and the end of `handleEvent` keep it.  `startTimer` arms a
timer without entering the object into any set, so a timer may be started only while its
object is attended (`StartsAttended`).
-/
import SignalEventLoop.Core.ObjectTree
import SignalEventLoop.Core.TimerSpec

namespace SignalEventLoop.Core

namespace ObjectState

variable {O ε : Type*} [LinearOrder O] {x : ObjectState O ε}

lemma hasWork_iff : x.hasWork = true ↔
    x.triggerEventQueue ≠ [] ∨ x.tables.timerEventsMap.isEmpty = false ∨
      x.execSubObjectSet.isEmpty = false := by
  simp only [hasWork, Bool.or_eq_true, Bool.not_eq_true', or_assoc, ne_eq,
    List.isEmpty_eq_false_iff]

end ObjectState

/-! ## What an action can do -/

namespace TreeConf

variable {O ε : Type*} [LinearOrder O] {T : ObjectTree O} {c c' : TreeConf O ε}

lemma step_tick {ms : ℕ} (h : c.step T (.tick ms) = some c') :
    c' = { c with clock := c.clock + ms } := by
  rw [step] at h
  split at h
  · exact (Option.some.inj h).symm
  · exact absurd h (by simp)

lemma step_addTriggerEvent {o : O} {e : ε} (h : c.step T (.addTriggerEvent o e) = some c') :
    c' = { c with objs := T.addTriggerEvent c.objs o e } := by
  rw [step] at h
  split at h
  · exact (Option.some.inj h).symm
  · exact absurd h (by simp)

lemma step_timer {o : O} {op : TimerOp} (h : c.step T (.timer o op) = some c') :
    c' = c.setObj o { c.objs o with tables := (c.objs o).tables.apply c.clock op } := by
  rw [step] at h
  split at h
  · exact (Option.some.inj h).symm
  · exact absurd h (by simp)

lemma step_handleEvent (h : c.step T .handleEvent = some c') :
    c.stack = [] ∧ c' = c.enter T.root [] := by
  rw [step] at h
  split at h
  · next hs => exact ⟨hs, (Option.some.inj h).symm⟩
  · exact absurd h (by simp)

lemma step_runEvent (h : c.step T .runEvent = some c') :
    ∃ o q fs, c.stack = ⟨o, .trigger q false⟩ :: fs ∧
      c' = { c with stack := ⟨o, .trigger q true⟩ :: fs } := by
  rw [step] at h
  split at h
  · next o e q fs hs => exact ⟨o, e :: q, fs, hs, (Option.some.inj h).symm⟩
  · exact absurd h (by simp)

lemma step_eventReturn (h : c.step T .eventReturn = some c') :
    ∃ o e q fs, c.stack = ⟨o, .trigger (e :: q) true⟩ :: fs ∧
      c' = { c with stack := ⟨o, .trigger q false⟩ :: fs } := by
  rw [step] at h
  split at h
  · next o e q fs hs => exact ⟨o, e, q, fs, hs, (Option.some.inj h).symm⟩
  · exact absurd h (by simp)

lemma step_handleChildEvent (h : c.step T .handleChildEvent = some c') :
    ∃ o fs, c.stack = ⟨o, .trigger [] false⟩ :: fs ∧
      c' = { c.setObj o { c.objs o with execSubObjectSet := ∅ } with
        stack := ⟨o, .children (c.objs o).execSubObjectSet.toList⟩ :: fs } := by
  rw [step] at h
  split at h
  · next o fs hs => exact ⟨o, fs, hs, (Option.some.inj h).symm⟩
  · exact absurd h (by simp)

lemma step_childEvent (h : c.step T .childEvent = some c') :
    ∃ o i rest fs, c.stack = ⟨o, .children (i :: rest)⟩ :: fs ∧
      c' = c.enter i (⟨o, .children rest⟩ :: fs) ∧ c.visits .childEvent = [i] := by
  rw [step] at h
  split at h
  · next o i rest fs hs =>
    exact ⟨o, i, rest, fs, hs, (Option.some.inj h).symm, by simp [visits, hs]⟩
  · exact absurd h (by simp)

lemma step_handleTimerEvent (h : c.step T .handleTimerEvent = some c') :
    ∃ o p fs, c.stack = ⟨o, .children []⟩ :: fs ∧
      c' = { c.setObj o { c.objs o with tables := (c.objs o).tables.dropExpired c.clock } with
        stack := ⟨o, .timers p⟩ :: fs } := by
  rw [step] at h
  split at h
  · next o fs hs => exact ⟨o, _, fs, hs, (Option.some.inj h).symm⟩
  · exact absurd h (by simp)

lemma step_emitTimeout (h : c.step T .emitTimeout = some c') :
    ∃ o p p' fs, c.stack = ⟨o, .timers p⟩ :: fs ∧
      c' = { c with stack := ⟨o, .timers p'⟩ :: fs } := by
  rw [step] at h
  split at h
  · next o p fs hs =>
    obtain ⟨e, -, rfl⟩ := Option.map_eq_some_iff.mp h
    exact ⟨o, p, e.2, fs, hs, rfl⟩
  · exact absurd h (by simp)

/-- The tables change at most in the work state of a timer. -/
lemma step_slotsReturn (h : c.step T .slotsReturn = some c') :
    ∃ o p p' fs tables, c.stack = ⟨o, .timers p⟩ :: fs ∧
      c' = { c.setObj o { c.objs o with tables := tables } with stack := ⟨o, .timers p'⟩ :: fs } ∧
      (tables = (c.objs o).tables ∨ ∃ r, tables = (c.objs o).tables.setTimer r
        (((c.objs o).tables.timers r).setWorkState false)) := by
  rw [step] at h
  split at h
  · next o p fs hs =>
    obtain ⟨⟨p', tables⟩, hp, rfl⟩ := Option.map_eq_some_iff.mp h
    refine ⟨o, p, p', fs, tables, hs, rfl, ?_⟩
    rw [Pass.slotsReturn] at hp
    split at hp
    · next r rest _ _ =>
      split_ifs at hp
      · exact Or.inl (congrArg Prod.snd (Option.some.inj hp)).symm
      · exact Or.inr ⟨r, (congrArg Prod.snd (Option.some.inj hp)).symm⟩
    · exact absurd hp (by simp)
  · exact absurd h (by simp)

lemma step_finish (h : c.step T .finish = some c') :
    ∃ o p fs, c.stack = ⟨o, .timers p⟩ :: fs ∧
      c' = { c with
        objs := T.leave (Function.update c.objs o
          { c.objs o with tables := (c.objs o).tables.requeue c.clock p.cycleQueue }) o
        stack := fs } := by
  rw [step] at h
  split at h
  · next o p fs hs =>
    obtain ⟨tables, hp, rfl⟩ := Option.map_eq_some_iff.mp h
    refine ⟨o, p, fs, hs, ?_⟩
    rw [Pass.finish] at hp
    split at hp
    · rw [← Option.some.inj hp]
    · exact absurd hp (by simp)
  · exact absurd h (by simp)

end TreeConf

/-! ## Attended objects -/

/-- The objects that the activation has still to visit. -/
def Frame.remaining {O ε : Type*} (f : Frame O ε) : List O :=
  match f.phase with
  | .children execSet => execSet
  | _ => []

namespace ObjectTree

variable {O ε : Type*} [LinearOrder O] {T : ObjectTree O} {objs objs' : O → ObjectState O ε}
  {stack stack' : List (Frame O ε)} {o p x : O}

/-- The next pass, or the running one, comes to the object. -/
def Attended (T : ObjectTree O) (objs : O → ObjectState O ε) (stack : List (Frame O ε)) (o : O) :
    Prop :=
  (∃ p ∈ T.parent o, o ∈ (objs p).execSubObjectSet) ∨
    ∃ f ∈ stack, f.obj = o ∨ o ∈ f.remaining

/-- Every object but `except` that has work, or whose flag is set, is attended. -/
def AttendedBut (T : ObjectTree O) (objs : O → ObjectState O ε) (stack : List (Frame O ε))
    (except : O → Prop) : Prop :=
  ∀ o, o ≠ T.root → ¬ except o → (objs o).hasWork = true ∨ (objs o).isTriggering = true →
    T.Attended objs stack o

lemma Attended.mono (h : T.Attended objs stack o)
    (hexec : ∀ p y, y ∈ (objs p).execSubObjectSet → y ∈ (objs' p).execSubObjectSet) :
    T.Attended objs' stack o := by
  rcases h with ⟨p, hp, ho⟩ | h
  · exact Or.inl ⟨p, hp, hexec p o ho⟩
  · exact Or.inr h

omit [LinearOrder O] in
lemma ne_of_parent (hx : T.parent x = some p) : p ≠ x := by
  rintro rfl
  have := T.depth_parent p p hx
  omega

/-- What `pushExec` leaves alone, and what it may add. -/
structure Pushed (T : ObjectTree O) (objs objs' : O → ObjectState O ε) : Prop where
  tables : ∀ o, (objs' o).tables = (objs o).tables
  grows : ∀ p y, y ∈ (objs p).execSubObjectSet → y ∈ (objs' p).execSubObjectSet
  children : ∀ p y, y ∈ (objs' p).execSubObjectSet →
    y ∈ (objs p).execSubObjectSet ∨ T.parent y = some p

lemma Pushed.trans {objs₁ : O → ObjectState O ε} (h : Pushed T objs objs₁)
    (h' : Pushed T objs₁ objs') : Pushed T objs objs' where
  tables := fun o => (h'.tables o).trans (h.tables o)
  grows := fun p y hy => h'.grows p y (h.grows p y hy)
  children := by
    intro p y hy
    rcases h'.children p y hy with hy | hy
    · exact h.children p y hy
    · exact Or.inr hy

lemma pushed_insert (hx : T.parent x = some p) (flag : Bool) :
    Pushed T objs (Function.update objs p { objs p with
      execSubObjectSet := (objs p).execSubObjectSet.insert x, isTriggering := flag }) where
  tables := by
    intro o
    by_cases ho : o = p
    · subst ho
      simp
    · simp [ho]
  grows := by
    intro q y hy
    by_cases hq : q = p
    · subst hq
      simp [Std.ExtTreeSet.mem_insert, hy]
    · simpa [hq] using hy
  children := by
    intro q y hy
    by_cases hq : q = p
    · subst hq
      simp only [Function.update_self, Std.ExtTreeSet.mem_insert, compare_eq_iff_eq] at hy
      rcases hy with rfl | hy
      · exact Or.inr hx
      · exact Or.inl hy
    · rw [Function.update_of_ne hq] at hy
      exact Or.inl hy

lemma pushExecFrom_pushed (fuel : ℕ) (objs : O → ObjectState O ε) (p x : O)
    (hx : T.parent x = some p) : Pushed T objs (T.pushExecFrom fuel objs p x) := by
  induction fuel generalizing objs p x with
  | zero => exact ⟨fun _ => rfl, fun _ _ hy => hy, fun _ _ hy => Or.inl hy⟩
  | succ fuel ih =>
    rw [pushExecFrom]
    cases hp : T.parent p with
    | none => exact pushed_insert hx _
    | some g =>
      dsimp only
      split_ifs
      · exact pushed_insert hx _
      · exact (pushed_insert hx true).trans (ih _ g p hp)

/-- `pushExec` attends to the object it enters, and then to the parent when that had
nothing to do before. -/
lemma pushExecFrom_attended (fuel : ℕ) (objs : O → ObjectState O ε) (p x : O)
    (hfuel : T.depth p < fuel) (hx : T.parent x = some p)
    (hbut : T.AttendedBut objs stack (· = x)) :
    T.AttendedBut (T.pushExecFrom fuel objs p x) stack fun _ => False := by
  induction fuel generalizing objs p x with
  | zero => omega
  | succ fuel ih =>
    -- entering `x` attends to it, so that only `p` is left open
    have hopen : ∀ flag : Bool, T.AttendedBut (Function.update objs p { objs p with
        execSubObjectSet := (objs p).execSubObjectSet.insert x, isTriggering := flag }) stack
        (· = p) := by
      intro flag o hroot hop hdue
      rw [Function.update_of_ne hop] at hdue
      by_cases hox : o = x
      · subst hox
        exact Or.inl ⟨p, hx, by simp⟩
      · exact (hbut o hroot hox hdue).mono (pushed_insert hx flag).grows
    rw [pushExecFrom]
    cases hp : T.parent p with
    | none =>
      intro o hroot _ hdue
      refine hopen _ o hroot ?_ hdue
      rintro rfl
      exact hroot (T.eq_root o hp)
    | some g =>
      dsimp only
      split_ifs with hflag
      · -- the walk stops at a parent whose flag is set, which is attended already
        intro o hroot _ hdue
        by_cases hop : o = p
        · subst hop
          exact (hbut o hroot (ne_of_parent hx) (Or.inr hflag)).mono (pushed_insert hx _).grows
        · exact hopen _ o hroot hop hdue
      · -- otherwise `p` is the open object now, one level higher
        have hg := T.depth_parent p g hp
        exact ih _ g p (by omega) hp (hopen true)

end ObjectTree

/-! ## The invariant -/

lemma TimerTables.apply_isEmpty {s : TimerTables} (hids : s.IdInv) {now : ℤ} {op : TimerOp}
    (hop : ∀ r, op = .start r → (s.start now r).1 = true → (s.timers r).working = true)
    (h : s.timerEventsMap.isEmpty = true) : (s.apply now op).timerEventsMap.isEmpty = true := by
  have herase : ∀ k : ℤ × ℕ, (s.timerEventsMap.erase k).isEmpty = true := by
    intro k
    rw [Std.ExtTreeMap.isEmpty_iff] at h
    simp [h]
  cases op with
  | addTimer i =>
    rw [TimerTables.apply, (s.addTimer_frame i).1]
    exact h
  | setInterval r i => exact h
  | setSingle r b => exact h
  | start r =>
    rcases hids.start_cases now r with ⟨-, he⟩ | ⟨-, he⟩ | ⟨-, hw, he⟩
    · simpa only [TimerTables.apply, he] using h
    · simpa only [TimerTables.apply, he] using h
    · have hw' := hop r rfl (by rw [he])
      exact absurd (hw.symm.trans hw') (by simp)
  | stop r =>
    by_cases hr : (s.timers r).timerId = 0
    · simpa only [TimerTables.apply, TimerTables.stop_of_invalid hr] using h
    · rw [TimerTables.apply, hids.stop_of_valid hr]
      exact herase _
  | release r =>
    by_cases hr : (s.timers r).timerId = 0
    · simpa only [TimerTables.apply, TimerTables.release_of_invalid hr] using h
    · rw [TimerTables.apply, hids.release_of_valid hr]
      exact herase _

namespace TreeConf

variable {O ε : Type*} [LinearOrder O] {T : ObjectTree O} {c c' : TreeConf O ε}
  {a : TreeAction O ε}

/-- The object and the timer that the action starts, if it starts one. -/
def starts : TreeAction O ε → Option (O × TimerRef)
  | .timer o (.start r) => some (o, r)
  | _ => none

/-- The condition on a step: `start` arms a timer of an object other than the root only
while the object is attended. -/
def StartsAttended (T : ObjectTree O) (c : TreeConf O ε) (a : TreeAction O ε) : Prop :=
  ∀ e ∈ starts a, ((c.objs e.1).tables.start c.clock e.2).1 = true →
    ((c.objs e.1).tables.timers e.2).working = false →
      e.1 = T.root ∨ T.Attended c.objs c.stack e.1

/-- The invariant of the loop thread. -/
structure ExecInv (T : ObjectTree O) (c : TreeConf O ε) : Prop where
  ids : ∀ o, (c.objs o).tables.IdInv
  children : ∀ p o, o ∈ (c.objs p).execSubObjectSet → T.parent o = some p
  attended : T.AttendedBut c.objs c.stack fun _ => False

lemma setObj_objs (c : TreeConf O ε) (o q : O) (x : ObjectState O ε) :
    (c.setObj o x).objs q = if q = o then x else c.objs q := by
  simp [setObj, Function.update_apply]

/-- Changes of an object that do not concern its set of children. -/
lemma execSubObjectSet_update {objs : O → ObjectState O ε} {q : O} {x : ObjectState O ε}
    (hx : x.execSubObjectSet = (objs q).execSubObjectSet) (p : O) :
    (Function.update objs q x p).execSubObjectSet = (objs p).execSubObjectSet := by
  by_cases hp : p = q
  · subst hp
    rw [Function.update_self, hx]
  · rw [Function.update_of_ne hp]

/-- An object that is changed, with its set of children untouched, may be the only one
that is no longer attended. -/
lemma ExecInv.but_update (h : ExecInv T c) (o : O) (x : ObjectState O ε)
    (stack : List (Frame O ε)) (hids : x.tables.IdInv)
    (hexec : x.execSubObjectSet = (c.objs o).execSubObjectSet)
    (hstack : ∀ q, q ≠ o → (∃ f ∈ c.stack, f.obj = q ∨ q ∈ f.remaining) →
      ∃ f ∈ stack, f.obj = q ∨ q ∈ f.remaining) :
    (∀ q, (Function.update c.objs o x q).tables.IdInv) ∧
      (∀ p q, q ∈ (Function.update c.objs o x p).execSubObjectSet → T.parent q = some p) ∧
      T.AttendedBut (Function.update c.objs o x) stack (· = o) := by
  refine ⟨fun q => ?_, fun p q hq => ?_, ?_⟩
  · by_cases hq : q = o
    · subst hq
      rw [Function.update_self]
      exact hids
    · rw [Function.update_of_ne hq]
      exact h.ids q
  · rw [execSubObjectSet_update hexec p] at hq
    exact h.children p q hq
  · intro q hroot hqo hq
    rw [Function.update_of_ne hqo] at hq
    rcases h.attended q hroot not_false hq with ⟨p, hp, ha⟩ | ha
    · exact Or.inl ⟨p, hp, by rw [execSubObjectSet_update hexec p]; exact ha⟩
    · exact Or.inr (hstack q hqo ha)

/-- A step that changes one object, and the stack, in such a way that the object asks for
no more than before, and is attended if it was. -/
lemma ExecInv.setObj (h : ExecInv T c) {o : O} {x : ObjectState O ε} {stack : List (Frame O ε)}
    (hids : x.tables.IdInv) (hexec : x.execSubObjectSet = (c.objs o).execSubObjectSet)
    (hdue : x.hasWork = true ∨ x.isTriggering = true → (c.objs o).hasWork = true ∨
      (c.objs o).isTriggering = true ∨ o = T.root ∨ T.Attended c.objs c.stack o)
    (hstack : ∀ q, (∃ f ∈ c.stack, f.obj = q ∨ q ∈ f.remaining) →
      ∃ f ∈ stack, f.obj = q ∨ q ∈ f.remaining) :
    ExecInv T { c.setObj o x with stack := stack } := by
  obtain ⟨hids', hchildren, hbut⟩ :=
    h.but_update o x stack hids hexec fun q _ hq => hstack q hq
  refine ⟨hids', hchildren, fun q hroot hfalse hq => ?_⟩
  by_cases hqo : q = o
  · subst hqo
    replace hq : (Function.update c.objs q x q).hasWork = true ∨
      (Function.update c.objs q x q).isTriggering = true := hq
    rw [Function.update_self] at hq
    -- the object itself was attended before the step
    have hbefore : T.Attended c.objs c.stack q := by
      rcases hdue hq with hw | hf | hr | ha
      · exact h.attended q hroot hfalse (Or.inl hw)
      · exact h.attended q hroot hfalse (Or.inr hf)
      · exact absurd hr hroot
      · exact ha
    rcases hbefore with ⟨p, hp, ha⟩ | ha
    · refine Or.inl ⟨p, hp, ?_⟩
      show q ∈ (Function.update c.objs q x p).execSubObjectSet
      rw [execSubObjectSet_update hexec p]
      exact ha
    · exact Or.inr (hstack q ha)
  · exact hbut q hroot hqo hq

lemma ExecInv.restack (h : ExecInv T c) {stack : List (Frame O ε)}
    (hstack : ∀ q, (∃ f ∈ c.stack, f.obj = q ∨ q ∈ f.remaining) →
      ∃ f ∈ stack, f.obj = q ∨ q ∈ f.remaining) : ExecInv T { c with stack := stack } := by
  refine ⟨h.ids, h.children, fun q hroot hfalse hq => ?_⟩
  rcases h.attended q hroot hfalse hq with ha | ha
  · exact Or.inl ha
  · exact Or.inr (hstack q ha)

/-- `pushExec` of the parent closes the one gap that an object leaves. -/
lemma execInv_pushExec {clock : ℤ} {objs : O → ObjectState O ε} {stack : List (Frame O ε)}
    {o p : O} (hp : T.parent o = some p) (hids : ∀ q, (objs q).tables.IdInv)
    (hchildren : ∀ p q, q ∈ (objs p).execSubObjectSet → T.parent q = some p)
    (hbut : T.AttendedBut objs stack (· = o)) :
    ExecInv T ⟨clock, T.pushExec objs p o, stack⟩ := by
  have hpushed := ObjectTree.pushExecFrom_pushed (T.depth p + 1) objs p o hp
  refine ⟨fun q => ?_, fun p' q hq => ?_,
    ObjectTree.pushExecFrom_attended (T.depth p + 1) objs p o (Nat.lt_succ_self _) hp hbut⟩
  · show (T.pushExecFrom (T.depth p + 1) objs p o q).tables.IdInv
    rw [hpushed.tables q]
    exact hids q
  · rcases hpushed.children p' q hq with hq | hq
    · exact hchildren p' q hq
    · exact hq

lemma addTriggerEvent_execInv (h : ExecInv T c) (o : O) (e : ε) :
    ExecInv T { c with objs := T.addTriggerEvent c.objs o e } := by
  by_cases hfull : triggerCapacity ≤ (c.objs o).triggerEventQueue.length
  · simpa [ObjectTree.addTriggerEvent, pushTrigger, hfull] using h
  · cases hp : T.parent o with
    | none =>
      simp only [ObjectTree.addTriggerEvent, pushTrigger, if_neg hfull, hp]
      exact h.setObj (h.ids o) rfl (fun _ => Or.inr (Or.inr (Or.inl (T.eq_root o hp))))
        (fun _ hq => hq)
    | some p =>
      simp only [ObjectTree.addTriggerEvent, pushTrigger, if_neg hfull, hp]
      split_ifs with hflag
      · exact h.setObj (h.ids o) rfl (fun _ => Or.inr (Or.inl hflag)) (fun _ hq => hq)
      · obtain ⟨hids, hchildren, hbut⟩ := h.but_update o { c.objs o with
            triggerEventQueue := (c.objs o).triggerEventQueue ++ [e], isTriggering := true }
          c.stack (h.ids o) rfl (fun _ _ hq => hq)
        exact execInv_pushExec hp hids hchildren hbut

lemma handleChildEvent_execInv (h : ExecInv T c) {o : O} {fs : List (Frame O ε)}
    (hs : c.stack = ⟨o, .trigger [] false⟩ :: fs) :
    ExecInv T { c.setObj o { c.objs o with execSubObjectSet := ∅ } with
      stack := ⟨o, .children (c.objs o).execSubObjectSet.toList⟩ :: fs } := by
  have hsets : ∀ p q,
      q ∈ ((c.setObj o { c.objs o with execSubObjectSet := ∅ }).objs p).execSubObjectSet →
        q ∈ (c.objs p).execSubObjectSet := by
    intro p q hq
    rw [setObj_objs] at hq
    split_ifs at hq
    · exact absurd hq Std.ExtTreeSet.not_mem_empty
    · exact hq
  refine ⟨fun q => ?_, fun p q hq => h.children p q (hsets p q hq), fun q hroot hfalse hq => ?_⟩
  · show ((c.setObj o _).objs q).tables.IdInv
    rw [setObj_objs]
    split_ifs with hqo
    · exact h.ids o
    · exact h.ids q
  · by_cases hqo : q = o
    · -- its own `handleEvent` is running
      exact Or.inr ⟨_, List.mem_cons_self, Or.inl hqo.symm⟩
    · replace hq : ((c.setObj o { c.objs o with execSubObjectSet := ∅ }).objs q).hasWork = true ∨
        ((c.setObj o { c.objs o with execSubObjectSet := ∅ }).objs q).isTriggering = true := hq
      rw [setObj_objs, if_neg hqo] at hq
      rcases h.attended q hroot hfalse hq with ⟨p, hp, ha⟩ | ⟨f, hf, ha⟩
      · by_cases hpo : p = o
        · -- the set of `o` is now the list of the children to visit
          subst hpo
          exact Or.inr ⟨_, List.mem_cons_self, Or.inr (by simpa [Frame.remaining] using ha)⟩
        · refine Or.inl ⟨p, hp, ?_⟩
          show q ∈ ((c.setObj o _).objs p).execSubObjectSet
          rw [setObj_objs, if_neg hpo]
          exact ha
      · rw [hs] at hf
        rcases List.mem_cons.mp hf with rfl | hf
        · rcases ha with ha | ha
          · exact absurd ha.symm hqo
          · simp [Frame.remaining] at ha
        · exact Or.inr ⟨f, List.mem_cons_of_mem _ hf, ha⟩

/-- An object that has nothing to do, and whose flag is down, need not be attended. -/
lemma ExecInv.quiet_update (h : ExecInv T c) {o : O} {x : ObjectState O ε}
    {stack : List (Frame O ε)} (hids : x.tables.IdInv)
    (hexec : x.execSubObjectSet = (c.objs o).execSubObjectSet)
    (hstack : ∀ q, q ≠ o → (∃ f ∈ c.stack, f.obj = q ∨ q ∈ f.remaining) →
      ∃ f ∈ stack, f.obj = q ∨ q ∈ f.remaining)
    (hquiet : T.parent o = none ∨ x.hasWork = false) (hflag : x.isTriggering = false) :
    ExecInv T ⟨c.clock, Function.update c.objs o x, stack⟩ := by
  obtain ⟨hids', hchildren, hbut⟩ := h.but_update _ _ _ hids hexec hstack
  refine ⟨hids', hchildren, fun q hroot _ hq => ?_⟩
  by_cases hqo : q = o
  · subst hqo
    simp only [Function.update_self, hflag, Bool.false_eq_true, or_false] at hq
    rcases hquiet with hnone | hidle
    · exact absurd (T.eq_root q hnone) hroot
    · exact absurd (hq.symm.trans hidle) (by simp)
  · exact hbut q hroot hqo hq

lemma finish_execInv (h : ExecInv T c) {o : O} {p : Pass} {fs : List (Frame O ε)}
    (hs : c.stack = ⟨o, .timers p⟩ :: fs) (now : ℤ) :
    ExecInv T { c with
      objs := T.leave (Function.update c.objs o
        { c.objs o with tables := (c.objs o).tables.requeue now p.cycleQueue }) o
      stack := fs } := by
  -- only `o` itself was attended by the frame that is left
  have hpop : ∀ q, q ≠ o → (∃ f ∈ c.stack, f.obj = q ∨ q ∈ f.remaining) →
      ∃ f ∈ fs, f.obj = q ∨ q ∈ f.remaining := by
    rintro q hqo ⟨f, hf, hq⟩
    rw [hs] at hf
    rcases List.mem_cons.mp hf with rfl | hf
    · rcases hq with hq | hq
      · exact absurd hq.symm hqo
      · simp [Frame.remaining] at hq
    · exact ⟨f, hf, hq⟩
  have hids := (h.ids o).requeue now p.cycleQueue
  unfold ObjectTree.leave
  rw [Function.update_self, Function.update_idem]
  split
  · next p' hp' =>
    split_ifs with hwork
    · obtain ⟨hids', hchildren, hbut⟩ := h.but_update o
        { c.objs o with tables := (c.objs o).tables.requeue now p.cycleQueue } fs hids rfl hpop
      exact execInv_pushExec hp' hids' hchildren hbut
    · exact h.quiet_update hids rfl hpop (Or.inr (by simpa [ObjectState.hasWork] using hwork)) rfl
  · next hp' => exact h.quiet_update hids rfl hpop (Or.inl hp') rfl

/-- The same frame in another phase without children attends to the same objects. -/
lemma attended_replace {o : O} {ph ph' : Phase O ε} {fs : List (Frame O ε)}
    (hs : c.stack = ⟨o, ph⟩ :: fs) (hph : (⟨o, ph⟩ : Frame O ε).remaining = []) (q : O)
    (hq : ∃ f ∈ c.stack, f.obj = q ∨ q ∈ f.remaining) :
    ∃ f ∈ ⟨o, ph'⟩ :: fs, f.obj = q ∨ q ∈ f.remaining := by
  obtain ⟨f, hf, hq⟩ := hq
  rw [hs] at hf
  rcases List.mem_cons.mp hf with rfl | hf
  · rcases hq with hq | hq
    · exact ⟨_, List.mem_cons_self, Or.inl hq⟩
    · rw [hph] at hq
      simp at hq
  · exact ⟨f, List.mem_cons_of_mem _ hf, hq⟩

lemma hasWork_of_empty_queue {x : ObjectState O ε}
    (h : ({ x with triggerEventQueue := [] } : ObjectState O ε).hasWork = true) :
    x.hasWork = true := by
  rw [ObjectState.hasWork_iff] at h ⊢
  rcases h with h | h
  · exact absurd rfl h
  · exact Or.inr h

lemma hasWork_of_tables {x : ObjectState O ε} {tables : TimerTables}
    (hempty : x.tables.timerEventsMap.isEmpty = true → tables.timerEventsMap.isEmpty = true)
    (h : ({ x with tables := tables } : ObjectState O ε).hasWork = true) : x.hasWork = true := by
  rw [ObjectState.hasWork_iff] at h ⊢
  rcases h with h | h | h
  · exact Or.inl h
  · refine Or.inr (Or.inl ?_)
    rw [← Bool.not_eq_true] at h ⊢
    exact fun he => h (hempty he)
  · exact Or.inr (Or.inr h)

lemma timer_execInv (h : ExecInv T c) {o : O} {op : TimerOp}
    (hok : StartsAttended T c (.timer o op)) :
    ExecInv T (c.setObj o { c.objs o with tables := (c.objs o).tables.apply c.clock op }) := by
  refine h.setObj ((h.ids o).apply c.clock op) rfl (fun hdue => ?_) (fun _ hq => hq)
  by_cases harm : ∃ r, op = .start r ∧ ((c.objs o).tables.start c.clock r).1 = true ∧
      ((c.objs o).tables.timers r).working = false
  · -- the one call that can make an idle object busy
    obtain ⟨r, rfl, htrue, hw⟩ := harm
    exact Or.inr (Or.inr (hok (o, r) rfl htrue hw))
  · rcases hdue with hdue | hdue
    · refine Or.inl (hasWork_of_tables (TimerTables.apply_isEmpty (h.ids o) fun r hr htrue => ?_)
        hdue)
      by_contra hw
      exact harm ⟨r, hr, htrue, by simpa using hw⟩
    · exact Or.inr (Or.inl hdue)

lemma dropExpired_isEmpty {s : TimerTables} {now : ℤ} (h : s.timerEventsMap.isEmpty = true) :
    (s.dropExpired now).timerEventsMap.isEmpty = true := by
  have hnil : s.expired now = [] := by
    rw [← Std.ExtTreeMap.isEmpty_toList, List.isEmpty_iff] at h
    rw [TimerTables.expired, h, List.takeWhile_nil]
  simpa [TimerTables.dropExpired, hnil] using h

lemma step_execInv (h : ExecInv T c) (hok : StartsAttended T c a) (hstep : c.step T a = some c') :
    ExecInv T c' := by
  cases a with
  | tick ms =>
    obtain rfl := step_tick hstep
    exact ⟨h.ids, h.children, h.attended⟩
  | addTriggerEvent o e =>
    obtain rfl := step_addTriggerEvent hstep
    exact addTriggerEvent_execInv h o e
  | timer o op =>
    obtain rfl := step_timer hstep
    exact timer_execInv h hok
  | handleEvent =>
    obtain ⟨hs, rfl⟩ := step_handleEvent hstep
    refine h.setObj (h.ids T.root) rfl (fun _ => Or.inr (Or.inr (Or.inl rfl))) ?_
    rintro q ⟨f, hf, -⟩
    rw [hs] at hf
    simp at hf
  | runEvent =>
    obtain ⟨o, q, fs, hs, rfl⟩ := step_runEvent hstep
    exact h.restack (attended_replace hs rfl)
  | eventReturn =>
    obtain ⟨o, e, q, fs, hs, rfl⟩ := step_eventReturn hstep
    exact h.restack (attended_replace hs rfl)
  | handleChildEvent =>
    obtain ⟨o, fs, hs, rfl⟩ := step_handleChildEvent hstep
    exact handleChildEvent_execInv h hs
  | childEvent =>
    obtain ⟨o, i, rest, fs, hs, rfl, -⟩ := step_childEvent hstep
    refine h.setObj (h.ids i) rfl ?_ ?_
    · rintro (hw | hf)
      · exact Or.inl (hasWork_of_empty_queue hw)
      · exact Or.inr (Or.inl hf)
    · -- the child that is entered has a frame of its own now
      rintro q ⟨f, hf, hq⟩
      rw [hs] at hf
      rcases List.mem_cons.mp hf with rfl | hf
      · rcases hq with hq | hq
        · exact ⟨⟨o, .children rest⟩, by simp, Or.inl hq⟩
        · rcases List.mem_cons.mp hq with rfl | hq
          · exact ⟨_, List.mem_cons_self, Or.inl rfl⟩
          · exact ⟨⟨o, .children rest⟩, by simp, Or.inr hq⟩
      · exact ⟨f, List.mem_cons_of_mem _ (List.mem_cons_of_mem _ hf), hq⟩
  | handleTimerEvent =>
    obtain ⟨o, p, fs, hs, rfl⟩ := step_handleTimerEvent hstep
    refine h.setObj ((h.ids o).congr (fun _ => rfl) rfl rfl rfl rfl) rfl ?_
      (attended_replace hs rfl)
    rintro (hw | hf)
    · exact Or.inl (hasWork_of_tables dropExpired_isEmpty hw)
    · exact Or.inr (Or.inl hf)
  | emitTimeout =>
    obtain ⟨o, p, p', fs, hs, rfl⟩ := step_emitTimeout hstep
    exact h.restack (attended_replace hs rfl)
  | slotsReturn =>
    obtain ⟨o, p, p', fs, tables, hs, rfl, htables⟩ := step_slotsReturn hstep
    have hsame : tables.IdInv ∧ tables.timerEventsMap = (c.objs o).tables.timerEventsMap := by
      rcases htables with rfl | ⟨r, rfl⟩
      · exact ⟨h.ids o, rfl⟩
      · exact ⟨(h.ids o).setTimer rfl, rfl⟩
    refine h.setObj hsame.1 rfl ?_ (attended_replace hs rfl)
    rintro (hw | hf)
    · exact Or.inl (hasWork_of_tables (fun he => by rw [hsame.2]; exact he) hw)
    · exact Or.inr (Or.inl hf)
  | finish =>
    obtain ⟨o, p, fs, hs, rfl⟩ := step_finish hstep
    exact finish_execInv h hs c.clock

lemma execInv_init (clock : ℤ) : ExecInv T (init clock : TreeConf O ε) := by
  refine ⟨fun _ => TimerTables.idInv_empty, fun p o ho => ?_, fun o _ _ ho => ?_⟩
  · exact absurd ho Std.ExtTreeSet.not_mem_empty
  · rcases ho with ho | ho
    · simp [init, ObjectState.hasWork, ObjectState.empty, TimerTables.empty] at ho
    · simp [init, ObjectState.empty] at ho

lemma execInv_run {clock : ℤ} {as : List (TreeAction O ε)}
    (hok : Lib.AllSteps (step T) (StartsAttended T) (init clock) as)
    (hrun : Lib.run (step T) (init clock) as = some c) : ExecInv T c :=
  Lib.run_inv_of_allSteps (I := ExecInv T) (fun _ _ _ h hok hs => step_execInv h hok hs)
    (execInv_init clock) hok hrun

end TreeConf

end SignalEventLoop.Core
