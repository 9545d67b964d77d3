/-
# What the next pass of the scheduler reaches

When every object with work is in the set of its parent, the sets link the root to every
such object.  This has two consequences for the scheduler: `getNextTimeOut` of the root
takes the object into account, and the next pass of the root calls `handleEvent` of it
before it ends, whatever the events and slots of the pass do.
-/
import SignalEventLoop.Core.ExecSet

namespace SignalEventLoop.Core

namespace ObjectTree

variable {O ε : Type*} [LinearOrder O] {T : ObjectTree O} {objs objs' : O → ObjectState O ε}
  {now : O → ℤ} {o p y : O}

/-- The sets lead from `a` to `o`. -/
def Linked (objs : O → ObjectState O ε) (a o : O) : Prop :=
  Relation.ReflTransGen (fun p y => y ∈ (objs p).execSubObjectSet) a o

lemma Linked.mono (h : Linked objs p o)
    (hexec : ∀ p y, y ∈ (objs p).execSubObjectSet → y ∈ (objs' p).execSubObjectSet) :
    Linked objs' p o :=
  Relation.ReflTransGen.mono hexec _ _ h

lemma hasWork_of_mem (h : y ∈ (objs p).execSubObjectSet) : (objs p).hasWork = true := by
  rw [ObjectState.hasWork_iff]
  refine Or.inr (Or.inr ?_)
  rw [← Bool.not_eq_true, Std.ExtTreeSet.isEmpty_iff]
  intro hempty
  rw [hempty] at h
  exact absurd h Std.ExtTreeSet.not_mem_empty

/-- The root is linked to every object with work. -/
lemma linked_root (hsets : ∀ o, o ≠ T.root → (objs o).hasWork = true →
      ∃ p, T.parent o = some p ∧ o ∈ (objs p).execSubObjectSet)
    (hwork : (objs o).hasWork = true) : Linked objs T.root o := by
  induction hd : T.depth o generalizing o with
  | zero =>
    cases hp : T.parent o with
    | none => exact T.eq_root o hp ▸ Relation.ReflTransGen.refl
    | some p =>
      have := T.depth_parent o p hp
      omega
  | succ d ih =>
    by_cases hroot : o = T.root
    · subst hroot
      exact Relation.ReflTransGen.refl
    · obtain ⟨p, hp, ho⟩ := hsets o hroot hwork
      have := T.depth_parent o p hp
      exact Relation.ReflTransGen.tail (ih (hasWork_of_mem ho) (by omega)) ho

/-! ## `getNextTimeOut` -/

omit [LinearOrder O] in
lemma scanTimeOut_congr {f g : O → ℤ} {l : List O} (h : ∀ i ∈ l, f i = g i) (m : ℤ) :
    scanTimeOut f l m = scanTimeOut g l m := by
  induction l generalizing m with
  | nil => rfl
  | cons i rest ih =>
    have hrest := ih fun j hj => h j (List.mem_cons_of_mem _ hj)
    simp only [scanTimeOut, h i List.mem_cons_self, hrest]

omit [LinearOrder O] in
/-- The loop returns a timeout that is no later than the ones it has seen. -/
lemma scanTimeOut_bounds (f : O → ℤ) (l : List O) {m : ℤ} (hm : 0 ≤ m) :
    0 ≤ scanTimeOut f l m ∧ scanTimeOut f l m ≤ m ∧
      ∀ i ∈ l, 0 ≤ f i → scanTimeOut f l m ≤ f i := by
  induction l generalizing m with
  | nil => exact ⟨hm, le_refl m, by simp⟩
  | cons i rest ih =>
    simp only [scanTimeOut]
    split_ifs with h0 hpos hlt
    · refine ⟨le_refl 0, hm, fun j hj hfj => hfj⟩
    · obtain ⟨h1, h2, h3⟩ := ih hm
      refine ⟨h1, h2, List.forall_mem_cons.mpr ⟨fun _ => ?_, h3⟩⟩
      omega
    · obtain ⟨h1, h2, h3⟩ := ih (m := f i) (by omega)
      exact ⟨h1, by omega, List.forall_mem_cons.mpr ⟨fun _ => h2, h3⟩⟩
    · obtain ⟨h1, h2, h3⟩ := ih hm
      refine ⟨h1, h2, List.forall_mem_cons.mpr ⟨fun _ => ?_, h3⟩⟩
      omega

/-- The timeout of the object's own timers. -/
def ownTimeOut (x : ObjectState O ε) (now : ℤ) : ℤ :=
  match x.tables.timerEventsMap.toList.head? with
  | none => 2 ^ 63 - 1
  | some e => wrap64 (e.1.1 - now)

/-- The recursion of the source: the levels of the tree are enough. -/
lemma getNextTimeOut_eq
    (hchildren : ∀ p o, o ∈ (objs p).execSubObjectSet → T.parent o = some p) :
    T.getNextTimeOut objs now p =
      if !(objs p).triggerEventQueue.isEmpty then 0
      else if (objs p).tables.timerEventsMap.isEmpty && (objs p).execSubObjectSet.isEmpty then -1
      else if ownTimeOut (objs p) (now p) ≤ 0 then 0
      else scanTimeOut (T.getNextTimeOut objs now) (objs p).execSubObjectSet.toList
        (ownTimeOut (objs p) (now p)) := by
  obtain ⟨k, hk⟩ : ∃ k, T.height - T.depth p = k + 1 :=
    Nat.exists_eq_succ_of_ne_zero (by have := T.depth_lt p; omega)
  rw [getNextTimeOut, hk, nextTimeOutFrom]
  have hscan : ∀ m, scanTimeOut (nextTimeOutFrom objs now k) (objs p).execSubObjectSet.toList m =
      scanTimeOut (T.getNextTimeOut objs now) (objs p).execSubObjectSet.toList m := by
    refine scanTimeOut_congr fun i hi => ?_
    have hd := T.depth_parent i p (hchildren p i (Std.ExtTreeSet.mem_toList.mp hi))
    rw [getNextTimeOut, show T.height - T.depth i = k by omega]
  simp only [hscan]
  rfl

/-- The timeout `t` takes the object into account: it is 0 when an event is queued, and
not later than the first deadline of the object. -/
def SeenBy (objs : O → ObjectState O ε) (now : O → ℤ) (o : O) (t : ℤ) : Prop :=
  0 ≤ t ∧ ((objs o).triggerEventQueue ≠ [] → t = 0) ∧
    ∀ e, (objs o).tables.timerEventsMap.toList.head? = some e →
      t ≤ max 0 (wrap64 (e.1.1 - now o))

lemma seenBy_zero : SeenBy objs now o 0 :=
  ⟨le_refl 0, fun _ => rfl, fun _ _ => le_max_left _ _⟩

lemma seenBy_self (hchildren : ∀ p o, o ∈ (objs p).execSubObjectSet → T.parent o = some p)
    (hwork : (objs o).hasWork = true) : SeenBy objs now o (T.getNextTimeOut objs now o) := by
  rw [getNextTimeOut_eq hchildren]
  split_ifs with hqueue hempty hown
  · exact seenBy_zero
  · rw [Bool.not_eq_true', Bool.not_eq_false, List.isEmpty_iff] at hqueue
    rw [Bool.and_eq_true] at hempty
    rw [ObjectState.hasWork_iff] at hwork
    simp [hqueue, hempty] at hwork
  · exact seenBy_zero
  · rw [Bool.not_eq_true', Bool.not_eq_false, List.isEmpty_iff] at hqueue
    obtain ⟨h0, hle, -⟩ := scanTimeOut_bounds (T.getNextTimeOut objs now)
      (objs o).execSubObjectSet.toList (le_of_lt (not_le.mp hown))
    refine ⟨h0, fun hne => absurd hqueue hne, fun e he => ?_⟩
    have hown' : ownTimeOut (objs o) (now o) = wrap64 (e.1.1 - now o) := by
      rw [ownTimeOut, he]
    exact le_trans (hle.trans_eq hown') (le_max_right _ _)

lemma SeenBy.parent {t : ℤ} (hchildren : ∀ p o, o ∈ (objs p).execSubObjectSet → T.parent o = some p)
    (hy : y ∈ (objs p).execSubObjectSet) (ht : T.getNextTimeOut objs now y = t)
    (h : SeenBy objs now o t) : SeenBy objs now o (T.getNextTimeOut objs now p) := by
  rw [getNextTimeOut_eq hchildren]
  split_ifs with hqueue hempty hown
  · exact seenBy_zero
  · rw [Bool.and_eq_true, Std.ExtTreeSet.isEmpty_iff] at hempty
    rw [hempty.2] at hy
    exact absurd hy Std.ExtTreeSet.not_mem_empty
  · exact seenBy_zero
  · obtain ⟨h0, -, hall⟩ := scanTimeOut_bounds (T.getNextTimeOut objs now)
      (objs p).execSubObjectSet.toList (le_of_lt (not_le.mp hown))
    have hle := hall y (Std.ExtTreeSet.mem_toList.mpr hy) (by rw [ht]; exact h.1)
    rw [ht] at hle
    refine ⟨h0, fun hne => le_antisymm ?_ h0, fun e he => le_trans hle (h.2.2 e he)⟩
    exact le_of_le_of_eq hle (h.2.1 hne)

/-- Every timeout along a chain of sets takes the object at its end into account. -/
lemma Linked.seenBy (hchildren : ∀ p o, o ∈ (objs p).execSubObjectSet → T.parent o = some p)
    (hwork : (objs o).hasWork = true) (h : Linked objs p o) :
    SeenBy objs now o (T.getNextTimeOut objs now p) := by
  induction h using Relation.ReflTransGen.head_induction_on with
  | refl => exact seenBy_self hchildren hwork
  | head hy _ ih => exact SeenBy.parent hchildren hy rfl ih

end ObjectTree

/-! ## The next pass -/

/-- The activation has still to come to `y`. -/
def Frame.Coming {O ε : Type*} [LinearOrder O] (objs : O → ObjectState O ε) (f : Frame O ε)
    (y : O) : Prop :=
  match f.phase with
  | .trigger _ _ => y ∈ (objs f.obj).execSubObjectSet
  | .children execSet => y ∈ execSet
  | .timers _ => False

namespace TreeConf

variable {O ε : Type*} [LinearOrder O] {T : ObjectTree O} {c c' : TreeConf O ε}
  {a : TreeAction O ε} {o : O}

/-- A running activation leads to the object. -/
def Due (c : TreeConf O ε) (o : O) : Prop :=
  ∃ f ∈ c.stack, ∃ y, f.Coming c.objs y ∧ ObjectTree.Linked c.objs y o

lemma Coming.mono {objs objs' : O → ObjectState O ε} {f : Frame O ε} {y : O}
    (hexec : ∀ p y, y ∈ (objs p).execSubObjectSet → y ∈ (objs' p).execSubObjectSet)
    (h : f.Coming objs y) : f.Coming objs' y := by
  obtain ⟨x, ph⟩ := f
  cases ph with
  | trigger q running => exact hexec x y h
  | children l => exact h
  | timers p => exact h

/-- A step that takes no object out of a set, and replaces the innermost activation. -/
lemma Due.replace (h : c.Due o) {f₀ : Frame O ε} {fs : List (Frame O ε)}
    (new : List (Frame O ε)) {objs' : O → ObjectState O ε} {clock : ℤ} (hs : c.stack = f₀ :: fs)
    (hexec : ∀ p y, y ∈ (c.objs p).execSubObjectSet → y ∈ (objs' p).execSubObjectSet)
    (hcoming : ∀ y, f₀.Coming c.objs y → ∃ f ∈ new, f.Coming objs' y) :
    Due ⟨clock, objs', new ++ fs⟩ o := by
  obtain ⟨f, hf, y, hy, hlink⟩ := h
  rw [hs] at hf
  rcases List.mem_cons.mp hf with rfl | hf
  · obtain ⟨f', hf', hy'⟩ := hcoming y hy
    exact ⟨f', List.mem_append_left _ hf', y, hy', hlink.mono hexec⟩
  · exact ⟨f, List.mem_append_right _ hf, y, Coming.mono hexec hy, hlink.mono hexec⟩

lemma Due.grow (h : c.Due o) {objs' : O → ObjectState O ε} {clock : ℤ}
    (hexec : ∀ p y, y ∈ (c.objs p).execSubObjectSet → y ∈ (objs' p).execSubObjectSet) :
    Due ⟨clock, objs', c.stack⟩ o := by
  obtain ⟨f, hf, y, hy, hlink⟩ := h
  exact ⟨f, hf, y, Coming.mono hexec hy, hlink.mono hexec⟩

lemma mem_execSubObjectSet_update {objs : O → ObjectState O ε} {q : O} {x : ObjectState O ε}
    (hx : x.execSubObjectSet = (objs q).execSubObjectSet) (p y : O)
    (hy : y ∈ (objs p).execSubObjectSet) :
    y ∈ (Function.update objs q x p).execSubObjectSet := by
  rw [execSubObjectSet_update hx p]
  exact hy

lemma addTriggerEvent_grows (objs : O → ObjectState O ε) (o : O) (e : ε) (p y : O)
    (hy : y ∈ (objs p).execSubObjectSet) :
    y ∈ (T.addTriggerEvent objs o e p).execSubObjectSet := by
  rw [ObjectTree.addTriggerEvent]
  obtain ⟨ret, queue⟩ := pushTrigger (objs o).triggerEventQueue e
  cases ret with
  | false => exact mem_execSubObjectSet_update (by rfl) p y hy
  | true =>
    cases hq : T.parent o with
    | none => exact mem_execSubObjectSet_update (by rfl) p y hy
    | some q =>
      dsimp only
      split_ifs
      · exact mem_execSubObjectSet_update (by rfl) p y hy
      · exact (ObjectTree.pushExecFrom_pushed _ _ _ _ hq).grows p y
          (mem_execSubObjectSet_update (by rfl) p y hy)

lemma leave_grows (objs : O → ObjectState O ε) (o p y : O)
    (hy : y ∈ (objs p).execSubObjectSet) : y ∈ (T.leave objs o p).execSubObjectSet := by
  rw [ObjectTree.leave]
  cases hq : T.parent o with
  | none => exact mem_execSubObjectSet_update (by rfl) p y hy
  | some q =>
    dsimp only
    split_ifs
    · exact (ObjectTree.pushExecFrom_pushed _ _ _ _ hq).grows p y hy
    · exact mem_execSubObjectSet_update (by rfl) p y hy

/-- When the set of `x` is emptied a chain is cut at most behind `x`. -/
lemma linked_cut {objs : O → ObjectState O ε} {b : O} (x : O) (x' : ObjectState O ε)
    (h : ObjectTree.Linked objs b o) :
    ObjectTree.Linked (Function.update objs x x') b o ∨
      ∃ y ∈ (objs x).execSubObjectSet, ObjectTree.Linked (Function.update objs x x') y o := by
  induction h using Relation.ReflTransGen.head_induction_on with
  | refl => exact Or.inl Relation.ReflTransGen.refl
  | @head b d hbd _ ih =>
    rcases ih with ih | ih
    · by_cases hb : b = x
      · subst hb
        exact Or.inr ⟨d, hbd, ih⟩
      · refine Or.inl (Relation.ReflTransGen.head ?_ ih)
        rw [Function.update_of_ne hb]
        exact hbd
    · exact Or.inr ih

lemma handleChildEvent_due (h : c.Due o) {x : O} {fs : List (Frame O ε)}
    (hs : c.stack = ⟨x, .trigger [] false⟩ :: fs) :
    Due { c.setObj x { c.objs x with execSubObjectSet := ∅ } with
      stack := ⟨x, .children (c.objs x).execSubObjectSet.toList⟩ :: fs } o := by
  -- what was in the set of `x` is to be visited by the frame now
  have hmine : ∀ y ∈ (c.objs x).execSubObjectSet,
      ObjectTree.Linked (c.setObj x { c.objs x with execSubObjectSet := ∅ }).objs y o →
      Due { c.setObj x { c.objs x with execSubObjectSet := ∅ } with
        stack := ⟨x, .children (c.objs x).execSubObjectSet.toList⟩ :: fs } o := by
    intro y hy hlink
    exact ⟨_, List.mem_cons_self, y, Std.ExtTreeSet.mem_toList.mpr hy, hlink⟩
  obtain ⟨f, hf, y, hy, hlink⟩ := h
  rcases linked_cut x { c.objs x with execSubObjectSet := ∅ } hlink with
    hlink' | ⟨z, hz, hlink'⟩
  · rw [hs] at hf
    rcases List.mem_cons.mp hf with rfl | hf
    · exact hmine y hy hlink'
    · obtain ⟨x₁, ph⟩ := f
      cases ph with
      | trigger q running =>
        by_cases hx : x₁ = x
        · subst hx
          exact hmine y hy hlink'
        · refine ⟨⟨x₁, .trigger q running⟩, List.mem_cons_of_mem _ hf, y, ?_, hlink'⟩
          show y ∈ ((c.setObj x _).objs x₁).execSubObjectSet
          rw [setObj_objs, if_neg hx]
          exact hy
      | children l => exact ⟨_, List.mem_cons_of_mem _ hf, y, hy, hlink'⟩
      | timers p => exact absurd hy not_false
  · exact hmine z hz hlink'

lemma childEvent_due (h : c.Due o) {x i : O} {rest : List O} {fs : List (Frame O ε)}
    (hs : c.stack = ⟨x, .children (i :: rest)⟩ :: fs) :
    o = i ∨ (c.enter i (⟨x, .children rest⟩ :: fs)).Due o := by
  have hexec : ∀ p y, y ∈ (c.objs p).execSubObjectSet →
      y ∈ ((c.enter i (⟨x, .children rest⟩ :: fs)).objs p).execSubObjectSet :=
    mem_execSubObjectSet_update (by rfl)
  obtain ⟨f, hf, y, hy, hlink⟩ := h
  rw [hs] at hf
  rcases List.mem_cons.mp hf with rfl | hf
  · rcases List.mem_cons.mp hy with rfl | hy
    · -- the chain goes on behind the child that is entered
      rcases Relation.ReflTransGen.cases_head hlink with rfl | ⟨z, hz, hlink⟩
      · exact Or.inl rfl
      · exact Or.inr ⟨_, List.mem_cons_self, z, hexec y z hz,
          ObjectTree.Linked.mono hlink hexec⟩
    · exact Or.inr ⟨⟨x, .children rest⟩, by simp [enter], y, hy, hlink.mono hexec⟩
  · exact Or.inr ⟨f, List.mem_cons_of_mem _ (List.mem_cons_of_mem _ hf), y, Coming.mono hexec hy,
      hlink.mono hexec⟩

lemma step_due (h : c.Due o) (hstep : c.step T a = some c') : o ∈ c.visits a ∨ c'.Due o := by
  cases a with
  | tick ms =>
    obtain rfl := step_tick hstep
    exact Or.inr h
  | addTriggerEvent q e =>
    obtain rfl := step_addTriggerEvent hstep
    exact Or.inr (h.grow (addTriggerEvent_grows c.objs q e))
  | timer q op =>
    obtain rfl := step_timer hstep
    exact Or.inr (h.grow (mem_execSubObjectSet_update (by rfl)))
  | handleEvent =>
    obtain ⟨hs, rfl⟩ := step_handleEvent hstep
    obtain ⟨f, hf, -⟩ := h
    rw [hs] at hf
    simp at hf
  | runEvent =>
    obtain ⟨x, q, fs, hs, rfl⟩ := step_runEvent hstep
    exact Or.inr (h.replace [_] hs (fun _ _ hy => hy)
      fun y hy => ⟨_, List.mem_singleton_self _, hy⟩)
  | eventReturn =>
    obtain ⟨x, e, q, fs, hs, rfl⟩ := step_eventReturn hstep
    exact Or.inr (h.replace [_] hs (fun _ _ hy => hy)
      fun y hy => ⟨_, List.mem_singleton_self _, hy⟩)
  | handleChildEvent =>
    obtain ⟨x, fs, hs, rfl⟩ := step_handleChildEvent hstep
    exact Or.inr (handleChildEvent_due h hs)
  | childEvent =>
    obtain ⟨x, i, rest, fs, hs, rfl, hv⟩ := step_childEvent hstep
    rw [hv, List.mem_singleton]
    exact childEvent_due h hs
  | handleTimerEvent =>
    obtain ⟨x, p, fs, hs, rfl⟩ := step_handleTimerEvent hstep
    exact Or.inr (h.replace [_] hs (mem_execSubObjectSet_update (by rfl))
      fun y hy => absurd hy List.not_mem_nil)
  | emitTimeout =>
    obtain ⟨x, p, p', fs, hs, rfl⟩ := step_emitTimeout hstep
    exact Or.inr (h.replace [_] hs (fun _ _ hy => hy) fun y hy => absurd hy not_false)
  | slotsReturn =>
    obtain ⟨x, p, p', fs, tables, hs, rfl, -⟩ := step_slotsReturn hstep
    exact Or.inr (h.replace [_] hs (mem_execSubObjectSet_update (by rfl))
      fun y hy => absurd hy not_false)
  | finish =>
    obtain ⟨x, p, fs, hs, rfl⟩ := step_finish hstep
    refine Or.inr (h.replace [] hs (fun q y hy => ?_) fun y hy => absurd hy not_false)
    exact leave_grows _ x q y (mem_execSubObjectSet_update (by rfl) q y hy)

/-- An object to which a running activation leads is visited before the pass ends. -/
lemma Due.visited (h : c.Due o) {bs : List (TreeAction O ε)}
    (hrun : Lib.run (step T) c bs = some c') (hend : c'.stack = []) :
    o ∈ Lib.outputs (step T) visits c bs := by
  induction bs generalizing c with
  | nil =>
    obtain rfl : c = c' := by simpa using hrun
    obtain ⟨f, hf, -⟩ := h
    rw [hend] at hf
    simp at hf
  | cons a bs ih =>
    obtain ⟨c₁, hstep, hrun'⟩ := Lib.run_cons_eq_some.mp hrun
    rw [Lib.mem_outputs_cons hstep]
    rcases step_due h hstep with hv | h₁
    · exact Or.inl hv
    · exact Or.inr (ih h₁ hrun')

/-- The pass that begins comes to every object that is linked to the root. -/
lemma enter_root_due (hlink : ObjectTree.Linked c.objs T.root o) :
    o = T.root ∨ (c.enter T.root []).Due o := by
  rcases Relation.ReflTransGen.cases_head hlink with rfl | ⟨z, hz, hlink⟩
  · exact Or.inl rfl
  · have hexec : ∀ p y, y ∈ (c.objs p).execSubObjectSet →
        y ∈ ((c.enter T.root []).objs p).execSubObjectSet := mem_execSubObjectSet_update (by rfl)
    exact Or.inr ⟨_, List.mem_cons_self, z, hexec T.root z hz, ObjectTree.Linked.mono hlink hexec⟩

/-- **The exec sets reach every object with work.** Between two passes of the root, in every
run in which the timers of attended objects only are started: an object with work is in the
set of its parent, the sets link the root to it, `getNextTimeOut` of the root takes it into
account, and the next pass of the root calls its `handleEvent`. -/
theorem exec_set_reachable (T : ObjectTree O) (clock : ℤ) (as : List (TreeAction O ε))
    (c : TreeConf O ε) (hok : Lib.AllSteps (step T) (StartsAttended T) (init clock) as)
    (hrun : Lib.run (step T) (init clock) as = some c) (hidle : c.stack = []) :
    (∀ o, o ≠ T.root → (c.objs o).hasWork = true →
        ∃ p, T.parent o = some p ∧ o ∈ (c.objs p).execSubObjectSet) ∧
      ∀ o, (c.objs o).hasWork = true →
        ObjectTree.Linked c.objs T.root o ∧
        (∀ now, ObjectTree.SeenBy c.objs now o (T.getNextTimeOut c.objs now T.root)) ∧
        ∀ bs c₁ c₂, c.step T .handleEvent = some c₁ → Lib.run (step T) c₁ bs = some c₂ →
          c₂.stack = [] → o = T.root ∨ o ∈ Lib.outputs (step T) visits c₁ bs := by
  have hinv := execInv_run hok hrun
  have hsets : ∀ o, o ≠ T.root → (c.objs o).hasWork = true →
      ∃ p, T.parent o = some p ∧ o ∈ (c.objs p).execSubObjectSet := by
    intro o hroot hwork
    -- no activation is running that could attend to the object instead
    rcases hinv.attended o hroot not_false (Or.inl hwork) with ⟨p, hp, ho⟩ | ⟨f, hf, -⟩
    · exact ⟨p, hp, ho⟩
    · rw [hidle] at hf
      simp at hf
  refine ⟨hsets, fun o hwork => ?_⟩
  have hlink := ObjectTree.linked_root hsets hwork
  refine ⟨hlink, fun now => hlink.seenBy hinv.children hwork, ?_⟩
  intro bs c₁ c₂ hstep hrun' hend
  obtain ⟨-, rfl⟩ := step_handleEvent hstep
  rcases enter_root_due hlink with hroot | hdue
  · exact Or.inl hroot
  · exact Or.inr (hdue.visited hrun' hend)

instance decidableAttended (T : ObjectTree O) (objs : O → ObjectState O ε)
    (stack : List (Frame O ε)) (o : O) : Decidable (T.Attended objs stack o) :=
  inferInstanceAs (Decidable (_ ∨ _))

instance decidableStartsAttended (T : ObjectTree O) (c : TreeConf O ε) (a : TreeAction O ε) :
    Decidable (StartsAttended T c a) :=
  inferInstanceAs (Decidable (∀ _ ∈ starts a, _ → _ → _))

/-- A scheduler 0 with a child 1, which has the child 2. -/
def chainTree : ObjectTree (Fin 3) where
  root := 0
  parent := ![none, some 0, some 1]
  depth := Fin.val
  height := 3
  parent_root := rfl
  eq_root := by decide
  depth_parent := by decide
  depth_lt := Fin.isLt

/-- An event of object 2 starts a timer of this object: the pass that runs it leaves 2 in
the set of 1, and the timeout of the root is the one of the timer. -/
theorem start_in_event_reached :
    ∃ (as : List (TreeAction (Fin 3) Unit)) (c : TreeConf (Fin 3) Unit),
    Lib.run (step chainTree) (init 0) as = some c ∧ c.stack = [] ∧
    (c.objs 2).hasWork = true ∧ 2 ∈ (c.objs 1).execSubObjectSet ∧
    ObjectTree.Linked c.objs chainTree.root 2 := by
  let as : List (TreeAction (Fin 3) Unit) := [.addTriggerEvent 2 (), .handleEvent,
    .handleChildEvent, .childEvent, .handleChildEvent, .childEvent, .runEvent,
    .timer 2 (.addTimer 5), .timer 2 (.start 0), .eventReturn, .handleChildEvent,
    .handleTimerEvent, .finish, .handleTimerEvent, .finish, .handleTimerEvent, .finish]
  have hok : Lib.AllSteps (step chainTree) (StartsAttended chainTree) (init 0) as := by
    decide +kernel
  have hrun : (Lib.run (step chainTree) (init 0) as).map (fun c =>
      (c.stack.isEmpty, (c.objs 2).hasWork)) = some (true, true) := by
    decide +kernel
  obtain ⟨c, hc, hobs⟩ := Option.map_eq_some_iff.mp hrun
  simp only [Prod.mk.injEq, List.isEmpty_iff] at hobs
  obtain ⟨hsets, hreach⟩ := exec_set_reachable chainTree 0 as c hok hc hobs.1
  obtain ⟨p, hp, hmem⟩ := hsets 2 (by decide) hobs.2
  obtain rfl : (1 : Fin 3) = p := Option.some.inj hp
  exact ⟨as, c, hc, hobs.1, hobs.2, hmem, (hreach 2 hobs.2).1⟩

/-- A timer of object 1 that is started between two passes: it is armed, but the set of the
scheduler stays empty, and `getNextTimeOut` sees nothing to wait for. -/
theorem start_between_passes_unreached :
    ∃ (as : List (TreeAction (Fin 3) Unit)) (c : TreeConf (Fin 3) Unit),
      Lib.run (step chainTree) (init 0) as = some c ∧ c.stack = [] ∧
      (c.objs 1).hasWork = true ∧ chainTree.parent 1 = some 0 ∧
      1 ∉ (c.objs 0).execSubObjectSet ∧ chainTree.getNextTimeOut c.objs (fun _ => 0) 0 = -1 := by
  let as : List (TreeAction (Fin 3) Unit) := [.timer 1 (.addTimer 5), .timer 1 (.start 0)]
  have hrun : (Lib.run (step chainTree) (init 0) as).map (fun c =>
      (c.stack.isEmpty, (c.objs 1).hasWork, decide (1 ∈ (c.objs 0).execSubObjectSet),
        chainTree.getNextTimeOut c.objs (fun _ => 0) 0)) = some (true, true, false, -1) := by
    decide +kernel
  obtain ⟨c, hc, hobs⟩ := Option.map_eq_some_iff.mp hrun
  simp only [Prod.mk.injEq, List.isEmpty_iff, decide_eq_false_iff_not] at hobs
  exact ⟨as, c, hc, hobs.1, hobs.2.1, rfl, hobs.2.2⟩

end TreeConf

end SignalEventLoop.Core
