/-
# How long the loop sleeps

`Object::getNextTimeOut` (`core/object.cpp`) and the part of `TaskScheduler::exec`
(`core/task-scheduler.cpp`) that uses it.  An object returns 0 when there is something to do now,
-1 when it has nothing at all, and else the time to the first deadline; the largest `int64_t`
stands for no deadline.  The values of the objects in `execSubObjectSet` are merged into the own
one.

`Sleeps` says what the value means for all the objects to which the sets lead.  It is proved level
by level: the loop over the set attains one of the values that it merges, and is not above any of
them.
-/
import SignalEventLoop.Core.ExecReach

namespace SignalEventLoop.Core

/-- The difference of two numbers that are not negative is in the range of `int64_t`. -/
lemma wrap64_sub_eq {x y : ℤ} (hx : 0 ≤ x) (hx' : x < 2 ^ 63) (hy : 0 ≤ y) (hy' : y < 2 ^ 63) :
    wrap64 (x - y) = x - y :=
  Int.bmod_eq_of_le (by norm_num at hx' hy' ⊢; omega) (by norm_num at hx' hy' ⊢; omega)

namespace TaskScheduler

/-- `TaskScheduler::DEFAULT_TIMEOUT_MSEC`. -/
def DEFAULT_TIMEOUT_MSEC : ℤ := 5000

/-- The timeout that `TaskScheduler::exec` passes to `handleNetworkEvent`. -/
def networkTimeout (timeout : ℤ) : ℤ :=
  if timeout < 0 then DEFAULT_TIMEOUT_MSEC
  else if timeout > DEFAULT_TIMEOUT_MSEC then DEFAULT_TIMEOUT_MSEC
  else timeout

lemma networkTimeout_le {timeout : ℤ} (h : 0 ≤ timeout) : networkTimeout timeout ≤ timeout := by
  unfold networkTimeout
  split_ifs <;> omega

end TaskScheduler

namespace ObjectTree

variable {O ε : Type*} [LinearOrder O] {T : ObjectTree O} {objs : O → ObjectState O ε}
  {now : ℤ} {o p : O} {t : ℤ}

/-- The object has a timer with the deadline `d`. -/
def HasDeadline (objs : O → ObjectState O ε) (o : O) (d : ℤ) : Prop :=
  ∃ id r, (objs o).tables.timerEventsMap[((d, id) : ℤ × ℕ)]? = some r

/-- The object has something to do at the time `now`. -/
def Ready (objs : O → ObjectState O ε) (now : ℤ) (o : O) : Prop :=
  (objs o).triggerEventQueue ≠ [] ∨ ∃ d, HasDeadline objs o d ∧ d ≤ now

/-- The object has no event, no timer and no object to visit. -/
def Idle (objs : O → ObjectState O ε) (o : O) : Prop :=
  (objs o).triggerEventQueue = [] ∧ (objs o).tables.timerEventsMap.isEmpty = true ∧
    (objs o).execSubObjectSet.isEmpty = true

/-- The deadlines are `int64_t` values, and not negative. -/
def DeadlinesInRange (objs : O → ObjectState O ε) : Prop :=
  ∀ o d, HasDeadline objs o d → 0 ≤ d ∧ d < 2 ^ 63

/-- The times that are left until the deadlines of the objects to which the sets lead. -/
def timesLeft (objs : O → ObjectState O ε) (now : ℤ) (p : O) : Set ℤ :=
  {x | ∃ o d, Linked objs p o ∧ HasDeadline objs o d ∧ x = d - now}

/-! ## The deadline of the object itself -/

lemma hasDeadline_of_mem_toList {e : (ℤ × ℕ) × TimerRef}
    (he : e ∈ (objs o).tables.timerEventsMap.toList) : HasDeadline objs o e.1.1 :=
  ⟨e.1.2, e.2, Std.ExtTreeMap.mem_toList_iff_getElem?_eq_some.mp he⟩

/-- The map begins with the earliest deadline. -/
lemma head_le_of_hasDeadline {e : (ℤ × ℕ) × TimerRef} {d : ℤ}
    (he : (objs o).tables.timerEventsMap.toList.head? = some e) (hd : HasDeadline objs o d) :
    e.1.1 ≤ d := by
  obtain ⟨id, r, hr⟩ := hd
  have hmem : ((d, id), r) ∈ (objs o).tables.timerEventsMap.toList :=
    Std.ExtTreeMap.mem_toList_iff_getElem?_eq_some.mpr hr
  obtain ⟨rest, hlist⟩ := List.head?_eq_some_iff.mp he
  have hordered := (objs o).tables.timerEventsMap.ordered_keys_toList
  rw [hlist] at hmem hordered
  rcases List.mem_cons.mp hmem with heq | hrest
  · rw [← heq]
  · exact TimerTables.fst_le_of_timerKeyCmp_lt (List.rel_of_pairwise_cons hordered hrest)

lemma ownTimeOut_cases (hrange : DeadlinesInRange objs) (h0 : 0 ≤ now) (hlt : now < 2 ^ 63) :
    ((∀ d, ¬ HasDeadline objs o d) ∧ ownTimeOut (objs o) now = 2 ^ 63 - 1) ∨
    ∃ d, HasDeadline objs o d ∧ (∀ d', HasDeadline objs o d' → d ≤ d') ∧
      ownTimeOut (objs o) now = d - now := by
  rw [ownTimeOut]
  cases he : (objs o).tables.timerEventsMap.toList.head? with
  | none =>
    refine Or.inl ⟨?_, rfl⟩
    rintro d ⟨id, r, hr⟩
    have hmem : ((d, id), r) ∈ (objs o).tables.timerEventsMap.toList :=
      Std.ExtTreeMap.mem_toList_iff_getElem?_eq_some.mpr hr
    rw [List.head?_eq_none_iff.mp he] at hmem
    exact absurd hmem List.not_mem_nil
  | some e =>
    have hd := hasDeadline_of_mem_toList (List.mem_of_head? he)
    obtain ⟨hd0, hdlt⟩ := hrange o _ hd
    exact Or.inr ⟨e.1.1, hd, fun d' hd' => head_le_of_hasDeadline he hd',
      wrap64_sub_eq hd0 hdlt h0 hlt⟩

/-! ## The loop over the set -/

omit [LinearOrder O] in
/-- The loop returns the value it starts with or one that it merges. -/
lemma scanTimeOut_attained (f : O → ℤ) (l : List O) (m : ℤ) :
    scanTimeOut f l m = m ∨ ∃ i ∈ l, 0 ≤ f i ∧ scanTimeOut f l m = f i := by
  induction l generalizing m with
  | nil => exact Or.inl rfl
  | cons i rest ih =>
    have hrest : ∀ m', scanTimeOut f rest m' = m' ∨
        ∃ j ∈ i :: rest, 0 ≤ f j ∧ scanTimeOut f rest m' = f j := by
      intro m'
      rcases ih m' with h | ⟨j, hj, h⟩
      · exact Or.inl h
      · exact Or.inr ⟨j, List.mem_cons_of_mem _ hj, h⟩
    simp only [scanTimeOut]
    split_ifs with h0 hpos hlt
    · exact Or.inr ⟨i, List.mem_cons_self, by omega, h0.symm⟩
    · exact hrest m
    · rcases hrest (f i) with h | h
      · exact Or.inr ⟨i, List.mem_cons_self, by omega, h⟩
      · exact Or.inr h
    · exact hrest m

/-! ## What the value means -/

/-- The value `t` of `getNextTimeOut` is right for the objects to which the sets lead. -/
structure Sleeps (objs : O → ObjectState O ε) (now : ℤ) (p : O) (t : ℤ) : Prop where
  range : -1 ≤ t
  zero_iff : t = 0 ↔ ∃ o, Linked objs p o ∧ Ready objs now o
  idle_iff : t = -1 ↔ Idle objs p
  le : 0 < t → ∀ x ∈ timesLeft objs now p, t ≤ x
  attained : 0 < t → t = 2 ^ 63 - 1 ∨ t ∈ timesLeft objs now p

lemma Ready.not_idle (h : Ready objs now o) : ¬ Idle objs o := by
  rintro ⟨hqueue, hmap, -⟩
  rcases h with h | ⟨d, ⟨id, r, hr⟩, -⟩
  · exact h hqueue
  · rw [Std.ExtTreeMap.isEmpty_iff.mp hmap] at hr
    simp at hr

lemma Idle.eq_of_linked (h : Idle objs p) (hl : Linked objs p o) : o = p := by
  cases hl using Relation.ReflTransGen.head_induction_on with
  | refl => rfl
  | head hy _ =>
    rw [Std.ExtTreeSet.isEmpty_iff.mp h.2.2] at hy
    exact absurd hy Std.ExtTreeSet.not_mem_empty

lemma Idle.timesLeft_eq (h : Idle objs p) : timesLeft objs now p = ∅ := by
  refine Set.eq_empty_of_forall_notMem ?_
  rintro x ⟨o, d, hl, ⟨id, r, hr⟩, -⟩
  rw [h.eq_of_linked hl, Std.ExtTreeMap.isEmpty_iff.mp h.2.1] at hr
  simp at hr

/-- An object with something to do returns 0. -/
lemma sleeps_of_ready (h : Ready objs now p) : Sleeps objs now p 0 where
  range := by norm_num
  zero_iff := ⟨fun _ => ⟨p, Relation.ReflTransGen.refl, h⟩, fun _ => rfl⟩
  idle_iff := ⟨fun h' => absurd h' (by norm_num), fun h' => absurd h' h.not_idle⟩
  le := fun h' => absurd h' (lt_irrefl 0)
  attained := fun h' => absurd h' (lt_irrefl 0)

lemma sleeps_of_idle (h : Idle objs p) : Sleeps objs now p (-1) where
  range := le_refl _
  zero_iff := by
    refine ⟨fun h' => absurd h' (by norm_num), ?_⟩
    rintro ⟨o, hl, hready⟩
    rw [h.eq_of_linked hl] at hready
    exact absurd h hready.not_idle
  idle_iff := ⟨fun _ => h, fun _ => rfl⟩
  le := fun h' => absurd h' (by norm_num)
  attained := fun h' => absurd h' (by norm_num)

/-- The sets lead from `p` to itself, and through its children. -/
lemma linked_cases (h : Linked objs p o) :
    o = p ∨ ∃ i ∈ (objs p).execSubObjectSet, Linked objs i o := by
  cases h using Relation.ReflTransGen.head_induction_on with
  | refl => exact Or.inl rfl
  | head hy hrest => exact Or.inr ⟨_, hy, hrest⟩

lemma mem_timesLeft_child {i : O} (hi : i ∈ (objs p).execSubObjectSet) {x : ℤ}
    (hx : x ∈ timesLeft objs now i) : x ∈ timesLeft objs now p := by
  obtain ⟨o, d, hl, hd⟩ := hx
  exact ⟨o, d, Relation.ReflTransGen.head hi hl, hd⟩

/-- An object that is neither ready nor idle merges the values of the objects of its set into the
own one. -/
lemma sleeps_of_scan {f : O → ℤ} {own : ℤ} (hready : ¬ Ready objs now p) (hidle : ¬ Idle objs p)
    (hown : ((∀ d, ¬ HasDeadline objs p d) ∧ own = 2 ^ 63 - 1) ∨
      ∃ d, HasDeadline objs p d ∧ (∀ d', HasDeadline objs p d' → d ≤ d') ∧ own = d - now)
    (hpos : 0 < own)
    (hchild : ∀ i ∈ (objs p).execSubObjectSet, Sleeps objs now i (f i)) :
    Sleeps objs now p (scanTimeOut f (objs p).execSubObjectSet.toList own) := by
  obtain ⟨h0, hle, hall⟩ := scanTimeOut_bounds f (objs p).execSubObjectSet.toList hpos.le
  have hatt := scanTimeOut_attained f (objs p).execSubObjectSet.toList own
  generalize scanTimeOut f (objs p).execSubObjectSet.toList own = t at h0 hle hall hatt
  simp only [Std.ExtTreeSet.mem_toList] at hall hatt
  refine ⟨by omega, ⟨fun ht => ?_, ?_⟩, ⟨fun h => absurd h (by omega), fun h => absurd h hidle⟩,
    fun ht x hx => ?_, fun ht => ?_⟩
  · -- the value 0 was returned for an object of the set
    rcases hatt with h | ⟨i, hi, -, h⟩
    · omega
    · obtain ⟨o, hl, ho⟩ := (hchild i hi).zero_iff.mp (h.symm.trans ht)
      exact ⟨o, Relation.ReflTransGen.head hi hl, ho⟩
  · rintro ⟨o, hl, ho⟩
    rcases linked_cases hl with rfl | ⟨i, hi, hl⟩
    · exact absurd ho hready
    · have hzero := (hchild i hi).zero_iff.mpr ⟨o, hl, ho⟩
      have := hall i hi hzero.ge
      omega
  · obtain ⟨o, d, hl, hd, rfl⟩ := hx
    rcases linked_cases hl with rfl | ⟨i, hi, hl⟩
    · rcases hown with ⟨hnone, -⟩ | ⟨d₀, -, hmin, rfl⟩
      · exact absurd hd (hnone d)
      · have := hmin d hd
        omega
    · -- the value of the child cannot be -1 or 0
      have hrange := (hchild i hi).range
      have hmem : d - now ∈ timesLeft objs now i := ⟨o, d, hl, hd, rfl⟩
      have hne : f i ≠ -1 := by
        intro he
        rw [((hchild i hi).idle_iff.mp he).timesLeft_eq] at hmem
        exact hmem
      have hle' := hall i hi (by omega)
      have := (hchild i hi).le (by omega) _ hmem
      omega
  · rcases hatt with h | ⟨i, hi, -, h⟩
    · rcases hown with ⟨-, hmax⟩ | ⟨d, hd, -, hown⟩
      · exact Or.inl (h.trans hmax)
      · exact Or.inr ⟨p, d, Relation.ReflTransGen.refl, hd, h.trans hown⟩
    · rcases (hchild i hi).attained (by omega) with hmax | hmem
      · exact Or.inl (h.trans hmax)
      · rw [h]
        exact Or.inr (mem_timesLeft_child hi hmem)

/-- The value of every object is right, level by level from the leaves. -/
lemma sleeps_getNextTimeOut
    (hchildren : ∀ p o, o ∈ (objs p).execSubObjectSet → T.parent o = some p)
    (hrange : DeadlinesInRange objs) (h0 : 0 ≤ now) (hlt : now < 2 ^ 63) (p : O) :
    Sleeps objs now p (T.getNextTimeOut objs (fun _ => now) p) := by
  induction hn : T.height - T.depth p using Nat.strong_induction_on generalizing p with
  | _ n ih =>
    subst hn
    have hcases := ownTimeOut_cases (o := p) hrange h0 hlt
    rw [getNextTimeOut_eq hchildren]
    split_ifs with hqueue hempty hown
    · rw [Bool.not_eq_true', ← Bool.not_eq_true, List.isEmpty_iff] at hqueue
      exact sleeps_of_ready (Or.inl hqueue)
    · rw [Bool.not_eq_true', Bool.not_eq_false, List.isEmpty_iff] at hqueue
      rw [Bool.and_eq_true] at hempty
      exact sleeps_of_idle ⟨hqueue, hempty⟩
    · rcases hcases with ⟨-, hmax⟩ | ⟨d, hd, -, hown'⟩
      · omega
      · exact sleeps_of_ready (Or.inr ⟨d, hd, by omega⟩)
    · rw [Bool.not_eq_true', Bool.not_eq_false, List.isEmpty_iff] at hqueue
      refine sleeps_of_scan ?_ ?_ hcases (not_le.mp hown) fun i hi => ?_
      · rintro (h | ⟨d, hd, hle⟩)
        · exact h hqueue
        · rcases hcases with ⟨hnone, -⟩ | ⟨d₀, -, hmin, hown'⟩
          · exact hnone d hd
          · have := hmin d hd
            omega
      · rintro ⟨-, hmap, hset⟩
        rw [hmap, hset] at hempty
        exact hempty rfl
      · have hdepth := T.depth_parent i p (hchildren p i hi)
        have := T.depth_lt i
        exact ih _ (by omega) i rfl

/-- **The sleep time.**  `getNextTimeOut` of the root is 0 exactly when an object to which the sets
lead has an event or an expired timer, -1 exactly when the root has nothing at all, and else the
time to the first deadline, or the largest `int64_t` without one; and the timeout that is passed to
`handleNetworkEvent` is never above the time to a deadline. -/
theorem getNextTimeOut_root (T : ObjectTree O) (objs : O → ObjectState O ε) (now : ℤ)
    (hchildren : ∀ p o, o ∈ (objs p).execSubObjectSet → T.parent o = some p)
    (hrange : DeadlinesInRange objs) (h0 : 0 ≤ now) (hlt : now < 2 ^ 63) :
    (T.getNextTimeOut objs (fun _ => now) T.root = 0 ↔
      ∃ o, Linked objs T.root o ∧ Ready objs now o) ∧
    (T.getNextTimeOut objs (fun _ => now) T.root = -1 ↔ Idle objs T.root) ∧
    ((¬ ∃ o, Linked objs T.root o ∧ Ready objs now o) → ¬ Idle objs T.root →
      ((timesLeft objs now T.root).Nonempty →
        IsLeast (timesLeft objs now T.root) (T.getNextTimeOut objs (fun _ => now) T.root)) ∧
      (timesLeft objs now T.root = ∅ →
        T.getNextTimeOut objs (fun _ => now) T.root = 2 ^ 63 - 1)) ∧
    ∀ o d, Linked objs T.root o → HasDeadline objs o d →
      TaskScheduler.networkTimeout (T.getNextTimeOut objs (fun _ => now) T.root) ≤
        max 0 (d - now) := by
  have h := sleeps_getNextTimeOut hchildren hrange h0 hlt T.root
  generalize T.getNextTimeOut objs (fun _ => now) T.root = t at h
  have hr := h.range
  refine ⟨h.zero_iff, h.idle_iff, fun hready hidle => ?_, fun o d hl hd => ?_⟩
  · have hne : t ≠ 0 := fun he => hready (h.zero_iff.mp he)
    have hne' : t ≠ -1 := fun he => hidle (h.idle_iff.mp he)
    have hpos : 0 < t := by omega
    refine ⟨fun hnonempty => ⟨?_, h.le hpos⟩, fun hempty => ?_⟩
    · rcases h.attained hpos with hmax | hmem
      · -- a deadline that is as far away as possible
        obtain ⟨x, hx⟩ := hnonempty
        have hle := h.le hpos x hx
        obtain ⟨o, d, hl, hd, rfl⟩ := hx
        have := (hrange o d hd).2
        rw [show t = d - now by omega]
        exact ⟨o, d, hl, hd, rfl⟩
      · exact hmem
    · rcases h.attained hpos with hmax | hmem
      · exact hmax
      · rw [hempty] at hmem
        exact absurd hmem (Set.notMem_empty t)
  · have hmem : d - now ∈ timesLeft objs now T.root := ⟨o, d, hl, hd, rfl⟩
    have hne : t ≠ -1 := by
      intro he
      rw [(h.idle_iff.mp he).timesLeft_eq] at hmem
      exact hmem
    have hle := TaskScheduler.networkTimeout_le (show 0 ≤ t by omega)
    rcases Int.lt_or_le 0 t with hpos | hzero
    · have := h.le hpos _ hmem
      omega
    · omega

/-- The scheduler has to visit object 1, which has one timer, for the time 7. -/
def chainObjs : Fin 3 → ObjectState (Fin 3) Unit
  | 0 => ⟨[], (∅ : Std.ExtTreeSet (Fin 3)).insert (Fin.last 1).castSucc, false, .empty⟩
  | 1 => ⟨[], ∅, false, { TimerTables.empty with
      timerEventsMap := (∅ : Std.ExtTreeMap (ℤ × ℕ) TimerRef timerKeyCmp).insert (7, 1) 0 }⟩
  | 2 => .empty

lemma hasDeadline_chainObjs {o : Fin 3} {d : ℤ} : HasDeadline chainObjs o d ↔ o = 1 ∧ d = 7 := by
  unfold HasDeadline
  match o with
  | 0 => simp [chainObjs, TimerTables.empty]
  | 1 =>
    simp only [chainObjs, Std.ExtTreeMap.getElem?_insert, Std.LawfulEqCmp.compare_eq_iff_eq,
      Prod.mk.injEq, Std.ExtTreeMap.getElem?_empty, true_and]
    constructor
    · rintro ⟨id, r, h⟩
      split_ifs at h with hd
      exact hd.1.symm
    · rintro rfl
      exact ⟨1, 0, if_pos ⟨rfl, rfl⟩⟩
  | 2 => simp [chainObjs, ObjectState.empty, TimerTables.empty]

/-- At the time 2 the loop sleeps for 5. -/
theorem getNextTimeOut_chain : IsLeast (timesLeft chainObjs 2 TreeConf.chainTree.root)
    (TreeConf.chainTree.getNextTimeOut chainObjs (fun _ => 2) TreeConf.chainTree.root) := by
  have hvalue : TreeConf.chainTree.getNextTimeOut chainObjs (fun _ => 2)
      TreeConf.chainTree.root = 5 := by
    decide +kernel
  have hlink : (1 : Fin 3) ∈ (chainObjs TreeConf.chainTree.root).execSubObjectSet := by
    decide +kernel
  have hrange : DeadlinesInRange chainObjs := by
    intro o d hd
    obtain ⟨-, rfl⟩ := hasDeadline_chainObjs.mp hd
    norm_num
  obtain ⟨hzero, hidle, hmin, -⟩ := getNextTimeOut_root TreeConf.chainTree chainObjs 2
    (by decide +kernel) hrange (by norm_num) (by norm_num)
  refine (hmin (fun h => ?_) (fun h => ?_)).1 ⟨5, 1, 7, Relation.ReflTransGen.single hlink,
    hasDeadline_chainObjs.mpr ⟨rfl, rfl⟩, rfl⟩
  · rw [← hzero, hvalue] at h
    exact absurd h (by norm_num)
  · rw [← hidle, hvalue] at h
    exact absurd h (by norm_num)

end ObjectTree

end SignalEventLoop.Core
