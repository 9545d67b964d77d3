/-
# The accounting of the timer identifiers

`Object::addTimer`, `releaseTimer` and `getNextTimerId` (`core/object.cpp`) over any sequence of
calls on one object.  An id comes from the set of the released ids or, when that set is empty,
from the counter `lastTimerId`; the counter has run through all ids when the next value is
smaller than the present one.

Beside the tables a state keeps `live`, the timers that `addTimer` has returned and that were not
released.  The ids of the live timers and the released ids are then exactly `1..lastTimerId`, each
of them once, so that the live timers can be counted.
-/
import SignalEventLoop.Core.TimerSpec

namespace SignalEventLoop.Core

/-! ## The value that passes through an `int` -/

/-- The conversion of a `uint32_t` to an `int`. -/
def toInt (x : ℕ) : ℤ := if x < 2 ^ 31 then x else x - 2 ^ 32

/-- The conversion of an `int` to a `uint32_t`. -/
def toUInt (x : ℤ) : ℕ := (x % 2 ^ 32).toNat

lemma toUInt_toInt {x : ℕ} (h : x < 2 ^ 32) : toUInt (toInt x) = x := by
  unfold toUInt toInt
  split <;> omega

namespace TimerTables

variable {s : TimerTables}

/-- `Object::getNextTimerId` to the letter: the variable `ret` has the type of
`INVALID_TIMER_ID`, which is `int`. -/
def getNextTimerIdInt (s : TimerTables) : ℕ × TimerTables :=
  match s.availableIdSet.toList.head? with
  | some id =>
    let ret := toInt id
    (toUInt ret, { s with availableIdSet := s.availableIdSet.erase id })
  | none =>
    let next_timer_id := (s.lastTimerId + 1) % 2 ^ 32
    if s.lastTimerId ≤ next_timer_id then
      let ret := toInt next_timer_id
      (toUInt ret, { s with lastTimerId := toUInt ret })
    else (toUInt invalidTimerId, s)

/-- An id survives the way through the `int`. -/
theorem IdInv.getNextTimerIdInt_eq (h : IdInv s) : s.getNextTimerIdInt = s.getNextTimerId := by
  have hlt := h.last_lt
  unfold TimerTables.getNextTimerIdInt TimerTables.getNextTimerId
  cases hid : s.availableIdSet.toList.head? with
  | some id =>
    have hle := (h.available id (Std.ExtTreeSet.mem_toList.mp (List.mem_of_head? hid))).2.1
    simp only [toUInt_toInt (show id < 2 ^ 32 by omega)]
  | none =>
    simp only [toUInt_toInt (Nat.mod_lt (s.lastTimerId + 1) (show 0 < 2 ^ 32 by norm_num))]
    rfl

/-! ## What `getNextTimerId` can do -/

/-- The id is a released one, or the next one of the counter, or there is none. -/
lemma getNextTimerId_cases (hlt : s.lastTimerId < 2 ^ 32) :
    (∃ id ∈ s.availableIdSet,
      s.getNextTimerId = (id, { s with availableIdSet := s.availableIdSet.erase id })) ∨
    ((∀ id, id ∉ s.availableIdSet) ∧ s.lastTimerId + 1 < 2 ^ 32 ∧
      s.getNextTimerId = (s.lastTimerId + 1, { s with lastTimerId := s.lastTimerId + 1 })) ∨
    ((∀ id, id ∉ s.availableIdSet) ∧ s.lastTimerId + 1 = 2 ^ 32 ∧
      s.getNextTimerId = (invalidTimerId, s)) := by
  unfold getNextTimerId
  split
  next id hid =>
    exact Or.inl ⟨id, Std.ExtTreeSet.mem_toList.mp (List.mem_of_head? hid), rfl⟩
  next hnone =>
    have hempty : ∀ id, id ∉ s.availableIdSet := by
      intro id hid
      rw [← Std.ExtTreeSet.mem_toList, List.head?_eq_none_iff.mp hnone] at hid
      exact absurd hid List.not_mem_nil
    rcases Nat.lt_or_ge (s.lastTimerId + 1) (2 ^ 32) with hnext | hnext
    · refine Or.inr (Or.inl ⟨hempty, hnext, ?_⟩)
      simp only [Nat.mod_eq_of_lt hnext, Nat.le_succ, if_true]
    · -- the counter wraps around to 0
      have hwrap : s.lastTimerId + 1 = 2 ^ 32 := by omega
      refine Or.inr (Or.inr ⟨hempty, hwrap, ?_⟩)
      simp only [hwrap, Nat.mod_self]
      rw [if_neg (by omega)]

/-- `addTimer` finds no id and changes nothing, or the new timer gets an id, and no other id is
lost. -/
lemma IdInv.addTimer_cases (h : IdInv s) (i : ℤ) :
    (s.addTimer i = (none, s) ∧ (∀ id, id ∉ s.availableIdSet) ∧ s.lastTimerId + 1 = 2 ^ 32) ∨
    ∃ id, id ≠ 0 ∧ (s.addTimer i).1 = some s.nextRef ∧
      (s.addTimer i).2.timers =
        Function.update s.timers s.nextRef ((Timer.create i).setTimerId id) ∧
      ∀ id', 1 ≤ id' → id' ≤ (s.addTimer i).2.lastTimerId → id' = id ∨
        (id' ≤ s.lastTimerId ∧
          (id' ∈ s.availableIdSet → id' ∈ (s.addTimer i).2.availableIdSet)) := by
  rcases getNextTimerId_cases h.last_lt with ⟨id, hid, he⟩ | ⟨-, -, he⟩ | ⟨hempty, hwrap, he⟩
  · have hne := (h.available id hid).1
    refine Or.inr ⟨id, hne, ?_⟩
    simp only [TimerTables.addTimer, he, Timer.setTimerId_timerId, isValidTimerId_iff.mpr hne,
      if_true, true_and]
    intro id' _ hle
    by_cases heq : id' = id
    · exact Or.inl heq
    · refine Or.inr ⟨hle, fun hav => ?_⟩
      rw [Std.ExtTreeSet.mem_erase]
      exact ⟨by simpa using Ne.symm heq, hav⟩
  · have hne : s.lastTimerId + 1 ≠ 0 := Nat.succ_ne_zero _
    refine Or.inr ⟨s.lastTimerId + 1, hne, ?_⟩
    simp only [TimerTables.addTimer, he, Timer.setTimerId_timerId, isValidTimerId_iff.mpr hne,
      if_true, true_and]
    intro id' _ hle
    by_cases heq : id' = s.lastTimerId + 1
    · exact Or.inl heq
    · exact Or.inr ⟨by omega, id⟩
  · refine Or.inl ⟨?_, hempty, hwrap⟩
    simp [TimerTables.addTimer, he, isValidTimerId]

/-- `releaseTimer` of a live timer, found by its id. -/
lemma IdInv.releaseTimer_of_mapped (h : IdInv s) {id : ℕ} {r : TimerRef}
    (hr : s.timerMap[id]? = some r) : s.releaseTimer id = s.forget r := by
  rw [releaseTimer, hr, ← (h.mapped id r hr).1]
  rfl

lemma releaseTimer_of_unmapped {id : ℕ} (hr : s.timerMap[id]? = none) :
    s.releaseTimer id = s := by
  rw [releaseTimer, hr]

end TimerTables

/-! ## Sequences of calls -/

/-- A call of `addTimer` or `releaseTimer`. -/
inductive IdOp where
  | addTimer (interval : ℤ)
  | releaseTimer (timerId : ℕ)
deriving DecidableEq

/-- The tables, and the timers that were returned by `addTimer` and not released. -/
structure IdState where
  tables : TimerTables
  live : List TimerRef

namespace IdState

/-- The ids of the live timers. -/
def liveIds (x : IdState) : List ℕ := x.live.map fun r => (x.tables.timers r).timerId

/-- One call. -/
def apply (x : IdState) : IdOp → IdState
  | .addTimer interval =>
    match x.tables.addTimer interval with
    | (some r, tables) => ⟨tables, x.live ++ [r]⟩
    | (none, tables) => ⟨tables, x.live⟩
  | .releaseTimer timerId =>
    ⟨x.tables.releaseTimer timerId,
      x.live.filter fun r => decide ((x.tables.timers r).timerId ≠ timerId)⟩

/-- The calls, one after the other, on a new object. -/
def run (ops : List IdOp) : IdState := ops.foldl apply ⟨.empty, []⟩

/-- The ids of the live timers are distinct and not zero, and together with the released ids they
are the ids up to `lastTimerId`. -/
structure Accounted (x : IdState) : Prop where
  distinct : x.liveIds.Nodup
  valid : 0 ∉ x.liveIds
  not_available : ∀ id ∈ x.liveIds, id ∉ x.tables.availableIdSet
  le_last : ∀ id ∈ x.liveIds, id ≤ x.tables.lastTimerId
  all : ∀ id, (1 ≤ id ∧ id ≤ x.tables.lastTimerId) ↔
    id ∈ x.liveIds ∨ id ∈ x.tables.availableIdSet

/-! ## The invariant -/

/-- `live` holds every timer with a valid id once, and no id up to `lastTimerId` is lost. -/
structure Inv (x : IdState) : Prop where
  ids : x.tables.IdInv
  nodup : x.live.Nodup
  mem_live : ∀ r, r ∈ x.live ↔ (x.tables.timers r).timerId ≠ 0
  covered : ∀ id, 1 ≤ id → id ≤ x.tables.lastTimerId →
    id ∈ x.liveIds ∨ id ∈ x.tables.availableIdSet

variable {x : IdState} {id : ℕ}

lemma mem_liveIds : id ∈ x.liveIds ↔ ∃ r ∈ x.live, (x.tables.timers r).timerId = id :=
  List.mem_map

lemma inv_new : Inv ⟨.empty, []⟩ where
  ids := TimerTables.idInv_empty
  nodup := List.nodup_nil
  mem_live := by simp [TimerTables.empty, invalidTimerId]
  covered := by
    intro id h1 h2
    have : id ≤ 0 := h2
    omega

/-- The ids of live timers are the keys of `timerMap`. -/
lemma Inv.mem_liveIds_iff (h : x.Inv) :
    id ∈ x.liveIds ↔ ∃ r, x.tables.timerMap[id]? = some r := by
  rw [mem_liveIds]
  constructor
  · rintro ⟨r, hr, rfl⟩
    exact ⟨r, h.ids.owned r ((h.mem_live r).mp hr)⟩
  · rintro ⟨r, hr⟩
    obtain ⟨hid, hne⟩ := h.ids.mapped id r hr
    exact ⟨r, (h.mem_live r).mpr (by rw [hid]; exact hne), hid⟩

lemma Inv.accounted (h : x.Inv) : x.Accounted where
  distinct := by
    refine h.nodup.map_on fun r hr r' hr' he => ?_
    exact h.ids.eq_of_timerId_eq ((h.mem_live r').mp hr') he
  valid := by
    rw [mem_liveIds]
    rintro ⟨r, hr, he⟩
    exact (h.mem_live r).mp hr he
  not_available := by
    intro id hid hav
    obtain ⟨r, hr⟩ := h.mem_liveIds_iff.mp hid
    rw [(h.ids.available id hav).2.2] at hr
    exact absurd hr (by simp)
  le_last := by
    intro id hid
    obtain ⟨r, hr⟩ := h.mem_liveIds_iff.mp hid
    exact h.ids.le_last id r hr
  all := by
    intro id
    constructor
    · rintro ⟨h1, h2⟩
      exact h.covered id h1 h2
    · rintro (hid | hid)
      · obtain ⟨r, hr⟩ := h.mem_liveIds_iff.mp hid
        exact ⟨Nat.pos_of_ne_zero (h.ids.mapped id r hr).2, h.ids.le_last id r hr⟩
      · obtain ⟨hne, hle, -⟩ := h.ids.available id hid
        exact ⟨Nat.pos_of_ne_zero hne, hle⟩

lemma Inv.addTimer (h : x.Inv) (i : ℤ) : (x.apply (.addTimer i)).Inv := by
  have hids := h.ids.addTimer i
  rcases h.ids.addTimer_cases i with ⟨he, -, -⟩ | ⟨id, hne, hr, ht, hcov⟩
  · simpa only [apply, he] using h
  · have hnew : x.tables.nextRef ∉ x.live := by
      rw [h.mem_live]
      intro hlive
      exact lt_irrefl _ (h.ids.lt_nextRef hlive)
    have hx : x.apply (.addTimer i) =
        ⟨(x.tables.addTimer i).2, x.live ++ [x.tables.nextRef]⟩ := by
      rw [apply]
      split
      next heq => rw [heq] at hr ⊢; rw [Option.some.inj hr]
      next heq => rw [heq] at hr; exact absurd hr (by simp)
    rw [hx]
    have hold : ∀ r ∈ x.live,
        ((x.tables.addTimer i).2.timers r).timerId = (x.tables.timers r).timerId := by
      intro r hr
      rw [ht, Function.update_of_ne]
      rintro rfl
      exact hnew hr
    refine ⟨hids, ?_, ?_, ?_⟩
    · rw [List.nodup_append]
      refine ⟨h.nodup, List.nodup_singleton _, ?_⟩
      rintro r hr _ hs rfl
      rw [List.mem_singleton] at hs
      exact hnew (hs ▸ hr)
    · intro r
      rw [List.mem_append, List.mem_singleton, ht]
      by_cases hrn : r = x.tables.nextRef
      · subst hrn
        simp [hne]
      · rw [Function.update_of_ne hrn, h.mem_live]
        simp [hrn]
    · intro id' h1 h2
      have hmem : ∀ id', id' ∈ x.liveIds →
          id' ∈ liveIds ⟨(x.tables.addTimer i).2, x.live ++ [x.tables.nextRef]⟩ := by
        intro id' hid'
        obtain ⟨r, hr, rfl⟩ := mem_liveIds.mp hid'
        exact mem_liveIds.mpr ⟨r, List.mem_append_left _ hr, hold r hr⟩
      rcases hcov id' h1 h2 with rfl | ⟨hle, hav⟩
      · refine Or.inl (mem_liveIds.mpr ⟨x.tables.nextRef, by simp, ?_⟩)
        rw [ht, Function.update_self, Timer.setTimerId_timerId]
      · rcases h.covered id' h1 hle with hid' | hid'
        · exact Or.inl (hmem id' hid')
        · exact Or.inr (hav hid')

lemma Inv.releaseTimer (h : x.Inv) (timerId : ℕ) : (x.apply (.releaseTimer timerId)).Inv := by
  cases hmap : x.tables.timerMap[timerId]? with
  | none =>
    -- no live timer has the id, so nothing happens
    have hlive : (x.live.filter fun r => decide ((x.tables.timers r).timerId ≠ timerId)) =
        x.live := by
      rw [List.filter_eq_self]
      intro r hr
      rw [decide_eq_true_iff]
      rintro rfl
      rw [h.ids.owned r ((h.mem_live r).mp hr)] at hmap
      exact absurd hmap (by simp)
    rw [apply, TimerTables.releaseTimer_of_unmapped hmap, hlive]
    exact h
  | some r =>
    obtain ⟨hid, hne⟩ := h.ids.mapped timerId r hmap
    subst hid
    rw [apply, h.ids.releaseTimer_of_mapped hmap]
    have hself : ((x.tables.forget r).timers r).timerId = 0 := by
      rw [TimerTables.forget_timers, TimerTables.setTimer_timers_self]
      rfl
    have hother : ∀ r', r' ≠ r → (x.tables.forget r).timers r' = x.tables.timers r' :=
      fun r' hr' => x.tables.setTimer_timers_ne _ hr'
    have hmem : ∀ r', (r' ∈ x.live.filter fun r' =>
        decide ((x.tables.timers r').timerId ≠ (x.tables.timers r).timerId)) ↔
          r' ∈ x.live ∧ r' ≠ r := by
      intro r'
      rw [List.mem_filter, decide_eq_true_iff]
      refine and_congr_right fun hr' => ⟨?_, fun hne' heq => hne' ?_⟩
      · rintro hids rfl
        exact hids rfl
      · exact h.ids.eq_of_timerId_eq hne heq
    refine ⟨h.ids.forget hne, h.nodup.filter _, ?_, ?_⟩
    · intro r'
      rw [hmem, h.mem_live]
      by_cases hr' : r' = r
      · subst hr'
        simp [hself]
      · rw [hother r' hr']
        simp [hr']
    · intro id h1 h2
      change id ∈ _ ∨ id ∈ x.tables.availableIdSet.insert _
      rw [Std.ExtTreeSet.mem_insert, Std.LawfulEqCmp.compare_eq_iff_eq]
      rcases h.covered id h1 h2 with hid | hid
      · obtain ⟨r', hr', rfl⟩ := mem_liveIds.mp hid
        by_cases heq : r' = r
        · subst heq
          exact Or.inr (Or.inl rfl)
        · refine Or.inl (mem_liveIds.mpr ⟨r', (hmem r').mpr ⟨hr', heq⟩, ?_⟩)
          rw [hother r' heq]
      · exact Or.inr (Or.inr hid)

lemma inv_run (ops : List IdOp) : (run ops).Inv := by
  suffices h : ∀ x : IdState, x.Inv → (ops.foldl apply x).Inv from h _ inv_new
  induction ops with
  | nil => exact fun x hx => hx
  | cons op ops ih =>
    intro x hx
    refine ih _ ?_
    cases op with
    | addTimer i => exact hx.addTimer i
    | releaseTimer id => exact hx.releaseTimer id

/-! ## Counting -/

/-- As many timers as there are ids are live exactly when no id is left. -/
lemma Inv.length_live_iff (h : x.Inv) : x.live.length = 2 ^ 32 - 1 ↔
    x.tables.lastTimerId + 1 = 2 ^ 32 ∧ ∀ id, id ∉ x.tables.availableIdSet := by
  have hacc := h.accounted
  have hlt := h.ids.last_lt
  have hsub : x.liveIds.toFinset ⊆ Finset.Icc 1 x.tables.lastTimerId := by
    intro id hid
    rw [Finset.mem_Icc, hacc.all]
    exact Or.inl (List.mem_toFinset.mp hid)
  have hcard : x.liveIds.toFinset.card = x.live.length := by
    rw [List.toFinset_card_of_nodup hacc.distinct, liveIds, List.length_map]
  constructor
  · intro hlen
    have hle := Finset.card_le_card hsub
    rw [hcard, Nat.card_Icc, hlen] at hle
    have hlast : x.tables.lastTimerId + 1 = 2 ^ 32 := by omega
    refine ⟨hlast, fun id hid => ?_⟩
    have heq : x.liveIds.toFinset = Finset.Icc 1 x.tables.lastTimerId := by
      refine Finset.eq_of_subset_of_card_le hsub ?_
      rw [hcard, Nat.card_Icc, hlen]
      omega
    have hlive : id ∈ x.liveIds := by
      rw [← List.mem_toFinset, heq, Finset.mem_Icc]
      exact (hacc.all id).mpr (Or.inr hid)
    exact hacc.not_available id hlive hid
  · rintro ⟨hlast, hempty⟩
    have heq : x.liveIds.toFinset = Finset.Icc 1 x.tables.lastTimerId := by
      refine hsub.antisymm fun id hid => ?_
      rw [List.mem_toFinset]
      rw [Finset.mem_Icc] at hid
      exact ((hacc.all id).mp hid).resolve_right (hempty id)
    rw [← hcard, heq, Nat.card_Icc, hlast]

/-- Whatever was added and released, the ids are accounted for, the `int` in `getNextTimerId` does
no harm, and `addTimer` fails exactly when all ids are in use, and then changes nothing. -/
theorem timer_ids_accounted (ops : List IdOp) (interval : ℤ) :
    (run ops).Accounted ∧
    (run ops).tables.getNextTimerIdInt = (run ops).tables.getNextTimerId ∧
    (((run ops).tables.addTimer interval).1 = none ↔ (run ops).live.length = 2 ^ 32 - 1) ∧
    (((run ops).tables.addTimer interval).1 = none →
      ((run ops).tables.addTimer interval).2 = (run ops).tables) := by
  have h := inv_run ops
  refine ⟨h.accounted, h.ids.getNextTimerIdInt_eq, ?_, ?_⟩
  · rw [h.length_live_iff]
    rcases h.ids.addTimer_cases interval with ⟨he, hempty, hwrap⟩ | ⟨id, hne, hr, -, hcov⟩
    · rw [he]
      exact ⟨fun _ => ⟨hwrap, hempty⟩, fun _ => rfl⟩
    · rw [hr]
      refine ⟨fun hnone => absurd hnone (by simp), fun ⟨hlast, hempty⟩ => ?_⟩
      -- without a free id the call cannot have succeeded
      exfalso
      rcases TimerTables.getNextTimerId_cases h.ids.last_lt with
        ⟨id, hid, -⟩ | ⟨-, hnext, -⟩ | ⟨-, -, he⟩
      · exact hempty id hid
      · omega
      · simp [TimerTables.addTimer, he, isValidTimerId] at hr
  · rcases h.ids.addTimer_cases interval with ⟨he, -, -⟩ | ⟨id, -, hr, -, -⟩
    · rw [he]
      exact fun _ => rfl
    · rw [hr]
      exact fun hnone => absurd hnone (by simp)

end IdState

end SignalEventLoop.Core
