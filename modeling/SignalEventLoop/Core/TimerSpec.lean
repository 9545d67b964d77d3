/-
# Timer identifiers and the effect of the timer operations

In every configuration the ids of the live timers are distinct and valid: `timerMap` maps
the id of a timer to that timer and to no other one.  This holds whatever the slots do.
With it `Timer::start`, `Timer::stop` and `Timer::release`, which look their own timer up
by its id, act on the timer they are called on, and the equations below say what they do.
-/
import SignalEventLoop.Core.TimerPass
import SignalEventLoop.Lib.OrdMap

namespace SignalEventLoop.Core

@[simp] lemma isValidTimerId_iff {id : ℕ} : isValidTimerId id = true ↔ id ≠ 0 := by
  simp [isValidTimerId, invalidTimerId]

namespace Timer

lemma working_iff {t : Timer} : t.working = true ↔ t.timerId ≠ 0 ∧ t.isWorking = true := by
  simp [working]

@[simp] lemma setNextTimeout_working (t : Timer) (now : ℤ) :
    (t.setNextTimeout now).working = t.working := rfl

@[simp] lemma setWorkState_false_working (t : Timer) : (t.setWorkState false).working = false := by
  simp [working, setWorkState]

@[simp] lemma setTimerId_invalid_working (t : Timer) :
    (t.setTimerId invalidTimerId).working = false := by
  simp [working, setTimerId, isValidTimerId]

@[simp] lemma setTimerId_timerId (t : Timer) (id : ℕ) : (t.setTimerId id).timerId = id := rfl

/-- Neither the id, nor the deadline, nor the work state changes. -/
structure SameState (t t' : Timer) : Prop where
  timerId : t'.timerId = t.timerId
  nextTimeout : t'.nextTimeout = t.nextTimeout
  isWorking : t'.isWorking = t.isWorking

lemma SameState.key {t t' : Timer} (h : SameState t t') : t'.key = t.key := by
  simp [Timer.key, h.timerId, h.nextTimeout]

lemma SameState.working {t t' : Timer} (h : SameState t t') : t'.working = t.working := by
  simp [Timer.working, h.timerId, h.isWorking]

lemma setInterval_sameState (t : Timer) (i : ℤ) : SameState t (t.setInterval i).2 := by
  unfold setInterval
  split <;> exact ⟨rfl, rfl, rfl⟩

lemma setSingle_sameState (t : Timer) (b : Bool) : SameState t (t.setSingle b).2 := by
  unfold setSingle
  split <;> exact ⟨rfl, rfl, rfl⟩

@[simp] lemma create_isWorking (i : ℤ) : (create i).isWorking = false := by
  simp [create, setInterval, working, isValidTimerId]

end Timer

namespace TimerTables

variable {s : TimerTables}

lemma setTimer_timers (s : TimerTables) (r r' : TimerRef) (t : Timer) :
    (s.setTimer r t).timers r' = if r' = r then t else s.timers r' := by
  simp [setTimer, Function.update_apply]

@[simp] lemma setTimer_timers_self (s : TimerTables) (r : TimerRef) (t : Timer) :
    (s.setTimer r t).timers r = t := by
  simp [setTimer_timers]

lemma setTimer_timers_ne (s : TimerTables) {r r' : TimerRef} (t : Timer) (h : r' ≠ r) :
    (s.setTimer r t).timers r' = s.timers r' := by
  simp [setTimer_timers, h]

lemma setTimer_timerId {s : TimerTables} {r : TimerRef} {t : Timer}
    (ht : t.timerId = (s.timers r).timerId) (r' : TimerRef) :
    ((s.setTimer r t).timers r').timerId = (s.timers r').timerId := by
  rw [setTimer_timers]
  split
  · next he => rw [ht, he]
  · rfl

/-! ## The identifiers -/

/-- The ids of the live timers are valid and distinct, and none of them can be handed out
again. -/
structure IdInv (s : TimerTables) : Prop where
  mapped : ∀ (id : ℕ) r, s.timerMap[id]? = some r → (s.timers r).timerId = id ∧ id ≠ 0
  owned : ∀ r, (s.timers r).timerId ≠ 0 → s.timerMap[(s.timers r).timerId]? = some r
  known : ∀ (id : ℕ) r, s.timerMap[id]? = some r → r < s.nextRef
  available : ∀ id ∈ s.availableIdSet, id ≠ 0 ∧ id ≤ s.lastTimerId ∧ s.timerMap[id]? = none
  le_last : ∀ (id : ℕ) r, s.timerMap[id]? = some r → id ≤ s.lastTimerId
  last_lt : s.lastTimerId < 2 ^ 32

lemma idInv_empty : IdInv empty where
  mapped := by simp [empty]
  owned := by simp [empty, invalidTimerId]
  known := by simp [empty]
  available := by simp [empty]
  le_last := by simp [empty]
  last_lt := by simp [empty, invalidTimerId]

/-- Two live timers with the same id are the same timer. -/
lemma IdInv.eq_of_timerId_eq (h : IdInv s) {r r' : TimerRef} (hr : (s.timers r).timerId ≠ 0)
    (he : (s.timers r').timerId = (s.timers r).timerId) : r' = r := by
  have h₁ := h.owned r hr
  have h₂ := h.owned r' (by rw [he]; exact hr)
  rw [he, h₁] at h₂
  exact (Option.some.inj h₂).symm

lemma IdInv.lt_nextRef (h : IdInv s) {r : TimerRef} (hr : (s.timers r).timerId ≠ 0) :
    r < s.nextRef := h.known _ _ (h.owned r hr)

/-- The identifiers do not depend on the other fields of the timers, nor on the queue. -/
lemma IdInv.congr (h : IdInv s) {s' : TimerTables}
    (hid : ∀ r, (s'.timers r).timerId = (s.timers r).timerId) (hn : s'.nextRef = s.nextRef)
    (hl : s'.lastTimerId = s.lastTimerId) (ha : s'.availableIdSet = s.availableIdSet)
    (hm : s'.timerMap = s.timerMap) : IdInv s' where
  mapped := by rw [hm]; intro id r hr; rw [hid]; exact h.mapped id r hr
  owned := by intro r; rw [hid, hm]; exact h.owned r
  known := by rw [hm, hn]; exact h.known
  available := by rw [ha, hl, hm]; exact h.available
  le_last := by rw [hm, hl]; exact h.le_last
  last_lt := by rw [hl]; exact h.last_lt

lemma IdInv.setTimer (h : IdInv s) {r : TimerRef} {t : Timer}
    (ht : t.timerId = (s.timers r).timerId) : IdInv (s.setTimer r t) :=
  h.congr (setTimer_timerId ht) rfl rfl rfl rfl

/-- `getNextTimerId` touches nothing but the ids it hands out. -/
lemma getNextTimerId_frame (s : TimerTables) :
    s.getNextTimerId.2.timers = s.timers ∧ s.getNextTimerId.2.nextRef = s.nextRef ∧
      s.getNextTimerId.2.timerMap = s.timerMap ∧
      s.getNextTimerId.2.timerEventsMap = s.timerEventsMap := by
  unfold getNextTimerId
  split
  · exact ⟨rfl, rfl, rfl, rfl⟩
  · dsimp only
    split <;> exact ⟨rfl, rfl, rfl, rfl⟩

/-- A valid id that `getNextTimerId` hands out belongs to no timer and cannot be handed out
a second time. -/
lemma IdInv.getNextTimerId (h : IdInv s) :
    IdInv s.getNextTimerId.2 ∧ (s.getNextTimerId.1 ≠ 0 →
      s.timerMap[s.getNextTimerId.1]? = none ∧
      s.getNextTimerId.1 ∉ s.getNextTimerId.2.availableIdSet ∧
      s.getNextTimerId.1 ≤ s.getNextTimerId.2.lastTimerId) := by
  unfold TimerTables.getNextTimerId
  split
  next id hid =>
    have hmem : id ∈ s.availableIdSet :=
      Std.ExtTreeSet.mem_toList.mp (List.mem_of_head? hid)
    obtain ⟨-, hle, hnone⟩ := h.available id hmem
    refine ⟨⟨h.mapped, h.owned, h.known, ?_, h.le_last, h.last_lt⟩, fun _ => ⟨hnone, ?_, hle⟩⟩
    · intro id' hid'
      exact h.available id' (Std.ExtTreeSet.mem_of_mem_erase hid')
    · simp
  next =>
    dsimp only
    have hlt := h.last_lt
    split
    next hle =>
      -- no wrap: the new id is one more than the largest id so far
      have hnext : (s.lastTimerId + 1) % 2 ^ 32 = s.lastTimerId + 1 := by omega
      simp only [hnext]
      have hlt' : s.lastTimerId + 1 < 2 ^ 32 := by omega
      refine ⟨⟨h.mapped, h.owned, h.known, ?_, ?_, hlt'⟩, fun _ => ⟨?_, ?_, le_rfl⟩⟩
      · intro id hid
        obtain ⟨h1, h2, h3⟩ := h.available id hid
        exact ⟨h1, Nat.le_succ_of_le h2, h3⟩
      · intro id r hr
        exact Nat.le_succ_of_le (h.le_last id r hr)
      · rw [Option.eq_none_iff_forall_ne_some]
        intro r hr
        have := h.le_last _ r hr
        omega
      · intro hmem
        have := (h.available _ hmem).2.1
        omega
    next => exact ⟨h, fun hne => absurd rfl hne⟩

/-- The effect of `addTimer` on the old timers and on the queue: none. -/
lemma addTimer_frame (s : TimerTables) (i : ℤ) :
    (s.addTimer i).2.timerEventsMap = s.timerEventsMap ∧
      s.nextRef ≤ (s.addTimer i).2.nextRef ∧
      ∀ r, r ≠ s.nextRef → (s.addTimer i).2.timers r = s.timers r := by
  obtain ⟨ht, hn, -, he⟩ := s.getNextTimerId_frame
  unfold addTimer
  dsimp only
  split
  · refine ⟨he, by rw [hn]; exact Nat.le_succ _, fun r hr => ?_⟩
    rw [hn, ht]
    exact Function.update_of_ne hr _ _
  · exact ⟨he, le_of_eq hn.symm, fun r _ => by rw [ht]⟩

/-- The new timer is not working. -/
lemma IdInv.addTimer_new (h : IdInv s) (i : ℤ) :
    ((s.addTimer i).2.timers s.nextRef).working = false := by
  obtain ⟨ht, hn, -, -⟩ := s.getNextTimerId_frame
  unfold addTimer
  dsimp only
  split
  · simp [hn, Timer.working, Timer.setTimerId]
  · rw [ht, ← Bool.not_eq_true, Timer.working_iff]
    intro hw
    exact absurd (h.lt_nextRef hw.1) (lt_irrefl _)

lemma IdInv.addTimer (h : IdInv s) (i : ℤ) : IdInv (s.addTimer i).2 := by
  obtain ⟨ht, hn, hm, -⟩ := s.getNextTimerId_frame
  obtain ⟨h₁, hfresh⟩ := h.getNextTimerId
  unfold TimerTables.addTimer
  dsimp only
  split
  next hvalid =>
    rw [isValidTimerId_iff] at hvalid
    simp only [Timer.setTimerId_timerId] at hvalid
    obtain ⟨hnone, hnav, hle⟩ := hfresh hvalid
    -- the id is new, so `emplace` inserts it
    have hnmem : s.getNextTimerId.1 ∉ s.getNextTimerId.2.timerMap := by
      rw [hm, Std.ExtTreeMap.mem_iff_isSome_getElem?, hnone]
      simp
    have hget : ∀ id : ℕ, (s.getNextTimerId.2.timerMap.insertIfNew s.getNextTimerId.1
        s.nextRef)[id]? =
          if s.getNextTimerId.1 = id then some s.nextRef else s.timerMap[id]? := by
      intro id
      rw [Std.ExtTreeMap.getElem?_insertIfNew, hm]
      simp only [Std.LawfulEqCmp.compare_eq_iff_eq, ← hm, hnmem, not_false_eq_true, and_true]
    have hold : ∀ (id : ℕ) r, s.timerMap[id]? = some r → r ≠ s.nextRef := by
      intro id r hr
      exact Nat.ne_of_lt (h.known id r hr)
    refine ⟨?_, ?_, ?_, ?_, ?_, h₁.last_lt⟩ <;> simp only [Timer.setTimerId_timerId, ht, hn, hget]
    · intro id r hr
      split_ifs at hr with heq
      · obtain rfl := Option.some.inj hr
        subst heq
        simpa using hvalid
      · rw [Function.update_of_ne (hold id r hr)]
        exact h.mapped id r hr
    · intro r hr
      by_cases hrn : r = s.nextRef
      · subst hrn
        simp
      · rw [Function.update_of_ne hrn] at hr ⊢
        have hown := h.owned r hr
        rw [if_neg, hown]
        intro heq
        rw [← heq, hnone] at hown
        exact absurd hown (by simp)
    · intro id r hr
      split_ifs at hr with heq
      · obtain rfl := Option.some.inj hr
        exact Nat.lt_succ_self _
      · exact Nat.lt_succ_of_lt (h.known id r hr)
    · intro id hid
      obtain ⟨h1, h2, h3⟩ := h₁.available id hid
      refine ⟨h1, h2, ?_⟩
      rw [hm] at h3
      rw [if_neg, h3]
      rintro rfl
      exact hnav hid
    · intro id r hr
      split_ifs at hr with heq
      · exact heq ▸ hle
      · rw [← hm] at hr
        exact h₁.le_last id r hr
  next => exact h₁

/-! ## `start`, `stop` and `release` -/

/-- The timer `r` is armed for `now` plus its interval. -/
def arm (s : TimerTables) (now : ℤ) (r : TimerRef) : TimerTables :=
  { s.setTimer r (((s.timers r).setWorkState true).setNextTimeout now) with
    timerEventsMap := s.timerEventsMap.insertIfNew
      (wrap64 (now + (s.timers r).interval), (s.timers r).timerId) r }

/-- The timer `r` is stopped. -/
def disarm (s : TimerTables) (r : TimerRef) : TimerTables :=
  { s.setTimer r ((s.timers r).setWorkState false) with
    timerEventsMap := s.timerEventsMap.erase (s.timers r).key }

/-- The timer `r` is released. -/
def forget (s : TimerTables) (r : TimerRef) : TimerTables :=
  { s.setTimer r ((s.timers r).setTimerId invalidTimerId) with
    timerEventsMap := s.timerEventsMap.erase (s.timers r).key
    timerMap := s.timerMap.erase (s.timers r).timerId
    availableIdSet := s.availableIdSet.insert (s.timers r).timerId }

lemma arm_timers (s : TimerTables) (now : ℤ) (r : TimerRef) : (s.arm now r).timers =
    (s.setTimer r (((s.timers r).setWorkState true).setNextTimeout now)).timers := rfl

lemma disarm_timers (s : TimerTables) (r : TimerRef) :
    (s.disarm r).timers = (s.setTimer r ((s.timers r).setWorkState false)).timers := rfl

lemma forget_timers (s : TimerTables) (r : TimerRef) :
    (s.forget r).timers = (s.setTimer r ((s.timers r).setTimerId invalidTimerId)).timers := rfl

lemma requeueOne_timers (s : TimerTables) (now : ℤ) (r : TimerRef) :
    (s.requeueOne now r).timers = (s.setTimer r ((s.timers r).setNextTimeout now)).timers := rfl

lemma start_of_invalid (now : ℤ) {r : TimerRef} (hr : (s.timers r).timerId = 0) :
    s.start now r = (false, s) := by
  simp [start, isValidTimerId, invalidTimerId, hr]

lemma IdInv.start_of_working (h : IdInv s) (now : ℤ) {r : TimerRef}
    (hw : (s.timers r).working = true) : s.start now r = (true, s) := by
  have hr := (Timer.working_iff.mp hw).1
  rw [start, if_pos (isValidTimerId_iff.mpr hr), startTimer, h.owned r hr]
  simp [hw]

lemma IdInv.start_of_not_working (h : IdInv s) (now : ℤ) {r : TimerRef}
    (hr : (s.timers r).timerId ≠ 0) (hw : (s.timers r).working = false) :
    s.start now r = (true, s.arm now r) := by
  rw [start, if_pos (isValidTimerId_iff.mpr hr), startTimer, h.owned r hr]
  simp [hw, arm, Timer.setNextTimeout, Timer.setWorkState]

lemma stop_of_invalid {r : TimerRef} (hr : (s.timers r).timerId = 0) : s.stop r = s := by
  simp [stop, isValidTimerId, invalidTimerId, hr]

lemma IdInv.stop_of_valid (h : IdInv s) {r : TimerRef} (hr : (s.timers r).timerId ≠ 0) :
    s.stop r = s.disarm r := by
  rw [stop, if_pos (isValidTimerId_iff.mpr hr), stopTimer, h.owned r hr]
  rfl

lemma release_of_invalid {r : TimerRef} (hr : (s.timers r).timerId = 0) : s.release r = s := by
  simp [release, isValidTimerId, invalidTimerId, hr]

lemma IdInv.release_of_valid (h : IdInv s) {r : TimerRef} (hr : (s.timers r).timerId ≠ 0) :
    s.release r = s.forget r := by
  rw [release, if_pos (isValidTimerId_iff.mpr hr), releaseTimer, h.owned r hr]
  rfl

/-- `start` has three outcomes. -/
lemma IdInv.start_cases (h : IdInv s) (now : ℤ) (r : TimerRef) :
    ((s.timers r).timerId = 0 ∧ s.start now r = (false, s)) ∨
      ((s.timers r).working = true ∧ s.start now r = (true, s)) ∨
      ((s.timers r).timerId ≠ 0 ∧ (s.timers r).working = false ∧
        s.start now r = (true, s.arm now r)) := by
  by_cases hr : (s.timers r).timerId = 0
  · exact Or.inl ⟨hr, start_of_invalid now hr⟩
  · cases hw : (s.timers r).working with
    | true => exact Or.inr (Or.inl ⟨rfl, h.start_of_working now hw⟩)
    | false => exact Or.inr (Or.inr ⟨hr, rfl, h.start_of_not_working now hr hw⟩)

lemma IdInv.arm (h : IdInv s) (now : ℤ) (r : TimerRef) : IdInv (s.arm now r) :=
  (h.setTimer (t := ((s.timers r).setWorkState true).setNextTimeout now) rfl).congr
    (fun _ => rfl) rfl rfl rfl rfl

lemma IdInv.disarm (h : IdInv s) (r : TimerRef) : IdInv (s.disarm r) :=
  (h.setTimer (t := (s.timers r).setWorkState false) rfl).congr (fun _ => rfl) rfl rfl rfl rfl

lemma IdInv.forget (h : IdInv s) {r : TimerRef} (hr : (s.timers r).timerId ≠ 0) :
    IdInv (s.forget r) := by
  have hget : ∀ (id : ℕ) r', (s.forget r).timerMap[id]? = some r' →
      (s.timers r).timerId ≠ id ∧ s.timerMap[id]? = some r' := by
    intro id r' hid
    simp only [TimerTables.forget, Std.ExtTreeMap.getElem?_erase,
      Std.LawfulEqCmp.compare_eq_iff_eq] at hid
    split_ifs at hid with heq
    exact ⟨heq, hid⟩
  have htimers : ∀ r', r' ≠ r → (s.forget r).timers r' = s.timers r' :=
    fun r' hne => s.setTimer_timers_ne _ hne
  refine ⟨?_, ?_, ?_, ?_, ?_, h.last_lt⟩
  · intro id r' hid
    obtain ⟨hne, hid⟩ := hget id r' hid
    obtain ⟨hid', hvalid⟩ := h.mapped id r' hid
    rw [htimers r' (by rintro rfl; exact hne hid')]
    exact ⟨hid', hvalid⟩
  · intro r' hr'
    have hne : r' ≠ r := by
      rintro rfl
      exact hr' (by simp [TimerTables.forget, TimerTables.setTimer, Timer.setTimerId,
        invalidTimerId])
    rw [htimers r' hne] at hr' ⊢
    -- another live timer has another id, so its entry in `timerMap` stays
    have hids : (s.timers r).timerId ≠ (s.timers r').timerId :=
      fun heq => hne (h.eq_of_timerId_eq hr heq.symm)
    simp only [TimerTables.forget, Std.ExtTreeMap.getElem?_erase,
      Std.LawfulEqCmp.compare_eq_iff_eq, if_neg hids]
    exact h.owned r' hr'
  · intro id r' hid
    exact h.known id r' (hget id r' hid).2
  · intro id hid
    simp only [TimerTables.forget, Std.ExtTreeSet.mem_insert,
      Std.LawfulEqCmp.compare_eq_iff_eq] at hid
    simp only [TimerTables.forget, Std.ExtTreeMap.getElem?_erase,
      Std.LawfulEqCmp.compare_eq_iff_eq]
    rcases hid with rfl | hid
    · -- the id that is given back belongs to no timer any more
      exact ⟨hr, h.le_last _ _ (h.owned r hr), by simp⟩
    · obtain ⟨h1, h2, h3⟩ := h.available id hid
      exact ⟨h1, h2, by split_ifs <;> simp [h3]⟩
  · intro id r' hid
    exact h.le_last id r' (hget id r' hid).2

lemma IdInv.requeueOne (h : IdInv s) (now : ℤ) (r : TimerRef) : IdInv (s.requeueOne now r) :=
  (h.setTimer (t := (s.timers r).setNextTimeout now) rfl).congr (fun _ => rfl) rfl rfl rfl rfl

lemma IdInv.requeue (h : IdInv s) (now : ℤ) (q : List TimerRef) : IdInv (s.requeue now q) := by
  induction q generalizing s with
  | nil => exact h
  | cons r q ih => exact ih (h.requeueOne now r)

lemma IdInv.apply (h : IdInv s) (now : ℤ) (op : TimerOp) : IdInv (s.apply now op) := by
  cases op with
  | addTimer i => exact h.addTimer i
  | setInterval r i => exact h.setTimer (Timer.setInterval_sameState _ i).timerId
  | setSingle r b => exact h.setTimer (Timer.setSingle_sameState _ b).timerId
  | start r =>
    rcases h.start_cases now r with ⟨-, he⟩ | ⟨-, he⟩ | ⟨-, -, he⟩
    · simpa only [TimerTables.apply, he] using h
    · simpa only [TimerTables.apply, he] using h
    · simpa only [TimerTables.apply, he] using h.arm now r
  | stop r =>
    by_cases hr : (s.timers r).timerId = 0
    · simpa only [TimerTables.apply, stop_of_invalid hr] using h
    · simpa only [TimerTables.apply, h.stop_of_valid hr] using h.disarm r
  | release r =>
    by_cases hr : (s.timers r).timerId = 0
    · simpa only [TimerTables.apply, release_of_invalid hr] using h
    · simpa only [TimerTables.apply, h.release_of_valid hr] using h.forget hr

/-! ## The expired batch -/

lemma fst_le_of_timerKeyCmp_lt {a b : ℤ × ℕ} (h : timerKeyCmp a b = .lt) : a.1 ≤ b.1 := by
  simp only [timerKeyCmp, compareLex, Ordering.then_eq_lt, compareOn, compare_lt_iff_lt,
    compare_eq_iff_eq] at h
  rcases h with h | ⟨h, -⟩
  · exact le_of_lt h
  · exact le_of_eq h

lemma mem_expired {now : ℤ} {e : (ℤ × ℕ) × TimerRef} :
    e ∈ s.expired now ↔ s.timerEventsMap[e.1]? = some e.2 ∧ e.1.1 ≤ now := by
  rw [expired, Lib.mem_takeWhile_toList, decide_eq_true_iff]
  intro a b hab hb
  simp only [decide_eq_true_eq] at hb ⊢
  exact le_trans (fst_le_of_timerKeyCmp_lt hab) hb

lemma dropExpired_getElem? {now : ℤ} {k : ℤ × ℕ} {r : TimerRef} :
    (s.dropExpired now).timerEventsMap[k]? = some r ↔
      s.timerEventsMap[k]? = some r ∧ now < k.1 := by
  rw [dropExpired, Lib.getElem?_foldl_erase_eq_some, and_comm]
  refine and_congr_right fun hr => ?_
  constructor
  · intro h
    by_contra hle
    exact h (k, r) (mem_expired.mpr ⟨hr, not_lt.mp hle⟩) rfl
  · rintro hlt e he rfl
    exact absurd (mem_expired.mp he).2 (not_le.mpr hlt)

end TimerTables

namespace TimerConf

lemma step_idInv {c c' : TimerConf} {a : TimerAction} (hc : c.tables.IdInv)
    (h : c.step a = some c') : c'.tables.IdInv := by
  cases a with
  | tick ms =>
    obtain ⟨rfl, -⟩ := step_tick h
    exact hc
  | call op =>
    obtain ⟨rfl, -, -⟩ := step_call h
    exact hc.apply c.clock op
  | handleTimerEvent =>
    obtain ⟨rfl, -⟩ := step_handleTimerEvent h
    exact hc.congr (fun _ => rfl) rfl rfl rfl rfl
  | emitTimeout =>
    obtain ⟨r, rest, cyc, ps, -, rfl, -⟩ := step_emitTimeout h
    exact hc
  | slotsReturn =>
    obtain ⟨r, rest, cyc, ps, -, ⟨-, rfl⟩ | ⟨-, rfl⟩⟩ := step_slotsReturn h
    · exact hc
    · exact hc.setTimer rfl
  | finish =>
    obtain ⟨cyc, ps, -, rfl⟩ := step_finish h
    exact hc.requeue c.clock cyc

/-- Whatever the slots do, the ids of the live timers stay distinct. -/
theorem Reachable.idInv {c : TimerConf} (h : c.Reachable) : c.tables.IdInv := by
  obtain ⟨clock, as, -, -, hrun⟩ := h
  exact Lib.run_inv (I := fun c => c.tables.IdInv) (fun _ _ _ hc hs => step_idInv hc hs)
    TimerTables.idInv_empty hrun

end TimerConf

end SignalEventLoop.Core
