/-
# The timer table between operations

Between operations `timerEventsMap` is meant to hold one entry for every working timer,
under the key `(nextTimeout, timerId)` of that timer, and nothing else (`Coherent`).
`handleTimerEvent` breaks this for the timers it holds: the expired batch is already out
of the map, and the timers of `cycleQueue` are put back only at the end, without looking
at what the slots did to them.  The table is coherent again when `handleTimerEvent`
returns if no slot

* starts a stopped timer that an activation still holds (it would be queued twice, or be
  queued and marked as not working), or
* stops or releases a timer that already stands in `cycleQueue` (it would be queued again
  although it does not work).

`HoldSafe` states this condition, and `timerTable_coherent` that it is enough.
-/
import SignalEventLoop.Core.TimerSpec

namespace SignalEventLoop.Core

/-- `timerEventsMap` and the timers agree. -/
structure TimerTables.Coherent (s : TimerTables) : Prop where
  at_most_one : ∀ (k k' : ℤ × ℕ) (r : TimerRef),
    s.timerEventsMap[k]? = some r → s.timerEventsMap[k']? = some r → k = k'
  keyed : ∀ (k : ℤ × ℕ) (r : TimerRef),
    s.timerEventsMap[k]? = some r → k = ((s.timers r).nextTimeout, (s.timers r).timerId)
  armed_iff_working : ∀ (id : ℕ) (r : TimerRef), s.timerMap[id]? = some r →
    ((∃ k : ℤ × ℕ, s.timerEventsMap[k]? = some r) ↔ (s.timers r).working = true)

/-- The condition on a step: no activation of `handleTimerEvent` that holds the timer can
undo what the operation does. -/
def TimerConf.HoldSafe (c : TimerConf) : TimerAction → Prop
  | .call (.start r) =>
    (c.tables.timers r).timerId ≠ 0 → (c.tables.timers r).working = false →
      ∀ p ∈ c.stack, r ∉ p.timeoutQueue ∧ r ∉ p.cycleQueue
  | .call (.stop r) | .call (.release r) =>
    (c.tables.timers r).timerId ≠ 0 → ∀ p ∈ c.stack, r ∉ p.cycleQueue
  | _ => True

instance (c : TimerConf) : (a : TimerAction) → Decidable (c.HoldSafe a)
  | .call (.start r) =>
    inferInstanceAs (Decidable ((c.tables.timers r).timerId ≠ 0 →
      (c.tables.timers r).working = false →
        ∀ p ∈ c.stack, r ∉ p.timeoutQueue ∧ r ∉ p.cycleQueue))
  | .call (.stop r) | .call (.release r) =>
    inferInstanceAs (Decidable ((c.tables.timers r).timerId ≠ 0 →
      ∀ p ∈ c.stack, r ∉ p.cycleQueue))
  | .call (.addTimer _) | .call (.setInterval _ _) | .call (.setSingle _ _) | .tick _
  | .handleTimerEvent | .emitTimeout | .slotsReturn | .finish => isTrue trivial

namespace TimerTables

variable {s : TimerTables} {H C : List TimerRef} {r : TimerRef}

/-- The tables while some activations hold the timers `H`, those of `C` in their
`cycleQueue`. -/
structure Held (s : TimerTables) (H C : List TimerRef) : Prop where
  ids : s.IdInv
  entry : ∀ (k : ℤ × ℕ) (r : TimerRef), s.timerEventsMap[k]? = some r →
    k = (s.timers r).key ∧ (s.timers r).working = true ∧ r ∉ H
  armed : ∀ r, (s.timers r).working = true → r ∉ H →
    s.timerEventsMap[(s.timers r).key]? = some r
  nodup : H.Nodup
  known : ∀ r ∈ H, r < s.nextRef
  cycling : ∀ r ∈ C, (s.timers r).working = true

lemma Held.mono (h : Held s H C) {H' C' : List TimerRef} (hH : H'.Perm H) (hC : C' ⊆ C) :
    Held s H' C' where
  ids := h.ids
  entry := fun k r hk => by
    obtain ⟨h1, h2, h3⟩ := h.entry k r hk
    exact ⟨h1, h2, fun hmem => h3 (hH.mem_iff.mp hmem)⟩
  armed := fun r hw hr => h.armed r hw (fun hmem => hr (hH.mem_iff.mpr hmem))
  nodup := hH.nodup_iff.mpr h.nodup
  known := fun r hr => h.known r (hH.mem_iff.mp hr)
  cycling := fun r hr => h.cycling r (hC hr)

lemma held_empty : Held empty [] [] where
  ids := idInv_empty
  entry := by simp [empty]
  armed := by simp [empty, Timer.working]
  nodup := List.nodup_nil
  known := by simp
  cycling := by simp

/-- A timer that does not work, or is held, has no entry. -/
lemma Held.no_entry (h : Held s H C) (hr : (s.timers r).working = false ∨ r ∈ H) (k : ℤ × ℕ) :
    s.timerEventsMap[k]? ≠ some r := by
  intro hk
  obtain ⟨-, hw, hH⟩ := h.entry k r hk
  rcases hr with hr | hr
  · rw [hw] at hr
    exact absurd hr (by simp)
  · exact hH hr

/-- A key with the id of a live timer that has no entry is free. -/
lemma Held.key_free (h : Held s H C) (hr : (s.timers r).timerId ≠ 0)
    (hno : ∀ k : ℤ × ℕ, s.timerEventsMap[k]? ≠ some r) (d : ℤ) :
    s.timerEventsMap[(d, (s.timers r).timerId)]? = none := by
  rw [Option.eq_none_iff_forall_ne_some]
  intro r' hr'
  obtain ⟨hk, -, -⟩ := h.entry _ _ hr'
  have hid : (s.timers r').timerId = (s.timers r).timerId := (congrArg Prod.snd hk).symm
  exact hno _ (h.ids.eq_of_timerId_eq hr hid ▸ hr')

/-- A change of a timer that keeps its id, its deadline and its work state. -/
lemma Held.setTimer (h : Held s H C) {t : Timer} (ht : Timer.SameState (s.timers r) t) :
    Held (s.setTimer r t) H C := by
  have hkey : ∀ r', ((s.setTimer r t).timers r').key = (s.timers r').key := by
    intro r'
    rw [setTimer_timers]
    split
    · next he => rw [ht.key, he]
    · rfl
  have hwork : ∀ r', ((s.setTimer r t).timers r').working = (s.timers r').working := by
    intro r'
    rw [setTimer_timers]
    split
    · next he => rw [ht.working, he]
    · rfl
  refine ⟨h.ids.setTimer ht.timerId, ?_, ?_, h.nodup, h.known, ?_⟩
  · intro k r' hk
    rw [hkey, hwork]
    exact h.entry k r' hk
  · intro r' hw hr'
    rw [hkey]
    rw [hwork] at hw
    exact h.armed r' hw hr'
  · intro r' hr'
    rw [hwork]
    exact h.cycling r' hr'

lemma Held.addTimer (h : Held s H C) (i : ℤ) : Held (s.addTimer i).2 H C := by
  obtain ⟨he, hn, ht⟩ := s.addTimer_frame i
  have hnew := h.ids.addTimer_new i
  -- the reference that is handed out belongs to no live timer
  have hdead : (s.timers s.nextRef).working = false := by
    rw [← Bool.not_eq_true, Timer.working_iff]
    intro hw
    exact absurd (h.ids.lt_nextRef hw.1) (lt_irrefl _)
  refine ⟨h.ids.addTimer i, ?_, ?_, h.nodup, fun r hr => lt_of_lt_of_le (h.known r hr) hn, ?_⟩
  · intro k r hk
    rw [he] at hk
    have hr : r ≠ s.nextRef := by
      rintro rfl
      exact h.no_entry (Or.inl hdead) k hk
    rw [ht r hr]
    exact h.entry k r hk
  · intro r hw hr
    by_cases hrn : r = s.nextRef
    · rw [hrn, hnew] at hw
      exact absurd hw (by simp)
    · rw [ht r hrn] at hw ⊢
      rw [he]
      exact h.armed r hw hr
  · intro r hr
    have hw := h.cycling r hr
    rw [ht r (by rintro rfl; rw [hdead] at hw; exact absurd hw (by simp))]
    exact hw

/-- Put a timer that works, but has no entry, into the queue. -/
lemma Held.enqueue (h : Held s (r :: H) C) {t : Timer} (ht : t.timerId = (s.timers r).timerId)
    (hw : t.working = true) :
    Held { s.setTimer r t with timerEventsMap := s.timerEventsMap.insertIfNew t.key r } H C := by
  have hr : (s.timers r).timerId ≠ 0 := ht ▸ (Timer.working_iff.mp hw).1
  have hno := h.no_entry (r := r) (Or.inr List.mem_cons_self)
  obtain ⟨hrH, hnd⟩ := List.nodup_cons.mp h.nodup
  have hfree : s.timerEventsMap[t.key]? = none := by
    have := h.key_free hr hno t.nextTimeout
    rwa [← ht] at this
  -- so the insertion takes place, and changes nothing under the other keys
  have hget := Lib.getElem?_insertIfNew_of_getElem?_eq_none (v := r) hfree
  refine ⟨(h.ids.setTimer ht).congr (fun _ => rfl) rfl rfl rfl rfl, ?_, ?_, hnd,
    fun r' hr' => h.known r' (List.mem_cons_of_mem _ hr'), ?_⟩
  · intro k r' hk
    simp only [hget] at hk
    split_ifs at hk with hkey
    · obtain rfl := Option.some.inj hk
      simp [hkey, hw, hrH]
    · have hne : r' ≠ r := by
        rintro rfl
        exact hno k hk
      obtain ⟨h1, h2, h3⟩ := h.entry k r' hk
      rw [show _ = s.timers r' from s.setTimer_timers_ne t hne]
      exact ⟨h1, h2, fun hmem => h3 (List.mem_cons_of_mem _ hmem)⟩
  · intro r' hw' hr'
    by_cases hne : r' = r
    · subst hne
      rw [show _ = t from s.setTimer_timers_self r' t]
      simp only [hget, if_true]
    · rw [show _ = s.timers r' from s.setTimer_timers_ne t hne] at hw' ⊢
      have harm := h.armed r' hw' (by simp [hne, hr'])
      exact Lib.getElem?_insertIfNew_of_eq_some harm
  · intro r' hr'
    by_cases hne : r' = r
    · subst hne
      simpa using hw
    · rw [show _ = s.timers r' from s.setTimer_timers_ne t hne]
      exact h.cycling r' hr'

/-- A timer that neither works nor is held counts as held as well. -/
lemma Held.hold (h : Held s H C) (hw : (s.timers r).working = false) (hr : r ∉ H)
    (hk : r < s.nextRef) : Held s (r :: H) C where
  ids := h.ids
  entry := fun k r' hk' => by
    obtain ⟨h1, h2, h3⟩ := h.entry k r' hk'
    refine ⟨h1, h2, ?_⟩
    rw [List.mem_cons, not_or]
    refine ⟨?_, h3⟩
    rintro rfl
    rw [hw] at h2
    exact absurd h2 (by simp)
  armed := fun r' hw' hr' => h.armed r' hw' (fun hmem => hr' (List.mem_cons_of_mem _ hmem))
  nodup := List.nodup_cons.mpr ⟨hr, h.nodup⟩
  known := fun r' hr' => by
    rcases List.mem_cons.mp hr' with rfl | hr'
    · exact hk
    · exact h.known r' hr'
  cycling := h.cycling

lemma Held.arm (h : Held s H C) (now : ℤ) (hr : (s.timers r).timerId ≠ 0)
    (hw : (s.timers r).working = false) (hH : r ∉ H) : Held (s.arm now r) H C := by
  have hhold := h.hold hw hH (h.ids.lt_nextRef hr)
  exact hhold.enqueue (t := ((s.timers r).setWorkState true).setNextTimeout now) rfl
    (by simpa [Timer.working_iff, Timer.setWorkState] using hr)

lemma Held.requeueOne (h : Held s (r :: H) C) (now : ℤ) (hw : (s.timers r).working = true) :
    Held (s.requeueOne now r) H C :=
  h.enqueue (t := (s.timers r).setNextTimeout now) rfl hw

/-- A timer stops working and loses its entry. -/
lemma Held.dequeue (h : Held s H C) {t : Timer} {s' : TimerTables} (hids : s'.IdInv)
    (htimers : ∀ r', s'.timers r' = if r' = r then t else s.timers r') (hw : t.working = false)
    (hn : s'.nextRef = s.nextRef)
    (he : s'.timerEventsMap = s.timerEventsMap.erase (s.timers r).key) (hC : r ∉ C) :
    Held s' H C := by
  have hother : ∀ r', r' ≠ r → s'.timers r' = s.timers r' := by
    intro r' hne
    rw [htimers, if_neg hne]
  have hself : s'.timers r = t := by rw [htimers, if_pos rfl]
  refine ⟨hids, ?_, ?_, h.nodup, by rw [hn]; exact h.known, ?_⟩
  · intro k r' hk
    rw [he, Lib.getElem?_erase_eq_some] at hk
    obtain ⟨hne, hk⟩ := hk
    obtain ⟨h1, h2, h3⟩ := h.entry k r' hk
    have hrr : r' ≠ r := by
      rintro rfl
      exact hne h1.symm
    rw [hother r' hrr]
    exact ⟨h1, h2, h3⟩
  · intro r' hw' hr'
    have hrr : r' ≠ r := by
      rintro rfl
      rw [hself, hw] at hw'
      exact absurd hw' (by simp)
    rw [hother r' hrr] at hw' ⊢
    have harm := h.armed r' hw' hr'
    rw [he, Lib.getElem?_erase_eq_some]
    refine ⟨?_, harm⟩
    -- an equal key would mean an equal id, and so the same timer
    intro hkey
    have hid : (s.timers r).timerId = (s.timers r').timerId := congrArg Prod.snd hkey
    exact hrr (h.ids.eq_of_timerId_eq (Timer.working_iff.mp hw').1 hid).symm
  · intro r' hr'
    have hrr : r' ≠ r := by
      rintro rfl
      exact hC hr'
    rw [hother r' hrr]
    exact h.cycling r' hr'

lemma Held.disarm (h : Held s H C) (hC : r ∉ C) : Held (s.disarm r) H C :=
  h.dequeue (h.ids.disarm r) (fun r' => s.setTimer_timers r r' _) (by simp) rfl rfl hC

lemma Held.forget (h : Held s H C) (hr : (s.timers r).timerId ≠ 0) (hC : r ∉ C) :
    Held (s.forget r) H C :=
  h.dequeue (h.ids.forget hr) (fun r' => s.setTimer_timers r r' _) (by simp) rfl rfl hC

/-- A timer is let go without going back into the queue. -/
lemma Held.letGo (h : Held s (r :: H) C) (hC : r ∉ C) :
    Held (s.setTimer r ((s.timers r).setWorkState false)) H C := by
  have hno := h.no_entry (r := r) (Or.inr List.mem_cons_self)
  refine ⟨h.ids.setTimer rfl, ?_, ?_, (List.nodup_cons.mp h.nodup).2,
    fun r' hr' => h.known r' (List.mem_cons_of_mem _ hr'), ?_⟩
  · intro k r' hk
    have hne : r' ≠ r := by
      rintro rfl
      exact hno k hk
    rw [setTimer_timers_ne _ _ hne]
    obtain ⟨h1, h2, h3⟩ := h.entry k r' hk
    exact ⟨h1, h2, fun hmem => h3 (List.mem_cons_of_mem _ hmem)⟩
  · intro r' hw hr'
    by_cases hne : r' = r
    · subst hne
      simp at hw
    · rw [setTimer_timers_ne _ _ hne] at hw ⊢
      exact h.armed r' hw (by simp [hne, hr'])
  · intro r' hr'
    have hne : r' ≠ r := by
      rintro rfl
      exact hC hr'
    rw [setTimer_timers_ne _ _ hne]
    exact h.cycling r' hr'

/-- The expired timers are taken out of the queue and held. -/
lemma Held.dropExpired (h : Held s H C) (now : ℤ) :
    Held (s.dropExpired now) ((s.expired now).map Prod.snd ++ H) C := by
  have hbatch : ∀ r, r ∈ (s.expired now).map Prod.snd ↔
      ∃ k : ℤ × ℕ, s.timerEventsMap[k]? = some r ∧ k.1 ≤ now := by
    intro r
    rw [List.mem_map]
    constructor
    · rintro ⟨e, he, rfl⟩
      exact ⟨e.1, mem_expired.mp he⟩
    · rintro ⟨k, hk, hle⟩
      exact ⟨(k, r), mem_expired.mpr ⟨hk, hle⟩, rfl⟩
  refine ⟨h.ids.congr (fun _ => rfl) rfl rfl rfl rfl, ?_, ?_, ?_, ?_, h.cycling⟩
  · intro k r hk
    rw [dropExpired_getElem?] at hk
    obtain ⟨hk, hlt⟩ := hk
    obtain ⟨h1, h2, h3⟩ := h.entry k r hk
    refine ⟨h1, h2, ?_⟩
    rw [List.mem_append, not_or, hbatch]
    refine ⟨?_, h3⟩
    -- the timer has one entry, which cannot be expired and still there
    rintro ⟨k', hk', hle⟩
    rw [h1.trans (h.entry k' r hk').1.symm] at hlt
    exact absurd hle (not_le.mpr hlt)
  · intro r hw hr
    rw [List.mem_append, not_or, hbatch] at hr
    have harm := h.armed r hw hr.2
    refine dropExpired_getElem?.mpr ⟨harm, ?_⟩
    by_contra hle
    exact hr.1 ⟨_, harm, not_lt.mp hle⟩
  · rw [List.nodup_append]
    refine ⟨?_, h.nodup, ?_⟩
    · -- the entries have distinct keys, and the key of an entry is that of its timer
      have hkeys : (s.expired now).Pairwise fun a b => a.1 ≠ b.1 := by
        have hsub := (List.takeWhile_sublist (l := s.timerEventsMap.toList)
          fun e => decide (e.1.1 ≤ now))
        refine (Std.ExtTreeMap.distinct_keys_toList.sublist hsub).imp ?_
        intro a b hab heq
        exact hab (by rw [heq]; simp)
      rw [List.Nodup, List.pairwise_map]
      refine hkeys.imp_of_mem ?_
      intro a b ha hb hab heq
      have hka := (h.entry a.1 a.2 (mem_expired.mp ha).1).1
      have hkb := (h.entry b.1 b.2 (mem_expired.mp hb).1).1
      rw [heq] at hka
      exact hab (hka.trans hkb.symm)
    · rintro r hr r' hr' rfl
      obtain ⟨k, hk, -⟩ := (hbatch r).mp hr
      exact (h.entry k r hk).2.2 hr'
  · intro r hr
    rcases List.mem_append.mp hr with hr | hr
    · obtain ⟨k, hk, -⟩ := (hbatch r).mp hr
      exact h.ids.lt_nextRef (Timer.working_iff.mp (h.entry k r hk).2.1).1
    · exact h.known r hr

/-- The loop that puts the cyclic timers back. -/
lemma Held.requeue (now : ℤ) (q : List TimerRef) (h : Held s (q ++ H) C)
    (hq : ∀ r ∈ q, (s.timers r).working = true) : Held (s.requeue now q) H C := by
  induction q generalizing s with
  | nil => exact h
  | cons r q ih =>
    have hone := h.requeueOne now (hq r List.mem_cons_self)
    refine ih hone fun r' hr' => ?_
    have hne : r' ≠ r := by
      rintro rfl
      exact (List.nodup_cons.mp h.nodup).1 (List.mem_append_left _ hr')
    rw [requeueOne_timers, setTimer_timers_ne _ _ hne]
    exact hq r' (List.mem_cons_of_mem _ hr')

/-- When nothing is held the table is coherent. -/
lemma Held.coherent (h : Held s [] C) : Coherent s where
  at_most_one := fun k k' r hk hk' => (h.entry k r hk).1.trans (h.entry k' r hk').1.symm
  keyed := fun k r hk => (h.entry k r hk).1
  armed_iff_working := fun _ r _ =>
    ⟨fun ⟨k, hk⟩ => (h.entry k r hk).2.1, fun hw => ⟨_, h.armed r hw (by simp)⟩⟩

end TimerTables

namespace TimerConf

variable {c c' : TimerConf} {a : TimerAction}

/-- The timers that the activations of the stack hold. -/
def held (c : TimerConf) : List TimerRef := c.stack.flatMap Pass.held

/-- The timers that stand in a `cycleQueue`. -/
def cycling (c : TimerConf) : List TimerRef := c.stack.flatMap Pass.cycleQueue

/-- The invariant of the runs whose steps are `HoldSafe`. -/
def TableInv (c : TimerConf) : Prop := c.tables.Held c.held c.cycling

lemma call_tableInv {op : TimerOp} (hc : c.tables.Held c.held c.cycling)
    (hsafe : c.HoldSafe (.call op)) : (c.tables.apply c.clock op).Held c.held c.cycling := by
  have hids := hc.ids
  cases op with
  | addTimer i => exact hc.addTimer i
  | setInterval r i => exact hc.setTimer (Timer.setInterval_sameState _ i)
  | setSingle r b => exact hc.setTimer (Timer.setSingle_sameState _ b)
  | start r =>
    rcases hids.start_cases c.clock r with ⟨-, he⟩ | ⟨-, he⟩ | ⟨hr, hw, he⟩
    · simpa only [TimerTables.apply, he] using hc
    · simpa only [TimerTables.apply, he] using hc
    · have hheld : r ∉ c.held := by
        simp only [held, Pass.held, List.mem_flatMap, List.mem_append, not_exists, not_and,
          not_or]
        exact fun p hp => hsafe hr hw p hp
      simpa only [TimerTables.apply, he] using hc.arm c.clock hr hw hheld
  | stop r =>
    by_cases hr : (c.tables.timers r).timerId = 0
    · simpa only [TimerTables.apply, TimerTables.stop_of_invalid hr] using hc
    · have hcyc : r ∉ c.cycling := by
        simp only [cycling, List.mem_flatMap, not_exists, not_and]
        exact hsafe hr
      simpa only [TimerTables.apply, hids.stop_of_valid hr] using hc.disarm hcyc
  | release r =>
    by_cases hr : (c.tables.timers r).timerId = 0
    · simpa only [TimerTables.apply, TimerTables.release_of_invalid hr] using hc
    · have hcyc : r ∉ c.cycling := by
        simp only [cycling, List.mem_flatMap, not_exists, not_and]
        exact hsafe hr
      simpa only [TimerTables.apply, hids.release_of_valid hr] using hc.forget hr hcyc

/-- One step keeps the invariant. -/
lemma step_tableInv (hc : c.TableInv) (hsafe : c.HoldSafe a) (h : c.step a = some c') :
    c'.TableInv := by
  cases a with
  | tick ms =>
    obtain ⟨rfl, -⟩ := step_tick h
    exact hc
  | call op =>
    obtain ⟨rfl, -, -⟩ := step_call h
    exact call_tableInv hc hsafe
  | handleTimerEvent =>
    obtain ⟨rfl, -⟩ := step_handleTimerEvent h
    have := TimerTables.Held.dropExpired hc c.clock
    simpa [TableInv, held, cycling, Pass.held] using this
  | emitTimeout =>
    obtain ⟨r, rest, cyc, ps, hstack, rfl, -⟩ := step_emitTimeout h
    simpa [TableInv, held, cycling, Pass.held, hstack] using hc
  | slotsReturn =>
    obtain ⟨r, rest, cyc, ps, hstack, hcase⟩ := step_slotsReturn h
    have hH : c.held = r :: (rest ++ cyc ++ ps.flatMap Pass.held) := by
      simp [held, Pass.held, hstack]
    have hC : c.cycling = cyc ++ ps.flatMap Pass.cycleQueue := by simp [cycling, hstack]
    rw [TableInv, hH, hC] at hc
    rcases hcase with ⟨hcyc, rfl⟩ | ⟨-, rfl⟩
    · -- the timer moves from the front of one queue to the end of the other
      have hw : (c.tables.timers r).working = true := by
        rw [TimerTables.cyclic, Bool.and_eq_true] at hcyc
        exact hcyc.2
      have hc' : c.tables.Held (r :: (rest ++ cyc ++ ps.flatMap Pass.held))
          (r :: (cyc ++ ps.flatMap Pass.cycleQueue)) := by
        refine ⟨hc.ids, hc.entry, hc.armed, hc.nodup, hc.known, ?_⟩
        intro r' hr'
        rcases List.mem_cons.mp hr' with rfl | hr'
        · exact hw
        · exact hc.cycling r' hr'
      refine hc'.mono ?_ ?_
      · have : (rest ++ (cyc ++ [r]) ++ ps.flatMap Pass.held).Perm
            (r :: (rest ++ cyc ++ ps.flatMap Pass.held)) := by
          simp only [List.append_assoc, List.singleton_append]
          rw [← List.append_assoc, ← List.append_assoc]
          exact List.perm_middle
        simpa [held, Pass.held] using this
      · intro r' hr'
        simp only [cycling, List.flatMap_cons, List.mem_append, List.mem_cons] at hr' ⊢
        tauto
    · -- a timer that is held once only does not stand in a `cycleQueue` as well
      have hnd := (List.nodup_cons.mp hc.nodup).1
      have hrC : r ∉ cyc ++ ps.flatMap Pass.cycleQueue := by
        intro hmem
        rcases List.mem_append.mp hmem with hmem | hmem
        · exact hnd (by simp [hmem])
        · obtain ⟨p, hp, hpr⟩ := List.mem_flatMap.mp hmem
          exact hnd (List.mem_append_right _
            (List.mem_flatMap.mpr ⟨p, hp, List.mem_append_right _ hpr⟩))
      have := hc.letGo hrC
      simpa [TableInv, held, cycling, Pass.held] using this
  | finish =>
    obtain ⟨cyc, ps, hstack, rfl⟩ := step_finish h
    have hH : c.held = cyc ++ ps.flatMap Pass.held := by simp [held, Pass.held, hstack]
    have hC : c.cycling = cyc ++ ps.flatMap Pass.cycleQueue := by simp [cycling, hstack]
    rw [TableInv, hH, hC] at hc
    have hcyc : ∀ r ∈ cyc, (c.tables.timers r).working = true :=
      fun r hr => hc.cycling r (List.mem_append_left _ hr)
    exact (hc.mono (.refl _) (List.subset_append_right cyc _)).requeue c.clock cyc hcyc

/-- **The timer table is coherent between operations**, in every run in which no slot
starts a stopped timer that `handleTimerEvent` still holds, or stops or releases one that
waits to be queued again. -/
theorem timerTable_coherent (clock : ℤ) (as : List TimerAction) (c : TimerConf)
    (hsafe : Lib.AllSteps step HoldSafe (init clock) as)
    (hrun : Lib.run step (init clock) as = some c) (houtside : c.stack = []) :
    c.tables.Coherent := by
  have hinit : (init clock).TableInv := TimerTables.held_empty
  have hinv : c.TableInv :=
    Lib.run_inv_of_allSteps (I := TableInv) (fun _ _ _ hc hok hs => step_tableInv hc hok hs)
      hinit hsafe hrun
  have hheld : c.held = [] := by simp [held, houtside]
  rw [TableInv, hheld] at hinv
  exact hinv.coherent

/-- A cyclic timer that fires once, stops itself in its slot, and is started again after
`handleTimerEvent` has returned. -/
def stopInSlot : List TimerAction :=
  [.call (.addTimer 5), .call (.start 0), .tick 5, .handleTimerEvent, .emitTimeout,
    .call (.stop 0), .slotsReturn, .finish, .call (.start 0)]

theorem stopInSlot_coherent :
    ∃ c, Lib.run step (init 0) stopInSlot = some c ∧ c.stack = [] ∧ c.tables.Coherent := by
  have hrun : (Lib.run step (init 0) stopInSlot).map (·.stack.length) = some 0 := by
    decide +kernel
  obtain ⟨c, hc, hstack⟩ := Option.map_eq_some_iff.mp hrun
  rw [List.length_eq_zero_iff] at hstack
  exact ⟨c, hc, hstack, timerTable_coherent 0 stopInSlot c (by decide +kernel) hc hstack⟩

/-- A cyclic timer whose slot stops it and starts it again, one millisecond before the slot
returns. -/
def restartInSlot : List TimerAction :=
  [.call (.addTimer 5), .call (.start 0), .tick 5, .handleTimerEvent, .emitTimeout,
    .call (.stop 0), .call (.start 0), .tick 1, .slotsReturn, .finish]

/-- The restarted timer is queued twice: by `start` for 10 and by `handleTimerEvent`
for 11. -/
theorem restartInSlot_incoherent :
    ∃ c, Lib.run step (init 0) restartInSlot = some c ∧ c.stack = [] ∧ ¬ c.tables.Coherent := by
  have hrun : (Lib.run step (init 0) restartInSlot).map (fun c => (c.stack.length,
      c.tables.timerEventsMap[((10 : ℤ), 1)]?, c.tables.timerEventsMap[((11 : ℤ), 1)]?)) =
        some (0, some 0, some 0) := by
    decide +kernel
  obtain ⟨c, hc, hobs⟩ := Option.map_eq_some_iff.mp hrun
  simp only [Prod.mk.injEq, List.length_eq_zero_iff] at hobs
  obtain ⟨hstack, h10, h11⟩ := hobs
  refine ⟨c, hc, hstack, fun hcoh => ?_⟩
  exact absurd (hcoh.at_most_one _ _ 0 h10 h11) (by decide)

end TimerConf

end SignalEventLoop.Core
