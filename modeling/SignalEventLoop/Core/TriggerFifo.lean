/-
# Delivery of the events of one object

Events reach an `execing` object by `addTriggerEvent` and `addSyncEvent`, and are run on three
routes: the loop drains the queue by a swap and runs what it has taken; an event of
`addSyncEvent` that the full queue refuses goes to `DefaultObjectHandler::addObjectEvent`,
which runs it at once; and an event of `addTriggerEvent` that is refused is dropped.

Submissions are numbered, and an event is known by the number of its submission.  A
submission is atomic, and the steps of several threads may be interleaved in any way.  An
event that submits further events while it is run appears as steps after the one that starts
it.
-/
import SignalEventLoop.Core.TriggerQueue

namespace SignalEventLoop.Core

/-- What became of a submission. -/
inductive Route where
  /-- The queue has accepted the event. -/
  | queued
  /-- The queue was full, and `addObjectEvent` has run the event. -/
  | direct
  /-- `addTriggerEvent` has returned false. -/
  | refused
deriving DecidableEq

/-- The trigger queue of an object, and what has happened so far. -/
structure EventState where
  /-- The submissions so far, in order. -/
  submissions : List Route
  cache : List ℕ
  /-- What the loop has taken by its last swap and not run yet. -/
  execQueue : List ℕ
  /-- The events that were run, in order. -/
  ran : List ℕ
deriving DecidableEq

/-- The atomic steps. -/
inductive EventAction where
  | addSyncEvent
  | addTriggerEvent
  /-- `TriggerEventQueueForObject::handleEvent` swaps the queue. -/
  | drain
  /-- `execQueue.front()()` -/
  | runFront
deriving DecidableEq

namespace EventState

/-- Nothing was submitted yet. -/
def init : EventState := ⟨[], [], [], []⟩

/-- One atomic step.  The loop swaps the queue again only after it has run all that it has
taken. -/
def step (s : EventState) : EventAction → Option EventState
  | .addSyncEvent =>
    let event := s.submissions.length
    let (ret, cache) := pushTrigger s.cache event
    some (if ret then { s with submissions := s.submissions ++ [.queued], cache := cache }
      else { s with submissions := s.submissions ++ [.direct], ran := s.ran ++ [event] })
  | .addTriggerEvent =>
    let (ret, cache) := pushTrigger s.cache s.submissions.length
    some { s with submissions := s.submissions ++ [if ret then .queued else .refused],
                  cache := cache }
  | .drain =>
    match s.execQueue with
    | [] => some { s with execQueue := s.cache, cache := [] }
    | _ :: _ => none
  | .runFront =>
    match s.execQueue with
    | [] => none
    | event :: rest => some { s with execQueue := rest, ran := s.ran ++ [event] }

/-- The events that were run, and those that are still to be run. -/
def pipeline (s : EventState) : List ℕ := s.ran ++ s.execQueue ++ s.cache

/-- The events that are to be run, in the order of their submission. -/
def accepted (s : EventState) : List ℕ :=
  (List.range s.submissions.length).filter fun n => s.submissions[n]? ≠ some .refused

/-- The event was run by its submitter. -/
def IsDirect (s : EventState) (event : ℕ) : Prop := s.submissions[event]? = some .direct

/-- An accepted event was run or is still to be run, and only once; and no event overtakes an
earlier one unless it was run by its submitter. -/
structure Delivered (s : EventState) : Prop where
  once : s.pipeline.Perm s.accepted
  ordered : s.pipeline.Pairwise fun i j => i < j ∨ s.IsDirect i

/-- `addSyncEvent` does not meet a full queue. -/
def RoomForSync (s : EventState) (a : EventAction) : Prop :=
  a = .addSyncEvent → s.cache.length < triggerCapacity

/-! ## What a step can do -/

variable {s s' : EventState}

lemma step_addSyncEvent (h : s.step .addSyncEvent = some s') :
    (s.cache.length < triggerCapacity ∧
      s' = { s with submissions := s.submissions ++ [.queued],
                    cache := s.cache ++ [s.submissions.length] }) ∨
    (triggerCapacity ≤ s.cache.length ∧
      s' = { s with submissions := s.submissions ++ [.direct],
                    ran := s.ran ++ [s.submissions.length] }) := by
  by_cases hfull : triggerCapacity ≤ s.cache.length
  · exact Or.inr ⟨hfull, by simpa [step, pushTrigger, hfull] using h.symm⟩
  · exact Or.inl ⟨not_le.mp hfull, by simpa [step, pushTrigger, hfull] using h.symm⟩

lemma step_addTriggerEvent (h : s.step .addTriggerEvent = some s') :
    s' = { s with submissions := s.submissions ++ [.queued],
                  cache := s.cache ++ [s.submissions.length] } ∨
    s' = { s with submissions := s.submissions ++ [.refused] } := by
  by_cases hfull : triggerCapacity ≤ s.cache.length
  · exact Or.inr (by simpa [step, pushTrigger, hfull] using h.symm)
  · exact Or.inl (by simpa [step, pushTrigger, hfull] using h.symm)

lemma step_drain (h : s.step .drain = some s') :
    s.execQueue = [] ∧ s' = { s with execQueue := s.cache, cache := [] } := by
  rw [step] at h
  split at h
  · next hempty => exact ⟨hempty, (Option.some.inj h).symm⟩
  · exact absurd h (by simp)

lemma step_runFront (h : s.step .runFront = some s') :
    ∃ event rest, s.execQueue = event :: rest ∧
      s' = { s with execQueue := rest, ran := s.ran ++ [event] } := by
  rw [step] at h
  split at h
  · exact absurd h (by simp)
  · next event rest hq => exact ⟨event, rest, hq, (Option.some.inj h).symm⟩

/-! ## The accepted events -/

/-- One more submission. -/
lemma accepted_concat (s : EventState) (r : Route) (cache execQueue ran : List ℕ) :
    accepted ⟨s.submissions ++ [r], cache, execQueue, ran⟩ =
      s.accepted ++ if r = .refused then [] else [s.submissions.length] := by
  have hold : (List.range s.submissions.length).filter
      (fun n => (s.submissions ++ [r])[n]? ≠ some .refused) = s.accepted := by
    refine List.filter_congr fun n hn => ?_
    rw [List.getElem?_append_left (List.mem_range.mp hn)]
  simp only [accepted, List.length_append, List.length_cons, List.length_nil, zero_add,
    List.range_succ, List.filter_append, hold]
  split_ifs with hr <;> simp [hr]

lemma lt_of_mem_accepted {n : ℕ} (h : n ∈ s.accepted) : n < s.submissions.length :=
  List.mem_range.mp (List.mem_filter.mp h).1

lemma Delivered.lt_of_mem (hs : s.Delivered) {n : ℕ} (h : n ∈ s.pipeline) :
    n < s.submissions.length :=
  lt_of_mem_accepted (hs.once.mem_iff.mp h)

/-- A later submission does not change what became of an earlier one. -/
lemma Delivered.ordered_concat (hs : s.Delivered) (r : Route) (cache execQueue ran : List ℕ) :
    s.pipeline.Pairwise fun i j =>
      i < j ∨ IsDirect ⟨s.submissions ++ [r], cache, execQueue, ran⟩ i := by
  refine hs.ordered.imp_of_mem fun {i j} hi _ hij => ?_
  rcases hij with hij | hij
  · exact Or.inl hij
  · refine Or.inr ?_
    rw [IsDirect, List.getElem?_append_left (hs.lt_of_mem hi)]
    exact hij

/-- A queued event comes last. -/
lemma Delivered.queued (hs : s.Delivered) :
    Delivered { s with submissions := s.submissions ++ [.queued],
                       cache := s.cache ++ [s.submissions.length] } := by
  have hpipe : pipeline { s with submissions := s.submissions ++ [.queued],
                                 cache := s.cache ++ [s.submissions.length] } =
      s.pipeline ++ [s.submissions.length] := by
    simp [pipeline]
  refine ⟨?_, ?_⟩
  · rw [hpipe, accepted_concat]
    exact hs.once.append_right _
  · rw [hpipe, List.pairwise_append]
    refine ⟨hs.ordered_concat .queued _ _ _, List.pairwise_singleton _ _, ?_⟩
    intro i hi j hj
    rw [List.mem_singleton.mp hj]
    exact Or.inl (hs.lt_of_mem hi)

/-- An event that its submitter runs comes before those that are still waiting. -/
lemma Delivered.direct (hs : s.Delivered) :
    Delivered { s with submissions := s.submissions ++ [.direct],
                       ran := s.ran ++ [s.submissions.length] } := by
  have hpipe : pipeline { s with submissions := s.submissions ++ [.direct],
                                 ran := s.ran ++ [s.submissions.length] } =
      s.ran ++ s.submissions.length :: (s.execQueue ++ s.cache) := by
    simp [pipeline]
  have hold : s.pipeline = s.ran ++ (s.execQueue ++ s.cache) := by simp [pipeline]
  refine ⟨?_, ?_⟩
  · rw [hpipe, accepted_concat]
    have hperm := hs.once
    rw [hold] at hperm
    exact (List.perm_middle.trans (hperm.cons _)).trans (List.perm_append_singleton _ _).symm
  · have hord := hs.ordered_concat .direct s.cache s.execQueue (s.ran ++ [s.submissions.length])
    rw [hold, List.pairwise_append] at hord
    rw [hpipe, List.pairwise_append]
    obtain ⟨hran, hrest, hcross⟩ := hord
    refine ⟨hran, List.pairwise_cons.mpr ⟨fun j _ => Or.inr ?_, hrest⟩, ?_⟩
    · simp [IsDirect]
    · intro i hi j hj
      rcases List.mem_cons.mp hj with rfl | hj
      · exact Or.inl (hs.lt_of_mem (by simp [pipeline, hi]))
      · exact hcross i hi j hj

lemma Delivered.refused (hs : s.Delivered) :
    Delivered { s with submissions := s.submissions ++ [.refused] } := by
  refine ⟨?_, hs.ordered_concat .refused _ _ _⟩
  rw [accepted_concat]
  simpa [pipeline] using hs.once

lemma pipeline_drain (h : s.execQueue = []) :
    pipeline { s with execQueue := s.cache, cache := [] } = s.pipeline := by
  simp [pipeline, h]

lemma pipeline_runFront {event : ℕ} {rest : List ℕ} (h : s.execQueue = event :: rest) :
    pipeline { s with execQueue := rest, ran := s.ran ++ [event] } = s.pipeline := by
  simp [pipeline, h]

/-- The loop only moves events along. -/
lemma Delivered.of_pipeline_eq (hs : s.Delivered) {cache execQueue ran : List ℕ}
    (h : pipeline ⟨s.submissions, cache, execQueue, ran⟩ = s.pipeline) :
    Delivered ⟨s.submissions, cache, execQueue, ran⟩ :=
  ⟨by rw [h]; exact hs.once, by rw [h]; exact hs.ordered⟩

lemma step_delivered {a : EventAction} (hs : s.Delivered) (h : s.step a = some s') :
    s'.Delivered := by
  cases a with
  | addSyncEvent =>
    obtain ⟨-, rfl⟩ | ⟨-, rfl⟩ := step_addSyncEvent h
    · exact hs.queued
    · exact hs.direct
  | addTriggerEvent =>
    obtain rfl | rfl := step_addTriggerEvent h
    · exact hs.queued
    · exact hs.refused
  | drain =>
    obtain ⟨hempty, rfl⟩ := step_drain h
    exact hs.of_pipeline_eq (pipeline_drain hempty)
  | runFront =>
    obtain ⟨event, rest, hq, rfl⟩ := step_runFront h
    exact hs.of_pipeline_eq (pipeline_runFront hq)

/-- Without a direct run everything is in the order of its submission. -/
lemma step_inOrder {a : EventAction} (hs : s.pipeline = s.accepted) (hok : s.RoomForSync a)
    (h : s.step a = some s') : s'.pipeline = s'.accepted := by
  have hqueued : pipeline { s with submissions := s.submissions ++ [.queued],
                                   cache := s.cache ++ [s.submissions.length] } =
      accepted { s with submissions := s.submissions ++ [.queued],
                        cache := s.cache ++ [s.submissions.length] } := by
    rw [accepted_concat, ← hs]
    simp [pipeline]
  cases a with
  | addSyncEvent =>
    obtain ⟨-, rfl⟩ | ⟨hfull, -⟩ := step_addSyncEvent h
    · exact hqueued
    · exact absurd (hok rfl) (not_lt.mpr hfull)
  | addTriggerEvent =>
    obtain rfl | rfl := step_addTriggerEvent h
    · exact hqueued
    · rw [accepted_concat, ← hs]
      simp [pipeline]
  | drain =>
    obtain ⟨hempty, rfl⟩ := step_drain h
    exact (pipeline_drain hempty).trans hs
  | runFront =>
    obtain ⟨event, rest, hq, rfl⟩ := step_runFront h
    exact (pipeline_runFront hq).trans hs

/-! ## Runs -/

/-- The loop runs what it has taken. -/
lemma run_execQueue (s : EventState) :
    Lib.run step s (List.replicate s.execQueue.length .runFront) =
      some { s with execQueue := [], ran := s.ran ++ s.execQueue } := by
  obtain ⟨submissions, cache, execQueue, ran⟩ := s
  induction execQueue generalizing ran with
  | nil => simp
  | cons event rest ih =>
    have hstep : step ⟨submissions, cache, event :: rest, ran⟩ .runFront =
        some ⟨submissions, cache, rest, ran ++ [event]⟩ := rfl
    have hrest := ih (ran ++ [event])
    simp only [List.append_assoc, List.singleton_append] at hrest
    exact Lib.run_cons_eq_some.mpr ⟨_, hstep, hrest⟩

/-- Without further submissions the loop runs everything. -/
lemma run_flush (s : EventState) :
    Lib.run step s (List.replicate s.execQueue.length .runFront ++
      .drain :: List.replicate s.cache.length .runFront) =
      some { s with cache := [], execQueue := [], ran := s.pipeline } := by
  refine Lib.run_append_eq_some.mpr ⟨_, run_execQueue s, ?_⟩
  refine Lib.run_cons_eq_some.mpr ⟨⟨s.submissions, [], s.cache, s.ran ++ s.execQueue⟩, rfl, ?_⟩
  exact run_execQueue ⟨s.submissions, [], s.cache, s.ran ++ s.execQueue⟩

lemma isDirect_concat {r : Route} {cache execQueue ran : List ℕ} {n : ℕ}
    (hn : IsDirect ⟨s.submissions ++ [r], cache, execQueue, ran⟩ n) :
    s.IsDirect n ∨ (r = .direct ∧ n = s.submissions.length) := by
  rw [IsDirect, List.getElem?_append] at hn
  split_ifs at hn with hlt
  · exact Or.inl hn
  · obtain ⟨hzero, hr⟩ := List.getElem?_eq_some_iff.mp hn
    rw [List.length_singleton] at hzero
    exact Or.inr ⟨by simpa using hr, by omega⟩

lemma isDirect_of_step {a : EventAction} (h : s.step a = some s') {n : ℕ} (hn : s'.IsDirect n) :
    s.IsDirect n ∨
      (a = .addSyncEvent ∧ s.submissions.length = n ∧ triggerCapacity ≤ s.cache.length) := by
  cases a with
  | addSyncEvent =>
    obtain ⟨-, rfl⟩ | ⟨hfull, rfl⟩ := step_addSyncEvent h
    · rcases isDirect_concat hn with hn | ⟨hr, -⟩
      · exact Or.inl hn
      · exact absurd hr (by simp)
    · rcases isDirect_concat hn with hn | ⟨-, hlen⟩
      · exact Or.inl hn
      · exact Or.inr ⟨rfl, hlen.symm, hfull⟩
  | addTriggerEvent =>
    obtain rfl | rfl := step_addTriggerEvent h
    · rcases isDirect_concat hn with hn | ⟨hr, -⟩
      · exact Or.inl hn
      · exact absurd hr (by simp)
    · rcases isDirect_concat hn with hn | ⟨hr, -⟩
      · exact Or.inl hn
      · exact absurd hr (by simp)
  | drain =>
    obtain ⟨-, rfl⟩ := step_drain h
    exact Or.inl hn
  | runFront =>
    obtain ⟨event, rest, -, rfl⟩ := step_runFront h
    exact Or.inl hn

/-- An event is run by its submitter only when the queue was full. -/
lemma full_of_isDirect {as : List EventAction} (hrun : Lib.run step init as = some s) {n : ℕ}
    (hn : s.IsDirect n) : ∃ bs cs s₁, as = bs ++ .addSyncEvent :: cs ∧
      Lib.run step init bs = some s₁ ∧ s₁.submissions.length = n ∧
      triggerCapacity ≤ s₁.cache.length := by
  induction as using List.reverseRecOn generalizing s with
  | nil =>
    obtain rfl : init = s := by simpa using hrun
    simp [IsDirect, init] at hn
  | append_singleton as a ih =>
    obtain ⟨s₁, hs₁, hstep⟩ := Lib.run_concat_eq_some.mp hrun
    rcases isDirect_of_step hstep hn with hold | ⟨rfl, hlen, hfull⟩
    · obtain ⟨bs, cs, s₂, rfl, hs₂, hlen, hfull⟩ := ih hs₁ hold
      exact ⟨bs, cs ++ [a], s₂, by simp, hs₂, hlen, hfull⟩
    · exact ⟨as, [], s₁, rfl, hs₁, hlen, hfull⟩

lemma init_delivered : init.Delivered :=
  ⟨List.Perm.nil, List.Pairwise.nil⟩

/-- **Delivery of the events of an object.** In every interleaving of submissions and drains,
each event that was accepted, and no other, is run or still to be run exactly once, and
without further submissions the loop runs all of them.  An event is overtaken only by one
that its submitter has run, which happens to an event of `addSyncEvent` that meets a full
queue; without such an event all run in the order of their submission. -/
theorem events_delivered (as : List EventAction) (s : EventState)
    (hrun : Lib.run step init as = some s) :
    s.Delivered ∧
    (∃ bs : List EventAction, (∀ b ∈ bs, b = .drain ∨ b = .runFront) ∧
      Lib.run step s bs = some { s with cache := [], execQueue := [], ran := s.pipeline }) ∧
    (∀ n, s.IsDirect n → ∃ bs cs s₁, as = bs ++ .addSyncEvent :: cs ∧
      Lib.run step init bs = some s₁ ∧ s₁.submissions.length = n ∧
      triggerCapacity ≤ s₁.cache.length) ∧
    (Lib.AllSteps step RoomForSync init as → s.pipeline = s.accepted) := by
  refine ⟨?_, ⟨_, ?_, run_flush s⟩, fun n hn => full_of_isDirect hrun hn, fun hok => ?_⟩
  · exact Lib.run_inv (I := Delivered) (fun _ _ _ hs h => step_delivered hs h) init_delivered hrun
  · intro b hb
    rcases List.mem_append.mp hb with hb | hb
    · exact Or.inr (List.eq_of_mem_replicate hb)
    · rcases List.mem_cons.mp hb with hb | hb
      · exact Or.inl hb
      · exact Or.inr (List.eq_of_mem_replicate hb)
  · exact Lib.run_inv_of_allSteps (I := fun s => s.pipeline = s.accepted)
      (fun _ _ _ hs hok h => step_inOrder hs hok h) rfl hok hrun

instance decidableRoomForSync (s : EventState) (a : EventAction) : Decidable (s.RoomForSync a) :=
  inferInstanceAs (Decidable (_ → _))

/-- The first event is being run when two more are submitted. -/
theorem submitted_while_running : ∃ s : EventState,
    Lib.run step init [.addTriggerEvent, .drain, .runFront, .addSyncEvent, .addTriggerEvent,
      .drain, .runFront] = some s ∧
    s.ran = [0, 1] ∧ s.pipeline = s.accepted ∧ s.accepted = [0, 1, 2] := by
  let as : List EventAction := [.addTriggerEvent, .drain, .runFront, .addSyncEvent,
    .addTriggerEvent, .drain, .runFront]
  have hok : Lib.AllSteps step RoomForSync init as := by decide +kernel
  have hrun : Lib.run step init as = some ⟨[.queued, .queued, .queued], [], [2], [0, 1]⟩ := by
    decide +kernel
  exact ⟨_, hrun, rfl, (events_delivered as _ hrun).2.2.2 hok, by decide⟩

/-- The queue after a number of submissions that it can hold. -/
lemma run_fill (n : ℕ) (hn : n ≤ triggerCapacity) :
    Lib.run step init (List.replicate n .addTriggerEvent) =
      some ⟨List.replicate n .queued, List.range n, [], []⟩ := by
  induction n with
  | zero => rfl
  | succ n ih =>
    have hroom : ¬ triggerCapacity ≤ n := by omega
    rw [List.replicate_succ', Lib.run_concat_eq_some]
    refine ⟨_, ih (by omega), ?_⟩
    simp [step, pushTrigger, hroom, List.range_succ, List.replicate_succ']

/-- With a full queue the next event of `addSyncEvent` is run before the first one. -/
lemma run_overtake (n : ℕ) (hn : triggerCapacity ≤ n + 1) :
    Lib.run step ⟨List.replicate (n + 1) .queued, List.range (n + 1), [], []⟩
      [.addSyncEvent, .drain, .runFront] =
      some ⟨List.replicate (n + 1) .queued ++ [.direct], [], (List.range n).map Nat.succ,
        [n + 1, 0]⟩ := by
  simp [Lib.run, step, pushTrigger, hn, List.range_succ_eq_map]

/-- A full queue and one more event that is submitted by `addSyncEvent`. -/
theorem sync_overtakes_full_queue : ∃ (as : List EventAction) (s : EventState),
    Lib.run step init as = some s ∧ ¬ s.ran.Pairwise (· < ·) := by
  obtain ⟨n, hn⟩ : ∃ n, triggerCapacity = n + 1 := ⟨99999, rfl⟩
  refine ⟨List.replicate (n + 1) .addTriggerEvent ++ [.addSyncEvent, .drain, .runFront], _,
    Lib.run_append_eq_some.mpr ⟨_, run_fill (n + 1) hn.ge, run_overtake n hn.le⟩, ?_⟩
  simp

end EventState

end SignalEventLoop.Core
