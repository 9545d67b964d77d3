/-
# Delivery of the ready descriptors

`handleNetworkEvent` of both schedulers walks over the descriptors that the wait has returned,
looks up the channel of each by its number, and lets it emit its signals.  The slots run at
once; they may stop and destroy channels, and create and sync new ones, also for a number that
was closed a moment ago.

A pass is a run of deliveries and of such effects.  What the two schedulers have in common is
collected in `RegistryOps`, and the results are proved from it.

Since the channel is looked up at the time of the delivery, an event of a descriptor that was
closed during the pass reaches the new channel with the same number.
-/
import SignalEventLoop.Core.EpollSync

namespace SignalEventLoop.Core

/-! ## What the schedulers have in common -/

/-- The tables of a scheduler, as far as `channelsMap` is concerned. -/
structure RegistryOps (κ R : Type*) where
  channelsMap : R → ℕ → Option κ
  updateChannel : R → κ → ℕ → Interest → R
  removeChannel : R → ℕ → R
  checkAndGetChannelByFd : R → (κ → Bool) → ℕ → Option κ × R
  update_of_ne : ∀ r channel fd e fd', fd' ≠ fd →
    channelsMap (updateChannel r channel fd e) fd' = channelsMap r fd'
  update_noneEvent : ∀ r channel fd e, e.isNoneEvent = true →
    channelsMap (updateChannel r channel fd e) fd = none
  remove_eq : ∀ r fd,
    channelsMap (removeChannel r fd) = Function.update (channelsMap r) fd none
  /-- Only a registered channel is found. -/
  get_sound : ∀ r alive fd channel, (checkAndGetChannelByFd r alive fd).1 = some channel →
    channelsMap r fd = some channel
  /-- A live channel is found, and nothing changes. -/
  get_alive : ∀ r alive fd, (∀ channel, channelsMap r fd = some channel → alive channel = true) →
    checkAndGetChannelByFd r alive fd = (channelsMap r fd, r)
  /-- The lookup registers nothing. -/
  get_map : ∀ r alive fd fd' channel,
    channelsMap (checkAndGetChannelByFd r alive fd).2 fd' = some channel →
      channelsMap r fd' = some channel

/-- The epoll scheduler. -/
def epollOps (κ : Type*) : RegistryOps κ (EpollRegistry κ) where
  channelsMap := EpollRegistry.channelsMap
  updateChannel := EpollRegistry.updateChannel
  removeChannel := EpollRegistry.removeChannel
  checkAndGetChannelByFd := EpollRegistry.checkAndGetChannelByFd
  update_of_ne r channel fd e fd' h := by
    rw [EpollRegistry.updateChannel_channelsMap, Function.update_of_ne h]
  update_noneEvent r channel fd e h := by
    rw [EpollRegistry.updateChannel_channelsMap, Function.update_self, if_pos h]
  remove_eq := EpollRegistry.removeChannel_channelsMap
  get_sound r alive fd channel h := by
    unfold EpollRegistry.checkAndGetChannelByFd at h
    split at h
    · exact absurd h (by simp)
    · next other hmap =>
      split_ifs at h
      rw [hmap]
      exact h
  get_alive r alive fd h := by
    unfold EpollRegistry.checkAndGetChannelByFd
    cases hmap : r.channelsMap fd with
    | none => rfl
    | some channel => simp [h channel hmap]
  get_map r alive fd fd' channel h := by
    unfold EpollRegistry.checkAndGetChannelByFd at h
    split at h
    · exact h
    · split_ifs at h
      · exact h
      · rw [EpollRegistry.update_channelsMap] at h
        by_cases hfd : fd' = fd
        · simp [EpollRegistry.erase, hfd] at h
        · simpa [EpollRegistry.erase, hfd] using h

lemma SelectRegistry.removeChannel_channelsMap {κ : Type*} (r : SelectRegistry κ) (fd : ℕ) :
    (r.removeChannel fd).channelsMap = Function.update r.channelsMap fd none := by
  unfold removeChannel
  cases hmap : r.channelsMap fd with
  | none => exact (Function.update_eq_self_iff.mpr hmap.symm).symm
  | some other => rfl

lemma SelectRegistry.updateChannel_channelsMap {κ : Type*} (r : SelectRegistry κ) (channel : κ)
    (fd : ℕ) (e : Interest) :
    (r.updateChannel channel fd e).channelsMap =
      Function.update r.channelsMap fd (if e.isNoneEvent then none else some channel) := by
  by_cases he : e.isNoneEvent = true
  · simp [updateChannel, he, removeChannel_channelsMap]
  · simp [updateChannel, he, removeChannel_channelsMap]

/-- The select scheduler. -/
def selectOps (κ : Type*) : RegistryOps κ (SelectRegistry κ) where
  channelsMap := SelectRegistry.channelsMap
  updateChannel := SelectRegistry.updateChannel
  removeChannel := SelectRegistry.removeChannel
  checkAndGetChannelByFd := SelectRegistry.checkAndGetChannelByFd
  update_of_ne r channel fd e fd' h := by
    rw [SelectRegistry.updateChannel_channelsMap, Function.update_of_ne h]
  update_noneEvent r channel fd e h := by
    rw [SelectRegistry.updateChannel_channelsMap, Function.update_self, if_pos h]
  remove_eq := SelectRegistry.removeChannel_channelsMap
  get_sound r alive fd channel h := by
    unfold SelectRegistry.checkAndGetChannelByFd at h
    split at h
    · exact absurd h (by simp)
    · next other hmap =>
      split_ifs at h
      rw [hmap]
      exact h
  get_alive r alive fd h := by
    unfold SelectRegistry.checkAndGetChannelByFd
    cases hmap : r.channelsMap fd with
    | none => rfl
    | some channel => simp [h channel hmap]
  get_map r alive fd fd' channel h := by
    unfold SelectRegistry.checkAndGetChannelByFd at h
    split at h
    · exact h
    · split_ifs at h
      · exact h
      · by_cases hfd : fd' = fd
        · simp [SelectRegistry.clearFd, hfd] at h
        · simpa [SelectRegistry.clearFd, hfd] using h

/-- The state of the descriptors, as a wait finds it. -/
structure Ready where
  readable : ℕ → Bool
  writable : ℕ → Bool
  exceptional : ℕ → Bool

namespace SelectRegistry

variable {κ : Type*}

/-- The largest registered descriptor, or 1. -/
def maxFd (r : SelectRegistry κ) : ℕ :=
  if h : r.allfdSet.Nonempty then r.allfdSet.max' h else 1

/-- The events of a descriptor after `select` has written its three sets. -/
def selectEvents (r : SelectRegistry κ) (ready : Ready) (fd : ℕ) : IoEvents where
  bitIn := fd ∈ r.readSets && ready.readable fd
  bitPri := false
  bitOut := fd ∈ r.writeSets && ready.writable fd
  bitErr := false
  bitHup := fd ∈ r.exceptionSets && ready.exceptional fd

/-- `select` has found something. -/
def selectPositive (r : SelectRegistry κ) (ready : Ready) : Bool :=
  (List.range (r.maxFd + 1)).any fun fd =>
    (r.selectEvents ready fd).bitIn || (r.selectEvents ready fd).bitOut ||
      (r.selectEvents ready fd).bitHup

/-- The descriptors that `SelectTaskScheduler::handleNetworkEvent` walks over. -/
def selectPairs (r : SelectRegistry κ) (ready : Ready) : List (ℕ × IoEvents) :=
  if r.selectPositive ready then
    (List.range' 1 r.maxFd).map fun fd => (fd, r.selectEvents ready fd)
  else []

end SelectRegistry

/-! ## A pass -/

/-- A signal that reached a channel. -/
structure Delivery (κ : Type*) where
  fd : ℕ
  channel : κ
  signals : List IoSignal
deriving DecidableEq

/-- A pass of `handleNetworkEvent`, between two of its steps. -/
structure PassState (κ R : Type*) where
  registry : R
  alive : κ → Bool
  /-- The descriptors that the loop has not come to, with their events. -/
  pending : List (ℕ × IoEvents)
  /-- The signals that were emitted so far. -/
  delivered : List (Delivery κ)

/-- What happens during a pass: the next descriptor is delivered, or a slot acts on a
channel. -/
inductive PassAction (κ : Type*) where
  | deliver
  | sync (channel : κ) (e : Interest)
  | stop (channel : κ)
  /-- The last pointer to the channel is released. -/
  | destroy (channel : κ)
deriving DecidableEq

namespace PassState

variable {κ R : Type*} [DecidableEq κ]

/-- The state when the wait has returned. -/
def init (registry : R) (alive : κ → Bool) (pairs : List (ℕ × IoEvents)) : PassState κ R :=
  ⟨registry, alive, pairs, []⟩

/-- What a descriptor with these events emits on its channel. -/
def deliveries (fd : ℕ) (e : IoEvents) (found : Option κ) : List (Delivery κ) :=
  match found with
  | none => []
  | some channel => if handleIoEvent e = [] then [] else [⟨fd, channel, handleIoEvent e⟩]

/-- One step of a pass. -/
def step (ops : RegistryOps κ R) (fdOf : κ → ℕ) (s : PassState κ R) :
    PassAction κ → Option (PassState κ R)
  | .deliver =>
    match s.pending with
    | [] => none
    | (fd, e) :: pending =>
      let (found, registry) := ops.checkAndGetChannelByFd s.registry s.alive fd
      some { s with registry := registry, pending := pending,
                    delivered := s.delivered ++ deliveries fd e found }
  | .sync channel e =>
    if s.alive channel then
      some { s with registry := ops.updateChannel s.registry channel (fdOf channel) e }
    else none
  | .stop channel =>
    if s.alive channel then
      some { s with registry := ops.removeChannel s.registry (fdOf channel) }
    else none
  | .destroy channel =>
    if s.alive channel then
      some { s with registry := ops.removeChannel s.registry (fdOf channel),
                    alive := Function.update s.alive channel false }
    else none

/-- Every signal went to the channel that was registered when the wait returned. -/
def NoStale (waited : ℕ → Option κ) (s : PassState κ R) : Prop :=
  ∀ d ∈ s.delivered, waited d.fd = some d.channel

/-- The descriptors of the batch that are still to be delivered: those that the loop has not come
to and for which the wait has returned an event. -/
def due (s : PassState κ R) : List ℕ :=
  (s.pending.filter fun p => handleIoEvent p.2 ≠ []).map Prod.fst

/-- The condition on an effect: a `sync` on a descriptor that is still to be delivered leaves
the channel registered that was registered when the wait returned. -/
def KeepsPending (ops : RegistryOps κ R) (fdOf : κ → ℕ) (waited : ℕ → Option κ)
    (s : PassState κ R) : PassAction κ → Prop
  | .sync channel e => e.isNoneEvent = false → fdOf channel ∈ s.due →
      ops.channelsMap (ops.updateChannel s.registry channel (fdOf channel) e) (fdOf channel) =
        waited (fdOf channel)
  | _ => True

/-- A descriptor that is still to be delivered has the channel of the wait, or none. -/
def PendingKept (ops : RegistryOps κ R) (waited : ℕ → Option κ) (s : PassState κ R) : Prop :=
  ∀ fd ∈ s.due, ∀ channel,
    ops.channelsMap s.registry fd = some channel → waited fd = some channel

variable {ops : RegistryOps κ R} {fdOf : κ → ℕ} {waited : ℕ → Option κ} {s s' : PassState κ R}

omit [DecidableEq κ] in
lemma mem_due {fd : ℕ} : fd ∈ s.due ↔ ∃ e, (fd, e) ∈ s.pending ∧ handleIoEvent e ≠ [] := by
  simp [due]

omit [DecidableEq κ] in
lemma mem_deliveries {fd : ℕ} {e : IoEvents} {found : Option κ} {d : Delivery κ} :
    d ∈ deliveries fd e found ↔ found = some d.channel ∧ d.fd = fd ∧
      d.signals = handleIoEvent e ∧ handleIoEvent e ≠ [] := by
  obtain ⟨fd', channel', signals⟩ := d
  cases found with
  | none => simp [deliveries]
  | some channel =>
    by_cases he : handleIoEvent e = []
    · simp [deliveries, he]
    · simp only [deliveries, he, if_false, List.mem_singleton, Delivery.mk.injEq,
        Option.some.injEq, ne_eq, not_false_eq_true, and_true]
      constructor
      · rintro ⟨rfl, rfl, rfl⟩
        exact ⟨rfl, rfl, rfl⟩
      · rintro ⟨rfl, rfl, rfl⟩
        exact ⟨rfl, rfl, rfl⟩

omit [DecidableEq κ] in
lemma PendingKept.remove (hs : s.PendingKept ops waited) (fd : ℕ) (alive : κ → Bool)
    (delivered : List (Delivery κ)) :
    PendingKept ops waited
      ⟨ops.removeChannel s.registry fd, alive, s.pending, delivered⟩ := by
  intro fd' hfd' channel h
  rw [ops.remove_eq] at h
  by_cases hne : fd' = fd
  · simp [hne] at h
  · rw [Function.update_of_ne hne] at h
    exact hs fd' hfd' channel h

lemma step_pendingKept {a : PassAction κ} (hs : s.PendingKept ops waited)
    (hstale : s.NoStale waited) (hok : s.KeepsPending ops fdOf waited a)
    (h : s.step ops fdOf a = some s') : s'.PendingKept ops waited ∧ s'.NoStale waited := by
  cases a with
  | deliver =>
    rw [step] at h
    split at h
    · exact absurd h (by simp)
    · next fd e pending hpending =>
      obtain rfl := Option.some.inj h
      refine ⟨?_, ?_⟩
      · intro fd' hfd' channel hmap
        obtain ⟨e', hmem, he'⟩ := mem_due.mp hfd'
        refine hs fd' (mem_due.mpr ⟨e', ?_, he'⟩) channel (ops.get_map _ _ _ _ _ hmap)
        rw [hpending]
        exact List.mem_cons_of_mem _ hmem
      · intro d hd
        rcases List.mem_append.mp hd with hd | hd
        · exact hstale d hd
        · obtain ⟨hfound, hdfd, -, he⟩ := mem_deliveries.mp hd
          have hfd : fd ∈ s.due := mem_due.mpr ⟨e, hpending ▸ List.mem_cons_self, he⟩
          rw [hdfd]
          exact hs fd hfd d.channel (ops.get_sound _ _ _ _ hfound)
  | sync channel e =>
    obtain ⟨-, heq⟩ := Option.ite_none_right_eq_some.mp h
    obtain rfl := Option.some.inj heq
    refine ⟨?_, hstale⟩
    intro fd hfd other hmap
    by_cases hne : fd = fdOf channel
    · subst hne
      cases he : e.isNoneEvent with
      | true =>
        rw [ops.update_noneEvent _ _ _ _ he] at hmap
        exact absurd hmap (by simp)
      | false => exact (hok he hfd).symm.trans hmap
    · rw [ops.update_of_ne _ _ _ _ _ hne] at hmap
      exact hs fd hfd other hmap
  | stop channel =>
    obtain ⟨-, heq⟩ := Option.ite_none_right_eq_some.mp h
    obtain rfl := Option.some.inj heq
    exact ⟨hs.remove (fdOf channel) s.alive s.delivered, hstale⟩
  | destroy channel =>
    obtain ⟨-, heq⟩ := Option.ite_none_right_eq_some.mp h
    obtain rfl := Option.some.inj heq
    exact ⟨hs.remove (fdOf channel) _ s.delivered, hstale⟩

/-- A run of deliveries and effects from the state in which the wait has returned. -/
lemma run_noStale {registry : R} {alive : κ → Bool} {pairs : List (ℕ × IoEvents)}
    {as : List (PassAction κ)}
    (hok : Lib.AllSteps (step ops fdOf) (KeepsPending ops fdOf (ops.channelsMap registry))
      (init registry alive pairs) as)
    (hrun : Lib.run (step ops fdOf) (init registry alive pairs) as = some s) :
    s.NoStale (ops.channelsMap registry) := by
  have hinv := Lib.run_inv_of_allSteps
    (I := fun s => s.PendingKept ops (ops.channelsMap registry) ∧
      s.NoStale (ops.channelsMap registry))
    (fun _ _ _ hs hok h => step_pendingKept hs.1 hs.2 hok h)
    ⟨fun _ _ _ h => h, fun d hd => absurd hd (by simp [init])⟩ hok hrun
  exact hinv.2

/-- A pass without effects, when all channels are alive. -/
lemma run_deliver_all (ops : RegistryOps κ R) (fdOf : κ → ℕ) (registry : R)
    (alive : κ → Bool) (halive : ∀ channel, alive channel = true)
    (pairs : List (ℕ × IoEvents)) (delivered : List (Delivery κ)) :
    Lib.run (step ops fdOf) ⟨registry, alive, pairs, delivered⟩
      (List.replicate pairs.length .deliver) =
      some ⟨registry, alive, [], delivered ++ pairs.flatMap fun p =>
        deliveries p.1 p.2 (ops.channelsMap registry p.1)⟩ := by
  induction pairs generalizing delivered with
  | nil => simp
  | cons p pairs ih =>
    obtain ⟨fd, e⟩ := p
    refine Lib.run_cons_eq_some.mpr ⟨⟨registry, alive, pairs,
      delivered ++ deliveries fd e (ops.channelsMap registry fd)⟩, ?_, ?_⟩
    · simp [step, ops.get_alive registry alive fd fun channel _ => halive channel]
    · rw [ih, List.flatMap_cons, List.append_assoc]

/-- **No stale readiness.** In a pass of either scheduler in which no slot registers, for a
descriptor of the batch that is still to be delivered, another channel than that of the wait, every
signal goes to the channel that was registered when the wait returned. -/
theorem no_stale_readiness (fdOf : κ → ℕ) (alive : κ → Bool) (as : List (PassAction κ)) :
    (∀ (r : EpollRegistry κ) (pairs : List (ℕ × IoEvents)) (s : PassState κ (EpollRegistry κ)),
      Lib.AllSteps (step (epollOps κ) fdOf) (KeepsPending (epollOps κ) fdOf r.channelsMap)
        (init r alive pairs) as →
      Lib.run (step (epollOps κ) fdOf) (init r alive pairs) as = some s →
      s.NoStale r.channelsMap) ∧
    (∀ (r : SelectRegistry κ) (ready : Ready) (s : PassState κ (SelectRegistry κ)),
      Lib.AllSteps (step (selectOps κ) fdOf) (KeepsPending (selectOps κ) fdOf r.channelsMap)
        (init r alive (r.selectPairs ready)) as →
      Lib.run (step (selectOps κ) fdOf) (init r alive (r.selectPairs ready)) as = some s →
      s.NoStale r.channelsMap) :=
  ⟨fun _ _ _ hok hrun => run_noStale hok hrun, fun _ _ _ hok hrun => run_noStale hok hrun⟩

instance decidableKeepsPending (ops : RegistryOps κ R) (fdOf : κ → ℕ) (waited : ℕ → Option κ)
    (s : PassState κ R) (a : PassAction κ) : Decidable (s.KeepsPending ops fdOf waited a) :=
  match a with
  | .sync _ _ => inferInstanceAs (Decidable (_ → _ → _))
  | .deliver | .stop _ | .destroy _ => isTrue trivial

/-- Channel 1 watches the descriptor 5, channel 4 the descriptor 6, and the channels 2 and 3 the
descriptor 7. -/
def sampleFd (channel : ℕ) : ℕ := if channel = 1 then 5 else if channel = 4 then 6 else 7

/-- The channels 1 and 2 are registered for reading, by epoll. -/
def epollSample : EpollRegistry ℕ :=
  (EpollRegistry.init.preinit.updateChannel 1 5 ⟨true, false⟩).updateChannel 2 7 ⟨true, false⟩

/-- The channels 1 and 2 are registered for reading, by select. -/
def selectSample : SelectRegistry ℕ :=
  (SelectRegistry.init.updateChannel 1 5 ⟨true, false⟩).updateChannel 2 7 ⟨true, false⟩

/-- Both descriptors are readable. -/
def sampleReady : Ready := ⟨fun _ => true, fun _ => false, fun _ => false⟩

/-- `EVENT_IN` -/
def sampleIn : IoEvents := ⟨true, false, false, false, false⟩

/-- The slot of the first channel accepts a connection on a free descriptor and destroys the
second channel: the second descriptor is delivered to nobody, by either scheduler. -/
theorem destroyed_not_delivered :
    (∃ s : PassState ℕ (EpollRegistry ℕ),
      Lib.run (step (epollOps ℕ) sampleFd)
        (init epollSample (fun _ => true) [(5, sampleIn), (7, sampleIn)])
        [.deliver, .sync 4 ⟨true, false⟩, .destroy 2, .deliver] = some s ∧
      s.delivered.map Delivery.channel = [1] ∧ s.NoStale epollSample.channelsMap) ∧
    (∃ s : PassState ℕ (SelectRegistry ℕ),
      Lib.run (step (selectOps ℕ) sampleFd)
        (init selectSample (fun _ => true) (selectSample.selectPairs sampleReady))
        [.deliver, .deliver, .deliver, .deliver, .deliver, .sync 4 ⟨true, false⟩, .destroy 2,
          .deliver, .deliver] = some s ∧
      s.delivered.map Delivery.channel = [1] ∧ s.NoStale selectSample.channelsMap) := by
  constructor
  · let as : List (PassAction ℕ) := [.deliver, .sync 4 ⟨true, false⟩, .destroy 2, .deliver]
    have hok : Lib.AllSteps (step (epollOps ℕ) sampleFd)
        (KeepsPending (epollOps ℕ) sampleFd epollSample.channelsMap)
        (init epollSample (fun _ => true) [(5, sampleIn), (7, sampleIn)]) as := by decide +kernel
    have hrun : (Lib.run (step (epollOps ℕ) sampleFd)
        (init epollSample (fun _ => true) [(5, sampleIn), (7, sampleIn)]) as).map
          (fun s => s.delivered.map Delivery.channel) = some [1] := by decide +kernel
    obtain ⟨s, hs, hobs⟩ := Option.map_eq_some_iff.mp hrun
    exact ⟨s, hs, hobs, (no_stale_readiness sampleFd _ as).1 _ _ s hok hs⟩
  · let as : List (PassAction ℕ) :=
      [.deliver, .deliver, .deliver, .deliver, .deliver, .sync 4 ⟨true, false⟩, .destroy 2,
        .deliver, .deliver]
    have hok : Lib.AllSteps (step (selectOps ℕ) sampleFd)
        (KeepsPending (selectOps ℕ) sampleFd selectSample.channelsMap)
        (init selectSample (fun _ => true) (selectSample.selectPairs sampleReady)) as := by
      decide +kernel
    have hrun : (Lib.run (step (selectOps ℕ) sampleFd)
        (init selectSample (fun _ => true) (selectSample.selectPairs sampleReady)) as).map
          (fun s => s.delivered.map Delivery.channel) = some [1] := by decide +kernel
    obtain ⟨s, hs, hobs⟩ := Option.map_eq_some_iff.mp hrun
    exact ⟨s, hs, hobs, (no_stale_readiness sampleFd _ as).2 _ _ s hok hs⟩

/-- The slot of the first channel destroys the second, and registers a new channel that got
the same descriptor: the new channel receives the event of the old descriptor, by either
scheduler. -/
theorem reopened_receives_stale_event :
    (∃ s : PassState ℕ (EpollRegistry ℕ),
      Lib.run (step (epollOps ℕ) sampleFd)
        (init epollSample (fun _ => true) [(5, sampleIn), (7, sampleIn)])
        [.deliver, .destroy 2, .sync 3 ⟨true, false⟩, .deliver] = some s ∧
      ¬ s.NoStale epollSample.channelsMap) ∧
    (∃ s : PassState ℕ (SelectRegistry ℕ),
      Lib.run (step (selectOps ℕ) sampleFd)
        (init selectSample (fun _ => true) (selectSample.selectPairs sampleReady))
        [.deliver, .deliver, .deliver, .deliver, .deliver, .destroy 2, .sync 3 ⟨true, false⟩,
          .deliver, .deliver] = some s ∧
      ¬ s.NoStale selectSample.channelsMap) := by
  constructor
  · have hrun : (Lib.run (step (epollOps ℕ) sampleFd)
        (init epollSample (fun _ => true) [(5, sampleIn), (7, sampleIn)])
        [.deliver, .destroy 2, .sync 3 ⟨true, false⟩, .deliver]).map PassState.delivered =
          some [⟨5, 1, [.bytesReady]⟩, ⟨7, 3, [.bytesReady]⟩] := by decide +kernel
    obtain ⟨s, hs, hobs⟩ := Option.map_eq_some_iff.mp hrun
    refine ⟨s, hs, fun hno => ?_⟩
    have hstale := hno ⟨7, 3, [.bytesReady]⟩ (by simp [hobs])
    exact absurd hstale (by decide)
  · have hrun : (Lib.run (step (selectOps ℕ) sampleFd)
        (init selectSample (fun _ => true) (selectSample.selectPairs sampleReady))
        [.deliver, .deliver, .deliver, .deliver, .deliver, .destroy 2, .sync 3 ⟨true, false⟩,
          .deliver, .deliver]).map PassState.delivered =
          some [⟨5, 1, [.bytesReady]⟩, ⟨7, 3, [.bytesReady]⟩] := by decide +kernel
    obtain ⟨s, hs, hobs⟩ := Option.map_eq_some_iff.mp hrun
    refine ⟨s, hs, fun hno => ?_⟩
    have hstale := hno ⟨7, 3, [.bytesReady]⟩ (by simp [hobs])
    exact absurd hstale (by decide)

end PassState

end SignalEventLoop.Core
