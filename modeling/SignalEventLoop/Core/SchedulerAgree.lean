/-
# The two schedulers on the same calls

The same calls of `updateChannel` and `removeChannel` are made on a `SelectTaskScheduler` and
on a running `EpolltTaskScheduler`, and one pass of `handleNetworkEvent` of each is compared.
No channel is destroyed, and no slot changes the registrations during the pass.

What a registry is for is said by `lastSynced`: the channel that asked last for events of the
descriptor, and these events.  The select scheduler keeps exactly that.  The epoll scheduler
keeps the events in the kernel, but in its map it keeps the channel that was registered first.

A pass of epoll takes at most 512 descriptors; the others are left to the next pass.
-/
import SignalEventLoop.Core.Dispatch

namespace SignalEventLoop.Core

/-- A call of a registry. -/
inductive RegistryCall (κ : Type*) where
  | updateChannel (channel : κ) (e : Interest)
  | removeChannel (fd : ℕ)
deriving DecidableEq

namespace RegistryCall

variable {κ : Type*} (fdOf : κ → ℕ)

/-- The call on the select scheduler. -/
def onSelect (r : SelectRegistry κ) : RegistryCall κ → SelectRegistry κ
  | .updateChannel channel e => r.updateChannel channel (fdOf channel) e
  | .removeChannel fd => r.removeChannel fd

/-- The call on the epoll scheduler. -/
def onEpoll (r : EpollRegistry κ) : RegistryCall κ → EpollRegistry κ
  | .updateChannel channel e => r.updateChannel channel (fdOf channel) e
  | .removeChannel fd => r.removeChannel fd

/-- The select scheduler after the calls. -/
def selectAfter (calls : List (RegistryCall κ)) : SelectRegistry κ :=
  calls.foldl (onSelect fdOf) .init

/-- The running epoll scheduler after the calls. -/
def epollAfter (calls : List (RegistryCall κ)) : EpollRegistry κ :=
  calls.foldl (onEpoll fdOf) EpollRegistry.init.preinit

/-- What one call means for who asked last. -/
def noteLast (m : ℕ → Option (κ × Interest)) : RegistryCall κ → ℕ → Option (κ × Interest)
  | .updateChannel channel e =>
    Function.update m (fdOf channel) (if e.isNoneEvent then none else some (channel, e))
  | .removeChannel fd => Function.update m fd none

/-- The channel that synced the descriptor last, with some event, and its events. -/
def lastSynced (calls : List (RegistryCall κ)) : ℕ → Option (κ × Interest) :=
  calls.foldl (noteLast fdOf) fun _ => none

/-- What one call means for who asked first. -/
def noteFirst (m : ℕ → Option κ) : RegistryCall κ → ℕ → Option κ
  | .updateChannel channel e =>
    Function.update m (fdOf channel)
      (if e.isNoneEvent then none else some ((m (fdOf channel)).getD channel))
  | .removeChannel fd => Function.update m fd none

/-- The channel that synced the descriptor first since it was last without a channel. -/
def firstSynced (calls : List (RegistryCall κ)) : ℕ → Option κ :=
  calls.foldl (noteFirst fdOf) fun _ => none

/-! ## The registries after the calls -/

variable {fdOf}

/-- The select scheduler keeps what was asked for last. -/
structure SelectKeeps (r : SelectRegistry κ) (m : ℕ → Option (κ × Interest)) : Prop where
  channelsMap_eq : ∀ fd, r.channelsMap fd = (m fd).map Prod.fst
  mem_readSets : ∀ fd, fd ∈ r.readSets ↔ ∃ p ∈ m fd, p.2.reading = true
  mem_writeSets : ∀ fd, fd ∈ r.writeSets ↔ ∃ p ∈ m fd, p.2.writing = true
  mem_allfdSet : ∀ fd, fd ∈ r.allfdSet ↔ (m fd).isSome = true

lemma SelectKeeps.removeChannel {r : SelectRegistry κ} {m : ℕ → Option (κ × Interest)}
    (h : SelectKeeps r m) (fd : ℕ) :
    SelectKeeps (r.removeChannel fd) (Function.update m fd none) := by
  cases hmap : r.channelsMap fd with
  | none =>
    have hm : m fd = none := by
      have hfd := h.channelsMap_eq fd
      rw [hmap] at hfd
      exact Option.map_eq_none_iff.mp hfd.symm
    have hself : Function.update m fd none = m := by
      rw [← hm, Function.update_eq_self]
    rw [hself]
    simpa [SelectRegistry.removeChannel, hmap] using h
  | some other =>
    have hforget : r.removeChannel fd = r.forget fd := by simp [SelectRegistry.removeChannel, hmap]
    rw [hforget]
    refine ⟨fun fd' => ?_, fun fd' => ?_, fun fd' => ?_, fun fd' => ?_⟩ <;>
      by_cases hne : fd' = fd
    · simp [SelectRegistry.forget, hne]
    · simpa [SelectRegistry.forget, hne] using h.channelsMap_eq fd'
    · simp [SelectRegistry.forget, SelectRegistry.clearFd, hne]
    · simpa [SelectRegistry.forget, SelectRegistry.clearFd, hne] using h.mem_readSets fd'
    · simp [SelectRegistry.forget, SelectRegistry.clearFd, hne]
    · simpa [SelectRegistry.forget, SelectRegistry.clearFd, hne] using h.mem_writeSets fd'
    · simp [SelectRegistry.forget, SelectRegistry.clearFd, hne]
    · simpa [SelectRegistry.forget, SelectRegistry.clearFd, hne] using h.mem_allfdSet fd'

lemma SelectKeeps.updateChannel {r : SelectRegistry κ} {m : ℕ → Option (κ × Interest)}
    (h : SelectKeeps r m) (channel : κ) (fd : ℕ) (e : Interest) :
    SelectKeeps (r.updateChannel channel fd e)
      (Function.update m fd (if e.isNoneEvent then none else some (channel, e))) := by
  have hremove := h.removeChannel fd
  by_cases he : e.isNoneEvent = true
  · simpa [SelectRegistry.updateChannel, he] using hremove
  · refine ⟨fun fd' => ?_, fun fd' => ?_, fun fd' => ?_, fun fd' => ?_⟩
    · rw [SelectRegistry.updateChannel_channelsMap]
      by_cases hne : fd' = fd
      · simp [he, hne]
      · simpa [he, hne] using h.channelsMap_eq fd'
    · have hold := hremove.mem_readSets fd'
      by_cases hne : fd' = fd
      · cases hr : e.reading <;> simp_all [SelectRegistry.updateChannel]
      · cases hr : e.reading <;> simp_all [SelectRegistry.updateChannel]
    · have hold := hremove.mem_writeSets fd'
      by_cases hne : fd' = fd
      · cases hr : e.writing <;> simp_all [SelectRegistry.updateChannel]
      · cases hr : e.writing <;> simp_all [SelectRegistry.updateChannel]
    · have hold := hremove.mem_allfdSet fd'
      by_cases hne : fd' = fd <;> simp_all [SelectRegistry.updateChannel]

lemma selectAfter_keeps (calls : List (RegistryCall κ)) :
    SelectKeeps (selectAfter fdOf calls) (lastSynced fdOf calls) := by
  induction calls using List.reverseRecOn with
  | nil => exact ⟨fun _ => rfl, fun _ => by simp [selectAfter, lastSynced, SelectRegistry.init],
      fun _ => by simp [selectAfter, lastSynced, SelectRegistry.init],
      fun _ => by simp [selectAfter, lastSynced, SelectRegistry.init]⟩
  | append_singleton calls call ih =>
    simp only [selectAfter, lastSynced, List.foldl_append, List.foldl_cons, List.foldl_nil]
    cases call with
    | updateChannel channel e => exact ih.updateChannel channel (fdOf channel) e
    | removeChannel fd => exact ih.removeChannel fd

/-- The epoll scheduler keeps the events that were asked for last in the kernel, and the
channel that came first in its map. -/
structure EpollKeeps (r : EpollRegistry κ) (m : ℕ → Option (κ × Interest)) (f : ℕ → Option κ) :
    Prop where
  interest_eq : r.interest = some fun fd => (m fd).map Prod.snd
  channelsMap_eq : r.channelsMap = f
  isSome_eq : ∀ fd, (f fd).isSome = (m fd).isSome

lemma EpollKeeps.sameFds {r : EpollRegistry κ} {m : ℕ → Option (κ × Interest)} {f : ℕ → Option κ}
    (h : EpollKeeps r m f) : r.SameFds := by
  intro t ht fd
  rw [h.interest_eq, Option.some.injEq] at ht
  rw [← ht, h.channelsMap_eq, h.isSome_eq, Option.isSome_map]

lemma EpollKeeps.call {r : EpollRegistry κ} {m : ℕ → Option (κ × Interest)} {f : ℕ → Option κ}
    (h : EpollKeeps r m f) (call : RegistryCall κ) :
    EpollKeeps (call.onEpoll fdOf r) (noteLast fdOf m call) (noteFirst fdOf f call) := by
  cases call with
  | updateChannel channel e =>
    refine ⟨?_, ?_, fun fd => ?_⟩
    · rw [onEpoll, EpollRegistry.updateChannel_interest h.sameFds h.interest_eq, Option.some.injEq]
      funext fd
      by_cases hne : fd = fdOf channel
      · cases he : e.isNoneEvent <;> simp [noteLast, hne, he]
      · simp [noteLast, hne]
    · rw [onEpoll, EpollRegistry.updateChannel_channelsMap, h.channelsMap_eq]
      rfl
    · by_cases hne : fd = fdOf channel
      · cases he : e.isNoneEvent <;> simp [noteLast, noteFirst, hne, he]
      · simpa [noteLast, noteFirst, hne] using h.isSome_eq fd
  | removeChannel fd =>
    refine ⟨?_, ?_, fun fd' => ?_⟩
    · rw [onEpoll, EpollRegistry.removeChannel_interest h.sameFds h.interest_eq, Option.some.injEq]
      funext fd'
      by_cases hne : fd' = fd <;> simp [noteLast, hne]
    · rw [onEpoll, EpollRegistry.removeChannel_channelsMap, h.channelsMap_eq]
      rfl
    · by_cases hne : fd' = fd
      · simp [noteLast, noteFirst, hne]
      · simpa [noteLast, noteFirst, hne] using h.isSome_eq fd'

lemma epollAfter_keeps (calls : List (RegistryCall κ)) :
    EpollKeeps (epollAfter fdOf calls) (lastSynced fdOf calls) (firstSynced fdOf calls) := by
  induction calls using List.reverseRecOn with
  | nil => exact ⟨rfl, rfl, fun _ => rfl⟩
  | append_singleton calls call ih =>
    simp only [epollAfter, lastSynced, firstSynced, List.foldl_append, List.foldl_cons,
      List.foldl_nil]
    exact ih.call call

end RegistryCall

/-! ## One pass -/

/-- `FD_SETSIZE` -/
def fdSetsize : ℕ := 1024

/-- The length of the array that is passed to `epoll_wait`. -/
def maxEvents : ℕ := 512

/-- The descriptors that are readable or writable, with nothing else to report. -/
def readyFor (readable writable : ℕ → Bool) : Ready := ⟨readable, writable, fun _ => false⟩

/-- The events of a descriptor that is watched for `e`. -/
def readyEvents (ready : Ready) (fd : ℕ) (e : Interest) : IoEvents :=
  ⟨e.reading && ready.readable fd, false, e.writing && ready.writable fd, false, false⟩

/-- The events for which the epoll scheduler watches a descriptor. -/
def EpollRegistry.watched {κ : Type*} (r : EpollRegistry κ) (fd : ℕ) : Option Interest :=
  r.interest.bind fun t => t fd

/-- The watched descriptors that are ready. -/
def EpollRegistry.readyFds {κ : Type*} (r : EpollRegistry κ) (ready : Ready) : Finset ℕ :=
  (Finset.range fdSetsize).filter fun fd =>
    (r.watched fd).any fun e => (readyEvents ready fd e).bitIn || (readyEvents ready fd e).bitOut

/-- What `epoll_wait` returns: different ready descriptors with their events, as many as there
are and the array can hold. -/
structure EpollWaitResult {κ : Type*} (r : EpollRegistry κ) (ready : Ready)
    (batch : List (ℕ × IoEvents)) : Prop where
  nodup : (batch.map Prod.fst).Nodup
  mem_readyFds : ∀ p ∈ batch, p.1 ∈ r.readyFds ready
  events : ∀ p ∈ batch, ∀ e ∈ r.watched p.1, p.2 = readyEvents ready p.1 e
  length_eq : batch.length = min maxEvents (r.readyFds ready).card

/-- One pass over the pairs emits the signal on the channel, for the descriptor. -/
def Emits {κ R : Type*} [DecidableEq κ] (ops : RegistryOps κ R) (fdOf : κ → ℕ) (r : R)
    (pairs : List (ℕ × IoEvents)) (fd : ℕ) (channel : κ) (sig : IoSignal) : Prop :=
  ∃ s, Lib.run (PassState.step ops fdOf) (PassState.init r (fun _ => true) pairs)
      (List.replicate pairs.length .deliver) = some s ∧
    ∃ d ∈ s.delivered, d.fd = fd ∧ d.channel = channel ∧ sig ∈ d.signals

lemma emits_iff {κ R : Type*} [DecidableEq κ] {ops : RegistryOps κ R} {fdOf : κ → ℕ} {r : R}
    {pairs : List (ℕ × IoEvents)} {fd : ℕ} {channel : κ} {sig : IoSignal} :
    Emits ops fdOf r pairs fd channel sig ↔
      ∃ e, (fd, e) ∈ pairs ∧ ops.channelsMap r fd = some channel ∧ sig ∈ handleIoEvent e := by
  have hrun := PassState.run_deliver_all ops fdOf r (fun _ => true) (fun _ => rfl) pairs []
  rw [List.nil_append] at hrun
  unfold Emits PassState.init
  rw [hrun]
  simp only [Option.some.injEq, exists_eq_left', List.mem_flatMap]
  constructor
  · rintro ⟨d, ⟨⟨fd', e⟩, hp, hd⟩, rfl, rfl, hsig⟩
    obtain ⟨hfound, rfl, hsignals, -⟩ := PassState.mem_deliveries.mp hd
    exact ⟨e, hp, hfound, hsignals ▸ hsig⟩
  · rintro ⟨e, hp, hmap, hsig⟩
    refine ⟨⟨fd, channel, handleIoEvent e⟩, ⟨(fd, e), hp, ?_⟩, rfl, rfl, hsig⟩
    exact PassState.mem_deliveries.mpr ⟨hmap, rfl, rfl, List.ne_nil_of_mem hsig⟩

/-- A descriptor that is only readable or writable emits these signals. -/
lemma mem_handleIoEvent {a b : Bool} {sig : IoSignal} :
    sig ∈ handleIoEvent ⟨a, false, b, false, false⟩ ↔
      (sig = .bytesReady ∧ a = true) ∨ (sig = .writeReady ∧ b = true) := by
  cases a <;> cases b <;> simp [handleIoEvent]

namespace RegistryCall

variable {κ : Type*} [DecidableEq κ] {fdOf : κ → ℕ} {calls : List (RegistryCall κ)}
  {readable writable : ℕ → Bool} {batch : List (ℕ × IoEvents)} {fd : ℕ} {channel : κ}
  {sig : IoSignal}

/-- What the pass is for: the signal is due on the channel that synced the descriptor last,
with the matching interest. -/
def Due (fdOf : κ → ℕ) (calls : List (RegistryCall κ)) (readable writable : ℕ → Bool) (fd : ℕ)
    (channel : κ) (sig : IoSignal) : Prop :=
  ∃ e, lastSynced fdOf calls fd = some (channel, e) ∧
    ((sig = .bytesReady ∧ e.reading = true ∧ readable fd = true) ∨
      (sig = .writeReady ∧ e.writing = true ∧ writable fd = true))

/-- One pass of the select scheduler after the calls. -/
def SelectEmits (fdOf : κ → ℕ) (calls : List (RegistryCall κ)) (readable writable : ℕ → Bool) :
    ℕ → κ → IoSignal → Prop :=
  Emits (selectOps κ) fdOf (selectAfter fdOf calls)
    ((selectAfter fdOf calls).selectPairs (readyFor readable writable))

/-- One pass of the epoll scheduler after the calls. -/
def EpollEmits (fdOf : κ → ℕ) (calls : List (RegistryCall κ)) (batch : List (ℕ × IoEvents)) :
    ℕ → κ → IoSignal → Prop :=
  Emits (epollOps κ) fdOf (epollAfter fdOf calls) batch

omit [DecidableEq κ] in
/-- A channel is noted under its own descriptor. -/
lemma fdOf_eq_of_lastSynced {e : Interest} (h : lastSynced fdOf calls fd = some (channel, e)) :
    fdOf channel = fd := by
  induction calls using List.reverseRecOn with
  | nil => simp [lastSynced] at h
  | append_singleton calls call ih =>
    simp only [lastSynced, List.foldl_append, List.foldl_cons, List.foldl_nil] at h
    cases call with
    | updateChannel other e' =>
      by_cases hne : fd = fdOf other
      · simp only [noteLast, hne, Function.update_self] at h
        split_ifs at h
        obtain ⟨rfl, -⟩ := Prod.mk.inj (Option.some.inj h)
        exact hne.symm
      · rw [noteLast, Function.update_of_ne hne] at h
        exact ih h
    | removeChannel fd' =>
      by_cases hne : fd = fd'
      · simp [noteLast, hne] at h
      · rw [noteLast, Function.update_of_ne hne] at h
        exact ih h

omit [DecidableEq κ] in
lemma selectEvents_some {r : SelectRegistry κ} {ready : Ready}
    (h : sig ∈ handleIoEvent (r.selectEvents ready fd)) :
    ((r.selectEvents ready fd).bitIn || (r.selectEvents ready fd).bitOut ||
      (r.selectEvents ready fd).bitHup) = true := by
  by_contra hnone
  simp only [Bool.or_eq_true, not_or, Bool.not_eq_true] at hnone
  have hpri : (r.selectEvents ready fd).bitPri = false := rfl
  have herr : (r.selectEvents ready fd).bitErr = false := rfl
  simp [handleIoEvent, hnone.1.1, hnone.1.2, hnone.2, hpri, herr] at h

omit [DecidableEq κ] in
/-- The bits that select reports are those that were asked for last. -/
lemma mem_selectEvents {e : Interest} (readable writable : ℕ → Bool)
    (h : lastSynced fdOf calls fd = some (channel, e)) :
    sig ∈ handleIoEvent ((selectAfter fdOf calls).selectEvents (readyFor readable writable) fd) ↔
      (sig = .bytesReady ∧ e.reading = true ∧ readable fd = true) ∨
        (sig = .writeReady ∧ e.writing = true ∧ writable fd = true) := by
  have hkeeps : SelectKeeps (selectAfter fdOf calls) (lastSynced fdOf calls) :=
    selectAfter_keeps calls
  have hread : fd ∈ (selectAfter fdOf calls).readSets ↔ e.reading = true := by
    simp [hkeeps.mem_readSets, h]
  have hwrite : fd ∈ (selectAfter fdOf calls).writeSets ↔ e.writing = true := by
    simp [hkeeps.mem_writeSets, h]
  have hevents : (selectAfter fdOf calls).selectEvents (readyFor readable writable) fd =
      ⟨e.reading && readable fd, false, e.writing && writable fd, false, false⟩ := by
    simp [SelectRegistry.selectEvents, readyFor, hread, hwrite]
  rw [hevents, mem_handleIoEvent]
  simp

omit [DecidableEq κ] in
lemma le_maxFd (h : (lastSynced fdOf calls fd).isSome = true) :
    fd ≤ (selectAfter fdOf calls).maxFd := by
  have hmem : fd ∈ (selectAfter fdOf calls).allfdSet :=
    ((selectAfter_keeps calls).mem_allfdSet fd).mpr h
  rw [SelectRegistry.maxFd, dif_pos ⟨fd, hmem⟩]
  exact Finset.le_max' _ _ hmem

/-- The select scheduler emits what is due, on every descriptor but 0. -/
lemma selectEmits_iff_due (hfd : fd ≠ 0) :
    SelectEmits fdOf calls readable writable fd channel sig ↔
      Due fdOf calls readable writable fd channel sig := by
  have hmap : (selectOps κ).channelsMap (selectAfter fdOf calls) fd =
      (lastSynced fdOf calls fd).map Prod.fst := (selectAfter_keeps calls).channelsMap_eq fd
  unfold SelectEmits Due
  rw [emits_iff]
  constructor
  · rintro ⟨ev, hpair, hchannel, hsig⟩
    rw [hmap, Option.map_eq_some_iff] at hchannel
    obtain ⟨⟨channel', e⟩, hlast, rfl⟩ := hchannel
    refine ⟨e, hlast, ?_⟩
    rw [SelectRegistry.selectPairs] at hpair
    split_ifs at hpair
    · obtain ⟨fd', -, hp⟩ := List.mem_map.mp hpair
      obtain ⟨rfl, rfl⟩ := Prod.mk.inj hp
      exact (mem_selectEvents readable writable hlast).mp hsig
    · exact absurd hpair (by simp)
  · rintro ⟨e, hlast, hdue⟩
    have hle : fd ≤ (selectAfter fdOf calls).maxFd := le_maxFd (by simp [hlast])
    have hsig := (mem_selectEvents readable writable hlast).mpr hdue
    refine ⟨_, ?_, by rw [hmap, hlast]; rfl, hsig⟩
    have hpos : (selectAfter fdOf calls).selectPositive (readyFor readable writable) = true := by
      rw [SelectRegistry.selectPositive, List.any_eq_true]
      exact ⟨fd, List.mem_range.mpr (Nat.lt_succ_of_le hle), selectEvents_some hsig⟩
    rw [SelectRegistry.selectPairs, if_pos hpos, List.mem_map]
    exact ⟨fd, List.mem_range'_1.mpr ⟨by omega, by omega⟩, rfl⟩

omit [DecidableEq κ] in
lemma watched_epollAfter (fdOf : κ → ℕ) (calls : List (RegistryCall κ)) (fd : ℕ) :
    (epollAfter fdOf calls).watched fd = (lastSynced fdOf calls fd).map Prod.snd := by
  rw [EpollRegistry.watched, (epollAfter_keeps calls).interest_eq, Option.bind_some]

omit [DecidableEq κ] in
/-- When the array is large enough, all ready descriptors are returned. -/
lemma exists_mem_batch {r : EpollRegistry κ} {ready : Ready}
    (hwait : EpollWaitResult r ready batch) (hcard : (r.readyFds ready).card ≤ maxEvents)
    (hfd : fd ∈ r.readyFds ready) : ∃ ev, (fd, ev) ∈ batch := by
  have hsub : (batch.map Prod.fst).toFinset ⊆ r.readyFds ready := by
    intro fd' hfd'
    obtain ⟨p, hp, rfl⟩ := List.mem_map.mp (List.mem_toFinset.mp hfd')
    exact hwait.mem_readyFds p hp
  have hlen : (r.readyFds ready).card ≤ (batch.map Prod.fst).toFinset.card := by
    rw [List.toFinset_card_of_nodup hwait.nodup, List.length_map, hwait.length_eq]
    exact le_min hcard le_rfl
  rw [← Finset.eq_of_subset_of_card_le hsub hlen] at hfd
  obtain ⟨⟨fd', ev⟩, hp, rfl⟩ := List.mem_map.mp (List.mem_toFinset.mp hfd)
  exact ⟨ev, hp⟩

/-- The epoll scheduler emits what is due, on every descriptor that one channel has synced,
when the array is large enough. -/
lemma epollEmits_iff_due (hfds : ∀ channel, fdOf channel < fdSetsize)
    (hwait : EpollWaitResult (epollAfter fdOf calls) (readyFor readable writable) batch)
    (hcard : ((epollAfter fdOf calls).readyFds (readyFor readable writable)).card ≤ maxEvents)
    (hown : firstSynced fdOf calls fd = (lastSynced fdOf calls fd).map Prod.fst) :
    EpollEmits fdOf calls batch fd channel sig ↔
      Due fdOf calls readable writable fd channel sig := by
  have hmap : (epollOps κ).channelsMap (epollAfter fdOf calls) fd =
      (lastSynced fdOf calls fd).map Prod.fst :=
    (congrFun (epollAfter_keeps calls).channelsMap_eq fd).trans hown
  have hsignals : ∀ e, sig ∈ handleIoEvent (readyEvents (readyFor readable writable) fd e) ↔
      (sig = .bytesReady ∧ e.reading = true ∧ readable fd = true) ∨
        (sig = .writeReady ∧ e.writing = true ∧ writable fd = true) := by
    intro e
    rw [readyEvents, mem_handleIoEvent]
    simp [readyFor]
  unfold EpollEmits Due
  rw [emits_iff]
  constructor
  · rintro ⟨ev, hpair, hchannel, hsig⟩
    rw [hmap, Option.map_eq_some_iff] at hchannel
    obtain ⟨⟨channel', e⟩, hlast, rfl⟩ := hchannel
    have hev : ev = readyEvents (readyFor readable writable) fd e :=
      hwait.events _ hpair e (by rw [watched_epollAfter, hlast]; rfl)
    exact ⟨e, hlast, (hsignals e).mp (hev ▸ hsig)⟩
  · rintro ⟨e, hlast, hdue⟩
    have hready : fd ∈ (epollAfter fdOf calls).readyFds (readyFor readable writable) := by
      rw [EpollRegistry.readyFds, Finset.mem_filter, watched_epollAfter, hlast]
      refine ⟨Finset.mem_range.mpr (fdOf_eq_of_lastSynced hlast ▸ hfds channel), ?_⟩
      rcases hdue with ⟨-, hr, hready⟩ | ⟨-, hw, hready⟩
      · simp [readyEvents, readyFor, hr, hready]
      · simp [readyEvents, readyFor, hw, hready]
    obtain ⟨ev, hpair⟩ := exists_mem_batch hwait hcard hready
    have hev : ev = readyEvents (readyFor readable writable) fd e :=
      hwait.events _ hpair e (by rw [watched_epollAfter, hlast]; rfl)
    exact ⟨ev, hpair, by rw [hmap, hlast]; rfl, hev ▸ (hsignals e).mpr hdue⟩

/-- **The schedulers agree.** After the same calls, with at most 512 watched descriptors
ready, one pass of each scheduler emits the same signals on the same channel for every
descriptor but 0 that was synced by one channel since it was last without one; namely on the
channel that synced it last, with the matching interest. -/
theorem schedulers_agree (fdOf : κ → ℕ) (hfds : ∀ channel, fdOf channel < fdSetsize)
    (calls : List (RegistryCall κ)) (readable writable : ℕ → Bool)
    (batch : List (ℕ × IoEvents))
    (hwait : EpollWaitResult (epollAfter fdOf calls) (readyFor readable writable) batch)
    (hcard : ((epollAfter fdOf calls).readyFds (readyFor readable writable)).card ≤ maxEvents)
    (fd : ℕ) (hfd : fd ≠ 0)
    (hown : firstSynced fdOf calls fd = (lastSynced fdOf calls fd).map Prod.fst)
    (channel : κ) (sig : IoSignal) :
    (SelectEmits fdOf calls readable writable fd channel sig ↔
      EpollEmits fdOf calls batch fd channel sig) ∧
    (SelectEmits fdOf calls readable writable fd channel sig ↔
      Due fdOf calls readable writable fd channel sig) := by
  have hselect : SelectEmits fdOf calls readable writable fd channel sig ↔
      Due fdOf calls readable writable fd channel sig := selectEmits_iff_due hfd
  exact ⟨hselect.trans (epollEmits_iff_due hfds hwait hcard hown).symm, hselect⟩

/-- Channel 3 is synced for reading and then for both, and its descriptor is readable and
writable: both schedulers emit `writeReady` on it. -/
theorem resynced_channel_emits :
    let fdOf : ℕ → ℕ := fun n => n % 8
    let calls : List (RegistryCall ℕ) :=
      [.updateChannel 3 ⟨true, false⟩, .updateChannel 5 ⟨true, false⟩, .removeChannel 5,
        .updateChannel 3 ⟨true, true⟩]
    SelectEmits fdOf calls (fun _ => true) (fun _ => true) 3 3 .writeReady ∧
      EpollEmits fdOf calls [(3, ⟨true, false, true, false, false⟩)] 3 3 .writeReady := by
  intro fdOf calls
  have hfds : ∀ channel, fdOf channel < fdSetsize := by
    intro n
    have hlt : n % 8 < 8 := Nat.mod_lt _ (by decide)
    exact hlt.trans (by decide)
  have hwait : EpollWaitResult (epollAfter fdOf calls) (readyFor (fun _ => true) (fun _ => true))
      [(3, ⟨true, false, true, false, false⟩)] :=
    ⟨by decide, by decide +kernel, by decide +kernel, by decide +kernel⟩
  have hagree := schedulers_agree fdOf hfds calls (fun _ => true) (fun _ => true) _ hwait
    (by decide +kernel) 3 (by decide) (by decide +kernel) 3 .writeReady
  have hdue : Due fdOf calls (fun _ => true) (fun _ => true) 3 3 .writeReady :=
    ⟨⟨true, true⟩, by decide +kernel, Or.inr ⟨rfl, rfl, rfl⟩⟩
  exact ⟨hagree.2.mpr hdue, hagree.1.mp (hagree.2.mpr hdue)⟩

/-- Both schedulers emit on the same channels. -/
def SameEmissions (fdOf : κ → ℕ) (calls : List (RegistryCall κ)) (readable writable : ℕ → Bool)
    (batch : List (ℕ × IoEvents)) : Prop :=
  ∀ channel sig, (∃ fd, SelectEmits fdOf calls readable writable fd channel sig) ↔
    ∃ fd, EpollEmits fdOf calls batch fd channel sig

/-- The channels 1 to `n` are synced for reading, each under its own number. -/
def syncUpTo (n : ℕ) : List (RegistryCall ℕ) :=
  (List.range' 1 n).map fun channel => .updateChannel channel ⟨true, false⟩

lemma synced_syncUpTo (n fd : ℕ) :
    lastSynced id (syncUpTo n) fd =
      (if 1 ≤ fd ∧ fd ≤ n then some (fd, ⟨true, false⟩) else none) ∧
    firstSynced id (syncUpTo n) fd = if 1 ≤ fd ∧ fd ≤ n then some fd else none := by
  induction n with
  | zero =>
    have hno : ¬ (1 ≤ fd ∧ fd ≤ 0) := by omega
    exact ⟨(if_neg hno).symm, (if_neg hno).symm⟩
  | succ n ih =>
    have hcalls : syncUpTo (n + 1) = syncUpTo n ++ [.updateChannel (1 + n) ⟨true, false⟩] := by
      simp [syncUpTo, List.range'_1_concat]
    have hlast : lastSynced id (syncUpTo (n + 1)) =
        Function.update (lastSynced id (syncUpTo n)) (1 + n) (some (1 + n, ⟨true, false⟩)) := by
      rw [hcalls, lastSynced, List.foldl_append]
      rfl
    have hfirst : firstSynced id (syncUpTo (n + 1)) =
        Function.update (firstSynced id (syncUpTo n)) (1 + n)
          (some ((firstSynced id (syncUpTo n) (1 + n)).getD (1 + n))) := by
      rw [hcalls, firstSynced, List.foldl_append]
      rfl
    rw [hlast, hfirst]
    by_cases hfd : fd = 1 + n
    · subst hfd
      have hnew : ¬ (1 ≤ 1 + n ∧ 1 + n ≤ n) := by omega
      have hin : 1 ≤ 1 + n ∧ 1 + n ≤ n + 1 := by omega
      rw [Function.update_self, Function.update_self, ih.2, if_neg hnew, if_pos hin, if_pos hin]
      exact ⟨rfl, rfl⟩
    · have hiff : (1 ≤ fd ∧ fd ≤ n + 1) ↔ (1 ≤ fd ∧ fd ≤ n) := by omega
      rw [Function.update_of_ne hfd, Function.update_of_ne hfd, ih.1, ih.2]
      simp only [hiff]
      exact ⟨trivial, trivial⟩

/-- The loop of select starts with descriptor 1. -/
lemma not_selectEmits_zero : ¬ SelectEmits fdOf calls readable writable 0 channel sig := by
  unfold SelectEmits
  rw [emits_iff]
  rintro ⟨ev, hpair, -, -⟩
  rw [SelectRegistry.selectPairs] at hpair
  split_ifs at hpair
  · obtain ⟨fd, hfd, hp⟩ := List.mem_map.mp hpair
    have hpos := (List.mem_range'_1.mp hfd).1
    have hzero : fd = 0 := (Prod.mk.inj hp).1
    omega
  · exact absurd hpair (by simp)

lemma lastSynced_of_selectEmits (h : SelectEmits fdOf calls readable writable fd channel sig) :
    fd ≠ 0 ∧ ∃ e, lastSynced fdOf calls fd = some (channel, e) := by
  have hfd : fd ≠ 0 := by
    rintro rfl
    exact not_selectEmits_zero h
  obtain ⟨e, hlast, -⟩ := (selectEmits_iff_due hfd).mp h
  exact ⟨hfd, e, hlast⟩

lemma firstSynced_of_epollEmits (h : EpollEmits fdOf calls batch fd channel sig) :
    firstSynced fdOf calls fd = some channel ∧ ∃ ev, (fd, ev) ∈ batch := by
  obtain ⟨ev, hpair, hmap, -⟩ := emits_iff.mp h
  exact ⟨(congrFun (epollAfter_keeps calls).channelsMap_eq fd).symm.trans hmap, ev, hpair⟩

lemma zero_not_same : ∃ (calls : List (RegistryCall ℕ)) (batch : List (ℕ × IoEvents)),
    EpollWaitResult (epollAfter id calls) (readyFor (fun _ => true) (fun _ => false)) batch ∧
    ¬ SameEmissions id calls (fun _ => true) (fun _ => false) batch := by
  refine ⟨[.updateChannel 0 ⟨true, false⟩], [(0, ⟨true, false, false, false, false⟩)],
    ⟨by decide, by decide +kernel, by decide +kernel, by decide +kernel⟩, fun hsame => ?_⟩
  obtain ⟨fd, hselect⟩ := (hsame 0 .bytesReady).mpr ⟨0, emits_iff.mpr
    ⟨_, List.mem_singleton_self _, rfl, by decide⟩⟩
  obtain ⟨hfd, e, hlast⟩ := lastSynced_of_selectEmits hselect
  exact hfd (fdOf_eq_of_lastSynced hlast).symm

lemma shared_not_same : ∃ (fdOf : Bool → ℕ) (calls : List (RegistryCall Bool))
    (batch : List (ℕ × IoEvents)),
    EpollWaitResult (epollAfter fdOf calls) (readyFor (fun _ => true) (fun _ => false)) batch ∧
    ¬ SameEmissions fdOf calls (fun _ => true) (fun _ => false) batch := by
  refine ⟨fun _ => 7, [.updateChannel false ⟨true, false⟩, .updateChannel true ⟨true, false⟩],
    [(7, ⟨true, false, false, false, false⟩)],
    ⟨by decide, by decide +kernel, by decide +kernel, by decide +kernel⟩, fun hsame => ?_⟩
  obtain ⟨fd, hselect⟩ := (hsame false .bytesReady).mpr ⟨7, emits_iff.mpr
    ⟨_, List.mem_singleton_self _, rfl, by decide⟩⟩
  obtain ⟨-, e, hlast⟩ := lastSynced_of_selectEmits hselect
  have hfd := fdOf_eq_of_lastSynced hlast
  subst hfd
  simp [lastSynced, noteLast, Interest.isNoneEvent, Interest.noneEvent] at hlast

lemma readyFds_syncUpTo (n : ℕ) (hn : n < fdSetsize) :
    (epollAfter id (syncUpTo n)).readyFds (readyFor (fun _ => true) (fun _ => false)) =
      Finset.Icc 1 n := by
  ext fd
  rw [EpollRegistry.readyFds, Finset.mem_filter, Finset.mem_range, Finset.mem_Icc,
    watched_epollAfter, (synced_syncUpTo n fd).1]
  split_ifs with hfd
  · simp only [hfd, and_self, iff_true]
    exact ⟨hfd.2.trans_lt hn, rfl⟩
  · simp [hfd]

lemma too_many_not_same : ∃ batch, EpollWaitResult (epollAfter id (syncUpTo 513))
      (readyFor (fun _ => true) (fun _ => false)) batch ∧
    ¬ SameEmissions id (syncUpTo 513) (fun _ => true) (fun _ => false) batch := by
  have hready := readyFds_syncUpTo 513 (by decide)
  refine ⟨(List.range' 1 512).map fun fd => (fd, ⟨true, false, false, false, false⟩),
    ⟨?_, ?_, ?_, ?_⟩, fun hsame => ?_⟩
  · rw [List.map_map]
    exact (List.map_id _).symm ▸ List.nodup_range'
  · intro p hp
    obtain ⟨fd, hfd, rfl⟩ := List.mem_map.mp hp
    have hbound := List.mem_range'_1.mp hfd
    rw [hready, Finset.mem_Icc]
    exact ⟨hbound.1, by omega⟩
  · intro p hp e he
    obtain ⟨fd, hfd, rfl⟩ := List.mem_map.mp hp
    have hbound := List.mem_range'_1.mp hfd
    have hin : 1 ≤ fd ∧ fd ≤ 513 := by omega
    rw [watched_epollAfter, (synced_syncUpTo 513 fd).1, if_pos hin] at he
    obtain rfl : (⟨true, false⟩ : Interest) = e := by simpa using he
    rfl
  · rw [hready, List.length_map, List.length_range', Nat.card_Icc]
    rfl
  · have hlast : lastSynced id (syncUpTo 513) 513 = some (513, ⟨true, false⟩) := by
      rw [(synced_syncUpTo 513 513).1, if_pos (by omega)]
    have hdue : Due id (syncUpTo 513) (fun _ => true) (fun _ => false) 513 513 .bytesReady :=
      ⟨_, hlast, Or.inl ⟨rfl, rfl, rfl⟩⟩
    obtain ⟨fd, hepoll⟩ := (hsame 513 .bytesReady).mp
      ⟨513, (selectEmits_iff_due (by omega)).mpr hdue⟩
    obtain ⟨hfirst, ev, hpair⟩ := firstSynced_of_epollEmits hepoll
    obtain ⟨fd', hfd', hp⟩ := List.mem_map.mp hpair
    have hbound := List.mem_range'_1.mp hfd'
    rw [(synced_syncUpTo 513 fd).2] at hfirst
    split_ifs at hfirst
    have hfd : fd = 513 := Option.some.inj hfirst
    have heq : fd' = fd := (Prod.mk.inj hp).1
    omega

/-- With one ready descriptor more than the array of `epoll_wait` holds, select emits on one
channel more.  Descriptor 0 is left out by select.  And of two channels that sync the same
descriptor one after the other, epoll emits on the first and select on the second. -/
theorem schedulers_disagree :
    (∃ batch, EpollWaitResult (epollAfter id (syncUpTo 513))
        (readyFor (fun _ => true) (fun _ => false)) batch ∧
      ¬ SameEmissions id (syncUpTo 513) (fun _ => true) (fun _ => false) batch) ∧
    (∃ (calls : List (RegistryCall ℕ)) (batch : List (ℕ × IoEvents)),
      EpollWaitResult (epollAfter id calls) (readyFor (fun _ => true) (fun _ => false)) batch ∧
      ¬ SameEmissions id calls (fun _ => true) (fun _ => false) batch) ∧
    (∃ (fdOf : Bool → ℕ) (calls : List (RegistryCall Bool)) (batch : List (ℕ × IoEvents)),
      EpollWaitResult (epollAfter fdOf calls) (readyFor (fun _ => true) (fun _ => false)) batch ∧
      ¬ SameEmissions fdOf calls (fun _ => true) (fun _ => false) batch) :=
  ⟨too_many_not_same, zero_not_same, shared_not_same⟩

end RegistryCall

end SignalEventLoop.Core
