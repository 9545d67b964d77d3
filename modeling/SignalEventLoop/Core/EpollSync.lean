/-
# The registry of the epoll scheduler and the kernel

Channels change their events and call `sync` and `stop`, they are destroyed, and the loop of
the scheduler is started and ended, in any order.  While the loop is running the interest set
of its epoll descriptor should hold, for every live channel of `channelsMap`, the events of
its last `sync`.

The choice between `ADD` and `MOD` is taken from `channelsMap` alone, and this table is kept
when the epoll descriptor is replaced.  So the two tables only agree if `channelsMap` is empty
whenever the loop is started: a channel that was synced before is never added to the new
interest set.  And a second channel for a descriptor changes the interest set, while the map
keeps the first one.
-/
import SignalEventLoop.Core.IoChannel

namespace SignalEventLoop.Core

/-- The functions that change the events of a channel. -/
inductive Toggle where
  | enableReading
  | enablWriting
  | disableReading
  | disableWriting
deriving DecidableEq

/-- The events after such a call. -/
def Toggle.apply : Toggle → Interest → Interest
  | .enableReading, e => { e with reading := true }
  | .enablWriting, e => { e with writing := true }
  | .disableReading, e => { e with reading := false }
  | .disableWriting, e => { e with writing := false }

/-- The channels and the registry of an epoll scheduler. -/
structure EpollState (κ : Type*) where
  events : κ → Interest
  alive : κ → Bool
  /-- The events at the last `sync` of each channel. -/
  lastSync : κ → Interest
  registry : EpollRegistry κ

/-- What happens to the scheduler. -/
inductive EpollAction (κ : Type*) where
  | toggle (channel : κ) (t : Toggle)
  | sync (channel : κ)
  | stop (channel : κ)
  /-- `IoChannel::~IoChannel` -/
  | destroy (channel : κ)
  /-- `handleNetworkEvent` looks up the channel of a descriptor. -/
  | lookup (fd : ℕ)
  /-- `exec` enters its loop. -/
  | start
  /-- `exec` leaves its loop. -/
  | finish
deriving DecidableEq

namespace EpollState

variable {κ : Type*} [DecidableEq κ]

/-- A new scheduler; its `wakeupChannel` is set to reading. -/
def init (wakeup : κ) : EpollState κ where
  events := Function.update (fun _ => .noneEvent) wakeup ⟨true, false⟩
  alive _ := true
  lastSync _ := .noneEvent
  registry := .init

/-- The loop is between `preinit` and `resetStatus`. -/
def running (s : EpollState κ) : Bool := s.registry.interest.isSome

/-- `IoChannel::sync` -/
def sync (fdOf : κ → ℕ) (s : EpollState κ) (channel : κ) : EpollState κ :=
  { s with
    lastSync := Function.update s.lastSync channel (s.events channel)
    registry := s.registry.updateChannel channel (fdOf channel) (s.events channel) }

/-- `IoChannel::stop` -/
def stop (fdOf : κ → ℕ) (s : EpollState κ) (channel : κ) : EpollState κ :=
  { s with registry := s.registry.removeChannel (fdOf channel) }

/-- One action.  Only the scheduler itself uses its `wakeupChannel`. -/
def step (fdOf : κ → ℕ) (wakeup : κ) (s : EpollState κ) : EpollAction κ → Option (EpollState κ)
  | .toggle channel t =>
    if s.alive channel ∧ channel ≠ wakeup then
      some { s with events := Function.update s.events channel (t.apply (s.events channel)) }
    else none
  | .sync channel =>
    if s.alive channel ∧ channel ≠ wakeup then some (s.sync fdOf channel) else none
  | .stop channel =>
    if s.alive channel ∧ channel ≠ wakeup then some (s.stop fdOf channel) else none
  | .destroy channel =>
    if s.alive channel ∧ channel ≠ wakeup then
      some { s.stop fdOf channel with alive := Function.update s.alive channel false }
    else none
  | .lookup fd =>
    if s.running then
      some { s with registry := (s.registry.checkAndGetChannelByFd s.alive fd).2 }
    else none
  | .start =>
    if s.running then none
    else some (sync fdOf { s with registry := s.registry.preinit } wakeup)
  | .finish =>
    if s.running then
      let s₁ := s.stop fdOf wakeup
      some { s₁ with registry := s₁.registry.resetStatus }
    else none

/-- While the loop is running, the interest set holds the events of the last `sync` of
exactly the live channels of the map whose last `sync` asked for some event. -/
def Matches (s : EpollState κ) : Prop :=
  ∀ t, s.registry.interest = some t → ∀ fd e, t fd = some e ↔
    ∃ channel, s.registry.channelsMap fd = some channel ∧ s.alive channel = true ∧
      s.lastSync channel = e ∧ e.isNoneEvent = false

/-- The condition on an action: the loop is started with an empty map, and while it is
running no channel asks for events of a descriptor under which another one is registered for
other events. -/
def KeepsMap (fdOf : κ → ℕ) (s : EpollState κ) : EpollAction κ → Prop
  | .start => ∀ fd, s.registry.channelsMap fd = none
  | .sync channel => s.running = true → (s.events channel).isNoneEvent = false →
      ∀ other ∈ s.registry.channelsMap (fdOf channel),
        other = channel ∨ s.lastSync other = s.events channel
  | _ => True

end EpollState

/-! ## The registry -/

namespace EpollRegistry

variable {κ : Type*} {r : EpollRegistry κ} {t : ℕ → Option Interest} {channel : κ} {fd : ℕ}
  {e : Interest}

@[simp] lemma update_channelsMap (r : EpollRegistry κ) (op : EpollOp) (fd : ℕ) (e : Interest) :
    (r.update op fd e).channelsMap = r.channelsMap := by
  unfold update
  split <;> rfl

/-- The map agrees with the interest set on which descriptors there are. -/
def SameFds (r : EpollRegistry κ) : Prop :=
  ∀ t, r.interest = some t → ∀ fd, (t fd).isSome = (r.channelsMap fd).isSome

lemma updateChannel_channelsMap (r : EpollRegistry κ) (channel : κ) (fd : ℕ) (e : Interest) :
    (r.updateChannel channel fd e).channelsMap = Function.update r.channelsMap fd
      (if e.isNoneEvent then none else some ((r.channelsMap fd).getD channel)) := by
  have hself : Function.update r.channelsMap fd (r.channelsMap fd) = r.channelsMap :=
    Function.update_eq_self fd r.channelsMap
  unfold updateChannel
  cases hmap : r.channelsMap fd with
  | none =>
    rw [hmap] at hself
    split_ifs
    · exact hself.symm
    · simp
  | some other =>
    rw [hmap] at hself
    split_ifs
    · simp [erase]
    · simp [hself]

lemma removeChannel_channelsMap (r : EpollRegistry κ) (fd : ℕ) :
    (r.removeChannel fd).channelsMap = Function.update r.channelsMap fd none := by
  unfold removeChannel
  cases hmap : r.channelsMap fd with
  | none => exact (Function.update_eq_self_iff.mpr hmap.symm).symm
  | some other => simp [erase]

/-- In step with the map, `updateChannel` never chooses an operation that fails. -/
lemma updateChannel_interest (hsame : r.SameFds) (ht : r.interest = some t) :
    (r.updateChannel channel fd e).interest =
      some (Function.update t fd (if e.isNoneEvent then none else some e)) := by
  have hfd := hsame t ht fd
  unfold updateChannel
  cases hmap : r.channelsMap fd with
  | none =>
    have htfd : t fd = none := by simpa [hmap] using hfd
    split_ifs
    · rw [ht, ← htfd, Function.update_eq_self]
    · simp [update, epollCtl, ht, htfd]
  | some other =>
    obtain ⟨e', htfd⟩ : ∃ e', t fd = some e' := Option.isSome_iff_exists.mp (by simp [hfd, hmap])
    split_ifs
    · simp [update, epollCtl, ht, htfd, erase]
    · simp [update, epollCtl, ht, htfd]

lemma removeChannel_interest (hsame : r.SameFds) (ht : r.interest = some t) :
    (r.removeChannel fd).interest = some (Function.update t fd none) := by
  have hfd := hsame t ht fd
  unfold removeChannel
  cases hmap : r.channelsMap fd with
  | none =>
    have htfd : t fd = none := by simpa [hmap] using hfd
    rw [ht, ← htfd, Function.update_eq_self]
  | some other =>
    obtain ⟨e', htfd⟩ : ∃ e', t fd = some e' := Option.isSome_iff_exists.mp (by simp [hfd, hmap])
    simp [update, epollCtl, ht, htfd, erase]

/-- Without a valid epoll descriptor no call succeeds. -/
lemma updateChannel_interest_none (h : r.interest = none) :
    (r.updateChannel channel fd e).interest = none := by
  unfold updateChannel
  cases r.channelsMap fd with
  | none => split_ifs <;> simp [update, epollCtl, h]
  | some other => split_ifs <;> simp [update, epollCtl, h, erase]

lemma removeChannel_interest_none (h : r.interest = none) :
    (r.removeChannel fd).interest = none := by
  unfold removeChannel
  cases r.channelsMap fd with
  | none => exact h
  | some other => simp [update, epollCtl, h, erase]

end EpollRegistry

/-! ## The invariant -/

namespace EpollState

variable {κ : Type*} {fdOf : κ → ℕ} {wakeup channel : κ} {s s' : EpollState κ}

/-- Every entry of the map is a live channel under its own descriptor, whose last `sync`
asked for some event; and the interest set mirrors the map. -/
structure Inv (fdOf : κ → ℕ) (wakeup : κ) (s : EpollState κ) : Prop where
  wakeup_alive : s.alive wakeup = true
  entry : ∀ {fd : ℕ} {channel : κ}, s.registry.channelsMap fd = some channel →
    fdOf channel = fd ∧ s.alive channel = true ∧ (s.lastSync channel).isNoneEvent = false
  mirror : ∀ t, s.registry.interest = some t →
    ∀ fd, t fd = (s.registry.channelsMap fd).map s.lastSync

lemma Inv.sameFds (hs : s.Inv fdOf wakeup) : s.registry.SameFds := by
  intro t ht fd
  rw [hs.mirror t ht fd, Option.isSome_map]

lemma Inv.matches (hs : s.Inv fdOf wakeup) : s.Matches := by
  intro t ht fd e
  rw [hs.mirror t ht fd, Option.map_eq_some_iff]
  constructor
  · rintro ⟨channel, hmap, rfl⟩
    obtain ⟨-, halive, hsome⟩ := hs.entry hmap
    exact ⟨channel, hmap, halive, rfl, hsome⟩
  · rintro ⟨channel, hmap, -, he, -⟩
    exact ⟨channel, hmap, he⟩

variable [DecidableEq κ]

/-- An entry after `sync`: the channel itself, or an entry that was there before. -/
lemma sync_entry_cases {fd : ℕ} {other : κ}
    (h : (s.sync fdOf channel).registry.channelsMap fd = some other) :
    (fd = fdOf channel ∧ other = channel ∧ (s.events channel).isNoneEvent = false) ∨
      (s.registry.channelsMap fd = some other ∧
        (fd = fdOf channel → (s.events channel).isNoneEvent = false)) := by
  rw [sync, EpollRegistry.updateChannel_channelsMap] at h
  by_cases hfd : fd = fdOf channel
  · subst hfd
    rw [Function.update_self] at h
    split_ifs at h with hnone
    have hevents : (s.events channel).isNoneEvent = false := by simpa using hnone
    cases hmap : s.registry.channelsMap (fdOf channel) with
    | none =>
      rw [hmap] at h
      exact Or.inl ⟨rfl, (Option.some.inj h).symm, hevents⟩
    | some other' =>
      rw [hmap] at h
      exact Or.inr ⟨h, fun _ => hevents⟩
  · rw [Function.update_of_ne hfd] at h
    exact Or.inr ⟨h, fun heq => absurd heq hfd⟩

/-- `sync` of a live channel. -/
lemma Inv.sync (hs : s.Inv fdOf wakeup) (halive : s.alive channel = true)
    (hown : s.running = true → (s.events channel).isNoneEvent = false →
      ∀ other ∈ s.registry.channelsMap (fdOf channel),
        other = channel ∨ s.lastSync other = s.events channel) :
    (s.sync fdOf channel).Inv fdOf wakeup where
  wakeup_alive := hs.wakeup_alive
  entry := by
    intro fd other h
    rcases sync_entry_cases h with ⟨rfl, rfl, hevents⟩ | ⟨hold, hevents⟩
    · exact ⟨rfl, halive, by simpa [EpollState.sync] using hevents⟩
    · obtain ⟨hfd, hother, hsome⟩ := hs.entry hold
      refine ⟨hfd, hother, ?_⟩
      by_cases hne : other = channel
      · subst hne
        simpa [EpollState.sync] using hevents hfd.symm
      · simpa [EpollState.sync, Function.update_of_ne hne] using hsome
  mirror := by
    intro t ht fd
    cases hint : s.registry.interest with
    | none =>
      rw [EpollState.sync, EpollRegistry.updateChannel_interest_none hint] at ht
      exact absurd ht (by simp)
    | some t₀ =>
      rw [EpollState.sync, EpollRegistry.updateChannel_interest hs.sameFds hint,
        Option.some.injEq] at ht
      subst ht
      rw [EpollState.sync, EpollRegistry.updateChannel_channelsMap]
      by_cases hfd : fd = fdOf channel
      · subst hfd
        simp only [Function.update_self]
        cases hevents : (s.events channel).isNoneEvent with
        | true => simp
        | false =>
          have hget : Function.update s.lastSync channel (s.events channel)
              ((s.registry.channelsMap (fdOf channel)).getD channel) = s.events channel := by
            cases hmap : s.registry.channelsMap (fdOf channel) with
            | none => exact Function.update_self _ _ _
            | some other =>
              by_cases hne : other = channel
              · subst hne
                exact Function.update_self _ _ _
              · have hsame := hown (by simp [running, hint]) hevents other hmap
                exact (Function.update_of_ne hne _ _).trans (hsame.resolve_left hne)
          simp [hget]
      · -- another descriptor has another channel
        rw [Function.update_of_ne hfd, Function.update_of_ne hfd, hs.mirror t₀ hint fd]
        refine Option.map_congr fun other hother => ?_
        have hne : other ≠ channel := by
          rintro rfl
          exact hfd (hs.entry hother).1.symm
        exact (Function.update_of_ne hne _ _).symm

omit [DecidableEq κ] in
/-- `removeChannel` takes the descriptor out of both tables. -/
lemma Inv.stop (hs : s.Inv fdOf wakeup) (channel : κ) :
    (s.stop fdOf channel).Inv fdOf wakeup ∧
      (s.stop fdOf channel).registry.channelsMap (fdOf channel) = none := by
  have hmap : (s.stop fdOf channel).registry.channelsMap =
      Function.update s.registry.channelsMap (fdOf channel) none :=
    EpollRegistry.removeChannel_channelsMap _ _
  refine ⟨⟨hs.wakeup_alive, ?_, ?_⟩, by rw [hmap, Function.update_self]⟩
  · intro fd other h
    rw [hmap] at h
    by_cases hfd : fd = fdOf channel
    · simp [hfd] at h
    · rw [Function.update_of_ne hfd] at h
      exact hs.entry h
  · intro t ht fd
    rw [hmap]
    cases hint : s.registry.interest with
    | none =>
      rw [EpollState.stop, EpollRegistry.removeChannel_interest_none hint] at ht
      exact absurd ht (by simp)
    | some t₀ =>
      rw [EpollState.stop, EpollRegistry.removeChannel_interest hs.sameFds hint,
        Option.some.injEq] at ht
      subst ht
      by_cases hfd : fd = fdOf channel
      · simp [hfd]
      · rw [Function.update_of_ne hfd, Function.update_of_ne hfd, hs.mirror t₀ hint fd]
        rfl

/-- A destroyed channel leaves no entry behind. -/
lemma Inv.destroy (hs : s.Inv fdOf wakeup) (hne : channel ≠ wakeup) :
    Inv fdOf wakeup
      { s.stop fdOf channel with alive := Function.update s.alive channel false } := by
  obtain ⟨hstop, hgone⟩ := hs.stop channel
  refine ⟨by simpa [Function.update_of_ne hne.symm] using hs.wakeup_alive, ?_, hstop.mirror⟩
  intro fd other h
  obtain ⟨hfd, halive, hsome⟩ := hstop.entry h
  have hother : other ≠ channel := by
    rintro rfl
    rw [← hfd] at h
    exact absurd (hgone.symm.trans h) (by simp)
  exact ⟨hfd, (Function.update_of_ne hother _ _).trans halive, hsome⟩

omit [DecidableEq κ] in
/-- The weak pointers of the map have not expired. -/
lemma Inv.lookup_eq (hs : s.Inv fdOf wakeup) (fd : ℕ) :
    (s.registry.checkAndGetChannelByFd s.alive fd).2 = s.registry := by
  unfold EpollRegistry.checkAndGetChannelByFd
  cases hmap : s.registry.channelsMap fd with
  | none => rfl
  | some channel => simp [(hs.entry hmap).2.1]

omit [DecidableEq κ] in
/-- An empty map mirrors a fresh epoll descriptor. -/
lemma Inv.preinit (hs : s.Inv fdOf wakeup) (hempty : ∀ fd, s.registry.channelsMap fd = none) :
    Inv fdOf wakeup { s with registry := s.registry.preinit } where
  wakeup_alive := hs.wakeup_alive
  entry h := absurd h (by simp [EpollRegistry.preinit, hempty])
  mirror := by
    intro t ht fd
    obtain rfl := Option.some.inj ht
    simp [EpollRegistry.preinit, hempty]

lemma step_inv {a : EpollAction κ} (hs : s.Inv fdOf wakeup) (hok : s.KeepsMap fdOf a)
    (h : s.step fdOf wakeup a = some s') : s'.Inv fdOf wakeup := by
  cases a with
  | toggle channel t =>
    obtain ⟨-, heq⟩ := Option.ite_none_right_eq_some.mp h
    obtain rfl := Option.some.inj heq
    exact ⟨hs.wakeup_alive, hs.entry, hs.mirror⟩
  | sync channel =>
    obtain ⟨⟨halive, -⟩, heq⟩ := Option.ite_none_right_eq_some.mp h
    obtain rfl := Option.some.inj heq
    exact hs.sync halive hok
  | stop channel =>
    obtain ⟨-, heq⟩ := Option.ite_none_right_eq_some.mp h
    obtain rfl := Option.some.inj heq
    exact (hs.stop channel).1
  | destroy channel =>
    obtain ⟨⟨-, hne⟩, heq⟩ := Option.ite_none_right_eq_some.mp h
    obtain rfl := Option.some.inj heq
    exact hs.destroy hne
  | lookup fd =>
    obtain ⟨-, heq⟩ := Option.ite_none_right_eq_some.mp h
    obtain rfl := Option.some.inj heq
    rw [hs.lookup_eq fd]
    exact hs
  | start =>
    obtain ⟨-, heq⟩ := Option.ite_none_left_eq_some.mp h
    obtain rfl := Option.some.inj heq
    refine (hs.preinit hok).sync hs.wakeup_alive fun _ _ other hother => ?_
    exact absurd hother (by simp [EpollRegistry.preinit, hok (fdOf wakeup)])
  | finish =>
    obtain ⟨-, heq⟩ := Option.ite_none_right_eq_some.mp h
    obtain rfl := Option.some.inj heq
    have hstop := (hs.stop wakeup).1
    exact ⟨hstop.wakeup_alive, hstop.entry,
      fun t ht => absurd ht (by simp [EpollRegistry.resetStatus])⟩

lemma init_inv (fdOf : κ → ℕ) (wakeup : κ) : (init wakeup).Inv fdOf wakeup where
  wakeup_alive := rfl
  entry h := absurd h (by simp [init, EpollRegistry.init])
  mirror t ht := absurd ht (by simp [init, EpollRegistry.init])

/-- **The registry and the kernel.** In every run that starts the loop with an empty map, and
in which no channel changes the events of a descriptor under which another one is registered,
the interest set of the running loop holds the events of the last `sync` of exactly the live
channels of the map. -/
theorem registry_matches_kernel (fdOf : κ → ℕ) (wakeup : κ) (as : List (EpollAction κ))
    (s : EpollState κ) (hok : Lib.AllSteps (step fdOf wakeup) (KeepsMap fdOf) (init wakeup) as)
    (hrun : Lib.run (step fdOf wakeup) (init wakeup) as = some s) : s.Matches := by
  have hinv : s.Inv fdOf wakeup :=
    Lib.run_inv_of_allSteps (I := Inv fdOf wakeup) (fun _ _ _ hs hok h => step_inv hs hok h)
      (init_inv fdOf wakeup) hok hrun
  exact hinv.matches

/-- Two channels on the running loop: the first is synced twice, the second is destroyed. -/
theorem sync_while_running_matches : ∃ s : EpollState ℕ,
    Lib.run (step id 0) (init 0) [.start, .toggle 1 .enableReading, .sync 1,
      .toggle 2 .enablWriting, .sync 2, .toggle 1 .enablWriting, .sync 1, .destroy 2] = some s ∧
    s.registry.interest.map (fun t => (t 1, t 2)) = some (some ⟨true, true⟩, none) ∧
    s.Matches := by
  let as : List (EpollAction ℕ) := [.start, .toggle 1 .enableReading, .sync 1,
    .toggle 2 .enablWriting, .sync 2, .toggle 1 .enablWriting, .sync 1, .destroy 2]
  have hrun : (Lib.run (step id 0) (init 0) as).map
      (fun s => s.registry.interest.map (fun t => (t 1, t 2))) =
      some (some (some ⟨true, true⟩, none)) := by decide +kernel
  obtain ⟨s, hs, hobs⟩ := Option.map_eq_some_iff.mp hrun
  refine ⟨s, hs, hobs, registry_matches_kernel id 0 as s ?_ hs⟩
  simp [as, Lib.AllSteps, step, KeepsMap, init, sync, running, EpollRegistry.init,
    EpollRegistry.preinit, EpollRegistry.updateChannel, EpollRegistry.update, epollCtl,
    Interest.isNoneEvent, Interest.noneEvent, Toggle.apply]

/-- A channel that is synced before the loop is started is not in the interest set. -/
theorem sync_before_start_missing : ∃ (as : List (EpollAction ℕ)) (s : EpollState ℕ),
    Lib.run (step id 0) (init 0) as = some s ∧ ¬ s.Matches := by
  let as : List (EpollAction ℕ) := [.toggle 1 .enableReading, .sync 1, .start]
  have hrun : (Lib.run (step id 0) (init 0) as).map
      (fun s => (s.registry.interest.map (fun t => t 1), s.registry.channelsMap 1, s.alive 1,
        s.lastSync 1)) = some (some none, some 1, true, ⟨true, false⟩) := by decide +kernel
  obtain ⟨s, hs, hobs⟩ := Option.map_eq_some_iff.mp hrun
  simp only [Prod.mk.injEq] at hobs
  obtain ⟨hint, hmap, halive, hsync⟩ := hobs
  obtain ⟨t, ht, hnone⟩ := Option.map_eq_some_iff.mp hint
  refine ⟨as, s, hs, fun hmatch => ?_⟩
  have hsome := (hmatch t ht 1 ⟨true, false⟩).mpr ⟨1, hmap, halive, hsync, rfl⟩
  exact absurd (hnone.symm.trans hsome) (by simp)

end EpollState

end SignalEventLoop.Core
