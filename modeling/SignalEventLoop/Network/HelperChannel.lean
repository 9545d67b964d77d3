/-
# The channel after the hand-off

`IoChannel::handleIoEvent` turns one readiness mask into up to two signals, and the slots of a
helper are queued before the first of them runs.  `handleConnectSuccess` resets the channel,
and the slots that are queued behind it still run: `on_close`, `on_error`, and `on_write` when
everything is sent, use the channel, and `on_recv` reads from a descriptor that belongs to
somebody else.

A helper is safe in every run in which nothing but `writeReady` is queued behind the slot that
completes the handshake, and such a late `writeReady` finds a request that cannot be sent.
-/
import SignalEventLoop.Network.Handshake

namespace SignalEventLoop.Network

open SignalEventLoop.Core ProtocalHttp
open IcacheBuffer (SendResult sound_init)

/-! ## A helper whose channel is there -/

lemma bind_ne_error {ε : Type*} {α β : Type} {x : Except ε α} {f : α → Except ε β} {fault : ε}
    (hx : x ≠ .error fault) (hf : ∀ a, x = .ok a → f a ≠ .error fault) :
    (x >>= f) ≠ .error fault := by
  cases x with
  | error e => exact fun h => hx (by simpa [bind, Except.bind] using h)
  | ok a => exact hf a rfl

lemma mapError_ne_nullChannel {α : Type} (x : Except Fault α) :
    x.mapError HelperFault.protocal ≠ .error .nullChannel := by
  cases x <;> simp [Except.mapError]

namespace HelperState

variable {s s' : HelperState} (hopen : s.channel ≠ none)

include hopen

lemma closeConnection_ne_nullChannel : s.closeConnection ≠ .error .nullChannel := by
  rw [closeConnection_eq_ok.mpr ⟨hopen, rfl⟩]
  simp

lemma syncChannel_ok (t : Toggle) : ∃ s', syncChannel t s = .ok s' ∧ s'.channel ≠ none ∧
    s'.connectionStatus = s.connectionStatus := by
  obtain ⟨e, he⟩ := Option.ne_none_iff_exists'.mp hopen
  exact ⟨_, syncChannel_eq_ok.mpr ⟨e, he, rfl⟩, by simp, rfl⟩

lemma appendWrite_ne_nullChannel (buffer : Bytes) :
    appendWrite buffer s ≠ .error .nullChannel := by
  rw [appendWrite]
  split
  · simp
  · rename_i writeCache _
    split_ifs
    · obtain ⟨s', hs', -⟩ := syncChannel_ok (s := { s with writeCache := writeCache }) hopen
        .enablWriting
      rw [hs']
      simp
    · simp

end HelperState

namespace ConnectionHelper

open HelperState

variable {H : ConnectionHelper} {s s' : HelperState}

section open_channel

variable (hopen : s.channel ≠ none)

include hopen

lemma handleConnectSuccess_ne_nullChannel (is_passive : Bool) :
    H.handleConnectSuccess is_passive s ≠ .error .nullChannel := by
  rw [handleConnectSuccess_eq_ok.mpr ⟨hopen, rfl⟩]
  simp

lemma activeSetup_ne_nullChannel (api : Text) : H.activeSetup api s ≠ .error .nullChannel := by
  by_cases hst : s.connectionStatus ≠ .passive
  · simp [activeSetup, hst]
  · rw [activeSetup, if_neg hst]
    exact bind_ne_error (mapError_ne_nullChannel _) fun buffer _ =>
      appendWrite_ne_nullChannel (by exact hopen) buffer

lemma passiveResponse_ne_nullChannel (key : Text) :
    H.passiveResponse key s ≠ .error .nullChannel := by
  by_cases hst : s.connectionStatus ≠ .passive
  · simp [passiveResponse, hst]
  · rw [passiveResponse, if_neg hst]
    exact bind_ne_error (mapError_ne_nullChannel _) fun buffer _ =>
      appendWrite_ne_nullChannel (by exact hopen) buffer

lemma handlePassive_ne_nullChannel (frame : Text) :
    H.handleWebsocketPassiveConnection frame s ≠ .error .nullChannel := by
  cases hparse : bufferToFrame frame with
  | error fault =>
    simp [handleWebsocketPassiveConnection, hparse, bind, Except.bind, Except.mapError]
  | ok r =>
    obtain ⟨ok, header⟩ := r
    by_cases hreq : ∃ api key, IsRequest header api key
    · obtain ⟨api, key, hreq⟩ := hreq
      rw [handlePassive_of_request hparse hreq]
      exact passiveResponse_ne_nullChannel (by exact hopen) key
    · obtain ⟨api, herror⟩ := handlePassive_of_not (H := H) (s := s) hparse (by simpa using hreq)
      rw [herror]
      exact closeConnection_ne_nullChannel (by exact hopen)

lemma handleActive_ne_nullChannel (frame : Text) :
    H.handleActiveConnection frame s ≠ .error .nullChannel := by
  cases hparse : bufferToFrame frame with
  | error fault => simp [handleActiveConnection, hparse, bind, Except.bind, Except.mapError]
  | ok r =>
    obtain ⟨ok, header⟩ := r
    by_cases hresp : H.IsResponse header
    · rw [handleActiveConnection_of_response hparse hresp]
      exact handleConnectSuccess_ne_nullChannel hopen false
    · rw [handleActiveConnection_of_not hparse hresp]
      exact closeConnection_ne_nullChannel hopen

lemma handleFrame_ne_nullChannel (frame : Text) :
    H.handleFrame frame s ≠ .error .nullChannel := by
  obtain ⟨s₁, hs₁, hopen₁, -⟩ := syncChannel_ok hopen .disableReading
  have hclose : (s₁.onError >>= fun s => .ok (s.emit .disconnected)) ≠
      .error HelperFault.nullChannel :=
    bind_ne_error (closeConnection_ne_nullChannel hopen₁) fun _ _ => by simp
  rw [handleFrame, hs₁]
  simp only [bind, Except.bind]
  split
  · exact handlePassive_ne_nullChannel hopen₁ frame
  · exact handleActive_ne_nullChannel hopen₁ frame
  all_goals exact hclose

lemma onRecv_ne_nullChannel (results : List RecvResult) :
    H.onRecv results s ≠ .error .nullChannel := by
  refine bind_ne_error (mapError_ne_nullChannel _) fun r _ => ?_
  obtain ⟨e, unread, header_cache, readCache⟩ := r
  dsimp only
  split
  · simp
  · exact closeConnection_ne_nullChannel (by exact hopen)
  · exact handleFrame_ne_nullChannel (by exact hopen) _

lemma onWrite_ne_nullChannel (results : List (List SendResult)) :
    H.onWrite results s ≠ .error .nullChannel := by
  refine bind_ne_error (mapError_ne_nullChannel _) fun r _ => ?_
  obtain ⟨closed, writeCache⟩ := r
  dsimp only
  split_ifs
  · exact closeConnection_ne_nullChannel (by exact hopen)
  · obtain ⟨s₁, hs₁, hopen₁, -⟩ := syncChannel_ok (s := { s with writeCache := writeCache }) hopen
      .disableWriting
    rw [hs₁]
    simp only [bind, Except.bind]
    split_ifs
    · exact handleConnectSuccess_ne_nullChannel hopen₁ true
    · simp
  · simp

/-- While the channel is there, no event uses a null channel. -/
lemma step_ne_nullChannel (e : HelperEvent) : H.step s e ≠ .error .nullChannel := by
  cases e with
  | activeSetup api => exact activeSetup_ne_nullChannel hopen api
  | abort => simp [step]
  | recv results => exact onRecv_ne_nullChannel hopen results
  | write results => exact onWrite_ne_nullChannel hopen results
  | close => exact closeConnection_ne_nullChannel hopen
  | error => exact closeConnection_ne_nullChannel hopen

end open_channel

end ConnectionHelper

/-! ## A helper with its queue -/

/-- A helper, and the slots that are queued on it. -/
structure QueuedHelper where
  helper : HelperState
  queue : List IoSignal

/-- What happens to a helper with its queue. -/
inductive QueueAction where
  /-- The channel handles a readiness mask. -/
  | handleIoEvent (mask : IoEvents)
  /-- The first slot of the queue runs; `recv` and `send` return this in it. -/
  | runSlot (recv : List RecvResult) (send : List (List SendResult))
  | activeSetup (api : Text)
  | abort

namespace QueuedHelper

open ConnectionHelper

def init : QueuedHelper := ⟨.init, []⟩

/-- The slot that is connected to a signal. -/
def slot (recv : List RecvResult) (send : List (List SendResult)) : IoSignal → HelperEvent
  | .bytesReady => .recv recv
  | .writeReady => .write send
  | .closeEvent => .close
  | .errorEvent => .error

/-- The action is possible: a mask comes from a channel that the scheduler watches, and a slot
runs when it is queued. -/
def Enabled (q : QueuedHelper) : QueueAction → Prop
  | .handleIoEvent _ => q.helper.channel ≠ none ∧ q.helper.watched.isNoneEvent = false
  | .runSlot _ _ => q.queue ≠ []
  | .activeSetup _ | .abort => True

instance decidableEnabled (q : QueuedHelper) : (a : QueueAction) → Decidable (q.Enabled a)
  | .handleIoEvent _ => inferInstanceAs (Decidable (_ ∧ _))
  | .runSlot _ _ => inferInstanceAs (Decidable (q.queue ≠ []))
  | .activeSetup _ | .abort => isTrue trivial

variable (H : ConnectionHelper)

/-- The state after an action. -/
def step (q : QueuedHelper) : QueueAction → Except HelperFault QueuedHelper
  | .handleIoEvent mask => .ok { q with queue := q.queue ++ Core.handleIoEvent mask }
  | .runSlot recv send =>
    match q.queue with
    | [] => .ok q
    | signal :: queue => do
      let helper ← H.step q.helper (slot recv send signal)
      .ok ⟨helper, queue⟩
  | .activeSetup api => do
    let helper ← H.step q.helper (.activeSetup api)
    .ok { q with helper := helper }
  | .abort => do
    let helper ← H.step q.helper .abort
    .ok { q with helper := helper }

/-- The state after an action that is possible and returns. -/
def next (q : QueuedHelper) (a : QueueAction) : Option QueuedHelper :=
  if q.Enabled a then (q.step H a).toOption else none

/-- The descriptor is read after it was announced. -/
def LateRead (log : List Effect) : Prop :=
  Effect.recv ∈ log.dropWhile fun e => !e.isNotification

/-- The condition on a slot: nothing but `writeReady` is queued behind a slot that completes the
handshake, and after the hand-off a `writeReady` cannot send the whole request. -/
def QueueEnds (q : QueuedHelper) : QueueAction → Prop
  | .runSlot recv send =>
    match q.queue with
    | [] => True
    | signal :: queue =>
      (H.Completes q.helper (slot recv send signal) → ∀ later ∈ queue, later = .writeReady) ∧
      (q.helper.channel = none → ∃ writeCache,
        writeLoop send q.helper.writeCache = .ok (false, writeCache) ∧
        writeCache.frameCacheMap ≠ [])
  | _ => True

variable {H} {q q' : QueuedHelper} {a : QueueAction}

/-- What holds in the runs whose slots meet the condition. -/
structure Safe (q : QueuedHelper) : Prop where
  ordered : Ordered q.helper
  queue : q.helper.channel = none → ∀ signal ∈ q.queue, signal = .writeReady
  log : ¬ LateRead q.helper.log

lemma safe_init : Safe init :=
  ⟨ordered_init, by simp [init], by simp [init, HelperState.init, LateRead]⟩

lemma dropWhile_of_notifications_eq_nil {log new : List Effect} (h : notifications log = []) :
    (log ++ new).dropWhile (fun e => !e.isNotification) =
      new.dropWhile fun e => !e.isNotification := by
  have hall : ∀ e ∈ log, (!e.isNotification) = true := by
    intro e he
    have := List.filter_eq_nil_iff.mp h e he
    simpa using this
  rw [List.dropWhile_append, List.dropWhile_eq_nil_iff.mpr hall]
  rfl

lemma dropWhile_of_quiet {new rest : List Effect} (h : ∀ e ∈ new, e.isQuiet = true) :
    (new ++ rest).dropWhile (fun e => !e.isNotification) =
      rest.dropWhile fun e => !e.isNotification :=
  dropWhile_of_notifications_eq_nil (notifications_of_quiet h)

/-- While the channel is there, nothing has been announced, and no event reads too late. -/
lemma not_lateRead_of_step {s s' : HelperState} {e : HelperEvent} (h : Ordered s)
    (hopen : s.channel ≠ none) (hs' : H.step s e = .ok s') : ¬ LateRead s'.log := by
  cases h with
  | after _ hnull _ => exact absurd hnull hopen
  | before hnone _ _ =>
    cases outcome_of_step hs' with
    | keeps new hlog hquiet _ _ _ =>
      rw [LateRead, hlog, dropWhile_of_notifications_eq_nil hnone,
        List.dropWhile_eq_nil_iff.mpr]
      · simp
      · intro e he
        have := List.filter_eq_nil_iff.mp (notifications_of_quiet hquiet) e he
        simpa using this
    | handsOff new is_passive hlog hquiet _ _ _ _ =>
      rw [LateRead, hlog, List.append_assoc, dropWhile_of_notifications_eq_nil hnone,
        dropWhile_of_quiet hquiet]
      simp [Effect.isNotification]

lemma lateRead_of_append {log new : List Effect} (hnew : Effect.recv ∉ new)
    (h : LateRead (log ++ new)) : LateRead log := by
  rw [LateRead, List.dropWhile_append] at h
  split_ifs at h
  · exact absurd ((List.dropWhile_suffix _).subset h) hnew
  · exact (List.mem_append.mp h).resolve_right hnew

lemma completes_of_reset {s s' : HelperState} {e : HelperEvent} (hopen : s.channel ≠ none)
    (hnull : s'.channel = none) (hs' : H.step s e = .ok s') : H.Completes s e := by
  cases outcome_of_step hs' with
  | keeps _ _ _ _ _ hchannel => exact absurd (hchannel.mp hnull) hopen
  | handsOff _ _ _ _ _ _ hcompletes _ => exact hcompletes

lemma next_eq_some : q.next H a = some q' ↔ q.Enabled a ∧ q.step H a = .ok q' := by
  rw [next]
  split_ifs with hen
  · rw [toOption_eq_some, and_iff_right hen]
  · simp [hen]

/-- After the hand-off a `writeReady` that cannot send everything does nothing else. -/
lemma onWrite_after {s : HelperState} {send : List (List SendResult)} {writeCache : CacheState}
    (hwrite : writeLoop send s.writeCache = .ok (false, writeCache))
    (hne : writeCache.frameCacheMap ≠ []) :
    H.onWrite send s = .ok { s with writeCache := writeCache } := by
  rw [onWrite, hwrite]
  simp [bind, Except.bind, Except.mapError, hne]

/-- A slot keeps the helper safe. -/
lemma Safe.runSlot (h : Safe q) {recv : List RecvResult} {send : List (List SendResult)}
    (hcond : q.QueueEnds H (.runSlot recv send)) (hq' : q.step H (.runSlot recv send) = .ok q') :
    Safe q' := by
  obtain ⟨s, _ | ⟨signal, queue⟩⟩ := q
  · obtain rfl := Except.ok.inj hq'
    exact h
  obtain ⟨s', hs', hq'⟩ := bind_eq_ok.mp hq'
  obtain rfl := Except.ok.inj hq'
  obtain ⟨hlast, hafter⟩ := hcond
  by_cases hopen : s.channel = none
  · -- only a `writeReady` is left
    obtain rfl := h.queue hopen signal List.mem_cons_self
    obtain ⟨writeCache, hwrite, hne⟩ := hafter hopen
    obtain rfl := Except.ok.inj ((onWrite_after (H := H) hwrite hne).symm.trans hs')
    exact ⟨h.ordered.step hs', fun _ later hlater => h.queue hopen later
      (List.mem_cons_of_mem _ hlater), h.log⟩
  · refine ⟨h.ordered.step hs', fun hnull => ?_, not_lateRead_of_step h.ordered hopen hs'⟩
    exact hlast (completes_of_reset hopen hnull hs')

/-- A call of `activeSetup` or `abort` does not complete the handshake. -/
lemma Safe.call (h : Safe q) {e : HelperEvent} {s' : HelperState}
    (he : e = .abort ∨ ∃ api, e = .activeSetup api) (hs' : H.step q.helper e = .ok s') :
    Safe { q with helper := s' } := by
  have hincomplete : ¬ H.Completes q.helper e := by
    rcases he with rfl | ⟨api, rfl⟩ <;> exact id
  by_cases hopen : q.helper.channel = none
  · refine ⟨h.ordered.step hs', fun _ => h.queue hopen, fun hlate => h.log ?_⟩
    rcases he with rfl | ⟨api, rfl⟩
    · obtain rfl := Except.ok.inj hs'
      exact lateRead_of_append (by simp) hlate
    · -- the handshake is over
      have hst : q.helper.connectionStatus ≠ .passive := by
        cases h.ordered with
        | before _ hchannel _ => exact absurd hopen hchannel
        | after _ _ hst => rcases hst with hst | hst <;> simp [hst]
      have hsame : H.activeSetup api q.helper = .ok s' := hs'
      rw [activeSetup, if_pos hst] at hsame
      obtain rfl := Except.ok.inj hsame
      exact hlate
  · exact ⟨h.ordered.step hs', fun hnull => absurd (completes_of_reset hopen hnull hs') hincomplete,
      not_lateRead_of_step h.ordered hopen hs'⟩

lemma Safe.next (h : Safe q) (hcond : q.QueueEnds H a) (hq' : q.next H a = some q') : Safe q' := by
  obtain ⟨hen, hq'⟩ := next_eq_some.mp hq'
  cases a with
  | handleIoEvent mask =>
    obtain rfl := Except.ok.inj hq'
    exact ⟨h.ordered, fun hnull => absurd hnull hen.1, h.log⟩
  | runSlot recv send => exact h.runSlot hcond hq'
  | activeSetup api =>
    obtain ⟨s', hs', hq'⟩ := bind_eq_ok.mp hq'
    obtain rfl := Except.ok.inj hq'
    exact h.call (Or.inr ⟨api, rfl⟩) hs'
  | abort =>
    obtain ⟨s', hs', hq'⟩ := bind_eq_ok.mp hq'
    obtain rfl := Except.ok.inj hq'
    exact h.call (Or.inl rfl) hs'

/-- A safe helper does not use a null channel. -/
lemma Safe.step_ne_nullChannel (h : Safe q) (hcond : q.QueueEnds H a) :
    q.step H a ≠ .error .nullChannel := by
  have hcall : ∀ e : HelperEvent, (e = .abort ∨ ∃ api, e = .activeSetup api) →
      H.step q.helper e ≠ .error .nullChannel := by
    intro e he
    by_cases hopen : q.helper.channel = none
    · cases h.ordered with
      | before _ hchannel _ => exact absurd hopen hchannel
      | after _ _ hst =>
        rcases he with rfl | ⟨api, rfl⟩
        · simp [ConnectionHelper.step]
        · rcases hst with hst | hst <;> simp [ConnectionHelper.step, activeSetup, hst]
    · exact ConnectionHelper.step_ne_nullChannel hopen e
  cases a with
  | handleIoEvent mask => simp [step]
  | activeSetup api => exact bind_ne_error (hcall _ (Or.inr ⟨api, rfl⟩)) fun _ _ => by simp
  | abort => exact bind_ne_error (hcall _ (Or.inl rfl)) fun _ _ => by simp
  | runSlot recv send =>
    obtain ⟨s, _ | ⟨signal, queue⟩⟩ := q
    · simp [step]
    · refine bind_ne_error ?_ fun _ _ => by simp
      by_cases hopen : s.channel = none
      · obtain rfl := h.queue hopen signal List.mem_cons_self
        obtain ⟨writeCache, hwrite, hne⟩ := hcond.2 hopen
        have hok : H.step s (slot recv send .writeReady) = _ := onWrite_after (H := H) hwrite hne
        rw [hok]
        simp
      · exact ConnectionHelper.step_ne_nullChannel hopen _

/-- The first slot runs. -/
lemma next_runSlot {signal : IoSignal} {queue : List IoSignal} {recv : List RecvResult}
    {send : List (List SendResult)} {s' : HelperState} (hfirst : q.queue = signal :: queue)
    (hs' : H.step q.helper (slot recv send signal) = .ok s') :
    q.next H (.runSlot recv send) = some ⟨s', queue⟩ := by
  have hen : q.Enabled (.runSlot recv send) := by
    show q.queue ≠ []
    simp [hfirst]
  refine next_eq_some.mpr ⟨hen, ?_⟩
  rw [step, hfirst]
  exact bind_eq_ok.mpr ⟨s', hs', rfl⟩

/-- A request is sent, and the channel handles a mask. -/
lemma sample_queues : ∃ s s', init.next sampleHelper (.activeSetup (ascii "/chat")) =
      some ⟨s, []⟩ ∧
    (∀ mask, (⟨s, []⟩ : QueuedHelper).next sampleHelper (.handleIoEvent mask) =
      some ⟨s, Core.handleIoEvent mask⟩) ∧
    s.channel ≠ none ∧ s.connectionStatus = .activeConnecting ∧
    sampleHelper.step s (.recv [.data sampleResponse]) = .ok s' ∧ s'.channel = none := by
  obtain ⟨s, s', hs, hopen, hwatched, hst, hstep, -, hnull⟩ := sample_connects
  refine ⟨s, s', ?_, fun mask => ?_, hopen, hst, hstep, hnull⟩
  · refine next_eq_some.mpr ⟨trivial, ?_⟩
    rw [step]
    exact bind_eq_ok.mpr ⟨s, hs, rfl⟩
  · exact next_eq_some.mpr ⟨⟨hopen, hwatched⟩, rfl⟩

/-- The response comes in the first slot of a mask. -/
lemma sample_run {mask : IoEvents} {queue : List IoSignal}
    (hmask : Core.handleIoEvent mask = .bytesReady :: queue) :
    ∃ q, Lib.run (next sampleHelper) init [.activeSetup (ascii "/chat"), .handleIoEvent mask,
        .runSlot [.data sampleResponse] []] = some q ∧
      q.queue = queue ∧ q.helper.channel = none ∧
      (queue = [] → Lib.AllSteps (next sampleHelper) (QueueEnds sampleHelper) init
        [.activeSetup (ascii "/chat"), .handleIoEvent mask,
          .runSlot [.data sampleResponse] []]) := by
  obtain ⟨s, s', h₁, h₂, hopen, -, hstep, hnull⟩ := sample_queues
  replace h₂ := h₂ mask
  rw [hmask] at h₂
  have h₃ : (⟨s, .bytesReady :: queue⟩ : QueuedHelper).next sampleHelper
      (.runSlot [.data sampleResponse] []) = some ⟨s', queue⟩ := next_runSlot rfl hstep
  refine ⟨⟨s', queue⟩, ?_, rfl, hnull, ?_⟩
  · simp only [Lib.run_cons, h₁, h₂, h₃, Option.bind_some, Lib.run_nil]
  · rintro rfl
    simp only [Lib.AllSteps, h₁, h₂, h₃, Option.some.injEq, forall_eq', and_true]
    exact ⟨trivial, trivial, fun _ => by simp, fun hnull => absurd hnull hopen⟩

/-- **No use of the channel after the hand-off**, in every run in which only `writeReady` is
queued behind the slot that completes the handshake, and a `writeReady` that comes so late
cannot send the whole request. -/
theorem channel_not_used (H : ConnectionHelper) (actions : List QueueAction) (q : QueuedHelper)
    (hcond : Lib.AllSteps (next H) (QueueEnds H) init actions)
    (hrun : Lib.run (next H) init actions = some q) :
    ¬ LateRead q.helper.log ∧
      ∀ a, q.Enabled a → q.QueueEnds H a → q.step H a ≠ .error .nullChannel := by
  have hsafe : Safe q := Lib.run_inv_of_allSteps (I := Safe)
    (fun _ _ _ h hok hs' => h.next hok hs') safe_init hcond hrun
  exact ⟨hsafe.log, fun a _ ha => hsafe.step_ne_nullChannel ha⟩

/-- The response alone: the helper is aborted after the hand-off. -/
theorem abort_after_handoff : ∃ q, Lib.run (next sampleHelper) init
      [.activeSetup (ascii "/chat"), .handleIoEvent ⟨true, false, false, false, false⟩,
        .runSlot [.data sampleResponse] []] = some q ∧
    q.helper.channel = none ∧ ¬ LateRead q.helper.log ∧
    q.step sampleHelper .abort ≠ .error .nullChannel := by
  have hmask : Core.handleIoEvent ⟨true, false, false, false, false⟩ = [.bytesReady] := rfl
  obtain ⟨q, hrun, -, hnull, hcond⟩ := sample_run hmask
  obtain ⟨hlate, hstep⟩ := channel_not_used sampleHelper _ q (hcond rfl) hrun
  exact ⟨q, hrun, hnull, hlate, hstep .abort trivial trivial⟩

/-- A response that comes together with the end of the connection, in one mask: `on_close` runs
after the hand-off. -/
theorem close_after_response : ∃ q, Lib.run (next sampleHelper) init
      [.activeSetup (ascii "/chat"), .handleIoEvent ⟨true, false, false, false, true⟩,
        .runSlot [.data sampleResponse] []] = some q ∧
    q.Enabled (.runSlot [] []) ∧ q.step sampleHelper (.runSlot [] []) = .error .nullChannel := by
  have hmask : Core.handleIoEvent ⟨true, false, false, false, true⟩ =
      [.bytesReady, .closeEvent] := rfl
  obtain ⟨⟨s, queue⟩, hrun, rfl, hnull, -⟩ := sample_run hmask
  refine ⟨_, hrun, by simp [Enabled], ?_⟩
  have hnull' : s.channel = none := hnull
  simp [step, slot, ConnectionHelper.step, HelperState.onClose, HelperState.closeConnection,
    HelperState.stopChannel, hnull', bind, Except.bind]

end QueuedHelper

end SignalEventLoop.Network
