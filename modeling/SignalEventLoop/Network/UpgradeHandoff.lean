/-
# The stream at the hand-off

A stream that begins with the head of an upgrade comes in chunks, which are read from the
descriptor by the helper, and by the `WebsocketApiBase` that is made when the helper announces
it.  The helper takes whole chunks, and it uses only the head: bytes that are behind the head
in the same chunk, and the chunks that a late `bytesReady` finds, stay in its read cache, and
the decoder of the `WebsocketApiBase` never gets them.

The stream is intact exactly in the runs in which the chunk with the end of the head ends there,
and in which the helper reads nothing after it.
-/
import SignalEventLoop.Network.HelperChannel
import SignalEventLoop.Network.WebsocketApi

namespace SignalEventLoop.Network

open ProtocalHttp ConnectionHelper HelperState
open IcacheBuffer (SendResult sound_init)
open WebsocketApi (apiCache)

/-- A connection that is upgraded. -/
structure Upgrade where
  queued : QueuedHelper
  /-- The bytes of the stream that nobody has read. -/
  pending : Text
  /-- The bytes that the helper has read. -/
  helperInput : Text
  /-- The read cache of the `WebsocketApiBase`. -/
  readCache : CacheState
  /-- The bytes that the `WebsocketApiBase` has read. -/
  decoderInput : Text

/-- What happens to the connection. -/
inductive UpgradeAction where
  /-- Something happens to the helper. -/
  | queue (a : QueueAction)
  /-- `on_recv` of the `WebsocketApiBase`; `recv` returns this in it. -/
  | apiRecv (results : List RecvResult)

namespace Upgrade

/-- A new helper; the stream is still to come. -/
def init (stream : Text) : Upgrade := ⟨.init, stream, [], .init, []⟩

/-- The descriptor is announced. -/
def Announced (x : Upgrade) : Prop := notifications x.queued.helper.log ≠ []

instance decidableAnnounced (x : Upgrade) : Decidable x.Announced :=
  inferInstanceAs (Decidable (_ ≠ _))

/-- The results that `on_recv` of the helper does not ask for. -/
def unread (s : HelperState) (results : List RecvResult) : List RecvResult :=
  match ConnectionHelper.readLoop results s.header_cache s.readCache with
  | .ok (_, unread, _, _) => unread
  | .error _ => []

/-- The bytes of the results, without those of the results that are not asked for. -/
def taken (results unread : List RecvResult) : Text :=
  (dataOf results).take ((dataOf results).length - (dataOf unread).length)

/-- The bytes that are left of the stream. -/
def left (pending : Text) (results unread : List RecvResult) : Text :=
  dataOf unread ++ pending.drop (dataOf results).length

/-- The helper has read. -/
def helperReads (x : Upgrade) (results : List RecvResult) (q : QueuedHelper) : Upgrade :=
  { x with
    queued := q
    pending := left x.pending results (unread x.queued.helper results)
    helperInput := x.helperInput ++ taken results (unread x.queued.helper results) }

/-- The `WebsocketApiBase` has read. -/
def apiReads (x : Upgrade) (results unread : List RecvResult) (readCache : CacheState) : Upgrade :=
  { x with
    pending := left x.pending results unread
    readCache := readCache
    decoderInput := x.decoderInput ++ taken results unread }

/-- The state after an action that is possible and returns: `recv` returns what is next in the
stream, and the `WebsocketApiBase` reads after the descriptor was announced. -/
def next (H : ConnectionHelper) (beyond : ℕ → ℕ → UInt8) (x : Upgrade) :
    UpgradeAction → Option Upgrade
  | .queue a =>
    (x.queued.next H a).bind fun q =>
      match a, x.queued.queue with
      | .runSlot recv _, .bytesReady :: _ =>
        if dataOf recv <+: x.pending then some (x.helperReads recv q) else none
      | _, _ => some { x with queued := q }
  | .apiRecv results =>
    if x.Announced ∧ dataOf results <+: x.pending then
      (WebsocketApi.readLoop beyond results x.readCache).map fun (_, unread, readCache) =>
        x.apiReads results unread readCache
    else none

/-- The condition: a chunk in which the head of the stream ends has no byte behind the head, and
the helper reads no chunk after it. -/
def Cut (head : Text) (x : Upgrade) : UpgradeAction → Prop
  | .queue (.runSlot recv _) => x.queued.queue.head? = some .bytesReady →
      EndsAt (head.length - x.helperInput.length) (chunksOf recv)
  | _ => True

variable {H : ConnectionHelper} {beyond : ℕ → ℕ → UInt8} {x x' : Upgrade} {a : UpgradeAction}

/-- What an action does. -/
inductive Moved (H : ConnectionHelper) (beyond : ℕ → ℕ → UInt8) (x : Upgrade) :
    UpgradeAction → Upgrade → Prop where
  /-- The helper reads. -/
  | reads (recv : List RecvResult) (send : List (List SendResult)) (queue : List Core.IoSignal)
      (s' : HelperState) (first : x.queued.queue = .bytesReady :: queue)
      (next : dataOf recv <+: x.pending)
      (step : H.step x.queued.helper (.recv recv) = .ok s') :
      Moved H beyond x (.queue (.runSlot recv send)) (x.helperReads recv ⟨s', queue⟩)
  /-- Something else happens to the helper. -/
  | event (a : QueueAction) (e : HelperEvent) (s' : HelperState) (queue : List Core.IoSignal)
      (other : ∀ recv, e ≠ .recv recv) (step : H.step x.queued.helper e = .ok s')
      (cut : ∀ head, x.Cut head (.queue a)) :
      Moved H beyond x (.queue a) { x with queued := ⟨s', queue⟩ }
  /-- Slots are queued. -/
  | mask (mask : Core.IoEvents) (queue : List Core.IoSignal) :
      Moved H beyond x (.queue (.handleIoEvent mask))
        { x with queued := ⟨x.queued.helper, queue⟩ }
  /-- The `WebsocketApiBase` reads. -/
  | api (results : List RecvResult) (isOpen : Bool) (unread : List RecvResult)
      (readCache : CacheState) (announced : x.Announced) (next : dataOf results <+: x.pending)
      (loop : WebsocketApi.readLoop beyond results x.readCache = some (isOpen, unread, readCache)) :
      Moved H beyond x (.apiRecv results) (x.apiReads results unread readCache)

/-- A slot of the helper runs. -/
lemma moved_of_runSlot {recv : List RecvResult} {send : List (List SendResult)}
    (h : x.next H beyond (.queue (.runSlot recv send)) = some x') :
    Moved H beyond x (.queue (.runSlot recv send)) x' := by
  obtain ⟨q, hq, hx'⟩ := Option.bind_eq_some_iff.mp h
  obtain ⟨hen, hstep⟩ := QueuedHelper.next_eq_some.mp hq
  have hne : x.queued.queue ≠ [] := hen
  rw [QueuedHelper.step] at hstep
  cases hqueue : x.queued.queue with
  | nil => exact absurd hqueue hne
  | cons signal queue =>
    rw [hqueue] at hstep hx'
    obtain ⟨s', hs', hq⟩ := bind_eq_ok.mp hstep
    obtain rfl := Except.ok.inj hq
    have hother : signal ≠ .bytesReady →
        ∀ head, x.Cut head (.queue (.runSlot recv send)) := by
      intro hsignal head hfirst
      rw [hqueue, List.head?_cons, Option.some.injEq] at hfirst
      exact absurd hfirst hsignal
    cases signal with
    | bytesReady =>
      simp only [Option.ite_none_right_eq_some, Option.some.injEq] at hx'
      obtain ⟨hnext, rfl⟩ := hx'
      exact .reads recv send queue s' hqueue hnext hs'
    | writeReady =>
      obtain rfl := Option.some.inj hx'
      exact .event _ _ s' queue (by simp [QueuedHelper.slot]) hs' (hother (by simp))
    | closeEvent =>
      obtain rfl := Option.some.inj hx'
      exact .event _ _ s' queue (by simp [QueuedHelper.slot]) hs' (hother (by simp))
    | errorEvent =>
      obtain rfl := Option.some.inj hx'
      exact .event _ _ s' queue (by simp [QueuedHelper.slot]) hs' (hother (by simp))

/-- **Every action does one of four things.** -/
lemma moved_of_next (h : x.next H beyond a = some x') : Moved H beyond x a x' := by
  cases a with
  | apiRecv results =>
    simp only [next, Option.ite_none_right_eq_some, Option.map_eq_some_iff] at h
    obtain ⟨⟨hannounced, hnext⟩, ⟨isOpen, unread, readCache⟩, hloop, rfl⟩ := h
    exact .api results isOpen unread readCache hannounced hnext hloop
  | queue a =>
    rw [next] at h
    obtain ⟨q, hq, hx'⟩ := Option.bind_eq_some_iff.mp h
    cases a with
    | runSlot recv send => exact moved_of_runSlot h
    | handleIoEvent mask =>
      obtain rfl := Except.ok.inj (QueuedHelper.next_eq_some.mp hq).2
      obtain rfl := Option.some.inj hx'
      exact .mask mask _
    | activeSetup api =>
      obtain ⟨-, hstep⟩ := QueuedHelper.next_eq_some.mp hq
      rw [QueuedHelper.step] at hstep
      obtain ⟨s', hs', hq⟩ := bind_eq_ok.mp hstep
      obtain rfl := Except.ok.inj hq
      obtain rfl := Option.some.inj hx'
      exact .event _ (.activeSetup api) s' _ (by simp) hs' fun _ => trivial
    | abort =>
      obtain ⟨-, hstep⟩ := QueuedHelper.next_eq_some.mp hq
      rw [QueuedHelper.step] at hstep
      obtain ⟨s', hs', hq⟩ := bind_eq_ok.mp hstep
      obtain rfl := Except.ok.inj hq
      obtain rfl := Option.some.inj hx'
      exact .event _ .abort s' _ (by simp) hs' fun _ => trivial

/-! ## What is read -/

section bytes

variable {s s' : HelperState} {recv results rest : List RecvResult} {pending : Text}

/-- What is taken and what is left is the stream. -/
lemma taken_append_left (hsuffix : rest <:+ results) (hnext : dataOf results <+: pending) :
    taken results rest ++ left pending results rest = pending := by
  obtain ⟨first, rfl⟩ := hsuffix
  obtain ⟨more, rfl⟩ := hnext
  simp [taken, left, dataOf_append]

lemma unread_eq {e : ReadEnd} {header_cache : StreamHttpHeader} {readCache : CacheState}
    (hread : ConnectionHelper.readLoop recv s.header_cache s.readCache =
      .ok (e, rest, header_cache, readCache)) : unread s recv = rest := by
  rw [unread, hread]

/-- A step of `on_recv` has a loop that ends. -/
lemma readLoop_of_step (h : H.step s (.recv recv) = .ok s') :
    ∃ e header_cache readCache, ConnectionHelper.readLoop recv s.header_cache s.readCache =
      .ok (e, unread s recv, header_cache, readCache) := by
  obtain ⟨⟨e, rest, header_cache, readCache⟩, hread, -⟩ := bind_eq_ok.mp h
  rw [mapError_eq_ok] at hread
  exact ⟨e, header_cache, readCache, by rw [unread_eq hread, hread]⟩

lemma unread_suffix (h : H.step s (.recv recv) = .ok s') : unread s recv <:+ recv.tail := by
  obtain ⟨e, header_cache, readCache, hread⟩ := readLoop_of_step h
  cases recv with
  | nil =>
    simp only [ConnectionHelper.readLoop, Except.ok.injEq, Prod.mk.injEq] at hread
    rw [← hread.2.1]
    exact List.suffix_refl _
  | cons r results => exact readLoop_suffix hread

/-- The helper takes bytes out of the stream. -/
lemma helperReads_append {q : QueuedHelper} (h : H.step x.queued.helper (.recv recv) = .ok s')
    (hnext : dataOf recv <+: x.pending) :
    (x.helperReads recv q).helperInput ++ (x.helperReads recv q).pending =
      x.helperInput ++ x.pending := by
  rw [helperReads, List.append_assoc]
  exact congrArg _ (taken_append_left ((unread_suffix h).trans (List.tail_suffix _)) hnext)

/-- A chunk that is there is taken. -/
lemma taken_ne_nil (h : H.step s (.recv recv) = .ok s') (hchunk : chunksOf recv ≠ []) :
    taken recv (unread s recv) ≠ [] := by
  match recv with
  | [] => exact absurd rfl hchunk
  | .again :: results => exact absurd rfl hchunk
  | .closed :: results => exact absurd rfl hchunk
  | .data chunk :: results =>
    have hle := (dataOf_suffix (unread_suffix h)).length_le
    have hpos : 0 < chunk.1.length := List.length_pos_iff.mpr chunk.2.1
    rw [List.tail_cons] at hle
    rw [← List.length_pos_iff, taken, List.length_take, dataOf, List.length_append]
    omega

end bytes

/-! ## Before the head is complete -/

/-- A helper that has not got the head. -/
structure Before (s : HelperState) : Prop where
  header_cache : s.header_cache = .init
  channel : s.channel ≠ none
  status : s.connectionStatus = .passive ∨ s.connectionStatus = .activeConnecting ∨
    s.connectionStatus = .closed
  writeCache : s.connectionStatus = .passive → s.writeCache = .init

section before

variable {s s' : HelperState}

lemma Before.closedState (h : Before s) : Before s.closedState :=
  ⟨h.header_cache, h.channel, Or.inr (Or.inr rfl),
    fun hst => by simp [HelperState.closedState] at hst⟩

/-- The loop of `on_write` does nothing when there is nothing to send. -/
lemma writeLoop_of_empty {send : List (List SendResult)} {c : CacheState}
    (h : c.frameCacheMap = []) : writeLoop send c = .ok (false, c) := by
  rw [writeLoop.eq_def]
  exact if_pos h

lemma Before.onWrite (h : Before s) {send : List (List SendResult)}
    (hs' : H.onWrite send s = .ok s') : Before s' ∧ s'.readCache = s.readCache := by
  obtain ⟨⟨closed, writeCache⟩, hwrite, hs'⟩ := bind_eq_ok.mp hs'
  rw [mapError_eq_ok] at hwrite
  have hwriteCache : s.connectionStatus = .passive → writeCache = .init := by
    intro hst
    rw [h.writeCache hst, writeLoop_of_empty rfl] at hwrite
    simp only [Except.ok.injEq, Prod.mk.injEq] at hwrite
    exact hwrite.2.symm
  have hbefore : Before { s with writeCache := writeCache } :=
    ⟨h.header_cache, h.channel, h.status, hwriteCache⟩
  dsimp only at hs'
  split_ifs at hs' with hclosed hsent
  · obtain ⟨-, rfl⟩ := closeConnection_eq_ok.mp hs'
    exact ⟨hbefore.closedState, rfl⟩
  · obtain ⟨s₁, hsync, hs'⟩ := bind_eq_ok.mp hs'
    obtain ⟨e, -, rfl⟩ := syncChannel_eq_ok.mp hsync
    split_ifs at hs' with hst
    · -- a response is sent after the head
      have hno := h.status
      rw [show s.connectionStatus = .passiveConnecting from hst] at hno
      simp at hno
    · obtain rfl := Except.ok.inj hs'
      exact ⟨⟨h.header_cache, by simp, h.status, hwriteCache⟩, rfl⟩
  · obtain rfl := Except.ok.inj hs'
    exact ⟨hbefore, rfl⟩

/-- What is not a reading leaves the helper waiting for the head. -/
lemma Before.step (h : Before s) {e : HelperEvent} (hother : ∀ recv, e ≠ .recv recv)
    (hs' : H.step s e = .ok s') : Before s' ∧ s'.readCache = s.readCache := by
  cases e with
  | recv recv => exact absurd rfl (hother recv)
  | write send => exact h.onWrite hs'
  | close =>
    obtain ⟨-, rfl⟩ := closeConnection_eq_ok.mp hs'
    exact ⟨h.closedState, rfl⟩
  | error =>
    obtain ⟨-, rfl⟩ := closeConnection_eq_ok.mp hs'
    exact ⟨h.closedState, rfl⟩
  | abort =>
    obtain rfl := Except.ok.inj hs'
    exact ⟨⟨h.header_cache, h.channel, Or.inr (Or.inr rfl),
      fun hst => by simp [abort, emit] at hst⟩, rfl⟩
  | activeSetup api =>
    by_cases hst : s.connectionStatus = .passive
    · obtain ⟨name, hunmoved⟩ := activeSetup_unmoved hst hs'
      refine ⟨⟨hunmoved.header_cache.trans h.header_cache, fun hc => ?_, ?_, fun hpassive => ?_⟩,
        hunmoved.readCache⟩
      · exact h.channel (hunmoved.channel.mp hc)
      · exact Or.inr (Or.inl hunmoved.connectionStatus)
      · rw [hunmoved.connectionStatus] at hpassive
        simp at hpassive
    · have hs : H.activeSetup api s = .ok s' := hs'
      rw [activeSetup, if_pos hst] at hs
      obtain rfl := Except.ok.inj hs
      exact ⟨h, rfl⟩

/-- The loop ends without a frame. -/
lemma Before.onRecv (h : Before s) {recv rest : List RecvResult} {e : ReadEnd}
    {readCache : CacheState} (hend : e = .again ∨ e = .closed)
    (hread : ConnectionHelper.readLoop recv s.header_cache s.readCache =
      .ok (e, rest, .init, readCache)) :
    ∃ s', H.step s (.recv recv) = .ok s' ∧ Before s' ∧ s'.readCache = readCache := by
  have hbefore : Before (({ s with header_cache := .init, readCache := readCache } :
      HelperState).emit .recv) := ⟨rfl, h.channel, h.status, h.writeCache⟩
  rcases hend with rfl | rfl
  · refine ⟨_, ?_, hbefore, rfl⟩
    rw [ConnectionHelper.step, ConnectionHelper.onRecv, hread]
    rfl
  · refine ⟨_, ?_, hbefore.closedState, rfl⟩
    rw [ConnectionHelper.step, ConnectionHelper.onRecv, hread]
    exact closeConnection_eq_ok.mpr ⟨h.channel, rfl⟩

end before

/-- After the head the condition says that nothing is read. -/
lemma endsAt_zero {chunks : List Chunk} : EndsAt 0 chunks ↔ chunks = [] := by
  cases chunks with
  | nil => simp [EndsAt]
  | cons chunk chunks => simp [EndsAt, chunk.2.1]

/-! ## Runs -/

/-- How far the stream is read: the helper waits for the rest of the head, or the head is
complete and everything else is for the decoder. -/
inductive Stage (head tail : Text) (x : Upgrade) : Prop where
  | reading (before : Before x.queued.helper)
      (waiting : Waiting x.helperInput x.queued.helper.readCache)
      (isPart : x.helperInput <+: head) (ne : x.helperInput ≠ head)
      (stream : x.helperInput ++ x.pending = head ++ tail) (fresh : x.decoderInput = [])
  | complete (whole : x.helperInput = head) (stream : x.decoderInput ++ x.pending = tail)

/-- What holds in the runs whose steps meet the condition. -/
structure Good (beyond : ℕ → ℕ → UInt8) (head tail : Text) (x : Upgrade) : Prop where
  ordered : Ordered x.queued.helper
  sound : (apiCache beyond).Sound x.readCache
  stage : Stage head tail x

/-- The helper has read more than the head. -/
def Bad (head : Text) (x : Upgrade) : Prop := head.length < x.helperInput.length

variable {head tail : Text} {header : StreamHttpHeader}

lemma Before.not_announced (h : Before x.queued.helper) (hordered : Ordered x.queued.helper) :
    ¬ x.Announced := by
  cases hordered with
  | before hnone _ _ => exact fun hannounced => hannounced hnone
  | after _ hnull _ => exact absurd hnull h.channel

lemma Bad.next (h : Bad head x) (hx' : x.next H beyond a = some x') : Bad head x' := by
  cases moved_of_next hx' with
  | reads recv send queue s' _ _ _ =>
    refine lt_of_lt_of_le h ?_
    simp [helperReads]
  | event _ _ _ _ _ _ => exact h
  | mask _ _ => exact h
  | api _ _ _ _ _ _ _ => exact h

section reads

variable {recv : List RecvResult} {queue : List Core.IoSignal} {s' : HelperState}

/-- Behind the head the helper has taken `extra`. -/
lemma helperInput_eq {q : QueuedHelper} {extra more : Text} {rest : List RecvResult}
    (hstream : x.helperInput ++ x.pending = head ++ tail) (hmore : dataOf recv ++ more = x.pending)
    (hs' : H.step x.queued.helper (.recv recv) = .ok s')
    (hrest : unread x.queued.helper recv = rest)
    (htail : extra ++ (dataOf rest ++ more) = tail) :
    (x.helperReads recv q).helperInput = head ++ extra := by
  have hpending : (x.helperReads recv q).pending = dataOf rest ++ more := by
    rw [helperReads, left, hrest, ← hmore, List.drop_left]
  have hall := helperReads_append (q := q) hs' ⟨more, hmore⟩
  rw [hstream, ← htail, hpending, ← List.append_assoc head] at hall
  exact List.append_cancel_right hall

/-- The helper reads while it waits for the head. -/
lemma Stage.reads_part (hhead : IsHead head header) (hbefore : Before x.queued.helper)
    (hwaiting : Waiting x.helperInput x.queued.helper.readCache) (hpart : x.helperInput <+: head)
    (hne : x.helperInput ≠ head) (hstream : x.helperInput ++ x.pending = head ++ tail)
    (hfresh : x.decoderInput = []) (hnext : dataOf recv <+: x.pending)
    (hs' : H.step x.queued.helper (.recv recv) = .ok s') :
    (EndsAt (head.length - x.helperInput.length) (chunksOf recv) →
      Stage head tail (x.helperReads recv ⟨s', queue⟩)) ∧
    (¬ EndsAt (head.length - x.helperInput.length) (chunksOf recv) →
      Bad head (x.helperReads recv ⟨s', queue⟩)) := by
  have hall := (helperReads_append (q := ⟨s', queue⟩) hs' hnext).trans hstream
  obtain ⟨more, hmore⟩ := hnext
  obtain ⟨r, hread, hends⟩ := readLoop_head hhead recv hwaiting hpart hne (by rw [hmore, hstream])
  rw [← hbefore.header_cache] at hread
  cases hends with
  | waits e rest readCache hend htaken hwaiting' hpart' hne' hcut =>
    refine ⟨fun _ => ?_, fun hnot => absurd hcut hnot⟩
    obtain ⟨s₁, hs₁, hbefore', hcache⟩ := hbefore.onRecv (H := H) hend hread
    obtain rfl : s₁ = s' := Except.ok.inj (hs₁.symm.trans hs')
    have hinput : (x.helperReads recv ⟨s₁, queue⟩).helperInput =
        x.helperInput ++ flat (chunksOf recv) := by
      rw [helperReads, unread_eq hread, taken, ← htaken]
      simp
    rw [← hinput] at hwaiting' hpart' hne'
    exact .reading hbefore' (hcache.symm ▸ hwaiting') hpart' hne' hall hfresh
  | completes rest extra readCache htail hcut =>
    have hinput := helperInput_eq (q := ⟨s', queue⟩) hstream hmore hs' (unread_eq hread) htail
    constructor
    · intro hok
      obtain rfl := hcut.mp hok
      rw [List.append_nil] at hinput
      rw [hinput] at hall
      refine .complete hinput ?_
      have hdecoder : (x.helperReads recv ⟨s', queue⟩).decoderInput = [] := hfresh
      rw [hdecoder]
      exact List.append_cancel_left hall
    · intro hnot
      have hpos := List.length_pos_iff.mpr fun h => hnot (hcut.mpr h)
      rw [Bad, hinput, List.length_append]
      omega
  | refused rest extra readCache htail hlost _ hcut =>
    refine ⟨fun hok => absurd hok hcut, fun _ => ?_⟩
    have hpos := List.length_pos_iff.mpr hlost
    rw [Bad, helperInput_eq hstream hmore hs' (unread_eq hread) htail, List.length_append]
    omega

/-- The helper reads after the head. -/
lemma Stage.reads_complete (hwhole : x.helperInput = head)
    (hstream : x.decoderInput ++ x.pending = tail) (hnext : dataOf recv <+: x.pending)
    (hs' : H.step x.queued.helper (.recv recv) = .ok s') :
    (EndsAt (head.length - x.helperInput.length) (chunksOf recv) →
      Stage head tail (x.helperReads recv ⟨s', queue⟩)) ∧
    (¬ EndsAt (head.length - x.helperInput.length) (chunksOf recv) →
      Bad head (x.helperReads recv ⟨s', queue⟩)) := by
  rw [hwhole, Nat.sub_self, endsAt_zero]
  constructor
  · intro hnil
    obtain ⟨e, rest, hread, -, hdata⟩ := readLoop_noChunk hnil x.queued.helper.header_cache
      x.queued.helper.readCache
    obtain ⟨more, hmore⟩ := hnext
    refine .complete ?_ ?_
    · rw [helperReads, unread_eq hread, taken, hdata, Nat.sub_self, List.take_zero]
      simpa using hwhole
    · rw [helperReads, unread_eq hread, left, hdata, ← hmore, List.drop_left, hmore]
      exact hstream
  · intro hchunk
    have hpos := List.length_pos_iff.mpr (taken_ne_nil hs' hchunk)
    rw [Bad, helperReads, List.length_append, hwhole]
    omega

end reads

/-- What the helper reads decides whether the run stays good. -/
lemma Good.reads (hhead : IsHead head header) (h : Good beyond head tail x)
    {recv : List RecvResult} {queue : List Core.IoSignal} {s' : HelperState}
    (hnext : dataOf recv <+: x.pending) (hs' : H.step x.queued.helper (.recv recv) = .ok s') :
    (EndsAt (head.length - x.helperInput.length) (chunksOf recv) →
      Stage head tail (x.helperReads recv ⟨s', queue⟩)) ∧
    (¬ EndsAt (head.length - x.helperInput.length) (chunksOf recv) →
      Bad head (x.helperReads recv ⟨s', queue⟩)) := by
  cases h.stage with
  | reading hbefore hwaiting hpart hne hstream hfresh =>
    exact Stage.reads_part hhead hbefore hwaiting hpart hne hstream hfresh hnext hs'
  | complete hwhole hstream => exact Stage.reads_complete hwhole hstream hnext hs'

/-- A step that meets the condition. -/
lemma Good.next (hhead : IsHead head header) (h : Good beyond head tail x) (hcut : x.Cut head a)
    (hx' : x.next H beyond a = some x') : Good beyond head tail x' := by
  cases moved_of_next hx' with
  | reads recv send queue s' hfirst hnext hs' =>
    exact ⟨h.ordered.step hs', h.sound, (h.reads hhead hnext hs').1 (hcut (by rw [hfirst]; rfl))⟩
  | event _ e s' queue hother hs' _ =>
    refine ⟨h.ordered.step hs', h.sound, ?_⟩
    cases h.stage with
    | reading hbefore hwaiting hpart hne hstream hfresh =>
      obtain ⟨hbefore', hcache⟩ := hbefore.step hother hs'
      exact .reading hbefore' (hcache.symm ▸ hwaiting) hpart hne hstream hfresh
    | complete hwhole hstream => exact .complete hwhole hstream
  | mask mask queue =>
    refine ⟨h.ordered, h.sound, ?_⟩
    cases h.stage with
    | reading hbefore hwaiting hpart hne hstream hfresh =>
      exact .reading hbefore hwaiting hpart hne hstream hfresh
    | complete hwhole hstream => exact .complete hwhole hstream
  | api results isOpen rest readCache hannounced hnext hloop =>
    obtain ⟨isOpen', rest', s', hloop', hsound, hsuffix⟩ :=
      WebsocketApi.readLoop_ok h.sound results
    obtain ⟨-, rfl, rfl⟩ : isOpen = isOpen' ∧ rest = rest' ∧ readCache = s' := by
      simpa using hloop.symm.trans hloop'
    refine ⟨h.ordered, hsound, ?_⟩
    cases h.stage with
    | reading hbefore _ _ _ _ _ => exact absurd hannounced (hbefore.not_announced h.ordered)
    | complete hwhole hstream =>
      refine .complete hwhole ?_
      rw [apiReads, List.append_assoc]
      exact (congrArg _ (taken_append_left (hsuffix.trans (List.tail_suffix _)) hnext)).trans
        hstream

/-- A step that does not meet the condition. -/
lemma Good.bad (hhead : IsHead head header) (h : Good beyond head tail x)
    (hcut : ¬ x.Cut head a) (hx' : x.next H beyond a = some x') : Bad head x' := by
  cases moved_of_next hx' with
  | reads recv send queue s' hfirst hnext hs' =>
    exact (h.reads hhead hnext hs').2 fun hends => hcut fun _ => hends
  | event _ _ _ _ _ _ hall => exact absurd (hall head) hcut
  | mask _ _ => exact absurd trivial hcut
  | api _ _ _ _ _ _ _ => exact absurd trivial hcut

/-! ## Progress -/

/-- An empty text frame. -/
def sampleFrame : Chunk := ⟨[0x81, 0], by decide⟩

end Upgrade

end SignalEventLoop.Network
