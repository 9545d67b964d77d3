/-
# A stream connection and its write queue

`TcpConnection` (`imp/network/tcp-connection-manager.cpp`) owns the channel of a descriptor
and, after `setProtocal`, a cache for the bytes it reads and one for the frames it sends.
`sendFrame` queues a frame and asks for write events when it is the only one; `on_write` sends
the queued frames and gives the write events up when the queue is empty.

The slots of the channel and the calls of `sendFrame` come in any order.  What `recv` and
`send` return is the environment; a list of results that has come to its end stands for
`EAGAIN`.  A call returns `none` when an operation of a cache has no defined result.
-/
import SignalEventLoop.Core.EpollSync
import SignalEventLoop.Network.CacheView

namespace SignalEventLoop.Network

open SignalEventLoop.Core IcacheBuffer

/-! ## The registry of the scheduler -/

/-- The tables of an epoll scheduler whose loop is running: the epoll descriptor is open, and
the interest set has the descriptors of the map. -/
structure RunningRegistry where
  registry : EpollRegistry Unit
  interest : ℕ → Option Interest
  isOpen : registry.interest = some interest
  same : registry.SameFds

namespace RunningRegistry

/-- A scheduler that has just been started. -/
def init : RunningRegistry where
  registry := EpollRegistry.init.preinit
  interest := fun _ => none
  isOpen := rfl
  same := by
    intro t ht fd
    obtain rfl := Option.some.inj ht
    rfl

lemma sameFds_update {r : EpollRegistry Unit} {t : ℕ → Option Interest} {fd : ℕ}
    {e : Option Interest} {c : Option Unit}
    (hsame : ∀ fd, (t fd).isSome = (r.channelsMap fd).isSome)
    {r' : EpollRegistry Unit} (hmap : r'.channelsMap = Function.update r.channelsMap fd c)
    (hint : r'.interest = some (Function.update t fd e)) (hec : e.isSome = c.isSome) :
    r'.SameFds := by
  intro t' ht' fd'
  obtain rfl := Option.some.inj (hint.symm.trans ht')
  rw [hmap]
  by_cases hfd : fd' = fd
  · rw [hfd, Function.update_self, Function.update_self, hec]
  · rw [Function.update_of_ne hfd, Function.update_of_ne hfd, hsame]

/-- `updateChannel` for the channel of `fd` with the events `e`. -/
def updateChannel (r : RunningRegistry) (fd : ℕ) (e : Interest) : RunningRegistry where
  registry := r.registry.updateChannel () fd e
  interest := Function.update r.interest fd (if e.isNoneEvent then none else some e)
  isOpen := EpollRegistry.updateChannel_interest r.same r.isOpen
  same := by
    refine sameFds_update (r.same _ r.isOpen) (EpollRegistry.updateChannel_channelsMap _ _ _ _)
      (EpollRegistry.updateChannel_interest r.same r.isOpen) ?_
    split <;> rfl

/-- `removeChannel` for the descriptor `fd`. -/
def removeChannel (r : RunningRegistry) (fd : ℕ) : RunningRegistry where
  registry := r.registry.removeChannel fd
  interest := Function.update r.interest fd none
  isOpen := EpollRegistry.removeChannel_interest r.same r.isOpen
  same := sameFds_update (r.same _ r.isOpen) (EpollRegistry.removeChannel_channelsMap _ _)
    (EpollRegistry.removeChannel_interest r.same r.isOpen) rfl

/-- The events for which the kernel watches a descriptor. -/
def watched (r : RunningRegistry) (fd : ℕ) : Interest := (r.interest fd).getD .noneEvent

/-- The descriptor is registered with the scheduler. -/
def isRegistered (r : RunningRegistry) (fd : ℕ) : Bool := (r.registry.channelsMap fd).isSome

@[simp] lemma watched_updateChannel (r : RunningRegistry) (fd : ℕ) (e : Interest) :
    (r.updateChannel fd e).watched fd = e := by
  simp only [watched, updateChannel, Function.update_self]
  split_ifs with h
  · simpa [Interest.isNoneEvent, eq_comm] using h
  · rfl

@[simp] lemma watched_removeChannel (r : RunningRegistry) (fd : ℕ) :
    (r.removeChannel fd).watched fd = .noneEvent := by
  simp [watched, removeChannel]

@[simp] lemma isRegistered_updateChannel (r : RunningRegistry) (fd : ℕ) (e : Interest) :
    (r.updateChannel fd e).isRegistered fd = !e.isNoneEvent := by
  simp only [isRegistered, updateChannel, EpollRegistry.updateChannel_channelsMap,
    Function.update_self]
  split_ifs with h <;> simp [h]

@[simp] lemma isRegistered_removeChannel (r : RunningRegistry) (fd : ℕ) :
    (r.removeChannel fd).isRegistered fd = false := by
  simp [isRegistered, removeChannel, EpollRegistry.removeChannel_channelsMap]

end RunningRegistry

/-! ## The connection -/

/-- What a connection does to the outside. -/
inductive TcpEffect where
  /-- `sync` leaves the channel registered with the scheduler. -/
  | registered
  | notifyFrame (frame : List UInt8)
  | disconnected
deriving DecidableEq

/-- A result of `recv`. -/
inductive TcpRecv where
  | data (chunk : Bytes)
  /-- `EAGAIN` or `EINTR` -/
  | again
  /-- The end of the stream, or an error. -/
  | closed
deriving DecidableEq

/-- The constant part of a `TcpConnection` after `setProtocal`. -/
structure TcpConnection where
  fd : ℕ
  protocal : Protocal

/-- The variable part of a `TcpConnection`, with the scheduler. -/
structure TcpState where
  readCache : CacheState
  writeCache : CacheState
  /-- The events of the channel. -/
  events : Interest
  scheduler : RunningRegistry
  log : List TcpEffect

namespace TcpConnection

variable (C : TcpConnection)

/-- `readCache` and `writeCache` are `IcacheBufferStream`s. -/
def cache : IcacheBuffer := icacheBufferStream C.protocal

/-- `channel->sync()` after a change of the events. -/
def syncChannel (t : Toggle) (s : TcpState) : TcpState :=
  let events := t.apply s.events
  let scheduler := s.scheduler.updateChannel C.fd events
  { s with
    events := events
    scheduler := scheduler
    log := s.log ++ if scheduler.isRegistered C.fd then [.registered] else [] }

/-- `channel->stop()` -/
def stopChannel (s : TcpState) : TcpState :=
  { s with scheduler := s.scheduler.removeChannel C.fd }

/-- `TcpConnection::setProtocal` on a channel with the given events. -/
def setProtocal (events : Interest) (scheduler : RunningRegistry) : TcpState :=
  C.syncChannel .enableReading
    (C.stopChannel ⟨CacheState.init, CacheState.init, events, scheduler, []⟩)

/-- `TcpConnection::on_close` -/
def onClose (s : TcpState) : TcpState :=
  let s := C.stopChannel s
  { s with log := s.log ++ [.disconnected] }

/-- `TcpConnection::on_error` -/
def onError (s : TcpState) : TcpState :=
  let s := C.stopChannel s
  { s with log := s.log ++ [.disconnected] }

/-- `TcpConnection::sendFrame`; the copy of the frame has one byte more than the frame. -/
def sendFrame (frame : Bytes) (s : TcpState) : Option (Bool × TcpState) :=
  if frame.1.length = 0 then some (true, s)
  else if add32 frame.1.length 1 < frame.1.length then none
  else
    (C.cache.appendFrame s.writeCache frame).map fun (ret, writeCache) =>
      let s := { s with writeCache := writeCache }
      (decide (ret > 0 ∧ ret = frame.1.length),
        if writeCache.frameCacheMap.length = 1 then C.syncChannel .enablWriting s else s)

/-- The inner loop of `on_recv`: it pops until a frame has no bytes. -/
def popLoop : ℕ → CacheState → Option (List (List UInt8) × CacheState)
  | 0, _ => none
  | fuel + 1, s =>
    (popFrame s).bind fun (frame, s₁) =>
      if frame.length > 0 then
        (popLoop fuel s₁).map fun (frames, s₂) => (frame :: frames, s₂)
      else some ([], s₁)

/-- `IcacheBufferStream::readFromFd` -/
def readFromFd (s : CacheState) : TcpRecv → Option (ℤ × CacheState)
  | .again => some (-1, s)
  | .closed => some (0, s)
  | .data chunk =>
    (C.cache.readFromBuf s chunk).map fun (result, s₁) =>
      (if result < 0 then 0 else chunk.1.length, s₁)

/-- The loop of `on_recv`: whether `on_close` is called at its end, the frames, and the
cache. -/
def recvLoop : List TcpRecv → CacheState → Option (Bool × List (List UInt8) × CacheState)
  | [], s => some (false, [], s)
  | r :: results, s =>
    (C.readFromFd s r).bind fun (ret, s₁) =>
      if ret < 0 then some (false, [], s₁)
      else if ret = 0 then some (true, [], s₁)
      else
        -- every pop takes one frame out of the map
        (popLoop (s₁.frameCacheMap.length + 1) s₁).bind fun (frames, s₂) =>
          (recvLoop results s₂).map fun (closed, later, s₃) => (closed, frames ++ later, s₃)

/-- `TcpConnection::on_recv` -/
def onRecv (results : List TcpRecv) (s : TcpState) : Option TcpState :=
  (C.recvLoop results s.readCache).map fun (closed, frames, readCache) =>
    let s := { s with readCache := readCache, log := s.log ++ frames.map .notifyFrame }
    if closed then C.onClose s else s

/-- The loop of `on_write`, by the results of `send` in each call of `sendCacheByFd`; the flag
tells whether one of them returns 0. -/
def writeLoop : List (List SendResult) → CacheState → Option (Bool × CacheState)
  | [], s => some (false, s)
  | r :: results, s =>
    if s.frameCacheMap = [] then some (false, s)
    else
      (C.cache.sendCacheByFd s r).bind fun (ret, _, s₁) =>
        if ret < 0 then some (false, s₁)
        else if ret = 0 then some (true, s₁)
        else writeLoop results s₁

/-- `TcpConnection::on_write` -/
def onWrite (results : List (List SendResult)) (s : TcpState) : Option TcpState :=
  (C.writeLoop results s.writeCache).map fun (closed, writeCache) =>
    let s := { s with writeCache := writeCache }
    if closed then C.onClose s
    else if writeCache.frameCacheMap = [] then C.syncChannel .disableWriting s
    else s

/-- What happens to a connection. -/
inductive TcpOp where
  | sendFrame (frame : Bytes)
  | onRecv (results : List TcpRecv)
  | onWrite (results : List (List SendResult))
  | onClose
  | onError

/-- The state after an operation. -/
def step (s : TcpState) : TcpOp → Option TcpState
  | .sendFrame frame => (C.sendFrame frame s).map Prod.snd
  | .onRecv results => C.onRecv results s
  | .onWrite results => C.onWrite results s
  | .onClose => some (C.onClose s)
  | .onError => some (C.onError s)

/-! ## What an operation can do -/

variable {C} {s s' : TcpState}

lemma syncChannel_log {t : Toggle} (hreading : (t.apply s.events).reading = true) :
    (C.syncChannel t s).log = s.log ++ [.registered] := by
  have hne : (t.apply s.events).isNoneEvent = false := by
    simp only [Interest.isNoneEvent, decide_eq_false_iff_not]
    intro h
    simp [h, Interest.noneEvent] at hreading
  simp [syncChannel, hne]

/-- A frame is refused, and the cache is as it was, or the queue has one frame more. -/
lemma appendFrame_length {B : IcacheBuffer} {c c' : CacheState} {frame : Bytes} {ret : ℤ}
    (h : B.appendFrame c frame = some (ret, c')) :
    (ret = -1 ∧ c' = c) ∨ c'.frameCacheMap.length = c.frameCacheMap.length + 1 := by
  have hresize : ∀ {n : ℕ} {c₁ : CacheState}, c.resize n = some c₁ →
      c₁.frameCacheMap.length = c.frameCacheMap.length := by
    intro n c₁ h₁
    simp only [CacheState.resize, Option.bind_eq_bind, Option.bind_eq_some_iff] at h₁
    obtain ⟨kept, -, buf, -, hc₁⟩ := h₁
    obtain rfl := Option.some.inj hc₁
    simp
  have hcopy : ∀ {c₁ c₂ : CacheState}, copyIn c₁ frame = some c₂ →
      c₂.frameCacheMap = c₁.frameCacheMap := by
    intro c₁ c₂ h₂
    obtain ⟨buf, -, rfl⟩ := Option.map_eq_some_iff.mp h₂
    rfl
  obtain ⟨⟨ok, c₁⟩, happ, he⟩ := Option.map_eq_some_iff.mp h
  have hcases : (ok = false ∧ c₁ = c) ∨
      (ok = true ∧ c₁.frameCacheMap.length = c.frameCacheMap.length) := by
    rw [appendCache] at happ
    dsimp only at happ
    split_ifs at happ with hlen hfull hover
    · obtain ⟨rfl, rfl⟩ := Prod.mk.inj (Option.some.inj happ)
      exact Or.inl ⟨rfl, rfl⟩
    · obtain ⟨rfl, rfl⟩ := Prod.mk.inj (Option.some.inj happ)
      exact Or.inl ⟨rfl, rfl⟩
    · obtain ⟨c₂, hc₂, happ⟩ := Option.bind_eq_some_iff.mp happ
      obtain ⟨c₃, hc₃, hmk⟩ := Option.map_eq_some_iff.mp happ
      obtain ⟨rfl, rfl⟩ := Prod.mk.inj hmk
      exact Or.inr ⟨rfl, by rw [hcopy hc₃, hresize hc₂]⟩
    · obtain ⟨c₃, hc₃, hmk⟩ := Option.map_eq_some_iff.mp happ
      obtain ⟨rfl, rfl⟩ := Prod.mk.inj hmk
      exact Or.inr ⟨rfl, by rw [hcopy hc₃]⟩
  rcases hcases with ⟨rfl, rfl⟩ | ⟨rfl, hlength⟩
  · obtain ⟨rfl, rfl⟩ := Prod.mk.inj he
    exact Or.inl ⟨rfl, rfl⟩
  · obtain ⟨rfl, rfl⟩ := Prod.mk.inj he
    exact Or.inr (by simp [updateFrameCache, hlength])

/-- `sendFrame` does nothing with an empty frame; otherwise the frame is refused or queued, and
write events are asked for when the queue has one frame then. -/
lemma sendFrame_cases {frame : Bytes} {ret : Bool} (h : C.sendFrame frame s = some (ret, s')) :
    (frame.1 = [] ∧ s' = s) ∨ ∃ (n : ℤ) (writeCache : CacheState), frame.1 ≠ [] ∧
      C.cache.appendFrame s.writeCache frame = some (n, writeCache) ∧
      ((writeCache.frameCacheMap.length = 1 ∧
          s' = C.syncChannel .enablWriting { s with writeCache := writeCache }) ∨
        (writeCache.frameCacheMap.length ≠ 1 ∧ s' = { s with writeCache := writeCache })) := by
  rw [sendFrame] at h
  split_ifs at h with hlen hwrap
  · exact Or.inl ⟨List.length_eq_zero_iff.mp hlen, (Prod.mk.inj (Option.some.inj h)).2.symm⟩
  · obtain ⟨⟨n, writeCache⟩, happ, he⟩ := Option.map_eq_some_iff.mp h
    have hs' := (Prod.mk.inj he).2
    refine Or.inr ⟨n, writeCache, fun hnil => hlen (by simp [hnil]), happ, ?_⟩
    split_ifs at hs' with hone
    · exact Or.inl ⟨hone, hs'.symm⟩
    · exact Or.inr ⟨hone, hs'.symm⟩

/-- `on_recv` hands the frames on and closes the connection at the end of the stream. -/
lemma onRecv_cases {results : List TcpRecv} (h : C.onRecv results s = some s') :
    ∃ closed frames readCache, C.recvLoop results s.readCache = some (closed, frames, readCache) ∧
      ((closed = true ∧ s' = C.onClose { s with
          readCache := readCache, log := s.log ++ frames.map .notifyFrame }) ∨
        (closed = false ∧ s' = { s with
          readCache := readCache, log := s.log ++ frames.map .notifyFrame })) := by
  obtain ⟨⟨closed, frames, readCache⟩, hloop, he⟩ := Option.map_eq_some_iff.mp h
  refine ⟨closed, frames, readCache, hloop, ?_⟩
  dsimp only at he
  cases closed with
  | true => exact Or.inl ⟨rfl, he.symm⟩
  | false => exact Or.inr ⟨rfl, he.symm⟩

/-- `on_write` closes the connection, gives up the write events of an empty queue, or leaves
frames to the next write event. -/
lemma onWrite_cases {results : List (List SendResult)} (h : C.onWrite results s = some s') :
    ∃ closed writeCache, C.writeLoop results s.writeCache = some (closed, writeCache) ∧
      ((closed = true ∧ s' = C.onClose { s with writeCache := writeCache }) ∨
        (closed = false ∧ writeCache.frameCacheMap = [] ∧
          s' = C.syncChannel .disableWriting { s with writeCache := writeCache }) ∨
        (closed = false ∧ writeCache.frameCacheMap ≠ [] ∧
          s' = { s with writeCache := writeCache })) := by
  obtain ⟨⟨closed, writeCache⟩, hloop, he⟩ := Option.map_eq_some_iff.mp h
  refine ⟨closed, writeCache, hloop, ?_⟩
  dsimp only at he
  split_ifs at he with hclosed hempty
  · exact Or.inl ⟨hclosed, he.symm⟩
  · exact Or.inr (Or.inl ⟨by simpa using hclosed, hempty, he.symm⟩)
  · exact Or.inr (Or.inr ⟨by simpa using hclosed, hempty, he.symm⟩)

/-- Without a frame there is nothing to send. -/
lemma writeLoop_nil (results : List (List SendResult)) {c : CacheState}
    (hc : c.frameCacheMap = []) : C.writeLoop results c = some (false, c) := by
  cases results with
  | nil => rfl
  | cons r results => rw [writeLoop, if_pos hc]

/-! ## The write interest -/

/-- What the scheduler watches is what the channel asks for, and this includes write events
when a frame is queued. -/
structure Follows (C : TcpConnection) (s : TcpState) : Prop where
  synced : s.scheduler.watched C.fd = s.events
  writing : s.writeCache.frameCacheMap ≠ [] → s.events.writing = true

lemma setProtocal_follows (events : Interest) (scheduler : RunningRegistry) :
    Follows C (C.setProtocal events scheduler) where
  synced := by simp [setProtocal, syncChannel]
  writing := by simp [setProtocal, syncChannel, stopChannel, CacheState.init]

lemma Follows.sendFrame {frame : Bytes} {ret : Bool} (hs : Follows C s)
    (h : C.sendFrame frame s = some (ret, s')) : Follows C s' := by
  rcases sendFrame_cases h with ⟨-, rfl⟩ | ⟨n, writeCache, -, happ, ⟨-, rfl⟩ | ⟨hone, rfl⟩⟩
  · exact hs
  · exact ⟨by simp [syncChannel], fun _ => rfl⟩
  · -- the queue had frames before, or has none now
    refine ⟨hs.synced, fun hne => hs.writing fun hnil => ?_⟩
    rcases appendFrame_length happ with ⟨-, hsame⟩ | hlength
    · exact hne (by rw [hsame]; exact hnil)
    · exact hone (by simp [hlength, hnil])

lemma Follows.onWrite {results : List (List SendResult)} (hs : Follows C s)
    (h : C.onWrite results s = some s') :
    TcpEffect.disconnected ∈ s'.log ∨
      (Follows C s' ∧ (s'.writeCache.frameCacheMap = [] → s'.events.writing = false)) := by
  obtain ⟨closed, writeCache, hloop, ⟨-, rfl⟩ | ⟨-, hempty, rfl⟩ | ⟨-, hne, rfl⟩⟩ :=
    onWrite_cases h
  · exact Or.inl (by simp [onClose])
  · exact Or.inr ⟨⟨by simp [syncChannel], fun hne => absurd hempty hne⟩, fun _ => rfl⟩
  · refine Or.inr ⟨⟨hs.synced, fun _ => hs.writing fun hnil => hne ?_⟩, fun h => absurd h hne⟩
    rw [writeLoop_nil results hnil] at hloop
    obtain ⟨-, rfl⟩ := Prod.mk.inj (Option.some.inj hloop)
    exact hnil

/-- The log only grows. -/
lemma log_subset {op : TcpOp} (h : C.step s op = some s') : s.log ⊆ s'.log := by
  cases op with
  | sendFrame frame =>
    obtain ⟨⟨ret, s₁⟩, hsend, rfl⟩ := Option.map_eq_some_iff.mp h
    rcases sendFrame_cases hsend with ⟨-, rfl⟩ | ⟨n, writeCache, -, -, ⟨-, rfl⟩ | ⟨-, rfl⟩⟩
    · exact fun _ hx => hx
    · exact List.subset_append_left _ _
    · exact fun _ hx => hx
  | onRecv results =>
    obtain ⟨closed, frames, readCache, -, ⟨-, rfl⟩ | ⟨-, rfl⟩⟩ := onRecv_cases h
    · exact fun _ hx => List.mem_append_left _ (List.mem_append_left _ hx)
    · exact List.subset_append_left _ _
  | onWrite results =>
    obtain ⟨closed, writeCache, -, ⟨-, rfl⟩ | ⟨-, -, rfl⟩ | ⟨-, -, rfl⟩⟩ := onWrite_cases h
    · exact List.subset_append_left _ _
    · exact List.subset_append_left _ _
    · exact fun _ hx => hx
  | onClose =>
    obtain rfl := Option.some.inj h
    exact List.subset_append_left _ _
  | onError =>
    obtain rfl := Option.some.inj h
    exact List.subset_append_left _ _

/-- Every operation keeps the write interest in step with the queue, up to the first close. -/
lemma step_follows {op : TcpOp} (hs : TcpEffect.disconnected ∈ s.log ∨ Follows C s)
    (h : C.step s op = some s') : TcpEffect.disconnected ∈ s'.log ∨ Follows C s' := by
  rcases hs with hs | hs
  · exact Or.inl (log_subset h hs)
  cases op with
  | sendFrame frame =>
    obtain ⟨⟨ret, s₁⟩, hsend, rfl⟩ := Option.map_eq_some_iff.mp h
    exact Or.inr (hs.sendFrame hsend)
  | onRecv results =>
    obtain ⟨closed, frames, readCache, -, ⟨-, rfl⟩ | ⟨-, rfl⟩⟩ := onRecv_cases h
    · exact Or.inl (by simp [TcpConnection.onClose])
    · exact Or.inr ⟨hs.synced, hs.writing⟩
  | onWrite results => exact (hs.onWrite h).imp_right And.left
  | onClose =>
    obtain rfl := Option.some.inj h
    exact Or.inl (by simp [TcpConnection.onClose])
  | onError =>
    obtain rfl := Option.some.inj h
    exact Or.inl (by simp [TcpConnection.onError])

/-- **The write interest follows the write queue.** In every run after `setProtocal` up to the
first close, the kernel watches the descriptor for write events whenever a frame is queued,
and it does not after an `on_write` that leaves the queue empty. -/
theorem write_interest_follows_queue (C : TcpConnection) (events : Interest)
    (scheduler : RunningRegistry) (ops : List TcpOp) (s : TcpState)
    (hrun : Lib.run C.step (C.setProtocal events scheduler) ops = some s)
    (hopen : TcpEffect.disconnected ∉ s.log) :
    (s.writeCache.frameCacheMap ≠ [] → (s.scheduler.watched C.fd).writing = true) ∧
      ∀ results s', C.onWrite results s = some s' → TcpEffect.disconnected ∉ s'.log →
        s'.writeCache.frameCacheMap = [] → (s'.scheduler.watched C.fd).writing = false := by
  have hs : Follows C s :=
    (Lib.run_inv (I := fun s => TcpEffect.disconnected ∈ s.log ∨ Follows C s)
      (fun _ _ _ hs h => step_follows hs h) (Or.inr (setProtocal_follows events scheduler))
      hrun).resolve_left hopen
  constructor
  · intro hne
    rw [hs.synced]
    exact hs.writing hne
  · intro results s' h hopen' hempty
    obtain ⟨hs', hwriting⟩ := (hs.onWrite h).resolve_left hopen'
    rw [hs'.synced]
    exact hwriting hempty

/-- A connection with a small cache. -/
def sampleConnection : TcpConnection := ⟨3, protocalBase 64 true 16 4⟩

/-- Two frames are queued; a write event sends a part of the first one. -/
theorem partial_send_keeps_interest : ∃ s : TcpState,
    Lib.run sampleConnection.step (sampleConnection.setProtocal .noneEvent .init)
      [.sendFrame ⟨[1, 2, 3], by decide⟩, .sendFrame ⟨[4], by decide⟩,
        .onWrite [[.sent 2, .again], [.again]]] = some s ∧
    s.writeCache.frameCacheMap.length = 2 ∧ (s.scheduler.watched 3).writing = true := by
  let ops : List TcpOp := [.sendFrame ⟨[1, 2, 3], by decide⟩, .sendFrame ⟨[4], by decide⟩,
    .onWrite [[.sent 2, .again], [.again]]]
  have hrun : (Lib.run sampleConnection.step (sampleConnection.setProtocal .noneEvent .init)
      ops).map (fun s => (s.writeCache.frameCacheMap.length, s.log)) =
      some (2, [.registered, .registered]) := by
    decide +kernel
  obtain ⟨s, hs, hend⟩ := Option.map_eq_some_iff.mp hrun
  obtain ⟨hlen, hlog⟩ := Prod.mk.inj hend
  have hne : s.writeCache.frameCacheMap ≠ [] := by
    intro hnil
    simp [hnil] at hlen
  exact ⟨s, hs, hlen, (write_interest_follows_queue sampleConnection .noneEvent .init ops s hs
    (by simp [hlog])).1 hne⟩

end TcpConnection

end SignalEventLoop.Network
