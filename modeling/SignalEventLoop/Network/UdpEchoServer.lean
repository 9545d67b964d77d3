/-
# The UDP echo server

`UdpEchoServer` (`imp/udp-echo-server.cpp`).  `on_read` receives up to ten packets and, while
the server is echoing, puts each of them into the write cache with the address of its sender in
front; `sendData` puts a packet for any address there.  Write events are asked for when the
cache has one frame after that; `on_write` sends what it can and gives the write events up when
the cache is empty.

`start` and `stop` set a plain flag from any thread, also while `on_read` is running, which
tests it once for each packet (`Turn`).  Everything else runs in the thread of the scheduler.
What `recvfrom` and `sendto` return is the environment; a list of results that has come to its
end stands for `EAGAIN`.  An operation returns `none` when it has no defined result.

The two caches, with their blocks, offsets and growth, are an `EchoQueue`: the packets that
wait, in order, with a bound on their bytes.
-/
import SignalEventLoop.Network.CacheUdpSend
import SignalEventLoop.Network.TcpConnection

namespace SignalEventLoop.Network

open SignalEventLoop.Core IcacheBuffer

/-! ## The server -/

/-- The `ProtocalNormal` of the server. -/
def echoProtocal : Protocal := protocalBase (20 * 32 * 1024) false (32 * 1024) (32 * 1024 - 16)

/-- The variable part of a `UdpEchoServer`, with the scheduler and the packets that `sendto`
has taken. -/
structure UdpEchoServer where
  readCache : CacheState
  writeCache : CacheState
  /-- The events of the channel. -/
  events : Interest
  scheduler : RunningRegistry
  echoing : Bool
  sent : List Packet

/-- What a turn of the loop of `on_read` finds: the result of `recvfrom`, and the last call of
`start` or `stop` that another thread makes before the flag is tested. -/
structure Turn where
  result : UdpRecv echoProtocal
  switched : Option Bool

/-- What happens to a server. -/
inductive EchoOp where
  | onRead (turns : List Turn)
  | onWrite (results : List UdpSend)
  /-- The address is a `sockaddr_in`. -/
  | sendData (addr : { addr : List UInt8 // addr.length = 16 }) (data : Bytes)
  | start
  | stop

namespace UdpEchoServer

variable (fd : ℕ)

/-- `channel->sync()` after a change of the events. -/
def syncChannel (t : Toggle) (s : UdpEchoServer) : UdpEchoServer :=
  let events := t.apply s.events
  { s with events := events, scheduler := s.scheduler.updateChannel fd events }

/-- `UdpEchoServer::UdpEchoServer` -/
def init (scheduler : RunningRegistry) : UdpEchoServer :=
  syncChannel fd .enableReading
    ⟨CacheState.init, CacheState.init, .noneEvent, scheduler, false, []⟩

/-- The append to the write cache in `on_read` and `sendData`, and the write events. -/
def appendFrame (frame : Bytes) (s : UdpEchoServer) : Option (ℤ × UdpEchoServer) :=
  ((icacheBufferUdp echoProtocal).appendFrame s.writeCache frame).map fun (ret, writeCache) =>
    let s := { s with writeCache := writeCache }
    (ret, if writeCache.frameCacheMap.length = 1 then syncChannel fd .enablWriting s else s)

/-- The length of a frame is a `uint32_t`. -/
def toBytes (frame : List UInt8) : Option Bytes :=
  if h : frame.length < 2 ^ 32 then some ⟨frame, h⟩ else none

/-- A turn of the loop of `on_read`, and whether the loop goes on. -/
def turn (t : Turn) (s : UdpEchoServer) : Option (Bool × UdpEchoServer) :=
  (IcacheBufferUdp.readFromFd echoProtocal s.readCache t.result).bind fun (ret, readCache) =>
    if ret ≤ 0 then some (false, { s with readCache := readCache })
    else
      (popFrame readCache).bind fun (frame, readCache) =>
        -- the address is copied for the log
        (Lib.load frame 0 16).bind fun _ =>
          let s := { s with readCache := readCache, echoing := t.switched.getD s.echoing }
          if s.echoing then
            (toBytes frame).bind fun frame => (appendFrame fd frame s).map fun e => (true, e.2)
          else some (true, s)

/-- The loop of `on_read`, for up to `max_per_read_cnt` turns. -/
def readLoop : ℕ → List Turn → UdpEchoServer → Option UdpEchoServer
  | max_per_read_cnt + 1, t :: turns, s =>
    (turn fd t s).bind fun (more, s) => if more then readLoop max_per_read_cnt turns s else some s
  | _, _, s => some s

/-- `UdpEchoServer::on_read` -/
def onRead (turns : List Turn) (s : UdpEchoServer) : Option UdpEchoServer := readLoop fd 10 turns s

/-- The loop of `on_write`. -/
def writeLoop : List UdpSend → UdpEchoServer → Option UdpEchoServer
  | [], s => some s
  | result :: results, s =>
    if s.writeCache.frameCacheMap = [] then some s
    else
      (IcacheBufferUdp.sendCacheByFd s.writeCache result).bind fun (ret, out, writeCache) =>
        let s := { s with writeCache := writeCache, sent := s.sent ++ out }
        if ret ≤ 0 then some s else writeLoop results s

/-- `UdpEchoServer::on_write` -/
def onWrite (results : List UdpSend) (s : UdpEchoServer) : Option UdpEchoServer :=
  (writeLoop results s).map fun s =>
    if s.writeCache.frameCacheMap = [] then syncChannel fd .disableWriting s else s

/-- `UdpEchoServer::sendData`; the address and the data are copied to a block of `frame_len`
bytes. -/
def sendData (addr : { addr : List UInt8 // addr.length = 16 }) (data : Bytes)
    (s : UdpEchoServer) : Option (ℤ × UdpEchoServer) :=
  (toBytes (addr.1 ++ data.1)).bind fun frame => appendFrame fd frame s

/-- The state after an operation. -/
def step (s : UdpEchoServer) : EchoOp → Option UdpEchoServer
  | .onRead turns => onRead fd turns s
  | .onWrite results => onWrite fd results s
  | .sendData addr data => (sendData fd addr data s).map Prod.snd
  | .start => some { s with echoing := true }
  | .stop => some { s with echoing := false }

end UdpEchoServer

/-! ## The queue of packets -/

/-- The bytes that a packet takes in a cache. -/
def Packet.size (p : Packet) : ℕ := p.1.length + p.2.length

/-- The packets that wait to be sent, and the ones that were sent. -/
structure EchoQueue where
  waiting : List Packet
  echoing : Bool
  sent : List Packet

namespace EchoQueue

def init : EchoQueue := ⟨[], false, []⟩

/-- A packet is refused when it and the packets that wait have more than 20 times 32 KiB. -/
def offer (p : Packet) (q : EchoQueue) : EchoQueue :=
  if (q.waiting.map Packet.size).sum + p.size ≤ 20 * 32 * 1024 then
    { q with waiting := q.waiting ++ [p] }
  else q

/-- Up to `n` packets are received, and echoed while the flag is set. -/
def receive : ℕ → List Turn → EchoQueue → EchoQueue
  | n + 1, ⟨.datagram d, switched⟩ :: turns, q =>
    let q := { q with echoing := switched.getD q.echoing }
    receive n turns (if q.echoing then q.offer (d.addr.1, d.payload.1) else q)
  | _, _, q => q

/-- The first packets are sent.  A packet without bytes is sent and stays. -/
def send : List UdpSend → EchoQueue → EchoQueue
  | .sent :: results, q =>
    match q.waiting with
    | [] => q
    | p :: ps =>
      if p.2 = [] then { q with sent := q.sent ++ [p] }
      else send results { q with waiting := ps, sent := q.sent ++ [p] }
  | _, q => q

def step (q : EchoQueue) : EchoOp → EchoQueue
  | .onRead turns => q.receive 10 turns
  | .onWrite results => q.send results
  | .sendData addr data => q.offer (addr.1, data.1)
  | .start => { q with echoing := true }
  | .stop => { q with echoing := false }

end EchoQueue

namespace UdpEchoServer

open CacheState IcacheBufferUdp

variable {fd : ℕ} {s s' : UdpEchoServer}

/-- The server as a queue of packets. -/
def toQueue (s : UdpEchoServer) : EchoQueue := ⟨s.writeCache.packets, s.echoing, s.sent⟩

/-- Data that fits into a frame behind its address. -/
def Fits : EchoOp → Prop
  | .sendData _ data => data.1.length + 16 ≤ 32 * 1024
  | _ => True

/-! ## One packet -/

lemma small_echo : Extent.Small (icacheBufferUdp echoProtocal) := ⟨by decide, by decide⟩

/-- A read cache between two turns: it holds no frame and no byte. -/
structure Fresh (c : CacheState) : Prop where
  inMem : c.InMem
  block : Block c
  inside : c.extent.Inside (icacheBufferUdp echoProtocal)
  frames : c.frames = []
  rest : c.rest = []

lemma fresh_init : Fresh CacheState.init :=
  ⟨inMem_init, block_init, ⟨le_rfl, le_rfl, Nat.zero_le _⟩, rfl, rfl⟩

/-- A packet of up to 32 KiB less 16 bytes is received and popped after its address. -/
lemma Fresh.receive {c : CacheState} (h : Fresh c) (d : Datagram echoProtocal) :
    ∃ c₁ c₂, readFromFd echoProtocal c (.datagram d) = some ((d.payload.1.length : ℤ), c₁) ∧
      popFrame c₁ = some (d.frame, c₂) ∧ Fresh c₂ := by
  have hpayload : d.payload.1.length ≤ 32752 := d.payload_le
  have hkept : c.extent.kept = 0 := by
    rw [extent_of_frames_nil h.inMem h.frames, h.rest]
    rfl
  obtain ⟨haddr, hinside⟩ := Extent.takes_of_le small_echo h.inside 16 (by decide)
    (by rw [hkept]; decide)
  have hkept₁ : (c.extent.append (icacheBufferUdp echoProtocal) 16).kept = 16 := by
    rw [Extent.append]
    split_ifs <;> simp [hkept]
  obtain ⟨hdata, hinside₁⟩ := Extent.takes_of_le small_echo hinside d.payload.1.length
    (by show d.payload.1.length ≤ 32768; omega)
    (by rw [hkept₁]; show 16 + d.payload.1.length ≤ 655360; omega)
  obtain ⟨c₁, hread, hmem₁, hb₁, hparsed, hext⟩ :=
    readFromFd_of_takes (d := d) (fun _ _ _ => rfl) h.inMem h.block haddr hdata
  have hlen : (c.rest ++ d.frame).length ≤ echoProtocal.maxFrameSize := by
    show _ ≤ 32768
    rw [h.rest, List.nil_append, Datagram.frame, List.length_append, d.addr_length]
    omega
  rw [h.rest, List.nil_append] at hparsed
  cases hparsed with
  | invalid hlt _ _ =>
    rw [h.rest, List.nil_append] at hlen
    exact absurd hlen (not_le.mpr hlt)
  | frame _ hframes hrest =>
    rw [h.frames, List.nil_append] at hframes
    obtain ⟨c₂, hpop, hmem₂, hsame, hframes₂⟩ := popFrame_spec hmem₁
    have hblock : SameBlock c₁ c₂ := by
      rw [hsame]
      exact ⟨rfl, rfl, rfl⟩
    have hrest₂ : c₂.rest = [] := by
      rw [hsame]
      exact hrest
    have hnil : c₂.frames = [] := by rw [hframes₂, hframes, List.tail_cons]
    rw [hframes, List.headD_cons] at hpop
    refine ⟨c₁, c₂, hread, hpop, hmem₂, hb₁.of_sameBlock hblock, ?_, hnil, hrest₂⟩
    have hinside₂ : c₁.extent.Inside (icacheBufferUdp echoProtocal) := by
      rw [hext hlen]
      exact hinside₁
    rw [extent_of_frames_nil hmem₂ hnil, hrest₂, hblock.cacheSize, hblock.writeOffset]
    exact ⟨Nat.zero_le _, hinside₂.write_le, hinside₂.size_le⟩

/-! ## The invariant -/

/-- A server whose read cache is empty, and which watches for read events. -/
structure Running (fd : ℕ) (s : UdpEchoServer) : Prop where
  reads : Fresh s.readCache
  queued : Queued (icacheBufferUdp echoProtocal) s.writeCache
  addressed : ∀ f ∈ s.writeCache.frames, 16 ≤ f.length
  synced : s.scheduler.watched fd = s.events
  reading : s.events.reading = true

/-- It asks for write events as long as packets wait. -/
structure Serving (fd : ℕ) (s : UdpEchoServer) : Prop extends Running fd s where
  writing : s.events.writing = true ↔ s.writeCache.frames ≠ []

lemma serving_init (fd : ℕ) (scheduler : RunningRegistry) : Serving fd (init fd scheduler) where
  reads := fresh_init
  queued := queued_init
  addressed := by simp [init, syncChannel, CacheState.init, CacheState.frames]
  synced := by simp [init, syncChannel]
  reading := rfl
  writing := by simp [init, syncChannel, CacheState.init, CacheState.frames, Toggle.apply,
    Interest.noneEvent]

/-- The channel is synced with other write events. -/
lemma Running.sync (h : Running fd s) {t : Toggle} (ht : (t.apply s.events).reading = true) :
    Running fd (syncChannel fd t s) :=
  ⟨h.reads, h.queued, h.addressed, by simp [syncChannel], ht⟩

lemma frames_eq_nil_iff {c : CacheState} : c.frames = [] ↔ c.frameCacheMap = [] :=
  List.map_eq_nil_iff

/-- After an append write events are asked for, as they were if there are more frames. -/
lemma Serving.watch (h : Serving fd s) (s' : UdpEchoServer) (hs' : Running fd s')
    (hevents : s'.events = s.events) (hne : s'.writeCache.frames ≠ [])
    (hmore : s'.writeCache.frameCacheMap.length ≠ 1 → s.writeCache.frames ≠ []) :
    Serving fd (if s'.writeCache.frameCacheMap.length = 1 then syncChannel fd .enablWriting s'
      else s') := by
  split_ifs with hone
  · exact ⟨hs'.sync hs'.reading, iff_of_true rfl hne⟩
  · refine ⟨hs', iff_of_true ?_ hne⟩
    rw [hevents]
    exact h.writing.mpr (hmore hone)

lemma packetOf_append {addr data : List UInt8} (haddr : addr.length = 16) :
    packetOf (addr ++ data) = (addr, data) := by
  rw [packetOf, ← haddr, List.take_left, List.drop_left]

/-- The bytes that wait, as packets. -/
lemma sum_size_packets (c : CacheState) :
    (c.packets.map Packet.size).sum = c.frames.flatten.length := by
  rw [CacheState.packets, List.map_map, List.length_flatten]
  refine congrArg List.sum (List.map_congr_left fun f _ => ?_)
  simp only [Function.comp_apply, Packet.size, packetOf, List.length_take, List.length_drop]
  omega

/-- A frame is appended or refused, as the queue takes it or not. -/
lemma Serving.appendFrame (h : Serving fd s) {addr : List UInt8} (haddr : addr.length = 16)
    (data : List UInt8) (hlen : data.length + 16 ≤ 32 * 1024) :
    ∃ ret s' frame, toBytes (addr ++ data) = some frame ∧
      UdpEchoServer.appendFrame fd frame s = some (ret, s') ∧ Serving fd s' ∧
      s'.toQueue = s.toQueue.offer (addr, data) := by
  have hframe : (addr ++ data).length = data.length + 16 := by
    rw [List.length_append, haddr, Nat.add_comm]
  have hlt : (addr ++ data).length < 2 ^ 32 := by omega
  have hbytes : toBytes (addr ++ data) = some ⟨addr ++ data, hlt⟩ := dif_pos hlt
  have hsize : (s.toQueue.waiting.map Packet.size).sum + Packet.size (addr, data) =
      s.writeCache.frames.flatten.length + (addr ++ data).length := by
    rw [toQueue, sum_size_packets, List.length_append]
    rfl
  have hle : (addr ++ data).length ≤ (icacheBufferUdp echoProtocal).protocal.maxFrameSize := by
    rw [hframe]
    exact hlen
  -- the sync does not change the queue
  have hsync : ∀ (c : CacheState) (s₁ : UdpEchoServer),
      (if c.frameCacheMap.length = 1 then syncChannel fd .enablWriting s₁ else s₁).toQueue =
        s₁.toQueue := fun c s₁ => by split_ifs <;> rfl
  by_cases hroom : s.writeCache.frames.flatten.length + (addr ++ data).length ≤ 20 * 32 * 1024
  · have hne : addr ++ data ≠ [] := List.ne_nil_of_length_pos (by omega)
    obtain ⟨c, happ, hqueued, hframes⟩ := h.queued.append small_echo
      ⟨addr ++ data, hlt⟩ hne hle hroom
    dsimp only at hframes
    have haddressed : ∀ f ∈ c.frames, 16 ≤ f.length := by
      intro f hf
      rw [hframes] at hf
      rcases List.mem_append.mp hf with hf | hf
      · exact h.addressed f hf
      · rw [List.mem_singleton.mp hf]
        omega
    refine ⟨_, _, _, hbytes, by rw [UdpEchoServer.appendFrame, happ, Option.map_some], ?_, ?_⟩
    · refine h.watch { s with writeCache := c }
        ⟨h.reads, hqueued, haddressed, h.synced, h.reading⟩ rfl (by simp [hframes]) ?_
      intro hone hnil
      have hlength := congrArg List.length hframes
      rw [hnil, CacheState.frames, List.length_map] at hlength
      exact hone hlength
    · rw [hsync, EchoQueue.offer, if_pos (hsize.trans_le hroom)]
      refine congrArg (EchoQueue.mk · s.echoing s.sent) ?_
      rw [CacheState.packets, hframes, List.map_append, List.map_singleton, packetOf_append haddr]
      rfl
  · have happ := h.queued.refuse small_echo ⟨addr ++ data, hlt⟩ hle (not_le.mp hroom)
    have hne : s.writeCache.frames ≠ [] := by
      intro hnil
      rw [hnil, List.flatten_nil, List.length_nil] at hroom
      omega
    refine ⟨_, _, _, hbytes, by rw [UdpEchoServer.appendFrame, happ, Option.map_some], ?_, ?_⟩
    · exact h.watch s h.toRunning rfl hne fun _ => hne
    · rw [hsync, EchoQueue.offer, if_neg (hsize ▸ hroom)]

/-! ## The operations -/

/-- The loop of `on_read`. -/
lemma Serving.readLoop (n : ℕ) (turns : List Turn) (h : Serving fd s) :
    ∃ s', UdpEchoServer.readLoop fd n turns s = some s' ∧ Serving fd s' ∧
      s'.toQueue = s.toQueue.receive n turns := by
  induction turns generalizing n s with
  | nil =>
    refine ⟨s, ?_, h, ?_⟩
    · cases n <;> rfl
    · cases n <;> rfl
  | cons t turns ih =>
    cases n with
    | zero => exact ⟨s, rfl, h, rfl⟩
    | succ n =>
      obtain ⟨result, switched⟩ := t
      cases result with
      | datagram d =>
        obtain ⟨c₁, c₂, hread, hpop, hfresh⟩ := h.reads.receive d
        have hpos : ¬ ((d.payload.1.length : ℤ) ≤ 0) := by
          have := d.payload_pos
          omega
        have hload : Lib.load d.frame 0 16 = some (Lib.slice d.frame 0 16) := by
          refine Lib.load_eq_some.mpr ⟨?_, rfl⟩
          rw [Datagram.frame, List.length_append, d.addr_length]
          omega
        -- the flag as this turn finds it
        have hserving : Serving fd { s with
            readCache := c₂, echoing := switched.getD s.echoing } :=
          ⟨⟨hfresh, h.queued, h.addressed, h.synced, h.reading⟩, h.writing⟩
        by_cases hecho : switched.getD s.echoing = true
        · have hpayload : d.payload.1.length ≤ 32752 := d.payload_le
          obtain ⟨ret, s₁, frame, hbytes, happ, hs₁, hqueue⟩ := hserving.appendFrame
            d.addr_length d.payload.1 (by omega)
          have hturn : turn fd ⟨.datagram d, switched⟩ s = some (true, s₁) := by
            simp only [turn, hread, Option.bind_some, if_neg hpos, hpop, hload, hecho, if_true]
            rw [Datagram.frame, hbytes, Option.bind_some]
            simp only [hecho] at happ
            rw [happ, Option.map_some]
          obtain ⟨s', hs', hserve, hq⟩ := ih n hs₁
          refine ⟨s', ?_, hserve, ?_⟩
          · rw [UdpEchoServer.readLoop, hturn, Option.bind_some]
            exact hs'
          · rw [hq, hqueue, EchoQueue.receive]
            simp [toQueue, hecho]
        · have hturn : turn fd ⟨.datagram d, switched⟩ s = some (true, { s with
              readCache := c₂, echoing := switched.getD s.echoing }) := by
            simp only [turn, hread, Option.bind_some, if_neg hpos, hpop, hload, hecho]
            simp
          obtain ⟨s', hs', hserve, hq⟩ := ih n hserving
          refine ⟨s', ?_, hserve, ?_⟩
          · rw [UdpEchoServer.readLoop, hturn, Option.bind_some]
            exact hs'
          · rw [hq, EchoQueue.receive]
            simp [toQueue, hecho]
      | empty | again | error => exact ⟨s, rfl, h, rfl⟩

/-- The loop of `on_write`. -/
lemma Running.writeLoop (results : List UdpSend) (h : Running fd s) :
    ∃ s', UdpEchoServer.writeLoop results s = some s' ∧ Running fd s' ∧
      s'.events = s.events ∧ (s.writeCache.frames = [] → s'.writeCache.frames = []) ∧
      s'.toQueue = s.toQueue.send results := by
  induction results generalizing s with
  | nil => exact ⟨s, rfl, h, rfl, id, rfl⟩
  | cons result results ih =>
    rw [UdpEchoServer.writeLoop]
    by_cases hmap : s.writeCache.frameCacheMap = []
    · rw [if_pos hmap]
      have hwaiting : s.toQueue.waiting = [] := by
        rw [toQueue, CacheState.packets, frames_eq_nil_iff.mpr hmap, List.map_nil]
      refine ⟨s, rfl, h, rfl, id, ?_⟩
      cases result <;> simp [EchoQueue.send, hwaiting]
    · rw [if_neg hmap]
      have hne : s.writeCache.frames ≠ [] := fun hnil => hmap (frames_eq_nil_iff.mp hnil)
      obtain ⟨p, ps, hps⟩ : ∃ p ps, s.writeCache.packets = p :: ps :=
        List.exists_cons_of_ne_nil fun hnil => hne (List.map_eq_nil_iff.mp hnil)
      have hwaiting : s.toQueue.waiting = p :: ps := hps
      obtain ⟨c, hqueued, hframes, hsent, hagain, herror⟩ :=
        sendCacheByFd_spec h.queued h.addressed hps
      cases result with
      | again =>
        refine ⟨s, ?_, h, rfl, id, rfl⟩
        rw [hagain, Option.bind_some]
        exact congrArg (fun out => some { s with sent := out }) (List.append_nil s.sent)
      | error =>
        refine ⟨s, ?_, h, rfl, id, rfl⟩
        rw [herror, Option.bind_some]
        exact congrArg (fun out => some { s with sent := out }) (List.append_nil s.sent)
      | sent =>
        rw [hsent, Option.bind_some]
        by_cases hnil : p.2 = []
        · refine ⟨{ s with sent := s.sent ++ [p] }, ?_,
            ⟨h.reads, h.queued, h.addressed, h.synced, h.reading⟩, rfl, id, ?_⟩
          · simp [hnil]
          · simp [EchoQueue.send, hnil, toQueue, hps]
        · have hpos : 0 < p.2.length := List.length_pos_of_ne_nil hnil
          have haddressed : ∀ f ∈ c.frames, 16 ≤ f.length := by
            rw [hframes]
            exact fun f hf => h.addressed f (List.mem_of_mem_tail hf)
          obtain ⟨s', hs', hrunning, hevents, -, hq⟩ :=
            ih (s := { s with writeCache := c, sent := s.sent ++ [p] })
              ⟨h.reads, hqueued, haddressed, h.synced, h.reading⟩
          refine ⟨s', ?_, hrunning, hevents, fun hnil => absurd hnil hne, ?_⟩
          · rw [if_pos hpos]
            dsimp only
            rw [if_neg (by omega)]
            exact hs'
          · have hpackets : c.packets = ps := by
              rw [CacheState.packets, hframes, List.map_tail]
              exact congrArg List.tail hps
            rw [hq, EchoQueue.send, hwaiting]
            dsimp only
            rw [if_neg hnil]
            exact congrArg (fun w => EchoQueue.send results ⟨w, s.echoing, s.sent ++ [p]⟩) hpackets

lemma Serving.onWrite (results : List UdpSend) (h : Serving fd s) :
    ∃ s', UdpEchoServer.onWrite fd results s = some s' ∧ Serving fd s' ∧
      s'.toQueue = s.toQueue.send results := by
  obtain ⟨s₁, hs₁, hrunning, hevents, hempty, hqueue⟩ := h.toRunning.writeLoop results
  refine ⟨_, by rw [UdpEchoServer.onWrite, hs₁, Option.map_some], ?_, ?_⟩
  · split_ifs with hmap
    · refine ⟨hrunning.sync hrunning.reading, iff_of_false (by simp [syncChannel, Toggle.apply]) ?_⟩
      exact fun hne => hne (frames_eq_nil_iff.mpr hmap)
    · have hne : s₁.writeCache.frames ≠ [] := fun hnil => hmap (frames_eq_nil_iff.mp hnil)
      refine ⟨hrunning, iff_of_true ?_ hne⟩
      rw [hevents]
      exact h.writing.mpr fun hnil => hne (hempty hnil)
  · rw [← hqueue]
    split_ifs <;> rfl

/-- An operation does to the caches what it does to the queue. -/
lemma Serving.step (h : Serving fd s) {op : EchoOp} (hop : Fits op) :
    ∃ s', UdpEchoServer.step fd s op = some s' ∧ Serving fd s' ∧
      s'.toQueue = s.toQueue.step op := by
  cases op with
  | onRead turns => exact h.readLoop 10 turns
  | onWrite results => exact h.onWrite results
  | sendData addr data =>
    obtain ⟨ret, s', frame, hbytes, happ, hs', hqueue⟩ := h.appendFrame addr.2 data.1 hop
    refine ⟨s', ?_, hs', hqueue⟩
    rw [UdpEchoServer.step, sendData, hbytes, Option.bind_some, happ, Option.map_some]
  | start =>
    exact ⟨_, rfl, ⟨⟨h.reads, h.queued, h.addressed, h.synced, h.reading⟩, h.writing⟩, rfl⟩
  | stop =>
    exact ⟨_, rfl, ⟨⟨h.reads, h.queued, h.addressed, h.synced, h.reading⟩, h.writing⟩, rfl⟩

lemma Serving.run (ops : List EchoOp) (h : Serving fd s) (hops : ∀ op ∈ ops, Fits op) :
    ∃ t, Lib.run (UdpEchoServer.step fd) s ops = some t ∧ Serving fd t ∧
      t.toQueue = ops.foldl EchoQueue.step s.toQueue := by
  induction ops generalizing s with
  | nil => exact ⟨s, rfl, h, rfl⟩
  | cons op ops ih =>
    obtain ⟨s', hs', hserve, hqueue⟩ := h.step (hops op List.mem_cons_self)
    obtain ⟨t, ht, htserve, htqueue⟩ := ih hserve fun o ho => hops o (List.mem_cons_of_mem _ ho)
    refine ⟨t, Lib.run_cons_eq_some.mpr ⟨s', hs', ht⟩, htserve, ?_⟩
    rw [htqueue, hqueue, List.foldl_cons]

/-! ## A run of the server -/

/-- **The server is a queue.** In every sequence of operations, wherever `start` and `stop` come
in, every `memcpy` stays inside its block, what the caches hold and what was sent is what the
queue of packets holds and has sent, and write events are watched for if and only if a packet
waits. -/
theorem echo_server_is_queue (fd : ℕ) (scheduler : RunningRegistry) (ops : List EchoOp)
    (hops : ∀ op ∈ ops, Fits op) :
    ∃ t, Lib.run (step fd) (init fd scheduler) ops = some t ∧
      t.toQueue = ops.foldl EchoQueue.step EchoQueue.init ∧
      (t.scheduler.watched fd).reading = true ∧
      ((t.scheduler.watched fd).writing = true ↔ t.writeCache.packets ≠ []) := by
  obtain ⟨t, ht, hserve, hqueue⟩ := (serving_init fd scheduler).run ops hops
  refine ⟨t, ht, hqueue, ?_, ?_⟩
  · rw [hserve.synced]
    exact hserve.reading
  · rw [hserve.synced, hserve.writing, CacheState.packets]
    exact not_congr List.map_eq_nil_iff.symm

/-- A packet of two bytes comes while the server is echoing and is sent back. -/
def echoRun : List EchoOp :=
  [.start, .onRead [⟨.datagram
      { addr := ⟨List.replicate 16 7, by simp⟩
        payload := ⟨[1, 2], by simp⟩
        addr_length := by simp
        payload_pos := by simp
        payload_le := by decide }, none⟩], .onWrite [.sent]]

lemma fits_echoRun : ∀ op ∈ echoRun, Fits op := by
  intro op hop
  simp only [echoRun, List.mem_cons, List.not_mem_nil, or_false] at hop
  rcases hop with rfl | rfl | rfl <;> trivial

theorem echo_server_is_queue_once :
    ∃ t, Lib.run (step 3) (init 3 .init) echoRun = some t ∧
      t.toQueue = echoRun.foldl EchoQueue.step EchoQueue.init ∧
      (t.scheduler.watched 3).reading = true ∧
      ((t.scheduler.watched 3).writing = true ↔ t.writeCache.packets ≠ []) :=
  echo_server_is_queue 3 .init echoRun fits_echoRun

end UdpEchoServer

end SignalEventLoop.Network
