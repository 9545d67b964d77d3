/-
# Two connections on one stream

The sockets of two `TcpConnection`s are connected to each other: what `send` takes at one end
comes out of `recv` at the other end, in order, in slices, at any time.  The slots and the
calls of `sendFrame` of both ends come in any order, a close and an error included.

When the frames are recognised by the protocol of the other end, the frames that `notifyFrame`
hands out there are the first of the frames that `sendFrame` has accepted; and while no end has
closed, a frame that has not been handed out yet is waited for by the scheduler of one of the
two ends.
-/
import SignalEventLoop.Network.TcpConnection
import SignalEventLoop.Network.ProtocalStream

namespace SignalEventLoop.Network

open SignalEventLoop.Core IcacheBuffer

/-! ## What goes through a connection -/

/-- The frame of a `notifyFrame`. -/
def TcpEffect.frame : TcpEffect → Option (List UInt8)
  | .notifyFrame frame => some frame
  | .registered | .disconnected => none

/-- The frames that a connection has handed out. -/
def TcpState.notified (s : TcpState) : List (List UInt8) := s.log.filterMap TcpEffect.frame

namespace TcpConnection

variable (C : TcpConnection)

/-- The bytes that `recv` returns until it has no more. -/
def received : List TcpRecv → List UInt8
  | .data chunk :: results => chunk.1 ++ received results
  | _ => []

/-- The bytes that `send` takes in the loop of `on_write`. -/
def written : List (List SendResult) → CacheState → List UInt8
  | [], _ => []
  | r :: results, s =>
    match C.cache.sendCacheByFd s r with
    | some (ret, out, s₁) => out ++ if ret ≤ 0 then [] else written results s₁
    | none => []

/-- The bytes that an operation takes out of the socket. -/
def bytesIn : TcpOp → List UInt8
  | .onRecv results => received results
  | _ => []

/-- The bytes that an operation puts into the socket. -/
def bytesOut (s : TcpState) : TcpOp → List UInt8
  | .onWrite results => C.written results s.writeCache
  | _ => []

/-- The frame for which `sendFrame` returns true. -/
def accepted (s : TcpState) : TcpOp → List (List UInt8)
  | .sendFrame frame =>
    match C.sendFrame frame s with
    | some (true, _) => [frame.1]
    | _ => []
  | _ => []

/-- What `recv` returns in one call: a slice, and not more. -/
def Slice (n : ℕ) : TcpRecv → Prop
  | .data chunk => chunk.1 ≠ [] ∧ chunk.1.length ≤ n
  | .again | .closed => True

instance decidableSlice (n : ℕ) : (r : TcpRecv) → Decidable (Slice n r)
  | .data chunk => inferInstanceAs (Decidable (chunk.1 ≠ [] ∧ chunk.1.length ≤ n))
  | .again | .closed => inferInstanceAs (Decidable True)

/-- What an operation takes out of the socket is the beginning of the stream, a slice at most in
each call of `recv`. -/
def Arrives (stream : List UInt8) : TcpOp → Prop
  | .onRecv results => received results <+: stream ∧ ∀ r ∈ results, Slice C.protocal.sliceSize r
  | .sendFrame _ | .onWrite _ | .onClose | .onError => True

instance decidableArrives (stream : List UInt8) : (op : TcpOp) → Decidable (C.Arrives stream op)
  | .onRecv results => inferInstanceAs
      (Decidable (received results <+: stream ∧ ∀ r ∈ results, Slice C.protocal.sliceSize r))
  | .sendFrame _ | .onWrite _ | .onClose | .onError => inferInstanceAs (Decidable True)

end TcpConnection

/-! ## The two ends -/

/-- Two connections whose sockets are connected to each other. -/
structure TcpLink where
  near : TcpConnection
  far : TcpConnection

/-- The connections, and in each direction the bytes that `send` has taken and `recv` has not
returned. -/
structure LinkState where
  near : TcpState
  far : TcpState
  toFar : List UInt8
  toNear : List UInt8

/-- An operation of one of the ends. -/
inductive LinkOp where
  | near (op : TcpConnection.TcpOp)
  | far (op : TcpConnection.TcpOp)

/-- The frame is recognised, and the cache has room for a slice behind a part of it. -/
structure Protocal.Carries (P : Protocal) (frame : List UInt8) : Prop where
  recognises : P.Recognises frame
  fits : frame.length + P.sliceSize ≤ P.maxCacheSize

/-- A protocol whose frames may be as long as the cache. -/
structure Protocal.Sized (P : Protocal) : Prop where
  framing : P.Framing
  cache_le : P.maxCacheSize ≤ P.maxFrameSize
  frame_lt : P.maxFrameSize < 2 ^ 31

namespace TcpLink

variable (L : TcpLink)

/-- Both connections have their protocol, and nothing has been sent. -/
def init (events events' : Interest) (scheduler scheduler' : RunningRegistry) : LinkState where
  near := L.near.setProtocal events scheduler
  far := L.far.setProtocal events' scheduler'
  toFar := []
  toNear := []

/-- The state after an operation. -/
def step (s : LinkState) : LinkOp → Option LinkState
  | .near op => (L.near.step s.near op).map fun near =>
      { s with
        near := near
        toFar := s.toFar ++ L.near.bytesOut s.near op
        toNear := s.toNear.drop (TcpConnection.bytesIn op).length }
  | .far op => (L.far.step s.far op).map fun far =>
      { s with
        far := far
        toNear := s.toNear ++ L.far.bytesOut s.far op
        toFar := s.toFar.drop (TcpConnection.bytesIn op).length }

/-- Only frames that the other end carries are sent. -/
def SendsCarried (L : TcpLink) : LinkOp → Prop
  | .near op => ∀ frame, op = .sendFrame frame → L.far.protocal.Carries frame.1
  | .far op => ∀ frame, op = .sendFrame frame → L.near.protocal.Carries frame.1

/-- `recv` returns the next bytes of the stream. -/
def ReadsStream (s : LinkState) : LinkOp → Prop
  | .near op => L.near.Arrives s.toNear op
  | .far op => L.far.Arrives s.toFar op

instance decidableReadsStream (s : LinkState) : (op : LinkOp) → Decidable (L.ReadsStream s op)
  | .near op => inferInstanceAs (Decidable (L.near.Arrives s.toNear op))
  | .far op => inferInstanceAs (Decidable (L.far.Arrives s.toFar op))

/-- The frames that the near end accepts. -/
def acceptedNear (s : LinkState) : LinkOp → List (List UInt8)
  | .near op => L.near.accepted s.near op
  | .far _ => []

/-- The frames that the far end accepts. -/
def acceptedFar (s : LinkState) : LinkOp → List (List UInt8)
  | .near _ => []
  | .far op => L.far.accepted s.far op

end TcpLink

/-! ## The loops of a connection -/

namespace TcpConnection

variable {C : TcpConnection} {s s' : TcpState} {c : CacheState} {fs out : List (List UInt8)}
  {more : List UInt8}

/-- When no frame is empty, the loop pops all frames. -/
lemma popLoop_of_popN (n : ℕ) {c c' : CacheState} {frames : List (List UInt8)}
    (h : popN n c = some (frames, c')) (hn : c.frameCacheMap.length = n)
    (hne : ∀ f ∈ frames, f ≠ []) : popLoop (n + 1) c = some (frames, c') := by
  induction n generalizing c frames with
  | zero =>
    obtain ⟨rfl, rfl⟩ := Prod.mk.inj (Option.some.inj h)
    have hpop : popFrame c = some ([], c) := by
      rw [popFrame, List.length_eq_zero_iff.mp hn]
    rw [popLoop, hpop, Option.bind_some]
    rfl
  | succ n ih =>
    obtain ⟨⟨f, c₁⟩, hpop, hrest⟩ := Option.bind_eq_some_iff.mp h
    obtain ⟨⟨later, c₂⟩, hlater, he⟩ := Option.map_eq_some_iff.mp hrest
    obtain ⟨rfl, rfl⟩ := Prod.mk.inj he
    have hlen : c₁.frameCacheMap.length = n := by
      obtain ⟨g, fmap, hmap⟩ := List.exists_cons_of_length_eq_add_one hn
      rw [popFrame, hmap] at hpop
      obtain ⟨_, -, hmk⟩ := Option.map_eq_some_iff.mp hpop
      obtain ⟨-, rfl⟩ := Prod.mk.inj hmk
      simpa [hmap] using hn
    have hf : f.length > 0 := List.length_pos_iff.mpr (hne f List.mem_cons_self)
    have hlater' := ih hlater hlen fun g hg => hne g (List.mem_cons_of_mem _ hg)
    rw [popLoop, hpop, Option.bind_some]
    dsimp only
    rw [if_pos hf, hlater', Option.map_some]

/-- A receiver on its stream: its block is sound, and its bytes and the ones to come are the
frames that are not handed out yet, each of which leaves room for a slice. -/
structure Receives (C : TcpConnection) (fs out : List (List UInt8)) (more : List UInt8)
    (c : CacheState) : Prop where
  carried : ∀ f ∈ fs, C.protocal.Carries f
  sound : C.cache.Sound c
  reading : Reading C.cache fs out more c

lemma receives_init (hP : C.protocal.Sized) : Receives C [] [] [] CacheState.init :=
  ⟨by simp, sound_init, reading_init hP.framing []⟩

/-- The sender has more frames. -/
lemma Receives.extend (h : Receives C fs out more c) (new : List (List UInt8))
    (hnew : ∀ f ∈ new, C.protocal.Carries f) :
    Receives C (fs ++ new) out (more ++ new.flatten) c := by
  refine ⟨?_, h.sound, h.reading.inMem, h.reading.popped, ?_, h.reading.waiting⟩
  · intro f hf
    rcases List.mem_append.mp hf with hf | hf
    · exact h.carried f hf
    · exact hnew f hf
  · obtain ⟨todo, hfs, hbytes⟩ := h.reading.pending
    refine ⟨todo ++ new, by rw [hfs, List.append_assoc], ?_⟩
    rw [← List.append_assoc, hbytes, List.flatten_append]

/-- A slice of the stream fits behind the bytes that are not a frame yet. -/
lemma Receives.slice_fits (h : Receives C fs out more c) {chunk later : List UInt8}
    (hmore : more = chunk ++ later) (hne : chunk ≠ [])
    (hlen : chunk.length ≤ C.protocal.sliceSize) :
    c.rest.length + chunk.length ≤ C.protocal.maxCacheSize := by
  obtain ⟨todo, rfl, hbytes⟩ := h.reading.pending
  cases todo with
  | nil =>
    have hnil := (List.append_eq_nil_iff.mp hbytes).2
    rw [hmore] at hnil
    exact absurd (List.append_eq_nil_iff.mp hnil).1 hne
  | cons f todo =>
    have hf := h.carried f (by simp)
    have hfits := hf.fits
    rcases Lib.frame_or_part hbytes with ⟨rest', hrest, -⟩ | ⟨hpre, -⟩
    · -- the first frame would have been popped
      have hwait := h.reading.waiting
      rw [hrest] at hwait
      have hzero := hf.recognises.isFrame.complete rest' 0 hwait
      exact absurd (List.length_eq_zero_iff.mp hzero.symm) hf.recognises.isFrame.ne_nil
    · have := hpre.length_le
      omega

/-- A slice arrives: `readFromFd` takes it, and the loop hands out the frames it completes. -/
lemma Receives.data (hP : C.protocal.Sized) {chunk : Bytes}
    (h : Receives C fs out (chunk.1 ++ more) c) (hne : chunk.1 ≠ [])
    (hlen : chunk.1.length ≤ C.protocal.sliceSize) (results : List TcpRecv) :
    ∃ new c', Receives C fs (out ++ new) more c' ∧
      C.recvLoop (.data chunk :: results) c = (C.recvLoop results c').map fun e =>
        (e.1, new ++ e.2.1, e.2.2) := by
  have hfit := h.slice_fits rfl hne hlen
  have hcache := hP.cache_le
  have hframe := hP.frame_lt
  have hrec : ∀ f ∈ fs, C.cache.protocal.Recognises f := fun f hf => (h.carried f hf).recognises
  obtain ⟨ret, c₁, happ, hkeeps⟩ := ProtocalStream.appendCache_fits (B := C.cache) hcache hframe c
    chunk h.sound h.reading.inMem hne (by rw [h.reading.data_size]; exact hfit)
    (by have : C.protocal.maxCacheSize < 2 ^ 31 := by omega
        omega)
  obtain ⟨new, c', hread, hblock, hreading, -⟩ :=
    readAndPop_spec hP.framing hrec h.reading hne hfit happ
  refine ⟨new, c', ⟨h.carried, hkeeps c' hreading.inMem hblock, hreading⟩, ?_⟩
  -- the frames that are handed out are frames of the stream, so none is empty
  obtain ⟨⟨result, c₂⟩, hbuf, hrest⟩ := Option.bind_eq_some_iff.mp hread
  obtain ⟨⟨frames, c₃⟩, hpop, he⟩ := Option.map_eq_some_iff.mp hrest
  obtain ⟨rfl, he'⟩ := Prod.mk.inj he
  obtain ⟨rfl, rfl⟩ := Prod.mk.inj he'
  obtain ⟨todo, hfs, -⟩ := hreading.pending
  have hnew : ∀ f ∈ frames, f ≠ [] := fun f hf =>
    (hrec f (by rw [hfs]; simp [hf])).isFrame.ne_nil
  have hpos : 0 < chunk.1.length := List.length_pos_iff.mpr hne
  have hfd : C.readFromFd c (.data chunk) = some ((chunk.1.length : ℤ), c₂) := by
    rw [readFromFd, hbuf, Option.map_some]
    simp
  rw [recvLoop, hfd, Option.bind_some]
  dsimp only
  rw [if_neg (by omega), if_neg (by omega), popLoop_of_popN _ hpop rfl hnew, Option.bind_some]

/-- The loop of `on_recv` on the next bytes of the stream. -/
lemma Receives.recvLoop (hP : C.protocal.Sized) (results : List TcpRecv)
    (h : Receives C fs out (received results ++ more) c)
    (hdata : ∀ r ∈ results, Slice C.protocal.sliceSize r) :
    ∃ closed new c', C.recvLoop results c = some (closed, new, c') ∧
      Receives C fs (out ++ new) more c' := by
  induction results generalizing out c with
  | nil => exact ⟨false, [], c, rfl, by simpa [received] using h⟩
  | cons r results ih =>
    cases r with
    | again => exact ⟨false, [], c, rfl, by simpa [received] using h⟩
    | closed => exact ⟨true, [], c, rfl, by simpa [received] using h⟩
    | data chunk =>
      rw [received, List.append_assoc] at h
      obtain ⟨hne, hlen⟩ := hdata (.data chunk) List.mem_cons_self
      obtain ⟨new, c₁, h₁, hloop⟩ := h.data hP hne hlen results
      obtain ⟨closed, later, c', hlater, h'⟩ := ih h₁ fun r hr =>
        hdata r (List.mem_cons_of_mem _ hr)
      refine ⟨closed, new ++ later, c', ?_, ?_⟩
      · rw [hloop, hlater, Option.map_some]
      · rw [← List.append_assoc]
        exact h'

/-- The loop of `on_write` puts bytes of the frames into the socket. -/
lemma writeLoop_spec (results : List (List SendResult)) (h : C.cache.Sound c) :
    ∃ closed c', C.writeLoop results c = some (closed, c') ∧ C.cache.Sound c' ∧
      C.written results c ++ c'.frames.flatten = c.frames.flatten := by
  induction results generalizing c with
  | nil => exact ⟨false, c, rfl, h, rfl⟩
  | cons r results ih =>
    obtain ⟨ret, out, c₁, hsend, hmem, hsame, hout⟩ :=
      sendCacheByFd_spec (B := C.cache) h.inMem r
    have h₁ : C.cache.Sound c₁ := by
      rw [hsame] at hmem ⊢
      exact h.of_sameBlock hmem rfl rfl rfl
    have hout := hout rfl
    rw [writeLoop, written, hsend]
    dsimp only
    by_cases hnil : c.frameCacheMap = []
    · rw [if_pos hnil]
      refine ⟨false, c, rfl, h, ?_⟩
      have hempty : C.cache.sendCacheByFd c r = some (-1, [], c) := by simp [sendCacheByFd, hnil]
      obtain ⟨rfl, he⟩ := Prod.mk.inj (Option.some.inj (hsend.symm.trans hempty))
      obtain ⟨rfl, -⟩ := Prod.mk.inj he
      simp
    · rw [if_neg hnil, Option.bind_some]
      dsimp only
      by_cases hneg : ret < 0
      · rw [if_pos hneg, if_pos (le_of_lt hneg), List.append_nil]
        exact ⟨false, c₁, rfl, h₁, hout⟩
      · rw [if_neg hneg]
        by_cases hzero : ret = 0
        · rw [if_pos hzero, if_pos (le_of_eq hzero), List.append_nil]
          exact ⟨true, c₁, rfl, h₁, hout⟩
        · rw [if_neg hzero, if_neg (by omega)]
          obtain ⟨closed, c', hloop, h', hrest⟩ := ih h₁
          exact ⟨closed, c', hloop, h', by rw [List.append_assoc, hrest, hout]⟩

lemma notified_frames (frames : List (List UInt8)) :
    (frames.map TcpEffect.notifyFrame).filterMap TcpEffect.frame = frames := by
  rw [List.filterMap_map]
  exact List.filterMap_some

lemma notified_onClose (s : TcpState) : (C.onClose s).notified = s.notified := by
  simp [TcpState.notified, onClose, stopChannel, TcpEffect.frame]

lemma notified_syncChannel (t : Toggle) (s : TcpState) :
    (C.syncChannel t s).notified = s.notified := by
  simp only [TcpState.notified, syncChannel, List.filterMap_append]
  split <;> simp [TcpEffect.frame]

/-- `sendFrame` queues the frame that it accepts, and nothing else. -/
lemma sendFrame_spec (hP : C.protocal.Sized) {frame : Bytes} (hlen : frame.1.length < 2 ^ 31)
    (hne : frame.1 ≠ []) (h : C.cache.Sound s.writeCache) :
    ∃ s', C.step s (.sendFrame frame) = some s' ∧ C.cache.Sound s'.writeCache ∧
      s'.readCache = s.readCache ∧ s'.notified = s.notified ∧
      s'.writeCache.frames = s.writeCache.frames ++ C.accepted s (.sendFrame frame) := by
  have hpos : frame.1.length ≠ 0 := fun h => hne (List.length_eq_zero_iff.mp h)
  obtain ⟨ret, c', happ, hsound⟩ := appendFrame_sound h
    (appendFits_of_maxCacheSize_le h hP.cache_le hP.frame_lt hlen)
  have hsend : ∃ s', C.sendFrame frame s = some (decide (ret > 0 ∧ ret = frame.1.length), s') ∧
      s'.writeCache = c' ∧ s'.readCache = s.readCache ∧ s'.notified = s.notified := by
    rw [sendFrame, if_neg hpos, if_neg (by rw [add32_eq (by omega)]; omega), happ, Option.map_some]
    refine ⟨_, rfl, ?_⟩
    split_ifs
    · exact ⟨rfl, rfl, notified_syncChannel _ _⟩
    · exact ⟨rfl, rfl, rfl⟩
  obtain ⟨s', hs', rfl, hread, hlog⟩ := hsend
  refine ⟨s', by rw [step, hs', Option.map_some], hsound, hread, hlog, ?_⟩
  rw [accepted, hs']
  rcases appendFrame_cases h.inMem happ with ⟨rfl, hsame⟩ | ⟨rfl, -, -, hframes⟩
  · rw [hsame]
    simp
  · rw [hframes, decide_eq_true (by omega)]

/-- An operation at one end: the bytes that it puts into the socket are taken from the frames
of the write cache, to which the accepted frame is added, and the read cache goes on along its
stream. -/
lemma step_spec (hP : C.protocal.Sized) {op : TcpOp} {stream : List UInt8}
    (hop : C.Arrives stream op)
    (hlen : ∀ frame, op = .sendFrame frame → frame.1 ≠ [] ∧ frame.1.length < 2 ^ 31)
    (hsound : C.cache.Sound s.writeCache)
    (hrecv : Receives C fs s.notified (stream ++ more) s.readCache) :
    ∃ s', C.step s op = some s' ∧ C.cache.Sound s'.writeCache ∧
      C.bytesOut s op ++ s'.writeCache.frames.flatten =
        s.writeCache.frames.flatten ++ (C.accepted s op).flatten ∧
      Receives C fs s'.notified (stream.drop (bytesIn op).length ++ more) s'.readCache := by
  cases op with
  | sendFrame frame =>
    obtain ⟨hne, hlt⟩ := hlen frame rfl
    obtain ⟨s', hs', hsound', hread, hlog, hframes⟩ := sendFrame_spec hP hlt hne hsound
    refine ⟨s', hs', hsound', ?_, ?_⟩
    · rw [hframes, List.flatten_append]
      rfl
    · rw [hlog, hread]
      exact hrecv
  | onRecv results =>
    obtain ⟨⟨later, hstream⟩, hslices⟩ := hop
    rw [← hstream, List.append_assoc] at hrecv
    obtain ⟨closed, new, c', hloop, hrecv'⟩ := hrecv.recvLoop hP results hslices
    have hdrop : stream.drop (received results).length = later := by
      rw [← hstream, List.drop_left]
    refine ⟨_, by rw [step, onRecv, hloop, Option.map_some], ?_⟩
    have hnotified : ({ s with readCache := c', log := s.log ++ new.map .notifyFrame } :
        TcpState).notified = s.notified ++ new := by
      simp only [TcpState.notified, List.filterMap_append, notified_frames]
    cases closed with
    | true =>
      refine ⟨hsound, by simp [bytesOut, accepted, onClose, stopChannel], ?_⟩
      simp only [if_true, notified_onClose, hnotified, bytesIn, hdrop]
      exact hrecv'
    | false =>
      refine ⟨hsound, by simp [bytesOut, accepted], ?_⟩
      simp only [Bool.false_eq_true, if_false, hnotified, bytesIn, hdrop]
      exact hrecv'
  | onWrite results =>
    obtain ⟨closed, c', hloop, hsound', hout⟩ := writeLoop_spec results hsound
    refine ⟨_, by rw [step, onWrite, hloop, Option.map_some], ?_⟩
    have hbytes : C.bytesOut s (.onWrite results) ++ c'.frames.flatten =
        s.writeCache.frames.flatten ++ (C.accepted s (.onWrite results)).flatten := by
      rw [bytesOut, hout]
      simp [accepted]
    have hrecv' : Receives C fs ({ s with writeCache := c' } : TcpState).notified
        (stream.drop (bytesIn (.onWrite results)).length ++ more) s.readCache := hrecv
    dsimp only
    split_ifs
    · exact ⟨hsound', hbytes, by rw [notified_onClose]; exact hrecv'⟩
    · exact ⟨hsound', hbytes, by rw [notified_syncChannel]; exact hrecv'⟩
    · exact ⟨hsound', hbytes, hrecv'⟩
  | onClose =>
    refine ⟨C.onClose s, rfl, hsound, by simp [bytesOut, accepted, onClose, stopChannel], ?_⟩
    rw [notified_onClose]
    exact hrecv
  | onError =>
    refine ⟨C.onError s, rfl, hsound, by simp [bytesOut, accepted, onError, stopChannel], ?_⟩
    exact (notified_onClose (C := C) s).symm ▸ hrecv

/-- The read interest stays as it is. -/
lemma step_reading {op : TcpOp} (hs : s.events.reading = true) (h : C.step s op = some s') :
    s'.events.reading = true := by
  cases op with
  | sendFrame frame =>
    obtain ⟨⟨ret, s₁⟩, hsend, rfl⟩ := Option.map_eq_some_iff.mp h
    rcases sendFrame_cases hsend with ⟨-, rfl⟩ | ⟨n, writeCache, -, -, ⟨-, rfl⟩ | ⟨-, rfl⟩⟩
    · exact hs
    · exact hs
    · exact hs
  | onRecv results =>
    obtain ⟨closed, frames, readCache, -, ⟨-, rfl⟩ | ⟨-, rfl⟩⟩ := onRecv_cases h
    · exact hs
    · exact hs
  | onWrite results =>
    obtain ⟨closed, writeCache, -, ⟨-, rfl⟩ | ⟨-, -, rfl⟩ | ⟨-, -, rfl⟩⟩ := onWrite_cases h
    · exact hs
    · exact hs
    · exact hs
  | onClose =>
    obtain rfl := Option.some.inj h
    exact hs
  | onError =>
    obtain rfl := Option.some.inj h
    exact hs

/-- What the scheduler watches, up to the first close. -/
structure Watches (C : TcpConnection) (s : TcpState) : Prop where
  follows : TcpEffect.disconnected ∈ s.log ∨ Follows C s
  reading : s.events.reading = true

lemma Watches.step {op : TcpOp} (hs : Watches C s) (h : C.step s op = some s') : Watches C s' :=
  ⟨step_follows hs.follows h, step_reading hs.reading h⟩

end TcpConnection

/-! ## Runs of the two ends -/

namespace TcpLink

open TcpConnection

variable {L : TcpLink} {s : LinkState} {sent sent' : List (List UInt8)}

/-- The frames accepted at each end are on their way to the other end, or were handed out. -/
structure Joined (L : TcpLink) (s : LinkState) (sent sent' : List (List UInt8)) : Prop where
  nearSound : L.near.cache.Sound s.near.writeCache
  farSound : L.far.cache.Sound s.far.writeCache
  toFar : Receives L.far sent s.far.notified (s.toFar ++ s.near.writeCache.frames.flatten)
    s.far.readCache
  toNear : Receives L.near sent' s.near.notified (s.toNear ++ s.far.writeCache.frames.flatten)
    s.near.readCache
  nearWatches : Watches L.near s.near
  farWatches : Watches L.far s.far

/-- The protocols of both ends have frames as long as the cache. -/
structure Sized (L : TcpLink) : Prop where
  near : L.near.protocal.Sized
  far : L.far.protocal.Sized

lemma joined_init (hL : L.Sized) (events events' : Interest)
    (scheduler scheduler' : RunningRegistry) :
    Joined L (L.init events events' scheduler scheduler') [] [] := by
  have hnew : ∀ (C : TcpConnection) (e : Interest) (r : RunningRegistry),
      (C.setProtocal e r).notified = [] := by
    intro C e r
    rw [setProtocal, notified_syncChannel]
    rfl
  refine ⟨sound_init, sound_init, ?_, ?_, ⟨Or.inr (setProtocal_follows _ _), rfl⟩,
    ⟨Or.inr (setProtocal_follows _ _), rfl⟩⟩
  · rw [init, hnew]
    exact receives_init hL.far
  · rw [init, hnew]
    exact receives_init hL.near

/-- A carried frame is neither empty nor too long for the caches. -/
lemma carried_bounds {P : Protocal} (hP : P.Sized) {frame : List UInt8} (h : P.Carries frame) :
    frame ≠ [] ∧ frame.length < 2 ^ 31 := by
  have hfits := h.fits
  have hcache := hP.cache_le
  have hframe := hP.frame_lt
  exact ⟨h.recognises.isFrame.ne_nil, by omega⟩

lemma mem_accepted {C : TcpConnection} {t : TcpState} {op : TcpOp} {f : List UInt8}
    (hf : f ∈ C.accepted t op) : ∃ frame, op = .sendFrame frame ∧ frame.1 = f := by
  cases op with
  | sendFrame frame =>
    rw [TcpConnection.accepted] at hf
    split at hf
    · exact ⟨frame, rfl, (List.mem_singleton.mp hf).symm⟩
    · exact absurd hf List.not_mem_nil
  | onRecv results => exact absurd hf List.not_mem_nil
  | onWrite results => exact absurd hf List.not_mem_nil
  | onClose => exact absurd hf List.not_mem_nil
  | onError => exact absurd hf List.not_mem_nil

/-- Every operation of either end keeps both directions. -/
lemma Joined.step (hL : L.Sized) {op : LinkOp} (h : Joined L s sent sent')
    (hsends : L.SendsCarried op) (hreads : L.ReadsStream s op) :
    ∃ s', L.step s op = some s' ∧
      Joined L s' (sent ++ L.acceptedNear s op) (sent' ++ L.acceptedFar s op) := by
  cases op with
  | near op =>
    obtain ⟨near, hstep, hsound, hbytes, hrecv⟩ := step_spec hL.near hreads
      (fun frame hop => carried_bounds hL.far (hsends frame hop)) h.nearSound h.toNear
    have hsent := h.toFar.extend (L.near.accepted s.near op) fun f hf => by
      obtain ⟨frame, hop, rfl⟩ := mem_accepted hf
      exact hsends frame hop
    have hs' : L.step s (.near op) = some { s with
        near := near
        toFar := s.toFar ++ L.near.bytesOut s.near op
        toNear := s.toNear.drop (bytesIn op).length } := by
      rw [TcpLink.step, hstep, Option.map_some]
    refine ⟨_, hs', hsound, h.farSound, ?_, ?_,
      h.nearWatches.step hstep, h.farWatches⟩
    · rw [List.append_assoc, ← hbytes, ← List.append_assoc] at hsent
      exact hsent
    · rw [acceptedFar, List.append_nil]
      exact hrecv
  | far op =>
    obtain ⟨far, hstep, hsound, hbytes, hrecv⟩ := step_spec hL.far hreads
      (fun frame hop => carried_bounds hL.near (hsends frame hop)) h.farSound h.toFar
    have hsent := h.toNear.extend (L.far.accepted s.far op) fun f hf => by
      obtain ⟨frame, hop, rfl⟩ := mem_accepted hf
      exact hsends frame hop
    have hs' : L.step s (.far op) = some { s with
        far := far
        toNear := s.toNear ++ L.far.bytesOut s.far op
        toFar := s.toFar.drop (bytesIn op).length } := by
      rw [TcpLink.step, hstep, Option.map_some]
    refine ⟨_, hs', h.nearSound, hsound, ?_, ?_,
      h.nearWatches, h.farWatches.step hstep⟩
    · rw [acceptedNear, List.append_nil]
      exact hrecv
    · rw [List.append_assoc, ← hbytes, ← List.append_assoc] at hsent
      exact hsent

lemma Joined.run (hL : L.Sized) (ops : List LinkOp) (h : Joined L s sent sent')
    (hsends : ∀ op ∈ ops, L.SendsCarried op) (hreads : Lib.AllSteps L.step L.ReadsStream s ops) :
    ∃ t, Lib.run L.step s ops = some t ∧
      Joined L t (sent ++ Lib.outputs L.step L.acceptedNear s ops)
        (sent' ++ Lib.outputs L.step L.acceptedFar s ops) := by
  induction ops generalizing s sent sent' with
  | nil => exact ⟨s, rfl, by simpa using h⟩
  | cons op ops ih =>
    obtain ⟨hread, hrest⟩ := hreads
    obtain ⟨s', hs', h'⟩ := h.step hL (hsends op List.mem_cons_self) hread
    obtain ⟨t, ht, hend⟩ := ih h' (fun o ho => hsends o (List.mem_cons_of_mem _ ho)) (hrest s' hs')
    refine ⟨t, Lib.run_cons_eq_some.mpr ⟨s', hs', ht⟩, ?_⟩
    rw [Lib.outputs_cons ops hs', Lib.outputs_cons ops hs', ← List.append_assoc,
      ← List.append_assoc]
    exact hend

/-- What one end has handed out are the first of the frames that the other end has accepted, and
all of them when there are bytes neither in the write cache nor in the stream. -/
def Delivers (accepted : List (List UInt8)) (sender : TcpState) (stream : List UInt8)
    (receiver : TcpState) : Prop :=
  receiver.notified <+: accepted ∧
    (sender.writeCache.frameCacheMap = [] → stream = [] → receiver.notified = accepted)

lemma delivers_of_receives {C : TcpConnection} {frames : List (List UInt8)}
    {sender receiver : TcpState} {stream : List UInt8}
    (h : Receives C frames receiver.notified (stream ++ sender.writeCache.frames.flatten)
      receiver.readCache) : Delivers frames sender stream receiver := by
  refine ⟨?_, fun hcache hstream => ?_⟩
  · obtain ⟨todo, hframes, -⟩ := h.reading.pending
    exact ⟨todo, hframes.symm⟩
  · have hpending := h.reading.pending
    rw [hstream, CacheState.frames, hcache] at hpending
    exact (hpending.finished (fun f hf => (h.carried f hf).recognises.isFrame)
      h.reading.waiting).1

/-- A frame that is not handed out yet is in the write cache, and the sender is woken up when the
socket takes bytes, or there are bytes in the stream, and the receiver is woken up for them. -/
def Waits (accepted : List (List UInt8)) (C : TcpConnection) (sender : TcpState)
    (stream : List UInt8) (D : TcpConnection) (receiver : TcpState) : Prop :=
  receiver.notified ≠ accepted →
    (sender.writeCache.frameCacheMap ≠ [] ∧ (sender.scheduler.watched C.fd).writing = true) ∨
      (stream ≠ [] ∧ (receiver.scheduler.watched D.fd).reading = true)

lemma waits_of_delivers {C D : TcpConnection} {frames : List (List UInt8)}
    {sender receiver : TcpState} {stream : List UInt8}
    (h : Delivers frames sender stream receiver) (hsender : Watches C sender)
    (hreceiver : Watches D receiver) (hopen : TcpEffect.disconnected ∉ sender.log)
    (hopen' : TcpEffect.disconnected ∉ receiver.log) : Waits frames C sender stream D receiver := by
  intro hne
  have hfollows := hsender.follows.resolve_left hopen
  have hfollows' := hreceiver.follows.resolve_left hopen'
  by_cases hcache : sender.writeCache.frameCacheMap = []
  · refine Or.inr ⟨fun hstream => hne (h.2 hcache hstream), ?_⟩
    rw [hfollows'.synced]
    exact hreceiver.reading
  · refine Or.inl ⟨hcache, ?_⟩
    rw [hfollows.synced]
    exact hfollows.writing hcache

end TcpLink

/-! ## The stream protocol at both ends -/

/-- Two connections with the stream protocol, whose frames may be as long as the caches; each end
has its own clock. -/
structure StreamLink where
  size : UInt32
  slice : UInt32
  nearFd : ℕ
  farFd : ℕ
  nearClock : ℕ → UInt64
  farClock : ℕ → UInt64
  size_lt : size.toNat < 2 ^ 31

namespace StreamLink

open ProtocalStream TcpLink

variable (S : StreamLink)

/-- The protocol of an end whose clock is `clock`. -/
def protocal (clock : ℕ → UInt64) : Protocal := protocalStream S.size S.size S.slice clock

def link : TcpLink where
  near := ⟨S.nearFd, S.protocal S.nearClock⟩
  far := ⟨S.farFd, S.protocal S.farClock⟩

/-- The frame is a message, packed by `packetFrame`, which leaves room for a slice in the cache and
is not outdated whenever the clock of the receiver is read. -/
structure PackedFor (clock : ℕ → UInt64) (m : Message) (frame : List UInt8) : Prop where
  packed : packetFrame S.size.toNat m.now m.header.1 m.payload = some frame
  fits : minProtocalSize + m.header.1.length + m.payload.length + (S.protocal clock).sliceSize ≤
    S.size.toNat
  fresh : ∀ call, ¬ Outdated (clock call) m.now.toNat

/-- Only packed messages are sent. -/
def SendsPacked : LinkOp → Prop
  | .near op => ∀ frame, op = .sendFrame frame → ∃ m, S.PackedFor S.farClock m frame.1
  | .far op => ∀ frame, op = .sendFrame frame → ∃ m, S.PackedFor S.nearClock m frame.1

/-- What was handed out are packed messages, and `bufferToFrame` gives the header and the payload
of each one back. -/
def ReadsMessages (clock : ℕ → UInt64) (s : TcpState) : Prop :=
  ∀ frame ∈ s.notified, ∃ m, S.PackedFor clock m frame ∧
    (bufferToFrame frame).map (fun f => (f.payload_header, f.payload)) =
      some (m.header.1, m.payload)

variable {S} {clock : ℕ → UInt64} {m : Message} {frame : List UInt8}

lemma PackedFor.frame_eq (h : S.PackedFor clock m frame) :
    frame = frameBytes m.now m.header.1 m.payload := by
  have hfits := h.fits
  have hpacked := h.packed
  rw [packetFrame_eq S.size.toNat_lt m.now (by omega)] at hpacked
  exact (Option.some.inj hpacked).symm

lemma PackedFor.carries (h : S.PackedFor clock m frame) : (S.protocal clock).Carries frame := by
  have hfits := h.fits
  rw [h.frame_eq]
  refine ⟨recognises_frameBytes m.header.2 (by omega) h.fresh, ?_⟩
  rw [length_frameBytes]
  exact hfits

lemma PackedFor.reads (h : S.PackedFor clock m frame) :
    (bufferToFrame frame).map (fun f => (f.payload_header, f.payload)) =
      some (m.header.1, m.payload) := by
  have hfits := h.fits
  have hlt := S.size.toNat_lt
  rw [h.frame_eq, bufferToFrame_frameBytes m.header.2 (by omega), Option.map_some]

lemma sized_link (S : StreamLink) : S.link.Sized where
  near := ⟨framing_protocalStream _ _ _ _, le_refl _, S.size_lt⟩
  far := ⟨framing_protocalStream _ _ _ _, le_refl _, S.size_lt⟩

lemma SendsPacked.carried {op : LinkOp} (h : S.SendsPacked op) : S.link.SendsCarried op := by
  cases op with
  | near op =>
    intro frame hop
    obtain ⟨m, hm⟩ := h frame hop
    exact hm.carries
  | far op =>
    intro frame hop
    obtain ⟨m, hm⟩ := h frame hop
    exact hm.carries

/-- The frames that an end accepts are packed messages. -/
lemma packed_of_acceptedNear {s : LinkState} {ops : List LinkOp}
    (hsends : ∀ op ∈ ops, S.SendsPacked op)
    (hframe : frame ∈ Lib.outputs S.link.step S.link.acceptedNear s ops) :
    ∃ m, S.PackedFor S.farClock m frame := by
  obtain ⟨t, op, hop, hmem⟩ := Lib.exists_of_mem_outputs hframe
  cases op with
  | near op =>
    obtain ⟨frame, rfl, rfl⟩ := mem_accepted hmem
    exact hsends _ hop frame rfl
  | far op => exact absurd hmem List.not_mem_nil

lemma packed_of_acceptedFar {s : LinkState} {ops : List LinkOp}
    (hsends : ∀ op ∈ ops, S.SendsPacked op)
    (hframe : frame ∈ Lib.outputs S.link.step S.link.acceptedFar s ops) :
    ∃ m, S.PackedFor S.nearClock m frame := by
  obtain ⟨t, op, hop, hmem⟩ := Lib.exists_of_mem_outputs hframe
  cases op with
  | near op => exact absurd hmem List.not_mem_nil
  | far op =>
    obtain ⟨frame, rfl, rfl⟩ := mem_accepted hmem
    exact hsends _ hop frame rfl

/-- A link whose slices are shorter than a frame. -/
def sample : StreamLink where
  size := 64
  slice := 8
  nearFd := 3
  farFd := 4
  nearClock := fun _ => 1500
  farClock := fun _ => 1600
  size_lt := by decide

/-- A message of three bytes, packed. -/
def sampleFrame : List UInt8 := [1, 250, 0, 2, 0, 0, 0, 1, 0, 0, 0, 0, 0, 0, 3, 232, 1, 2, 3]

/-- The frame is sent in two pieces, read in slices, and sent back from the other end. -/
def sampleOps : List LinkOp :=
  [.near (.sendFrame ⟨sampleFrame, by decide⟩), .near (.onWrite [[.sent 10, .again], [.again]]),
    .far (.onRecv [.data ⟨[1, 250, 0, 2, 0, 0, 0, 1], by decide⟩, .data ⟨[0, 0], by decide⟩,
      .again]),
    .near (.onWrite [[.sent 20]]),
    .far (.onRecv [.data ⟨[0, 0, 0, 0, 3, 232, 1, 2], by decide⟩, .data ⟨[3], by decide⟩]),
    .far (.sendFrame ⟨sampleFrame, by decide⟩)]

lemma packedFor_sampleFrame {clock : ℕ → UInt64} (h : ∀ call, ¬ Outdated (clock call) 1000) :
    sample.PackedFor clock ⟨⟨[1, 2], by decide⟩, [3], 1000⟩ sampleFrame :=
  ⟨by decide +kernel, (by decide : 16 + 2 + 1 + 8 ≤ 64), h⟩

lemma sendsPacked_sampleOps : ∀ op ∈ sampleOps, sample.SendsPacked op := by
  have hnear : ∀ frame : Bytes, frame.1 = sampleFrame →
      ∃ m, sample.PackedFor sample.farClock m frame.1 := by
    rintro frame hframe
    exact ⟨_, hframe ▸ packedFor_sampleFrame (fun _ => (by decide : ¬ Outdated 1600 1000))⟩
  have hfar : ∀ frame : Bytes, frame.1 = sampleFrame →
      ∃ m, sample.PackedFor sample.nearClock m frame.1 := by
    rintro frame hframe
    exact ⟨_, hframe ▸ packedFor_sampleFrame (fun _ => (by decide : ¬ Outdated 1500 1000))⟩
  intro op hop
  simp only [sampleOps, List.mem_cons, List.not_mem_nil, or_false] at hop
  rcases hop with rfl | rfl | rfl | rfl | rfl | rfl
  · rintro frame ⟨⟩
    exact hnear _ rfl
  · rintro frame ⟨⟩
  · rintro frame ⟨⟩
  · rintro frame ⟨⟩
  · rintro frame ⟨⟩
  · rintro frame ⟨⟩
    exact hfar _ rfl

section Runs

variable (S) (events events' : Interest) (scheduler scheduler' : RunningRegistry)

/-- The link when both connections have got their protocol. -/
def init : LinkState := S.link.init events events' scheduler scheduler'

variable (ops : List LinkOp)

/-- **Messages from end to end, in both directions.** However the calls of `sendFrame`, the slots
of both connections, their closes and errors, and the pieces that `send` takes and `recv` returns
are interleaved: no operation is undefined, and each end has handed out the first of the frames that
the other end has accepted, in order and none twice, and all of them when neither the write cache
nor the stream holds bytes; each of these frames is read as the message that was packed. -/
theorem messages_delivered (hsends : ∀ op ∈ ops, S.SendsPacked op)
    (hreads : Lib.AllSteps S.link.step S.link.ReadsStream
      (S.init events events' scheduler scheduler') ops) :
    ∃ s, Lib.run S.link.step (S.init events events' scheduler scheduler') ops = some s ∧
      Delivers (Lib.outputs S.link.step S.link.acceptedNear
        (S.init events events' scheduler scheduler') ops) s.near s.toFar s.far ∧
      Delivers (Lib.outputs S.link.step S.link.acceptedFar
        (S.init events events' scheduler scheduler') ops) s.far s.toNear s.near ∧
      S.ReadsMessages S.farClock s.far ∧ S.ReadsMessages S.nearClock s.near := by
  obtain ⟨s, hrun, hjoined⟩ := (joined_init S.sized_link events events' scheduler scheduler').run
    S.sized_link ops (fun op hop => (hsends op hop).carried) hreads
  have hfar := delivers_of_receives hjoined.toFar
  have hnear := delivers_of_receives hjoined.toNear
  refine ⟨s, hrun, hfar, hnear, fun frame hframe => ?_, fun frame hframe => ?_⟩
  · obtain ⟨m, hm⟩ := packed_of_acceptedNear hsends (hfar.1.subset hframe)
    exact ⟨m, hm, hm.reads⟩
  · obtain ⟨m, hm⟩ := packed_of_acceptedFar hsends (hnear.1.subset hframe)
    exact ⟨m, hm, hm.reads⟩

/-- The message comes through in pieces. -/
theorem messages_delivered_pieces : ∃ s, Lib.run sample.link.step
      (sample.init .noneEvent .noneEvent .init .init) sampleOps = some s ∧
    s.far.notified = [sampleFrame] ∧ s.near.notified = [] := by
  obtain ⟨s, hrun, hfar, hnear, -, -⟩ := messages_delivered sample .noneEvent .noneEvent .init .init
    sampleOps sendsPacked_sampleOps (by decide +kernel)
  have hend : (Lib.run sample.link.step (sample.init .noneEvent .noneEvent .init .init)
      sampleOps).map (fun s => (s.near.writeCache.frameCacheMap, s.toFar, s.near.notified)) =
        some ([], [], []) := by
    decide +kernel
  rw [hrun, Option.map_some, Option.some.injEq, Prod.mk.injEq, Prod.mk.injEq] at hend
  obtain ⟨hcache, hstream, hnotified⟩ := hend
  refine ⟨s, hrun, (hfar.2 hcache hstream).trans ?_, hnotified⟩
  decide +kernel

/-- **No message is forgotten.** In every such run, while no end has closed, a frame that was
accepted and not handed out has a scheduler that waits for it: the one of the sender, for write
events, with frames in the write cache, or the one of the receiver, for read events, with bytes in
the stream. -/
theorem messages_awaited (hsends : ∀ op ∈ ops, S.SendsPacked op)
    (hreads : Lib.AllSteps S.link.step S.link.ReadsStream
      (S.init events events' scheduler scheduler') ops) {s : LinkState}
    (hrun : Lib.run S.link.step (S.init events events' scheduler scheduler') ops = some s)
    (hnear : TcpEffect.disconnected ∉ s.near.log) (hfar : TcpEffect.disconnected ∉ s.far.log) :
    Waits (Lib.outputs S.link.step S.link.acceptedNear
        (S.init events events' scheduler scheduler') ops) S.link.near s.near s.toFar
          S.link.far s.far ∧
      Waits (Lib.outputs S.link.step S.link.acceptedFar
        (S.init events events' scheduler scheduler') ops) S.link.far s.far s.toNear
          S.link.near s.near := by
  obtain ⟨t, hrun', hjoined⟩ := (joined_init S.sized_link events events' scheduler scheduler').run
    S.sized_link ops (fun op hop => (hsends op hop).carried) hreads
  obtain rfl : t = s := Option.some.inj (hrun'.symm.trans hrun)
  exact ⟨waits_of_delivers (delivers_of_receives hjoined.toFar) hjoined.nearWatches
      hjoined.farWatches hnear hfar,
    waits_of_delivers (delivers_of_receives hjoined.toNear) hjoined.farWatches
      hjoined.nearWatches hfar hnear⟩

/-- At the end of the same run the frame that is sent back is awaited. -/
theorem messages_awaited_pieces : ∃ s, Lib.run sample.link.step
      (sample.init .noneEvent .noneEvent .init .init) sampleOps = some s ∧
    (s.far.scheduler.watched 4).writing = true := by
  have hend : (Lib.run sample.link.step (sample.init .noneEvent .noneEvent .init .init)
      sampleOps).map (fun s => (s.toNear, s.near.notified, s.near.log, s.far.log)) =
        some ([], [], [.registered, .registered, .registered],
          [.registered, .notifyFrame sampleFrame, .registered]) := by
    decide +kernel
  obtain ⟨s, hrun, hs⟩ := Option.map_eq_some_iff.mp hend
  obtain ⟨hstream, hs⟩ := Prod.mk.inj hs
  obtain ⟨hnotified, hs⟩ := Prod.mk.inj hs
  obtain ⟨hnear, hfar⟩ := Prod.mk.inj hs
  obtain ⟨-, hwaits⟩ := messages_awaited sample .noneEvent .noneEvent .init .init sampleOps
    sendsPacked_sampleOps (by decide +kernel) hrun (by simp [hnear]) (by simp [hfar])
  have hne : s.near.notified ≠ Lib.outputs sample.link.step sample.link.acceptedFar
      (sample.init .noneEvent .noneEvent .init .init) sampleOps := by
    rw [hnotified]
    decide +kernel
  refine ⟨s, hrun, ?_⟩
  rcases hwaits hne with ⟨-, hwriting⟩ | ⟨hbytes, -⟩
  · exact hwriting
  · exact absurd hstream hbytes

end Runs

end StreamLink

end SignalEventLoop.Network
