/-
# The write cache of a UDP socket

`IcacheBufferUdp::sendCacheByFd` (`imp/network/icache_buffer_udp.cpp`) gives the first frame to
`sendto`: the `sockaddr_in` in front is the destination, the rest is the packet.  `sendto` takes
a packet as a whole or not at all, and the frame is popped when it returns more than 0.  A
packet without bytes is sent and stays in the cache.

A cache to which only `appendFrame` adds bytes is a queue with a bound on its bytes: as long as
no frame is longer than `max_frame_size`, every block is large enough, and a frame is refused
exactly when `max_cache_size` bytes would not hold the frames that wait and it.
-/
import SignalEventLoop.Network.CacheUdp

namespace SignalEventLoop.Network

/-! ## The sizes -/

namespace Extent

variable {B : IcacheBuffer} {e : Extent} {len : ℕ}

/-- The bytes that are kept end at the write offset, inside of the block. -/
structure Inside (B : IcacheBuffer) (e : Extent) : Prop where
  kept_le : e.kept ≤ e.write
  write_le : e.write ≤ e.size
  size_le : e.size ≤ B.maxCacheSize

/-- The sizes of a cache are so small that no sum of them wraps. -/
structure Small (B : IcacheBuffer) : Prop where
  maxCacheSize_lt : B.maxCacheSize < 2 ^ 31
  maxFrameSize_lt : B.protocal.maxFrameSize < 2 ^ 28

lemma refuses_iff (hB : Small B) (h : e.Inside B) (hlen : len ≤ B.protocal.maxFrameSize) :
    e.Refuses B len ↔ B.maxCacheSize < e.kept + len := by
  obtain ⟨hM, hF⟩ := hB
  obtain ⟨hkept, hwrite, hsize⟩ := h
  rw [Refuses, add32_eq (by omega), add32_eq (by omega)]
  omega

lemma takes_of_le (hB : Small B) (h : e.Inside B) (len : ℕ)
    (hlen : len ≤ B.protocal.maxFrameSize) (hroom : e.kept + len ≤ B.maxCacheSize) :
    e.Takes B len ∧ (e.append B len).Inside B := by
  have hrefuses := refuses_iff hB h hlen
  obtain ⟨hM, hF⟩ := hB
  obtain ⟨hkept, hwrite, hsize⟩ := h
  -- a new block has room for the bytes that are kept and a whole frame, or all there may be
  have hnew : e.kept + len ≤ e.newSize B len := by
    rw [newSize, add32_eq (by omega), add32_eq (by omega)]
    split_ifs <;> omega
  have hnew_le : e.newSize B len ≤ B.maxCacheSize := min_le_right _ _
  refine ⟨⟨fun href => ?_, ?_⟩, ?_⟩
  · have := hrefuses.mp href
    omega
  · rw [Fits, add32_eq (by omega), add32_eq (by omega), add32_eq (by omega)]
    split_ifs <;> omega
  · rw [append, add32_eq (by omega)]
    split_ifs with hfull
    · exact ⟨le_rfl, hnew, hnew_le⟩
    · refine ⟨?_, ?_, hsize⟩ <;> dsimp only <;> omega

end Extent

/-! ## The queue of frames -/

namespace IcacheBuffer

open CacheState

variable {B : IcacheBuffer} {s s' : CacheState}

/-- A cache that holds nothing but its frames, one behind the other. -/
structure Queued (B : IcacheBuffer) (s : CacheState) : Prop where
  inMem : s.InMem
  block : Block s
  inside : s.extent.Inside B
  kept : s.extent.kept = s.frames.flatten.length

lemma queued_init : Queued B init :=
  ⟨inMem_init, block_init, ⟨le_rfl, le_rfl, Nat.zero_le _⟩, rfl⟩

/-- The frames of a part of the map lie between its first offset and the decode offset. -/
lemma sum_frames_le {fs : List (ℕ × ℕ)} {start : ℕ}
    (hfs : ∀ f ∈ fs, start ≤ f.1 ∧ f.1 + f.2 ≤ s.decodeOffset)
    (hord : fs.Pairwise fun a b => a.1 + a.2 ≤ b.1) (hstart : start ≤ s.decodeOffset) :
    (fs.map Prod.snd).sum ≤ s.decodeOffset - start := by
  induction fs generalizing start with
  | nil => exact Nat.zero_le _
  | cons f fs ih =>
    obtain ⟨hfirst, hrest⟩ := List.pairwise_cons.mp hord
    obtain ⟨hlo, hhi⟩ := hfs f List.mem_cons_self
    have hsum : (fs.map Prod.snd).sum ≤ s.decodeOffset - (f.1 + f.2) :=
      ih (fun g hg => ⟨hfirst g hg, (hfs g (List.mem_cons_of_mem _ hg)).2⟩) hrest hhi
    rw [List.map_cons, List.sum_cons]
    omega

/-- The bytes of the frames. -/
lemma length_flatten_frames (h : s.InMem) :
    s.frames.flatten.length = (s.frameCacheMap.map Prod.snd).sum := by
  rw [List.length_flatten, CacheState.frames, List.map_map]
  refine congrArg List.sum (List.map_congr_left fun f hf => ?_)
  have := h.frames_le f hf
  have := h.decode_le
  have := h.write_le
  exact Lib.length_slice (by omega)

lemma length_flatten_frames_le (h : s.InMem) :
    s.frames.flatten.length ≤ s.decodeOffset - s.readOffset := by
  rw [length_flatten_frames h]
  exact sum_frames_le (fun f hf => ⟨h.readOffset_le_frame hf, h.frames_le f hf⟩) h.ordered
    h.readOffset_le_decode

/-- Nothing lies behind the frames. -/
lemma Queued.decode_eq (h : Queued B s) : s.decodeOffset = s.writeOffset := by
  have hle := length_flatten_frames_le h.inMem
  have hkept : s.writeOffset - s.readOffset = s.frames.flatten.length := h.kept
  have := h.inMem.readOffset_le_decode
  have := h.inMem.decode_le
  omega

/-- A frame behind other frames does not move the read offset. -/
lemma readOffset_updateFrameCache_of_ne (hne : s.frameCacheMap ≠ []) (i n : ℕ) :
    (updateFrameCache s i n).readOffset = s.readOffset := by
  obtain ⟨g, gs, hmap⟩ := List.exists_cons_of_ne_nil hne
  simp [readOffset, updateFrameCache, hmap]

/-- A frame for which there is room. -/
lemma Queued.append (hB : Extent.Small B) (h : Queued B s) (data : Bytes)
    (hne : data.1 ≠ []) (hlen : data.1.length ≤ B.protocal.maxFrameSize)
    (hroom : s.frames.flatten.length + data.1.length ≤ B.maxCacheSize) :
    ∃ s', B.appendFrame s data = some ((data.1.length : ℤ), s') ∧ Queued B s' ∧
      s'.frames = s.frames ++ [data.1] := by
  rw [← h.kept] at hroom
  obtain ⟨htakes, hinside⟩ := Extent.takes_of_le hB h.inside _ hlen hroom
  obtain ⟨s₁, happ, happended, hb₁, hext₁⟩ := appendCache_of_takes h.inMem h.block hne htakes
  have hframe : B.appendFrame s data = some ((data.1.length : ℤ),
      updateFrameCache s₁ (sub32 s₁.writeOffset data.1.length) data.1.length) := by
    rw [appendFrame, happ]
    rfl
  rcases appendFrame_cases h.inMem hframe with ⟨hneg, -⟩ | ⟨-, -, hmem, hframes⟩
  · omega
  have hkept₁ : s₁.writeOffset - s₁.readOffset = s.extent.kept + data.1.length := by
    have hkept : s₁.extent.kept = (s.extent.append B data.1.length).kept := congrArg _ hext₁
    rw [Extent.append] at hkept
    split_ifs at hkept
    · exact hkept
    · exact hkept
  -- the new frame does not move the read offset
  have hext : (updateFrameCache s₁ (sub32 s₁.writeOffset data.1.length) data.1.length).extent =
      s₁.extent := by
    have hread : (updateFrameCache s₁ (sub32 s₁.writeOffset data.1.length)
        data.1.length).readOffset = s₁.readOffset := by
      by_cases hmap : s₁.frameCacheMap = []
      · have hnone : s.frames = [] := by
          rw [← happended.frames, CacheState.frames, hmap, List.map_nil]
        have hzero : s.extent.kept = 0 := by rw [h.kept, hnone, List.flatten_nil, List.length_nil]
        have hw := happended.inMem.write_lt
        have hr := happended.inMem.readOffset_le_write
        have hnew : (updateFrameCache s₁ (sub32 s₁.writeOffset data.1.length)
            data.1.length).readOffset = sub32 s₁.writeOffset data.1.length := by
          simp [readOffset, updateFrameCache, hmap]
        rw [hnew, sub32_eq hw (by omega)]
        omega
      · exact readOffset_updateFrameCache_of_ne hmap _ _
    exact congrArg (fun r => (⟨s₁.cacheSize, s₁.writeOffset, s₁.writeOffset - r⟩ : Extent)) hread
  refine ⟨_, hframe, ⟨hmem, hb₁.of_sameBlock ⟨rfl, rfl, rfl⟩, ?_, ?_⟩, hframes⟩
  · rw [hext, hext₁]
    exact hinside
  · rw [hext, hframes, List.flatten_append, List.length_append, ← h.kept]
    exact hkept₁.trans (by simp)

/-- A frame for which there is no room. -/
lemma Queued.refuse (hB : Extent.Small B) (h : Queued B s) (data : Bytes)
    (hlen : data.1.length ≤ B.protocal.maxFrameSize)
    (hroom : B.maxCacheSize < s.frames.flatten.length + data.1.length) :
    B.appendFrame s data = some (-1, s) := by
  rw [← h.kept] at hroom
  have href := (Extent.refuses_iff hB h.inside hlen).mpr hroom
  rw [appendFrame, appendCache_of_refuses h.inMem href]
  rfl

/-- The first frame is popped. -/
lemma Queued.dropFront (h : Queued B s) {f : ℕ × ℕ} {fs : List (ℕ × ℕ)}
    (hmap : s.frameCacheMap = f :: fs) :
    Queued B ({ s with frameCacheMap := fs } : CacheState) := by
  have hmem := inMem_dropFront h.inMem hmap
  have hfirst : s.readOffset = f.1 := by simp [readOffset, hmap]
  have hle := length_flatten_frames_le hmem
  have hdec := h.decode_eq
  have hkept : s.writeOffset - f.1 = (s.frameCacheMap.map Prod.snd).sum := by
    rw [← hfirst, ← length_flatten_frames h.inMem]
    exact h.kept
  rw [hmap, List.map_cons, List.sum_cons] at hkept
  have hsum := length_flatten_frames hmem
  dsimp only at hsum hle
  have hf := h.inMem.frames_le f (by simp [hmap])
  -- the frames that are left begin behind the first one
  have hnext : f.1 + f.2 ≤ ({ s with frameCacheMap := fs } : CacheState).readOffset := by
    have hord := h.inMem.ordered
    rw [hmap] at hord
    cases hfs : fs with
    | nil => simpa [readOffset] using hf
    | cons g gs =>
      have := (List.pairwise_cons.mp hord).1 g (by simp [hfs])
      simpa [readOffset] using this
  have hread := hmem.readOffset_le_write
  dsimp only at hread
  refine ⟨hmem, h.block.of_sameBlock ⟨rfl, rfl, rfl⟩, ⟨?_, h.inside.write_le, h.inside.size_le⟩, ?_⟩
  · exact Nat.sub_le _ _
  · show s.writeOffset - ({ s with frameCacheMap := fs } : CacheState).readOffset = _
    omega

end IcacheBuffer

/-! ## Sending -/

/-- A result of `sendto`, which takes a packet as a whole. -/
inductive UdpSend where
  | sent
  /-- `EAGAIN` or `EINTR`. -/
  | again
  | error
deriving DecidableEq

/-- A packet and the `sockaddr_in` that it comes from or goes to. -/
abbrev Packet := List UInt8 × List UInt8

/-- A frame of the cache as a packet. -/
def packetOf (frame : List UInt8) : Packet := (frame.take 16, frame.drop 16)

/-- The packets of the cache. -/
def CacheState.packets (s : CacheState) : List Packet := s.frames.map packetOf

namespace IcacheBufferUdp

open CacheState IcacheBuffer

/-- `IcacheBufferUdp::sendCacheByFd`: its value, the packet that `sendto` has taken, and the
new state. -/
def sendCacheByFd (s : CacheState) (result : UdpSend) : Option (ℤ × List Packet × CacheState) :=
  match s.frameCacheMap with
  | [] => some (-1, [], s)
  | front :: rest =>
    (Lib.load s.cacheBuf front.1 16).bind fun addr =>
      (Lib.load s.cacheBuf (front.1 + 16) (sub32 front.2 16)).map fun payload =>
        match result with
        | .sent =>
          (payload.length, [(addr, payload)],
            if payload.length > 0 then { s with frameCacheMap := rest } else s)
        | .again => (-1, [], s)
        | .error => (0, [], s)

variable {B : IcacheBuffer} {s : CacheState}

/-- What `sendto` takes is the first packet of the cache. -/
lemma sendCacheByFd_spec (h : Queued B s) (haddr : ∀ f ∈ s.frames, 16 ≤ f.length) {p : Packet}
    {ps : List Packet} (hps : s.packets = p :: ps) : ∃ s', Queued B s' ∧
      s'.frames = s.frames.tail ∧
      sendCacheByFd s .sent = some ((p.2.length : ℤ), [p], if p.2.length > 0 then s' else s) ∧
      sendCacheByFd s .again = some (-1, [], s) ∧ sendCacheByFd s .error = some (0, [], s) := by
  cases hmap : s.frameCacheMap with
  | nil =>
    rw [CacheState.packets, CacheState.frames, hmap] at hps
    exact absurd hps (by simp)
  | cons f fs =>
    have hf := h.inMem.frames_le f (by simp [hmap])
    have hd := h.inMem.decode_le
    have hw := h.inMem.write_le
    have hlt := h.inMem.buf_lt
    have hlen : (Lib.slice s.cacheBuf f.1 f.2).length = f.2 := Lib.length_slice (by omega)
    have h16 : 16 ≤ f.2 := by
      rw [← hlen]
      exact haddr _ (by simp [CacheState.frames, hmap])
    obtain ⟨hp, -⟩ : packetOf (Lib.slice s.cacheBuf f.1 f.2) = p ∧ _ := by
      rw [CacheState.packets, CacheState.frames, hmap, List.map_cons, List.map_cons] at hps
      exact List.cons.inj hps
    have hload : Lib.load s.cacheBuf f.1 16 = some p.1 := by
      rw [Lib.load_eq_some, ← hp]
      refine ⟨by omega, ?_⟩
      rw [packetOf, Lib.take_slice h16]
    have hpayload : Lib.load s.cacheBuf (f.1 + 16) (sub32 f.2 16) = some p.2 := by
      rw [sub32_eq (by omega) h16, Lib.load_eq_some, ← hp]
      refine ⟨by omega, ?_⟩
      rw [packetOf, Lib.drop_slice]
    have hframes : ({ s with frameCacheMap := fs } : CacheState).frames = s.frames.tail := by
      simp [CacheState.frames, hmap]
    refine ⟨{ s with frameCacheMap := fs }, h.dropFront hmap, hframes, ?_, ?_, ?_⟩ <;>
      simp only [sendCacheByFd, hmap, hload, hpayload, Option.bind_some, Option.map_some]

end IcacheBufferUdp

end SignalEventLoop.Network
