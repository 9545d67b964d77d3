/-
# Reading an HTTP head from a connection

The `IcacheBufferStream` of a connection with a `ProtocalHttp`.  Unlike the other protocols a
`ProtocalHttp` has a state, so that the loop over the received frames passes `header_cache` on
from call to call.  After the first frame everything that follows is one frame
(`process_finished`): a chunk that ends behind the head leaves the head and the rest of the
chunk as two frames in the cache.
-/
import SignalEventLoop.Network.CacheRead
import SignalEventLoop.Network.CacheSend
import SignalEventLoop.Network.HttpHead

namespace SignalEventLoop.Network

namespace ProtocalHttp

open CacheState IcacheBuffer

/-- A `ProtocalHttp` at a call of `decodeFrame` that returns `ret`. -/
def protocalHttp (ret : ℕ × ℕ) : Protocal where
  maxCacheSize := maxCacheSize
  isStreaming := true
  maxFrameSize := maxFrameSize
  sliceSize := sliceSize
  encodeFrame := fun input => if input.1.length > maxFrameSize then noBytes else input
  decodeFrame := fun _ _ _ => ret
  maxCacheSize_lt := by decide
  maxFrameSize_lt := by decide

/-- The `IcacheBufferStream` at such a call. -/
def httpBuffer (ret : ℕ × ℕ) : IcacheBuffer := icacheBufferStream (protocalHttp ret)

/-- The `IcacheBufferStream` between the calls of `decodeFrame`. -/
def httpCache : IcacheBuffer := httpBuffer (0, 0)

/-- The loop of `IcacheBufferStream::readFromBuf`, for up to `fuel` frames. -/
def parseLoop : ℕ → StreamHttpHeader → CacheState →
    Except Fault (Bool × StreamHttpHeader × CacheState)
  | 0, _, _ => .error .noResult
  | fuel + 1, header_cache, s => do
    let (ret, header_cache) ← decodeFrame header_cache (s.cacheBuf.drop s.decodeOffset)
      (sub32 s.writeOffset s.decodeOffset)
    let (frame, s) := (httpBuffer ret).parseCache s
    if frame.2 = 0 then .ok (false, header_cache, s)
    else if frame.2 > maxFrameSize then .ok (true, header_cache, s)
    else parseLoop fuel header_cache (updateFrameCache s frame.1 frame.2)

/-- `IcacheBufferStream::readFromBuf` -/
def readFromBuf (header_cache : StreamHttpHeader) (s : CacheState) (data : Bytes) :
    Except Fault (ℤ × StreamHttpHeader × CacheState) :=
  match httpCache.appendCache s data with
  | none => .error .noResult
  | some (false, s) => .ok (-1, header_cache, s)
  | some (true, s) => do
    -- every frame takes at least one of the bytes that are not decoded yet
    let (invalid, header_cache, s) ← parseLoop (s.writeOffset - s.decodeOffset + 1) header_cache s
    .ok (if invalid then -1 else data.1.length, header_cache, s)

/-- The bytes that one call of `recv` returns. -/
abbrev Chunk := { data : List UInt8 // data ≠ [] ∧ data.length ≤ sliceSize }

/-- The bytes of a chunk, as they are passed on. -/
def Chunk.bytes (chunk : Chunk) : Bytes :=
  ⟨chunk.1, lt_of_le_of_lt chunk.2.2 (by decide)⟩

lemma Chunk.length_bytes_lt (chunk : Chunk) : chunk.bytes.1.length < 2 ^ 31 :=
  lt_of_le_of_lt chunk.2.2 (by decide)

/-- A result of `recv`. -/
inductive RecvResult where
  | data (chunk : Chunk)
  /-- `EAGAIN` or `EINTR` -/
  | again
  /-- The end of the stream, or an error. -/
  | closed

/-- `IcacheBufferStream::readFromFd` -/
def readFromFd (header_cache : StreamHttpHeader) (s : CacheState) :
    RecvResult → Except Fault (ℤ × StreamHttpHeader × CacheState)
  | .again => .ok (-1, header_cache, s)
  | .closed => .ok (0, header_cache, s)
  | .data chunk => do
    let (result, header_cache, s) ← readFromBuf header_cache s chunk.bytes
    .ok (if result < 0 then 0 else chunk.1.length, header_cache, s)

/-! ## One round of the loop -/

variable {header_cache header_cache' : StreamHttpHeader} {s s' : CacheState} {len fuel : ℕ}

/-- The memory that the decoder gets begins with the bytes that are not decoded. -/
lemma drop_decodeOffset (s : CacheState) : s.cacheBuf.drop s.decodeOffset =
    s.rest ++ (s.cacheBuf.drop s.decodeOffset).drop (s.writeOffset - s.decodeOffset) :=
  (List.take_append_drop _ _).symm

/-- A call of `decodeFrame` is counted. -/
def counted (s : CacheState) : CacheState := { s with decodeCalls := s.decodeCalls + 1 }

lemma inMem_counted (h : s.InMem) : (counted s).InMem :=
  ⟨h.buf_lt, h.decode_le, h.write_le, h.frames_le, h.ordered⟩

/-- A frame at the beginning of the bytes that are not decoded. -/
lemma updateFrameCache_first (h : s.InMem) (hlen : len ≤ s.rest.length) :
    (updateFrameCache (counted s) s.decodeOffset len).InMem ∧
      (updateFrameCache (counted s) s.decodeOffset len).frames =
        s.frames ++ [s.rest.take len] ∧
      (updateFrameCache (counted s) s.decodeOffset len).rest = s.rest.drop len := by
  obtain ⟨hmem, hframes, hrest⟩ := updateFrameCache_spec (inMem_counted h) (i := 0) (n := len)
    (by rw [zero_add]; rw [h.length_rest] at hlen; exact hlen)
  rw [zero_add] at hrest
  exact ⟨hmem, hframes, hrest⟩

lemma parseCache_first {B : IcacheBuffer} (h : s.InMem) (hdec : B.decoded s = (0, len))
    (hlen : len ≤ B.protocal.maxFrameSize) :
    B.parseCache s = ((s.decodeOffset, len), counted s) := by
  have hlt := h.write_lt
  have hle := h.decode_le
  have hdec' : B.protocal.decodeFrame s.decodeCalls (s.cacheBuf.drop s.decodeOffset)
      (s.writeOffset - s.decodeOffset) = (0, len) := hdec
  simp only [parseCache, sub32_eq hlt hle, hdec', if_neg (not_lt.mpr hlen)]
  rw [add32_eq (by omega), zero_add]
  rfl

/-- A round of the loop when the decoder finds `len` bytes, by its `header_cache`. -/
lemma parseLoop_round (h : s.InMem) (hlen : len ≤ maxFrameSize)
    (hdec : ∀ ys, decodeFrame header_cache (s.rest ++ ys) s.rest.length =
      .ok ((0, len), header_cache')) :
    parseLoop (fuel + 1) header_cache s =
      if len = 0 then .ok (false, header_cache', counted s)
      else parseLoop fuel header_cache' (updateFrameCache (counted s) s.decodeOffset len) := by
  have hlt := h.write_lt
  have hle := h.decode_le
  have hmem := hdec ((s.cacheBuf.drop s.decodeOffset).drop (s.writeOffset - s.decodeOffset))
  rw [← drop_decodeOffset, h.length_rest, ← sub32_eq hlt hle] at hmem
  have hparse : (httpBuffer (0, len)).parseCache s = ((s.decodeOffset, len), counted s) :=
    parseCache_first h rfl hlen
  rw [parseLoop, hmem]
  simp only [bind, Except.bind, hparse]
  by_cases hzero : len = 0
  · rw [if_pos hzero, if_pos hzero]
  · rw [if_neg hzero, if_neg hzero, if_neg (by omega)]

/-- The bytes behind the head become one frame. -/
lemma parseLoop_finished (fuel : ℕ) (header_cache : StreamHttpHeader) (h : s.InMem)
    (hfin : header_cache.process_finished = true) (hlen : s.rest.length ≤ maxFrameSize) :
    ∃ s', parseLoop (fuel + 2) header_cache s = .ok (false, header_cache, s') ∧ s'.InMem ∧
      SameBlock s s' ∧
      s'.frames = s.frames ++ (if s.rest = [] then [] else [s.rest]) ∧ s'.rest = [] := by
  have hdec : ∀ (t : CacheState) (ys : Text), decodeFrame header_cache (t.rest ++ ys)
      t.rest.length = .ok ((0, t.rest.length), header_cache) := by
    intro t ys
    rw [decodeFrame, if_pos hfin]
  rw [parseLoop_round h hlen (hdec s)]
  by_cases hnil : s.rest = []
  · rw [if_pos (by rw [hnil]; rfl), if_pos hnil, List.append_nil]
    exact ⟨counted s, rfl, inMem_counted h, ⟨rfl, rfl, rfl⟩, rfl, hnil⟩
  · rw [if_neg (by simpa using hnil), if_neg hnil]
    obtain ⟨hmem, hframes, hrest⟩ := updateFrameCache_first h (le_refl s.rest.length)
    rw [List.drop_length] at hrest
    rw [List.take_length] at hframes
    rw [parseLoop_round hmem (by rw [hrest]; exact Nat.zero_le _) (hdec _),
      if_pos (by rw [hrest]; rfl)]
    exact ⟨_, rfl, inMem_counted hmem, ⟨rfl, rfl, rfl⟩, hframes, hrest⟩

/-! ## Chunks -/

/-- The cache holds a part of a head, and no frame. -/
structure Waiting (part : Text) (s : CacheState) : Prop where
  sound : httpCache.Sound s
  noFrame : s.frameCacheMap = []
  rest : s.rest = part

lemma waiting_init : Waiting [] CacheState.init := ⟨sound_init, rfl, rfl⟩

variable {part head : Text} {header : StreamHttpHeader} {chunk : Chunk}

/-- The chunk is appended. -/
lemma appendCache_chunk (h : Waiting part s)
    (hfit : part.length + chunk.1.length ≤ maxCacheSize) :
    ∃ s₁, httpCache.appendCache s chunk.bytes = some (true, s₁) ∧
      Waiting (part ++ chunk.1) s₁ := by
  obtain ⟨ret, s₁, happ, hsound⟩ := appendCache_sound h.sound
    (appendFits_of_maxCacheSize_le h.sound le_rfl (by decide) chunk.length_bytes_lt)
  have hsize : s.writeOffset - s.readOffset = part.length := by
    rw [← h.rest, h.sound.inMem.length_rest, readOffset, h.noFrame]
  obtain rfl : ret = true :=
    appendCache_true h.sound.inMem happ chunk.2.1 (by rw [hsize]; exact hfit)
  obtain ⟨hfalse, -⟩ | ⟨-, -, happended⟩ := appendCache_cases h.sound.inMem happ
  · exact absurd hfalse (by simp)
  · refine ⟨s₁, happ, hsound, ?_, ?_⟩
    · have hframes := happended.frames
      simpa [CacheState.frames, h.noFrame] using hframes
    · rw [happended.rest, h.rest]
      rfl

/-- A chunk that does not complete the head is kept. -/
lemma readFromFd_part (hhead : IsHead head header) (h : Waiting part s)
    (hpre : part ++ chunk.1 <+: head) (hne : part ++ chunk.1 ≠ head) :
    ∃ s', readFromFd .init s (.data chunk) = .ok (chunk.1.length, .init, s') ∧
      Waiting (part ++ chunk.1) s' := by
  have hle := hhead.length_le
  have hlen := hpre.length_le
  rw [List.length_append] at hlen
  have hfit : part.length + chunk.1.length ≤ maxCacheSize := by
    simp only [maxFrameSize, maxCacheSize] at hle ⊢
    omega
  obtain ⟨s₁, happ, hs₁⟩ := appendCache_chunk h hfit
  have hdec : ∀ ys, decodeFrame .init (s₁.rest ++ ys) s₁.rest.length = .ok ((0, 0), .init) := by
    rw [hs₁.rest]
    exact hhead.decodeFrame_part hpre hne
  refine ⟨counted s₁, ?_, ?_⟩
  · rw [readFromFd, readFromBuf, happ]
    simp only [parseLoop_round hs₁.sound.inMem (Nat.zero_le _) hdec, if_true, bind, Except.bind,
      Bool.false_eq_true, if_false]
    rw [if_neg (by omega)]
  · exact ⟨hs₁.sound.of_sameBlock (inMem_counted hs₁.sound.inMem) rfl rfl rfl, hs₁.noFrame,
      hs₁.rest⟩

/-- A chunk that completes the head: the rest of the chunk stands behind it as a frame. -/
lemma readFromFd_head (hhead : IsHead head header) (h : Waiting part s) {extra : Text}
    (heq : part ++ chunk.1 = head ++ extra) (hextra : extra.length ≤ chunk.1.length)
    (hfit : part.length + chunk.1.length ≤ maxCacheSize) :
    ∃ s', readFromFd .init s (.data chunk) =
        .ok (chunk.1.length, { header with process_finished := true }, s') ∧
      httpCache.Sound s' ∧ s'.frames = head :: (if extra = [] then [] else [extra]) ∧
      s'.rest = [] := by
  have hle := hhead.length_le
  have hchunk := chunk.2.2
  obtain ⟨hmin, -⟩ := hhead.decoded
  simp only [sliceSize, minProtocalSize] at hchunk hmin
  obtain ⟨s₁, happ, hs₁⟩ := appendCache_chunk h hfit
  have hmem₁ := hs₁.sound.inMem
  have hrest₁ : s₁.rest = head ++ extra := hs₁.rest.trans heq
  have hlen₁ := hmem₁.length_rest
  rw [hrest₁, List.length_append] at hlen₁
  have hdec : ∀ ys, decodeFrame .init (s₁.rest ++ ys) s₁.rest.length =
      .ok ((0, head.length), { header with process_finished := true }) := by
    intro ys
    rw [hrest₁, List.append_assoc]
    exact hhead.decodeFrame_eq _ (by rw [List.length_append]; omega)
  -- the head is the first frame, and the rest of the chunk is not decoded yet
  have hlen₂ : head.length ≤ s₁.rest.length := by
    rw [hrest₁, List.length_append]
    omega
  obtain ⟨hmem₂, hframes₂, hrest₂⟩ := updateFrameCache_first hmem₁ hlen₂
  rw [hrest₁, List.drop_left] at hrest₂
  have hnone : s₁.frames = [] := by simp [CacheState.frames, hs₁.noFrame]
  rw [hrest₁, List.take_left, hnone, List.nil_append] at hframes₂
  obtain ⟨s', hloop, hmem', hblock, hframes', hrest'⟩ := parseLoop_finished
    (s₁.writeOffset - s₁.decodeOffset - 2) { header with process_finished := true } hmem₂ rfl
    (by rw [hrest₂]; simp only [maxFrameSize]; omega)
  refine ⟨s', ?_, ?_, ?_, hrest'⟩
  · rw [readFromFd, readFromBuf, happ]
    dsimp only
    rw [parseLoop_round hmem₁ hle hdec, if_neg (by omega),
      show s₁.writeOffset - s₁.decodeOffset = s₁.writeOffset - s₁.decodeOffset - 2 + 2 by omega,
      hloop]
    simp only [bind, Except.bind, Bool.false_eq_true, if_false]
    rw [if_neg (show ¬ ((chunk.bytes.1.length : ℤ) < 0) by omega)]
  · exact hs₁.sound.of_sameBlock hmem' hblock.cacheBuf hblock.cacheSize hblock.writeOffset
  · rw [hframes', hframes₂, hrest₂]
    rfl

end ProtocalHttp

end SignalEventLoop.Network
