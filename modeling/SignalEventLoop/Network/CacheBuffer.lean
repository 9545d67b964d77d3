/-
# The cache buffer of a connection

`IcacheBufferBase` and `IcacheBufferStream` (`imp/network/base/icache_buffer.cpp`,
`imp/network/icache_buffer_stream.cpp`): one growing block of memory that holds received
bytes until they are complete frames, or frames until they are sent.

Offsets and lengths are `uint32_t`: natural numbers with the arithmetic `add32`, `sub32`,
`mul32`.  An operation returns `none` when it has no defined result: a `memcpy` leaves its
block, or the loop over the received frames does not end.  The protocol is a parameter: its
`decodeFrame` gets the memory from `data` on, the number of bytes it may use, and the number
of earlier calls (a protocol may read the clock).  `recv` and `send` are the environment; a
call of `sendCacheByFd` gets the list of the results of `send`.
-/
import SignalEventLoop.Lib.ByteMem
import SignalEventLoop.Lib.Run

namespace SignalEventLoop.Network

def add32 (a b : ℕ) : ℕ := (a + b) % 2 ^ 32

def sub32 (a b : ℕ) : ℕ := (a + (2 ^ 32 - b)) % 2 ^ 32

def mul32 (a b : ℕ) : ℕ := a * b % 2 ^ 32

lemma add32_eq {a b : ℕ} (h : a + b < 2 ^ 32) : add32 a b = a + b := Nat.mod_eq_of_lt h

lemma sub32_eq {a b : ℕ} (ha : a < 2 ^ 32) (hb : b ≤ a) : sub32 a b = a - b := by
  rw [sub32, show a + (2 ^ 32 - b) = (a - b) + 2 ^ 32 by omega, Nat.add_mod_right]
  exact Nat.mod_eq_of_lt (by omega)

lemma add32_lt (a b : ℕ) : add32 a b < 2 ^ 32 := Nat.mod_lt _ (by norm_num)

/-- The bytes behind a pointer that is passed with a `uint32_t` length. -/
abbrev Bytes := { data : List UInt8 // data.length < 2 ^ 32 }

/-- The bytes of a call with an empty buffer. -/
def noBytes : Bytes := ⟨[], by norm_num⟩

/-- A `ProtocalBase` object: its sizes and its virtual functions. -/
structure Protocal where
  maxCacheSize : ℕ
  isStreaming : Bool
  maxFrameSize : ℕ
  sliceSize : ℕ
  /-- `encodeFrame` of one buffer; a null frame has no bytes. -/
  encodeFrame : Bytes → Bytes
  /-- The frame offset and length for the memory from `data` on, of which `len` bytes are
  given, at the call of this number. -/
  decodeFrame : ℕ → List UInt8 → ℕ → ℕ × ℕ
  maxCacheSize_lt : maxCacheSize < 2 ^ 32
  maxFrameSize_lt : maxFrameSize < 2 ^ 32

/-- `ProtocalBase` with its own virtual functions. -/
def protocalBase (max_cache_size : UInt32) (is_streaming : Bool)
    (max_frame_size slice_size : UInt32) : Protocal where
  maxCacheSize := max_cache_size.toNat
  isStreaming := is_streaming
  maxFrameSize := max_frame_size.toNat
  sliceSize := if slice_size = 0 then 4096 else slice_size.toNat
  encodeFrame := fun input => if input.1.length > max_frame_size.toNat then noBytes else input
  decodeFrame := fun _ _ len => (0, len)
  maxCacheSize_lt := max_cache_size.toNat_lt
  maxFrameSize_lt := max_frame_size.toNat_lt

/-- The constant part of an `IcacheBufferBase`. -/
structure IcacheBuffer where
  protocal : Protocal
  maxCacheSize : ℕ
  /-- The object is an `IcacheBufferStream`. -/
  isStream : Bool
  maxCacheSize_lt : maxCacheSize < 2 ^ 32

/-- `IcacheBufferBase::IcacheBufferBase`. -/
def icacheBufferBase (P : Protocal) (max_cache_size : UInt32) : IcacheBuffer where
  protocal := P
  maxCacheSize :=
    if max_cache_size.toNat < P.maxCacheSize then P.maxCacheSize else max_cache_size.toNat
  isStream := false
  maxCacheSize_lt := by
    have := P.maxCacheSize_lt
    have := max_cache_size.toNat_lt
    split <;> assumption

/-- `IcacheBufferStream::IcacheBufferStream`, which passes the size of the protocol on. -/
def icacheBufferStream (P : Protocal) : IcacheBuffer where
  protocal := P
  maxCacheSize := P.maxCacheSize
  isStream := true
  maxCacheSize_lt := P.maxCacheSize_lt

/-- The variable part of an `IcacheBufferBase`. -/
structure CacheState where
  /-- The block of memory; no block is there in the beginning. -/
  cacheBuf : List UInt8
  cacheSize : ℕ
  writeOffset : ℕ
  decodeOffset : ℕ
  /-- The offsets and lengths of the frames. -/
  frameCacheMap : List (ℕ × ℕ)
  /-- The number of calls of `decodeFrame` so far. -/
  decodeCalls : ℕ
deriving DecidableEq

namespace CacheState

/-- A new buffer. -/
def init : CacheState := ⟨[], 0, 0, 0, [], 0⟩

/-- The first byte that is still needed. -/
def readOffset (s : CacheState) : ℕ :=
  match s.frameCacheMap with
  | [] => s.decodeOffset
  | f :: _ => f.1

/-- `IcacheBufferBase::resize`. -/
def resize (s : CacheState) (new_size : ℕ) : Option CacheState := do
  let read_offset := s.readOffset
  let data_size := sub32 s.writeOffset read_offset
  let kept ← Lib.load s.cacheBuf read_offset data_size
  let buf ← Lib.store (List.replicate (add32 new_size 1) 0) 0 kept
  some { s with
    cacheBuf := buf
    cacheSize := new_size
    writeOffset := sub32 s.writeOffset read_offset
    decodeOffset := sub32 s.decodeOffset read_offset
    frameCacheMap := s.frameCacheMap.map fun f => (sub32 f.1 read_offset, f.2) }

end CacheState

namespace IcacheBuffer

variable (B : IcacheBuffer)

/-- The size that `appendCache` asks `resize` for. -/
def newSize (s : CacheState) (len : ℕ) : ℕ :=
  let data_size := sub32 s.writeOffset s.readOffset
  let available_size := sub32 s.cacheSize (sub32 s.writeOffset s.readOffset)
  let new_size :=
    if available_size > mul32 10 len then add32 data_size B.protocal.maxFrameSize
    else add32 s.cacheSize B.protocal.maxFrameSize
  if new_size > B.maxCacheSize then B.maxCacheSize else new_size

/-- The end of `appendCache`: the data is copied behind the cached bytes. -/
def copyIn (s : CacheState) (data : Bytes) : Option CacheState :=
  (Lib.store s.cacheBuf s.writeOffset data.1).map fun buf =>
    { s with cacheBuf := buf, writeOffset := add32 s.writeOffset data.1.length }

/-- `IcacheBufferBase::appendCache`. -/
def appendCache (s : CacheState) (data : Bytes) : Option (Bool × CacheState) :=
  let len := data.1.length
  if len = 0 then some (false, s)
  else if add32 len s.writeOffset > s.cacheSize then
    let data_size := sub32 s.writeOffset s.readOffset
    if add32 data_size len > B.maxCacheSize then some (false, s)
    else (s.resize (B.newSize s len)).bind fun s₁ => (copyIn s₁ data).map fun s₂ => (true, s₂)
  else (copyIn s data).map fun s₁ => (true, s₁)

/-- `IcacheBufferBase::parseCache`. -/
def parseCache (s : CacheState) : (ℕ × ℕ) × CacheState :=
  let ret := B.protocal.decodeFrame s.decodeCalls (s.cacheBuf.drop s.decodeOffset)
    (sub32 s.writeOffset s.decodeOffset)
  let decode_offset :=
    if ret.2 > B.protocal.maxFrameSize then
      add32 s.decodeOffset (sub32 ret.2 B.protocal.maxFrameSize)
    else s.decodeOffset
  ((add32 ret.1 decode_offset, ret.2),
    { s with decodeOffset := decode_offset, decodeCalls := s.decodeCalls + 1 })

/-- `IcacheBufferBase::updateFrameCache`. -/
def updateFrameCache (s : CacheState) (frame_offset frame_len : ℕ) : CacheState :=
  { s with
    frameCacheMap := s.frameCacheMap ++ [(frame_offset, frame_len)]
    decodeOffset := add32 frame_offset frame_len }

/-- The loop of `readFromBuf`, for up to `fuel` frames; the flag tells whether it ended at
data that is no frame. -/
def parseLoop : ℕ → CacheState → Option (Bool × CacheState)
  | 0, _ => none
  | fuel + 1, s =>
    let ((frame_offset, frame_len), s₁) := B.parseCache s
    if frame_len = 0 then some (false, s₁)
    else if frame_len > B.protocal.maxFrameSize then some (true, s₁)
    else parseLoop fuel (updateFrameCache s₁ frame_offset frame_len)

/-- `readFromBuf` of `IcacheBufferBase`, which goes on after invalid data, and of
`IcacheBufferStream`, which treats it as an error. -/
def readFromBuf (s : CacheState) (data : Bytes) : Option (ℤ × CacheState) :=
  (B.appendCache s data).bind fun (ret, s₁) =>
    if ret then
      -- every frame takes at least one of the bytes that are not decoded yet
      (B.parseLoop (s₁.writeOffset - s₁.decodeOffset + 1) s₁).map fun (invalid, s₂) =>
        (if B.isStream && invalid then -1 else data.1.length, s₂)
    else some (-1, s₁)

/-- `IcacheBufferBase::popFrame`; no bytes when there is no frame. -/
def popFrame (s : CacheState) : Option (List UInt8 × CacheState) :=
  match s.frameCacheMap with
  | [] => some ([], s)
  | f :: rest =>
    (Lib.load s.cacheBuf f.1 f.2).map fun frame => (frame, { s with frameCacheMap := rest })

/-- `IcacheBufferBase::appendFrame`. -/
def appendFrame (s : CacheState) (data : Bytes) : Option (ℤ × CacheState) :=
  (B.appendCache s data).map fun (ret, s₁) =>
    if ret then
      (data.1.length,
        updateFrameCache s₁ (sub32 s₁.writeOffset data.1.length) data.1.length)
    else (-1, s₁)

/-- `IcacheBufferBase::appendRawData`. -/
def appendRawData (s : CacheState) (data : Bytes) : Option (ℤ × CacheState) :=
  B.appendFrame s (B.protocal.encodeFrame data)

/-- A result of `send`. -/
inductive SendResult where
  /-- Some of the bytes are accepted, and never more than were passed. -/
  | sent (n : ℕ)
  /-- `EAGAIN` or `EINTR`. -/
  | again
  | error
deriving DecidableEq

/-- How the loop over `send` ends. -/
inductive SendEnd where
  /-- The frame is sent, or `send` has to wait. -/
  | done
  /-- `sendCacheByFd` returns 0. -/
  | closed
deriving DecidableEq

/-- The loop of `IcacheBufferBase::sendCacheByFd`, on a copy of the front frame.  A list of
results that has come to its end stands for `EAGAIN`. -/
def sendLoopBase (buf : List UInt8) :
    ℕ × ℕ → List UInt8 → List SendResult → Option (SendEnd × (ℕ × ℕ) × List UInt8)
  | frame, out, results =>
    if frame.2 = 0 then some (.done, frame, out)
    else
      match results with
      | [] | .again :: _ => some (.done, frame, out)
      | .error :: _ => some (.closed, frame, out)
      | .sent n :: results =>
        let send_size :=
          if frame.2 > B.protocal.sliceSize then B.protocal.sliceSize else frame.2
        let send_ret := min n send_size
        (Lib.load buf frame.1 send_size).bind fun bytes =>
          let out := out ++ bytes.take send_ret
          if frame.2 ≠ send_ret ∧ B.protocal.isStreaming = false then some (.closed, frame, out)
          else sendLoopBase buf (add32 frame.1 send_ret, sub32 frame.2 send_ret) out results

/-- The loop of `IcacheBufferStream::sendCacheByFd`, on the front frame itself. -/
def sendLoopStream (buf : List UInt8) :
    ℕ × ℕ → List UInt8 → List SendResult → Option (SendEnd × (ℕ × ℕ) × List UInt8)
  | frame, out, results =>
    if frame.2 = 0 then some (.done, frame, out)
    else
      match results with
      | [] | .again :: _ => some (.done, frame, out)
      | .error :: _ => some (.closed, frame, out)
      | .sent n :: results =>
        let send_ret := min n frame.2
        (Lib.load buf frame.1 frame.2).bind fun bytes =>
          if send_ret = 0 then some (.closed, frame, out)
          else
            sendLoopStream buf (add32 frame.1 send_ret, sub32 frame.2 send_ret)
              (out ++ bytes.take send_ret) results

/-- `sendCacheByFd`: its value, the bytes that `send` has accepted, and the new state. -/
def sendCacheByFd (s : CacheState) (results : List SendResult) :
    Option (ℤ × List UInt8 × CacheState) :=
  match s.frameCacheMap with
  | [] => some (-1, [], s)
  | front :: rest =>
    (if B.isStream then sendLoopStream s.cacheBuf front [] results
      else B.sendLoopBase s.cacheBuf front [] results).map fun (e, frame, out) =>
        -- only `IcacheBufferStream` keeps the progress in a frame
        let front' := if B.isStream then frame else front
        match e with
        | .closed => (0, out, { s with frameCacheMap := front' :: rest })
        | .done =>
          (if out.length = 0 then -1 else out.length, out,
            { s with frameCacheMap := if frame.2 = 0 then rest else front' :: rest })

/-! ## Runs of operations -/

/-- The operations of a cache buffer. -/
inductive CacheOp where
  | readFromBuf (data : Bytes)
  | appendFrame (data : Bytes)
  | appendRawData (data : Bytes)
  | popFrame
  | sendCacheByFd (results : List SendResult)

/-- The state after an operation. -/
def step (s : CacheState) : CacheOp → Option CacheState
  | .readFromBuf data => (B.readFromBuf s data).map Prod.snd
  | .appendFrame data => (B.appendFrame s data).map Prod.snd
  | .appendRawData data => (B.appendRawData s data).map Prod.snd
  | .popFrame => (popFrame s).map Prod.snd
  | .sendCacheByFd results => (B.sendCacheByFd s results).map fun e => e.2.2

end IcacheBuffer

end SignalEventLoop.Network
