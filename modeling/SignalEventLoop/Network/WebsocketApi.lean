/-
# A websocket connection after the hand-off

`WebsocketApiBase` (`imp/network/websocket/websocket_api_base.cpp`) is made for the descriptor
that a helper announces.  It has caches of its own, with a `ProtocalWebsocket` of the default
sizes, and reads from the descriptor until there is nothing more.  Whatever the bytes are, its
loop returns.
-/
import SignalEventLoop.Network.WebsocketRead
import SignalEventLoop.Network.HelperRead

namespace SignalEventLoop.Network

open ProtocalHttp (RecvResult Chunk)

/-- A frame that is found lies inside of the bytes. -/
lemma inside_protocalWebsocket (M F slice : UInt32) (beyond : ℕ → ℕ → UInt8) :
    (protocalWebsocket M F slice beyond).Inside := by
  intro call mem len hlen
  have hframe : (ProtocalWebsocket.decodeFrame (beyond call) mem len).1 = 0 ∧
      (ProtocalWebsocket.decodeFrame (beyond call) mem len).2 ≤ len := by
    unfold ProtocalWebsocket.decodeFrame
    dsimp only
    split_ifs with hmin hneg hneed
    · exact ⟨rfl, Nat.zero_le _⟩
    · exact ⟨rfl, Nat.zero_le _⟩
    · exact ⟨rfl, Nat.zero_le _⟩
    · exact ⟨rfl, by omega⟩
  obtain ⟨hfirst, hle⟩ := hframe
  simp only [protocalWebsocket, hfirst]
  omega

namespace WebsocketApi

open IcacheBuffer CacheState

/-- The read cache of a `WebsocketApiBase`. -/
def apiCache (beyond : ℕ → ℕ → UInt8) : IcacheBuffer :=
  ProtocalWebsocket.websocketBuffer 10485760 10485760 1200 beyond

/-- The loop of `WebsocketApiBase::on_recv`: whether the connection stays open, the results of
`recv` that it does not ask for, and the cache.  Every frame is popped and handed on. -/
def readLoop (beyond : ℕ → ℕ → UInt8) : List RecvResult → CacheState →
    Option (Bool × List RecvResult × CacheState)
  | [], s => some (true, [], s)
  | .again :: results, s => some (true, results, s)
  | .closed :: results, s => some (false, results, s)
  | .data chunk :: results, s =>
    ((apiCache beyond).readFromBuf s chunk.bytes).bind fun (ret, s) =>
      if ret < 0 then some (false, results, s)
      else (popN s.frameCacheMap.length s).bind fun (_, s) => readLoop beyond results s

variable {beyond : ℕ → ℕ → UInt8} {s : CacheState}

/-- A chunk is read, and its frames are popped. -/
lemma readFromBuf_chunk (h : (apiCache beyond).Sound s) (chunk : Chunk) :
    ∃ ret s₁ frames s₂, (apiCache beyond).readFromBuf s chunk.bytes = some (ret, s₁) ∧
      (apiCache beyond).Sound s₁ ∧ popN s₁.frameCacheMap.length s₁ = some (frames, s₂) ∧
      (apiCache beyond).Sound s₂ := by
  have hsize : (apiCache beyond).protocal.maxFrameSize < 2 ^ 31 :=
    (by decide : (10485760 : UInt32).toNat < 2 ^ 31)
  obtain ⟨ret, s₁, hread, hs₁⟩ := readFromBuf_sound (inside_protocalWebsocket _ _ _ beyond) h
    (appendFits_of_maxCacheSize_le h le_rfl hsize chunk.length_bytes_lt)
  obtain ⟨hpop, hmem⟩ := popN_spec s₁.frameCacheMap.length hs₁.inMem rfl
  exact ⟨ret, s₁, _, _, hread, hs₁, hpop, hs₁.of_sameBlock hmem rfl rfl rfl⟩

/-- **The loop returns**, and it asks for the results in order. -/
lemma readLoop_ok (h : (apiCache beyond).Sound s) (results : List RecvResult) :
    ∃ isOpen unread s', readLoop beyond results s = some (isOpen, unread, s') ∧
      (apiCache beyond).Sound s' ∧ unread <:+ results.tail := by
  induction results generalizing s with
  | nil => exact ⟨true, [], s, rfl, h, List.suffix_refl _⟩
  | cons r results ih =>
    cases r with
    | again => exact ⟨true, results, s, rfl, h, List.suffix_refl _⟩
    | closed => exact ⟨false, results, s, rfl, h, List.suffix_refl _⟩
    | data chunk =>
      obtain ⟨ret, s₁, frames, s₂, hread, hs₁, hpop, hs₂⟩ := readFromBuf_chunk h chunk
      rw [readLoop, hread, Option.bind_some]
      dsimp only
      split_ifs
      · exact ⟨false, results, s₁, rfl, hs₁, List.suffix_refl _⟩
      · obtain ⟨isOpen, unread, s', hloop, hs', hsuffix⟩ := ih hs₂
        rw [hpop, Option.bind_some]
        exact ⟨isOpen, unread, s', hloop, hs', hsuffix.trans (List.tail_suffix _)⟩

end WebsocketApi

end SignalEventLoop.Network
