/-
# Reading websocket frames

An `IcacheBufferStream` with a `ProtocalWebsocket` that gets packed frames in chunks.  A chunk
may end inside of the length or inside of the masking key: the decoder finds nothing then.  So
what is popped depends on the chunks only in one way: `appendCache` may allocate a block that
is too small for a chunk.
-/
import SignalEventLoop.Network.CacheRead
import SignalEventLoop.Network.ProtocalWebsocket

namespace SignalEventLoop.Network.ProtocalWebsocket

open CacheState

/-- The arguments of a call of `packetFrame`, and the key that is drawn in it. -/
structure Packet where
  payload : Bytes
  use_mask : Bool
  frame_type : WSFrameType
  is_fin : Bool
  random : MaskingKey

/-- The result of the call. -/
def Packet.frame (p : Packet) : Option (List UInt8) :=
  packetFrame p.payload p.use_mask p.frame_type p.is_fin p.random

/-- The buffer of a connection. -/
def websocketBuffer (max_cache_size max_frame_size slice_size : UInt32)
    (beyond : ℕ → ℕ → UInt8) : IcacheBuffer :=
  icacheBufferStream (protocalWebsocket max_cache_size max_frame_size slice_size beyond)

variable {p : Packet} {f : List UInt8}

/-- What is found of a packed frame when `len` bytes of it and what follows have arrived. -/
lemma decodeFrame_of_frame (hf : p.frame = some f) (hn : p.payload.1.length ≠ 65536)
    (beyond : ℕ → UInt8) (rest : List UInt8) {mem : List UInt8} {len : ℕ}
    (hle : len ≤ (f ++ rest).length) (hmem : mem.take len = (f ++ rest).take len) :
    decodeFrame beyond mem len = (0, if f.length > len then 0 else f.length) := by
  obtain ⟨-, rfl⟩ := packetFrame_eq_some.mp hf
  exact decodeFrame_finalBuf beyond
    (packed_packetHeader p.payload.1.length p.use_mask p.frame_type p.is_fin p.random hn)
    p.payload.2 hle hmem

lemma recognises_of_frame {M F slice : UInt32} {beyond : ℕ → ℕ → UInt8}
    (hf : p.frame = some f) (hn : p.payload.1.length ≠ 65536) (hF : f.length ≤ F.toNat) :
    (protocalWebsocket M F slice beyond).Recognises f := by
  refine ⟨⟨?_, ?_, ?_⟩, hF⟩
  · rintro rfl
    have := (packetFrame_eq_some.mp hf).2
    simp [finalBuf] at this
  · rintro rest n ⟨call, mem, hmem, rfl⟩
    have hdec := decodeFrame_of_frame hf hn (beyond call) rest le_rfl
      (by rw [hmem, List.take_length])
    rw [if_neg (by rw [List.length_append]; omega)] at hdec
    exact congrArg Prod.snd hdec
  · rintro part n hpre hne ⟨call, mem, hmem, rfl⟩
    have hlt : part.length < f.length :=
      lt_of_le_of_ne hpre.length_le fun he => hne (hpre.eq_of_length he)
    have hdec : decodeFrame (beyond call) mem part.length = _ :=
      decodeFrame_of_frame hf hn (beyond call) [] (by rw [List.append_nil]; exact hlt.le)
      (by rw [hmem, List.append_nil]; exact List.prefix_iff_eq_take.mp hpre)
    rw [if_pos hlt] at hdec
    exact congrArg Prod.snd hdec

lemma framing_protocalWebsocket (M F slice : UInt32) (beyond : ℕ → ℕ → UInt8) :
    (protocalWebsocket M F slice beyond).Framing := by
  refine ⟨fun call mem len => ?_, ?_⟩
  · show (decodeFrame (beyond call) mem len).1 = 0
    unfold decodeFrame
    dsimp only
    split_ifs <;> rfl
  · rintro n ⟨call, mem, -, rfl⟩
    rfl

/-- **Websocket frames and chunks.** However many bytes of a packed frame and of what follows
have arrived, the decoder finds the frame when it is complete, and nothing before.  So the
packed frames are popped, in order, for every cutting of the stream into chunks, if and only
if each chunk fits into the block that `appendCache` allocates. -/
theorem websocket_chunking (max_cache_size max_frame_size slice_size : UInt32)
    (beyond : ℕ → ℕ → UInt8) (packets : List Packet) (packed : List (List UInt8))
    (hpacked : packets.map Packet.frame = packed.map some)
    (hn : ∀ p ∈ packets, p.payload.1.length ≠ 65536)
    (hF : ∀ f ∈ packed, f.length ≤ max_frame_size.toNat) :
    (∀ f ∈ packed, ∀ call mem rest len, len ≤ (f ++ rest).length →
      mem.take len = (f ++ rest).take len →
      decodeFrame (beyond call) mem len = (0, if f.length > len then 0 else f.length)) ∧
    ∀ chunks : List Bytes, (∀ chunk ∈ chunks, chunk.1 ≠ []) →
      (chunks.map Subtype.val).flatten = packed.flatten →
      Lib.ChunksFit packed max_cache_size.toNat 0 (chunks.map Subtype.val) →
      ((∃ s, Lib.run (websocketBuffer max_cache_size max_frame_size slice_size beyond).readStep
          init chunks = some s ∧
        Lib.outputs (websocketBuffer max_cache_size max_frame_size slice_size beyond).readStep
          (websocketBuffer max_cache_size max_frame_size slice_size beyond).popped init chunks =
            packed) ↔
      Lib.AllSteps (websocketBuffer max_cache_size max_frame_size slice_size beyond).readStep
        (websocketBuffer max_cache_size max_frame_size slice_size beyond).ChunkFits init
          chunks) := by
  have hframe : ∀ f ∈ packed, ∃ p : Packet, p.frame = some f ∧ p.payload.1.length ≠ 65536 := by
    intro f hf
    have hmem : some f ∈ packets.map Packet.frame := by
      rw [hpacked]
      exact List.mem_map_of_mem hf
    obtain ⟨p, hp, hpf⟩ := List.mem_map.mp hmem
    exact ⟨p, hpf, hn p hp⟩
  refine ⟨?_, fun chunks hne hflat hfit => ?_⟩
  · intro f hf call mem rest len hle hmem
    obtain ⟨p, hpf, hpn⟩ := hframe f hf
    exact decodeFrame_of_frame hpf hpn (beyond call) rest hle hmem
  · refine IcacheBuffer.read_frames_iff
      (framing_protocalWebsocket max_cache_size max_frame_size slice_size beyond) ?_ chunks hne
      hflat hfit
    intro f hf
    obtain ⟨p, hpf, hpn⟩ := hframe f hf
    exact recognises_of_frame hpf hpn (hF f hf)

/-- A masked frame that is cut inside of its masking key. -/
theorem websocket_cut_in_key :
    ∃ s, Lib.run (websocketBuffer 64 64 0 fun _ _ => 0).readStep init
        [⟨[0x82, 0x83, 9], by decide⟩, ⟨[8, 7, 6, 8, 10, 4], by decide⟩] = some s ∧
      Lib.outputs (websocketBuffer 64 64 0 fun _ _ => 0).readStep
        (websocketBuffer 64 64 0 fun _ _ => 0).popped init
        [⟨[0x82, 0x83, 9], by decide⟩, ⟨[8, 7, 6, 8, 10, 4], by decide⟩] =
          [[0x82, 0x83, 9, 8, 7, 6, 8, 10, 4]] := by
  let p : Packet := ⟨⟨[1, 2, 3], by decide⟩, true, .binary_frame, true, ⟨[9, 8, 7, 6], rfl⟩⟩
  have hp : [p].map Packet.frame = [[0x82, 0x83, 9, 8, 7, 6, 8, 10, 4]].map some := by
    decide +kernel
  refine ((websocket_chunking 64 64 0 (fun _ _ => 0) [p] _ hp (by simp [p]) (by decide)).2 _
    (by simp) (by simp) (by simp [Lib.ChunksFit, Lib.residue])).mpr ?_
  decide +kernel

/-- Five empty frames in one chunk, with `max_cache_size` 64 and `max_frame_size` 8: the ten
bytes are copied into a block of nine. -/
theorem websocket_chunk_overruns_block :
    (⟨noBytes, false, .text_frame, true, noKey⟩ : Packet).frame = some [0x81, 0] ∧
    Lib.ChunksFit (List.replicate 5 [(0x81 : UInt8), 0]) 64 0
      [(List.replicate 5 [(0x81 : UInt8), 0]).flatten] ∧
    ¬ ∃ s, Lib.run (websocketBuffer 64 8 0 fun _ _ => 0).readStep init
        [⟨(List.replicate 5 [(0x81 : UInt8), 0]).flatten, by decide⟩] = some s ∧
      Lib.outputs (websocketBuffer 64 8 0 fun _ _ => 0).readStep
        (websocketBuffer 64 8 0 fun _ _ => 0).popped init
        [⟨(List.replicate 5 [(0x81 : UInt8), 0]).flatten, by decide⟩] =
          List.replicate 5 [0x81, 0] := by
  refine ⟨by decide +kernel, by simp [Lib.ChunksFit, Lib.residue], ?_⟩
  rintro ⟨s, hrun, -⟩
  have hnone : Lib.run (websocketBuffer 64 8 0 fun _ _ => 0).readStep init
      [⟨(List.replicate 5 [(0x81 : UInt8), 0]).flatten, by decide⟩] = none := by
    decide +kernel
  rw [hnone] at hrun
  exact absurd hrun (by simp)

end SignalEventLoop.Network.ProtocalWebsocket
