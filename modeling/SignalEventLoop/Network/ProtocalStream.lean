/-
# The stream protocol

`ProtocalStream` (`imp/network/protocal_stream.cpp`): a frame has a header of 16 bytes
(version, check code, two lengths and a time stamp, all most significant byte first), and
then the header and the payload of the user, masked with the bytes of the time stamp.  The
receiver drops a frame whose time stamp is more than five minutes old.

`platform::localToBe16` and its companions followed by `memcpy` are `Lib.toBE`; the clock is
a parameter.
-/
import SignalEventLoop.Network.CacheRead
import SignalEventLoop.Network.CacheSend
import SignalEventLoop.Lib.BigEndian

namespace SignalEventLoop.Network

namespace ProtocalStream

/-- `PROTOCAL_STREAM_VERSION`. -/
def version : UInt8 := 1

/-- `PROTOCAL_STREAM_MAX_TIME_DIFF`, in milliseconds. -/
def maxTimeDiff : ℕ := 1000 * 5 * 60

/-- `ProtocalStream::minProtocalSize`. -/
def minProtocalSize : ℕ := 16

structure StreamFrameHeader where
  version : ℕ
  reserved : ℕ
  check_code : UInt8
  header_length : ℕ
  payload_length : ℕ
  timestamp : ℕ
deriving DecidableEq

/-- A frame whose header and payload were found and unmasked. -/
structure StreamFrame where
  header : StreamFrameHeader
  payload_header : List UInt8
  payload : List UInt8
deriving DecidableEq

/-- `ProtocalStream::caculateCheckcode`. -/
def caculateCheckcode (header payload : List UInt8) : UInt8 :=
  let sum := payload.foldl (· + ·) (header.foldl (· + ·) 0)
  UInt8.ofNat (0x100 - sum.toNat)

/-- `ProtocalStream::encryptPayload`. -/
def encryptPayload (mask data : List UInt8) : List UInt8 := Lib.xorMask mask data

/-- `ProtocalStream::encodeFrame`; `none` when the sum of the lengths wraps, so that the
inputs do not fit into the buffer.  Inputs behind the seventh only count. -/
def encodeFrame (max_frame_size : ℕ) (input_list : List (List UInt8)) : Option (List UInt8) :=
  let total_len := input_list.foldl (fun n i => add32 n i.length) 0
  match input_list with
  | version :: check_code :: header_length :: payload_length :: timestamp :: header :: payload ::
      ignored =>
    if total_len > max_frame_size then some []
    else if total_len < input_list.flatten.length then none
    else some (version ++ check_code ++ header_length ++ payload_length ++ timestamp ++
      encryptPayload timestamp (header ++ payload) ++ List.replicate ignored.flatten.length 0)
  | _ => some []

/-- `ProtocalStream::packetFrame` when the clock reads `now`. -/
def packetFrame (max_frame_size : ℕ) (now : UInt64) (header payload : List UInt8) :
    Option (List UInt8) :=
  encodeFrame max_frame_size [[version], [caculateCheckcode header payload],
    Lib.toBE 2 header.length, Lib.toBE 4 payload.length, Lib.toBE 8 now.toNat, header, payload]

/-- `ProtocalStream::decodeFrameHeader`. -/
def decodeFrameHeader (data : List UInt8) : StreamFrameHeader where
  version := (data.getD 0 0).toNat % 16
  reserved := (data.getD 0 0).toNat / 16
  check_code := data.getD 1 0
  header_length := Lib.ofBE (Lib.slice data 2 2)
  payload_length := Lib.ofBE (Lib.slice data 4 4)
  timestamp := Lib.ofBE (Lib.slice data 8 8)

/-- The length of a frame with this header, a `uint32_t`. -/
def StreamFrameHeader.size (h : StreamFrameHeader) : ℕ :=
  add32 (add32 minProtocalSize h.header_length) h.payload_length

/-- The time stamp is too old at the time `now`. -/
def Outdated (now : UInt64) (timestamp : ℕ) : Prop :=
  timestamp < now.toNat ∧ now.toNat - timestamp > maxTimeDiff

instance decidableOutdated (now : UInt64) (timestamp : ℕ) : Decidable (Outdated now timestamp) :=
  inferInstanceAs (Decidable (_ ∧ _))

/-- `ProtocalStream::decodeFrame` when the clock reads `now`. -/
def decodeFrame (max_frame_size : ℕ) (now : UInt64) (data : List UInt8) (len : ℕ) : ℕ × ℕ :=
  if len < minProtocalSize then (0, 0)
  else
    let header := decodeFrameHeader data
    let need_size := header.size
    if header.version ≠ version.toNat ∨ header.reserved ≠ 0 ∨ need_size > max_frame_size ∨
        Outdated now header.timestamp then (0, add32 max_frame_size len)
    else if need_size > len then (0, 0)
    else (0, need_size)

/-- `ProtocalStream::bufferToFrame`; `none` stands for false. -/
def bufferToFrame (buf : List UInt8) : Option StreamFrame :=
  if buf.length < minProtocalSize then none
  else
    let header := decodeFrameHeader buf
    if header.size ≠ buf.length then none
    else
      let decode_mask := Lib.toBE 8 header.timestamp
      let data := encryptPayload decode_mask
        (Lib.slice buf minProtocalSize (header.payload_length + header.header_length))
      let payload_header := data.take header.header_length
      let payload := data.drop header.header_length
      if caculateCheckcode payload_header payload ≠ header.check_code then none
      else some ⟨header, payload_header, payload⟩

end ProtocalStream

/-- A `ProtocalStream`; at the call `i` of `decodeFrame` the clock reads `clock i`. -/
def protocalStream (max_cache_size max_frame_size slice_size : UInt32) (clock : ℕ → UInt64) :
    Protocal where
  maxCacheSize := max_cache_size.toNat
  isStreaming := true
  maxFrameSize := max_frame_size.toNat
  sliceSize := if slice_size = 0 then 1200 else slice_size.toNat
  encodeFrame := fun _ => noBytes
  decodeFrame := fun call => ProtocalStream.decodeFrame max_frame_size.toNat (clock call)
  maxCacheSize_lt := max_cache_size.toNat_lt
  maxFrameSize_lt := max_frame_size.toNat_lt

namespace ProtocalStream

/-! ## The header -/

/-- The sixteen bytes of the header. -/
def headerBytes (check_code : UInt8) (header_length payload_length timestamp : ℕ) : List UInt8 :=
  version :: check_code :: (Lib.toBE 2 header_length ++ (Lib.toBE 4 payload_length ++
    Lib.toBE 8 timestamp))

@[simp] lemma length_headerBytes (c : UInt8) (hl pl ts : ℕ) :
    (headerBytes c hl pl ts).length = minProtocalSize := by
  simp [headerBytes, minProtocalSize]

/-- The header is read from the first sixteen bytes. -/
lemma decodeFrameHeader_take (data : List UInt8) {n : ℕ} (hn : minProtocalSize ≤ n) :
    decodeFrameHeader (data.take n) = decodeFrameHeader data := by
  unfold minProtocalSize at hn
  have hslice : ∀ off len, off + len ≤ 16 →
      Lib.slice (data.take n) off len = Lib.slice data off len := by
    intro off len h
    rw [Lib.slice, Lib.slice, List.drop_take, List.take_take, min_eq_left (by omega)]
  have hget : ∀ i, i < 16 → (data.take n).getD i 0 = data.getD i 0 := by
    intro i hi
    rw [List.getD_eq_getElem?_getD, List.getD_eq_getElem?_getD, List.getElem?_take_of_lt (by omega)]
  simp only [decodeFrameHeader, hslice 2 2 (by norm_num), hslice 4 4 (by norm_num),
    hslice 8 8 (by norm_num), hget 0 (by norm_num), hget 1 (by norm_num)]

lemma decodeFrameHeader_headerBytes {c : UInt8} {hl pl ts : ℕ} (hhl : hl < 2 ^ 16)
    (hpl : pl < 2 ^ 32) (hts : ts < 2 ^ 64) (body : List UInt8) :
    decodeFrameHeader (headerBytes c hl pl ts ++ body) = ⟨version.toNat, 0, c, hl, pl, ts⟩ := by
  have h2 : Lib.slice (headerBytes c hl pl ts ++ body) 2 2 = Lib.toBE 2 hl := by
    simp [Lib.slice, headerBytes]
  have h4 : Lib.slice (headerBytes c hl pl ts ++ body) 4 4 = Lib.toBE 4 pl := by
    simp [Lib.slice, headerBytes]
  have h8 : Lib.slice (headerBytes c hl pl ts ++ body) 8 8 = Lib.toBE 8 ts := by
    simp [Lib.slice, headerBytes, List.drop_append, List.drop_of_length_le]
  rw [decodeFrameHeader, h2, h4, h8, Lib.ofBE_toBE (by norm_num; omega),
    Lib.ofBE_toBE (by norm_num; omega), Lib.ofBE_toBE (by norm_num; omega)]
  simp [headerBytes, version]

/-! ## Packed frames -/

/-- The bytes of a packed frame. -/
def frameBytes (now : UInt64) (header payload : List UInt8) : List UInt8 :=
  headerBytes (caculateCheckcode header payload) header.length payload.length now.toNat ++
    encryptPayload (Lib.toBE 8 now.toNat) (header ++ payload)

lemma length_frameBytes (now : UInt64) (header payload : List UInt8) :
    (frameBytes now header payload).length =
      minProtocalSize + header.length + payload.length := by
  simp [frameBytes, encryptPayload, Nat.add_assoc]

/-- A frame that is not too long is packed. -/
lemma packetFrame_eq {F : ℕ} (hF : F < 2 ^ 32) (now : UInt64) {header payload : List UInt8}
    (hlen : minProtocalSize + header.length + payload.length ≤ F) :
    packetFrame F now header payload = some (frameBytes now header payload) := by
  unfold minProtocalSize at hlen
  have htotal : [[version], [caculateCheckcode header payload], Lib.toBE 2 header.length,
      Lib.toBE 4 payload.length, Lib.toBE 8 now.toNat, header, payload].foldl
        (fun n (i : List UInt8) => add32 n i.length) 0 = 16 + header.length + payload.length := by
    simp only [List.foldl_cons, List.foldl_nil, List.length_singleton, Lib.length_toBE]
    simp only [add32]
    omega
  rw [packetFrame, encodeFrame, htotal]
  rw [if_neg (by omega), if_neg (by simp; omega)]
  simp [frameBytes, headerBytes, version]

section
variable {F : ℕ} {now : UInt64} {header payload : List UInt8}

lemma decodeFrameHeader_frameBytes (hh : header.length < 2 ^ 16) (hp : payload.length < 2 ^ 32)
    (rest : List UInt8) : decodeFrameHeader (frameBytes now header payload ++ rest) =
      ⟨version.toNat, 0, caculateCheckcode header payload, header.length, payload.length,
        now.toNat⟩ := by
  rw [frameBytes, List.append_assoc]
  exact decodeFrameHeader_headerBytes hh hp now.toNat_lt _

/-- The answer of `decodeFrame` when at least the header of a packed frame is there. -/
lemma decodeFrame_frameBytes (hF : F < 2 ^ 32) (hh : header.length < 2 ^ 16)
    (hlen : minProtocalSize + header.length + payload.length ≤ F) {clock : UInt64}
    (hclock : ¬ Outdated clock now.toNat) (rest : List UInt8) {mem : List UInt8} {n : ℕ}
    (hn : minProtocalSize ≤ n)
    (hmem : mem.take n = (frameBytes now header payload ++ rest).take n) :
    (decodeFrame F clock mem n).2 =
      if minProtocalSize + header.length + payload.length > n then 0
      else minProtocalSize + header.length + payload.length := by
  -- the header lies in the bytes that have arrived
  have hheader : decodeFrameHeader mem = ⟨version.toNat, 0, caculateCheckcode header payload,
      header.length, payload.length, now.toNat⟩ := by
    rw [← decodeFrameHeader_take mem hn, hmem, decodeFrameHeader_take _ hn]
    exact decodeFrameHeader_frameBytes hh (by omega) rest
  have hsize : (decodeFrameHeader mem).size =
      minProtocalSize + header.length + payload.length := by
    rw [hheader, StreamFrameHeader.size]
    dsimp only
    rw [add32_eq (a := minProtocalSize) (by omega), add32_eq (by omega)]
  rw [decodeFrame, if_neg (by omega)]
  dsimp only
  rw [hsize, if_neg]
  · split_ifs <;> rfl
  · rw [hheader]
    simp only [ne_eq, not_true_eq_false, false_or, not_or]
    exact ⟨by omega, hclock⟩

/-- The protocol recognises a packed frame whose time stamp is in the window. -/
lemma recognises_frameBytes {M F slice : UInt32} {clock : ℕ → UInt64}
    (hh : header.length < 2 ^ 16)
    (hlen : minProtocalSize + header.length + payload.length ≤ F.toNat)
    (hclock : ∀ call, ¬ Outdated (clock call) now.toNat) :
    (protocalStream M F slice clock).Recognises (frameBytes now header payload) := by
  have hF := F.toNat_lt
  have hsize := length_frameBytes now header payload
  refine ⟨⟨?_, ?_, ?_⟩, by rw [hsize]; exact hlen⟩
  · intro hnil
    rw [hnil] at hsize
    simp [minProtocalSize] at hsize
    omega
  · rintro rest n ⟨call, mem, hmem, rfl⟩
    have hle : minProtocalSize ≤ (frameBytes now header payload ++ rest).length := by
      rw [List.length_append]
      omega
    have hdec := decodeFrame_frameBytes hF hh hlen (hclock call) rest hle
      (by rw [hmem, List.take_length])
    rw [if_neg (by rw [List.length_append]; omega)] at hdec
    exact hdec.trans hsize.symm
  · rintro p n hpre hne ⟨call, mem, hmem, rfl⟩
    have hlt : p.length < (frameBytes now header payload).length :=
      lt_of_le_of_ne hpre.length_le fun he => hne (hpre.eq_of_length he)
    by_cases hsmall : p.length < minProtocalSize
    · -- not even the header is there
      show (decodeFrame F.toNat (clock call) mem p.length).2 = 0
      rw [decodeFrame, if_pos hsmall]
    · have hdec : (decodeFrame F.toNat (clock call) mem p.length).2 = _ :=
        decodeFrame_frameBytes hF hh hlen (hclock call) [] (not_lt.mp hsmall)
          (by rw [hmem, List.append_nil]; exact List.prefix_iff_eq_take.mp hpre)
      rw [if_pos (by omega)] at hdec
      exact hdec

lemma framing_protocalStream (M F slice : UInt32) (clock : ℕ → UInt64) :
    (protocalStream M F slice clock).Framing := by
  refine ⟨fun call mem len => ?_, ?_⟩
  · show (decodeFrame F.toNat (clock call) mem len).1 = 0
    unfold decodeFrame
    dsimp only
    split_ifs <;> rfl
  · rintro n ⟨call, mem, -, rfl⟩
    rfl

/-- A packed frame can be read: the header and the payload come back. -/
lemma bufferToFrame_frameBytes (hh : header.length < 2 ^ 16)
    (hlen : minProtocalSize + header.length + payload.length < 2 ^ 32) :
    bufferToFrame (frameBytes now header payload) =
      some ⟨⟨version.toNat, 0, caculateCheckcode header payload, header.length, payload.length,
        now.toNat⟩, header, payload⟩ := by
  have hsize := length_frameBytes now header payload
  have hheader : decodeFrameHeader (frameBytes now header payload ++ []) = _ :=
    decodeFrameHeader_frameBytes hh (by omega) []
  rw [List.append_nil] at hheader
  have hneed : (decodeFrameHeader (frameBytes now header payload)).size =
      (frameBytes now header payload).length := by
    rw [hheader, StreamFrameHeader.size, hsize]
    dsimp only
    rw [add32_eq (a := minProtocalSize) (by omega), add32_eq (by omega)]
  -- the bytes behind the header are masked with the time stamp
  have hbody : Lib.slice (frameBytes now header payload) minProtocalSize
      (payload.length + header.length) =
        encryptPayload (Lib.toBE 8 now.toNat) (header ++ payload) := by
    rw [Lib.slice, frameBytes, List.drop_left' (length_headerBytes _ _ _ _)]
    refine List.take_of_length_le ?_
    simp [encryptPayload]
    omega
  rw [bufferToFrame, if_neg (by omega)]
  dsimp only
  rw [if_neg (by rw [hneed]; simp), hheader]
  dsimp only
  rw [hbody, encryptPayload, encryptPayload, Lib.xorMask_xorMask, List.take_left, List.drop_left,
    if_neg (by simp)]

end

/-! ## End to end -/

/-- What the user sends: a header, whose length is a `uint16_t`, a payload, and the clock
value at which they are packed. -/
structure Message where
  header : { l : List UInt8 // l.length < 2 ^ 16 }
  payload : List UInt8
  now : UInt64

/-- The buffer of a connection whose frames may be as long as its cache. -/
def streamBuffer (size slice : UInt32) (clock : ℕ → UInt64) : IcacheBuffer :=
  icacheBufferStream (protocalStream size size slice clock)

/-- An append to a buffer whose frames may be as long as the cache returns. -/
lemma appendCache_fits {B : IcacheBuffer} (hF : B.maxCacheSize ≤ B.protocal.maxFrameSize)
    (hlt : B.protocal.maxFrameSize < 2 ^ 31) (s : CacheState) (chunk : Bytes) (h : B.Sound s)
    (_ : s.InMem) (_ : chunk.1 ≠ [])
    (_ : s.writeOffset - s.readOffset + chunk.1.length ≤ B.maxCacheSize)
    (hlen : chunk.1.length < 2 ^ 31) :
    ∃ ret s₁, B.appendCache s chunk = some (ret, s₁) ∧
      ∀ s', s'.InMem → IcacheBuffer.SameBlock s₁ s' → B.Sound s' := by
  obtain ⟨ret, s₁, happ, h₁⟩ := IcacheBuffer.appendCache_sound h
    (IcacheBuffer.appendFits_of_maxCacheSize_le h hF hlt hlen)
  exact ⟨ret, s₁, happ, fun s' hs' hblock =>
    h₁.of_sameBlock hs' hblock.cacheBuf hblock.cacheSize hblock.writeOffset⟩

/-- **The stream protocol end to end.** Messages that fit into a frame are packed; however
the packed bytes are cut into chunks, the receiver accepts every chunk, pops exactly the
packed frames, and reads the headers and payloads of the messages from them. -/
theorem stream_end_to_end (size slice : UInt32) (hsize : size.toNat < 2 ^ 31)
    (clock : ℕ → UInt64) (msgs : List Message)
    (hlen : ∀ m ∈ msgs, minProtocalSize + m.header.1.length + m.payload.length ≤ size.toNat)
    (hclock : ∀ m ∈ msgs, ∀ call, ¬ Outdated (clock call) m.now.toNat) :
    ∃ packed : List (List UInt8),
      msgs.map (fun m => packetFrame size.toNat m.now m.header.1 m.payload) = packed.map some ∧
      ∀ chunks : List Bytes, (∀ chunk ∈ chunks, chunk.1 ≠ []) →
        (chunks.map Subtype.val).flatten = packed.flatten →
        Lib.ChunksFit packed size.toNat 0 (chunks.map Subtype.val) →
        ∃ s, Lib.run (streamBuffer size slice clock).readStep CacheState.init chunks = some s ∧
          Lib.outputs (streamBuffer size slice clock).readStep
            (streamBuffer size slice clock).popped CacheState.init chunks = packed ∧
          Lib.outputs (streamBuffer size slice clock).readStep
            (streamBuffer size slice clock).returned CacheState.init chunks =
              chunks.map (fun chunk => (chunk.1.length : ℤ)) ∧
          packed.map (fun f => (bufferToFrame f).map fun frame =>
            (frame.payload_header, frame.payload)) =
              msgs.map fun m => some (m.header.1, m.payload) := by
  refine ⟨msgs.map fun m => frameBytes m.now m.header.1 m.payload, ?_, ?_⟩
  · rw [List.map_map]
    exact List.map_congr_left fun m hm => packetFrame_eq size.toNat_lt m.now (hlen m hm)
  · intro chunks hne hflat hfit
    have hfs : ∀ f ∈ msgs.map fun m => frameBytes m.now m.header.1 m.payload,
        (protocalStream size size slice clock).Recognises f := by
      intro f hf
      obtain ⟨m, hm, rfl⟩ := List.mem_map.mp hf
      exact recognises_frameBytes m.header.2 (hlen m hm) (hclock m hm)
    have hP := framing_protocalStream size size slice clock
    have hreading := IcacheBuffer.reading_init
      (B := streamBuffer size slice clock) hP
      (msgs.map fun m => frameBytes m.now m.header.1 m.payload)
    rw [← hflat] at hreading
    have hsmall : ∀ chunk ∈ chunks, chunk.1.length < 2 ^ 31 := fun chunk hchunk =>
      lt_of_le_of_lt (Lib.length_le_of_chunksFit hfit (List.mem_map_of_mem hchunk)) hsize
    obtain ⟨s, hrun, -, hpopped, hreturned⟩ := IcacheBuffer.read_frames
      (J := (streamBuffer size slice clock).Sound) hP hfs
      (appendCache_fits (B := streamBuffer size slice clock) (le_refl _) hsize) chunks hne 0
      IcacheBuffer.sound_init hreading rfl hfit (Lib.allSteps_of_forall _ hsmall)
    refine ⟨s, hrun, hpopped, hreturned, ?_⟩
    rw [List.map_map]
    refine List.map_congr_left fun m hm => ?_
    have := hlen m hm
    rw [Function.comp_apply, bufferToFrame_frameBytes m.header.2 (by omega), Option.map_some]

/-- One message of 19 packed bytes, cut inside of its header, with the default sizes. -/
theorem stream_cut_in_header : ∃ f : List UInt8,
    packetFrame (10 * 1024 * 1024) 1000 [1, 2] [3] = some f ∧
    ∃ s, Lib.run (streamBuffer (10 * 1024 * 1024) 1200 fun _ => 1500).readStep CacheState.init
        [⟨[1, 250, 0, 2, 0], by decide⟩,
          ⟨[0, 0, 1, 0, 0, 0, 0, 0, 0, 3, 232, 1, 2, 3], by decide⟩] = some s ∧
      Lib.outputs (streamBuffer (10 * 1024 * 1024) 1200 fun _ => 1500).readStep
        (streamBuffer (10 * 1024 * 1024) 1200 fun _ => 1500).popped CacheState.init
        [⟨[1, 250, 0, 2, 0], by decide⟩,
          ⟨[0, 0, 1, 0, 0, 0, 0, 0, 0, 3, 232, 1, 2, 3], by decide⟩] = [f] := by
  let m : Message := ⟨⟨[1, 2], by decide⟩, [3], 1000⟩
  obtain ⟨packed, hpacked, hread⟩ := stream_end_to_end (10 * 1024 * 1024) 1200 (by decide)
    (fun _ => 1500) [m] (by simp [m]; decide) (by simp [m]; decide)
  have hf : [m].map (fun m => packetFrame (10 * 1024 * 1024 : UInt32).toNat m.now m.header.1
      m.payload) = [some [1, 250, 0, 2, 0, 0, 0, 1, 0, 0, 0, 0, 0, 0, 3, 232, 1, 2, 3]] := by
    decide +kernel
  obtain rfl : packed = [[1, 250, 0, 2, 0, 0, 0, 1, 0, 0, 0, 0, 0, 0, 3, 232, 1, 2, 3]] :=
    List.map_injective_iff.mpr (Option.some_injective _) (hpacked.symm.trans hf)
  obtain ⟨s, hrun, hpopped, -⟩ := hread [⟨[1, 250, 0, 2, 0], by decide⟩,
    ⟨[0, 0, 1, 0, 0, 0, 0, 0, 0, 3, 232, 1, 2, 3], by decide⟩] (by simp) (by simp)
    (by simp [Lib.ChunksFit, Lib.residue])
  exact ⟨_, by decide +kernel, s, hrun, hpopped⟩

end ProtocalStream

end SignalEventLoop.Network
