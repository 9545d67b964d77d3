/-
# The websocket protocol

`ProtocalWebsocket` (`imp/network/websocket/protocal_websocket.cpp`) and the unmasking loop of
`WebsocketApiBase::on_recv` (`imp/network/websocket/websocket_api_base.cpp`).  A frame has two
bytes with flags and a length of seven bits, then, for a longer payload, the length in two or
eight bytes, then the masking key, if there is one, and the payload.

The length is written into two bytes up to and including 65536, which does not fit into them:
a payload of this length, and of no other, cannot be read back.

`decodeFrameHeader` looks for four bytes of a length of eight, so it may read behind the bytes
that have arrived, and even behind the block; such a byte is a parameter.
-/
import SignalEventLoop.Network.CacheBuffer
import SignalEventLoop.Lib.BigEndian

namespace SignalEventLoop.Network

namespace ProtocalWebsocket

/-- `WS_FrameType`. -/
inductive WSFrameType where
  | continuation_frame
  | text_frame
  | binary_frame
  | reserver_no_control_3_frame
  | reserver_no_control_4_frame
  | reserver_no_control_5_frame
  | reserver_no_control_6_frame
  | reserver_no_control_7_frame
  | connection_close_frame
  | ping_frame
  | pong_frame
  | reserver_control_b_frame
  | reserver_control_c_frame
  | reserver_control_d_frame
  | reserver_control_e_frame
  | reserver_control_f_frame
deriving DecidableEq

/-- The number of the type, which counts the types from zero. -/
def WSFrameType.value (t : WSFrameType) : UInt8 := UInt8.ofNat t.ctorIdx

/-- `char[4]`. -/
abbrev MaskingKey := { key : List UInt8 // key.length = 4 }

/-- A key that is not set. -/
def noKey : MaskingKey := ⟨[0, 0, 0, 0], rfl⟩

/-- The default values are the ones of the constructor. -/
structure WSFrameHeader where
  FIN : Bool := false
  RSV : UInt8 := 0
  opcode : UInt8 := 0
  MASK : Bool := false
  payload_len : UInt8 := 0
  /-- The member of the union that is in use. -/
  extended_payload_len : ℕ := 0
  padding_payload_len : ℕ := 0
  masking_key : MaskingKey := noKey
  actual_header_len : ℤ := -1
  actual_payload_len : ℤ := -1
deriving DecidableEq

/-- A frame with the memory that its `payload` points to. -/
structure StreamWebsocketFrame where
  header : WSFrameHeader
  payload : List UInt8
deriving DecidableEq

/-- `ProtocalWebsocket::minProtocalSize`. -/
def minProtocalSize : ℕ := 2

/-- The header that `packetFrame` fills in; `random` is the key that
`generate_random_mask_key` finds. -/
def packetHeader (payload_len : ℕ) (use_mask : Bool) (frame_type : WSFrameType) (is_fin : Bool)
    (random : MaskingKey) : WSFrameHeader :=
  let header : WSFrameHeader :=
    { FIN := is_fin, MASK := use_mask, opcode := frame_type.value &&& 0xf
      masking_key := if use_mask then random else noKey
      actual_header_len := 0, actual_payload_len := 0 }
  if payload_len < 126 then
    { header with payload_len := UInt8.ofNat payload_len, padding_payload_len := 0 }
  else if payload_len ≤ 65536 then
    { header with
      payload_len := 126, padding_payload_len := 2
      extended_payload_len := payload_len % 2 ^ 16 }
  else
    { header with
      payload_len := 127, padding_payload_len := 8
      extended_payload_len := payload_len }

/-- The bytes that `packetFrame` writes. -/
def finalBuf (header : WSFrameHeader) (payload : List UInt8) : List UInt8 :=
  (header.opcode ||| if header.FIN then 0x80 else 0) ::
  ((if header.MASK then 0x80 else 0) ||| header.payload_len) ::
  (Lib.toBE header.padding_payload_len header.extended_payload_len ++
    ((if header.MASK then header.masking_key.1 else []) ++
      if header.MASK then Lib.xorMask header.masking_key.1 payload else payload))

/-- `ProtocalWebsocket::packetFrame`; `none` when the size of the buffer wraps, so that the
frame does not fit into it. -/
def packetFrame (payload : Bytes) (use_mask : Bool) (frame_type : WSFrameType) (is_fin : Bool)
    (random : MaskingKey) : Option (List UInt8) :=
  let header := packetHeader payload.1.length use_mask frame_type is_fin random
  let final_buf_size := add32 (add32 (add32 2 header.padding_payload_len)
    (if header.MASK then 4 else 0)) payload.1.length
  let final_buf := finalBuf header payload.1
  if final_buf.length ≤ add32 final_buf_size 1 then some final_buf else none

/-- The length of the payload and the position behind it; `none` when it is not complete. -/
def decodePayloadLen (raw_buf : ℕ → UInt8) (data_len : ℕ) (payload_len : UInt8) :
    Option (ℕ × ℕ) :=
  if payload_len < 126 then some (payload_len.toNat, 2)
  else if payload_len = 126 then
    if data_len < 2 + 2 then none
    else some (Lib.ofBE [raw_buf 2, raw_buf 3], 4)
  else
    if data_len < 2 + 4 then none
    else some (Lib.ofBE [raw_buf 6, raw_buf 7, raw_buf 8, raw_buf 9], 10)

/-- `ProtocalWebsocket::decodeFrameHeader`. -/
def decodeFrameHeader (raw_buf : ℕ → UInt8) (data_len : ℕ) : WSFrameHeader :=
  let header : WSFrameHeader :=
    { FIN := raw_buf 0 &&& 0x80 == 0x80
      opcode := raw_buf 0 &&& 0xf
      MASK := raw_buf 1 &&& 0x80 == 0x80
      payload_len := raw_buf 1 &&& 0x7f }
  match decodePayloadLen raw_buf data_len header.payload_len with
  | none => header
  | some (payload_len, pos) =>
    if header.MASK then
      if data_len < pos + 4 then header
      else
        { header with
          masking_key := ⟨[raw_buf pos, raw_buf (pos + 1), raw_buf (pos + 2), raw_buf (pos + 3)],
            rfl⟩
          actual_header_len := (pos + 4 : ℕ)
          actual_payload_len := payload_len }
    else { header with actual_header_len := pos, actual_payload_len := payload_len }

/-- The byte at `data + i`; behind the block it may have any value. -/
def rawBuf (beyond : ℕ → UInt8) (data : List UInt8) (i : ℕ) : UInt8 := data.getD i (beyond i)

/-- `ProtocalWebsocket::decodeFrame`. -/
def decodeFrame (beyond : ℕ → UInt8) (data : List UInt8) (len : ℕ) : ℕ × ℕ :=
  if len < minProtocalSize then (0, 0)
  else
    let header := decodeFrameHeader (rawBuf beyond data) len
    if header.actual_header_len < 0 then (0, 0)
    else
      let need_size := header.actual_header_len + header.actual_payload_len
      if need_size > len then (0, 0) else (0, need_size.toNat)

/-- `ProtocalWebsocket::bufferToFrame`; `none` stands for false. -/
def bufferToFrame (beyond : ℕ → UInt8) (buf : List UInt8) : Option StreamWebsocketFrame :=
  if buf.length < minProtocalSize then none
  else
    let header := decodeFrameHeader (rawBuf beyond buf) buf.length
    if header.actual_header_len < 0 then none
    else
      let need_size := header.actual_header_len + header.actual_payload_len
      if need_size > buf.length then none
      else some ⟨header, buf.drop header.actual_header_len.toNat⟩

/-- The payload that `on_recv` hands on: the masked bytes are unmasked in place. -/
def onRecvPayload (frame : StreamWebsocketFrame) : List UInt8 :=
  let payload := frame.payload.take frame.header.actual_payload_len.toNat
  if frame.header.MASK then Lib.xorMask frame.header.masking_key.1 payload else payload

end ProtocalWebsocket

/-- A `ProtocalWebsocket`; at the call `i` of `decodeFrame` the bytes behind the block are
`beyond i`. -/
def protocalWebsocket (max_cache_size max_frame_size slice_size : UInt32)
    (beyond : ℕ → ℕ → UInt8) : Protocal where
  maxCacheSize := max_cache_size.toNat
  isStreaming := true
  maxFrameSize := max_frame_size.toNat
  sliceSize := if slice_size = 0 then 1200 else slice_size.toNat
  encodeFrame := fun _ => noBytes
  decodeFrame := fun call => ProtocalWebsocket.decodeFrame (beyond call)
  maxCacheSize_lt := max_cache_size.toNat_lt
  maxFrameSize_lt := max_frame_size.toNat_lt

namespace ProtocalWebsocket

/-! ## Packed frames -/

/-- The length of the header of a frame. -/
def WSFrameHeader.size (header : WSFrameHeader) : ℕ :=
  2 + header.padding_payload_len + if header.MASK then 4 else 0

lemma length_finalBuf (header : WSFrameHeader) (payload : List UInt8) :
    (finalBuf header payload).length = header.size + payload.length := by
  cases hmask : header.MASK
  · simp [finalBuf, WSFrameHeader.size, hmask]
    omega
  · simp [finalBuf, WSFrameHeader.size, hmask, header.masking_key.2]
    omega

section packetHeader

variable (n : ℕ) (use_mask : Bool) (frame_type : WSFrameType) (is_fin : Bool) (random : MaskingKey)

@[simp] lemma packetHeader_FIN :
    (packetHeader n use_mask frame_type is_fin random).FIN = is_fin := by
  unfold packetHeader
  dsimp only
  split_ifs <;> rfl

@[simp] lemma packetHeader_MASK :
    (packetHeader n use_mask frame_type is_fin random).MASK = use_mask := by
  unfold packetHeader
  dsimp only
  split_ifs <;> rfl

@[simp] lemma packetHeader_opcode :
    (packetHeader n use_mask frame_type is_fin random).opcode = frame_type.value := by
  have hvalue : frame_type.value &&& 0xf = frame_type.value := by cases frame_type <;> rfl
  unfold packetHeader
  dsimp only
  split_ifs <;> exact hvalue

@[simp] lemma packetHeader_masking_key :
    (packetHeader n use_mask frame_type is_fin random).masking_key =
      if use_mask then random else noKey := by
  unfold packetHeader
  dsimp only
  split_ifs <;> rfl

/-- How the length is written. -/
inductive LenCode (n : ℕ) (header : WSFrameHeader) : Prop
  | short (hn : n < 126) (hlen : header.payload_len = UInt8.ofNat n)
      (hpad : header.padding_payload_len = 0)
  | medium (hn : n < 2 ^ 16) (hlen : header.payload_len = 126)
      (hpad : header.padding_payload_len = 2) (hext : header.extended_payload_len = n)
  | long (hlen : header.payload_len = 127) (hpad : header.padding_payload_len = 8)
      (hext : header.extended_payload_len = n)

lemma lenCode_packetHeader (hn : n ≠ 65536) :
    LenCode n (packetHeader n use_mask frame_type is_fin random) := by
  rw [packetHeader]
  by_cases h₁ : n < 126
  · rw [if_pos h₁]
    exact .short h₁ rfl rfl
  rw [if_neg h₁]
  by_cases h₂ : n ≤ 65536
  · rw [if_pos h₂]
    exact .medium (by omega) rfl rfl (Nat.mod_eq_of_lt (by omega))
  · rw [if_neg h₂]
    exact .long rfl rfl rfl

/-- What the decoder relies on in the header of a packed frame. -/
structure Packed (n : ℕ) (header : WSFrameHeader) : Prop where
  lenCode : LenCode n header
  opcode : ∃ t : WSFrameType, header.opcode = t.value
  masking_key : header.MASK = false → header.masking_key = noKey

lemma packed_of_lenCode {m : ℕ}
    (h : LenCode m (packetHeader n use_mask frame_type is_fin random)) :
    Packed m (packetHeader n use_mask frame_type is_fin random) where
  lenCode := h
  opcode := ⟨frame_type, packetHeader_opcode ..⟩
  masking_key := by
    rw [packetHeader_MASK, packetHeader_masking_key]
    rintro rfl
    rfl

lemma packed_packetHeader (hn : n ≠ 65536) :
    Packed n (packetHeader n use_mask frame_type is_fin random) :=
  packed_of_lenCode _ _ _ _ _ (lenCode_packetHeader n use_mask frame_type is_fin random hn)

/-- A payload of 65536 bytes gets the header of an empty one. -/
lemma packed_packetHeader_65536 :
    Packed 0 (packetHeader 65536 use_mask frame_type is_fin random) :=
  packed_of_lenCode _ _ _ _ _ (.medium (by norm_num) rfl rfl rfl)

end packetHeader

/-- A frame is packed unless the size of its buffer wraps. -/
lemma packetFrame_eq_some {payload : Bytes} {use_mask : Bool} {frame_type : WSFrameType}
    {is_fin : Bool} {random : MaskingKey} {f : List UInt8} :
    packetFrame payload use_mask frame_type is_fin random = some f ↔
      (finalBuf (packetHeader payload.1.length use_mask frame_type is_fin random)
        payload.1).length + 1 < 2 ^ 32 ∧
      f = finalBuf (packetHeader payload.1.length use_mask frame_type is_fin random) payload.1 := by
  have hlen := length_finalBuf (packetHeader payload.1.length use_mask frame_type is_fin random)
    payload.1
  have hsize : add32 (add32 (add32 (add32 2 (packetHeader payload.1.length use_mask frame_type
      is_fin random).padding_payload_len) (if use_mask then 4 else 0)) payload.1.length) 1 =
      ((finalBuf (packetHeader payload.1.length use_mask frame_type is_fin random)
        payload.1).length + 1) % 2 ^ 32 := by
    rw [hlen, WSFrameHeader.size, packetHeader_MASK]
    simp only [add32]
    omega
  rw [packetFrame, packetHeader_MASK, hsize]
  split_ifs with h
  · rw [Option.some_inj, eq_comm]
    refine (and_iff_right ?_).symm
    omega
  · simp only [false_iff, not_and]
    omega

/-! ## Decoding -/

lemma value_and_flag (t : WSFrameType) (is_fin : Bool) :
    ((t.value ||| if is_fin then 0x80 else 0) &&& 0x80 == 0x80) = is_fin ∧
      (t.value ||| if is_fin then 0x80 else 0) &&& 0xf = t.value := by
  cases t <;> cases is_fin <;> exact ⟨rfl, rfl⟩

lemma mask_and_len (use_mask : Bool) (n : Fin 128) :
    (((if use_mask then 0x80 else 0) ||| UInt8.ofNat n) &&& 0x80 == 0x80) = use_mask ∧
      ((if use_mask then 0x80 else 0) ||| UInt8.ofNat n) &&& 0x7f = UInt8.ofNat n := by
  revert use_mask n
  decide

section decode

variable {header : WSFrameHeader} {payload l mem : List UInt8} {raw_buf : ℕ → UInt8}
  {len off k : ℕ}

lemma LenCode.payload_len_eq (h : LenCode payload.length header) :
    ∃ b : Fin 128, header.payload_len = UInt8.ofNat b := by
  cases h with
  | short hn hlen => exact ⟨⟨payload.length, by omega⟩, hlen⟩
  | medium _ hlen => exact ⟨126, hlen⟩
  | long hlen => exact ⟨127, hlen⟩

/-- The bytes that have arrived are read. -/
lemma range_rawBuf (beyond : ℕ → UInt8) (hlen : len ≤ l.length) (hmem : mem.take len = l.take len)
    (hk : off + k ≤ len) :
    (List.range k).map (fun i => rawBuf beyond mem (off + i)) = Lib.slice l off k := by
  refine List.ext_getElem (by rw [Lib.length_slice (by omega)]; simp) fun i h₁ h₂ => ?_
  have hi : i < k := by simpa using h₁
  have hget : mem[off + i]? = l[off + i]? := by
    have hsome := congrArg (fun m => m[off + i]?) hmem
    simpa [List.getElem?_take_of_lt (show off + i < len by omega)] using hsome
  simp only [List.getElem_map, List.getElem_range, rawBuf, Lib.slice, List.getElem_take,
    List.getElem_drop]
  rw [List.getD_eq_getElem?_getD, hget, List.getElem?_eq_getElem (by omega), Option.getD_some]

/-- The bytes behind the first two. -/
lemma slice_finalBuf (rest : List UInt8) :
    Lib.slice (finalBuf header payload ++ rest) 2 header.padding_payload_len =
      Lib.toBE header.padding_payload_len header.extended_payload_len := by
  rw [Lib.slice, finalBuf]
  simp only [List.cons_append, List.append_assoc, List.drop_succ_cons, List.drop_zero]
  exact List.take_left' (Lib.length_toBE _ _)

/-- The masking key. -/
lemma slice_finalBuf_key (hmask : header.MASK = true) (rest : List UInt8) :
    Lib.slice (finalBuf header payload ++ rest) (2 + header.padding_payload_len) 4 =
      header.masking_key.1 := by
  rw [Lib.slice, finalBuf, ← List.drop_drop]
  simp only [List.cons_append, List.append_assoc, List.drop_succ_cons, List.drop_zero, hmask,
    if_true]
  rw [List.drop_left' (Lib.length_toBE _ _)]
  exact List.take_left' header.masking_key.2

/-- Where the length of a packed frame ends is always found. -/
lemma decodePayloadLen_pos (h : LenCode payload.length header) {m pos : ℕ}
    (hdec : decodePayloadLen raw_buf len header.payload_len = some (m, pos)) :
    pos = 2 + header.padding_payload_len := by
  cases h with
  | short hn hlen hpad =>
    have hlt : UInt8.ofNat payload.length < 126 := by
      rw [UInt8.lt_iff_toNat_lt, UInt8.toNat_ofNat']
      exact lt_of_le_of_lt (Nat.mod_le _ _) hn
    rw [hlen, decodePayloadLen, if_pos hlt] at hdec
    rw [hpad]
    simp only [Option.some_inj, Prod.mk.injEq] at hdec
    omega
  | medium hn hlen hpad =>
    rw [hlen, decodePayloadLen, if_neg (by decide), if_pos rfl] at hdec
    rw [hpad]
    split_ifs at hdec
    simp only [Option.some_inj, Prod.mk.injEq] at hdec
    omega
  | long hlen hpad =>
    rw [hlen, decodePayloadLen, if_neg (by decide), if_neg (by decide)] at hdec
    rw [hpad]
    split_ifs at hdec
    simp only [Option.some_inj, Prod.mk.injEq] at hdec
    omega

/-- The length of a packed frame is found when its bytes have arrived. -/
lemma decodePayloadLen_finalBuf (beyond : ℕ → UInt8) (h : LenCode payload.length header)
    (hn : payload.length < 2 ^ 32) {rest : List UInt8}
    (hle : len ≤ (finalBuf header payload ++ rest).length)
    (hmem : mem.take len = (finalBuf header payload ++ rest).take len)
    (hpos : 2 + header.padding_payload_len ≤ len) :
    decodePayloadLen (rawBuf beyond mem) len header.payload_len =
      some (payload.length, 2 + header.padding_payload_len) := by
  cases h with
  | short hn hlen hpad =>
    have hval : (UInt8.ofNat payload.length).toNat = payload.length := by
      rw [UInt8.toNat_ofNat']
      exact Nat.mod_eq_of_lt (by omega)
    have hlt : UInt8.ofNat payload.length < 126 := by
      rw [UInt8.lt_iff_toNat_lt, hval]
      exact hn
    rw [hlen, decodePayloadLen, if_pos hlt, hval, hpad]
  | medium hn hlen hpad hext =>
    have hraw := range_rawBuf beyond hle hmem hpos
    rw [slice_finalBuf, hpad, hext] at hraw
    rw [hlen, decodePayloadLen, if_neg (by decide), if_pos rfl, if_neg (by omega), hpad]
    have hbytes : [rawBuf beyond mem 2, rawBuf beyond mem 3] = Lib.toBE 2 payload.length := hraw
    rw [hbytes, Lib.ofBE_toBE (by omega)]
  | long hlen hpad hext =>
    have hraw := range_rawBuf beyond hle hmem hpos
    rw [slice_finalBuf, hpad, hext] at hraw
    rw [hlen, decodePayloadLen, if_neg (by decide), if_neg (by decide), if_neg (by omega), hpad]
    -- the upper four of the eight bytes are skipped
    have hbytes : [rawBuf beyond mem 6, rawBuf beyond mem 7, rawBuf beyond mem 8,
        rawBuf beyond mem 9] = Lib.toBE 4 payload.length := by
      have := congrArg (List.drop 4) hraw
      rw [show (8 : ℕ) = 4 + 4 from rfl, Lib.toBE_add,
        List.drop_left' (Lib.length_toBE _ _)] at this
      exact this
    rw [hbytes, Lib.ofBE_toBE (by omega)]

/-- The header that is found when all of its bytes have arrived. -/
def decodedHeader (header : WSFrameHeader) (n : ℕ) : WSFrameHeader where
  FIN := header.FIN
  opcode := header.opcode
  MASK := header.MASK
  payload_len := header.payload_len
  masking_key := header.masking_key
  actual_header_len := header.size
  actual_payload_len := n

/-- The flags are found in the first two bytes. -/
lemma decodeFrameHeader_flags (beyond : ℕ → UInt8) (h : Packed payload.length header)
    {rest : List UInt8} (hle : len ≤ (finalBuf header payload ++ rest).length)
    (hmem : mem.take len = (finalBuf header payload ++ rest).take len) (htwo : 2 ≤ len) :
    (rawBuf beyond mem 0 &&& 0x80 == 0x80) = header.FIN ∧
      rawBuf beyond mem 0 &&& 0xf = header.opcode ∧
      (rawBuf beyond mem 1 &&& 0x80 == 0x80) = header.MASK ∧
      rawBuf beyond mem 1 &&& 0x7f = header.payload_len := by
  obtain ⟨t, ht⟩ := h.opcode
  obtain ⟨b, hb⟩ := h.lenCode.payload_len_eq
  have hraw : [rawBuf beyond mem 0, rawBuf beyond mem 1] = _ :=
    range_rawBuf beyond (k := 2) hle hmem (by omega)
  simp only [Lib.slice, finalBuf, List.cons_append, List.drop_zero, List.take_succ_cons,
    List.take_zero, List.cons.injEq, and_true] at hraw
  obtain ⟨h₀, h₁⟩ := hraw
  rw [h₀, h₁, ht, hb]
  exact ⟨(value_and_flag t header.FIN).1, (value_and_flag t header.FIN).2,
    (mask_and_len header.MASK b).1, (mask_and_len header.MASK b).2⟩

/-- The header of a packed frame is found when it is complete. -/
lemma decodeFrameHeader_complete (beyond : ℕ → UInt8) (h : Packed payload.length header)
    (hn : payload.length < 2 ^ 32) {rest : List UInt8}
    (hle : len ≤ (finalBuf header payload ++ rest).length)
    (hmem : mem.take len = (finalBuf header payload ++ rest).take len)
    (hsize : header.size ≤ len) :
    decodeFrameHeader (rawBuf beyond mem) len = decodedHeader header payload.length := by
  unfold WSFrameHeader.size at hsize
  obtain ⟨hfin, hop, hmask, hlen⟩ := decodeFrameHeader_flags beyond h hle hmem (by omega)
  have hdec := decodePayloadLen_finalBuf beyond h.lenCode hn hle hmem (by omega)
  rw [decodeFrameHeader, hfin, hop, hmask, hlen, hdec]
  cases hm : header.MASK with
  | false => simp [decodedHeader, WSFrameHeader.size, hm, h.masking_key hm]
  | true =>
    simp only [hm, if_true] at hsize
    have hkey := range_rawBuf beyond hle hmem hsize
    rw [slice_finalBuf_key hm] at hkey
    have hkey' : (⟨[rawBuf beyond mem (2 + header.padding_payload_len),
        rawBuf beyond mem (2 + header.padding_payload_len + 1),
        rawBuf beyond mem (2 + header.padding_payload_len + 2),
        rawBuf beyond mem (2 + header.padding_payload_len + 3)], rfl⟩ : MaskingKey) =
          header.masking_key := Subtype.ext hkey
    simp only [if_true, hkey', if_neg (not_lt.mpr hsize)]
    simp [decodedHeader, WSFrameHeader.size, hm]

/-- When the header of a packed frame is not complete, no header is found, or, with the length
in eight bytes, one that is longer than the bytes that have arrived. -/
lemma decodeFrameHeader_incomplete (beyond : ℕ → UInt8) (h : Packed payload.length header)
    {rest : List UInt8} (hle : len ≤ (finalBuf header payload ++ rest).length)
    (hmem : mem.take len = (finalBuf header payload ++ rest).take len) (htwo : 2 ≤ len)
    (hsize : len < header.size) :
    (decodeFrameHeader (rawBuf beyond mem) len).actual_header_len < 0 ∨
      ((decodeFrameHeader (rawBuf beyond mem) len).actual_header_len = header.size ∧
        0 ≤ (decodeFrameHeader (rawBuf beyond mem) len).actual_payload_len) := by
  obtain ⟨hfin, hop, hmask, hlen⟩ := decodeFrameHeader_flags beyond h hle hmem htwo
  rw [decodeFrameHeader, hfin, hop, hmask, hlen]
  cases hdec : decodePayloadLen (rawBuf beyond mem) len header.payload_len with
  | none => exact Or.inl (by norm_num)
  | some e =>
    obtain ⟨m, pos⟩ := e
    obtain rfl := decodePayloadLen_pos h.lenCode hdec
    dsimp only
    cases hm : header.MASK with
    | false =>
      -- four of the eight bytes of the length are enough for `decodeFrameHeader`
      refine Or.inr ⟨?_, ?_⟩
      · simp [WSFrameHeader.size, hm]
      · simp
    | true =>
      -- the masking key is not complete
      simp only [WSFrameHeader.size, hm, if_true] at hsize
      rw [if_pos rfl, if_pos hsize]
      exact Or.inl (by norm_num)

/-- **What is found of a packed frame**, when `len` bytes of it and what follows have arrived:
nothing before it is complete, and then the frame. -/
lemma decodeFrame_finalBuf (beyond : ℕ → UInt8) (h : Packed payload.length header)
    (hn : payload.length < 2 ^ 32) {rest : List UInt8}
    (hle : len ≤ (finalBuf header payload ++ rest).length)
    (hmem : mem.take len = (finalBuf header payload ++ rest).take len) :
    decodeFrame beyond mem len = (0, if (finalBuf header payload).length > len then 0
      else (finalBuf header payload).length) := by
  have hbuf := length_finalBuf header payload
  have htwo : 2 ≤ header.size := by
    rw [WSFrameHeader.size]
    omega
  by_cases hsmall : len < minProtocalSize
  · rw [decodeFrame, if_pos hsmall, if_pos (by unfold minProtocalSize at hsmall; omega)]
  rw [decodeFrame, if_neg hsmall]
  unfold minProtocalSize at hsmall
  dsimp only
  by_cases hsize : header.size ≤ len
  · rw [decodeFrameHeader_complete beyond h hn hle hmem hsize]
    simp only [decodedHeader, gt_iff_lt]
    rw [if_neg (by omega), hbuf]
    split_ifs <;> first | omega | rfl
  · have hgt : (finalBuf header payload).length > len := by omega
    rw [if_pos hgt]
    rcases decodeFrameHeader_incomplete beyond h hle hmem (by omega) (by omega) with
      hneg | ⟨hpos, hpayload⟩
    · rw [if_pos hneg]
    · rw [if_neg (by omega), if_pos (by omega)]

/-- The payload behind the header. -/
lemma drop_finalBuf : (finalBuf header payload).drop header.size =
    if header.MASK then Lib.xorMask header.masking_key.1 payload else payload := by
  have hkey : ((Lib.toBE header.padding_payload_len header.extended_payload_len) ++
      if header.MASK then header.masking_key.1 else []).length =
        header.padding_payload_len + if header.MASK then 4 else 0 := by
    rw [List.length_append, Lib.length_toBE]
    split_ifs
    · rw [header.masking_key.2]
    · rfl
  rw [finalBuf, WSFrameHeader.size, Nat.add_assoc 2, Nat.add_comm 2, List.drop_succ_cons,
    List.drop_succ_cons, ← List.append_assoc]
  exact List.drop_left' hkey

/-- A packed frame can be read: the flags and the payload come back. -/
lemma bufferToFrame_finalBuf (beyond : ℕ → UInt8) (h : Packed payload.length header)
    (hn : payload.length < 2 ^ 32) :
    ∃ frame, bufferToFrame beyond (finalBuf header payload) = some frame ∧
      frame.header = decodedHeader header payload.length ∧ onRecvPayload frame = payload := by
  have hbuf := length_finalBuf header payload
  have htwo : 2 ≤ header.size := by
    rw [WSFrameHeader.size]
    omega
  have hall := List.append_nil (finalBuf header payload)
  have hdec : decodeFrameHeader (rawBuf beyond (finalBuf header payload))
      (finalBuf header payload).length = decodedHeader header payload.length :=
    decodeFrameHeader_complete beyond h hn (congrArg List.length hall).ge (by rw [hall]) (by omega)
  refine ⟨⟨decodedHeader header payload.length, (finalBuf header payload).drop header.size⟩, ?_,
    rfl, ?_⟩
  · rw [bufferToFrame, if_neg (by unfold minProtocalSize; omega), hdec]
    simp only [decodedHeader, gt_iff_lt]
    rw [if_neg (by omega), if_neg (by omega), Int.toNat_natCast]
  · simp only [onRecvPayload, decodedHeader, Int.toNat_natCast, drop_finalBuf]
    by_cases hm : header.MASK = true
    · rw [if_pos hm, if_pos hm, List.take_of_length_le (by simp), Lib.xorMask_xorMask]
    · rw [if_neg hm, if_neg hm, List.take_length]

end decode

/-! ## The round trip -/

section roundTrip

variable {payload : Bytes} {use_mask : Bool} {frame_type : WSFrameType} {is_fin : Bool}
  {random : MaskingKey}

/-- The payload is packed; the packed frame is found, alone or with bytes behind it, and the
payload, its length and the flags are read from it. -/
def RoundTrip (payload : Bytes) (use_mask : Bool) (frame_type : WSFrameType) (is_fin : Bool)
    (random : MaskingKey) : Prop :=
  ∃ f, packetFrame payload use_mask frame_type is_fin random = some f ∧
    (∀ beyond rest, (f ++ rest).length < 2 ^ 32 →
      decodeFrame beyond (f ++ rest) (f ++ rest).length = (0, f.length)) ∧
    ∀ beyond, ∃ frame, bufferToFrame beyond f = some frame ∧ onRecvPayload frame = payload.1 ∧
      frame.header.actual_payload_len = payload.1.length ∧
      frame.header.opcode = frame_type.value ∧ frame.header.FIN = is_fin ∧
      frame.header.MASK = use_mask

/-- The size of a packed frame matters for a payload of more than 65536 bytes only. -/
lemma length_packed_lt (hn : payload.1.length ≠ 65536) :
    (finalBuf (packetHeader payload.1.length use_mask frame_type is_fin random)
      payload.1).length + 1 < 2 ^ 32 ↔
    payload.1.length + (if use_mask then 14 else 10) + 1 < 2 ^ 32 := by
  have hmask : (if use_mask then 4 else 0) + 10 = if use_mask then 14 else 10 := by
    cases use_mask <;> rfl
  rw [length_finalBuf, WSFrameHeader.size, packetHeader_MASK, ← hmask]
  have hle : (if use_mask then 4 else 0) ≤ 4 := by cases use_mask <;> decide
  cases lenCode_packetHeader payload.1.length use_mask frame_type is_fin random hn with
  | short hn hlen hpad => omega
  | medium hn hlen hpad hext => omega
  | long hlen hpad hext => omega

lemma roundTrip_of_length (hn : payload.1.length ≠ 65536)
    (hsize : payload.1.length + (if use_mask then 14 else 10) + 1 < 2 ^ 32) :
    RoundTrip payload use_mask frame_type is_fin random := by
  have hpacked := packed_packetHeader payload.1.length use_mask frame_type is_fin random hn
  refine ⟨_, packetFrame_eq_some.mpr ⟨(length_packed_lt hn).mpr hsize, rfl⟩, ?_, ?_⟩
  · intro beyond rest _
    rw [decodeFrame_finalBuf beyond hpacked payload.2 le_rfl rfl, if_neg]
    rw [List.length_append]
    omega
  · intro beyond
    obtain ⟨frame, hframe, hheader, hpayload⟩ :=
      bufferToFrame_finalBuf beyond hpacked payload.2
    refine ⟨frame, hframe, hpayload, ?_⟩
    rw [hheader]
    exact ⟨rfl, packetHeader_opcode .., packetHeader_FIN .., packetHeader_MASK ..⟩

/-- Of a packed frame with 65536 bytes only the header is found. -/
lemma decodeFrame_of_65536 (h : payload.1.length = 65536) {f : List UInt8}
    (hf : packetFrame payload use_mask frame_type is_fin random = some f) :
    decodeFrame (fun _ => 0) f f.length = (0, if use_mask then 8 else 4) := by
  obtain ⟨-, rfl⟩ := packetFrame_eq_some.mp hf
  rw [h]
  -- the bytes are the frame of an empty payload and something behind it
  have hpacked : Packed ([] : List UInt8).length _ :=
    packed_packetHeader_65536 use_mask frame_type is_fin random
  have happend : ∀ header : WSFrameHeader, finalBuf header payload.1 = finalBuf header [] ++
      if header.MASK then Lib.xorMask header.masking_key.1 payload.1 else payload.1 := by
    intro header
    cases hm : header.MASK <;> simp [finalBuf, hm, Lib.xorMask]
  have hempty : ([] : List UInt8).length < 2 ^ 32 := by norm_num
  rw [happend, decodeFrame_finalBuf (fun _ => 0) hpacked hempty le_rfl rfl, if_neg]
  · rw [length_finalBuf, WSFrameHeader.size, packetHeader_MASK]
    cases use_mask <;> rfl
  · rw [List.length_append]
    omega

lemma not_roundTrip_of_65536 (h : payload.1.length = 65536) :
    ¬ RoundTrip payload use_mask frame_type is_fin random := by
  rintro ⟨f, hf, hdec, -⟩
  obtain ⟨hlt, hlen⟩ := packetFrame_eq_some.mp hf
  have hshort := decodeFrame_of_65536 h hf
  have hwhole := hdec (fun _ => 0) [] (by rw [List.append_nil, hlen]; omega)
  rw [List.append_nil, hshort] at hwhole
  have hlength : f.length = if use_mask then 8 else 4 := (congrArg Prod.snd hwhole).symm
  rw [hlen, length_finalBuf, h] at hlength
  split_ifs at hlength <;> omega

/-- **The round trip.** A payload is read back from its frame unless it has 65536 bytes, or
the size of the buffer for its frame wraps.  `max_frame_size` plays no role: none of these
functions looks at it. -/
theorem roundTrip_iff (payload : Bytes) (use_mask : Bool) (frame_type : WSFrameType)
    (is_fin : Bool) (random : MaskingKey) :
    RoundTrip payload use_mask frame_type is_fin random ↔
      payload.1.length ≠ 65536 ∧
        payload.1.length + (if use_mask then 14 else 10) + 1 < 2 ^ 32 := by
  constructor
  · intro h
    have hn : payload.1.length ≠ 65536 := fun h' => not_roundTrip_of_65536 h' h
    obtain ⟨f, hf, -⟩ := h
    exact ⟨hn, (length_packed_lt hn).mp (packetFrame_eq_some.mp hf).1⟩
  · rintro ⟨hn, hsize⟩
    exact roundTrip_of_length hn hsize

/-- A payload of 65536 bytes. -/
def sevens : Bytes := ⟨List.replicate 65536 7, by rw [List.length_replicate]; norm_num⟩

/-- A payload of 65536 bytes, far below the default `max_frame_size`, is packed into 65540
bytes, of which four are found. -/
theorem payload_65536_lost : sevens.1.length + 14 ≤ 10 * 1024 * 1024 ∧
    (∃ f, packetFrame sevens false .binary_frame true noKey = some f ∧ f.length = 65540 ∧
      decodeFrame (fun _ => 0) f f.length = (0, 4)) ∧
    ¬ RoundTrip sevens false .binary_frame true noKey := by
  have hlen : sevens.1.length = 65536 := List.length_replicate
  have hsize : (finalBuf (packetHeader sevens.1.length false .binary_frame true noKey)
      sevens.1).length = 65540 := by
    rw [length_finalBuf, hlen]
    rfl
  have hpacked : packetFrame sevens false .binary_frame true noKey = some _ :=
    packetFrame_eq_some.mpr ⟨by rw [hsize]; norm_num, rfl⟩
  exact ⟨by rw [hlen]; norm_num, ⟨_, hpacked, hsize, decodeFrame_of_65536 hlen hpacked⟩,
    not_roundTrip_of_65536 hlen⟩

end roundTrip

end ProtocalWebsocket

end SignalEventLoop.Network
