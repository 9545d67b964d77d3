/-
# Websocket headers of any bytes

`ProtocalWebsocket::decodeFrameHeader` and `ProtocalWebsocket::decodeFrame` on bytes that come
from anywhere.  The check before a length of eight bytes asks for four, so that the function reads
behind the bytes that have arrived and takes the header for complete; and it drops the upper half
of this length, so that a frame is found whose payload is longer than all bytes.

`decodeFrameHeaderIn` is the function on a block that has only the bytes that have arrived; it is
`none` when a byte behind them is read.
-/
import SignalEventLoop.Network.ProtocalWebsocket

namespace SignalEventLoop.Network

namespace ProtocalWebsocket

/-! ## Reading within a block -/

/-- `decodePayloadLen` on a block. -/
def decodePayloadLenIn (block : List UInt8) (payload_len : UInt8) : Option (Option (ℕ × ℕ)) :=
  if payload_len < 126 then some (some (payload_len.toNat, 2))
  else if payload_len = 126 then
    if block.length < 2 + 2 then some none
    else do
      let b₁ ← block[2]?
      let b₀ ← block[3]?
      return some (Lib.ofBE [b₁, b₀], 4)
  else
    if block.length < 2 + 4 then some none
    else do
      let b₃ ← block[6]?
      let b₂ ← block[7]?
      let b₁ ← block[8]?
      let b₀ ← block[9]?
      return some (Lib.ofBE [b₃, b₂, b₁, b₀], 10)

/-- `decodeFrameHeader` on a block. -/
def decodeFrameHeaderIn (block : List UInt8) : Option WSFrameHeader := do
  let first ← block[0]?
  let second ← block[1]?
  let header : WSFrameHeader :=
    { FIN := first &&& 0x80 == 0x80
      opcode := first &&& 0xf
      MASK := second &&& 0x80 == 0x80
      payload_len := second &&& 0x7f }
  match ← decodePayloadLenIn block header.payload_len with
  | none => return header
  | some (payload_len, pos) =>
    if header.MASK then
      if block.length < pos + 4 then return header
      else do
        let k₀ ← block[pos]?
        let k₁ ← block[pos + 1]?
        let k₂ ← block[pos + 2]?
        let k₃ ← block[pos + 3]?
        return { header with
          masking_key := ⟨[k₀, k₁, k₂, k₃], rfl⟩
          actual_header_len := (pos + 4 : ℕ)
          actual_payload_len := payload_len }
    else return { header with actual_header_len := pos, actual_payload_len := payload_len }

section header

variable {block : List UInt8}

lemma rawBuf_of_getElem? {beyond : ℕ → UInt8} {i : ℕ} {b : UInt8} (h : block[i]? = some b) :
    rawBuf beyond block i = b := by
  rw [rawBuf, List.getD_eq_getElem?_getD, h, Option.getD_some]

lemma decodePayloadLenIn_eq (beyond : ℕ → UInt8) {payload_len : UInt8} {found : Option (ℕ × ℕ)}
    (h : decodePayloadLenIn block payload_len = some found) :
    decodePayloadLen (rawBuf beyond block) block.length payload_len = found := by
  rw [decodePayloadLenIn] at h
  rw [decodePayloadLen]
  split_ifs at h ⊢ with h₁ h₂ h₃ h₄
  · exact Option.some.inj h
  · exact Option.some.inj h
  · simp only [Option.bind_eq_bind, Option.bind_eq_some_iff, Option.pure_def,
      Option.some.injEq] at h
    obtain ⟨b₁, hb₁, b₀, hb₀, rfl⟩ := h
    rw [rawBuf_of_getElem? hb₁, rawBuf_of_getElem? hb₀]
  · exact Option.some.inj h
  · simp only [Option.bind_eq_bind, Option.bind_eq_some_iff, Option.pure_def,
      Option.some.injEq] at h
    obtain ⟨b₃, hb₃, b₂, hb₂, b₁, hb₁, b₀, hb₀, rfl⟩ := h
    rw [rawBuf_of_getElem? hb₃, rawBuf_of_getElem? hb₂, rawBuf_of_getElem? hb₁,
      rawBuf_of_getElem? hb₀]

/-- What is read within the block is read by `decodeFrameHeader`. -/
lemma decodeFrameHeaderIn_eq (beyond : ℕ → UInt8) {header : WSFrameHeader}
    (h : decodeFrameHeaderIn block = some header) :
    decodeFrameHeader (rawBuf beyond block) block.length = header := by
  simp only [decodeFrameHeaderIn, Option.bind_eq_bind, Option.bind_eq_some_iff] at h
  obtain ⟨first, hfirst, second, hsecond, found, hfound, h⟩ := h
  have hlen := decodePayloadLenIn_eq beyond hfound
  rw [decodeFrameHeader, rawBuf_of_getElem? hfirst, rawBuf_of_getElem? hsecond]
  simp only [hlen]
  cases found with
  | none => exact Option.some.inj h
  | some found =>
    obtain ⟨payload_len, pos⟩ := found
    simp only at h ⊢
    split_ifs at h ⊢ with hmask hshort
    · exact Option.some.inj h
    · simp only [Option.bind_eq_some_iff, Option.pure_def, Option.some.injEq] at h
      obtain ⟨k₀, hk₀, k₁, hk₁, k₂, hk₂, k₃, hk₃, rfl⟩ := h
      rw [rawBuf_of_getElem? hk₀, rawBuf_of_getElem? hk₁, rawBuf_of_getElem? hk₂,
        rawBuf_of_getElem? hk₃]
    · exact Option.some.inj h

/-! ## What a header announces -/

/-- The length in the second byte. -/
def lenField (data : List UInt8) : UInt8 := data.getD 1 0 &&& 0x7f

/-- Whether there is a masking key. -/
def masked (data : List UInt8) : Bool := data.getD 1 0 &&& 0x80 == 0x80

/-- The number of bytes of the extended length. -/
def lenSize (data : List UInt8) : ℕ :=
  if lenField data < 126 then 0 else if lenField data = 126 then 2 else 8

/-- The number of bytes of the header. -/
def headerSize (data : List UInt8) : ℕ := 2 + lenSize data + if masked data then 4 else 0

/-- The length of the payload, as it stands in all bytes of the header. -/
def announcedLen (data : List UInt8) : ℕ :=
  if lenField data < 126 then (lenField data).toNat else Lib.ofBE (Lib.slice data 2 (lenSize data))

/-- The bytes have arrived that `decodeFrameHeader` asks for before it reads a length of eight
bytes, but not the length. -/
def CutLength (data : List UInt8) : Prop :=
  lenField data = 127 ∧ 6 ≤ data.length ∧ data.length < 10

instance (data : List UInt8) : Decidable (CutLength data) :=
  inferInstanceAs (Decidable (_ ∧ _ ∧ _))

lemma lenField_lt (data : List UInt8) : (lenField data).toNat < 128 := by
  rw [lenField, UInt8.toNat_and]
  have := @Nat.and_le_right (data.getD 1 0).toNat (0x7f : UInt8).toNat
  simp only [UInt8.reduceToNat] at this ⊢
  omega

/-- The three ways to write the length. -/
lemma lenField_cases (data : List UInt8) :
    (lenField data < 126 ∧ lenSize data = 0) ∨ (lenField data = 126 ∧ lenSize data = 2) ∨
      (lenField data = 127 ∧ lenSize data = 8) := by
  have hlt := lenField_lt data
  rw [lenSize]
  split_ifs with h₁ h₂
  · exact Or.inl ⟨h₁, rfl⟩
  · exact Or.inr (Or.inl ⟨h₂, rfl⟩)
  · refine Or.inr (Or.inr ⟨?_, rfl⟩)
    rw [UInt8.lt_iff_toNat_lt] at h₁
    rw [← UInt8.toNat_inj] at h₂ ⊢
    simp only [UInt8.reduceToNat] at h₁ h₂ ⊢
    omega

/-- The length is found when all of its bytes are there. -/
lemma decodePayloadLenIn_complete (h : 2 + lenSize block ≤ block.length) :
    decodePayloadLenIn block (lenField block) =
      some (some (announcedLen block % 2 ^ 32, 2 + lenSize block)) := by
  have hget : ∀ i < 2 + lenSize block, ∃ b, block[i]? = some b :=
    fun i hi => ⟨_, List.getElem?_eq_getElem (by omega)⟩
  rcases lenField_cases block with ⟨hfield, hsize⟩ | ⟨hfield, hsize⟩ | ⟨hfield, hsize⟩
  · have hlt := lenField_lt block
    rw [decodePayloadLenIn, announcedLen, if_pos hfield, if_pos hfield, hsize,
      Nat.mod_eq_of_lt (by omega)]
  · obtain ⟨b₁, hb₁⟩ := hget 2 (by omega)
    obtain ⟨b₀, hb₀⟩ := hget 3 (by omega)
    have hslice : Lib.slice block 2 2 = [b₁, b₀] := by
      rw [Lib.slice_cons hb₁, Lib.slice_cons hb₀, Lib.slice_zero_len]
    have hlt : Lib.ofBE [b₁, b₀] < 2 ^ 32 := (Lib.ofBE_lt _).trans (by norm_num)
    rw [decodePayloadLenIn, announcedLen, hfield, if_neg (by decide), if_pos rfl,
      if_neg (by omega), if_neg (by decide), hsize, hslice, hb₁, hb₀, Nat.mod_eq_of_lt hlt]
    rfl
  · obtain ⟨b₃, hb₃⟩ := hget 6 (by omega)
    obtain ⟨b₂, hb₂⟩ := hget 7 (by omega)
    obtain ⟨b₁, hb₁⟩ := hget 8 (by omega)
    obtain ⟨b₀, hb₀⟩ := hget 9 (by omega)
    have hslice : Lib.slice block 6 4 = [b₃, b₂, b₁, b₀] := by
      rw [Lib.slice_cons hb₃, Lib.slice_cons hb₂, Lib.slice_cons hb₁, Lib.slice_cons hb₀,
        Lib.slice_zero_len]
    have hlt : Lib.ofBE [b₃, b₂, b₁, b₀] < 2 ^ 32 := (Lib.ofBE_lt _).trans_eq (by norm_num)
    -- the upper four bytes are a multiple of `2 ^ 32`
    have hmod : Lib.ofBE (Lib.slice block 2 8) % 2 ^ 32 = Lib.ofBE [b₃, b₂, b₁, b₀] := by
      rw [← Lib.slice_append_slice block 2 4 4, hslice, Lib.ofBE_append]
      simp only [List.length_cons, List.length_nil]
      omega
    rw [decodePayloadLenIn, announcedLen, hfield, if_neg (by decide), if_neg (by decide),
      if_neg (by omega), if_neg (by decide), hsize, hmod, hb₃, hb₂, hb₁, hb₀]
    rfl

lemma decodePayloadLenIn_incomplete (h : block.length < 2 + lenSize block)
    (htwo : 2 ≤ block.length) :
    decodePayloadLenIn block (lenField block) = some none ∧ ¬ CutLength block ∨
      decodePayloadLenIn block (lenField block) = none ∧ CutLength block := by
  rcases lenField_cases block with ⟨hfield, hsize⟩ | ⟨hfield, hsize⟩ | ⟨hfield, hsize⟩
  · omega
  · refine Or.inl ⟨?_, ?_⟩
    · rw [decodePayloadLenIn, hfield, if_neg (by decide), if_pos rfl, if_pos (by omega)]
    · rintro ⟨hcut, -⟩
      rw [hfield] at hcut
      exact absurd hcut (by decide)
  · rw [decodePayloadLenIn, hfield, if_neg (by decide), if_neg (by decide)]
    by_cases hfour : block.length < 2 + 4
    · refine Or.inl ⟨if_pos hfour, ?_⟩
      rintro ⟨-, hsix, -⟩
      omega
    · refine Or.inr ⟨?_, hfield, by omega, by omega⟩
      rw [if_neg hfour, List.getElem?_eq_none (i := 9) (by omega)]
      simp

/-- `decodeFrameHeaderIn` behind the first two bytes. -/
lemma decodeFrameHeaderIn_of_two (htwo : 2 ≤ block.length) :
    decodeFrameHeaderIn block = (decodePayloadLenIn block (lenField block)).bind fun found =>
      let header : WSFrameHeader :=
        { FIN := block.getD 0 0 &&& 0x80 == 0x80
          opcode := block.getD 0 0 &&& 0xf
          MASK := masked block
          payload_len := lenField block }
      match found with
      | none => some header
      | some (payload_len, pos) =>
        if masked block then
          if block.length < pos + 4 then some header
          else do
            let k₀ ← block[pos]?
            let k₁ ← block[pos + 1]?
            let k₂ ← block[pos + 2]?
            let k₃ ← block[pos + 3]?
            some { header with
              masking_key := ⟨[k₀, k₁, k₂, k₃], rfl⟩
              actual_header_len := (pos + 4 : ℕ)
              actual_payload_len := payload_len }
        else some { header with actual_header_len := pos, actual_payload_len := payload_len } := by
  obtain ⟨first, second, rest, rfl⟩ : ∃ first second rest, block = first :: second :: rest := by
    match block, htwo with
    | first :: second :: rest, _ => exact ⟨first, second, rest, rfl⟩
  rfl

/-- **A complete header is read within the block.** -/
lemma decodeFrameHeaderIn_complete (h : headerSize block ≤ block.length) :
    ∃ header, decodeFrameHeaderIn block = some header ∧
      header.actual_header_len = headerSize block ∧
      header.actual_payload_len = (announcedLen block % 2 ^ 32 : ℕ) := by
  rw [headerSize] at h ⊢
  rw [decodeFrameHeaderIn_of_two (by omega), decodePayloadLenIn_complete (by omega)]
  cases hmask : masked block with
  | false => exact ⟨_, rfl, by simp, rfl⟩
  | true =>
    rw [hmask, if_pos rfl] at h
    have hget : ∀ i < 4, ∃ b, block[2 + lenSize block + i]? = some b :=
      fun i hi => ⟨_, List.getElem?_eq_getElem (by omega)⟩
    obtain ⟨k₀, hk₀⟩ := hget 0 (by omega)
    obtain ⟨k₁, hk₁⟩ := hget 1 (by omega)
    obtain ⟨k₂, hk₂⟩ := hget 2 (by omega)
    obtain ⟨k₃, hk₃⟩ := hget 3 (by omega)
    have hkey : ¬ block.length < 2 + lenSize block + 4 := by omega
    simp only [Option.bind_some, if_true, if_neg hkey]
    rw [Nat.add_zero] at hk₀
    rw [hk₀, hk₁, hk₂, hk₃]
    exact ⟨_, rfl, rfl, rfl⟩

/-- **A header that is not complete** is not reported unless its length is cut. -/
lemma decodeFrameHeaderIn_incomplete (h : block.length < headerSize block)
    (htwo : 2 ≤ block.length) :
    (∃ header, decodeFrameHeaderIn block = some header ∧ header.actual_header_len < 0) ∧
        ¬ CutLength block ∨
      decodeFrameHeaderIn block = none ∧ CutLength block := by
  rw [headerSize] at h
  rw [decodeFrameHeaderIn_of_two htwo]
  by_cases hlen : 2 + lenSize block ≤ block.length
  · -- only the masking key can be missing
    have hcut : ¬ CutLength block := by
      rintro ⟨hfield, -, hten⟩
      rw [lenSize, hfield, if_neg (by decide), if_neg (by decide)] at hlen
      omega
    refine Or.inl ⟨?_, hcut⟩
    cases hmask : masked block with
    | false =>
      rw [hmask] at h
      simp only [Bool.false_eq_true, if_false] at h
      omega
    | true =>
      rw [hmask, if_pos rfl] at h
      rw [decodePayloadLenIn_complete hlen]
      simp only [Option.bind_some, if_true, if_pos h]
      exact ⟨_, rfl, by norm_num⟩
  · rcases decodePayloadLenIn_incomplete (by omega) htwo with ⟨hnone, hcut⟩ | ⟨hnone, hcut⟩
    · rw [hnone]
      exact Or.inl ⟨⟨_, rfl, by norm_num⟩, hcut⟩
    · rw [hnone]
      exact Or.inr ⟨rfl, hcut⟩

/-- A header with a cut length is not reported, or is longer than what has arrived. -/
lemma decodeFrameHeader_cut (beyond : ℕ → UInt8) (h : CutLength block) :
    (decodeFrameHeader (rawBuf beyond block) block.length).actual_header_len < 0 ∨
      block.length < (decodeFrameHeader (rawBuf beyond block) block.length).actual_header_len ∧
        0 ≤ (decodeFrameHeader (rawBuf beyond block) block.length).actual_payload_len := by
  obtain ⟨hfield, hsix, hten⟩ := h
  obtain ⟨second, hsecond⟩ : ∃ second, block[1]? = some second :=
    ⟨_, List.getElem?_eq_getElem (by omega)⟩
  rw [lenField, List.getD_eq_getElem?_getD, hsecond, Option.getD_some] at hfield
  simp only [decodeFrameHeader, rawBuf_of_getElem? hsecond, hfield, decodePayloadLen]
  rw [if_neg (by decide), if_neg (by decide), if_neg (by omega)]
  dsimp only
  split_ifs with hmask hkey
  · exact Or.inl (by norm_num)
  · omega
  · refine Or.inr ⟨?_, by positivity⟩
    push_cast
    omega

/-! ## Bounds of the reads -/

/-- The header is read within the bytes that have arrived, and reported exactly when all of its
bytes are among them. -/
structure ReadsHeader (block : List UInt8) : Prop where
  inBounds : (decodeFrameHeaderIn block).isSome
  complete : ∀ beyond,
    0 ≤ (decodeFrameHeader (rawBuf beyond block) block.length).actual_header_len ↔
      headerSize block ≤ block.length

/-- **Headers are read within bounds** unless a length of eight bytes is cut behind its first
four. -/
theorem readsHeader_iff {block : List UInt8} (htwo : 2 ≤ block.length) :
    ReadsHeader block ↔ ¬ CutLength block := by
  by_cases hcomplete : headerSize block ≤ block.length
  · obtain ⟨header, hheader, hlen, -⟩ := decodeFrameHeaderIn_complete hcomplete
    refine ⟨fun _ => ?_, fun _ => ⟨by rw [hheader]; rfl, fun beyond => ?_⟩⟩
    · rintro ⟨hfield, -, hten⟩
      rw [headerSize, lenSize, hfield, if_neg (by decide), if_neg (by decide)] at hcomplete
      omega
    · rw [decodeFrameHeaderIn_eq beyond hheader, hlen]
      exact ⟨fun _ => hcomplete, fun _ => by positivity⟩
  · rcases decodeFrameHeaderIn_incomplete (not_le.mp hcomplete) htwo with
      ⟨⟨header, hheader, hlen⟩, hcut⟩ | ⟨hnone, hcut⟩
    · refine ⟨fun _ => hcut, fun _ => ⟨by rw [hheader]; rfl, fun beyond => ?_⟩⟩
      rw [decodeFrameHeaderIn_eq beyond hheader]
      exact ⟨fun h => absurd hlen (not_lt.mpr h), fun h => absurd h hcomplete⟩
    · refine ⟨fun h => absurd h.inBounds ?_, fun h => absurd hcut h⟩
      rw [hnone]
      decide

theorem readsHeader_empty_text : ReadsHeader [0x81, 0x00] :=
  (readsHeader_iff (by decide)).mpr (by decide)

/-- Six bytes of a header that has ten: it is reported, and read up to its end. -/
theorem cutLength_read : decodeFrameHeaderIn [0x82, 0x7f, 0, 0, 0, 0] = none ∧
    headerSize [0x82, 0x7f, 0, 0, 0, 0] = 10 ∧
    (decodeFrameHeader (rawBuf (fun _ => 0) [0x82, 0x7f, 0, 0, 0, 0]) 6).actual_header_len = 10 :=
  ⟨by decide, by decide, by decide⟩

/-! ## The length of a frame -/

/-- The number of bytes of the frame. -/
def frameSize (data : List UInt8) : ℕ := headerSize data + announcedLen data

/-- A frame is found exactly when all of its bytes have arrived. -/
def DecodesWhole (data : Bytes) : Prop :=
  ∀ beyond, decodeFrame beyond data.1 data.1.length =
    (0, if frameSize data.1 ≤ data.1.length then frameSize data.1 else 0)

/-- A complete header is believed up to the lower half of its length. -/
lemma decodeFrame_of_complete (beyond : ℕ → UInt8) (h : headerSize block ≤ block.length) :
    decodeFrame beyond block block.length =
      (0, if headerSize block + announcedLen block % 2 ^ 32 > block.length then 0
        else headerSize block + announcedLen block % 2 ^ 32) := by
  have htwo : ¬ block.length < minProtocalSize := by
    rw [headerSize] at h
    rw [minProtocalSize]
    omega
  obtain ⟨header, hheader, hlen, hpayload⟩ := decodeFrameHeaderIn_complete h
  simp only [decodeFrame, if_neg htwo, decodeFrameHeaderIn_eq beyond hheader, hlen, hpayload]
  rw [if_neg (by omega)]
  norm_cast
  split_ifs <;> rfl

lemma decodeFrame_of_incomplete (beyond : ℕ → UInt8) (h : block.length < headerSize block) :
    decodeFrame beyond block block.length = (0, 0) := by
  rw [decodeFrame]
  split_ifs with htwo
  · rfl
  · rw [minProtocalSize] at htwo
    dsimp only
    rcases decodeFrameHeaderIn_incomplete h (by omega) with ⟨⟨header, hheader, hlen⟩, -⟩ | ⟨-, hcut⟩
    · rw [decodeFrameHeaderIn_eq beyond hheader, if_pos hlen]
    · rcases decodeFrameHeader_cut beyond hcut with hneg | ⟨hlong, hpayload⟩
      · rw [if_pos hneg]
      · rw [if_neg (by omega), if_pos (by omega)]

/-- **The length of a frame is the full one** unless its upper half is not zero and the header
and the lower half fit into what has arrived. -/
theorem decodesWhole_iff (data : Bytes) : DecodesWhole data ↔
    ¬ (headerSize data.1 ≤ data.1.length ∧ 2 ^ 32 ≤ announcedLen data.1 ∧
      headerSize data.1 + announcedLen data.1 % 2 ^ 32 ≤ data.1.length) := by
  have hlt := data.2
  have htwo : 2 ≤ headerSize data.1 := by
    rw [headerSize]
    omega
  rw [DecodesWhole, frameSize]
  by_cases hcomplete : headerSize data.1 ≤ data.1.length
  · simp only [decodeFrame_of_complete _ hcomplete, Prod.mk.injEq, true_and, forall_const,
      hcomplete]
    by_cases hlarge : 2 ^ 32 ≤ announcedLen data.1
    · have hpart : ¬ headerSize data.1 + announcedLen data.1 ≤ data.1.length := by omega
      rw [if_neg hpart]
      split_ifs <;> omega
    · rw [Nat.mod_eq_of_lt (by omega)]
      split_ifs <;> omega
  · simp only [decodeFrame_of_incomplete _ (not_le.mp hcomplete), Prod.mk.injEq, true_and,
      forall_const, hcomplete, false_and, not_false_eq_true, iff_true]
    rw [if_neg (by omega)]

/-- A frame that announces `2 ^ 32` bytes is found, without any of them. -/
theorem decodesWhole_not_upper : ¬ DecodesWhole
    ⟨[0x82, 0x7f, 0, 0, 0, 1, 0, 0, 0, 0], by decide⟩ ∧
    decodeFrame (fun _ => 0) [0x82, 0x7f, 0, 0, 0, 1, 0, 0, 0, 0] 10 = (0, 10) ∧
    announcedLen [0x82, 0x7f, 0, 0, 0, 1, 0, 0, 0, 0] = 2 ^ 32 := by
  refine ⟨fun h => ?_, by decide, by decide⟩
  exact absurd (h fun _ => 0) (by decide)

end header

end ProtocalWebsocket

end SignalEventLoop.Network
