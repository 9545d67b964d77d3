/-
# CAN frames over a serial port

`CanSerialProxy::on_write` and `CanSerialProxy::on_recv` (`imp/can-utils/can-serial-proxy.cpp`).
A packet is written as `A T`, four bytes for the id, the length, the payload and `CR LF`.  One
read gives up to 1024 bytes; `on_recv` looks for the marker `A T`, takes the packet behind it
and goes on behind the packet.  Its bounds are differences of unsigned numbers, which wrap
around when the read is short.

A call returns `none` when it has no defined result: it reads behind its buffer, writes behind
the eight bytes of a `can_frame`, or does not return.

The marker is only looked for between two packets.  The cursor stands at the beginning of a
packet whenever the bytes before it are whole packets, so that the bytes of the ids and the
payloads do not matter.
-/
import SignalEventLoop.Can.CanFrame

namespace SignalEventLoop.Can

open Lib

/-! ## Encoding -/

/-- What `on_write` puts into `send_cache`. -/
def encodeSerial (packet : ℕ × List UInt8) : List UInt8 :=
  let tmp := ((packet.1 <<< 3) % 2 ^ 32) ||| 0x04
  [0x41, 0x54, UInt8.ofNat (tmp >>> 24), UInt8.ofNat (tmp >>> 16), UInt8.ofNat (tmp >>> 8),
    UInt8.ofNat tmp, UInt8.ofNat packet.2.length] ++ packet.2 ++ [0x0d, 0x0a]

/-- The bytes of several packets. -/
def encodeAll (packets : List (ℕ × List UInt8)) : List UInt8 := packets.flatMap encodeSerial

/-- A packet with an id of 29 bits and up to 8 bytes. -/
structure IsPacket (packet : ℕ × List UInt8) : Prop where
  id_lt : packet.1 < 2 ^ 29
  pos : 1 ≤ packet.2.length
  le : packet.2.length ≤ 8

/-! ## Decoding -/

/-- The difference of two `uint32_t`. -/
def uintSub (a b : ℕ) : ℕ := (a + 2 ^ 32 - b) % 2 ^ 32

def CACHE_SIZE : ℕ := 1024

/-- The buffer: behind the bytes that were read it is zero. -/
def recvBuf (read : List UInt8) : List UInt8 := read ++ List.replicate (CACHE_SIZE - read.length) 0

/-- The loop that looks for the marker, for up to `fuel` candidates: the cursor behind it. -/
def findMarker (read : List UInt8) : ℕ → ℕ → Option ℕ
  | 0, _ => none
  | fuel + 1, i =>
    if i ≤ uintSub read.length 9 then
      let i := i + (read.drop i).findIdx (· = 0x41)
      let i := i + 1
      if i ≤ uintSub read.length 8 ∧ (recvBuf read).getD i 0 = 0x54 then some (i + 1)
      else findMarker read fuel i
    else some i

/-- The part of `on_recv` behind the search for the marker: `some none` when it leaves the loop,
and otherwise the packet and the cursor behind it. -/
def recvPacket (read : List UInt8) (i : ℕ) : Option (Option (CanFrame × ℕ)) :=
  if uintSub read.length i < 7 then some none
  else
    (load (recvBuf read) i 5).bind fun head =>
      let tmp := ((head.getD 0 0).toNat <<< 24) ||| ((head.getD 1 0).toNat <<< 16) |||
        ((head.getD 2 0).toNat <<< 8) ||| (head.getD 3 0).toNat
      let can_id := tmp >>> 3
      let payload_len := (head.getD 4 0).toNat
      if uintSub read.length i < 4 + 1 + payload_len + 2 then some none
      else
        (recvBuf read)[i + 4 + 1 + payload_len]?.bind fun cr =>
          if cr ≠ 0x0d then some none
          else
            (recvBuf read)[i + 4 + 1 + payload_len + 1]?.bind fun lf =>
              if lf ≠ 0x0a then some none
              else if payload_len > 8 then none
              else some (some (⟨can_id ||| CAN_EFF_FLAG, slice (recvBuf read) (i + 5) payload_len⟩,
                i + (5 + payload_len + 2)))

/-- The loop of `on_recv`, for up to `fuel` packets: the frames for `handCanFrame`. -/
def recvLoop (read : List UInt8) : ℕ → ℕ → Option (List CanFrame)
  | 0, _ => none
  | fuel + 1, i =>
    if i ≤ uintSub read.length 9 then
      (findMarker read (read.length + 2) i).bind fun i =>
        (recvPacket read i).bind fun
          | none => some []
          | some (frame, i) => (recvLoop read fuel i).map fun frames => frame :: frames
    else some []

/-- `on_recv` of one read. -/
def onRecv (read : List UInt8) : Option (List CanFrame) :=
  if read.length < 7 ∨ read.getD 0 0 ≠ 0x41 ∨ read.getD 1 0 ≠ 0x54 then some []
  else recvLoop read (read.length + 1) 0

/-- The calls of `on_recv` for successive reads. -/
def onRecvAll : List (List UInt8) → Option (List CanFrame)
  | [] => some []
  | read :: reads => (onRecv read).bind fun frames =>
      (onRecvAll reads).map fun later => frames ++ later

/-! ## The bytes of a packet -/

lemma uintSub_eq {a b : ℕ} (hle : b ≤ a) (hlt : a < 2 ^ 32) : uintSub a b = a - b := by
  rw [uintSub]
  omega

lemma length_encodeSerial (packet : ℕ × List UInt8) :
    (encodeSerial packet).length = packet.2.length + 9 := by
  simp [encodeSerial]

@[simp] lemma encodeAll_nil : encodeAll [] = [] := rfl

@[simp] lemma encodeAll_cons (packet : ℕ × List UInt8) (packets : List (ℕ × List UInt8)) :
    encodeAll (packet :: packets) = encodeSerial packet ++ encodeAll packets := rfl

lemma encodeAll_append (xs ys : List (ℕ × List UInt8)) :
    encodeAll (xs ++ ys) = encodeAll xs ++ encodeAll ys := by
  simp [encodeAll]

/-- The four bytes of an id give the id back. -/
lemma id_of_bytes {id : ℕ} (h : id < 2 ^ 29) :
    (((UInt8.ofNat ((((id <<< 3) % 2 ^ 32) ||| 0x04) >>> 24)).toNat <<< 24) |||
      ((UInt8.ofNat ((((id <<< 3) % 2 ^ 32) ||| 0x04) >>> 16)).toNat <<< 16) |||
      ((UInt8.ofNat ((((id <<< 3) % 2 ^ 32) ||| 0x04) >>> 8)).toNat <<< 8) |||
      (UInt8.ofNat (((id <<< 3) % 2 ^ 32) ||| 0x04)).toNat) >>> 3 = id := by
  have hor : ((id <<< 3) % 2 ^ 32) ||| 0x04 = id * 8 + 4 := by
    rw [Nat.mod_eq_of_lt (by rw [Nat.shiftLeft_eq]; omega),
      ← Nat.shiftLeft_add_eq_or_of_lt (by omega), Nat.shiftLeft_eq]
  rw [hor]
  simp only [UInt8.toNat_ofNat', Nat.shiftRight_eq_div_pow]
  rw [Nat.or_assoc, Nat.or_assoc, ← Nat.shiftLeft_add_eq_or_of_lt (i := 8) (by omega),
    ← Nat.shiftLeft_add_eq_or_of_lt (i := 16) (by rw [Nat.shiftLeft_eq]; omega),
    ← Nat.shiftLeft_add_eq_or_of_lt (i := 24) (by simp only [Nat.shiftLeft_eq]; omega)]
  simp only [Nat.shiftLeft_eq]
  omega

/-- The parts of an encoded packet. -/
lemma encodeSerial_shape {packet : ℕ × List UInt8} (hp : IsPacket packet) :
    ∃ b₀ b₁ b₂ b₃ : UInt8,
      encodeSerial packet = [0x41, 0x54, b₀, b₁, b₂, b₃, UInt8.ofNat packet.2.length] ++
        (packet.2 ++ [0x0d, 0x0a]) ∧
      ((b₀.toNat <<< 24) ||| (b₁.toNat <<< 16) ||| (b₂.toNat <<< 8) ||| b₃.toNat) >>> 3 =
        packet.1 :=
  ⟨_, _, _, _, List.append_assoc _ _ _, id_of_bytes hp.id_lt⟩

/-! ## The cursor at the beginning of a packet -/

section Cursor

variable {read pre tail : List UInt8} {packet : ℕ × List UInt8}

lemma slice_recvBuf {i n : ℕ} (h : i + n ≤ read.length) :
    slice (recvBuf read) i n = slice read i n := by
  rw [slice, slice, recvBuf, List.drop_append_of_le_length (by omega),
    List.take_append_of_le_length (by rw [List.length_drop]; omega)]

lemma getElem?_recvBuf {i : ℕ} (h : i < read.length) : (recvBuf read)[i]? = read[i]? := by
  rw [recvBuf, List.getElem?_append_left h]

lemma length_recvBuf (h : read.length ≤ 1024) : (recvBuf read).length = 1024 := by
  simp only [recvBuf, CACHE_SIZE, List.length_append, List.length_replicate]
  omega

lemma findMarker_encoded (hp : IsPacket packet) (hread : read = pre ++ encodeSerial packet ++ tail)
    (hlen : read.length ≤ 1024) :
    findMarker read (read.length + 2) pre.length = some (pre.length + 2) := by
  obtain ⟨b₀, b₁, b₂, b₃, hshape, -⟩ := encodeSerial_shape hp
  rw [hshape] at hread
  have hlength : read.length = pre.length + (packet.2.length + 9 + tail.length) := by
    simp [hread]
    omega
  have hpos := hp.pos
  have hfind : (read.drop pre.length).findIdx (· = 0x41) = 0 := by
    simp [hread, List.findIdx_cons]
  have hmark : (recvBuf read).getD (pre.length + 1) 0 = 0x54 := by
    rw [List.getD_eq_getElem?_getD, getElem?_recvBuf (by omega)]
    simp [hread]
  have hnine := uintSub_eq (show 9 ≤ read.length by omega) (by omega)
  have height := uintSub_eq (show 8 ≤ read.length by omega) (by omega)
  simp only [findMarker, hfind, Nat.add_zero, hmark, hnine, height, and_true]
  rw [if_pos (by omega), if_pos (by omega)]

lemma recvPacket_encoded (hp : IsPacket packet) (hread : read = pre ++ encodeSerial packet ++ tail)
    (hlen : read.length ≤ 1024) :
    recvPacket read (pre.length + 2) =
      some (some (toCanFrame packet, pre.length + (packet.2.length + 9))) := by
  obtain ⟨b₀, b₁, b₂, b₃, hshape, hid⟩ := encodeSerial_shape hp
  rw [hshape] at hread
  have hlength : read.length = pre.length + (packet.2.length + 9 + tail.length) := by
    simp [hread]
    omega
  have hpos := hp.pos
  have hle := hp.le
  have hsub : uintSub read.length (pre.length + 2) = packet.2.length + 7 + tail.length := by
    rw [uintSub_eq (by omega) (by omega)]
    omega
  have hpayload : (UInt8.ofNat packet.2.length).toNat = packet.2.length := by
    rw [UInt8.toNat_ofNat', Nat.mod_eq_of_lt (by omega)]
  have hhead : load (recvBuf read) (pre.length + 2) 5 =
      some [b₀, b₁, b₂, b₃, UInt8.ofNat packet.2.length] := by
    rw [load_eq_some, length_recvBuf hlen, slice_recvBuf (by omega)]
    refine ⟨by omega, ?_⟩
    simp [slice, hread]
  have hcr : (recvBuf read)[pre.length + 2 + 4 + 1 + packet.2.length]? = some 0x0d := by
    rw [getElem?_recvBuf (by omega), show pre.length + 2 + 4 + 1 + packet.2.length =
      pre.length + (packet.2.length + 7) by omega]
    simp [hread]
  have hlf : (recvBuf read)[pre.length + 2 + 4 + 1 + packet.2.length + 1]? = some 0x0a := by
    rw [getElem?_recvBuf (by omega), show pre.length + 2 + 4 + 1 + packet.2.length + 1 =
      pre.length + (packet.2.length + 1 + 7) by omega]
    simp [hread]
  have hdata : slice (recvBuf read) (pre.length + 2 + 5) packet.2.length = packet.2 := by
    rw [slice_recvBuf (by omega), slice, Nat.add_assoc]
    simp [hread]
  rw [recvPacket, hsub, if_neg (by omega), hhead]
  simp only [Option.bind_some, List.getD_cons_zero, List.getD_cons_succ, hpayload, hcr, hlf, hid,
    hdata]
  rw [if_neg (by omega), if_neg (by decide), if_neg (by decide), if_neg (by omega)]
  congr 3
  omega

/-- **One packet.** The loop takes the packet at the cursor and goes on behind it. -/
lemma recvLoop_encoded (hp : IsPacket packet) (hread : read = pre ++ encodeSerial packet ++ tail)
    (hlen : read.length ≤ 1024) (fuel : ℕ) :
    recvLoop read (fuel + 1) pre.length =
      (recvLoop read fuel (pre ++ encodeSerial packet).length).map fun frames =>
        toCanFrame packet :: frames := by
  have hlength : read.length = pre.length + (packet.2.length + 9 + tail.length) := by
    rw [hread]
    simp [length_encodeSerial]
  have hpos := hp.pos
  rw [recvLoop, uintSub_eq (by omega) (by omega), if_pos (by omega),
    findMarker_encoded hp hread hlen, Option.bind_some, recvPacket_encoded hp hread hlen,
    List.length_append, length_encodeSerial]
  rfl

/-- Behind the last packet the loop ends. -/
lemma recvLoop_end (h : 9 ≤ read.length) (hlen : read.length ≤ 1024) (fuel : ℕ) :
    recvLoop read (fuel + 1) read.length = some [] := by
  rw [recvLoop, uintSub_eq h (by omega), if_neg (by omega)]

/-- The loop from the beginning of a packet on. -/
lemma recvLoop_encodeAll (pre : List UInt8) {packets : List (ℕ × List UInt8)}
    (hp : ∀ p ∈ packets, IsPacket p) (hread : read = pre ++ encodeAll packets)
    (hlen : read.length ≤ 1024) (hge : 9 ≤ read.length) {fuel : ℕ}
    (hfuel : packets.length < fuel) :
    recvLoop read fuel pre.length = some (packets.map toCanFrame) := by
  induction packets generalizing pre fuel with
  | nil =>
    obtain ⟨fuel, rfl⟩ := Nat.exists_eq_add_of_lt hfuel
    obtain rfl : read = pre := by simpa using hread
    rw [List.length_nil, Nat.zero_add]
    exact recvLoop_end hge hlen fuel
  | cons packet packets ih =>
    obtain ⟨fuel, rfl⟩ := Nat.exists_eq_add_of_lt hfuel
    have hread' : read = pre ++ encodeSerial packet ++ encodeAll packets := by
      rw [hread, encodeAll_cons, List.append_assoc]
    rw [recvLoop_encoded (hp packet List.mem_cons_self) hread' hlen,
      ih _ (fun p hmem => hp p (List.mem_cons_of_mem _ hmem)) hread'
        (by simp only [List.length_cons]; omega)]
    rfl

lemma length_le_encodeAll (packets : List (ℕ × List UInt8)) :
    packets.length * 9 ≤ (encodeAll packets).length := by
  induction packets with
  | nil => simp
  | cons packet packets ih =>
    simp only [encodeAll_cons, List.length_append, length_encodeSerial, List.length_cons]
    omega

lemma onRecv_encodeAll_cons {packets : List (ℕ × List UInt8)}
    (hp : ∀ p ∈ packet :: packets, IsPacket p)
    (hlen : (encodeAll (packet :: packets)).length ≤ 1024) :
    onRecv (encodeAll (packet :: packets)) = some ((packet :: packets).map toCanFrame) := by
  obtain ⟨b₀, b₁, b₂, b₃, hshape, -⟩ := encodeSerial_shape (hp packet List.mem_cons_self)
  have hmin := length_le_encodeAll (packet :: packets)
  rw [List.length_cons] at hmin
  have hstart : ¬ ((encodeAll (packet :: packets)).length < 7 ∨
      (encodeAll (packet :: packets)).getD 0 0 ≠ 0x41 ∨
      (encodeAll (packet :: packets)).getD 1 0 ≠ 0x54) := by
    rintro (h | h | h)
    · omega
    · simp [hshape] at h
    · simp [hshape] at h
  rw [onRecv, if_neg hstart]
  refine recvLoop_encodeAll [] hp (List.nil_append _).symm hlen (by omega) ?_
  rw [List.length_cons]
  omega

/-- **The round trip.** One read of whole packets hands every one of them to `handCanFrame`, in
order, whatever their ids and payloads are. -/
theorem serial_roundTrip (packets : List (ℕ × List UInt8)) (hp : ∀ p ∈ packets, IsPacket p)
    (hlen : (encodeAll packets).length ≤ 1024) :
    onRecv (encodeAll packets) = some (packets.map fun p => ⟨p.1 ||| CAN_EFF_FLAG, p.2⟩) := by
  cases packets with
  | nil => rfl
  | cons packet packets => exact onRecv_encodeAll_cons hp hlen

/-- Two packets whose ids and payloads have the bytes of the markers in them. -/
theorem serial_roundTrip_markers :
    onRecv (encodeAll [(0x0A8A8281, [0x41, 0x54, 0x0d, 0x0a]), (0x1FFFFFFF, [0x0d, 0x0a, 0x41])]) =
      some [⟨0x8A8A8281, [0x41, 0x54, 0x0d, 0x0a]⟩, ⟨0x9FFFFFFF, [0x0d, 0x0a, 0x41]⟩] :=
  serial_roundTrip _ (by
    intro p hp
    rcases List.mem_pair.mp hp with rfl | rfl
    all_goals exact ⟨by decide, by decide, by decide⟩) (by decide)

end Cursor

end SignalEventLoop.Can
