/-
# Frames on the CAN bus

`canControlFrame`, `CanPhysicalAddr`, `CanControlBase::packCanFrame`,
`CanControlBase::physicalAddrToCanId` and `canIdToPhysicalAddr` (`imp/can-utils/can-type-def.h`),
`CanUtilSocket::sendFrameToSpecificPhysicalAddr` (`imp/can-utils/can-util-socket.cpp`), and the
loop of `on_write` that cuts a frame into packets of up to 8 bytes.

A frame is sent to a group.  The id of a packet has the address of the group in its upper bits
and the number of the packet in the bits 5 to 12; the packets are numbered downwards, so that
the last one has the number 0.
-/
import Mathlib.Data.UInt
import SignalEventLoop.Lib.ByteMem

namespace SignalEventLoop.Can

open Lib

/-- `canControlFrame`: the bytes `data[0 .. data_len)`, and the ids of its packets. -/
structure CanControlFrame where
  defaultCapacity : ℕ
  data : List UInt8
  optionCanIdList : List ℕ
  errorFlag : Bool
deriving DecidableEq

namespace CanControlFrame

def MAX_CAN_PAYLOAD_SIZE : ℕ := 256

/-- The default constructor. -/
def empty : CanControlFrame := ⟨0, [], [], false⟩

/-- The constructor of a cache. -/
def ofCapacity (capacity canId : ℕ) : CanControlFrame :=
  ⟨if capacity < MAX_CAN_PAYLOAD_SIZE * 2 then MAX_CAN_PAYLOAD_SIZE * 2 else capacity, [],
    [canId], false⟩

end CanControlFrame

/-- `can_frame`: the id with its flags, and the `can_dlc` bytes. -/
structure CanFrame where
  canId : ℕ
  data : List UInt8
deriving DecidableEq

def CAN_EFF_FLAG : ℕ := 0x80000000
def CAN_ERR_FLAG : ℕ := 0x20000000
def CAN_SFF_MASK : ℕ := 0x7FF
def CAN_EFF_MASK : ℕ := 0x1FFFFFFF
def CAN_ERR_MASK : ℕ := 0x1FFFFFFF

/-! ## Addresses and ids -/

/-- `CanPhysicalAddr`. -/
inductive CanPhysicalAddr where
  | groupUnknown
  | applicationGroup
  | hand1PGroup
  | hand2PGroup
  | board1PGroup
  | board2PGroup
  | frontStageLightGroup
  | backStageLightGroup
  | centralGroup
  | broadcastGroup
deriving DecidableEq

/-- The value of the enumerator. -/
def CanPhysicalAddr.toNat : CanPhysicalAddr → ℕ
  | groupUnknown => 0x00
  | applicationGroup => 0x0001
  | hand1PGroup => 0x3001
  | hand2PGroup => 0x3002
  | board1PGroup => 0x3003
  | board2PGroup => 0x3004
  | frontStageLightGroup => 0x2001
  | backStageLightGroup => 0x2002
  | centralGroup => 0x2003
  | broadcastGroup => 0xFFFF

def CAN_CONTROL_OPTION_READ_WRITE : ℕ := 0x1

def physicalAddrToCanId (idGroup controlId : ℕ) : ℕ :=
  let desADDr := idGroup % 2 ^ 16
  let pack_num := 0
  let desH := desADDr >>> 8
  let desL := desADDr &&& 0xFF
  let stdId := (desH <<< 3) ||| (desL >>> 5)
  let extid := ((desL &&& 0x1f) <<< 13) ||| (pack_num <<< 5) ||| (controlId &&& 0x1f)
  let stdId := stdId &&& 0x7FF
  let extid := extid &&& 0x3FFFF
  (stdId <<< 18) ||| extid

/-- `physicalAddrToCanId` with its default argument, as every caller uses it. -/
def groupCanId (idGroup : ℕ) : ℕ := physicalAddrToCanId idGroup CAN_CONTROL_OPTION_READ_WRITE

def canIdToPhysicalAddr (canid : ℕ) : CanPhysicalAddr :=
  let addrH := (canid >>> 21) &&& 0xFF
  let addrL := (canid >>> 13) &&& 0xFF
  match (addrH <<< 8) ||| addrL with
  | 0x0001 => .applicationGroup
  | 0x3001 => .hand1PGroup
  | 0x3002 => .hand2PGroup
  | 0x3003 => .board1PGroup
  | 0x3004 => .board2PGroup
  | 0x2001 => .frontStageLightGroup
  | 0x2002 => .backStageLightGroup
  | 0x2003 => .centralGroup
  | 0xFFFF => .broadcastGroup
  | _ => .groupUnknown

/-- The id of the packet with the number `index`. -/
def packetId (remoteCanId index : ℕ) : ℕ := remoteCanId ||| (index <<< 5)

/-! ## Building frames -/

/-- The check byte of the bytes from the fourth on.  The loop counts with a `uint8_t`: it does
not end when there are more than 255 bytes. -/
def checkSum (data : List UInt8) : Option UInt8 :=
  if data.length < 2 ^ 8 then some (UInt8.ofNat (0x100 - (data.drop 3).sum.toNat)) else none

/-- The loop of `packCanFrame` over the ids, for up to `fuel` of them. -/
def packIds (remoteCanId : ℕ) : ℕ → ℕ → ℕ → List ℕ → List ℕ
  | 0, _, _, ids => ids
  | fuel + 1, offset, index, ids =>
    if offset > 0 then
      let index := index + 1
      let ids := packetId remoteCanId index :: ids
      if offset < 8 then ids else packIds remoteCanId fuel (offset - 8) index ids
    else ids

/-- `packCanFrame`. -/
def packCanFrame (data : List UInt8) (localAddr remoteAddr : UInt16) (remoteCanId : ℕ) :
    Option CanControlFrame :=
  if data.length = 0 then some .empty
  else
    let body := [UInt8.ofNat (data.length + 2), (localAddr >>> 8).toUInt8, localAddr.toUInt8,
      (remoteAddr >>> 8).toUInt8, remoteAddr.toUInt8] ++ data
    (checkSum ([0x55, 0xAA, 0] ++ body)).map fun sum =>
      { CanControlFrame.empty with
        data := [0x55, 0xAA, sum] ++ body
        optionCanIdList := packIds remoteCanId data.length data.length 0 [packetId remoteCanId 0] }

/-- The loop of `sendFrameToSpecificPhysicalAddr` over the ids, for up to `fuel` of them. -/
def specificIds (remoteCanId : ℕ) : ℕ → ℕ → ℕ → List ℕ → List ℕ
  | 0, _, _, ids => ids
  | fuel + 1, offset, index, ids =>
    if offset > 0 then
      let ids := packetId remoteCanId index :: ids
      if offset ≤ 8 then ids else specificIds remoteCanId fuel (offset - 8) (index + 1) ids
    else ids

/-- The frame that `sendFrameToSpecificPhysicalAddr` hands to `sendCanFrame`; its result is
`false`, and no frame is built, when there is no data. -/
def specificFrame (physicalAddr : UInt16) (data : List UInt8) : Option CanControlFrame :=
  if data.length = 0 then none
  else
    let remoteCanId := groupCanId physicalAddr.toNat
    let data_len := data.length + 3
    (checkSum ([0x55, 0xAA, 0] ++ data)).map fun sum =>
      { CanControlFrame.empty with
        data := [0x55, 0xAA, sum] ++ data
        optionCanIdList := specificIds remoteCanId data_len data_len 0 [packetId remoteCanId 0] }

/-! ## The packets of a frame -/

/-- The loop of `on_write` over the ids: the packets of a frame from the byte `offset` on. -/
def packetsFrom (data : List UInt8) : List ℕ → ℕ → List (ℕ × List UInt8)
  | [], _ => []
  | canId :: ids, send_offset =>
    let send_len := if send_offset + 8 ≤ data.length then 8 else data.length - send_offset
    if send_len = 0 then []
    else (canId, slice data send_offset send_len) :: packetsFrom data ids (send_offset + send_len)

/-- The packets of a frame, as pairs of an id and up to 8 bytes. -/
def CanControlFrame.packets (frame : CanControlFrame) : List (ℕ × List UInt8) :=
  packetsFrom frame.data frame.optionCanIdList 0

/-- The `can_frame` that is sent for a packet. -/
def toCanFrame (packet : ℕ × List UInt8) : CanFrame := ⟨packet.1 ||| CAN_EFF_FLAG, packet.2⟩

/-! ## The ids of a frame -/

/-- The ids of `n` packets, numbered downwards. -/
def countdown (remoteCanId n : ℕ) : List ℕ := ((List.range n).map (packetId remoteCanId)).reverse

lemma length_countdown (remoteCanId n : ℕ) : (countdown remoteCanId n).length = n := by
  simp [countdown]

lemma countdown_succ (remoteCanId n : ℕ) :
    countdown remoteCanId (n + 1) = packetId remoteCanId n :: countdown remoteCanId n := by
  simp [countdown, List.range_succ]

lemma getElem?_countdown (remoteCanId : ℕ) {n i : ℕ} (h : i < n) :
    (countdown remoteCanId n)[i]? = some (packetId remoteCanId (n - 1 - i)) := by
  rw [countdown, List.getElem?_reverse (by simpa using h), List.getElem?_map, List.length_map,
    List.length_range, List.getElem?_range (by omega), Option.map_some]

/-- The loop of `packCanFrame` numbers a packet for every 8 bytes that are left. -/
lemma packIds_eq (remoteCanId : ℕ) (fuel offset index : ℕ) (h : offset ≤ fuel) :
    packIds remoteCanId fuel offset index (countdown remoteCanId (index + 1)) =
      countdown remoteCanId (index + 1 + (offset + 7) / 8) := by
  induction fuel generalizing offset index with
  | zero =>
    obtain rfl : offset = 0 := by omega
    rfl
  | succ fuel ih =>
    rw [packIds]
    by_cases hpos : offset > 0
    · simp only [if_pos hpos, ← countdown_succ]
      by_cases hlast : offset < 8
      · rw [if_pos hlast]
        congr 1
        omega
      · rw [if_neg hlast, ih (offset - 8) (index + 1) (by omega)]
        congr 1
        omega
    · rw [if_neg hpos]
      congr 1
      omega

/-- The loop of `sendFrameToSpecificPhysicalAddr` does so too, behind one id too many. -/
lemma specificIds_eq (remoteCanId : ℕ) (rest : List ℕ) (fuel offset index : ℕ)
    (h : offset ≤ fuel) :
    specificIds remoteCanId fuel offset index (countdown remoteCanId index ++ rest) =
      countdown remoteCanId (index + (offset + 7) / 8) ++ rest := by
  induction fuel generalizing offset index with
  | zero =>
    obtain rfl : offset = 0 := by omega
    rfl
  | succ fuel ih =>
    rw [specificIds]
    by_cases hpos : offset > 0
    · simp only [if_pos hpos, ← List.cons_append, ← countdown_succ]
      by_cases hlast : offset ≤ 8
      · rw [if_pos hlast]
        congr 2
        omega
      · rw [if_neg hlast, ih (offset - 8) (index + 1) (by omega)]
        congr 2
        omega
    · rw [if_neg hpos]
      congr 2
      omega

/-! ## What a packed frame looks like -/

/-- The bytes that `unpackCanFrame` accepts: the head, the check byte, and a length that counts
the bytes behind the first six. -/
structure Packed (data : List UInt8) : Prop where
  head : ∃ check length rest, data = 0x55 :: 0xAA :: check :: length :: rest ∧
    length.toNat + 6 = data.length
  check : checkSum data = data[2]?
  length_ge : 9 ≤ data.length
  length_lt : data.length < 2 ^ 8

lemma checkSum_congr {xs ys : List UInt8} (hlen : xs.length = ys.length)
    (hdrop : xs.drop 3 = ys.drop 3) : checkSum xs = checkSum ys := by
  rw [checkSum, checkSum, hlen, hdrop]

/-- **`packCanFrame`.** Up to 247 bytes give a frame with one id for every 8 bytes of it. -/
theorem packCanFrame_packed {data : List UInt8} (localAddr remoteAddr : UInt16) (remoteCanId : ℕ)
    (hpos : 1 ≤ data.length) (hle : data.length ≤ 247) :
    ∃ frame, packCanFrame data localAddr remoteAddr remoteCanId = some frame ∧
      Packed frame.data ∧
      frame.optionCanIdList = countdown remoteCanId ((frame.data.length + 7) / 8) := by
  have hne : data.length ≠ 0 := by omega
  have hone : [packetId remoteCanId 0] = countdown remoteCanId (0 + 1) := rfl
  simp only [packCanFrame, if_neg hne]
  set body := [UInt8.ofNat (data.length + 2), (localAddr >>> 8).toUInt8, localAddr.toUInt8,
      (remoteAddr >>> 8).toUInt8, remoteAddr.toUInt8] ++ data with hbody
  have hlen : body.length = data.length + 5 := by
    simp [hbody]
  obtain ⟨sum, hsum⟩ : ∃ sum, checkSum ([0x55, 0xAA, 0] ++ body) = some sum := by
    refine ⟨_, if_pos ?_⟩
    simp [hlen]
    omega
  refine ⟨_, by rw [hsum]; rfl, ⟨⟨sum, UInt8.ofNat (data.length + 2), body.tail, rfl, ?_⟩, ?_, ?_,
    ?_⟩, ?_⟩
  · simp only [List.length_append, List.length_cons, List.length_nil, hlen, UInt8.toNat_ofNat']
    omega
  · simp only [List.cons_append, List.nil_append, List.getElem?_cons_succ, List.getElem?_cons_zero]
    rw [← hsum]
    exact checkSum_congr rfl rfl
  · simp [hlen]
    omega
  · simp [hlen]
    omega
  · simp only [List.length_append, List.length_cons, List.length_nil, hlen]
    rw [hone, packIds_eq remoteCanId data.length data.length 0 le_rfl]
    congr 1
    omega

/-- **`sendFrameToSpecificPhysicalAddr`.** Up to 252 bytes give a frame with one id more than it
has packets. -/
theorem specificFrame_eq_some {data : List UInt8} (physicalAddr : UInt16)
    (hpos : 1 ≤ data.length) (hle : data.length ≤ 252) :
    ∃ frame, specificFrame physicalAddr data = some frame ∧
      4 ≤ frame.data.length ∧ frame.data.length < 2 ^ 8 ∧
      frame.optionCanIdList =
        countdown (groupCanId physicalAddr.toNat) ((frame.data.length + 7) / 8) ++
          [packetId (groupCanId physicalAddr.toNat) 0] := by
  have hne : data.length ≠ 0 := by omega
  set remoteCanId := groupCanId physicalAddr.toNat with hrid
  have hids := specificIds_eq remoteCanId [packetId remoteCanId 0] (data.length + 3)
    (data.length + 3) 0 le_rfl
  simp only [specificFrame, if_neg hne, ← hrid]
  obtain ⟨sum, hsum⟩ : ∃ sum, checkSum ([0x55, 0xAA, 0] ++ data) = some sum := by
    refine ⟨_, if_pos ?_⟩
    simp
    omega
  refine ⟨_, by rw [hsum]; rfl, ?_, ?_, ?_⟩
  · simp
    omega
  · simp
    omega
  · simp only [List.length_append, List.length_cons, List.length_nil, Nat.zero_add]
    rw [show 3 + data.length = data.length + 3 by omega]
    simpa [countdown] using hids

end SignalEventLoop.Can
