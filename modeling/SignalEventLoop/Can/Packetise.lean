/-
# A frame as packets

`packCanFrame` and `sendFrameToSpecificPhysicalAddr` number the packets of a frame before there
are any, and `on_write` cuts the frame when it sends it.  The second builder has an id left over,
which the loop of `on_write` does not come to.
-/
import SignalEventLoop.Can.CanSend

namespace SignalEventLoop.Can

open Lib

/-- A frame that one of the builders makes for a group. -/
def BuiltFor (physicalAddr : UInt16) (frame : CanControlFrame) : Prop :=
  (∃ (data : List UInt8) (localAddr remoteAddr : UInt16),
    packCanFrame data localAddr remoteAddr (groupCanId physicalAddr.toNat) = some frame) ∨
  ∃ data : List UInt8, specificFrame physicalAddr data = some frame

/-- The id carries `index` in the bits 5 to 12, and is the id of the group in all others. -/
structure NumberedId (remoteCanId index canId : ℕ) : Prop where
  index_eq : (canId >>> 5) % 2 ^ 8 = index
  others : ∀ b, b < 5 ∨ 12 < b → canId.testBit b = remoteCanId.testBit b

/-- The packets are full up to the last one, are numbered downwards to 0, and are the bytes. -/
structure Packetised (remoteCanId : ℕ) (data : List UInt8) (packets : List (ℕ × List UInt8)) :
    Prop where
  count : packets.length = (data.length + 7) / 8
  bytes : packets.flatMap Prod.snd = data
  size : ∀ i packet, packets[i]? = some packet →
    1 ≤ packet.2.length ∧ packet.2.length ≤ 8 ∧ (i + 1 < packets.length → packet.2.length = 8)
  number : ∀ i packet, packets[i]? = some packet →
    NumberedId remoteCanId (packets.length - 1 - i) packet.1

/-! ## The ids -/

lemma numberedId_packetId (g : ℕ) {i : ℕ} (hi : i < 32) :
    NumberedId (groupCanId g) i (packetId (groupCanId g) i) := by
  refine ⟨by rw [Nat.shiftRight_eq_div_pow]; exact (packetId_groupCanId g hi).1, ?_⟩
  intro b hb
  rw [packetId, Nat.testBit_or, Nat.testBit_shiftLeft]
  rcases hb with hb | hb
  · simp [show ¬ 5 ≤ b by omega]
  · have hhigh : i.testBit (b - 5) = false := by
      refine Nat.testBit_lt_two_pow (hi.trans_le ?_)
      exact Nat.pow_le_pow_right Nat.two_pos (by omega : 5 ≤ b - 5)
    rw [hhigh, Bool.and_false, Bool.or_false]

/-- Both builders number the packets of the frame, and perhaps leave an id over. -/
lemma BuiltFor.optionCanIdList {physicalAddr : UInt16} {frame : CanControlFrame}
    (h : BuiltFor physicalAddr frame) (hmin : 4 ≤ frame.data.length)
    (hmax : frame.data.length ≤ 255) :
    ∃ extra, frame.optionCanIdList =
      countdown (groupCanId physicalAddr.toNat) ((frame.data.length + 7) / 8) ++ extra := by
  rcases h with ⟨data, localAddr, remoteAddr, hpack⟩ | ⟨data, hspecific⟩
  · have hlen : data.length ≠ 0 ∧ frame.data.length = data.length + 8 := by
      simp only [packCanFrame] at hpack
      split_ifs at hpack with hzero
      · obtain rfl := Option.some.inj hpack
        simp [CanControlFrame.empty] at hmin
      · obtain ⟨sum, -, rfl⟩ := Option.map_eq_some_iff.mp hpack
        exact ⟨hzero, by simp⟩
    obtain ⟨frame', hpack', -, hids⟩ := packCanFrame_packed localAddr remoteAddr
      (groupCanId physicalAddr.toNat) (by omega : 1 ≤ data.length) (by omega)
    obtain rfl : frame' = frame := Option.some.inj (hpack'.symm.trans hpack)
    exact ⟨[], by rw [hids, List.append_nil]⟩
  · have hlen : data.length ≠ 0 ∧ frame.data.length = data.length + 3 := by
      simp only [specificFrame] at hspecific
      split_ifs at hspecific with hzero
      obtain ⟨sum, -, rfl⟩ := Option.map_eq_some_iff.mp hspecific
      exact ⟨hzero, by rw [List.length_append]; exact Nat.add_comm 3 data.length⟩
    obtain ⟨frame', hspecific', -, -, hids⟩ := specificFrame_eq_some physicalAddr
      (by omega : 1 ≤ data.length) (by omega)
    obtain rfl : frame' = frame := Option.some.inj (hspecific'.symm.trans hspecific)
    exact ⟨_, hids⟩

/-! ## The loop of `on_write` -/

/-- With enough ids, the loop cuts all bytes into parts of 8. -/
lemma packetsFrom_spec (data : List UInt8) (ids : List ℕ) (offset : ℕ)
    (hoffset : offset ≤ data.length) (hids : (data.length - offset + 7) / 8 ≤ ids.length) :
    (packetsFrom data ids offset).length = (data.length - offset + 7) / 8 ∧
      (packetsFrom data ids offset).flatMap Prod.snd = data.drop offset ∧
      ∀ i packet, (packetsFrom data ids offset)[i]? = some packet →
        packet.2.length = min 8 (data.length - offset - 8 * i) := by
  induction ids generalizing offset with
  | nil =>
    rw [List.length_nil] at hids
    simp only [packetsFrom, List.length_nil, List.flatMap_nil, List.getElem?_nil, reduceCtorEq,
      false_imp_iff, implies_true, and_true]
    exact ⟨by omega, (List.drop_of_length_le (by omega)).symm⟩
  | cons canId ids ih =>
    rw [List.length_cons] at hids
    simp only [packetsFrom]
    generalize hsend : (if offset + 8 ≤ data.length then 8 else data.length - offset) = send_len
    have hlen : send_len = min 8 (data.length - offset) := by
      split_ifs at hsend <;> omega
    by_cases hzero : send_len = 0
    · rw [if_pos hzero]
      simp only [List.length_nil, List.flatMap_nil, List.getElem?_nil, reduceCtorEq, false_imp_iff,
        implies_true, and_true]
      exact ⟨by omega, (List.drop_of_length_le (by omega)).symm⟩
    · rw [if_neg hzero]
      obtain ⟨hcount, hbytes, hsize⟩ := ih (offset + send_len) (by omega) (by omega)
      refine ⟨?_, ?_, ?_⟩
      · rw [List.length_cons, hcount]
        omega
      · rw [List.flatMap_cons, hbytes, slice, ← List.drop_drop, List.take_append_drop]
      · intro i packet hpacket
        cases i with
        | zero =>
          obtain rfl := Option.some.inj hpacket
          rw [length_slice (by omega)]
          exact hlen
        | succ i =>
          rw [hsize i packet hpacket]
          omega

/-- The packets of a frame for a group. -/
lemma BuiltFor.packetised {physicalAddr : UInt16} {frame : CanControlFrame}
    (h : BuiltFor physicalAddr frame) (hmin : 4 ≤ frame.data.length)
    (hmax : frame.data.length ≤ 255) :
    Packetised (groupCanId physicalAddr.toNat) frame.data frame.packets := by
  obtain ⟨extra, hids⟩ := h.optionCanIdList hmin hmax
  obtain ⟨hcount, hbytes, hsize⟩ := packetsFrom_spec frame.data frame.optionCanIdList 0
    (Nat.zero_le _) (by rw [hids, List.length_append, length_countdown]; omega)
  rw [Nat.sub_zero] at hcount
  refine ⟨hcount, hbytes, ?_, ?_⟩
  · intro i packet hpacket
    have hi := (List.getElem?_eq_some_iff.mp hpacket).1
    have hlen := hsize i packet hpacket
    rw [CanControlFrame.packets] at hi ⊢
    rw [hcount] at hi ⊢
    omega
  · intro i packet hpacket
    have hi := (List.getElem?_eq_some_iff.mp hpacket).1
    obtain ⟨hid, -⟩ := packetsFrom_getElem? _ _ _ hpacket
    rw [CanControlFrame.packets] at hi ⊢
    rw [hcount] at hi ⊢
    rw [hids, List.getElem?_append_left (by rw [length_countdown]; exact hi),
      getElem?_countdown _ hi, Option.some.injEq] at hid
    rw [← hid]
    exact numberedId_packetId _ (by omega)

/-! ## A call with sends that succeed -/

variable {m : Medium} {results : List SendResult}

lemma writeFrame_sent (hsent : ∀ r ∈ results, r = .sent) (data : List UInt8) (ids : List ℕ)
    (offset : ℕ) :
    (writeFrame m data ids offset results).1 = (packetsFrom data ids offset).map m.wire ∧
      (writeFrame m data ids offset results).2.1 = .finished ∧
      ∀ r ∈ (writeFrame m data ids offset results).2.2, r = .sent := by
  induction ids generalizing offset results with
  | nil => exact ⟨rfl, rfl, hsent⟩
  | cons canId ids ih =>
    simp only [writeFrame, packetsFrom]
    set send_len := if offset + 8 ≤ data.length then 8 else data.length - offset
    by_cases hzero : send_len = 0
    · simpa [hzero] using hsent
    · have hhead : results.headD .sent = .sent := by
        cases results with
        | nil => rfl
        | cons r results => exact hsent r List.mem_cons_self
      obtain ⟨hout, hend, hrest⟩ :=
        ih (fun r hr => hsent r (List.mem_of_mem_tail hr)) (offset + send_len)
      simp only [if_neg hzero, if_pos hhead]
      exact ⟨by rw [hout, List.map_cons], hend, hrest⟩

lemma writeQueue_sent (hsent : ∀ r ∈ results, r = .sent) (queue : List CanControlFrame) :
    (writeQueue m queue results).out = wires m queue ∧
      (writeQueue m queue results).queue = [] := by
  induction queue generalizing results with
  | nil => exact ⟨rfl, rfl⟩
  | cons frame queue ih =>
    obtain ⟨hout, hend, hrest⟩ :=
      writeFrame_sent (m := m) hsent frame.data frame.optionCanIdList 0
    obtain ⟨hout', hqueue'⟩ := ih hrest
    simp only [writeQueue, if_pos hend]
    exact ⟨by rw [hout, hout']; rfl, hqueue'⟩

/-- **A frame becomes its packets.** The call of `on_write` that finds a frame of 4 to 255 bytes
at the front of its list puts one packet on the bus for every 8 bytes of it, numbered downwards,
and then goes on with the other frames. -/
theorem frame_packetised (physicalAddr : UInt16) (frame : CanControlFrame)
    (hbuilt : BuiltFor physicalAddr frame) (hmin : 4 ≤ frame.data.length)
    (hmax : frame.data.length ≤ 255) :
    ∃ packets, Packetised (physicalAddrToCanId physicalAddr.toNat CAN_CONTROL_OPTION_READ_WRITE)
        frame.data packets ∧
      ∀ (s : Sender) (queue : List CanControlFrame) (results : List SendResult),
        s.deviceStatus = .start → s.sendDataList = frame :: queue →
        (∀ r ∈ results, r = .sent) →
          (onWrite .socket s results).sendDataList = [] ∧
          (onWrite .socket s results).bus =
            s.bus ++ packets.map (fun p => .frame ⟨p.1 ||| CAN_EFF_FLAG, p.2⟩) ++
              wires .socket queue := by
  refine ⟨frame.packets, hbuilt.packetised hmin hmax, ?_⟩
  intro s queue results hstart hlist hsent
  obtain ⟨hout, hqueue⟩ := writeQueue_sent (m := .socket) hsent s.sendDataList
  have hready : Ready .socket s := hstart
  rw [onWrite, if_pos hready]
  simp only [sendFrames]
  refine ⟨hqueue, ?_⟩
  rw [hout, hlist, wires_cons, List.append_assoc]
  rfl

/-- A frame of nine bytes: a full packet with the number 1, and one byte with the number 0. -/
theorem frame_packetised_hand :
    ∃ packets, Packetised (physicalAddrToCanId 0x3001 CAN_CONTROL_OPTION_READ_WRITE)
        handFrame.data packets ∧
      ∀ (s : Sender) (queue : List CanControlFrame) (results : List SendResult),
        s.deviceStatus = .start → s.sendDataList = handFrame :: queue →
        (∀ r ∈ results, r = .sent) →
          (onWrite .socket s results).sendDataList = [] ∧
          (onWrite .socket s results).bus =
            s.bus ++ packets.map (fun p => .frame ⟨p.1 ||| CAN_EFF_FLAG, p.2⟩) ++
              wires .socket queue :=
  frame_packetised 0x3001 handFrame (.inl ⟨[0x07], 1, 0x301, by decide⟩) (by decide) (by decide)

end SignalEventLoop.Can
