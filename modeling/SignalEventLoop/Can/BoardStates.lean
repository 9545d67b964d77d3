/-
# The states of the boards

The last state of a sensor that the application has heard is its bit of the last test message of
its board, and the last status of a field is that of the last status message; over the bus, of
the messages that were sent.
-/
import SignalEventLoop.Can.ApplicationMessages

namespace SignalEventLoop.Can

open Lib

variable {board : Board} {sensor : ℕ} {mask : UInt8}

/-! ## What a message reports -/

/-- The labels of the `switch` are different. -/
lemma deviceOf_eq_some {sendAddr : ℕ} {addr : CanDeviceAddr} :
    deviceOf sendAddr = some addr ↔ READ_CAN_DEVICE_GROUP_ADDR addr.toNat = sendAddr := by
  constructor
  · intro h
    have hfound := List.find?_some h
    exact of_decide_eq_true hfound
  · rintro rfl
    rcases addr with board | _ | _ | _ | _ | _ | _
    · cases board <;> rfl
    all_goals rfl

/-- The message is for the application, and comes from the board. -/
structure FromBoard (board : Board) (m : CanControlFrame) : Prop where
  optionCanIdList : m.optionCanIdList ≠ []
  group : m.group = .applicationGroup
  sendAddr : sendAddrOf m.data = READ_CAN_DEVICE_GROUP_ADDR board.toNat

instance (board : Board) (m : CanControlFrame) : Decidable (FromBoard board m) :=
  decidable_of_iff (m.optionCanIdList ≠ [] ∧ m.group = .applicationGroup ∧
      sendAddrOf m.data = READ_CAN_DEVICE_GROUP_ADDR board.toNat)
    ⟨fun h => ⟨h.1, h.2.1, h.2.2⟩, fun h => ⟨h.1, h.2, h.3⟩⟩

/-- The state of the sensors in a test message of the board. -/
def testState (board : Board) (m : CanControlFrame) : Option UInt8 :=
  if FromBoard board m ∧ m.data.length = 8 ∧ m.data.getD 6 0 = 0x80 then some (m.data.getD 7 0)
  else none

/-- The status of the field in a message of the board. -/
def filedState (board : Board) (m : CanControlFrame) : Option UInt8 :=
  if FromBoard board m ∧ m.data.length = 7 ∧ isValidBoardState (m.data.getD 6 0) then
    some (m.data.getD 6 0)
  else none

/-- The state of a sensor in an event. -/
def sensorReport (sensor : ℕ) : CanEvent → Option Bool
  | .testSensorStatusChanged s state => if s = sensor then some state else none
  | _ => none

/-- The status of a field in an event. -/
def filedReport (filed : BoardFiledType) : CanEvent → Option UInt8
  | .boardFiledStatusChanged f status => if f = filed then some status else none
  | _ => none

lemma filterMap_handleSensorState (byte : UInt8) (indexList : List ℕ) (maskList : List UInt8) :
    (handleSensorState byte indexList maskList).filterMap (sensorReport sensor) =
      ((indexList.zip maskList).filter (·.1 = sensor)).map fun p => decide (byte &&& p.2 ≠ 0) := by
  rw [handleSensorState]
  induction indexList.zip maskList with
  | nil => rfl
  | cons p ps ih =>
    rw [List.map_cons, List.filterMap_cons, ih, List.filter_cons]
    by_cases hp : p.1 = sensor
    · simp [sensorReport, hp]
    · simp [sensorReport, hp]

/-- Nothing that a foot handler does besides is about a sensor or a field. -/
lemma exists_handleSensor (data : List UInt8) (board : Board) : ∃ other,
    (∀ byte sensor, (other byte).filterMap (sensorReport sensor) = []) ∧
    (∀ byte filed, (other byte).filterMap (filedReport filed) = []) ∧
    handleBoard data board = handleSensor other data board := by
  refine ⟨fun byte => if board = .foot1P1 ∧ byte = 0xE1 then [.group1PSuccess]
    else if board = .foot2P1 ∧ byte = 0xE1 then [.group2PSuccess] else [], ?_, ?_, ?_⟩
  · intro byte sensor
    dsimp only
    split_ifs <;> rfl
  · intro byte filed
    dsimp only
    split_ifs <;> rfl
  · cases board <;> simp [handleBoard, handle1PHandSensor, handle1PFootSensor, handle2PHandSensor,
      handle2PFootSensor]

lemma getD_drop_header (data : List UInt8) (i : ℕ) :
    (data.drop ApplicationMessageHeaderLen).getD i 0 = data.getD (6 + i) 0 := by
  simp [List.getD_eq_getElem?_getD, ApplicationMessageHeaderLen]

/-- The sensors that a message of a board reports. -/
lemma filterMap_handleBoard (data : List UInt8) (board : Board) (sensor : ℕ) :
    (handleBoard data board).filterMap (sensorReport sensor) =
      if data.length = 8 ∧ data.getD 6 0 = 0x80 then
        (board.sensorBits.filter (·.1 = sensor)).map fun p => decide (data.getD 7 0 &&& p.2 ≠ 0)
      else [] := by
  obtain ⟨other, hother, -, hboard⟩ := exists_handleSensor data board
  have hheader : data.length - ApplicationMessageHeaderLen = 2 ↔ data.length = 8 := by
    simp only [ApplicationMessageHeaderLen]
    omega
  simp only [hboard, handleSensor, getD_drop_header, isBoardTestData, decide_eq_true_eq]
  by_cases hlen : data.length = 8
  · rw [if_neg (by rw [hheader.mpr hlen]; decide), if_pos (hheader.mpr hlen)]
    by_cases htest : data.getD 6 0 = 0x80
    · rw [if_neg (not_not_intro htest), if_pos ⟨hlen, htest⟩]
      exact filterMap_handleSensorState _ _ _
    · rw [if_pos htest, if_neg fun h => htest h.2]
      exact hother _ _
  · have hnot : ¬ (data.length = 8 ∧ data.getD 6 0 = 0x80) := fun h => hlen h.1
    rw [if_neg hnot, if_neg (mt hheader.mp hlen)]
    split_ifs
    · rfl
    · rfl
    · rfl

/-- The field that a message of a board reports. -/
lemma filterMap_filed_handleBoard {data : List UInt8} (hlen : 7 ≤ data.length) (board : Board)
    (filed : BoardFiledType) : (handleBoard data board).filterMap (filedReport filed) =
      if data.length = 7 ∧ isValidBoardState (data.getD 6 0) ∧ board.filed = filed then
        [data.getD 6 0] else [] := by
  obtain ⟨other, -, hother, hboard⟩ := exists_handleSensor data board
  have hheader : data.length - ApplicationMessageHeaderLen = data.length - 6 := rfl
  simp only [hboard, handleSensor, getD_drop_header]
  by_cases hseven : data.length = 7
  · rw [if_neg (by omega), if_neg (by omega)]
    by_cases hvalid : isValidBoardState (data.getD 6 0) = true
    · rw [if_neg (not_not_intro hvalid), List.filterMap_cons, filedReport]
      by_cases hfiled : board.filed = filed
      · rw [if_pos hfiled, if_pos ⟨hseven, hvalid, hfiled⟩]
        rfl
      · rw [if_neg hfiled, if_neg fun h => hfiled h.2.2]
        rfl
    · rw [if_pos hvalid, if_neg fun h => hvalid h.2.1]
      rfl
  · have hnot : ¬ (data.length = 7 ∧ isValidBoardState (data.getD 6 0) ∧ board.filed = filed) :=
      fun h => hseven h.1
    rw [if_neg hnot]
    split_ifs
    · rfl
    · rw [handleSensorState, List.filterMap_map]
      exact List.filterMap_eq_nil_iff.mpr fun _ _ => rfl
    · exact hother _ _
    · omega
    · omega

/-- The other devices report no sensor and no field. -/
lemma filterMap_of_no_board {data : List UInt8} {addr : CanDeviceAddr} {sendAddr : ℕ}
    (haddr : deviceOf sendAddr = some addr) (hno : ∀ board, addr ≠ .sensor board) :
    (∀ sensor, (handleApplicationMessage data sendAddr).filterMap (sensorReport sensor) = []) ∧
      ∀ filed, (handleApplicationMessage data sendAddr).filterMap (filedReport filed) = [] := by
  rw [handleApplicationMessage, haddr]
  rcases addr with board | _ | _ | _ | _ | _ | _
  · exact absurd rfl (hno board)
  all_goals
    dsimp only [handleTouchScreenMessage, handleHardwareTest, handleInertCoin]
    constructor <;> intro _ <;> first | rfl | (split_ifs <;> rfl)

/-- A message is for the application. -/
lemma handleMessage_eq (m : CanControlFrame) : handleMessage m =
    if m.optionCanIdList ≠ [] ∧ m.group = .applicationGroup ∧ 7 ≤ m.data.length then
      handleApplicationMessage m.data (sendAddrOf m.data) else [] := by
  rw [handleMessage]
  by_cases hids : m.optionCanIdList = []
  · simp [hids]
  · by_cases hlen : 7 ≤ m.data.length
    · have hshort : ¬ m.data.length < ApplicationMessageHeaderLen + 1 := not_lt.mpr hlen
      simp [hids, hlen, hshort]
    · have hshort : m.data.length < ApplicationMessageHeaderLen + 1 := not_le.mp hlen
      simp [hlen, hshort]

lemma deviceOf_eq_board {sendAddr : ℕ} : deviceOf sendAddr = some (.sensor board) ↔
    sendAddr = READ_CAN_DEVICE_GROUP_ADDR board.toNat := by
  rw [deviceOf_eq_some]
  exact eq_comm

/-- A report that only the messages of one board make. -/
lemma filterMap_handleMessage {β : Type} {report : CanEvent → Option β} (board : Board)
    (hdevice : ∀ data addr sendAddr, deviceOf sendAddr = some addr →
      (∀ b, addr ≠ .sensor b) → (handleApplicationMessage data sendAddr).filterMap report = [])
    (hboard : ∀ (data : List UInt8) b, 7 ≤ data.length → b ≠ board →
      (handleBoard data b).filterMap report = []) (m : CanControlFrame) :
    (handleMessage m).filterMap report =
      if FromBoard board m ∧ 7 ≤ m.data.length then (handleBoard m.data board).filterMap report
      else [] := by
  rw [handleMessage_eq]
  by_cases hm : m.optionCanIdList ≠ [] ∧ m.group = .applicationGroup ∧ 7 ≤ m.data.length
  · obtain ⟨hids, hgroup, hlen⟩ := hm
    rw [if_pos ⟨hids, hgroup, hlen⟩]
    by_cases hsend : sendAddrOf m.data = READ_CAN_DEVICE_GROUP_ADDR board.toNat
    · rw [if_pos ⟨⟨hids, hgroup, hsend⟩, hlen⟩, handleApplicationMessage,
        deviceOf_eq_board.mpr hsend]
    · rw [if_neg fun h => hsend h.1.sendAddr]
      cases haddr : deviceOf (sendAddrOf m.data) with
      | none => rw [handleApplicationMessage, haddr, List.filterMap_nil]
      | some addr =>
        by_cases hsensor : ∃ b, addr = .sensor b
        · obtain ⟨b, rfl⟩ := hsensor
          rw [handleApplicationMessage, haddr]
          exact hboard m.data b hlen fun hb => hsend (deviceOf_eq_board.mp (hb ▸ haddr))
        · exact hdevice m.data addr _ haddr (not_exists.mp hsensor)
  · rw [if_neg hm, if_neg fun h => hm ⟨h.1.optionCanIdList, h.1.group, h.2⟩, List.filterMap_nil]

/-- **A sensor.** A message reports it if and only if it is a test message of its board. -/
lemma sensorReport_handleMessage (h : (sensor, mask) ∈ board.sensorBits) (m : CanControlFrame) :
    (handleMessage m).filterMap (sensorReport sensor) =
      ((testState board m).map fun state => decide (state &&& mask ≠ 0)).toList := by
  -- the sensor is on no other board
  have hother : ∀ b, b ≠ board → b.sensorBits.filter (·.1 = sensor) = [] := by
    intro b hb
    refine List.filter_eq_nil_iff.mpr fun p hp hsame => hb (filed_inj ?_)
    have hfiled : filedOfSensor p.1 = some b.filed := filedOfSensor_of_mem hp
    rw [of_decide_eq_true hsame, filedOfSensor_of_mem h] at hfiled
    exact (Option.some.inj hfiled).symm
  rw [filterMap_handleMessage board (fun data addr sendAddr haddr hno =>
    (filterMap_of_no_board haddr hno).1 sensor) (fun data b _ hb => by
      rw [filterMap_handleBoard, hother b hb, List.map_nil, ite_self]), filterMap_handleBoard,
    (filter_sensorBits h).1, testState]
  by_cases hfrom : FromBoard board m
  · by_cases htest : m.data.length = 8 ∧ m.data.getD 6 0 = 0x80
    · rw [if_pos htest, if_pos ⟨hfrom, by omega⟩, if_pos ⟨hfrom, htest⟩]
      rfl
    · rw [if_neg htest, ite_self, if_neg fun hall => htest hall.2]
      rfl
  · rw [if_neg fun hall => hfrom hall.1, if_neg fun hall => hfrom hall.1]
    rfl

/-- **A field.** A message reports its status if and only if it is a status message of its
board. -/
lemma filedReport_handleMessage (board : Board) (m : CanControlFrame) :
    (handleMessage m).filterMap (filedReport board.filed) = (filedState board m).toList := by
  rw [filterMap_handleMessage board (fun data addr sendAddr haddr hno =>
    (filterMap_of_no_board haddr hno).2 board.filed) (fun data b hlen hb => by
      rw [filterMap_filed_handleBoard hlen, if_neg fun hall => hb (filed_inj hall.2.2)]),
    filedState]
  by_cases hfrom : FromBoard board m ∧ 7 ≤ m.data.length
  · rw [if_pos hfrom, filterMap_filed_handleBoard hfrom.2]
    by_cases hstate : m.data.length = 7 ∧ isValidBoardState (m.data.getD 6 0) = true
    · rw [if_pos ⟨hstate.1, hstate.2, rfl⟩, if_pos ⟨hfrom.1, hstate⟩]
      rfl
    · rw [if_neg fun hall => hstate ⟨hall.1, hall.2.1⟩, if_neg fun hall => hstate hall.2]
      rfl
  · rw [if_neg hfrom, if_neg fun hall => hfrom ⟨hall.1, hall.2.1.ge⟩]
    rfl

/-! ## Runs -/

/-- What the last event says that has a report. -/
def lastReport {β : Type} (report : CanEvent → Option β) (messages : List CanControlFrame) :
    Option β :=
  ((messages.flatMap handleMessage).filterMap report).getLast?

lemma lastReport_eq {β γ : Type} {report : CanEvent → Option β} {f : CanControlFrame → Option γ}
    {bit : γ → β} (h : ∀ m, (handleMessage m).filterMap report = ((f m).map bit).toList)
    (messages : List CanControlFrame) :
    lastReport report messages = ((messages.filterMap f).getLast?).map bit := by
  have hreports : (messages.flatMap handleMessage).filterMap report =
      (messages.filterMap f).map bit := by
    induction messages with
    | nil => rfl
    | cons m messages ih =>
      rw [List.flatMap_cons, List.filterMap_append, ih, h, List.filterMap_cons]
      cases f m <;> rfl
  rw [lastReport, hreports, List.getLast?_map]

lemma lastReport_sensor (h : (sensor, mask) ∈ board.sensorBits) (messages : List CanControlFrame) :
    lastReport (sensorReport sensor) messages =
      ((messages.filterMap (testState board)).getLast?).map fun state =>
        decide (state &&& mask ≠ 0) :=
  lastReport_eq (sensorReport_handleMessage h) messages

lemma lastReport_filed (board : Board) (messages : List CanControlFrame) :
    lastReport (filedReport board.filed) messages =
      (messages.filterMap (filedState board)).getLast? := by
  have h : ∀ m, (handleMessage m).filterMap (filedReport board.filed) =
      ((filedState board m).map id).toList := by
    intro m
    rw [filedReport_handleMessage, Option.map_id, id]
  rw [lastReport_eq h, Option.map_id, id]

/-- **The sensors.** Every sensor that `BoardSensorId` names has one bit of one board, the board
of the field in its name; no other sensor has this bit.  After any messages, the last state that
was reported for the sensor is this bit of the last test message of the board, and the last
status of a field is that of the last valid status message of its board. -/
theorem board_states (messages : List CanControlFrame) :
    (∀ sensor, filedOfSensor sensor ≠ none →
      ∃! p : Board × UInt8, (sensor, p.2) ∈ p.1.sensorBits) ∧
    ∀ board : Board,
      (∀ sensor mask, (sensor, mask) ∈ board.sensorBits →
        filedOfSensor sensor = some board.filed ∧ (∃ bit < 8, mask.toNat = 2 ^ bit) ∧
        (∀ s, (s, mask) ∈ board.sensorBits → s = sensor) ∧
        lastReport (sensorReport sensor) messages =
          ((messages.filterMap (testState board)).getLast?).map fun state =>
            decide (state &&& mask ≠ 0)) ∧
      lastReport (filedReport board.filed) messages =
        (messages.filterMap (filedState board)).getLast? := by
  refine ⟨fun sensor hsensor => ?_, fun board =>
    ⟨fun sensor mask h => ⟨?_, exists_bit_of_mem h, fun s hs => ?_, ?_⟩, ?_⟩⟩
  · obtain ⟨board, mask, h⟩ := exists_sensorBits hsensor
    refine ⟨(board, mask), h, fun p hp => ?_⟩
    have hfiled := filedOfSensor_of_mem hp
    rw [filedOfSensor_of_mem h] at hfiled
    obtain rfl := filed_inj (Option.some.inj hfiled)
    have hmem : (sensor, p.2) ∈ p.1.sensorBits.filter (·.1 = sensor) :=
      List.mem_filter.mpr ⟨hp, by simp⟩
    rw [(filter_sensorBits h).1, List.mem_singleton] at hmem
    exact Prod.ext rfl (Prod.ext_iff.mp hmem).2
  · exact filedOfSensor_of_mem h
  · have hmem : (s, mask) ∈ board.sensorBits.filter (·.2 = mask) :=
      List.mem_filter.mpr ⟨hs, by simp⟩
    rw [(filter_sensorBits h).2, List.mem_singleton] at hmem
    exact (Prod.ext_iff.mp hmem).1
  · exact lastReport_sensor h messages
  · exact lastReport_filed board messages

/-! ## Over the bus -/

namespace CanBus

variable {ν : Type} {s : CanBus ν}

lemma group_delivered (g : CanPhysicalAddr) (frame : CanControlFrame) :
    (frame.delivered (groupCanId g.toNat)).group = g :=
  canIdToPhysicalAddr_groupCanId g

/-- A message of a board is the same when it arrives. -/
lemma fromBoard_delivered {frame : CanControlFrame} (h : frame.group = .applicationGroup)
    (board : Board) :
    FromBoard board (frame.delivered (groupCanId CanPhysicalAddr.applicationGroup.toNat)) ↔
      FromBoard board frame := by
  constructor
  · refine fun hfrom => ⟨fun hnil => ?_, h, hfrom.sendAddr⟩
    rw [CanControlFrame.group, hnil] at h
    exact absurd h (by decide)
  · exact fun hfrom => ⟨by simp [CanControlFrame.delivered], group_delivered _ _, hfrom.sendAddr⟩

/-- Only the messages of the group of the application matter. -/
lemma filterMap_messagesOf {β : Type} {f : CanControlFrame → Option β}
    (hf : ∀ m, f m ≠ none → m.group = .applicationGroup)
    (hids : ∀ m ∈ s.receiver.messages, ∃ g : CanPhysicalAddr,
      m.optionCanIdList = [groupCanId g.toNat]) :
    (s.messagesOf .applicationGroup).filterMap f = s.receiver.messages.filterMap f := by
  rw [messagesOf, List.filterMap_filter]
  refine List.filterMap_congr fun m hm => ?_
  obtain ⟨g, hg⟩ := hids m hm
  by_cases happ : g = .applicationGroup
  · rw [if_pos (by rw [hg, happ]; simp)]
  · have hgroup : m.group = g := by
      rw [CanControlFrame.group, hg]
      exact canIdToPhysicalAddr_groupCanId g
    have hnone : f m = none := by
      by_contra hne
      exact happ (hgroup.symm.trans (hf m hne))
    rw [hnone, ite_self]

variable [DecidableEq ν] {owner : CanPhysicalAddr → ν}

/-- The first frames that a group was sent are its messages. -/
lemma Carrying.exists_messagesOf (h : Carrying owner s) (g : CanPhysicalAddr) :
    ∃ n, (s.Idle → (s.sentTo owner g).length ≤ n) ∧ s.messagesOf g =
      ((s.sentTo owner g).take n).map (CanControlFrame.delivered (groupCanId g.toNat)) := by
  have hdelivers := h.delivers g
  refine ⟨(s.messagesOf g).length, fun hidle => ?_, ?_⟩
  · rw [(hdelivers.complete hidle).1, List.length_map]
  · rw [List.map_take]
    exact List.prefix_iff_eq_take.mp hdelivers.in_order

/-- **The sensors over the bus.** The states that the application has heard last are those in
the last test and status messages of the boards among the first `n` frames that were sent to the
group of the application, and among all of them when the bus is idle. -/
theorem can_bus_boards (owner : CanPhysicalAddr → ν) (as : List (BusAction ν))
    (h : AllSteps step (Regular owner) (init : CanBus ν) as) :
    ∃ s n, run step (init : CanBus ν) as = some s ∧
      (s.Idle → (s.sentTo owner .applicationGroup).length ≤ n) ∧ ∀ board : Board,
        (∀ sensor mask, (sensor, mask) ∈ board.sensorBits →
          lastReport (sensorReport sensor) s.receiver.messages =
            ((((s.sentTo owner .applicationGroup).take n).filterMap
              (testState board)).getLast?).map fun state => decide (state &&& mask ≠ 0)) ∧
        lastReport (filedReport board.filed) s.receiver.messages =
          (((s.sentTo owner .applicationGroup).take n).filterMap (filedState board)).getLast? := by
  obtain ⟨s, hs, hcarrying⟩ :=
    run_total_of_allSteps (fun s a hI hok => hI.step hok) (carrying_init owner) h
  obtain ⟨r, hr, hquiet, -⟩ := hcarrying.receive (List.take_prefix s.read s.traffic)
  obtain rfl : s.receiver = r := Option.some.inj (hcarrying.received.symm.trans hr)
  obtain ⟨n, hidle, hmessages⟩ := hcarrying.exists_messagesOf .applicationGroup
  have happ : ∀ frame ∈ (s.sentTo owner .applicationGroup).take n,
      frame.group = .applicationGroup := by
    intro frame hframe
    exact of_decide_eq_true (List.mem_filter.mp (List.mem_of_mem_take hframe)).2
  refine ⟨s, n, hs, hidle, fun board => ⟨fun sensor mask hmask => ?_, ?_⟩⟩
  · have hgroup : ∀ m, testState board m ≠ none → m.group = .applicationGroup := by
      intro m hm
      rw [testState, ite_ne_right_iff] at hm
      exact hm.1.1.group
    rw [lastReport_sensor hmask, ← filterMap_messagesOf hgroup hquiet.messages, hmessages,
      List.filterMap_map]
    refine congrArg (fun l => (List.getLast? l).map _) (List.filterMap_congr fun frame hframe => ?_)
    simp only [Function.comp_apply, testState, fromBoard_delivered (happ frame hframe)]
    rfl
  · have hgroup : ∀ m, filedState board m ≠ none → m.group = .applicationGroup := by
      intro m hm
      rw [filedState, ite_ne_right_iff] at hm
      exact hm.1.1.group
    rw [lastReport_filed, ← filterMap_messagesOf hgroup hquiet.messages, hmessages,
      List.filterMap_map]
    refine congrArg List.getLast? (List.filterMap_congr fun frame hframe => ?_)
    simp only [Function.comp_apply, filedState, fromBoard_delivered (happ frame hframe)]
    rfl

theorem can_bus_boards_twoNodes :
    ∃ s n, run step (init : CanBus Bool) twoNodesRun = some s ∧
      (s.Idle → (s.sentTo twoNodesOwner .applicationGroup).length ≤ n) ∧ ∀ board : Board,
        (∀ sensor mask, (sensor, mask) ∈ board.sensorBits →
          lastReport (sensorReport sensor) s.receiver.messages =
            ((((s.sentTo twoNodesOwner .applicationGroup).take n).filterMap
              (testState board)).getLast?).map fun state => decide (state &&& mask ≠ 0)) ∧
        lastReport (filedReport board.filed) s.receiver.messages =
          (((s.sentTo twoNodesOwner .applicationGroup).take n).filterMap
            (filedState board)).getLast? :=
  can_bus_boards twoNodesOwner twoNodesRun twoNodesRun_regular

end CanBus

end SignalEventLoop.Can
