/-
# What the application hears

`CanUtilSocket::handleMessage` and the handlers behind it (`imp/can-utils/can-util-socket.cpp`),
with the addresses of `imp/can-utils/can-type-def.h`.  A message for the application names the
device that it comes from.  The boards report the status of their field, or in a test the state
of their sensors, one bit for each sensor.

The number of a sensor says where it is.  Every sensor has a bit of one board, so that its last
reported state is that of the last test message of this board.
-/
import SignalEventLoop.Can.CanBus

namespace SignalEventLoop.Can

/-! ## The devices -/

def CanDeviceLightGroupEeffect1 : ℕ := 0x01
def CanDeviceBoardGroup : ℕ := 0x03
def CanDeviceTouchScreenGroup : ℕ := 0x04
def CanDeviceKeyBoardGroup : ℕ := 0x05

def GENERATE_CAN_ADDR (physicalAddr group index : ℕ) : ℕ :=
  ((physicalAddr &&& 0xFFFF) <<< 16) ||| ((group &&& 0xFF) <<< 8) ||| (index &&& 0xFF)

def READ_CAN_DEVICE_GROUP_ADDR (canDeviceAddr : ℕ) : ℕ := canDeviceAddr &&& 0xFFFF

/-- The boards: the enumerators of `CanDeviceAddr` whose name begins with `SENSOR`. -/
inductive Board where
  | hand1P1
  | hand1P2
  | hand1P3
  | hand1P4
  | foot1P1
  | foot1P2
  | foot1P3
  | foot1P4
  | foot1P5
  | hand2P1
  | hand2P2
  | hand2P3
  | hand2P4
  | foot2P1
  | foot2P2
  | foot2P3
  | foot2P4
  | foot2P5
deriving DecidableEq

/-- The devices that `handleApplicationMessage` knows. -/
inductive CanDeviceAddr where
  | sensor (board : Board)
  | touchScreenGroupAddr
  | rgbEffectLightAddr2
  | rgbEffectLightAddr6
  | keyboardGroupAddr1
  | keyboardGroupAddr2
  | keyboardGroupAddr6
deriving DecidableEq

/-- The value of the enumerator. -/
def Board.toNat : Board → ℕ
  | hand1P1 => GENERATE_CAN_ADDR CanPhysicalAddr.hand1PGroup.toNat CanDeviceBoardGroup 1
  | hand1P2 => GENERATE_CAN_ADDR CanPhysicalAddr.hand1PGroup.toNat CanDeviceBoardGroup 2
  | hand1P3 => GENERATE_CAN_ADDR CanPhysicalAddr.hand1PGroup.toNat CanDeviceBoardGroup 3
  | hand1P4 => GENERATE_CAN_ADDR CanPhysicalAddr.hand1PGroup.toNat CanDeviceBoardGroup 4
  | foot1P1 => GENERATE_CAN_ADDR CanPhysicalAddr.board1PGroup.toNat CanDeviceBoardGroup 5
  | foot1P2 => GENERATE_CAN_ADDR CanPhysicalAddr.board1PGroup.toNat CanDeviceBoardGroup 6
  | foot1P3 => GENERATE_CAN_ADDR CanPhysicalAddr.board1PGroup.toNat CanDeviceBoardGroup 7
  | foot1P4 => GENERATE_CAN_ADDR CanPhysicalAddr.board1PGroup.toNat CanDeviceBoardGroup 8
  | foot1P5 => GENERATE_CAN_ADDR CanPhysicalAddr.board1PGroup.toNat CanDeviceBoardGroup 9
  | hand2P1 => GENERATE_CAN_ADDR CanPhysicalAddr.hand2PGroup.toNat CanDeviceBoardGroup 10
  | hand2P2 => GENERATE_CAN_ADDR CanPhysicalAddr.hand2PGroup.toNat CanDeviceBoardGroup 11
  | hand2P3 => GENERATE_CAN_ADDR CanPhysicalAddr.hand2PGroup.toNat CanDeviceBoardGroup 12
  | hand2P4 => GENERATE_CAN_ADDR CanPhysicalAddr.hand2PGroup.toNat CanDeviceBoardGroup 13
  | foot2P1 => GENERATE_CAN_ADDR CanPhysicalAddr.board2PGroup.toNat CanDeviceBoardGroup 14
  | foot2P2 => GENERATE_CAN_ADDR CanPhysicalAddr.board2PGroup.toNat CanDeviceBoardGroup 15
  | foot2P3 => GENERATE_CAN_ADDR CanPhysicalAddr.board2PGroup.toNat CanDeviceBoardGroup 16
  | foot2P4 => GENERATE_CAN_ADDR CanPhysicalAddr.board2PGroup.toNat CanDeviceBoardGroup 17
  | foot2P5 => GENERATE_CAN_ADDR CanPhysicalAddr.board2PGroup.toNat CanDeviceBoardGroup 18

def CanDeviceAddr.toNat : CanDeviceAddr → ℕ
  | sensor board => board.toNat
  | touchScreenGroupAddr =>
    GENERATE_CAN_ADDR CanPhysicalAddr.centralGroup.toNat CanDeviceTouchScreenGroup 1
  | rgbEffectLightAddr2 =>
    GENERATE_CAN_ADDR CanPhysicalAddr.frontStageLightGroup.toNat CanDeviceLightGroupEeffect1 3
  | rgbEffectLightAddr6 =>
    GENERATE_CAN_ADDR CanPhysicalAddr.frontStageLightGroup.toNat CanDeviceLightGroupEeffect1 8
  | keyboardGroupAddr1 =>
    GENERATE_CAN_ADDR CanPhysicalAddr.centralGroup.toNat CanDeviceKeyBoardGroup 1
  | keyboardGroupAddr2 =>
    GENERATE_CAN_ADDR CanPhysicalAddr.centralGroup.toNat CanDeviceKeyBoardGroup 2
  | keyboardGroupAddr6 =>
    GENERATE_CAN_ADDR CanPhysicalAddr.centralGroup.toNat CanDeviceKeyBoardGroup 6

def Board.all : List Board :=
  [hand1P1, hand1P2, hand1P3, hand1P4, foot1P1, foot1P2, foot1P3, foot1P4, foot1P5, hand2P1,
    hand2P2, hand2P3, hand2P4, foot2P1, foot2P2, foot2P3, foot2P4, foot2P5]

/-- The labels of the `switch` of `handleApplicationMessage`. -/
def CanDeviceAddr.all : List CanDeviceAddr :=
  Board.all.map sensor ++ [touchScreenGroupAddr, rgbEffectLightAddr2, rgbEffectLightAddr6,
    keyboardGroupAddr2, keyboardGroupAddr1, keyboardGroupAddr6]

/-- The label for an address. -/
def deviceOf (sendAddr : ℕ) : Option CanDeviceAddr :=
  CanDeviceAddr.all.find? fun addr => READ_CAN_DEVICE_GROUP_ADDR addr.toNat = sendAddr

/-! ## The events -/

inductive BoardFiledType where
  | hand1PFront
  | hand1PBack
  | hand1PLeft
  | hand1PRight
  | hand2PFront
  | hand2PBack
  | hand2PLeft
  | hand2PRight
  | foot1PLeftFront
  | foot1PRightFront
  | foot1PMid
  | foot1PLeftBack
  | foot1PRightBack
  | foot2PLeftFront
  | foot2PRightFront
  | foot2PMid
  | foot2PLeftBack
  | foot2PRightBack
deriving DecidableEq

/-- The signals of `CanControlBase`. -/
inductive CanEvent where
  | backgroundButtonPressed
  | insertCoin
  | group1PSuccess
  | group2PSuccess
  | frontStageGroupSuccess
  | backStageGroupSuccess
  | centralControlSuccess
  | testSensorStatusChanged (sensor : ℕ) (state : Bool)
  | boardFiledStatusChanged (filed : BoardFiledType) (status : UInt8)
  | screenTouchEvent (x y : ℕ) (event : UInt8)
deriving DecidableEq

def ApplicationMessageHeaderLen : ℕ := 6

def isBoardTestData (byte : UInt8) : Bool := byte = 0x80

def isValidBoardState (byte : UInt8) : Bool := byte = 0 ∨ byte = 1 ∨ byte = 2

def handleSensorState (byte : UInt8) (indexList : List ℕ) (maskList : List UInt8) :
    List CanEvent :=
  (indexList.zip maskList).map fun p => .testSensorStatusChanged p.1 (byte &&& p.2 ≠ 0)

/-- The mask list of the hand sensors. -/
def handMaskList : List UInt8 := [0x04, 0x10, 0x40, 0x80, 0x20, 0x08]

/-- The index list and the mask list of a board, from `handle1PHandSensor`, `handle1PFootSensor`,
`handle2PHandSensor` and `handle2PFootSensor`. -/
def Board.sensors : Board → List ℕ × List UInt8
  | hand1P1 => ([0x01, 0x02, 0x03, 0x04, 0x05, 0x06], handMaskList)
  | hand1P4 => ([0x07, 0x08, 0x09, 0x0A, 0x0B, 0x0C], handMaskList)
  | hand1P2 => ([0x0D, 0x0E, 0x0F, 0x10, 0x11, 0x12], handMaskList)
  | hand1P3 => ([0x13, 0x14, 0x15, 0x16, 0x17, 0x18], handMaskList)
  | foot1P1 => ([0x19, 0x1A, 0x1B, 0x1C, 0x1D, 0x1E, 0x1F, 0x20],
      [0x80, 0x20, 0x08, 0x02, 0x01, 0x04, 0x10, 0x40])
  | foot1P2 => ([0x21, 0x22, 0x23, 0x24, 0x25, 0x26, 0x27, 0x28],
      [0x10, 0x40, 0x80, 0x20, 0x08, 0x02, 0x01, 0x04])
  | foot1P3 => ([0x31, 0x32, 0x33, 0x34, 0x35, 0x36, 0x37, 0x38],
      [0x08, 0x02, 0x01, 0x04, 0x10, 0x40, 0x80, 0x20])
  | foot1P4 => ([0x39, 0x3A, 0x3B, 0x3C, 0x3D, 0x3E, 0x3F, 0x40],
      [0x04, 0x02, 0x01, 0x80, 0x40, 0x20, 0x10, 0x08])
  | foot1P5 => ([0x29, 0x2A, 0x2B, 0x2C, 0x2D, 0x2E, 0x2F, 0x30],
      [0x40, 0x80, 0x20, 0x08, 0x02, 0x01, 0x04, 0x10])
  | hand2P1 => ([0x41, 0x42, 0x43, 0x44, 0x45, 0x46], handMaskList)
  | hand2P4 => ([0x47, 0x48, 0x49, 0x4A, 0x4B, 0x4C], handMaskList)
  | hand2P2 => ([0x4D, 0x4E, 0x4F, 0x50, 0x51, 0x52], handMaskList)
  | hand2P3 => ([0x53, 0x54, 0x55, 0x56, 0x57, 0x58], handMaskList)
  | foot2P1 => ([0x59, 0x5A, 0x5B, 0x5C, 0x5D, 0x5E, 0x5F, 0x60],
      [0x80, 0x20, 0x08, 0x02, 0x01, 0x04, 0x10, 0x40])
  | foot2P2 => ([0x61, 0x62, 0x63, 0x64, 0x65, 0x66, 0x67, 0x68],
      [0x10, 0x40, 0x80, 0x20, 0x08, 0x02, 0x01, 0x04])
  | foot2P3 => ([0x71, 0x72, 0x73, 0x74, 0x75, 0x76, 0x77, 0x78],
      [0x08, 0x02, 0x01, 0x04, 0x10, 0x40, 0x80, 0x20])
  | foot2P4 => ([0x79, 0x7A, 0x7B, 0x7C, 0x7D, 0x7E, 0x7F, 0x80],
      [0x04, 0x02, 0x01, 0x80, 0x40, 0x20, 0x10, 0x08])
  | foot2P5 => ([0x69, 0x6A, 0x6B, 0x6C, 0x6D, 0x6E, 0x6F, 0x70],
      [0x40, 0x80, 0x20, 0x08, 0x02, 0x01, 0x04, 0x10])

/-- The field of a board, from the same handlers. -/
def Board.filed : Board → BoardFiledType
  | hand1P1 => .hand1PFront
  | hand1P2 => .hand1PBack
  | hand1P3 => .hand1PLeft
  | hand1P4 => .hand1PRight
  | foot1P1 => .foot1PLeftFront
  | foot1P2 => .foot1PRightFront
  | foot1P3 => .foot1PLeftBack
  | foot1P4 => .foot1PRightBack
  | foot1P5 => .foot1PMid
  | hand2P1 => .hand2PFront
  | hand2P2 => .hand2PBack
  | hand2P3 => .hand2PLeft
  | hand2P4 => .hand2PRight
  | foot2P1 => .foot2PLeftFront
  | foot2P2 => .foot2PRightFront
  | foot2P3 => .foot2PLeftBack
  | foot2P4 => .foot2PRightBack
  | foot2P5 => .foot2PMid

/-- The four handlers of the boards; `other` is what they do with a byte that is no test data. -/
def handleSensor (other : UInt8 → List CanEvent) (data : List UInt8) (board : Board) :
    List CanEvent :=
  let data_len := data.length - ApplicationMessageHeaderLen
  let data := data.drop ApplicationMessageHeaderLen
  if data_len > 2 then []
  else if data_len = 2 then
    if ¬ isBoardTestData (data.getD 0 0) then other (data.getD 0 0)
    else handleSensorState (data.getD 1 0) board.sensors.1 board.sensors.2
  else
    let state := data.getD 0 0
    if ¬ isValidBoardState state then [] else [.boardFiledStatusChanged board.filed state]

def handle1PHandSensor (data : List UInt8) (board : Board) : List CanEvent :=
  handleSensor (fun _ => []) data board

def handle2PHandSensor (data : List UInt8) (board : Board) : List CanEvent :=
  handleSensor (fun _ => []) data board

/-- The first board also reports that the boards of its player can be reached. -/
def handle1PFootSensor (data : List UInt8) (board : Board) : List CanEvent :=
  handleSensor (fun byte => if board = .foot1P1 ∧ byte = 0xE1 then [.group1PSuccess] else [])
    data board

def handle2PFootSensor (data : List UInt8) (board : Board) : List CanEvent :=
  handleSensor (fun byte => if board = .foot2P1 ∧ byte = 0xE1 then [.group2PSuccess] else [])
    data board

/-- The labels of the boards in `handleApplicationMessage`. -/
def handleBoard (data : List UInt8) : Board → List CanEvent
  | .hand1P1 => handle1PHandSensor data .hand1P1
  | .hand1P2 => handle1PHandSensor data .hand1P2
  | .hand1P3 => handle1PHandSensor data .hand1P3
  | .hand1P4 => handle1PHandSensor data .hand1P4
  | .foot1P1 => handle1PFootSensor data .foot1P1
  | .foot1P2 => handle1PFootSensor data .foot1P2
  | .foot1P3 => handle1PFootSensor data .foot1P3
  | .foot1P4 => handle1PFootSensor data .foot1P4
  | .foot1P5 => handle1PFootSensor data .foot1P5
  | .hand2P1 => handle2PHandSensor data .hand2P1
  | .hand2P2 => handle2PHandSensor data .hand2P2
  | .hand2P3 => handle2PHandSensor data .hand2P3
  | .hand2P4 => handle2PHandSensor data .hand2P4
  | .foot2P1 => handle2PFootSensor data .foot2P1
  | .foot2P2 => handle2PFootSensor data .foot2P2
  | .foot2P3 => handle2PFootSensor data .foot2P3
  | .foot2P4 => handle2PFootSensor data .foot2P4
  | .foot2P5 => handle2PFootSensor data .foot2P5

def handleTouchScreenMessage (data : List UInt8) : List CanEvent :=
  if data.length ≠ ApplicationMessageHeaderLen + 5 then []
  else
    let byte := fun i => data.getD (ApplicationMessageHeaderLen + i) 0
    let x := (byte 0).toNat ||| ((byte 1).toNat <<< 8)
    let y := (byte 2).toNat ||| ((byte 3).toNat <<< 8)
    let event := byte 4
    if event = 0x81 ∨ event = 0x82 ∨ event = 0x84 then [.screenTouchEvent x y event] else []

/-- `handleHardwareTest`, with the signal of the device. -/
def handleHardwareTest (data : List UInt8) (success : CanEvent) : List CanEvent :=
  if data.getD ApplicationMessageHeaderLen 0 = 0xE1 then [success] else []

def handleInertCoin (data : List UInt8) : List CanEvent :=
  let byte := data.getD ApplicationMessageHeaderLen 0
  if byte = 0x01 then [.insertCoin]
  else if byte = 0xE1 then [.centralControlSuccess]
  else []

/-- `handleApplicationMessage`; nothing happens for a device that it does not know. -/
def handleApplicationMessage (data : List UInt8) (sendAddr : ℕ) : List CanEvent :=
  match deviceOf sendAddr with
  | none => []
  | some (.sensor board) => handleBoard data board
  | some .touchScreenGroupAddr => handleTouchScreenMessage data
  | some .rgbEffectLightAddr2 => handleHardwareTest data .frontStageGroupSuccess
  | some .rgbEffectLightAddr6 => handleHardwareTest data .backStageGroupSuccess
  | some .keyboardGroupAddr1 => handleInertCoin data
  | some .keyboardGroupAddr2 => handleInertCoin data
  | some .keyboardGroupAddr6 => [.backgroundButtonPressed]

/-- The address in the bytes 4 and 5. -/
def sendAddrOf (data : List UInt8) : ℕ := ((data.getD 4 0).toNat <<< 8) ||| (data.getD 5 0).toNat

/-- `handleMessage` -/
def handleMessage (message : CanControlFrame) : List CanEvent :=
  if message.optionCanIdList = [] ∨
      message.data.length < ApplicationMessageHeaderLen + 1 then []
  else if message.group = .applicationGroup then
    handleApplicationMessage message.data (sendAddrOf message.data)
  else []

/-! ## Where a sensor is -/

/-- The blocks of `BoardSensorId`: the number of the first sensor, how many there are, and the
field that their names have. -/
def sensorBlocks : List (ℕ × ℕ × BoardFiledType) :=
  [(0x01, 6, .hand1PFront), (0x07, 6, .hand1PRight), (0x0D, 6, .hand1PBack),
    (0x13, 6, .hand1PLeft), (0x19, 8, .foot1PLeftFront), (0x21, 8, .foot1PRightFront),
    (0x29, 8, .foot1PMid), (0x31, 8, .foot1PLeftBack), (0x39, 8, .foot1PRightBack),
    (0x41, 6, .hand2PFront), (0x47, 6, .hand2PRight), (0x4D, 6, .hand2PBack),
    (0x53, 6, .hand2PLeft), (0x59, 8, .foot2PLeftFront), (0x61, 8, .foot2PRightFront),
    (0x69, 8, .foot2PMid), (0x71, 8, .foot2PLeftBack), (0x79, 8, .foot2PRightBack)]

/-- The field of a sensor, by its name. -/
def filedOfSensor (sensor : ℕ) : Option BoardFiledType :=
  (sensorBlocks.find? fun block => block.1 ≤ sensor ∧ sensor < block.1 + block.2.1).map (·.2.2)

/-- The sensors of a board with their bits. -/
def Board.sensorBits (board : Board) : List (ℕ × UInt8) := board.sensors.1.zip board.sensors.2

variable {board board' : Board} {sensor : ℕ} {mask : UInt8}

lemma filed_inj (h : board.filed = board'.filed) : board = board' := by
  cases board <;> cases board' <;> first | rfl | exact absurd h (by decide)

/-- The sensors of a board are those of its field. -/
lemma filedOfSensor_of_mem (h : (sensor, mask) ∈ board.sensorBits) :
    filedOfSensor sensor = some board.filed := by
  have hall : ∀ p ∈ board.sensorBits, filedOfSensor p.1 = some board.filed := by
    cases board <;> decide
  exact hall _ h

/-- A sensor is once in the list of its board, and so is its bit. -/
lemma filter_sensorBits (h : (sensor, mask) ∈ board.sensorBits) :
    board.sensorBits.filter (·.1 = sensor) = [(sensor, mask)] ∧
      board.sensorBits.filter (·.2 = mask) = [(sensor, mask)] := by
  have hall : ∀ p ∈ board.sensorBits, board.sensorBits.filter (·.1 = p.1) = [p] ∧
      board.sensorBits.filter (·.2 = p.2) = [p] := by
    cases board <;> decide
  exact hall _ h

/-- The mask of a sensor is a single bit. -/
lemma exists_bit_of_mem (h : (sensor, mask) ∈ board.sensorBits) :
    ∃ bit < 8, mask.toNat = 2 ^ bit := by
  have hall : ∀ p ∈ board.sensorBits, ∃ bit < 8, p.2.toNat = 2 ^ bit := by
    cases board <;> decide
  exact hall _ h

/-- Every sensor has a bit. -/
lemma exists_sensorBits (h : filedOfSensor sensor ≠ none) :
    ∃ (board : Board) (mask : UInt8), (sensor, mask) ∈ board.sensorBits := by
  obtain ⟨filed, hfiled⟩ := Option.ne_none_iff_exists'.mp h
  obtain ⟨block, hblock, -⟩ := Option.map_eq_some_iff.mp hfiled
  have hmem := List.mem_of_find?_eq_some hblock
  have hrange := List.find?_some hblock
  simp only [decide_eq_true_eq] at hrange
  have hall : ∀ block ∈ sensorBlocks, ∀ k < block.2.1, ∃ board ∈ Board.all,
      ∃ p ∈ board.sensorBits, p.1 = block.1 + k := by
    decide +kernel
  obtain ⟨board, -, p, hp, hsensor⟩ := hall block hmem (sensor - block.1) (by omega)
  obtain rfl : p.1 = sensor := by omega
  exact ⟨board, p.2, hp⟩

end SignalEventLoop.Can
