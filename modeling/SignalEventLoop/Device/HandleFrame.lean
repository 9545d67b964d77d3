/-
# Replies to the updater

`AimyUpdater::handleFrame` and the handlers that it calls
(`imp/device-update/device_updater.cpp`).  The device may send any command at any time.  The
first byte of a frame is the command, and every handler makes its own assumptions on the
bytes behind it and on the phase of the update.

A handler is a checked computation: it reads the frame, and uses the slice context, only
through operations that fail when the byte or the context is not there.  What the file
functions of `UpdateFileContext` answer is left open.
-/
import SignalEventLoop.Device.Updater
import SignalEventLoop.Lib.Checked

namespace SignalEventLoop.Device

open Lib

/-! ## Data -/

/-- `UpdateTypeDef`. -/
inductive UpdateTypeDef where
  | queryDevice
  | queryUpid
  | transferError
  | queryWorkMode
  | upgradeEnter
  | upgradeQuerySoftware
  | upgradeQuerySegment
  | upgradeIntVectorTable
  | upgradeCodeSegment
  | upgradeResume
  | upgradeQuit
deriving DecidableEq

namespace UpdateTypeDef

def toByte : UpdateTypeDef → UInt8
  | queryDevice => 0xA1
  | queryUpid => 0xA2
  | transferError => 0xA6
  | queryWorkMode => 0xB3
  | upgradeEnter => 0xE0
  | upgradeQuerySoftware => 0xE1
  | upgradeQuerySegment => 0xE2
  | upgradeIntVectorTable => 0xE3
  | upgradeCodeSegment => 0xE6
  | upgradeResume => 0xE7
  | upgradeQuit => 0xE8

/-- The command of a byte. -/
def ofByte (byte : UInt8) : Option UpdateTypeDef :=
  [queryDevice, queryUpid, transferError, queryWorkMode, upgradeEnter, upgradeQuerySoftware,
    upgradeQuerySegment, upgradeIntVectorTable, upgradeCodeSegment, upgradeResume,
    upgradeQuit].find? (·.toByte = byte)

end UpdateTypeDef

/-- The byte of an `UpgradeQuitStatus`. -/
def UpgradeQuitStatus.toByte : UpgradeQuitStatus → UInt8
  | .success => 0
  | .errorWithRollback => 0x61
  | .errorWithoutRollback => 0x62

/-- The command of an `UpdateSliceType`. -/
def SliceType.command : SliceType → UpdateTypeDef
  | .vector => .upgradeIntVectorTable
  | .code => .upgradeCodeSegment

/-- What a handler must not do. -/
inductive Fault where
  /-- The frame has no command: it is read behind the data, and `data_len` wraps around. -/
  | emptyFrame
  | readPastEnd
  | nullSliceContext
deriving DecidableEq

/-- The functions of an `UpdateFileContext`, with values in `C`. -/
structure FileFunctions (C : Type) where
  init : C → String → Bool × C
  checkFile : C → List UInt8 → List UInt8 → List UInt8 → ℕ → ℕ → ℕ → ℤ
  loadProgramData : C → ℕ → ℕ → ℕ → ℕ → Bool × C
  fillUpdateSliceContext : C → UpdateSliceContext → Bool × UpdateSliceContext

/-- What the updater sends and signals. -/
inductive ReplyEvent where
  | sendNormalData (content : List UInt8)
  | sendUpdateData (content : List UInt8)
  | resend
  | notifyQueryMessage (type : UpdateTypeDef) (message : String)
  | notifyUpdateMessage (type : UpdateTypeDef)
  | notifyUpdateProgress (progressPackets totalPackets : ℕ)
  | notifyQuitMessage (status : UpgradeQuitStatus) (message : String)
deriving DecidableEq

/-- The fields of an `AimyUpdater`, and whether the log has the level `LOG_INFO`. -/
structure ReplyState (C : Type) where
  context : C
  updateDeviceAdress : ℕ
  quitStatus : UpgradeQuitStatus
  quitMessage : String
  sliceContext : Option UpdateSliceContext
  totalPackets : ℕ
  progressPackets : ℕ
  infoLogged : Bool
  events : List ReplyEvent

/-! ## Checked operations -/

/-- Read `len` bytes of the frame. -/
def readBytes (data : List UInt8) (off len : ℕ) : Except Fault (List UInt8) :=
  if off + len ≤ data.length then .ok (slice data off len) else .error .readPastEnd

def readByte (data : List UInt8) (off : ℕ) : Except Fault UInt8 :=
  (readBytes data off 1).map fun bytes => bytes.headD 0

/-- Read a number in network order. -/
def readBE (data : List UInt8) (off len : ℕ) : Except Fault ℕ := (readBytes data off len).map ofBE

/-- Read a number in the order of the host. -/
def readLE (data : List UInt8) (off len : ℕ) : Except Fault ℕ :=
  (readBytes data off len).map fun bytes => ofBE bytes.reverse

/-- Read a string up to its terminator. -/
def readString (data : List UInt8) (off : ℕ) : Except Fault (List UInt8) :=
  if 0 ∈ data.drop off then .ok ((data.drop off).takeWhile (· ≠ 0)) else .error .readPastEnd

/-- The loop of `parserDeviceInfo`; `fields` are the beginnings found so far. -/
def parserLoop : List UInt8 → ℕ → List ℕ → ℕ → Option (List ℕ)
  | [], _, _, _ => none
  | byte :: rest, i, fields, cur_field_length =>
    if byte = 0 then
      if cur_field_length = 0 then none else parserLoop rest (i + 1) fields 0
    else if cur_field_length + 1 = 1 then
      if (fields ++ [i]).length = 3 then some (fields ++ [i])
      else parserLoop rest (i + 1) (fields ++ [i]) (cur_field_length + 1)
    else parserLoop rest (i + 1) fields (cur_field_length + 1)

/-- `AimyUpdater::parserDeviceInfo`: where the version, the product and the date begin. -/
def parserDeviceInfo (data : List UInt8) : Option (List ℕ) := parserLoop data 0 [] 0

namespace ReplyState

variable {C : Type} (file : FileFunctions C) (s : ReplyState C)

/-- `sliceContext->`. -/
def useSliceContext : Except Fault UpdateSliceContext :=
  match s.sliceContext with
  | some c => .ok c
  | none => .error .nullSliceContext

def emit (event : ReplyEvent) : ReplyState C := { s with events := s.events ++ [event] }

/-! ## Requests -/

def requestQueryDevice : ReplyState C := s.emit (.sendNormalData [UpdateTypeDef.queryDevice.toByte])

def requestQueryUPID : ReplyState C := s.emit (.sendNormalData [UpdateTypeDef.queryUpid.toByte])

def requestQueryWorkMode : ReplyState C :=
  s.emit (.sendNormalData [UpdateTypeDef.queryWorkMode.toByte])

/-- `requestEnterUpgradeWorkMode`, which makes the slice context. -/
def requestEnterUpgradeWorkMode : ReplyState C :=
  { s with sliceContext := some (updateSliceContext ((64 - (10 + 1 + 2 + 2)) / 4 * 4)) }.emit
    (.sendUpdateData [UpdateTypeDef.upgradeEnter.toByte])

def requestQuerySoftwareVersion : ReplyState C :=
  s.emit (.sendUpdateData [UpdateTypeDef.upgradeQuerySoftware.toByte])

def requestQuerySegmentInfomation : ReplyState C :=
  s.emit (.sendUpdateData [UpdateTypeDef.upgradeQuerySegment.toByte])

/-- `requestUploadSegment`, when the slice context is `c`. -/
def requestUploadSegment (c : UpdateSliceContext) : ReplyState C :=
  let data := c.data.take c.dataLen
  s.emit (.sendUpdateData
    (c.type.command.toByte :: toBE 2 (packetNo c.seq) ++ toBE 2 (crcRc16 data) ++ data))

def requestQuitUpgradeWorkMode (message : String) : ReplyState C :=
  { s with quitMessage := message }.emit
    (.sendNormalData [UpdateTypeDef.upgradeQuit.toByte, s.quitStatus.toByte])

/-- `quitStatus=UPGRADE_ERROR_WITH_ROLLBACK` and the request to quit. -/
def quitWithRollback (message : String) : ReplyState C :=
  { s with quitStatus := .errorWithRollback }.requestQuitUpgradeWorkMode message

/-- `updateProgress`. -/
def updateProgress : ReplyState C :=
  let progress := min (s.progressPackets + 1) s.totalPackets
  let s := { s with progressPackets := progress }
  if 0 < s.totalPackets ∧ (progress % 100 = 0 ∨ progress = s.totalPackets) then
    s.emit (.notifyUpdateProgress progress s.totalPackets)
  else s

/-! ## Handlers

`payload` are the bytes behind the command.
-/

/-- `handleReplyQueryDevice`; the strings are only read for the log. -/
def handleReplyQueryDevice (payload : List UInt8) : Except Fault (ReplyState C) :=
  if payload.length > 1 then
    match parserDeviceInfo payload with
    | some [version, product, date] =>
      if s.infoLogged then
        (readString payload product).bind fun _ =>
          (readString payload version).bind fun _ =>
            (readString payload date).map fun _ => s
      else .ok s
    | _ => .ok s
  else .ok s

/-- `handleReplyQueryUPID`. -/
def handleReplyQueryUPID (payload : List UInt8) : Except Fault (ReplyState C) :=
  if payload.length > 1 then (readByte payload 0).map fun _ => s else .ok s

/-- `handleReplyQueryWorkMode`. -/
def handleReplyQueryWorkMode (payload : List UInt8) : Except Fault (ReplyState C) :=
  if payload.length > 1 then
    (readByte payload 1).bind fun _ => (readByte payload 0).map fun _ => s
  else .ok s

/-- `handleReplyEnterUpgradeWorkMode`: the status is `FULL`, `RESUME` or `REPORT`, or the
device is not ready. -/
def handleReplyEnterUpgradeWorkMode (payload : List UInt8) (address : ℕ) :
    Except Fault (ReplyState C) :=
  if address ≠ s.updateDeviceAdress then .ok s
  else if payload.length < 3 then
    .ok (s.requestQuitUpgradeWorkMode "enter upgrade reply false format")
  else
    (readByte payload 1).bind fun page_size =>
      s.useSliceContext.bind fun c =>
        let s := { s with sliceContext := some { c with pageSize := page_size.toNat * 1024 } }
        (readByte payload 2).bind fun _ => (readByte payload 0).map fun status =>
          if status = 1 ∨ status = 2 ∨ status = 3 then s.requestQuerySoftwareVersion
          else s.requestQuitUpgradeWorkMode "device is busy or not support!"

/-- The strings and addresses for `checkFile`, which gets the address of the date twice. -/
def checkSoftware (payload : List UInt8) (version product date : ℕ) : Except Fault ℤ :=
  let info := payload.drop 12
  (readString info version).bind fun version =>
    (readString info product).bind fun product =>
      (readString info date).bind fun date =>
        (readLE payload 0 4).bind fun version_addr =>
          (readLE payload 8 4).map fun date_addr =>
            file.checkFile s.context version product date version_addr date_addr date_addr

/-- `handleReplyQuerySoftwareVersion`. -/
def handleReplyQuerySoftwareVersion (payload : List UInt8) (address : ℕ) :
    Except Fault (ReplyState C) :=
  if address ≠ s.updateDeviceAdress then .ok s
  else if payload.length < 12 then
    .ok (s.requestQuitUpgradeWorkMode "upgrade query software upgrade reply false format")
  else
    match parserDeviceInfo (payload.drop 12) with
    | some [version, product, date] =>
      (s.checkSoftware file payload version product date).map fun ret =>
        if ret = 0 then s.requestQuitUpgradeWorkMode "not need upgrade!"
        else if ret < 0 then s.quitWithRollback "file check failed!"
        else s.requestQuerySegmentInfomation
    | _ => .ok (s.requestQuitUpgradeWorkMode
        "upgrade query software upgrade reply parse device info failed!")

/-- The next slice is read and requested; `started` is what happens in between. -/
def requestNextSlice (c : UpdateSliceContext)
    (started : UpdateSliceContext → ReplyState C → ReplyState C) : ReplyState C :=
  let (ret, c) := file.fillUpdateSliceContext s.context c
  let s := { s with sliceContext := some c }
  if ret = false ∨ c.dataLen = 0 then s.quitWithRollback "read slice failed!"
  else (started c s).requestUploadSegment c

/-- `handleReplyQuerySegmentInfomation`. -/
def handleReplyQuerySegmentInfomation (payload : List UInt8) (address : ℕ) :
    Except Fault (ReplyState C) :=
  if address ≠ s.updateDeviceAdress then .ok s
  else if payload.length < 16 then
    .ok (s.requestQuitUpgradeWorkMode "upgrade query segment info reply false format")
  else
    (readBE payload 0 4).bind fun int_vector_address =>
      (readBE payload 8 4).bind fun int_vector_end_address =>
        (readBE payload 4 4).bind fun code_segment_address =>
          (readBE payload 12 4).bind fun code_segment_end_address =>
            let (ret, context) := file.loadProgramData s.context int_vector_address
              int_vector_end_address code_segment_address code_segment_end_address
            let s := { s with context := context }
            if ret = false then .ok (s.quitWithRollback "file load failed!")
            else s.useSliceContext.map fun c => s.requestNextSlice file c fun c s =>
              { s with totalPackets := c.codeMap.length + c.vectorMap.length, progressPackets := 0 }

/-- The beginning of the two handlers for uploads: `accepted` gets the slice context, when the
reply is for the slice that was sent. -/
def handleReplyUpload (message : String) (payload : List UInt8) (address : ℕ)
    (accepted : UpdateSliceContext → ReplyState C) : Except Fault (ReplyState C) :=
  if address ≠ s.updateDeviceAdress then .ok s
  else if payload.length < 3 then .ok (s.quitWithRollback message)
  else
    (readByte payload 0).bind fun status =>
      if status = UploadReply.statusMissing ∧ payload.length < 5 then
        .ok (s.quitWithRollback message)
      else
        (readBE payload 1 2).bind fun reply_packet_no =>
          s.useSliceContext.map fun c =>
            if reply_packet_no ≠ packetNo c.seq then s
            else if status = UploadReply.statusSuccess then accepted c
            else if status = UploadReply.statusMissing then s.emit .resend
            else s

/-- `handleReplyUploadVectorTable`. -/
def handleReplyUploadVectorTable (payload : List UInt8) (address : ℕ) :
    Except Fault (ReplyState C) :=
  s.handleReplyUpload "upgrade upload vector table reply false format!" payload address fun c =>
    s.updateProgress.requestNextSlice file { c with seq := c.seq - 1 } fun _ s => s

/-- `handleReplyUploadCodeSegment`, which ends the update behind the last slice. -/
def handleReplyUploadCodeSegment (payload : List UInt8) (address : ℕ) :
    Except Fault (ReplyState C) :=
  s.handleReplyUpload "upgrade upload code  segment reply false format!" payload address fun c =>
    if 0 < c.seq then
      s.updateProgress.requestNextSlice file { c with seq := c.seq - 1 } fun _ s => s
    else { s.updateProgress with quitStatus := .success }.requestQuitUpgradeWorkMode "success"

/-- `handleReplyQuitUpgradeWorkMode`. -/
def handleReplyQuitUpgradeWorkMode (payload : List UInt8) (address : ℕ) :
    Except Fault (ReplyState C) :=
  if address ≠ s.updateDeviceAdress then .ok s
  else
    (if payload.length < 1 then .ok s
      else (readByte payload 0).map fun status =>
        if status ≠ 0 ∧ s.quitStatus = .success then
          { s with quitStatus := .errorWithRollback, quitMessage := "quit failed" }
        else s).map fun s => s.emit (.notifyQuitMessage s.quitStatus s.quitMessage)

/-- The `switch` of `handleFrame`. -/
def handleCommand (command : Option UpdateTypeDef) (payload : List UInt8) (address : ℕ) :
    Except Fault (ReplyState C) :=
  match command with
  | some .queryDevice =>
    (s.handleReplyQueryDevice payload).map
      (·.emit (.notifyQueryMessage .queryDevice "query_device"))
  | some .queryUpid =>
    (s.handleReplyQueryUPID payload).map (·.emit (.notifyQueryMessage .queryDevice "query_upid"))
  | some .transferError =>
    (readByte payload 0).map fun _ =>
      s.emit (.notifyQueryMessage .transferError "TRANSFER_ERROR")
  | some .queryWorkMode =>
    (s.handleReplyQueryWorkMode payload).map
      (·.emit (.notifyQueryMessage .queryDevice "query_workmode"))
  | some .upgradeEnter =>
    (s.handleReplyEnterUpgradeWorkMode payload address).map
      (·.emit (.notifyUpdateMessage .upgradeEnter))
  | some .upgradeQuerySoftware =>
    (s.handleReplyQuerySoftwareVersion file payload address).map
      (·.emit (.notifyUpdateMessage .upgradeQuerySoftware))
  | some .upgradeQuerySegment =>
    (s.handleReplyQuerySegmentInfomation file payload address).map
      (·.emit (.notifyUpdateMessage .upgradeQuerySegment))
  | some .upgradeIntVectorTable =>
    (s.handleReplyUploadVectorTable file payload address).map
      (·.emit (.notifyUpdateMessage .upgradeIntVectorTable))
  | some .upgradeCodeSegment =>
    (s.handleReplyUploadCodeSegment file payload address).map
      (·.emit (.notifyUpdateMessage .upgradeCodeSegment))
  | some .upgradeResume => .ok s
  | some .upgradeQuit => s.handleReplyQuitUpgradeWorkMode payload address
  | none => .ok s

/-- `AimyUpdater::handleFrame`. -/
def handleFrame (data : List UInt8) (address : ℕ) (control_code : Bool) :
    Except Fault (ReplyState C) :=
  if control_code = false then .ok s
  else
    match data with
    | [] => .error .emptyFrame
    | command :: payload => s.handleCommand file (UpdateTypeDef.ofByte command) payload address

end ReplyState

/-! ## Runs -/

/-- What happens to an updater. -/
inductive UpdaterAction where
  /-- `handleDataCache` delivers a frame. -/
  | frame (data : List UInt8) (address : ℕ) (control_code : Bool)
  | loadUpdateTask (file_path : String) (device_adress : ℕ)
  | startUpdate
  | stopUpdate
  | queryDevice
  | queryUPID
  | queryWorkMode
  /-- `reload_upgrade_task`, and whether one of the ten tries to `init` succeeded. -/
  | reloadUpgradeTask (success : Bool)
  /-- `set_minimum_log_level`. -/
  | setLogLevel (info : Bool)

namespace ReplyState

variable {C : Type} (file : FileFunctions C) (s : ReplyState C)

/-- `AimyUpdater::reload_upgrade_task`. -/
def reloadUpgradeTask (success : Bool) : ReplyState C :=
  if s.updateDeviceAdress ≠ 0 then
    if success then s.requestEnterUpgradeWorkMode
    else
      { s with quitMessage := "connection disconnected" }.emit
        (.notifyQuitMessage s.quitStatus "connection disconnected")
  else s

/-- An action, with the first check that fails. -/
def act : UpdaterAction → Except Fault (ReplyState C)
  | .frame data address control_code => s.handleFrame file data address control_code
  | .loadUpdateTask file_path device_adress =>
    .ok { s with
      updateDeviceAdress := device_adress, context := (file.init s.context file_path).2 }
  | .startUpdate => .ok s.requestEnterUpgradeWorkMode
  | .stopUpdate => .ok (s.requestQuitUpgradeWorkMode "active quit")
  | .queryDevice => .ok s.requestQueryDevice
  | .queryUPID => .ok s.requestQueryUPID
  | .queryWorkMode => .ok s.requestQueryWorkMode
  | .reloadUpgradeTask success => .ok (s.reloadUpgradeTask success)
  | .setLogLevel info => .ok { s with infoLogged := info }

/-- The state after an action; `none` when a check fails. -/
def step (action : UpdaterAction) : Option (ReplyState C) := (s.act file action).toOption

/-- An updater after `init`. -/
def initial (context : C) (infoLogged : Bool) : ReplyState C :=
  ⟨context, 0, .errorWithoutRollback, "normal", none, 0, 0, infoLogged, []⟩

end ReplyState

end SignalEventLoop.Device
