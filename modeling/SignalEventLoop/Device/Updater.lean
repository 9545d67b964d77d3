/-
# The firmware updater

The part of `AimyUpdater` (`imp/device-update/device_updater.cpp`) that uploads an image: the
reply to the query of the segments starts the upload, and the replies to the slices drive it.
The device, and everything between it and the updater, is the environment: replies of both
types with any content come in any order.

The state has a log.  A reply that makes the updater leave a slice is recorded where the
source counts the progress, together with the slice.
-/
import SignalEventLoop.Device.UpdateFile
import SignalEventLoop.Lib.BigEndian
import SignalEventLoop.Lib.Run

namespace SignalEventLoop.Device

/-- `UpgradeQuitStatus`. -/
inductive UpgradeQuitStatus where
  | success
  | errorWithRollback
  | errorWithoutRollback
deriving DecidableEq

/-- A reply to an upload: the command, the address of the device, and the bytes after the
command. -/
structure UploadReply where
  command : SliceType
  address : UInt32
  data : List UInt8
deriving DecidableEq

namespace UploadReply

/-- `SUCCESS`. -/
def statusSuccess : UInt8 := 0

/-- `MISSING`, a packet is lost. -/
def statusMissing : UInt8 := 0x54

variable (r : UploadReply)

def status : UInt8 := r.data.headD 0

def packetNo : ℕ := Lib.ofBE ((r.data.drop 1).take 2)

/-- The reply is too short; with the status `MISSING` it has to tell the last packet. -/
def FalseFormat : Prop :=
  r.data.length < 3 ∨ (r.status = statusMissing ∧ r.data.length < 5)

instance decidableFalseFormat : Decidable r.FalseFormat :=
  inferInstanceAs (Decidable (_ ∨ _))

end UploadReply

/-- `seq & 0xffff`. -/
def packetNo (seq : ℤ) : ℕ := (seq % 2 ^ 16).toNat

/-- One step of the division by the polynomial of `Iutils::crc_rc16`. -/
def crcShift (crc bit : ℕ) : ℕ :=
  let crc := crc * 2 + bit
  if crc.testBit 16 then crc ^^^ 0x11021 else crc

/-- `Iutils::crc_rc16`. -/
def crcRc16 (data : List UInt8) : ℕ :=
  let crc := data.foldl (fun crc byte =>
    [7, 6, 5, 4, 3, 2, 1, 0].foldl (fun crc i => crcShift crc (byte.toNat / 2 ^ i % 2)) crc) 0
  (List.replicate 16 0).foldl crcShift crc

/-- The content of an upload. -/
structure UploadFrame where
  command : SliceType
  packetNo : ℕ
  crc : ℕ
  data : List UInt8
deriving DecidableEq

inductive UpdaterEvent where
  /-- `requestUploadSegment`, for this slice. -/
  | request (slice : Option Slice) (frame : UploadFrame)
  /-- `updateProgress`: the reply makes the updater leave the slice. -/
  | progress (slice : Option Slice) (reply : UploadReply)
  /-- `on_send_timeout`: the last frame is sent again. -/
  | resend
  /-- `requestQuitUpgradeWorkMode`. -/
  | quit (status : UpgradeQuitStatus) (message : String)
deriving DecidableEq

structure UpdaterState where
  sliceContext : UpdateSliceContext
  quitStatus : UpgradeQuitStatus
  quitMessage : String
  log : List UpdaterEvent
deriving DecidableEq

/-- The constant part of an `AimyUpdater` during an upload: the image, which `loadProgramData`
does not accept without a byte, the device, and the page size of its flash in KiB. -/
structure AimyUpdater where
  context : UpdateFileContext
  not_empty : context.vecData ≠ [] ∨ context.codeData ≠ []
  updateDeviceAdress : UInt32
  pageSize : UInt8
  pageSize_pos : 0 < pageSize

namespace UpdaterState

variable (s : UpdaterState)

/-- `AimyUpdater::requestUploadSegment`. -/
def requestUploadSegment : UpdaterState :=
  let c := s.sliceContext
  let data := c.data.take c.dataLen
  { s with log := s.log ++ [.request c.current ⟨c.type, packetNo c.seq, crcRc16 data, data⟩] }

/-- `AimyUpdater::requestQuitUpgradeWorkMode`, after `quitStatus` is set. -/
def requestQuitUpgradeWorkMode (status : UpgradeQuitStatus) (message : String) : UpdaterState :=
  { s with
    quitStatus := status
    quitMessage := message
    log := s.log ++ [.quit status message] }

/-- `AimyUpdater::on_send_timeout`. -/
def onSendTimeout : UpdaterState := { s with log := s.log ++ [.resend] }

/-- `AimyUpdater::updateProgress`. -/
def updateProgress (reply : UploadReply) : UpdaterState :=
  { s with log := s.log ++ [.progress s.sliceContext.current reply] }

/-- `sliceContext->seq--`. -/
def decreaseSeq : UpdaterState :=
  { s with sliceContext := { s.sliceContext with seq := s.sliceContext.seq - 1 } }

/-- The next slice is read and requested. -/
def requestNext (F : UpdateFileContext) : Option UpdaterState :=
  (F.fillUpdateSliceContext s.sliceContext).map fun (ret, c) =>
    let s := { s with sliceContext := c }
    if ret = false ∨ c.dataLen = 0 then
      s.requestQuitUpgradeWorkMode .errorWithRollback "read slice failed!"
    else s.requestUploadSegment

end UpdaterState

namespace AimyUpdater

variable (U : AimyUpdater)

/-- The context of `requestEnterUpgradeWorkMode`, with the page size that the device tells;
the protocol takes 10 of the 64 bytes of a frame, and the head of an upload 5. -/
def sliceContext : UpdateSliceContext :=
  { updateSliceContext ((64 - (10 + 1 + 2 + 2)) / 4 * 4) with
    pageSize := U.pageSize.toNat * 1024 }

/-- The state when the segments are loaded. -/
def init : UpdaterState := ⟨U.sliceContext, .errorWithoutRollback, "normal", []⟩

/-- The end of `handleReplyQuerySegmentInfomation`. -/
def handleReplyQuerySegmentInfomation : Option UpdaterState := U.init.requestNext U.context

/-- `AimyUpdater::handleReplyUploadVectorTable`. -/
def handleReplyUploadVectorTable (s : UpdaterState) (reply : UploadReply) : Option UpdaterState :=
  if reply.address ≠ U.updateDeviceAdress then some s
  else if reply.FalseFormat then
    some (s.requestQuitUpgradeWorkMode .errorWithRollback
      "upgrade upload vector table reply false format!")
  else if reply.packetNo ≠ packetNo s.sliceContext.seq then some s
  else if reply.status = UploadReply.statusSuccess then
    ((s.updateProgress reply).decreaseSeq).requestNext U.context
  else if reply.status = UploadReply.statusMissing then some s.onSendTimeout
  else some s

/-- `AimyUpdater::handleReplyUploadCodeSegment`. -/
def handleReplyUploadCodeSegment (s : UpdaterState) (reply : UploadReply) : Option UpdaterState :=
  if reply.address ≠ U.updateDeviceAdress then some s
  else if reply.FalseFormat then
    some (s.requestQuitUpgradeWorkMode .errorWithRollback
      "upgrade upload code  segment reply false format!")
  else if reply.packetNo ≠ packetNo s.sliceContext.seq then some s
  else if reply.status = UploadReply.statusSuccess then
    if 0 < s.sliceContext.seq then ((s.updateProgress reply).decreaseSeq).requestNext U.context
    else some ((s.updateProgress reply).requestQuitUpgradeWorkMode .success "success")
  else if reply.status = UploadReply.statusMissing then some s.onSendTimeout
  else some s

/-- The state after a reply. -/
def step (s : UpdaterState) (reply : UploadReply) : Option UpdaterState :=
  match reply.command with
  | .vector => U.handleReplyUploadVectorTable s reply
  | .code => U.handleReplyUploadCodeSegment s reply

/-- All slices of the image, the vectors first. -/
def slices : List Slice := U.context.slices U.sliceContext

end AimyUpdater

end SignalEventLoop.Device
