/-
# The handshake of a websocket connection

`WebsocketConnectionHelper` (`imp/network/websocket/websocket_connection_helper.cpp`) with the
part of `TcpConnection` that it uses.  A helper owns a channel and two caches of a connection.
On the active side it sends an upgrade request and waits for the response; on the passive side
it waits for a request and sends the response.  Then it takes the descriptor out of the
channel, resets the channel, and announces the descriptor with `notifyNewWSConnection`.

The slots of the channel call `on_recv`, `on_write`, `on_close` and `on_error`; what `recv` and
`send` return in such a call is the environment.  A function that uses the channel after it was
reset has the fault `nullChannel`.  The signals, the calls of `recv` and the frames are kept in
a log, in order.
-/
import SignalEventLoop.Core.EpollSync
import SignalEventLoop.Network.HttpRead

namespace SignalEventLoop.Network

open SignalEventLoop.Core ProtocalHttp IcacheBuffer

/-- `WebsocketStatus` -/
inductive WebsocketStatus where
  | passive
  | passiveConnecting
  | activeConnecting
  | connected
  | closed
deriving DecidableEq

/-- What a helper does to the outside. -/
inductive Effect where
  /-- `on_recv` reads from the descriptor. -/
  | recv
  /-- `popFrame` returns a frame. -/
  | frame (data : Text)
  /-- `timeoutTimer`, if there is one, is stopped. -/
  | stopTimer
  | disconnected
  | notifyNewWSConnection (api_name : Text) (fd : ℕ) (is_passive : Bool)
deriving DecidableEq

/-- How a call of a helper ends that does not return. -/
inductive HelperFault where
  /-- A fault of the protocol or of a cache. -/
  | protocal (fault : Fault)
  /-- A null `channel` is used. -/
  | nullChannel
deriving DecidableEq

/-- The constant part of a `WebsocketConnectionHelper`. -/
structure ConnectionHelper where
  fd : ℕ
  peerHostName : Text
  peerPort : UInt16
  /-- `generateSessionKey(this)` -/
  sessionKey : Text
  generateServerAcceptKey : Text → Text

/-- The variable part of a `WebsocketConnectionHelper`. -/
structure HelperState where
  connectionStatus : WebsocketStatus
  websocketApiName : Text
  /-- The state of `protocalHttp`. -/
  header_cache : StreamHttpHeader
  readCache : CacheState
  writeCache : CacheState
  /-- The events of the channel; `none` when the pointer is null. -/
  channel : Option Interest
  /-- The events for which the scheduler watches the descriptor. -/
  watched : Interest
  log : List Effect

namespace HelperState

/-- A new helper: `setProtocal` has made the caches and enabled reading. -/
def init : HelperState where
  connectionStatus := .passive
  websocketApiName := []
  header_cache := .init
  readCache := .init
  writeCache := .init
  channel := some ⟨true, false⟩
  watched := ⟨true, false⟩
  log := []

def emit (s : HelperState) (e : Effect) : HelperState := { s with log := s.log ++ [e] }

/-! ## The channel -/

/-- A change of the events of the channel, and `channel->sync()`. -/
def syncChannel (t : Toggle) (s : HelperState) : Except HelperFault HelperState :=
  match s.channel with
  | none => .error .nullChannel
  | some e => .ok { s with channel := some (t.apply e), watched := t.apply e }

/-- `channel->stop()` -/
def stopChannel (s : HelperState) : Except HelperFault HelperState :=
  match s.channel with
  | none => .error .nullChannel
  | some _ => .ok { s with watched := .noneEvent }

/-- The body of `on_close` and `on_error`. -/
def closeConnection (s : HelperState) : Except HelperFault HelperState := do
  let s ← stopChannel { s with connectionStatus := .closed }
  .ok (s.emit .disconnected)

/-- `WebsocketConnectionHelper::on_close` -/
def onClose (s : HelperState) : Except HelperFault HelperState := s.closeConnection

/-- `WebsocketConnectionHelper::on_error` -/
def onError (s : HelperState) : Except HelperFault HelperState := s.closeConnection

/-- A frame is put into the write cache; the first one enables writing. -/
def appendWrite (buffer : Bytes) (s : HelperState) : Except HelperFault HelperState :=
  match httpCache.appendFrame s.writeCache buffer with
  | none => .error (.protocal .noResult)
  | some (_, writeCache) =>
    if writeCache.frameCacheMap.length = 1 then
      syncChannel .enablWriting { s with writeCache := writeCache }
    else .ok { s with writeCache := writeCache }

end HelperState

namespace ConnectionHelper

open HelperState

variable (H : ConnectionHelper)

/-- The header fields of the upgrade request. -/
def requestKeys : KeysMap :=
  KeysMap.empty.set (ascii "Host") (H.peerHostName ++ ascii ":" ++ numeral H.peerPort.toNat)
    |>.set (ascii "Upgrade") (ascii "websocket")
    |>.set (ascii "Connection") (ascii "Upgrade")
    |>.set (ascii "Sec-WebSocket-Key") H.sessionKey
    |>.set (ascii "Sec-WebSocket-Version") (ascii "13")

/-- `WebsocketConnectionHelper::activeSetup` -/
def activeSetup (api : Text) (s : HelperState) : Except HelperFault HelperState :=
  if s.connectionStatus ≠ .passive then .ok s
  else do
    let websocketApiName := if api = [] then ascii "/" else api
    let buffer ← (packetFrame [ascii "GET", websocketApiName, ascii "HTTP/1.1"] H.requestKeys
      noBytes).mapError .protocal
    appendWrite buffer { s with
      connectionStatus := .activeConnecting
      websocketApiName := websocketApiName }

/-- `WebsocketConnectionHelper::abort` -/
def abort (s : HelperState) : HelperState :=
  { s with connectionStatus := .closed }.emit .disconnected

/-- The header fields of the response. -/
def responseKeys (client_key : Text) : KeysMap :=
  KeysMap.empty.set (ascii "Upgrade") (ascii "websocket")
    |>.set (ascii "Connection") (ascii "Upgrade")
    |>.set (ascii "Sec-WebSocket-Accept") (H.generateServerAcceptKey client_key)

/-- `WebsocketConnectionHelper::passiveResponse` -/
def passiveResponse (client_key : Text) (s : HelperState) : Except HelperFault HelperState :=
  if s.connectionStatus ≠ .passive then .ok s
  else do
    let buffer ← (packetFrame [ascii "HTTP/1.1", ascii "101", ascii "Switching Protocols"]
      (H.responseKeys client_key) noBytes).mapError .protocal
    appendWrite buffer { s with connectionStatus := .passiveConnecting }

/-- `WebsocketConnectionHelper::handleConnectSuccess` -/
def handleConnectSuccess (is_passive : Bool) (s : HelperState) :
    Except HelperFault HelperState := do
  let s ← stopChannel { s with connectionStatus := .connected }
  let s := { s with channel := none }
  .ok (((s.emit .stopTimer).emit .disconnected).emit
    (.notifyNewWSConnection s.websocketApiName H.fd is_passive))

/-- `WebsocketConnectionHelper::handleWebsocketPassiveConnection` -/
def handleWebsocketPassiveConnection (frame : Text) (s : HelperState) :
    Except HelperFault HelperState := do
  let (_, header) ← (bufferToFrame frame).mapError .protocal
  if header.content_length < 0 then s.onError
  else
    match header.header with
    | [option, api, http_version] =>
      let s := { s with websocketApiName := api }
      if option ≠ ascii "GET" ∨ http_version ≠ ascii "HTTP/1.1" then s.onError
      else
        match header.keys.find (ascii "Sec-WebSocket-Key") with
        | none => s.onError
        | some client_key => H.passiveResponse client_key s
    | _ => s.onError

/-- `WebsocketConnectionHelper::handleActiveConnection` -/
def handleActiveConnection (frame : Text) (s : HelperState) : Except HelperFault HelperState := do
  let (_, header) ← (bufferToFrame frame).mapError .protocal
  if header.content_length < 0 then s.onError
  else
    match header.header with
    | [http_version, code, _] =>
      if code ≠ ascii "101" ∨ http_version ≠ ascii "HTTP/1.1" then s.onError
      else
        match header.keys.find (ascii "Sec-WebSocket-Accept") with
        | none => s.onError
        | some key =>
          if H.generateServerAcceptKey H.sessionKey ≠ key then s.onError
          else H.handleConnectSuccess false s
    | _ => s.onError

/-! ## The slots of the channel -/

/-- How the loop of `on_recv` ends. -/
inductive ReadEnd where
  /-- Nothing is there to be read. -/
  | again
  /-- `readFromFd` returns 0. -/
  | closed
  /-- A frame is popped. -/
  | frame (data : Text)

/-- The loop of `on_recv` up to its first frame; the results of `recv` that it does not ask for
are returned.  A list of results that has come to its end stands for `EAGAIN`. -/
def readLoop : List RecvResult → StreamHttpHeader → CacheState →
    Except Fault (ReadEnd × List RecvResult × StreamHttpHeader × CacheState)
  | [], header_cache, s => .ok (.again, [], header_cache, s)
  | r :: results, header_cache, s => do
    let (ret, header_cache, s) ← readFromFd header_cache s r
    if ret < 0 then .ok (.again, results, header_cache, s)
    else if ret = 0 then .ok (.closed, results, header_cache, s)
    else
      match popFrame s with
      | none => .error .noResult
      | some (frame, s) =>
        if frame.length > 0 then .ok (.frame frame, results, header_cache, s)
        else readLoop results header_cache s

/-- A frame arrives. -/
def handleFrame (frame : Text) (s : HelperState) : Except HelperFault HelperState := do
  let s ← syncChannel .disableReading s
  match s.connectionStatus with
  | .passive => H.handleWebsocketPassiveConnection frame s
  | .activeConnecting => H.handleActiveConnection frame s
  | .passiveConnecting | .closed | .connected => do
    let s ← s.onError
    .ok (s.emit .disconnected)

/-- `WebsocketConnectionHelper::on_recv` -/
def onRecv (results : List RecvResult) (s : HelperState) : Except HelperFault HelperState := do
  let (e, _, header_cache, readCache) ←
    (readLoop results s.header_cache s.readCache).mapError .protocal
  let s := { s with header_cache := header_cache, readCache := readCache }.emit .recv
  match e with
  | .again => .ok s
  | .closed => s.onClose
  | .frame frame => H.handleFrame frame (s.emit (.frame frame))

/-- The loop of `on_write`, by the results of `send` in each call of `sendCacheByFd`; the flag
tells whether one of them returns 0. -/
def writeLoop : List (List SendResult) → CacheState → Except Fault (Bool × CacheState)
  | results, s =>
    if s.frameCacheMap = [] then .ok (false, s)
    else
      match results with
      | [] => .ok (false, s)
      | r :: results =>
        match httpCache.sendCacheByFd s r with
        | none => .error .noResult
        | some (ret, _, s) =>
          if ret < 0 then .ok (false, s)
          else if ret = 0 then .ok (true, s)
          else writeLoop results s

/-- `WebsocketConnectionHelper::on_write` -/
def onWrite (results : List (List SendResult)) (s : HelperState) :
    Except HelperFault HelperState := do
  let (closed, writeCache) ← (writeLoop results s.writeCache).mapError .protocal
  let s := { s with writeCache := writeCache }
  if closed then s.onClose
  else if writeCache.frameCacheMap = [] then do
    let s ← syncChannel .disableWriting s
    if s.connectionStatus = .passiveConnecting then H.handleConnectSuccess true s
    else .ok s
  else .ok s

/-- What happens to a helper. -/
inductive HelperEvent where
  | activeSetup (api : Text)
  | abort
  | recv (results : List RecvResult)
  | write (results : List (List SendResult))
  | close
  | error

/-- The state after an event. -/
def step (s : HelperState) : HelperEvent → Except HelperFault HelperState
  | .activeSetup api => H.activeSetup api s
  | .abort => .ok (abort s)
  | .recv results => H.onRecv results s
  | .write results => H.onWrite results s
  | .close => s.onClose
  | .error => s.onError

/-- The state after an event that returns. -/
def next (s : HelperState) (e : HelperEvent) : Option HelperState := (H.step s e).toOption

end ConnectionHelper

end SignalEventLoop.Network
