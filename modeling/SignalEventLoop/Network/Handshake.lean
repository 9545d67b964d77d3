/-
# The order of the handshake

Every event moves `connectionStatus` along one arrow or leaves it alone, and the descriptor is
announced when the status becomes `connected`.  An event has one of two outcomes: the helper
keeps the connection, or hands it off (`Outcome`).  The order of the handshake follows from
this alone.
-/
import SignalEventLoop.Network.HelperRead

namespace SignalEventLoop.Network

open SignalEventLoop.Core ProtocalHttp
open IcacheBuffer (SendResult sound_init)

/-- The statuses that may follow a status. -/
def WebsocketStatus.next : WebsocketStatus → List WebsocketStatus
  | .passive => [.activeConnecting, .passiveConnecting, .closed]
  | .activeConnecting | .passiveConnecting => [.connected, .closed]
  | .connected => [.closed]
  | .closed => []

/-- The status stays or moves on. -/
def WebsocketStatus.Moves (a b : WebsocketStatus) : Prop := a = b ∨ b ∈ a.next

lemma WebsocketStatus.moves_closed (a : WebsocketStatus) : a.Moves .closed := by
  cases a <;> simp [Moves, next]

def Effect.isNotification : Effect → Bool
  | .notifyNewWSConnection _ _ _ => true
  | _ => false

/-- The effects outside of the hand-off. -/
def Effect.isQuiet : Effect → Bool
  | .recv | .frame _ | .disconnected => true
  | .stopTimer | .notifyNewWSConnection _ _ _ => false

/-- The announcements in a log. -/
def notifications (log : List Effect) : List Effect := log.filter Effect.isNotification

lemma notifications_append (l l' : List Effect) :
    notifications (l ++ l') = notifications l ++ notifications l' := List.filter_append ..

lemma notifications_of_quiet {l : List Effect} (h : ∀ e ∈ l, e.isQuiet = true) :
    notifications l = [] := by
  refine List.filter_eq_nil_iff.mpr fun e he => ?_
  have hq := h e he
  cases e <;> simp_all [Effect.isQuiet, Effect.isNotification]

namespace HelperState

variable {s s' : HelperState} {t : Toggle} {buffer : Bytes}

/-- The state after `on_close` and `on_error`. -/
def closedState (s : HelperState) : HelperState :=
  { s with
    connectionStatus := .closed
    watched := .noneEvent
    log := s.log ++ [.disconnected] }

lemma stopChannel_eq_ok : s.stopChannel = .ok s' ↔
    s.channel ≠ none ∧ s' = { s with watched := .noneEvent } := by
  rw [stopChannel]
  split
  · rename_i hc
    simp [hc]
  · rename_i hc
    simp only [Except.ok.injEq, hc, ne_eq, reduceCtorEq, not_false_eq_true, true_and]
    exact eq_comm

lemma closeConnection_eq_ok : s.closeConnection = .ok s' ↔
    s.channel ≠ none ∧ s' = s.closedState := by
  rw [closeConnection, bind_eq_ok]
  constructor
  · rintro ⟨s₁, hstop, h⟩
    obtain ⟨hc, rfl⟩ := stopChannel_eq_ok.mp hstop
    exact ⟨hc, (Except.ok.inj h).symm⟩
  · rintro ⟨hc, rfl⟩
    exact ⟨_, stopChannel_eq_ok.mpr ⟨hc, rfl⟩, rfl⟩

lemma syncChannel_eq_ok : syncChannel t s = .ok s' ↔ ∃ e, s.channel = some e ∧
    s' = { s with channel := some (t.apply e), watched := t.apply e } := by
  rw [syncChannel]
  cases hc : s.channel with
  | none => simp
  | some e =>
    simp only [Except.ok.injEq, Option.some.injEq, exists_eq_left']
    exact eq_comm

/-- Putting a frame into the write cache changes nothing of the handshake. -/
structure Unmoved (s s' : HelperState) : Prop where
  connectionStatus : s'.connectionStatus = s.connectionStatus
  websocketApiName : s'.websocketApiName = s.websocketApiName
  header_cache : s'.header_cache = s.header_cache
  readCache : s'.readCache = s.readCache
  channel : s'.channel = none ↔ s.channel = none
  log : s'.log = s.log

lemma unmoved_of_syncChannel (h : syncChannel t s = .ok s') : Unmoved s s' := by
  obtain ⟨e, he, rfl⟩ := syncChannel_eq_ok.mp h
  exact ⟨rfl, rfl, rfl, rfl, by simp [he], rfl⟩

lemma unmoved_of_appendWrite (h : appendWrite buffer s = .ok s') : Unmoved s s' := by
  rw [appendWrite] at h
  split at h
  · simp at h
  · split_ifs at h
    · have hsync := unmoved_of_syncChannel h
      exact ⟨hsync.connectionStatus, hsync.websocketApiName, hsync.header_cache, hsync.readCache,
        hsync.channel, hsync.log⟩
    · obtain rfl := Except.ok.inj h
      exact ⟨rfl, rfl, rfl, rfl, Iff.rfl, rfl⟩

/-- Putting a frame into the write cache of a channel that is in sync does not change whether
it is read. -/
lemma appendWrite_reading (hsync : s.channel = some s.watched)
    (h : appendWrite buffer s = .ok s') :
    s'.channel = some s'.watched ∧ s'.watched.reading = s.watched.reading := by
  rw [appendWrite] at h
  split at h
  · simp at h
  · split_ifs at h
    · obtain ⟨e, he, rfl⟩ := syncChannel_eq_ok.mp h
      obtain rfl : s.watched = e := Option.some.inj (hsync.symm.trans he)
      exact ⟨rfl, rfl⟩
    · obtain rfl := Except.ok.inj h
      exact ⟨hsync, rfl⟩

end HelperState

namespace ConnectionHelper

open HelperState

variable {H : ConnectionHelper} {s s' : HelperState} {frame : Text}

/-- The state after `handleConnectSuccess`. -/
def connectedState (H : ConnectionHelper) (is_passive : Bool) (s : HelperState) : HelperState :=
  { s with
    connectionStatus := .connected
    watched := .noneEvent
    channel := none
    log := s.log ++ [.stopTimer, .disconnected,
      .notifyNewWSConnection s.websocketApiName H.fd is_passive] }

lemma handleConnectSuccess_eq_ok {is_passive : Bool} :
    H.handleConnectSuccess is_passive s = .ok s' ↔
      s.channel ≠ none ∧ s' = H.connectedState is_passive s := by
  rw [handleConnectSuccess, bind_eq_ok]
  constructor
  · rintro ⟨s₁, hstop, h⟩
    obtain ⟨hc, rfl⟩ := stopChannel_eq_ok.mp hstop
    refine ⟨hc, ?_⟩
    rw [← Except.ok.inj h]
    simp [connectedState, emit]
  · rintro ⟨hc, rfl⟩
    refine ⟨_, stopChannel_eq_ok.mpr ⟨hc, rfl⟩, ?_⟩
    simp [connectedState, emit]

/-- The head of a response with the version `HTTP/1.1`, the code 101, and the accept key for the
key of this helper. -/
structure IsResponse (H : ConnectionHelper) (header : StreamHttpHeader) : Prop where
  complete : 0 ≤ header.content_length
  firstLine : ∃ info, header.header = [ascii "HTTP/1.1", ascii "101", info]
  accept : header.keys.find (ascii "Sec-WebSocket-Accept") =
    some (H.generateServerAcceptKey H.sessionKey)

/-- The head of an upgrade request for an api, with a key. -/
structure IsRequest (header : StreamHttpHeader) (api key : Text) : Prop where
  complete : 0 ≤ header.content_length
  firstLine : header.header = [ascii "GET", api, ascii "HTTP/1.1"]
  key : header.keys.find (ascii "Sec-WebSocket-Key") = some key

variable {ok : Bool} {header : StreamHttpHeader} {api key : Text}

lemma handleActiveConnection_of_response (hparse : bufferToFrame frame = .ok (ok, header))
    (h : H.IsResponse header) :
    H.handleActiveConnection frame s = H.handleConnectSuccess false s := by
  obtain ⟨hlen, ⟨info, hfirst⟩, haccept⟩ := h
  rw [handleActiveConnection, hparse]
  simp only [bind, Except.bind, Except.mapError]
  rw [if_neg (by omega), hfirst]
  simp [haccept]

lemma handleActiveConnection_of_not (hparse : bufferToFrame frame = .ok (ok, header))
    (h : ¬ H.IsResponse header) : H.handleActiveConnection frame s = s.onError := by
  rw [handleActiveConnection, hparse]
  simp only [bind, Except.bind, Except.mapError]
  split_ifs with hlen
  · rfl
  split
  · rename_i http_version code info hfirst
    split_ifs with hcode
    · rfl
    split
    · rfl
    · rename_i key hkey
      split_ifs with hmatch
      · rfl
      · -- nothing is wrong with the response
        rw [not_not] at hmatch
        obtain ⟨rfl, rfl⟩ : code = ascii "101" ∧ http_version = ascii "HTTP/1.1" := by
          simpa using hcode
        exact absurd ⟨by omega, ⟨info, hfirst⟩, by rw [hkey, hmatch]⟩ h
  · rfl

lemma handlePassive_of_request (hparse : bufferToFrame frame = .ok (ok, header))
    (h : IsRequest header api key) : H.handleWebsocketPassiveConnection frame s =
      H.passiveResponse key { s with websocketApiName := api } := by
  obtain ⟨hlen, hfirst, hkey⟩ := h
  rw [handleWebsocketPassiveConnection, hparse]
  simp only [bind, Except.bind, Except.mapError]
  rw [if_neg (by omega), hfirst]
  simp [hkey]

/-- Any other frame is an error; the name of the api may already be set. -/
lemma handlePassive_of_not (hparse : bufferToFrame frame = .ok (ok, header))
    (h : ∀ api key, ¬ IsRequest header api key) :
    ∃ api, H.handleWebsocketPassiveConnection frame s =
      ({ s with websocketApiName := api } : HelperState).onError := by
  rw [handleWebsocketPassiveConnection, hparse]
  simp only [bind, Except.bind, Except.mapError]
  split_ifs with hlen
  · exact ⟨s.websocketApiName, rfl⟩
  split
  · rename_i option api http_version hfirst
    split_ifs with hcode
    · exact ⟨api, rfl⟩
    split
    · exact ⟨api, rfl⟩
    · rename_i key hkey
      obtain ⟨rfl, rfl⟩ : option = ascii "GET" ∧ http_version = ascii "HTTP/1.1" := by
        simpa using hcode
      exact absurd ⟨by omega, hfirst, hkey⟩ (h api key)
  · exact ⟨s.websocketApiName, rfl⟩

/-! ## The outcome of an event -/

/-- The event completes the handshake: a correct response arrives, or the last byte of the own
response is sent. -/
def Completes (H : ConnectionHelper) (s : HelperState) : HelperEvent → Prop
  | .recv results => s.connectionStatus = .activeConnecting ∧
      ∃ frame unread header_cache readCache ok header,
        readLoop results s.header_cache s.readCache =
          .ok (.frame frame, unread, header_cache, readCache) ∧
        bufferToFrame frame = .ok (ok, header) ∧ H.IsResponse header
  | .write results => s.connectionStatus = .passiveConnecting ∧
      ∃ writeCache, writeLoop results s.writeCache = .ok (false, writeCache) ∧
        writeCache.frameCacheMap = []
  | _ => False

/-- An event leaves the connection with the helper, or hands it off. -/
inductive Outcome (H : ConnectionHelper) (s : HelperState) (event : HelperEvent)
    (s' : HelperState) : Prop where
  | keeps (new : List Effect) (log : s'.log = s.log ++ new)
      (quiet : ∀ e ∈ new, e.isQuiet = true)
      (moves : s.connectionStatus.Moves s'.connectionStatus)
      (status : s'.connectionStatus = .connected → s.connectionStatus = .connected)
      (channel : s'.channel = none ↔ s.channel = none)
  | handsOff (new : List Effect) (is_passive : Bool)
      (log : s'.log = s.log ++ new ++ [.stopTimer, .disconnected,
        .notifyNewWSConnection s'.websocketApiName H.fd is_passive])
      (quiet : ∀ e ∈ new, e.isQuiet = true)
      (status : s'.connectionStatus = .connected)
      (channel : s.channel ≠ none ∧ s'.channel = none)
      (completes : H.Completes s event)
      (side : (is_passive = true ∧ s.connectionStatus = .passiveConnecting) ∨
        (is_passive = false ∧ s.connectionStatus = .activeConnecting ∧
          ∃ frame ok header, Effect.frame frame ∈ new ∧
            bufferToFrame frame = .ok (ok, header) ∧ H.IsResponse header))

/-- The helper does something and closes the connection. -/
lemma outcome_closedState {s₁ : HelperState} {event : HelperEvent} (new : List Effect)
    (hlog : s₁.log = s.log ++ new) (hquiet : ∀ e ∈ new, e.isQuiet = true)
    (hchannel : s₁.channel = none ↔ s.channel = none) :
    H.Outcome s event s₁.closedState := by
  refine .keeps (new ++ [.disconnected]) ?_ ?_ (WebsocketStatus.moves_closed _) ?_ hchannel
  · simp [closedState, hlog]
  · intro e he
    rcases List.mem_append.mp he with he | he
    · exact hquiet e he
    · obtain rfl := List.mem_singleton.mp he
      rfl
  · simp [closedState]

lemma passiveResponse_unmoved (hst : s.connectionStatus = .passive)
    (h : H.passiveResponse key s = .ok s') :
    Unmoved { s with connectionStatus := .passiveConnecting } s' := by
  rw [passiveResponse, if_neg (by simp [hst])] at h
  obtain ⟨buffer, -, h⟩ := bind_eq_ok.mp h
  exact unmoved_of_appendWrite h

lemma activeSetup_unmoved (hst : s.connectionStatus = .passive)
    (h : H.activeSetup api s = .ok s') : ∃ name,
      Unmoved { s with connectionStatus := .activeConnecting, websocketApiName := name } s' := by
  rw [activeSetup, if_neg (by simp [hst])] at h
  obtain ⟨buffer, -, h⟩ := bind_eq_ok.mp h
  exact ⟨_, unmoved_of_appendWrite h⟩

lemma activeSetup_reading (hst : s.connectionStatus = .passive)
    (hsync : s.channel = some s.watched) (h : H.activeSetup api s = .ok s') :
    s'.channel = some s'.watched ∧ s'.watched.reading = s.watched.reading := by
  rw [activeSetup, if_neg (by simp [hst])] at h
  obtain ⟨buffer, -, h⟩ := bind_eq_ok.mp h
  exact appendWrite_reading (s := { s with
    connectionStatus := .activeConnecting
    websocketApiName := if api = [] then ascii "/" else api }) hsync h

/-- `activeSetup` of a new connection returns. -/
lemma activeSetup_ok (hst : s.connectionStatus = .passive)
    (hsound : httpCache.Sound s.writeCache) (hchannel : s.channel ≠ none) (api : Text) :
    ∃ s', H.activeSetup api s = .ok s' ∧ httpCache.Sound s'.writeCache := by
  obtain ⟨buffer, hbuffer, hlen⟩ := packetFrame_noBytes
    [ascii "GET", if api = [] then ascii "/" else api, ascii "HTTP/1.1"] H.requestKeys
  obtain ⟨s', hs', hsound'⟩ := appendWrite_ok (s := { s with
    connectionStatus := .activeConnecting
    websocketApiName := if api = [] then ascii "/" else api }) hlen hsound hchannel
  refine ⟨s', ?_, hsound'⟩
  rw [activeSetup, if_neg (by simp [hst])]
  exact bind_eq_ok.mpr ⟨buffer, mapError_eq_ok.mpr hbuffer, hs'⟩

/-- The state in which a frame is handled. -/
def frameState (s : HelperState) (frame : Text) (header_cache : StreamHttpHeader)
    (readCache : CacheState) (e : Interest) : HelperState :=
  { s with
    header_cache := header_cache
    readCache := readCache
    channel := some (Toggle.disableReading.apply e)
    watched := Toggle.disableReading.apply e
    log := s.log ++ [.recv, .frame frame] }

section onRecv

variable {results unread : List RecvResult} {header_cache : StreamHttpHeader}
  {readCache : CacheState} {e : Interest}

/-- A frame is handled by the status. -/
lemma onRecv_frame (hread : readLoop results s.header_cache s.readCache =
      .ok (.frame frame, unread, header_cache, readCache)) (hchannel : s.channel = some e) :
    H.onRecv results s = (match s.connectionStatus with
      | .passive =>
        H.handleWebsocketPassiveConnection frame (frameState s frame header_cache readCache e)
      | .activeConnecting =>
        H.handleActiveConnection frame (frameState s frame header_cache readCache e)
      | .passiveConnecting | .closed | .connected =>
        (frameState s frame header_cache readCache e).onError >>= fun s =>
          .ok (s.emit .disconnected)) := by
  have hsync : syncChannel .disableReading
      ((({ s with header_cache := header_cache, readCache := readCache } :
        HelperState).emit .recv).emit (.frame frame)) =
      .ok (frameState s frame header_cache readCache e) := by
    refine syncChannel_eq_ok.mpr ⟨e, hchannel, ?_⟩
    simp [frameState, emit]
  rw [onRecv, hread]
  simp only [bind, Except.bind, Except.mapError, handleFrame, hsync]
  rfl

lemma onRecv_frame_null (hread : readLoop results s.header_cache s.readCache =
      .ok (.frame frame, unread, header_cache, readCache)) (hchannel : s.channel = none) :
    H.onRecv results s = .error .nullChannel := by
  rw [onRecv, hread]
  simp only [bind, Except.bind, Except.mapError, handleFrame, syncChannel, emit, hchannel]

/-- A response is handed off. -/
lemma onRecv_response (hread : readLoop results s.header_cache s.readCache =
      .ok (.frame frame, unread, header_cache, readCache)) (hchannel : s.channel = some e)
    (hst : s.connectionStatus = .activeConnecting) (hparse : bufferToFrame frame = .ok (ok, header))
    (hresp : H.IsResponse header) : H.onRecv results s =
      .ok (H.connectedState false (frameState s frame header_cache readCache e)) := by
  rw [onRecv_frame hread hchannel, hst]
  dsimp only
  rw [handleActiveConnection_of_response hparse hresp]
  exact handleConnectSuccess_eq_ok.mpr ⟨by simp [frameState], rfl⟩

lemma quiet_frame (frame : Text) :
    ∀ e ∈ [Effect.recv, Effect.frame frame], e.isQuiet = true := by
  simp [Effect.isQuiet]

lemma frameState_open (frame : Text) (header_cache : StreamHttpHeader) (readCache : CacheState)
    (hchannel : s.channel = some e) :
    (frameState s frame header_cache readCache e).channel = none ↔ s.channel = none := by
  simp [frameState, hchannel]

/-- A frame that comes to a passive helper. -/
lemma outcome_passive (hchannel : s.channel = some e) (hst : s.connectionStatus = .passive)
    (h : H.handleWebsocketPassiveConnection frame (frameState s frame header_cache readCache e) =
      .ok s') : H.Outcome s (.recv results) s' := by
  obtain ⟨⟨ok, header⟩, hparse, -⟩ := bind_eq_ok.mp h
  rw [mapError_eq_ok] at hparse
  by_cases hreq : ∃ api key, IsRequest header api key
  · obtain ⟨api, key, hreq⟩ := hreq
    rw [handlePassive_of_request hparse hreq] at h
    have hunmoved := passiveResponse_unmoved (by exact hst) h
    refine .keeps _ hunmoved.log (quiet_frame frame) ?_ ?_
      (hunmoved.channel.trans (frameState_open frame header_cache readCache hchannel))
    · rw [hunmoved.connectionStatus, hst]
      simp [WebsocketStatus.Moves, WebsocketStatus.next]
    · rw [hunmoved.connectionStatus]
      simp
  · obtain ⟨api, herror⟩ := handlePassive_of_not (H := H) hparse (by simpa using hreq)
    rw [herror] at h
    obtain ⟨-, rfl⟩ := closeConnection_eq_ok.mp h
    exact outcome_closedState _ rfl (quiet_frame frame)
      (frameState_open frame header_cache readCache hchannel)

/-- A frame that comes to an active helper. -/
lemma outcome_active (hread : readLoop results s.header_cache s.readCache =
      .ok (.frame frame, unread, header_cache, readCache)) (hchannel : s.channel = some e)
    (hst : s.connectionStatus = .activeConnecting)
    (h : H.handleActiveConnection frame (frameState s frame header_cache readCache e) = .ok s') :
    H.Outcome s (.recv results) s' := by
  obtain ⟨⟨ok, header⟩, hparse, -⟩ := bind_eq_ok.mp h
  rw [mapError_eq_ok] at hparse
  by_cases hresp : H.IsResponse header
  · rw [handleActiveConnection_of_response hparse hresp] at h
    obtain ⟨-, rfl⟩ := handleConnectSuccess_eq_ok.mp h
    exact .handsOff [.recv, .frame frame] false rfl (quiet_frame frame) rfl
      ⟨by simp [hchannel], rfl⟩
      ⟨hst, frame, unread, header_cache, readCache, ok, header, hread, hparse, hresp⟩
      (Or.inr ⟨rfl, hst, frame, ok, header, by simp, hparse, hresp⟩)
  · rw [handleActiveConnection_of_not hparse hresp] at h
    obtain ⟨-, rfl⟩ := closeConnection_eq_ok.mp h
    exact outcome_closedState _ rfl (quiet_frame frame)
      (frameState_open frame header_cache readCache hchannel)

/-- A frame that nobody waits for. -/
lemma outcome_unexpected (hchannel : s.channel = some e)
    (h : ((frameState s frame header_cache readCache e).onError >>= fun s =>
      .ok (s.emit .disconnected)) = .ok s') : H.Outcome s (.recv results) s' := by
  obtain ⟨s₁, herror, h⟩ := bind_eq_ok.mp h
  obtain ⟨-, rfl⟩ := closeConnection_eq_ok.mp herror
  obtain rfl := Except.ok.inj h
  refine .keeps [.recv, .frame frame, .disconnected, .disconnected] ?_ (by simp [Effect.isQuiet])
    (WebsocketStatus.moves_closed _) (by simp [closedState, emit])
    (frameState_open frame header_cache readCache hchannel)
  simp [closedState, emit, frameState]

/-- A frame leaves the connection with the helper, or is a response. -/
lemma outcome_onRecv_frame (hread : readLoop results s.header_cache s.readCache =
      .ok (.frame frame, unread, header_cache, readCache)) (h : H.onRecv results s = .ok s') :
    H.Outcome s (.recv results) s' := by
  cases hchannel : s.channel with
  | none =>
    rw [onRecv_frame_null hread hchannel] at h
    simp at h
  | some e =>
    rw [onRecv_frame hread hchannel] at h
    cases hst : s.connectionStatus <;> rw [hst] at h
    case passive => exact outcome_passive hchannel hst h
    case activeConnecting => exact outcome_active hread hchannel hst h
    all_goals exact outcome_unexpected hchannel h

end onRecv

lemma outcome_onRecv {results : List RecvResult} (h : H.onRecv results s = .ok s') :
    H.Outcome s (.recv results) s' := by
  obtain ⟨⟨e, unread, header_cache, readCache⟩, hread, hend⟩ := bind_eq_ok.mp h
  rw [mapError_eq_ok] at hread
  cases e with
  | again =>
    obtain rfl := Except.ok.inj hend
    exact .keeps [.recv] rfl (by simp [Effect.isQuiet]) (Or.inl rfl) id Iff.rfl
  | closed =>
    obtain ⟨-, rfl⟩ := closeConnection_eq_ok.mp hend
    exact outcome_closedState [.recv] rfl (by simp [Effect.isQuiet]) Iff.rfl
  | frame frame => exact outcome_onRecv_frame hread h

lemma outcome_onWrite {results : List (List SendResult)} (h : H.onWrite results s = .ok s') :
    H.Outcome s (.write results) s' := by
  obtain ⟨⟨closed, writeCache⟩, hwrite, h⟩ := bind_eq_ok.mp h
  rw [mapError_eq_ok] at hwrite
  dsimp only at h
  split_ifs at h with hclosed hsent
  · obtain ⟨-, rfl⟩ := closeConnection_eq_ok.mp h
    exact outcome_closedState [] (by simp) (by simp) Iff.rfl
  · obtain ⟨s₁, hsync, h⟩ := bind_eq_ok.mp h
    obtain ⟨e, he, rfl⟩ := syncChannel_eq_ok.mp hsync
    dsimp only at he
    split_ifs at h with hpassive
    · obtain ⟨-, rfl⟩ := handleConnectSuccess_eq_ok.mp h
      refine .handsOff [] true ?_ (by simp) rfl ⟨by simp [he], rfl⟩
        ⟨hpassive, writeCache, ?_, hsent⟩ (Or.inl ⟨rfl, hpassive⟩)
      · simp [connectedState]
      · rw [hwrite, (Bool.not_eq_true _).mp hclosed]
    · obtain rfl := Except.ok.inj h
      exact .keeps [] (by simp) (by simp) (Or.inl rfl) id (by simp [he])
  · obtain rfl := Except.ok.inj h
    exact .keeps [] (by simp) (by simp) (Or.inl rfl) id Iff.rfl

/-- The last byte of a response is sent. -/
lemma onWrite_response {results : List (List SendResult)} {writeCache : CacheState} {e : Interest}
    (hwrite : writeLoop results s.writeCache = .ok (false, writeCache))
    (hsent : writeCache.frameCacheMap = []) (hchannel : s.channel = some e)
    (hst : s.connectionStatus = .passiveConnecting) :
    H.onWrite results s = .ok (H.connectedState true { s with
      writeCache := writeCache
      channel := some (Toggle.disableWriting.apply e)
      watched := Toggle.disableWriting.apply e }) := by
  refine bind_eq_ok.mpr ⟨(false, writeCache), mapError_eq_ok.mpr hwrite, ?_⟩
  dsimp only
  rw [if_neg (by simp), if_pos hsent]
  refine bind_eq_ok.mpr ⟨_, syncChannel_eq_ok.mpr ⟨e, hchannel, rfl⟩, ?_⟩
  rw [if_pos hst]
  exact handleConnectSuccess_eq_ok.mpr ⟨by simp, rfl⟩

/-- **Every event has an outcome.** -/
lemma outcome_of_step {e : HelperEvent} (h : H.step s e = .ok s') : H.Outcome s e s' := by
  cases e with
  | activeSetup api =>
    by_cases hst : s.connectionStatus = .passive
    · obtain ⟨name, hunmoved⟩ := activeSetup_unmoved hst h
      refine .keeps [] (by rw [hunmoved.log, List.append_nil]) (by simp) ?_ ?_ hunmoved.channel
      · rw [hunmoved.connectionStatus, hst]
        simp [WebsocketStatus.Moves, WebsocketStatus.next]
      · rw [hunmoved.connectionStatus]
        simp
    · have hs : H.activeSetup api s = .ok s' := h
      rw [activeSetup, if_pos hst] at hs
      obtain rfl := Except.ok.inj hs
      exact .keeps [] (by simp) (by simp) (Or.inl rfl) id Iff.rfl
  | abort =>
    obtain rfl := Except.ok.inj h
    exact .keeps [.disconnected] rfl (by simp [Effect.isQuiet]) (WebsocketStatus.moves_closed _)
      (by simp [abort, emit]) Iff.rfl
  | recv results => exact outcome_onRecv h
  | write results => exact outcome_onWrite h
  | close =>
    obtain ⟨-, rfl⟩ := closeConnection_eq_ok.mp h
    exact outcome_closedState [] (by simp) (by simp) Iff.rfl
  | error =>
    obtain ⟨-, rfl⟩ := closeConnection_eq_ok.mp h
    exact outcome_closedState [] (by simp) (by simp) Iff.rfl

/-! ## Runs -/

/-- The descriptor is announced when and only when the channel is reset, and the handshake is
over then. -/
inductive Ordered (s : HelperState) : Prop where
  | before (none_yet : notifications s.log = []) (channel : s.channel ≠ none)
      (status : s.connectionStatus ≠ .connected)
  | after (once : (notifications s.log).length = 1) (channel : s.channel = none)
      (status : s.connectionStatus = .connected ∨ s.connectionStatus = .closed)

lemma ordered_init : Ordered HelperState.init :=
  .before rfl (by simp [HelperState.init]) (by simp [HelperState.init])

lemma Ordered.length_le (h : Ordered s) : (notifications s.log).length ≤ 1 := by
  cases h with
  | before hnone _ _ => simp [hnone]
  | after honce _ _ => exact honce.le

lemma Ordered.step (h : Ordered s) {e : HelperEvent} (hs' : H.step s e = .ok s') : Ordered s' := by
  cases outcome_of_step hs' with
  | keeps new hlog hquiet hmoves hst hchannel =>
    have hsame : notifications s'.log = notifications s.log := by
      rw [hlog, notifications_append, notifications_of_quiet hquiet, List.append_nil]
    cases h with
    | before hnone hopen hne =>
      exact .before (hsame.trans hnone) (fun hc => hopen (hchannel.mp hc)) fun hc => hne (hst hc)
    | after honce hnull hover =>
      refine .after (by rw [hsame]; exact honce) (hchannel.mpr hnull) ?_
      rcases hmoves with heq | hnext
      · rw [← heq]
        exact hover
      · rcases hover with hover | hover <;> simp_all [WebsocketStatus.next]
  | handsOff new is_passive hlog hquiet hst hchannel _ hside =>
    cases h with
    | before hnone _ _ =>
      refine .after ?_ hchannel.2 (Or.inl hst)
      rw [hlog, notifications_append, notifications_append, notifications_of_quiet hquiet, hnone]
      rfl
    | after _ hnull _ => exact absurd hnull hchannel.1

lemma next_eq_some {e : HelperEvent} : H.next s e = some s' ↔ H.step s e = .ok s' :=
  toOption_eq_some

lemma ordered_of_run {events : List HelperEvent}
    (hrun : Lib.run H.next HelperState.init events = some s) : Ordered s :=
  Lib.run_inv (I := Ordered) (fun _ _ _ h hs' => h.step (next_eq_some.mp hs')) ordered_init hrun

/-- A helper with the address 139888628339408, and the accept key for it. -/
def sampleHelper : ConnectionHelper where
  fd := 7
  peerHostName := ascii "127.0.0.1"
  peerPort := 9000
  sessionKey := ascii "P6JxeQ6bfqxsCzQbrme46A=="
  generateServerAcceptKey := fun _ => ascii "AACmakFr0t4+th2a4BwJjb1dB5A="

/-- The response to its request. -/
def sampleResponse : Chunk :=
  ⟨ascii "HTTP/1.1 101 Switching Protocols\r\nConnection: Upgrade\r\n" ++
    ascii "Sec-WebSocket-Accept: AACmakFr0t4+th2a4BwJjb1dB5A=\r\nUpgrade: websocket\r\n\r\n",
    by decide +kernel⟩

lemma isHead_sampleResponse :
    ∃ header, IsHead sampleResponse.1 header ∧ sampleHelper.IsResponse header := by
  have hcomplete : Lib.search headEnd sampleResponse.1 = some (sampleResponse.1.length - 4) := by
    decide +kernel
  have hparse : (bufferToFrame sampleResponse.1).toOption.map (fun e =>
      ((e.1, e.2.keys.find contentLengthKey, e.2.content_length),
        e.2.header, e.2.keys.find (ascii "Sec-WebSocket-Accept"))) =
      some ((true, none, 0),
        [ascii "HTTP/1.1", ascii "101", ascii "Switching Protocols"],
        some (ascii "AACmakFr0t4+th2a4BwJjb1dB5A=")) := by decide +kernel
  obtain ⟨⟨ok, header⟩, hsome, hobs⟩ := Option.map_eq_some_iff.mp hparse
  simp only [Prod.mk.injEq] at hobs
  obtain ⟨⟨rfl, hcontent, hlen⟩, hfirst, haccept⟩ := hobs
  have hlength : sampleResponse.1.length ≤ maxFrameSize := sampleResponse.2.2.trans (by decide)
  exact ⟨header, ⟨hcomplete, toOption_eq_some.mp hsome, hcontent, hlength⟩, hlen.ge, ⟨_, hfirst⟩,
    haccept⟩

/-- A request is sent, and the response comes in one chunk. -/
lemma sample_connects : ∃ s s',
    sampleHelper.step HelperState.init (.activeSetup (ascii "/chat")) = .ok s ∧
    s.channel ≠ none ∧ s.watched.isNoneEvent = false ∧
    s.connectionStatus = .activeConnecting ∧
    sampleHelper.step s (.recv [.data sampleResponse]) = .ok s' ∧
    s'.connectionStatus = .connected ∧ s'.channel = none := by
  obtain ⟨header, hhead, hresp⟩ := isHead_sampleResponse
  obtain ⟨s, hs, -⟩ := activeSetup_ok (H := sampleHelper) (s := HelperState.init) rfl sound_init
    (by simp [HelperState.init]) (ascii "/chat")
  obtain ⟨name, hunmoved⟩ := activeSetup_unmoved rfl hs
  have hopen : s.channel ≠ none := by
    rw [ne_eq, hunmoved.channel]
    simp [HelperState.init]
  have hwatched : s.watched.isNoneEvent = false := by
    obtain ⟨-, hreading⟩ := activeSetup_reading rfl rfl hs
    refine decide_eq_false fun hnone => ?_
    rw [hnone] at hreading
    simp [Interest.noneEvent, HelperState.init] at hreading
  obtain ⟨e, he⟩ := Option.ne_none_iff_exists'.mp hopen
  obtain ⟨unread, readCache, hread⟩ := readLoop_single hhead (rfl : sampleResponse.1 = _)
  have hread' : readLoop [.data sampleResponse] s.header_cache s.readCache = .ok
      (.frame sampleResponse.1, unread, { header with process_finished := true }, readCache) := by
    rw [hunmoved.header_cache, hunmoved.readCache]
    exact hread
  exact ⟨s, _, hs, hopen, hwatched, hunmoved.connectionStatus,
    onRecv_response hread' he hunmoved.connectionStatus hhead.parsed hresp, rfl, rfl⟩

/-- **The order of the handshake.** In every run the status only moves forward, and a closed
connection stays closed; the descriptor is announced at most once, by the event with which the
status becomes `connected`, and as a passive connection exactly when the response had been
under way; on the active side a correct response comes first. -/
theorem handshake_order (H : ConnectionHelper) (events : List HelperEvent) (s : HelperState)
    (hrun : Lib.run H.next HelperState.init events = some s) :
    (notifications s.log).length ≤ 1 ∧
    ∀ e s', H.step s e = .ok s' →
      s.connectionStatus.Moves s'.connectionStatus ∧
      ∃ new, s'.log = s.log ++ new ∧ ∀ n ∈ notifications new,
        s.connectionStatus ≠ .connected ∧ s'.connectionStatus = .connected ∧
        ∃ before is_passive, new = before ++ [n] ∧
          n = .notifyNewWSConnection s'.websocketApiName H.fd is_passive ∧
          (is_passive = true ↔ s.connectionStatus = .passiveConnecting) ∧
          (is_passive = false → ∃ frame ok header, Effect.frame frame ∈ before ∧
            bufferToFrame frame = .ok (ok, header) ∧ H.IsResponse header) := by
  refine ⟨(ordered_of_run hrun).length_le, fun e s' hs' => ?_⟩
  cases outcome_of_step hs' with
  | keeps new hlog hquiet hmoves hst hchannel =>
    refine ⟨hmoves, new, hlog, ?_⟩
    rw [notifications_of_quiet hquiet]
    simp
  | handsOff new is_passive hlog hquiet hst hchannel _ hside =>
    have hnew : s'.log = s.log ++ (new ++ [Effect.stopTimer, Effect.disconnected,
        Effect.notifyNewWSConnection s'.websocketApiName H.fd is_passive]) := by
      rw [hlog, List.append_assoc]
    refine ⟨?_, _, hnew, ?_⟩
    · rcases hside with ⟨-, hfrom⟩ | ⟨-, hfrom, -⟩ <;> rw [hfrom, hst] <;>
        simp [WebsocketStatus.Moves, WebsocketStatus.next]
    · intro n hn
      rw [notifications_append, notifications_of_quiet hquiet, List.nil_append] at hn
      obtain rfl := List.mem_singleton.mp hn
      have hlast : new ++ [Effect.stopTimer, Effect.disconnected,
          Effect.notifyNewWSConnection s'.websocketApiName H.fd is_passive] =
          new ++ [Effect.stopTimer, Effect.disconnected] ++
            [Effect.notifyNewWSConnection s'.websocketApiName H.fd is_passive] := by
        rw [List.append_assoc]
        rfl
      refine ⟨?_, hst, _, is_passive, hlast, rfl, ?_⟩
      · rcases hside with ⟨-, hfrom⟩ | ⟨-, hfrom, -⟩ <;> simp [hfrom]
      · rcases hside with ⟨rfl, hfrom⟩ | ⟨rfl, hfrom, frame, ok, header, hmem, hframe⟩
        · simp [hfrom]
        · refine ⟨by simp [hfrom], fun _ => ⟨frame, ok, header, ?_, hframe⟩⟩
          exact List.mem_append_left _ hmem

/-- The active side of a handshake. -/
theorem handshake_order_active : ∃ s s', Lib.run sampleHelper.next HelperState.init
      [.activeSetup (ascii "/chat")] = some s ∧
    sampleHelper.step s (.recv [.data sampleResponse]) = .ok s' ∧
    s.connectionStatus.Moves s'.connectionStatus ∧ s'.connectionStatus = .connected ∧
    (notifications s.log).length ≤ 1 := by
  obtain ⟨s, s', hs, -, -, -, hstep, hst, -⟩ := sample_connects
  have hrun : Lib.run sampleHelper.next HelperState.init [.activeSetup (ascii "/chat")] = some s :=
    Lib.run_cons_eq_some.mpr ⟨s, next_eq_some.mpr hs, rfl⟩
  obtain ⟨honce, horder⟩ := handshake_order sampleHelper _ s hrun
  exact ⟨s, s', hrun, hstep, (horder _ s' hstep).1, hst, honce⟩

end ConnectionHelper

end SignalEventLoop.Network
