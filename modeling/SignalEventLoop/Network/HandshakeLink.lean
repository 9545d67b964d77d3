/-
# Two helpers

The two ends of a connection that becomes a websocket: a helper that calls `activeSetup`, and a
helper that waits for a request, with the keys of `SignalEventLoop.Network.HandshakeKeys`.  What
one end writes arrives at the other end in order, in chunks of any size, and the slots of the two
ends run in any order.  Nothing fails, and nobody else uses the two descriptors.

No end ever closes the connection; the passive end announces the api that the active end has asked
for; and the active end announces the connection only after the passive end did.
-/
import SignalEventLoop.Network.HandshakeEnds

namespace SignalEventLoop.Network

open SignalEventLoop.Core ProtocalHttp CacheState HelperState
open IcacheBuffer hiding maxCacheSize readFromBuf

/-! ## Both ends -/

/-- The two ends of a connection. -/
structure HandshakeLink where
  near : ConnectionHelper
  far : ConnectionHelper

/-- The helpers, and in each direction the bytes that `send` has taken and `recv` has not
returned. -/
structure HandshakeState where
  near : HelperState
  far : HelperState
  toFar : Text
  toNear : Text

/-- A call of `activeSetup`, or a slot of one of the ends: chunks come in, or `send` returns
these results. -/
inductive HandshakeOp where
  | activeSetup (api : Text)
  | nearRecv (chunks : List Chunk)
  | farRecv (chunks : List Chunk)
  | nearWrite (results : List (List SendResult))
  | farWrite (results : List (List SendResult))

namespace HandshakeLink

open ConnectionHelper (written)

variable (L : HandshakeLink)

/-- Both helpers are new. -/
def init : HandshakeState := ⟨.init, .init, [], []⟩

/-- A slot runs when the scheduler watches for its event, and it reads what has arrived. -/
def Enabled (s : HandshakeState) : HandshakeOp → Prop
  | .activeSetup _ => True
  | .nearRecv chunks => s.near.watched.reading = true ∧ flat chunks <+: s.toNear
  | .farRecv chunks => s.far.watched.reading = true ∧ flat chunks <+: s.toFar
  | .nearWrite _ => s.near.watched.writing = true
  | .farWrite _ => s.far.watched.writing = true

instance decidableEnabled (s : HandshakeState) : (op : HandshakeOp) → Decidable (Enabled s op)
  | .activeSetup _ => inferInstanceAs (Decidable True)
  | .nearRecv _ | .farRecv _ => inferInstanceAs (Decidable (_ ∧ _))
  | .nearWrite _ | .farWrite _ => inferInstanceAs (Decidable (_ = _))

/-- What is left of a stream when a helper has read. -/
def left (s : HelperState) (chunks : List Chunk) (stream : Text) : Text :=
  Upgrade.left stream (chunks.map .data) (Upgrade.unread s (chunks.map .data))

/-- The state after an operation that is possible and returns. -/
def step (s : HandshakeState) (op : HandshakeOp) : Option HandshakeState :=
  if Enabled s op then
    match op with
    | .activeSetup api =>
      (L.near.activeSetup api s.near).toOption.map fun near => { s with near := near }
    | .nearRecv chunks => (L.near.onRecv (chunks.map .data) s.near).toOption.map fun near =>
      { s with near := near, toNear := left s.near chunks s.toNear }
    | .farRecv chunks => (L.far.onRecv (chunks.map .data) s.far).toOption.map fun far =>
      { s with far := far, toFar := left s.far chunks s.toFar }
    | .nearWrite results => (L.near.onWrite results s.near).toOption.map fun near =>
      { s with near := near, toFar := s.toFar ++ written results s.near.writeCache }
    | .farWrite results => (L.far.onWrite results s.far).toOption.map fun far =>
      { s with far := far, toNear := s.toNear ++ written results s.far.writeCache }
  else none

/-- The name of an api is a word, and `send` does not fail. -/
def Regular : HandshakeOp → Prop
  | .activeSetup api => api = [] ∨ IsWord api
  | .nearRecv _ | .farRecv _ => True
  | .nearWrite results | .farWrite results => ∀ r ∈ results, ∀ x ∈ r, x.Goes

/-- The keys of the two ends are those of the code. -/
structure Keyed : Prop where
  host : IsValue L.near.hostPort
  sessionKey : ∃ buffer ptr, buffer.length = 64 ∧
    generateSessionKey buffer ptr = some L.near.sessionKey
  nearAccept : ∃ sha_ctx : Hash.Sha1.Ctx, sha_ctx.buffer.length = 64 ∧ ∀ key : Text,
    key.length < 2 ^ 63 →
      generateServerAcceptKey sha_ctx key = some (L.near.generateServerAcceptKey key)
  farAccept : ∃ sha_ctx : Hash.Sha1.Ctx, sha_ctx.buffer.length = 64 ∧ ∀ key : Text,
    key.length < 2 ^ 63 →
      generateServerAcceptKey sha_ctx key = some (L.far.generateServerAcceptKey key)

/-- The response that the near end waits for. -/
def response : Text := L.far.response L.near.sessionKey

/-- What the two ends and the streams between them hold. -/
inductive Phase (s : HandshakeState) : Prop where
  /-- Nothing has happened. -/
  | idle (near : s.near.Awaits .passive []) (far : s.far.Awaits .passive [])
      (nearCache : s.near.writeCache = .init) (farCache : s.far.writeCache = .init)
      (nearWatched : s.near.watched.writing = false) (farWatched : s.far.watched.writing = false)
      (toFar : s.toFar = []) (toNear : s.toNear = [])
  /-- The request is under way. -/
  | asking (part : Text) (near : s.near.Awaits .activeConnecting [])
      (far : s.far.Awaits .passive part) (farCache : s.far.writeCache = .init)
      (farWatched : s.far.watched.writing = false) (api : IsWord s.near.websocketApiName)
      (stream : part ++ (s.toFar ++ s.near.writeCache.frames.flatten) =
        L.near.request s.near.websocketApiName)
      (ne : part ≠ L.near.request s.near.websocketApiName) (toNear : s.toNear = [])
  /-- The response is under way. -/
  | answering (part : Text) (near : s.near.Awaits .activeConnecting part)
      (far : s.far.Open) (farStatus : s.far.connectionStatus = .passiveConnecting)
      (farReading : s.far.watched.reading = false)
      (api : s.far.websocketApiName = s.near.websocketApiName)
      (stream : part ++ (s.toNear ++ s.far.writeCache.frames.flatten) = L.response)
      (pending : s.far.writeCache.frameCacheMap ≠ [])
      (nearOut : s.near.writeCache.frames.flatten = []) (toFar : s.toFar = [])
  /-- The far end has announced the connection. -/
  | answered (part : Text) (near : s.near.Awaits .activeConnecting part)
      (far : L.far.HandedOff s.near.websocketApiName true s.far)
      (stream : part ++ s.toNear = L.response) (ne : part ≠ L.response)
      (nearOut : s.near.writeCache.frames.flatten = []) (toFar : s.toFar = [])
  /-- Both ends have announced the connection. -/
  | connected (near : L.near.HandedOff s.near.websocketApiName false s.near)
      (far : L.far.HandedOff s.near.websocketApiName true s.far)

variable {L} {s : HandshakeState} {op : HandshakeOp}

lemma phase_init : L.Phase init := by
  have hawaits : HelperState.init.Awaits .passive [] :=
    ⟨⟨rfl, sound_init, fun f hf => absurd hf List.not_mem_nil, fun h => absurd rfl h, rfl⟩, rfl,
      rfl, waiting_init, rfl⟩
  exact .idle hawaits hawaits rfl rfl rfl rfl rfl rfl

lemma Keyed.sessionKey_eq (h : L.Keyed) :
    IsValue L.near.sessionKey ∧ L.near.sessionKey.length = 24 := by
  obtain ⟨buffer, ptr, hbuf, hkey⟩ := h.sessionKey
  rw [generateSessionKey_eq hbuf, Option.some.injEq] at hkey
  have hmd5 : (Hash.Md5.md5 (Lib.decimal ptr.toNat)).length = 16 := Hash.Md5.length_md5With _ _
  rw [← hkey, Network.sessionKey, Tools.length_encodeGroups, hmd5]
  exact ⟨isValue_encodeGroups (by omega), rfl⟩

lemma Keyed.acceptKey_eq (h : L.Keyed) :
    L.near.generateServerAcceptKey L.near.sessionKey = acceptKey L.near.sessionKey ∧
      L.far.generateServerAcceptKey L.near.sessionKey = acceptKey L.near.sessionKey := by
  obtain ⟨-, hlen⟩ := h.sessionKey_eq
  obtain ⟨sha₁, hbuf₁, hnear⟩ := h.nearAccept
  obtain ⟨sha₂, hbuf₂, hfar⟩ := h.farAccept
  have hnear := hnear L.near.sessionKey (by omega)
  have hfar := hfar L.near.sessionKey (by omega)
  rw [generateServerAcceptKey_eq hbuf₁ (by omega), Option.some.injEq] at hnear
  rw [generateServerAcceptKey_eq hbuf₂ (by omega), Option.some.injEq] at hfar
  exact ⟨hnear.symm, hfar.symm⟩

/-- The response of the far end is read by the near end. -/
lemma Keyed.isHead_response (h : L.Keyed) :
    ∃ header, IsHead L.response header ∧ L.near.IsResponse header := by
  obtain ⟨hnear, hfar⟩ := h.acceptKey_eq
  have hsha1 := Hash.Sha1.length_sha1 (L.near.sessionKey ++ sha1_get_guid)
  have hlen : (acceptKey L.near.sessionKey).length = 28 := by
    rw [acceptKey, Tools.length_encodeGroups, hsha1]
  have hvalue : IsValue (L.far.generateServerAcceptKey L.near.sessionKey) :=
    hfar.symm ▸ isValue_encodeGroups (by omega)
  have hne : L.far.generateServerAcceptKey L.near.sessionKey ≠ [] :=
    List.ne_nil_of_length_pos (by rw [hfar]; omega)
  obtain ⟨header, hhead, hcontent, hfirst, haccept⟩ := ConnectionHelper.isHead_response hvalue hne
  exact ⟨header, hhead, hcontent, ⟨_, hfirst⟩, by rw [haccept, hfar, hnear]⟩

/-- The request of the near end is read by the far end. -/
lemma Keyed.isHead_request (h : L.Keyed) {api : Text} (hapi : IsWord api) :
    ∃ header, IsHead (L.near.request api) header ∧
      ConnectionHelper.IsRequest header api L.near.sessionKey := by
  obtain ⟨hvalue, hlen⟩ := h.sessionKey_eq
  exact ConnectionHelper.isHead_request h.host hvalue (List.ne_nil_of_length_pos (by omega)) hapi

lemma left_of_unread_nil {s : HelperState} {chunks : List Chunk} {stream : Text}
    (h : dataOf (Upgrade.unread s (chunks.map .data)) = []) :
    left s chunks stream = stream.drop (flat chunks).length := by
  rw [left, Upgrade.left, h, ConnectionHelper.dataOf_map, List.nil_append]

/-- An end reads a part of a head from its stream. -/
lemma reads_part {H : ConnectionHelper} {s : HelperState} {status : WebsocketStatus}
    {part head stream out : Text} {header : StreamHttpHeader} {chunks : List Chunk}
    (h : s.Awaits status part) (hhead : IsHead head header)
    (hstream : part ++ (stream ++ out) = head) (hnext : flat chunks <+: stream)
    (hne : part ++ flat chunks ≠ head) :
    ∃ s', H.onRecv (chunks.map .data) s = .ok s' ∧ s'.Awaits status (part ++ flat chunks) ∧
      s'.websocketApiName = s.websocketApiName ∧ s'.writeCache = s.writeCache ∧
      s'.watched = s.watched ∧ part ++ flat chunks ++ (left s chunks stream ++ out) = head := by
  obtain ⟨rest, rfl⟩ := hnext
  have hpart : part ++ flat chunks <+: head :=
    ⟨rest ++ out, by rw [← hstream]; simp only [List.append_assoc]⟩
  obtain ⟨s', hs', hawaits, hunread, hapi, hcache, hwatched⟩ :=
    ConnectionHelper.onRecv_part (H := H) h hhead hpart hne
  refine ⟨s', hs', hawaits, hapi, hcache, hwatched, ?_⟩
  rw [left_of_unread_nil (by rw [hunread]; rfl), List.drop_left, ← hstream]
  simp only [List.append_assoc]

/-- The chunks that complete a head are all of the stream. -/
lemma stream_complete {part stream out head chunks : Text}
    (hstream : part ++ (stream ++ out) = head) (hnext : chunks <+: stream)
    (hall : part ++ chunks = head) : stream = chunks ∧ out = [] := by
  obtain ⟨rest, rfl⟩ := hnext
  rw [← hstream, List.append_cancel_left_eq, List.append_assoc, List.self_eq_append_right,
    List.append_eq_nil_iff] at hall
  obtain ⟨rfl, rfl⟩ := hall
  exact ⟨List.append_nil _, rfl⟩

lemma flat_eq_nil {chunks : List Chunk} (h : flat chunks <+: []) : chunks = [] := by
  cases chunks with
  | nil => rfl
  | cons chunk chunks =>
    have hnil := List.prefix_nil.mp h
    rw [flat, List.map_cons, List.flatten_cons, List.append_eq_nil_iff] at hnil
    exact absurd hnil.1 chunk.2.1

/-- An end finds nothing to read. -/
lemma reads_nothing {H : ConnectionHelper} {s : HelperState} {status : WebsocketStatus}
    {part stream : Text} {chunks : List Chunk} (h : s.Awaits status part) (hstream : stream = [])
    (hnext : flat chunks <+: stream) :
    H.onRecv (chunks.map .data) s = .ok (s.emit .recv) ∧ (s.emit .recv).Awaits status part ∧
      left s chunks stream = [] := by
  subst hstream
  obtain rfl := flat_eq_nil hnext
  exact ⟨rfl, ⟨⟨h.channel, h.sound, h.filled, h.writing, notifications_append_eq_nil h.quiet rfl⟩,
    h.connectionStatus, h.header_cache, h.readCache, h.reading⟩, rfl⟩

lemma Phase.activeSetup (hL : L.Keyed) (h : L.Phase s) {api : Text} (hapi : api = [] ∨ IsWord api) :
    ∃ near, L.near.activeSetup api s.near = .ok near ∧ L.Phase { s with near := near } := by
  by_cases hst : s.near.connectionStatus = .passive
  · cases h with
    | idle hnear hfar hcache hfarCache _ hfarWatched htoFar htoNear =>
      have hword : IsWord (if api = [] then ascii "/" else api) := by
        split_ifs with hnil
        · decide
        · exact hapi.resolve_left hnil
      obtain ⟨header, hhead, -⟩ := hL.isHead_request hword
      obtain ⟨near, hs', hawaits, hname, hout⟩ :=
        ConnectionHelper.activeSetup_first hnear hcache hhead
      refine ⟨near, hs', .asking [] hawaits hfar hfarCache hfarWatched (hname ▸ hword) ?_ ?_
        htoNear⟩
      · rw [htoFar]
        exact hout
      · rw [hname]
        exact hhead.ne_nil.symm
    | asking _ hnear | answering _ hnear | answered _ hnear | connected hnear =>
      exact absurd (hnear.connectionStatus.symm.trans hst) (by decide)
  · -- the connection is set up once
    exact ⟨s.near, if_pos hst, h⟩

lemma Phase.nearRecv (hL : L.Keyed) (h : L.Phase s) {chunks : List Chunk}
    (hen : Enabled s (.nearRecv chunks)) :
    ∃ near, L.near.onRecv (chunks.map .data) s.near = .ok near ∧
      L.Phase { s with near := near, toNear := left s.near chunks s.toNear } := by
  obtain ⟨hreading, hnext⟩ := hen
  obtain ⟨header, hhead, hresp⟩ := hL.isHead_response
  cases h with
  | idle hnear hfar hcache hfarCache hwatched hfarWatched htoFar htoNear =>
    obtain ⟨hs', hawaits, hleft⟩ := reads_nothing (H := L.near) hnear htoNear hnext
    exact ⟨_, hs', .idle hawaits hfar hcache hfarCache hwatched hfarWatched htoFar hleft⟩
  | asking part hnear hfar hfarCache hfarWatched hapi hstream hne htoNear =>
    obtain ⟨hs', hawaits, hleft⟩ := reads_nothing (H := L.near) hnear htoNear hnext
    exact ⟨_, hs', .asking part hawaits hfar hfarCache hfarWatched hapi hstream hne hleft⟩
  | answering part hnear hfar hst hfarReading hapi hstream hsome hnearOut htoFar =>
    -- the last byte of the response is not sent yet
    have hne : part ++ flat chunks ≠ L.response := fun hall =>
      hsome (hfar.filled.eq_nil hfar.sound.inMem (stream_complete hstream hnext hall).2)
    obtain ⟨near, hs', hawaits, hname, hcache, -, hleft⟩ :=
      reads_part (H := L.near) hnear hhead hstream hnext hne
    exact ⟨near, hs', .answering _ hawaits hfar hst hfarReading (hapi.trans hname.symm) hleft hsome
      (hcache ▸ hnearOut) htoFar⟩
  | answered part hnear hfar hstream hne hnearOut htoFar =>
    by_cases hall : part ++ flat chunks = L.response
    · obtain ⟨near, hs', hdone, hname⟩ := ConnectionHelper.onRecv_accept hnear hhead hresp hne hall
      exact ⟨near, hs', .connected (hname.symm ▸ hdone) (hname.symm ▸ hfar)⟩
    · rw [← List.append_nil s.toNear] at hstream
      obtain ⟨near, hs', hawaits, hname, hcache, -, hleft⟩ :=
        reads_part (H := L.near) hnear hhead hstream hnext hall
      rw [List.append_nil] at hleft
      exact ⟨near, hs', .answered _ hawaits (hname.symm ▸ hfar) hleft hall (hcache ▸ hnearOut)
        htoFar⟩
  | connected hnear hfar =>
    rw [hnear.watched] at hreading
    exact absurd hreading (by decide)

lemma Phase.farRecv (hL : L.Keyed) (h : L.Phase s) {chunks : List Chunk}
    (hen : Enabled s (.farRecv chunks)) :
    ∃ far, L.far.onRecv (chunks.map .data) s.far = .ok far ∧
      L.Phase { s with far := far, toFar := left s.far chunks s.toFar } := by
  obtain ⟨hreading, hnext⟩ := hen
  obtain ⟨response, hresponse, -⟩ := hL.isHead_response
  cases h with
  | idle hnear hfar hcache hfarCache hwatched hfarWatched htoFar htoNear =>
    obtain ⟨hs', hawaits, hleft⟩ := reads_nothing (H := L.far) hfar htoFar hnext
    exact ⟨_, hs', .idle hnear hawaits hcache hfarCache hwatched hfarWatched hleft htoNear⟩
  | asking part hnear hfar hfarCache hfarWatched hapi hstream hne htoNear =>
    obtain ⟨header, hhead, hreq⟩ := hL.isHead_request hapi
    by_cases hall : part ++ flat chunks = L.near.request s.near.websocketApiName
    · obtain ⟨htoFar, hout⟩ := stream_complete hstream hnext hall
      obtain ⟨far, hs', hopen, hst, hname, hfarReading, hsome, hframes, hunread⟩ :=
        ConnectionHelper.onRecv_request hfar hfarCache hhead hreq hresponse hne hall
      refine ⟨far, hs', .answering [] hnear hopen hst hfarReading hname ?_ hsome hout ?_⟩
      · rw [htoNear]
        exact hframes
      · show left _ _ _ = _
        rw [left_of_unread_nil hunread, htoFar, List.drop_length]
    · obtain ⟨far, hs', hawaits, -, hcache, hwatched, hleft⟩ :=
        reads_part (H := L.far) hfar hhead hstream hnext hall
      exact ⟨far, hs', .asking _ hnear hawaits (hcache.trans hfarCache) (hwatched ▸ hfarWatched)
        hapi hleft hall htoNear⟩
  | answering part _ _ _ hfarReading =>
    exact absurd hreading (by rw [hfarReading]; decide)
  | answered part _ hfar =>
    rw [hfar.watched] at hreading
    exact absurd hreading (by decide)
  | connected _ hfar =>
    rw [hfar.watched] at hreading
    exact absurd hreading (by decide)

lemma Phase.nearWrite (h : L.Phase s) {results : List (List SendResult)}
    (hgo : ∀ r ∈ results, ∀ x ∈ r, x.Goes) (hen : Enabled s (.nearWrite results)) :
    ∃ near, L.near.onWrite results s.near = .ok near ∧ L.Phase { s with
      near := near
      toFar := s.toFar ++ written results s.near.writeCache } := by
  have hwriting : s.near.watched.writing = true := hen
  cases h with
  | idle _ _ _ _ hwatched => exact absurd hwriting (by rw [hwatched]; decide)
  | asking part hnear hfar hfarCache hfarWatched hapi hstream hne htoNear =>
    obtain ⟨near, hs', hawaits, hname, hout⟩ :=
      ConnectionHelper.onWrite_awaits (H := L.near) hnear (by decide) hwriting hgo
    refine ⟨near, hs', .asking part hawaits hfar hfarCache hfarWatched (hname.symm ▸ hapi) ?_
      (hname.symm ▸ hne) htoNear⟩
    rw [hname, ← hstream, List.append_assoc, hout]
  | answering part hnear hfar hst hfarReading hapi hstream hsome hnearOut htoFar =>
    obtain ⟨near, hs', hawaits, hname, hout⟩ :=
      ConnectionHelper.onWrite_awaits (H := L.near) hnear (by decide) hwriting hgo
    obtain ⟨hwritten, hout⟩ := List.append_eq_nil_iff.mp (hout.trans hnearOut)
    exact ⟨near, hs', .answering part hawaits hfar hst hfarReading (hapi.trans hname.symm) hstream
      hsome hout (List.append_eq_nil_iff.mpr ⟨htoFar, hwritten⟩)⟩
  | answered part hnear hfar hstream hne hnearOut htoFar =>
    obtain ⟨near, hs', hawaits, hname, hout⟩ :=
      ConnectionHelper.onWrite_awaits (H := L.near) hnear (by decide) hwriting hgo
    obtain ⟨hwritten, hout⟩ := List.append_eq_nil_iff.mp (hout.trans hnearOut)
    exact ⟨near, hs', .answered part hawaits (hname.symm ▸ hfar) hstream hne hout
      (List.append_eq_nil_iff.mpr ⟨htoFar, hwritten⟩)⟩
  | connected hnear =>
    rw [hnear.watched] at hwriting
    exact absurd hwriting (by decide)

lemma Phase.farWrite (h : L.Phase s) {results : List (List SendResult)}
    (hgo : ∀ r ∈ results, ∀ x ∈ r, x.Goes) (hen : Enabled s (.farWrite results)) :
    ∃ far, L.far.onWrite results s.far = .ok far ∧ L.Phase { s with
      far := far
      toNear := s.toNear ++ written results s.far.writeCache } := by
  have hwriting : s.far.watched.writing = true := hen
  cases h with
  | idle _ _ _ _ _ hwatched => exact absurd hwriting (by rw [hwatched]; decide)
  | asking _ _ _ _ hwatched => exact absurd hwriting (by rw [hwatched]; decide)
  | answering part hnear hfar hst hfarReading hapi hstream hsome hnearOut htoFar =>
    obtain ⟨c, hloop, hout, hwrite⟩ := ConnectionHelper.onWrite_open (H := L.far) hfar hwriting hgo
    by_cases hempty : c.frameCacheMap = []
    · -- the last byte of the response is sent
      have hframes : c.frames.flatten = [] := by simp [CacheState.frames, hempty]
      rw [hframes, List.append_nil] at hout
      have hne : part ≠ L.response := by
        rintro rfl
        have hnil := List.append_eq_nil_iff.mp (List.append_right_eq_self.mp hstream)
        exact hsome (hfar.filled.eq_nil hfar.sound.inMem hnil.2)
      refine ⟨_, ConnectionHelper.onWrite_response hloop hempty hfar.channel hst, .answered part
        hnear (ConnectionHelper.handedOff_connectedState hapi hfar.quiet) ?_ hne hnearOut htoFar⟩
      rw [hout]
      exact hstream
    · obtain ⟨far, hs', hopen, hunmoved, hreading, rfl⟩ := hwrite (Or.inr hempty)
      refine ⟨far, hs', .answering part hnear hopen (hunmoved.connectionStatus.trans hst)
        (hreading.trans hfarReading) (hunmoved.websocketApiName.trans hapi) ?_ hempty hnearOut
        htoFar⟩
      rw [List.append_assoc, hout]
      exact hstream
  | answered _ _ hfar =>
    rw [hfar.watched] at hwriting
    exact absurd hwriting (by decide)
  | connected _ hfar =>
    rw [hfar.watched] at hwriting
    exact absurd hwriting (by decide)

/-- **One operation.** An operation that is possible returns, and keeps the phases. -/
lemma Phase.step (hL : L.Keyed) (h : L.Phase s) (hregular : Regular op) (hen : Enabled s op) :
    ∃ s', L.step s op = some s' ∧ L.Phase s' := by
  rw [HandshakeLink.step.eq_def, if_pos hen]
  cases op with
  | activeSetup api =>
    obtain ⟨near, hs', h'⟩ := h.activeSetup hL hregular
    exact ⟨_, by dsimp only; rw [hs']; rfl, h'⟩
  | nearRecv chunks =>
    obtain ⟨near, hs', h'⟩ := h.nearRecv hL hen
    exact ⟨_, by dsimp only; rw [hs']; rfl, h'⟩
  | farRecv chunks =>
    obtain ⟨far, hs', h'⟩ := h.farRecv hL hen
    exact ⟨_, by dsimp only; rw [hs']; rfl, h'⟩
  | nearWrite results =>
    obtain ⟨near, hs', h'⟩ := h.nearWrite hregular hen
    exact ⟨_, by dsimp only; rw [hs']; rfl, h'⟩
  | farWrite results =>
    obtain ⟨far, hs', h'⟩ := h.farWrite hregular hen
    exact ⟨_, by dsimp only; rw [hs']; rfl, h'⟩

lemma enabled_of_step {s' : HandshakeState} (h : L.step s op = some s') : Enabled s op := by
  by_contra hen
  rw [HandshakeLink.step.eq_def, if_neg hen] at h
  exact absurd h (by simp)

/-! ## The result -/

lemma Phase.near_announces (h : L.Phase s) :
    L.near.Announces s.near.websocketApiName false s.near := by
  cases h with
  | idle near =>
    exact ConnectionHelper.announces_of_open near.toOpen near.connectionStatus (by decide)
      (by decide)
  | asking _ near | answering _ near | answered _ near =>
    exact ConnectionHelper.announces_of_open near.toOpen near.connectionStatus (by decide)
      (by decide)
  | connected near => exact near.announces

lemma Phase.far_announces (h : L.Phase s) :
    L.far.Announces s.near.websocketApiName true s.far := by
  cases h with
  | idle _ far | asking _ _ far =>
    exact ConnectionHelper.announces_of_open far.toOpen far.connectionStatus (by decide) (by decide)
  | answering _ _ far farStatus =>
    exact ConnectionHelper.announces_of_open far farStatus (by decide) (by decide)
  | answered _ _ far | connected _ far => exact far.announces

lemma Phase.far_connected (h : L.Phase s) (hnear : s.near.connectionStatus = .connected) :
    s.far.connectionStatus = .connected := by
  cases h with
  | idle near | asking _ near | answering _ near =>
    exact absurd (near.connectionStatus.symm.trans hnear) (by decide)
  | answered _ _ far | connected _ far => exact far.connectionStatus

/-- The handshake does not hang: what is under way is the business of a slot that runs. -/
lemma Phase.connected_or_busy (h : L.Phase s) (hset : s.near.connectionStatus ≠ .passive) :
    s.near.connectionStatus = .connected ∧ s.far.connectionStatus = .connected ∨
      s.near.Busy s.toNear ∨ s.far.Busy s.toFar := by
  cases h with
  | idle near => exact absurd near.connectionStatus hset
  | asking _ near far _ _ _ stream ne =>
    refine Or.inr ?_
    by_cases htoFar : s.toFar = []
    · -- a part of the request is not sent yet
      have hnear : s.near.writeCache.frameCacheMap ≠ [] := by
        intro hnil
        have hout : s.near.writeCache.frames.flatten = [] := by simp [CacheState.frames, hnil]
        rw [htoFar, hout, List.append_nil, List.append_nil] at stream
        exact ne stream
      exact Or.inl (Or.inr ⟨near.writing hnear, hnear⟩)
    · exact Or.inr (Or.inl ⟨far.reading, htoFar⟩)
  | answering _ _ far _ _ _ _ pending =>
    exact Or.inr (Or.inr (Or.inr ⟨far.writing pending, pending⟩))
  | answered _ near _ stream ne =>
    refine Or.inr (Or.inl (Or.inl ⟨near.reading, fun htoNear => ne ?_⟩))
    rwa [htoNear, List.append_nil] at stream
  | connected near far => exact Or.inl ⟨near.connectionStatus, far.connectionStatus⟩

/-- **Both ends agree.**  In every run in which nothing fails, no end closes the connection; each
end announces its descriptor exactly when it is connected, once, with the api that the near end
has asked for; the near end is connected only after the far end is; every operation that is
possible returns; and once the connection is set up, both ends are connected or a slot that the
scheduler runs has something to read or to send. -/
theorem handshake_agrees (L : HandshakeLink) (hL : L.Keyed) (ops : List HandshakeOp)
    (hops : ∀ op ∈ ops, Regular op) (s : HandshakeState) (hrun : Lib.run L.step init ops = some s) :
    L.near.Announces s.near.websocketApiName false s.near ∧
    L.far.Announces s.near.websocketApiName true s.far ∧
    (s.near.connectionStatus = .connected → s.far.connectionStatus = .connected) ∧
    (∀ op, Regular op → Enabled s op → ∃ s', L.step s op = some s') ∧
    (s.near.connectionStatus ≠ .passive →
      s.near.connectionStatus = .connected ∧ s.far.connectionStatus = .connected ∨
        s.near.Busy s.toNear ∨ s.far.Busy s.toFar) := by
  have hphase : L.Phase s := by
    have hall : Lib.AllSteps L.step (fun _ op => Regular op) init ops :=
      Lib.allSteps_of_forall init hops
    refine Lib.run_inv_of_allSteps ?_ phase_init hall hrun
    intro s op s' h hop hs'
    obtain ⟨s₁, hs₁, h₁⟩ := h.step hL hop (enabled_of_step hs')
    rwa [Option.some.inj (hs'.symm.trans hs₁)]
  refine ⟨hphase.near_announces, hphase.far_announces, hphase.far_connected,
    fun op hop hen => ?_, hphase.connected_or_busy⟩
  obtain ⟨s', hs', -⟩ := hphase.step hL hop hen
  exact ⟨s', hs'⟩

/-- A link with the keys of the code. -/
def sample : HandshakeLink where
  near := ⟨7, ascii "127.0.0.1", 9000, sessionKey 12345, acceptKey⟩
  far := ⟨8, ascii "127.0.0.1", 41234, sessionKey 54321, acceptKey⟩

lemma keyed_sample : sample.Keyed where
  host := show IsValue (ascii "127.0.0.1" ++ ascii ":" ++ numeral 9000) by decide
  sessionKey := ⟨List.replicate 64 9, 12345, rfl, generateSessionKey_eq rfl 12345⟩
  nearAccept := ⟨Hash.Sha1.used, rfl, fun _ h => generateServerAcceptKey_eq rfl h⟩
  farAccept := ⟨Hash.Sha1.used, rfl, fun _ h => generateServerAcceptKey_eq rfl h⟩

/-- The request is prepared, and the far end looks for it too early. -/
theorem handshake_agrees_asking : ∃ s, Lib.run sample.step init
      [.activeSetup (ascii "/chat"), .farRecv []] = some s ∧
    sample.near.Announces s.near.websocketApiName false s.near ∧
    sample.far.Announces s.near.websocketApiName true s.far ∧
    (s.near.connectionStatus = .connected → s.far.connectionStatus = .connected) := by
  have hops : ∀ op ∈ [HandshakeOp.activeSetup (ascii "/chat"), .farRecv []], Regular op := by
    rw [List.forall_mem_cons, List.forall_mem_singleton]
    exact ⟨Or.inr (by decide), trivial⟩
  obtain ⟨near, hsetup, hphase⟩ := phase_init.activeSetup keyed_sample
    (Or.inr (show IsWord (ascii "/chat") by decide))
  have hs₁ : sample.step init (.activeSetup (ascii "/chat")) = some { init with near := near } := by
    rw [HandshakeLink.step.eq_def, if_pos (show Enabled init (.activeSetup _) from trivial)]
    dsimp only
    rw [hsetup]
    rfl
  obtain ⟨s, hs, -⟩ := hphase.step keyed_sample (show Regular (.farRecv []) from trivial)
    ⟨rfl, List.nil_prefix⟩
  have hrun : Lib.run sample.step init [.activeSetup (ascii "/chat"), .farRecv []] = some s :=
    Lib.run_cons_eq_some.mpr ⟨_, hs₁, Lib.run_cons_eq_some.mpr ⟨s, hs, rfl⟩⟩
  obtain ⟨hnear, hfar, hfirst, -⟩ := handshake_agrees sample keyed_sample _ hops s hrun
  exact ⟨s, hrun, hnear, hfar, hfirst⟩

end HandshakeLink

end SignalEventLoop.Network
