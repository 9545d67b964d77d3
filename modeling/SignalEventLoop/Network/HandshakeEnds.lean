/-
# The ends of a handshake

The request and the response of a websocket handshake are heads that the other end reads; a write
cache puts them on the stream whatever part of them `send` takes; and a helper that has read a
part of a head goes on with the rest.  A helper is waiting for a head, is open with a response to
send, or has handed its descriptor off.
-/
import SignalEventLoop.Network.HandshakeKeys
import SignalEventLoop.Network.UpgradeHandoff

namespace SignalEventLoop.Network

open SignalEventLoop.Core ProtocalHttp CacheState HelperState
open IcacheBuffer hiding maxCacheSize readFromBuf
open ConnectionHelper (ReadEnd readLoop writeLoop)

/-! ## The heads -/

namespace ProtocalHttp

variable {a b c : Text} {keys_map : KeysMap}

lemma length_headData (ha : a ≠ []) (keys : KeysMap) :
    (headData [a, b, c] keys).length =
      a.length + b.length + c.length + 6 + (keys.map fun e => e.1.length + e.2.length + 4).sum := by
  have hwords : joinWords [a, b, c] = startText a b c := by
    simp [joinWords, startText, ha]
  have hspace : (ascii " ").length = 1 := rfl
  have hcolon : (ascii ": ").length = 2 := rfl
  have hfields : ((keys.map fun e => fieldLine e ++ lineEnd).flatten).length =
      (keys.map fun e => e.1.length + e.2.length + 4).sum := by
    rw [List.length_flatten, List.map_map]
    refine congrArg List.sum (List.map_congr_left fun e _ => ?_)
    simp only [Function.comp_apply, fieldLine, List.length_append, hcolon, lineEnd,
      List.length_cons, List.length_nil]
    omega
  rw [headData, hwords, List.length_append, List.length_append, List.length_append, hfields,
    startText]
  simp only [List.length_append, hspace, lineEnd, List.length_cons, List.length_nil]
  omega

/-- A packed frame without content is a head. -/
lemma isHead_packedText (ha : IsWord a) (hb : IsWord b) (hc : IsValue c) (hne : c ≠ [])
    (hmap : keys_map.IsMap) (hentry : ∀ e ∈ keys_map, IsEntry e)
    (hadapt : adaptKeys keys_map noBytes = keys_map) (hkeys : keys_map ≠ [])
    (hmin : minProtocalSize ≤ a.length + b.length + c.length + 6 +
      (keys_map.map fun e => e.1.length + e.2.length + 4).sum)
    (hmax : a.length + b.length + c.length + 6 +
      (keys_map.map fun e => e.1.length + e.2.length + 4).sum ≤ maxFrameSize) :
    IsHead (packedText a b c keys_map noBytes) (packedHeader a b c keys_map noBytes) := by
  have htext : packedText a b c keys_map noBytes = headData [a, b, c] keys_map := by
    rw [packedText, hadapt]
    exact List.append_nil _
  have hlen := length_headData (b := b) (c := c) ha.ne_nil keys_map
  rw [← hlen, ← htext] at hmin hmax
  have hfield : ∀ l ∈ keys_map.map fieldLine, IsLine l := by
    intro l hl
    obtain ⟨e, he, rfl⟩ := List.mem_map.mp hl
    exact (hentry e he).isField.isLine
  have hadapted : adaptKeys keys_map noBytes ≠ [] := by rwa [hadapt]
  have hdec := decodeFrameHeader_packedText ha hb hc hne hmap (fun e he _ => hentry e he)
    hadapted [] (by rw [hadapt, ← htext])
  rw [List.append_nil] at hdec
  refine ⟨?_, ?_, KeysMap.find_erase contentLengthKey keys_map, hmax⟩
  · have hsearch := search_headText (startLine_startText ha hb hc hne).isLine hfield []
    rwa [List.append_nil, ← headData_eq ha.ne_nil, ← htext] at hsearch
  · have hoffset : (packedHeader a b c keys_map noBytes).header_offset =
        (packedText a b c keys_map noBytes).length := by rw [htext, packedHeader, hadapt]
    have hcontent : (packedHeader a b c keys_map noBytes).content_length = 0 := rfl
    have hsum : add64 (packedHeader a b c keys_map noBytes).header_offset
        (packedHeader a b c keys_map noBytes).content_length =
          .ok (packedText a b c keys_map noBytes).length := by
      simp only [maxFrameSize] at hmax
      rw [hoffset, hcontent, add64, add_zero, if_pos (by omega)]
    rw [bufferToFrame, if_neg (by omega)]
    refine bind_eq_ok.mpr ⟨_, hdec, ?_⟩
    rw [if_neg (by simp [packedHeader]), if_neg (by rw [hcontent]; decide)]
    refine bind_eq_ok.mpr ⟨_, hsum, ?_⟩
    rw [decide_eq_true le_rfl]

end ProtocalHttp

lemma KeysMap.isMap_empty : KeysMap.empty.IsMap := List.Pairwise.nil

namespace ConnectionHelper

variable (H : ConnectionHelper) {api key : Text}

/-- The value of the field `Host`. -/
def hostPort : Text := H.peerHostName ++ ascii ":" ++ numeral H.peerPort.toNat

/-- The upgrade request for an api. -/
def request (api : Text) : Text :=
  packedText (ascii "GET") api (ascii "HTTP/1.1") H.requestKeys noBytes

/-- The response to a key. -/
def response (key : Text) : Text :=
  packedText (ascii "HTTP/1.1") (ascii "101") (ascii "Switching Protocols") (H.responseKeys key)
    noBytes

lemma requestKeys_eq : H.requestKeys = [(ascii "Connection", ascii "Upgrade"),
    (ascii "Host", H.hostPort), (ascii "Sec-WebSocket-Key", H.sessionKey),
    (ascii "Sec-WebSocket-Version", ascii "13"), (ascii "Upgrade", ascii "websocket")] := rfl

lemma responseKeys_eq (key : Text) : H.responseKeys key = [(ascii "Connection", ascii "Upgrade"),
    (ascii "Sec-WebSocket-Accept", H.generateServerAcceptKey key),
    (ascii "Upgrade", ascii "websocket")] := rfl

variable {H}

/-- A request is read as a request. -/
lemma isHead_request (hhost : IsValue H.hostPort) (hkey : IsValue H.sessionKey)
    (hne : H.sessionKey ≠ []) (hapi : IsWord api) :
    ∃ header, IsHead (H.request api) header ∧ IsRequest header api H.sessionKey := by
  have hentry : ∀ e ∈ H.requestKeys, IsEntry e := by
    rw [requestKeys_eq]
    simp only [List.forall_mem_cons, List.not_mem_nil, IsEmpty.forall_iff, implies_true, and_true]
    exact ⟨⟨by decide, by decide, by decide⟩,
      ⟨show IsName (ascii "Host") by decide, hhost, by simp [hostPort, ascii]⟩,
      ⟨show IsName (ascii "Sec-WebSocket-Key") by decide, hkey, hne⟩,
      ⟨by decide, by decide, by decide⟩, ⟨by decide, by decide, by decide⟩⟩
  have hmap : H.requestKeys.IsMap := KeysMap.isMap_empty.set.set.set.set.set
  have hhostLen := hhost.length_lt
  have hkeyLen := hkey.length_lt
  have hapiLen := hapi.length_lt
  refine ⟨_, isHead_packedText (by decide) hapi (by decide) (by decide) hmap hentry rfl
    (List.cons_ne_nil _ _) ?_ ?_, Int.natCast_nonneg _, rfl, rfl⟩
  · simp [requestKeys_eq, ascii, minProtocalSize]
    omega
  · simp [requestKeys_eq, ascii, maxFrameSize]
    omega

/-- A response is read as it was made. -/
lemma isHead_response (haccept : IsValue (H.generateServerAcceptKey key))
    (hne : H.generateServerAcceptKey key ≠ []) :
    ∃ header, IsHead (H.response key) header ∧ 0 ≤ header.content_length ∧
      header.header = [ascii "HTTP/1.1", ascii "101", ascii "Switching Protocols"] ∧
      header.keys.find (ascii "Sec-WebSocket-Accept") = some (H.generateServerAcceptKey key) := by
  have hentry : ∀ e ∈ H.responseKeys key, IsEntry e := by
    rw [responseKeys_eq]
    simp only [List.forall_mem_cons, List.not_mem_nil, IsEmpty.forall_iff, implies_true, and_true]
    exact ⟨⟨by decide, by decide, by decide⟩,
      ⟨show IsName (ascii "Sec-WebSocket-Accept") by decide, haccept, hne⟩,
      ⟨by decide, by decide, by decide⟩⟩
  have hmap : (H.responseKeys key).IsMap := KeysMap.isMap_empty.set.set.set
  have hlen := haccept.length_lt
  refine ⟨_, isHead_packedText (by decide) (by decide) (by decide) (by decide) hmap hentry rfl
    (List.cons_ne_nil _ _) ?_ ?_, Int.natCast_nonneg _, rfl, rfl⟩
  · simp [responseKeys_eq, ascii, minProtocalSize]
    omega
  · simp [responseKeys_eq, ascii, maxFrameSize]
    omega

end ConnectionHelper

/-! ## Writing -/

/-- `send` takes something, or it has to wait. -/
def IcacheBuffer.SendResult.Goes : SendResult → Prop
  | .sent n => n ≠ 0
  | .again => True
  | .error => False

/-- No frame is empty. -/
def CacheState.Filled (s : CacheState) : Prop := ∀ f ∈ s.frameCacheMap, f.2 ≠ 0

lemma CacheState.Filled.eq_nil {s : CacheState} (h : s.Filled) (hmem : s.InMem)
    (hnil : s.frames.flatten = []) : s.frameCacheMap = [] := by
  cases hmap : s.frameCacheMap with
  | nil => rfl
  | cons f fs =>
    have hf : f ∈ s.frameCacheMap := hmap ▸ List.mem_cons_self
    have hlen := congrArg List.length hnil
    have hle := hmem.frames_le f hf
    have hdecode := hmem.decode_le
    have hwrite := hmem.write_le
    have hpos := h f hf
    rw [CacheState.frames, hmap, List.map_cons, List.flatten_cons, List.length_append,
      Lib.length_slice (by omega), List.length_nil] at hlen
    omega

/-- While `send` does not fail, the loop does not close the connection. -/
lemma sendLoopStream_goes {buf out out' : List UInt8} {frame frame' : ℕ × ℕ} {e : SendEnd}
    (results : List SendResult) (hgo : ∀ r ∈ results, r.Goes)
    (h : sendLoopStream buf frame out results = some (e, frame', out')) : e = .done := by
  induction results generalizing frame out with
  | nil =>
    rw [sendLoopStream.eq_def] at h
    dsimp only at h
    split_ifs at h <;> exact (congrArg Prod.fst (Option.some.inj h)).symm
  | cons r results ih =>
    obtain ⟨hr, hrest⟩ := List.forall_mem_cons.mp hgo
    rw [sendLoopStream.eq_def] at h
    dsimp only at h
    split_ifs at h with hzero
    · exact (congrArg Prod.fst (Option.some.inj h)).symm
    · cases r with
      | again => exact (congrArg Prod.fst (Option.some.inj h)).symm
      | error => exact absurd hr id
      | sent n =>
        have hn : n ≠ 0 := hr
        obtain ⟨bytes, -, h⟩ := Option.bind_eq_some_iff.mp h
        rw [if_neg (by omega)] at h
        exact ih hrest h

lemma sendCacheByFd_goes {s s' : CacheState} {results : List SendResult} {ret : ℤ}
    {out : List UInt8} (hgo : ∀ r ∈ results, r.Goes) (hfilled : s.Filled)
    (h : httpCache.sendCacheByFd s results = some (ret, out, s')) : ret ≠ 0 ∧ s'.Filled := by
  cases hmap : s.frameCacheMap with
  | nil =>
    rw [sendCacheByFd, hmap] at h
    obtain ⟨rfl, -, rfl⟩ : (-1 : ℤ) = ret ∧ [] = out ∧ s = s' := by simpa using h
    exact ⟨by decide, hfilled⟩
  | cons front rest =>
    rw [sendCacheByFd, hmap] at h
    dsimp only at h
    rw [if_pos (show httpCache.isStream = true from rfl)] at h
    obtain ⟨⟨e, frame, sent⟩, hloop, h⟩ := Option.map_eq_some_iff.mp h
    obtain rfl := sendLoopStream_goes results hgo hloop
    dsimp only at h
    rw [if_pos (show httpCache.isStream = true from rfl)] at h
    obtain ⟨hret, -, rfl⟩ := by simpa only [Prod.mk.injEq] using h
    obtain ⟨-, hrest⟩ := List.forall_mem_cons.mp (hmap ▸ hfilled : ∀ f ∈ front :: rest, f.2 ≠ 0)
    refine ⟨?_, ?_⟩
    · rw [← hret]
      split_ifs <;> omega
    · show ∀ f ∈ (if frame.2 = 0 then rest else frame :: rest), f.2 ≠ 0
      split_ifs with hzero
      · exact hrest
      · exact List.forall_mem_cons.mpr ⟨hzero, hrest⟩

namespace ConnectionHelper

/-- The bytes that `send` takes in the loop of `on_write`. -/
def written : List (List SendResult) → CacheState → Text
  | [], _ => []
  | r :: results, s =>
    match httpCache.sendCacheByFd s r with
    | some (ret, out, s) => out ++ if ret ≤ 0 then [] else written results s
    | none => []

/-- The loop of `on_write` puts bytes of the frames on the stream. -/
lemma writeLoop_goes {s : CacheState} (results : List (List SendResult))
    (hgo : ∀ r ∈ results, ∀ x ∈ r, x.Goes) (h : httpCache.Sound s) (hfilled : s.Filled) :
    ∃ s', writeLoop results s = .ok (false, s') ∧ httpCache.Sound s' ∧ s'.Filled ∧
      written results s ++ s'.frames.flatten = s.frames.flatten := by
  induction results generalizing s with
  | nil =>
    refine ⟨s, ?_, h, hfilled, rfl⟩
    rw [writeLoop.eq_def]
    dsimp only
    split_ifs <;> rfl
  | cons r results ih =>
    obtain ⟨hr, hgo⟩ := List.forall_mem_cons.mp hgo
    obtain ⟨ret, out, s₁, hsend, hmem, hsame, hout⟩ :=
      sendCacheByFd_spec (B := httpCache) h.inMem r
    have h₁ : httpCache.Sound s₁ := by
      rw [hsame] at hmem ⊢
      exact h.of_sameBlock hmem rfl rfl rfl
    have hout := hout rfl
    obtain ⟨hret, hfilled₁⟩ := sendCacheByFd_goes hr hfilled hsend
    rw [writeLoop.eq_def, written]
    dsimp only
    rw [hsend]
    dsimp only
    by_cases hnil : s.frameCacheMap = []
    · rw [if_pos hnil]
      refine ⟨s, rfl, h, hfilled, ?_⟩
      have hempty : httpCache.sendCacheByFd s r = some (-1, [], s) := by simp [sendCacheByFd, hnil]
      obtain ⟨rfl, he⟩ := Prod.mk.inj (Option.some.inj (hsend.symm.trans hempty))
      obtain ⟨rfl, -⟩ := Prod.mk.inj he
      simp
    · rw [if_neg hnil]
      by_cases hneg : ret < 0
      · rw [if_pos hneg, if_pos (le_of_lt hneg), List.append_nil]
        exact ⟨s₁, rfl, h₁, hfilled₁, hout⟩
      · rw [if_neg hneg, if_neg hret, if_neg (by omega)]
        obtain ⟨s', hloop, h', hfilled', hrest⟩ := ih hgo h₁ hfilled₁
        exact ⟨s', hloop, h', hfilled', by rw [List.append_assoc, hrest, hout]⟩

end ConnectionHelper

/-- The first frame that a cache gets. -/
lemma appendFrame_init {buffer : Bytes} (hne : buffer.1 ≠ [])
    (hlen : buffer.1.length ≤ maxFrameSize) :
    ∃ ret s, httpCache.appendFrame .init buffer = some (ret, s) ∧ httpCache.Sound s ∧ s.Filled ∧
      s.frameCacheMap.length = 1 ∧ s.frames.flatten = buffer.1 := by
  have hfit : httpCache.AppendFits .init buffer.1.length :=
    appendFits_of_maxCacheSize_le sound_init le_rfl (by decide) (lt_of_le_of_lt hlen (by decide))
  obtain ⟨ret, s, happ, hsound⟩ := appendFrame_sound sound_init hfit
  obtain ⟨hret, -⟩ | ⟨-, -, -, hframes⟩ := appendFrame_cases inMem_init happ
  · -- nothing is refused
    obtain ⟨⟨ok, s₁⟩, hcache, he⟩ := Option.map_eq_some_iff.mp happ
    obtain rfl := appendCache_true inMem_init hcache hne ((zero_add _).trans_le hlen)
    have hlength : (buffer.1.length : ℤ) = ret := (Prod.mk.inj he).1
    omega
  · have hone : s.frames = [buffer.1] := hframes
    obtain ⟨f, hf⟩ := List.length_eq_one_iff.mp (show s.frameCacheMap.length = 1 by
      rw [← List.length_map, ← CacheState.frames, hone, List.length_singleton])
    refine ⟨ret, s, happ, hsound, ?_, by rw [hf]; rfl, by rw [hone]; simp⟩
    rw [CacheState.frames, hf] at hone
    rw [CacheState.Filled, hf, List.forall_mem_singleton]
    intro hzero
    have hslice : Lib.slice s.cacheBuf f.1 f.2 = buffer.1 := (List.cons.inj hone).1
    exact hne (by rw [← hslice, hzero, Lib.slice_zero_len])

/-! ## One end -/

/-- The channel of a helper is there and in sync, it is watched for writing while frames wait, and
nothing is announced. -/
structure HelperState.Open (s : HelperState) : Prop where
  channel : s.channel = some s.watched
  sound : httpCache.Sound s.writeCache
  filled : s.writeCache.Filled
  writing : s.writeCache.frameCacheMap ≠ [] → s.watched.writing = true
  quiet : notifications s.log = []

lemma notifications_append_eq_nil {l l' : List Effect} (h : notifications l = [])
    (h' : notifications l' = []) : notifications (l ++ l') = [] := by
  rw [notifications_append, h, h', List.append_nil]

/-- A helper waits for a head, of which it has a part. -/
structure HelperState.Awaits (status : WebsocketStatus) (part : Text) (s : HelperState) : Prop
    extends HelperState.Open s where
  connectionStatus : s.connectionStatus = status
  header_cache : s.header_cache = .init
  readCache : Waiting part s.readCache
  reading : s.watched.reading = true

/-- A slot that the scheduler runs has something to read from the stream, or to send. -/
def HelperState.Busy (s : HelperState) (stream : Text) : Prop :=
  s.watched.reading = true ∧ stream ≠ [] ∨
    s.watched.writing = true ∧ s.writeCache.frameCacheMap ≠ []

/-- A helper has announced its descriptor, and is not called any more. -/
structure ConnectionHelper.HandedOff (H : ConnectionHelper) (api : Text) (is_passive : Bool)
    (s : HelperState) : Prop where
  connectionStatus : s.connectionStatus = .connected
  watched : s.watched = .noneEvent
  announced : notifications s.log = [.notifyNewWSConnection api H.fd is_passive]

/-- A helper is not closed, and it has announced its descriptor, once, if it is connected. -/
def ConnectionHelper.Announces (H : ConnectionHelper) (api : Text) (is_passive : Bool)
    (s : HelperState) : Prop :=
  s.connectionStatus ≠ .closed ∧ notifications s.log =
    if s.connectionStatus = .connected then [.notifyNewWSConnection api H.fd is_passive] else []

namespace ConnectionHelper

variable {H : ConnectionHelper} {s : HelperState} {status : WebsocketStatus}
  {part head api key : Text} {header : StreamHttpHeader} {chunks : List Chunk}
  {results : List (List SendResult)} {is_passive : Bool}

lemma announces_of_open (h : s.Open) (hst : s.connectionStatus = status)
    (hclosed : status ≠ .closed) (hconnected : status ≠ .connected) :
    H.Announces api is_passive s := by
  rw [Announces, hst, if_neg hconnected]
  exact ⟨hclosed, h.quiet⟩

lemma HandedOff.announces (h : H.HandedOff api is_passive s) : H.Announces api is_passive s := by
  rw [Announces, h.connectionStatus, if_pos rfl]
  exact ⟨by decide, h.announced⟩

lemma handedOff_connectedState (hapi : s.websocketApiName = api)
    (hquiet : notifications s.log = []) :
    H.HandedOff api is_passive (H.connectedState is_passive s) := by
  refine ⟨rfl, rfl, ?_⟩
  show notifications (s.log ++ _) = _
  rw [notifications_append, hquiet, hapi]
  rfl

/-- The loop of `on_write` runs, and the last byte is not that of a response. -/
lemma onWrite_open (h : s.Open) (hwriting : s.watched.writing = true)
    (hgo : ∀ r ∈ results, ∀ x ∈ r, x.Goes) :
    ∃ writeCache, writeLoop results s.writeCache = .ok (false, writeCache) ∧
      written results s.writeCache ++ writeCache.frames.flatten = s.writeCache.frames.flatten ∧
      (s.connectionStatus ≠ .passiveConnecting ∨ writeCache.frameCacheMap ≠ [] →
        ∃ s', H.onWrite results s = .ok s' ∧ s'.Open ∧ Unmoved s s' ∧
          s'.watched.reading = s.watched.reading ∧ s'.writeCache = writeCache) := by
  obtain ⟨c, hloop, hsound, hfilled, hout⟩ := writeLoop_goes results hgo h.sound h.filled
  refine ⟨c, hloop, hout, fun hlast => ?_⟩
  by_cases hempty : c.frameCacheMap = []
  · have hst := hlast.resolve_right (not_not.mpr hempty)
    refine ⟨{ s with
      writeCache := c
      channel := some (Toggle.disableWriting.apply s.watched)
      watched := Toggle.disableWriting.apply s.watched }, ?_,
      ⟨rfl, hsound, hfilled, fun hne => absurd hempty hne, h.quiet⟩,
      ⟨rfl, rfl, rfl, rfl, by simp [h.channel], rfl⟩, rfl, rfl⟩
    refine bind_eq_ok.mpr ⟨(false, c), mapError_eq_ok.mpr hloop, ?_⟩
    dsimp only
    rw [if_neg (by simp), if_pos hempty]
    refine bind_eq_ok.mpr ⟨_, syncChannel_eq_ok.mpr ⟨_, h.channel, rfl⟩, ?_⟩
    rw [if_neg hst]
  · refine ⟨{ s with writeCache := c }, ?_,
      ⟨h.channel, hsound, hfilled, fun _ => hwriting, h.quiet⟩,
      ⟨rfl, rfl, rfl, rfl, Iff.rfl, rfl⟩, rfl, rfl⟩
    refine bind_eq_ok.mpr ⟨(false, c), mapError_eq_ok.mpr hloop, ?_⟩
    dsimp only
    rw [if_neg (by simp), if_neg hempty]

/-- A helper that waits for a head writes. -/
lemma onWrite_awaits (h : s.Awaits status part) (hst : status ≠ .passiveConnecting)
    (hwriting : s.watched.writing = true)
    (hgo : ∀ r ∈ results, ∀ x ∈ r, x.Goes) :
    ∃ s', H.onWrite results s = .ok s' ∧ s'.Awaits status part ∧
      s'.websocketApiName = s.websocketApiName ∧
      written results s.writeCache ++ s'.writeCache.frames.flatten =
        s.writeCache.frames.flatten := by
  obtain ⟨c, -, hout, hwrite⟩ := onWrite_open (H := H) h.toOpen hwriting hgo
  obtain ⟨s', hs', hopen, hunmoved, hreading, rfl⟩ :=
    hwrite (Or.inl (by rw [h.connectionStatus]; exact hst))
  exact ⟨s', hs', ⟨hopen, hunmoved.connectionStatus.trans h.connectionStatus,
    hunmoved.header_cache.trans h.header_cache, hunmoved.readCache ▸ h.readCache,
    hreading.trans h.reading⟩, hunmoved.websocketApiName, hout⟩

/-- Chunks that do not complete the head. -/
lemma readLoop_part (hhead : IsHead head header) (chunks : List Chunk) {c : CacheState}
    (h : Waiting part c) (hpart : part ++ flat chunks <+: head) (hne : part ++ flat chunks ≠ head) :
    ∃ c', readLoop (chunks.map .data) .init c = .ok (.again, [], .init, c') ∧
      Waiting (part ++ flat chunks) c' := by
  induction chunks generalizing part c with
  | nil => exact ⟨c, rfl, by rwa [flat, List.map_nil, List.flatten_nil, List.append_nil]⟩
  | cons chunk chunks ih =>
    have hflat : part ++ flat (chunk :: chunks) = part ++ chunk.1 ++ flat chunks := by
      simp [flat]
    rw [hflat] at hpart hne ⊢
    have hpre : part ++ chunk.1 <+: head := (List.prefix_append _ _).trans hpart
    have hpre_ne : part ++ chunk.1 ≠ head := by
      rintro rfl
      obtain ⟨t, ht⟩ := hpart
      rw [List.append_assoc, List.append_right_eq_self] at ht
      exact hne (by rw [(List.append_eq_nil_iff.mp ht).1, List.append_nil])
    obtain ⟨c₁, h₁, hloop⟩ := readLoop_more hhead (chunks.map .data) h hpre hpre_ne
    obtain ⟨c', hc', h'⟩ := ih h₁ hpart hne
    exact ⟨c', hloop.trans hc', h'⟩

lemma chunksOf_map (chunks : List Chunk) : chunksOf (chunks.map .data) = chunks := by
  induction chunks with
  | nil => rfl
  | cons chunk chunks ih => rw [List.map_cons, chunksOf, ih]

lemma dataOf_map (chunks : List Chunk) : dataOf (chunks.map .data) = flat chunks := by
  induction chunks with
  | nil => rfl
  | cons chunk chunks ih => rw [List.map_cons, dataOf, ih, flat, flat, List.map_cons,
      List.flatten_cons]

/-- Chunks that complete the head. -/
lemma readLoop_whole (hhead : IsHead head header) {c : CacheState} (h : Waiting part c)
    (hpart : part ≠ head) (hall : part ++ flat chunks = head) :
    ∃ unread c', readLoop (chunks.map .data) .init c =
        .ok (.frame head, unread, { header with process_finished := true }, c') ∧
      dataOf unread = [] := by
  have hstream : part ++ (dataOf (chunks.map .data) ++ []) = head ++ [] := by
    rw [dataOf_map, List.append_nil, List.append_nil, hall]
  obtain ⟨r, hr, hends⟩ := readLoop_head hhead _ h ⟨_, hall⟩ hpart hstream
  cases hends with
  | waits _ _ _ _ _ _ _ hne _ =>
    rw [chunksOf_map] at hne
    exact absurd hall hne
  | completes unread extra s' hrest _ =>
    exact ⟨unread, s', hr, (List.append_eq_nil_iff.mp (List.append_eq_nil_iff.mp hrest).2).1⟩
  | refused unread extra s' hrest hlost _ _ =>
    exact absurd (List.append_eq_nil_iff.mp hrest).1 hlost

/-- A helper reads a part of the head. -/
lemma onRecv_part (h : s.Awaits status part) (hhead : IsHead head header)
    (hpart : part ++ flat chunks <+: head) (hne : part ++ flat chunks ≠ head) :
    ∃ s', H.onRecv (chunks.map .data) s = .ok s' ∧ s'.Awaits status (part ++ flat chunks) ∧
      Upgrade.unread s (chunks.map .data) = [] ∧ s'.websocketApiName = s.websocketApiName ∧
      s'.writeCache = s.writeCache ∧ s'.watched = s.watched := by
  obtain ⟨c, hloop, hc⟩ := readLoop_part hhead chunks h.readCache hpart hne
  rw [← h.header_cache] at hloop
  refine ⟨({ s with readCache := c } : HelperState).emit .recv, ?_,
    ⟨⟨h.channel, h.sound, h.filled, h.writing, notifications_append_eq_nil h.quiet rfl⟩,
      h.connectionStatus,
      h.header_cache, hc, h.reading⟩, ?_, rfl, rfl, rfl⟩
  · rw [onRecv, hloop]
    rfl
  · rw [Upgrade.unread, hloop]

/-- The first frame of a helper is put into its write cache. -/
lemma appendWrite_first {buffer : Bytes} (hne : buffer.1 ≠ [])
    (hlen : buffer.1.length ≤ maxFrameSize) (hfresh : s.writeCache = .init)
    (hchannel : s.channel = some s.watched) (hquiet : notifications s.log = []) :
    ∃ s', appendWrite buffer s = .ok s' ∧ s'.Open ∧ Unmoved s s' ∧
      s'.watched.reading = s.watched.reading ∧ s'.writeCache.frameCacheMap ≠ [] ∧
      s'.writeCache.frames.flatten = buffer.1 := by
  obtain ⟨ret, c, happ, hsound, hfilled, hone, hframes⟩ := appendFrame_init hne hlen
  refine ⟨{ s with
    writeCache := c
    channel := some (Toggle.enablWriting.apply s.watched)
    watched := Toggle.enablWriting.apply s.watched }, ?_,
    ⟨rfl, hsound, hfilled, fun _ => rfl, hquiet⟩,
    ⟨rfl, rfl, rfl, rfl, by simp [hchannel], rfl⟩, rfl, ?_, hframes⟩
  · rw [appendWrite, hfresh, happ]
    dsimp only
    rw [if_pos hone]
    exact syncChannel_eq_ok.mpr ⟨_, hchannel, rfl⟩
  · exact List.ne_nil_of_length_pos (by rw [hone]; exact Nat.one_pos)

lemma packetFrame_head {a b c : Text} {keys_map : KeysMap}
    (hhead : IsHead (packedText a b c keys_map noBytes) header) :
    ∃ buffer, packetFrame [a, b, c] keys_map noBytes = .ok buffer ∧
      buffer.1 = packedText a b c keys_map noBytes ∧ buffer.1 ≠ [] ∧
      buffer.1.length ≤ maxFrameSize := by
  have hmax := hhead.length_le
  obtain ⟨hmin, -⟩ := hhead.decoded
  have hF : (10485760 : UInt32).toNat = maxFrameSize := by decide
  have hpack := packetFrameOf_eq 10485760 [a, b, c] keys_map noBytes (hF ▸ hmax)
  have hval : (asBytes (packedText a b c keys_map noBytes)).1 = packedText a b c keys_map noBytes :=
    asBytes_val (lt_of_le_of_lt hmax (by decide))
  rw [hF, packetFrameOf_maxFrameSize] at hpack
  refine ⟨_, hpack, hval, ?_, ?_⟩
  · rw [← packedText, hval]
    exact List.ne_nil_of_length_pos (lt_of_lt_of_le (by decide) hmin)
  · rwa [← packedText, hval]

/-- `activeSetup` of a new helper puts the request into the write cache. -/
lemma activeSetup_first (h : s.Awaits .passive []) (hfresh : s.writeCache = .init)
    (hhead : IsHead (H.request (if api = [] then ascii "/" else api)) header) :
    ∃ s', H.activeSetup api s = .ok s' ∧ s'.Awaits .activeConnecting [] ∧
      s'.websocketApiName = (if api = [] then ascii "/" else api) ∧
      s'.writeCache.frames.flatten = H.request s'.websocketApiName := by
  obtain ⟨buffer, hpack, hval, hne, hlen⟩ := packetFrame_head hhead
  obtain ⟨s', hs', hopen, hunmoved, hreading, -, hframes⟩ := appendWrite_first (s := { s with
    connectionStatus := .activeConnecting
    websocketApiName := if api = [] then ascii "/" else api }) hne hlen hfresh h.channel h.quiet
  refine ⟨s', ?_, ⟨hopen, hunmoved.connectionStatus, hunmoved.header_cache.trans h.header_cache,
    hunmoved.readCache ▸ h.readCache, hreading.trans h.reading⟩, hunmoved.websocketApiName, ?_⟩
  · rw [activeSetup, if_neg (not_not.mpr h.connectionStatus)]
    exact bind_eq_ok.mpr ⟨buffer, mapError_eq_ok.mpr hpack, hs'⟩
  · rw [hframes, hval, hunmoved.websocketApiName]
    rfl

/-- The request arrives, and the response is put into the write cache. -/
lemma onRecv_request {header' : StreamHttpHeader} (h : s.Awaits .passive part)
    (hfresh : s.writeCache = .init) (hhead : IsHead head header)
    (hreq : IsRequest header api key) (hresp : IsHead (H.response key) header')
    (hpart : part ≠ head) (hall : part ++ flat chunks = head) :
    ∃ s', H.onRecv (chunks.map .data) s = .ok s' ∧ s'.Open ∧
      s'.connectionStatus = .passiveConnecting ∧ s'.websocketApiName = api ∧
      s'.watched.reading = false ∧ s'.writeCache.frameCacheMap ≠ [] ∧
      s'.writeCache.frames.flatten = H.response key ∧
      dataOf (Upgrade.unread s (chunks.map .data)) = [] := by
  obtain ⟨unread, c, hloop, hdata⟩ := readLoop_whole hhead h.readCache hpart hall
  rw [← h.header_cache] at hloop
  have hframe := onRecv_frame (H := H) hloop h.channel
  rw [h.connectionStatus] at hframe
  dsimp only at hframe
  rw [handlePassive_of_request hhead.parsed hreq] at hframe
  obtain ⟨buffer, hpack, hval, hne, hlen⟩ := packetFrame_head hresp
  obtain ⟨s', hs', hopen, hunmoved, hreading, hsome, hframes⟩ := appendWrite_first (s :=
    { frameState s head { header with process_finished := true } c s.watched with
      websocketApiName := api
      connectionStatus := .passiveConnecting }) hne hlen hfresh rfl
    (notifications_append_eq_nil h.quiet rfl)
  refine ⟨s', hframe.trans ?_, hopen, hunmoved.connectionStatus, hunmoved.websocketApiName,
    hreading, hsome, hframes.trans hval, ?_⟩
  · rw [passiveResponse]
    refine (if_neg ?_).trans (bind_eq_ok.mpr ⟨buffer, mapError_eq_ok.mpr hpack, hs'⟩)
    exact not_not.mpr h.connectionStatus
  · rw [Upgrade.unread, hloop]
    exact hdata

/-- The response arrives. -/
lemma onRecv_accept (h : s.Awaits .activeConnecting part) (hhead : IsHead head header)
    (hresp : H.IsResponse header) (hpart : part ≠ head) (hall : part ++ flat chunks = head) :
    ∃ s', H.onRecv (chunks.map .data) s = .ok s' ∧ H.HandedOff s.websocketApiName false s' ∧
      s'.websocketApiName = s.websocketApiName := by
  obtain ⟨unread, c, hloop, -⟩ := readLoop_whole hhead h.readCache hpart hall
  rw [← h.header_cache] at hloop
  exact ⟨_, onRecv_response hloop h.channel h.connectionStatus hhead.parsed hresp,
    handedOff_connectedState rfl (notifications_append_eq_nil h.quiet rfl), rfl⟩

end ConnectionHelper

end SignalEventLoop.Network
