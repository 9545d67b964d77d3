/-
# Frames are put together again

`CanControlBase::unpackCanFrame` (`imp/can-utils/can-type-def.h`) and
`CanUtilSocket::handCanFrame`, `getFrameCache` and `initCanFrameCache`
(`imp/can-utils/can-util-socket.cpp`).  There is one cache for each physical address.  A packet
is appended to the cache that its id leads to, and the cache is unpacked as long as it has a
complete frame.

Frames of several groups may be on the bus at the same time.  A packet only touches the cache
of its own group, so that the groups do not disturb each other; and the packets of one frame
complete it exactly with the last of them.
-/
import SignalEventLoop.Lib.Interleave
import SignalEventLoop.Can.CanFrame

namespace SignalEventLoop.Can

open Lib

/-! ## Unpacking a cache -/

def CAN_HEAD_SIZE : ℕ := 2 + 1 + 1 + 2

/-- The end of `unpackCanFrame`, which moves what is left to the front. -/
def CanControlFrame.moveBuf (cache : CanControlFrame) (offset : ℕ) : CanControlFrame :=
  { cache with data := cache.data.drop offset }

/-- `unpackCanFrame`: the frame, and the cache that is left.  The second byte of the head is
assigned and not compared. -/
def unpackCanFrame (frameCache : CanControlFrame) : CanControlFrame × CanControlFrame :=
  let frame := CanControlFrame.empty
  let data_len := frameCache.data.length
  if data_len < CAN_HEAD_SIZE then (frame, frameCache)
  else
    match (frameCache.data.take (data_len - CAN_HEAD_SIZE)).findIdx? (· = 0x55) with
    | none => ({ frame with errorFlag := true }, frameCache.moveBuf (data_len - CAN_HEAD_SIZE))
    | some offset =>
      let frameCache := { frameCache with data := frameCache.data.set (offset + 1) 0xAA }
      let payload_len := (frameCache.data.getD (offset + 3) 0).toNat
      if payload_len + offset + CAN_HEAD_SIZE > data_len then
        if data_len ≥ CanControlFrame.MAX_CAN_PAYLOAD_SIZE then
          (frame, frameCache.moveBuf (offset + 2))
        else (frame, frameCache.moveBuf offset)
      else
        let frame_len := payload_len + CAN_HEAD_SIZE
        if payload_len > CanControlFrame.MAX_CAN_PAYLOAD_SIZE then
          (frame, frameCache.moveBuf (offset + frame_len))
        else
          let check_sum := UInt8.ofNat
            (0x100 - (slice frameCache.data (offset + 3) (frame_len - 3)).sum.toNat)
          if check_sum = frameCache.data.getD 2 0 then
            ({ frame with
                data := slice frameCache.data offset frame_len
                optionCanIdList := frameCache.optionCanIdList.getLast?.toList },
              frameCache.moveBuf (offset + frame_len))
          else ({ frame with errorFlag := true }, frameCache.moveBuf (offset + 2))

/-- The loop of `handCanFrame`, for up to `fuel` frames: the frames for `handleMessage`, the
cache, and whether it ended with an error. -/
def unpackLoop : ℕ → CanControlFrame → Option (List CanControlFrame × CanControlFrame × Bool)
  | 0, _ => none
  | fuel + 1, cache =>
    let (frame, cache) := unpackCanFrame cache
    if frame.errorFlag then some ([], cache, true)
    else if frame.data.length > 0 then
      (unpackLoop fuel cache).map fun (frames, cache, error) => (frame :: frames, cache, error)
    else some ([], cache, false)

/-- The part of `handCanFrame` behind the choice of the cache. -/
def appendPacket (cache : CanControlFrame) (data : List UInt8) :
    Option (List CanControlFrame × CanControlFrame × Bool) :=
  if cache.data.length + data.length > cache.defaultCapacity then some ([], cache, false)
  else
    let cache := { cache with data := cache.data ++ data }
    unpackLoop (cache.data.length + 1) cache

/-! ## The receiver -/

structure Receiver where
  canFrameCache : ℕ → Option CanControlFrame
  messages : List CanControlFrame
  deviceErrors : ℕ

/-- The key that `getFrameCache` looks for. -/
def cacheKey (can_id : ℕ) : ℕ := groupCanId (canIdToPhysicalAddr can_id).toNat

/-- The id without its flags. -/
def CanFrame.id (frame : CanFrame) : ℕ :=
  if frame.canId &&& CAN_ERR_FLAG ≠ 0 then frame.canId &&& (CAN_ERR_MASK ||| CAN_ERR_FLAG)
  else if frame.canId &&& CAN_EFF_FLAG ≠ 0 then frame.canId &&& CAN_EFF_MASK
  else frame.canId &&& CAN_SFF_MASK

/-- `handCanFrame`; it throws when there is no cache. -/
def handCanFrame (s : Receiver) (frame : CanFrame) : Option Receiver :=
  let key := cacheKey frame.id
  (s.canFrameCache key).bind fun cache =>
    (appendPacket cache frame.data).map fun (frames, cache, error) =>
      { canFrameCache := Function.update s.canFrameCache key (some cache)
        messages := s.messages ++ frames
        deviceErrors := s.deviceErrors + error.toNat }

/-- `initCanFramCacheByAddr`. -/
def initCanFramCacheByAddr (cache : ℕ → Option CanControlFrame) (addr : CanPhysicalAddr) :
    ℕ → Option CanControlFrame :=
  let canId := groupCanId addr.toNat
  if (cache canId).isSome then cache
  else Function.update cache canId (some (.ofCapacity 256 canId))

/-- `initCanFrameCache`. -/
def initCanFrameCache : ℕ → Option CanControlFrame :=
  [.groupUnknown, .applicationGroup, .hand1PGroup, .hand2PGroup, .board1PGroup, .board2PGroup,
    .frontStageLightGroup, .backStageLightGroup, .centralGroup, .broadcastGroup].foldl
    initCanFramCacheByAddr fun _ => none

/-- The receiver of a new `CanUtilSocket`. -/
def Receiver.initial : Receiver := ⟨initCanFrameCache, [], 0⟩

/-! ## One cache -/

variable {cache : CanControlFrame} {data : List UInt8}

lemma unpackCanFrame_short (h : cache.data.length < CAN_HEAD_SIZE) :
    unpackCanFrame cache = (.empty, cache) := by
  simp only [unpackCanFrame, if_pos h]

/-- The head of a packed frame is found at once, and the assignment does not change it. -/
lemma findHead_take (hp : Packed data) {n : ℕ} (hn : 8 ≤ n) (hle : n ≤ data.length) :
    ((data.take n).take (n - CAN_HEAD_SIZE)).findIdx? (· = 0x55) = some 0 ∧
      (data.take n).set 1 0xAA = data.take n ∧
      ((data.take n).getD 3 0).toNat + CAN_HEAD_SIZE = data.length := by
  obtain ⟨check, length, rest, rfl, hlength⟩ := hp.head
  obtain ⟨m, rfl⟩ := Nat.exists_eq_add_of_le' hn
  refine ⟨?_, ?_, ?_⟩
  · simp [CAN_HEAD_SIZE, List.findIdx?_cons]
  · simp
  · simpa [CAN_HEAD_SIZE] using hlength

/-- **As long as a byte is missing, the cache waits.** -/
lemma unpackCanFrame_incomplete (cache : CanControlFrame) (hp : Packed data) {n : ℕ}
    (hn : 8 ≤ n) (hlt : n < data.length) :
    unpackCanFrame { cache with data := data.take n } =
      (.empty, { cache with data := data.take n }) := by
  obtain ⟨hfind, hset, hlen⟩ := findHead_take hp hn hlt.le
  have hdata : (data.take n).length = n := by
    rw [List.length_take]
    omega
  have hmax : ¬ n ≥ CanControlFrame.MAX_CAN_PAYLOAD_SIZE := by
    have := hp.length_lt
    simp only [CanControlFrame.MAX_CAN_PAYLOAD_SIZE]
    omega
  have hhead : ¬ n < CAN_HEAD_SIZE := by
    simp only [CAN_HEAD_SIZE]
    omega
  have hmissing : ((data.take n).getD 3 0).toNat + 0 + CAN_HEAD_SIZE > n := by omega
  simp only [unpackCanFrame, hdata, if_neg hhead, hfind, Nat.zero_add, hset, if_pos hmissing,
    if_neg hmax, CanControlFrame.moveBuf, List.drop_zero]

/-- **A complete frame is taken out of the cache.** -/
lemma unpackCanFrame_complete (cache : CanControlFrame) (hp : Packed data) :
    unpackCanFrame { cache with data := data } =
      ({ CanControlFrame.empty with
          data := data
          optionCanIdList := cache.optionCanIdList.getLast?.toList },
        { cache with data := [] }) := by
  have hlt := hp.length_lt
  have hge := hp.length_ge
  obtain ⟨hfind, hset, hlen⟩ := findHead_take hp (by omega) le_rfl
  rw [List.take_length] at hfind hset hlen
  have hhead : ¬ data.length < CAN_HEAD_SIZE := by
    simp only [CAN_HEAD_SIZE]
    omega
  have henough : ¬ (data.getD 3 0).toNat + 0 + CAN_HEAD_SIZE > data.length := by omega
  have hmax : ¬ (data.getD 3 0).toNat > CanControlFrame.MAX_CAN_PAYLOAD_SIZE := by
    simp only [CanControlFrame.MAX_CAN_PAYLOAD_SIZE]
    omega
  have hsum : UInt8.ofNat (0x100 - (slice data 3 (data.length - 3)).sum.toNat) = data.getD 2 0 := by
    have hcheck := hp.check
    rw [checkSum, if_pos hlt] at hcheck
    rw [List.getD_eq_getElem?_getD, ← hcheck, slice, List.take_of_length_le (by simp)]
    rfl
  have hwhole : slice data 0 data.length = data := by simp [slice]
  simp only [unpackCanFrame, if_neg hhead, hfind, Nat.zero_add, hset, if_neg henough,
    if_neg hmax, hlen, if_pos hsum, hwhole, CanControlFrame.moveBuf, List.drop_length]

/-- What `handleMessage` gets for a frame out of the cache with the id `canId`. -/
def CanControlFrame.delivered (canId : ℕ) (frame : CanControlFrame) : CanControlFrame :=
  { CanControlFrame.empty with data := frame.data, optionCanIdList := [canId] }

/-- The cache with the id `canId`, which holds `data`. -/
def cacheOf (canId : ℕ) (data : List UInt8) : CanControlFrame :=
  { CanControlFrame.ofCapacity 256 canId with data := data }

lemma appendPacket_eq (canId : ℕ) (xs ys : List UInt8) (h : xs.length + ys.length < 2 ^ 8) :
    appendPacket (cacheOf canId xs) ys =
      unpackLoop (xs.length + ys.length + 1) (cacheOf canId (xs ++ ys)) := by
  have hcap : ¬ xs.length + ys.length > 512 := by omega
  have hcapacity : (cacheOf canId xs).defaultCapacity = 512 := rfl
  rw [appendPacket, hcapacity]
  simp only [cacheOf, if_neg hcap, List.length_append]
  rfl

lemma appendPacket_incomplete (canId : ℕ) (hp : Packed data) {off len : ℕ} (hlen : 8 ≤ off + len)
    (hlt : off + len < data.length) :
    appendPacket (cacheOf canId (data.take off)) (slice data off len) =
      some ([], cacheOf canId (data.take (off + len)), false) := by
  have htake : data.take off ++ slice data off len = data.take (off + len) := by
    rw [slice, List.take_add]
  have hlength : (data.take off).length + (slice data off len).length = off + len := by
    rw [← List.length_append, htake, List.length_take]
    omega
  have hmax := hp.length_lt
  rw [appendPacket_eq canId _ _ (by omega), htake, cacheOf, unpackLoop,
    unpackCanFrame_incomplete _ hp hlen hlt]
  rfl

lemma appendPacket_complete (canId : ℕ) {frame : CanControlFrame} (hp : Packed frame.data)
    {off len : ℕ} (hlen : off + len = frame.data.length) :
    appendPacket (cacheOf canId (frame.data.take off)) (slice frame.data off len) =
      some ([frame.delivered canId], cacheOf canId [], false) := by
  have htake : frame.data.take off ++ slice frame.data off len = frame.data := by
    rw [slice, ← List.take_add, hlen, List.take_length]
  have hlength : (frame.data.take off).length + (slice frame.data off len).length =
      frame.data.length := by
    rw [← List.length_append, htake]
  have hmax := hp.length_lt
  have hmin := hp.length_ge
  obtain ⟨n, hn⟩ := Nat.exists_eq_add_of_le' (show 1 ≤ frame.data.length by omega)
  have hpos : ({ CanControlFrame.empty with
      data := frame.data, optionCanIdList := [canId] } : CanControlFrame).data.length > 0 := by
    simp only
    omega
  rw [appendPacket_eq canId _ _ (by omega), htake, cacheOf, hlength, unpackLoop,
    unpackCanFrame_complete _ hp]
  simp only [CanControlFrame.ofCapacity, List.getLast?_singleton, Option.toList_some,
    CanControlFrame.empty, Bool.false_eq_true, if_false]
  rw [if_pos (by omega), hn, unpackLoop, unpackCanFrame_short (by simp [CAN_HEAD_SIZE])]
  rfl

/-! ## One group -/

/-- The id of a packet leads to the cache of its group. -/
lemma cacheKey_packet (g : CanPhysicalAddr) (d : List UInt8) {i : ℕ} (hi : i < 32) :
    cacheKey (toCanFrame (packetId (groupCanId g.toNat) i, d)).id = groupCanId g.toNat := by
  have hall : ∀ i < 32, cacheKey (toCanFrame (packetId (groupCanId g.toNat) i, [])).id =
      groupCanId g.toNat := by
    cases g <;> decide
  exact hall i hi

lemma canIdToPhysicalAddr_groupCanId (g : CanPhysicalAddr) :
    canIdToPhysicalAddr (groupCanId g.toNat) = g := by
  cases g <;> rfl

lemma groupCanId_inj {g h : CanPhysicalAddr} (heq : groupCanId g.toNat = groupCanId h.toNat) :
    g = h := by
  rw [← canIdToPhysicalAddr_groupCanId g, heq, canIdToPhysicalAddr_groupCanId]

/-- What the group `g` sees of a receiver: its cache, and the messages out of it. -/
def groupView (g : CanPhysicalAddr) (s : Receiver) :
    Option CanControlFrame × List CanControlFrame :=
  (s.canFrameCache (groupCanId g.toNat),
    s.messages.filter fun m => m.optionCanIdList = [groupCanId g.toNat])

/-- A packet of the group `g`, for this group alone; only packets without an error count. -/
def groupStep (g : CanPhysicalAddr) (v : Option CanControlFrame × List CanControlFrame)
    (frame : CanFrame) : Option (Option CanControlFrame × List CanControlFrame) :=
  if cacheKey frame.id = groupCanId g.toNat then
    v.1.bind fun cache => (appendPacket cache frame.data).bind fun (frames, cache, error) =>
      if error = false ∧ ∀ m ∈ frames, m.optionCanIdList = [groupCanId g.toNat] then
        some (some cache, v.2 ++ frames)
      else none
  else none

lemma groupStep_eq_some {g : CanPhysicalAddr} {v w : Option CanControlFrame × List CanControlFrame}
    {frame : CanFrame} : groupStep g v frame = some w ↔
      cacheKey frame.id = groupCanId g.toNat ∧ ∃ cache frames cache', v.1 = some cache ∧
        appendPacket cache frame.data = some (frames, cache', false) ∧
        (∀ m ∈ frames, m.optionCanIdList = [groupCanId g.toNat]) ∧
        w = (some cache', v.2 ++ frames) := by
  by_cases hkey : cacheKey frame.id = groupCanId g.toNat
  · rw [groupStep, if_pos hkey, Option.bind_eq_some_iff]
    simp only [Option.bind_eq_some_iff, hkey, true_and, Prod.exists]
    constructor
    · rintro ⟨cache, hcache, frames, cache', error, happend, hif⟩
      split_ifs at hif with hok
      obtain ⟨rfl, hids⟩ := hok
      exact ⟨cache, frames, cache', hcache, happend, hids, (Option.some.inj hif).symm⟩
    · rintro ⟨cache, frames, cache', hcache, happend, hids, rfl⟩
      exact ⟨cache, hcache, frames, cache', false, happend, if_pos ⟨rfl, hids⟩⟩
  · simp [groupStep, hkey]

/-- **One frame.** The packets from the byte `off` on complete the frame that the cache holds
the first `off` bytes of. -/
lemma run_packetsFrom (g : CanPhysicalAddr) {frame : CanControlFrame} (hp : Packed frame.data)
    (log : List CanControlFrame) :
    ∀ (n off : ℕ), n < 32 → 8 * n < frame.data.length - off →
      frame.data.length - off ≤ 8 * (n + 1) →
      run (groupStep g) (some (cacheOf (groupCanId g.toNat) (frame.data.take off)), log)
          ((packetsFrom frame.data (countdown (groupCanId g.toNat) (n + 1)) off).map toCanFrame) =
        some (some (cacheOf (groupCanId g.toNat) []),
          log ++ [frame.delivered (groupCanId g.toNat)]) := by
  intro n
  induction n with
  | zero =>
    intro off _ hlo hhi
    have hlen : (if off + 8 ≤ frame.data.length then 8 else frame.data.length - off) =
        frame.data.length - off := by
      split_ifs <;> omega
    rw [countdown_succ, packetsFrom]
    simp only [hlen]
    rw [if_neg (by omega)]
    refine run_cons_eq_some.mpr ⟨_, groupStep_eq_some.mpr ⟨cacheKey_packet g _ (by omega), _, _, _,
      rfl, appendPacket_complete _ hp (by omega), ?_, rfl⟩, rfl⟩
    simp [CanControlFrame.delivered]
  | succ n ih =>
    intro off hn hlo hhi
    have hlen : (if off + 8 ≤ frame.data.length then 8 else frame.data.length - off) = 8 := by
      rw [if_pos (by omega)]
    rw [countdown_succ, packetsFrom]
    simp only [hlen]
    rw [if_neg (by omega)]
    refine run_cons_eq_some.mpr ⟨_, groupStep_eq_some.mpr ⟨cacheKey_packet g _ hn, _, _, _, rfl,
      appendPacket_incomplete _ hp (by omega) (by omega), by simp, rfl⟩, ?_⟩
    rw [List.append_nil]
    exact ih (off + 8) (by omega) (by omega) (by omega)

/-- A frame for the group `g` with up to 247 bytes of payload. -/
def SentTo (g : CanPhysicalAddr) (frame : CanControlFrame) : Prop :=
  ∃ (data : List UInt8) (localAddr remoteAddr : UInt16), 1 ≤ data.length ∧ data.length ≤ 247 ∧
    packCanFrame data localAddr remoteAddr (groupCanId g.toNat) = some frame

lemma run_packets {g : CanPhysicalAddr} {frame : CanControlFrame} (h : SentTo g frame)
    (log : List CanControlFrame) :
    run (groupStep g) (some (cacheOf (groupCanId g.toNat) []), log)
        (frame.packets.map toCanFrame) =
      some (some (cacheOf (groupCanId g.toNat) []),
        log ++ [frame.delivered (groupCanId g.toNat)]) := by
  obtain ⟨data, localAddr, remoteAddr, hpos, hle, hpack⟩ := h
  obtain ⟨frame', hpack', hp, hids⟩ :=
    packCanFrame_packed localAddr remoteAddr (groupCanId g.toNat) hpos hle
  obtain rfl : frame' = frame := Option.some.inj (hpack'.symm.trans hpack)
  have hge := hp.length_ge
  have hlt := hp.length_lt
  have hcount : (frame'.data.length + 7) / 8 = (frame'.data.length - 1) / 8 + 1 := by omega
  have hrun := run_packetsFrom g hp log ((frame'.data.length - 1) / 8) 0 (by omega) (by omega)
    (by omega)
  rw [CanControlFrame.packets, hids, hcount]
  exact hrun

/-- **One group.** The frames that are sent one after the other arrive one after the other. -/
lemma run_frames {g : CanPhysicalAddr} {frames : List CanControlFrame}
    (h : ∀ frame ∈ frames, SentTo g frame) (log : List CanControlFrame) :
    run (groupStep g) (some (cacheOf (groupCanId g.toNat) []), log)
        (frames.flatMap fun frame => frame.packets.map toCanFrame) =
      some (some (cacheOf (groupCanId g.toNat) []),
        log ++ frames.map (CanControlFrame.delivered (groupCanId g.toNat))) := by
  induction frames generalizing log with
  | nil => simp
  | cons frame frames ih =>
    rw [List.flatMap_cons, run_append, run_packets (h frame List.mem_cons_self)]
    simp [ih fun f hf => h f (List.mem_cons_of_mem _ hf)]

/-! ## All groups -/

/-- What holds of the receiver all the time, as long as no packet is in error. -/
structure Receiver.Quiet (s : Receiver) : Prop where
  deviceErrors : s.deviceErrors = 0
  messages : ∀ m ∈ s.messages, ∃ g : CanPhysicalAddr, m.optionCanIdList = [groupCanId g.toNat]
  caches : ∀ id cache, s.canFrameCache id = some cache →
    ∃ g : CanPhysicalAddr, id = groupCanId g.toNat

/-- A packet touches what its own group sees, and nothing else. -/
lemma handCanFrame_of_groupStep (s : Receiver) (g : CanPhysicalAddr) (frame : CanFrame)
    (v : Option CanControlFrame × List CanControlFrame) (hs : s.Quiet)
    (h : groupStep g (groupView g s) frame = some v) :
    ∃ s', handCanFrame s frame = some s' ∧ s'.Quiet ∧ groupView g s' = v ∧
      ∀ j, j ≠ g → groupView j s' = groupView j s := by
  obtain ⟨hkey, cache, frames, cache', hcache, happend, hids, rfl⟩ := groupStep_eq_some.mp h
  have hcache' : s.canFrameCache (groupCanId g.toNat) = some cache := hcache
  refine ⟨⟨Function.update s.canFrameCache (groupCanId g.toNat) (some cache'),
    s.messages ++ frames, s.deviceErrors⟩, ?_, ⟨hs.deviceErrors, ?_, ?_⟩, ?_, ?_⟩
  · simp [handCanFrame, hkey, hcache', happend]
  · intro m hm
    rcases List.mem_append.mp hm with hm | hm
    · exact hs.messages m hm
    · exact ⟨g, hids m hm⟩
  · intro id c hc
    by_cases hid : id = groupCanId g.toNat
    · exact ⟨g, hid⟩
    · exact hs.caches id c (by simpa [hid] using hc)
  · have hall : frames.filter (fun m => m.optionCanIdList = [groupCanId g.toNat]) = frames := by
      rw [List.filter_eq_self]
      exact fun m hm => decide_eq_true (hids m hm)
    simp only [groupView, Function.update_self, List.filter_append, hall]
  · intro j hj
    have hne : groupCanId j.toNat ≠ groupCanId g.toNat := fun heq => hj (groupCanId_inj heq)
    have hnone : frames.filter (fun m => m.optionCanIdList = [groupCanId j.toNat]) = [] := by
      rw [List.filter_eq_nil_iff]
      intro m hm
      simp [hids m hm, hne.symm]
    simp only [groupView, Function.update_of_ne hne, List.filter_append, hnone, List.append_nil]

lemma initCanFrameCache_groupCanId (g : CanPhysicalAddr) :
    initCanFrameCache (groupCanId g.toNat) = some (cacheOf (groupCanId g.toNat) []) := by
  cases g <;> rfl

/-- An address adds its own key to the keys of the addresses before it. -/
lemma initCanFramCacheByAddr_keys (caches : ℕ → Option CanControlFrame) (addr : CanPhysicalAddr)
    (h : ∀ id cache, caches id = some cache → ∃ g : CanPhysicalAddr, id = groupCanId g.toNat) :
    ∀ id cache, initCanFramCacheByAddr caches addr id = some cache →
      ∃ g : CanPhysicalAddr, id = groupCanId g.toNat := by
  intro id cache hcache
  simp only [initCanFramCacheByAddr] at hcache
  split_ifs at hcache with hsome
  · exact h id cache hcache
  · by_cases hid : id = groupCanId addr.toNat
    · exact ⟨addr, hid⟩
    · exact h id cache (by simpa [hid] using hcache)

lemma Receiver.Quiet.initial : Receiver.initial.Quiet := by
  refine ⟨rfl, by simp [Receiver.initial], ?_⟩
  refine List.foldlRecOn (motive := fun caches => ∀ id cache, caches id = some cache →
    ∃ g : CanPhysicalAddr, id = groupCanId g.toNat) _ initCanFramCacheByAddr ?_ ?_
  · simp
  · exact fun caches h addr _ => initCanFramCacheByAddr_keys caches addr h

lemma groupView_initial (g : CanPhysicalAddr) :
    groupView g .initial = (some (cacheOf (groupCanId g.toNat) []), []) := by
  rw [groupView]
  exact congrArg₂ Prod.mk (initCanFrameCache_groupCanId g) rfl

/-- **Reassembly.** `sent g` are the frames for the group `g`, one after the other, and `wire` is
any interleaving of the packets of all groups.  Every frame is handed to `handleMessage` once,
with its bytes and the id of the cache of its group, the frames of a group in their order, and
no cache keeps anything. -/
theorem can_reassembly (sent : CanPhysicalAddr → List CanControlFrame)
    (hsent : ∀ g, ∀ frame ∈ sent g, SentTo g frame) (wire : List (CanPhysicalAddr × CanFrame))
    (hwire : ∀ g, part g wire = (sent g).flatMap fun frame => frame.packets.map toCanFrame) :
    ∃ s, run handCanFrame .initial (wire.map Prod.snd) = some s ∧
      (∀ g : CanPhysicalAddr, s.messages.filter (·.optionCanIdList = [groupCanId g.toNat]) =
        (sent g).map (CanControlFrame.delivered (groupCanId g.toNat))) ∧
      (∀ m ∈ s.messages, ∃ g : CanPhysicalAddr, m.optionCanIdList = [groupCanId g.toNat]) ∧
      (∀ id cache, s.canFrameCache id = some cache → cache.data = []) := by
  obtain ⟨s, hs, hquiet, hviews⟩ := run_of_parts handCanFrame_of_groupStep
    Receiver.Quiet.initial (fun g => by
      rw [groupView_initial, hwire]
      exact run_frames (hsent g) [])
  refine ⟨s, hs, ?_, hquiet.messages, ?_⟩
  · intro g
    simpa [groupView] using congrArg Prod.snd (hviews g)
  · intro id cache hcache
    obtain ⟨g, rfl⟩ := hquiet.caches id cache hcache
    have hview := congrArg Prod.fst (hviews g)
    rw [groupView, hcache] at hview
    rw [Option.some.inj hview]
    rfl

/-- Two frames with the payloads `07` and `09`, for the hand sensors and for the main control. -/
def twoGroups : CanPhysicalAddr → List CanControlFrame
  | .hand1PGroup => (packCanFrame [0x07] 1 0x301 (groupCanId 0x3001)).toList
  | .centralGroup => (packCanFrame [0x09] 1 0x104 (groupCanId 0x2003)).toList
  | _ => []

/-- Their packets, in turns. -/
def twoGroupsWire : List (CanPhysicalAddr × CanFrame) :=
  [(.hand1PGroup, ⟨0x86002021, [0x55, 0xAA, 0xF1, 0x03, 0x00, 0x01, 0x03, 0x01]⟩),
    (.centralGroup, ⟨0x84006021, [0x55, 0xAA, 0xEE, 0x03, 0x00, 0x01, 0x01, 0x04]⟩),
    (.centralGroup, ⟨0x84006001, [0x09]⟩),
    (.hand1PGroup, ⟨0x86002001, [0x07]⟩)]

lemma twoGroups_sentTo (g : CanPhysicalAddr) : ∀ frame ∈ twoGroups g, SentTo g frame := by
  intro frame hframe
  cases g with
  | hand1PGroup => exact ⟨[0x07], 1, 0x301, by decide, by decide, Option.mem_toList.mp hframe⟩
  | centralGroup => exact ⟨[0x09], 1, 0x104, by decide, by decide, Option.mem_toList.mp hframe⟩
  | _ => simp [twoGroups] at hframe

theorem can_reassembly_twoGroups :
    ∃ s, run handCanFrame .initial (twoGroupsWire.map Prod.snd) = some s ∧
      (∀ g : CanPhysicalAddr, s.messages.filter (·.optionCanIdList = [groupCanId g.toNat]) =
        (twoGroups g).map (CanControlFrame.delivered (groupCanId g.toNat))) ∧
      (∀ m ∈ s.messages, ∃ g : CanPhysicalAddr, m.optionCanIdList = [groupCanId g.toNat]) ∧
      (∀ id cache, s.canFrameCache id = some cache → cache.data = []) :=
  can_reassembly twoGroups twoGroups_sentTo twoGroupsWire fun g => by cases g <;> decide

end SignalEventLoop.Can
