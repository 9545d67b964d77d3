/-
# The CAN bus

Any number of nodes that send with `sendCanFrame` and `on_write` of `CanUtilSocket`
(`imp/can-utils/can-util-socket.cpp`) are on one bus.  The bus takes the packets of a node in
their order, and those of different nodes in any order; a receiver reads the packets of the bus
with `on_recv` and `handCanFrame`.

The id of a packet names the group that it is for and not the node that it comes from.  So the
frames of a group are put together again as long as only one node sends to the group.
-/
import SignalEventLoop.Can.FrameBuilders
import SignalEventLoop.Can.Packetise

namespace SignalEventLoop.Can

open Lib

/-! ## One frame -/

/-- A frame for the group `g` that the receiver can delimit, with a byte behind its head. -/
structure Addressed (g : CanPhysicalAddr) (frame : CanControlFrame) : Prop where
  built : BuiltFor (UInt16.ofNat g.toNat) frame
  valid : ValidFrame frame.data
  long : CAN_HEAD_SIZE < frame.data.length

variable {g : CanPhysicalAddr} {frame : CanControlFrame} {data : List UInt8}

lemma toNat_ofNat_group (g : CanPhysicalAddr) : (UInt16.ofNat g.toNat).toNat = g.toNat := by
  cases g <;> rfl

/-- The loop over the check sum ends for up to 255 bytes. -/
lemma Addressed.length_lt (h : Addressed g frame) : frame.data.length < 2 ^ 8 := by
  have hlong := h.long
  rcases h.built with ⟨data, localAddr, remoteAddr, hpack⟩ | ⟨data, hspecific⟩
  · simp only [packCanFrame] at hpack
    split_ifs at hpack with hzero
    · obtain rfl := Option.some.inj hpack
      simp [CanControlFrame.empty] at hlong
    · obtain ⟨sum, hsum, rfl⟩ := Option.map_eq_some_iff.mp hpack
      exact (checkSum_eq_some.mp hsum).1
  · simp only [specificFrame] at hspecific
    split_ifs at hspecific with hzero
    obtain ⟨sum, hsum, rfl⟩ := Option.map_eq_some_iff.mp hspecific
    exact (checkSum_eq_some.mp hsum).1

lemma slice_of_frameLen (h : ValidFrame data) :
    slice data 3 (frameLen data 0 - 3) = data.drop 3 := by
  rw [slice, ← h.length_eq, List.take_of_length_le (by simp)]

/-- A frame of more than one packet is one that `CanReceive` knows. -/
lemma ValidFrame.packed (h : ValidFrame data) (hge : 9 ≤ data.length)
    (hlt : data.length < 2 ^ 8) : Packed data := by
  refine ⟨?_, ?_, hge, hlt⟩
  · obtain ⟨a, b, c, d, rest, rfl⟩ : ∃ a b c d rest, data = a :: b :: c :: d :: rest := by
      match data, hge with
      | a :: b :: c :: d :: rest, _ => exact ⟨a, b, c, d, rest, rfl⟩
    obtain rfl : a = 0x55 := Option.some.inj h.first
    obtain rfl : b = 0xAA := Option.some.inj h.second
    exact ⟨c, d, rest, rfl, h.length_eq.symm⟩
  · rw [h.check, checkSum, if_pos hlt, checkAt, slice_of_frameLen h]

/-- A complete frame is taken out of the cache, also when it is one packet. -/
lemma unpackCanFrame_valid (cache : CanControlFrame) (h : ValidFrame data)
    (hlong : CAN_HEAD_SIZE < data.length) (hlt : data.length < 2 ^ 8) :
    unpackCanFrame { cache with data := data } =
      ({ CanControlFrame.empty with
          data := data
          optionCanIdList := cache.optionCanIdList.getLast?.toList },
        { cache with data := [] }) := by
  have hfind : (data.take (data.length - CAN_HEAD_SIZE)).findIdx? (· = 0x55) = some 0 :=
    headAt_eq_zero h.first hlong
  have hset : data.set 1 0xAA = data := set_of_getElem? h.second
  have hlen : (data.getD 3 0).toNat + CAN_HEAD_SIZE = data.length := h.length_eq.symm
  have henough : ¬ (data.getD 3 0).toNat + 0 + CAN_HEAD_SIZE > data.length := by omega
  have hmax : ¬ (data.getD 3 0).toNat > CanControlFrame.MAX_CAN_PAYLOAD_SIZE := by
    simp only [CanControlFrame.MAX_CAN_PAYLOAD_SIZE]
    omega
  have hsum : UInt8.ofNat (0x100 - (slice data 3 (data.length - 3)).sum.toNat) = data.getD 2 0 := by
    rw [List.getD_eq_getElem?_getD, h.check, checkAt, ← h.length_eq]
    rfl
  have hwhole : slice data 0 data.length = data := by simp [slice]
  have hhead : ¬ data.length < CAN_HEAD_SIZE := hlong.not_gt
  simp only [unpackCanFrame, if_neg hhead, hfind, Nat.zero_add, hset, if_neg henough,
    if_neg hmax, hlen, if_pos hsum, hwhole, CanControlFrame.moveBuf, List.drop_length]

/-- A frame of one packet. -/
lemma appendPacket_single (canId : ℕ) (h : ValidFrame frame.data)
    (hlong : CAN_HEAD_SIZE < frame.data.length) (hlt : frame.data.length < 2 ^ 8) :
    appendPacket (cacheOf canId []) frame.data =
      some ([frame.delivered canId], cacheOf canId [], false) := by
  have hpos : 0 < frame.data.length := Nat.zero_lt_of_lt hlong
  obtain ⟨n, hn⟩ := Nat.exists_eq_add_of_le' (show 1 ≤ frame.data.length from hpos)
  rw [appendPacket_eq canId _ _ (by simpa using hlt), List.nil_append, cacheOf, List.length_nil,
    Nat.zero_add, unpackLoop, unpackCanFrame_valid _ h hlong hlt]
  simp only [CanControlFrame.ofCapacity, List.getLast?_singleton, Option.toList_some,
    CanControlFrame.empty, Bool.false_eq_true, if_false]
  rw [if_pos hpos, hn, unpackLoop, unpackCanFrame_short (by simp [CAN_HEAD_SIZE])]
  rfl

/-- The loop of `on_write` does not come to the ids behind the last packet. -/
lemma packetsFrom_append (data : List UInt8) (ids extra : List ℕ) (offset : ℕ)
    (hids : (data.length - offset + 7) / 8 ≤ ids.length) :
    packetsFrom data (ids ++ extra) offset = packetsFrom data ids offset := by
  induction ids generalizing offset with
  | nil =>
    rw [List.length_nil] at hids
    cases extra with
    | nil => rfl
    | cons canId extra =>
      have hzero : (if offset + 8 ≤ data.length then 8 else data.length - offset) = 0 := by
        split_ifs <;> omega
      simp only [List.nil_append, packetsFrom, hzero, if_true]
  | cons canId ids ih =>
    rw [List.length_cons] at hids
    simp only [List.cons_append, packetsFrom]
    generalize hsend : (if offset + 8 ≤ data.length then 8 else data.length - offset) = send_len
    have hlen : send_len = min 8 (data.length - offset) := by
      split_ifs at hsend <;> omega
    by_cases hzero : send_len = 0
    · rw [if_pos hzero, if_pos hzero]
    · rw [if_neg hzero, if_neg hzero, ih (offset + send_len) (by omega)]

lemma Addressed.packets_eq (h : Addressed g frame) : frame.packets =
    packetsFrom frame.data (countdown (groupCanId g.toNat) ((frame.data.length + 7) / 8)) 0 := by
  have hlong : 6 < frame.data.length := h.long
  obtain ⟨extra, hids⟩ := h.built.optionCanIdList (by omega) (by have := h.length_lt; omega)
  rw [toNat_ofNat_group] at hids
  rw [CanControlFrame.packets, hids, packetsFrom_append _ _ _ _ (by rw [length_countdown]; omega)]

/-- **One frame.** Its packets complete it in the cache of its group. -/
lemma Addressed.run_packets (h : Addressed g frame) (log : List CanControlFrame) :
    run (groupStep g) (some (cacheOf (groupCanId g.toNat) []), log)
        (frame.packets.map toCanFrame) =
      some (some (cacheOf (groupCanId g.toNat) []),
        log ++ [frame.delivered (groupCanId g.toNat)]) := by
  have hlong : 6 < frame.data.length := h.long
  have hlt := h.length_lt
  rw [h.packets_eq]
  by_cases hsingle : frame.data.length ≤ 8
  · have hone : (frame.data.length + 7) / 8 = 0 + 1 := by omega
    have hlen : (if 0 + 8 ≤ frame.data.length then 8 else frame.data.length - 0) =
        frame.data.length := by
      split_ifs <;> omega
    have hwhole : slice frame.data 0 frame.data.length = frame.data := by simp [slice]
    rw [hone, countdown_succ, packetsFrom]
    simp only [hlen]
    rw [if_neg (by omega), hwhole]
    refine run_cons_eq_some.mpr ⟨_, groupStep_eq_some.mpr ⟨cacheKey_packet g _ (by omega), _, _, _,
      rfl, appendPacket_single _ h.valid h.long hlt, ?_, rfl⟩, rfl⟩
    simp [CanControlFrame.delivered]
  · have hcount : (frame.data.length + 7) / 8 = (frame.data.length - 1) / 8 + 1 := by omega
    rw [hcount]
    exact run_packetsFrom g (h.valid.packed (by omega) hlt) log ((frame.data.length - 1) / 8) 0
      (by omega) (by omega) (by omega)

/-- The packets of frames, as the bus carries them. -/
def canFrames (frames : List CanControlFrame) : List CanFrame :=
  frames.flatMap fun frame => frame.packets.map toCanFrame

/-- **One group.** The frames that are sent one after the other arrive one after the other. -/
lemma run_canFrames {frames : List CanControlFrame} (h : ∀ frame ∈ frames, Addressed g frame)
    (log : List CanControlFrame) :
    run (groupStep g) (some (cacheOf (groupCanId g.toNat) []), log) (canFrames frames) =
      some (some (cacheOf (groupCanId g.toNat) []),
        log ++ frames.map (CanControlFrame.delivered (groupCanId g.toNat))) := by
  induction frames generalizing log with
  | nil => simp [canFrames]
  | cons frame frames ih =>
    rw [canFrames, List.flatMap_cons, run_append,
      (h frame List.mem_cons_self).run_packets, Option.bind_some]
    have := ih (fun f hf => h f (List.mem_cons_of_mem _ hf))
      (log ++ [frame.delivered (groupCanId g.toNat)])
    rw [canFrames] at this
    rw [this, List.map_cons, List.append_assoc, List.singleton_append]

/-- The messages of a group only grow. -/
lemma groupStep_grows {v w : Option CanControlFrame × List CanControlFrame} {f : CanFrame}
    (h : groupStep g v f = some w) : v.2 <+: w.2 := by
  obtain ⟨-, cache, frames, cache', -, -, -, rfl⟩ := groupStep_eq_some.mp h
  exact List.prefix_append _ _

/-- A group has received a first part of its packets. -/
lemma run_groupStep_of_prefix {v w : Option CanControlFrame × List CanControlFrame}
    {fs whole : List CanFrame} (hfs : fs <+: whole) (hrun : run (groupStep g) v whole = some w) :
    ∃ u, run (groupStep g) v fs = some u ∧ u.2 <+: w.2 := by
  obtain ⟨rest, rfl⟩ := hfs
  obtain ⟨u, hu, hrest⟩ := run_append_eq_some.mp hrun
  refine ⟨u, hu, ?_⟩
  exact run_inv (I := fun x => u.2 <+: x.2) (fun x f y hx hstep => hx.trans (groupStep_grows hstep))
    (List.prefix_refl _) hrest

/-! ## The group of a packet -/

/-- The group of a frame, as `handleMessage` reads it. -/
def CanControlFrame.group (frame : CanControlFrame) : CanPhysicalAddr :=
  canIdToPhysicalAddr (frame.optionCanIdList.headD 0)

/-- The group of a packet, as `getFrameCache` reads it. -/
def CanFrame.group (frame : CanFrame) : CanPhysicalAddr := canIdToPhysicalAddr frame.id

/-- Every packet of a frame shows the group that the frame is for. -/
lemma Addressed.group_of_mem (h : Addressed g frame) {f : CanFrame}
    (hf : f ∈ frame.packets.map toCanFrame) : f.group = g := by
  obtain ⟨packet, hpacket, rfl⟩ := List.mem_map.mp hf
  rw [h.packets_eq] at hpacket
  obtain ⟨j, hj⟩ := List.mem_iff_getElem?.mp hpacket
  obtain ⟨hid, hlt⟩ := packetsFrom_getElem? _ _ _ hj
  have hmax := h.length_lt
  rw [getElem?_countdown _ (by omega)] at hid
  refine groupCanId_inj ?_
  have hkey := cacheKey_packet g packet.2
    (show (frame.data.length + 7) / 8 - 1 - j < 32 by omega)
  rw [Option.some.inj hid] at hkey
  exact hkey

lemma canFrames_cons (frame : CanControlFrame) (frames : List CanControlFrame) :
    canFrames (frame :: frames) = frame.packets.map toCanFrame ++ canFrames frames := rfl

/-- The packets for a group are those of the frames for the group. -/
lemma filter_canFrames {frames : List CanControlFrame}
    (h : ∀ frame ∈ frames, Addressed frame.group frame) (g : CanPhysicalAddr) :
    (canFrames frames).filter (·.group = g) = canFrames (frames.filter (·.group = g)) := by
  induction frames with
  | nil => rfl
  | cons frame frames ih =>
    have hframe := h frame List.mem_cons_self
    rw [canFrames_cons, List.filter_append, ih fun f hf => h f (List.mem_cons_of_mem _ hf)]
    by_cases hg : frame.group = g
    · rw [List.filter_cons_of_pos (by simpa using hg), canFrames_cons, List.filter_eq_self.mpr]
      intro f hf
      rw [hframe.group_of_mem hf]
      exact decide_eq_true hg
    · rw [List.filter_cons_of_neg (by simpa using hg), List.filter_eq_nil_iff.mpr, List.nil_append]
      intro f hf
      rw [hframe.group_of_mem hf]
      simpa using hg

lemma wires_socket (frames : List CanControlFrame) :
    wires .socket frames = (canFrames frames).map .frame := by
  simp only [wires, canFrames, List.map_flatMap, List.map_map]
  rfl

/-! ## The bus -/

variable {ν : Type} [DecidableEq ν]

/-- The nodes, everything that was on the bus, with the node that it came from, and a receiver
that has read a first part of it. -/
structure CanBus (ν : Type) where
  nodes : ν → Sender
  traffic : List (ν × CanFrame)
  read : ℕ
  receiver : Receiver

inductive BusAction (ν : Type) where
  | node (n : ν) (a : SendAction)
  /-- The bus takes a packet of the node. -/
  | transmit (n : ν)
  /-- The receiver reads a packet. -/
  | receive

namespace CanBus

def init : CanBus ν := ⟨fun _ => .waiting .start [] [], [], 0, .initial⟩

def setNode (s : CanBus ν) (n : ν) (node : Sender) : CanBus ν :=
  { s with nodes := Function.update s.nodes n node }

def step (s : CanBus ν) : BusAction ν → Option (CanBus ν)
  | .node n a => (a.step .socket (s.nodes n)).map (s.setNode n)
  | .transmit n =>
    match (s.nodes n).bus[(part n s.traffic).length]? with
    | some (.frame f) => some { s with traffic := s.traffic ++ [(n, f)] }
    | _ => some s
  | .receive =>
    match s.traffic[s.read]? with
    | some packet => (handCanFrame s.receiver packet.2).map fun receiver =>
        { s with read := s.read + 1, receiver := receiver }
    | none => some s

/-- Every group is sent to by one node, `owner` of the group, and no frame is begun twice. -/
def Regular (owner : CanPhysicalAddr → ν) (s : CanBus ν) : BusAction ν → Prop
  | .node n a => NoRestart .socket (s.nodes n) a ∧ ∀ frame, a = .sendCanFrame frame →
      Addressed frame.group frame ∧ owner frame.group = n
  | _ => True

/-- The frames for a group that its node has accepted. -/
def sentTo (s : CanBus ν) (owner : CanPhysicalAddr → ν) (g : CanPhysicalAddr) :
    List CanControlFrame :=
  (s.nodes (owner g)).accepted.filter (·.group = g)

/-- The packets for a group that the receiver has read. -/
def readFor (s : CanBus ν) (g : CanPhysicalAddr) : List CanFrame :=
  ((s.traffic.take s.read).map Prod.snd).filter (·.group = g)

/-- The messages of a group. -/
def messagesOf (s : CanBus ν) (g : CanPhysicalAddr) : List CanControlFrame :=
  s.receiver.messages.filter (·.optionCanIdList = [groupCanId g.toNat])

/-- No frame waits, and the receiver has read all packets. -/
structure Idle (s : CanBus ν) : Prop where
  sendDataList : ∀ n, (s.nodes n).sendDataList = []
  bus : ∀ n, (s.nodes n).bus.length ≤ (part n s.traffic).length
  read : s.traffic.length ≤ s.read

/-! ## The invariant -/

variable {owner : CanPhysicalAddr → ν} {s s' : CanBus ν}

/-- The bus has packets of every node in order, and the receiver has handled what it read. -/
structure Carrying (owner : CanPhysicalAddr → ν) (s : CanBus ν) : Prop where
  inOrder : ∀ n, InOrder .socket (s.nodes n)
  addressed : ∀ n, ∀ frame ∈ (s.nodes n).accepted,
    Addressed frame.group frame ∧ owner frame.group = n
  taken : ∀ n, (part n s.traffic).map Wire.frame <+: (s.nodes n).bus
  read_le : s.read ≤ s.traffic.length
  received : run handCanFrame .initial ((s.traffic.take s.read).map Prod.snd) = some s.receiver

lemma part_append (n : ν) (xs ys : List (ν × CanFrame)) :
    part n (xs ++ ys) = part n xs ++ part n ys := by
  simp [part]

/-- The packets of a node that were on the bus. -/
lemma Carrying.part_prefix (h : Carrying owner s) (n : ν) :
    part n s.traffic <+: canFrames (s.nodes n).accepted := by
  obtain ⟨rest, hrest⟩ := h.taken n
  obtain ⟨more, hmore⟩ := (h.inOrder n).sentOnce.1
  rw [wires_socket, ← hrest, List.append_assoc] at hmore
  obtain ⟨front, back, hsplit, hfront, -⟩ := List.map_eq_append_iff.mp hmore.symm
  have : part n s.traffic = front :=
    (List.map_injective_iff.mpr fun f f' hff => Wire.frame.inj hff) hfront.symm
  rw [hsplit, this]
  exact List.prefix_append _ _

lemma Carrying.owner_of_mem (h : Carrying owner s) {n : ν} {f : CanFrame}
    (hmem : (n, f) ∈ s.traffic) : owner f.group = n := by
  have hpart : f ∈ part n s.traffic :=
    List.mem_map.mpr ⟨(n, f), List.mem_filter.mpr ⟨hmem, by simp⟩, rfl⟩
  obtain ⟨frame, hframe, hf⟩ := List.mem_flatMap.mp ((h.part_prefix n).subset hpart)
  obtain ⟨haddressed, howner⟩ := h.addressed n frame hframe
  rw [haddressed.group_of_mem hf]
  exact howner

/-- The packets for a group come from its node. -/
lemma Carrying.filter_group (h : Carrying owner s) {w : List (ν × CanFrame)}
    (hw : w <+: s.traffic) (g : CanPhysicalAddr) :
    (w.map Prod.snd).filter (·.group = g) = (part (owner g) w).filter (·.group = g) := by
  rw [part, List.filter_map, List.filter_map, List.filter_filter]
  refine congrArg _ (List.filter_congr fun a ha => ?_)
  have howner := h.owner_of_mem (hw.subset ha)
  by_cases hg : a.2.group = g
  · simp [hg, ← howner]
  · simp [hg]

lemma Carrying.group_prefix (h : Carrying owner s) {w : List (ν × CanFrame)}
    (hw : w <+: s.traffic) (g : CanPhysicalAddr) :
    (w.map Prod.snd).filter (·.group = g) <+: canFrames (s.sentTo owner g) := by
  rw [h.filter_group hw, sentTo, ← filter_canFrames fun f hf => (h.addressed _ f hf).1]
  exact (((hw.filter _).map _).trans (h.part_prefix (owner g))).filter _

lemma Carrying.addressed_sentTo (h : Carrying owner s) (g : CanPhysicalAddr) :
    ∀ frame ∈ s.sentTo owner g, Addressed g frame := by
  intro frame hframe
  obtain ⟨hmem, hg⟩ := List.mem_filter.mp hframe
  have := (h.addressed _ frame hmem).1
  rwa [of_decide_eq_true hg] at this

/-- **The receiver.** It can handle any first part of what was on the bus, and every group goes
through its own packets alone. -/
lemma Carrying.receive (h : Carrying owner s) {w : List (ν × CanFrame)} (hw : w <+: s.traffic) :
    ∃ r, run handCanFrame .initial (w.map Prod.snd) = some r ∧ r.Quiet ∧
      ∀ g, run (groupStep g) (groupView g .initial) ((w.map Prod.snd).filter (·.group = g)) =
        some (groupView g r) := by
  have hparts : ∀ g, ∃ v, run (groupStep g) (groupView g .initial)
      ((w.map Prod.snd).filter (·.group = g)) = some v := by
    intro g
    have hwhole := run_canFrames (h.addressed_sentTo g) []
    obtain ⟨v, hv, -⟩ := run_groupStep_of_prefix (h.group_prefix hw g) hwhole
    rw [groupView_initial]
    exact ⟨v, hv⟩
  choose ends hends using hparts
  have hpart : ∀ g, part g (w.map fun a => (a.2.group, a.2)) =
      (w.map Prod.snd).filter (·.group = g) := by
    intro g
    rw [part, List.filter_map, List.map_map, List.filter_map]
    rfl
  have hruns : ∀ g, run (groupStep g) (groupView g .initial)
      (part g (w.map fun a => (a.2.group, a.2))) = some (ends g) := by
    intro g
    rw [hpart]
    exact hends g
  obtain ⟨r, hr, hquiet, hviews⟩ :=
    run_of_parts handCanFrame_of_groupStep Receiver.Quiet.initial hruns
  refine ⟨r, ?_, hquiet, fun g => ?_⟩
  · rw [← hr, List.map_map]
    rfl
  · rw [hends, hviews]

/-- A node puts packets on the bus and accepts frames, and takes nothing back. -/
lemma sender_grows {m : Medium} {x x' : Sender} {a : SendAction} (h : a.step m x = some x') :
    x.bus <+: x'.bus ∧ (x'.accepted = x.accepted ∨
      ∃ frame, a = .sendCanFrame frame ∧ x'.accepted = x.accepted ++ [frame]) := by
  cases a with
  | sendCanFrame frame =>
    obtain rfl := Option.some.inj h
    rw [sendCanFrame]
    split_ifs
    · exact ⟨List.prefix_refl _, .inl rfl⟩
    · exact ⟨List.prefix_refl _, .inl rfl⟩
    · exact ⟨List.prefix_refl _, .inr ⟨frame, rfl, rfl⟩⟩
  | onWrite results =>
    obtain rfl := Option.some.inj h
    rw [onWrite]
    split_ifs
    · exact ⟨List.prefix_append _ _, .inl rfl⟩
    · exact ⟨List.prefix_refl _, .inl rfl⟩
    · exact ⟨List.prefix_refl _, .inl rfl⟩
  | setDeviceState status =>
    obtain rfl := Option.some.inj h
    exact ⟨List.prefix_refl _, .inl rfl⟩
  | initSerialProxy commands =>
    obtain rfl := Option.some.inj h
    exact ⟨List.prefix_refl _, .inl rfl⟩

@[simp] lemma setNode_self (s : CanBus ν) (n : ν) (node : Sender) :
    (s.setNode n node).nodes n = node :=
  Function.update_self _ _ _

lemma setNode_of_ne {k n : ν} (hk : k ≠ n) (s : CanBus ν) (node : Sender) :
    (s.setNode n node).nodes k = s.nodes k :=
  Function.update_of_ne hk _ _

/-- A node does something. -/
lemma Carrying.node (h : Carrying owner s) {n : ν} {a : SendAction}
    (hok : Regular owner s (.node n a)) {node : Sender}
    (hnode : a.step .socket (s.nodes n) = some node) :
    Carrying owner (s.setNode n node) := by
  obtain ⟨hbus, haccepted⟩ := sender_grows hnode
  obtain ⟨hrestart, hframe⟩ := hok
  refine ⟨fun k => ?_, fun k frame hmem => ?_, fun k => ?_, h.read_le, h.received⟩
  · by_cases hk : k = n
    · subst hk
      rw [setNode_self]
      exact (h.inOrder k).step hrestart hnode
    · rw [setNode_of_ne hk]
      exact h.inOrder k
  · by_cases hk : k = n
    · subst hk
      rw [setNode_self] at hmem
      rcases haccepted with hsame | ⟨frame', ha, hnew⟩
      · exact h.addressed k frame (hsame ▸ hmem)
      · rw [hnew] at hmem
        rcases List.mem_append.mp hmem with hmem | hmem
        · exact h.addressed k frame hmem
        · rw [List.mem_singleton.mp hmem]
          exact hframe frame' ha
    · rw [setNode_of_ne hk] at hmem
      exact h.addressed k frame hmem
  · by_cases hk : k = n
    · subst hk
      rw [setNode_self]
      exact (h.taken k).trans hbus
    · rw [setNode_of_ne hk]
      exact h.taken k

lemma prefix_concat {α : Type} {xs ys : List α} {y : α} (h : xs <+: ys)
    (hy : ys[xs.length]? = some y) : xs ++ [y] <+: ys := by
  obtain ⟨rest, rfl⟩ := h
  rw [List.getElem?_append_right le_rfl, Nat.sub_self] at hy
  obtain ⟨more, rfl⟩ := List.head?_eq_some_iff.mp (List.head?_eq_getElem? (l := rest) ▸ hy)
  exact ⟨more, by simp⟩

/-- The bus takes a packet. -/
lemma Carrying.transmit (h : Carrying owner s) {n : ν} {f : CanFrame}
    (hf : (s.nodes n).bus[(part n s.traffic).length]? = some (.frame f)) :
    Carrying owner { s with traffic := s.traffic ++ [(n, f)] } := by
  refine ⟨h.inOrder, h.addressed, fun k => ?_, ?_, ?_⟩
  · rw [part_append]
    by_cases hk : k = n
    · subst hk
      rw [part_cons_self, part_nil, List.map_append]
      exact prefix_concat (h.taken k) (by rw [List.length_map]; exact hf)
    · rw [part_cons_ne (Ne.symm hk), part_nil, List.append_nil]
      exact h.taken k
  · rw [List.length_append]
    exact Nat.le_add_right_of_le h.read_le
  · rw [List.take_append_of_le_length h.read_le]
    exact h.received

/-- The receiver reads a packet, and handles it. -/
lemma Carrying.read_one (h : Carrying owner s) {packet : ν × CanFrame}
    (hpacket : s.traffic[s.read]? = some packet) :
    ∃ r, handCanFrame s.receiver packet.2 = some r ∧
      Carrying owner { s with read := s.read + 1, receiver := r } := by
  obtain ⟨r, hr, -, -⟩ := h.receive (List.take_prefix (s.read + 1) s.traffic)
  have htake : (s.traffic.take (s.read + 1)).map Prod.snd =
      (s.traffic.take s.read).map Prod.snd ++ [packet.2] := by
    rw [List.take_add_one, hpacket, List.map_append]
    rfl
  have hr' := hr
  rw [htake, run_append, h.received, Option.bind_some, run_cons_eq_some] at hr'
  obtain ⟨r', hstep, hnil⟩ := hr'
  obtain rfl := Option.some.inj hnil
  exact ⟨r', hstep, h.inOrder, h.addressed, h.taken, (List.getElem?_eq_some_iff.mp hpacket).1, hr⟩

lemma Carrying.step (h : Carrying owner s) {a : BusAction ν} (hok : Regular owner s a) :
    ∃ s', CanBus.step s a = some s' ∧ Carrying owner s' := by
  cases a with
  | node n a =>
    obtain ⟨node, hnode⟩ : ∃ node, a.step .socket (s.nodes n) = some node := by
      cases a <;> exact ⟨_, rfl⟩
    exact ⟨_, by rw [CanBus.step, hnode, Option.map_some], h.node hok hnode⟩
  | transmit n =>
    rw [CanBus.step]
    split
    · rename_i f hf
      exact ⟨_, rfl, h.transmit hf⟩
    · exact ⟨s, rfl, h⟩
  | receive =>
    rw [CanBus.step]
    split
    · rename_i packet hpacket
      obtain ⟨r, hr, hcarrying⟩ := h.read_one hpacket
      exact ⟨_, by rw [hr, Option.map_some], hcarrying⟩
    · exact ⟨s, rfl, h⟩

lemma carrying_init (owner : CanPhysicalAddr → ν) : Carrying owner init :=
  ⟨fun _ => .waiting _ _ _, fun _ _ h => absurd h List.not_mem_nil, fun _ => List.prefix_refl _,
    le_rfl, rfl⟩

/-! ## What arrives -/

/-- What holds for a group: its messages are first ones of the frames that its node has accepted,
in order; a frame is among them as soon as all its packets have been read; and in an idle system
they are all of the frames, and nothing is left in the cache. -/
structure Delivers (owner : CanPhysicalAddr → ν) (s : CanBus ν) (g : CanPhysicalAddr) : Prop where
  in_order : s.messagesOf g <+:
    (s.sentTo owner g).map (CanControlFrame.delivered (groupCanId g.toNat))
  prompt : ∀ frames, frames <+: s.sentTo owner g → canFrames frames <+: s.readFor g →
    frames.map (CanControlFrame.delivered (groupCanId g.toNat)) <+: s.messagesOf g
  complete : s.Idle → s.messagesOf g =
      (s.sentTo owner g).map (CanControlFrame.delivered (groupCanId g.toNat)) ∧
    ∀ cache, s.receiver.canFrameCache (groupCanId g.toNat) = some cache → cache.data = []

/-- In an idle system the receiver has read every packet. -/
lemma Carrying.readFor_of_idle (h : Carrying owner s) (hidle : s.Idle) (g : CanPhysicalAddr) :
    s.readFor g = canFrames (s.sentTo owner g) := by
  have hbus := (h.inOrder (owner g)).sentOnce.2 (hidle.sendDataList _)
  have hlen := (h.taken (owner g)).length_le
  have hall : (part (owner g) s.traffic).map Wire.frame = (s.nodes (owner g)).bus :=
    (h.taken (owner g)).eq_of_length_le (by rw [List.length_map]; exact hidle.bus _)
  rw [hbus, wires_socket] at hall
  have hpart := (List.map_injective_iff.mpr fun f f' hff => Wire.frame.inj hff) hall
  rw [readFor, List.take_of_length_le hidle.read, h.filter_group (List.prefix_refl _), hpart,
    sentTo, filter_canFrames fun f hf => (h.addressed _ f hf).1]

lemma Carrying.delivers (h : Carrying owner s) (g : CanPhysicalAddr) : Delivers owner s g := by
  obtain ⟨r, hr, hquiet, hviews⟩ := h.receive (List.take_prefix s.read s.traffic)
  obtain rfl : s.receiver = r := Option.some.inj (h.received.symm.trans hr)
  have hview := hviews g
  rw [groupView_initial] at hview
  have hwhole := run_canFrames (h.addressed_sentTo g) []
  refine ⟨?_, fun frames hframes hread => ?_, fun hidle => ?_⟩
  · obtain ⟨u, hu, hmessages⟩ :=
      run_groupStep_of_prefix (h.group_prefix (List.take_prefix s.read s.traffic) g) hwhole
    obtain rfl := Option.some.inj (hview.symm.trans hu)
    exact hmessages
  · obtain ⟨u, hu, hmessages⟩ := run_groupStep_of_prefix hread hview
    rw [run_canFrames (fun f hf => h.addressed_sentTo g f (hframes.subset hf)) []] at hu
    rw [← Option.some.inj hu] at hmessages
    exact hmessages
  · have hread : ((s.traffic.take s.read).map Prod.snd).filter (·.group = g) =
        canFrames (s.sentTo owner g) := h.readFor_of_idle hidle g
    rw [hread, hwhole] at hview
    have heq := Option.some.inj hview
    refine ⟨(congrArg Prod.snd heq).symm, fun cache hcache => ?_⟩
    have hfirst := congrArg Prod.fst heq
    rw [groupView, hcache] at hfirst
    rw [← Option.some.inj hfirst]
    rfl

/-- **The bus.** Whatever the nodes, the bus and the receiver do in which order: as long as only
one node sends to each group and no frame is begun twice, the receiver handles every packet
without an error, and the frames of every group arrive, each of them once and in order, as soon
as their packets have been read. -/
theorem can_bus_delivers (owner : CanPhysicalAddr → ν) (as : List (BusAction ν))
    (h : AllSteps step (Regular owner) (init : CanBus ν) as) :
    ∃ s, run step (init : CanBus ν) as = some s ∧ s.receiver.deviceErrors = 0 ∧
      (∀ m ∈ s.receiver.messages, ∃ g : CanPhysicalAddr, m.optionCanIdList = [groupCanId g.toNat]) ∧
      ∀ g, Delivers owner s g := by
  obtain ⟨s, hs, hcarrying⟩ :=
    run_total_of_allSteps (fun s a hI hok => hI.step hok) (carrying_init owner) h
  obtain ⟨r, hr, hquiet, -⟩ := hcarrying.receive (List.take_prefix s.read s.traffic)
  obtain rfl : s.receiver = r := Option.some.inj (hcarrying.received.symm.trans hr)
  exact ⟨s, hs, hquiet.deviceErrors, hquiet.messages, hcarrying.delivers⟩

/-- A frame of one packet for the application, which `sendFrameToSpecificPhysicalAddr` builds. -/
def boardFrame : CanControlFrame :=
  ⟨0, [0x55, 0xAA, 0xFB, 0x01, 0x03, 0x01, 0x00], [0x2001, 0x2001], false⟩

lemma boardFrame_addressed : Addressed .applicationGroup boardFrame :=
  ⟨.inr ⟨[0x01, 0x03, 0x01, 0x00], by decide⟩, ⟨by decide, by decide⟩, by decide⟩

lemma handFrame_addressed : Addressed .hand1PGroup handFrame :=
  ⟨.inl ⟨[0x07], 1, 0x301, by decide⟩, ⟨by decide, by decide⟩, by decide⟩

/-- Two nodes send, and the bus takes their packets in turns. -/
def twoNodesRun : List (BusAction Bool) :=
  [.node false (.sendCanFrame handFrame), .node true (.sendCanFrame boardFrame),
    .node false (.onWrite []), .node true (.onWrite []), .transmit false, .transmit true,
    .receive, .transmit false, .receive, .receive]

/-- The node of the application. -/
def twoNodesOwner (g : CanPhysicalAddr) : Bool := decide (g = .applicationGroup)

lemma twoNodesRun_regular : AllSteps step (Regular twoNodesOwner) init twoNodesRun := by
  refine (allSteps_cons_of_eq_some rfl).mpr ⟨⟨trivial, fun frame hframe => ?_⟩, ?_⟩
  · obtain rfl := SendAction.sendCanFrame.inj hframe
    exact ⟨handFrame_addressed, rfl⟩
  refine (allSteps_cons_of_eq_some rfl).mpr ⟨⟨trivial, fun frame hframe => ?_⟩, ?_⟩
  · obtain rfl := SendAction.sendCanFrame.inj hframe
    exact ⟨boardFrame_addressed, rfl⟩
  refine (allSteps_cons_of_eq_some rfl).mpr ⟨⟨fun _ _ => rfl, fun frame hframe => ?_⟩, ?_⟩
  · exact absurd hframe (by simp)
  refine (allSteps_cons_of_eq_some rfl).mpr ⟨⟨fun _ _ => rfl, fun frame hframe => ?_⟩, ?_⟩
  · exact absurd hframe (by simp)
  simp [AllSteps, Regular]

theorem can_bus_delivers_twoNodes :
    ∃ s, run step (init : CanBus Bool) twoNodesRun = some s ∧ s.receiver.deviceErrors = 0 ∧
      (∀ m ∈ s.receiver.messages, ∃ g : CanPhysicalAddr, m.optionCanIdList = [groupCanId g.toNat]) ∧
      ∀ g, Delivers twoNodesOwner s g :=
  can_bus_delivers twoNodesOwner twoNodesRun twoNodesRun_regular

end CanBus

end SignalEventLoop.Can
