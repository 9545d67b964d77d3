/-
# Sending frames

`CanUtilSocket::sendCanFrame` and `CanUtilSocket::on_write` (`imp/can-utils/can-util-socket.cpp`),
and `CanSerialProxy::on_write` (`imp/can-utils/can-serial-proxy.cpp`).  The frames wait in a list.
Each call of `on_write` sends the frames packet by packet until the list is empty or a send
fails; a frame is taken off the list behind its last packet.

How far a frame got is a local variable of `on_write`: a frame that was cut by a send that fails
is sent from its beginning by the next call.  So every packet is sent once if and only if no
call gets a packet out while the first frame of the list has packets on the bus already.
-/
import SignalEventLoop.Lib.Run
import SignalEventLoop.Can.CanSerial

namespace SignalEventLoop.Can

open Lib

/-! ## The loops of `on_write` -/

/-- The result of one `send` or `write`: success, `EAGAIN`, `EINTR` or another error. -/
inductive SendResult where
  | sent
  | again
  | interrupted
  | failed
deriving DecidableEq

/-- The class whose `on_write` sends. -/
inductive Medium where
  | socket
  | serial
deriving DecidableEq

/-- What is put on the bus with one call. -/
inductive Wire where
  | frame (f : CanFrame)
  | bytes (b : List UInt8)
deriving DecidableEq

def Medium.wire : Medium → ℕ × List UInt8 → Wire
  | socket, packet => .frame (toCanFrame packet)
  | serial, packet => .bytes (encodeSerial packet)

/-- How a loop ends: behind the last packet, at a send that would block, or with an error for
which the socket is opened again. -/
inductive LoopEnd where
  | finished
  | blocked
  | broken
deriving DecidableEq

/-- The end of the loop at a send that did not succeed. -/
def Medium.stop : Medium → SendResult → LoopEnd
  | socket, .failed => .broken
  | _, _ => .blocked

/-- The loop over the ids of a frame, from the byte `send_offset` on: what was sent, how the loop
ended, and the results that are left.  A send succeeds when no result is given for it. -/
def writeFrame (m : Medium) (data : List UInt8) :
    List ℕ → ℕ → List SendResult → List Wire × LoopEnd × List SendResult
  | [], _, results => ([], .finished, results)
  | canId :: ids, send_offset, results =>
    let send_len := if send_offset + 8 ≤ data.length then 8 else data.length - send_offset
    if send_len = 0 then ([], .finished, results)
    else if results.headD .sent = .sent then
      let (out, loopEnd, rest) := writeFrame m data ids (send_offset + send_len) results.tail
      (m.wire (canId, slice data send_offset send_len) :: out, loopEnd, rest)
    else ([], m.stop (results.headD .sent), results.tail)

/-- What a call of `on_write` did: what was sent, the list that is left, how the loop ended, and
how many packets of the first frame that is left were sent. -/
structure Written where
  out : List Wire
  queue : List CanControlFrame
  loopEnd : LoopEnd
  begun : ℕ

/-- The loop over the frames. -/
def writeQueue (m : Medium) : List CanControlFrame → List SendResult → Written
  | [], _ => ⟨[], [], .finished, 0⟩
  | frame :: queue, results =>
    let (out, loopEnd, rest) := writeFrame m frame.data frame.optionCanIdList 0 results
    if loopEnd = .finished then
      let w := writeQueue m queue rest
      { w with out := out ++ w.out }
    else ⟨out, frame :: queue, loopEnd, out.length⟩

/-! ## The sender -/

/-- `CanDeviceStatus`. -/
inductive CanDeviceStatus where
  | start
  | stop
  | reconnecting
deriving DecidableEq

/-- `bus` is everything that was sent and `accepted` every frame that was ever put into the list.
`begun` counts the packets of the first frame of the list that are on the bus. -/
structure Sender where
  deviceStatus : CanDeviceStatus
  initDataList : List String
  sendDataList : List CanControlFrame
  bus : List Wire
  accepted : List CanControlFrame
  begun : ℕ
deriving DecidableEq

def MaxCanFrameCacheSize : ℕ := 8192

/-- `sendCanFrame`; there is a proxy when the medium is the serial port. -/
def sendCanFrame (m : Medium) (s : Sender) (frame : CanControlFrame) : Sender :=
  if s.deviceStatus ≠ .start ∧ m ≠ .serial then s
  else if s.sendDataList.length > MaxCanFrameCacheSize then s
  else { s with sendDataList := s.sendDataList ++ [frame], accepted := s.accepted ++ [frame] }

/-- The part of both `on_write` that sends the frames. -/
def sendFrames (m : Medium) (s : Sender) (results : List SendResult) : Sender :=
  let w := writeQueue m s.sendDataList results
  { s with
    deviceStatus := if w.loopEnd = .broken then .reconnecting else s.deviceStatus
    sendDataList := w.queue
    bus := s.bus ++ w.out
    begun := if w.out = [] then s.begun else w.begun }

/-- Whether a call of `on_write` comes to the frames. -/
def Ready : Medium → Sender → Prop
  | .socket, s => s.deviceStatus = .start
  | .serial, s => s.initDataList = []

instance decidableReady : (m : Medium) → (s : Sender) → Decidable (Ready m s)
  | .socket, s => inferInstanceAs (Decidable (s.deviceStatus = .start))
  | .serial, s => inferInstanceAs (Decidable (s.initDataList = []))

/-- `on_write`.  The proxy first writes its own commands, one with each call. -/
def onWrite (m : Medium) (s : Sender) (results : List SendResult) : Sender :=
  if Ready m s then sendFrames m s results
  else if m = .serial ∧ results.headD .sent = .sent then
    { s with initDataList := s.initDataList.tail }
  else s

inductive SendAction where
  | sendCanFrame (frame : CanControlFrame)
  | onWrite (results : List SendResult)
  /-- `startCan`, `stopCan` and `on_reconnect`. -/
  | setDeviceState (status : CanDeviceStatus)
  /-- `initSerialProxy`. -/
  | initSerialProxy (commands : List String)

def SendAction.step (m : Medium) (s : Sender) : SendAction → Option Sender
  | .sendCanFrame frame => some (Can.sendCanFrame m s frame)
  | .onWrite results => some (Can.onWrite m s results)
  | .setDeviceState status => some { s with deviceStatus := status }
  | .initSerialProxy commands => some { s with initDataList := commands }

/-- The packets of frames, as they are put on the bus. -/
def wires (m : Medium) (frames : List CanControlFrame) : List Wire :=
  frames.flatMap fun frame => frame.packets.map m.wire

/-- Every packet is sent once and in order: the bus has a first part of the packets, and all of
them when no frame waits. -/
def SentOnce (m : Medium) (s : Sender) : Prop :=
  s.bus <+: wires m s.accepted ∧ (s.sendDataList = [] → s.bus = wires m s.accepted)

/-- The call does not get a packet out while the first frame has packets on the bus already. -/
def NoRestart (m : Medium) (s : Sender) : SendAction → Prop
  | .onWrite results => Ready m s → results.headD .sent = .sent → s.begun = 0
  | _ => True

/-! ## What a call sends -/

variable {m : Medium}

@[simp] lemma wires_nil : wires m [] = [] := rfl

@[simp] lemma wires_cons (frame : CanControlFrame) (frames : List CanControlFrame) :
    wires m (frame :: frames) = frame.packets.map m.wire ++ wires m frames := rfl

lemma wires_append (xs ys : List CanControlFrame) :
    wires m (xs ++ ys) = wires m xs ++ wires m ys := by
  simp [wires]

lemma Medium.stop_ne_finished (r : SendResult) : m.stop r ≠ .finished := by
  cases m <;> cases r <;> decide

/-- The loop over a frame sends all of its packets, or a first part that is not all of them. -/
lemma writeFrame_spec (m : Medium) (data : List UInt8) (ids : List ℕ) (offset : ℕ)
    (results : List SendResult) :
    ((writeFrame m data ids offset results).2.1 = .finished ∧
      (writeFrame m data ids offset results).1 = (packetsFrom data ids offset).map m.wire) ∨
    ((writeFrame m data ids offset results).2.1 ≠ .finished ∧
      ∃ n < (packetsFrom data ids offset).length,
        (writeFrame m data ids offset results).1 =
          ((packetsFrom data ids offset).take n).map m.wire) := by
  induction ids generalizing offset results with
  | nil => exact .inl ⟨rfl, rfl⟩
  | cons canId ids ih =>
    simp only [writeFrame, packetsFrom]
    set send_len := if offset + 8 ≤ data.length then 8 else data.length - offset
    by_cases hlen : send_len = 0
    · simp [hlen]
    simp only [if_neg hlen]
    by_cases hsent : results.headD .sent = .sent
    · simp only [if_pos hsent]
      rcases ih (offset + send_len) results.tail with ⟨hend, hout⟩ | ⟨hend, n, hn, hout⟩
      · exact .inl ⟨hend, by rw [hout, List.map_cons]⟩
      · refine .inr ⟨hend, n + 1, by simpa using hn, ?_⟩
        rw [hout, List.take_succ_cons, List.map_cons]
    · simp only [if_neg hsent]
      exact .inr ⟨Medium.stop_ne_finished _, 0, by simp, by simp⟩

/-- The first result decides whether the loop over a frame with a packet sends anything. -/
lemma writeFrame_head {data : List UInt8} {ids : List ℕ} {offset : ℕ} {packet : ℕ × List UInt8}
    {packets : List (ℕ × List UInt8)} (h : packetsFrom data ids offset = packet :: packets)
    (results : List SendResult) :
    (results.headD .sent = .sent ∧
      (writeFrame m data ids offset results).1.head? = some (m.wire packet)) ∨
    (results.headD .sent ≠ .sent ∧ (writeFrame m data ids offset results).1 = [] ∧
      (writeFrame m data ids offset results).2.1 ≠ .finished) := by
  cases ids with
  | nil => simp [packetsFrom] at h
  | cons canId ids =>
    simp only [packetsFrom] at h
    simp only [writeFrame]
    set send_len := if offset + 8 ≤ data.length then 8 else data.length - offset
    by_cases hlen : send_len = 0
    · simp [hlen] at h
    rw [if_neg hlen, List.cons.injEq] at h
    simp only [if_neg hlen]
    by_cases hsent : results.headD .sent = .sent
    · simp only [if_pos hsent]
      exact .inl ⟨hsent, by rw [← h.1, List.head?_cons]⟩
    · simp only [if_neg hsent]
      exact .inr ⟨hsent, by trivial, Medium.stop_ne_finished _⟩

/-- What was sent, followed by what is left of the list, are all packets. -/
lemma writeQueue_spec (m : Medium) (queue : List CanControlFrame) (results : List SendResult) :
    (writeQueue m queue results).out ++
        (wires m (writeQueue m queue results).queue).drop (writeQueue m queue results).begun =
      wires m queue ∧
    ((writeQueue m queue results).begun = 0 ∨
      ∃ frame rest, (writeQueue m queue results).queue = frame :: rest ∧
        (writeQueue m queue results).begun < frame.packets.length) ∧
    (writeQueue m queue results).begun ≤ (writeQueue m queue results).out.length := by
  induction queue generalizing results with
  | nil => exact ⟨rfl, .inl rfl, le_rfl⟩
  | cons frame queue ih =>
    simp only [writeQueue]
    rcases writeFrame_spec m frame.data frame.optionCanIdList 0 results with
      ⟨hend, hout⟩ | ⟨hend, n, hn, hout⟩
    · obtain ⟨hall, hbegun, hle⟩ :=
        ih (writeFrame m frame.data frame.optionCanIdList 0 results).2.2
      simp only [if_pos hend]
      refine ⟨?_, hbegun, ?_⟩
      · rw [List.append_assoc, hall, hout]
        rfl
      · rw [List.length_append]
        exact hle.trans (Nat.le_add_left _ _)
    · have hlen : (writeFrame m frame.data frame.optionCanIdList 0 results).1.length = n := by
        rw [hout, List.length_map, List.length_take]
        omega
      simp only [if_neg hend]
      refine ⟨?_, .inr ⟨frame, queue, rfl, ?_⟩, le_rfl⟩
      · rw [hlen, hout, wires_cons, List.drop_append_of_le_length (by simp; exact hn.le),
          ← List.append_assoc, ← List.map_drop, ← List.map_append]
        exact congrArg (· ++ wires m queue) (congrArg _ (List.take_append_drop n _))
      · rw [hlen]
        exact hn

/-- The first result decides for the whole call. -/
lemma writeQueue_head {frame : CanControlFrame} {packet : ℕ × List UInt8}
    {packets : List (ℕ × List UInt8)} (h : frame.packets = packet :: packets)
    (queue : List CanControlFrame) (results : List SendResult) :
    (results.headD .sent = .sent ∧
      (writeQueue m (frame :: queue) results).out.head? = some (m.wire packet)) ∨
    (results.headD .sent ≠ .sent ∧ (writeQueue m (frame :: queue) results).out = [] ∧
      (writeQueue m (frame :: queue) results).queue = frame :: queue) := by
  simp only [writeQueue]
  rcases writeFrame_head (m := m) h results with ⟨hsent, hhead⟩ | ⟨hfails, hout, hend⟩
  · refine .inl ⟨hsent, ?_⟩
    split_ifs
    · rw [List.head?_append, hhead]
      rfl
    · exact hhead
  · simp only [if_neg hend]
    exact .inr ⟨hfails, hout, by trivial⟩

/-! ## The invariant -/

/-- The bus has every packet of the accepted frames but those that the list still has to send;
the first `begun` packets of the list are among them. -/
structure InOrder (m : Medium) (s : Sender) : Prop where
  bus : s.bus ++ (wires m s.sendDataList).drop s.begun = wires m s.accepted
  begun : s.begun = 0 ∨ ∃ frame rest, s.sendDataList = frame :: rest ∧
    s.begun < frame.packets.length

lemma InOrder.sentOnce {s : Sender} (h : InOrder m s) : SentOnce m s := by
  refine ⟨⟨_, h.bus⟩, fun hempty => ?_⟩
  have := h.bus
  rwa [hempty, wires_nil, List.drop_nil, List.append_nil] at this

/-- A frame that was begun has a packet, and more than were sent. -/
lemma InOrder.exists_begun {s : Sender} (h : InOrder m s) (hne : s.begun ≠ 0) :
    ∃ frame rest packet packets, s.sendDataList = frame :: rest ∧
      frame.packets = packet :: packets ∧ s.begun < frame.packets.length := by
  obtain ⟨frame, rest, hqueue, hlt⟩ := h.begun.resolve_left hne
  obtain ⟨packet, packets, hpackets⟩ :=
    List.exists_cons_of_length_pos (Nat.zero_lt_of_lt hlt)
  exact ⟨frame, rest, packet, packets, hqueue, hpackets, hlt⟩

lemma InOrder.sendFrames {s : Sender} {results : List SendResult} (h : InOrder m s)
    (hok : results.headD .sent = .sent → s.begun = 0) : InOrder m (sendFrames m s results) := by
  obtain ⟨hall, hbegun, hle⟩ := writeQueue_spec m s.sendDataList results
  simp only [Can.sendFrames]
  by_cases hzero : s.begun = 0
  · have hbus := h.bus
    rw [hzero, List.drop_zero] at hbus
    by_cases hout : (writeQueue m s.sendDataList results).out = []
    · rw [hout, List.length_nil, Nat.le_zero] at hle
      rw [hout, List.nil_append, hle, List.drop_zero] at hall
      refine ⟨?_, ?_⟩
      · simp only [hout, if_true, hzero, List.append_nil, List.drop_zero]
        rw [hall, hbus]
      · simp only [hout, if_true]
        exact .inl hzero
    · refine ⟨?_, ?_⟩
      · simp only [if_neg hout]
        rw [List.append_assoc, hall, hbus]
      · simp only [if_neg hout]
        exact hbegun
  · -- the first frame was begun, so that the first send fails and nothing changes
    obtain ⟨frame, rest, packet, packets, hqueue, hpackets, -⟩ := h.exists_begun hzero
    rcases writeQueue_head (m := m) hpackets rest results with ⟨hsent, -⟩ | ⟨-, hout, hsame⟩
    · exact absurd (hok hsent) hzero
    · rw [← hqueue] at hout hsame
      refine ⟨?_, ?_⟩
      · simp only [hout, hsame, List.append_nil, if_true]
        exact h.bus
      · simp only [hout, hsame, if_true]
        exact h.begun

lemma InOrder.step {s s' : Sender} {a : SendAction} (h : InOrder m s) (hok : NoRestart m s a)
    (hstep : a.step m s = some s') : InOrder m s' := by
  cases a with
  | sendCanFrame frame =>
    obtain rfl := Option.some.inj hstep
    simp only [Can.sendCanFrame]
    split_ifs
    · exact h
    · exact h
    · refine ⟨?_, ?_⟩
      · have hle : s.begun ≤ (wires m s.sendDataList).length := by
          rcases h.begun with hzero | ⟨first, rest, hqueue, hlt⟩
          · omega
          · rw [hqueue, wires_cons, List.length_append, List.length_map]
            omega
        simp only [wires_append]
        rw [List.drop_append_of_le_length hle, ← List.append_assoc, h.bus]
      · rcases h.begun with hzero | ⟨first, rest, hqueue, hlt⟩
        · exact .inl hzero
        · exact .inr ⟨first, rest ++ [frame], by simp [hqueue], hlt⟩
  | onWrite results =>
    obtain rfl := Option.some.inj hstep
    rw [Can.onWrite]
    split_ifs with hready
    · exact h.sendFrames (hok hready)
    · exact ⟨h.bus, h.begun⟩
    · exact h
  | setDeviceState status =>
    obtain rfl := Option.some.inj hstep
    exact ⟨h.bus, h.begun⟩
  | initSerialProxy commands =>
    obtain rfl := Option.some.inj hstep
    exact ⟨h.bus, h.begun⟩

/-! ## The numbers of the packets -/

/-- A frame for a group, with up to 247 or 252 bytes. -/
def BuiltForGroup (frame : CanControlFrame) : Prop :=
  (∃ (g : ℕ) (data : List UInt8) (localAddr remoteAddr : UInt16), 1 ≤ data.length ∧
    data.length ≤ 247 ∧ packCanFrame data localAddr remoteAddr (groupCanId g) = some frame) ∨
  ∃ (physicalAddr : UInt16) (data : List UInt8), 1 ≤ data.length ∧ data.length ≤ 252 ∧
    specificFrame physicalAddr data = some frame

/-- The address of the group lies above the 13 lower bits. -/
lemma groupCanId_eq (g : ℕ) : ∃ x < 2 ^ 16, groupCanId g = (x <<< 13) ||| 1 := by
  set d := g % 2 ^ 16 with hd
  have hH : ∀ n : ℕ, n &&& 0x7FF = n % 2 ^ 11 := fun n => Nat.and_two_pow_sub_one_eq_mod n 11
  have hL : ∀ n : ℕ, n &&& 0xFF = n % 2 ^ 8 := fun n => Nat.and_two_pow_sub_one_eq_mod n 8
  have h5 : ∀ n : ℕ, n &&& 0x1f = n % 2 ^ 5 := fun n => Nat.and_two_pow_sub_one_eq_mod n 5
  have h18 : ∀ n : ℕ, n &&& 0x3FFFF = n % 2 ^ 18 := fun n => Nat.and_two_pow_sub_one_eq_mod n 18
  refine ⟨d, Nat.mod_lt _ (by decide), ?_⟩
  have hext : ((d % 2 ^ 8 % 2 ^ 5) <<< 13 ||| 1) = d % 2 ^ 8 % 2 ^ 5 * 2 ^ 13 + 1 := by
    rw [← Nat.shiftLeft_add_eq_or_of_lt (by omega), Nat.shiftLeft_eq]
  have hstd : (d >>> 8) <<< 3 ||| (d % 2 ^ 8) >>> 5 = d / 2 ^ 8 * 2 ^ 3 + d % 2 ^ 8 / 2 ^ 5 := by
    rw [← Nat.shiftLeft_add_eq_or_of_lt (by rw [Nat.shiftRight_eq_div_pow]; omega),
      Nat.shiftLeft_eq, Nat.shiftRight_eq_div_pow, Nat.shiftRight_eq_div_pow]
  simp only [groupCanId, physicalAddrToCanId, CAN_CONTROL_OPTION_READ_WRITE, ← hd, hH, hL, h5, h18,
    Nat.zero_shiftLeft, Nat.or_zero]
  rw [show 1 % 2 ^ 5 = 1 from rfl, hext, hstd, ← Nat.shiftLeft_add_eq_or_of_lt (by omega),
    ← Nat.shiftLeft_add_eq_or_of_lt (by omega), Nat.shiftLeft_eq, Nat.shiftLeft_eq]
  omega

/-- The number of a packet can be read off its id. -/
lemma packetId_groupCanId (g : ℕ) {i : ℕ} (hi : i < 32) :
    packetId (groupCanId g) i / 2 ^ 5 % 2 ^ 8 = i ∧ packetId (groupCanId g) i < 2 ^ 29 := by
  obtain ⟨x, hx, hg⟩ := groupCanId_eq g
  have hid : packetId (groupCanId g) i = x * 2 ^ 13 + (i * 2 ^ 5 + 1) := by
    rw [packetId, hg, Nat.or_assoc, Nat.or_comm 1,
      ← Nat.shiftLeft_add_eq_or_of_lt (i := 5) (by omega),
      ← Nat.shiftLeft_add_eq_or_of_lt (by rw [Nat.shiftLeft_eq]; omega), Nat.shiftLeft_eq,
      Nat.shiftLeft_eq]
  rw [hid]
  omega

/-- The packet at a position has the id at this position, and there is one for every 8 bytes. -/
lemma packetsFrom_getElem? (data : List UInt8) (ids : List ℕ) (offset : ℕ) {j : ℕ}
    {packet : ℕ × List UInt8} (h : (packetsFrom data ids offset)[j]? = some packet) :
    ids[j]? = some packet.1 ∧ offset + 8 * j < data.length := by
  induction ids generalizing offset j with
  | nil => simp [packetsFrom] at h
  | cons canId ids ih =>
    simp only [packetsFrom] at h
    set send_len := if offset + 8 ≤ data.length then 8 else data.length - offset with hlen
    by_cases hzero : send_len = 0
    · simp [hzero] at h
    rw [if_neg hzero] at h
    cases j with
    | zero =>
      obtain rfl := Option.some.inj h
      refine ⟨rfl, ?_⟩
      split_ifs at hlen with hle <;> omega
    | succ j =>
      obtain ⟨hid, hlt⟩ := ih (offset + send_len) h
      refine ⟨hid, ?_⟩
      split_ifs at hlen with hle <;> omega

/-- The packets of a frame for a group have ids of 29 bits, and no two of them the same. -/
lemma BuiltForGroup.packets {frame : CanControlFrame} (h : BuiltForGroup frame) :
    ∃ g n, n ≤ 32 ∧ ∀ j packet, frame.packets[j]? = some packet →
      j < n ∧ packet.1 = packetId (groupCanId g) (n - 1 - j) := by
  -- the ids are a countdown, and perhaps one more that no packet uses
  obtain ⟨g, extra, hlt, hids⟩ : ∃ g extra, frame.data.length < 2 ^ 8 ∧
      frame.optionCanIdList =
        countdown (groupCanId g) ((frame.data.length + 7) / 8) ++ extra := by
    rcases h with ⟨g, data, localAddr, remoteAddr, hpos, hle, hpack⟩ |
      ⟨physicalAddr, data, hpos, hle, hspecific⟩
    · obtain ⟨frame', hpack', hp, hids⟩ :=
        packCanFrame_packed localAddr remoteAddr (groupCanId g) hpos hle
      obtain rfl : frame' = frame := Option.some.inj (hpack'.symm.trans hpack)
      exact ⟨g, [], hp.length_lt, by rw [hids, List.append_nil]⟩
    · obtain ⟨frame', hspecific', -, hlt, hids⟩ := specificFrame_eq_some physicalAddr hpos hle
      obtain rfl : frame' = frame := Option.some.inj (hspecific'.symm.trans hspecific)
      exact ⟨_, _, hlt, hids⟩
  refine ⟨g, (frame.data.length + 7) / 8, by omega, ?_⟩
  intro j packet hpacket
  obtain ⟨hid, hj⟩ := packetsFrom_getElem? _ _ _ hpacket
  have hjn : j < (frame.data.length + 7) / 8 := by omega
  refine ⟨hjn, ?_⟩
  rw [hids, List.getElem?_append_left (by rw [length_countdown]; exact hjn),
    getElem?_countdown _ hjn, Option.some.injEq] at hid
  exact hid.symm

/-- A packet on the bus shows its id. -/
lemma Medium.wire_id {p q : ℕ × List UInt8} (hp : p.1 < 2 ^ 29) (hq : q.1 < 2 ^ 29)
    (h : m.wire p = m.wire q) : p.1 = q.1 := by
  cases m with
  | socket =>
    have hflag : ∀ n < 2 ^ 29, n ||| CAN_EFF_FLAG = 2 ^ 31 + n := by
      intro n hn
      rw [Nat.or_comm, CAN_EFF_FLAG, show 0x80000000 = 1 <<< 31 from rfl,
        ← Nat.shiftLeft_add_eq_or_of_lt (by omega), Nat.shiftLeft_eq]
      omega
    have hid : p.1 ||| CAN_EFF_FLAG = q.1 ||| CAN_EFF_FLAG :=
      congrArg CanFrame.canId (Wire.frame.inj h)
    rw [hflag _ hp, hflag _ hq] at hid
    omega
  | serial =>
    have hbytes := Wire.bytes.inj h
    simp only [encodeSerial, List.cons_append, List.cons.injEq] at hbytes
    obtain ⟨-, -, h₀, h₁, h₂, h₃, -⟩ := hbytes
    rw [← id_of_bytes hp, ← id_of_bytes hq, h₀, h₁, h₂, h₃]

/-! ## Runs -/

/-- A call that sends the first packet of a frame again does not send every packet once. -/
lemma not_sentOnce_of_restart {s : Sender} {results : List SendResult} (h : InOrder m s)
    (hbuilt : ∀ frame ∈ s.sendDataList, BuiltForGroup frame) (hsent : results.headD .sent = .sent)
    (hne : s.begun ≠ 0) : ¬ SentOnce m (sendFrames m s results) := by
  rintro ⟨hbegin, -⟩
  obtain ⟨frame, rest, packet, packets, hqueue, hpackets, hlt⟩ := h.exists_begun hne
  rcases writeQueue_head (m := m) hpackets rest results with ⟨-, hhead⟩ | ⟨hfails, -⟩
  · obtain ⟨out, hout⟩ := List.head?_eq_some_iff.mp hhead
    have hbus := h.bus
    simp only [sendFrames, hqueue, hout] at hbegin
    rw [← hbus, List.prefix_append_right_inj, hqueue, wires_cons,
      List.drop_append_of_le_length (by simpa using hlt.le), ← List.map_drop,
      List.drop_eq_getElem_cons hlt, List.map_cons, List.cons_append,
      List.cons_prefix_cons] at hbegin
    obtain ⟨g, n, hn, hids⟩ := (hbuilt frame (by simp [hqueue])).packets
    obtain ⟨hpos, hfirst⟩ := hids 0 packet (by simp [hpackets])
    obtain ⟨hlast, hsecond⟩ := hids s.begun _ (List.getElem?_eq_getElem hlt)
    have hsame := Medium.wire_id (by rw [hfirst]; exact (packetId_groupCanId g (by omega)).2)
      (by rw [hsecond]; exact (packetId_groupCanId g (by omega)).2) hbegin.1
    rw [hfirst, hsecond] at hsame
    have hnumber := congrArg (fun id => id / 2 ^ 5 % 2 ^ 8) hsame
    simp only [(packetId_groupCanId g (show n - 1 - 0 < 32 by omega)).1,
      (packetId_groupCanId g (show n - 1 - s.begun < 32 by omega)).1] at hnumber
    omega
  · exact absurd hsent hfails

lemma writeQueue_suffix (queue : List CanControlFrame) (results : List SendResult) :
    (writeQueue m queue results).queue <:+ queue := by
  induction queue generalizing results with
  | nil => exact List.suffix_rfl
  | cons frame queue ih =>
    simp only [writeQueue]
    split_ifs
    · exact (ih _).trans (List.suffix_cons _ _)
    · exact List.suffix_rfl

/-- Every frame of the list was there before, or is the one that was handed over. -/
lemma mem_sendDataList_step {s s' : Sender} {a : SendAction} (hstep : a.step m s = some s')
    {frame : CanControlFrame} (h : frame ∈ s'.sendDataList) :
    frame ∈ s.sendDataList ∨ a = .sendCanFrame frame := by
  cases a with
  | sendCanFrame frame' =>
    obtain rfl := Option.some.inj hstep
    simp only [sendCanFrame] at h
    split_ifs at h
    · exact .inl h
    · exact .inl h
    · rcases List.mem_append.mp h with h | h
      · exact .inl h
      · exact .inr (by rw [List.mem_singleton.mp h])
  | onWrite results =>
    obtain rfl := Option.some.inj hstep
    simp only [onWrite] at h
    split_ifs at h
    · exact .inl ((writeQueue_suffix _ _).mem h)
    · exact .inl h
    · exact .inl h
  | setDeviceState status =>
    obtain rfl := Option.some.inj hstep
    exact .inl h
  | initSerialProxy commands =>
    obtain rfl := Option.some.inj hstep
    exact .inl h

/-- A list of frames that waits, with nothing sent yet. -/
def Sender.waiting (status : CanDeviceStatus) (commands : List String)
    (queue : List CanControlFrame) : Sender :=
  ⟨status, commands, queue, [], queue, 0⟩

lemma InOrder.waiting (status : CanDeviceStatus) (commands : List String)
    (queue : List CanControlFrame) : InOrder m (.waiting status commands queue) :=
  ⟨rfl, .inl rfl⟩

lemma allSteps_noRestart {s : Sender} {as : List SendAction} (h : InOrder m s)
    (hqueue : ∀ frame ∈ s.sendDataList, BuiltForGroup frame)
    (hsend : ∀ frame, .sendCanFrame frame ∈ as → BuiltForGroup frame)
    (hall : AllStates (SendAction.step m) (SentOnce m) s as) :
    AllSteps (SendAction.step m) (NoRestart m) s as := by
  induction as generalizing s with
  | nil => trivial
  | cons a as ih =>
    have hok : NoRestart m s a := by
      cases a with
      | onWrite results =>
        intro hready hsent
        by_contra hne
        have hnext := (hall.2 _ rfl).head
        simp only [onWrite, if_pos hready] at hnext
        exact not_sentOnce_of_restart h hqueue hsent hne hnext
      | _ => trivial
    refine ⟨hok, fun s' hs' => ih (h.step hok hs') ?_ ?_ (hall.2 s' hs')⟩
    · intro frame hframe
      rcases mem_sendDataList_step hs' hframe with hold | rfl
      · exact hqueue frame hold
      · exact hsend frame List.mem_cons_self
    · exact fun frame hframe => hsend frame (List.mem_cons_of_mem _ hframe)

/-- **Every packet once.** For the socket and for the serial port, any list of frames and any
calls: as long as no call gets a packet out while the first frame has packets on the bus
already, every packet is sent once and in order; and for frames to the groups this is the only
way. -/
theorem can_send_once (m : Medium) (status : CanDeviceStatus) (commands : List String)
    (queue : List CanControlFrame) (as : List SendAction) :
    (AllSteps (SendAction.step m) (NoRestart m) (.waiting status commands queue) as →
      AllStates (SendAction.step m) (SentOnce m) (.waiting status commands queue) as) ∧
    ((∀ frame ∈ queue, BuiltForGroup frame) →
      (∀ frame, .sendCanFrame frame ∈ as → BuiltForGroup frame) →
      AllStates (SendAction.step m) (SentOnce m) (.waiting status commands queue) as →
      AllSteps (SendAction.step m) (NoRestart m) (.waiting status commands queue) as) := by
  constructor
  · exact allStates_of_allSteps (fun s a s' hs hok hstep => hs.step hok hstep)
      (fun s hs => hs.sentOnce) (InOrder.waiting status commands queue)
  · exact allSteps_noRestart (InOrder.waiting status commands queue)

/-- A frame with two packets for the hand sensors. -/
def handFrame : CanControlFrame :=
  ⟨0, [0x55, 0xAA, 0xF1, 0x03, 0x00, 0x01, 0x03, 0x01, 0x07], [0x6002021, 0x6002001], false⟩

lemma handFrame_built : BuiltForGroup handFrame :=
  .inl ⟨0x3001, [0x07], 1, 0x301, by decide, by decide, by decide⟩

/-- The second packet has to wait; the next call begins with the first one again. -/
theorem can_send_twice :
    BuiltForGroup handFrame ∧
      ¬ AllStates (SendAction.step .socket) (SentOnce .socket)
        (.waiting .start [] [handFrame]) [.onWrite [.sent, .again], .onWrite []] := by
  refine ⟨handFrame_built, fun hall => ?_⟩
  have hlast := ((hall.2 _ rfl).2 _ rfl).2 (by decide)
  exact absurd hlast (by decide)

end SignalEventLoop.Can
