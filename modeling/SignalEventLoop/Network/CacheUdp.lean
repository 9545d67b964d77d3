/-
# The cache buffer of a UDP socket

`IcacheBufferUdp` (`imp/network/icache_buffer_udp.cpp`): every packet is a frame, and the
frame starts with the `sockaddr_in` of its sender.  `readFromFd` appends the address, and then
the packet with `readFromBuf`.  The protocol is a `ProtocalBase`, whose `decodeFrame` takes
everything that is not decoded yet as one frame.

The two appends are not undone together: when the size test of `appendCache` lets the address
in and refuses the packet, the address stays in the cache and becomes the beginning of the
next frame.  The packets come out as they came in if and only if this does not happen, and no
append leaves its block (`DatagramFits`).  A packet that is longer than a frame may be is
dropped, and so are all packets after it, since it leaves as many bytes as a frame can have.
-/
import SignalEventLoop.Network.CacheExtent

namespace SignalEventLoop.Network

/-- A packet as `recvfrom` returns it, not empty and cut to the size of the read buffer, with
the `sockaddr_in` of its sender. -/
structure Datagram (P : Protocal) where
  addr : Bytes
  payload : Bytes
  addr_length : addr.1.length = 16
  payload_pos : 0 < payload.1.length
  payload_le : payload.1.length ≤ P.sliceSize

namespace Datagram

variable {P : Protocal} (d : Datagram P)

/-- The packet, after the address of its sender. -/
def frame : List UInt8 := d.addr.1 ++ d.payload.1

lemma addr_ne_nil : d.addr.1 ≠ [] := by
  intro h
  have := d.addr_length
  simp [h] at this

lemma payload_ne_nil : d.payload.1 ≠ [] := List.ne_nil_of_length_pos d.payload_pos

end Datagram

/-- A result of `recvfrom`. -/
inductive UdpRecv (P : Protocal) where
  | datagram (d : Datagram P)
  /-- A packet without bytes. -/
  | empty
  /-- `EAGAIN` or `EINTR`. -/
  | again
  | error

/-- The operations of the read cache of a UDP socket. -/
inductive UdpOp (P : Protocal) where
  | readFromFd (result : UdpRecv P)
  | popFrame

/-- `IcacheBufferUdp::IcacheBufferUdp`. -/
def icacheBufferUdp (P : Protocal) : IcacheBuffer := icacheBufferBase P (32 * 1024)

namespace IcacheBufferUdp

open CacheState IcacheBuffer

variable (P : Protocal)

/-- `IcacheBufferUdp::readFromFd`. -/
def readFromFd (s : CacheState) : UdpRecv P → Option (ℤ × CacheState)
  | .datagram d =>
    ((icacheBufferUdp P).appendCache s d.addr).bind fun (ret, s₁) =>
      if ret then
        ((icacheBufferUdp P).readFromBuf s₁ d.payload).map fun (ret, s₂) =>
          (if ret < 0 then 0 else d.payload.1.length, s₂)
      else some (0, s₁)
  | .empty => some (0, s)
  | .again => some (-1, s)
  | .error => some (0, s)

/-- The state after an operation. -/
def step (s : CacheState) : UdpOp P → Option CacheState
  | .readFromFd result => (readFromFd P s result).map Prod.snd
  | .popFrame => (popFrame s).map Prod.snd

variable {P}

/-- The packets of an operation, as the frames that they should become. -/
def received : UdpOp P → List (List UInt8)
  | .readFromFd (.datagram d) => [d.frame]
  | _ => []

/-- The frame that an operation pops. -/
def popped (s : CacheState) : UdpOp P → List (List UInt8)
  | .popFrame => if s.frameCacheMap = [] then [] else ((popFrame s).map Prod.fst).toList
  | .readFromFd _ => []

/-- A packet for which `readFromFd` returns 0 leaves the cache as it was. -/
def RefusedUnchanged (s : CacheState) : UdpOp P → Prop
  | .readFromFd (.datagram d) => ∀ s', readFromFd P s (.datagram d) = some (0, s') → s' = s
  | _ => True

end IcacheBufferUdp

/-- The condition on a packet of `len` bytes: the size test refuses its address already, or
the address and then the packet are taken. -/
def Extent.DatagramFits (B : IcacheBuffer) (e : Extent) (len : ℕ) : Prop :=
  e.Refuses B 16 ∨ (e.Takes B 16 ∧ (e.append B 16).Takes B len)

namespace IcacheBufferUdp

open CacheState IcacheBuffer
open scoped List

section

variable {P : Protocal} {s s' : CacheState} {d : Datagram P}

/-! ## One packet -/

/-- The address is refused. -/
lemma readFromFd_of_refuses (h : s.InMem) (href : s.extent.Refuses (icacheBufferUdp P) 16) :
    readFromFd P s (.datagram d) = some (0, s) := by
  rw [← d.addr_length] at href
  rw [readFromFd, appendCache_of_refuses h href]
  rfl

/-- The address is taken. -/
lemma readFromFd_of_takes_addr (h : s.InMem) (hb : Block s)
    (haddr : s.extent.Takes (icacheBufferUdp P) 16) :
    ∃ s₁, Appended s d.addr s₁ ∧ Block s₁ ∧ s₁.extent = s.extent.append (icacheBufferUdp P) 16 ∧
      readFromFd P s (.datagram d) = ((icacheBufferUdp P).readFromBuf s₁ d.payload).map
        fun (ret, s₂) => (if ret < 0 then 0 else (d.payload.1.length : ℤ), s₂) := by
  rw [← d.addr_length] at haddr
  obtain ⟨s₁, happ, happended, hb₁, hext₁⟩ := appendCache_of_takes h hb d.addr_ne_nil haddr
  rw [d.addr_length] at hext₁
  refine ⟨s₁, happended, hb₁, hext₁, ?_⟩
  rw [readFromFd, happ]
  rfl

/-- The address and the packet are taken. -/
lemma readFromFd_of_takes (hdec : ∀ call mem len, P.decodeFrame call mem len = (0, len))
    (h : s.InMem) (hb : Block s) (haddr : s.extent.Takes (icacheBufferUdp P) 16)
    (hpayload : (s.extent.append (icacheBufferUdp P) 16).Takes (icacheBufferUdp P)
      d.payload.1.length) :
    ∃ s', readFromFd P s (.datagram d) = some ((d.payload.1.length : ℤ), s') ∧ s'.InMem ∧
      Block s' ∧ Parsed (icacheBufferUdp P) s (s.rest ++ d.frame) s' ∧
      ((s.rest ++ d.frame).length ≤ P.maxFrameSize →
        s'.extent = (s.extent.append (icacheBufferUdp P) 16).append (icacheBufferUdp P)
          d.payload.1.length) := by
  obtain ⟨s₁, happended, hb₁, hext₁, hread⟩ := readFromFd_of_takes_addr (d := d) h hb haddr
  rw [← hext₁] at hpayload
  obtain ⟨s', hbuf, hmem, hb', hparsed, hext⟩ :=
    readFromBuf_of_takes hdec rfl happended.inMem hb₁ d.payload_ne_nil hpayload
  have hbytes : s₁.rest ++ d.payload.1 = s.rest ++ d.frame := by
    rw [happended.rest, Datagram.frame, List.append_assoc]
  rw [hbytes] at hparsed hext
  rw [hext₁] at hext
  refine ⟨s', ?_, hmem, hb', ?_, hext⟩
  · rw [hread, hbuf, Option.map_some]
    simp
  · cases hparsed with
    | frame hle hframes hrest => exact .frame hle (by rw [hframes, happended.frames]) hrest
    | invalid hlt hframes hrest => exact .invalid hlt (hframes.trans happended.frames) hrest

/-- The address is taken and the packet is refused: the address stays. -/
lemma readFromFd_torn (h : s.InMem) (hb : Block s)
    (haddr : s.extent.Takes (icacheBufferUdp P) 16)
    (hpayload : (s.extent.append (icacheBufferUdp P) 16).Refuses (icacheBufferUdp P)
      d.payload.1.length) :
    ∃ s', readFromFd P s (.datagram d) = some (0, s') ∧ Appended s d.addr s' ∧ Block s' ∧
      s'.extent = s.extent.append (icacheBufferUdp P) 16 := by
  obtain ⟨s₁, happended, hb₁, hext₁, hread⟩ := readFromFd_of_takes_addr (d := d) h hb haddr
  rw [← hext₁] at hpayload
  refine ⟨s₁, ?_, happended, hb₁, hext₁⟩
  rw [hread, readFromBuf, appendCache_of_refuses happended.inMem hpayload]
  rfl

/-- The condition on an operation. -/
def OpFits (s : CacheState) : UdpOp P → Prop
  | .readFromFd (.datagram d) => s.extent.DatagramFits (icacheBufferUdp P) d.payload.1.length
  | _ => True

/-- A packet that does not meet the condition leaves a block, or it is refused and leaves
its address. -/
lemma not_opFits (h : s.InMem) (hb : Block s)
    (hnot : ¬ s.extent.DatagramFits (icacheBufferUdp P) d.payload.1.length) :
    readFromFd P s (.datagram d) = none ∨
      ∃ s', readFromFd P s (.datagram d) = some (0, s') ∧ s' ≠ s := by
  obtain ⟨href, hnot⟩ := not_or.mp hnot
  have hisSome := appendCache_isSome_of_not_refuses h hb d.addr_ne_nil
    (by rw [d.addr_length]; exact href)
  rw [d.addr_length] at hisSome
  by_cases hfits : s.extent.Fits (icacheBufferUdp P) 16
  · have haddr : s.extent.Takes (icacheBufferUdp P) 16 := ⟨href, hfits⟩
    by_cases hpayload : (s.extent.append (icacheBufferUdp P) 16).Refuses (icacheBufferUdp P)
      d.payload.1.length
    · obtain ⟨s', hread, happended, -⟩ := readFromFd_torn (d := d) h hb haddr hpayload
      exact Or.inr ⟨s', hread, happended.ne d.addr_ne_nil⟩
    · obtain ⟨s₁, happended, hb₁, hext₁, hread⟩ := readFromFd_of_takes_addr (d := d) h hb haddr
      rw [← hext₁] at hpayload hnot
      have hnone : (icacheBufferUdp P).appendCache s₁ d.payload = none := by
        rw [← Option.not_isSome_iff_eq_none, appendCache_isSome_of_not_refuses happended.inMem hb₁
          d.payload_ne_nil hpayload]
        exact fun hfits' => hnot ⟨haddr, hpayload, hfits'⟩
      refine Or.inl ?_
      rw [hread, readFromBuf, hnone]
      rfl
  · have hnone : (icacheBufferUdp P).appendCache s d.addr = none := by
      rw [← Option.not_isSome_iff_eq_none, hisSome]
      exact hfits
    refine Or.inl ?_
    rw [readFromFd, hnone]
    rfl

/-! ## Runs -/

/-- Between two operations no byte waits to be decoded, or so many that every later packet is
invalid data. -/
structure Aligned (P : Protocal) (s : CacheState) : Prop where
  inMem : s.InMem
  block : Block s
  rest : s.rest = [] ∨ s.rest.length = P.maxFrameSize

lemma aligned_init : Aligned P init := ⟨inMem_init, block_init, Or.inl rfl⟩

/-- A packet that is taken becomes a frame of its own, or is dropped. -/
lemma Aligned.parsed (h : Aligned P s) (hmem : s'.InMem) (hb : Block s')
    (hparsed : Parsed (icacheBufferUdp P) s (s.rest ++ d.frame) s') :
    Aligned P s' ∧ s'.frames <+ s.frames ++ [d.frame] := by
  have hlen : 0 < d.frame.length := by
    have := d.addr_length
    rw [Datagram.frame, List.length_append]
    omega
  cases hparsed with
  | frame hle hframes hrest =>
    -- the bytes left by invalid data are too many for another frame
    have hnil : s.rest = [] := by
      refine h.rest.resolve_right fun hfull => ?_
      have hle' : (s.rest ++ d.frame).length ≤ P.maxFrameSize := hle
      rw [List.length_append] at hle'
      omega
    refine ⟨⟨hmem, hb, Or.inl hrest⟩, ?_⟩
    rw [hframes, hnil, List.nil_append]
  | invalid hlt hframes hrest =>
    refine ⟨⟨hmem, hb, Or.inr hrest⟩, ?_⟩
    rw [hframes]
    exact List.sublist_append_left _ _

lemma popped_popFrame (h : s.InMem) : popped (P := P) s .popFrame = s.frames.take 1 := by
  obtain ⟨s', hpop, -⟩ := popFrame_spec h
  simp only [popped, hpop]
  cases hmap : s.frameCacheMap with
  | nil => simp [CacheState.frames, hmap]
  | cons f fs => simp [CacheState.frames, hmap]

/-- What `popFrame` leaves. -/
lemma step_popFrame (h : s.InMem) (hb : Block s) : ∃ s', step P s .popFrame = some s' ∧
    s'.InMem ∧ Block s' ∧ SameBlock s s' ∧ s'.frames = s.frames.drop 1 ∧ s'.rest = s.rest := by
  obtain ⟨s', hpop, hmem, hsame, hframes⟩ := popFrame_spec h
  have hblock : SameBlock s s' := by
    rw [hsame]
    exact ⟨rfl, rfl, rfl⟩
  refine ⟨s', by rw [step, hpop, Option.map_some], hmem, hb.of_sameBlock hblock, hblock, ?_, ?_⟩
  · rw [hframes, List.drop_one]
  · rw [hsame]
    rfl

variable (hdec : ∀ call mem len, P.decodeFrame call mem len = (0, len))

include hdec

/-- A step that meets the condition is possible, pops the frames in order, adds no frame but
the packet it receives, and changes nothing when it refuses it. -/
lemma step_aligned (h : Aligned P s) {op : UdpOp P} (hok : OpFits s op) :
    ∃ s', step P s op = some s' ∧ Aligned P s' ∧
      popped s op ++ s'.frames <+ s.frames ++ received op ∧ RefusedUnchanged s op := by
  cases op with
  | popFrame =>
    obtain ⟨s', hs', hmem, hb, -, hframes, hrest⟩ := step_popFrame (P := P) h.inMem h.block
    refine ⟨s', hs', ⟨hmem, hb, hrest ▸ h.rest⟩, ?_, trivial⟩
    rw [popped_popFrame h.inMem, hframes, List.take_append_drop]
    exact List.sublist_append_left _ _
  | readFromFd result =>
    cases result with
    | empty => exact ⟨s, rfl, h, by simp [popped, received], trivial⟩
    | again => exact ⟨s, rfl, h, by simp [popped, received], trivial⟩
    | error => exact ⟨s, rfl, h, by simp [popped, received], trivial⟩
    | datagram d =>
      rcases hok with href | ⟨haddr, hpayload⟩
      · have hread := readFromFd_of_refuses (d := d) h.inMem href
        refine ⟨s, by rw [step, hread, Option.map_some], h, ?_, fun s' hs' => ?_⟩
        · exact List.sublist_append_left _ _
        · rw [hread] at hs'
          exact (Prod.mk.inj (Option.some.inj hs')).2.symm
      · obtain ⟨s', hread, hmem, hb, hparsed, -⟩ :=
          readFromFd_of_takes hdec h.inMem h.block haddr hpayload
        obtain ⟨halign, hframes⟩ := h.parsed hmem hb hparsed
        refine ⟨s', by rw [step, hread, Option.map_some], halign, hframes, fun s'' hs'' => ?_⟩
        -- a packet that is taken has a length
        rw [hread] at hs''
        have hlen := (Prod.mk.inj (Option.some.inj hs'')).1
        have hpos := d.payload_pos
        omega

lemma run_aligned (ops : List (UdpOp P)) (h : Aligned P s)
    (hall : Lib.AllSteps (step P) OpFits s ops) :
    (∃ t, Lib.run (step P) s ops = some t) ∧
      Lib.outputs (step P) popped s ops <+ s.frames ++ ops.flatMap received ∧
      Lib.AllSteps (step P) RefusedUnchanged s ops := by
  induction ops generalizing s with
  | nil => exact ⟨⟨s, rfl⟩, by simp, trivial⟩
  | cons op ops ih =>
    obtain ⟨hok, hrest⟩ := hall
    obtain ⟨s', hs', halign, hframes, hrefused⟩ := step_aligned hdec h hok
    obtain ⟨⟨t, ht⟩, hpopped, hunchanged⟩ := ih halign (hrest s' hs')
    refine ⟨⟨t, Lib.run_cons_eq_some.mpr ⟨s', hs', ht⟩⟩, ?_,
      (Lib.allSteps_cons_of_eq_some hs').mpr ⟨hrefused, hunchanged⟩⟩
    have hhead : popped s op ++ (s'.frames ++ ops.flatMap received) <+
        s.frames ++ (received op ++ ops.flatMap received) := by
      rw [← List.append_assoc, ← List.append_assoc]
      exact hframes.append_right _
    rw [Lib.outputs_cons ops hs', List.flatMap_cons]
    exact (hpopped.append_left _).trans hhead

/-- In a run that is possible and changes nothing when it refuses a packet, every packet meets
the condition. -/
lemma opFits_of_run (ops : List (UdpOp P)) (h : Aligned P s) {t : CacheState}
    (hrun : Lib.run (step P) s ops = some t)
    (hall : Lib.AllSteps (step P) RefusedUnchanged s ops) :
    Lib.AllSteps (step P) OpFits s ops := by
  induction ops generalizing s with
  | nil => trivial
  | cons op ops ih =>
    obtain ⟨hrefused, hrest⟩ := hall
    obtain ⟨s', hs', hrun'⟩ := Lib.run_cons_eq_some.mp hrun
    have hok : OpFits s op := by
      by_contra hnot
      match op with
      | .popFrame | .readFromFd .empty | .readFromFd .again | .readFromFd .error =>
        exact hnot trivial
      | .readFromFd (.datagram d) =>
        rcases not_opFits h.inMem h.block hnot with hnone | ⟨s'', hread, hne⟩
        · rw [step, hnone] at hs'
          exact absurd hs' (by simp)
        · exact hne (hrefused s'' hread)
    obtain ⟨s₁, hs₁, halign, -⟩ := step_aligned hdec h hok
    rw [hs', Option.some.injEq] at hs₁
    subst hs₁
    exact (Lib.allSteps_cons_of_eq_some hs').mpr ⟨hok, ih halign hrun' (hrest s' hs')⟩

end

/-- **The framing of packets.** In a run of `readFromFd` and `popFrame`, every `memcpy` stays
inside its block, the frames that are popped are packets that were received, in order, each
after the address of its own sender, and a packet that is refused leaves the cache as it was,
if and only if every packet meets the condition. -/
theorem datagram_framing_iff (max_cache_size : UInt32) (is_streaming : Bool)
    (max_frame_size slice_size : UInt32)
    (ops : List (UdpOp (protocalBase max_cache_size is_streaming max_frame_size slice_size))) :
    ((∃ s, Lib.run (step _) init ops = some s) ∧
      Lib.outputs (step _) popped init ops <+ ops.flatMap received ∧
      Lib.AllSteps (step _) RefusedUnchanged init ops) ↔
    Lib.AllSteps (step _) OpFits init ops := by
  constructor
  · rintro ⟨⟨s, hrun⟩, -, hall⟩
    exact opFits_of_run (fun _ _ _ => rfl) ops aligned_init hrun hall
  · intro hall
    exact run_aligned (fun _ _ _ => rfl) ops aligned_init hall

/-- The sizes when no frame is cached. -/
lemma extent_of_frames_nil {s : CacheState} (h : s.InMem) (hnil : s.frames = []) :
    s.extent = ⟨s.cacheSize, s.writeOffset, s.rest.length⟩ := by
  have hmap : s.frameCacheMap = [] := List.map_eq_nil_iff.mp hnil
  rw [CacheState.extent, h.length_rest, readOffset, hmap]

/-- A cache of 32 KiB, for frames and packets of up to 32 KiB. -/
def sampleProtocal : Protocal := protocalBase 0 false 32768 32768

/-- A packet of `len` bytes. -/
def samplePacket (sender : UInt8) (len : ℕ) (hpos : 0 < len) (hle : len ≤ 32768) :
    Datagram sampleProtocal where
  addr := ⟨List.replicate 16 sender, by simp⟩
  payload := ⟨List.replicate len 0, by rw [List.length_replicate]; omega⟩
  addr_length := List.length_replicate
  payload_pos := by simpa using hpos
  payload_le := by rw [List.length_replicate]; exact hle

/-- It fills the cache up to 16 bytes. -/
def firstPacket : Datagram sampleProtocal := samplePacket 1 32736 (by decide) (by decide)

/-- There is room for its address only. -/
def secondPacket : Datagram sampleProtocal := samplePacket 2 1 (by decide) (by decide)

def thirdPacket : Datagram sampleProtocal := samplePacket 3 1 (by decide) (by decide)

/-- Three packets; the first is popped before the third comes. -/
def tornRun : List (UdpOp sampleProtocal) :=
  [.readFromFd (.datagram firstPacket), .readFromFd (.datagram secondPacket), .popFrame,
    .readFromFd (.datagram thirdPacket), .popFrame]

lemma length_frame_samplePacket (sender : UInt8) (len : ℕ) (hpos : 0 < len) (hle : len ≤ 32768) :
    (samplePacket sender len hpos hle).frame.length = 16 + len := by
  rw [Datagram.frame, List.length_append, Datagram.addr_length]
  exact congrArg (16 + ·) List.length_replicate

/-- The first packet is cached, and the address of the second one behind it. -/
lemma firstPacket_secondPacket : ∃ s₁ s₂,
    step _ init (.readFromFd (.datagram firstPacket)) = some s₁ ∧
    readFromFd _ s₁ (.datagram secondPacket) = some (0, s₂) ∧
    s₂ ≠ s₁ ∧ s₂.InMem ∧ Block s₂ ∧ s₂.frames = [firstPacket.frame] ∧
    s₂.rest = secondPacket.addr.1 ∧ s₂.cacheSize = 32768 ∧ s₂.writeOffset = 32768 := by
  have hlen : firstPacket.payload.1.length = 32736 := List.length_replicate
  obtain ⟨s₁, hread₁, hmem₁, hb₁, hparsed₁, hext₁⟩ := readFromFd_of_takes (d := firstPacket)
    (fun _ _ _ => rfl) inMem_init block_init (by decide +kernel) (by rw [hlen]; decide +kernel)
  have hframe : (init.rest ++ firstPacket.frame).length ≤ sampleProtocal.maxFrameSize := by
    show firstPacket.frame.length ≤ 32768
    rw [firstPacket, length_frame_samplePacket]
    norm_num
  have hsize₁ : s₁.extent = ⟨32768, 32752, 32752⟩ := by
    rw [hext₁ hframe, hlen]
    decide +kernel
  obtain ⟨s₂, hread₂, happended, hb₂, hext₂⟩ := readFromFd_torn (d := secondPacket) hmem₁ hb₁
    (by rw [hsize₁]; decide +kernel)
    (by rw [hsize₁, show secondPacket.payload.1.length = 1 from rfl]; decide +kernel)
  have hsize₂ : s₂.extent = ⟨32768, 32768, 32768⟩ := by
    rw [hext₂, hsize₁]
    decide +kernel
  cases hparsed₁ with
  | invalid hlt _ _ => exact absurd hframe (not_le.mpr hlt)
  | frame hle hframes hrest =>
    refine ⟨s₁, s₂, by rw [step, hread₁, Option.map_some], hread₂,
      happended.ne secondPacket.addr_ne_nil, happended.inMem, hb₂, ?_, ?_,
      congrArg Extent.size hsize₂, congrArg Extent.write hsize₂⟩
    · rw [happended.frames, hframes]
      rfl
    · rw [happended.rest, hrest, List.nil_append]

/-- The second packet is refused and its address stays: the third packet comes out after the
addresses of two senders. -/
theorem refused_packet_leaves_address :
    (∃ s, Lib.run (step _) init tornRun = some s) ∧
    Lib.outputs (step _) popped init tornRun =
      [firstPacket.frame, secondPacket.addr.1 ++ thirdPacket.frame] ∧
    ¬ Lib.outputs (step _) popped init tornRun <+ tornRun.flatMap received ∧
    ¬ Lib.AllSteps (step _) RefusedUnchanged init tornRun := by
  obtain ⟨s₁, s₂, hs₁, hread₂, hne, hmem₂, hb₂, hframes₂, hrest₂, hsize₂, hwrite₂⟩ :=
    firstPacket_secondPacket
  have hs₂ : step _ s₁ (.readFromFd (.datagram secondPacket)) = some s₂ := by
    rw [step, hread₂, Option.map_some]
  -- the first frame is popped, and the address is all that is left
  obtain ⟨s₃, hs₃, hmem₃, hb₃, hsame₃, hframes₃, hrest₃⟩ :=
    step_popFrame (P := sampleProtocal) hmem₂ hb₂
  have hnil : s₃.frames = [] := by
    rw [hframes₃, hframes₂]
    rfl
  have hsize₃ : s₃.extent = ⟨32768, 32768, 16⟩ := by
    rw [extent_of_frames_nil hmem₃ hnil, hsame₃.cacheSize, hsame₃.writeOffset, hrest₃, hrest₂,
      hsize₂, hwrite₂, secondPacket.addr_length]
  obtain ⟨s₄, hread₄, hmem₄, hb₄, hparsed₄, -⟩ := readFromFd_of_takes (d := thirdPacket)
    (fun _ _ _ => rfl) hmem₃ hb₃ (by rw [hsize₃]; decide +kernel)
    (by rw [hsize₃, show thirdPacket.payload.1.length = 1 from rfl]; decide +kernel)
  have hs₄ : step _ s₃ (.readFromFd (.datagram thirdPacket)) = some s₄ := by
    rw [step, hread₄, Option.map_some]
  have hframes₄ : s₄.frames = [secondPacket.addr.1 ++ thirdPacket.frame] := by
    rw [hrest₃, hrest₂] at hparsed₄
    cases hparsed₄ with
    | invalid hlt _ _ => exact absurd hlt (by decide +kernel)
    | frame _ hframes _ => rw [hframes, hnil, List.nil_append]
  obtain ⟨s₅, hs₅, -⟩ := step_popFrame (P := sampleProtocal) hmem₄ hb₄
  have hout : Lib.outputs (step _) popped init tornRun =
      [firstPacket.frame, secondPacket.addr.1 ++ thirdPacket.frame] := by
    rw [tornRun, Lib.outputs_cons _ hs₁, Lib.outputs_cons _ hs₂, Lib.outputs_cons _ hs₃,
      Lib.outputs_cons _ hs₄, Lib.outputs_cons _ hs₅, popped_popFrame hmem₂, hframes₂,
      popped_popFrame hmem₄, hframes₄]
    rfl
  refine ⟨⟨s₅, ?_⟩, hout, fun hsub => ?_, fun hall => ?_⟩
  · rw [tornRun, Lib.run_cons, hs₁, Option.bind_some, Lib.run_cons, hs₂, Option.bind_some,
      Lib.run_cons, hs₃, Option.bind_some, Lib.run_cons, hs₄, Option.bind_some, Lib.run_cons, hs₅,
      Option.bind_some, Lib.run_nil]
  · -- no packet has 33 bytes
    rw [hout] at hsub
    have hmem : secondPacket.addr.1 ++ thirdPacket.frame ∈
        [firstPacket.frame, secondPacket.frame, thirdPacket.frame] := hsub.subset (by simp)
    have hlen : [firstPacket.frame, secondPacket.frame, thirdPacket.frame].map List.length =
        [32752, 17, 17] := by
      simp [firstPacket, secondPacket, thirdPacket, length_frame_samplePacket]
    have hlen' := List.mem_map_of_mem (f := List.length) hmem
    rw [hlen] at hlen'
    exact absurd hlen' (by decide +kernel)
  · exact hne ((hall.2 s₁ hs₁).1 s₂ hread₂)

end IcacheBufferUdp

end SignalEventLoop.Network
