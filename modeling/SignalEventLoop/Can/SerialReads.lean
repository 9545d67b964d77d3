/-
# Reads that cut a packet

`CanSerialProxy::on_recv` keeps nothing from one read to the next one.  The stream of encoded
packets arrives whole if and only if every read ends where a packet ends.

The packets that one read hands over take at least as many bytes as they are long, with one
exception: when the search for the marker stops nine bytes before the end of the read, at an `A`
without a `T` behind it, the loop goes on as if it had found the marker, and the packet it finds
there is one byte short.  Such a read ends with `CR LF`, and it begins with `A T` as every read
does that is not ignored; so it cannot make up for a byte that was lost.
-/
import SignalEventLoop.Can.CanSerial

namespace SignalEventLoop.Can

open Lib

variable {read : List UInt8}

/-! ## What one read can take -/

/-- The number of bytes of the packets that were handed over. -/
def encodedLength (frames : List CanFrame) : ℕ := (frames.map fun f => f.data.length + 9).sum

@[simp] lemma encodedLength_nil : encodedLength [] = 0 := rfl

@[simp] lemma encodedLength_cons (frame : CanFrame) (frames : List CanFrame) :
    encodedLength (frame :: frames) = frame.data.length + 9 + encodedLength frames := rfl

lemma encodedLength_map (packets : List (ℕ × List UInt8)) :
    encodedLength (packets.map toCanFrame) = (encodeAll packets).length := by
  induction packets with
  | nil => rfl
  | cons packet packets ih =>
    rw [List.map_cons, encodedLength_cons, ih, encodeAll_cons, List.length_append,
      length_encodeSerial]
    rfl

/-- The search leaves its candidate behind; without a marker it ends near the end of the read. -/
lemma findMarker_eq_some {fuel i j : ℕ} (h : findMarker read fuel i = some j)
    (hi : i ≤ uintSub read.length 9) :
    i + 2 ≤ j ∨ i + 1 ≤ j ∧ uintSub read.length 9 < j := by
  induction fuel generalizing i with
  | zero => simp [findMarker] at h
  | succ fuel ih =>
    simp only [findMarker, if_pos hi] at h
    split_ifs at h with hmark
    · have := Option.some.inj h
      omega
    · set i' := i + (read.drop i).findIdx (· = 0x41) + 1 with hi'
      by_cases hnext : i' ≤ uintSub read.length 9
      · have := ih h hnext
        omega
      · cases fuel with
        | zero => simp [findMarker] at h
        | succ fuel =>
          rw [findMarker, if_neg hnext, Option.some.injEq] at h
          omega

/-- Behind the bytes that were read there is no byte but zero. -/
lemma lt_length_of_getElem?_recvBuf {i : ℕ} {b : UInt8} (h : (recvBuf read)[i]? = some b)
    (hb : b ≠ 0) : i < read.length := by
  by_contra hge
  rw [recvBuf, List.getElem?_append_right (by omega), List.getElem?_replicate] at h
  split_ifs at h
  exact hb (Option.some.inj h).symm

/-- A branch that leaves the loop does not hand a packet over. -/
lemma of_ite_break {α : Type*} {c : Prop} [Decidable c] {x : Option (Option α)} {y : α}
    (h : (if c then some none else x) = some (some y)) : ¬ c ∧ x = some (some y) := by
  split_ifs at h with hc
  · exact absurd (Option.some.inj h) (by simp)
  · exact ⟨hc, h⟩

/-- A packet lies in the bytes that were read, and ends with a line feed. -/
lemma recvPacket_eq_some {i j : ℕ} {frame : CanFrame}
    (h : recvPacket read i = some (some (frame, j))) :
    j = i + 7 + frame.data.length ∧ j ≤ read.length ∧ read[j - 1]? = some 0x0a := by
  obtain ⟨-, h⟩ := of_ite_break h
  obtain ⟨head, -, h⟩ := Option.bind_eq_some_iff.mp h
  obtain ⟨-, h⟩ := of_ite_break h
  obtain ⟨cr, -, h⟩ := Option.bind_eq_some_iff.mp h
  obtain ⟨-, h⟩ := of_ite_break h
  obtain ⟨lf, hlf, h⟩ := Option.bind_eq_some_iff.mp h
  obtain ⟨hlf', h⟩ := of_ite_break h
  obtain rfl := not_not.mp hlf'
  have hlt := lt_length_of_getElem?_recvBuf hlf (by decide)
  rw [getElem?_recvBuf hlt] at hlf
  split_ifs at h with hmax
  simp only [Option.some.injEq, Prod.mk.injEq] at h
  obtain ⟨rfl, rfl⟩ := h
  set len := (head.getD 4 0).toNat
  have hdata : (slice (recvBuf read) (i + 5) len).length = len := by
    refine length_slice ?_
    rw [recvBuf, List.length_append]
    omega
  refine ⟨by rw [hdata]; omega, by omega, ?_⟩
  rw [show i + (5 + len + 2) - 1 = i + 4 + 1 + len + 1 by omega]
  exact hlf

/-- What the loop hands over from the cursor `i` on, when no payload is empty. -/
lemma recvLoop_eq_some {fuel i : ℕ} {frames : List CanFrame}
    (h : recvLoop read fuel i = some frames) (hpos : ∀ f ∈ frames, 1 ≤ f.data.length)
    (hlen : read.length ≤ 1024) :
    frames = [] ∨ encodedLength frames + i ≤ read.length ∨
      encodedLength frames + i = read.length + 1 ∧ read[read.length - 1]? = some 0x0a := by
  induction fuel generalizing i frames with
  | zero => simp [recvLoop] at h
  | succ fuel ih =>
    rw [recvLoop] at h
    split_ifs at h with hi
    · obtain ⟨k, hk, h⟩ := Option.bind_eq_some_iff.mp h
      obtain ⟨next, hnext, h⟩ := Option.bind_eq_some_iff.mp h
      rcases next with _ | ⟨frame, j⟩
      · exact .inl (Option.some.inj h).symm
      obtain ⟨rest, hrest, rfl⟩ := Option.map_eq_some_iff.mp h
      obtain ⟨hj, hle, hlf⟩ := recvPacket_eq_some hnext
      have hframe := hpos frame List.mem_cons_self
      have hlater := ih hrest fun f hf => hpos f (List.mem_cons_of_mem _ hf)
      rw [encodedLength_cons]
      right
      rcases findMarker_eq_some hk hi with hfound | ⟨hmoved, hend⟩
      · rcases hlater with rfl | hlater | ⟨hlater, hlast⟩
        · rw [encodedLength_nil]
          omega
        · omega
        · by_cases heq : frame.data.length + 9 + encodedLength rest + i = read.length + 1
          · exact .inr ⟨heq, hlast⟩
          · omega
      · -- no marker: only a packet with one byte fits, and it ends with the read
        have hnine : 9 ≤ read.length := by omega
        have hsub := uintSub_eq hnine (by omega)
        obtain rfl : j = read.length := by omega
        obtain rfl : rest = [] := by
          cases fuel with
          | zero => simp [recvLoop] at hrest
          | succ fuel =>
            rw [recvLoop_end hnine hlen, Option.some.injEq] at hrest
            exact hrest.symm
        rw [encodedLength_nil]
        by_cases heq : frame.data.length + 9 + 0 + i = read.length + 1
        · exact .inr ⟨heq, hlf⟩
        · omega
    · exact .inl (Option.some.inj h).symm

/-- **What one read can take.** -/
lemma onRecv_eq_some {frames : List CanFrame} (h : onRecv read = some frames)
    (hpos : ∀ f ∈ frames, 1 ≤ f.data.length) (hlen : read.length ≤ 1024) :
    encodedLength frames ≤ read.length ∨
      encodedLength frames = read.length + 1 ∧ read[0]? = some 0x41 ∧
        read[read.length - 1]? = some 0x0a := by
  rw [onRecv] at h
  split_ifs at h with hstart
  · obtain rfl := Option.some.inj h
    simp
  · rcases recvLoop_eq_some h hpos hlen with rfl | hle | ⟨heq, hlast⟩
    · simp
    · exact .inl hle
    · rw [not_or, not_or, not_not] at hstart
      refine .inr ⟨heq, ?_, hlast⟩
      have h0 := hstart.2.1
      rw [List.getD_eq_getElem?_getD] at h0
      rw [List.getElem?_eq_getElem (by omega)] at h0 ⊢
      exact congrArg some h0

/-! ## Successive reads -/

variable {packets : List (ℕ × List UInt8)} {reads : List (List UInt8)}

/-- Every read consists of whole packets. -/
def CutAtPackets (packets : List (ℕ × List UInt8)) (reads : List (List UInt8)) : Prop :=
  ∃ parts : List (List (ℕ × List UInt8)), parts.flatten = packets ∧ reads = parts.map encodeAll

/-- The encoding of a nonempty list begins with `A T` and ends with `CR LF`. -/
lemma encodeAll_markers (hp : ∀ p ∈ packets, IsPacket p) (hne : packets ≠ []) :
    (encodeAll packets)[1]? = some 0x54 ∧ ∃ bytes, encodeAll packets = bytes ++ [0x0d, 0x0a] := by
  constructor
  · cases packets with
    | nil => exact absurd rfl hne
    | cons packet packets =>
      obtain ⟨b₀, b₁, b₂, b₃, hshape, -⟩ := encodeSerial_shape (hp packet List.mem_cons_self)
      simp [hshape]
  · obtain ⟨packets, packet, rfl⟩ := List.eq_nil_or_concat packets |>.resolve_left hne
    obtain ⟨b₀, b₁, b₂, b₃, hshape, -⟩ :=
      encodeSerial_shape (hp packet (by simp))
    rw [List.concat_eq_append, encodeAll_append, encodeAll_cons, encodeAll_nil, List.append_nil,
      hshape, ← List.append_assoc, ← List.append_assoc]
    exact ⟨_, rfl⟩

/-- One read hands over a first part of the packets, and the later reads the rest. -/
lemma onRecvAll_cons_eq_some {read : List UInt8} (hp : ∀ p ∈ packets, IsPacket p)
    (hlen : read.length ≤ 1024)
    (h : onRecvAll (read :: reads) = some (packets.map toCanFrame)) :
    ∃ now later, packets = now ++ later ∧ onRecvAll reads = some (later.map toCanFrame) ∧
      ((encodeAll now).length ≤ read.length ∨
        (encodeAll now).length = read.length + 1 ∧ read[0]? = some 0x41 ∧
          read[read.length - 1]? = some 0x0a) := by
  obtain ⟨frames, hframes, h⟩ := Option.bind_eq_some_iff.mp h
  obtain ⟨frames', hframes', h⟩ := Option.map_eq_some_iff.mp h
  obtain ⟨now, later, rfl, rfl, rfl⟩ := List.append_eq_map_iff.mp h
  refine ⟨now, later, rfl, hframes', ?_⟩
  rw [← encodedLength_map]
  refine onRecv_eq_some hframes ?_ hlen
  intro f hf
  obtain ⟨p, hmem, rfl⟩ := List.mem_map.mp hf
  exact (hp p (List.mem_append_left _ hmem)).pos

/-- **A byte that is lost stays lost.** When the first bytes of the packets were in an earlier
read, the reads that follow do not hand over all of the packets. -/
lemma onRecvAll_of_lost (hp : ∀ p ∈ packets, IsPacket p) (hreads : ∀ r ∈ reads, r.length ≤ 1024)
    {lost : List UInt8} (hlost : lost ≠ []) (hbytes : encodeAll packets = lost ++ reads.flatten) :
    onRecvAll reads ≠ some (packets.map toCanFrame) := by
  induction reads generalizing packets lost with
  | nil =>
    intro h
    obtain rfl : packets = [] := by simpa [onRecvAll] using h
    rw [encodeAll_nil, List.flatten_nil, List.append_nil] at hbytes
    exact hlost hbytes.symm
  | cons read reads ih =>
    intro h
    obtain ⟨now, later, rfl, hlater, htaken⟩ :=
      onRecvAll_cons_eq_some hp (hreads read List.mem_cons_self) h
    have hpos := List.length_pos_of_ne_nil hlost
    rw [encodeAll_append, List.flatten_cons, ← List.append_assoc] at hbytes
    -- what the read leaves of the packets that are still to come
    have hmore : (encodeAll now).length < (lost ++ read).length → False := by
      intro hlt
      obtain ⟨lost', hnow, hrest⟩ := (List.append_eq_append_iff.mp hbytes).resolve_right (by
        rintro ⟨c, hc, -⟩
        rw [hc, List.length_append] at hlt
        omega)
      refine ih (fun p hmem => hp p (List.mem_append_right _ hmem))
        (fun r hr => hreads r (List.mem_cons_of_mem _ hr)) ?_ hrest hlater
      rintro rfl
      rw [hnow, List.append_nil] at hlt
      omega
    rw [List.length_append] at hmore
    rcases htaken with hle | ⟨heq, hfirst, -⟩
    · exact hmore (by omega)
    · by_cases hone : lost.length = 1
      · obtain ⟨b, rfl⟩ := List.length_eq_one_iff.mp hone
        have hnow : encodeAll now = [b] ++ read :=
          (List.append_inj hbytes (by simp; omega)).1
        have hne : now ≠ [] := by
          rintro rfl
          simp at heq
        have hsecond := (encodeAll_markers
          (fun p hmem => hp p (List.mem_append_left _ hmem)) hne).1
        rw [hnow, List.singleton_append, List.getElem?_cons_succ, hfirst] at hsecond
        exact absurd (Option.some.inj hsecond) (by decide)
      · exact hmore (by omega)

/-- When every packet arrives, the reads end where packets end. -/
lemma cutAtPackets_of_onRecvAll (hp : ∀ p ∈ packets, IsPacket p)
    (hreads : ∀ r ∈ reads, r.length ≤ 1024) (hbytes : encodeAll packets = reads.flatten)
    (h : onRecvAll reads = some (packets.map toCanFrame)) : CutAtPackets packets reads := by
  induction reads generalizing packets with
  | nil =>
    obtain rfl : packets = [] := by simpa [onRecvAll] using h
    exact ⟨[], rfl, rfl⟩
  | cons read reads ih =>
    obtain ⟨now, later, rfl, hlater, htaken⟩ :=
      onRecvAll_cons_eq_some hp (hreads read List.mem_cons_self) h
    have hreads' : ∀ r ∈ reads, r.length ≤ 1024 := fun r hr => hreads r (List.mem_cons_of_mem _ hr)
    have hnow : ∀ p ∈ now, IsPacket p := fun p hmem => hp p (List.mem_append_left _ hmem)
    have hlate : ∀ p ∈ later, IsPacket p := fun p hmem => hp p (List.mem_append_right _ hmem)
    rw [encodeAll_append, List.flatten_cons] at hbytes
    rcases htaken with hle | ⟨heq, -, hlast⟩
    · have hbegin : encodeAll now <+: read ++ reads.flatten :=
        hbytes ▸ List.prefix_append (encodeAll now) (encodeAll later)
      obtain ⟨lost, rfl⟩ :=
        List.prefix_of_prefix_length_le hbegin (List.prefix_append read _) hle
      rw [List.append_assoc, List.append_cancel_left_eq] at hbytes
      by_cases hlost : lost = []
      · subst hlost
        obtain ⟨parts, hparts, rfl⟩ := ih hlate hreads' (by simpa using hbytes) hlater
        exact ⟨now :: parts, by simp [hparts], by simp⟩
      · exact absurd hlater (onRecvAll_of_lost hlate hreads' hlost hbytes)
    · -- the read would be a byte too short, but then its last byte is the carriage return
      exfalso
      have hne : now ≠ [] := by
        rintro rfl
        simp at heq
      obtain ⟨bytes, hend⟩ := (encodeAll_markers hnow hne).2
      have hread : read = bytes ++ [0x0d] := by
        rw [hend, show bytes ++ [0x0d, 0x0a] ++ encodeAll later =
          (bytes ++ [0x0d]) ++ (0x0a :: encodeAll later) by simp] at hbytes
        refine ((List.append_inj hbytes ?_).1).symm
        rw [hend] at heq
        simpa using heq
      simp [hread] at hlast

/-- Reads of whole packets hand over every packet. -/
lemma onRecvAll_map_encodeAll (parts : List (List (ℕ × List UInt8)))
    (hp : ∀ p ∈ parts.flatten, IsPacket p)
    (hreads : ∀ r ∈ parts.map encodeAll, 1 ≤ r.length ∧ r.length ≤ 1024) :
    onRecvAll (parts.map encodeAll) = some (parts.flatten.map toCanFrame) := by
  induction parts with
  | nil => rfl
  | cons part parts ih =>
    have hlen := hreads (encodeAll part) (by simp)
    have hfirst : onRecv (encodeAll part) = some (part.map toCanFrame) := by
      cases part with
      | nil => simp at hlen
      | cons packet packets =>
        exact onRecv_encodeAll_cons (fun p hmem => hp p (List.mem_append_left _ hmem)) hlen.2
    rw [List.map_cons, onRecvAll, hfirst, Option.bind_some,
      ih (fun p hmem => hp p (List.mem_append_right _ hmem))
        (fun r hr => hreads r (List.mem_cons_of_mem _ hr)), Option.map_some, List.flatten_cons,
      List.map_append]

/-- **Reads of a stream of packets.** All packets are handed over, in order, if and only if every
read consists of whole packets. -/
theorem serial_reads_iff (packets : List (ℕ × List UInt8)) (hp : ∀ p ∈ packets, IsPacket p)
    (reads : List (List UInt8)) (hreads : ∀ r ∈ reads, 1 ≤ r.length ∧ r.length ≤ 1024)
    (hbytes : reads.flatten = encodeAll packets) :
    onRecvAll reads = some (packets.map toCanFrame) ↔ CutAtPackets packets reads := by
  constructor
  · exact cutAtPackets_of_onRecvAll hp (fun r hr => (hreads r hr).2) hbytes.symm
  · rintro ⟨parts, rfl, rfl⟩
    exact onRecvAll_map_encodeAll parts hp hreads

lemma isPacket_sample : ∀ p ∈ [((0x123, [0x07]) : ℕ × List UInt8)], IsPacket p := by
  intro p hp
  obtain rfl := List.mem_singleton.mp hp
  exact ⟨by decide, by decide, by decide⟩

theorem serial_reads_iff_oneRead :
    onRecvAll [encodeAll [(0x123, [0x07])]] = some ([(0x123, [0x07])].map toCanFrame) ↔
      CutAtPackets [(0x123, [0x07])] [encodeAll [(0x123, [0x07])]] :=
  serial_reads_iff [(0x123, [0x07])] isPacket_sample [encodeAll [(0x123, [0x07])]] (by decide)
    (by decide)

/-- One packet in two reads of five bytes is lost. -/
theorem serial_reads_split :
    [[0x41, 0x54, 0x00, 0x00, 0x09], [0x1c, 0x01, 0x07, 0x0d, 0x0a]].flatten =
        encodeAll [(0x123, [0x07])] ∧
      onRecvAll [[0x41, 0x54, 0x00, 0x00, 0x09], [0x1c, 0x01, 0x07, 0x0d, 0x0a]] ≠
        some ([(0x123, [0x07])].map toCanFrame) := by
  decide

end SignalEventLoop.Can
