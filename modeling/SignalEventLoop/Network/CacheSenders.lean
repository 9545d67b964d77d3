/-
# The two senders

`IcacheBufferBase::sendCacheByFd` and `IcacheBufferStream::sendCacheByFd` on the same frames.
`IcacheBufferStream` counts in the front frame itself what `send` has accepted.
`IcacheBufferBase` counts in a copy: when `send` has to wait inside of a frame, the next call
begins with the first byte of the frame again.

A sender is right when the bytes on the wire and the frames that are still cached are the frames
that were cached in the beginning.
-/
import SignalEventLoop.Network.CacheSend

namespace SignalEventLoop.Network

namespace IcacheBuffer

open CacheState

variable {B : IcacheBuffer} {s : CacheState}

/-- The calls of `sendCacheByFd` with these results of `send` put the frames on the wire, in
order and without repetition, as far as they are not cached any more. -/
def Transmits (B : IcacheBuffer) (s : CacheState) (calls : List (List SendResult)) : Prop :=
  ∃ s', Lib.run B.step s (calls.map .sendCacheByFd) = some s' ∧
    Lib.outputs B.step B.wire s (calls.map .sendCacheByFd) ++ s'.frames.flatten =
      s.frames.flatten

/-- The number of bytes that `send` accepts of slices, before it first has to wait or fails. -/
def offered (slice_size : ℕ) : List SendResult → ℕ
  | [] | .again :: _ | .error :: _ => 0
  | .sent n :: results => min n slice_size + offered slice_size results

/-- In the call `send` accepts nothing, or all of the front frame. -/
def WholeOrNothing (slice_size : ℕ) (s : CacheState) : CacheOp → Prop
  | .sendCacheByFd results => ∀ front ∈ s.frameCacheMap.head?,
      offered slice_size results = 0 ∨ front.2 ≤ offered slice_size results
  | _ => True

instance (slice_size : ℕ) (s : CacheState) (op : CacheOp) :
    Decidable (WholeOrNothing slice_size s op) := by
  cases op <;> unfold WholeOrNothing <;> infer_instance

/-- The loop of `IcacheBufferBase` sends the first bytes of the frame, as many as are accepted. -/
lemma sendLoopBase_spec (hstreaming : B.protocal.isStreaming = true) {buf : List UInt8}
    (hlt : buf.length < 2 ^ 32) (results : List SendResult) (frame : ℕ × ℕ) (out : List UInt8)
    (hframe : frame.1 + frame.2 ≤ buf.length) :
    ∃ e frame', B.sendLoopBase buf frame out results = some (e, frame',
        out ++ Lib.slice buf frame.1 (min frame.2 (offered B.protocal.sliceSize results))) ∧
      frame'.2 = frame.2 - offered B.protocal.sliceSize results ∧
      (e = .closed → 0 < frame'.2) := by
  induction results generalizing frame out with
  | nil =>
    refine ⟨.done, frame, ?_, rfl, fun h => nomatch h⟩
    rw [sendLoopBase, offered, Nat.min_zero, Lib.slice_zero_len, List.append_nil]
    split_ifs <;> rfl
  | cons r results ih =>
    unfold sendLoopBase
    by_cases hzero : frame.2 = 0
    · rw [if_pos hzero]
      refine ⟨.done, frame, ?_, by omega, fun h => nomatch h⟩
      rw [hzero, Nat.zero_min, Lib.slice_zero_len, List.append_nil]
    · rw [if_neg hzero]
      cases r with
      | again =>
        refine ⟨.done, frame, ?_, rfl, fun h => nomatch h⟩
        rw [offered, Nat.min_zero, Lib.slice_zero_len, List.append_nil]
      | error =>
        refine ⟨.closed, frame, ?_, rfl, fun _ => Nat.pos_of_ne_zero hzero⟩
        rw [offered, Nat.min_zero, Lib.slice_zero_len, List.append_nil]
      | sent n =>
        dsimp only
        set send_size := if frame.2 > B.protocal.sliceSize then B.protocal.sliceSize else frame.2
          with hsize
        have hle : send_size ≤ frame.2 := by
          rw [hsize]
          split_ifs <;> omega
        have hret : min n send_size = min (min n B.protocal.sliceSize) frame.2 := by
          rw [hsize]
          split_ifs <;> omega
        rw [Lib.load_eq_some.mpr ⟨by omega, rfl⟩, Option.bind_some, if_neg (by simp [hstreaming]),
          Lib.take_slice (min_le_right _ _), add32_eq (by omega), sub32_eq (by omega) (by omega)]
        obtain ⟨e, frame', he, hleft, hclosed⟩ := ih (frame.1 + min n send_size,
          frame.2 - min n send_size) (out ++ Lib.slice buf frame.1 (min n send_size))
          (by dsimp only; omega)
        dsimp only at hleft
        refine ⟨e, frame', ?_, ?_, hclosed⟩
        · rw [he, List.append_assoc, Lib.slice_append_slice, offered]
          congr 5
          omega
        · rw [hleft, offered]
          omega

lemma front_le (h : s.InMem) {front : ℕ × ℕ} {rest : List (ℕ × ℕ)}
    (hmap : s.frameCacheMap = front :: rest) : front.1 + front.2 ≤ s.cacheBuf.length := by
  have := h.frames_le front (by simp [hmap])
  have := h.decode_le
  have := h.write_le
  omega

/-- A call of `IcacheBufferBase`: the first bytes of the front frame are sent, and it is removed
when these are all of its bytes. -/
lemma sendCacheByFd_base (hstream : B.isStream = false) (hstreaming : B.protocal.isStreaming = true)
    (h : s.InMem) (results : List SendResult) {front : ℕ × ℕ} {rest : List (ℕ × ℕ)}
    (hmap : s.frameCacheMap = front :: rest) :
    B.step s (.sendCacheByFd results) = some { s with
        frameCacheMap :=
          if front.2 ≤ offered B.protocal.sliceSize results then rest else front :: rest } ∧
      B.wire s (.sendCacheByFd results) = Lib.slice s.cacheBuf front.1
        (min front.2 (offered B.protocal.sliceSize results)) := by
  have hf := front_le h hmap
  obtain ⟨e, frame', he, hleft, hclosed⟩ :=
    sendLoopBase_spec hstreaming h.buf_lt results front [] hf
  rw [List.nil_append] at he
  cases e with
  | closed =>
    have hpos := hclosed rfl
    have hmore : ¬ front.2 ≤ offered B.protocal.sliceSize results := by omega
    simp only [step, wire, sendCacheByFd, hmap, hstream, Bool.false_eq_true, if_false, he,
      Option.map_some, if_neg hmore, and_self]
  | done =>
    have hzero : frame'.2 = 0 ↔ front.2 ≤ offered B.protocal.sliceSize results := by omega
    simp only [step, wire, sendCacheByFd, hmap, hstream, Bool.false_eq_true, if_false, he,
      Option.map_some, hzero, and_self]

/-- **One call.** It keeps what is on the wire and in the cache if all or nothing of the front frame
is sent, and else the sent bytes are there twice. -/
lemma base_step (hstream : B.isStream = false) (hstreaming : B.protocal.isStreaming = true)
    (h : s.InMem) (results : List SendResult) :
    ∃ s', B.step s (.sendCacheByFd results) = some s' ∧ s'.InMem ∧
      (WholeOrNothing B.protocal.sliceSize s (.sendCacheByFd results) →
        B.wire s (.sendCacheByFd results) ++ s'.frames.flatten = s.frames.flatten) ∧
      (¬ WholeOrNothing B.protocal.sliceSize s (.sendCacheByFd results) →
        s.frames.flatten.length <
          (B.wire s (.sendCacheByFd results) ++ s'.frames.flatten).length) := by
  cases hmap : s.frameCacheMap with
  | nil =>
    refine ⟨s, by simp [step, sendCacheByFd, hmap], h, fun _ => ?_, fun hnot => absurd ?_ hnot⟩
    · simp [wire, sendCacheByFd, hmap]
    · simp [WholeOrNothing, hmap]
  | cons front rest =>
    obtain ⟨hstep, hwire⟩ := sendCacheByFd_base hstream hstreaming h results hmap
    have hf := front_le h hmap
    have hframes : s.frames.flatten = Lib.slice s.cacheBuf front.1 front.2 ++
        (rest.map fun f => Lib.slice s.cacheBuf f.1 f.2).flatten := by
      simp [CacheState.frames, hmap]
    have hwhole : WholeOrNothing B.protocal.sliceSize s (.sendCacheByFd results) ↔
        offered B.protocal.sliceSize results = 0 ∨
          front.2 ≤ offered B.protocal.sliceSize results := by
      simp [WholeOrNothing, hmap]
    refine ⟨_, hstep, ?_, ?_, ?_⟩
    · split_ifs
      · exact inMem_dropFront h hmap
      · rw [← hmap]
        exact h
    · intro hok
      rw [hwire, hframes]
      split_ifs with hwholeFrame
      · rw [min_eq_left hwholeFrame]
        rfl
      · obtain hzero := (hwhole.mp hok).resolve_right hwholeFrame
        rw [hzero, Nat.min_zero, Lib.slice_zero_len, List.nil_append]
        simp [CacheState.frames]
    · intro hnot
      rw [hwhole, not_or] at hnot
      have hsent : (Lib.slice s.cacheBuf front.1
          (min front.2 (offered B.protocal.sliceSize results))).length =
            offered B.protocal.sliceSize results := by
        rw [Lib.length_slice (by omega)]
        omega
      rw [if_neg hnot.2, List.length_append, hwire, hsent, ← hmap]
      exact Nat.lt_add_of_pos_left (Nat.pos_of_ne_zero hnot.1)

/-! ## Runs -/

/-- What is on the wire and in the cache never becomes less. -/
lemma base_run (hstream : B.isStream = false) (hstreaming : B.protocal.isStreaming = true)
    (h : s.InMem) (calls : List (List SendResult)) :
    ∃ s', Lib.run B.step s (calls.map .sendCacheByFd) = some s' ∧
      s.frames.flatten.length ≤ (Lib.outputs B.step B.wire s (calls.map .sendCacheByFd) ++
        s'.frames.flatten).length := by
  induction calls generalizing s with
  | nil => exact ⟨s, rfl, le_rfl⟩
  | cons results calls ih =>
    obtain ⟨s₁, hs₁, h₁, hok, hnot⟩ := base_step hstream hstreaming h results
    obtain ⟨s', hs', hle⟩ := ih h₁
    refine ⟨s', Lib.run_cons_eq_some.mpr ⟨s₁, hs₁, hs'⟩, ?_⟩
    have hstep : s.frames.flatten.length ≤
        (B.wire s (.sendCacheByFd results) ++ s₁.frames.flatten).length := by
      by_cases hwhole : WholeOrNothing B.protocal.sliceSize s (.sendCacheByFd results)
      · rw [hok hwhole]
      · exact (hnot hwhole).le
    rw [List.map_cons, Lib.outputs_cons _ hs₁]
    simp only [List.length_append] at hle hstep ⊢
    omega

lemma transmits_base_iff (hstream : B.isStream = false) (hstreaming : B.protocal.isStreaming = true)
    (h : s.InMem) (calls : List (List SendResult)) : Transmits B s calls ↔
      Lib.AllSteps B.step (WholeOrNothing B.protocal.sliceSize) s (calls.map .sendCacheByFd) := by
  induction calls generalizing s with
  | nil => exact ⟨fun _ => trivial, fun _ => ⟨s, rfl, rfl⟩⟩
  | cons results calls ih =>
    obtain ⟨s₁, hs₁, h₁, hok, hnot⟩ := base_step hstream hstreaming h results
    rw [List.map_cons, Lib.allSteps_cons_of_eq_some hs₁, ← ih h₁]
    constructor
    · rintro ⟨s', hrun, hbytes⟩
      rw [List.map_cons, Lib.run_cons_eq_some] at hrun
      obtain ⟨s₂, hs₂, hrun⟩ := hrun
      obtain rfl : s₁ = s₂ := Option.some.inj (hs₁.symm.trans hs₂)
      rw [List.map_cons, Lib.outputs_cons _ hs₁, List.append_assoc] at hbytes
      have hwhole : WholeOrNothing B.protocal.sliceSize s (.sendCacheByFd results) := by
        -- a byte that is there twice stays
        by_contra hpart
        obtain ⟨t, ht, hle⟩ := base_run hstream hstreaming h₁ calls
        obtain rfl : s' = t := Option.some.inj (hrun.symm.trans ht)
        have hlt := hnot hpart
        have hlength := congrArg List.length hbytes
        simp only [List.length_append] at hle hlt hlength
        omega
      refine ⟨hwhole, s', hrun, ?_⟩
      rw [← hok hwhole] at hbytes
      exact List.append_cancel_left hbytes
    · rintro ⟨hwhole, s', hrun, hbytes⟩
      refine ⟨s', Lib.run_cons_eq_some.mpr ⟨s₁, hs₁, hrun⟩, ?_⟩
      rw [List.map_cons, Lib.outputs_cons _ hs₁, List.append_assoc, hbytes, hok hwhole]

lemma transmits_stream (hstream : B.isStream = true) (h : s.InMem)
    (calls : List (List SendResult)) : Transmits B s calls := by
  induction calls generalizing s with
  | nil => exact ⟨s, rfl, rfl⟩
  | cons results calls ih =>
    obtain ⟨ret, out, s₁, hs₁, h₁, -, hout⟩ := sendCacheByFd_spec (B := B) h results
    have hstep : B.step s (.sendCacheByFd results) = some s₁ := by rw [step, hs₁, Option.map_some]
    have hwire : B.wire s (.sendCacheByFd results) = out := by simp only [wire, hs₁]
    obtain ⟨s', hrun, hbytes⟩ := ih h₁
    refine ⟨s', Lib.run_cons_eq_some.mpr ⟨s₁, hstep, hrun⟩, ?_⟩
    rw [List.map_cons, Lib.outputs_cons _ hstep, List.append_assoc, hbytes, hwire, hout hstream]

/-- **The two senders.** `IcacheBufferStream` transmits the frames for all results of `send`;
`IcacheBufferBase` does so exactly when in each of its calls `send` accepts nothing, or all of
the frame before it has to wait. -/
theorem senders_transmit_iff (P : Protocal) (hP : P.isStreaming = true) (max_cache_size : UInt32)
    {s : CacheState} (h : s.InMem) (calls : List (List SendResult)) :
    Transmits (icacheBufferStream P) s calls ∧
      (Transmits (icacheBufferBase P max_cache_size) s calls ↔
        Lib.AllSteps (icacheBufferBase P max_cache_size).step (WholeOrNothing P.sliceSize) s
          (calls.map .sendCacheByFd)) :=
  ⟨transmits_stream rfl h calls, transmits_base_iff rfl hP h calls⟩

/-- The frames `01 02 03` and `04` of a cache. -/
def twoFrames : CacheState := ⟨[1, 2, 3, 4], 4, 4, 4, [(0, 3), (3, 1)], 0⟩

lemma inMem_twoFrames : twoFrames.InMem := by
  refine ⟨by decide, by decide, by decide, by decide, ?_⟩
  simp [twoFrames]

theorem senders_transmit_twoFrames :
    Transmits (icacheBufferBase (protocalBase 4 true 4 2) 4) twoFrames
      [[.again], [.sent 2, .sent 1], [.sent 1]] :=
  (senders_transmit_iff (protocalBase 4 true 4 2) rfl 4 inMem_twoFrames
    [[.again], [.sent 2, .sent 1], [.sent 1]]).2.mpr (by decide)

/-- `send` accepts one byte and has to wait; `IcacheBufferBase` sends this byte again. -/
theorem senders_transmit_twice :
    Lib.outputs (icacheBufferBase (protocalBase 4 true 4 4) 4).step
        (icacheBufferBase (protocalBase 4 true 4 4) 4).wire twoFrames
        [.sendCacheByFd [.sent 1, .again], .sendCacheByFd [.sent 3], .sendCacheByFd [.sent 1]] =
      [1, 1, 2, 3, 4] ∧
    Lib.outputs (icacheBufferStream (protocalBase 4 true 4 4)).step
        (icacheBufferStream (protocalBase 4 true 4 4)).wire twoFrames
        [.sendCacheByFd [.sent 1, .again], .sendCacheByFd [.sent 3], .sendCacheByFd [.sent 1]] =
      [1, 2, 3, 4] := by
  decide +kernel

end IcacheBuffer

end SignalEventLoop.Network
