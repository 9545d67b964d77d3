/-
# The write path

An `IcacheBufferStream` takes frames with `appendFrame` and gives their bytes to `send`.
When `max_frame_size` is at least `max_cache_size`, every new block has the largest size, so
that every append fits, and the bytes that were sent together with the frames that are still
cached are always the frames that were accepted.
-/
import SignalEventLoop.Network.CacheBounds

namespace SignalEventLoop.Network

namespace IcacheBuffer

open CacheState

variable {B : IcacheBuffer} {s s' : CacheState} {data : Bytes}

/-- Below 2^31 no sum of two sizes wraps, and a new block of the largest size has room for
everything that is not refused. -/
lemma appendFits_of_maxCacheSize_le (h : B.Sound s) (hF : B.maxCacheSize ≤ B.protocal.maxFrameSize)
    (hlt : B.protocal.maxFrameSize < 2 ^ 31) {len : ℕ} (hlen : len < 2 ^ 31) :
    B.AppendFits s len := by
  have hwrite := h.write_le
  have hsize := h.size_le
  have hbig : ∀ a, a ≤ B.maxCacheSize →
      B.maxCacheSize ≤ add32 a B.protocal.maxFrameSize := by
    intro a ha
    rw [add32_eq (by omega)]
    omega
  have hnew : min (B.rebuiltSize s len) B.maxCacheSize = B.maxCacheSize := by
    refine min_eq_right ?_
    unfold rebuiltSize
    split_ifs
    · exact hbig _ (by omega)
    · exact hbig _ hsize
  by_cases hroom : s.writeOffset + len ≤ s.cacheSize
  · exact Or.inr (Or.inl hroom)
  · refine Or.inr (Or.inr ⟨by rw [add32_eq (by omega)]; omega, ?_⟩)
    rw [hnew, add32_eq (by omega)]
    omega

/-- The bytes that `send` accepts in an operation. -/
def wire (B : IcacheBuffer) (s : CacheState) : CacheOp → List UInt8
  | .sendCacheByFd results =>
    match B.sendCacheByFd s results with
    | some (_, out, _) => out
    | none => []
  | _ => []

/-- The frame that an operation appends, when the append is not refused. -/
def accepted (B : IcacheBuffer) (s : CacheState) : CacheOp → List UInt8
  | .appendFrame data =>
    match B.appendFrame s data with
    | some (ret, _) => if ret = -1 then [] else data.1
    | none => []
  | _ => []

/-- The operations of the write path, with data below 2^31 bytes. -/
def Writes : CacheOp → Prop
  | .appendFrame data => data.1.length < 2 ^ 31
  | .sendCacheByFd _ => True
  | _ => False

/-- A step of the write path moves bytes from the frames to the wire, or adds a frame. -/
lemma step_conserves (hstream : B.isStream = true) (hF : B.maxCacheSize ≤ B.protocal.maxFrameSize)
    (hlt : B.protocal.maxFrameSize < 2 ^ 31) (h : B.Sound s) {op : CacheOp} (hop : Writes op) :
    ∃ s', B.step s op = some s' ∧ B.Sound s' ∧
      B.wire s op ++ s'.frames.flatten = s.frames.flatten ++ B.accepted s op := by
  cases op with
  | readFromBuf data => exact absurd hop not_false
  | appendRawData data => exact absurd hop not_false
  | popFrame => exact absurd hop not_false
  | appendFrame data =>
    obtain ⟨ret, s', hs', hsound⟩ : ∃ ret s', B.appendFrame s data = some (ret, s') ∧ B.Sound s' :=
      appendFrame_sound h (appendFits_of_maxCacheSize_le h hF hlt hop)
    refine ⟨s', by rw [step, hs', Option.map_some], hsound, ?_⟩
    simp only [wire, accepted, hs', List.nil_append]
    rcases appendFrame_cases h.inMem hs' with ⟨rfl, rfl⟩ | ⟨rfl, -, -, hframes⟩
    · simp
    · rw [hframes, if_neg (by omega)]
      simp
  | sendCacheByFd results =>
    obtain ⟨ret, out, s', hs', hmem, hsame, hout⟩ := sendCacheByFd_spec (B := B) h.inMem results
    refine ⟨s', by rw [step, hs', Option.map_some], ?_, ?_⟩
    · rw [hsame] at hmem ⊢
      exact h.of_sameBlock hmem rfl rfl rfl
    · simp only [wire, accepted, hs', List.append_nil]
      exact hout hstream

/-- The bytes on the wire and the cached frames are the accepted frames. -/
lemma run_conserves (hstream : B.isStream = true) (hF : B.maxCacheSize ≤ B.protocal.maxFrameSize)
    (hlt : B.protocal.maxFrameSize < 2 ^ 31) (ops : List CacheOp) (h : B.Sound s)
    (hops : ∀ op ∈ ops, Writes op) :
    ∃ s', Lib.run B.step s ops = some s' ∧ B.Sound s' ∧
      Lib.outputs B.step B.wire s ops ++ s'.frames.flatten =
        s.frames.flatten ++ Lib.outputs B.step B.accepted s ops := by
  induction ops generalizing s with
  | nil => exact ⟨s, rfl, h, by simp⟩
  | cons op ops ih =>
    obtain ⟨s₁, hs₁, h₁, hstep⟩ := step_conserves hstream hF hlt h (hops op List.mem_cons_self)
    obtain ⟨s', hs', h', hrun⟩ := ih h₁ fun op hop => hops op (List.mem_cons_of_mem _ hop)
    refine ⟨s', Lib.run_cons_eq_some.mpr ⟨s₁, hs₁, hs'⟩, h', ?_⟩
    rw [Lib.outputs_cons ops hs₁, Lib.outputs_cons ops hs₁, List.append_assoc, hrun,
      ← List.append_assoc, hstep, List.append_assoc]

/-- **The write path loses and duplicates nothing.** For every interleaving of `appendFrame`
and `sendCacheByFd`, and all results of `send`: the bytes that were sent are a prefix of the
frames that were accepted, in order; they are all of them when no frame is cached; and a
refused append changes nothing. -/
theorem write_path (P : Protocal) (hF : P.maxCacheSize ≤ P.maxFrameSize)
    (hlt : P.maxFrameSize < 2 ^ 31) (ops : List CacheOp) (hops : ∀ op ∈ ops, Writes op) :
    ∃ s, Lib.run (icacheBufferStream P).step init ops = some s ∧
      Lib.outputs (icacheBufferStream P).step (icacheBufferStream P).wire init ops <+:
        Lib.outputs (icacheBufferStream P).step (icacheBufferStream P).accepted init ops ∧
      (s.frameCacheMap = [] →
        Lib.outputs (icacheBufferStream P).step (icacheBufferStream P).wire init ops =
          Lib.outputs (icacheBufferStream P).step (icacheBufferStream P).accepted init ops) ∧
      ∀ data s', (icacheBufferStream P).appendFrame s data = some (-1, s') → s' = s := by
  obtain ⟨s, hs, hsound, hbytes⟩ :=
    run_conserves (B := icacheBufferStream P) rfl hF hlt ops sound_init hops
  rw [show init.frames.flatten = [] from rfl, List.nil_append] at hbytes
  refine ⟨s, hs, ⟨s.frames.flatten, hbytes⟩, fun hempty => ?_, fun data s' hs' => ?_⟩
  · rw [← hbytes]
    simp [CacheState.frames, hempty]
  · rcases appendFrame_cases hsound.inMem hs' with ⟨-, hsame⟩ | ⟨hret, -⟩
    · exact hsame
    · omega

/-- Two frames in a cache of 4 bytes, sent in pieces; a third one is refused in between. -/
theorem write_path_pieces : ∃ s, Lib.run (icacheBufferStream (protocalBase 4 true 4 0)).step init
      [.appendFrame ⟨[1, 2, 3], by decide⟩, .sendCacheByFd [.sent 2, .again],
        .appendFrame ⟨[4, 5, 6], by decide⟩, .appendFrame ⟨[7], by decide⟩,
        .sendCacheByFd [.sent 1], .sendCacheByFd [.sent 2, .sent 1]] = some s ∧
    s.frameCacheMap = [] ∧
    Lib.outputs (icacheBufferStream (protocalBase 4 true 4 0)).step
      (icacheBufferStream (protocalBase 4 true 4 0)).wire init
      [.appendFrame ⟨[1, 2, 3], by decide⟩, .sendCacheByFd [.sent 2, .again],
        .appendFrame ⟨[4, 5, 6], by decide⟩, .appendFrame ⟨[7], by decide⟩,
        .sendCacheByFd [.sent 1], .sendCacheByFd [.sent 2, .sent 1]] = [1, 2, 3, 4, 5, 6] := by
  let ops : List CacheOp := [.appendFrame ⟨[1, 2, 3], by decide⟩, .sendCacheByFd [.sent 2, .again],
    .appendFrame ⟨[4, 5, 6], by decide⟩, .appendFrame ⟨[7], by decide⟩, .sendCacheByFd [.sent 1],
    .sendCacheByFd [.sent 2, .sent 1]]
  obtain ⟨s, hs, -, hall, -⟩ := write_path (protocalBase 4 true 4 0) (by decide) (by decide) ops
    (by simp [ops, Writes])
  have hempty : (Lib.run (icacheBufferStream (protocalBase 4 true 4 0)).step init ops).map
      frameCacheMap = some [] := by decide +kernel
  rw [hs, Option.map_some, Option.some.injEq] at hempty
  refine ⟨s, hs, hempty, (hall hempty).trans ?_⟩
  decide +kernel

end IcacheBuffer

end SignalEventLoop.Network
