/-
# The bounds of the cache buffer

`decode_offset <= write_offset <= cache_size <= max_cache_size`, the frames in order before
`decode_offset`, no subtraction below zero, and every `memcpy` inside its block.

`appendCache` chooses the size of a new block from the bytes it keeps, or from the old size,
and `max_frame_size`, and never compares it with the bytes it is going to copy.  The bounds
hold in every run in which each append fits (`AppendFits`): it fits into the block that is
there, or it is refused, or the bytes kept and the new ones fit into the block that is
chosen.  A `max_frame_size` below `max_cache_size` breaks this with one large append.
-/
import SignalEventLoop.Network.CacheView

namespace SignalEventLoop.Network

/-- The results of `decodeFrame` lie inside the bytes it is given: no frame, a frame of at
most `max_frame_size` bytes, or invalid data, whose length is added to `max_frame_size`. -/
def Protocal.Inside (P : Protocal) : Prop :=
  ∀ call mem len, len < 2 ^ 32 →
    (P.decodeFrame call mem len).2 = 0 ∨
    ((P.decodeFrame call mem len).2 ≤ P.maxFrameSize ∧
      (P.decodeFrame call mem len).1 + (P.decodeFrame call mem len).2 ≤ len) ∨
    (P.maxFrameSize < (P.decodeFrame call mem len).2 ∧
      (P.decodeFrame call mem len).2 ≤ P.maxFrameSize + len ∧
      (P.decodeFrame call mem len).2 < 2 ^ 32)

lemma inside_protocalBase (M F slice : UInt32) (streaming : Bool) :
    (protocalBase M streaming F slice).Inside := by
  intro call mem len hlen
  simp only [protocalBase]
  omega

namespace IcacheBuffer

open CacheState

variable {B : IcacheBuffer} {s s' : CacheState} {data : Bytes}

/-- The bounds of the cache buffer. -/
structure Sound (B : IcacheBuffer) (s : CacheState) : Prop where
  inMem : s.InMem
  write_le : s.writeOffset ≤ s.cacheSize
  size_le : s.cacheSize ≤ B.maxCacheSize
  size_le_buf : s.cacheSize ≤ s.cacheBuf.length

/-- The subtractions of `resize` and `appendCache` stay above zero. -/
structure NoUnderflow (s : CacheState) : Prop where
  data_size : s.readOffset ≤ s.writeOffset
  decode_offset : s.readOffset ≤ s.decodeOffset
  frame_offset : ∀ f ∈ s.frameCacheMap, s.readOffset ≤ f.1
  available_size : s.writeOffset - s.readOffset ≤ s.cacheSize

lemma Sound.noUnderflow (h : B.Sound s) : NoUnderflow s where
  data_size := h.inMem.readOffset_le_write
  decode_offset := h.inMem.readOffset_le_decode
  frame_offset := fun _ hf => h.inMem.readOffset_le_frame hf
  available_size := le_trans (Nat.sub_le _ _) h.write_le

lemma sound_init : B.Sound init := ⟨inMem_init, le_refl _, Nat.zero_le _, Nat.zero_le _⟩

/-- The frames and the offset of the decoder may change inside the bounds. -/
lemma Sound.of_sameBlock (h : B.Sound s) (h' : s'.InMem) (hbuf : s'.cacheBuf = s.cacheBuf)
    (hsize : s'.cacheSize = s.cacheSize) (hwrite : s'.writeOffset = s.writeOffset) :
    B.Sound s' :=
  ⟨h', by rw [hwrite, hsize]; exact h.write_le, by rw [hsize]; exact h.size_le,
    by rw [hsize, hbuf]; exact h.size_le_buf⟩

/-! ## Appending -/

/-- The size of the block after an append of `len` bytes that does not fit behind the others:
the bytes kept, or the old size, and one frame more, up to `max_cache_size`. -/
def grownSize (B : IcacheBuffer) (s : CacheState) (len : ℕ) : ℕ :=
  min (if mul32 10 len < sub32 s.cacheSize (s.writeOffset - s.readOffset) then
      add32 (s.writeOffset - s.readOffset) B.protocal.maxFrameSize
    else add32 s.cacheSize B.protocal.maxFrameSize) B.maxCacheSize

lemma newSize_eq_grownSize (h : s.InMem) (len : ℕ) : B.newSize s len = B.grownSize s len := by
  have hmin : ∀ n M : ℕ, (if n > M then M else n) = min n M := by
    intro n M
    split_ifs <;> omega
  rw [newSize, grownSize, h.data_size]
  exact hmin _ _

/-- The size of a new block before it is limited: the bytes kept, or the old size, and one
frame more. -/
def rebuiltSize (B : IcacheBuffer) (s : CacheState) (len : ℕ) : ℕ :=
  if mul32 10 len < s.cacheSize - (s.writeOffset - s.readOffset) then
    add32 (s.writeOffset - s.readOffset) B.protocal.maxFrameSize
  else add32 s.cacheSize B.protocal.maxFrameSize

/-- The condition on an append of `len` bytes: there is nothing to append, or there is room
in the block, or the append is refused, or the new block has room and can be allocated. -/
def AppendFits (B : IcacheBuffer) (s : CacheState) (len : ℕ) : Prop :=
  len = 0 ∨ s.writeOffset + len ≤ s.cacheSize ∨
    (s.cacheSize < add32 len s.writeOffset ∧
      (B.maxCacheSize < add32 (s.writeOffset - s.readOffset) len ∨
        (s.writeOffset - s.readOffset + len ≤ min (B.rebuiltSize s len) B.maxCacheSize ∧
          min (B.rebuiltSize s len) B.maxCacheSize + 1 < 2 ^ 32)))

lemma Sound.newSize_eq (h : B.Sound s) (len : ℕ) :
    B.newSize s len = min (B.rebuiltSize s len) B.maxCacheSize := by
  have hM := B.maxCacheSize_lt
  have hsize := h.size_le
  have havail : sub32 s.cacheSize (s.writeOffset - s.readOffset) =
      s.cacheSize - (s.writeOffset - s.readOffset) :=
    sub32_eq (by omega) h.noUnderflow.available_size
  rw [newSize_eq_grownSize h.inMem, grownSize, rebuiltSize, havail]

lemma copyIn_sound (h : B.Sound s) (hfit : s.writeOffset + data.1.length ≤ s.cacheSize) :
    ∃ s', copyIn s data = some s' ∧ B.Sound s' := by
  have hbuf := h.size_le_buf
  obtain ⟨buf, hstore⟩ : ∃ buf, Lib.store s.cacheBuf s.writeOffset data.1 = some buf :=
    Lib.exists_store (by omega)
  have hcopy : copyIn s data = some { s with
      cacheBuf := buf, writeOffset := add32 s.writeOffset data.1.length } := by
    rw [copyIn, hstore, Option.map_some]
  have hlt := h.inMem.buf_lt
  refine ⟨_, hcopy, (copyIn_appended h.inMem hcopy).inMem, ?_, h.size_le, ?_⟩
  · show add32 s.writeOffset data.1.length ≤ s.cacheSize
    rw [add32_eq (by omega)]
    exact hfit
  · show s.cacheSize ≤ buf.length
    rw [Lib.length_of_store hstore]
    exact hbuf

lemma resize_sound (h : B.Sound s) {new_size : ℕ} (hM : new_size ≤ B.maxCacheSize)
    (hkept : s.writeOffset - s.readOffset ≤ new_size) (halloc : new_size + 1 < 2 ^ 32) :
    ∃ s', s.resize new_size = some s' ∧ B.Sound s' ∧ s'.cacheSize = new_size ∧
      s'.writeOffset = s.writeOffset - s.readOffset := by
  have hone : add32 new_size 1 = new_size + 1 := add32_eq halloc
  obtain ⟨s', hs'⟩ := Option.isSome_iff_exists.mp
    ((resize_isSome h.inMem new_size).mpr (by omega))
  have hmoved := resize_moved h.inMem hs'
  have hcache := hmoved.cacheBuf
  refine ⟨s', hs', ⟨hmoved.inMem, ?_, ?_, ?_⟩, hmoved.cacheSize, hmoved.writeOffset⟩
  · rw [hmoved.writeOffset, hmoved.cacheSize]
    exact hkept
  · rw [hmoved.cacheSize]
    exact hM
  · rw [hmoved.cacheSize]
    omega

/-- An append that fits returns, and keeps the bounds. -/
lemma appendCache_sound (h : B.Sound s) (hfit : B.AppendFits s data.1.length) :
    ∃ ret s', B.appendCache s data = some (ret, s') ∧ B.Sound s' := by
  rw [appendCache]
  dsimp only
  by_cases hlen : data.1.length = 0
  · rw [if_pos hlen]
    exact ⟨_, _, rfl, h⟩
  rw [if_neg hlen]
  by_cases hroom : s.writeOffset + data.1.length ≤ s.cacheSize
  · -- in place
    have hM := B.maxCacheSize_lt
    have hsize := h.size_le
    rw [add32_eq (by omega), if_neg (by omega)]
    obtain ⟨s', hs', hsound⟩ := copyIn_sound h hroom
    exact ⟨_, _, by rw [hs', Option.map_some], hsound⟩
  · obtain ⟨hbig, hcase⟩ : s.cacheSize < add32 data.1.length s.writeOffset ∧ _ :=
      (hfit.resolve_left hlen).resolve_left hroom
    rw [if_pos hbig, h.inMem.data_size]
    -- refused, or moved into the new block
    by_cases hover : add32 (s.writeOffset - s.readOffset) data.1.length > B.maxCacheSize
    · rw [if_pos hover]
      exact ⟨_, _, rfl, h⟩
    · obtain ⟨hnew, halloc⟩ := hcase.resolve_left hover
      rw [if_neg hover, h.newSize_eq]
      obtain ⟨s₁, hs₁, hsound₁, hsize₁, hwrite₁⟩ :=
        resize_sound h (min_le_right _ _) (by omega) halloc
      obtain ⟨s₂, hs₂, hsound₂⟩ : ∃ s₂, copyIn s₁ data = some s₂ ∧ B.Sound s₂ :=
        copyIn_sound hsound₁ (by omega)
      exact ⟨_, _, by rw [hs₁, Option.bind_some, hs₂, Option.map_some], hsound₂⟩

/-! ## Parsing -/

/-- The loop ends, because every frame takes a byte, and stays inside the bounds. -/
lemma parseLoop_sound (hP : B.protocal.Inside) (fuel : ℕ) (h : B.Sound s)
    (hfuel : s.writeOffset - s.decodeOffset < fuel) :
    ∃ invalid s', B.parseLoop fuel s = some (invalid, s') ∧ B.Sound s' := by
  induction fuel generalizing s with
  | zero => omega
  | succ fuel ih =>
    have hd := h.inMem.decode_le
    have hlt := h.inMem.write_lt
    have hframes := h.inMem.frames_le
    obtain ⟨hnone, hframe, hinvalid⟩ := parseLoop_succ (B := B) h.inMem fuel
    -- the calls of `decodeFrame` are counted
    have hcount : B.Sound { s with decodeCalls := s.decodeCalls + 1 } := by
      refine h.of_sameBlock ?_ rfl rfl rfl
      exact ⟨h.inMem.buf_lt, hd, h.inMem.write_le, hframes, h.inMem.ordered⟩
    rcases hP s.decodeCalls (s.cacheBuf.drop s.decodeOffset) (s.writeOffset - s.decodeOffset)
      (by omega) with hzero | ⟨hle, hin⟩ | ⟨hbig, hin, h32⟩
    · exact ⟨_, _, hnone hzero, hcount⟩
    · by_cases hzero : (B.decoded s).2 = 0
      · exact ⟨_, _, hnone hzero, hcount⟩
      · rw [hframe (by omega) hle hin]
        obtain ⟨hmem, -, -⟩ := updateFrameCache_spec hcount.inMem (i := (B.decoded s).1)
          (n := (B.decoded s).2) hin
        refine ih (hcount.of_sameBlock hmem rfl rfl rfl) ?_
        show s.writeOffset - add32 (s.decodeOffset + (B.decoded s).1) (B.decoded s).2 < fuel
        have hin' : (B.decoded s).1 + (B.decoded s).2 ≤ s.writeOffset - s.decodeOffset := hin
        rw [add32_eq (by omega)]
        omega
    · refine ⟨_, _, hinvalid hbig hin h32, h.of_sameBlock ?_ rfl rfl rfl⟩
      have hin' : (B.decoded s).2 ≤
        B.protocal.maxFrameSize + (s.writeOffset - s.decodeOffset) := hin
      refine ⟨h.inMem.buf_lt, ?_, h.inMem.write_le, fun f hf => ?_, h.inMem.ordered⟩
      · show s.decodeOffset + ((B.decoded s).2 - B.protocal.maxFrameSize) ≤ s.writeOffset
        omega
      · exact le_trans (hframes f hf) (Nat.le_add_right _ _)

lemma readFromBuf_sound (hP : B.protocal.Inside) (h : B.Sound s)
    (hfit : B.AppendFits s data.1.length) :
    ∃ ret s', B.readFromBuf s data = some (ret, s') ∧ B.Sound s' := by
  obtain ⟨ok, s₁, happ, h₁⟩ := appendCache_sound h hfit
  rw [readFromBuf, happ, Option.bind_some]
  cases ok with
  | false => exact ⟨_, _, rfl, h₁⟩
  | true =>
    obtain ⟨invalid, s₂, hloop, h₂⟩ := parseLoop_sound hP _ h₁ (Nat.lt_succ_self _)
    simp only [if_true, hloop, Option.map_some]
    exact ⟨_, _, rfl, h₂⟩

lemma appendFrame_sound (h : B.Sound s) (hfit : B.AppendFits s data.1.length) :
    ∃ ret s', B.appendFrame s data = some (ret, s') ∧ B.Sound s' := by
  obtain ⟨ok, s₁, happ, h₁⟩ := appendCache_sound h hfit
  have hframe : B.appendFrame s data = some (if ok then ((data.1.length : ℤ),
      updateFrameCache s₁ (sub32 s₁.writeOffset data.1.length) data.1.length) else (-1, s₁)) := by
    rw [appendFrame, happ, Option.map_some]
  cases ok with
  | false => exact ⟨_, _, hframe, h₁⟩
  | true =>
    refine ⟨_, _, hframe, h₁.of_sameBlock ?_ rfl rfl rfl⟩
    rcases appendFrame_cases h.inMem hframe with ⟨hret, -⟩ | ⟨-, -, hmem, -⟩
    · exact absurd hret (by simp)
    · exact hmem

/-! ## Runs -/

/-- The number of bytes that an operation appends. -/
def appends (B : IcacheBuffer) : CacheOp → ℕ
  | .readFromBuf data | .appendFrame data => data.1.length
  | .appendRawData data => (B.protocal.encodeFrame data).1.length
  | .popFrame | .sendCacheByFd _ => 0

/-- The condition on an operation. -/
def OpFits (B : IcacheBuffer) (s : CacheState) (op : CacheOp) : Prop :=
  B.AppendFits s (B.appends op)

lemma step_sound (hP : B.protocal.Inside) (h : B.Sound s) {op : CacheOp} (hfit : B.OpFits s op) :
    ∃ s', B.step s op = some s' ∧ B.Sound s' := by
  cases op with
  | readFromBuf data =>
    obtain ⟨ret, s', hs', hsound⟩ := readFromBuf_sound hP h hfit
    exact ⟨s', by rw [step, hs', Option.map_some], hsound⟩
  | appendFrame data =>
    obtain ⟨ret, s', hs', hsound⟩ := appendFrame_sound h hfit
    exact ⟨s', by rw [step, hs', Option.map_some], hsound⟩
  | appendRawData data =>
    obtain ⟨ret, s', hs', hsound⟩ := appendFrame_sound h hfit
    exact ⟨s', by rw [step, appendRawData, hs', Option.map_some], hsound⟩
  | popFrame =>
    obtain ⟨s', hs', hmem, hsame, -⟩ := popFrame_spec h.inMem
    refine ⟨s', by rw [step, hs', Option.map_some], ?_⟩
    rw [hsame] at hmem ⊢
    exact h.of_sameBlock hmem rfl rfl rfl
  | sendCacheByFd results =>
    obtain ⟨ret, out, s', hs', hmem, hsame, -⟩ := sendCacheByFd_spec (B := B) h.inMem results
    refine ⟨s', by rw [step, hs', Option.map_some], ?_⟩
    rw [hsame] at hmem ⊢
    exact h.of_sameBlock hmem rfl rfl rfl

/-- **The bounds of the cache buffer.** In every run of operations each of which fits, every
`memcpy` stays inside its block, every operation returns, the offsets and the frames keep
their bounds, and no subtraction goes below zero. -/
theorem cache_bounds (B : IcacheBuffer) (hP : B.protocal.Inside) (ops : List CacheOp)
    (hfits : Lib.AllSteps B.step B.OpFits init ops) :
    ∃ s, Lib.run B.step init ops = some s ∧ B.Sound s ∧ NoUnderflow s := by
  obtain ⟨s, hrun, hsound⟩ := Lib.run_total_of_allSteps (I := B.Sound)
    (fun _ _ h hfit => step_sound hP h hfit) sound_init hfits
  exact ⟨s, hrun, hsound, hsound.noUnderflow⟩

instance decidableAppendFits (B : IcacheBuffer) (s : CacheState) (len : ℕ) :
    Decidable (B.AppendFits s len) :=
  inferInstanceAs (Decidable (_ ∨ _))

instance decidableOpFits (B : IcacheBuffer) (s : CacheState) (op : CacheOp) :
    Decidable (B.OpFits s op) :=
  inferInstanceAs (Decidable (B.AppendFits s _))

/-- Ten bytes come in as a frame and are popped, and a frame of three bytes is sent in part,
with `max_frame_size` equal to `max_cache_size`. -/
theorem cache_bounds_echo : ∃ s, Lib.run (icacheBufferStream (protocalBase 64 true 64 0)).step init
      [.readFromBuf ⟨List.replicate 10 7, by decide⟩, .popFrame,
        .appendFrame ⟨[1, 2, 3], by decide⟩, .sendCacheByFd [.sent 2, .again]] = some s ∧
    (icacheBufferStream (protocalBase 64 true 64 0)).Sound s ∧ NoUnderflow s :=
  cache_bounds (icacheBufferStream (protocalBase 64 true 64 0)) (inside_protocalBase 64 64 0 true) _
    (by decide +kernel)

/-- With `max_cache_size` 64 and `max_frame_size` 8, ten bytes are accepted into a new block
of nine. -/
theorem append_overruns_block : (protocalBase 64 true 8 0).Inside ∧
    (icacheBufferStream (protocalBase 64 true 8 0)).appendCache init
      ⟨List.replicate 10 7, by decide⟩ = none ∧
    Lib.run (icacheBufferStream (protocalBase 64 true 8 0)).step init
      [.readFromBuf ⟨List.replicate 10 7, by decide⟩] = none :=
  ⟨inside_protocalBase 64 8 0 true, by decide +kernel, by decide +kernel⟩

end IcacheBuffer

end SignalEventLoop.Network
