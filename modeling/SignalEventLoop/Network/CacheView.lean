/-
# What a cache buffer holds

Seen from outside, a cache buffer holds a list of frames and the bytes behind them that are
not decoded yet.  `InMem` says that all of these lie inside the block of memory; under it
every operation that returns does to the frames and the bytes what it is meant to do,
wherever `resize` has moved them.
-/
import SignalEventLoop.Network.CacheBuffer

namespace SignalEventLoop.Network

namespace CacheState

/-- The frames and the bytes behind them lie in the block, in order. -/
structure InMem (s : CacheState) : Prop where
  buf_lt : s.cacheBuf.length < 2 ^ 32
  decode_le : s.decodeOffset ≤ s.writeOffset
  write_le : s.writeOffset ≤ s.cacheBuf.length
  frames_le : ∀ f ∈ s.frameCacheMap, f.1 + f.2 ≤ s.decodeOffset
  ordered : s.frameCacheMap.Pairwise fun a b => a.1 + a.2 ≤ b.1

/-- The frames that are cached. -/
def frames (s : CacheState) : List (List UInt8) :=
  s.frameCacheMap.map fun f => Lib.slice s.cacheBuf f.1 f.2

/-- The bytes that are not decoded yet. -/
def rest (s : CacheState) : List UInt8 :=
  Lib.slice s.cacheBuf s.decodeOffset (s.writeOffset - s.decodeOffset)

variable {s s' : CacheState}

lemma inMem_init : init.InMem := by
  refine ⟨?_, ?_, ?_, ?_, ?_⟩ <;> simp [init]

namespace InMem

variable (h : s.InMem)

include h

lemma write_lt : s.writeOffset < 2 ^ 32 := lt_of_le_of_lt h.write_le h.buf_lt

lemma length_rest : s.rest.length = s.writeOffset - s.decodeOffset := by
  have := h.write_le
  have := h.decode_le
  exact Lib.length_slice (by omega)

lemma readOffset_le_frame {f : ℕ × ℕ} (hf : f ∈ s.frameCacheMap) : s.readOffset ≤ f.1 := by
  have hord := h.ordered
  cases hmap : s.frameCacheMap with
  | nil => simp [hmap] at hf
  | cons g rest =>
    rw [hmap] at hf hord
    simp only [readOffset, hmap]
    rcases List.mem_cons.mp hf with rfl | hf
    · exact le_refl _
    · have := (List.pairwise_cons.mp hord).1 f hf
      omega

lemma readOffset_le_decode : s.readOffset ≤ s.decodeOffset := by
  cases hmap : s.frameCacheMap with
  | nil => simp [readOffset, hmap]
  | cons g rest =>
    have hg := h.frames_le g (by simp [hmap])
    simp only [readOffset, hmap]
    omega

lemma readOffset_le_write : s.readOffset ≤ s.writeOffset :=
  le_trans h.readOffset_le_decode h.decode_le

lemma data_size : sub32 s.writeOffset s.readOffset = s.writeOffset - s.readOffset :=
  sub32_eq h.write_lt h.readOffset_le_write

end InMem

/-! ## `resize` -/

/-- What `resize` does: the bytes from the read offset on move to the beginning of a block
of the new size. -/
structure Moved (s : CacheState) (new_size : ℕ) (s' : CacheState) : Prop where
  inMem : s'.InMem
  frames : s'.frames = s.frames
  rest : s'.rest = s.rest
  cacheBuf : s'.cacheBuf.length = add32 new_size 1
  cacheSize : s'.cacheSize = new_size
  writeOffset : s'.writeOffset = s.writeOffset - s.readOffset
  decodeCalls : s'.decodeCalls = s.decodeCalls

lemma resize_eq_some {new_size : ℕ} (h : s.InMem) (hs' : s.resize new_size = some s') :
    ∃ buf, Lib.store (List.replicate (add32 new_size 1) 0) 0
        (Lib.slice s.cacheBuf s.readOffset (s.writeOffset - s.readOffset)) = some buf ∧
      s' = { s with
        cacheBuf := buf
        cacheSize := new_size
        writeOffset := s.writeOffset - s.readOffset
        decodeOffset := s.decodeOffset - s.readOffset
        frameCacheMap := s.frameCacheMap.map fun f => (f.1 - s.readOffset, f.2) } := by
  rw [resize, h.data_size] at hs'
  obtain ⟨kept, hkept, hs'⟩ := Option.bind_eq_some_iff.mp hs'
  obtain ⟨-, rfl⟩ := Lib.load_eq_some.mp hkept
  obtain ⟨buf, hbuf, hs'⟩ := Option.bind_eq_some_iff.mp hs'
  refine ⟨buf, hbuf, ?_⟩
  rw [← Option.some.inj hs']
  have hdec : sub32 s.decodeOffset s.readOffset = s.decodeOffset - s.readOffset :=
    sub32_eq (lt_of_le_of_lt h.decode_le h.write_lt) h.readOffset_le_decode
  have hmap : s.frameCacheMap.map (fun f => (sub32 f.1 s.readOffset, f.2)) =
      s.frameCacheMap.map fun f => (f.1 - s.readOffset, f.2) := by
    refine List.map_congr_left fun f hf => ?_
    have := h.frames_le f hf
    have := h.decode_le
    have := h.write_lt
    rw [sub32_eq (by omega) (h.readOffset_le_frame hf)]
  simp only [hdec, hmap]

lemma resize_moved {new_size : ℕ} (h : s.InMem) (hs' : s.resize new_size = some s') :
    s.Moved new_size s' := by
  obtain ⟨buf, hbuf, rfl⟩ := resize_eq_some h hs'
  have hw := h.write_le
  have hd := h.decode_le
  have hr := h.readOffset_le_decode
  have hlen : buf.length = add32 new_size 1 := by
    rw [Lib.length_of_store hbuf, List.length_replicate]
  have hkept : (Lib.slice s.cacheBuf s.readOffset (s.writeOffset - s.readOffset)).length =
      s.writeOffset - s.readOffset := Lib.length_slice (by omega)
  have hroom : s.writeOffset - s.readOffset ≤ buf.length := by
    have := (Lib.store_eq_some.mp hbuf).1
    rw [hkept, zero_add] at this
    rw [Lib.length_of_store hbuf]
    exact this
  -- a range behind the read offset holds what it held at its old place
  have hslice : ∀ i n, s.readOffset ≤ i → i + n ≤ s.writeOffset →
      Lib.slice buf (i - s.readOffset) n = Lib.slice s.cacheBuf i n := by
    intro i n hi hn
    have hin := Lib.slice_of_store_inside (i := i - s.readOffset) (n := n) hbuf (by omega)
    rw [zero_add, Lib.slice_slice (by omega), Nat.add_sub_cancel' hi] at hin
    exact hin
  refine ⟨⟨?_, ?_, hroom, ?_, ?_⟩, ?_, ?_, hlen, rfl, rfl, rfl⟩
  · show buf.length < 2 ^ 32
    rw [hlen]
    exact add32_lt _ _
  · show s.decodeOffset - s.readOffset ≤ s.writeOffset - s.readOffset
    omega
  · intro f hf
    obtain ⟨g, hg, rfl⟩ := List.mem_map.mp hf
    have := h.frames_le g hg
    have := h.readOffset_le_frame hg
    show g.1 - s.readOffset + g.2 ≤ s.decodeOffset - s.readOffset
    omega
  · rw [List.pairwise_map]
    refine h.ordered.imp_of_mem fun {a b} ha hb hab => ?_
    have := h.readOffset_le_frame ha
    show a.1 - s.readOffset + a.2 ≤ b.1 - s.readOffset
    omega
  · simp only [CacheState.frames, List.map_map]
    refine List.map_congr_left fun f hf => ?_
    have := h.frames_le f hf
    exact hslice f.1 f.2 (h.readOffset_le_frame hf) (by omega)
  · simp only [CacheState.rest]
    rw [show s.writeOffset - s.readOffset - (s.decodeOffset - s.readOffset) =
      s.writeOffset - s.decodeOffset by omega]
    exact hslice _ _ hr (by omega)

/-- `resize` returns when the bytes that it keeps fit into the new block. -/
lemma resize_isSome (h : s.InMem) (new_size : ℕ) :
    (s.resize new_size).isSome ↔ s.writeOffset - s.readOffset ≤ add32 new_size 1 := by
  have hw := h.write_le
  have hr := h.readOffset_le_write
  have hload : Lib.load s.cacheBuf s.readOffset (s.writeOffset - s.readOffset) =
      some (Lib.slice s.cacheBuf s.readOffset (s.writeOffset - s.readOffset)) :=
    Lib.load_eq_some.mpr ⟨by omega, rfl⟩
  have hkept : (Lib.slice s.cacheBuf s.readOffset (s.writeOffset - s.readOffset)).length =
      s.writeOffset - s.readOffset := Lib.length_slice (by omega)
  rw [resize, h.data_size, hload]
  simp only [Lib.store, Option.bind_eq_bind, Option.bind_some, hkept, zero_add,
    List.length_replicate]
  split_ifs with hfit
  · simp [hfit]
  · simp [hfit]

end CacheState

namespace IcacheBuffer

open CacheState

variable {B : IcacheBuffer} {s s' : CacheState} {data : Bytes}

/-! ## `appendCache` -/

/-- What `appendCache` does when it returns true: the data stands behind the bytes that are
not decoded yet. -/
structure Appended (s : CacheState) (data : Bytes) (s' : CacheState) : Prop where
  inMem : s'.InMem
  frames : s'.frames = s.frames
  rest : s'.rest = s.rest ++ data.1
  decodeCalls : s'.decodeCalls = s.decodeCalls

lemma copyIn_eq_some (h : s.InMem) (hs' : copyIn s data = some s') :
    ∃ buf, Lib.store s.cacheBuf s.writeOffset data.1 = some buf ∧
      s' = { s with cacheBuf := buf, writeOffset := s.writeOffset + data.1.length } := by
  obtain ⟨buf, hbuf, rfl⟩ := Option.map_eq_some_iff.mp hs'
  have hle := (Lib.store_eq_some.mp hbuf).1
  refine ⟨buf, hbuf, ?_⟩
  rw [add32_eq (lt_of_le_of_lt hle h.buf_lt)]

lemma copyIn_appended (h : s.InMem) (hs' : copyIn s data = some s') : Appended s data s' := by
  obtain ⟨buf, hbuf, rfl⟩ := copyIn_eq_some h hs'
  have hle := (Lib.store_eq_some.mp hbuf).1
  have hlen := Lib.length_of_store hbuf
  have hd := h.decode_le
  -- what lies before the write offset is not touched
  have hbefore : ∀ i n, i + n ≤ s.writeOffset → Lib.slice buf i n = Lib.slice s.cacheBuf i n :=
    fun i n hin => Lib.slice_of_store_before hbuf hin
  refine ⟨⟨?_, ?_, ?_, h.frames_le, h.ordered⟩, ?_, ?_, rfl⟩
  · show buf.length < 2 ^ 32
    rw [hlen]
    exact h.buf_lt
  · show s.decodeOffset ≤ s.writeOffset + data.1.length
    omega
  · show s.writeOffset + data.1.length ≤ buf.length
    omega
  · refine List.map_congr_left fun f hf => hbefore f.1 f.2 ?_
    have := h.frames_le f hf
    omega
  · simp only [CacheState.rest]
    rw [show s.writeOffset + data.1.length - s.decodeOffset =
      (s.writeOffset - s.decodeOffset) + data.1.length by omega, ← Lib.slice_append_slice,
      hbefore _ _ (by omega), Nat.add_sub_cancel' hd, Lib.slice_of_store_self hbuf]

/-- `appendCache` returns, with the value `ret`. -/
lemma appendCache_cases (h : s.InMem) {ret : Bool} (hs' : B.appendCache s data = some (ret, s')) :
    (ret = false ∧ s' = s) ∨ (ret = true ∧ data.1 ≠ [] ∧ Appended s data s') := by
  rw [appendCache] at hs'
  dsimp only at hs'
  split_ifs at hs' with hlen hfull hover
  · obtain ⟨rfl, rfl⟩ := Prod.mk.inj (Option.some.inj hs')
    exact Or.inl ⟨rfl, rfl⟩
  · obtain ⟨rfl, rfl⟩ := Prod.mk.inj (Option.some.inj hs')
    exact Or.inl ⟨rfl, rfl⟩
  · obtain ⟨s₁, hs₁, hs'⟩ := Option.bind_eq_some_iff.mp hs'
    obtain ⟨s₂, hs₂, he⟩ := Option.map_eq_some_iff.mp hs'
    obtain ⟨rfl, rfl⟩ := Prod.mk.inj he
    have hmoved := resize_moved h hs₁
    have happ := copyIn_appended hmoved.inMem hs₂
    exact Or.inr ⟨rfl, by simpa using hlen, happ.inMem, happ.frames.trans hmoved.frames,
      by rw [happ.rest, hmoved.rest], happ.decodeCalls.trans hmoved.decodeCalls⟩
  · obtain ⟨s₁, hs₁, he⟩ := Option.map_eq_some_iff.mp hs'
    obtain ⟨rfl, rfl⟩ := Prod.mk.inj he
    exact Or.inr ⟨rfl, by simpa using hlen, copyIn_appended h hs₁⟩

/-- Data that fits into the largest cache is not refused. -/
lemma appendCache_true (h : s.InMem) {ret : Bool} (hs' : B.appendCache s data = some (ret, s'))
    (hne : data.1 ≠ []) (hfit : s.writeOffset - s.readOffset + data.1.length ≤ B.maxCacheSize) :
    ret = true := by
  have hM := B.maxCacheSize_lt
  rw [appendCache] at hs'
  dsimp only at hs'
  rw [h.data_size, add32_eq (a := s.writeOffset - s.readOffset) (by omega),
    if_neg (by simpa using hne), if_neg (not_lt.mpr hfit)] at hs'
  split_ifs at hs'
  · obtain ⟨s₁, -, hs'⟩ := Option.bind_eq_some_iff.mp hs'
    obtain ⟨s₂, -, he⟩ := Option.map_eq_some_iff.mp hs'
    exact (Prod.mk.inj he).1.symm
  · obtain ⟨s₁, -, he⟩ := Option.map_eq_some_iff.mp hs'
    exact (Prod.mk.inj he).1.symm

/-! ## Frames -/

lemma updateFrameCache_spec (h : s.InMem) {i n : ℕ} (hi : i + n ≤ s.writeOffset - s.decodeOffset) :
    (updateFrameCache s (s.decodeOffset + i) n).InMem ∧
      (updateFrameCache s (s.decodeOffset + i) n).frames =
        s.frames ++ [Lib.slice s.rest i n] ∧
      (updateFrameCache s (s.decodeOffset + i) n).rest = s.rest.drop (i + n) := by
  have hd := h.decode_le
  have hw := h.write_le
  have hlt := h.buf_lt
  have hdec : add32 (s.decodeOffset + i) n = s.decodeOffset + (i + n) := by
    rw [add32_eq (by omega), Nat.add_assoc]
  refine ⟨⟨hlt, ?_, hw, ?_, ?_⟩, ?_, ?_⟩
  · show add32 (s.decodeOffset + i) n ≤ s.writeOffset
    omega
  · intro f hf
    show f.1 + f.2 ≤ add32 (s.decodeOffset + i) n
    rcases List.mem_append.mp hf with hf | hf
    · have := h.frames_le f hf
      omega
    · obtain rfl := List.mem_singleton.mp hf
      omega
  · refine List.pairwise_append.mpr ⟨h.ordered, List.pairwise_singleton _ _, ?_⟩
    intro a ha b hb
    obtain rfl := List.mem_singleton.mp hb
    have := h.frames_le a ha
    show a.1 + a.2 ≤ s.decodeOffset + i
    omega
  · simp only [CacheState.frames, updateFrameCache, List.map_append, List.map_cons, List.map_nil]
    rw [CacheState.rest, Lib.slice_slice hi]
  · simp only [CacheState.rest, updateFrameCache]
    rw [hdec, Lib.drop_slice, Nat.sub_add_eq]

/-- `appendFrame`: a new frame, or nothing. -/
lemma appendFrame_cases (h : s.InMem) {ret : ℤ} (hs' : B.appendFrame s data = some (ret, s')) :
    (ret = -1 ∧ s' = s) ∨ (ret = data.1.length ∧ data.1 ≠ [] ∧ s'.InMem ∧
      s'.frames = s.frames ++ [data.1]) := by
  obtain ⟨⟨ok, s₁⟩, happ, he⟩ := Option.map_eq_some_iff.mp hs'
  rcases appendCache_cases h happ with ⟨rfl, rfl⟩ | ⟨rfl, hne, happ⟩
  · obtain ⟨rfl, rfl⟩ := Prod.mk.inj he
    exact Or.inl ⟨rfl, rfl⟩
  · obtain ⟨rfl, rfl⟩ := Prod.mk.inj he
    have hlen : s₁.rest.length = s.rest.length + data.1.length := by
      rw [happ.rest, List.length_append]
    have hsize := happ.inMem.length_rest
    have hlt := happ.inMem.write_lt
    have hd := happ.inMem.decode_le
    -- the new frame is the end of the bytes that are not decoded
    have hoff : sub32 s₁.writeOffset data.1.length = s₁.decodeOffset + s.rest.length := by
      rw [sub32_eq hlt (by omega)]
      omega
    obtain ⟨hmem, hframes, -⟩ :=
      updateFrameCache_spec happ.inMem (i := s.rest.length) (n := data.1.length) (by omega)
    refine Or.inr ⟨rfl, hne, ?_, ?_⟩
    · rw [hoff]
      exact hmem
    · rw [hoff, hframes, happ.frames, happ.rest]
      simp [Lib.slice]

/-! ## Parsing -/

/-- `decodeFrame` as `parseCache` calls it. -/
def decoded (B : IcacheBuffer) (s : CacheState) : ℕ × ℕ :=
  B.protocal.decodeFrame s.decodeCalls (s.cacheBuf.drop s.decodeOffset)
    (s.writeOffset - s.decodeOffset)

/-- The loop of `readFromBuf`, by the result of `decodeFrame`: nothing, a frame, or
invalid data. -/
lemma parseLoop_succ (h : s.InMem) (fuel : ℕ) :
    ((B.decoded s).2 = 0 → B.parseLoop (fuel + 1) s =
        some (false, { s with decodeCalls := s.decodeCalls + 1 })) ∧
      (0 < (B.decoded s).2 → (B.decoded s).2 ≤ B.protocal.maxFrameSize →
        (B.decoded s).1 + (B.decoded s).2 ≤ s.writeOffset - s.decodeOffset →
        B.parseLoop (fuel + 1) s = B.parseLoop fuel (updateFrameCache
          { s with decodeCalls := s.decodeCalls + 1 } (s.decodeOffset + (B.decoded s).1)
          (B.decoded s).2)) ∧
      (B.protocal.maxFrameSize < (B.decoded s).2 →
        (B.decoded s).2 ≤ B.protocal.maxFrameSize + (s.writeOffset - s.decodeOffset) →
        (B.decoded s).2 < 2 ^ 32 →
        B.parseLoop (fuel + 1) s = some (true, { s with
          decodeOffset := s.decodeOffset + ((B.decoded s).2 - B.protocal.maxFrameSize)
          decodeCalls := s.decodeCalls + 1 })) := by
  have hd := h.decode_le
  have hlt := h.write_lt
  have hdata : sub32 s.writeOffset s.decodeOffset = s.writeOffset - s.decodeOffset :=
    sub32_eq hlt hd
  -- one round of the loop, with the values of `parseCache` spelled out below
  have hloop : B.parseLoop (fuel + 1) s = if (B.decoded s).2 = 0 then
      some (false, (B.parseCache s).2)
      else if (B.decoded s).2 > B.protocal.maxFrameSize then some (true, (B.parseCache s).2)
      else B.parseLoop fuel (updateFrameCache (B.parseCache s).2 (B.parseCache s).1.1
        (B.decoded s).2) := by
    simp only [parseLoop, parseCache, hdata, decoded]
  have hparse : B.parseCache s = ((add32 (B.decoded s).1
      (if (B.decoded s).2 > B.protocal.maxFrameSize then
        add32 s.decodeOffset (sub32 (B.decoded s).2 B.protocal.maxFrameSize)
        else s.decodeOffset), (B.decoded s).2),
      { s with
        decodeOffset := if (B.decoded s).2 > B.protocal.maxFrameSize then
          add32 s.decodeOffset (sub32 (B.decoded s).2 B.protocal.maxFrameSize)
          else s.decodeOffset
        decodeCalls := s.decodeCalls + 1 }) := by
    rw [parseCache, hdata]
    rfl
  rw [hloop, hparse]
  dsimp only
  refine ⟨fun hzero => ?_, fun hpos hle hin => ?_, fun hbig hin h32 => ?_⟩
  · rw [if_pos hzero, if_neg (by omega)]
  · rw [if_neg (by omega), if_neg (by omega), if_neg (by omega), add32_eq (by omega),
      Nat.add_comm (B.decoded s).1]
  · rw [if_neg (by omega), if_pos hbig, if_pos hbig, sub32_eq h32 (le_of_lt hbig),
      add32_eq (by omega)]

/-! ## Popping -/

lemma inMem_dropFront (h : s.InMem) {f : ℕ × ℕ} {fs : List (ℕ × ℕ)}
    (hmap : s.frameCacheMap = f :: fs) :
    ({ s with frameCacheMap := fs } : CacheState).InMem := by
  have hle := h.frames_le
  have hord := h.ordered
  rw [hmap] at hle hord
  exact ⟨h.buf_lt, h.decode_le, h.write_le, fun g hg => hle g (List.mem_cons_of_mem _ hg),
    (List.pairwise_cons.mp hord).2⟩

/-- `popFrame` returns the first frame and takes it out. -/
lemma popFrame_spec (h : s.InMem) : ∃ s', popFrame s = some (s.frames.headD [], s') ∧ s'.InMem ∧
    s' = { s with frameCacheMap := s'.frameCacheMap } ∧ s'.frames = s.frames.tail := by
  cases hmap : s.frameCacheMap with
  | nil =>
    refine ⟨s, ?_, h, rfl, ?_⟩
    · simp [popFrame, hmap, CacheState.frames]
    · simp [hmap, CacheState.frames]
  | cons f rest =>
    have hf := h.frames_le f (by simp [hmap])
    have hd := h.decode_le
    have hw := h.write_le
    refine ⟨{ s with frameCacheMap := rest }, ?_, inMem_dropFront h hmap, rfl, ?_⟩
    · simp only [popFrame, hmap, CacheState.frames, List.map_cons, List.headD_cons]
      rw [Lib.load_eq_some.mpr ⟨by omega, rfl⟩]
      rfl
    · simp [hmap, CacheState.frames]

/-! ## `sendCacheByFd` -/

/-- The loop of `IcacheBufferStream`: what it has sent and what the frame still holds is
what the frame held before. -/
lemma sendLoopStream_spec {buf : List UInt8} (hlt : buf.length < 2 ^ 32)
    (results : List SendResult) (frame : ℕ × ℕ) (out : List UInt8)
    (hframe : frame.1 + frame.2 ≤ buf.length) :
    ∃ e frame' out', sendLoopStream buf frame out results = some (e, frame', out') ∧
      frame.1 ≤ frame'.1 ∧ frame'.1 + frame'.2 = frame.1 + frame.2 ∧
      out' ++ Lib.slice buf frame'.1 frame'.2 = out ++ Lib.slice buf frame.1 frame.2 := by
  induction results generalizing frame out with
  | nil =>
    refine ⟨.done, frame, out, ?_, le_refl _, rfl, rfl⟩
    rw [sendLoopStream]
    split_ifs <;> rfl
  | cons r results ih =>
    unfold sendLoopStream
    split_ifs with hzero
    · exact ⟨.done, frame, out, rfl, le_refl _, rfl, rfl⟩
    · cases r with
      | again => exact ⟨.done, frame, out, rfl, le_refl _, rfl, rfl⟩
      | error => exact ⟨.closed, frame, out, rfl, le_refl _, rfl, rfl⟩
      | sent n =>
        dsimp only
        rw [Lib.load_eq_some.mpr ⟨hframe, rfl⟩, Option.bind_some]
        split_ifs with hret
        · exact ⟨.closed, frame, out, rfl, le_refl _, rfl, rfl⟩
        · -- the frame loses the bytes that `out` gains
          have hle : min n frame.2 ≤ frame.2 := min_le_right _ _
          have h1 : add32 frame.1 (min n frame.2) = frame.1 + min n frame.2 :=
            add32_eq (by omega)
          have h2 : sub32 frame.2 (min n frame.2) = frame.2 - min n frame.2 :=
            sub32_eq (by omega) hle
          rw [h1, h2]
          obtain ⟨e, frame', out', he, hfirst, hend, hout⟩ :=
            ih (frame.1 + min n frame.2, frame.2 - min n frame.2)
              (out ++ (Lib.slice buf frame.1 frame.2).take (min n frame.2)) (by dsimp only; omega)
          dsimp only at hfirst hend hout
          refine ⟨e, frame', out', he, by omega, by omega, ?_⟩
          rw [hout, Lib.take_slice hle, List.append_assoc, Lib.slice_append_slice,
            Nat.add_sub_cancel' hle]

/-- The loop of `IcacheBufferBase` returns. -/
lemma sendLoopBase_isSome {buf : List UInt8} (hlt : buf.length < 2 ^ 32)
    (results : List SendResult) (frame : ℕ × ℕ) (out : List UInt8)
    (hframe : frame.1 + frame.2 ≤ buf.length) :
    ∃ e, B.sendLoopBase buf frame out results = some e := by
  induction results generalizing frame out with
  | nil =>
    rw [sendLoopBase]
    split_ifs <;> exact ⟨_, rfl⟩
  | cons r results ih =>
    unfold sendLoopBase
    by_cases hzero : frame.2 = 0
    · rw [if_pos hzero]
      exact ⟨_, rfl⟩
    · rw [if_neg hzero]
      cases r with
      | again => exact ⟨_, rfl⟩
      | error => exact ⟨_, rfl⟩
      | sent n =>
        dsimp only
        have hsize : (if frame.2 > B.protocal.sliceSize then B.protocal.sliceSize else frame.2) ≤
            frame.2 := by split_ifs <;> omega
        generalize (if frame.2 > B.protocal.sliceSize then B.protocal.sliceSize else frame.2) =
          send_size at hsize
        have hle : min n send_size ≤ frame.2 := le_trans (min_le_right _ _) hsize
        rw [Lib.load_eq_some.mpr ⟨by omega, rfl⟩, Option.bind_some]
        split_ifs
        · exact ⟨_, rfl⟩
        · rw [add32_eq (by omega), sub32_eq (by omega) hle]
          exact ih _ _ (by dsimp only; omega)

/-- The front frame gives up some of its first bytes. -/
lemma inMem_shrinkFront (h : s.InMem) {f : ℕ × ℕ} (f' : ℕ × ℕ) {fs : List (ℕ × ℕ)}
    (hmap : s.frameCacheMap = f :: fs) (hfirst : f.1 ≤ f'.1) (hend : f'.1 + f'.2 = f.1 + f.2) :
    ({ s with frameCacheMap := f' :: fs } : CacheState).InMem := by
  have hle := h.frames_le
  have hord := h.ordered
  rw [hmap] at hle hord
  obtain ⟨hhead, htail⟩ := List.pairwise_cons.mp hord
  refine ⟨h.buf_lt, h.decode_le, h.write_le, ?_, List.pairwise_cons.mpr ⟨?_, htail⟩⟩
  · intro g hg
    rcases List.mem_cons.mp hg with rfl | hg
    · rw [hend]
      exact hle f List.mem_cons_self
    · exact hle g (List.mem_cons_of_mem _ hg)
  · intro g hg
    rw [hend]
    exact hhead g hg

/-- `sendCacheByFd` returns, and touches the list of frames only.  For an
`IcacheBufferStream`, the bytes that were sent are the first ones of the frames. -/
lemma sendCacheByFd_spec (h : s.InMem) (results : List SendResult) :
    ∃ ret out s', B.sendCacheByFd s results = some (ret, out, s') ∧ s'.InMem ∧
      s' = { s with frameCacheMap := s'.frameCacheMap } ∧
      (B.isStream = true → out ++ s'.frames.flatten = s.frames.flatten) := by
  cases hmap : s.frameCacheMap with
  | nil =>
    refine ⟨-1, [], s, ?_, h, rfl, fun _ => rfl⟩
    simp [sendCacheByFd, hmap]
  | cons f fs =>
    have hf : f.1 + f.2 ≤ s.cacheBuf.length := by
      have := h.frames_le f (by simp [hmap])
      have := h.decode_le
      have := h.write_le
      omega
    simp only [sendCacheByFd, hmap]
    cases hstream : B.isStream with
    | false =>
      obtain ⟨⟨e, frame, out⟩, he⟩ := sendLoopBase_isSome (B := B) h.buf_lt results f [] hf
      simp only [Bool.false_eq_true, if_false, he, Option.map_some]
      -- an `IcacheBufferBase` forgets how far it has come in a frame
      have hsame := inMem_shrinkFront h f hmap (le_refl _) rfl
      cases e with
      | closed => exact ⟨_, _, _, rfl, hsame, rfl, fun hb => absurd hb (by simp)⟩
      | done =>
        refine ⟨_, _, _, rfl, ?_, rfl, fun hb => absurd hb (by simp)⟩
        split_ifs
        · exact inMem_dropFront h hmap
        · exact hsame
    | true =>
      obtain ⟨e, frame, out, he, hfirst, hend, hout⟩ :=
        sendLoopStream_spec h.buf_lt results f [] hf
      simp only [if_true, he, Option.map_some]
      have hedit := inMem_shrinkFront h frame hmap hfirst hend
      have hbytes : out ++ (Lib.slice s.cacheBuf frame.1 frame.2 ++
          (fs.map fun g => Lib.slice s.cacheBuf g.1 g.2).flatten) = s.frames.flatten := by
        rw [← List.append_assoc, hout]
        simp [CacheState.frames, hmap]
      cases e with
      | closed =>
        exact ⟨_, _, _, rfl, hedit, rfl, fun _ => by simpa [CacheState.frames] using hbytes⟩
      | done =>
        refine ⟨_, _, _, rfl, ?_, rfl, fun _ => ?_⟩
        · split_ifs
          · exact inMem_dropFront h hmap
          · exact hedit
        · split_ifs with hzero
          · simpa [CacheState.frames, hzero] using hbytes
          · simpa [CacheState.frames] using hbytes

end IcacheBuffer

end SignalEventLoop.Network
