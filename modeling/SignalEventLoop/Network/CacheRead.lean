/-
# The read path

An `IcacheBufferStream` that gets a stream of frames in chunks, and from which all frames are
popped after each chunk.  When the protocol recognises the frames (`Lib.IsFrame`), what is
popped does not depend on the chunks: the buffer is a receiver in the sense of
`Lib.Pending`, wherever its bytes are moved, as long as every append returns.
-/
import SignalEventLoop.Network.CacheBounds
import SignalEventLoop.Lib.Framing

namespace SignalEventLoop.Network

/-- The lengths that `decodeFrame` may return on these bytes. -/
def Protocal.answers (P : Protocal) (bytes : List UInt8) (n : ℕ) : Prop :=
  ∃ call mem, mem.take bytes.length = bytes ∧ (P.decodeFrame call mem bytes.length).2 = n

/-- The protocol finds no frame in no bytes, and every frame at the beginning of the bytes. -/
structure Protocal.Framing (P : Protocal) : Prop where
  first : ∀ call mem len, (P.decodeFrame call mem len).1 = 0
  nil : ∀ n, P.answers [] n → n = 0

/-- The protocol recognises the frame, and the frame is not too long for it. -/
structure Protocal.Recognises (P : Protocal) (f : List UInt8) : Prop where
  isFrame : Lib.IsFrame P.answers f
  length_le : f.length ≤ P.maxFrameSize

namespace IcacheBuffer

open CacheState

variable {B : IcacheBuffer} {s s' : CacheState} {chunk : Bytes} {fs out : List (List UInt8)}
  {more : List UInt8}

/-- Pop `n` frames. -/
def popN : ℕ → CacheState → Option (List (List UInt8) × CacheState)
  | 0, s => some ([], s)
  | n + 1, s => (popFrame s).bind fun (f, s₁) => (popN n s₁).map fun (fs, s₂) => (f :: fs, s₂)

/-- Feed a chunk and pop all frames: the value of `readFromBuf`, the frames, and the state. -/
def readAndPop (B : IcacheBuffer) (s : CacheState) (chunk : Bytes) :
    Option (ℤ × List (List UInt8) × CacheState) :=
  (B.readFromBuf s chunk).bind fun (ret, s₁) =>
    (popN s₁.frameCacheMap.length s₁).map fun (frames, s₂) => (ret, frames, s₂)

/-- The state after a chunk. -/
def readStep (B : IcacheBuffer) (s : CacheState) (chunk : Bytes) : Option CacheState :=
  (B.readAndPop s chunk).map fun e => e.2.2

/-- The frames that are popped after a chunk. -/
def popped (B : IcacheBuffer) (s : CacheState) (chunk : Bytes) : List (List UInt8) :=
  match B.readAndPop s chunk with
  | some (_, frames, _) => frames
  | none => []

/-- The value that `readFromBuf` returns for a chunk. -/
def returned (B : IcacheBuffer) (s : CacheState) (chunk : Bytes) : List ℤ :=
  match B.readAndPop s chunk with
  | some (ret, _, _) => [ret]
  | none => []

/-- The two states have the same block, filled up to the same offset. -/
structure SameBlock (s s' : CacheState) : Prop where
  cacheBuf : s'.cacheBuf = s.cacheBuf
  cacheSize : s'.cacheSize = s.cacheSize
  writeOffset : s'.writeOffset = s.writeOffset

lemma popN_spec (n : ℕ) (h : s.InMem) (hn : s.frameCacheMap.length = n) :
    popN n s = some (s.frames, { s with frameCacheMap := [] }) ∧
      ({ s with frameCacheMap := [] } : CacheState).InMem := by
  induction n generalizing s with
  | zero =>
    have hnil := List.length_eq_zero_iff.mp hn
    obtain ⟨buf, size, w, d, fmap, calls⟩ := s
    dsimp only at hnil
    subst hnil
    exact ⟨rfl, h⟩
  | succ n ih =>
    obtain ⟨f, fmap, hmap⟩ := List.exists_cons_of_length_eq_add_one hn
    obtain ⟨s₁, hpop, hmem, hsame, hframes⟩ := popFrame_spec h
    -- popping takes one frame, and nothing else, out of the state
    have hn₁ : s₁.frameCacheMap.length = n := by
      have hlen := congrArg List.length hframes
      simp only [CacheState.frames, List.length_map, List.length_tail] at hlen
      omega
    obtain ⟨hrest, hmem'⟩ := ih hmem hn₁
    have hempty : ({ s₁ with frameCacheMap := [] } : CacheState) =
        { s with frameCacheMap := [] } := by
      rw [hsame]
    rw [hempty] at hrest hmem'
    refine ⟨?_, hmem'⟩
    rw [popN, hpop, Option.bind_some]
    dsimp only
    rw [hrest, Option.map_some, hframes]
    have hhead : s.frames ≠ [] := by simp [CacheState.frames, hmap]
    rw [List.headD_eq_head?_getD, List.head?_eq_some_head hhead, Option.getD_some,
      List.cons_head_tail]

/-- The decoder is asked about the bytes that are not decoded yet. -/
lemma answers_decoded (h : s.InMem) : B.protocal.answers s.rest (B.decoded s).2 := by
  have hlen := h.length_rest
  refine ⟨s.decodeCalls, s.cacheBuf.drop s.decodeOffset, ?_, by rw [hlen]; rfl⟩
  rw [hlen]
  rfl

/-- The loop of `readFromBuf` on a stream of frames delivers the frames that are complete. -/
lemma parseLoop_frames (hP : B.protocal.Framing) (hfs : ∀ f ∈ fs, B.protocal.Recognises f)
    (fuel : ℕ) (h : s.InMem) (hp : Lib.Pending fs out s.rest more)
    (hfuel : s.writeOffset - s.decodeOffset < fuel) :
    ∃ new s', B.parseLoop fuel s = some (false, s') ∧ s'.InMem ∧ SameBlock s s' ∧
      s'.frames = s.frames ++ new ∧ Lib.Pending fs (out ++ new) s'.rest more ∧
      B.protocal.answers s'.rest 0 := by
  induction fuel generalizing s out with
  | zero => omega
  | succ fuel ih =>
    obtain ⟨hnone, hframe, -⟩ := parseLoop_succ (B := B) h fuel
    have hcount : ({ s with decodeCalls := s.decodeCalls + 1 } : CacheState).InMem :=
      ⟨h.buf_lt, h.decode_le, h.write_le, h.frames_le, h.ordered⟩
    -- the answer of the decoder is 0, or the length of the next frame
    rcases hp.answer (fun f hf => (hfs f hf).isFrame) hP.nil (answers_decoded (B := B) h) with
      hzero | ⟨hle, hmem, hp'⟩
    · refine ⟨[], _, hnone hzero, hcount, ⟨rfl, rfl, rfl⟩, by simp [CacheState.frames], ?_, ?_⟩
      · rw [List.append_nil]
        exact hp
      · have := answers_decoded (B := B) h
        rw [hzero] at this
        exact this
    · by_cases hzero : (B.decoded s).2 = 0
      · have := (hfs _ hmem).isFrame.ne_nil
        simp [hzero] at this
      · -- the frame is the beginning of the bytes
        have hfirst : (B.decoded s).1 = 0 := hP.first _ _ _
        have hlen := h.length_rest
        have hlt := h.write_lt
        have hF : (B.decoded s).2 ≤ B.protocal.maxFrameSize := by
          have := (hfs _ hmem).length_le
          rw [List.length_take] at this
          omega
        have hin : (B.decoded s).1 + (B.decoded s).2 ≤ s.writeOffset - s.decodeOffset := by omega
        rw [hframe (by omega) hF hin, hfirst]
        obtain ⟨hmem₁, hframes₁, hrest₁⟩ :=
          updateFrameCache_spec hcount (i := 0) (n := (B.decoded s).2) (by dsimp only; omega)
        have hrest₁' : (updateFrameCache { s with decodeCalls := s.decodeCalls + 1 }
            (s.decodeOffset + 0) (B.decoded s).2).rest = s.rest.drop (B.decoded s).2 := by
          rw [hrest₁, zero_add]
          rfl
        obtain ⟨new, s', hs', hmem', hblock, hframes', hp'', hanswer⟩ :=
          ih hmem₁ (by rw [hrest₁']; exact hp') (by
            show s.writeOffset - add32 (s.decodeOffset + 0) (B.decoded s).2 < fuel
            rw [add32_eq (by omega)]
            omega)
        refine ⟨s.rest.take (B.decoded s).2 :: new, s', hs', hmem',
          ⟨hblock.cacheBuf, hblock.cacheSize, hblock.writeOffset⟩, ?_, ?_, hanswer⟩
        · rw [hframes', hframes₁, List.append_assoc]
          rfl
        · rw [List.append_cons]
          exact hp''

/-- A receiver between two chunks: all frames are popped, and the bytes that are left are
not a complete frame. -/
structure Reading (B : IcacheBuffer) (fs out : List (List UInt8)) (more : List UInt8)
    (s : CacheState) : Prop where
  inMem : s.InMem
  popped : s.frameCacheMap = []
  pending : Lib.Pending fs out s.rest more
  waiting : B.protocal.answers s.rest 0

lemma Reading.data_size (h : Reading B fs out more s) :
    s.writeOffset - s.readOffset = s.rest.length := by
  rw [h.inMem.length_rest, readOffset, h.popped]

lemma reading_init (hP : B.protocal.Framing) (fs : List (List UInt8)) :
    Reading B fs [] fs.flatten init := by
  refine ⟨inMem_init, rfl, Lib.pending_init fs, ?_⟩
  have hanswer := answers_decoded (B := B) inMem_init
  rw [hP.nil _ hanswer] at hanswer
  exact hanswer

/-- A chunk whose append returns: `readFromBuf` accepts it, and the frames that it completes
are popped. -/
lemma readAndPop_spec (hP : B.protocal.Framing) (hfs : ∀ f ∈ fs, B.protocal.Recognises f)
    (h : Reading B fs out (chunk.1 ++ more) s) (hne : chunk.1 ≠ [])
    (hfit : s.rest.length + chunk.1.length ≤ B.maxCacheSize) {ret : Bool} {s₁ : CacheState}
    (happ : B.appendCache s chunk = some (ret, s₁)) :
    ∃ new s', B.readAndPop s chunk = some ((chunk.1.length : ℤ), new, s') ∧ SameBlock s₁ s' ∧
      Reading B fs (out ++ new) more s' ∧
      (out ++ new).flatten.length + s'.rest.length =
        out.flatten.length + s.rest.length + chunk.1.length := by
  obtain rfl := appendCache_true h.inMem happ hne (by rw [h.data_size]; exact hfit)
  rcases appendCache_cases h.inMem happ with ⟨hf, -⟩ | ⟨-, -, happended⟩
  · exact absurd hf (by simp)
  · have hempty : s.frames = [] := by simp [CacheState.frames, h.popped]
    have hpending : Lib.Pending fs out s₁.rest more := by
      rw [happended.rest]
      exact h.pending.arrive
    obtain ⟨new, s₂, hloop, hmem₂, hblock, hframes, hpending₂, hwaiting⟩ :=
      parseLoop_frames hP hfs _ happended.inMem hpending (Nat.lt_succ_self _)
    obtain ⟨hpop, hmem₃⟩ := popN_spec _ hmem₂ rfl
    rw [happended.frames, hempty, List.nil_append] at hframes
    refine ⟨new, { s₂ with frameCacheMap := [] }, ?_,
      ⟨hblock.cacheBuf, hblock.cacheSize, hblock.writeOffset⟩,
      ⟨hmem₃, rfl, hpending₂, hwaiting⟩, ?_⟩
    · have hread : B.readFromBuf s chunk = some ((chunk.1.length : ℤ), s₂) := by
        rw [readFromBuf, happ, Option.bind_some]
        simp only [if_true, hloop, Option.map_some, Bool.and_false, Bool.false_eq_true, if_false]
      rw [readAndPop, hread, Option.bind_some]
      dsimp only
      rw [hpop, Option.map_some, hframes]
    · -- what was to come before the chunk is what is to come now and the chunk
      obtain ⟨todo, hfs₁, htodo⟩ := h.pending
      obtain ⟨todo', hfs₂, htodo'⟩ := hpending₂
      have hlen := congrArg (fun l => (List.flatten l).length) (hfs₁.symm.trans hfs₂)
      have hrest := congrArg List.length htodo
      have hrest' := congrArg List.length htodo'
      simp only [List.flatten_append, List.length_append] at hlen hrest hrest' ⊢
      show _ + s₂.rest.length = _
      omega

/-- **What is popped does not depend on the chunks.** `J` is an invariant of the block, and
`ok` the condition under which an append returns and keeps it. -/
lemma read_frames {J : CacheState → Prop} {ok : CacheState → Bytes → Prop}
    (hP : B.protocal.Framing) (hfs : ∀ f ∈ fs, B.protocal.Recognises f)
    (hJ : ∀ s chunk, J s → s.InMem → chunk.1 ≠ [] →
      s.writeOffset - s.readOffset + chunk.1.length ≤ B.maxCacheSize → ok s chunk →
      ∃ ret s₁, B.appendCache s chunk = some (ret, s₁) ∧
        ∀ s', s'.InMem → SameBlock s₁ s' → J s')
    (chunks : List Bytes) (hne : ∀ chunk ∈ chunks, chunk.1 ≠ []) (received : ℕ) (hs : J s)
    (hreading : Reading B fs out (chunks.map Subtype.val).flatten s)
    (hreceived : received = out.flatten.length + s.rest.length)
    (hfit : Lib.ChunksFit fs B.maxCacheSize received (chunks.map Subtype.val))
    (hok : Lib.AllSteps B.readStep ok s chunks) :
    ∃ s', Lib.run B.readStep s chunks = some s' ∧ J s' ∧
      out ++ Lib.outputs B.readStep B.popped s chunks = fs ∧
      Lib.outputs B.readStep B.returned s chunks =
        chunks.map fun chunk => (chunk.1.length : ℤ) := by
  have hframes : ∀ f ∈ fs, Lib.IsFrame B.protocal.answers f := fun f hf => (hfs f hf).isFrame
  induction chunks generalizing s out received with
  | nil =>
    -- nothing is to come, and the decoder waits: everything is popped
    obtain ⟨hall, -⟩ := hreading.pending.finished hframes hreading.waiting
    exact ⟨s, rfl, hs, by rw [← hall]; simp [Lib.outputs], rfl⟩
  | cons chunk chunks ih =>
    obtain ⟨hok₁, hok₂⟩ := hok
    obtain ⟨hfit₁, hfit₂⟩ := hfit
    rw [hreading.pending.length_rest hframes hreading.waiting hreceived] at hfit₁
    obtain ⟨ret, s₁, happ, hblock⟩ := hJ s chunk hs hreading.inMem (hne chunk List.mem_cons_self)
      (by rw [hreading.data_size]; exact hfit₁) hok₁
    have hnext : Reading B fs out (chunk.1 ++ (chunks.map Subtype.val).flatten) s := hreading
    obtain ⟨new, s₂, hread, hsame, hreading₂, hlen⟩ := readAndPop_spec hP hfs hnext
      (hne chunk List.mem_cons_self) hfit₁ happ
    have hstep : B.readStep s chunk = some s₂ := by rw [readStep, hread, Option.map_some]
    obtain ⟨s', hrun, hs', hpopped, hreturned⟩ := ih
      (fun c hc => hne c (List.mem_cons_of_mem _ hc)) (received + chunk.1.length)
      (hblock s₂ hreading₂.inMem hsame) hreading₂ (by rw [hreceived, hlen]) hfit₂ (hok₂ s₂ hstep)
    refine ⟨s', Lib.run_cons_eq_some.mpr ⟨s₂, hstep, hrun⟩, hs', ?_, ?_⟩
    · rw [Lib.outputs_cons chunks hstep, ← List.append_assoc]
      simp only [popped, hread]
      exact hpopped
    · rw [Lib.outputs_cons chunks hstep, hreturned]
      simp only [returned, hread, List.map_cons, List.singleton_append]

/-! ## Which chunks fit -/

/-- The block has its size and one byte more; there is none in the beginning. -/
def Block (s : CacheState) : Prop :=
  s.cacheBuf.length = add32 s.cacheSize 1 ∨ (s.cacheBuf = [] ∧ s.cacheSize = 0)

lemma block_init : Block init := Or.inr ⟨rfl, rfl⟩

lemma Block.of_sameBlock (h : Block s) (hsame : SameBlock s s') : Block s' := by
  rw [Block, hsame.cacheBuf, hsame.cacheSize]
  exact h

/-- The condition on a chunk: it fits behind the others, or, with the bytes that are kept,
into the block that is allocated for it. -/
def ChunkFits (B : IcacheBuffer) (s : CacheState) (chunk : Bytes) : Prop :=
  if s.cacheSize < add32 chunk.1.length s.writeOffset then
    s.writeOffset - s.readOffset + chunk.1.length ≤ add32 (B.grownSize s chunk.1.length) 1
  else s.writeOffset + chunk.1.length ≤ add32 s.cacheSize 1

instance decidableChunkFits (B : IcacheBuffer) (s : CacheState) (chunk : Bytes) :
    Decidable (B.ChunkFits s chunk) :=
  inferInstanceAs (Decidable (ite _ _ _))

lemma copyIn_isSome {data : Bytes} :
    (copyIn s data).isSome ↔ s.writeOffset + data.1.length ≤ s.cacheBuf.length := by
  rw [copyIn, Option.isSome_map, Lib.store]
  split_ifs with h <;> simp [h]

lemma copyIn_block {data : Bytes} (h : Block s) (hs' : copyIn s data = some s') : Block s' := by
  obtain ⟨buf, hbuf, rfl⟩ := Option.map_eq_some_iff.mp hs'
  have hlen := Lib.length_of_store hbuf
  rcases h with h | ⟨hnil, hsize⟩
  · exact Or.inl (hlen.trans h)
  · rw [hnil] at hlen
    exact Or.inr ⟨List.length_eq_zero_iff.mp hlen, hsize⟩

/-- An append keeps the block. -/
lemma appendCache_block (h : s.InMem) (hb : Block s) {ret : Bool}
    (hs' : B.appendCache s chunk = some (ret, s')) : Block s' := by
  rw [appendCache] at hs'
  dsimp only at hs'
  split_ifs at hs'
  · obtain ⟨-, rfl⟩ := Prod.mk.inj (Option.some.inj hs')
    exact hb
  · obtain ⟨-, rfl⟩ := Prod.mk.inj (Option.some.inj hs')
    exact hb
  · obtain ⟨s₁, hs₁, hs₂⟩ := Option.bind_eq_some_iff.mp hs'
    obtain ⟨s₂, hcopy, he⟩ := Option.map_eq_some_iff.mp hs₂
    obtain ⟨-, rfl⟩ := Prod.mk.inj he
    have hmoved := resize_moved h hs₁
    refine copyIn_block (Or.inl ?_) hcopy
    rw [hmoved.cacheBuf, hmoved.cacheSize]
  · obtain ⟨s₁, hcopy, he⟩ := Option.map_eq_some_iff.mp hs'
    obtain ⟨-, rfl⟩ := Prod.mk.inj he
    exact copyIn_block hb hcopy

/-- A chunk that the size test lets in is appended if and only if it fits. -/
lemma appendCache_isSome_of_sizeTest (h : s.InMem) (hb : Block s) (hne : chunk.1 ≠ [])
    (htest : s.cacheSize < add32 chunk.1.length s.writeOffset →
      add32 (s.writeOffset - s.readOffset) chunk.1.length ≤ B.maxCacheSize) :
    (B.appendCache s chunk).isSome ↔ B.ChunkFits s chunk := by
  have hlen : chunk.1.length ≠ 0 := fun h' => hne (List.length_eq_zero_iff.mp h')
  rw [appendCache]
  dsimp only
  rw [if_neg hlen, h.data_size, newSize_eq_grownSize h, ChunkFits]
  by_cases hfull : s.cacheSize < add32 chunk.1.length s.writeOffset
  · -- the chunk is not refused
    rw [if_pos hfull, if_pos hfull, if_neg (not_lt.mpr (htest hfull))]
    have hsome := resize_isSome h (B.grownSize s chunk.1.length)
    cases hs₁ : s.resize (B.grownSize s chunk.1.length) with
    | none =>
      rw [hs₁] at hsome
      have hgt := (not_congr hsome).mp (by simp)
      simp only [Option.bind_none, Option.isSome_none, Bool.false_eq_true, false_iff]
      omega
    | some s₁ =>
      have hmoved := resize_moved h hs₁
      rw [Option.bind_some, Option.isSome_map, copyIn_isSome, hmoved.writeOffset,
        hmoved.cacheBuf]
  · rw [if_neg hfull, if_neg hfull, Option.isSome_map, copyIn_isSome]
    rcases hb with hb | ⟨hnil, hsize⟩
    · rw [hb]
    · -- without a block there is no room
      have hw := h.write_le
      have hlt := chunk.2
      rw [hnil, List.length_nil] at hw
      rw [hsize, Nat.le_zero.mp hw, add32_eq (by omega)] at hfull
      omega

/-- A chunk that is not refused is appended if and only if it fits. -/
lemma appendCache_isSome_iff (h : s.InMem) (hb : Block s) (hne : chunk.1 ≠ [])
    (hfit : s.writeOffset - s.readOffset + chunk.1.length ≤ B.maxCacheSize) :
    (B.appendCache s chunk).isSome ↔ B.ChunkFits s chunk := by
  have hM := B.maxCacheSize_lt
  refine appendCache_isSome_of_sizeTest h hb hne fun _ => ?_
  rw [add32_eq (by omega)]
  exact hfit

/-- In a run that ends, every chunk fits. -/
lemma chunkFits_of_run (hP : B.protocal.Framing) (hfs : ∀ f ∈ fs, B.protocal.Recognises f)
    (chunks : List Bytes) (hne : ∀ chunk ∈ chunks, chunk.1 ≠ []) (received : ℕ) (hb : Block s)
    (hreading : Reading B fs out (chunks.map Subtype.val).flatten s)
    (hreceived : received = out.flatten.length + s.rest.length)
    (hfit : Lib.ChunksFit fs B.maxCacheSize received (chunks.map Subtype.val))
    (hrun : Lib.run B.readStep s chunks = some s') :
    Lib.AllSteps B.readStep B.ChunkFits s chunks := by
  induction chunks generalizing s out received with
  | nil => trivial
  | cons chunk chunks ih =>
    obtain ⟨hfit₁, hfit₂⟩ := hfit
    rw [hreading.pending.length_rest (fun f hf => (hfs f hf).isFrame) hreading.waiting
      hreceived] at hfit₁
    have hchunk := hne chunk List.mem_cons_self
    obtain ⟨s₂, hstep, hrun₂⟩ := Lib.run_cons_eq_some.mp hrun
    -- the append of the chunk returns, because the step does
    obtain ⟨⟨ret, s₁⟩, happ⟩ : ∃ e, B.appendCache s chunk = some e := by
      obtain ⟨e, hread, -⟩ := Option.map_eq_some_iff.mp hstep
      obtain ⟨e₁, hread₁, -⟩ := Option.bind_eq_some_iff.mp hread
      obtain ⟨e₂, happ, -⟩ := Option.bind_eq_some_iff.mp hread₁
      exact ⟨e₂, happ⟩
    have hnext : Reading B fs out (chunk.1 ++ (chunks.map Subtype.val).flatten) s := hreading
    obtain ⟨new, s₂', hread, hsame, hreading₂, hlen⟩ := readAndPop_spec hP hfs hnext hchunk hfit₁
      happ
    obtain rfl : s₂' = s₂ := by
      rw [readStep, hread, Option.map_some] at hstep
      exact Option.some.inj hstep
    refine (Lib.allSteps_cons_of_eq_some hstep).mpr ⟨(appendCache_isSome_iff hreading.inMem hb
      hchunk (by rw [hreading.data_size]; exact hfit₁)).mp (by rw [happ]; rfl), ?_⟩
    exact ih (fun c hc => hne c (List.mem_cons_of_mem _ hc)) (received + chunk.1.length)
      ((appendCache_block hreading.inMem hb happ).of_sameBlock hsame) hreading₂
      (by rw [hreceived, hlen]) hfit₂ hrun₂

/-- **Which streams are read.** The frames of a stream are popped, in order, if and only if
every chunk fits. -/
lemma read_frames_iff (hP : B.protocal.Framing) (hfs : ∀ f ∈ fs, B.protocal.Recognises f)
    (chunks : List Bytes) (hne : ∀ chunk ∈ chunks, chunk.1 ≠ [])
    (hflat : (chunks.map Subtype.val).flatten = fs.flatten)
    (hfit : Lib.ChunksFit fs B.maxCacheSize 0 (chunks.map Subtype.val)) :
    (∃ s', Lib.run B.readStep init chunks = some s' ∧
      Lib.outputs B.readStep B.popped init chunks = fs) ↔
    Lib.AllSteps B.readStep B.ChunkFits init chunks := by
  have hreading := reading_init (B := B) hP fs
  rw [← hflat] at hreading
  constructor
  · rintro ⟨s', hrun, -⟩
    exact chunkFits_of_run hP hfs chunks hne 0 block_init hreading rfl hfit hrun
  · intro hall
    have happ : ∀ s chunk, Block s → s.InMem → chunk.1 ≠ [] →
        s.writeOffset - s.readOffset + chunk.1.length ≤ B.maxCacheSize → B.ChunkFits s chunk →
        ∃ ret s₁, B.appendCache s chunk = some (ret, s₁) ∧
          ∀ s', s'.InMem → SameBlock s₁ s' → Block s' := by
      intro s chunk hb hmem hchunk hle hok
      obtain ⟨⟨ret, s₁⟩, happ⟩ := Option.isSome_iff_exists.mp
        ((appendCache_isSome_iff hmem hb hchunk hle).mpr hok)
      exact ⟨ret, s₁, happ, fun s' _ hsame => (appendCache_block hmem hb happ).of_sameBlock hsame⟩
    obtain ⟨s', hrun, -, hpopped, -⟩ := read_frames hP hfs happ chunks hne 0 block_init hreading
      rfl hfit hall
    exact ⟨s', hrun, hpopped⟩

end IcacheBuffer

end SignalEventLoop.Network
