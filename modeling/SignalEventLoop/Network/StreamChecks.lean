/-
# Stream frames of any bytes

`ProtocalStream::bufferToFrame` and `ProtocalStream::decodeFrame` on bytes that need not come from
`packetFrame`.

The check code of a frame makes the sum of all unmasked bytes behind the header zero, so that a
frame whose body or check code is replaced is accepted exactly when this sum is zero again.

The length of a frame is a sum of 32 bits.  When it wraps, `decodeFrame` takes a frame of more
than `2 ^ 32` bytes for a short one, and the check code is computed over bytes far behind the
buffer.
-/
import Mathlib.Data.UInt
import SignalEventLoop.Network.ProtocalStream

namespace SignalEventLoop.Network

namespace ProtocalStream

/-! ## Sums of bytes -/

lemma caculateCheckcode_eq (header payload : List UInt8) :
    caculateCheckcode header payload = -(header ++ payload).sum := by
  rw [caculateCheckcode, ← List.foldl_append, ← List.sum_eq_foldl]
  generalize (header ++ payload).sum = sum
  have hlt := sum.toNat_lt
  rw [← UInt8.toNat_inj, UInt8.toNat_neg, UInt8.toNat_ofNat', UInt8.size]

/-- Two lists that differ in one place only have different sums. -/
lemma sum_ne_of_differ {α : Type*} [AddCommGroup α] {xs ys : List α} {i : ℕ}
    (hlen : xs.length = ys.length)
    (hi : ys[i]? ≠ xs[i]?) (hother : ∀ j, j ≠ i → ys[j]? = xs[j]?) : ys.sum ≠ xs.sum := by
  have hx : i < xs.length := by
    by_contra hge
    rw [List.getElem?_eq_none (by omega), List.getElem?_eq_none (by omega)] at hi
    exact hi rfl
  have hset : ys = xs.set i ys[i] := by
    refine List.ext_getElem? fun j => ?_
    rw [List.getElem?_set]
    split_ifs with hj
    · rw [← hj, List.getElem?_eq_getElem (by omega)]
    · exact hother j (Ne.symm hj)
  intro hsum
  rw [hset, List.sum_set', dif_pos hx, add_eq_left, neg_add_eq_zero] at hsum
  rw [List.getElem?_eq_getElem (by omega), List.getElem?_eq_getElem hx, hsum] at hi
  exact hi rfl

/-! ## Replaced bytes -/

/-- `g` has the header of `f`, but for the check code, and any bytes behind it. -/
structure SameHeader (f g : List UInt8) : Prop where
  length_eq : g.length = f.length
  header : ∀ i < minProtocalSize, i ≠ 1 → g[i]? = f[i]?

/-- The bytes behind the header, unmasked with the time stamp. -/
def unmasked (g : List UInt8) : List UInt8 :=
  encryptPayload (Lib.slice g 8 8) (g.drop minProtocalSize)

section corruption

variable {header payload f g : List UInt8}

lemma SameHeader.slice_eq (h : SameHeader f g) {off len : ℕ} (hoff : 2 ≤ off)
    (hlen : off + len ≤ minProtocalSize) : Lib.slice g off len = Lib.slice f off len := by
  refine List.ext_getElem? fun i => ?_
  rw [Lib.slice, Lib.slice]
  by_cases hi : i < len
  · rw [List.getElem?_take_of_lt hi, List.getElem?_take_of_lt hi, List.getElem?_drop,
      List.getElem?_drop]
    exact h.header (off + i) (by omega) (by omega)
  · rw [List.getElem?_take, List.getElem?_take, if_neg hi, if_neg hi]

lemma SameHeader.decodeFrameHeader_eq (h : SameHeader f g) :
    decodeFrameHeader g = { decodeFrameHeader f with check_code := g.getD 1 0 } := by
  have hfirst : g.getD 0 0 = f.getD 0 0 := by
    rw [List.getD_eq_getElem?_getD, List.getD_eq_getElem?_getD,
      h.header 0 (by decide) (by decide)]
  rw [decodeFrameHeader, decodeFrameHeader, hfirst, h.slice_eq le_rfl (by decide),
    h.slice_eq (by decide) (by decide), h.slice_eq (by decide) (by decide)]

/-- **A frame is accepted** when the sum of its unmasked bytes and its check code is zero. -/
lemma bufferToFrame_isSome_iff (hmin : minProtocalSize ≤ g.length)
    (hsize : minProtocalSize + (decodeFrameHeader g).header_length +
      (decodeFrameHeader g).payload_length = g.length) (hlt : g.length < 2 ^ 32) :
    (bufferToFrame g).isSome ↔ (unmasked g).sum + g.getD 1 0 = 0 := by
  have hneed : (decodeFrameHeader g).size = g.length := by
    rw [StreamFrameHeader.size, add32_eq (a := minProtocalSize) (by omega), add32_eq (by omega),
      hsize]
  have hmask : Lib.toBE 8 (decodeFrameHeader g).timestamp = Lib.slice g 8 8 := by
    have hlen : (Lib.slice g 8 8).length = 8 := by
      rw [minProtocalSize] at hmin
      exact Lib.length_slice (by omega)
    have hbytes := Lib.toBE_ofBE (Lib.slice g 8 8)
    rwa [hlen] at hbytes
  have hbody : Lib.slice g minProtocalSize ((decodeFrameHeader g).payload_length +
      (decodeFrameHeader g).header_length) = g.drop minProtocalSize := by
    rw [Lib.slice, List.take_of_length_le]
    rw [List.length_drop]
    omega
  rw [bufferToFrame, if_neg (by omega)]
  simp only [hneed, ne_eq, not_true_eq_false, if_false, hmask, hbody, caculateCheckcode_eq,
    List.take_append_drop]
  have hzero : ∀ s c : UInt8, s + c = 0 ↔ -s = c := fun _ _ => add_eq_zero_iff_neg_eq
  rw [hzero]
  split_ifs with h
  · exact ⟨fun _ => h, fun _ => rfl⟩
  · exact ⟨fun hnone => absurd hnone Bool.false_ne_true, fun heq => absurd heq h⟩

/-- What `packetFrame` produces. -/
lemma packetFrame_eq_some {F : UInt32} {now : UInt64}
    (hf : packetFrame F.toNat now header payload = some f) (hne : f ≠ []) :
    f = frameBytes now header payload ∧ f.length < 2 ^ 32 := by
  have hF := F.toNat_lt
  rw [packetFrame, encodeFrame] at hf
  split_ifs at hf with hlong hwrap
  · exact absurd (Option.some.inj hf).symm hne
  · have hlt : minProtocalSize + header.length + payload.length < 2 ^ 32 := by
      simp only [List.flatten_cons, List.flatten_nil, List.append_nil, List.length_append,
        List.length_cons, List.length_nil, Lib.length_toBE] at hwrap
      rw [minProtocalSize]
      omega
    have hframe : f = frameBytes now header payload := by
      rw [← Option.some.inj hf]
      simp [frameBytes, headerBytes, version]
    rw [hframe, length_frameBytes]
    exact ⟨rfl, hlt⟩

/-- Only one byte is not the same. -/
def OneChanged (f g : List UInt8) : Prop := ∃! i : ℕ, g[i]? ≠ f[i]?

lemma unmasked_sum_ne (hmin : minProtocalSize ≤ f.length) (hg : SameHeader f g)
    (hone : OneChanged f g) :
    (unmasked g).sum + g.getD 1 0 ≠ (unmasked f).sum + f.getD 1 0 := by
  obtain ⟨i, hi, hother⟩ := hone
  have hother : ∀ j, j ≠ i → g[j]? = f[j]? := fun j hj => by
    by_contra hne
    exact hj (hother j hne)
  by_cases hone : i = 1
  · -- the bytes behind the header are the same
    subst hone
    have hdrop : g.drop minProtocalSize = f.drop minProtocalSize := by
      refine List.ext_getElem? fun j => ?_
      rw [List.getElem?_drop, List.getElem?_drop]
      exact hother _ (by rw [minProtocalSize]; omega)
    have hget : ∀ xs : List UInt8, minProtocalSize ≤ xs.length → xs[1]? = some (xs.getD 1 0) := by
      intro xs hlen
      rw [minProtocalSize] at hlen
      rw [List.getElem?_eq_getElem (by omega), List.getD_eq_getElem?_getD,
        List.getElem?_eq_getElem (by omega), Option.getD_some]
    rw [hget g (hg.length_eq ▸ hmin), hget f hmin] at hi
    rw [unmasked, unmasked, hdrop, hg.slice_eq (by decide) (by decide)]
    intro h
    exact hi (congrArg some (add_left_cancel h))
  · -- the check code is the same
    have hlarge : minProtocalSize ≤ i := by
      by_contra hlt
      exact hi (hg.header i (by omega) hone)
    have hcode : g.getD 1 0 = f.getD 1 0 := by
      rw [List.getD_eq_getElem?_getD, List.getD_eq_getElem?_getD, hother 1 (Ne.symm hone)]
    have hsum : (unmasked g).sum ≠ (unmasked f).sum := by
      have hdrop : ∀ xs : List UInt8, (xs.drop minProtocalSize)[i - minProtocalSize]? = xs[i]? := by
        intro xs
        rw [List.getElem?_drop]
        congr 1
        omega
      have hbody : (unmasked g)[i - minProtocalSize]? ≠ (unmasked f)[i - minProtocalSize]? := by
        rw [unmasked, unmasked, hg.slice_eq (by decide) (by decide)]
        refine mt Lib.getElem?_xorMask_inj.mp ?_
        rwa [hdrop, hdrop]
      refine sum_ne_of_differ ?_ hbody fun j hj => ?_
      · simp [unmasked, encryptPayload, hg.length_eq]
      · rw [unmasked, unmasked, hg.slice_eq (by decide) (by decide)]
        refine Lib.getElem?_xorMask_inj.mpr ?_
        rw [List.getElem?_drop, List.getElem?_drop]
        exact hother _ (by omega)
    rw [hcode]
    intro h
    exact hsum (add_right_cancel h)

/-- **What the check code detects.** -/
theorem corruption_detected (F : UInt32) (now : UInt64) {header payload f g : List UInt8}
    (hh : header.length < 2 ^ 16) (hp : payload.length < 2 ^ 32)
    (hf : packetFrame F.toNat now header payload = some f) (hne : f ≠ [])
    (hg : SameHeader f g) :
    ((bufferToFrame g).isSome ↔ (unmasked g).sum + g.getD 1 0 = 0) ∧
      (OneChanged f g → bufferToFrame g = none) := by
  obtain ⟨rfl, hlt⟩ := packetFrame_eq_some hf hne
  have hlen := length_frameBytes now header payload
  have hheader : decodeFrameHeader (frameBytes now header payload) = ⟨version.toNat, 0,
      caculateCheckcode header payload, header.length, payload.length, now.toNat⟩ := by
    have h := @decodeFrameHeader_frameBytes now _ _ hh hp []
    rwa [List.append_nil] at h
  have hmin : minProtocalSize ≤ (frameBytes now header payload).length := by omega
  have hsize : minProtocalSize + (decodeFrameHeader g).header_length +
      (decodeFrameHeader g).payload_length = g.length := by
    rw [hg.decodeFrameHeader_eq, hheader, hg.length_eq, hlen]
  have hiff := bufferToFrame_isSome_iff (hg.length_eq ▸ hmin) hsize (hg.length_eq ▸ hlt)
  refine ⟨hiff, fun hone => ?_⟩
  -- the frame itself is accepted
  have hself : (unmasked (frameBytes now header payload)).sum +
      (frameBytes now header payload).getD 1 0 = 0 := by
    rw [← bufferToFrame_isSome_iff hmin (by rw [hheader, hlen]) hlt,
      bufferToFrame_frameBytes hh (by omega)]
    rfl
  rw [← Option.not_isSome_iff_eq_none, hiff]
  intro h
  exact unmasked_sum_ne hmin hg hone (h.trans hself.symm)

/-- The frame for the header `01 02` and the payload `03`. -/
def smallFrame : List UInt8 := [1, 250, 0, 2, 0, 0, 0, 1, 0, 0, 0, 0, 0, 0, 3, 232, 1, 2, 3]

/-- It with another first byte behind the header of the protocol. -/
def smallFrameChanged : List UInt8 := [1, 250, 0, 2, 0, 0, 0, 1, 0, 0, 0, 0, 0, 0, 3, 232, 7, 2, 3]

theorem corruption_detected_smallFrame : bufferToFrame smallFrameChanged = none := by
  have hframe : packetFrame (10 * 1024 * 1024 : UInt32).toNat 1000 [1, 2] [3] =
      some smallFrame := by
    decide +kernel
  have hsame : SameHeader smallFrame smallFrameChanged := ⟨rfl, by decide⟩
  refine (corruption_detected (10 * 1024 * 1024) 1000 (by decide) (by decide) hframe (by decide)
    hsame).2 ⟨16, by decide, fun i hi => ?_⟩
  have hlt : i < 19 := by
    by_contra hge
    exact hi ((List.getElem?_eq_none (by simpa [smallFrameChanged] using hge)).trans
      (List.getElem?_eq_none (by simpa [smallFrame] using hge)).symm)
  have hall : ∀ i < 19, smallFrameChanged[i]? ≠ smallFrame[i]? → i = 16 := by decide
  exact hall i hlt hi

end corruption

/-! ## Lengths that wrap -/

/-- The length of a frame, before it is cut to 32 bits. -/
def StreamFrameHeader.total (h : StreamFrameHeader) : ℕ :=
  minProtocalSize + h.header_length + h.payload_length

/-- `bufferToFrame` for a buffer of `buf_len` bytes at the front of the memory `mem`; `none` when
it leaves the memory. -/
def bufferToFrameIn (mem : List UInt8) (buf_len : ℕ) : Option (Option StreamFrame) :=
  if buf_len < minProtocalSize then some none
  else if mem.length < minProtocalSize then none
  else
    let header := decodeFrameHeader mem
    if header.size ≠ buf_len then some none
    else do
      let decode_mask := Lib.toBE 8 header.timestamp
      let data ← Lib.load mem minProtocalSize (add32 header.payload_length header.header_length)
      let mem ← Lib.store mem minProtocalSize (encryptPayload decode_mask data)
      let payload_header ← Lib.load mem minProtocalSize header.header_length
      let payload ← Lib.load mem (minProtocalSize + header.header_length) header.payload_length
      return if caculateCheckcode payload_header payload ≠ header.check_code then none
        else some ⟨header, payload_header, payload⟩

section total

variable {buf : List UInt8}

lemma size_eq_mod (h : StreamFrameHeader) : h.size = h.total % 2 ^ 32 := by
  rw [StreamFrameHeader.size, StreamFrameHeader.total, add32, add32]
  omega

lemma header_length_lt (data : List UInt8) : (decodeFrameHeader data).header_length < 2 ^ 16 := by
  refine (Lib.ofBE_lt _).trans_le ?_
  calc 256 ^ (Lib.slice data 2 2).length ≤ 256 ^ 2 :=
        Nat.pow_le_pow_right (by norm_num) (by simp [Lib.slice])
    _ = 2 ^ 16 := by norm_num

lemma payload_length_lt (data : List UInt8) : (decodeFrameHeader data).payload_length < 2 ^ 32 := by
  refine (Lib.ofBE_lt _).trans_le ?_
  calc 256 ^ (Lib.slice data 4 4).length ≤ 256 ^ 4 :=
        Nat.pow_le_pow_right (by norm_num) (by simp [Lib.slice])
    _ = 2 ^ 32 := by norm_num

lemma decodeFrameHeader_append (hmin : minProtocalSize ≤ buf.length) (beyond : List UInt8) :
    decodeFrameHeader (buf ++ beyond) = decodeFrameHeader buf := by
  rw [← decodeFrameHeader_take (buf ++ beyond) hmin, List.take_left]

/-- The bytes of the buffer behind the header, unmasked. -/
def unmaskedBody (mem : List UInt8) (buf_len : ℕ) : List UInt8 :=
  encryptPayload (Lib.toBE 8 (decodeFrameHeader mem).timestamp)
    (Lib.slice mem minProtocalSize (buf_len - minProtocalSize))

lemma length_unmaskedBody {mem : List UInt8} {buf_len : ℕ} (hmin : minProtocalSize ≤ buf_len)
    (hlen : buf_len ≤ mem.length) :
    (unmaskedBody mem buf_len).length = buf_len - minProtocalSize := by
  rw [unmaskedBody, encryptPayload, Lib.length_xorMask, Lib.length_slice (by omega)]

/-- The steps of `bufferToFrameIn` when the buffer lies in the memory. -/
lemma bufferToFrameIn_eq {mem : List UInt8} {buf_len : ℕ} (hmin : minProtocalSize ≤ buf_len)
    (hsize : (decodeFrameHeader mem).size = buf_len) (hlen : buf_len ≤ mem.length) :
    bufferToFrameIn mem buf_len =
      if mem.length < (decodeFrameHeader mem).total then none
      else
        let mem' := mem.take minProtocalSize ++ unmaskedBody mem buf_len ++ mem.drop buf_len
        let header := decodeFrameHeader mem
        let payload_header := Lib.slice mem' minProtocalSize header.header_length
        let payload := Lib.slice mem' (minProtocalSize + header.header_length) header.payload_length
        some (if caculateCheckcode payload_header payload ≠ header.check_code then none
          else some ⟨header, payload_header, payload⟩) := by
  have hbody := length_unmaskedBody hmin hlen
  have hmask : add32 (decodeFrameHeader mem).payload_length (decodeFrameHeader mem).header_length =
      buf_len - minProtocalSize := by
    rw [size_eq_mod, StreamFrameHeader.total] at hsize
    rw [add32]
    omega
  have hload : Lib.load mem minProtocalSize (buf_len - minProtocalSize) = some _ :=
    Lib.load_eq_some.mpr ⟨by omega, rfl⟩
  have hstore : Lib.store mem minProtocalSize (unmaskedBody mem buf_len) =
      some (mem.take minProtocalSize ++ unmaskedBody mem buf_len ++ mem.drop buf_len) := by
    refine Lib.store_eq_some.mpr ⟨by omega, ?_⟩
    rw [hbody, Nat.add_sub_cancel' hmin]
  have hmem := Lib.length_of_store hstore
  rw [bufferToFrameIn, if_neg (by omega), if_neg (by omega)]
  simp only [hsize, ne_eq, not_true_eq_false, if_false, hmask, hload, Option.bind_eq_bind,
    Option.bind_some]
  rw [← unmaskedBody, hstore, Option.bind_some, StreamFrameHeader.total]
  by_cases htotal : mem.length < minProtocalSize + (decodeFrameHeader mem).header_length +
      (decodeFrameHeader mem).payload_length
  · rw [if_pos htotal, Option.bind_eq_none_iff]
    intro payload_header _
    rw [Lib.load, if_neg (by omega)]
    rfl
  · rw [if_neg htotal, Lib.load, if_pos (by omega), Lib.load, if_pos (by omega)]
    rfl

/-- Where nothing wraps, the buffer is enough, and the frame is that of `bufferToFrame`. -/
lemma bufferToFrameIn_of_lt (hlt : (decodeFrameHeader buf).total < 2 ^ 32) :
    bufferToFrameIn buf buf.length = some (bufferToFrame buf) := by
  have hmod : (decodeFrameHeader buf).size = (decodeFrameHeader buf).total := by
    rw [size_eq_mod, Nat.mod_eq_of_lt hlt]
  by_cases hmin : buf.length < minProtocalSize
  · rw [bufferToFrameIn, bufferToFrame, if_pos hmin, if_pos hmin]
  by_cases hsize : (decodeFrameHeader buf).size = buf.length
  · have htotal := hmod.symm.trans hsize
    have hbody := length_unmaskedBody (not_lt.mp hmin) le_rfl
    rw [StreamFrameHeader.total] at htotal
    rw [bufferToFrameIn_eq (not_lt.mp hmin) hsize le_rfl, if_neg (by omega), bufferToFrame,
      if_neg hmin]
    have hdata : encryptPayload (Lib.toBE 8 (decodeFrameHeader buf).timestamp)
        (Lib.slice buf minProtocalSize ((decodeFrameHeader buf).payload_length +
          (decodeFrameHeader buf).header_length)) = unmaskedBody buf buf.length := by
      rw [unmaskedBody]
      congr 2
      omega
    have hdrop : (buf.take minProtocalSize ++ unmaskedBody buf buf.length ++
        buf.drop buf.length).drop minProtocalSize = unmaskedBody buf buf.length := by
      rw [List.drop_length, List.append_nil]
      exact List.drop_left' (by rw [List.length_take]; omega)
    have hpayload : ((unmaskedBody buf buf.length).drop
        (decodeFrameHeader buf).header_length).length = (decodeFrameHeader buf).payload_length := by
      rw [List.length_drop]
      omega
    simp only [Lib.slice, ← List.drop_drop, hdrop] at hdata ⊢
    simp only [hsize, hdata, ne_eq, not_true_eq_false, if_false]
    rw [List.take_of_length_le hpayload.le]
  · rw [bufferToFrameIn, bufferToFrame, if_neg hmin, if_neg hmin, if_neg hmin]
    simp only [ne_eq, hsize, not_false_eq_true, if_true]

/-- `bufferToFrame` finds frames in the buffer only by what lies in the buffer. -/
def WithinBuffer (buf : List UInt8) : Prop :=
  ∀ beyond frame, bufferToFrameIn (buf ++ beyond) buf.length = some (some frame) →
    (bufferToFrameIn buf buf.length).isSome

/-- A header whose length wraps to that of the buffer: some bytes behind it make the frame. -/
lemma not_withinBuffer (hmin : minProtocalSize ≤ buf.length) (hlt : buf.length < 2 ^ 32)
    (htotal : (decodeFrameHeader buf).total = buf.length + 2 ^ 32) : ¬ WithinBuffer buf := by
  intro hwithin
  have hsize : (decodeFrameHeader buf).size = buf.length := by
    rw [size_eq_mod, htotal]
    omega
  -- the last byte makes the sum right
  let last : UInt8 := -(unmaskedBody buf buf.length).sum - (decodeFrameHeader buf).check_code
  let beyond : List UInt8 := List.replicate (2 ^ 32 - 1) 0 ++ [last]
  have hbeyond : beyond.length = 2 ^ 32 := by
    simp only [beyond, List.length_append, List.length_replicate, List.length_singleton]
    omega
  have hsum : beyond.sum = last := by
    rw [List.sum_append, List.sum_replicate, nsmul_zero, List.sum_singleton, zero_add]
  have hheader := decodeFrameHeader_append hmin beyond
  have hbody : unmaskedBody (buf ++ beyond) buf.length = unmaskedBody buf buf.length := by
    rw [unmaskedBody, unmaskedBody, hheader, Lib.slice, Lib.slice,
      List.drop_append_of_le_length hmin, List.take_append_of_le_length (by rw [List.length_drop])]
  have hbuf : bufferToFrameIn buf buf.length = none := by
    rw [bufferToFrameIn_eq hmin hsize le_rfl, if_pos (by omega)]
  have hsize' : (decodeFrameHeader (buf ++ beyond)).size = buf.length := by rw [hheader, hsize]
  have hfound := bufferToFrameIn_eq hmin hsize' (by rw [List.length_append]; omega)
  rw [if_neg (by rw [hheader, List.length_append]; omega), hheader, hbody, List.drop_left,
    List.take_append_of_le_length hmin] at hfound
  simp only at hfound
  rw [if_neg] at hfound
  · have hsome := hwithin beyond _ hfound
    rw [hbuf] at hsome
    cases hsome
  · -- the two ranges of the check code are all bytes behind the header
    have hall : ((buf.take minProtocalSize ++ unmaskedBody buf buf.length) ++ beyond).drop
        minProtocalSize = unmaskedBody buf buf.length ++ beyond := by
      rw [List.append_assoc]
      exact List.drop_left' (by rw [List.length_take]; omega)
    have hlength := length_unmaskedBody hmin le_rfl
    rw [StreamFrameHeader.total] at htotal
    rw [caculateCheckcode_eq, Lib.slice_append_slice, Lib.slice, hall, not_not,
      List.take_of_length_le (by rw [List.length_append]; omega), List.sum_append, hsum]
    simp only [last]
    abel

lemma withinBuffer_iff (hlt : buf.length < 2 ^ 32) : WithinBuffer buf ↔
    ¬ (minProtocalSize ≤ buf.length ∧ (decodeFrameHeader buf).total = buf.length + 2 ^ 32) := by
  constructor
  · rintro hwithin ⟨hmin, htotal⟩
    exact not_withinBuffer hmin hlt htotal hwithin
  · intro hnot beyond frame hframe
    by_cases hmin : buf.length < minProtocalSize
    · rw [bufferToFrameIn, if_pos hmin]
      rfl
    have hsize : (decodeFrameHeader buf).size = buf.length := by
      by_contra hne
      rw [bufferToFrameIn, if_neg hmin, decodeFrameHeader_append (not_lt.mp hmin)] at hframe
      simp only [ne_eq, hne, not_false_eq_true, if_true] at hframe
      split_ifs at hframe
      · cases hframe
    have hhl := header_length_lt buf
    have hpl := payload_length_lt buf
    rw [size_eq_mod, StreamFrameHeader.total] at hsize
    rw [StreamFrameHeader.total] at hnot
    rw [bufferToFrameIn_of_lt (by rw [StreamFrameHeader.total, minProtocalSize] at *; omega)]
    rfl

/-! ## Lengths of frames -/

/-- The header is refused at the time `now`. -/
def Rejected (max_frame_size : ℕ) (now : UInt64) (h : StreamFrameHeader) : Prop :=
  h.version ≠ version.toNat ∨ h.reserved ≠ 0 ∨ h.size > max_frame_size ∨ Outdated now h.timestamp

instance (max_frame_size : ℕ) (now : UInt64) (h : StreamFrameHeader) :
    Decidable (Rejected max_frame_size now h) :=
  inferInstanceAs (Decidable (_ ∨ _))

/-- A frame that is found has the length that its header gives, and is there; and a header that
gives a greater length than `max_frame_size` is an error. -/
structure LengthsRight (max_frame_size : ℕ) (now : UInt64) (data : List UInt8) : Prop where
  found : ∀ n, (decodeFrame max_frame_size now data data.length).2 = n → 0 < n →
    n ≤ max_frame_size → n = (decodeFrameHeader data).total ∧ n ≤ data.length
  error : minProtocalSize ≤ data.length → (decodeFrameHeader data).total > max_frame_size →
    (decodeFrame max_frame_size now data data.length).2 > max_frame_size

section decodeFrame

variable {F : ℕ} {now : UInt64} {data : List UInt8}

lemma decodeFrame_of_rejected (hmin : minProtocalSize ≤ data.length)
    (h : Rejected F now (decodeFrameHeader data)) :
    (decodeFrame F now data data.length).2 = add32 F data.length := by
  unfold Rejected at h
  rw [decodeFrame, if_neg (not_lt.mpr hmin)]
  dsimp only
  rw [if_pos h]

lemma decodeFrame_of_not_rejected (hmin : minProtocalSize ≤ data.length)
    (h : ¬ Rejected F now (decodeFrameHeader data)) :
    (decodeFrame F now data data.length).2 =
      if (decodeFrameHeader data).total % 2 ^ 32 > data.length then 0
      else (decodeFrameHeader data).total % 2 ^ 32 := by
  unfold Rejected at h
  rw [decodeFrame, if_neg (not_lt.mpr hmin), ← size_eq_mod]
  dsimp only
  rw [if_neg h]
  split_ifs <;> rfl

end decodeFrame

lemma lengthsRight_iff (F : UInt32) (now : UInt64) (data : Bytes) :
    LengthsRight F.toNat now data.1 ↔ data.1.length < minProtocalSize ∨
      if Rejected F.toNat now (decodeFrameHeader data.1) then
        F.toNat + data.1.length < 2 ^ 32 ∨
          F.toNat + data.1.length = 2 ^ 32 ∧ (decodeFrameHeader data.1).total ≤ F.toNat ∨
          F.toNat + data.1.length = 2 ^ 32 + (decodeFrameHeader data.1).total
      else (decodeFrameHeader data.1).total < 2 ^ 32 := by
  have hF := F.toNat_lt
  have hlt := data.2
  by_cases hmin : data.1.length < minProtocalSize
  · have hzero : (decodeFrame F.toNat now data.1 data.1.length).2 = 0 := by
      rw [decodeFrame, if_pos hmin]
    refine ⟨fun _ => Or.inl hmin, fun _ => ⟨?_, fun h => absurd hmin (not_lt.mpr h)⟩⟩
    rintro n hn hpos -
    omega
  have hpos : 0 < data.1.length := by
    rw [minProtocalSize] at hmin
    omega
  rw [or_iff_right hmin]
  split_ifs with hrejected
  · have hcode := decodeFrame_of_rejected (not_lt.mp hmin) hrejected
    rw [add32] at hcode
    constructor
    · rintro ⟨hfound, herror⟩
      rw [hcode] at herror
      have hfound := hfound _ hcode
      have herror := herror (not_lt.mp hmin)
      omega
    · intro h
      refine ⟨?_, fun _ htotal => ?_⟩
      · rintro n hn hpos hle
        rw [hcode] at hn
        omega
      · rw [hcode]
        omega
  · have hcode := decodeFrame_of_not_rejected (not_lt.mp hmin) hrejected
    have hneed : (decodeFrameHeader data.1).total % 2 ^ 32 ≤ F.toNat := by
      rw [← size_eq_mod]
      by_contra hgt
      exact hrejected (Or.inr (Or.inr (Or.inl (not_le.mp hgt))))
    constructor
    · rintro ⟨-, herror⟩
      have herror := herror (not_lt.mp hmin)
      rw [hcode] at herror
      split_ifs at herror
      · omega
      · omega
    · intro htotal
      rw [Nat.mod_eq_of_lt htotal] at hcode hneed
      refine ⟨?_, fun _ hgt => absurd hneed (not_le.mpr hgt)⟩
      rintro n hn hpos -
      rw [hcode] at hn
      split_ifs at hn with hlen
      · omega
      · exact ⟨hn.symm, hn ▸ not_lt.mp hlen⟩

/-- **Lengths of stream frames.** They are right where the length does not wrap; where a refused
header is reported, the error code may not wrap either. -/
theorem stream_lengths_iff (F : UInt32) (now : UInt64) (data buf : Bytes) :
    (LengthsRight F.toNat now data.1 ↔ data.1.length < minProtocalSize ∨
      if Rejected F.toNat now (decodeFrameHeader data.1) then
        F.toNat + data.1.length < 2 ^ 32 ∨
          F.toNat + data.1.length = 2 ^ 32 ∧ (decodeFrameHeader data.1).total ≤ F.toNat ∨
          F.toNat + data.1.length = 2 ^ 32 + (decodeFrameHeader data.1).total
      else (decodeFrameHeader data.1).total < 2 ^ 32) ∧
    (WithinBuffer buf.1 ↔ ¬ (minProtocalSize ≤ buf.1.length ∧
      (decodeFrameHeader buf.1).total = buf.1.length + 2 ^ 32)) :=
  ⟨lengthsRight_iff F now data, withinBuffer_iff buf.2⟩

/-- A header that announces `2 ^ 32 - 10` bytes. -/
def wrappingHeader : List UInt8 := [1, 0, 0, 0, 0xff, 0xff, 0xff, 0xf6, 0, 0, 0, 0, 0, 0, 0, 0]

/-- It is taken for a frame of six bytes; and one that announces 32 bytes more than `2 ^ 32` with
itself is checked far behind a buffer of 32 bytes. -/
theorem wrappingHeader_found :
    decodeFrame (10 * 1024 * 1024) 0 wrappingHeader wrappingHeader.length = (0, 6) ∧
      (decodeFrameHeader wrappingHeader).total = 2 ^ 32 + 6 ∧
      ¬ LengthsRight (10 * 1024 * 1024) 0 wrappingHeader ∧
      ¬ WithinBuffer ([1, 0, 0, 32, 0xff, 0xff, 0xff, 0xf0] ++ List.replicate 24 0) := by
  have hfound : decodeFrame (10 * 1024 * 1024) 0 wrappingHeader wrappingHeader.length = (0, 6) := by
    decide +kernel
  have htotal : (decodeFrameHeader wrappingHeader).total = 2 ^ 32 + 6 := by decide +kernel
  refine ⟨hfound, htotal, fun h => ?_, not_withinBuffer (by decide) (by decide) (by decide +kernel)⟩
  have herror := h.error (by decide) (by rw [htotal]; norm_num)
  rw [hfound] at herror
  norm_num at herror

end total

end ProtocalStream

end SignalEventLoop.Network
