/-
# Finding frames in a cache

`CanControlBase::unpackCanFrame` on any bytes.  A scanner that looks for a valid frame at every
byte says what there is to find: `frameStarts`.  The unpacker differs from it in three ways.  It
takes every 0x55 for a head, as it assigns the second byte of the head and does not compare it; it
compares the check sum of a frame with the third byte of the cache, and not of the frame; and as
long as the head that it has found waits for more bytes it looks no further.

What one call has to do is `Unpacks`, and `Findable` is the condition on the bytes under which
it does it.
-/
import SignalEventLoop.Can.CanReceive

namespace SignalEventLoop.Can

open Lib

variable {data : List UInt8} {offset : ℕ}

/-! ## Frames in a cache -/

/-- The length of the frame whose head is at `offset`. -/
def frameLen (data : List UInt8) (offset : ℕ) : ℕ :=
  (data.getD (offset + 3) 0).toNat + CAN_HEAD_SIZE

/-- The check byte that the frame at `offset` has to have. -/
def checkAt (data : List UInt8) (offset : ℕ) : UInt8 :=
  UInt8.ofNat (0x100 - (slice data (offset + 3) (frameLen data offset - 3)).sum.toNat)

/-- There is a frame at `offset`, with all its bytes. -/
structure ValidAt (data : List UInt8) (offset : ℕ) : Prop where
  first : data[offset]? = some 0x55
  second : data[offset + 1]? = some 0xAA
  complete : offset + frameLen data offset ≤ data.length
  check : data[offset + 2]? = some (checkAt data offset)

instance (data : List UInt8) (offset : ℕ) : Decidable (ValidAt data offset) :=
  decidable_of_iff (data[offset]? = some 0x55 ∧ data[offset + 1]? = some 0xAA ∧
      offset + frameLen data offset ≤ data.length ∧ data[offset + 2]? = some (checkAt data offset))
    ⟨fun ⟨h₁, h₂, h₃, h₄⟩ => ⟨h₁, h₂, h₃, h₄⟩, fun ⟨h₁, h₂, h₃, h₄⟩ => ⟨h₁, h₂, h₃, h₄⟩⟩

/-- The bytes of a frame: the head, the length byte and the check byte are right. -/
structure ValidFrame (frame : List UInt8) : Prop extends ValidAt frame 0 where
  length_eq : frame.length = frameLen frame 0

/-- The scanner, which first passes over some bytes: what is left of the bytes at each frame. -/
def startsFrom : ℕ → List UInt8 → List (List UInt8)
  | _, [] => []
  | skip + 1, _ :: data => startsFrom skip data
  | 0, c :: data =>
    if ValidAt (c :: data) 0 then
      (c :: data) :: startsFrom (frameLen (c :: data) 0 - 1) data
    else startsFrom 0 data

/-- What is left of the bytes at each frame. -/
def frameStarts (data : List UInt8) : List (List UInt8) := startsFrom 0 data

lemma frameLen_ge (data : List UInt8) (offset : ℕ) : 6 ≤ frameLen data offset := by
  simp only [frameLen, CAN_HEAD_SIZE]
  omega

lemma frameLen_drop (data : List UInt8) (i offset : ℕ) :
    frameLen (data.drop i) offset = frameLen data (i + offset) := by
  simp [frameLen, List.getD_eq_getElem?_getD, Nat.add_assoc]

lemma checkAt_drop (data : List UInt8) (i offset : ℕ) :
    checkAt (data.drop i) offset = checkAt data (i + offset) := by
  simp [checkAt, frameLen_drop, slice, List.drop_drop, Nat.add_assoc]

lemma validAt_drop (i : ℕ) : ValidAt (data.drop i) offset ↔ ValidAt data (i + offset) := by
  have hget : ∀ k, (data.drop i)[offset + k]? = data[i + offset + k]? := by
    intro k
    rw [List.getElem?_drop, Nat.add_assoc]
  have hlen : offset + frameLen data (i + offset) ≤ data.length - i ↔
      i + offset + frameLen data (i + offset) ≤ data.length := by
    have := frameLen_ge data (i + offset)
    omega
  constructor
  · rintro ⟨h₁, h₂, h₃, h₄⟩
    rw [frameLen_drop, List.length_drop] at h₃
    rw [checkAt_drop] at h₄
    exact ⟨(hget 0) ▸ h₁, (hget 1) ▸ h₂, hlen.mp h₃, (hget 2) ▸ h₄⟩
  · rintro ⟨h₁, h₂, h₃, h₄⟩
    refine ⟨(hget 0).trans h₁, (hget 1).trans h₂, ?_, ?_⟩
    · rw [frameLen_drop, List.length_drop]
      exact hlen.mpr h₃
    · rw [checkAt_drop]
      exact (hget 2).trans h₄

/-- The bytes of a frame in a cache. -/
lemma validFrame_slice_iff (hcomplete : offset + frameLen data offset ≤ data.length) :
    ValidFrame (slice data offset (frameLen data offset)) ↔ ValidAt data offset := by
  have hlen : (slice data offset (frameLen data offset)).length = frameLen data offset :=
    length_slice hcomplete
  have hge := frameLen_ge data offset
  have hget : ∀ k, k < frameLen data offset →
      (slice data offset (frameLen data offset))[k]? = data[offset + k]? := by
    intro k hk
    rw [slice, List.getElem?_take_of_lt hk, List.getElem?_drop]
  have hframeLen : frameLen (slice data offset (frameLen data offset)) 0 =
      frameLen data offset := by
    rw [frameLen, List.getD_eq_getElem?_getD, hget (0 + 3) (by omega), frameLen,
      List.getD_eq_getElem?_getD, Nat.zero_add]
  have hcheck : checkAt (slice data offset (frameLen data offset)) 0 = checkAt data offset := by
    rw [checkAt, checkAt, hframeLen, slice_slice (by omega), Nat.zero_add]
  constructor
  · rintro ⟨⟨h₁, h₂, -, h₄⟩, -⟩
    rw [hget 0 (by omega)] at h₁
    rw [hget (0 + 1) (by omega)] at h₂
    rw [hget (0 + 2) (by omega), hcheck] at h₄
    exact ⟨h₁, h₂, hcomplete, h₄⟩
  · rintro ⟨h₁, h₂, -, h₄⟩
    refine ⟨⟨(hget 0 (by omega)).trans h₁, (hget 1 (by omega)).trans h₂, ?_, ?_⟩, ?_⟩
    · rw [hframeLen, hlen, Nat.zero_add]
    · rw [hget (0 + 2) (by omega), hcheck]
      exact h₄
    · rw [hframeLen, hlen]

/-! ## The scanner -/

lemma startsFrom_eq (skip : ℕ) (data : List UInt8) :
    startsFrom skip data = frameStarts (data.drop skip) := by
  induction skip generalizing data with
  | zero => rfl
  | succ skip ih =>
    cases data with
    | nil => rfl
    | cons c data => rw [startsFrom, ih, List.drop_succ_cons]

lemma frameStarts_of_validAt (h : ValidAt data 0) :
    frameStarts data = data :: frameStarts (data.drop (frameLen data 0)) := by
  obtain _ | ⟨c, data⟩ := data
  · simpa using h.first
  · have hge := frameLen_ge (c :: data) 0
    rw [frameStarts, startsFrom, if_pos h, startsFrom_eq]
    rfl

/-- Bytes at which no frame begins are passed over. -/
lemma frameStarts_drop {i : ℕ} (h : ∀ j < i, ¬ ValidAt data j) :
    frameStarts (data.drop i) = frameStarts data := by
  induction i with
  | zero => rfl
  | succ i ih =>
    rw [← ih fun j hj => h j (by omega)]
    have hnot : ¬ ValidAt (data.drop i) 0 := fun hv => h i (by omega) ((validAt_drop i).mp hv)
    rw [← List.drop_drop]
    cases hdrop : data.drop i with
    | nil => rfl
    | cons c rest =>
      rw [hdrop] at hnot
      rw [frameStarts, frameStarts, startsFrom, if_neg hnot]
      rfl

/-- A start is a rest of the bytes. -/
lemma suffix_of_mem_startsFrom {s : List UInt8} : ∀ {skip : ℕ} {data : List UInt8},
    s ∈ startsFrom skip data → s <:+ data ∧ ValidAt s 0
  | _, [], h => by simp [startsFrom] at h
  | skip + 1, c :: data, h => by
    have htail : s ∈ startsFrom skip data := by simpa [startsFrom] using h
    obtain ⟨hs, hv⟩ := suffix_of_mem_startsFrom htail
    exact ⟨hs.trans (List.suffix_cons _ _), hv⟩
  | 0, c :: data, h => by
    rw [startsFrom] at h
    split_ifs at h with hvalid
    · rcases List.mem_cons.mp h with rfl | h
      · exact ⟨List.suffix_refl _, hvalid⟩
      · obtain ⟨hs, hv⟩ := suffix_of_mem_startsFrom h
        exact ⟨hs.trans (List.suffix_cons _ _), hv⟩
    · obtain ⟨hs, hv⟩ := suffix_of_mem_startsFrom h
      exact ⟨hs.trans (List.suffix_cons _ _), hv⟩

lemma frameStarts_of_first {i : ℕ} (hv : ValidAt data i) (h : ∀ j < i, ¬ ValidAt data j) :
    frameStarts data = data.drop i :: frameStarts (data.drop (i + frameLen data i)) := by
  rw [← frameStarts_drop h, frameStarts_of_validAt ((validAt_drop i).mpr hv), List.drop_drop,
    frameLen_drop, Nat.add_zero]

lemma ValidAt.lt_length (h : ValidAt data offset) : offset < data.length := by
  have := frameLen_ge data offset
  have := h.complete
  omega

lemma frameStarts_eq_nil_iff : frameStarts data = [] ↔ ∀ j, ¬ ValidAt data j := by
  constructor
  · intro hnil
    by_contra! hex
    have hfirst := frameStarts_of_first (Nat.find_spec hex) fun j hj => Nat.find_min hex hj
    rw [hnil] at hfirst
    exact absurd hfirst (by simp)
  · intro h
    rw [← frameStarts_drop (i := data.length) fun j _ => h j, List.drop_length]
    rfl

/-- The starts are kept exactly when no frame begins in what is taken away. -/
lemma kept_iff {k : ℕ} : (frameStarts (data.drop k) = frameStarts data ∨
    frameStarts data = data.drop k :: frameStarts (data.drop k)) ↔ ∀ j < k, ¬ ValidAt data j := by
  constructor
  · intro hkept
    by_contra! hex
    have hlt := (Nat.find_spec hex).1
    have hv := (Nat.find_spec hex).2
    have hfirst := frameStarts_of_first hv fun j hj hvj =>
      Nat.find_min hex hj ⟨hj.trans hlt, hvj⟩
    have hpos := hv.lt_length
    rcases hkept with hkept | hkept
    · -- the first frame would begin behind itself
      have hmem : data.drop (Nat.find hex) ∈ frameStarts (data.drop k) := by
        rw [hkept, hfirst]
        exact List.mem_cons_self
      have hle := (suffix_of_mem_startsFrom hmem).1.length_le
      rw [List.length_drop, List.length_drop] at hle
      omega
    · have hhead := congrArg List.length (List.cons.inj (hfirst.symm.trans hkept)).1
      rw [List.length_drop, List.length_drop] at hhead
      omega
  · exact fun h => Or.inl (frameStarts_drop h)

/-! ## One call -/

/-- The byte that the search of `unpackCanFrame` stops at. -/
def headAt (data : List UInt8) : Option ℕ :=
  (data.take (data.length - CAN_HEAD_SIZE)).findIdx? (· = 0x55)

/-- The byte that the check byte of the frame at `offset` is compared with: the third byte of the
cache, behind the assignment to the byte after `offset`. -/
def comparedByte (data : List UInt8) (offset : ℕ) : UInt8 :=
  if offset = 1 then 0xAA else data.getD 2 0

/-- The cache that a call leaves. -/
def CanControlFrame.next (cache : CanControlFrame) : CanControlFrame := (unpackCanFrame cache).2

/-- What a call has to do that takes `frame` out of `data` and leaves `left`: it returns valid
frames only, and leaves what is behind the frame; it loses no frame, and takes something away as
long as there is a frame. -/
structure Unpacked (data frame left : List UInt8) : Prop where
  valid : frame ≠ [] → ValidFrame frame
  suffix : frame ++ left <:+ data
  passed : frame = [] → frameStarts data = frameStarts left
  found : frame ≠ [] → frameStarts data = (frame ++ left) :: frameStarts left
  progress : frameStarts data ≠ [] → left.length < data.length

/-- The condition where the search has stopped at `offset`.  Either there is a valid frame and
its check byte is what it is compared with; or nothing that is thrown away is the begin of a
frame, and what the call waits for hides none. -/
def FindableAt (data : List UInt8) (offset : ℕ) : Prop :=
  if offset + frameLen data offset > data.length then
    if data.length ≥ CanControlFrame.MAX_CAN_PAYLOAD_SIZE then ¬ ValidAt data (offset + 1)
    else data[offset + 1]? = some 0xAA ∧ (offset = 0 → frameStarts data = [])
  else if checkAt data offset = comparedByte data offset then ValidAt data offset
  else ¬ ValidAt data offset ∧ ¬ ValidAt data (offset + 1)

instance (data : List UInt8) (offset : ℕ) : Decidable (FindableAt data offset) := by
  unfold FindableAt
  infer_instance

/-- The condition for it. -/
def Findable (data : List UInt8) : Prop :=
  match headAt data with
  | none => data.length = CAN_HEAD_SIZE → ¬ ValidAt data 0
  | some offset => FindableAt data offset

instance (data : List UInt8) : Decidable (Findable data) :=
  match h : headAt data with
  | none => decidable_of_iff (data.length = CAN_HEAD_SIZE → ¬ ValidAt data 0) (by rw [Findable, h])
  | some offset => decidable_of_iff (FindableAt data offset) (by rw [Findable, h])

lemma headAt_eq_some (h : headAt data = some offset) :
    offset + CAN_HEAD_SIZE < data.length ∧ data[offset]? = some 0x55 ∧
      ∀ j < offset, data[j]? ≠ some 0x55 := by
  obtain ⟨hlt, hhead, hbefore⟩ := List.findIdx?_eq_some_iff_getElem.mp h
  rw [List.length_take] at hlt
  simp only [decide_eq_true_eq, List.getElem_take] at hhead hbefore
  refine ⟨by omega, List.getElem?_eq_some_iff.mpr ⟨by omega, hhead⟩, ?_⟩
  intro j hj heq
  exact hbefore j hj (List.getElem?_eq_some_iff.mp heq).2

lemma headAt_eq_none (h : headAt data = none) {j : ℕ} (hj : j < data.length - CAN_HEAD_SIZE) :
    ¬ ValidAt data j := by
  intro hv
  obtain ⟨hlt, hhead⟩ := List.getElem?_eq_some_iff.mp hv.first
  have hnone := List.findIdx?_eq_none_iff.mp h data[j] (List.mem_take_iff_getElem.mpr
    ⟨j, by omega, rfl⟩)
  simp [hhead] at hnone

lemma frameLen_set (data : List UInt8) (offset : ℕ) (x : UInt8) :
    frameLen (data.set (offset + 1) x) offset = frameLen data offset := by
  simp [frameLen, List.getD_eq_getElem?_getD]

/-- What a call does where the search has stopped. -/
lemma unpackCanFrame_of_head {cache : CanControlFrame} (h : headAt cache.data = some offset) :
    ((unpackCanFrame cache).1.data, cache.next.data) =
      if offset + frameLen cache.data offset > cache.data.length then
        ([], if cache.data.length ≥ CanControlFrame.MAX_CAN_PAYLOAD_SIZE then
            cache.data.drop (offset + 2)
          else (cache.data.set (offset + 1) 0xAA).drop offset)
      else if checkAt cache.data offset = comparedByte cache.data offset then
        (slice (cache.data.set (offset + 1) 0xAA) offset (frameLen cache.data offset),
          cache.data.drop (offset + frameLen cache.data offset))
      else ([], cache.data.drop (offset + 2)) := by
  obtain ⟨hlt, -, -⟩ := headAt_eq_some h
  have hshort : ¬ cache.data.length < CAN_HEAD_SIZE := by omega
  have hlen : ((cache.data.set (offset + 1) 0xAA).getD (offset + 3) 0).toNat + CAN_HEAD_SIZE =
      frameLen cache.data offset :=
    frameLen_set _ _ _
  have hmore : ((cache.data.set (offset + 1) 0xAA).getD (offset + 3) 0).toNat + offset +
      CAN_HEAD_SIZE > cache.data.length ↔
      offset + frameLen cache.data offset > cache.data.length := by
    omega
  have hmax : ¬ ((cache.data.set (offset + 1) 0xAA).getD (offset + 3) 0).toNat >
      CanControlFrame.MAX_CAN_PAYLOAD_SIZE := by
    have := ((cache.data.set (offset + 1) 0xAA).getD (offset + 3) 0).toNat_lt
    simp only [CanControlFrame.MAX_CAN_PAYLOAD_SIZE]
    omega
  have hcheck : UInt8.ofNat (0x100 - (slice (cache.data.set (offset + 1) 0xAA) (offset + 3)
      (frameLen cache.data offset - 3)).sum.toNat) = checkAt cache.data offset := by
    rw [slice, List.drop_set_of_lt (by omega)]
    rfl
  have hcompared : (cache.data.set (offset + 1) 0xAA).getD 2 0 =
      comparedByte cache.data offset := by
    rw [comparedByte, List.getD_eq_getElem?_getD, List.getElem?_set]
    split_ifs with h₁ h₂ h₃
    · rfl
    · omega
    · simp only [CAN_HEAD_SIZE] at hlt
      omega
    · omega
    · omega
    · rfl
  have hge := frameLen_ge cache.data offset
  rw [headAt] at h
  simp only [CanControlFrame.next, unpackCanFrame, if_neg hshort, h, hmore, if_neg hmax, hlen,
    hcheck, hcompared]
  split_ifs
  · simp [CanControlFrame.moveBuf, CanControlFrame.empty, List.drop_set_of_lt]
  · rfl
  · rw [CanControlFrame.moveBuf, List.drop_set_of_lt (by omega)]
  · simp [CanControlFrame.moveBuf, CanControlFrame.empty, List.drop_set_of_lt]

lemma unpackCanFrame_of_no_head {cache : CanControlFrame} (h : headAt cache.data = none) :
    (unpackCanFrame cache).1.data = [] ∧
      cache.next.data = cache.data.drop (cache.data.length - CAN_HEAD_SIZE) := by
  rw [CanControlFrame.next, unpackCanFrame]
  by_cases hshort : cache.data.length < CAN_HEAD_SIZE
  · simp only [if_pos hshort]
    refine ⟨rfl, ?_⟩
    rw [Nat.sub_eq_zero_of_le hshort.le, List.drop_zero]
  · rw [headAt] at h
    simp only [if_neg hshort, h]
    exact ⟨rfl, rfl⟩

/-- A call that returns no frame. -/
lemma unpacked_nil_iff {k : ℕ} : Unpacked data [] (data.drop k) ↔
    (∀ j < k, ¬ ValidAt data j) ∧ (k = 0 → frameStarts data = []) := by
  constructor
  · rintro ⟨-, -, hpassed, -, hprogress⟩
    refine ⟨kept_iff.mp (Or.inl (hpassed rfl).symm), ?_⟩
    rintro rfl
    by_contra hne
    simpa using hprogress hne
  · rintro ⟨hbefore, hzero⟩
    refine ⟨fun h => absurd rfl h, data.drop_suffix k, fun _ => (frameStarts_drop hbefore).symm,
      fun h => absurd rfl h, ?_⟩
    intro hne
    have hk : 0 < k := Nat.pos_of_ne_zero fun h => hne (hzero h)
    have hdata : 0 < data.length := List.length_pos_of_ne_nil (by rintro rfl; exact hne rfl)
    rw [List.length_drop]
    omega

lemma set_of_getElem? {i : ℕ} {x : UInt8} (h : data[i]? = some x) : data.set i x = data := by
  obtain ⟨hlt, rfl⟩ := List.getElem?_eq_some_iff.mp h
  exact List.set_getElem_self hlt

/-- A rest with the second byte assigned is only left where it was this byte already. -/
lemma second_of_suffix (hlt : offset + 1 < data.length)
    (h : (data.set (offset + 1) 0xAA).drop offset <:+ data) : data[offset + 1]? = some 0xAA := by
  have heq := List.suffix_iff_eq_drop.mp h
  rw [List.length_drop, List.length_set, show data.length - (data.length - offset) = offset
    by omega] at heq
  have hget := congrArg (·[1]?) heq
  simp only [List.getElem?_drop] at hget
  rw [← hget, List.getElem?_set_self (by omega)]

/-- Where no frame begins before the head, none begins in what is thrown away. -/
lemma before_add_two_iff (hbefore : ∀ j < offset, ¬ ValidAt data j) :
    (∀ j < offset + 2, ¬ ValidAt data j) ↔ ¬ ValidAt data offset ∧ ¬ ValidAt data (offset + 1) := by
  constructor
  · exact fun h => ⟨h offset (by omega), h (offset + 1) (by omega)⟩
  · rintro ⟨hnot, hnext⟩ j hj
    rcases (by omega : j < offset ∨ j = offset ∨ j = offset + 1) with hj | rfl | rfl
    · exact hbefore j hj
    · exact hnot
    · exact hnext

/-- A call that returns what begins at `offset`, with the second byte assigned. -/
lemma unpacked_slice_iff (hbefore : ∀ j < offset, ¬ ValidAt data j)
    (hcomplete : offset + frameLen data offset ≤ data.length) :
    Unpacked data (slice (data.set (offset + 1) 0xAA) offset (frameLen data offset))
      (data.drop (offset + frameLen data offset)) ↔ ValidAt data offset := by
  have hge := frameLen_ge data offset
  have hcut : slice (data.set (offset + 1) 0xAA) offset (frameLen data offset) ++
      data.drop (offset + frameLen data offset) = (data.set (offset + 1) 0xAA).drop offset := by
    rw [slice, ← List.drop_set_of_lt (i := offset + 1) (a := 0xAA)
      (show offset + 1 < offset + frameLen data offset by omega), ← List.drop_drop,
      List.take_append_drop]
  have hne : slice (data.set (offset + 1) 0xAA) offset (frameLen data offset) ≠ [] := by
    apply List.ne_nil_of_length_pos
    rw [length_slice (by rwa [List.length_set])]
    omega
  constructor
  · rintro ⟨hvalid, hsuffix, -, -, -⟩
    rw [hcut] at hsuffix
    rw [set_of_getElem? (second_of_suffix (by omega) hsuffix)] at hvalid hne
    exact (validFrame_slice_iff hcomplete).mp (hvalid hne)
  · intro hv
    have hset := set_of_getElem? hv.second
    rw [hset] at hcut ⊢
    refine ⟨fun _ => (validFrame_slice_iff hcomplete).mpr hv, ?_, ?_, ?_, ?_⟩
    · rw [hcut]
      exact data.drop_suffix offset
    · intro hnil
      rw [hset] at hne
      exact absurd hnil hne
    · intro _
      rw [hcut]
      exact frameStarts_of_first hv hbefore
    · intro _
      rw [List.length_drop]
      omega

/-- **One call.** -/
lemma unpacked_iff (cache : CanControlFrame) :
    Unpacked cache.data (unpackCanFrame cache).1.data cache.next.data ↔ Findable cache.data := by
  cases hhead : headAt cache.data with
  | none =>
    obtain ⟨hframe, hleft⟩ := unpackCanFrame_of_no_head hhead
    rw [hframe, hleft, unpacked_nil_iff, Findable, hhead]
    constructor
    · rintro ⟨-, hzero⟩ heq hv
      have hnil := hzero (by omega)
      exact frameStarts_eq_nil_iff.mp hnil 0 hv
    · intro hshort
      refine ⟨fun j hj => headAt_eq_none hhead hj, ?_⟩
      intro hzero
      refine frameStarts_eq_nil_iff.mpr fun j hv => ?_
      have hlt := hv.complete
      have hge := frameLen_ge cache.data j
      have hsix : CAN_HEAD_SIZE = 6 := rfl
      obtain rfl : j = 0 := by omega
      exact hshort (by omega) hv
  | some offset =>
    obtain ⟨hlt, hfirst, hbefore⟩ := headAt_eq_some hhead
    have hbefore : ∀ j < offset, ¬ ValidAt cache.data j :=
      fun j hj hv => hbefore j hj hv.first
    have hsix : CAN_HEAD_SIZE = 6 := rfl
    have hcall := unpackCanFrame_of_head hhead
    simp only [Findable, hhead, FindableAt]
    split_ifs at hcall ⊢ with hmore hmax hcheck
    · obtain ⟨hframe, hleft⟩ := Prod.mk.inj hcall
      rw [hframe, hleft, unpacked_nil_iff]
      have hnot : ¬ ValidAt cache.data offset := fun hv => by
        have := hv.complete
        omega
      rw [before_add_two_iff hbefore]
      exact ⟨fun h => h.1.2, fun hnext => ⟨⟨hnot, hnext⟩, fun h => absurd h (by omega)⟩⟩
    · obtain ⟨hframe, hleft⟩ := Prod.mk.inj hcall
      rw [hframe, hleft]
      constructor
      · intro hun
        have hsecond := second_of_suffix (by omega) hun.suffix
        refine ⟨hsecond, ?_⟩
        rw [set_of_getElem? hsecond] at hun
        exact (unpacked_nil_iff.mp hun).2
      · rintro ⟨hsecond, hzero⟩
        rw [set_of_getElem? hsecond]
        exact unpacked_nil_iff.mpr ⟨hbefore, hzero⟩
    · obtain ⟨hframe, hleft⟩ := Prod.mk.inj hcall
      rw [hframe, hleft]
      exact unpacked_slice_iff hbefore (by omega)
    · obtain ⟨hframe, hleft⟩ := Prod.mk.inj hcall
      rw [hframe, hleft, unpacked_nil_iff]
      rw [before_add_two_iff hbefore]
      exact ⟨fun h => h.1, fun h => ⟨h, fun h => absurd h (by omega)⟩⟩

/-! ## Repeated calls -/

/-- The frame whose bytes are at the front. -/
def frontFrame (data : List UInt8) : List UInt8 := data.take (frameLen data 0)

lemma ValidFrame.frameLen_append {frame : List UInt8} (h : ValidFrame frame) (rest : List UInt8) :
    frameLen (frame ++ rest) 0 = frame.length := by
  have hge := frameLen_ge frame 0
  have hlen := h.length_eq
  rw [hlen, frameLen, frameLen, List.getD_eq_getElem?_getD, List.getD_eq_getElem?_getD,
    List.getElem?_append_left (by omega)]

/-- A valid frame is at the front of whatever it stands before. -/
lemma ValidFrame.frontFrame_append {frame : List UInt8} (h : ValidFrame frame)
    (rest : List UInt8) : frontFrame (frame ++ rest) = frame := by
  rw [frontFrame, h.frameLen_append, List.take_left]

lemma ValidFrame.validAt_append {frame : List UInt8} (h : ValidFrame frame) (rest : List UInt8) :
    ValidAt (frame ++ rest) 0 := by
  have hcomplete : 0 + frameLen (frame ++ rest) 0 ≤ (frame ++ rest).length := by
    rw [h.frameLen_append, List.length_append]
    omega
  have hfront : slice (frame ++ rest) 0 (frameLen (frame ++ rest) 0) = frame :=
    h.frontFrame_append rest
  rw [← validFrame_slice_iff hcomplete, hfront]
  exact h

/-- **One call at a time**, until every frame has been returned. -/
lemma finds_of_findable : ∀ (cache : CanControlFrame),
    (∀ k, Findable (CanControlFrame.next^[k] cache).data) → ∀ s ∈ frameStarts cache.data,
      ∃ k, (unpackCanFrame (CanControlFrame.next^[k] cache)).1.data = frontFrame s := by
  intro cache
  induction hn : cache.data.length using Nat.strong_induction_on generalizing cache with
  | h n ih =>
  intro hfind s hs
  have hun := (unpacked_iff cache).mpr (hfind 0)
  have hless := hun.progress (List.ne_nil_of_mem hs)
  have hlater : s ∈ frameStarts cache.next.data →
      ∃ k, (unpackCanFrame (CanControlFrame.next^[k] cache)).1.data = frontFrame s := by
    intro hs
    obtain ⟨k, hk⟩ := ih _ (hn ▸ hless) cache.next rfl (fun k => hfind (k + 1)) s hs
    exact ⟨k + 1, hk⟩
  by_cases hframe : (unpackCanFrame cache).1.data = []
  · rw [hun.passed hframe] at hs
    exact hlater hs
  · rw [hun.found hframe] at hs
    rcases List.mem_cons.mp hs with rfl | hs
    · exact ⟨0, ((hun.valid hframe).frontFrame_append _).symm⟩
    · exact hlater hs

/-- **What the unpacker finds.** A call does what it has to exactly on the bytes of `Findable`;
and calls that all find such bytes return every frame of the cache. -/
theorem unpackCanFrame_unpacks_iff (cache : CanControlFrame) :
    (Unpacked cache.data (unpackCanFrame cache).1.data cache.next.data ↔ Findable cache.data) ∧
      ((∀ k, Findable (CanControlFrame.next^[k] cache).data) → ∀ s ∈ frameStarts cache.data,
        ∃ k, (unpackCanFrame (CanControlFrame.next^[k] cache)).1.data = frontFrame s) :=
  ⟨unpacked_iff cache, finds_of_findable cache⟩

/-- The cache with the frame for the payload `07`. -/
def oneFrame : CanControlFrame := cacheOf 0 [0x55, 0xAA, 0xF1, 0x03, 0x00, 0x01, 0x03, 0x01, 0x07]

theorem unpackCanFrame_unpacks_oneFrame :
    (Unpacked oneFrame.data (unpackCanFrame oneFrame).1.data oneFrame.next.data ↔
        Findable oneFrame.data) ∧
      ∀ s ∈ frameStarts oneFrame.data,
        ∃ k, (unpackCanFrame (CanControlFrame.next^[k] oneFrame)).1.data = frontFrame s := by
  obtain ⟨hiff, hfinds⟩ := unpackCanFrame_unpacks_iff oneFrame
  refine ⟨hiff, hfinds fun k => ?_⟩
  cases k with
  | zero => decide
  | succ k =>
    have hfix : CanControlFrame.next (oneFrame.next) = oneFrame.next := by decide
    have hempty : Findable oneFrame.next.data := by decide
    rw [Function.iterate_succ_apply, Function.iterate_fixed hfix]
    exact hempty

/-- A byte before the frame is enough: the check byte is not the third byte of the cache. -/
def frameBehindByte : CanControlFrame := { oneFrame with data := 0x00 :: oneFrame.data }

theorem unpackCanFrame_misses_frame :
    frameStarts frameBehindByte.data = [oneFrame.data] ∧
      frontFrame oneFrame.data = oneFrame.data ∧
      ∀ k, (unpackCanFrame (CanControlFrame.next^[k] frameBehindByte)).1.data ≠ oneFrame.data := by
  refine ⟨by decide, by decide, fun k => ?_⟩
  rcases k with _ | _ | k
  · decide
  · decide
  · have hfix : CanControlFrame.next (frameBehindByte.next.next) = frameBehindByte.next.next := by
      decide
    rw [Function.iterate_succ_apply, Function.iterate_succ_apply, Function.iterate_fixed hfix]
    decide

end SignalEventLoop.Can
