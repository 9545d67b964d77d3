/-
# The slices of a firmware image

`UpdateSliceContext` and `UpdateFileContext::fillUpdateSliceContext`
(`imp/device-update/update-type-def.h`, `imp/device-update/update-file.cpp`).  The image has
two segments, the interrupt vectors and the code.  The first call cuts both of them into
slices, none of which crosses a page of the flash; every call then reads the slice that `seq`
points to.  `seq` counts down to 0 in the vectors and then once more in the code.

A call returns `none` when it has no defined result: the loop over a segment does not end, or
a `memcpy` leaves its block.
-/
import SignalEventLoop.Lib.ByteMem

namespace SignalEventLoop.Device

/-- `UpdateSliceType`. -/
inductive SliceType where
  | vector
  | code
deriving DecidableEq

/-- The segments of the image. -/
structure UpdateFileContext where
  vecData : List UInt8
  codeData : List UInt8
  vecData_lt : vecData.length < 2 ^ 32
  codeData_lt : codeData.length < 2 ^ 32

structure UpdateSliceContext where
  maxSliceSize : ℕ
  data : List UInt8
  dataLen : ℕ
  type : SliceType
  vectorMap : List (ℕ × ℕ)
  codeMap : List (ℕ × ℕ)
  seq : ℤ
  pageSize : ℕ
deriving DecidableEq

/-- `UpdateSliceContext::UpdateSliceContext`. -/
def updateSliceContext (max_slice_size : ℕ) : UpdateSliceContext :=
  ⟨max_slice_size, List.replicate (max_slice_size + 1) 0, 0, .vector, [], [], -2, 1024⟩

/-- The conversion of a size to `int`. -/
def toInt (n : ℤ) : ℤ := Int.bmod n (2 ^ 32)

lemma toInt_eq {n : ℤ} (hlo : -1 ≤ n) (hhi : n < 2 ^ 31) : toInt n = n := by
  refine Int.bmod_eq_of_le ?_ ?_
  · norm_num
    omega
  · norm_num
    omega

namespace UpdateFileContext

/-- The loop that cuts a segment of `len` bytes from `i` on, with `page_left` bytes left in
the page, for up to `fuel` slices. -/
def sliceLoop (max_slice_size page_size len : ℕ) :
    ℕ → ℕ → ℕ → List (ℕ × ℕ) → Option (List (ℕ × ℕ) × ℕ)
  | 0, i, page_left, map => if i < len then none else some (map, page_left)
  | fuel + 1, i, page_left, map =>
    if i < len then
      let max_len := len - i
      let max_len := if max_len > max_slice_size then max_slice_size else max_len
      let max_len := if max_len > page_left then page_left else max_len
      let left := page_left - max_len
      sliceLoop max_slice_size page_size len fuel (i + max_len)
        (if left = 0 then page_size else left) (map ++ [(i, max_len)])
    else some (map, page_left)

variable (F : UpdateFileContext)

/-- The beginning of `fillUpdateSliceContext`, when `seq` is below -1: the maps are filled. -/
def initMaps (c : UpdateSliceContext) : Option UpdateSliceContext :=
  (sliceLoop c.maxSliceSize c.pageSize F.vecData.length F.vecData.length 0 c.pageSize
    c.vectorMap).bind fun (vector_map, page_left) =>
      (sliceLoop c.maxSliceSize c.pageSize F.codeData.length F.codeData.length 0 page_left
        c.codeMap).map fun (code_map, _) =>
          let c := { c with vectorMap := vector_map, codeMap := code_map }
          if vector_map ≠ [] then
            { c with seq := toInt (vector_map.length - 1), type := .vector }
          else { c with seq := toInt (code_map.length - 1), type := .code }

/-- The segment of a type of slices. -/
def segment : SliceType → List UInt8
  | .vector => F.vecData
  | .code => F.codeData

end UpdateFileContext

namespace UpdateSliceContext

variable (c : UpdateSliceContext)

/-- The map of a type of slices. -/
def offsetMap : SliceType → List (ℕ × ℕ)
  | .vector => c.vectorMap
  | .code => c.codeMap

/-- The step from the vectors to the code. -/
def enterCode : UpdateSliceContext :=
  if c.seq = -1 ∧ c.type = .vector then
    { c with type := .code, seq := toInt c.codeMap.length - 1 }
  else c

/-- The state before a slice is read. -/
def reset : UpdateSliceContext :=
  { c with data := List.replicate c.maxSliceSize 0 ++ c.data.drop c.maxSliceSize, dataLen := 0 }

/-- The number of bytes of a slice that are sent, a multiple of four. -/
def alignedLen (len : ℕ) : ℕ := if len % 4 ≠ 0 then len / 4 * 4 + 4 else len

end UpdateSliceContext

namespace UpdateFileContext

variable (F : UpdateFileContext)

/-- The end of `fillUpdateSliceContext`: the slice of `seq` is copied. -/
def readSlice (c : UpdateSliceContext) : Option (Bool × UpdateSliceContext) :=
  let offset_map := c.offsetMap c.type
  if toInt offset_map.length ≤ c.seq then some (false, c)
  else do
    -- `index` is a `uint32_t`
    let (offset, len) ← offset_map[((offset_map.length - 1 - c.seq) % 2 ^ 32).toNat]?
    let bytes ← Lib.load (F.segment c.type) offset len
    let data ← Lib.store c.data 0 bytes
    some (true, { c with data := data, dataLen := UpdateSliceContext.alignedLen len })

/-- `UpdateFileContext::fillUpdateSliceContext`. -/
def fillUpdateSliceContext (c : UpdateSliceContext) : Option (Bool × UpdateSliceContext) :=
  if c.maxSliceSize < 1 then some (false, c)
  else
    (if c.seq < -1 then F.initMaps c.reset else some c.reset).bind fun c =>
      let c := c.enterCode
      if c.type = .code ∧ c.seq < 0 then some (true, c) else F.readSlice c

end UpdateFileContext

/-! ## The slices of a segment -/

/-- The ranges follow each other from `i` to `len`, none of them empty or longer than
`max_slice_size`. -/
def Tiles (max_slice_size len : ℕ) : ℕ → List (ℕ × ℕ) → Prop
  | i, [] => i = len
  | i, r :: map => r.1 = i ∧ 0 < r.2 ∧ r.2 ≤ max_slice_size ∧ i + r.2 ≤ len ∧
    Tiles max_slice_size len (i + r.2) map

lemma Tiles.of_mem {max_slice_size len i : ℕ} {map : List (ℕ × ℕ)}
    (h : Tiles max_slice_size len i map) {r : ℕ × ℕ} (hr : r ∈ map) :
    0 < r.2 ∧ r.2 ≤ max_slice_size ∧ r.1 + r.2 ≤ len := by
  induction map generalizing i with
  | nil => simp at hr
  | cons q map ih =>
    obtain ⟨hfirst, hpos, hle, hend, hrest⟩ := h
    rcases List.mem_cons.mp hr with rfl | hr
    · exact ⟨hpos, hle, by omega⟩
    · exact ih hrest hr

lemma Tiles.ne_nil {max_slice_size len : ℕ} {map : List (ℕ × ℕ)}
    (h : Tiles max_slice_size len 0 map) : map = [] ↔ len = 0 := by
  cases map with
  | nil => exact ⟨fun _ => Eq.symm h, fun _ => rfl⟩
  | cons r map =>
    obtain ⟨-, hpos, -, hend, -⟩ := h
    exact ⟨fun hnil => absurd hnil (by simp), fun hzero => by omega⟩

namespace UpdateFileContext

section

variable {max_slice_size page_size : ℕ}

/-- One slice. -/
lemma sliceLoop_succ {len i n page_left : ℕ} (hlt : i < len)
    (hn : n = min (min (len - i) max_slice_size) page_left) (fuel : ℕ) (map : List (ℕ × ℕ)) :
    sliceLoop max_slice_size page_size len (fuel + 1) i page_left map =
      sliceLoop max_slice_size page_size len fuel (i + n)
        (if page_left - n = 0 then page_size else page_left - n) (map ++ [(i, n)]) := by
  have hmin : ∀ a b : ℕ, (if a > b then b else a) = min a b := by
    intro a b
    split_ifs <;> omega
  rw [sliceLoop, if_pos hlt]
  simp only [hmin, ← hn]

/-- The loop ends and cuts the rest of the segment.  Where slices and pages are multiples of
four bytes, a slice of less than four bytes is the last one of its segment or ends the first
page, so that there are not many of them. -/
lemma sliceLoop_spec (hslice : 4 ∣ max_slice_size) (hslice_pos : 0 < max_slice_size)
    (hpage : 4 ∣ page_size) (hpage_pos : 0 < page_size) (len fuel i page_left : ℕ)
    (map : List (ℕ × ℕ)) (hleft : 0 < page_left) (hi : i ≤ len) (hfuel : len - i ≤ fuel) :
    ∃ new left, sliceLoop max_slice_size page_size len fuel i page_left map =
        some (map ++ new, left) ∧ 0 < left ∧ Tiles max_slice_size len i new ∧
      4 * new.length ≤ len - i + 4 + if 4 ∣ page_left then 0 else 4 := by
  induction fuel generalizing i page_left map with
  | zero =>
    refine ⟨[], page_left, ?_, hleft, ?_, by simp⟩
    · rw [sliceLoop, if_neg (by omega), List.append_nil]
    · show i = len
      omega
  | succ fuel ih =>
    by_cases hlt : i < len
    · -- one slice, and the rest of the segment by the induction hypothesis
      obtain ⟨n, hn⟩ : ∃ n, n = min (min (len - i) max_slice_size) page_left := ⟨_, rfl⟩
      obtain ⟨left, hnext⟩ : ∃ left, left = if page_left - n = 0 then page_size
        else page_left - n := ⟨_, rfl⟩
      have hstep : sliceLoop max_slice_size page_size len (fuel + 1) i page_left map =
          sliceLoop max_slice_size page_size len fuel (i + n) left (map ++ [(i, n)]) := by
        rw [sliceLoop_succ hlt hn, hnext]
      have hleft' : 0 < left := by
        rw [hnext]
        split_ifs <;> omega
      obtain ⟨new, left', hloop, hleft'', htiles, hcount⟩ :=
        ih (i + n) left (map ++ [(i, n)]) hleft' (by omega) (by omega)
      refine ⟨(i, n) :: new, left', ?_, hleft'', ⟨rfl, by omega, by omega, by omega, htiles⟩, ?_⟩
      · rw [hstep, hloop, List.append_assoc, List.singleton_append]
      · rw [List.length_cons]
        by_cases hlast : i + n = len
        · -- the last slice of the segment
          have hnil : new = [] := by
            cases new with
            | nil => rfl
            | cons r new =>
              obtain ⟨-, hpos, -, hend, -⟩ := htiles
              omega
          rw [hnil, List.length_nil]
          split_ifs <;> omega
        · rw [hnext] at hcount
          split_ifs at hcount ⊢ <;> omega
    · refine ⟨[], page_left, ?_, hleft, ?_, by simp⟩
      · rw [sliceLoop, if_neg hlt, List.append_nil]
      · show i = len
        omega

end

end UpdateFileContext

/-! ## Slices -/

/-- A slice: its segment, the number of slices of the segment after it, and its range. -/
structure Slice where
  type : SliceType
  seq : ℕ
  offset : ℕ
  length : ℕ
deriving DecidableEq

/-- The slices of a map, in order. -/
def slicesOf (type : SliceType) : List (ℕ × ℕ) → List Slice
  | [] => []
  | r :: map => ⟨type, map.length, r.1, r.2⟩ :: slicesOf type map

lemma slicesOf_getElem? (type : SliceType) (map : List (ℕ × ℕ)) (k : ℕ) :
    (slicesOf type map)[k]? =
      map[k]?.map fun r => ⟨type, map.length - 1 - k, r.1, r.2⟩ := by
  induction map generalizing k with
  | nil => simp [slicesOf]
  | cons r map ih =>
    cases k with
    | zero => simp [slicesOf]
    | succ k =>
      rw [slicesOf, List.getElem?_cons_succ, List.getElem?_cons_succ, ih, List.length_cons]
      rw [show map.length + 1 - 1 - (k + 1) = map.length - 1 - k by omega]

@[simp] lemma length_slicesOf (type : SliceType) (map : List (ℕ × ℕ)) :
    (slicesOf type map).length = map.length := by
  induction map with
  | nil => rfl
  | cons r map ih => rw [slicesOf, List.length_cons, List.length_cons, ih]

lemma seq_lt_of_mem_slicesOf {type : SliceType} {map : List (ℕ × ℕ)} {x : Slice}
    (hx : x ∈ slicesOf type map) : x.type = type ∧ x.seq < map.length := by
  obtain ⟨k, hk⟩ := List.mem_iff_getElem?.mp hx
  rw [slicesOf_getElem?] at hk
  obtain ⟨r, hr, rfl⟩ := Option.map_eq_some_iff.mp hk
  have := (List.getElem?_eq_some_iff.mp hr).1
  exact ⟨rfl, by dsimp only; omega⟩

lemma nodup_slicesOf (type : SliceType) (map : List (ℕ × ℕ)) : (slicesOf type map).Nodup := by
  induction map with
  | nil => exact List.nodup_nil
  | cons r map ih =>
    refine List.nodup_cons.mpr ⟨fun hmem => ?_, ih⟩
    exact absurd (seq_lt_of_mem_slicesOf hmem).2 (lt_irrefl _)

namespace UpdateSliceContext

variable (c : UpdateSliceContext)

/-- All slices, the vectors first. -/
def slices : List Slice := slicesOf .vector c.vectorMap ++ slicesOf .code c.codeMap

/-- The slice that `seq` points to. -/
def current : Option Slice :=
  if c.seq < 0 then none
  else
    (c.offsetMap c.type)[(c.offsetMap c.type).length - 1 - c.seq.toNat]?.map fun r =>
      ⟨c.type, c.seq.toNat, r.1, r.2⟩

variable {c}

lemma nodup_slices : c.slices.Nodup := by
  refine List.nodup_append.mpr ⟨nodup_slicesOf _ _, nodup_slicesOf _ _, ?_⟩
  intro x hx y hy hxy
  have hxt := (seq_lt_of_mem_slicesOf hx).1
  have hyt := (seq_lt_of_mem_slicesOf hy).1
  rw [hxy, hyt] at hxt
  exact absurd hxt (by decide)

/-- A slice is found through its type and its number. -/
lemma slice_at {k : ℕ} {x : Slice} (hx : c.slices[k]? = some x) :
    x.seq < (c.offsetMap x.type).length ∧
      (c.offsetMap x.type)[(c.offsetMap x.type).length - 1 - x.seq]? =
        some (x.offset, x.length) := by
  have hmem : ∀ type map (j : ℕ), (slicesOf type map)[j]? = some x →
      x.type = type ∧ x.seq < map.length ∧ map[map.length - 1 - x.seq]? =
        some (x.offset, x.length) := by
    intro type map j hj
    rw [slicesOf_getElem?] at hj
    obtain ⟨r, hr, rfl⟩ := Option.map_eq_some_iff.mp hj
    have hlt := (List.getElem?_eq_some_iff.mp hr).1
    refine ⟨rfl, by dsimp only; omega, ?_⟩
    dsimp only
    rw [show map.length - 1 - (map.length - 1 - j) = j by omega, hr]
  rw [slices, List.getElem?_append] at hx
  split_ifs at hx
  · obtain ⟨htype, hseq, hr⟩ := hmem _ _ _ hx
    rw [htype]
    exact ⟨hseq, hr⟩
  · obtain ⟨htype, hseq, hr⟩ := hmem _ _ _ hx
    rw [htype]
    exact ⟨hseq, hr⟩

/-- The slice after a slice: the number goes down by one, or the code begins. -/
lemma slice_next {k : ℕ} {x y : Slice} (hx : c.slices[k]? = some x)
    (hy : c.slices[k + 1]? = some y) :
    (y.type = x.type ∧ y.seq + 1 = x.seq) ∨
      (x.type = .vector ∧ x.seq = 0 ∧ y.type = .code ∧ y.seq + 1 = c.codeMap.length) := by
  rw [slices, List.getElem?_append, length_slicesOf] at hx hy
  split_ifs at hx hy with h₁ h₂
  · rw [slicesOf_getElem?] at hx hy
    obtain ⟨r, hr, rfl⟩ := Option.map_eq_some_iff.mp hx
    obtain ⟨q, hq, rfl⟩ := Option.map_eq_some_iff.mp hy
    exact Or.inl ⟨rfl, by dsimp only; omega⟩
  · rw [slicesOf_getElem?] at hx hy
    obtain ⟨r, hr, rfl⟩ := Option.map_eq_some_iff.mp hx
    obtain ⟨q, hq, rfl⟩ := Option.map_eq_some_iff.mp hy
    have := (List.getElem?_eq_some_iff.mp hq).1
    exact Or.inr ⟨rfl, by dsimp only; omega, rfl, by dsimp only; omega⟩
  · omega
  · rw [slicesOf_getElem?] at hx hy
    obtain ⟨r, hr, rfl⟩ := Option.map_eq_some_iff.mp hx
    obtain ⟨q, hq, rfl⟩ := Option.map_eq_some_iff.mp hy
    have := (List.getElem?_eq_some_iff.mp hq).1
    exact Or.inl ⟨rfl, by dsimp only; omega⟩

/-- The last slice has the number 0, and belongs to the code if there is any. -/
lemma slice_last {k : ℕ} {x : Slice} (hx : c.slices[k]? = some x)
    (hnone : c.slices[k + 1]? = none) :
    x.seq = 0 ∧ (c.codeMap ≠ [] → x.type = .code) := by
  have hlen := List.getElem?_eq_none_iff.mp hnone
  rw [slices, List.length_append, length_slicesOf, length_slicesOf] at hlen
  rw [slices, List.getElem?_append, length_slicesOf] at hx
  split_ifs at hx with hvector
  · rw [slicesOf_getElem?] at hx
    obtain ⟨r, hr, rfl⟩ := Option.map_eq_some_iff.mp hx
    refine ⟨by dsimp only; omega, fun hne => ?_⟩
    have := List.length_pos_of_ne_nil hne
    omega
  · rw [slicesOf_getElem?] at hx
    obtain ⟨r, hr, rfl⟩ := Option.map_eq_some_iff.mp hx
    exact ⟨by dsimp only; omega, fun _ => rfl⟩

end UpdateSliceContext

/-! ## Reading a slice -/

/-- The maps of a context cut the segments of the image. -/
structure Cut (F : UpdateFileContext) (c : UpdateSliceContext) : Prop where
  size_pos : 0 < c.maxSliceSize
  data_length : c.data.length = c.maxSliceSize + 1
  tiles : ∀ type, Tiles c.maxSliceSize (F.segment type).length 0 (c.offsetMap type)
  length_lt : ∀ type, (c.offsetMap type).length < 2 ^ 31

/-- The context holds the data of a slice. -/
structure Holds (F : UpdateFileContext) (c : UpdateSliceContext) (x : Slice) : Prop where
  cut : Cut F c
  type : c.type = x.type
  seq : c.seq = x.seq
  dataLen_ne : c.dataLen ≠ 0

lemma Holds.current {F : UpdateFileContext} {c : UpdateSliceContext} {x : Slice} {k : ℕ}
    (h : Holds F c x) (hx : c.slices[k]? = some x) : c.current = some x := by
  obtain ⟨-, hrange⟩ := UpdateSliceContext.slice_at hx
  rw [UpdateSliceContext.current, h.seq, h.type, if_neg (by omega), Int.toNat_natCast, hrange]
  rfl

namespace UpdateFileContext

variable {F : UpdateFileContext} {c : UpdateSliceContext} {x : Slice} {k : ℕ}

lemma alignedLen_ne_zero {len : ℕ} (h : 0 < len) : UpdateSliceContext.alignedLen len ≠ 0 := by
  rw [UpdateSliceContext.alignedLen]
  split_ifs <;> omega

/-- The place of a slice in its map. -/
lemma sliceIndex_eq {len seq : ℕ} (hseq : seq < len) (hlen : len < 2 ^ 31) :
    (((len : ℤ) - 1 - (seq : ℤ)) % 2 ^ 32).toNat = len - 1 - seq := by
  rw [Int.emod_eq_of_lt (by omega) (by omega)]
  omega

lemma cut_reset (h : Cut F c) : Cut F c.reset := by
  refine ⟨h.size_pos, ?_, h.tiles, h.length_lt⟩
  have := h.data_length
  simp only [UpdateSliceContext.reset, List.length_append, List.length_replicate, List.length_drop]
  omega

/-- The slice that type and number point to is read. -/
lemma readSlice_spec (h : Cut F c) (hx : c.slices[k]? = some x) (htype : c.type = x.type)
    (hseq : c.seq = x.seq) :
    ∃ c', F.readSlice c = some (true, c') ∧ Holds F c' x ∧ c'.slices = c.slices ∧
      c'.codeMap = c.codeMap := by
  obtain ⟨hlt, hrange⟩ := UpdateSliceContext.slice_at hx
  have hlen := h.length_lt x.type
  have htiles := h.tiles x.type
  have hdata := h.data_length
  obtain ⟨hpos, hle, hend⟩ := htiles.of_mem (List.mem_of_getElem? hrange)
  dsimp only at hpos hle hend
  have hload : Lib.load (F.segment x.type) x.offset x.length =
      some (Lib.slice (F.segment x.type) x.offset x.length) :=
    Lib.load_eq_some.mpr ⟨hend, rfl⟩
  obtain ⟨data, hstore⟩ : ∃ data, Lib.store c.data 0
      (Lib.slice (F.segment x.type) x.offset x.length) = some data :=
    Lib.exists_store (by rw [Lib.length_slice hend]; omega)
  refine ⟨{ c with data := data, dataLen := UpdateSliceContext.alignedLen x.length }, ?_,
    ⟨⟨h.size_pos, ?_, h.tiles, h.length_lt⟩, htype, hseq, alignedLen_ne_zero hpos⟩, rfl, rfl⟩
  · rw [readSlice, htype, hseq]
    dsimp only
    rw [toInt_eq (by omega) (by omega), if_neg (by omega), sliceIndex_eq hlt hlen, hrange]
    simp only [Option.bind_eq_bind, Option.bind_some, hload, hstore]
  · exact (Lib.length_of_store hstore).trans hdata

/-- `fillUpdateSliceContext` after the maps are filled: the slice of the number, or the first
slice of the code after the last one of the vectors. -/
lemma fillUpdateSliceContext_spec (h : Cut F c) (hx : c.slices[k]? = some x)
    (hpoint : (c.type = x.type ∧ c.seq = x.seq) ∨
      (c.type = .vector ∧ c.seq = -1 ∧ x.type = .code ∧ x.seq + 1 = c.codeMap.length)) :
    ∃ c', F.fillUpdateSliceContext c = some (true, c') ∧ Holds F c' x ∧ c'.slices = c.slices ∧
      c'.codeMap = c.codeMap := by
  have hsize := h.size_pos
  have hreset := cut_reset h
  have hcode : c.codeMap.length < 2 ^ 31 := h.length_lt .code
  -- the context before the slice is read
  obtain ⟨c₁, hc₁, hcut, htype, hseq, hslices, hmap⟩ : ∃ c₁, c.reset.enterCode = c₁ ∧ Cut F c₁ ∧
      c₁.type = x.type ∧ c₁.seq = x.seq ∧ c₁.slices = c.slices ∧ c₁.codeMap = c.codeMap := by
    rcases hpoint with ⟨htype, hseq⟩ | ⟨htype, hseq, hxtype, hxseq⟩
    · refine ⟨c.reset, if_neg ?_, hreset, htype, hseq, rfl, rfl⟩
      rintro ⟨hminus, -⟩
      have : c.seq = -1 := hminus
      omega
    · refine ⟨_, if_pos ⟨hseq, htype⟩, ⟨hreset.size_pos, hreset.data_length, hreset.tiles,
        hreset.length_lt⟩, hxtype.symm, ?_, rfl, rfl⟩
      show toInt c.codeMap.length - 1 = x.seq
      rw [toInt_eq (by omega) (by omega)]
      omega
  obtain ⟨c', hread, hholds, hslices', hmap'⟩ :=
    readSlice_spec hcut (hslices.symm ▸ hx) htype hseq
  refine ⟨c', ?_, hholds, hslices'.trans hslices, hmap'.trans hmap⟩
  have hneg : ¬ c.seq < -1 := by
    rcases hpoint with ⟨-, hseq⟩ | ⟨-, hseq, -⟩ <;> omega
  rw [fillUpdateSliceContext, if_neg (by omega), if_neg hneg, Option.bind_some, hc₁]
  dsimp only
  rw [if_neg (fun hend => by have := hend.2; omega), hread]

/-- After the last vector of an image without code there is nothing to read. -/
lemma fillUpdateSliceContext_end (h : Cut F c) (htype : c.type = .vector) (hseq : c.seq = -1)
    (hcode : c.codeMap = []) :
    ∃ c', F.fillUpdateSliceContext c = some (true, c') ∧ c'.dataLen = 0 := by
  have hsize := h.size_pos
  have henter : c.reset.enterCode =
      { c.reset with type := .code, seq := toInt c.codeMap.length - 1 } :=
    if_pos ⟨hseq, htype⟩
  refine ⟨c.reset.enterCode, ?_, by rw [henter]; rfl⟩
  rw [fillUpdateSliceContext, if_neg (by omega), if_neg (by omega), Option.bind_some, henter]
  dsimp only
  rw [if_pos]
  rw [hcode]
  exact ⟨rfl, by decide⟩

/-! ## The first slice -/

/-- A context whose maps are still to be filled. -/
structure Fresh (c : UpdateSliceContext) : Prop where
  size_dvd : 4 ∣ c.maxSliceSize
  size_pos : 0 < c.maxSliceSize
  page_dvd : 4 ∣ c.pageSize
  page_pos : 0 < c.pageSize
  data_length : c.data.length = c.maxSliceSize + 1
  vectorMap : c.vectorMap = []
  codeMap : c.codeMap = []
  seq : c.seq < -1

/-- The slices that a context is going to have. -/
def slices (F : UpdateFileContext) (c : UpdateSliceContext) : List Slice :=
  match F.initMaps c with
  | some c' => c'.slices
  | none => []

/-- The maps are filled, and the number is the one of the first slice. -/
lemma initMaps_spec (h : Fresh c) :
    ∃ c', F.initMaps c = some c' ∧ Cut F c' ∧
      ∀ x, c'.slices[0]? = some x → c'.type = x.type ∧ c'.seq = x.seq := by
  have hvector_lt := F.vecData_lt
  have hcode_lt := F.codeData_lt
  obtain ⟨V, left, hV, hleft, htilesV, hcountV⟩ := sliceLoop_spec h.size_dvd h.size_pos
    h.page_dvd h.page_pos F.vecData.length F.vecData.length 0 c.pageSize c.vectorMap h.page_pos
    (Nat.zero_le _) (Nat.sub_le _ _)
  obtain ⟨C, left', hC, -, htilesC, hcountC⟩ := sliceLoop_spec h.size_dvd h.size_pos
    h.page_dvd h.page_pos F.codeData.length F.codeData.length 0 left c.codeMap hleft
    (Nat.zero_le _) (Nat.sub_le _ _)
  rw [h.vectorMap, List.nil_append] at hV
  rw [h.codeMap, List.nil_append] at hC
  have hVlt : V.length < 2 ^ 31 := by
    split_ifs at hcountV <;> omega
  have hClt : C.length < 2 ^ 31 := by
    split_ifs at hcountC <;> omega
  have hcut : ∀ seq type, Cut F { c with vectorMap := V, codeMap := C, seq := seq, type := type } :=
    fun _ _ => ⟨h.size_pos, h.data_length, fun | .vector => htilesV | .code => htilesC,
      fun | .vector => hVlt | .code => hClt⟩
  by_cases hnil : V = []
  · subst hnil
    refine ⟨{ c with vectorMap := [], codeMap := C, seq := toInt (C.length - 1), type := .code },
      ?_, hcut _ _, fun x hx => ?_⟩
    · rw [initMaps, h.vectorMap, h.codeMap, hV, Option.bind_some]
      simp [hC]
    · simp only [UpdateSliceContext.slices, slicesOf, List.nil_append] at hx
      rw [slicesOf_getElem?] at hx
      obtain ⟨r, hr, rfl⟩ := Option.map_eq_some_iff.mp hx
      have hpos := (List.getElem?_eq_some_iff.mp hr).1
      dsimp only
      exact ⟨rfl, by rw [toInt_eq (by omega) (by omega)]; omega⟩
  · have hpos := List.length_pos_of_ne_nil hnil
    refine ⟨{ c with vectorMap := V, codeMap := C, seq := toInt (V.length - 1), type := .vector },
      ?_, hcut _ _, fun x hx => ?_⟩
    · rw [initMaps, h.vectorMap, h.codeMap, hV, Option.bind_some]
      simp [hC, hnil]
    · simp only [UpdateSliceContext.slices] at hx
      rw [List.getElem?_append_left (by rw [length_slicesOf]; exact hpos), slicesOf_getElem?] at hx
      obtain ⟨r, hr, rfl⟩ := Option.map_eq_some_iff.mp hx
      dsimp only
      exact ⟨rfl, by rw [toInt_eq (by omega) (by omega)]; omega⟩

lemma Fresh.reset (h : Fresh c) : Fresh c.reset := by
  refine ⟨h.size_dvd, h.size_pos, h.page_dvd, h.page_pos, ?_, h.vectorMap, h.codeMap, h.seq⟩
  have := h.data_length
  simp only [UpdateSliceContext.reset, List.length_append, List.length_replicate,
    List.length_drop]
  omega

/-- The first call of `fillUpdateSliceContext` reads the first slice. -/
lemma fillUpdateSliceContext_first (h : Fresh c) (hx : (F.slices c.reset)[0]? = some x) :
    ∃ c', F.fillUpdateSliceContext c = some (true, c') ∧ Holds F c' x ∧
      c'.slices = F.slices c.reset := by
  obtain ⟨c₁, hinit, hcut, hfirst⟩ := initMaps_spec (F := F) h.reset
  have hslices : F.slices c.reset = c₁.slices := by rw [slices, hinit]
  rw [hslices] at hx ⊢
  obtain ⟨htype, hseq⟩ := hfirst x hx
  have henter : c₁.enterCode = c₁ := if_neg fun h => by have := h.1; omega
  obtain ⟨c', hread, hholds, hsame, -⟩ := readSlice_spec hcut hx htype hseq
  refine ⟨c', ?_, hholds, hsame⟩
  have hsize := h.size_pos
  rw [fillUpdateSliceContext, if_neg (by omega), if_pos h.seq, hinit, Option.bind_some, henter]
  dsimp only
  rw [if_neg (fun hend => by have := hend.2; omega), hread]

end UpdateFileContext

end SignalEventLoop.Device
