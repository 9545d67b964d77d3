/-
# The slices and the pages

The first call of `UpdateFileContext::fillUpdateSliceContext` cuts the image for any size of the
pages, also one that is no multiple of four, and a later call reads the slice that `seq` points
to.  `seq` is an `int`, and it is compared with the number of slices as an `int`: from `2 ^ 31`
slices on, which needs pages of less than four bytes, a later call takes every `seq` for an
error.
-/
import SignalEventLoop.Device.UpdateFile

namespace SignalEventLoop.Device

/-! ## The number of slices -/

section

variable {max_slice_size len i : ℕ} {map : List (ℕ × ℕ)}

/-- No slice is empty. -/
lemma Tiles.length_le (h : Tiles max_slice_size len i map) : i + map.length ≤ len := by
  induction map generalizing i with
  | nil => exact Nat.le_of_eq h
  | cons r map ih =>
    obtain ⟨-, hpos, -, -, hrest⟩ := h
    have := ih hrest
    rw [List.length_cons]
    omega

/-- Slices of one byte are as many as there are bytes. -/
lemma Tiles.length_of_single (h : Tiles max_slice_size len i map) (hone : ∀ r ∈ map, r.2 = 1) :
    i + map.length = len := by
  induction map generalizing i with
  | nil => exact h
  | cons r map ih =>
    obtain ⟨-, -, -, -, hrest⟩ := h
    rw [hone r List.mem_cons_self] at hrest
    have := ih hrest fun q hq => hone q (List.mem_cons_of_mem _ hq)
    rw [List.length_cons]
    omega

end

namespace UpdateFileContext

variable {F : UpdateFileContext} {c c₁ : UpdateSliceContext} {max_slice_size page_size : ℕ}

/-! ## Pages -/

/-- The range lies in one page, when the segment begins at `base`. -/
def InPage (page_size base : ℕ) (r : ℕ × ℕ) : Prop :=
  (base + r.1) / page_size = (base + r.1 + r.2 - 1) / page_size

/-- A part of the rest of the page lies in the page, and leaves the rest of a page. -/
lemma page_step {a n left : ℕ} (hpage : 0 < page_size) (hleft : left = page_size - a % page_size)
    (hn : 0 < n) (hle : n ≤ left) :
    (if left - n = 0 then page_size else left - n) = page_size - (a + n) % page_size ∧
      a / page_size = (a + n - 1) / page_size := by
  have hr := Nat.mod_lt a hpage
  have ha := Nat.mod_add_div a page_size
  generalize a % page_size = r at *
  generalize hq : a / page_size = q at *
  constructor
  · split_ifs with hend
    · have hfull : a + n = page_size * (q + 1) := by
        rw [Nat.mul_succ]
        omega
      rw [hfull, Nat.mul_mod_right, Nat.sub_zero]
    · rw [show a + n = r + n + page_size * q by omega, Nat.add_mul_mod_self_left,
        Nat.mod_eq_of_lt (by omega)]
      omega
  · rw [show a + n - 1 = r + n - 1 + page_size * q by omega, Nat.add_mul_div_left _ _ hpage,
      Nat.div_eq_of_lt (by omega), Nat.zero_add]

/-- The loop over a segment that begins at `base`: what is left of the page is known. -/
lemma sliceLoop_pages (hslice : 0 < max_slice_size) (hpage : 0 < page_size) (base len fuel i : ℕ)
    (map : List (ℕ × ℕ)) (hi : i ≤ len) (hfuel : len - i ≤ fuel) :
    ∃ new, sliceLoop max_slice_size page_size len fuel i
        (page_size - (base + i) % page_size) map =
          some (map ++ new, page_size - (base + len) % page_size) ∧
      Tiles max_slice_size len i new ∧ ∀ r ∈ new, InPage page_size base r := by
  induction fuel generalizing i map with
  | zero =>
    obtain rfl : i = len := by omega
    exact ⟨[], by rw [sliceLoop, if_neg (lt_irrefl i), List.append_nil], rfl, by simp⟩
  | succ fuel ih =>
    by_cases hlt : i < len
    · obtain ⟨left, hleft⟩ : ∃ left, left = page_size - (base + i) % page_size := ⟨_, rfl⟩
      obtain ⟨n, hn⟩ : ∃ n, n = min (min (len - i) max_slice_size) left := ⟨_, rfl⟩
      have hmod := Nat.mod_lt (base + i) hpage
      obtain ⟨hnext, hin⟩ := page_step (n := n) hpage hleft (by omega) (by omega)
      obtain ⟨new, hloop, htiles, hpages⟩ := ih (i + n) (map ++ [(i, n)]) (by omega) (by omega)
      refine ⟨(i, n) :: new, ?_, ⟨rfl, by omega, by omega, by omega, htiles⟩, ?_⟩
      · rw [← hleft, sliceLoop_succ hlt hn, hnext, Nat.add_assoc, hloop, List.append_assoc,
          List.singleton_append]
      · intro r hr
        rcases List.mem_cons.mp hr with rfl | hr
        · exact hin
        · exact hpages r hr
    · obtain rfl : i = len := by omega
      exact ⟨[], by rw [sliceLoop, if_neg hlt, List.append_nil], rfl, by simp⟩

/-! ## The first call -/

/-- A size of `2 ^ 31` or more is negative as an `int`. -/
lemma toInt_wrap {n : ℤ} (hlo : 2 ^ 31 ≤ n) (hhi : n < 2 ^ 32) : toInt n = n - 2 ^ 32 := by
  rw [toInt, Int.bmod_eq_emod, Int.emod_eq_of_lt (by omega) (by omega)]
  norm_num
  omega

/-- The maps of a context cut the segments, and no slice crosses a page of the image. -/
structure CutInPages (F : UpdateFileContext) (max_slice_size page_size : ℕ)
    (c : UpdateSliceContext) : Prop where
  maxSliceSize : c.maxSliceSize = max_slice_size
  data_length : c.data.length = max_slice_size + 1
  tiles : ∀ type, Tiles max_slice_size (F.segment type).length 0 (c.offsetMap type)
  vector_pages : ∀ r ∈ c.vectorMap, InPage page_size 0 r
  code_pages : ∀ r ∈ c.codeMap, InPage page_size F.vecData.length r

lemma CutInPages.length_lt (h : CutInPages F max_slice_size page_size c) (type : SliceType) :
    (c.offsetMap type).length < 2 ^ 32 := by
  have hle := (h.tiles type).length_le
  have hvector := F.vecData_lt
  have hcode := F.codeData_lt
  cases type with
  | vector => exact (Nat.zero_add _ ▸ hle).trans_lt hvector
  | code => exact (Nat.zero_add _ ▸ hle).trans_lt hcode

/-- Nothing but the block and its length changes when a slice is read. -/
lemma readSlice_frame {ret : Bool} {c' : UpdateSliceContext} (h : F.readSlice c = some (ret, c')) :
    c'.maxSliceSize = c.maxSliceSize ∧ c'.data.length = c.data.length ∧
      c'.vectorMap = c.vectorMap ∧ c'.codeMap = c.codeMap := by
  rw [readSlice] at h
  dsimp only at h
  split_ifs at h
  · obtain ⟨-, rfl⟩ := Prod.mk.inj (Option.some.inj h)
    exact ⟨rfl, rfl, rfl, rfl⟩
  · obtain ⟨r, -, h⟩ := Option.bind_eq_some_iff.mp h
    obtain ⟨bytes, -, h⟩ := Option.bind_eq_some_iff.mp h
    obtain ⟨data, hstore, h⟩ := Option.bind_eq_some_iff.mp h
    obtain ⟨-, rfl⟩ := Prod.mk.inj (Option.some.inj h)
    exact ⟨rfl, Lib.length_of_store hstore, rfl, rfl⟩

lemma CutInPages.readSlice (h : CutInPages F max_slice_size page_size c) {ret : Bool}
    {c' : UpdateSliceContext} (hread : F.readSlice c = some (ret, c')) :
    CutInPages F max_slice_size page_size c' := by
  obtain ⟨hsize, hdata, hvector, hcode⟩ := readSlice_frame hread
  have hmap : ∀ type, c'.offsetMap type = c.offsetMap type
    | .vector => hvector
    | .code => hcode
  exact ⟨hsize.trans h.maxSliceSize, hdata.trans h.data_length,
    fun type => (hmap type).symm ▸ h.tiles type, hvector.symm ▸ h.vector_pages,
    hcode.symm ▸ h.code_pages⟩

/-- The slice at a place of the map lies in the segment and fits into the block. -/
lemma CutInPages.store (h : CutInPages F max_slice_size page_size c) {type : SliceType}
    {r : ℕ × ℕ} (hr : r ∈ c.offsetMap type) :
    ∃ data, Lib.load (F.segment type) r.1 r.2 = some (Lib.slice (F.segment type) r.1 r.2) ∧
      Lib.store c.data 0 (Lib.slice (F.segment type) r.1 r.2) = some data := by
  obtain ⟨-, hle, hend⟩ := (h.tiles type).of_mem hr
  have hdata := h.data_length
  refine ⟨_, Lib.load_eq_some.mpr ⟨hend, rfl⟩, Lib.store_eq_some.mpr ⟨?_, rfl⟩⟩
  rw [Lib.length_slice hend]
  omega

/-- The first call: `seq` is the number of slices less one, as an `int`. -/
lemma CutInPages.exists_readSlice (h : CutInPages F max_slice_size page_size c)
    (hne : c.offsetMap c.type ≠ []) (hseq : c.seq = toInt ((c.offsetMap c.type).length - 1)) :
    ∃ ret c', F.readSlice c = some (ret, c') := by
  obtain ⟨r, map, hmap⟩ := List.exists_cons_of_ne_nil hne
  have hr : r ∈ c.offsetMap c.type := by
    rw [hmap]
    exact List.mem_cons_self
  obtain ⟨data, hload, hstore⟩ := h.store hr
  have hindex : ((((c.offsetMap c.type).length : ℤ) - 1 - c.seq) % 2 ^ 32).toNat = 0 := by
    have hdvd : (((c.offsetMap c.type).length : ℤ) - 1 - c.seq) % 2 ^ 32 = 0 := by
      rw [hseq, toInt, Int.bmod_eq_self_sub_mul_bdiv, sub_sub_cancel]
      exact Int.mul_emod_right _ _
    rw [hdvd]
    rfl
  rw [UpdateFileContext.readSlice]
  dsimp only
  split_ifs
  · exact ⟨_, _, rfl⟩
  · rw [hindex, hmap, List.getElem?_cons_zero]
    simp only [Option.bind_eq_bind, Option.bind_some, hload, hstore]
    exact ⟨_, _, rfl⟩

/-- A context before the first call. -/
structure Unfilled (c : UpdateSliceContext) : Prop where
  size_pos : 0 < c.maxSliceSize
  page_pos : 0 < c.pageSize
  data_length : c.data.length = c.maxSliceSize + 1
  vectorMap : c.vectorMap = []
  codeMap : c.codeMap = []
  seq : c.seq < -1

lemma Unfilled.reset (h : Unfilled c) : Unfilled c.reset := by
  refine ⟨h.size_pos, h.page_pos, ?_, h.vectorMap, h.codeMap, h.seq⟩
  have := h.data_length
  simp only [UpdateSliceContext.reset, List.length_append, List.length_replicate, List.length_drop]
  omega

/-- Both loops, the second one with what the first one left of the page. -/
lemma initMaps_pages (F : UpdateFileContext) (h : Unfilled c) :
    ∃ c', F.initMaps c = some c' ∧ CutInPages F c.maxSliceSize c.pageSize c' ∧
      c'.seq = toInt ((c'.offsetMap c'.type).length - 1) ∧
      (c'.offsetMap c'.type = [] → c'.type = .code) := by
  obtain ⟨V, hV, htilesV, hpagesV⟩ := sliceLoop_pages h.size_pos h.page_pos 0 F.vecData.length
    F.vecData.length 0 [] (Nat.zero_le _) (Nat.sub_le _ _)
  obtain ⟨C, hC, htilesC, hpagesC⟩ := sliceLoop_pages h.size_pos h.page_pos F.vecData.length
    F.codeData.length F.codeData.length 0 [] (Nat.zero_le _) (Nat.sub_le _ _)
  rw [Nat.zero_add, Nat.zero_mod, Nat.sub_zero, List.nil_append, Nat.zero_add] at hV
  rw [Nat.add_zero, List.nil_append] at hC
  have hcut : ∀ seq type, CutInPages F c.maxSliceSize c.pageSize
      { c with vectorMap := V, codeMap := C, seq := seq, type := type } := fun _ _ =>
    ⟨rfl, h.data_length, fun | .vector => htilesV | .code => htilesC, hpagesV, hpagesC⟩
  by_cases hnil : V = []
  · subst hnil
    refine ⟨{ c with vectorMap := [], codeMap := C, seq := toInt (C.length - 1), type := .code },
      ?_, hcut _ _, rfl, fun _ => rfl⟩
    rw [initMaps, h.vectorMap, h.codeMap, hV, Option.bind_some]
    simp [hC]
  · refine ⟨{ c with vectorMap := V, codeMap := C, seq := toInt (V.length - 1), type := .vector },
      ?_, hcut _ _, rfl, fun hV' => absurd hV' hnil⟩
    rw [initMaps, h.vectorMap, h.codeMap, hV, Option.bind_some]
    simp [hC, hnil]

/-- The first call leaves maps that cut the image in pages. -/
lemma fillUpdateSliceContext_maps (F : UpdateFileContext) (h : Unfilled c) :
    ∃ ret c', F.fillUpdateSliceContext c = some (ret, c') ∧
      CutInPages F c.maxSliceSize c.pageSize c' := by
  obtain ⟨c₁, hinit, hcut, hseq, hnil⟩ := initMaps_pages F h.reset
  have hsize := h.size_pos
  have hlt := hcut.length_lt c₁.type
  have henter : c₁.enterCode = c₁ := by
    refine if_neg ?_
    rintro ⟨hminus, htype⟩
    have hpos : 0 < (c₁.offsetMap c₁.type).length := by
      refine List.length_pos_of_ne_nil fun hempty => ?_
      have := hnil hempty
      rw [htype] at this
      cases this
    rw [hseq] at hminus
    -- there are less than `2 ^ 32` slices
    by_cases hsmall : (c₁.offsetMap c₁.type).length ≤ 2 ^ 31
    · rw [toInt_eq (by omega) (by omega)] at hminus
      omega
    · rw [toInt_wrap (by omega) (by omega)] at hminus
      omega
  rw [fillUpdateSliceContext, if_neg (by omega), if_pos h.seq, hinit, Option.bind_some, henter]
  dsimp only
  by_cases hdone : c₁.type = .code ∧ c₁.seq < 0
  · rw [if_pos hdone]
    exact ⟨true, c₁, rfl, hcut⟩
  · rw [if_neg hdone]
    have hne : c₁.offsetMap c₁.type ≠ [] := by
      intro hempty
      refine hdone ⟨hnil hempty, ?_⟩
      rw [hseq, hempty]
      decide
    obtain ⟨ret, c', hread⟩ := hcut.exists_readSlice hne hseq
    exact ⟨ret, c', hread, hcut.readSlice hread⟩

@[simp] lemma offsetMap_enterCode (c : UpdateSliceContext) (type : SliceType) :
    c.enterCode.offsetMap type = c.offsetMap type := by
  rw [UpdateSliceContext.enterCode]
  split_ifs <;> cases type <;> rfl

/-- With pages of a multiple of four bytes, the first call makes less than `2 ^ 31` slices. -/
lemma fillUpdateSliceContext_length_lt (h : Fresh c) {ret : Bool} {c' : UpdateSliceContext}
    (hfill : F.fillUpdateSliceContext c = some (ret, c')) (type : SliceType) :
    (c'.offsetMap type).length < 2 ^ 31 := by
  obtain ⟨c₁, hinit, hcut, -⟩ := initMaps_spec (F := F) h.reset
  have hsize := h.size_pos
  have hmap : c'.offsetMap type = c₁.enterCode.offsetMap type := by
    rw [fillUpdateSliceContext, if_neg (by omega), if_pos h.seq, hinit, Option.bind_some] at hfill
    dsimp only at hfill
    split_ifs at hfill
    · rw [(Prod.mk.inj (Option.some.inj hfill)).2]
    · obtain ⟨-, -, hvector, hcode⟩ := readSlice_frame hfill
      cases type with
      | vector => exact hvector
      | code => exact hcode
  rw [hmap, offsetMap_enterCode]
  exact hcut.length_lt type

/-! ## The later calls -/

/-- A later call: the context has the maps and the block of the first call, and points to a
slice. -/
structure PointsTo (c₁ : UpdateSliceContext) (type : SliceType) (seq : ℕ)
    (c : UpdateSliceContext) : Prop where
  maxSliceSize : c.maxSliceSize = c₁.maxSliceSize
  data_length : c.data.length = c₁.data.length
  vectorMap : c.vectorMap = c₁.vectorMap
  codeMap : c.codeMap = c₁.codeMap
  type : c.type = type
  seq : c.seq = seq

/-- The block holds the bytes of a slice, and zeros up to the next multiple of four. -/
structure HoldsSlice (F : UpdateFileContext) (type : SliceType) (r : ℕ × ℕ)
    (c : UpdateSliceContext) : Prop where
  dvd : 4 ∣ c.dataLen
  range : r.2 ≤ c.dataLen ∧ c.dataLen < r.2 + 4
  le_max : c.dataLen ≤ c.maxSliceSize
  bytes : c.data.take c.dataLen =
    Lib.slice (F.segment type) r.1 r.2 ++ List.replicate (c.dataLen - r.2) 0

/-- Every later call with this `seq` reads the slice with so many slices behind it. -/
def ReadsSlice (F : UpdateFileContext) (c₁ : UpdateSliceContext) (type : SliceType) (seq : ℕ) :
    Prop :=
  ∀ c, PointsTo c₁ type seq c → ∃ r c',
    (c₁.offsetMap type)[(c₁.offsetMap type).length - 1 - seq]? = some r ∧
      F.fillUpdateSliceContext c = some (true, c') ∧ HoldsSlice F type r c'

lemma PointsTo.offsetMap {type : SliceType} {seq : ℕ} (h : PointsTo c₁ type seq c) :
    c.offsetMap c.type = c₁.offsetMap type := by
  rw [h.type]
  cases type with
  | vector => exact h.vectorMap
  | code => exact h.codeMap

/-- A later call only clears the block before it reads. -/
lemma PointsTo.fillUpdateSliceContext {type : SliceType} {seq : ℕ} (h : PointsTo c₁ type seq c)
    (hsize : 0 < c₁.maxSliceSize) : F.fillUpdateSliceContext c = F.readSlice c.reset := by
  have hseq := h.seq
  have hsize' := h.maxSliceSize
  have henter : c.reset.enterCode = c.reset := by
    refine if_neg ?_
    rintro ⟨hminus, -⟩
    have : c.seq = -1 := hminus
    omega
  rw [UpdateFileContext.fillUpdateSliceContext, if_neg (by omega), if_neg (by omega),
    Option.bind_some, henter]
  dsimp only
  refine if_neg ?_
  rintro ⟨-, hneg⟩
  have : c.seq < 0 := hneg
  omega

/-- The length of a slice, rounded up. -/
lemma alignedLen_spec (len : ℕ) : 4 ∣ UpdateSliceContext.alignedLen len ∧
    len ≤ UpdateSliceContext.alignedLen len ∧ UpdateSliceContext.alignedLen len < len + 4 := by
  rw [UpdateSliceContext.alignedLen]
  split_ifs <;> omega

/-- With less than `2 ^ 31` slices the slice is read. -/
lemma CutInPages.readsSlice (h : CutInPages F max_slice_size page_size c₁)
    (hdvd : 4 ∣ max_slice_size) {type : SliceType} {seq : ℕ}
    (hseq : seq < (c₁.offsetMap type).length) (hlen : (c₁.offsetMap type).length < 2 ^ 31) :
    ReadsSlice F c₁ type seq := by
  intro c hc
  obtain ⟨r, hr⟩ : ∃ r, (c₁.offsetMap type)[(c₁.offsetMap type).length - 1 - seq]? = some r :=
    ⟨_, List.getElem?_eq_getElem (by omega)⟩
  obtain ⟨hpos, hle, hend⟩ := (h.tiles type).of_mem (List.mem_of_getElem? hr)
  obtain ⟨hdvd', hge, hlt⟩ := alignedLen_spec r.2
  have hsize := h.maxSliceSize
  have hcsize := hc.maxSliceSize
  have hdata := hc.data_length.trans h.data_length
  have hmap : c.reset.offsetMap c.reset.type = c₁.offsetMap type := hc.offsetMap
  have hload := Lib.load_eq_some.mpr (⟨hend, rfl⟩ :
    r.1 + r.2 ≤ (F.segment type).length ∧ Lib.slice (F.segment type) r.1 r.2 = _)
  have hbytes := Lib.length_slice hend
  -- the block behind the slice is clear
  have hblock : Lib.store c.reset.data 0 (Lib.slice (F.segment type) r.1 r.2) =
      some (Lib.slice (F.segment type) r.1 r.2 ++
        (List.replicate (max_slice_size - r.2) 0 ++ c.data.drop max_slice_size)) := by
    have hreset : c.reset.data =
        List.replicate max_slice_size 0 ++ c.data.drop max_slice_size := by
      rw [← hsize, ← hcsize]
      rfl
    rw [hreset, Lib.store_eq_some]
    refine ⟨by simp only [List.length_append, List.length_replicate]; omega, ?_⟩
    rw [hbytes, Nat.zero_add, List.drop_append_of_le_length (by simpa using hle),
      List.drop_replicate, List.take_zero, List.nil_append]
  refine ⟨r, { c.reset with
    data := Lib.slice (F.segment type) r.1 r.2 ++
      (List.replicate (max_slice_size - r.2) 0 ++ c.data.drop max_slice_size)
    dataLen := UpdateSliceContext.alignedLen r.2 }, hr, ?_, hdvd', ⟨hge, hlt⟩, ?_, ?_⟩
  · rw [hc.fillUpdateSliceContext (by omega), UpdateFileContext.readSlice]
    dsimp only
    have hseq' : c.reset.seq = seq := hc.seq
    have htype : c.reset.type = type := hc.type
    rw [hmap, hseq', htype, toInt_eq (by omega) (by omega), if_neg (by omega),
      sliceIndex_eq hseq hlen, hr]
    simp only [Option.bind_eq_bind, Option.bind_some, hload, hblock]
  · show UpdateSliceContext.alignedLen r.2 ≤ c.maxSliceSize
    omega
  · show List.take (UpdateSliceContext.alignedLen r.2) _ = _
    rw [List.take_append, hbytes, List.take_of_length_le (by omega),
      List.take_append_of_le_length (by rw [List.length_replicate]; omega), List.take_replicate,
      min_eq_left (by omega)]

/-- From `2 ^ 31` slices on, every number is taken for an error. -/
lemma CutInPages.not_readsSlice (h : CutInPages F max_slice_size page_size c₁)
    (hpos : 0 < max_slice_size) {type : SliceType} {seq : ℕ}
    (hlen : 2 ^ 31 ≤ (c₁.offsetMap type).length) : ¬ ReadsSlice F c₁ type seq := by
  intro hreads
  have hpoints : PointsTo c₁ type seq { c₁ with type := type, seq := (seq : ℤ) } :=
    ⟨rfl, rfl, rfl, rfl, rfl, rfl⟩
  obtain ⟨r, c', -, hfill, -⟩ := hreads _ hpoints
  have hlt := h.length_lt type
  have hsize := h.maxSliceSize
  rw [hpoints.fillUpdateSliceContext (by omega), UpdateFileContext.readSlice] at hfill
  dsimp only at hfill
  have hoffset : (UpdateSliceContext.reset { c₁ with type := type, seq := (seq : ℤ) }).offsetMap
      (UpdateSliceContext.reset { c₁ with type := type, seq := (seq : ℤ) }).type =
        c₁.offsetMap type := hpoints.offsetMap
  have hseq : (UpdateSliceContext.reset { c₁ with type := type, seq := (seq : ℤ) }).seq = seq := rfl
  rw [hoffset, hseq, toInt_wrap (by omega) (by omega), if_pos (by omega)] at hfill
  cases hfill

/-- The context of the first call. -/
def firstContext (max_slice_size page_size : ℕ) : UpdateSliceContext :=
  { updateSliceContext max_slice_size with pageSize := page_size }

lemma unfilled_firstContext (hslice : 0 < max_slice_size) (hpage : 0 < page_size) :
    Unfilled (firstContext max_slice_size page_size) :=
  ⟨hslice, hpage, by simp [firstContext, updateSliceContext], rfl, rfl,
    (by decide : (-2 : ℤ) < -1)⟩

lemma fresh_firstContext (hdvd : 4 ∣ max_slice_size) (hslice : 0 < max_slice_size)
    (hpage_dvd : 4 ∣ page_size) (hpage : 0 < page_size) :
    Fresh (firstContext max_slice_size page_size) :=
  ⟨hdvd, hslice, hpage_dvd, hpage, by simp [firstContext, updateSliceContext], rfl, rfl,
    (by decide : (-2 : ℤ) < -1)⟩

/-- **The slices.** The first call cuts both segments, in order, into slices of up to
`max_slice_size` bytes that do not cross a page of the image; a later call reads the slice
that it points to, filled up with zeros, exactly when its segment has less than `2 ^ 31`
slices; and with pages of a multiple of four bytes there are never that many. -/
theorem slices_partition (F : UpdateFileContext) (max_slice_size page_size : ℕ)
    (hmin : 4 ≤ max_slice_size) (hdvd : 4 ∣ max_slice_size) (hpage : 1 ≤ page_size) :
    ∃ ret c₁, F.fillUpdateSliceContext (firstContext max_slice_size page_size) = some (ret, c₁) ∧
      CutInPages F max_slice_size page_size c₁ ∧
      (∀ type seq, seq < (c₁.offsetMap type).length →
        (ReadsSlice F c₁ type seq ↔ (c₁.offsetMap type).length < 2 ^ 31)) ∧
      (4 ∣ page_size → ∀ type, (c₁.offsetMap type).length < 2 ^ 31) := by
  have hpos : 0 < max_slice_size := by omega
  obtain ⟨ret, c₁, hfill, hcut⟩ :=
    fillUpdateSliceContext_maps F (unfilled_firstContext hpos hpage)
  refine ⟨ret, c₁, hfill, hcut, fun type seq hseq => ⟨fun hreads => ?_, hcut.readsSlice hdvd hseq⟩,
    fun hpage_dvd => fillUpdateSliceContext_length_lt (fresh_firstContext hdvd hpos hpage_dvd hpage)
      hfill⟩
  by_contra hlen
  exact hcut.not_readsSlice hpos (not_lt.mp hlen) hreads

/-- Three bytes of vectors and seven of code, in slices of four and pages of eight bytes. -/
theorem slices_partition_eight :
    ∃ ret c₁, fillUpdateSliceContext ⟨[1, 2, 3], [4, 5, 6, 7, 8, 9, 10], by decide, by decide⟩
        (firstContext 4 8) = some (ret, c₁) ∧
      CutInPages ⟨[1, 2, 3], [4, 5, 6, 7, 8, 9, 10], by decide, by decide⟩ 4 8 c₁ ∧
      (∀ type seq, seq < (c₁.offsetMap type).length →
        (ReadsSlice ⟨[1, 2, 3], [4, 5, 6, 7, 8, 9, 10], by decide, by decide⟩ c₁ type seq ↔
          (c₁.offsetMap type).length < 2 ^ 31)) ∧
      ∀ type, (c₁.offsetMap type).length < 2 ^ 31 := by
  obtain ⟨ret, c₁, hfill, hcut, hreads, hpages⟩ := slices_partition
    ⟨[1, 2, 3], [4, 5, 6, 7, 8, 9, 10], by decide, by decide⟩ 4 8 (by decide) (by decide)
    (by decide)
  exact ⟨ret, c₁, hfill, hcut, hreads, hpages (by decide)⟩

/-- With pages of one byte there are as many slices as bytes. -/
lemma not_readsSlice_of_bytes (n : ℕ) (hlo : 2 ^ 31 ≤ n) (hhi : n < 2 ^ 32)
    (hF : F.vecData = List.replicate n 0) :
    ∃ ret c₁, F.fillUpdateSliceContext (firstContext 4 1) = some (ret, c₁) ∧
      0 < (c₁.offsetMap .vector).length ∧ ¬ ReadsSlice F c₁ .vector 0 := by
  obtain ⟨ret, c₁, hfill, hcut⟩ :=
    fillUpdateSliceContext_maps F (unfilled_firstContext (by decide : 0 < 4) (by decide : 0 < 1))
  have hone : ∀ r ∈ c₁.offsetMap .vector, r.2 = 1 := by
    intro r hr
    have hpage : (0 + r.1) / 1 = (0 + r.1 + r.2 - 1) / 1 := hcut.vector_pages r hr
    obtain ⟨hpos, -⟩ := (hcut.tiles .vector).of_mem hr
    rw [Nat.div_one, Nat.div_one] at hpage
    omega
  have hcount : (c₁.offsetMap .vector).length = n := by
    have h := (hcut.tiles .vector).length_of_single hone
    have hlength : (F.segment .vector).length = n := by
      rw [segment, hF, List.length_replicate]
    rw [hlength] at h
    omega
  exact ⟨ret, c₁, hfill, by omega, hcut.not_readsSlice (by decide : 0 < 4) (by omega)⟩

/-- `2 ^ 31` bytes of vectors in pages of one byte: the call for the last slice reads nothing. -/
theorem slices_not_read :
    ∃ (F : UpdateFileContext) (ret : Bool) (c₁ : UpdateSliceContext),
      F.vecData = List.replicate (2 ^ 31) 0 ∧ F.codeData = [] ∧
      F.fillUpdateSliceContext (firstContext 4 1) = some (ret, c₁) ∧
      0 < (c₁.offsetMap .vector).length ∧ ¬ ReadsSlice F c₁ .vector 0 := by
  have hlength : (List.replicate (2 ^ 31) (0 : UInt8)).length < 2 ^ 32 := by
    rw [List.length_replicate]
    norm_num
  obtain ⟨ret, c₁, hfill, hpos, hnot⟩ := not_readsSlice_of_bytes
    (F := ⟨List.replicate (2 ^ 31) 0, [], hlength, by decide⟩) (2 ^ 31) le_rfl (by norm_num) rfl
  exact ⟨_, ret, c₁, rfl, rfl, hfill, hpos, hnot⟩

end UpdateFileContext

end SignalEventLoop.Device
