/-
# Calls of the HTTP decoder that decide

A fresh `ProtocalHttp` gets bytes in any chunks.  A call of `decodeFrame` should return a length,
and once the head is complete it should refuse the head or fix the length of the content
(`Decides`).  There are heads at which it does not: a token that is too long for its buffer, a
`Content-Length` that `std::stoul` refuses or that is too large for an `int64_t`, and a head
without fields, which the decoder reads again and again.

A call at any other head decides (`Readable`), and so do the calls behind it, for which the
decoder only compares lengths.
-/
import SignalEventLoop.Network.HttpLines
import SignalEventLoop.Network.HttpRoundTrip

namespace SignalEventLoop.Network

namespace ProtocalHttp

/-! ## The first line -/

/-- What `%s` reads, and what follows it. -/
def wordRun (s : Text) : Text := (skipSpace s).takeWhile fun c => c ≠ 0 && !isSpace c

def wordRest (s : Text) : Text := (skipSpace s).dropWhile fun c => c ≠ 0 && !isSpace c

/-- What `%[^\r\n]` reads behind blanks. -/
def restRun (s : Text) : Text := (skipSpace s).takeWhile fun c => c ≠ 0 && !isLineEnd c

/-- The three parts of a first line. -/
def firstParts (data : Text) : Text × Text × Text :=
  (wordRun data, wordRun (wordRest data), restRun (wordRest (wordRest data)))

/-- The parts fit into their buffers. -/
def PartsFit (data : Text) : Prop :=
  (firstParts data).1.length < 4096 ∧ (firstParts data).2.1.length < 4096 ∧
    (firstParts data).2.2.length < 4096

instance (data : Text) : Decidable (PartsFit data) := inferInstanceAs (Decidable (_ ∧ _ ∧ _))

/-- There is nothing more to read. -/
def AtEnd (s : Text) : Prop := ∀ c ∈ s.head?, c = 0

/-- Where no word is read, the text is at its end. -/
lemma atEnd_wordRest {s : Text} (h : wordRun s = []) : AtEnd (wordRest s) := by
  intro c hc
  have hstop := Lib.eq_false_of_mem_head?_dropWhile hc
  have hsame : wordRest s = skipSpace s := by
    have hsplit := List.takeWhile_append_dropWhile
      (p := fun c : UInt8 => decide (c ≠ 0) && !isSpace c) (l := skipSpace s)
    rw [show (skipSpace s).takeWhile _ = [] from h, List.nil_append] at hsplit
    exact hsplit
  rw [hsame] at hc
  have hspace : isSpace c = false := Lib.eq_false_of_mem_head?_dropWhile hc
  simpa [hspace] using hstop

lemma AtEnd.takeWhile_eq_nil {s : Text} (h : AtEnd s) (p : UInt8 → Bool) :
    (skipSpace s).takeWhile (fun c => c ≠ 0 && p c) = [] := by
  cases s with
  | nil => rfl
  | cons c s =>
    rw [h c rfl]
    rfl

/-- Behind a word that is not read, no word is read and no rest. -/
lemma wordRun_wordRest {s : Text} (h : wordRun s = []) : wordRun (wordRest s) = [] :=
  (atEnd_wordRest h).takeWhile_eq_nil _

lemma restRun_wordRest {s : Text} (h : wordRun s = []) : restRun (wordRest s) = [] :=
  (atEnd_wordRest h).takeWhile_eq_nil _

lemma scanWord_eq (s : Text) : scanWord s =
    if wordRun s = [] then .ok none
    else if 4096 ≤ (wordRun s).length then .error .bufferOverflow
    else .ok (some (wordRun s, wordRest s)) := rfl

/-- Three parts are read where they fit and the third one is not empty. -/
lemma scanFirstLine_eq (data : Text) : scanFirstLine data =
    if PartsFit data then
      .ok (if (firstParts data).2.2 = [] then none else some (firstParts data))
    else .error .bufferOverflow := by
  have hnil : ∀ {t : Text}, t = [] → t.length < 4096 := by
    rintro t rfl
    decide
  rw [scanFirstLine, scanWord_eq]
  by_cases h₁ : wordRun data = []
  · have h₂ := wordRun_wordRest h₁
    have h₃ : (firstParts data).2.2 = [] := restRun_wordRest h₂
    rw [if_pos h₁, if_pos ⟨hnil h₁, hnil h₂, hnil h₃⟩, if_pos h₃]
    rfl
  rw [if_neg h₁]
  by_cases hlen₁ : 4096 ≤ (wordRun data).length
  · rw [if_pos hlen₁, if_neg fun h => not_lt.mpr hlen₁ h.1]
    rfl
  rw [if_neg hlen₁]
  show (scanWord (wordRest data) >>= _) = _
  rw [scanWord_eq]
  by_cases h₂ : wordRun (wordRest data) = []
  · have h₃ : (firstParts data).2.2 = [] := restRun_wordRest h₂
    rw [if_pos h₂, if_pos ⟨not_le.mp hlen₁, hnil h₂, hnil h₃⟩, if_pos h₃]
    rfl
  rw [if_neg h₂]
  by_cases hlen₂ : 4096 ≤ (wordRun (wordRest data)).length
  · rw [if_pos hlen₂, if_neg fun h => not_lt.mpr hlen₂ h.2.1]
    rfl
  rw [if_neg hlen₂]
  have hrest : scanWhile (fun c => !isLineEnd c) (skipSpace (wordRest (wordRest data))) =
      if (firstParts data).2.2 = [] then .ok none
      else if 4096 ≤ (firstParts data).2.2.length then .error .bufferOverflow
      else .ok (some ((firstParts data).2.2,
        (skipSpace (wordRest (wordRest data))).dropWhile fun c => c ≠ 0 && !isLineEnd c)) := rfl
  show (scanWhile (fun c => !isLineEnd c) (skipSpace (wordRest (wordRest data))) >>= _) = _
  rw [hrest]
  by_cases h₃ : (firstParts data).2.2 = []
  · rw [if_pos h₃, if_pos ⟨not_le.mp hlen₁, not_le.mp hlen₂, hnil h₃⟩, if_pos h₃]
    rfl
  rw [if_neg h₃]
  by_cases hlen₃ : 4096 ≤ (firstParts data).2.2.length
  · rw [if_pos hlen₃, if_neg fun h => not_lt.mpr hlen₃ h.2.2]
    rfl
  · rw [if_neg hlen₃, if_pos ⟨not_le.mp hlen₁, not_le.mp hlen₂, not_le.mp hlen₃⟩, if_neg h₃]
    rfl

/-! ## Runs -/

/-- A decoder, and the bytes that it has not taken for a frame; the memory behind them is zero. -/
structure Decoder where
  header_cache : StreamHttpHeader
  data : Text

/-- A fresh decoder. -/
def Decoder.init : Decoder := ⟨.init, []⟩

/-- The runs of a decoder in which the condition `P` is met at every call of `decodeFrame`.  The
bytes come in any chunks, and the calls at any time; a run ends with a call that does not return
or returns an error. -/
inductive Run (F : ℕ) (P : Decoder → Prop) : Decoder → Prop
  | fresh : Run F P .init
  | receive {d : Decoder} (chunk : Text) : Run F P d → (d.data ++ chunk).length ≤ F →
    Run F P { d with data := d.data ++ chunk }
  | decode {d : Decoder} {n : ℕ} {header_cache : StreamHttpHeader} : Run F P d → P d →
    decodeFrameOf F d.header_cache d.data d.data.length = .ok ((0, n), header_cache) →
    n ≤ d.data.length → Run F P ⟨header_cache, d.data.drop n⟩

/-- What a call on `data` returns is a length of at most `len`, or an error; and with a complete
head it is an error, or the length of the content is fixed, and zero is returned only while bytes
of the content are missing. -/
structure Answer (F : ℕ) (data : Text) (n : ℕ) (header : StreamHttpHeader) : Prop where
  length : n ≤ data.length ∨ F < n
  head : ∀ tmp_pos, Lib.search headEnd data = some tmp_pos → minProtocalSize ≤ tmp_pos + 4 →
    F < n ∨ 0 ≤ header.content_length ∧
      (n = 0 → (data.length : ℤ) < header.header_offset + header.content_length)

/-- The call of `decodeFrame` returns, and with such an answer. -/
def Decides (F : ℕ) (d : Decoder) : Prop :=
  ∃ n header, decodeFrameOf F d.header_cache d.data d.data.length = .ok ((0, n), header) ∧
    Answer F d.data n header

/-- The value of `Content-Length`, if there is one, is a number, and the frame is not longer than
an `int64_t` can say. -/
def LengthFits (header_offset : ℕ) (keys : KeysMap) : Prop :=
  ∀ value ∈ keys.find contentLengthKey,
    ∃ n, stoul value = .ok n ∧ header_offset + n < 2 ^ 63

/-- A complete head, which ends at `header_offset`, that is refused or read. -/
def HeadReadable (F : ℕ) (data : Text) (header_offset : ℕ) : Prop :=
  let starts := lineStarts (data.length - (header_offset - 4)) data.length data
  PartsFit data ∧
    if (firstParts data).2.2 = [] then F + data.length < 2 ^ 32
    else TokensFit starts ∧
      if ∃ t ∈ starts, Broken t then F + data.length < 2 ^ 32
      else (starts = [] → header_offset < minProtocalSize) ∧
        LengthFits header_offset (keysOf [] starts)

/-- The head is readable at the first call of `decodeFrame` that looks at it. -/
def Readable (F : ℕ) (d : Decoder) : Prop :=
  d.header_cache.content_length < 0 → minProtocalSize ≤ d.data.length →
    ∀ tmp_pos, Lib.search headEnd d.data = some tmp_pos → HeadReadable F d.data (tmp_pos + 4)

/-- What is known of a frame whose head has been read. -/
structure Decided (header : StreamHttpHeader) : Prop where
  content_length : 0 ≤ header.content_length
  header_offset : 0 < header.header_offset
  sum_lt : header.header_offset + header.content_length < 2 ^ 63
  parse_error : header.parse_error = false

/-- The states of a run. -/
structure Inv (F : ℕ) (d : Decoder) : Prop where
  length_le : d.data.length ≤ F
  header_cache : d.header_cache = .init ∨ Decided d.header_cache

/-! ## One call -/

/-- `decodeFrame` behind `decodeFrameHeader`. -/
def compareLength (F : ℕ) (header : StreamHttpHeader) (len : ℕ) :
    Except Fault ((ℕ × ℕ) × StreamHttpHeader) :=
  if header.parse_error then .ok ((0, add32 F len), header)
  else if header.content_length < 0 then .ok ((0, 0), header)
  else do
    let need_size ← add64 header.header_offset header.content_length
    if need_size > len then .ok ((0, 0), header)
    else .ok ((0, need_size.toNat), { header with process_finished := true })

/-- The header of a head that is refused. -/
def refused : StreamHttpHeader := { StreamHttpHeader.init with parse_error := true }

variable {F : ℕ} {d : Decoder} {header : StreamHttpHeader} {data : Text} {len tmp_pos n : ℕ}

lemma decodeFrameOf_eq {header_cache : StreamHttpHeader}
    (hfin : header_cache.process_finished = false) (hlen : minProtocalSize ≤ len) :
    decodeFrameOf F header_cache data len =
      decodeFrameHeader header_cache data len >>= fun header => compareLength F header len := by
  rw [decodeFrameOf, if_neg (by simp [hfin]), if_neg (not_lt.mpr hlen)]
  rfl

lemma keysOf_ne_nil {keys : KeysMap} {ts : List Text} (h : keys ≠ [] ∨ ts ≠ []) :
    keysOf keys ts ≠ [] := by
  have hemplace : ∀ (key value : Text) (keys : KeysMap), keys.emplace key value ≠ [] := by
    intro key value keys
    cases keys with
    | nil => simp [KeysMap.emplace]
    | cons e keys =>
      rw [KeysMap.emplace]
      split_ifs <;> simp
  induction ts generalizing keys with
  | nil => exact h.resolve_right (by simp)
  | cons t ts ih => exact ih (Or.inl (hemplace _ _ _))

/-- What is read of a complete head. -/
lemma decodeFrameHeader_complete (hpos : Lib.search headEnd data = some tmp_pos) :
    decodeFrameHeader .init data data.length =
      let starts := lineStarts (data.length - tmp_pos) data.length data
      if PartsFit data then
        if (firstParts data).2.2 = [] then .ok refused
        else if TokensFit starts then
          if ∃ t ∈ starts, Broken t then .ok refused
          else if starts = [] then .ok .init
          else do
            let content_length ← contentLength (keysOf [] starts)
            let (a, b, c) := firstParts data
            .ok ⟨[a, b, c], keysOf [] starts, content_length, (tmp_pos + 4 : ℕ), false, false⟩
        else .error .bufferOverflow
      else .error .bufferOverflow := by
  rw [decodeFrameHeader_eq (by rw [List.take_length, hpos]), scanFirstLine_eq]
  dsimp only
  by_cases hparts : PartsFit data
  · rw [if_pos hparts, if_pos hparts]
    by_cases hthird : (firstParts data).2.2 = []
    · rw [if_pos hthird, if_pos hthird]
      rfl
    rw [if_neg hthird, if_neg hthird]
    show (scanLines [] (lineStarts (data.length - tmp_pos) data.length data) >>= fun read =>
      storeKeys _ (tmp_pos + 4) read.1 read.2) = _
    generalize lineStarts (data.length - tmp_pos) data.length data = starts
    by_cases hfits : TokensFit starts
    · rw [if_pos hfits, scanLines_of_tokensFit hfits]
      by_cases hbroken : ∃ t ∈ starts, Broken t
      · rw [if_pos hbroken, if_pos hbroken]
        rfl
      rw [if_neg hbroken, if_neg hbroken]
      by_cases hnil : starts = []
      · rw [if_pos hnil, hnil]
        rfl
      · show storeKeys _ _ false (keysOf [] starts) = _
        rw [if_neg hnil, storeKeys, if_pos ⟨keysOf_ne_nil (Or.inr hnil), rfl⟩]
        rfl
    · rw [if_neg hfits, scanLines_of_not_tokensFit hfits]
      rfl
  · rw [if_neg hparts, if_neg hparts]
    rfl

lemma LengthFits.contentLength_eq {header_offset : ℕ} {keys : KeysMap}
    (h : LengthFits header_offset keys) (hoffset : header_offset < 2 ^ 63) :
    ∃ n : ℕ, contentLength keys = .ok (n : ℤ) ∧ header_offset + n < 2 ^ 63 := by
  rw [LengthFits] at h
  rw [contentLength]
  cases hfind : KeysMap.find contentLengthKey keys with
  | none => exact ⟨0, rfl, by omega⟩
  | some value =>
    obtain ⟨n, hn, hsum⟩ := h value hfind
    refine ⟨n, ?_, hsum⟩
    dsimp only
    rw [hn, Except.map, toInt64, if_pos (by omega)]

/-- A head that is readable is refused, or has no fields, or is read. -/
lemma HeadReadable.decodeFrameHeader_spec (h : HeadReadable F data (tmp_pos + 4))
    (hpos : Lib.search headEnd data = some tmp_pos) (hlen : tmp_pos + 4 < 2 ^ 63) :
    ∃ header, decodeFrameHeader .init data data.length = .ok header ∧
      (header = refused ∧ F + data.length < 2 ^ 32 ∨
        header = .init ∧ tmp_pos + 4 < minProtocalSize ∨ Decided header) := by
  obtain ⟨hparts, h⟩ := h
  rw [Nat.add_sub_cancel] at h
  rw [decodeFrameHeader_complete hpos]
  dsimp only
  rw [if_pos hparts]
  by_cases hthird : (firstParts data).2.2 = []
  · rw [if_pos hthird] at h ⊢
    exact ⟨_, rfl, Or.inl ⟨rfl, h⟩⟩
  rw [if_neg hthird] at h ⊢
  obtain ⟨hfits, h⟩ := h
  rw [if_pos hfits]
  by_cases hbroken : ∃ t ∈ lineStarts (data.length - tmp_pos) data.length data, Broken t
  · rw [if_pos hbroken] at h ⊢
    exact ⟨_, rfl, Or.inl ⟨rfl, h⟩⟩
  rw [if_neg hbroken] at h ⊢
  obtain ⟨hnone, hlength⟩ := h
  by_cases hnil : lineStarts (data.length - tmp_pos) data.length data = []
  · rw [if_pos hnil]
    exact ⟨_, rfl, Or.inr (Or.inl ⟨rfl, hnone hnil⟩)⟩
  · obtain ⟨n, hn, hsum⟩ := hlength.contentLength_eq hlen
    rw [if_neg hnil, hn]
    exact ⟨_, rfl, Or.inr (Or.inr ⟨Int.natCast_nonneg n, by dsimp only; omega,
      by dsimp only; omega, rfl⟩)⟩

/-- A frame whose head has been read is as long as its header says, or bytes are missing. -/
lemma answer_of_decided (h : Decided header) (F : ℕ) (data : Text) :
    ∃ n header', compareLength F header data.length = .ok ((0, n), header') ∧
      Answer F data n header' ∧ Decided header' := by
  have hpos := h.header_offset
  have hnonneg := h.content_length
  have hsum : add64 header.header_offset header.content_length =
      .ok (header.header_offset + header.content_length) := by
    rw [add64, if_pos ⟨by omega, h.sum_lt⟩]
  rw [compareLength, if_neg (by simp [h.parse_error]), if_neg (not_lt.mpr hnonneg), hsum]
  by_cases hmissing : header.header_offset + header.content_length > data.length
  · exact ⟨0, header, if_pos hmissing, ⟨Or.inl (Nat.zero_le _),
      fun _ _ _ => Or.inr ⟨hnonneg, fun _ => hmissing⟩⟩, h⟩
  · refine ⟨_, _, if_neg hmissing, ⟨Or.inl (by omega),
      fun _ _ _ => Or.inr ⟨hnonneg, fun hzero => ?_⟩⟩, ⟨hnonneg, hpos, h.sum_lt, h.parse_error⟩⟩
    omega

/-- Where there is no complete head yet, the decoder waits. -/
lemma answer_zero (hsmall : ∀ tmp_pos, Lib.search headEnd data = some tmp_pos →
    tmp_pos + 4 < minProtocalSize) (F : ℕ) (header : StreamHttpHeader) :
    Answer F data 0 header := by
  refine ⟨Or.inl (Nat.zero_le _), fun tmp_pos hpos hmin => ?_⟩
  have := hsmall tmp_pos hpos
  omega

/-- An error code that does not wrap. -/
lemma answer_refused (hlen : 0 < data.length) (hlt : F + data.length < 2 ^ 32) :
    compareLength F refused data.length = .ok ((0, F + data.length), refused) ∧
      Answer F data (F + data.length) refused := by
  have hlarge : F < F + data.length := by omega
  refine ⟨?_, Or.inr hlarge, fun _ _ _ => Or.inl hlarge⟩
  rw [compareLength, if_pos (by decide), add32_eq hlt]

/-- **A call decides.** -/
lemma call_spec (F : UInt32) (hinv : Inv F.toNat d) (hread : Readable F.toNat d) :
    ∃ n header, decodeFrameOf F.toNat d.header_cache d.data d.data.length =
        .ok ((0, n), header) ∧ Answer F.toNat d.data n header ∧
      (n ≤ F.toNat → header = .init ∨ Decided header) := by
  have hF := F.toNat_lt
  have hle := hinv.length_le
  -- a complete head lies in the data
  have hhead : ∀ tmp_pos, Lib.search headEnd d.data = some tmp_pos →
      tmp_pos + 4 ≤ d.data.length := fun _ hpos => Lib.length_le_of_search hpos
  by_cases hfin : d.header_cache.process_finished = true
  · obtain hinit | hdecided := hinv.header_cache
    · rw [hinit] at hfin
      cases hfin
    · refine ⟨d.data.length, d.header_cache, by rw [decodeFrameOf, if_pos hfin],
        ⟨Or.inl le_rfl, fun tmp_pos hpos hmin => ?_⟩, fun _ => Or.inr hdecided⟩
      have hlen := hhead tmp_pos hpos
      exact Or.inr ⟨hdecided.content_length, fun hzero => by omega⟩
  rw [Bool.not_eq_true] at hfin
  by_cases hmin : d.data.length < minProtocalSize
  · refine ⟨0, d.header_cache, ?_, answer_zero (fun tmp_pos hpos => ?_) _ _,
      fun _ => hinv.header_cache⟩
    · rw [decodeFrameOf, if_neg (by simp [hfin]), if_pos hmin]
    · exact (hhead tmp_pos hpos).trans_lt hmin
  have hpositive : 0 < d.data.length := by
    rw [minProtocalSize] at hmin
    omega
  rw [decodeFrameOf_eq hfin (not_lt.mp hmin)]
  obtain hinit | hdecided := hinv.header_cache
  · rw [hinit]
    cases hpos : Lib.search headEnd d.data with
    | none =>
      refine ⟨0, .init, bind_eq_ok.mpr ⟨.init, ?_, rfl⟩,
        answer_zero (fun tmp_pos hsome => ?_) _ _, fun _ => Or.inl rfl⟩
      · rw [decodeFrameHeader, if_neg (by decide), List.take_length, hpos]
      · rw [hpos] at hsome
        cases hsome
    | some tmp_pos =>
      have hreadable := hread (by rw [hinit]; decide) (not_lt.mp hmin) tmp_pos hpos
      have hend := hhead tmp_pos hpos
      obtain ⟨header, hheader, ⟨rfl, hlt⟩ | ⟨rfl, hsmall⟩ | hdecided⟩ :=
        hreadable.decodeFrameHeader_spec hpos (by omega)
      · obtain ⟨hcompare, hanswer⟩ := answer_refused hpositive hlt
        exact ⟨_, _, bind_eq_ok.mpr ⟨_, hheader, hcompare⟩, hanswer, fun hn => by omega⟩
      · refine ⟨0, .init, bind_eq_ok.mpr ⟨_, hheader, rfl⟩,
          answer_zero (fun tmp_pos' hpos' => ?_) _ _, fun _ => Or.inl rfl⟩
        obtain rfl := Option.some.inj (hpos.symm.trans hpos')
        exact hsmall
      · obtain ⟨n, header', hcompare, hanswer, hdecided'⟩ :=
          answer_of_decided hdecided F.toNat d.data
        exact ⟨n, header', bind_eq_ok.mpr ⟨_, hheader, hcompare⟩, hanswer,
          fun _ => Or.inr hdecided'⟩
  · obtain ⟨n, header', hcompare, hanswer, hdecided'⟩ := answer_of_decided hdecided F.toNat d.data
    refine ⟨n, header', bind_eq_ok.mpr ⟨d.header_cache, ?_, hcompare⟩, hanswer,
      fun _ => Or.inr hdecided'⟩
    rw [decodeFrameHeader, if_pos hdecided.content_length]

/-! ## Heads at which a call does not decide -/

lemma stoul_lt {s : Text} {n : ℕ} (h : stoul s = .ok n) : n < 2 ^ 64 := by
  simp only [stoul] at h
  split_ifs at h with hbad hsign
  · obtain rfl := Except.ok.inj h
    exact Nat.mod_lt _ (by norm_num)
  · obtain rfl := Except.ok.inj h
    rw [not_or, ge_iff_le, not_le] at hbad
    exact hbad.2

/-- A header without a length is an answer only as an error. -/
lemma lt_of_undecided (hF : F < 2 ^ 32) (hle : data.length ≤ F)
    (hpos : Lib.search headEnd data = some tmp_pos) (hmin : minProtocalSize ≤ tmp_pos + 4)
    (hneg : header.content_length < 0) {header' : StreamHttpHeader}
    (hcompare : compareLength F header data.length = .ok ((0, n), header'))
    (hanswer : Answer F data n header') :
    header.parse_error = true ∧ F + data.length < 2 ^ 32 := by
  have hhead := hanswer.head tmp_pos hpos hmin
  rw [compareLength, if_pos hneg] at hcompare
  split_ifs at hcompare with herror
  · obtain ⟨hlen, rfl⟩ := Prod.mk.inj (Except.ok.inj hcompare)
    obtain rfl := (Prod.mk.inj hlen).2
    rw [add32] at hhead
    refine ⟨herror, ?_⟩
    omega
  · obtain ⟨hlen, rfl⟩ := Prod.mk.inj (Except.ok.inj hcompare)
    obtain rfl := (Prod.mk.inj hlen).2
    omega

/-- Where the length of the content is fixed, it fits. -/
lemma lengthFits_of_contentLength {keys : KeysMap} {content_length : ℤ}
    (hcontent : contentLength keys = .ok content_length) (hnonneg : 0 ≤ content_length)
    (hsum : (tmp_pos + 4 : ℕ) + content_length < 2 ^ 63) : LengthFits (tmp_pos + 4) keys := by
  intro value hvalue
  rw [contentLength, Option.mem_def.mp hvalue] at hcontent
  dsimp only at hcontent
  cases hstoul : stoul value with
  | error fault =>
    rw [hstoul] at hcontent
    cases hcontent
  | ok m =>
    rw [hstoul] at hcontent
    obtain rfl := Except.ok.inj hcontent
    have hlt := stoul_lt hstoul
    rw [toInt64] at hnonneg hsum
    refine ⟨m, rfl, ?_⟩
    split_ifs at hnonneg hsum with hm
    · omega
    · -- the conversion of such a number is negative
      omega

/-- Where a call at a complete head decides, the head is readable. -/
lemma headReadable_of_decides (hF : F < 2 ^ 32) (hle : data.length ≤ F)
    (h : Decides F ⟨.init, data⟩) (hpos : Lib.search headEnd data = some tmp_pos)
    (hmin : minProtocalSize ≤ tmp_pos + 4) : HeadReadable F data (tmp_pos + 4) := by
  obtain ⟨n, header, hcall, hanswer⟩ := h
  have hend : tmp_pos + 4 ≤ data.length := Lib.length_le_of_search hpos
  dsimp only at hcall hanswer
  rw [decodeFrameOf_eq rfl (hmin.trans hend)] at hcall
  obtain ⟨read, hread, hcompare⟩ := bind_eq_ok.mp hcall
  have hundecided : read.content_length < 0 →
      read.parse_error = true ∧ F + data.length < 2 ^ 32 :=
    fun hneg => lt_of_undecided hF hle hpos hmin hneg hcompare hanswer
  rw [decodeFrameHeader_complete hpos] at hread
  dsimp only at hread
  rw [HeadReadable, Nat.add_sub_cancel]
  have hparts : PartsFit data := by
    by_contra hparts
    rw [if_neg hparts] at hread
    cases hread
  rw [if_pos hparts] at hread
  refine ⟨hparts, ?_⟩
  by_cases hthird : (firstParts data).2.2 = []
  · rw [if_pos hthird] at hread ⊢
    obtain rfl := Except.ok.inj hread
    exact (hundecided (by decide)).2
  rw [if_neg hthird] at hread ⊢
  have hfits : TokensFit (lineStarts (data.length - tmp_pos) data.length data) := by
    by_contra hfits
    rw [if_neg hfits] at hread
    cases hread
  rw [if_pos hfits] at hread
  refine ⟨hfits, ?_⟩
  by_cases hbroken : ∃ t ∈ lineStarts (data.length - tmp_pos) data.length data, Broken t
  · rw [if_pos hbroken] at hread ⊢
    obtain rfl := Except.ok.inj hread
    exact (hundecided (by decide)).2
  rw [if_neg hbroken] at hread ⊢
  by_cases hnil : lineStarts (data.length - tmp_pos) data.length data = []
  · rw [if_pos hnil] at hread
    obtain rfl := Except.ok.inj hread
    exact absurd (hundecided (by decide)).1 (by decide)
  rw [if_neg hnil] at hread
  obtain ⟨content_length, hcontent, hread⟩ := bind_eq_ok.mp hread
  obtain rfl := Except.ok.inj hread
  have hnonneg : 0 ≤ content_length := by
    by_contra hneg
    exact absurd (hundecided (not_le.mp hneg)).1 (by simp)
  refine ⟨fun h => absurd h hnil, lengthFits_of_contentLength hcontent hnonneg ?_⟩
  rw [compareLength, if_neg (by simp), if_neg (not_lt.mpr hnonneg)] at hcompare
  obtain ⟨need_size, hneed, -⟩ := bind_eq_ok.mp hcompare
  rw [add64] at hneed
  split_ifs at hneed with hsum
  exact hsum.2

/-! ## Runs whose heads are readable -/

lemma run_inv {F : UInt32} (h : Run F.toNat (Readable F.toNat) d) : Inv F.toNat d := by
  induction h with
  | fresh => exact ⟨Nat.zero_le _, Or.inl rfl⟩
  | receive chunk _ hle ih => exact ⟨hle, ih.header_cache⟩
  | @decode d n header_cache _ hread hcall hn ih =>
    obtain ⟨n', header', hcall', -, hcache⟩ := call_spec F ih hread
    rw [hcall] at hcall'
    obtain ⟨hlen, rfl⟩ := Prod.mk.inj (Except.ok.inj hcall')
    obtain rfl := (Prod.mk.inj hlen).2
    have hle := ih.length_le
    refine ⟨?_, hcache (hn.trans hle)⟩
    rw [List.length_drop]
    omega

/-- **Which calls decide.** In every run whose heads are readable, every call does; and a call at
a complete head that is not readable does not. -/
theorem run_decides (F : UInt32) {d : Decoder} (h : Run F.toNat (Readable F.toNat) d) :
    (Readable F.toNat d → Decides F.toNat d) ∧
      ∀ tmp_pos, Lib.search headEnd d.data = some tmp_pos → minProtocalSize ≤ tmp_pos + 4 →
        Decides F.toNat d → Readable F.toNat d := by
  have hinv := run_inv h
  refine ⟨fun hread => ?_, fun tmp_pos hpos hmin hdecides hneg _ tmp_pos' hpos' => ?_⟩
  · obtain ⟨n, header, hcall, hanswer, -⟩ := call_spec F hinv hread
    exact ⟨n, header, hcall, hanswer⟩
  · obtain rfl := Option.some.inj (hpos.symm.trans hpos')
    obtain ⟨header_cache, data⟩ := d
    obtain rfl | hdecided := hinv.header_cache
    · exact headReadable_of_decides F.toNat_lt hinv.length_le hdecides hpos hmin
    · exact absurd hneg (not_lt.mpr hdecided.content_length)

section sample

/-- A head with one field. -/
def oneField : Text := ascii "GET /index.html HTTP/1.1\r\nA: b\r\n\r\n"

theorem run_decides_oneField :
    Decides (10 * 1024 * 1024 : UInt32).toNat ⟨.init, oneField⟩ := by
  have hrun : Run (10 * 1024 * 1024 : UInt32).toNat (Readable (10 * 1024 * 1024 : UInt32).toNat)
      ⟨.init, oneField⟩ := .receive oneField .fresh (by decide +kernel)
  refine (run_decides (10 * 1024 * 1024) hrun).1 fun _ _ tmp_pos hpos => ?_
  have hfound : Lib.search headEnd oneField = some 30 := by decide +kernel
  obtain rfl : 30 = tmp_pos := Option.some.inj (hfound.symm.trans hpos)
  have hstarts : lineStarts (oneField.length - 30) oneField.length oneField =
      [ascii "A: b\r\n\r\n"] := by decide +kernel
  refine ⟨by decide +kernel, ?_⟩
  rw [if_neg (by decide +kernel)]
  simp only [hstarts]
  refine ⟨by decide +kernel, ?_⟩
  rw [if_neg (by decide +kernel)]
  refine ⟨by simp, fun value hvalue => ?_⟩
  have hnone : KeysMap.find contentLengthKey (keysOf [] [ascii "A: b\r\n\r\n"]) = none := by
    decide +kernel
  rw [hnone] at hvalue
  cases hvalue

/-- The length is no number. -/
def wrongLength : Text := ascii "GET / HTTP/1.1\r\nContent-Length: x\r\n\r\n"

/-- There are no fields. -/
def noFields : Text := ascii "GET /index.html HTTP/1.1\r\n\r\n"

/-- `std::stoul` throws; and a head without fields is neither refused nor read. -/
theorem not_decides :
    (¬ ∀ d, Run (10 * 1024 * 1024) (fun _ => True) d → Decides (10 * 1024 * 1024) d) ∧
      decodeFrameOf (10 * 1024 * 1024) .init wrongLength wrongLength.length = .error .uncaught ∧
      decodeFrameOf (10 * 1024 * 1024) .init noFields noFields.length = .ok ((0, 0), .init) ∧
      ¬ Decides (10 * 1024 * 1024) ⟨.init, noFields⟩ := by
  have hthrow : decodeFrameOf (10 * 1024 * 1024) .init wrongLength wrongLength.length =
      .error .uncaught := by decide +kernel
  have hwait : decodeFrameOf (10 * 1024 * 1024) .init noFields noFields.length =
      .ok ((0, 0), .init) := by decide +kernel
  refine ⟨fun h => ?_, hthrow, hwait, ?_⟩
  · obtain ⟨n, header, hcall, -⟩ := h ⟨.init, wrongLength⟩
      (.receive wrongLength .fresh (by decide +kernel))
    rw [hthrow] at hcall
    cases hcall
  · rintro ⟨n, header, hcall, -, hhead⟩
    rw [hwait] at hcall
    obtain ⟨hlen, rfl⟩ := Prod.mk.inj (Except.ok.inj hcall)
    obtain rfl := (Prod.mk.inj hlen).2
    have hfound : Lib.search headEnd noFields = some 24 := by decide +kernel
    rcases hhead 24 hfound (by decide) with h | ⟨h, -⟩
    · omega
    · exact absurd h (by decide)

end sample

end ProtocalHttp

end SignalEventLoop.Network
