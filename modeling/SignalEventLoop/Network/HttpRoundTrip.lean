/-
# Packed HTTP frames are read back

`ProtocalHttp::packetFrame` prints a first line and the fields of a map, and adapts the field
`Content-Length` to the content.  The lines that it prints are those of a head, each field is read
as it stands, and the printed length is the length that is read, so that the frame is found and
has the same parts, fields and content.
-/
import SignalEventLoop.Network.HttpKeys
import SignalEventLoop.Network.HttpLines

namespace SignalEventLoop.Network

namespace ProtocalHttp

/-! ## Protocols of any frame size -/

/-- `ProtocalHttp::encodeFrame` for a protocol with any `max_frame_size`. -/
def encodeFrameOf (max_frame_size : ℕ) (input_list : List Bytes) : Except Fault Bytes :=
  let total_len := input_list.foldl (fun n i => add32 n i.1.length) 0
  match input_list with
  | [] => .ok noBytes
  | header :: contents =>
    if total_len > max_frame_size then .ok noBytes
    else
      let content := (contents.head?.map Subtype.val).getD []
      -- the buffer has one byte more
      if header.1.length + content.length > total_len + 1 then .error .noResult
      else .ok (asBytes ((header.1 ++ content ++ List.replicate total_len 0).take total_len))

/-- `keys_map`, as `packetFrame` leaves it. -/
def adaptKeys (keys_map : KeysMap) (content : Bytes) : KeysMap :=
  if content.1.length = 0 then keys_map.erase contentLengthKey
  else keys_map.set contentLengthKey (numeral content.1.length)

/-- The line of a field. -/
def fieldLine (e : Text × Text) : Text := e.1 ++ ascii ": " ++ e.2

/-- `header_data` -/
def headData (header : List Text) (keys : KeysMap) : Text :=
  joinWords header ++ lineEnd ++ (keys.map fun e => fieldLine e ++ lineEnd).flatten ++ lineEnd

/-- `ProtocalHttp::packetFrame` for a protocol with any `max_frame_size`. -/
def packetFrameOf (max_frame_size : ℕ) (header : List Text) (keys_map : KeysMap)
    (content : Bytes) : Except Fault Bytes :=
  encodeFrameOf max_frame_size (asBytes (headData header (adaptKeys keys_map content)) ::
    if content.1.length > 0 then [content] else [])

lemma packetFrameOf_maxFrameSize : packetFrameOf maxFrameSize = packetFrame := rfl

/-- `ProtocalHttp::decodeFrame` for a protocol with any `max_frame_size`. -/
def decodeFrameOf (max_frame_size : ℕ) (header_cache : StreamHttpHeader) (data : Text)
    (len : ℕ) : Except Fault ((ℕ × ℕ) × StreamHttpHeader) :=
  if header_cache.process_finished then .ok ((0, len), header_cache)
  else if len < minProtocalSize then .ok ((0, 0), header_cache)
  else do
    let header ← decodeFrameHeader header_cache data len
    if header.parse_error then .ok ((0, add32 max_frame_size len), header)
    else if header.content_length < 0 then .ok ((0, 0), header)
    else
      let need_size ← add64 header.header_offset header.content_length
      if need_size > len then .ok ((0, 0), header)
      else .ok ((0, need_size.toNat), { header with process_finished := true })

/-! ## Printed numbers -/

lemma toNat_toUInt8 {c : Char} (h : c.isDigit = true) :
    c.toNat.toUInt8.toNat = c.toNat ∧ isDigit c.toNat.toUInt8 = true := by
  have hrange : 48 ≤ c.toNat ∧ c.toNat ≤ 57 := Char.isDigit_iff_toNat.mp h
  have hval : c.toNat.toUInt8.toNat = c.toNat := by
    rw [Nat.toUInt8, UInt8.toNat_ofNat', Nat.mod_eq_of_lt (by omega)]
  refine ⟨hval, ?_⟩
  simp only [isDigit, Bool.and_eq_true, decide_eq_true_eq, UInt8.le_iff_toNat_le, hval,
    UInt8.reduceToNat]
  exact hrange

lemma numeral_eq (n : ℕ) : numeral n = (Nat.toDigits 10 n).map fun c => c.toNat.toUInt8 := by
  rw [numeral, ascii, Nat.toList_repr]

lemma numeral_ne_nil (n : ℕ) : numeral n ≠ [] := by
  rw [numeral_eq]
  simp

lemma length_numeral_lt {n : ℕ} (hn : n < 2 ^ 64) : (numeral n).length < 4096 := by
  have hlen : (Nat.toDigits 10 n).length ≤ 20 :=
    (Nat.length_toDigits_le_iff (by norm_num) (by norm_num)).mpr (hn.trans (by norm_num))
  rw [numeral_eq, List.length_map]
  omega

lemma isDigit_of_mem_numeral {n : ℕ} {c : UInt8} (hc : c ∈ numeral n) : isDigit c = true := by
  rw [numeral_eq] at hc
  obtain ⟨d, hd, rfl⟩ := List.mem_map.mp hc
  exact (toNat_toUInt8 (Nat.isDigit_of_mem_toDigits (by norm_num) le_rfl hd)).2

lemma isSpace_of_isDigit {c : UInt8} (h : isDigit c = true) : isSpace c = false := by
  simp only [isDigit, Bool.and_eq_true, decide_eq_true_eq, UInt8.le_iff_toNat_le,
    UInt8.reduceToNat] at h
  simp only [isSpace, Bool.or_eq_false_iff, Bool.and_eq_false_iff, decide_eq_false_iff_not,
    UInt8.le_iff_toNat_le, ← UInt8.toNat_inj, UInt8.reduceToNat]
  omega

/-- The number of printed digits. -/
lemma foldl_numeral (n : ℕ) : (numeral n).foldl (fun n c => 10 * n + (c.toNat - 48)) 0 = n := by
  have hdigits : ∀ cs : List Char, (∀ c ∈ cs, c.isDigit = true) → ∀ m : ℕ,
      (cs.map fun c => c.toNat.toUInt8).foldl (fun n c => 10 * n + (c.toNat - 48)) m =
        Nat.ofDigitChars 10 cs m := by
    intro cs hcs
    induction cs with
    | nil => intro m; rfl
    | cons c cs ih =>
      intro m
      rw [List.forall_mem_cons] at hcs
      rw [List.map_cons, List.foldl_cons, ih hcs.2, (toNat_toUInt8 hcs.1).1]
      rfl
  rw [numeral_eq, hdigits _ fun c hc => Nat.isDigit_of_mem_toDigits (by norm_num) le_rfl hc]
  exact Nat.ofDigitChars_ten_toDigits

/-- A printed number is read back. -/
lemma stoul_numeral {n : ℕ} (hn : n < 2 ^ 64) : stoul (numeral n) = .ok n := by
  have hall := fun c hc => isDigit_of_mem_numeral (n := n) (c := c) hc
  obtain ⟨d, ds, hd⟩ := List.exists_cons_of_ne_nil (numeral_ne_nil n)
  have hfirst : isDigit d = true := hall d (by rw [hd]; exact List.mem_cons_self)
  have hsign : d ≠ 43 ∧ d ≠ 45 := by
    constructor
    · rintro rfl
      exact absurd hfirst (by decide)
    · rintro rfl
      exact absurd hfirst (by decide)
  have hskip : skipSpace (numeral n) = d :: ds := by
    rw [hd, skipSpace, List.dropWhile_cons, isSpace_of_isDigit hfirst]
    rfl
  have htake : (d :: ds).takeWhile isDigit = numeral n := by
    rw [← hd]
    exact List.takeWhile_eq_self_iff.mpr hall
  rw [stoul, hskip]
  have hlt : ¬ (numeral n = [] ∨ n ≥ 2 ^ 64) := not_or.mpr ⟨numeral_ne_nil n, not_le.mpr hn⟩
  -- there is no sign
  simp only [List.cons.injEq, hsign.1, hsign.2, false_and, false_implies, implies_true, htake,
    foldl_numeral]
  rw [if_neg hlt, if_neg (by simp [hsign.2])]

/-! ## The printed head -/

/-- A field whose value is not empty. -/
structure IsEntry (e : Text × Text) : Prop where
  isName : IsName e.1
  isValue : IsValue e.2
  ne_nil : e.2 ≠ []

variable {a b c : Text} {e : Text × Text} {keys keys_map : KeysMap} {content : Bytes}

/-- The first line of a head with three parts. -/
def startText (a b c : Text) : Text := a ++ (ascii " " ++ (b ++ (ascii " " ++ c)))

lemma startLine_startText (ha : IsWord a) (hb : IsWord b) (hc : IsValue c) (hne : c ≠ []) :
    StartLine (startText a b c) a b c :=
  ⟨⟨_, _, by decide, by decide, blanks_space, blanks_space, rfl⟩, ha, hb, hc, hne⟩

lemma IsEntry.isField (h : IsEntry e) : IsField (fieldLine e) e.1 e.2 := by
  refine ⟨⟨ascii " ", blanks_space, ?_⟩, h.isName, h.isValue⟩
  rw [fieldLine, List.append_assoc]
  rfl

lemma headData_eq (ha : a ≠ []) (keys : KeysMap) :
    headData [a, b, c] keys = headText (startText a b c) (keys.map fieldLine) := by
  have hwords : joinWords [a, b, c] = startText a b c := by
    simp [joinWords, startText, ha]
  have hmap : (keys.map fun e => fieldLine e ++ lineEnd) =
      (keys.map fieldLine).map (· ++ lineEnd) := by
    rw [List.map_map]
    rfl
  rw [headData, headText, linesText, List.map_cons, List.flatten_cons, hwords, hmap]

/-- The printed fields are read, whatever follows them. -/
lemma scanLines_fieldLines (hentry : ∀ e ∈ keys, IsEntry e) (read : KeysMap) (rest : Text) :
    scanLines read (lineTexts (keys.map fieldLine) rest) =
      .ok (false, keys.foldl (fun read e => KeysMap.emplace e.1 e.2 read) read) := by
  induction keys generalizing read with
  | nil => rfl
  | cons e keys ih =>
    obtain ⟨he, hentry⟩ := List.forall_mem_cons.mp hentry
    have hfield := he.isField
    rw [List.map_cons, lineTexts, scanLines, linesText_cons]
    have hvalue := hfield.valueRun_eq he.ne_nil (linesText (keys.map fieldLine) ++ rest)
    rw [if_neg, if_neg, hfield.keyRun_eq, hvalue, ih hentry, List.foldl_cons]
    · rw [hfield.broken_iff, hvalue]
      exact he.ne_nil
    · rw [hfield.overlong_iff, hvalue]
      exact not_le.mpr he.isValue.length_lt

/-! ## The adapted keys -/

lemma isMap_adaptKeys (h : keys_map.IsMap) : (adaptKeys keys_map content).IsMap := by
  rw [adaptKeys]
  split_ifs
  · exact h.erase
  · exact h.set

lemma isEntry_contentLength {n : ℕ} (hn : n < 2 ^ 64) :
    IsEntry (contentLengthKey, numeral n) := by
  have hname : IsName contentLengthKey := by decide
  refine ⟨hname, ⟨fun c hc => ?_, fun c hc => ?_, length_numeral_lt hn⟩, numeral_ne_nil n⟩
  · have hdigit := isDigit_of_mem_numeral hc
    refine ⟨?_, ?_, ?_⟩ <;> rintro rfl <;> exact absurd hdigit (by decide)
  · exact isSpace_of_isDigit (isDigit_of_mem_numeral (List.mem_of_mem_head? hc))

lemma isEntry_adaptKeys (h : keys_map.IsMap)
    (hentry : ∀ e ∈ keys_map, e.1 ≠ contentLengthKey → IsEntry e) (content : Bytes) :
    ∀ e ∈ adaptKeys keys_map content, IsEntry e := by
  have hlt : content.1.length < 2 ^ 64 := content.2.trans (by norm_num)
  intro e he
  rw [adaptKeys] at he
  split_ifs at he
  · obtain ⟨he, hne⟩ := KeysMap.mem_erase.mp he
    exact hentry e he hne
  · rcases (KeysMap.mem_set h).mp he with rfl | ⟨he, hne⟩
    · exact isEntry_contentLength hlt
    · exact hentry e he hne

/-- The length that is read is that of the content. -/
lemma contentLength_adaptKeys (keys_map : KeysMap) (content : Bytes) :
    contentLength (adaptKeys keys_map content) = .ok content.1.length := by
  have hlt : content.1.length < 2 ^ 32 := content.2
  rw [contentLength, adaptKeys]
  split_ifs with hnil
  · rw [KeysMap.find_erase, hnil]
    rfl
  · rw [KeysMap.find_set]
    dsimp only
    rw [stoul_numeral (hlt.trans (by norm_num)), Except.map, toInt64, if_pos (by omega)]

/-! ## The round trip -/

/-- The frame with this head and this content. -/
def packedText (a b c : Text) (keys_map : KeysMap) (content : Bytes) : Text :=
  headData [a, b, c] (adaptKeys keys_map content) ++ content.1

/-- What the decoder has read of this frame. -/
def packedHeader (a b c : Text) (keys_map : KeysMap) (content : Bytes) : StreamHttpHeader :=
  ⟨[a, b, c], adaptKeys keys_map content, content.1.length,
    (headData [a, b, c] (adaptKeys keys_map content)).length, false, false⟩

lemma asBytes_val {t : Text} (h : t.length < 2 ^ 32) : (asBytes t).1 = t := by
  show t.take (t.length % 2 ^ 32) = t
  rw [Nat.mod_eq_of_lt h, List.take_length]

/-- A frame that is not too long is the head and the content. -/
lemma packetFrameOf_eq (F : UInt32) (header : List Text) (keys_map : KeysMap) (content : Bytes)
    (hlen : (headData header (adaptKeys keys_map content) ++ content.1).length ≤ F.toNat) :
    packetFrameOf F.toNat header keys_map content =
      .ok (asBytes (headData header (adaptKeys keys_map content) ++ content.1)) := by
  have hF := F.toNat_lt
  rw [List.length_append] at hlen
  have hhead : (asBytes (headData header (adaptKeys keys_map content))).1 =
      headData header (adaptKeys keys_map content) := asBytes_val (by omega)
  rw [packetFrameOf]
  generalize headData header (adaptKeys keys_map content) = head at *
  by_cases hpos : content.1.length > 0
  · rw [if_pos hpos, encodeFrameOf]
    have hsum : add32 (add32 0 head.length) content.1.length =
        head.length + content.1.length := by
      rw [add32_eq (a := 0) (by omega), zero_add, add32_eq (by omega)]
    simp only [List.foldl_cons, List.foldl_nil, hhead, hsum, List.head?_cons, Option.map_some,
      Option.getD_some]
    rw [if_neg (by omega), if_neg (by omega), List.take_append_of_le_length
      (by rw [List.length_append]), List.take_of_length_le (by rw [List.length_append])]
  · rw [if_neg hpos, encodeFrameOf]
    have hnil : content.1 = [] := List.length_eq_zero_iff.mp (by omega)
    have hsum : add32 0 head.length = head.length := by
      rw [add32_eq (by omega), zero_add]
    simp only [List.foldl_cons, List.foldl_nil, hhead, hsum, List.head?_nil, Option.map_none,
      Option.getD_none, hnil, List.append_nil]
    simp only [hnil, List.length_nil, add_zero] at hlen
    rw [if_neg (by omega), if_neg (by simp), List.take_left]

/-- The head is read, whatever follows the content. -/
lemma decodeFrameHeader_packedText (ha : IsWord a) (hb : IsWord b) (hc : IsValue c)
    (hne : c ≠ []) (hmap : keys_map.IsMap)
    (hentry : ∀ e ∈ keys_map, e.1 ≠ contentLengthKey → IsEntry e)
    (hkeys : adaptKeys keys_map content ≠ []) (ys : Text) {data_len : ℕ}
    (hlen : (headData [a, b, c] (adaptKeys keys_map content)).length ≤ data_len) :
    decodeFrameHeader .init (packedText a b c keys_map content ++ ys) data_len =
      .ok (packedHeader a b c keys_map content) := by
  have hall := isEntry_adaptKeys hmap hentry content
  rw [headData_eq ha.ne_nil] at hlen
  rw [packedText, packedHeader, headData_eq ha.ne_nil, List.append_assoc,
    decodeFrameHeader_headText (startLine_startText ha hb hc hne) ?_ _ hlen,
    scanLines_fieldLines hall, KeysMap.foldl_emplace_self (isMap_adaptKeys hmap)]
  · show storeKeys _ _ _ _ = _
    rw [storeKeys, if_pos ⟨hkeys, rfl⟩, contentLength_adaptKeys]
    rfl
  · intro l hl
    obtain ⟨e, he, rfl⟩ := List.mem_map.mp hl
    exact (hall e he).isField.isLine

/-- **A packed frame is read back.** -/
theorem packetFrame_roundTrip (F : UInt32) {a b c : Text} {keys_map : KeysMap} {content : Bytes}
    (ha : IsWord a) (hb : IsWord b) (hc : IsValue c) (hne : c ≠ []) (hmap : keys_map.IsMap)
    (hentry : ∀ e ∈ keys_map, e.1 ≠ contentLengthKey → IsEntry e)
    (hkeys : adaptKeys keys_map content ≠ [])
    (hmin : minProtocalSize ≤ (packedText a b c keys_map content).length)
    (hmax : (packedText a b c keys_map content).length ≤ F.toNat) :
    ∃ packed header, packetFrameOf F.toNat [a, b, c] keys_map content = .ok packed ∧
      packed.1 = packedText a b c keys_map content ∧
      (∀ ys, decodeFrameOf F.toNat .init (packed.1 ++ ys) packed.1.length =
        .ok ((0, packed.1.length), { header with process_finished := true })) ∧
      bufferToFrame packed.1 = .ok (true, header) ∧ header.header = [a, b, c] ∧
      header.keys = adaptKeys keys_map content ∧ header.content_length = content.1.length ∧
      packed.1.drop header.header_offset.toNat = content.1 := by
  have hF := F.toNat_lt
  have hpacked : (asBytes (packedText a b c keys_map content)).1 =
      packedText a b c keys_map content := asBytes_val (by omega)
  have hlen : (packedText a b c keys_map content).length =
      (headData [a, b, c] (adaptKeys keys_map content)).length + content.1.length :=
    List.length_append
  have hdec : ∀ ys, decodeFrameHeader .init (packedText a b c keys_map content ++ ys)
      (packedText a b c keys_map content).length = .ok (packedHeader a b c keys_map content) :=
    fun ys => decodeFrameHeader_packedText ha hb hc hne hmap hentry hkeys ys (by omega)
  have hsum : add64 (packedHeader a b c keys_map content).header_offset
      (packedHeader a b c keys_map content).content_length =
        .ok (packedText a b c keys_map content).length := by
    have hsmall : ((headData [a, b, c] (adaptKeys keys_map content)).length : ℤ) +
        (content.1.length : ℤ) < 2 ^ 63 := by omega
    rw [add64, if_pos ⟨by simp only [packedHeader]; omega, hsmall⟩, hlen, Nat.cast_add]
    rfl
  have hpos : ¬ (packedHeader a b c keys_map content).content_length < 0 :=
    not_lt.mpr (Int.natCast_nonneg _)
  refine ⟨_, packedHeader a b c keys_map content, packetFrameOf_eq F [a, b, c] keys_map content
    hmax, hpacked, fun ys => ?_, ?_, rfl, rfl, rfl, ?_⟩
  · rw [← packedText, hpacked, decodeFrameOf, if_neg (by decide), if_neg (by omega)]
    refine bind_eq_ok.mpr ⟨_, hdec ys, ?_⟩
    rw [if_neg (by simp [packedHeader]), if_neg hpos]
    refine bind_eq_ok.mpr ⟨_, hsum, ?_⟩
    rw [if_neg (lt_irrefl _), Int.toNat_natCast]
  · have hdec := hdec []
    rw [List.append_nil] at hdec
    rw [← packedText, hpacked, bufferToFrame, if_neg (by omega)]
    refine bind_eq_ok.mpr ⟨_, hdec, ?_⟩
    rw [if_neg (by simp [packedHeader]), if_neg hpos]
    refine bind_eq_ok.mpr ⟨_, hsum, ?_⟩
    rw [decide_eq_true le_rfl]
  · rw [← packedText, hpacked]
    exact List.drop_left

section sample

/-- The content contains an empty line. -/
def sampleContent : Bytes := ⟨ascii "a\r\n\r\nb", by decide⟩

def sampleKeys : KeysMap := [(ascii "Host", ascii "a"), (ascii "Server", ascii "b")]

theorem packetFrame_roundTrip_sample : ∃ packed header,
    packetFrameOf (10 * 1024 * 1024 : UInt32).toNat
      [ascii "GET", ascii "/", ascii "HTTP/1.1"] sampleKeys sampleContent = .ok packed ∧
    bufferToFrame packed.1 = .ok (true, header) ∧
    packed.1.drop header.header_offset.toNat = sampleContent.1 := by
  have hentry : ∀ e ∈ sampleKeys, e.1 ≠ contentLengthKey → IsEntry e := by
    rw [sampleKeys, List.forall_mem_cons, List.forall_mem_singleton]
    exact ⟨fun _ => ⟨by decide, by decide, by decide⟩, fun _ => ⟨by decide, by decide, by decide⟩⟩
  obtain ⟨packed, header, hpack, -, -, hframe, -, -, -, hcontent⟩ :=
    packetFrame_roundTrip (10 * 1024 * 1024) (a := ascii "GET") (b := ascii "/")
      (c := ascii "HTTP/1.1") (by decide) (by decide) (by decide) (by decide) (by decide) hentry
      (show adaptKeys sampleKeys sampleContent ≠ [] by decide) (by decide +kernel)
      (by decide +kernel)
  exact ⟨packed, header, hpack, hframe, hcontent⟩

end sample

end ProtocalHttp

end SignalEventLoop.Network
