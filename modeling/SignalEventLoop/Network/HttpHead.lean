/-
# Heads of HTTP frames

The decoder reads a head with `sscanf`, which does not know where the head ends.  A head that
is complete (`headEnd` is found at its end and not before) ends every line with a line end, so
that a scan that succeeds on the head stops inside of it.  Hence the decoder reads the same
from a head, whatever bytes follow it in memory, and reads nothing from a part of it.
-/
import SignalEventLoop.Network.ProtocalHttp

namespace SignalEventLoop.Network

/-- A computation in `Except` returns if and only if both parts of it do. -/
lemma bind_eq_ok {ε : Type*} {α β : Type} {x : Except ε α} {f : α → Except ε β} {r : β} :
    (x >>= f) = .ok r ↔ ∃ a, x = .ok a ∧ f a = .ok r := by
  cases x with
  | error e => simp [bind, Except.bind]
  | ok a => simp [bind, Except.bind]

/-- Only errors are mapped. -/
lemma mapError_eq_ok {ε ε' α : Type} {x : Except ε α} {f : ε → ε'} {a : α} :
    x.mapError f = .ok a ↔ x = .ok a := by
  cases x <;> simp [Except.mapError]

lemma toOption_eq_some {ε α : Type} {x : Except ε α} {a : α} :
    x.toOption = some a ↔ x = .ok a := by
  cases x <;> simp [Except.toOption]

namespace ProtocalHttp

variable {p : UInt8 → Bool} {s t rest head : Text} {header : StreamHttpHeader}

/-! ## Scans -/

/-- The text ends with a line feed. -/
def Ended (s : Text) : Prop := ∃ u, s = u ++ [10]

lemma Ended.of_suffix (h : Ended s) (ht : t <:+ s) (hne : t ≠ []) : Ended t := by
  obtain ⟨u, rfl⟩ := h
  obtain rfl | ⟨v, rfl, -⟩ := List.suffix_concat_iff.mp ht
  · exact absurd rfl hne
  · exact ⟨v, rfl⟩

lemma Ended.dropWhile_ne_nil (h : Ended s) (hp : p 10 = false) : s.dropWhile p ≠ [] := by
  obtain ⟨u, rfl⟩ := h
  exact Lib.dropWhile_ne_nil_of_mem (x := 10) (by simp) hp

lemma scanWhile_eq_some : scanWhile p s = .ok (some (t, rest)) ↔
    t ≠ [] ∧ t.length < 4096 ∧ s.takeWhile (fun c => c ≠ 0 && p c) = t ∧
      s.dropWhile (fun c => c ≠ 0 && p c) = rest := by
  rw [scanWhile]
  split_ifs with hnil hlen
  · simp only [hnil, Except.ok.injEq, reduceCtorEq, false_iff]
    rintro ⟨hne, -, rfl, -⟩
    exact hne rfl
  · simp only [false_iff]
    rintro ⟨-, hlt, rfl, -⟩
    omega
  · simp only [Except.ok.injEq, Option.some.injEq, Prod.mk.injEq]
    constructor
    · rintro ⟨rfl, rfl⟩
      exact ⟨hnil, by omega, rfl, rfl⟩
    · rintro ⟨-, -, ht, hrest⟩
      exact ⟨ht, hrest⟩

lemma ne_nil_of_scanWhile (h : scanWhile p s = .ok (some (t, rest))) : s ≠ [] := by
  rintro rfl
  obtain ⟨hne, -, rfl, -⟩ := scanWhile_eq_some.mp h
  exact hne rfl

/-- A conversion that stops does not see what follows. -/
lemma scanWhile_append (h : scanWhile p s = .ok (some (t, rest))) (hne : rest ≠ []) (ys : Text) :
    scanWhile p (s ++ ys) = .ok (some (t, rest ++ ys)) := by
  obtain ⟨ht, hlen, htake, hdrop⟩ := scanWhile_eq_some.mp h
  rw [← hdrop] at hne
  refine scanWhile_eq_some.mpr ⟨ht, hlen, ?_, ?_⟩
  · rw [Lib.takeWhile_append_of_ne_nil hne, htake]
  · rw [Lib.dropWhile_append_of_ne_nil hne, hdrop]

/-- A conversion, after blanks, that a line feed stops. -/
lemma scanWhile_skipSpace (hs : Ended s) (hp : p 10 = false)
    (h : scanWhile p (skipSpace s) = .ok (some (t, rest))) :
    Ended rest ∧ ∀ ys, scanWhile p (skipSpace (s ++ ys)) = .ok (some (t, rest ++ ys)) := by
  have hskip := ne_nil_of_scanWhile h
  have hended : Ended (skipSpace s) := hs.of_suffix (List.dropWhile_suffix _) hskip
  obtain ⟨-, -, -, hdrop⟩ := scanWhile_eq_some.mp h
  have hne : rest ≠ [] := by
    rw [← hdrop]
    exact hended.dropWhile_ne_nil (by simp [hp])
  refine ⟨hended.of_suffix (by rw [← hdrop]; exact List.dropWhile_suffix _) hne, fun ys => ?_⟩
  rw [skipSpace, Lib.dropWhile_append_of_ne_nil hskip]
  exact scanWhile_append h hne ys

lemma scanWord_append (hs : Ended s) (h : scanWord s = .ok (some (t, rest))) :
    Ended rest ∧ ∀ ys, scanWord (s ++ ys) = .ok (some (t, rest ++ ys)) :=
  scanWhile_skipSpace hs rfl h

lemma scanFirstLine_append (hs : Ended s) {r : Text × Text × Text}
    (h : scanFirstLine s = .ok (some r)) (ys : Text) :
    scanFirstLine (s ++ ys) = .ok (some r) := by
  obtain ⟨_ | ⟨a, s₁⟩, ha, h⟩ := bind_eq_ok.mp h
  · simp at h
  obtain ⟨_ | ⟨b, s₂⟩, hb, h⟩ := bind_eq_ok.mp h
  · simp at h
  obtain ⟨_ | ⟨c, s₃⟩, hc, h⟩ := bind_eq_ok.mp h
  · simp at h
  obtain ⟨hs₁, ha'⟩ := scanWord_append hs ha
  obtain ⟨hs₂, hb'⟩ := scanWord_append hs₁ hb
  obtain ⟨-, hc'⟩ := scanWhile_skipSpace hs₂ rfl hc
  refine bind_eq_ok.mpr ⟨_, ha' ys, bind_eq_ok.mpr ⟨_, hb' ys, bind_eq_ok.mpr ⟨_, hc' ys, h⟩⟩⟩

lemma scanKeyLine_append (hs : Ended s) {r : Text × Text} (h : scanKeyLine s = .ok (some r))
    (ys : Text) : scanKeyLine (s ++ ys) = .ok (some r) := by
  obtain ⟨_ | ⟨key, s₁⟩, hkey, h⟩ := bind_eq_ok.mp h
  · simp at h
  -- the key ends at a colon
  obtain _ | ⟨c, s₂⟩ := s₁
  · simp at h
  by_cases hc : c = 58
  · subst hc
    obtain ⟨_ | ⟨value, s₃⟩, hvalue, h⟩ := bind_eq_ok.mp h
    · simp at h
    have hs₂ : Ended s₂ := by
      refine hs.of_suffix ?_ ?_
      · obtain ⟨-, -, -, hdrop⟩ := scanWhile_eq_some.mp hkey
        exact (List.suffix_cons _ _).trans (hdrop ▸ List.dropWhile_suffix _)
      · rintro rfl
        exact ne_nil_of_scanWhile hvalue rfl
    have hkey' := scanWhile_append hkey (by simp) ys
    obtain ⟨-, hvalue'⟩ := scanWhile_skipSpace hs₂ rfl hvalue
    exact bind_eq_ok.mpr ⟨_, hkey', bind_eq_ok.mpr ⟨_, hvalue' ys, h⟩⟩
  · simp [hc] at h

/-! ## Lines -/

lemma skipLineFeed_suffix (s : Text) : skipLineFeed s <:+ s := by
  cases s with
  | nil => exact List.suffix_refl _
  | cons c s =>
    rw [skipLineFeed]
    split_ifs
    · exact List.suffix_cons _ _
    · exact List.suffix_refl _

lemma skipLineFeed_append (hs : s ≠ []) (ys : Text) :
    skipLineFeed (s ++ ys) = skipLineFeed s ++ ys := by
  cases s with
  | nil => exact absurd rfl hs
  | cons c s =>
    simp only [List.cons_append, skipLineFeed]
    split_ifs <;> rfl

lemma getNextLine_suffix (h : getNextLine s = some t) : t <:+ s ∧ t.length < s.length := by
  induction s with
  | nil => simp [getNextLine] at h
  | cons c s ih =>
    rw [getNextLine] at h
    split_ifs at h
    · obtain rfl := Option.some.inj h
      have hskip := skipLineFeed_suffix s
      have hlen := hskip.length_le
      exact ⟨hskip.trans (List.suffix_cons _ _), by rw [List.length_cons]; omega⟩
    · obtain ⟨hsuffix, hlen⟩ := ih h
      exact ⟨hsuffix.trans (List.suffix_cons _ _), by rw [List.length_cons]; omega⟩

/-- The next line in a text that ends with an empty line. -/
lemma getNextLine_append (v ys : Text) : getNextLine (v ++ headEnd ++ ys) =
    (getNextLine (v ++ headEnd)).map (· ++ ys) := by
  induction v with
  | nil => rfl
  | cons c v ih =>
    simp only [List.cons_append, getNextLine]
    split_ifs
    · rfl
    · rw [skipLineFeed_append (by simp [headEnd]), Option.map_some]
    · exact ih

/-- The keys of a text do not depend on what follows its empty line. -/
lemma decodeKeys_append (ys : Text) {fuel fuel' : ℕ} {keys keys' : KeysMap} {v : Text}
    (hfuel : (v ++ headEnd).length ≤ fuel) (hfuel' : (v ++ headEnd ++ ys).length ≤ fuel')
    (h : decodeKeys 4 fuel keys (v ++ headEnd) = .ok (false, keys')) :
    decodeKeys (4 + ys.length) fuel' keys (v ++ headEnd ++ ys) = .ok (false, keys') := by
  induction fuel generalizing fuel' keys v with
  | zero => simp [headEnd] at hfuel
  | succ fuel ih =>
    obtain _ | fuel' := fuel'
    · simp [headEnd] at hfuel'
    rw [decodeKeys] at h ⊢
    rw [getNextLine_append]
    cases hline : getNextLine (v ++ headEnd) with
    | none =>
      rw [hline] at h
      exact h
    | some t =>
      rw [hline] at h
      dsimp only [Option.map_some] at h ⊢
      rw [List.length_append]
      obtain ⟨hsuffix, hlen⟩ := getNextLine_suffix hline
      split_ifs at h with hleft
      · rw [if_pos (by omega)]
        exact h
      · rw [if_neg (by omega)]
        -- the line is the end of the text, and longer than the empty line
        obtain ⟨w, rfl⟩ : ∃ w, t = w ++ headEnd := by
          obtain ⟨w, hw⟩ := List.suffix_of_suffix_length_le (List.suffix_append v headEnd) hsuffix
            (by simp only [headEnd, List.length_cons, List.length_nil]; omega)
          exact ⟨w, hw.symm⟩
        obtain ⟨_ | ⟨key, value⟩, hkey, h⟩ := bind_eq_ok.mp h
        · simp at h
        have hended : Ended (w ++ headEnd) := ⟨w ++ [13, 10, 13], by simp [headEnd]⟩
        refine bind_eq_ok.mpr ⟨_, scanKeyLine_append hended hkey ys, ?_⟩
        refine ih (by omega) ?_ h
        rw [List.length_append] at hfuel' ⊢
        omega

/-! ## Heads -/

/-- A head that the decoder reads as a frame: it ends with the first empty line, the fields
`header` are found in it, there is no content, and it is not too long for the protocol. -/
structure IsHead (head : Text) (header : StreamHttpHeader) : Prop where
  complete : Lib.search headEnd head = some (head.length - 4)
  parsed : bufferToFrame head = .ok (true, header)
  noContent : header.keys.find contentLengthKey = none
  length_le : head.length ≤ maxFrameSize

namespace IsHead

/-- What `bufferToFrame` has read. -/
lemma decoded (h : IsHead head header) : minProtocalSize ≤ head.length ∧
    decodeFrameHeader .init head head.length = .ok header ∧ header.parse_error = false ∧
      0 ≤ header.content_length := by
  have hparsed := h.parsed
  rw [bufferToFrame] at hparsed
  split_ifs at hparsed with hlen
  · simp at hparsed
  obtain ⟨header', hdec, hparsed⟩ := bind_eq_ok.mp hparsed
  split_ifs at hparsed with herror hneg
  · simp at hparsed
  · simp at hparsed
  obtain ⟨need_size, -, hparsed⟩ := bind_eq_ok.mp hparsed
  obtain ⟨-, rfl⟩ := Prod.mk.inj (Except.ok.inj hparsed)
  exact ⟨by omega, hdec, by simpa using herror, by omega⟩

/-- A head ends with an empty line. -/
lemma eq_append (h : IsHead head header) : ∃ v, head = v ++ headEnd := by
  have hlen := h.decoded.1
  obtain ⟨t, ht⟩ := Lib.prefix_drop_of_search h.complete
  have hlength := congrArg List.length ht
  simp only [minProtocalSize, headEnd, List.length_append, List.length_cons, List.length_nil,
    List.length_drop] at hlen hlength
  rw [List.length_eq_zero_iff.mp (show t.length = 0 by omega), List.append_nil] at ht
  exact ⟨head.take (head.length - 4), by rw [ht, List.take_append_drop]⟩

lemma ne_nil (h : IsHead head header) : head ≠ [] := by
  obtain ⟨v, rfl⟩ := h.eq_append
  simp [headEnd]

/-- The decoder reads a head, whatever follows it. -/
lemma decodeFrameHeader_eq (h : IsHead head header) (ys : Text) {len : ℕ}
    (hlen : head.length ≤ len) : decodeFrameHeader .init (head ++ ys) len = .ok header ∧
      header.content_length = 0 ∧ header.header_offset = head.length ∧
        header.process_finished = false := by
  obtain ⟨hmin, hdec, herror, -⟩ := h.decoded
  obtain ⟨v, hv⟩ := h.eq_append
  have hsearch : Lib.search headEnd ((head ++ ys).take len) = some (head.length - 4) := by
    rw [List.take_append, List.take_of_length_le hlen]
    exact Lib.search_append h.complete _
  have hnew : ¬ StreamHttpHeader.init.content_length ≥ 0 := by decide
  rw [decodeFrameHeader, if_neg hnew, List.take_length, h.complete] at hdec
  rw [decodeFrameHeader, if_neg hnew, hsearch]
  dsimp only at hdec ⊢
  obtain ⟨_ | ⟨a, b, c⟩, hfirst, hdec⟩ := bind_eq_ok.mp hdec
  · obtain rfl := Except.ok.inj hdec
    simp at herror
  obtain ⟨⟨bad, keys⟩, hkeys, hdec⟩ := bind_eq_ok.mp hdec
  dsimp only at hdec
  split_ifs at hdec with hgood
  · obtain ⟨content_length, hcontent, hdec⟩ := bind_eq_ok.mp hdec
    obtain rfl := Except.ok.inj hdec
    have hzero : content_length = 0 := by
      have hnone : KeysMap.find contentLengthKey keys = none := h.noContent
      rw [contentLength, hnone] at hcontent
      exact (Except.ok.inj hcontent).symm
    have hbad : bad = false := by simpa [StreamHttpHeader.init] using hgood.2
    subst hzero hbad
    simp only [minProtocalSize] at hmin
    refine ⟨?_, rfl, by dsimp only; omega, rfl⟩
    have hleft : head.length - (head.length - 4) = 4 := by omega
    have hleft' : (head ++ ys).length - (head.length - 4) = 4 + ys.length := by
      rw [List.length_append]
      omega
    have hended : Ended head := ⟨v ++ [13, 10, 13], by rw [hv]; simp [headEnd]⟩
    refine bind_eq_ok.mpr ⟨_, scanFirstLine_append hended hfirst ys, ?_⟩
    rw [hleft, hv] at hkeys
    have hkeys' := decodeKeys_append ys le_rfl le_rfl hkeys
    rw [← hv, ← hleft'] at hkeys'
    refine bind_eq_ok.mpr ⟨_, hkeys', ?_⟩
    dsimp only
    rw [if_pos hgood]
    exact bind_eq_ok.mpr ⟨_, hcontent, rfl⟩
  · -- without keys, or with a bad line, there is no length
    obtain rfl := Except.ok.inj hdec
    have hge := h.decoded.2.2.2
    simp [StreamHttpHeader.init] at hge

/-- The frame is the head. -/
lemma decodeFrame_eq (h : IsHead head header) (ys : Text) {len : ℕ} (hlen : head.length ≤ len) :
    decodeFrame .init (head ++ ys) len =
      .ok ((0, head.length), { header with process_finished := true }) := by
  obtain ⟨hmin, -, herror, -⟩ := h.decoded
  obtain ⟨hdec, hcontent, hoffset, -⟩ := h.decodeFrameHeader_eq ys hlen
  have hsize := h.length_le
  rw [decodeFrame, if_neg (by decide), if_neg (by omega)]
  refine bind_eq_ok.mpr ⟨_, hdec, ?_⟩
  rw [if_neg (by simp [herror]), if_neg (by omega), hcontent, hoffset, add64, add_zero]
  simp only [maxFrameSize] at hsize
  rw [if_pos (by omega)]
  refine bind_eq_ok.mpr ⟨_, rfl, ?_⟩
  rw [if_neg (by omega), Int.toNat_natCast]

/-- In a part of a head there is no frame. -/
lemma decodeFrame_part (h : IsHead head header) {part : Text} (hpre : part <+: head)
    (hne : part ≠ head) (ys : Text) :
    decodeFrame .init (part ++ ys) part.length = .ok ((0, 0), .init) := by
  have hmin := h.decoded.1
  have hnone : Lib.search headEnd part = none := by
    refine Lib.search_eq_none_of_prefix h.complete ?_ hpre hne
    simp only [minProtocalSize] at hmin
    simp only [headEnd, List.length_cons, List.length_nil]
    omega
  rw [decodeFrame, if_neg (by decide)]
  split_ifs
  · rfl
  · refine bind_eq_ok.mpr ⟨.init, ?_, rfl⟩
    rw [decodeFrameHeader, if_neg (by decide), List.take_left, hnone]

end IsHead

end ProtocalHttp

end SignalEventLoop.Network
