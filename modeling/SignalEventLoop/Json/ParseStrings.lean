/-
# Strings that are read

`parse_string` takes a string of JSON as what it stands for, inside its block and without a look
behind the quote.  There are two exceptions: the escape of a NUL is left out, and for characters
outside the first plane the code that puts two surrogates together sets the bit `0x10000` where it
has to be added, so that the planes 2, 4, and so on are lost.
-/
import SignalEventLoop.Json.JsonText

namespace SignalEventLoop

open Lib

namespace CJson

/-! ## UTF-8 -/

lemma continuationByte (v : UInt32) :
    ((v ||| 0x80) &&& 0xBF).toUInt8 = UInt8.ofNat (v.toNat % 0x40 + 0x80) := by
  have key : ∀ n < 256, (n ||| 0x80) &&& 0xBF = n % 0x40 + 0x80 := by decide +kernel
  have hmod : ((v.toNat ||| 0x80) &&& 0xBF) % 2 ^ 8 =
      (v.toNat % 256 ||| 0x80) &&& 0xBF := by
    rw [Nat.and_mod_two_pow, Nat.or_mod_two_pow]
  rw [← UInt8.toNat_inj]
  simp only [UInt32.toNat_toUInt8, UInt32.toNat_and, UInt32.toNat_or, UInt32.reduceToNat,
    UInt8.toNat_ofNat']
  rw [hmod, key _ (Nat.mod_lt _ (by norm_num))]
  omega

/-- The first of `k + 1` bytes. -/
lemma leadByte {v mark : UInt32} {m : ℕ} (hor : ∀ n < m, n ||| mark.toNat = n + mark.toNat)
    (hv : v.toNat < m) :
    (v ||| mark).toUInt8 = UInt8.ofNat (v.toNat + mark.toNat) := by
  rw [← UInt8.toNat_inj]
  simp only [UInt32.toNat_toUInt8, UInt32.toNat_or, UInt8.toNat_ofNat', hor _ hv]

lemma shiftSix (v : UInt32) : (v >>> 6).toNat = v.toNat / 0x40 := by
  simp [UInt32.toNat_shiftRight, Nat.shiftRight_eq_div_pow]

lemma toNat_ofNat {n : ℕ} (hvalid : n.isValidChar) : (Char.ofNat n).val.toNat = n := by
  rw [Char.ofNat, dif_pos hvalid]
  rfl

/-- The bytes that are written for a code point are those of UTF-8. -/
theorem encodeUtf8_fst {uc : UInt32} (hvalid : uc.toNat.isValidChar) :
    (encodeUtf8 uc).1 = String.utf8EncodeChar (Char.ofNat uc.toNat) := by
  have hlt : uc.toNat < 0x110000 := by
    obtain h | h := hvalid <;> omega
  simp only [encodeUtf8, utf8Len, UInt32.lt_iff_toNat_lt, UInt32.reduceToNat]
  rw [String.utf8EncodeChar, toNat_ofNat hvalid]
  by_cases h1 : uc.toNat < 0x80
  · simp only [if_pos h1, if_pos (show uc.toNat ≤ 0x7f by omega), Nat.sub_self, putUtf8]
    rw [show firstByteMark.getD 1 0 = 0 from rfl,
      leadByte (m := 0x80) (by decide) h1]
    simp
  rw [if_neg h1, if_neg (show ¬ uc.toNat ≤ 0x7f by omega)]
  by_cases h2 : uc.toNat < 0x800
  · simp only [if_pos h2, if_pos (show uc.toNat ≤ 0x7ff by omega), putUtf8, continuationByte]
    rw [show firstByteMark.getD 2 0 = 0xC0 from rfl,
      leadByte (m := 0x20) (by decide) (by rw [shiftSix]; omega), shiftSix]
    simp only [UInt32.reduceToNat]
    rw [Nat.mod_eq_of_lt (show uc.toNat / 64 < 32 by omega)]
  rw [if_neg h2, if_neg (show ¬ uc.toNat ≤ 0x7ff by omega)]
  by_cases h3 : uc.toNat < 0x10000
  · simp only [if_pos h3, if_pos (show uc.toNat ≤ 0xffff by omega), putUtf8, continuationByte]
    rw [show firstByteMark.getD 3 0 = 0xE0 from rfl,
      leadByte (m := 0x10) (by decide) (by rw [shiftSix, shiftSix]; omega), shiftSix, shiftSix]
    simp only [UInt32.reduceToNat, Nat.div_div_eq_div_mul, Nat.reduceMul]
    rw [Nat.mod_eq_of_lt (show uc.toNat / 4096 < 16 by omega)]
  · simp only [if_neg h3, if_neg (show ¬ uc.toNat ≤ 0xffff by omega), putUtf8, continuationByte]
    rw [show firstByteMark.getD 4 0 = 0xF0 from rfl,
      leadByte (m := 0x08) (by decide) (by rw [shiftSix, shiftSix, shiftSix]; omega),
      shiftSix, shiftSix, shiftSix]
    simp only [UInt32.reduceToNat, Nat.div_div_eq_div_mul, Nat.reduceMul]
    rw [Nat.mod_eq_of_lt (show uc.toNat / 262144 < 8 by omega)]

/-! ## Surrogates -/

lemma or_sixtyFour (h : ℕ) : 64 ||| h = if h / 64 % 2 = 0 then h + 64 else h := by
  have key : ∀ r < 128, 64 ||| r = if r / 64 % 2 = 0 then r + 64 else r := by decide
  have hmod : (64 ||| h) % 128 = 64 ||| h % 128 := Nat.or_mod_two_pow (n := 7)
  have hdiv : (64 ||| h) / 128 = h / 128 := by
    rw [show 128 = 2 ^ 7 from rfl, Nat.or_div_two_pow]
    simp
  rw [key _ (Nat.mod_lt h (by norm_num))] at hmod
  split_ifs at hmod ⊢ <;> omega

/-- The code point of two surrogates, with the bit that is set and not added. -/
lemma pairCode_toNat (hi lo : UInt32) (hhi : 0xD800 ≤ hi.toNat ∧ hi.toNat ≤ 0xDBFF)
    (hlo : 0xDC00 ≤ lo.toNat ∧ lo.toNat ≤ 0xDFFF) :
    (pairCode hi lo).toNat =
      if hi.toNat / 64 % 2 = 0 then surrogatePair hi.toNat lo.toNat
      else surrogatePair hi.toNat lo.toNat - 0x10000 := by
  have hmask : ∀ n : ℕ, n &&& 0x3FF = n % 1024 := fun n => Nat.and_two_pow_sub_one_eq_mod n 10
  obtain ⟨h, hh, hhl⟩ : ∃ h, hi.toNat = 0xD800 + h ∧ h < 1024 :=
    ⟨hi.toNat - 0xD800, by omega, by omega⟩
  obtain ⟨l, hl, hll⟩ : ∃ l, lo.toNat = 0xDC00 + l ∧ l < 1024 :=
    ⟨lo.toNat - 0xDC00, by omega, by omega⟩
  have hcode : (pairCode hi lo).toNat = (64 ||| h) * 1024 + l := by
    simp only [pairCode, UInt32.toNat_or, UInt32.toNat_shiftLeft, UInt32.toNat_and,
      UInt32.reduceToNat, hmask, hh, hl]
    rw [show (0xD800 + h) % 1024 = h by omega, show (0xDC00 + l) % 1024 = l by omega,
      Nat.shiftLeft_eq, Nat.mod_eq_of_lt (by norm_num; omega)]
    have hshift : 65536 ||| h * 2 ^ (10 % 32) = 2 ^ 10 * (64 ||| h) := by
      rw [show (65536 : ℕ) = 64 * 2 ^ 10 by norm_num, ← Nat.shiftLeft_eq, ← Nat.shiftLeft_eq,
        Nat.mul_comm, ← Nat.shiftLeft_eq, ← Nat.shiftLeft_or_distrib]
    rw [hshift, ← Nat.two_pow_add_eq_or_of_lt hll, Nat.mul_comm]
  have hpair : surrogatePair hi.toNat lo.toNat = 0x10000 + h * 1024 + l := by
    unfold surrogatePair
    omega
  have hbit : hi.toNat / 64 % 2 = h / 64 % 2 := by omega
  rw [hcode, or_sixtyFour h, hpair, hbit]
  split_ifs <;> omega

/-- Two surrogates are a code point. -/
lemma isValidChar_surrogatePair {hi lo : ℕ} (hhi : 0xD800 ≤ hi ∧ hi ≤ 0xDBFF)
    (hlo : 0xDC00 ≤ lo ∧ lo ≤ 0xDFFF) : (surrogatePair hi lo).isValidChar := by
  have hlow : 0xDFFF < surrogatePair hi lo := by
    unfold surrogatePair
    omega
  have hhigh : surrogatePair hi lo < 0x110000 := by
    unfold surrogatePair
    omega
  exact Or.inr ⟨hlow, hhigh⟩

/-! ## Escapes with numbers -/

lemma Hex4.value_lt (u : Hex4) : u.value < 0x10000 := by
  have hdigit : ∀ {c : UInt8}, isHexDigit c = true → hexDigitValue c < 16 := by
    intro c hc
    simp only [isHexDigit, isDecimalDigit, Bool.or_eq_true, Bool.and_eq_true, decide_eq_true_eq,
      UInt8.le_iff_toNat_le, UInt8.reduceToNat] at hc
    simp only [hexDigitValue, UInt8.le_iff_toNat_le, UInt8.reduceToNat]
    split_ifs <;> omega
  obtain ⟨s, hlen, hs⟩ := u
  obtain ⟨a, b, c, d, rfl⟩ := List.length_eq_four.mp hlen
  have ha := hdigit (hs a (by simp))
  have hb := hdigit (hs b (by simp))
  have hc := hdigit (hs c (by simp))
  have hd := hdigit (hs d (by simp))
  simp only [Hex4.value, hexValue, List.foldl_cons, List.foldl_nil]
  omega

lemma Hex4.ofNat_toNat (u : Hex4) : (UInt32.ofNat u.value).toNat = u.value := by
  rw [UInt32.toNat_ofNat']
  exact Nat.mod_eq_of_lt (u.value_lt.trans (by norm_num))

/-- `sscanf` reads the four digits. -/
lemma scanCode_hex4 (code : Option UInt32) (u : Hex4) {s : Bytes} (h0 : 0 ∈ s) :
    scanCode code (u.1 ++ s) = .ok (UInt32.ofNat u.value) := by
  have hne : u.1 ≠ [] := by
    intro h
    have := u.2.1
    rw [h] at this
    exact absurd this (by decide)
  have hcString : cString (u.1 ++ s) = u.1 ++ cString s :=
    cString_append (fun c hc => (isHexDigit_cases (u.2.2 c hc)).1) s
  have hscan : scanHex 4 (u.1 ++ cString s) = some (false, u.value) := by
    have := scanHex_digits hne u.2.2 (cString s)
    rwa [u.2.1] at this
  rw [scanCode, if_pos (List.mem_append_right _ h0), hcString, hscan]
  rfl

lemma drop_hex4 (u : Hex4) (s : Bytes) : (u.1 ++ s).drop 4 = s := by
  exact List.drop_left' u.2.1

lemma drop_escape (u : Hex4) (s : Bytes) : (117 :: (u.1 ++ s)).drop 5 = s := by
  rw [List.drop_succ_cons, drop_hex4]

variable {s : Bytes}

/-- One escape. -/
lemma unicodeEscape_unit (codes : Codes) (u : Hex4)
    (h : ¬ (0xD800 ≤ u.value ∧ u.value ≤ 0xDFFF)) (hne : u.value ≠ 0) (h0 : 0 ∈ s) :
    ∃ codes', unicodeEscape codes (117 :: (u.1 ++ s)) =
      .item (String.utf8EncodeChar (Char.ofNat u.value), codes') s := by
  have hvalid : (UInt32.ofNat u.value).toNat.isValidChar := by
    have hlt := u.value_lt
    rw [u.ofNat_toNat]
    by_cases hlow : u.value < 0xD800
    · exact Or.inl hlow
    · refine Or.inr ⟨?_, lt_trans hlt (by norm_num)⟩
      have hhigh : 0xDFFF < u.value := by omega
      exact hhigh
  have hlow : ¬ ((0xDC00 ≤ UInt32.ofNat u.value ∧ UInt32.ofNat u.value ≤ 0xDFFF) ∨
      UInt32.ofNat u.value = 0) := by
    simp only [UInt32.le_iff_toNat_le, ← UInt32.toNat_inj, u.ofNat_toNat, UInt32.reduceToNat]
    omega
  have hhigh : ¬ (0xD800 ≤ UInt32.ofNat u.value ∧ UInt32.ofNat u.value ≤ 0xDBFF) := by
    simp only [UInt32.le_iff_toNat_le, u.ofNat_toNat, UInt32.reduceToNat]
    omega
  refine ⟨(some (encodeUtf8 (UInt32.ofNat u.value)).2, codes.2), ?_⟩
  simp only [unicodeEscape, List.drop_one, List.tail_cons, scanCode_hex4 codes.1 u h0,
    if_neg hlow, if_neg hhigh, List.tail_drop, Nat.reduceAdd, drop_escape, encodeUtf8_fst hvalid,
    u.ofNat_toNat]

/-- The escape of a NUL is left out. -/
lemma unicodeEscape_zero (codes : Codes) (u : Hex4) (hzero : u.value = 0) (h0 : 0 ∈ s) :
    unicodeEscape codes (117 :: (u.1 ++ s)) = .item ([], some 0, codes.2) s := by
  have huc : UInt32.ofNat u.value = 0 := by
    rw [hzero]
    rfl
  simp only [unicodeEscape, List.drop_one, List.tail_cons, scanCode_hex4 codes.1 u h0, huc,
    or_true, if_true, List.tail_drop, Nat.reduceAdd, drop_escape]

/-- Two escapes. -/
lemma unicodeEscape_pair (codes : Codes) (hi lo : Hex4)
    (hhi : 0xD800 ≤ hi.value ∧ hi.value ≤ 0xDBFF) (hlo : 0xDC00 ≤ lo.value ∧ lo.value ≤ 0xDFFF)
    (h0 : 0 ∈ s) :
    ∃ codes', unicodeEscape codes (117 :: (hi.1 ++ 92 :: 117 :: (lo.1 ++ s))) =
      .item ((encodeUtf8 (pairCode (UInt32.ofNat hi.value) (UInt32.ofNat lo.value))).1, codes')
        s := by
  have h0' : 0 ∈ 92 :: 117 :: (lo.1 ++ s) := by simp [h0]
  have hlow : ¬ ((0xDC00 ≤ UInt32.ofNat hi.value ∧ UInt32.ofNat hi.value ≤ 0xDFFF) ∨
      UInt32.ofNat hi.value = 0) := by
    simp only [UInt32.le_iff_toNat_le, ← UInt32.toNat_inj, hi.ofNat_toNat, UInt32.reduceToNat]
    omega
  have hhigh : 0xD800 ≤ UInt32.ofNat hi.value ∧ UInt32.ofNat hi.value ≤ 0xDBFF := by
    simp only [UInt32.le_iff_toNat_le, hi.ofNat_toNat, UInt32.reduceToNat]
    omega
  have hsecond : ¬ (UInt32.ofNat lo.value < 0xDC00 ∨ 0xDFFF < UInt32.ofNat lo.value) := by
    simp only [UInt32.lt_iff_toNat_lt, lo.ofNat_toNat, UInt32.reduceToNat]
    omega
  -- the places that the code looks at, from the `u` on
  have h4 : ∀ k, (117 :: (hi.1 ++ 92 :: 117 :: (lo.1 ++ s))).drop (k + 5) =
      (92 :: 117 :: (lo.1 ++ s)).drop k := by
    intro k
    rw [Nat.add_comm, ← List.drop_drop, drop_escape]
  refine ⟨(some (encodeUtf8 (pairCode (UInt32.ofNat hi.value) (UInt32.ofNat lo.value))).2,
    some (UInt32.ofNat lo.value)), ?_⟩
  simp only [unicodeEscape, List.drop_one, List.tail_cons, scanCode_hex4 codes.1 hi h0',
    if_neg hlow, if_pos hhigh, List.drop_drop, Nat.reduceAdd, h4 0, h4 1, h4 2,
    h4 6]
  simp only [List.drop_zero, List.drop_succ_cons, look, ne_eq, not_true_eq_false, if_false,
    scanCode_hex4 codes.2 lo h0, if_neg hsecond, drop_hex4]

/-- What `parse_string` makes of a piece. -/
def Piece.read : Piece → Bytes
  | plain c _ => [c]
  | letter d _ => [unescapeLetter d]
  | unit u _ => if u.value = 0 then [] else String.utf8EncodeChar (Char.ofNat u.value)
  | pair hi lo _ _ =>
    String.utf8EncodeChar (Char.ofNat
      (if hi.value / 64 % 2 = 0 then surrogatePair hi.value lo.value
      else surrogatePair hi.value lo.value - 0x10000))

/-- What is left of a code point is one, still outside the first plane. -/
lemma isValidChar_lost {hi lo : ℕ} (hhi : 0xD800 ≤ hi ∧ hi ≤ 0xDBFF)
    (hlo : 0xDC00 ≤ lo ∧ lo ≤ 0xDFFF) (hbit : hi / 64 % 2 ≠ 0) :
    (surrogatePair hi lo - 0x10000).isValidChar ∧ 0xFFFF < surrogatePair hi lo - 0x10000 := by
  have hlow : 0xFFFF < surrogatePair hi lo - 0x10000 := by
    unfold surrogatePair
    omega
  have hhigh : surrogatePair hi lo - 0x10000 < 0x110000 := by
    unfold surrogatePair
    omega
  have hscalar : 0xDFFF < surrogatePair hi lo - 0x10000 := lt_trans (by norm_num) hlow
  exact ⟨Or.inr ⟨hscalar, hhigh⟩, hlow⟩

lemma unicodeEscape_pair_read (codes : Codes) (hi lo : Hex4)
    (hhi : 0xD800 ≤ hi.value ∧ hi.value ≤ 0xDBFF) (hlo : 0xDC00 ≤ lo.value ∧ lo.value ≤ 0xDFFF)
    (h0 : 0 ∈ s) :
    ∃ codes', unicodeEscape codes (117 :: (hi.1 ++ 92 :: 117 :: (lo.1 ++ s))) =
      .item ((Piece.pair hi lo hhi hlo).read, codes') s := by
  obtain ⟨codes', h⟩ := unicodeEscape_pair codes hi lo hhi hlo h0
  have hcode := pairCode_toNat (UInt32.ofNat hi.value) (UInt32.ofNat lo.value)
    (by rwa [hi.ofNat_toNat]) (by rwa [lo.ofNat_toNat])
  rw [hi.ofNat_toNat, lo.ofNat_toNat] at hcode
  have hvalid : (pairCode (UInt32.ofNat hi.value) (UInt32.ofNat lo.value)).toNat.isValidChar := by
    rw [hcode]
    split_ifs with hbit
    · exact isValidChar_surrogatePair hhi hlo
    · exact (isValidChar_lost hhi hlo hbit).1
  rw [encodeUtf8_fst hvalid, hcode] at h
  exact ⟨codes', h⟩

/-! ## The loops of `parse_string` -/

lemma stringLen_cons {c : UInt8} (hc : c ≠ 34 ∧ c ≠ 0 ∧ c ≠ 92) (s : Bytes) :
    stringLen (c :: s) = (stringLen s).map (· + 1) := by
  cases s with
  | nil => simp [stringLen, hc]
  | cons d s => simp [stringLen, hc]

lemma stringLen_backslash (d : UInt8) (s : Bytes) :
    stringLen (92 :: d :: s) = (stringLen s).map (· + 1) := by
  simp [stringLen]

lemma stringLen_quote (s : Bytes) : stringLen (34 :: s) = some 0 := by
  cases s <;> simp [stringLen]

/-- Digits are counted one by one. -/
lemma stringLen_hex {digits : Bytes} (hd : ∀ c ∈ digits, isHexDigit c = true) (s : Bytes) :
    stringLen (digits ++ s) = (stringLen s).map (· + digits.length) := by
  induction digits with
  | nil => simp
  | cons c digits ih =>
    have hc : c ≠ 34 ∧ c ≠ 0 ∧ c ≠ 92 := by
      have hin := hd c List.mem_cons_self
      refine ⟨?_, ?_, ?_⟩ <;>
      · rintro rfl
        exact absurd hin (by decide)
    rw [List.cons_append, stringLen_cons hc, ih fun c hc => hd c (List.mem_cons_of_mem _ hc),
      Option.map_map]
    congr 1

lemma Piece.length_read_le (p : Piece) : p.read.length ≤ 4 := by
  cases p with
  | plain c h => exact (show 1 ≤ 4 by norm_num)
  | letter d h => exact (show 1 ≤ 4 by norm_num)
  | unit u h =>
    rw [read]
    split_ifs
    · exact Nat.zero_le 4
    · rw [String.length_utf8EncodeChar]
      exact Char.utf8Size_le_four _
  | pair hi lo hhi hlo =>
    rw [read, String.length_utf8EncodeChar]
    exact Char.utf8Size_le_four _

/-- The block is as long as what is written to it: a piece counts at least its bytes. -/
lemma stringLen_piece (p : Piece) (s : Bytes) :
    ∃ k, p.read.length ≤ k ∧ stringLen (p.text ++ s) = (stringLen s).map (· + k) := by
  have hmap : ∀ {x : Option ℕ} (k l : ℕ),
      (x.map (· + k)).map (· + l) = x.map (· + (k + l)) := by
    intro x k l
    cases x <;> simp [Nat.add_assoc]
  cases p with
  | plain c h =>
    refine ⟨1, le_refl 1, ?_⟩
    refine stringLen_cons ⟨h.2.1, ?_, h.2.2⟩ s
    rintro rfl
    exact absurd h.1 (by decide)
  | letter d h => exact ⟨1, le_refl 1, stringLen_backslash d s⟩
  | unit u h =>
    refine ⟨4 + 1, (Piece.length_read_le _).trans (by norm_num), ?_⟩
    rw [Piece.text, List.cons_append, List.cons_append, stringLen_backslash, stringLen_hex u.2.2,
      u.2.1, hmap]
  | pair hi lo hhi hlo =>
    refine ⟨4 + 1 + 4 + 1, (Piece.length_read_le _).trans (by norm_num), ?_⟩
    simp only [Piece.text, List.cons_append, List.append_assoc]
    rw [stringLen_backslash, stringLen_hex hi.2.2, stringLen_backslash, stringLen_hex lo.2.2,
      hi.2.1, lo.2.1, hmap, hmap, hmap]

lemma stringLen_pieces (ps : List Piece) (s : Bytes) :
    ∃ k, (ps.flatMap Piece.read).length ≤ k ∧
      stringLen (ps.flatMap Piece.text ++ 34 :: s) = some k := by
  induction ps with
  | nil => exact ⟨0, le_refl 0, stringLen_quote s⟩
  | cons p ps ih =>
    obtain ⟨k, hk, hlen⟩ := ih
    obtain ⟨l, hl, hpiece⟩ := stringLen_piece p (ps.flatMap Piece.text ++ 34 :: s)
    refine ⟨k + l, ?_, ?_⟩
    · simp only [List.flatMap_cons, List.length_append]
      omega
    · rw [List.flatMap_cons, List.append_assoc, hpiece, hlen, Option.map_some]

/-- A piece is taken in one step of the second loop. -/
lemma unescape_piece (p : Piece) (fuel : ℕ) (codes : Codes) (h0 : 0 ∈ s) :
    ∃ codes', unescape (fuel + 1) codes (p.text ++ s) =
      (unescape fuel codes' s).map (p.read ++ ·) := by
  cases p with
  | plain c h =>
    have hend : ¬ (c = 34 ∨ c = 0) := by
      rintro (rfl | rfl)
      · exact h.2.1 rfl
      · exact absurd h.1 (by decide)
    refine ⟨codes, ?_⟩
    simp only [Piece.text, Piece.read, List.cons_append, List.nil_append, unescape, look,
      if_neg hend, ne_eq, h.2.2, not_false_eq_true, if_true, List.tail_cons]
  | letter d h =>
    have hd : d ≠ 117 := by
      rintro rfl
      exact absurd h (by decide)
    refine ⟨codes, ?_⟩
    simp [Piece.text, Piece.read, unescape, look, hd]
  | unit u h =>
    by_cases hzero : u.value = 0
    · have hescape := unicodeEscape_zero codes u hzero h0
      refine ⟨(some 0, codes.2), ?_⟩
      simp [Piece.text, Piece.read, unescape, look, hescape, Parsed.andThen, hzero]
    · obtain ⟨codes', hescape⟩ := unicodeEscape_unit codes u h hzero h0
      refine ⟨codes', ?_⟩
      simp [Piece.text, Piece.read, unescape, look, hescape, Parsed.andThen, hzero]
  | pair hi lo hhi hlo =>
    obtain ⟨codes', hescape⟩ := unicodeEscape_pair_read codes hi lo hhi hlo h0
    refine ⟨codes', ?_⟩
    simp [Piece.text, Piece.read, unescape, look, hescape, Parsed.andThen]

lemma unescape_pieces {ps : List Piece} {fuel : ℕ} (hfuel : ps.length < fuel) (codes : Codes)
    (h0 : 0 ∈ s) :
    unescape fuel codes (ps.flatMap Piece.text ++ 34 :: s) =
      .item (ps.flatMap Piece.read) (34 :: s) := by
  induction ps generalizing fuel codes with
  | nil =>
    obtain ⟨fuel, rfl⟩ : ∃ n, fuel = n + 1 := ⟨fuel - 1, by omega⟩
    simp [unescape, look]
  | cons p ps ih =>
    obtain ⟨fuel, rfl⟩ : ∃ n, fuel = n + 1 := ⟨fuel - 1, by omega⟩
    have h0' : 0 ∈ ps.flatMap Piece.text ++ 34 :: s := by simp [h0]
    obtain ⟨codes', hpiece⟩ := unescape_piece p fuel codes h0'
    rw [List.flatMap_cons, List.append_assoc, hpiece, ih (by simpa using hfuel) codes']
    rfl

lemma length_le_text (ps : List Piece) : ps.length ≤ (ps.flatMap Piece.text).length := by
  induction ps with
  | nil => exact le_refl 0
  | cons p ps ih =>
    have hp : 1 ≤ p.text.length := by
      cases p <;> simp [Piece.text]
    simp only [List.length_cons, List.flatMap_cons, List.length_append]
    omega

/-- **What a string is read as**, whatever follows it. -/
theorem parse_string_literal (ps : List Piece) (h0 : 0 ∈ s) :
    parse_string (literal ps ++ s) = .item (ps.flatMap Piece.read) s := by
  have hmem : literal ps ++ s = 34 :: (ps.flatMap Piece.text ++ 34 :: s) := by simp [literal]
  have hfuel : ps.length < (34 :: (ps.flatMap Piece.text ++ 34 :: s)).length := by
    have := length_le_text ps
    simp only [List.length_cons, List.length_append]
    omega
  obtain ⟨k, hk, hlen⟩ := stringLen_pieces ps s
  rw [hmem, parse_string]
  simp only [look, ne_eq, not_true_eq_false, if_false, List.tail_cons, hlen,
    unescape_pieces hfuel (none, none) h0, Parsed.andThen, if_neg (Nat.not_lt.mpr hk), if_true]

/-! ## Strings that are read as what they stand for -/

lemma utf8EncodeChar_injective : Function.Injective String.utf8EncodeChar := by
  intro c d h
  have hc := ByteArray.utf8DecodeChar?_utf8EncodeChar_append (b := ByteArray.empty) (c := c)
  rw [h, ByteArray.utf8DecodeChar?_utf8EncodeChar_append] at hc
  exact (Option.some.inj hc).symm

/-- The character of a number outside the first plane. -/
lemma utf8Size_ofNat {n : ℕ} (hvalid : n.isValidChar) (hn : 0xFFFF < n) :
    (Char.ofNat n).utf8Size = 4 := by
  rw [Char.utf8Size_eq_four_iff, UInt32.lt_iff_toNat_lt, toNat_ofNat hvalid]
  exact hn

lemma Piece.length_read_le_meaning (p : Piece) : p.read.length ≤ p.meaning.length := by
  cases p with
  | plain c h => exact le_refl _
  | letter d h => exact le_refl _
  | unit u h =>
    rw [read]
    split_ifs
    · exact Nat.zero_le _
    · exact le_refl _
  | pair hi lo hhi hlo =>
    simp only [read, meaning, String.length_utf8EncodeChar]
    split_ifs with hbit
    · exact le_refl _
    · obtain ⟨hvalid, hlarge⟩ := isValidChar_lost hhi hlo hbit
      rw [utf8Size_ofNat hvalid hlarge, utf8Size_ofNat (isValidChar_surrogatePair hhi hlo)
        (hlarge.trans_le (Nat.sub_le _ _))]

lemma Piece.read_eq_meaning_iff (p : Piece) : p.read = p.meaning ↔ p.Readable := by
  cases p with
  | plain c h => simp [read, meaning, Readable]
  | letter d h => simp [read, meaning, Readable]
  | unit u h =>
    simp only [read, meaning, Readable]
    split_ifs with hzero
    · refine iff_of_false (fun h => ?_) (not_not.mpr hzero)
      have hlen := congrArg List.length h
      rw [String.length_utf8EncodeChar, List.length_nil] at hlen
      exact absurd hlen (Char.utf8Size_pos _).ne
    · exact iff_of_true rfl hzero
  | pair hi lo hhi hlo =>
    simp only [read, meaning, Readable, utf8EncodeChar_injective.eq_iff]
    split_ifs with hbit
    · simp [hbit]
    · obtain ⟨hvalid, hlarge⟩ := isValidChar_lost hhi hlo hbit
      simp only [hbit, iff_false]
      intro h
      have hnat := congrArg (fun c => c.val.toNat) h
      rw [toNat_ofNat hvalid, toNat_ofNat (isValidChar_surrogatePair hhi hlo)] at hnat
      omega

lemma length_flatMap_read_le (ps : List Piece) :
    (ps.flatMap Piece.read).length ≤ (ps.flatMap Piece.meaning).length := by
  induction ps with
  | nil => exact le_refl _
  | cons p ps ih =>
    have hp := p.length_read_le_meaning
    simp only [List.flatMap_cons, List.length_append]
    omega

lemma flatMap_read_eq_iff (ps : List Piece) :
    ps.flatMap Piece.read = ps.flatMap Piece.meaning ↔ ∀ p ∈ ps, p.Readable := by
  induction ps with
  | nil => simp
  | cons p ps ih =>
    rw [List.forall_mem_cons, ← ih, ← p.read_eq_meaning_iff, List.flatMap_cons, List.flatMap_cons]
    constructor
    · intro h
      -- no piece is longer than what it stands for, so each has its length
      have hp := p.length_read_le_meaning
      have hps := length_flatMap_read_le ps
      have hlen := congrArg List.length h
      rw [List.length_append, List.length_append] at hlen
      exact List.append_inj h (by omega)
    · rintro ⟨hp, hps⟩
      rw [hp, hps]

end CJson

end SignalEventLoop
