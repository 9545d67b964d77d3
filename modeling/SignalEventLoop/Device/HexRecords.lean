/-
# The lines of a well-formed HEX file

`readData` decodes a line with `strtol`, which takes a great deal for a number.  On a line that
is a record, with hexadecimal digits only and a correct checksum, it finds the fields of the
record; and `fgets` with a buffer of 256 bytes finds the lines when they have up to 255 bytes.
-/
import Mathlib.Data.List.TakeWhile
import SignalEventLoop.Device.HexLoad

namespace SignalEventLoop.Device

open Lib

variable {text line file : List UInt8} {bytes : List UInt8} {c : UInt8}

/-! ## Lines -/

lemma splitLines_eq_nil : splitLines file = [] ↔ file = [] := by
  cases file with
  | nil => simp [splitLines]
  | cons c file =>
    simp only [splitLines]
    split_ifs
    · simp
    · split <;> simp

/-- One call of `fgets` takes one line, when the buffer is long enough. -/
lemma fgets_of_splitLines {n : ℕ} {lines : List (List UInt8)}
    (h : splitLines file = line :: lines) (hle : line.length ≤ n) :
    ∃ rest, fgets n file = (line, rest) ∧ splitLines rest = lines ∧
      rest.length < file.length := by
  induction file generalizing n line lines with
  | nil => simp [splitLines] at h
  | cons c file ih =>
    simp only [splitLines] at h
    split_ifs at h with hc
    · obtain ⟨rfl, rfl⟩ := List.cons.inj h
      obtain ⟨n, rfl⟩ := Nat.exists_eq_succ_of_ne_zero (by simp at hle; omega : n ≠ 0)
      exact ⟨file, by rw [fgets, if_pos hc, hc], rfl, Nat.lt_succ_self _⟩
    · cases hlines : splitLines file with
      | nil =>
        rw [hlines] at h
        obtain ⟨rfl, rfl⟩ := List.cons.inj h
        obtain ⟨n, rfl⟩ := Nat.exists_eq_succ_of_ne_zero (by simp at hle; omega : n ≠ 0)
        obtain rfl := splitLines_eq_nil.mp hlines
        refine ⟨[], ?_, rfl, Nat.lt_succ_self _⟩
        rw [fgets, if_neg hc]
        cases n <;> rfl
      | cons line' lines' =>
        rw [hlines] at h
        obtain ⟨rfl, rfl⟩ := List.cons.inj h
        rw [List.length_cons] at hle
        obtain ⟨n, rfl⟩ := Nat.exists_eq_succ_of_ne_zero (by omega : n ≠ 0)
        obtain ⟨rest, hrest, hsplit, hlt⟩ := ih hlines (Nat.le_of_succ_le_succ hle)
        refine ⟨rest, by rw [fgets, if_neg hc, hrest], hsplit, ?_⟩
        rw [List.length_cons]
        omega

lemma fgetsLoop_eq (fuel : ℕ) (hfuel : file.length ≤ fuel)
    (h : ∀ line ∈ splitLines file, line.length ≤ 255) : fgetsLoop fuel file = splitLines file := by
  induction fuel generalizing file with
  | zero =>
    obtain rfl := List.length_eq_zero_iff.mp (Nat.le_zero.mp hfuel)
    rfl
  | succ fuel ih =>
    rw [fgetsLoop]
    split_ifs with hnil
    · rw [hnil]
      rfl
    · obtain ⟨line, lines, hlines⟩ :=
        List.exists_cons_of_ne_nil (fun h => hnil (splitLines_eq_nil.mp h))
      rw [hlines] at h ⊢
      obtain ⟨rest, hrest, hsplit, hlt⟩ := fgets_of_splitLines hlines (h line List.mem_cons_self)
      rw [hrest, ← hsplit]
      refine congrArg (line :: ·) (ih (by omega) fun line' hline' => ?_)
      exact h line' (List.mem_cons_of_mem _ (hsplit ▸ hline'))

/-- **The lines of up to 255 bytes are found.** -/
lemma readLines_eq (h : ∀ line ∈ splitLines file, line.length ≤ 255) :
    readLines file = splitLines file := fgetsLoop_eq _ le_rfl h

/-! ## Digits -/

/-- A hexadecimal digit. -/
lemma hexDigit_eq_some {v : ℕ} (h : hexDigit c = some v) :
    v < 16 ∧ (48 ≤ c.toNat ∧ c.toNat ≤ 57 ∨ 65 ≤ c.toNat ∧ c.toNat ≤ 70 ∨
      97 ≤ c.toNat ∧ c.toNat ≤ 102) := by
  simp only [hexDigit, UInt8.le_iff_toNat_le, UInt8.toNat_ofNat] at h
  split_ifs at h with h₁ h₂ h₃ <;> simp only [Option.some.injEq] at h <;> omega

/-- All characters are hexadecimal digits. -/
def AllDigits (text : List UInt8) : Prop := ∀ c ∈ text, (hexDigit c).isSome = true

lemma AllDigits.ne_of_mem (h : AllDigits text) (hc : c ∈ text) :
    c.toNat ≠ 0 ∧ c.toNat ≠ 10 ∧ c.toNat ≠ 13 ∧ c.toNat ≠ 43 ∧ c.toNat ≠ 45 ∧ c.toNat ≠ 88 ∧
      c.toNat ≠ 120 ∧ isSpace c = false := by
  obtain ⟨v, hv⟩ := Option.isSome_iff_exists.mp (h c hc)
  obtain ⟨-, hrange⟩ := hexDigit_eq_some hv
  have hspace : isSpace c = false := by
    simp only [isSpace, UInt8.le_iff_toNat_le, ← UInt8.toNat_inj, UInt8.toNat_ofNat,
      decide_eq_false_iff_not]
    omega
  refine ⟨by omega, by omega, by omega, by omega, by omega, by omega, by omega, hspace⟩

/-- The number of a text of digits. -/
def digitsValue (text : List UInt8) : ℕ :=
  text.foldl (fun n c => 16 * n + (hexDigit c).getD 0) 0

lemma skip0x_eq (h : AllDigits text) : skip0x text = text := by
  unfold skip0x
  split
  · exact absurd rfl (h.ne_of_mem (c := 120) (by simp)).2.2.2.2.2.2.1
  · exact absurd rfl (h.ne_of_mem (c := 88) (by simp)).2.2.2.2.2.1
  · rfl

/-- `strtol` of digits. -/
lemma strtol_eq (h : AllDigits text) : strtol text = digitsValue text := by
  have hdrop : text.dropWhile isSpace = text := by
    cases text with
    | nil => rfl
    | cons c text =>
      have hspace := (h.ne_of_mem List.mem_cons_self).2.2.2.2.2.2.2
      rw [List.dropWhile_cons, hspace]
      rfl
  have htake : text.takeWhile (fun c => (hexDigit c).isSome) = text :=
    List.takeWhile_eq_self_iff.mpr h
  have hvalue : hexValue text = digitsValue text := by rw [hexValue, htake, digitsValue]
  rw [strtol, hdrop]
  split
  · exact absurd rfl (h.ne_of_mem (c := 45) (by simp)).2.2.2.2.1
  · exact absurd rfl (h.ne_of_mem (c := 43) (by simp)).2.2.2.1
  · rw [skip0x_eq h, hvalue]

lemma AllDigits.slice (h : AllDigits text) (off len : ℕ) : AllDigits (slice text off len) :=
  fun c hc => h c (List.mem_of_mem_drop (List.mem_of_mem_take hc))

/-- Two digits a byte. -/
lemma hexBytes_spec (h : hexBytes text = some bytes) :
    text.length = 2 * bytes.length ∧ AllDigits text ∧
      ∀ i b, bytes[i]? = some b → digitsValue (Lib.slice text (2 * i) 2) = b.toNat := by
  induction text using hexBytes.induct generalizing bytes with
  | case1 =>
    rw [hexBytes, Option.some.injEq] at h
    subst h
    exact ⟨rfl, by simp [AllDigits], by simp⟩
  | case2 c => simp [hexBytes] at h
  | case3 high low text ih =>
    simp only [hexBytes, Option.bind_eq_bind, Option.bind_eq_some_iff, Option.some.injEq] at h
    obtain ⟨v, hv, w, hw, rest, hrest, rfl⟩ := h
    obtain ⟨hlength, hall, hvalue⟩ := ih hrest
    obtain ⟨hv16, -⟩ := hexDigit_eq_some hv
    obtain ⟨hw16, -⟩ := hexDigit_eq_some hw
    refine ⟨by simp [hlength]; omega, ?_, fun i b hb => ?_⟩
    · intro c hc
      rcases List.mem_cons.mp hc with rfl | hc
      · rw [hv]
        rfl
      · rcases List.mem_cons.mp hc with rfl | hc
        · rw [hw]
          rfl
        · exact hall c hc
    · cases i with
      | zero =>
        obtain rfl := Option.some.inj hb
        simp only [digitsValue, Lib.slice, Nat.mul_zero, List.drop_zero, List.take_succ_cons,
          List.take_zero, List.foldl_cons, List.foldl_nil, hv, hw, Option.getD_some,
          UInt8.toNat_ofNat']
        omega
      | succ i =>
        have hslice : Lib.slice (high :: low :: text) (2 * (i + 1)) 2 =
            Lib.slice text (2 * i) 2 := by
          simp [Lib.slice, Nat.mul_succ]
        rw [hslice]
        exact hvalue i b hb

/-! ## Records -/

lemma ofInt_natCast (n : ℕ) : UInt8.ofInt n = UInt8.ofNat n := by
  rw [← UInt8.toNat_inj, UInt8.ofInt, UInt8.toNat_ofNat', UInt8.toNat_ofNat']
  omega

/-- Two characters of a record behind the colon. -/
lemma byteAt_eq (h : hexBytes text = some bytes) {i : ℕ} {b : UInt8} (hb : bytes[i]? = some b) :
    byteAt (58 :: text) (1 + 2 * i) = b := by
  obtain ⟨-, hall, hvalue⟩ := hexBytes_spec h
  have hslice : slice (58 :: text) (1 + 2 * i) 2 = slice text (2 * i) 2 := by
    rw [slice, slice, Nat.add_comm, List.drop_succ_cons]
  rw [byteAt, hslice, strtol_eq (hall.slice _ _), hvalue i b hb, ofInt_natCast, UInt8.ofNat_toNat]

lemma slice_digits (h : AllDigits text) {off n : ℕ} :
    AllDigits (slice (58 :: text) (off + 1) n) := by
  rw [slice, List.drop_succ_cons]
  exact h.slice off n

/-- The address, four characters. -/
lemma address_eq {len high low : UInt8} {rest : List UInt8}
    (h : hexBytes text = some (len :: high :: low :: rest)) :
    UInt16.ofInt (strtol (slice (58 :: text) 3 4)) = UInt16.ofNat (ofBE [high, low]) := by
  obtain ⟨-, hall, hvalue⟩ := hexBytes_spec h
  have hslice : slice (58 :: text) 3 4 = slice text (2 * 1) 2 ++ slice text (2 * 2) 2 := by
    rw [slice_append_slice]
    rfl
  have hhigh := hvalue 1 high rfl
  have hlow := hvalue 2 low rfl
  have hlength : (slice text (2 * 2) 2).length = 2 := by
    obtain ⟨hlen, -⟩ := hexBytes_spec h
    refine length_slice ?_
    rw [hlen]
    simp
    omega
  have hvalues : digitsValue (slice text (2 * 1) 2 ++ slice text (2 * 2) 2) =
      ofBE [high, low] := by
    obtain ⟨c, d, hcd⟩ := List.length_eq_two.mp hlength
    rw [hcd] at hlow ⊢
    rw [digitsValue, List.foldl_append, ← digitsValue, hhigh]
    simp only [digitsValue, List.foldl_cons, List.foldl_nil] at hlow ⊢
    simp only [ofBE, List.foldl_cons, List.foldl_nil]
    omega
  rw [strtol_eq (slice_digits hall), hslice, hvalues, ← UInt16.toNat_inj, UInt16.ofInt,
    UInt16.toNat_ofNat', UInt16.toNat_ofNat']
  omega

/-- The end of a line that `stripEol` takes away. -/
lemma stripEol_append (line : List UInt8) :
    line = stripEol line ∨ line = stripEol line ++ [10] ∨ line = stripEol line ++ [13, 10] := by
  rw [stripEol]
  split_ifs with hlf hcr
  · right; right
    have h₁ := List.dropLast_append_getLast? 10 hlf
    have h₂ := List.dropLast_append_getLast? 13 hcr
    rw [← h₂] at h₁
    simpa using h₁.symm
  · right; left
    exact (List.dropLast_append_getLast? 10 hlf).symm
  · exact Or.inl rfl

/-- `strlen` of a line of digits. -/
lemma takeWhile_ne_zero (hline : stripEol line = 58 :: text) (hall : AllDigits text) :
    line.takeWhile (· ≠ 0) = line := by
  refine List.takeWhile_eq_self_iff.mpr fun c hc => decide_eq_true ?_
  have hstrip : ∀ c ∈ stripEol line, c ≠ 0 := by
    intro c hc
    rw [hline] at hc
    rcases List.mem_cons.mp hc with rfl | hc
    · decide
    · rintro rfl
      exact (hall.ne_of_mem hc).1 rfl
  rcases stripEol_append line with h | h | h
  · exact hstrip c (h ▸ hc)
  · rw [h] at hc
    rcases List.mem_append.mp hc with hc | hc
    · exact hstrip c hc
    · rw [List.mem_singleton.mp hc]
      decide
  · rw [h] at hc
    rcases List.mem_append.mp hc with hc | hc
    · exact hstrip c hc
    · simp only [List.mem_cons, List.not_mem_nil, or_false] at hc
      rcases hc with rfl | rfl <;> decide

/-- What a record consists of. -/
lemma parseRecord_eq_some {r : HexRecord} (h : parseRecord line = some r) :
    ∃ text len high low type rest, stripEol line = 58 :: text ∧
      hexBytes text = some (len :: high :: low :: type :: rest) ∧
      rest.length = len.toNat + 1 ∧ len + high + low + type + rest.sum = 0 ∧
      r = ⟨UInt16.ofNat (ofBE [high, low]), type, rest.dropLast⟩ := by
  unfold parseRecord at h
  split at h
  · rename_i text hline
    split at h
    · rename_i len high low type rest hbytes
      split_ifs at h with hok
      exact ⟨text, len, high, low, type, rest, hline, hbytes, hok.1, hok.2,
        (Option.some.inj h).symm⟩
    · cases h
  · cases h

lemma head_of_stripEol (hline : stripEol line = 58 :: text) :
    (58 :: text).length ≤ line.length ∧ line.head? = some 58 := by
  rcases stripEol_append line with h | h | h <;> rw [h, hline]
  · exact ⟨le_rfl, rfl⟩
  · exact ⟨by simp, rfl⟩
  · exact ⟨by simp, rfl⟩

/-- The check code is the last of the bytes behind the type. -/
lemma sum_eq_of_last {rest : List UInt8} {n : ℕ} {last : UInt8} (hrest : rest.length = n + 1)
    (hlast : rest[n]? = some last) : rest.sum = rest.dropLast.sum + last := by
  have hsplit : rest = rest.dropLast ++ [last] := by
    have hget := List.getLast?_eq_getElem? (l := rest)
    rw [show rest.length - 1 = n by omega, hlast] at hget
    exact (List.dropLast_append_getLast? last hget).symm
  conv_lhs => rw [hsplit]
  simp

/-- The bytes in front of the check code are the payload. -/
lemma payload_eq {len high low type : UInt8} {rest : List UInt8} {n : ℕ}
    (h : hexBytes text = some (len :: high :: low :: type :: rest)) (hrest : rest.length = n + 1) :
    (List.range n).map (fun i => byteAt (58 :: text) (9 + 2 * i)) = rest.dropLast := by
  refine List.ext_getElem? fun i => ?_
  rw [List.getElem?_map, List.dropLast_eq_take, hrest]
  by_cases hi : i < n
  · obtain ⟨b, hb⟩ : ∃ b, rest[i]? = some b := ⟨_, List.getElem?_eq_getElem (by omega)⟩
    have hbyte : byteAt (58 :: text) (1 + 2 * (i + 4)) = b := byteAt_eq h hb
    rw [List.getElem?_range hi, List.getElem?_take_of_lt (by omega), Option.map_some, hb,
      show 9 + 2 * i = 1 + 2 * (i + 4) by omega, hbyte]
  · rw [List.getElem?_eq_none (by simpa using hi), List.getElem?_take_eq_none (by omega)]
    rfl

/-- The two bytes of the address. -/
lemma address_bytes (high low : UInt8) :
    UInt8.ofNat ((UInt16.ofNat (ofBE [high, low])).toNat / 2 ^ 8) = high ∧
      UInt8.ofNat ((UInt16.ofNat (ofBE [high, low])).toNat % 2 ^ 8) = low := by
  have hhigh := high.toNat_lt
  have hlow := low.toNat_lt
  have haddress : (UInt16.ofNat (ofBE [high, low])).toNat = 256 * high.toNat + low.toNat := by
    simp only [ofBE, List.foldl_cons, List.foldl_nil, UInt16.toNat_ofNat']
    omega
  rw [haddress, show (256 * high.toNat + low.toNat) / 2 ^ 8 = high.toNat by omega,
    show (256 * high.toNat + low.toNat) % 2 ^ 8 = low.toNat by omega]
  exact ⟨UInt8.ofNat_toNat, UInt8.ofNat_toNat⟩

/-- **A record is decoded.** -/
lemma decodeLine_of_parseRecord {r : HexRecord} (h : parseRecord line = some r) :
    decodeLine line = some r := by
  obtain ⟨text, len, high, low, type, rest, hline, hbytes, hrest, hsum, rfl⟩ :=
    parseRecord_eq_some h
  obtain ⟨hlength, hall, -⟩ := hexBytes_spec hbytes
  have htext : (58 :: text).length = 1 + 2 + 4 + 2 + len.toNat * 2 + 2 := by
    rw [List.length_cons, hlength]
    simp only [List.length_cons, hrest]
    omega
  obtain ⟨hle, hhead⟩ := head_of_stripEol hline
  obtain ⟨last, hlast⟩ : ∃ last, rest[len.toNat]? = some last :=
    ⟨_, List.getElem?_eq_getElem (by omega)⟩
  have hlen : byteAt (58 :: text) 1 = len := byteAt_eq (i := 0) hbytes rfl
  have htype : byteAt (58 :: text) 7 = type := byteAt_eq (i := 3) hbytes rfl
  have hcode : byteAt (58 :: text) (9 + 2 * len.toNat) = last := by
    have hbyte : byteAt (58 :: text) (1 + 2 * (len.toNat + 4)) = last := byteAt_eq hbytes hlast
    rw [show 9 + 2 * len.toNat = 1 + 2 * (len.toNat + 4) by omega, hbyte]
  obtain ⟨hhigh, hlow⟩ := address_bytes high low
  have hcheck : last + len + high + low + type + rest.dropLast.sum = 0 := by
    rw [← hsum, sum_eq_of_last hrest hlast]
    grind
  simp only [decodeLine, takeWhile_ne_zero hline hall, hline]
  rw [if_neg (by rw [not_or, not_not]; exact ⟨by omega, hhead⟩), if_neg (by rw [htext]; omega),
    hlen, if_neg (not_not.mpr htext), address_eq hbytes, htype, payload_eq hbytes hrest, hcode,
    hhigh, hlow, if_neg (not_not.mpr hcheck)]

end SignalEventLoop.Device
