/-
# Reading any range of a HEX file

`readData` computes the end of the range, and the end of every record, as a `uint32_t`.  A record
whose last byte is the last one of the address space ends at 0; it is lost when it begins before
the range, and when it begins in the range the copy leaves its block.  A range that ends at the
end of the address space ends at 0 as well: then the only records that are not taken for misses
are those that begin before the range and reach it, and the number of bytes that is copied of
them is the length of the range.
-/
import SignalEventLoop.Device.HexLoad

namespace SignalEventLoop.Device

open Lib

variable {start len d : ℕ} {s : HexState} {ws : List (ℕ × List UInt8)} {w : ℕ × List UInt8}
  {payload : List UInt8}

/-- The record begins before the range and ends where the range begins, or behind. -/
def Reaches (start : ℕ) (w : ℕ × List UInt8) : Prop :=
  w.1 < start ∧ start ≤ w.1 + w.2.length

instance decidableReaches (start : ℕ) (w : ℕ × List UInt8) : Decidable (Reaches start w) :=
  inferInstanceAs (Decidable (_ ∧ _))

/-- The record is not taken for a miss. -/
def Meets (start len : ℕ) (w : ℕ × List UInt8) : Prop :=
  InSpace w ∧
    if start + len < 2 ^ 32 then w.1 ≤ start + len ∧ start ≤ w.1 + w.2.length else Reaches start w

/-- The copy of the record stays in its blocks. -/
def StaysInside (start len : ℕ) (w : ℕ × List UInt8) : Prop :=
  if start + len < 2 ^ 32 then start ≤ w.1 → w.1 ≤ start + len → InSpace w
  else InSpace w → Reaches start w → start + len ≤ w.1 + w.2.length + 1

instance decidableMeets (start len : ℕ) (w : ℕ × List UInt8) : Decidable (Meets start len w) :=
  inferInstanceAs (Decidable (InSpace w ∧ if start + len < 2 ^ 32 then
    w.1 ≤ start + len ∧ start ≤ w.1 + w.2.length else Reaches start w))

instance decidableStaysInside (start len : ℕ) (w : ℕ × List UInt8) :
    Decidable (StaysInside start len w) :=
  inferInstanceAs (Decidable (if start + len < 2 ^ 32 then
    start ≤ w.1 → w.1 ≤ start + len → InSpace w
    else InSpace w → Reaches start w → start + len ≤ w.1 + w.2.length + 1))

/-- The record with the byte that its block has behind it. -/
def zeroEnded (w : ℕ × List UInt8) : ℕ × List UInt8 := (w.1, w.2 ++ [0])

/-- The writes that `readData` places in a range. -/
def placedWrites (start len : ℕ) (ws : List (ℕ × List UInt8)) : List (ℕ × List UInt8) :=
  if start + len < 2 ^ 32 then ws.filter InSpace
  else (ws.filter fun w => InSpace w ∧ Reaches start w).map zeroEnded

/-- What `readData` leaves at an address of the range. -/
def placedImage (start len : ℕ) (ws : List (ℕ × List UInt8)) : ℕ → Option UInt8 :=
  image (placedWrites start len ws)

lemma placedImage_of_lt (hroom : start + len < 2 ^ 32) :
    placedImage start len ws = seenImage ws := by
  rw [placedImage, placedWrites, if_pos hroom, seenImage]

lemma exists_mem_concat {P : ℕ × List UInt8 → Prop} :
    (∃ v ∈ ws ++ [w], P v) ↔ (∃ v ∈ ws, P v) ∨ P w := by
  simp only [List.mem_append, List.mem_singleton, or_and_right, exists_or, exists_eq_left]

/-! ## A range whose end wraps around -/

/-- The records that count when the end of the range wraps around. -/
def reaching (start : ℕ) (ws : List (ℕ × List UInt8)) : List (ℕ × List UInt8) :=
  ws.filter fun w => InSpace w ∧ Reaches start w

lemma mem_reaching : w ∈ reaching start ws ↔ w ∈ ws ∧ InSpace w ∧ Reaches start w := by
  rw [reaching, List.mem_filter, decide_eq_true_iff]

lemma placedWrites_of_le (hwrap : 2 ^ 32 ≤ start + len) :
    placedWrites start len ws = (reaching start ws).map zeroEnded := if_neg (by omega)

lemma placedImage_of_le (hwrap : 2 ^ 32 ≤ start + len) :
    placedImage start len ws = image ((reaching start ws).map zeroEnded) := by
  rw [placedImage, placedWrites_of_le hwrap]

/-- The range holds the image of the records that reach it, and `ret` tells whether there is
one. -/
structure WrapInv (start len : ℕ) (s : HexState) (ws : List (ℕ × List UInt8)) : Prop where
  window : Window start len 0 ((reaching start ws).map zeroEnded) s.buf s.flag
  length_buf : s.buf.length = len + 1
  length_flag : s.flag.length = len
  ret_pos : 0 < s.ret ↔ ∃ w ∈ ws, InSpace w ∧ Reaches start w

lemma WrapInv.miss (h : WrapInv start len s ws) (hw : ¬ (InSpace w ∧ Reaches start w)) :
    WrapInv start len s (ws ++ [w]) := by
  have hsame : reaching start (ws ++ [w]) = reaching start ws := by
    rw [reaching, List.filter_append, List.filter_singleton, decide_eq_false hw]
    exact List.append_nil _
  refine ⟨?_, h.length_buf, h.length_flag, ?_⟩
  · rw [hsame]
    exact h.window
  · rw [exists_mem_concat, h.ret_pos, or_iff_left hw]

/-- Bytes that are as many as the range is long are copied to its beginning. -/
lemma WrapInv.copy (h : WrapInv start len s ws) (hin : InSpace (d, payload))
    (hw : Reaches start (d, payload)) (hlong : start + len ≤ d + payload.length + 1) :
    ∃ s', s.copy 0 (load (payload ++ [0]) (start - d) len) = some s' ∧
      WrapInv start len s' (ws ++ [(d, payload)]) ∧
      s'.find_LINEAR_ADDR = s.find_LINEAR_ADDR ∧
      s'.last_ex_linear_addr = s.last_ex_linear_addr := by
  have hd : d < start := hw.1
  have hroom : start - d + len ≤ (payload ++ [0]).length := by
    rw [List.length_append, List.length_singleton]
    omega
  have hlength := length_slice hroom
  obtain ⟨buf, hstore⟩ : ∃ buf, store s.buf 0 (slice (payload ++ [0]) (start - d) len) = some buf :=
    exists_store (by rw [hlength, h.length_buf]; omega)
  obtain ⟨flag, hstore'⟩ : ∃ flag, store s.flag 0
      (List.replicate (slice (payload ++ [0]) (start - d) len).length true) = some flag :=
    exists_store (by rw [List.length_replicate, hlength, h.length_flag]; omega)
  have hnew : reaching start (ws ++ [(d, payload)]) = reaching start ws ++ [(d, payload)] := by
    rw [reaching, List.filter_append, List.filter_singleton, decide_eq_true ⟨hin, hw⟩]
    rfl
  refine ⟨{ s with buf := buf, flag := flag, ret := 1 }, ?_, ⟨?_, ?_, ?_, ?_⟩, rfl, rfl⟩
  · simp [HexState.copy, load_eq_some.mpr ⟨hroom, rfl⟩, hstore, hstore']
  · rw [hnew, List.map_append]
    refine h.window.hit (fun i hi => ?_) hstore hstore'
    have hi' : i < 0 + (slice (payload ++ [0]) (start - d) len).length := by omega
    rw [if_pos ⟨Nat.zero_le i, hi'⟩, writeAt_of_le (by simp only [zeroEnded]; omega),
      Nat.sub_zero, getElem?_slice hi]
    simp only [zeroEnded]
    congr 1
    omega
  · rw [length_of_store hstore, h.length_buf]
  · rw [length_of_store hstore', h.length_flag]
  · rw [exists_mem_concat]
    simp [hin, hw]

/-- A record that reaches the range is no miss, and the length of the range is copied. -/
lemma copyData_wrapped (hstart : start < 2 ^ 32) (hlen : len < 2 ^ 32)
    (hwrap : 2 ^ 32 ≤ start + len) (hd : d < 2 ^ 32) (hpayload : payload.length < 256) :
    s.copyData start (start + len - 2 ^ 32) d payload =
      if InSpace (d, payload) ∧ Reaches start (d, payload) then
        s.copy 0 (load (payload ++ [0]) (start - d) len)
      else some s := by
  have hreach : Reaches start (d, payload) ↔ d < start ∧ start ≤ d + payload.length := Iff.rfl
  have hspace : InSpace (d, payload) ↔ d + payload.length < 2 ^ 32 := Iff.rfl
  simp only [HexState.copyData, hreach, hspace]
  by_cases hin : d + payload.length < 2 ^ 32
  · rw [Nat.mod_eq_of_lt hin]
    by_cases hbefore : d < start
    · rw [if_pos hbefore]
      by_cases hmiss : d + payload.length < start
      · rw [if_pos hmiss, if_neg (by omega)]
      · have hcopy : (2 ^ 32 + (start + len - 2 ^ 32) - start) % 2 ^ 32 = len := by omega
        rw [if_neg hmiss, if_neg (by omega), hcopy, if_pos (by omega)]
    · rw [if_neg hbefore, if_pos (by omega), if_neg (by omega)]
  · -- the end of the record wraps around as well
    have hend : (d + payload.length) % 2 ^ 32 = d + payload.length - 2 ^ 32 := by omega
    rw [hend]
    by_cases hbefore : d < start
    · rw [if_pos hbefore, if_pos (by omega), if_neg (by omega)]
    · rw [if_neg hbefore, if_pos (by omega), if_neg (by omega)]

lemma places_wrapInv (hstart : start < 2 ^ 32) (hlen : len < 2 ^ 32)
    (hwrap : 2 ^ 32 ≤ start + len) :
    Places start (start + len - 2 ^ 32) (fun _ => True)
      (fun w => InSpace w → Reaches start w → start + len ≤ w.1 + w.2.length + 1)
      (WrapInv start len) := by
  refine ⟨?_, ?_, ?_⟩
  · intro s s' ws h hbuf hflag hret
    exact ⟨hbuf ▸ hflag ▸ h.window, hbuf ▸ h.length_buf, hflag ▸ h.length_flag, hret ▸ h.ret_pos⟩
  · intro s ws d payload h hd hpayload _ hok
    rw [copyData_wrapped hstart hlen hwrap hd hpayload]
    split_ifs with hmeets
    · exact h.copy hmeets.1 hmeets.2 (hok hmeets.1 hmeets.2)
    · exact ⟨s, rfl, h.miss hmeets, rfl, rfl⟩
  · intro s ws d payload h hd hpayload _ hnot
    simp only [Classical.not_imp] at hnot
    obtain ⟨hin, hreach, hshort⟩ := hnot
    have hload : load (payload ++ [0]) (start - d) len = none := by
      rw [load, if_neg]
      rw [List.length_append, List.length_singleton]
      have := hreach.1
      dsimp only at this hshort
      omega
    rw [copyData_wrapped hstart hlen hwrap hd hpayload, if_pos ⟨hin, hreach⟩, hload]
    rfl

/-! ## Any range -/

/-- The buffer holds the image, or 0, and the length is that of the longest beginning of the range
that is defined. -/
structure Shows (start len : ℕ) (im : ℕ → Option UInt8) (buf : List UInt8) (n : ℕ) : Prop where
  buf_eq : ∀ i < len, buf[i]? = some ((im (start + i)).getD 0)
  le : n ≤ len
  lt_iff : ∀ i < len, i < n ↔ ∀ j ≤ i, im (start + j) ≠ none

lemma shows_of_window {ws : List (ℕ × List UInt8)} {buf : List UInt8} {flag : List Bool}
    (h : Window start len 0 ws buf flag) (hlen : flag.length = len) :
    Shows start len (image ws) buf (flag.takeWhile id).length where
  buf_eq := h.mem_eq
  le := hlen ▸ (List.takeWhile_prefix _).length_le
  lt_iff i hi := by
    rw [h.lt_takeWhile_iff hi]
    simp only [Option.isSome_iff_ne_none]

/-- **What `readData` does with any range**: it stays in its blocks exactly when every record
does, it returns a value greater than 0 when a record is not taken for a miss, and it leaves the
image of the writes that it places. -/
lemma readData_range (file : List UInt8) (hstart : start < 2 ^ 32) (hlen : len < 2 ^ 32) :
    ((∀ w ∈ fileWrites file, StaysInside start len w) →
      ∃ ret buf n, readData file start len = some (ret, buf, n) ∧
        (0 < ret ↔ ∃ w ∈ fileWrites file, Meets start len w) ∧
        Shows start len (placedImage start len (fileWrites file)) buf n) ∧
    ((¬ ∀ w ∈ fileWrites file, StaysInside start len w) → readData file start len = none) := by
  by_cases hroom : start + len < 2 ^ 32
  · simp only [StaysInside, Meets, if_pos hroom, placedImage_of_lt hroom]
    obtain ⟨hok, hnot⟩ := readData_inv file hroom
    refine ⟨fun h => ?_, hnot⟩
    obtain ⟨s', hread, hinv⟩ := hok h
    exact ⟨_, _, _, hread, hinv.ret_pos, shows_of_window hinv.window hinv.length_flag⟩
  · have hwrap : 2 ^ 32 ≤ start + len := not_lt.mp hroom
    have hinit : WrapInv start len
        ⟨false, 0, List.replicate (len + 1) 0, List.replicate len false, -1⟩ [] :=
      ⟨Window.empty start len 0 (len + 1) (by omega), List.length_replicate,
        List.length_replicate, by simp⟩
    obtain ⟨hok, hnot⟩ := (places_wrapInv hstart hlen hwrap).readLoop (readLines file) hinit
      (show BaseIs _ none from rfl) fun _ _ => trivial
    have hmod : (start + len) % 2 ^ 32 = start + len - 2 ^ 32 := by omega
    simp only [StaysInside, Meets, if_neg hroom, placedImage_of_le hwrap]
    rw [readData, hmod]
    refine ⟨fun h => ?_, fun h => by rw [hnot h, Option.map_none]⟩
    obtain ⟨s', hs', hinv⟩ := hok h
    rw [List.nil_append] at hinv
    exact ⟨_, _, _, by rw [hs', Option.map_some], hinv.ret_pos,
      shows_of_window hinv.window hinv.length_flag⟩

end SignalEventLoop.Device
