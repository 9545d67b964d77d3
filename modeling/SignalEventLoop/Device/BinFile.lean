/-
# The product information in a binary file

`UpdateFileContext::checkBinFile` (`imp/device-update/update-file.cpp`) looks for a key in a file
through a window of 128 bytes.  When the key is not in the window, the last 31 bytes go to the
front of the next one.  When it is, the bytes of the window behind it go to the front, and the
rest of the 96 bytes of the information is read behind them.

The windows miss nothing: they find the first occurrence of the key in the file, and the bytes
that follow it.
-/
import SignalEventLoop.Device.SoftwareCheck
import SignalEventLoop.Lib.Scan

namespace SignalEventLoop.Device

open Lib

namespace BinFile

/-! ## Model -/

def key : List UInt8 := text "AAM_PRODUCT_INFORMATION" ++ List.replicate 9 0

/-- `sizeof(key)` -/
def KEY_SIZE : ℕ := 32

/-- `sizeof(buffer)` -/
def BUFFER_SIZE : ℕ := 128

/-- `sizeof(Information)` -/
def INFORMATION_SIZE : ℕ := 96

/-- `fread` at a position of the file: the bytes that are there. -/
def fread (file : List UInt8) (pos n : ℕ) : List UInt8 := slice file pos n

/-- `memmove(buffer, buffer + src, n)` -/
def memmove (buffer : List UInt8) (src n : ℕ) : Option (List UInt8) :=
  (load buffer src n).bind (store buffer 0)

/-- The loops over `i` and `j`. -/
@[irreducible]
def findKey (buffer : List UInt8) (max_i : ℕ) : Option ℕ :=
  (List.range max_i).find? fun i => slice buffer i KEY_SIZE = key

/-- The key is at `i`: the buffer with the information, or `none` when the file is too short. -/
def readInformation (file : List UInt8) (pos : ℕ) (buffer : List UInt8) (data_length i : ℕ) :
    Option (Option (List UInt8)) :=
  let offset := data_length - i - KEY_SIZE
  (if offset = 0 then some buffer else memmove buffer (i + KEY_SIZE) offset).bind fun buffer =>
    let data := fread file pos (INFORMATION_SIZE - offset)
    (store buffer offset data).map fun buffer =>
      if data.length + offset < INFORMATION_SIZE then none else some buffer

/-- The loop over the windows, behind the position `pos` of the file.  The result is the buffer
at `FOUND`, or `none` for the return of -1; there is no result when the buffer is left or the fuel
is used up. -/
def windowLoop (file : List UInt8) : ℕ → ℕ → List UInt8 → ℕ → Option (Option (List UInt8))
  | 0, _, _, _ => none
  | fuel + 1, pos, buffer, offset =>
    let data := fread file pos (BUFFER_SIZE - offset)
    (store buffer offset data).bind fun buffer =>
      let data_length := data.length + offset
      if data_length < BUFFER_SIZE then some none
      else
        let max_i := data_length - KEY_SIZE + 1
        match findKey buffer max_i with
        | some i => readInformation file (pos + data.length) buffer data_length i
        | none => (memmove buffer max_i (KEY_SIZE - 1)).bind fun buffer =>
          windowLoop file fuel (pos + data.length) buffer (KEY_SIZE - 1)

/-- The comparisons behind `FOUND`; the strings of the information lie one behind the other. -/
def compareInformation (force_update : Bool) (p_info version product date : List UInt8) :
    Option ℤ :=
  (readCString p_info 32).bind fun info_product =>
    if product ≠ info_product then some (if force_update then 1 else -1)
    else
      (readCString p_info 0).bind fun info_version =>
        if version ≠ info_version then some 1
        else (readCString p_info 64).map fun info_date => if date = info_date then 0 else 1

/-- `UpdateFileContext::checkBinFile`; `buffer` is what the array holds at the beginning. -/
def checkBinFile (force_update : Bool) (file buffer version product date : List UInt8) :
    Option ℤ :=
  (windowLoop file (file.length + 1) 0 buffer 0).bind fun
    | none => some (-1)
    | some p_info => compareInformation force_update p_info version product date

/-! ## What is looked for -/

/-- The bytes behind the first occurrence of the key in the whole file. -/
def informationAt (file : List UInt8) : Option (List UInt8) :=
  (search key file).bind fun p =>
    if p + KEY_SIZE + INFORMATION_SIZE ≤ file.length then
      some (slice file (p + KEY_SIZE) INFORMATION_SIZE)
    else none

/-- The search came to the information, or returned -1 when there is none. -/
def Finds (file : List UInt8) (found : Option (List UInt8)) : Prop :=
  match informationAt file with
  | some info => ∃ p_info, found = some p_info ∧ p_info.length = BUFFER_SIZE ∧
      p_info.take INFORMATION_SIZE = info
  | none => found = none

variable {file buffer buffer' : List UInt8} {start offset i p : ℕ}

lemma length_key : key.length = KEY_SIZE := by decide

lemma slice_eq_key : slice file p KEY_SIZE = key ↔ key <+: file.drop p := by
  rw [List.prefix_iff_eq_take, length_key, slice, eq_comm]

lemma finds_of_key (hp : key <+: file.drop p) (hfirst : ∀ j < p, ¬ key <+: file.drop j)
    {found : Option (List UInt8)}
    (h : if p + KEY_SIZE + INFORMATION_SIZE ≤ file.length then
        ∃ p_info, found = some p_info ∧ p_info.length = BUFFER_SIZE ∧
          p_info.take INFORMATION_SIZE = slice file (p + KEY_SIZE) INFORMATION_SIZE
      else found = none) : Finds file found := by
  rw [Finds, informationAt, search_eq_some_iff.mpr ⟨hp, hfirst⟩, Option.bind_some]
  split_ifs at h with hle
  · rwa [if_pos hle]
  · rwa [if_neg hle]

/-- No key begins before `start`, and behind it there is no room for the information. -/
lemma finds_none (hfirst : ∀ j < start, ¬ key <+: file.drop j)
    (hshort : file.length < start + KEY_SIZE + INFORMATION_SIZE) : Finds file none := by
  have hnone : informationAt file = none := by
    rw [informationAt, Option.bind_eq_none_iff]
    intro p hp
    have hstart : start ≤ p := by
      by_contra hlt
      exact hfirst p (by omega) (search_eq_some_iff.mp hp).1
    rw [if_neg (by omega)]
  rw [Finds, hnone]

/-! ## One window -/

/-- The window begins at `start`, `offset` bytes of it are carried over, and no key begins before
it. -/
structure Window (file : List UInt8) (start offset : ℕ) (buffer : List UInt8) : Prop where
  length_buffer : buffer.length = BUFFER_SIZE
  offset_lt : offset < KEY_SIZE
  inside : start + offset ≤ file.length
  carried : buffer.take offset = slice file start offset
  missed : ∀ j < start, ¬ key <+: file.drop j

/-- The same for some more positions. -/
lemma Window.missed_add (h : Window file start offset buffer) {n : ℕ}
    (hnone : ∀ j < n, ¬ key <+: file.drop (start + j)) :
    ∀ j < start + n, ¬ key <+: file.drop j := by
  intro j hj
  by_cases hlt : j < start
  · exact h.missed j hlt
  · have hnot := hnone (j - start) (by omega)
    rwa [Nat.add_sub_cancel' (by omega)] at hnot

/-- A part of the buffer goes to the front. -/
lemma exists_memmove {src n : ℕ} (hsrc : src + n ≤ buffer.length) :
    ∃ moved, memmove buffer src n = some moved ∧ moved.length = buffer.length ∧
      moved.take n = slice buffer src n := by
  have hload : load buffer src n = some (slice buffer src n) := load_eq_some.mpr ⟨hsrc, rfl⟩
  have hlen : (slice buffer src n).length = n := length_slice hsrc
  obtain ⟨moved, hstore⟩ : ∃ moved, store buffer 0 (slice buffer src n) = some moved :=
    exists_store (by omega)
  refine ⟨moved, by rw [memmove, hload, Option.bind_some, hstore], length_of_store hstore, ?_⟩
  rw [← take_of_store_zero hstore, hlen]

lemma length_fread (file : List UInt8) (pos n : ℕ) :
    (fread file pos n).length = min n (file.length - pos) := by
  rw [fread, slice, List.length_take, List.length_drop]

/-- The window is filled from the file. -/
lemma Window.store (h : Window file start offset buffer) :
    ∃ buffer', store buffer offset (fread file (start + offset) (BUFFER_SIZE - offset)) =
        some buffer' ∧
      (start + BUFFER_SIZE ≤ file.length → buffer' = slice file start BUFFER_SIZE) := by
  have hlt := h.offset_lt
  have hlength := h.length_buffer
  rw [KEY_SIZE] at hlt
  rw [BUFFER_SIZE] at hlength ⊢
  have hle : offset + (fread file (start + offset) (128 - offset)).length ≤ buffer.length := by
    rw [length_fread, hlength]
    omega
  refine ⟨_, store_eq_some.mpr ⟨hle, rfl⟩, fun hroom => ?_⟩
  have hfull : offset + (fread file (start + offset) (128 - offset)).length = buffer.length := by
    rw [length_fread, hlength]
    omega
  rw [hfull, List.drop_length, List.append_nil, h.carried, fread, slice_append_slice,
    Nat.add_sub_cancel' (by omega)]

/-- Where the key is found in the window, it is found in the file. -/
lemma findKey_window (file : List UInt8) (start : ℕ) {max_i : ℕ}
    (hmax : max_i + KEY_SIZE = BUFFER_SIZE + 1) :
    match findKey (slice file start BUFFER_SIZE) max_i with
    | some i => i < max_i ∧ key <+: file.drop (start + i) ∧
        ∀ j < i, ¬ key <+: file.drop (start + j)
    | none => ∀ j < max_i, ¬ key <+: file.drop (start + j) := by
  have hkey : ∀ j < max_i, slice (slice file start BUFFER_SIZE) j KEY_SIZE = key ↔
      key <+: file.drop (start + j) := by
    intro j hj
    rw [slice_slice (by omega), slice_eq_key]
  cases hfind : findKey (slice file start BUFFER_SIZE) max_i with
  | some i =>
    rw [findKey] at hfind
    obtain ⟨hi, hmem, hbefore⟩ := List.find?_range_eq_some.mp hfind
    have hlt := List.mem_range.mp hmem
    refine ⟨hlt, (hkey i hlt).mp (of_decide_eq_true hi), fun j hj hprefix => ?_⟩
    have hnot := hbefore j hj
    rw [(hkey j (hj.trans hlt)).mpr hprefix] at hnot
    simp at hnot
  | none =>
    rw [findKey] at hfind
    intro j hj hprefix
    have hnot := List.find?_range_eq_none.mp hfind j hj
    rw [(hkey j hj).mpr hprefix] at hnot
    simp at hnot

/-- The rest of the information is read behind the window. -/
lemma readInformation_window (hroom : start + BUFFER_SIZE ≤ file.length)
    (hi : i + KEY_SIZE ≤ BUFFER_SIZE) :
    ∃ found, readInformation file (start + BUFFER_SIZE) (slice file start BUFFER_SIZE) BUFFER_SIZE i
        = some found ∧
      if start + i + KEY_SIZE + INFORMATION_SIZE ≤ file.length then
        ∃ p_info, found = some p_info ∧ p_info.length = BUFFER_SIZE ∧
          p_info.take INFORMATION_SIZE = slice file (start + i + KEY_SIZE) INFORMATION_SIZE
      else found = none := by
  set window := slice file start BUFFER_SIZE with hwindow
  have hlength : window.length = BUFFER_SIZE := length_slice hroom
  rw [BUFFER_SIZE, KEY_SIZE] at *
  rw [INFORMATION_SIZE, readInformation, KEY_SIZE, INFORMATION_SIZE]
  set offset := 128 - i - 32 with hoffset
  -- the bytes behind the key are at the front
  obtain ⟨moved, hmoved, hmovedLength, hfront⟩ : ∃ moved,
      (if offset = 0 then some window else memmove window (i + 32) offset) = some moved ∧
        moved.length = 128 ∧ moved.take offset = slice file (start + i + 32) offset := by
    by_cases hzero : offset = 0
    · refine ⟨window, by rw [if_pos hzero], hlength, ?_⟩
      rw [hzero, List.take_zero, slice_zero_len]
    · obtain ⟨moved, hmoved, hmovedLength, hfront⟩ :=
        exists_memmove (show i + 32 + offset ≤ window.length by omega)
      refine ⟨moved, by rw [if_neg hzero, hmoved], hmovedLength.trans hlength, ?_⟩
      rw [hfront, hwindow, slice_slice (by omega), ← Nat.add_assoc]
  have hrest : 96 - offset = i := by omega
  obtain ⟨p_info, hstore⟩ : ∃ p_info, store moved offset (fread file (start + 128) i) =
      some p_info := by
    refine exists_store ?_
    rw [length_fread]
    omega
  dsimp only
  rw [hmoved, Option.bind_some, hrest, hstore, Option.map_some]
  refine ⟨_, rfl, ?_⟩
  have hread := length_fread file (start + 128) i
  split_ifs with hle hshort
  · omega
  · refine ⟨p_info, rfl, (length_of_store hstore).trans hmovedLength, ?_⟩
    have htake := take_of_store hstore
    have hend : start + 128 = start + i + 32 + offset := by omega
    rw [hread, min_eq_left (by omega), hfront, fread, hend, slice_append_slice] at htake
    rwa [show offset + i = 96 by omega] at htake
  · rfl
  · omega

/-! ## All windows -/

/-- The last bytes of the window go to the front of the next one. -/
lemma Window.next (h : Window file start offset buffer) (hroom : start + BUFFER_SIZE ≤ file.length)
    (hnone : ∀ j < 97, ¬ key <+: file.drop (start + j)) :
    ∃ buffer', memmove (slice file start BUFFER_SIZE) 97 (KEY_SIZE - 1) = some buffer' ∧
      Window file (start + 97) (KEY_SIZE - 1) buffer' := by
  set window := slice file start BUFFER_SIZE with hwindow
  have hlength : window.length = BUFFER_SIZE := length_slice hroom
  obtain ⟨buffer', hmoved, hmovedLength, hfront⟩ :=
    exists_memmove (show 97 + (KEY_SIZE - 1) ≤ window.length by rw [hlength, KEY_SIZE, BUFFER_SIZE])
  rw [BUFFER_SIZE] at hroom
  refine ⟨buffer', hmoved, hmovedLength.trans hlength, by decide, ?_, ?_, h.missed_add hnone⟩
  · rw [KEY_SIZE]
    omega
  · rw [hfront, hwindow, slice_slice (by decide)]

/-- **The windows find what there is to find.** -/
theorem windowLoop_finds (h : Window file start offset buffer) {fuel : ℕ}
    (hfuel : file.length < fuel + start) :
    ∃ found, windowLoop file fuel (start + offset) buffer offset = some found ∧
      Finds file found := by
  induction fuel generalizing start offset buffer with
  | zero =>
    have := h.inside
    omega
  | succ fuel ih =>
    obtain ⟨filled, hstore, hfilled⟩ := h.store
    have hoffset := h.offset_lt
    have hinside := h.inside
    have hread := length_fread file (start + offset) (BUFFER_SIZE - offset)
    rw [windowLoop]
    dsimp only
    rw [hstore, Option.bind_some]
    rw [KEY_SIZE] at hoffset
    by_cases hroom : start + BUFFER_SIZE ≤ file.length
    · have hfull : (fread file (start + offset) (BUFFER_SIZE - offset)).length + offset =
          BUFFER_SIZE := by
        rw [hread]
        rw [BUFFER_SIZE] at hroom ⊢
        omega
      have hpos : start + offset + (fread file (start + offset) (BUFFER_SIZE - offset)).length =
          start + BUFFER_SIZE := by omega
      have hmax : BUFFER_SIZE - KEY_SIZE + 1 = 97 := rfl
      have hfind := findKey_window file start (show 97 + KEY_SIZE = BUFFER_SIZE + 1 from rfl)
      rw [hfull, if_neg (lt_irrefl _), hmax, hpos, hfilled hroom]
      cases hkey : findKey (slice file start BUFFER_SIZE) 97 with
      | some i =>
        rw [hkey] at hfind
        obtain ⟨hi, hprefix, hbefore⟩ := hfind
        obtain ⟨found, hfound, hinfo⟩ :=
          readInformation_window (i := i) hroom (by rw [KEY_SIZE, BUFFER_SIZE]; omega)
        exact ⟨found, hfound, finds_of_key hprefix (h.missed_add hbefore) hinfo⟩
      | none =>
        rw [hkey] at hfind
        obtain ⟨next, hnext, hwindow⟩ := h.next hroom hfind
        obtain ⟨found, hfound, hfinds⟩ := ih hwindow (by omega)
        have hnextPos : start + 97 + (KEY_SIZE - 1) = start + BUFFER_SIZE := by
          rw [KEY_SIZE, BUFFER_SIZE]
        rw [hnextPos] at hfound
        refine ⟨found, ?_, hfinds⟩
        dsimp only
        rw [hnext, Option.bind_some, hfound]
    · have hshort : (fread file (start + offset) (BUFFER_SIZE - offset)).length + offset <
          BUFFER_SIZE := by
        rw [hread]
        rw [BUFFER_SIZE] at hroom ⊢
        omega
      rw [if_pos hshort]
      refine ⟨none, rfl, finds_none h.missed ?_⟩
      rw [BUFFER_SIZE] at hroom
      rw [KEY_SIZE, INFORMATION_SIZE]
      omega

lemma window_initial (hbuffer : buffer.length = BUFFER_SIZE) : Window file 0 0 buffer :=
  ⟨hbuffer, by decide, Nat.zero_le _, by simp, by simp⟩

/-- **The search of `checkBinFile`**: for every file, and whatever the array holds at the beginning,
the loop over the windows ends, and it finds what a search in the whole file finds.  When the
first occurrence of the key is followed by 96 bytes, these are compared; otherwise the result is
-1. -/
theorem checkBinFile_search (file : List UInt8) (buffer : List.Vector UInt8 BUFFER_SIZE)
    (force_update : Bool) (version product date : List UInt8) :
    (∀ fuel, file.length < fuel →
      ∃ found, windowLoop file fuel 0 buffer.toList 0 = some found ∧ Finds file found) ∧
    match informationAt file with
    | some info => ∃ p_info : List.Vector UInt8 BUFFER_SIZE,
        p_info.toList.take INFORMATION_SIZE = info ∧
        checkBinFile force_update file buffer.toList version product date =
          compareInformation force_update p_info.toList version product date
    | none => checkBinFile force_update file buffer.toList version product date = some (-1) := by
  have hends : ∀ fuel, file.length < fuel →
      ∃ found, windowLoop file fuel 0 buffer.toList 0 = some found ∧ Finds file found :=
    fun fuel hfuel => windowLoop_finds (window_initial buffer.toList_length) hfuel
  refine ⟨hends, ?_⟩
  obtain ⟨found, hfound, hfinds⟩ := hends (file.length + 1) (Nat.lt_succ_self _)
  rw [checkBinFile, hfound, Option.bind_some]
  rw [Finds] at hfinds
  cases hinfo : informationAt file with
  | some info =>
    rw [hinfo] at hfinds
    obtain ⟨p_info, rfl, hlength, htake⟩ := hfinds
    exact ⟨⟨p_info, hlength⟩, htake, rfl⟩
  | none =>
    rw [hinfo] at hfinds
    rw [show found = none from hfinds]

end BinFile

end SignalEventLoop.Device
