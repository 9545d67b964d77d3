/-
# What a HEX file loads

The meaning of a HEX file is fixed first: its lines up to the end record have to be records,
with hexadecimal digits only and a correct checksum, and its data records define bytes at
addresses.  `loadProgramData` sees something else.  It stops at the first line that it cannot
decode, it does not address a data record unless the last address record is an extended linear
address, it does not place a record that runs over the end of the address space, and it cuts a
range off at the first gap; and it returns true when one of the records that it sees touches the
range.

What the loader leaves in a range is the image of the writes that it sees.  So it can be said
for every file when a load that returns true is complete.
-/
import SignalEventLoop.Device.HexFile
import SignalEventLoop.Lib.Writes

namespace SignalEventLoop.Device

open Lib

/-! ## The meaning of a HEX file -/

/-- The lines of a file, each with its end. -/
def splitLines : List UInt8 → List (List UInt8)
  | [] => []
  | c :: file =>
    if c = 10 then [c] :: splitLines file
    else
      match splitLines file with
      | [] => [[c]]
      | line :: lines => (c :: line) :: lines

/-- The bytes of a text that has only hexadecimal digits. -/
def hexBytes : List UInt8 → Option (List UInt8)
  | [] => some []
  | [_] => none
  | high :: low :: text => do
    let high ← hexDigit high
    let low ← hexDigit low
    let bytes ← hexBytes text
    some (UInt8.ofNat (16 * high + low) :: bytes)

/-- The record of a well-formed line with a correct checksum. -/
def parseRecord (line : List UInt8) : Option HexRecord :=
  match stripEol line with
  | 58 :: text =>
    match hexBytes text with
    | some (payload_len :: high :: low :: type :: rest) =>
      if rest.length = payload_len.toNat + 1 ∧
          payload_len + high + low + type + rest.sum = 0 then
        some ⟨UInt16.ofNat (ofBE [high, low]), type, rest.dropLast⟩
      else none
    | _ => none
  | _ => none

/-- The records up to the end record; `none` when one of the lines is not a record. -/
def recordsUpToEof : List (List UInt8) → Option (List HexRecord)
  | [] => some []
  | line :: lines => do
    let r ← parseRecord line
    if AimyHexRecordType.ofByte r.type = some .eof then some [r]
    else
      let records ← recordsUpToEof lines
      some (r :: records)

/-- The bytes that the data records define, from the base address on. -/
def definedWrites : ℕ → List HexRecord → List (ℕ × List UInt8)
  | _, [] => []
  | base, r :: records =>
    match AimyHexRecordType.ofByte r.type with
    | some .data => (base + r.offset_address.toNat, r.payload) :: definedWrites base records
    | some .exLinearAddr =>
      definedWrites (if r.payload.length = 2 then ofBE r.payload * 2 ^ 16 else base) records
    | some .exSegAddr =>
      definedWrites (if r.payload.length = 2 then ofBE r.payload * 2 ^ 4 else base) records
    | _ => definedWrites base records

/-! ## What the loader sees -/

/-- The records before the first line that cannot be decoded. -/
def acceptedRecords : List (List UInt8) → List HexRecord
  | [] => []
  | line :: lines =>
    match decodeLine line with
    | none => []
    | some r => r :: acceptedRecords lines

/-- The base address behind a record: only an extended linear address gives one, and the
records of the other address types and the end record take it away. -/
def nextBase (base : Option ℕ) (r : HexRecord) : Option ℕ :=
  match AimyHexRecordType.ofByte r.type with
  | some .exLinearAddr => if r.payload.length = 2 then some (ofBE r.payload * 2 ^ 16) else base
  | some .startLinearAddr => if r.payload.length = 4 then none else base
  | some .eof | some .exSegAddr | some .startSegAddr => none
  | some .data | none => base

/-- A data record is seen when there is a base address. -/
def seenWrite (base : Option ℕ) (r : HexRecord) : List (ℕ × List UInt8) :=
  match AimyHexRecordType.ofByte r.type, base with
  | some .data, some b => [(b + r.offset_address.toNat, r.payload)]
  | _, _ => []

/-- The writes that the loader sees. -/
def seenWrites : Option ℕ → List HexRecord → List (ℕ × List UInt8)
  | _, [] => []
  | base, r :: records => seenWrite base r ++ seenWrites (nextBase base r) records

/-- The write ends before the end of the address space. -/
def InSpace (w : ℕ × List UInt8) : Prop := w.1 + w.2.length < 2 ^ 32

instance decidableInSpace (w : ℕ × List UInt8) : Decidable (InSpace w) :=
  inferInstanceAs (Decidable (_ < _))

/-- What the writes that the loader sees leave at an address. -/
def seenImage (ws : List (ℕ × List UInt8)) : ℕ → Option UInt8 := image (ws.filter InSpace)

/-- No write that begins in the range runs over the end of the address space. -/
def NoOverrun (ws : List (ℕ × List UInt8)) (start stop : ℕ) : Prop :=
  ∀ w ∈ ws, start ≤ w.1 → w.1 ≤ stop → InSpace w

/-- A write has a byte in the range, or ends or begins at its border. -/
def Touched (ws : List (ℕ × List UInt8)) (start stop : ℕ) : Prop :=
  ∃ w ∈ ws, InSpace w ∧ w.1 ≤ stop ∧ start ≤ w.1 + w.2.length

/-! ## One record -/

variable {start len : ℕ} {s : HexState} {ws : List (ℕ × List UInt8)} {payload : List UInt8}

/-- The range holds the image of the writes that were seen, and `ret` tells whether one of
them touched it. -/
structure HexInv (start len : ℕ) (s : HexState) (ws : List (ℕ × List UInt8)) : Prop where
  window : Window start len 0 (ws.filter InSpace) s.buf s.flag
  length_buf : s.buf.length = len + 1
  length_flag : s.flag.length = len
  ret_pos : 0 < s.ret ↔ Touched ws start (start + len)

lemma touched_concat {stop : ℕ} {w : ℕ × List UInt8} : Touched (ws ++ [w]) start stop ↔
    Touched ws start stop ∨ (InSpace w ∧ w.1 ≤ stop ∧ start ≤ w.1 + w.2.length) := by
  simp only [Touched, List.mem_append, List.mem_singleton, or_and_right, exists_or, exists_eq_left]

/-- A write that does not touch the range. -/
lemma HexInv.miss (h : HexInv start len s ws) {w : ℕ × List UInt8}
    (hw : InSpace w → w.1 + w.2.length < start ∨ start + len < w.1) :
    HexInv start len s (ws ++ [w]) := by
  refine ⟨?_, h.length_buf, h.length_flag, ?_⟩
  · rw [List.filter_append]
    by_cases hin : InSpace w
    · simp only [List.filter_cons, hin, decide_true, if_true, List.filter_nil]
      exact h.window.miss (by have := hw hin; omega)
    · simpa [hin] using h.window
  · rw [touched_concat, h.ret_pos, or_iff_left]
    rintro ⟨hin, h₁, h₂⟩
    have := hw hin
    omega

/-- The part of a write in the range is copied. -/
lemma HexInv.copy (h : HexInv start len s ws) {w : ℕ × List UInt8} (hin : InSpace w)
    (htouch : w.1 ≤ start + len ∧ start ≤ w.1 + w.2.length) {off : ℕ} {bytes : List UInt8}
    (hbytes : ∀ i < len, writeAt w (start + i) =
      if off ≤ i ∧ i < off + bytes.length then bytes[i - off]? else none)
    (hfit : off + bytes.length ≤ len) :
    ∃ s', s.copy off (some bytes) = some s' ∧ HexInv start len s' (ws ++ [w]) ∧
      s'.find_LINEAR_ADDR = s.find_LINEAR_ADDR ∧
      s'.last_ex_linear_addr = s.last_ex_linear_addr := by
  have hbuf : off + bytes.length ≤ s.buf.length := by
    rw [h.length_buf]
    omega
  have hflag : off + (List.replicate bytes.length true).length ≤ s.flag.length := by
    rw [h.length_flag, List.length_replicate]
    exact hfit
  obtain ⟨buf, hstore⟩ : ∃ buf, store s.buf off bytes = some buf :=
    exists_store hbuf
  obtain ⟨flag, hstore'⟩ :
      ∃ flag, store s.flag off (List.replicate bytes.length true) = some flag :=
    exists_store hflag
  refine ⟨{ s with buf := buf, flag := flag, ret := 1 }, ?_, ⟨?_, ?_, ?_, ?_⟩, rfl, rfl⟩
  · simp [HexState.copy, hstore, hstore']
  · rw [List.filter_append]
    simp only [List.filter_cons, hin, decide_true, if_true, List.filter_nil]
    exact h.window.hit hbytes hstore hstore'
  · rw [length_of_store hstore, h.length_buf]
  · rw [length_of_store hstore', h.length_flag]
  · rw [touched_concat]
    simp [hin, htouch]

/-- The bytes of a record that are copied. -/
lemma load_payload {off n : ℕ} (h : off + n ≤ payload.length) :
    load (payload ++ [0]) off n = some (slice payload off n) := by
  rw [load, if_pos (by rw [List.length_append]; omega), slice, slice,
    List.drop_append_of_le_length (by omega),
    List.take_append_of_le_length (by rw [List.length_drop]; omega)]

lemma getElem?_slice {off n i : ℕ} (hi : i < n) :
    (slice payload off n)[i]? = payload[off + i]? := by
  rw [slice, List.getElem?_take_of_lt hi, List.getElem?_drop]

section copyData

variable {d : ℕ}

/-- The bytes from `k` on of a record, `n` of them, are all that lies in the range. -/
lemma HexInv.copySlice (h : HexInv start len s ws) (hin : InSpace (d, payload)) {off k n : ℕ}
    (htouch : d ≤ start + len ∧ start ≤ d + payload.length) (hoff : start + off = d + k)
    (hn : k + n ≤ payload.length) (hfit : off + n ≤ len)
    (hrest : ∀ i < len, ¬ (off ≤ i ∧ i < off + n) →
      start + i < d ∨ d + payload.length ≤ start + i) :
    ∃ s', s.copy off (load (payload ++ [0]) k n) = some s' ∧
      HexInv start len s' (ws ++ [(d, payload)]) ∧
      s'.find_LINEAR_ADDR = s.find_LINEAR_ADDR ∧
      s'.last_ex_linear_addr = s.last_ex_linear_addr := by
  have hlength : (slice payload k n).length = n := length_slice hn
  rw [load_payload hn]
  refine h.copy hin htouch ?_ (by omega)
  intro i hi
  rw [hlength]
  split_ifs with hcopied
  · rw [writeAt_of_le (by simp only; omega), getElem?_slice (by omega)]
    congr 1
    simp only
    omega
  · exact writeAt_eq_none (hrest i hi hcopied)

/-- A record that begins before the range. -/
lemma copyData_before (h : HexInv start len s ws) (hin : InSpace (d, payload)) (hd : d < start) :
    ∃ s', s.copyData start (start + len) d payload = some s' ∧
      HexInv start len s' (ws ++ [(d, payload)]) ∧
      s'.find_LINEAR_ADDR = s.find_LINEAR_ADDR ∧
      s'.last_ex_linear_addr = s.last_ex_linear_addr := by
  have hend : (d + payload.length) % 2 ^ 32 = d + payload.length := Nat.mod_eq_of_lt hin
  simp only [HexState.copyData, hend, if_pos hd]
  by_cases hmiss : d + payload.length < start
  · rw [if_pos hmiss]
    exact ⟨s, rfl, h.miss fun _ => Or.inl hmiss, rfl, rfl⟩
  · rw [if_neg hmiss]
    generalize hactual : (if d + payload.length < start + len then d + payload.length
      else start + len) = actual
    have hle : actual ≤ d + payload.length ∧ actual ≤ start + len ∧ start ≤ actual ∧
        (actual = d + payload.length ∨ actual = start + len) := by
      split_ifs at hactual <;> omega
    have hspace : d + payload.length < 2 ^ 32 := hin
    have hcopy : (2 ^ 32 + actual - start) % 2 ^ 32 = actual - start := by omega
    rw [hcopy]
    exact h.copySlice hin (by omega) (by omega) (by omega) (by omega) (by omega)

/-- A record that begins in the range. -/
lemma copyData_inside (h : HexInv start len s ws) (hin : InSpace (d, payload)) (hd : ¬ d < start) :
    ∃ s', s.copyData start (start + len) d payload = some s' ∧
      HexInv start len s' (ws ++ [(d, payload)]) ∧
      s'.find_LINEAR_ADDR = s.find_LINEAR_ADDR ∧
      s'.last_ex_linear_addr = s.last_ex_linear_addr := by
  have hend : (d + payload.length) % 2 ^ 32 = d + payload.length := Nat.mod_eq_of_lt hin
  have hspace : d + payload.length < 2 ^ 32 := hin
  simp only [HexState.copyData, hend, if_neg hd]
  by_cases hmiss : d > start + len
  · rw [if_pos hmiss]
    exact ⟨s, rfl, h.miss fun _ => Or.inr hmiss, rfl, rfl⟩
  · rw [if_neg hmiss]
    generalize hactual : (if d + payload.length < start + len then d + payload.length
      else start + len) = actual
    have hle : actual ≤ d + payload.length ∧ actual ≤ start + len ∧ d ≤ actual ∧
        (actual = d + payload.length ∨ actual = start + len) := by
      split_ifs at hactual <;> omega
    have hcopy : (2 ^ 32 + actual - d) % 2 ^ 32 = actual - d := by omega
    rw [hcopy]
    exact h.copySlice hin (by omega) (by omega) (by omega) (by omega) (by omega)

/-- A record that runs over the end of the address space is lost. -/
lemma copyData_lost (h : HexInv start len s ws) (hstop : start + len < 2 ^ 32)
    (hd : d < 2 ^ 32) (hpayload : payload.length < 256) (hout : ¬ InSpace (d, payload))
    (hd' : d < start ∨ start + len < d) :
    s.copyData start (start + len) d payload = some s ∧
      HexInv start len s (ws ++ [(d, payload)]) := by
  have hspace : 2 ^ 32 ≤ d + payload.length := not_lt.mp hout
  have hend : (d + payload.length) % 2 ^ 32 = d + payload.length - 2 ^ 32 := by omega
  refine ⟨?_, h.miss fun hin => absurd hin hout⟩
  simp only [HexState.copyData, hend]
  rcases hd' with hd' | hd'
  · rw [if_pos hd', if_pos (by omega)]
  · rw [if_neg (by omega), if_pos hd']

/-- When it begins in the range, the copy leaves the block. -/
lemma copyData_overrun (h : HexInv start len s ws) (hstop : start + len < 2 ^ 32)
    (hd : d < 2 ^ 32) (hpayload : payload.length < 256) (hout : ¬ InSpace (d, payload))
    (hd' : start ≤ d ∧ d ≤ start + len) :
    s.copyData start (start + len) d payload = none := by
  have hspace : 2 ^ 32 ≤ d + payload.length := not_lt.mp hout
  have hend : (d + payload.length) % 2 ^ 32 = d + payload.length - 2 ^ 32 := by omega
  have hcopy : (2 ^ 32 + (d + payload.length - 2 ^ 32) - d) % 2 ^ 32 = payload.length := by omega
  simp only [HexState.copyData, hend]
  rw [if_neg (by omega), if_neg (by omega), if_pos (by omega), hcopy, load_payload (by omega)]
  have hlength : (slice payload 0 payload.length).length = payload.length := length_slice (by omega)
  have hflag : store s.flag (d - start)
      (List.replicate (slice payload 0 payload.length).length true) = none := by
    rw [store, if_neg]
    rw [List.length_replicate, hlength, h.length_flag]
    omega
  cases hbuf : store s.buf (d - start) (slice payload 0 payload.length) with
  | none => simp [HexState.copy, hbuf]
  | some buf => simp [HexState.copy, hbuf, hflag]

/-- A data record. -/
lemma copyData_eq (h : HexInv start len s ws) (hstop : start + len < 2 ^ 32)
    (hd : d < 2 ^ 32) (hpayload : payload.length < 256)
    (hok : NoOverrun [(d, payload)] start (start + len)) :
    ∃ s', s.copyData start (start + len) d payload = some s' ∧
      HexInv start len s' (ws ++ [(d, payload)]) ∧
      s'.find_LINEAR_ADDR = s.find_LINEAR_ADDR ∧
      s'.last_ex_linear_addr = s.last_ex_linear_addr := by
  by_cases hin : InSpace (d, payload)
  · by_cases hlt : d < start
    · exact copyData_before h hin hlt
    · exact copyData_inside h hin hlt
  · have hd' : d < start ∨ start + len < d := by
      by_contra hnot
      exact hin (hok (d, payload) (by simp) (by simp only; omega) (by simp only; omega))
    obtain ⟨hsame, hinv⟩ := copyData_lost h hstop hd hpayload hin hd'
    exact ⟨s, hsame, hinv, rfl, rfl⟩

end copyData

/-! ## The whole file -/

variable {base : Option ℕ} {r : HexRecord}

/-- The base address of the loop. -/
def BaseIs (s : HexState) : Option ℕ → Prop
  | none => s.find_LINEAR_ADDR = false
  | some b => s.find_LINEAR_ADDR = true ∧ s.last_ex_linear_addr = b ∧ b + 2 ^ 16 ≤ 2 ^ 32

lemma BaseIs.congr {s' : HexState} (h : BaseIs s base)
    (hfind : s'.find_LINEAR_ADDR = s.find_LINEAR_ADDR)
    (hlast : s'.last_ex_linear_addr = s.last_ex_linear_addr) : BaseIs s' base := by
  cases base with
  | none => exact hfind.trans h
  | some b => exact ⟨hfind.trans h.1, hlast.trans h.2.1, h.2.2⟩

lemma HexInv.congr {s' : HexState} (h : HexInv start len s ws) (hbuf : s'.buf = s.buf)
    (hflag : s'.flag = s.flag) (hret : s'.ret = s.ret) : HexInv start len s' ws := by
  obtain ⟨find, last, buf, flag, ret⟩ := s
  obtain ⟨find', last', buf', flag', ret'⟩ := s'
  obtain ⟨rfl, rfl, rfl⟩ : buf' = buf ∧ flag' = flag ∧ ret' = ret := ⟨hbuf, hflag, hret⟩
  exact ⟨h.window, h.length_buf, h.length_flag, h.ret_pos⟩

/-- A record that is not seen only changes the base address. -/
lemma record_unseen (start stop : ℕ) (hbase : BaseIs s base) (hunseen : seenWrite base r = []) :
    ∃ s', s.record start stop r = some s' ∧ BaseIs s' (nextBase base r) ∧
      s'.buf = s.buf ∧ s'.flag = s.flag ∧ s'.ret = s.ret := by
  rw [HexState.record, nextBase]
  cases htype : AimyHexRecordType.ofByte r.type with
  | none => exact ⟨s, rfl, hbase, rfl, rfl, rfl⟩
  | some type =>
    cases type with
    | data =>
      cases base with
      | none => exact ⟨s, if_pos hbase, hbase, rfl, rfl, rfl⟩
      | some b => simp [seenWrite, htype] at hunseen
    | eof => exact ⟨_, rfl, rfl, rfl, rfl, rfl⟩
    | exSegAddr => exact ⟨_, rfl, rfl, rfl, rfl, rfl⟩
    | startSegAddr => exact ⟨_, rfl, rfl, rfl, rfl, rfl⟩
    | exLinearAddr =>
      by_cases hlen : r.payload.length = 2
      · simp only [hlen, ne_eq, not_true_eq_false, if_false, if_true]
        refine ⟨_, rfl, ⟨rfl, rfl, ?_⟩, rfl, rfl, rfl⟩
        have := ofBE_lt r.payload
        rw [hlen] at this
        omega
      · simp only [hlen, ne_eq, not_false_eq_true, if_true, if_false]
        exact ⟨s, rfl, hbase, rfl, rfl, rfl⟩
    | startLinearAddr =>
      by_cases hlen : r.payload.length = 4
      · simp only [hlen, ne_eq, not_true_eq_false, if_false, if_true]
        exact ⟨_, rfl, rfl, rfl, rfl, rfl⟩
      · simp only [hlen, ne_eq, not_false_eq_true, if_true, if_false]
        exact ⟨s, rfl, hbase, rfl, rfl, rfl⟩

/-- A record that is seen is a data record with a base address. -/
lemma seenWrite_cases (base : Option ℕ) (r : HexRecord) : seenWrite base r = [] ∨
    ∃ b, base = some b ∧ AimyHexRecordType.ofByte r.type = some .data ∧
      seenWrite base r = [(b + r.offset_address.toNat, r.payload)] := by
  unfold seenWrite
  split
  · rename_i b htype
    exact Or.inr ⟨b, rfl, htype, rfl⟩
  · exact Or.inl rfl

lemma length_payload_lt {line : List UInt8} (h : decodeLine line = some r) :
    r.payload.length < 256 := by
  simp only [decodeLine] at h
  split_ifs at h
  rw [Option.some.injEq] at h
  rw [← h, List.length_map, List.length_range]
  exact UInt8.toNat_lt _

/-- An invariant of the state and the writes that were seen: a write among `dom` keeps it when it
is `ok`, and leaves its block when it is not. -/
structure Places (start stop : ℕ) (dom ok : ℕ × List UInt8 → Prop)
    (I : HexState → List (ℕ × List UInt8) → Prop) : Prop where
  congr : ∀ s s' ws, I s ws → s'.buf = s.buf → s'.flag = s.flag → s'.ret = s.ret → I s' ws
  placed : ∀ s ws d payload, I s ws → d < 2 ^ 32 → payload.length < 256 → dom (d, payload) →
    ok (d, payload) → ∃ s', s.copyData start stop d payload = some s' ∧
      I s' (ws ++ [(d, payload)]) ∧ s'.find_LINEAR_ADDR = s.find_LINEAR_ADDR ∧
      s'.last_ex_linear_addr = s.last_ex_linear_addr
  fails : ∀ s ws d payload, I s ws → d < 2 ^ 32 → payload.length < 256 → dom (d, payload) →
    ¬ ok (d, payload) → s.copyData start stop d payload = none

namespace Places

variable {stop : ℕ} {dom ok : ℕ × List UInt8 → Prop}
  {I : HexState → List (ℕ × List UInt8) → Prop}

/-- One record of the loop. -/
lemma record (hI : Places start stop dom ok I) (h : I s ws) (hbase : BaseIs s base)
    (hpayload : r.payload.length < 256) (hdom : ∀ w ∈ seenWrite base r, dom w) :
    ((∀ w ∈ seenWrite base r, ok w) →
      ∃ s', s.record start stop r = some s' ∧ BaseIs s' (nextBase base r) ∧
        I s' (ws ++ seenWrite base r)) ∧
    ((¬ ∀ w ∈ seenWrite base r, ok w) → s.record start stop r = none) := by
  rcases seenWrite_cases base r with hunseen | ⟨b, rfl, htype, hseen⟩
  · obtain ⟨s', hs', hbase', hbuf, hflag, hret⟩ := record_unseen start stop hbase hunseen
    rw [hunseen]
    refine ⟨fun _ => ⟨s', hs', hbase', ?_⟩, fun hnot => absurd (by simp) hnot⟩
    rw [List.append_nil]
    exact hI.congr s s' ws h hbuf hflag hret
  · obtain ⟨hfind, hlast, hb⟩ := hbase
    have hoffset := r.offset_address.toNat_lt
    have hd : b + r.offset_address.toNat < 2 ^ 32 := by omega
    have hrecord : s.record start stop r =
        s.copyData start stop (b + r.offset_address.toNat) r.payload := by
      simp only [HexState.record, htype, hfind, hlast, Bool.true_eq_false, if_false,
        Nat.mod_eq_of_lt hd]
    have hnext : nextBase (some b) r = some b := by rw [nextBase, htype]
    rw [hseen] at hdom ⊢
    simp only [List.mem_singleton, forall_eq] at hdom ⊢
    rw [hrecord, hnext]
    refine ⟨fun hok => ?_, hI.fails s ws _ _ h hd hpayload hdom⟩
    obtain ⟨s', hs', hinv, hfind', hlast'⟩ := hI.placed s ws _ _ h hd hpayload hdom hok
    exact ⟨s', hs', ⟨hfind'.trans hfind, hlast'.trans hlast, hb⟩, hinv⟩

/-- The loop of `readData`, on the writes that it sees. -/
lemma readLoop (hI : Places start stop dom ok I) (lines : List (List UInt8)) (h : I s ws)
    (hbase : BaseIs s base) (hdom : ∀ w ∈ seenWrites base (acceptedRecords lines), dom w) :
    ((∀ w ∈ seenWrites base (acceptedRecords lines), ok w) →
      ∃ s', HexState.readLoop start stop s lines = some s' ∧
        I s' (ws ++ seenWrites base (acceptedRecords lines))) ∧
    ((¬ ∀ w ∈ seenWrites base (acceptedRecords lines), ok w) →
      HexState.readLoop start stop s lines = none) := by
  induction lines generalizing s ws base with
  | nil =>
    rw [acceptedRecords, seenWrites, List.append_nil]
    exact ⟨fun _ => ⟨s, rfl, h⟩, fun hnot => absurd (by simp) hnot⟩
  | cons line lines ih =>
    rw [acceptedRecords, HexState.readLoop]
    rw [acceptedRecords] at hdom
    cases hline : decodeLine line with
    | none =>
      simp only [seenWrites, List.append_nil]
      exact ⟨fun _ => ⟨s, rfl, h⟩, fun hnot => absurd (by simp) hnot⟩
    | some r =>
      simp only [hline, seenWrites, List.mem_append, or_imp, forall_and] at hdom ⊢
      obtain ⟨hseen, hfails⟩ := hI.record h hbase (length_payload_lt hline) hdom.1
      by_cases hok : ∀ w ∈ seenWrite base r, ok w
      · obtain ⟨s', hs', hbase', hinv⟩ := hseen hok
        obtain ⟨hrest, hrest'⟩ := ih hinv hbase' hdom.2
        rw [hs', Option.bind_some, ← List.append_assoc]
        exact ⟨fun hall => hrest hall.2, fun hnot => hrest' fun hall => hnot ⟨hok, hall⟩⟩
      · rw [hfails hok, Option.bind_none]
        exact ⟨fun hall => absurd hall.1 hok, fun _ => rfl⟩

end Places

/-- A range whose end does not wrap around holds the image of the writes. -/
lemma places_hexInv (hstop : start + len < 2 ^ 32) :
    Places start (start + len) (fun _ => True)
      (fun w => start ≤ w.1 → w.1 ≤ start + len → InSpace w) (HexInv start len) := by
  refine ⟨fun s s' ws h hbuf hflag hret => h.congr hbuf hflag hret, ?_, ?_⟩
  · intro s ws d payload h hd hpayload _ hok
    refine copyData_eq h hstop hd hpayload fun w hw hle hle' => ?_
    obtain rfl := List.mem_singleton.mp hw
    exact hok hle hle'
  · intro s ws d payload h hd hpayload _ hnot
    simp only [Classical.not_imp] at hnot
    exact copyData_overrun h hstop hd hpayload hnot.2.2 ⟨hnot.1, hnot.2.1⟩

/-- The writes that the loader sees in a file. -/
def fileWrites (file : List UInt8) : List (ℕ × List UInt8) :=
  seenWrites none (acceptedRecords (readLines file))

/-- The state that the loop leaves, when it ends. -/
lemma readData_inv (file : List UInt8) (hstop : start + len < 2 ^ 32) :
    (NoOverrun (fileWrites file) start (start + len) →
      ∃ s', readData file start len = some (s'.ret, s'.buf, (s'.flag.takeWhile id).length) ∧
        HexInv start len s' (fileWrites file)) ∧
    (¬ NoOverrun (fileWrites file) start (start + len) → readData file start len = none) := by
  have hinit : HexInv start len
      ⟨false, 0, List.replicate (len + 1) 0, List.replicate len false, -1⟩ [] :=
    ⟨Window.empty start len 0 (len + 1) (by omega), by simp, by simp, by simp [Touched]⟩
  obtain ⟨hok, hnot⟩ := (places_hexInv hstop).readLoop (readLines file) hinit
    (show BaseIs _ none from rfl) fun _ _ => trivial
  rw [readData, Nat.mod_eq_of_lt hstop]
  refine ⟨fun h => ?_, fun h => by rw [hnot h, Option.map_none]⟩
  obtain ⟨s', hs', hinv⟩ := hok h
  rw [List.nil_append] at hinv
  exact ⟨s', by rw [hs', Option.map_some], hinv⟩

/-- **`readData` leaves the image of the writes that it sees, up to the first gap.** -/
lemma readData_eq (file : List UInt8) (hstop : start + len < 2 ^ 32) :
    (NoOverrun (fileWrites file) start (start + len) →
      ∃ ret buf n, readData file start len = some (ret, buf, n) ∧
        (0 < ret ↔ Touched (fileWrites file) start (start + len)) ∧
        ∀ i < len, buf[i]? = some ((seenImage (fileWrites file) (start + i)).getD 0) ∧
          (i < n ↔ ∀ j ≤ i, (seenImage (fileWrites file) (start + j)).isSome = true)) ∧
    (¬ NoOverrun (fileWrites file) start (start + len) → readData file start len = none) := by
  obtain ⟨hok, hnot⟩ := readData_inv file hstop
  refine ⟨fun h => ?_, hnot⟩
  obtain ⟨s', hread, hinv⟩ := hok h
  exact ⟨s'.ret, s'.buf, (s'.flag.takeWhile id).length, hread, hinv.ret_pos,
    fun i hi => ⟨hinv.window.mem_eq i hi, hinv.window.lt_takeWhile_iff hi⟩⟩

/-! ## Both segments -/

/-- Every byte that the writes define in the range is in the block, at its offset and below the
length. -/
def Stored (defined : List (ℕ × List UInt8)) (start stop : ℕ) (block : List UInt8) (n : ℕ) :
    Prop :=
  ∀ a b, start ≤ a → a < stop → image defined a = some b →
    a - start < n ∧ block[a - start]? = some b

/-- Every byte that the writes define in the range is seen by the loader, and there is no gap
before it in what the loader sees. -/
def SeenWithoutGap (defined seen : List (ℕ × List UInt8)) (start stop : ℕ) : Prop :=
  ∀ a b, start ≤ a → a < stop → image defined a = some b →
    seenImage seen a = some b ∧ ∀ a', start ≤ a' → a' ≤ a → seenImage seen a' ≠ none

/-- The range is empty, or no write that begins in it runs over the end of the address space. -/
def CanPlace (file : List UInt8) (start stop : ℕ) : Prop :=
  start < stop → NoOverrun (fileWrites file) start stop

/-- The range is empty, or the loader sees a write that touches it. -/
def FindsData (file : List UInt8) (start stop : ℕ) : Prop :=
  start < stop → Touched (fileWrites file) start stop

variable {file block : List UInt8} {stop n : ℕ} {defined : List (ℕ × List UInt8)}

/-- What a segment holds. -/
def SegmentHolds (file : List UInt8) (start stop : ℕ) (block : List UInt8) (n : ℕ) : Prop :=
  ∀ i < stop - start, block[i]? = some ((seenImage (fileWrites file) (start + i)).getD 0) ∧
    (i < n ↔ ∀ j ≤ i, (seenImage (fileWrites file) (start + j)).isSome = true)

lemma stored_iff (h : SegmentHolds file start stop block n) :
    Stored defined start stop block n ↔
      SeenWithoutGap defined (fileWrites file) start stop := by
  refine forall_congr' fun a => forall_congr' fun b => forall_congr' fun hle =>
    forall_congr' fun hlt => forall_congr' fun _ => ?_
  obtain ⟨hblock, hn⟩ := h (a - start) (by omega)
  rw [hn, hblock, Nat.add_sub_cancel' hle, Option.some.injEq]
  constructor
  · rintro ⟨hseen, hb⟩
    have hall : ∀ a', start ≤ a' → a' ≤ a → seenImage (fileWrites file) a' ≠ none := by
      intro a' h₁ h₂
      have := hseen (a' - start) (by omega)
      rw [Nat.add_sub_cancel' h₁] at this
      exact Option.isSome_iff_ne_none.mp this
    obtain ⟨c, hc⟩ := Option.ne_none_iff_exists'.mp (hall a hle le_rfl)
    rw [hc, Option.getD_some] at hb
    exact ⟨by rw [hc, hb], hall⟩
  · rintro ⟨hb, hseen⟩
    refine ⟨fun j hj => Option.isSome_iff_ne_none.mpr (hseen (start + j) (by omega) (by omega)), ?_⟩
    rw [hb, Option.getD_some]

/-- A segment of a HEX file. -/
lemma hexSegment_eq (file : List UInt8) (hle : start ≤ stop) (hstop : stop < 2 ^ 32) :
    (¬ CanPlace file start stop → hexSegment file start (stop - start) = none) ∧
    (CanPlace file start stop → ¬ FindsData file start stop →
      hexSegment file start (stop - start) = some none) ∧
    (CanPlace file start stop → FindsData file start stop →
      ∃ block n, hexSegment file start (stop - start) = some (some (block, n)) ∧
        SegmentHolds file start stop block n) := by
  have hlen : start + (stop - start) = stop := by omega
  by_cases hlt : start < stop
  · have hroom : start + (stop - start) < 2 ^ 32 := by omega
    obtain ⟨hok, hnot⟩ := readData_eq file hroom
    rw [hlen] at hok hnot
    simp only [CanPlace, FindsData, hlt, true_imp_iff, hexSegment, loadSegment,
      if_pos (show stop - start > 0 by omega)]
    refine ⟨fun h => by rw [hnot h, Option.map_none], fun h hnone => ?_, fun h hsome => ?_⟩
    · obtain ⟨ret, buf, n, hread, hret, -⟩ := hok h
      have hret' : ret ≤ 0 := not_lt.mp fun hpos => hnone (hret.mp hpos)
      rw [hread, Option.map_some, if_pos hret']
    · obtain ⟨ret, buf, n, hread, hret, hholds⟩ := hok h
      have hret' : ¬ ret ≤ 0 := not_le.mpr (hret.mpr hsome)
      exact ⟨buf, n, by rw [hread, Option.map_some, if_neg hret'], hholds⟩
  · have hzero : stop - start = 0 := by omega
    refine ⟨fun h => absurd (fun h' => absurd h' hlt) h,
      fun _ h => absurd (fun h' => absurd h' hlt) h, fun _ _ => ⟨[0], 0, ?_, ?_⟩⟩
    · rw [hzero]
      rfl
    · intro i hi
      omega

/-- The load is complete or fails: it has a defined result, and when it is true, every line up
to the end record is a record with a correct checksum, and every byte that they define in a
range is stored and counted. -/
def CompleteOrFails (file : List UInt8) (vec_start vec_end code_start code_end : UInt32) : Prop :=
  ∃ result, loadProgramData .hexFile file vec_start vec_end code_start code_end = some result ∧
    ∀ p, result = some p → ∃ records, recordsUpToEof (splitLines file) = some records ∧
      Stored (definedWrites 0 records) vec_start.toNat vec_end.toNat p.vecData p.vecDataLen ∧
      Stored (definedWrites 0 records) code_start.toNat code_end.toNat p.codeData p.codeDataLen

/-- The file means what the loader sees in both ranges. -/
def Agrees (file : List UInt8) (vec_start vec_end code_start code_end : ℕ) : Prop :=
  ∃ records, recordsUpToEof (splitLines file) = some records ∧
    SeenWithoutGap (definedWrites 0 records) (fileWrites file) vec_start vec_end ∧
    SeenWithoutGap (definedWrites 0 records) (fileWrites file) code_start code_end

section load

variable {vec_start vec_end code_start code_end : UInt32}

lemma loadProgramData_hex (hvec : vec_start ≤ vec_end) (hcode : code_start ≤ code_end)
    (hne : vec_start < vec_end ∨ code_start < code_end) :
    loadProgramData .hexFile file vec_start vec_end code_start code_end =
      bothSegments (hexSegment file vec_start.toNat (vec_end.toNat - vec_start.toNat))
        (hexSegment file code_start.toNat (code_end.toNat - code_start.toNat)) := by
  simp only [UInt32.lt_iff_toNat_lt] at hne
  rw [loadProgramData, if_neg, if_neg]
  · rw [UInt32.toNat_sub_of_le _ _ hvec, UInt32.toNat_sub_of_le _ _ hcode]
  · rw [UInt32.toNat_sub_of_le _ _ hvec, UInt32.toNat_sub_of_le _ _ hcode]
    omega
  · rw [not_or, UInt32.not_lt, UInt32.not_lt]
    exact ⟨hvec, hcode⟩

/-- Ranges that are not in order, or both empty, are refused. -/
lemma loadProgramData_refused (h : ¬ (vec_start ≤ vec_end ∧ code_start ≤ code_end ∧
      (vec_start < vec_end ∨ code_start < code_end))) (type : AimyUpdateFileType) :
    loadProgramData type file vec_start vec_end code_start code_end = some none := by
  simp only [loadProgramData]
  split_ifs with horder hempty
  · rfl
  · rfl
  · rw [not_or, UInt32.not_lt, UInt32.not_lt] at horder
    rw [UInt32.toNat_sub_of_le _ _ horder.1, UInt32.toNat_sub_of_le _ _ horder.2] at hempty
    refine absurd ⟨horder.1, horder.2, ?_⟩ h
    simp only [UInt32.lt_iff_toNat_lt]
    omega

end load

/-- **A HEX load is complete or fails exactly when the loader sees what the file defines, or
nothing in one of the ranges**: both ranges are in order, and no record that it sees runs over
the end of the address space inside a range that it reads. -/
theorem hex_load_iff (file : List UInt8) (vec_start vec_end code_start code_end : UInt32) :
    CompleteOrFails file vec_start vec_end code_start code_end ↔
      (vec_start ≤ vec_end → code_start ≤ code_end →
        vec_start < vec_end ∨ code_start < code_end →
        CanPlace file vec_start.toNat vec_end.toNat ∧
          (FindsData file vec_start.toNat vec_end.toNat →
            CanPlace file code_start.toNat code_end.toNat ∧
              (FindsData file code_start.toNat code_end.toNat →
                Agrees file vec_start.toNat vec_end.toNat code_start.toNat code_end.toNat))) := by
  by_cases hvalid : vec_start ≤ vec_end ∧ code_start ≤ code_end ∧
      (vec_start < vec_end ∨ code_start < code_end)
  · obtain ⟨hvec, hcode, hne⟩ := hvalid
    simp only [hvec, hcode, hne, true_imp_iff, CompleteOrFails]
    rw [loadProgramData_hex hvec hcode hne]
    obtain ⟨hvec₁, hvec₂, hvec₃⟩ := hexSegment_eq file (UInt32.le_iff_toNat_le.mp hvec)
      vec_end.toNat_lt
    obtain ⟨hcode₁, hcode₂, hcode₃⟩ := hexSegment_eq file (UInt32.le_iff_toNat_le.mp hcode)
      code_end.toNat_lt
    by_cases hplace : CanPlace file vec_start.toNat vec_end.toNat
    · by_cases hfind : FindsData file vec_start.toNat vec_end.toNat
      · obtain ⟨vecData, vecDataLen, hvecData, hholds⟩ := hvec₃ hplace hfind
        simp only [hplace, hfind, true_and, true_imp_iff, hvecData]
        by_cases hplace' : CanPlace file code_start.toNat code_end.toNat
        · by_cases hfind' : FindsData file code_start.toNat code_end.toNat
          · -- both segments are read, and the load returns true
            obtain ⟨codeData, codeDataLen, hcodeData, hholds'⟩ := hcode₃ hplace' hfind'
            simp [hplace', hfind', hcodeData, bothSegments, Agrees, stored_iff hholds,
              stored_iff hholds']
          · simp [hplace', hfind', hcode₂ hplace' hfind', bothSegments]
        · simp [hplace', hcode₁ hplace', bothSegments]
      · simp [hplace, hfind, hvec₂ hplace hfind, bothSegments]
    · simp [hplace, hvec₁ hplace, bothSegments]
  · rw [CompleteOrFails, loadProgramData_refused hvalid]
    simp only [Option.some.injEq, exists_eq_left', reduceCtorEq, false_imp_iff, implies_true,
      true_iff]
    exact fun h₁ h₂ h₃ => absurd ⟨h₁, h₂, h₃⟩ hvalid

/-- Four records: the base address 0, the byte 5 at the address 0, the byte 7 at the address 1
with a wrong checksum, and the end. -/
def wrongChecksum : List UInt8 :=
  [':', '0', '2', '0', '0', '0', '0', '0', '4', '0', '0', '0', '0', 'F', 'A', '\n',
    ':', '0', '1', '0', '0', '0', '0', '0', '0', '0', '5', 'F', 'A', '\n',
    ':', '0', '1', '0', '0', '0', '1', '0', '0', '0', '7', 'F', 'F', '\n',
    ':', '0', '0', '0', '0', '0', '0', '0', '1', 'F', 'F', '\n'].map fun c => UInt8.ofNat c.toNat

/-- The loader stops at the wrong checksum, and returns true with one byte of two. -/
theorem hex_load_incomplete :
    loadProgramData .hexFile wrongChecksum 0 2 0 0 = some (some ⟨[5, 0, 0], 1, [0], 0⟩) ∧
      ¬ CompleteOrFails wrongChecksum 0 2 0 0 := by
  have hload : loadProgramData .hexFile wrongChecksum 0 2 0 0 =
      some (some ⟨[5, 0, 0], 1, [0], 0⟩) := by decide
  have hrecords : recordsUpToEof (splitLines wrongChecksum) = none := by decide
  refine ⟨hload, ?_⟩
  rintro ⟨result, hresult, h⟩
  rw [hload, Option.some.injEq] at hresult
  obtain ⟨records, hrec, -⟩ := h _ hresult.symm
  rw [hrecords] at hrec
  cases hrec

end SignalEventLoop.Device
