/-
# The image of a well-formed HEX file

A well-formed file has lines of up to 255 bytes, data records and extended linear addresses, and
an end record; and no address wraps around.  What such a file defines at an address is the byte of
the last data record that covers it.  The loader sees every record of the file, and what
`readData` leaves is this image, as long as nothing ends at the end of the address space: there
the end addresses, which are computed as `uint32_t`, are 0.
-/
import SignalEventLoop.Device.HexRanges
import SignalEventLoop.Device.HexRecords

namespace SignalEventLoop.Device

open Lib

/-- A record before the end record: a data record, or an extended linear address. -/
def PlainRecord (r : HexRecord) : Prop :=
  AimyHexRecordType.ofByte r.type = some .data ∨
    AimyHexRecordType.ofByte r.type = some .exLinearAddr ∧ r.payload.length = 2

instance decidablePlainRecord (r : HexRecord) : Decidable (PlainRecord r) :=
  inferInstanceAs (Decidable (_ ∨ _ ∧ _))

/-- A well-formed file, with its records.  No address wraps around: the last byte of a data record
may be the last one of the address space. -/
structure WellFormedHex where
  file : List UInt8
  records : List HexRecord
  last : HexRecord
  lines_le : ∀ line ∈ splitLines file, line.length ≤ 255
  parsed : (splitLines file).map parseRecord = (records ++ [last]).map some
  last_eof : AimyHexRecordType.ofByte last.type = some .eof
  plain : ∀ r ∈ records, PlainRecord r
  /-- No data record comes before the first extended linear address. -/
  based : ∀ r ∈ records.takeWhile
    (fun r => AimyHexRecordType.ofByte r.type ≠ some .exLinearAddr),
      AimyHexRecordType.ofByte r.type ≠ some .data
  in_space : ∀ w ∈ definedWrites 0 records, w.1 + w.2.length ≤ 2 ^ 32

/-- The last byte of the record is the last one of the address space. -/
def Closes (w : ℕ × List UInt8) : Prop := w.1 + w.2.length = 2 ^ 32

instance decidableCloses (w : ℕ × List UInt8) : Decidable (Closes w) :=
  inferInstanceAs (Decidable (_ = _))

lemma Closes.not_inSpace {w : ℕ × List UInt8} (h : Closes w) : ¬ InSpace w := by
  rw [Closes] at h
  rw [InSpace]
  omega

/-! ## The loader sees every record -/

lemma acceptedRecords_eq {lines : List (List UInt8)} {records : List HexRecord}
    (h : lines.map parseRecord = records.map some) : acceptedRecords lines = records := by
  induction lines generalizing records with
  | nil =>
    rw [List.map_nil, eq_comm, List.map_eq_nil_iff] at h
    rw [h, acceptedRecords]
  | cons line lines ih =>
    cases records with
    | nil => simp at h
    | cons r records =>
      rw [List.map_cons, List.map_cons, List.cons.injEq] at h
      rw [acceptedRecords, decodeLine_of_parseRecord h.1, ih h.2]

section

variable {records : List HexRecord} {last : HexRecord}

/-- Behind the first extended linear address. -/
lemma seenWrites_some (hplain : ∀ r ∈ records, PlainRecord r)
    (hlast : AimyHexRecordType.ofByte last.type = some .eof) (b : ℕ) :
    seenWrites (some b) (records ++ [last]) = definedWrites b records := by
  induction records generalizing b with
  | nil => simp [seenWrites, seenWrite, hlast, definedWrites]
  | cons r records ih =>
    have hrest := ih fun q hq => hplain q (List.mem_cons_of_mem _ hq)
    rw [List.cons_append, seenWrites]
    rcases hplain r List.mem_cons_self with htype | ⟨htype, hlen⟩
    · simp [seenWrite, nextBase, definedWrites, htype, hrest]
    · simp [seenWrite, nextBase, definedWrites, htype, hlen, hrest]

/-- The first record is an extended linear address, or there is none. -/
lemma seenWrites_none (hplain : ∀ r ∈ records, PlainRecord r)
    (hlast : AimyHexRecordType.ofByte last.type = some .eof)
    (hbased : ∀ r ∈ records.takeWhile
      (fun r => AimyHexRecordType.ofByte r.type ≠ some .exLinearAddr),
        AimyHexRecordType.ofByte r.type ≠ some .data) :
    seenWrites none (records ++ [last]) = definedWrites 0 records := by
  cases records with
  | nil => simp [seenWrites, seenWrite, hlast, definedWrites]
  | cons r records =>
    have hrest := seenWrites_some (fun q hq => hplain q (List.mem_cons_of_mem _ hq)) hlast
    rcases hplain r List.mem_cons_self with htype | ⟨htype, hlen⟩
    · refine absurd htype (hbased r ?_)
      rw [List.takeWhile_cons_of_pos (by rw [htype]; rfl)]
      exact List.mem_cons_self
    · simp [seenWrites, seenWrite, nextBase, definedWrites, htype, hlen, hrest]

end

namespace WellFormedHex

variable (f : WellFormedHex)

/-- The bytes that the data records define, in the order of the file. -/
def writes : List (ℕ × List UInt8) := definedWrites 0 f.records

/-- The byte that was defined last at an address. -/
def definedAt : ℕ → Option UInt8 := image f.writes

lemma fileWrites_eq : fileWrites f.file = f.writes := by
  rw [fileWrites, readLines_eq f.lines_le, acceptedRecords_eq f.parsed,
    seenWrites_none f.plain f.last_eof f.based, writes]

lemma inSpace_or_closes {w : ℕ × List UInt8} (hw : w ∈ f.writes) : InSpace w ∨ Closes w := by
  have hle := f.in_space w hw
  rw [InSpace, Closes]
  omega

/-- The copies stay in their blocks when no record that ends at the end of the address space begins
in the range or where it ends. -/
lemma staysInside_iff {a n : ℕ} (hroom : a + n < 2 ^ 32) :
    (∀ w ∈ f.writes, StaysInside a n w) ↔
      ∀ w ∈ f.writes, Closes w → ¬ (a ≤ w.1 ∧ w.1 ≤ a + n) := by
  refine forall_congr' fun w => forall_congr' fun hw => ?_
  rw [StaysInside, if_pos hroom]
  constructor
  · exact fun h hcloses hin => hcloses.not_inSpace (h hin.1 hin.2)
  · exact fun h hle hle' => (f.inSpace_or_closes hw).resolve_right fun hcloses =>
      h hcloses ⟨hle, hle'⟩

/-- `readData` gives the image of the file: the buffer holds the byte that was defined last at
every address, or 0, and the length that it returns is that of the longest beginning of the range
that is defined. -/
def ReadsImage (a n : ℕ) : Prop :=
  ∃ ret buf max_read_len, readData f.file a n = some (ret, buf, max_read_len) ∧
    (∀ i < n, buf[i]? = some ((f.definedAt (a + i)).getD 0)) ∧
    max_read_len ≤ n ∧ (∀ i < max_read_len, f.definedAt (a + i) ≠ none) ∧
    (max_read_len < n → f.definedAt (a + max_read_len) = none)

/-- The condition.  When the range ends before the end of the address space: no record that ends
there begins in the range, and when one begins before the range, the other records define the same
bytes.  When the range ends there as well: the records that begin before the range and reach it
end one byte before its end, and they define the bytes of the range with a zero at the end; or
there are none, and the range does not begin with a byte and has no other bytes than zeros. -/
def ReadsWhen (a n : ℕ) : Prop :=
  if a + n < 2 ^ 32 then
    (∀ w ∈ f.writes, Closes w → ¬ (a ≤ w.1 ∧ w.1 ≤ a + n)) ∧
      ((∃ w ∈ f.writes, Closes w ∧ w.1 < a) →
        ∀ i < n, seenImage f.writes (a + i) = f.definedAt (a + i))
  else
    (∀ w ∈ reaching a f.writes, a + n ≤ w.1 + w.2.length + 1) ∧
      if reaching a f.writes = [] then
        f.definedAt a = none ∧ ∀ i < n, (f.definedAt (a + i)).getD 0 = 0
      else
        ∀ i < n, image ((reaching a f.writes).map zeroEnded) (a + i) = f.definedAt (a + i)

variable {f} {a n : ℕ}

lemma readsImage_iff_shows {ret : ℤ} {buf : List UInt8} {m : ℕ}
    (hread : readData f.file a n = some (ret, buf, m)) :
    f.ReadsImage a n ↔ Shows a n f.definedAt buf m := by
  constructor
  · rintro ⟨ret', buf', m', hread', hbuf, hle, hdefined, hstop⟩
    rw [hread, Option.some.injEq, Prod.mk.injEq, Prod.mk.injEq] at hread'
    obtain ⟨-, rfl, rfl⟩ := hread'
    refine ⟨hbuf, hle, fun i hi => ⟨fun hlt j hj => hdefined j (by omega), fun hall => ?_⟩⟩
    by_contra hge
    exact hall m (by omega) (hstop (by omega))
  · rintro ⟨hbuf, hle, hlt⟩
    refine ⟨ret, buf, m, hread, hbuf, hle, fun i hi => (hlt i (by omega)).mp hi i le_rfl,
      fun hshort => ?_⟩
    by_contra hdefined
    refine absurd ((hlt m hshort).mpr fun j hj => ?_) (lt_irrefl m)
    rcases Nat.lt_or_eq_of_le hj with hlt' | rfl
    · exact (hlt j (by omega)).mp hlt' j le_rfl
    · exact hdefined

lemma not_readsImage (hread : readData f.file a n = none) : ¬ f.ReadsImage a n := by
  rintro ⟨ret, buf, m, hread', -⟩
  rw [hread] at hread'
  cases hread'

/-- What is shown of one image is what is shown of another one. -/
lemma shows_iff {im im' : ℕ → Option UInt8} {buf : List UInt8} {m : ℕ}
    (h : Shows a n im buf m) : Shows a n im' buf m ↔
      ∀ i < n, (im (a + i)).getD 0 = (im' (a + i)).getD 0 ∧
        ((∀ j ≤ i, im (a + j) ≠ none) ↔ ∀ j ≤ i, im' (a + j) ≠ none) := by
  constructor
  · intro h' i hi
    refine ⟨?_, (h.lt_iff i hi).symm.trans (h'.lt_iff i hi)⟩
    exact Option.some.inj ((h.buf_eq i hi).symm.trans (h'.buf_eq i hi))
  · intro hsame
    refine ⟨fun i hi => ?_, h.le, fun i hi => (h.lt_iff i hi).trans (hsame i hi).2⟩
    rw [h.buf_eq i hi, (hsame i hi).1]

/-- When one of the images has no gap, they are the same. -/
lemma shows_iff_eq {im im' : ℕ → Option UInt8} {buf : List UInt8} {m : ℕ}
    (h : Shows a n im buf m)
    (hfull : (∀ i < n, im (a + i) ≠ none) ∨ ∀ i < n, im' (a + i) ≠ none) :
    Shows a n im' buf m ↔ ∀ i < n, im (a + i) = im' (a + i) := by
  rw [shows_iff h]
  constructor
  · intro hsame i hi
    obtain ⟨hbyte, hgap⟩ := hsame i hi
    have hboth : im (a + i) ≠ none ∧ im' (a + i) ≠ none := by
      rcases hfull with hfull | hfull
      · have hall : ∀ j ≤ i, im (a + j) ≠ none := fun j hj => hfull j (by omega)
        exact ⟨hfull i hi, hgap.mp hall i le_rfl⟩
      · have hall : ∀ j ≤ i, im' (a + j) ≠ none := fun j hj => hfull j (by omega)
        exact ⟨hgap.mpr hall i le_rfl, hfull i hi⟩
    obtain ⟨b, hb⟩ := Option.ne_none_iff_exists'.mp hboth.1
    obtain ⟨b', hb'⟩ := Option.ne_none_iff_exists'.mp hboth.2
    rw [hb, hb', Option.getD_some, Option.getD_some] at hbyte
    rw [hb, hb', hbyte]
  · intro hsame i hi
    refine ⟨by rw [hsame i hi], ?_⟩
    refine forall_congr' fun j => forall_congr' fun hj => ?_
    rw [hsame j (by omega)]

/-- A record that ends at the end of the address space and begins before the range covers it. -/
lemma definedAt_of_closes {w : ℕ × List UInt8} (hw : w ∈ f.writes) (hcloses : Closes w)
    (hbefore : w.1 < a) (hroom : a + n < 2 ^ 32) : ∀ i < n, f.definedAt (a + i) ≠ none := by
  intro i hi
  rw [Closes] at hcloses
  exact image_ne_none_iff.mpr ⟨w, hw, writeAt_ne_none_iff.mpr ⟨by omega, by omega⟩⟩

/-- A range that ends before the end of the address space. -/
lemma readsImage_of_lt (ha : a < 2 ^ 32) (hn : n < 2 ^ 32) (hroom : a + n < 2 ^ 32) :
    f.ReadsImage a n ↔ f.ReadsWhen a n := by
  obtain ⟨hok, hnot⟩ := readData_range f.file ha hn
  rw [f.fileWrites_eq, placedImage_of_lt hroom] at hok
  rw [f.fileWrites_eq] at hnot
  rw [ReadsWhen, if_pos hroom, ← f.staysInside_iff hroom]
  by_cases hall : ∀ w ∈ f.writes, StaysInside a n w
  · obtain ⟨ret, buf, m, hread, -, hshows⟩ := hok hall
    rw [and_iff_right hall, readsImage_iff_shows hread]
    by_cases hlost : ∃ w ∈ f.writes, Closes w ∧ w.1 < a
    · obtain ⟨w, hw, hcloses, hbefore⟩ := hlost
      have hfull := definedAt_of_closes hw hcloses hbefore hroom
      rw [shows_iff_eq hshows (Or.inr hfull)]
      exact ⟨fun h _ => h, fun h => h ⟨w, hw, hcloses, hbefore⟩⟩
    · -- the records that end at the end of the address space begin behind the range
      have hsame : ∀ i < n, seenImage f.writes (a + i) = f.definedAt (a + i) := by
        intro i hi
        refine image_filter fun w hw hout => writeAt_eq_none (Or.inl ?_)
        have hcloses := (f.inSpace_or_closes hw).resolve_left hout
        have hin := (f.staysInside_iff hroom).mp hall w hw hcloses
        by_contra hle
        exact hlost ⟨w, hw, hcloses, by omega⟩
      refine iff_of_true ?_ fun h => absurd h hlost
      refine (shows_iff hshows).mpr fun i hi => ⟨by rw [hsame i hi], ?_⟩
      refine forall_congr' fun j => forall_congr' fun hj => ?_
      rw [hsame j (by omega)]
  · exact iff_of_false (not_readsImage (hnot hall)) fun h => hall h.1

/-- A range that ends at the end of the address space. -/
lemma readsImage_of_eq (ha : a < 2 ^ 32) (hn : n < 2 ^ 32) (hroom : a + n = 2 ^ 32) :
    f.ReadsImage a n ↔ f.ReadsWhen a n := by
  obtain ⟨hok, hnot⟩ := readData_range f.file ha hn
  rw [f.fileWrites_eq, placedImage_of_le hroom.ge] at hok
  rw [f.fileWrites_eq] at hnot
  have hstays : (∀ w ∈ f.writes, StaysInside a n w) ↔
      ∀ w ∈ reaching a f.writes, a + n ≤ w.1 + w.2.length + 1 := by
    simp only [StaysInside, if_neg hroom.not_lt, mem_reaching, and_imp]
  rw [ReadsWhen, if_neg hroom.not_lt, ← hstays]
  by_cases hall : ∀ w ∈ f.writes, StaysInside a n w
  · obtain ⟨ret, buf, m, hread, -, hshows⟩ := hok hall
    rw [and_iff_right hall, readsImage_iff_shows hread]
    split_ifs with hnil
    · have hnone : ∀ x, image ((reaching a f.writes).map zeroEnded) x = none := by
        intro x
        rw [hnil]
        rfl
      rw [shows_iff hshows]
      simp only [hnone, Option.getD_none]
      constructor
      · intro h
        refine ⟨?_, fun i hi => (h i hi).1.symm⟩
        by_contra hdefined
        have hzero := (h 0 (by omega)).2.mpr fun j hj => by rwa [Nat.le_zero.mp hj]
        exact hzero 0 le_rfl rfl
      · rintro ⟨hfirst, hzeros⟩ i hi
        exact ⟨(hzeros i hi).symm, ⟨fun h => absurd rfl (h 0 (Nat.zero_le i)),
          fun h => absurd hfirst (h 0 (Nat.zero_le i))⟩⟩
    · refine shows_iff_eq hshows (Or.inl fun i hi => ?_)
      obtain ⟨w, hw⟩ := List.exists_mem_of_ne_nil _ hnil
      have hlong := hstays.mp hall w hw
      have hbefore := (mem_reaching.mp hw).2.2.1
      refine image_ne_none_iff.mpr ⟨zeroEnded w, List.mem_map_of_mem hw, ?_⟩
      refine writeAt_ne_none_iff.mpr ⟨?_, ?_⟩
      · rw [zeroEnded]
        dsimp only
        omega
      · rw [zeroEnded, List.length_append, List.length_singleton]
        omega
  · exact iff_of_false (not_readsImage (hnot hall)) fun h => hall h.1

/-- **What `readData` leaves of a well-formed file** is its image, for every range without a wrap,
exactly when nothing that matters ends at the end of the address space. -/
theorem readsImage_iff (f : WellFormedHex) (a n : ℕ) (ha : a < 2 ^ 32) (hn : n < 2 ^ 32)
    (hroom : a + n ≤ 2 ^ 32) : f.ReadsImage a n ↔ f.ReadsWhen a n := by
  rcases Nat.lt_or_eq_of_le hroom with hlt | heq
  · exact readsImage_of_lt ha hn hlt
  · exact readsImage_of_eq ha hn heq

/-- A file that defines the byte 5 at the address 0 and the byte 7 at the address 2. -/
def sample : WellFormedHex where
  file := [':', '0', '2', '0', '0', '0', '0', '0', '4', '0', '0', '0', '0', 'F', 'A', '\n',
    ':', '0', '1', '0', '0', '0', '0', '0', '0', '0', '5', 'F', 'A', '\n',
    ':', '0', '1', '0', '0', '0', '2', '0', '0', '0', '7', 'F', '6', '\n',
    ':', '0', '0', '0', '0', '0', '0', '0', '1', 'F', 'F', '\n'].map fun c => UInt8.ofNat c.toNat
  records := [⟨0, 4, [0, 0]⟩, ⟨0, 0, [5]⟩, ⟨2, 0, [7]⟩]
  last := ⟨0, 1, []⟩
  lines_le := by decide
  parsed := by decide
  last_eof := by decide
  plain := by decide
  based := by decide
  in_space := by decide

/-- The range of the addresses 0, 1 and 2. -/
theorem readsImage_sample : sample.ReadsImage 0 3 := by
  refine (readsImage_iff sample 0 3 (by norm_num) (by norm_num) (by norm_num)).mpr ?_
  rw [ReadsWhen, if_pos (by norm_num)]
  exact ⟨by decide, fun h => absurd h (by decide)⟩

example : readData sample.file 0 3 = some (1, [5, 0, 7, 0], 1) := by decide

/-- A file that defines the bytes 5 and 7 at the last two addresses. -/
def lastBytes : WellFormedHex where
  file := [':', '0', '2', '0', '0', '0', '0', '0', '4', 'F', 'F', 'F', 'F', 'F', 'C', '\n',
    ':', '0', '2', 'F', 'F', 'F', 'E', '0', '0', '0', '5', '0', '7', 'F', '5', '\n',
    ':', '0', '0', '0', '0', '0', '0', '0', '1', 'F', 'F', '\n'].map fun c => UInt8.ofNat c.toNat
  records := [⟨0, 4, [255, 255]⟩, ⟨65534, 0, [5, 7]⟩]
  last := ⟨0, 1, []⟩
  lines_le := by decide
  parsed := by decide
  last_eof := by decide
  plain := by decide
  based := by decide
  in_space := by decide

/-- The two bytes are not read, and a read of the three addresses in front of the last one copies
them behind its block. -/
theorem lastBytes_not_read :
    readData lastBytes.file 0xFFFFFFFE 2 = some (-1, [0, 0, 0], 0) ∧
      lastBytes.definedAt 0xFFFFFFFE = some 5 ∧ lastBytes.definedAt 0xFFFFFFFF = some 7 ∧
      ¬ lastBytes.ReadsImage 0xFFFFFFFE 2 ∧ ¬ lastBytes.ReadsImage 0xFFFFFFFC 3 := by
  have hread : readData lastBytes.file 0xFFFFFFFE 2 = some (-1, [0, 0, 0], 0) := by decide +kernel
  have hfirst : lastBytes.definedAt 0xFFFFFFFE = some 5 := by decide +kernel
  have hfault : readData lastBytes.file 0xFFFFFFFC 3 = none := by decide +kernel
  refine ⟨hread, hfirst, by decide +kernel, ?_, ?_⟩
  · rintro ⟨ret, buf, m, hread', hbuf, -⟩
    rw [hread, Option.some.injEq, Prod.mk.injEq, Prod.mk.injEq] at hread'
    obtain ⟨-, rfl, -⟩ := hread'
    have hbyte := hbuf 0 (by norm_num)
    rw [hfirst] at hbyte
    exact absurd hbyte (by decide)
  · rintro ⟨ret, buf, m, hread', -⟩
    rw [hfault] at hread'
    cases hread'

end WellFormedHex

end SignalEventLoop.Device
