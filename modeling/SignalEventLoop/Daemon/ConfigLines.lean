/-
# Reading the lines of a config file

What the functions of `DaemonFileHelper` write, its reader reads: a comment is passed over, an
item and an entry are found again, and the lines of the environment add up in the cache until the
end of the file.  The reader goes through the file line by line, so that its results compose.
-/
import SignalEventLoop.Daemon.ConfigLoaded

namespace SignalEventLoop.Daemon

open Lib
open scoped ByteOrder Bytes

namespace DaemonFileHelper

variable {p : DaemonFileHelper} {w key value data comment : Bytes} {info : DaemonConfigInfo}

/-! ## Texts without blanks at their ends -/

lemma trim_eq_self (hhead : ∀ c ∈ w.head?, isTrimCharacter c = false)
    (hlast : ∀ c ∈ w.getLast?, isTrimCharacter c = false) : trim w = w :=
  trimEnds_eq_self hhead hlast

lemma head?_of_trim (hw : trim w = w) : ∀ c ∈ w.head?, isTrimCharacter c = false := by
  intro c hc
  rw [← hw] at hc
  exact head?_trimEnds hc

lemma getLast?_of_trim (hw : trim w = w) : ∀ c ∈ w.getLast?, isTrimCharacter c = false := by
  intro c hc
  rw [← hw] at hc
  exact getLast?_trimEnds hc

/-- The end of a line does not count. -/
lemma trim_line (hw : trim w = w) : trim (w ++ [10]) = w := by
  rw [trim, trimEnds_append w (by simp [isTrimCharacter])]
  exact hw

/-! ## Comments -/

/-- A comment is passed over. -/
lemma reads_comment (hw : 10 ∉ w) : Reads readLine p (35 :: (w ++ [10])) p := by
  refine Reads.line (w := 35 :: w) (by simpa using hw) ?_
  have hhead : (trim (35 :: w ++ [10])).head? = some 35 := by
    rw [List.cons_append, trim, trimEnds_cons (by decide) (by decide), List.head?_cons]
  simp only [readLine, hhead, true_or, if_true]

lemma cString_text {w : Bytes} (hw : OneLine w) : cString w = w :=
  cString_eq_self fun c hc => (hw c hc).1

lemma reads_commentLine (hw : OneLine comment) : Reads readLine p (commentLine comment) p := by
  rw [commentLine]
  split_ifs
  · exact Reads.nil p
  · rw [cString_text hw]
    exact reads_comment fun h => (hw 10 h).2.2 rfl

/-- A line that stays when its blanks are taken off. -/
lemma readLine_of_trim (hdata : trim data = data) (hne : data ≠ [])
    (hcomment : data.head? ≠ some 35) (hitem : data.head? ≠ some 91) :
    readLine p (data ++ [10]) =
      if data.getLast? = some 92 then some { p with data_cache := p.data_cache ++ data.dropLast }
      else (handleCache (p.data_cache ++ data) p.info).map fun (data_cache, info) =>
        { p with data_cache := data_cache, info := info } := by
  simp only [readLine, trim_line hdata, hcomment, hne, hitem, or_self, if_false]

/-! ## Entries -/

/-- The word in front of a separator. -/
structure EntryKey (key : Bytes) : Prop where
  ne_nil : key ≠ []
  trimmed : trim key = key
  oneLine : OneLine key
  size : key.length < 255
  notMem : ∀ c ∈ key, c ≠ 61 ∧ c ≠ 58
  head_comment : key.head? ≠ some 35
  head_item : key.head? ≠ some 91

lemma entryKey_ConfigItemString (type : ConfigItemType) : EntryKey (ConfigItemString type) := by
  cases type <;> constructor <;> decide

/-- Two words that are read. -/
lemma scanTwo_of_words {separator : UInt8} {stops first second tail : Bytes} {size₁ size₂ : ℕ}
    (hne₁ : first ≠ []) (hsep : ∀ c ∈ first, c ≠ separator) (hsize₁ : first.length < size₁)
    (hne₂ : second ≠ []) (hstops : ∀ c ∈ second, c ∉ stops) (hsize₂ : second.length < size₂)
    (htail : ∀ c ∈ tail.head?, c ∈ stops)
    (hzero : ∀ c ∈ first ++ separator :: (second ++ tail), c ≠ 0) :
    scanTwo separator stops size₁ size₂ (first ++ separator :: (second ++ tail)) =
      some (some (first, second)) := by
  have hfirst : scanUntil [separator] (first ++ separator :: (second ++ tail)) =
      some (first, separator :: (second ++ tail)) :=
    scanUntil_append hne₁ (fun c hc => by simpa using hsep c hc) (by simp)
  have hsecond : scanUntil stops (second ++ tail) = some (second, tail) :=
    scanUntil_append hne₂ hstops htail
  rw [scanTwo, cString_eq_self hzero, hfirst]
  simp only [List.drop_succ_cons, List.drop_zero, hsecond, if_neg (not_le.mpr hsize₁),
    if_neg (not_le.mpr hsize₂)]

/-- There is no second word. -/
lemma scanTwo_of_first {separator : UInt8} {stops first : Bytes} {size₁ size₂ : ℕ} (rest : Bytes)
    (hsep : ∀ c ∈ first, c ≠ separator) (hsize₁ : first.length < size₁)
    (hrest : rest = [] ∨ rest = [separator]) (hzero : ∀ c ∈ first ++ rest, c ≠ 0) :
    scanTwo separator stops size₁ size₂ (first ++ rest) = some none := by
  rw [scanTwo, cString_eq_self hzero]
  by_cases hne : first = []
  · have hnil : scanUntil [separator] (first ++ rest) = none := by
      rcases hrest with rfl | rfl <;> simp [scanUntil, hne]
    rw [hnil]
  · have hfirst : scanUntil [separator] (first ++ rest) = some (first, rest) :=
      scanUntil_append hne (fun c hc => by simpa using hsep c hc)
        (by rcases hrest with rfl | rfl <;> simp)
    have hdrop : rest.drop 1 = [] := by rcases hrest with rfl | rfl <;> rfl
    rw [hfirst]
    simp [hdrop, scanUntil, hsize₁]

/-- What can stand behind a separator. -/
structure EntryValue (value : Bytes) : Prop where
  trimmed : trim value = value
  oneLine : OneLine value
  size : value.length < 128 * 1024 + 1

lemma EntryKey.ne_zero (hkey : EntryKey key) {s : Bytes} (hs : ∀ c ∈ s, c ≠ 0) :
    ∀ c ∈ key ++ s, c ≠ 0 := by
  intro c hc
  rcases List.mem_append.mp hc with hc | hc
  · exact (hkey.oneLine c hc).1
  · exact hs c hc

/-- An entry with a value; without one only the second format is tried. -/
lemma scanKeyValue_entry (hkey : EntryKey key) (hvalue : EntryValue value) :
    scanKeyValue (key ++ 61 :: value) =
      some (if value = [] then none else some (key, value)) := by
  have hsize := hkey.size
  rw [scanKeyValue]
  split_ifs with hnil
  · -- the second format finds no colon
    have hzero : ∀ c ∈ key ++ [61], c ≠ 0 := hkey.ne_zero (by simp)
    rw [hnil, scanTwo_of_first _ (fun c hc => (hkey.notMem c hc).1) (by omega) (Or.inr rfl) hzero,
      Option.bind_some]
    have hcolon : ∀ c ∈ key ++ [61], c ≠ 58 := by
      intro c hc
      rcases List.mem_append.mp hc with hc | hc
      · exact (hkey.notMem c hc).2
      · rw [List.mem_singleton.mp hc]
        decide
    simpa using scanTwo_of_first [] hcolon
      (by rw [List.length_append, List.length_singleton]; omega) (Or.inl rfl)
      (by simpa using hzero)
  · have hzero : ∀ c ∈ key ++ 61 :: value, c ≠ 0 := by
      refine hkey.ne_zero fun c hc => ?_
      rcases List.mem_cons.mp hc with rfl | hc
      · decide
      · exact (hvalue.oneLine c hc).1
    have hscan : scanTwo 61 [13, 10] 256 (128 * 1024 + 1) (key ++ 61 :: (value ++ [])) =
        some (some (key, value)) := scanTwo_of_words hkey.ne_nil
      (fun c hc => (hkey.notMem c hc).1) (by omega) hnil
      (fun c hc => by simpa using (hvalue.oneLine c hc).2) hvalue.size (by simp)
      (by rwa [List.append_nil])
    rw [List.append_nil] at hscan
    rw [hscan, Option.bind_some]

/-- An entry goes into the item. -/
lemma handleCache_entry (hkey : EntryKey key) (hvalue : EntryValue value) :
    handleCache (key ++ 61 :: value) info = some ([], insertEntry info key value) := by
  have hlen : (key ++ 61 :: value).length ≥ 2 := by
    have := List.length_pos_iff.mpr hkey.ne_nil
    simp only [List.length_append, List.length_cons]
    omega
  rw [handleCache, if_pos hlen, scanKeyValue_entry hkey hvalue, Option.map_some]
  by_cases hnil : value = []
  · simp [hnil, hkey.trimmed]
  · simp only [if_neg hnil, hkey.trimmed, hvalue.trimmed]

lemma head?_entry (hkey : EntryKey key) (s : Bytes) : (key ++ s).head? = key.head? := by
  obtain ⟨c, cs, rfl⟩ := List.exists_cons_of_ne_nil hkey.ne_nil
  rfl

/-- The last byte of an entry is the `=` or belongs to the value. -/
lemma getLast?_entry (key value : Bytes) (c : UInt8) :
    (key ++ c :: value).getLast? = some (value.getLast?.getD c) := by
  rw [List.getLast?_append, List.getLast?_cons, Option.some_or]

lemma trim_entry (hkey : EntryKey key) (hvalue : trim value = value) :
    trim (key ++ 61 :: value) = key ++ 61 :: value := by
  refine trim_eq_self (fun c hc => ?_) fun c hc => ?_
  · rw [head?_entry hkey] at hc
    exact head?_of_trim hkey.trimmed c hc
  · rw [getLast?_entry, Option.mem_some_iff] at hc
    cases hlast : value.getLast? with
    | none =>
      rw [hlast, Option.getD_none] at hc
      rw [← hc]
      decide
    | some d =>
      rw [hlast, Option.getD_some] at hc
      exact hc ▸ getLast?_of_trim hvalue d hlast

/-- The line of an entry. -/
lemma readLine_entry (hkey : EntryKey key) (hvalue : EntryValue value)
    (hlast : value.getLast? ≠ some 92) (hp : p.data_cache = []) :
    readLine p (key ++ 61 :: value ++ [10]) =
      some { p with data_cache := [], info := insertEntry p.info key value } := by
  have hne : key ++ 61 :: value ≠ [] := by simp
  have hslash : (key ++ 61 :: value).getLast? ≠ some 92 := by
    rw [getLast?_entry]
    cases hv : value.getLast? with
    | none => simp
    | some d => simpa [hv] using hlast
  rw [readLine_of_trim (trim_entry hkey hvalue.trimmed) hne
    (by rw [head?_entry hkey]; exact hkey.head_comment)
    (by rw [head?_entry hkey]; exact hkey.head_item), if_neg hslash, hp, List.nil_append,
    handleCache_entry hkey hvalue, Option.map_some]

/-- **An entry that is written is read.** -/
lemma reads_entry (hkey : EntryKey key) (hvalue : EntryValue value)
    (hlast : value.getLast? ≠ some 92) (hcomment : OneLine comment) (hp : p.data_cache = []) :
    ∃ w, appendKeyValueTofile key value comment = some w ∧
      Reads readLine p w { p with data_cache := [], info := insertEntry p.info key value } := by
  refine ⟨commentLine comment ++ (key ++ 61 :: value ++ [10]), ?_, ?_⟩
  · rw [appendKeyValueTofile, if_neg hkey.ne_nil, cString_text hkey.oneLine,
      cString_text hvalue.oneLine]
    split_ifs with hnil
    · simp [hnil]
    · simp
  · refine (reads_commentLine hcomment).append (Reads.line ?_ ?_)
    · rw [List.mem_append, List.mem_cons, not_or, not_or]
      exact ⟨fun h => (hkey.oneLine 10 h).2.2 rfl, by decide,
        fun h => (hvalue.oneLine 10 h).2.2 rfl⟩
    · exact readLine_entry hkey hvalue hlast hp

/-- Some entries, one after the other. -/
lemma reads_entries {items : List (ConfigItemType × Bytes × Bytes)}
    (hitems : ∀ i ∈ items, EntryValue i.2.1 ∧ i.2.1.getLast? ≠ some 92 ∧ OneLine i.2.2)
    (hp : p.data_cache = []) :
    ∃ ws, items.mapM (fun i => appendKeyValueTofile (ConfigItemString i.1) i.2.1 i.2.2) =
        some ws ∧
      Reads readLine p ws.flatten { p with
        data_cache := []
        info := items.foldl (fun info i => insertEntry info (ConfigItemString i.1) i.2.1)
          p.info } := by
  induction items generalizing p with
  | nil =>
    refine ⟨[], rfl, ?_⟩
    rw [← hp]
    exact Reads.nil p
  | cons i items ih =>
    obtain ⟨hvalue, hlast, hcomment⟩ := hitems i List.mem_cons_self
    obtain ⟨w, hw, hreads⟩ :=
      reads_entry (p := p) (entryKey_ConfigItemString i.1) hvalue hlast hcomment hp
    obtain ⟨ws, hws, hrest⟩ :=
      ih (p := ⟨[], insertEntry p.info (ConfigItemString i.1) i.2.1, p.itemMap⟩)
        (fun i' hi' => hitems i' (List.mem_cons_of_mem i hi')) rfl
    refine ⟨w :: ws, ?_, hreads.append hrest⟩
    rw [List.mapM_cons, hw, hws]
    rfl

lemma foldl_insertEntry {ι : Type*} (key value : ι → Bytes) (items : List ι) :
    items.foldl (fun info i => insertEntry info (key i) (value i)) info =
      { info with
        configMap := (items.map fun i => (key i, value i)).foldl
          (fun m e => SortedMap.emplace e.1 e.2 m) info.configMap } := by
  induction items generalizing info with
  | nil => rfl
  | cons i items ih =>
    rw [List.foldl_cons, ih]
    rfl

/-! ## The item -/

/-- The line of an item gives it its name and its description. -/
lemma reads_item {item_name description : Bytes} (hname : EntryKey item_name)
    (hsize : item_name.length < 128) (hne : description ≠ []) (hzero : ∀ c ∈ description, c ≠ 0)
    (hline : 10 ∉ description) (hstop : 93 ∉ description) (htrim : trim description = description)
    (hsize' : description.length < 128) :
    Reads readLine ⟨[], ⟨[], [], []⟩, []⟩ (91 :: (item_name ++ 58 :: (description ++ [93, 10])))
      ⟨[], ⟨item_name, description, []⟩, []⟩ := by
  have hword : ∀ c ∈ item_name ++ 58 :: (description ++ [93]), c ≠ 0 := by
    refine hname.ne_zero fun c hc => ?_
    simp only [List.mem_cons, List.mem_append, List.not_mem_nil, or_false] at hc
    rcases hc with rfl | hc | rfl
    · decide
    · exact hzero c hc
    · decide
  have hscan : scanTwo 58 [93] 128 128 (item_name ++ 58 :: (description ++ [93])) =
      some (some (item_name, description)) := scanTwo_of_words hname.ne_nil
    (fun c hc => (hname.notMem c hc).2) hsize hne
    (fun c hc => by simpa using ne_of_mem_of_not_mem hc hstop) hsize' (by simp) hword
  have hlast : (91 :: (item_name ++ 58 :: (description ++ [93]))).getLast? = some 93 := by
    rw [← List.cons_append, getLast?_entry, List.getLast?_append, List.getLast?_singleton]
    rfl
  have hdata : trim (91 :: (item_name ++ 58 :: (description ++ [93]))) =
      91 :: (item_name ++ 58 :: (description ++ [93])) := by
    refine trim_eq_self (by simp [isTrimCharacter]) fun c hc => ?_
    rw [hlast, Option.mem_some_iff] at hc
    rw [← hc]
    decide
  have hread : readLine ⟨[], ⟨[], [], []⟩, []⟩
      (91 :: (item_name ++ 58 :: (description ++ [93])) ++ [10]) =
      some ⟨[], ⟨item_name, description, []⟩, []⟩ := by
    simp only [readLine, trim_line hdata, scanItem, hlast]
    have hlen := List.length_pos_iff.mpr hname.ne_nil
    simp [handleCache, flushItem, hscan, hname.trimmed, htrim, hname.ne_nil]
    omega
  have hnotMem : 10 ∉ 91 :: (item_name ++ 58 :: (description ++ [93])) := by
    have hn : 10 ∉ item_name := fun h => (hname.oneLine 10 h).2.2 rfl
    simp [hn, hline]
  have := Reads.line hnotMem hread
  simpa using this

/-! ## The environment -/

/-- The environment as the value of its entry. -/
def envText (m : StringMap) : Bytes := m.flatMap fun e => e.1 ++ 61 :: (e.2 ++ [44])

/-- A name and a value that are found again in the text of the environment. -/
structure EnvEntry (e : Bytes × Bytes) : Prop where
  name : EnvWord e.1
  value : EnvWord e.2
  name_notMem : 61 ∉ e.1 ∧ 44 ∉ e.1
  value_notMem : 44 ∉ e.2
  head_comment : e.1.head? ≠ some 35
  head_item : e.1.head? ≠ some 91
  name_size : e.1.length < 512
  value_size : e.2.length < 2048

variable {e : Bytes × Bytes} {m : StringMap}

lemma EnvEntry.oneLine (he : EnvEntry e) : OneLine (e.1 ++ 61 :: e.2) := by
  intro c hc
  rcases List.mem_append.mp hc with hc | hc
  · exact he.name.1 c hc
  · rcases List.mem_cons.mp hc with rfl | hc
    · decide
    · exact he.value.1 c hc

lemma EnvEntry.notMem (he : EnvEntry e) : 44 ∉ e.1 ++ 61 :: e.2 := by
  rw [List.mem_append, List.mem_cons, not_or, not_or]
  exact ⟨he.name_notMem.2, by decide, he.value_notMem⟩

/-- A variable begins with its name, or with the `=` when the name is empty. -/
lemma EnvEntry.head (he : EnvEntry e) (s : Bytes) : ∀ c ∈ (e.1 ++ 61 :: s).head?,
    isTrimCharacter c = false ∧ c ≠ 35 ∧ c ≠ 91 := by
  intro c hc
  cases hname : e.1 with
  | nil =>
    rw [hname, List.nil_append, List.head?_cons, Option.mem_some_iff] at hc
    rw [← hc]
    decide
  | cons d cs =>
    have hhead : e.1.head? = some d := by rw [hname, List.head?_cons]
    rw [hname, List.cons_append, List.head?_cons, Option.mem_some_iff] at hc
    obtain rfl := hc
    refine ⟨head?_of_trim he.name.2 d hhead, ?_, ?_⟩
    · rintro rfl
      exact he.head_comment hhead
    · rintro rfl
      exact he.head_item hhead

/-- A line that goes on in the next one. -/
lemma readLine_continued (hw : ∀ c ∈ w.head?, isTrimCharacter c = false ∧ c ≠ 35 ∧ c ≠ 91) :
    readLine p (w ++ [92] ++ [10]) = some { p with data_cache := p.data_cache ++ w } := by
  have hhead : ∀ c ∈ (w ++ [92]).head?, isTrimCharacter c = false ∧ c ≠ 35 ∧ c ≠ 91 := by
    cases w with
    | nil =>
      intro c hc
      rw [List.nil_append, List.head?_cons, Option.mem_some_iff] at hc
      rw [← hc]
      decide
    | cons d w => exact hw
  have htrim : trim (w ++ [92]) = w ++ [92] := by
    refine trim_eq_self (fun c hc => (hhead c hc).1) fun c hc => ?_
    rw [List.getLast?_append, List.getLast?_singleton, Option.some_or, Option.mem_some_iff] at hc
    rw [← hc]
    decide
  rw [readLine_of_trim htrim (by simp) (fun h => (hhead 35 h).2.1 rfl)
    (fun h => (hhead 91 h).2.2 rfl), if_pos (by simp), List.dropLast_concat]

lemma reads_continued (hw : ∀ c ∈ w.head?, isTrimCharacter c = false ∧ c ≠ 35 ∧ c ≠ 91)
    (hline : 10 ∉ w) :
    Reads readLine p (w ++ [92, 10]) { p with data_cache := p.data_cache ++ w } := by
  have := Reads.line (w := w ++ [92]) (by simpa using hline) (readLine_continued (p := p) hw)
  rwa [List.append_assoc] at this

/-- The lines of some variables add up in the cache. -/
lemma reads_envLines (hm : ∀ e ∈ m, EnvEntry e) :
    Reads readLine p ((m.map fun e => e.1 ++ 61 :: e.2).flatMap listLine)
      { p with data_cache := p.data_cache ++ envText m } := by
  induction m generalizing p with
  | nil => simpa [envText] using Reads.nil p
  | cons e m ih =>
    have he := hm e List.mem_cons_self
    have hline : listLine (e.1 ++ 61 :: e.2) = e.1 ++ 61 :: (e.2 ++ [44]) ++ [92, 10] := by
      rw [listLine, cString_text he.oneLine]
      simp
    have hnotMem : 10 ∉ e.1 ++ 61 :: (e.2 ++ [44]) := by
      have h : 10 ∉ e.1 ++ 61 :: e.2 := fun h => (he.oneLine 10 h).2.2 rfl
      simp only [List.mem_append, List.mem_cons, List.not_mem_nil, or_false, not_or] at h ⊢
      exact ⟨h.1, h.2.1, h.2.2, by decide⟩
    have htext : envText (e :: m) = e.1 ++ 61 :: (e.2 ++ [44]) ++ envText m := List.flatMap_cons
    rw [List.map_cons, List.flatMap_cons, hline, htext, ← List.append_assoc p.data_cache]
    exact (reads_continued (he.head (e.2 ++ [44])) hnotMem).append
      (ih fun e' he' => hm e' (List.mem_cons_of_mem e he'))

/-- The text of the environment is read as one value. -/
lemma entryValue_envText (hm : ∀ e ∈ m, EnvEntry e) (hsize : (envText m).length < 128 * 1024 + 1) :
    EntryValue (envText m) := by
  refine ⟨trim_eq_self (fun c hc => ?_) fun c hc => ?_, fun c hc => ?_, hsize⟩
  · cases m with
    | nil => simp [envText] at hc
    | cons e m =>
      rw [envText, List.flatMap_cons, List.append_assoc] at hc
      exact ((hm e List.mem_cons_self).head _ c hc).1
  · induction m using List.reverseRecOn with
    | nil => simp [envText] at hc
    | append_singleton m e _ =>
      have hlast : (envText (m ++ [e])).getLast? = some 44 := by
        rw [envText, List.flatMap_append, List.flatMap_singleton, ← List.cons_append,
          ← List.append_assoc, ← List.append_assoc, List.getLast?_append, List.getLast?_singleton,
          Option.some_or]
      rw [hlast, Option.mem_some_iff] at hc
      rw [← hc]
      decide
  · obtain ⟨e, he, hc⟩ := List.mem_flatMap.mp hc
    have hc : c ∈ (e.1 ++ 61 :: e.2) ++ [44] := by simpa using hc
    rcases List.mem_append.mp hc with hc | hc
    · exact (hm e he).oneLine c hc
    · rw [List.mem_singleton.mp hc]
      decide

/-- **The environment that is written is read**, at the end of the file at the latest. -/
lemma reads_environment (hkey : EntryKey key) (hm : ∀ e ∈ m, EnvEntry e)
    (hsize : (envText m).length < 128 * 1024 + 1) (hcomment : OneLine comment)
    (hp : p.data_cache = []) :
    ∃ w q, appendKeyValuelistTofile key (m.map fun e => e.1 ++ 61 :: e.2) comment = some w ∧
      Reads readLine p w q ∧
      finish q = some (flushItem (insertEntry p.info key (envText m)) p.itemMap).2 := by
  cases m with
  | nil =>
    have hnil : EntryValue [] := ⟨rfl, oneLine_nil, by simp⟩
    obtain ⟨w, hw, hreads⟩ := reads_entry hkey hnil (by simp) hcomment hp
    exact ⟨w, _, hw, hreads, by simp [finish, handleCache, envText]⟩
  | cons e m =>
    have he := hm e List.mem_cons_self
    have hlines : appendKeyValuelistTofile key ((e :: m).map fun e => e.1 ++ 61 :: e.2) comment =
        some (commentLine comment ++ (key ++ 61 :: (e.1 ++ 61 :: (e.2 ++ [44])) ++ [92, 10] ++
          (m.map fun e => e.1 ++ 61 :: e.2).flatMap listLine)) := by
      simp [appendKeyValuelistTofile, hkey.ne_nil, cString_text hkey.oneLine, listLine,
        cString_text he.oneLine]
    have htext : key ++ 61 :: envText (e :: m) =
        key ++ 61 :: (e.1 ++ 61 :: (e.2 ++ [44])) ++ envText m := by
      simp [envText]
    refine ⟨_, { p with data_cache := key ++ 61 :: envText (e :: m) }, hlines, ?_, ?_⟩
    · have hhead : ∀ c ∈ (key ++ 61 :: (e.1 ++ 61 :: (e.2 ++ [44]))).head?,
          isTrimCharacter c = false ∧ c ≠ 35 ∧ c ≠ 91 := by
        intro c hc
        rw [head?_entry hkey] at hc
        exact ⟨head?_of_trim hkey.trimmed c hc, fun h => hkey.head_comment (h ▸ hc),
          fun h => hkey.head_item (h ▸ hc)⟩
      have hnotMem : 10 ∉ key ++ 61 :: (e.1 ++ 61 :: (e.2 ++ [44])) := by
        have h : 10 ∉ e.1 ++ 61 :: e.2 := fun h => (he.oneLine 10 h).2.2 rfl
        have hk : 10 ∉ key := fun h => (hkey.oneLine 10 h).2.2 rfl
        simp only [List.mem_append, List.mem_cons, List.not_mem_nil, or_false, not_or] at h ⊢
        exact ⟨hk, by decide, h.1, h.2.1, h.2.2, by decide⟩
      have hfirst := reads_continued (p := p) hhead hnotMem
      rw [hp, List.nil_append] at hfirst
      rw [htext]
      exact (reads_commentLine hcomment).append (hfirst.append
        (reads_envLines fun e' he' => hm e' (List.mem_cons_of_mem e he')))
    · rw [finish, handleCache_entry hkey (entryValue_envText hm hsize), Option.map_some]

/-! ## The pieces of the environment -/

lemma splitOn_envText (hm : ∀ e ∈ m, EnvEntry e) :
    (envText m).splitOn 44 = (m.map fun e => e.1 ++ 61 :: e.2) ++ [[]] := by
  induction m with
  | nil => rfl
  | cons e m ih =>
    have htext : envText (e :: m) = e.1 ++ 61 :: e.2 ++ 44 :: envText m := by simp [envText]
    rw [htext, List.splitOn_append_cons_self_of_not_mem (hm e List.mem_cons_self).notMem,
      ih fun e' he' => hm e' (List.mem_cons_of_mem e he')]
    rfl

/-- A variable is read when it has a name and a value. -/
lemma scanTwo_envEntry (he : EnvEntry e) : scanTwo 61 [13, 10] 512 2048 (e.1 ++ 61 :: e.2) =
    some (if e.1 ≠ [] ∧ e.2 ≠ [] then some e else none) := by
  have hsep : ∀ c ∈ e.1, c ≠ 61 := fun c hc h => he.name_notMem.1 (h ▸ hc)
  have hzero : ∀ c ∈ e.1 ++ 61 :: e.2, c ≠ 0 := fun c hc => (he.oneLine c hc).1
  split_ifs with hne
  · have hscan : scanTwo 61 [13, 10] 512 2048 (e.1 ++ 61 :: (e.2 ++ [])) = some (some e) :=
      scanTwo_of_words hne.1 hsep he.name_size hne.2
        (fun c hc => by simpa using (he.value.1 c hc).2) he.value_size (by simp)
        (by simpa using hzero)
    rwa [List.append_nil] at hscan
  · by_cases hname : e.1 = []
    · rw [scanTwo, cString_eq_self hzero]
      simp [hname, scanUntil]
    · have hvalue : e.2 = [] := by simpa [hname] using hne
      rw [hvalue]
      exact scanTwo_of_first _ hsep he.name_size (Or.inr rfl) (hvalue ▸ hzero)

lemma splitEnvLoop_entries (hm : ∀ e ∈ m, EnvEntry e) (ret : StringMap) :
    splitEnvLoop ((m.map fun e => e.1 ++ 61 :: e.2) ++ [[]]) ret =
      some ((m.filter fun e => e.1 ≠ [] ∧ e.2 ≠ []).foldl
        (fun m e => SortedMap.emplace e.1 e.2 m) ret) := by
  induction m generalizing ret with
  | nil => rfl
  | cons e m ih =>
    have he := hm e List.mem_cons_self
    have ih := ih fun e' he' => hm e' (List.mem_cons_of_mem e he')
    rw [List.map_cons, List.cons_append, splitEnvLoop, if_neg (by simp), scanTwo_envEntry he,
      Option.bind_some, List.filter_cons]
    split_ifs with hne hne' hne'
    · simp only [he.name.2, he.value.2, ih, List.foldl_cons]
    · simp [hne] at hne'
    · simp [hne] at hne'
    · exact ih ret

/-- **What is read of the environment**: the variables that have a name and a value. -/
theorem splitEnvInput_envText (hm : ∀ e ∈ m, EnvEntry e) (hsorted : SortedMap.Sorted m) :
    splitEnvInput (envText m) 44 = some (m.filter fun e => e.1 ≠ [] ∧ e.2 ≠ []) := by
  rw [splitEnvInput, splitOn_envText hm, splitEnvLoop_entries hm,
    SortedMap.foldl_emplace_self (List.Pairwise.filter _ hsorted)]

end DaemonFileHelper

end SignalEventLoop.Daemon
