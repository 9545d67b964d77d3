/-
# The sections of a config file

`parser` carries one `info` and one `data_cache` over all lines of a file.  A section goes into
`itemMap` at the next line of a section, or at the end of the file, and only then `info` is
cleared.  So what is in `info` without going into `itemMap` stays for a later section: the
description of a section without entries, and the entries in front of the first section.

The lines of a file are divided here into sections without any state; `parser_sections_iff` says
when the sections that are read are these.
-/
import SignalEventLoop.Daemon.ConfigLines

namespace SignalEventLoop.Daemon

open Lib
open scoped ByteOrder Bytes

namespace DaemonFileHelper

/-! ## The lines of a file -/

/-- What stands in the line of a section, `[name]` or `[name:description]`. -/
structure SectionLine where
  name : Bytes
  description : Option Bytes
deriving DecidableEq

def SectionLine.text (l : SectionLine) : Bytes :=
  91 :: (l.name ++ ((l.description.map fun d => 58 :: d).getD [] ++ [93]))

/-- The line can be taken apart again, and its words fit into their arrays; without a description
the bracket is read with the name. -/
structure SectionLine.Fits (l : SectionLine) : Prop where
  name : trim l.name ≠ []
  colon : 58 ∉ l.name
  size : l.name.length < 128
  bracket : l.description = none → l.name.length + 1 < 128
  description : ∀ d ∈ l.description, d ≠ [] ∧ 93 ∉ d ∧ d.length < 128

def sectionLine (data : Bytes) : SectionLine :=
  let inner := (data.drop 1).dropLast
  ⟨inner.takeWhile (· ≠ 58), (inner.dropWhile (· ≠ 58)).tail?⟩

/-- A line of a file. -/
inductive ConfigLine where
  | comment
  | header (l : SectionLine)
  /-- A part of a key line, and whether it goes on in the next line. -/
  | key (text : Bytes) (goesOn : Bool)

def configLine (line : Bytes) : ConfigLine :=
  let data := trim line
  if data.head? = some 35 ∨ data = [] then .comment
  else if data.head? = some 91 then .header (sectionLine data)
  else if data.getLast? = some 92 then .key data.dropLast true
  else .key data false

/-- A section of a file: its own line, and the parts of its key lines. -/
structure ConfigSection where
  line : SectionLine
  parts : List (Bytes × Bool)
deriving DecidableEq

/-- The parts of the key lines in front of the first section, and the sections. -/
def sections : List ConfigLine → List (Bytes × Bool) × List ConfigSection
  | [] => ([], [])
  | .comment :: lines => sections lines
  | .header l :: lines => ([], ⟨l, (sections lines).1⟩ :: (sections lines).2)
  | .key text goesOn :: lines => ((text, goesOn) :: (sections lines).1, (sections lines).2)

/-- The key lines that are put together from their parts; a section ends the last one. -/
def keyLines : Bytes → List (Bytes × Bool) → List Bytes
  | text, [] => if text = [] then [] else [text]
  | text, (part, true) :: parts => keyLines (text ++ part) parts
  | text, (part, false) :: parts => (text ++ part) :: keyLines [] parts

/-- The key and the value of a key line that is valid; it has a key and a separator at least. -/
def lineEntry (line : Bytes) : Option (Bytes × Bytes) :=
  if line.length < 2 then none
  else
    match scanKeyValue line with
    | some (some (key, value)) => some (trim key, trim value)
    | _ =>
      if line.getLast? = some 58 ∨ line.getLast? = some 61 then some (trim line.dropLast, [])
      else none

/-- The entries of some key lines; the first one of a key counts. -/
def entryMap (parts : List (Bytes × Bool)) : StringMap :=
  ((keyLines [] parts).filterMap lineEntry).foldl (fun m e => SortedMap.emplace e.1 e.2 m) []

def ConfigSection.ownDescription (s : ConfigSection) : Bytes :=
  (s.line.description.map trim).getD []

def fileSections (file : Bytes) : List ConfigSection :=
  (sections ((getlines file).map configLine)).2

/-- The parts of the key lines in front of the first section. -/
def partsBefore (file : Bytes) : List (Bytes × Bool) :=
  (sections ((getlines file).map configLine)).1

/-- All key lines of a file. -/
def fileKeyLines (file : Bytes) : List Bytes :=
  keyLines [] (partsBefore file) ++ (fileSections file).flatMap fun s => keyLines [] s.parts

/-- A file of comments, lines of sections with different names, and key lines. -/
structure IsConfigFile (file : Bytes) : Prop where
  nulFree : ∀ c ∈ file, c ≠ 0
  sectionLines : ∀ line ∈ getlines file, (trim line).head? = some 91 →
    ∃ l : SectionLine, l.Fits ∧ trim line = l.text
  fits : ∀ line ∈ fileKeyLines file, scanKeyValue line ≠ none
  distinct : ((fileSections file).map fun s => trim s.line.name).Nodup

/-! ## Reading the lines -/

section

variable {l : SectionLine} {info : DaemonConfigInfo} {line w : Bytes}
  {itemMap : List (Bytes × DaemonConfigInfo)}

/-- A line that is printed is taken apart again. -/
lemma sectionLine_text (hcolon : 58 ∉ l.name) : sectionLine l.text = l := by
  obtain ⟨name, description⟩ := l
  have hinner : ((SectionLine.text ⟨name, description⟩).drop 1).dropLast =
      name ++ (description.map fun d => 58 :: d).getD [] := by
    rw [SectionLine.text, List.drop_succ_cons, List.drop_zero, ← List.append_assoc,
      List.dropLast_concat]
  have hword : ∀ c ∈ name, decide (c ≠ 58) = true := by
    intro c hc
    exact decide_eq_true (ne_of_mem_of_not_mem hc hcolon)
  rw [sectionLine, hinner, List.takeWhile_append_of_pos hword, List.dropWhile_append_of_pos hword]
  cases description <;> simp

/-- What a line of a section does with `info`. -/
def setSection (info : DaemonConfigInfo) (l : SectionLine) : DaemonConfigInfo :=
  match l.description with
  | none => { info with fieldName := l.name }
  | some d => { info with fieldName := trim l.name, description := trim d }

lemma scanItem_text (hfits : l.Fits) (hzero : ∀ c ∈ l.text, c ≠ 0) :
    scanItem l.text info = some (setSection info l) := by
  obtain ⟨name, description⟩ := l
  have hne : name ≠ [] := by
    rintro rfl
    exact hfits.name rfl
  have hpos := List.length_pos_iff.mpr hne
  have hcolon : ∀ c ∈ name, c ≠ 58 := fun c hc => ne_of_mem_of_not_mem hc hfits.colon
  have hzero' : ∀ c ∈ (SectionLine.text ⟨name, description⟩).drop 1, c ≠ 0 :=
    fun c hc => hzero c (List.mem_of_mem_drop hc)
  have hlast : (SectionLine.text ⟨name, description⟩).getLast? = some 93 := by
    rw [SectionLine.text, ← List.append_assoc, ← List.cons_append, List.getLast?_append,
      List.getLast?_singleton, Option.some_or]
  have hlen : ¬ (SectionLine.text ⟨name, description⟩).length < 3 := by
    simp only [SectionLine.text, List.length_cons, List.length_append, List.length_nil]
    omega
  rw [scanItem, if_neg (not_or.mpr ⟨not_not.mpr hlast, hlen⟩)]
  cases description with
  | none =>
    -- the name is read with the bracket, and there is no second word
    have hword : ∀ c ∈ name ++ [93], c ≠ 58 := by
      intro c hc
      rcases List.mem_append.mp hc with hc | hc
      · exact hcolon c hc
      · rw [List.mem_singleton.mp hc]
        decide
    have hscan : scanTwo 58 [93] 128 128 ((SectionLine.text ⟨name, none⟩).drop 1) = some none := by
      have hsize := hfits.bracket rfl
      have hfirst : scanTwo 58 [93] 128 128 (name ++ [93] ++ []) = some none :=
        scanTwo_of_first [] hword (by rw [List.length_append, List.length_singleton]; exact hsize)
          (Or.inl rfl) (by simpa [SectionLine.text] using hzero')
      simpa [SectionLine.text] using hfirst
    rw [hscan]
    simp [setSection, SectionLine.text]
  | some d =>
    obtain ⟨hd, hstop, hsize⟩ := hfits.description d rfl
    have hscan : scanTwo 58 [93] 128 128 ((SectionLine.text ⟨name, some d⟩).drop 1) =
        some (some (name, d)) := by
      refine scanTwo_of_words hne hcolon hfits.size hd (fun c hc => ?_) hsize (by simp) hzero'
      rw [List.mem_singleton]
      exact ne_of_mem_of_not_mem hc hstop
    rw [hscan]
    rfl

/-- Some entries more in `info`. -/
def addEntries (info : DaemonConfigInfo) (lines : List Bytes) : DaemonConfigInfo :=
  { info with
    configMap := (lines.filterMap lineEntry).foldl (fun m e => SortedMap.emplace e.1 e.2 m)
      info.configMap }

@[simp] lemma addEntries_nil : addEntries info [] = info := rfl

lemma addEntries_cons (line : Bytes) (lines : List Bytes) :
    addEntries info (line :: lines) = addEntries (addEntries info [line]) lines := by
  simp only [addEntries, List.filterMap_cons, List.filterMap_nil]
  cases lineEntry line <;> rfl

/-- A key line in the cache goes into `info`. -/
lemma handleCache_line (hlen : 2 ≤ line.length) (hfits : scanKeyValue line ≠ none) :
    handleCache line info = some ([], addEntries info [line]) := by
  obtain ⟨scanned, hscanned⟩ := Option.ne_none_iff_exists'.mp hfits
  rw [handleCache, if_pos hlen, hscanned, Option.map_some]
  have hlen : ¬ line.length < 2 := by omega
  cases scanned with
  | some pair => simp [addEntries, lineEntry, hlen, hscanned, insertEntry]
  | none =>
    by_cases hend : line.getLast? = some 58 ∨ line.getLast? = some 61
    · simp [addEntries, lineEntry, hlen, hscanned, insertEntry, hend]
    · simp [addEntries, lineEntry, hlen, hscanned, hend]

/-- A single byte stays in the cache. -/
lemma handleCache_short (hlen : line.length < 2) : handleCache line info = some (line, info) := by
  rw [handleCache, if_neg (by omega)]

lemma handleCache_nil : handleCache [] info = some ([], info) := handleCache_short (by decide)

lemma addEntries_short (hlen : line.length < 2) : addEntries info [line] = info := by
  simp [addEntries, lineEntry, hlen]

/-- A key line is handled: it goes into `info`, or it is a single byte. -/
lemma handleCache_keyLine (info : DaemonConfigInfo) (hne : line ≠ [])
    (hfits : scanKeyValue line ≠ none) :
    ∃ w, handleCache line info = some (w, addEntries info [line]) ∧
      (w = [] ∨ w = line ∧ line.length = 1) := by
  have hpos := List.length_pos_iff.mpr hne
  by_cases hlen : line.length < 2
  · exact ⟨line, by rw [handleCache_short hlen, addEntries_short hlen], Or.inr ⟨rfl, by omega⟩⟩
  · exact ⟨[], handleCache_line (by omega) hfits, Or.inl rfl⟩

/-- A key line without an end is handled at the end of its section. -/
lemma handleCache_rest (info : DaemonConfigInfo)
    (hfits : ∀ line ∈ keyLines w [], scanKeyValue line ≠ none) :
    ∃ w', handleCache w info = some (w', addEntries info (keyLines w [])) ∧
      (w' = [] ∨ w'.length = 1 ∧ keyLines w [] = [w']) := by
  by_cases hw : w = []
  · exact ⟨[], by simp [hw, keyLines, handleCache], Or.inl rfl⟩
  · rw [keyLines, if_neg hw] at hfits ⊢
    obtain ⟨w', hcache, hw'⟩ := handleCache_keyLine info hw (hfits w List.mem_cons_self)
    refine ⟨w', hcache, hw'.imp_right ?_⟩
    rintro ⟨rfl, hlen⟩
    exact ⟨hlen, rfl⟩

lemma keyLines_ne_nil (hw : w ≠ []) (parts : List (Bytes × Bool)) : keyLines w parts ≠ [] := by
  induction parts generalizing w with
  | nil => simp [keyLines, hw]
  | cons part parts ih =>
    obtain ⟨text, goesOn⟩ := part
    cases goesOn with
    | true => exact ih (List.append_ne_nil_of_left_ne_nil hw text)
    | false => exact List.cons_ne_nil _ _

/-- The sections go into `itemMap` one after the other. -/
def storeSections (info : DaemonConfigInfo) (itemMap : List (Bytes × DaemonConfigInfo)) :
    List ConfigSection → List (Bytes × DaemonConfigInfo)
  | [] => (flushItem info itemMap).2
  | s :: ss =>
    let (info, itemMap) := flushItem info itemMap
    storeSections (addEntries (setSection info s.line) (keyLines [] s.parts)) itemMap ss

/-- What the reader does with a line of each kind. -/
lemma readLine_eq (p : DaemonFileHelper) (line : Bytes) : readLine p line =
    match configLine line with
    | .comment => some p
    | .header _ =>
      (handleCache p.data_cache p.info).bind fun (data_cache, info) =>
        let (info, itemMap) := flushItem info p.itemMap
        (scanItem (trim line) info).map fun info => ⟨data_cache, info, itemMap⟩
    | .key text true => some { p with data_cache := p.data_cache ++ text }
    | .key text false =>
      (handleCache (p.data_cache ++ text) p.info).map fun (data_cache, info) =>
        { p with data_cache := data_cache, info := info } := by
  rw [readLine, configLine]
  split_ifs <;> rfl

/-- A line of a section has its form. -/
lemma fits_of_configLine (hsection : (trim line).head? = some 91 →
    ∃ l : SectionLine, l.Fits ∧ trim line = l.text) (h : configLine line = .header l) :
    l.Fits ∧ trim line = l.text := by
  rw [configLine] at h
  split_ifs at h with hcomment hitem
  obtain ⟨l', hfits, htext⟩ := hsection hitem
  rw [htext, sectionLine_text hfits.colon, ConfigLine.header.injEq] at h
  exact h ▸ ⟨hfits, htext⟩

lemma ne_nil_of_configLine (h : configLine line = .key w false) : w ≠ [] := by
  rw [configLine] at h
  split_ifs at h with hcomment hitem hlast
  · exact absurd (ConfigLine.key.inj h).2 (by decide)
  · obtain ⟨rfl, -⟩ := ConfigLine.key.inj h
    exact (not_or.mp hcomment).2

/-- A single byte in the cache makes no difference where no key line follows. -/
lemma run_readLine_short {lines : List Bytes} (hw : w.length < 2)
    (hnone : keyLines [] (sections (lines.map configLine)).1 ++
      ((sections (lines.map configLine)).2.flatMap fun s => keyLines [] s.parts) = []) :
    (run readLine ⟨w, info, itemMap⟩ lines).bind finish =
      (run readLine ⟨[], info, itemMap⟩ lines).bind finish := by
  induction lines generalizing info itemMap with
  | nil => simp only [run_nil, Option.bind_some, finish, handleCache_short hw]; rfl
  | cons line lines ih =>
    rw [run_cons, run_cons, readLine_eq, readLine_eq]
    rw [List.map_cons] at hnone
    cases hline : configLine line with
    | comment =>
      rw [hline] at hnone
      exact ih hnone
    | header l =>
      rw [hline, sections, List.flatMap_cons] at hnone
      simp only [handleCache_short hw, handleCache_nil, Option.bind_some]
      cases scanItem (trim line) (flushItem info itemMap).1 with
      | none => rfl
      | some info' => exact ih hnone
    | key text goesOn =>
      rw [hline, sections] at hnone
      cases goesOn with
      | true =>
        -- the part is empty, as it would be a key line otherwise
        have htext : text = [] := by
          by_contra hne
          exact keyLines_ne_nil hne _ (List.append_eq_nil_iff.mp hnone).1
        subst htext
        simp only [List.append_nil, Option.bind_some]
        exact ih hnone
      | false => exact absurd hnone (List.cons_ne_nil _ _)

/-- When at most the last key line is a single byte, none follows one that stays in the cache. -/
lemma run_readLine_rest {lines : List Bytes} {before : List Bytes}
    (hshort : ∀ line ∈ (before ++ (keyLines [] (sections (lines.map configLine)).1 ++
      (sections (lines.map configLine)).2.flatMap fun s => keyLines [] s.parts)).dropLast,
      line.length ≠ 1) (hw : w = [] ∨ w.length = 1 ∧ before = [w]) :
    (run readLine ⟨w, info, itemMap⟩ lines).bind finish =
      (run readLine ⟨[], info, itemMap⟩ lines).bind finish := by
  rcases hw with rfl | ⟨hlen, rfl⟩
  · rfl
  · refine run_readLine_short (by omega) ?_
    by_contra hne
    rw [List.dropLast_append_of_ne_nil hne] at hshort
    exact hshort w List.mem_cons_self hlen

lemma mem_dropLast_append {x : Bytes} (as : List Bytes) {bs : List Bytes} (hx : x ∈ bs.dropLast) :
    x ∈ (as ++ bs).dropLast := by
  have hne : bs ≠ [] := by
    rintro rfl
    exact absurd hx List.not_mem_nil
  rw [List.dropLast_append_of_ne_nil hne]
  exact List.mem_append_right _ hx

/-- **The lines are read as the sections that they are divided into**, when at most the last key
line is a single byte. -/
lemma run_readLine_sections {lines : List Bytes} (hzero : ∀ line ∈ lines, ∀ c ∈ line, c ≠ 0)
    (hsections : ∀ line ∈ lines, (trim line).head? = some 91 →
      ∃ l : SectionLine, l.Fits ∧ trim line = l.text)
    (hfits : ∀ line ∈ keyLines w (sections (lines.map configLine)).1 ++
      (sections (lines.map configLine)).2.flatMap fun s => keyLines [] s.parts,
      scanKeyValue line ≠ none)
    (hshort : ∀ line ∈ (keyLines w (sections (lines.map configLine)).1 ++
      (sections (lines.map configLine)).2.flatMap fun s => keyLines [] s.parts).dropLast,
      line.length ≠ 1) :
    (run readLine ⟨w, info, itemMap⟩ lines).bind finish =
      some (storeSections (addEntries info (keyLines w (sections (lines.map configLine)).1)) itemMap
        (sections (lines.map configLine)).2) := by
  induction lines generalizing w info itemMap with
  | nil =>
    obtain ⟨w', hrest, -⟩ := handleCache_rest info fun line hline =>
      hfits line (List.mem_append_left _ hline)
    rw [run_nil, Option.bind_some, finish, hrest, Option.map_some]
    rfl
  | cons line lines ih =>
    have hzero' := fun l hl => hzero l (List.mem_cons_of_mem line hl)
    have hsections' := fun l hl => hsections l (List.mem_cons_of_mem line hl)
    rw [run_cons, readLine_eq]
    rw [List.map_cons] at hfits hshort ⊢
    cases hline : configLine line with
    | comment =>
      rw [hline] at hfits hshort
      exact ih hzero' hsections' hfits hshort
    | header l =>
      obtain ⟨hl, htext⟩ := fits_of_configLine (hsections line List.mem_cons_self) hline
      have hnul : ∀ c ∈ l.text, c ≠ 0 := fun c hc =>
        hzero line List.mem_cons_self c (mem_of_mem_trimEnds (htext ▸ hc))
      simp only [hline, sections, List.flatMap_cons] at hfits hshort ⊢
      obtain ⟨w', hrest, hw'⟩ := handleCache_rest info fun line hline =>
        hfits line (List.mem_append_left _ hline)
      simp only [hrest, htext, scanItem_text hl hnul, Option.map_some, Option.bind_some]
      rw [run_readLine_rest hshort hw', ih hzero' hsections'
        (fun line hline => hfits line (List.mem_append_right _ hline))
        fun line hline => hshort line (mem_dropLast_append _ hline)]
      rfl
    | key text goesOn =>
      simp only [hline, sections] at hfits hshort ⊢
      cases goesOn with
      | true => exact ih hzero' hsections' hfits hshort
      | false =>
        simp only [keyLines, List.cons_append] at hfits hshort ⊢
        obtain ⟨w', hcache, hw'⟩ := handleCache_keyLine info
          (List.append_ne_nil_of_right_ne_nil w (ne_nil_of_configLine hline))
          (hfits _ List.mem_cons_self)
        have hbefore : w' = [] ∨ w'.length = 1 ∧ [w ++ text] = [w'] := by
          refine hw'.imp_right ?_
          rintro ⟨rfl, hlen⟩
          exact ⟨hlen, rfl⟩
        rw [← List.singleton_append] at hshort
        simp only [hcache, Option.map_some, Option.bind_some]
        rw [run_readLine_rest hshort hbefore, ih hzero' hsections'
          (fun line hline => hfits line (List.mem_cons_of_mem _ hline))
          (fun line hline => hshort line (mem_dropLast_append _ hline)), ← addEntries_cons]

/-! ## The sections that are stored -/

/-- What goes into `itemMap`, with the description and the entries that are in `info` at the line
of the first section. -/
def stored (info : DaemonConfigInfo) : List ConfigSection → List (Bytes × DaemonConfigInfo)
  | [] => []
  | s :: ss =>
    let info := addEntries (setSection info s.line) (keyLines [] s.parts)
    if info.configMap = [] then stored info ss
    else (trim info.fieldName, info) :: stored ⟨[], [], []⟩ ss

@[simp] lemma setSection_configMap : (setSection info l).configMap = info.configMap := by
  rw [setSection]
  split <;> rfl

lemma setSection_description :
    (setSection info l).description = (l.description.map trim).getD info.description := by
  rw [setSection]
  split <;> simp_all

lemma trim_fieldName : trim (setSection info l).fieldName = trim l.name := by
  rw [setSection]
  split <;> simp

lemma fieldName_ne_nil (hfits : l.Fits) : (setSection info l).fieldName ≠ [] := by
  intro h
  have htrim : trim (setSection info l).fieldName = trim l.name := trim_fieldName
  rw [h] at htrim
  exact hfits.name htrim.symm

lemma flushItem_addEntries (hfits : l.Fits) (lines : List Bytes) :
    flushItem (addEntries (setSection info l) lines) itemMap =
      if (addEntries (setSection info l) lines).configMap = [] then
        (addEntries (setSection info l) lines, itemMap)
      else (⟨[], [], []⟩, SortedMap.emplace (trim (setSection info l).fieldName)
        (addEntries (setSection info l) lines) itemMap) := by
  have hname : (addEntries (setSection info l) lines).fieldName ≠ [] := fieldName_ne_nil hfits
  rw [flushItem]
  split_ifs with h h' h'
  · exact absurd h' h.2
  · rfl
  · rfl
  · exact absurd ⟨hname, h'⟩ h

/-- Every section is stored at the line of the next one, the last one at the end. -/
lemma storeSections_eq {s : ConfigSection} {ss : List ConfigSection}
    (hfits : ∀ s' ∈ s :: ss, s'.line.Fits) :
    storeSections (addEntries (setSection info s.line) (keyLines [] s.parts)) itemMap ss =
      (stored info (s :: ss)).foldl (fun m e => SortedMap.emplace e.1 e.2 m) itemMap := by
  induction ss generalizing info itemMap s with
  | nil =>
    rw [storeSections, flushItem_addEntries (hfits s List.mem_cons_self), stored]
    split_ifs <;> rfl
  | cons t ss ih =>
    have hfits' : ∀ s' ∈ t :: ss, s'.line.Fits :=
      fun s' hs' => hfits s' (List.mem_cons_of_mem s hs')
    rw [storeSections, flushItem_addEntries (hfits s List.mem_cons_self), stored]
    split_ifs
    · exact ih hfits'
    · exact ih hfits'

/-- The names are those of the sections. -/
lemma stored_names (info : DaemonConfigInfo) (ss : List ConfigSection) :
    ((stored info ss).map Prod.fst).Sublist (ss.map fun s => trim s.line.name) := by
  induction ss generalizing info with
  | nil => exact List.Sublist.refl _
  | cons s ss ih =>
    rw [stored]
    split_ifs
    · exact (ih _).cons _
    · rw [List.map_cons, List.map_cons, show trim (addEntries (setSection info s.line)
        (keyLines [] s.parts)).fieldName = trim s.line.name from trim_fieldName]
      exact (ih _).cons_cons _

/-- Every section of a file has a line of the file. -/
lemma fits_of_mem_sections {lines : List Bytes} (hsections : ∀ line ∈ lines,
    (trim line).head? = some 91 → ∃ l : SectionLine, l.Fits ∧ trim line = l.text) :
    ∀ s ∈ (sections (lines.map configLine)).2, s.line.Fits := by
  induction lines with
  | nil => exact fun s hs => absurd hs List.not_mem_nil
  | cons line lines ih =>
    have ih := ih fun l hl => hsections l (List.mem_cons_of_mem line hl)
    rw [List.map_cons]
    cases hline : configLine line with
    | comment => exact ih
    | header l =>
      have hl := fits_of_configLine (hsections line List.mem_cons_self) hline
      exact List.forall_mem_cons.mpr ⟨hl.1, ih⟩
    | key text goesOn => exact ih

/-- **What `parser` reads**: the stored sections, after the entries in front of the first one. -/
theorem parser_eq_stored {file : Bytes} (hfile : IsConfigFile file)
    (hshort : ∀ line ∈ (fileKeyLines file).dropLast, line.length ≠ 1) :
    parser file = some ((stored ⟨[], [], entryMap (partsBefore file)⟩ (fileSections file)).foldl
      (fun m e => SortedMap.emplace e.1 e.2 m) []) := by
  have hzero : ∀ line ∈ getlines file, ∀ c ∈ line, c ≠ 0 :=
    fun line hline c hc => hfile.nulFree c (mem_of_mem_getlines hline hc)
  have hfits : ∀ s ∈ fileSections file, s.line.Fits := fits_of_mem_sections hfile.sectionLines
  rw [parser, run_readLine_sections hzero hfile.sectionLines hfile.fits hshort]
  change some (storeSections ⟨[], [], entryMap (partsBefore file)⟩ [] (fileSections file)) = _
  cases hss : fileSections file with
  | nil => rfl
  | cons s ss =>
    rw [hss] at hfits
    rw [← storeSections_eq hfits]
    rfl

/-! ## The sections of a file apart from each other -/

/-- Every section with entries has its own description and just its own entries, and the keys in
front of the first section are in no section that does not have them itself. -/
structure SectionsApart (before : StringMap) (ss : List ConfigSection)
    (itemMap : List (Bytes × DaemonConfigInfo)) : Prop where
  own : ∀ s ∈ ss, entryMap s.parts ≠ [] → ∃ info,
    SortedMap.find (trim s.line.name) itemMap = some info ∧
      info.description = s.ownDescription ∧ info.configMap = entryMap s.parts
  before : ∀ s ∈ ss, ∀ info, SortedMap.find (trim s.line.name) itemMap = some info →
    ∀ e ∈ info.configMap, e.1 ∈ before.map Prod.fst → e.1 ∈ (entryMap s.parts).map Prod.fst

/-- The entries in front of the first section are entries of this section, too. -/
def NothingBefore (before : StringMap) : List ConfigSection → Prop
  | [] => True
  | s :: _ => ∀ e ∈ before, e ∈ entryMap s.parts

/-- No section without a description follows, in front of its first entry, a description that
belongs to a section without entries. -/
def NothingInherited : Bytes → List ConfigSection → Prop
  | _, [] => True
  | description, s :: ss =>
    if entryMap s.parts = [] then
      NothingInherited ((s.line.description.map trim).getD description) ss
    else (s.line.description = none → description = []) ∧ NothingInherited [] ss

variable {s : ConfigSection} {ss : List ConfigSection}

lemma addEntries_configMap (hinfo : info.configMap = []) :
    (addEntries (setSection info s.line) (keyLines [] s.parts)).configMap = entryMap s.parts := by
  rw [addEntries, setSection_configMap, hinfo]
  rfl

/-- The section in front of the others is stored, when it has entries. -/
lemma stored_cons (hinfo : info.configMap = []) : stored info (s :: ss) =
    if entryMap s.parts = [] then
      stored (addEntries (setSection info s.line) (keyLines [] s.parts)) ss
    else (trim s.line.name, addEntries (setSection info s.line) (keyLines [] s.parts)) ::
      stored ⟨[], [], []⟩ ss := by
  have hname : trim (addEntries (setSection info s.line) (keyLines [] s.parts)).fieldName =
      trim s.line.name := trim_fieldName
  rw [stored, addEntries_configMap hinfo, hname]

lemma names_cons (h : ((s :: ss).map fun s => trim s.line.name).Nodup) :
    (∀ s' ∈ ss, trim s'.line.name ≠ trim s.line.name) ∧
      (ss.map fun s => trim s.line.name).Nodup := by
  rw [List.map_cons, List.nodup_cons, List.mem_map, not_exists] at h
  exact ⟨fun s' hs' heq => h.1 s' ⟨hs', heq⟩, h.2⟩

/-- What is stored for the sections behind has other names. -/
lemma name_ne_of_mem_stored (h : ((s :: ss).map fun s => trim s.line.name).Nodup)
    {e : Bytes × DaemonConfigInfo} (he : e ∈ stored info ss) : e.1 ≠ trim s.line.name := by
  have hmem := (stored_names info ss).subset (List.mem_map_of_mem he)
  obtain ⟨s', hs', hname⟩ := List.mem_map.mp hmem
  exact hname ▸ (names_cons h).1 s' hs'

/-- Without entries from before, every stored section has just its own entries. -/
lemma stored_configMap (hinfo : info.configMap = [])
    (hdistinct : (ss.map fun s => trim s.line.name).Nodup) :
    ∀ s ∈ ss, ∀ info', (trim s.line.name, info') ∈ stored info ss →
      info'.configMap = entryMap s.parts := by
  induction ss generalizing info with
  | nil => exact fun s hs => absurd hs List.not_mem_nil
  | cons t ss ih =>
    obtain ⟨hother, hnodup⟩ := names_cons hdistinct
    rw [stored_cons hinfo]
    split_ifs with hempty
    · refine List.forall_mem_cons.mpr ⟨fun info' hmem => ?_, ih ?_ hnodup⟩
      · exact absurd rfl (name_ne_of_mem_stored hdistinct hmem)
      · rw [addEntries_configMap hinfo, hempty]
    · refine List.forall_mem_cons.mpr ⟨fun info' hmem => ?_, fun s hs info' hmem => ?_⟩
      · rcases List.mem_cons.mp hmem with heq | hmem
        · obtain ⟨-, rfl⟩ := Prod.mk.inj heq
          exact addEntries_configMap hinfo
        · exact absurd rfl (name_ne_of_mem_stored hdistinct hmem)
      · rcases List.mem_cons.mp hmem with heq | hmem
        · exact absurd (Prod.ext_iff.mp heq).1 (hother s hs)
        · exact ih rfl hnodup s hs info' hmem

/-- **The descriptions**, without entries from before. -/
lemma stored_own_iff (hinfo : info.configMap = [])
    (hdistinct : (ss.map fun s => trim s.line.name).Nodup) :
    (∀ s ∈ ss, entryMap s.parts ≠ [] → ∃ info', (trim s.line.name, info') ∈ stored info ss ∧
        info'.description = s.ownDescription ∧ info'.configMap = entryMap s.parts) ↔
      NothingInherited info.description ss := by
  induction ss generalizing info with
  | nil => exact ⟨fun _ => trivial, fun _ s hs => absurd hs List.not_mem_nil⟩
  | cons t ss ih =>
    obtain ⟨hother, hnodup⟩ := names_cons hdistinct
    have hdescription : (addEntries (setSection info t.line) (keyLines [] t.parts)).description =
        (t.line.description.map trim).getD info.description := setSection_description
    rw [stored_cons hinfo, NothingInherited, List.forall_mem_cons]
    split_ifs with hempty
    · have hmap := addEntries_configMap (s := t) hinfo
      rw [← hdescription, ← ih (hmap.trans hempty) hnodup]
      exact and_iff_right fun hne => absurd hempty hne
    · rw [← @ih ⟨[], [], []⟩ rfl hnodup]
      refine and_congr ?_ ?_
      · constructor
        · intro h hnone
          obtain ⟨info', hmem, hown, -⟩ := h hempty
          rcases List.mem_cons.mp hmem with heq | hmem
          · obtain ⟨-, rfl⟩ := Prod.mk.inj heq
            simpa [hdescription, ConfigSection.ownDescription, hnone] using hown
          · exact absurd rfl (name_ne_of_mem_stored hdistinct hmem)
        · intro h _
          refine ⟨_, List.mem_cons_self, ?_, addEntries_configMap hinfo⟩
          rw [hdescription, ConfigSection.ownDescription]
          cases hd : t.line.description with
          | none => simp [h hd]
          | some d => rfl
      · refine forall₂_congr fun s hs => imp_congr_right fun _ => exists_congr fun info' => ?_
        rw [List.mem_cons, or_iff_right fun heq => hother s hs (Prod.ext_iff.mp heq).1]

variable {before : StringMap}

lemma find_stored (hdistinct : (ss.map fun s => trim s.line.name).Nodup) {name : Bytes}
    {info' : DaemonConfigInfo} :
    SortedMap.find name ((stored info ss).foldl (fun m e => SortedMap.emplace e.1 e.2 m) []) =
      some info' ↔ (name, info') ∈ stored info ss :=
  SortedMap.find_foldl_emplace ((stored_names info ss).nodup hdistinct)

/-- The sections, when nothing of what stands in front of them is left. -/
lemma sectionsApart_iff_inherited (hinfo : info.configMap = [])
    (hdistinct : (ss.map fun s => trim s.line.name).Nodup) :
    SectionsApart before ss
        ((stored info ss).foldl (fun m e => SortedMap.emplace e.1 e.2 m) []) ↔
      NothingInherited info.description ss := by
  rw [← stored_own_iff hinfo hdistinct]
  constructor
  · intro h s hs hne
    obtain ⟨info', hfind, hown⟩ := h.own s hs hne
    exact ⟨info', (find_stored hdistinct).mp hfind, hown⟩
  · intro h
    refine ⟨fun s hs hne => ?_, fun s hs info' hfind e he _ => ?_⟩
    · obtain ⟨info', hmem, hown⟩ := h s hs hne
      exact ⟨info', (find_stored hdistinct).mpr hmem, hown⟩
    · rw [stored_configMap hinfo hdistinct s hs info' ((find_stored hdistinct).mp hfind)] at he
      exact List.mem_map_of_mem he

/-- Entries from before that the first section has itself make no difference. -/
lemma stored_of_nothingBefore (hsorted : SortedMap.Sorted before)
    (h : NothingBefore before (s :: ss)) :
    stored ⟨[], [], before⟩ (s :: ss) = stored ⟨[], [], []⟩ (s :: ss) := by
  have hsame : addEntries (setSection ⟨[], [], before⟩ s.line) (keyLines [] s.parts) =
      addEntries (setSection ⟨[], [], []⟩ s.line) (keyLines [] s.parts) := by
    simp only [addEntries, setSection_configMap, SortedMap.foldl_emplace_of_subset hsorted h]
    rw [setSection, setSection]
    split <;> rfl
  rw [stored, stored, hsame]

/-- An entry from before that the first section does not have itself goes into it. -/
lemma not_sectionsApart (hsorted : SortedMap.Sorted before)
    (hdistinct : ((s :: ss).map fun s => trim s.line.name).Nodup) {e : Bytes × Bytes}
    (he : e ∈ before) (hown : e ∉ entryMap s.parts) : ¬ SectionsApart before (s :: ss)
      ((stored ⟨[], [], before⟩ (s :: ss)).foldl (fun m e => SortedMap.emplace e.1 e.2 m) []) := by
  intro h
  set info := addEntries (setSection ⟨[], [], before⟩ s.line) (keyLines [] s.parts) with hinfo
  have hmem : e ∈ info.configMap := by
    rw [hinfo, addEntries, setSection_configMap]
    exact (SortedMap.mem_foldl_emplace_iff hsorted).mpr (Or.inl he)
  have hne : info.configMap ≠ [] := List.ne_nil_of_mem hmem
  have hname : trim info.fieldName = trim s.line.name := trim_fieldName
  have hstored : (trim s.line.name, info) ∈ stored ⟨[], [], before⟩ (s :: ss) := by
    rw [stored, ← hinfo, if_neg hne, hname]
    exact List.mem_cons_self
  have hfind := (find_stored hdistinct).mpr hstored
  by_cases hempty : entryMap s.parts = []
  · have := h.before s List.mem_cons_self info hfind e hmem (List.mem_map_of_mem he)
    simp [hempty] at this
  · obtain ⟨info', hfind', -, hmap⟩ := h.own s List.mem_cons_self hempty
    rw [hfind, Option.some.injEq] at hfind'
    exact hown (hmap ▸ hfind' ▸ hmem)

/-- **The sections that are stored** are apart from each other exactly when nothing comes from
before them. -/
lemma sectionsApart_iff (hsorted : SortedMap.Sorted before)
    (hdistinct : (ss.map fun s => trim s.line.name).Nodup) :
    SectionsApart before ss
        ((stored ⟨[], [], before⟩ ss).foldl (fun m e => SortedMap.emplace e.1 e.2 m) []) ↔
      NothingBefore before ss ∧ NothingInherited [] ss := by
  cases ss with
  | nil =>
    refine ⟨fun _ => ⟨trivial, trivial⟩, fun _ => ⟨?_, ?_⟩⟩
    all_goals exact fun s hs => absurd hs List.not_mem_nil
  | cons s ss =>
    by_cases hbefore : NothingBefore before (s :: ss)
    · rw [stored_of_nothingBefore hsorted hbefore, sectionsApart_iff_inherited rfl hdistinct,
        and_iff_right hbefore]
    · refine iff_of_false ?_ fun h => hbefore h.1
      rw [NothingBefore] at hbefore
      push Not at hbefore
      obtain ⟨e, he, hown⟩ := hbefore
      exact not_sectionsApart hsorted hdistinct he hown

end

/-- **The sections of a config file do not leak** exactly when the entries in front of the first
section are its own, and no section takes over the description of one without entries. -/
theorem parser_sections_iff (file : Bytes) (hfile : IsConfigFile file)
    (hshort : ∀ line ∈ (fileKeyLines file).dropLast, line.length ≠ 1) :
    (∃ itemMap, parser file = some itemMap ∧
        SectionsApart (entryMap (partsBefore file)) (fileSections file) itemMap) ↔
      NothingBefore (entryMap (partsBefore file)) (fileSections file) ∧
        NothingInherited [] (fileSections file) := by
  have hsorted : SortedMap.Sorted (entryMap (partsBefore file)) :=
    SortedMap.foldl_emplace_sorted SortedMap.sorted_nil
  rw [parser_eq_stored hfile hshort, ← sectionsApart_iff hsorted hfile.distinct]
  simp

/-! ## Two files -/

instance (l : SectionLine) : Decidable l.Fits :=
  decidable_of_iff (trim l.name ≠ [] ∧ 58 ∉ l.name ∧ l.name.length < 128 ∧
      (l.description = none → l.name.length + 1 < 128) ∧
      ∀ d ∈ l.description, d ≠ [] ∧ 93 ∉ d ∧ d.length < 128)
    ⟨fun h => ⟨h.1, h.2.1, h.2.2.1, h.2.2.2.1, h.2.2.2.2⟩,
      fun h => ⟨h.name, h.colon, h.size, h.bracket, h.description⟩⟩

instance decidableNothingBefore (before : StringMap) :
    (ss : List ConfigSection) → Decidable (NothingBefore before ss)
  | [] => isTrue trivial
  | s :: _ => inferInstanceAs (Decidable (∀ e ∈ before, e ∈ entryMap s.parts))

instance decidableNothingInherited :
    (description : Bytes) → (ss : List ConfigSection) →
      Decidable (NothingInherited description ss)
  | _, [] => isTrue trivial
  | description, s :: ss =>
    have := decidableNothingInherited ((s.line.description.map trim).getD description) ss
    have := decidableNothingInherited [] ss
    inferInstanceAs (Decidable (if entryMap s.parts = [] then
      NothingInherited ((s.line.description.map trim).getD description) ss
    else (s.line.description = none → description = []) ∧ NothingInherited [] ss))

/-- A concrete file is checked by taking its lines apart. -/
lemma isConfigFile_of {file : Bytes} (hnul : ∀ c ∈ file, c ≠ 0)
    (hlines : ∀ line ∈ getlines file, (trim line).head? = some 91 →
      (sectionLine (trim line)).Fits ∧ trim line = (sectionLine (trim line)).text)
    (hfits : ∀ line ∈ fileKeyLines file, scanKeyValue line ≠ none)
    (hdistinct : ((fileSections file).map fun s => trim s.line.name).Nodup) :
    IsConfigFile file :=
  ⟨hnul, fun line hline hhead => ⟨_, hlines line hline hhead⟩, hfits, hdistinct⟩

/-- A description, a key line that goes on, and a section without a description. -/
theorem parser_sections_iff_plain :
    ∃ itemMap, parser (text "# c\n[a:d]\nk=1\\\n2\n[b]\nx=3\n") = some itemMap ∧
      SectionsApart (entryMap (partsBefore (text "# c\n[a:d]\nk=1\\\n2\n[b]\nx=3\n")))
        (fileSections (text "# c\n[a:d]\nk=1\\\n2\n[b]\nx=3\n")) itemMap :=
  (parser_sections_iff (text "# c\n[a:d]\nk=1\\\n2\n[b]\nx=3\n")
    (isConfigFile_of (by decide +kernel) (by decide +kernel) (by decide +kernel)
      (by decide +kernel)) (by decide +kernel)).mpr (by decide +kernel)

/-- An entry in front of the first section `a`, and a section `b` without entries: `a` has the
entry, and `c` has the description of `b`. -/
theorem parser_sections_leak :
    let file := text "k=1\n[a]\nx=2\n[b:d]\n[c]\ny=3\n"
    IsConfigFile file ∧ (∀ line ∈ (fileKeyLines file).dropLast, line.length ≠ 1) ∧
      parser file = some [
        (text "a", ⟨text "a", [], [(text "k", text "1"), (text "x", text "2")]⟩),
        (text "c", ⟨text "c", text "d", [(text "y", text "3")]⟩)] ∧
      ¬ ∃ itemMap, parser file = some itemMap ∧
        SectionsApart (entryMap (partsBefore file)) (fileSections file) itemMap := by
  intro file
  have hparser : parser file = some [
      (text "a", ⟨text "a", [], [(text "k", text "1"), (text "x", text "2")]⟩),
      (text "c", ⟨text "c", text "d", [(text "y", text "3")]⟩)] := by
    decide +kernel
  refine ⟨isConfigFile_of (by decide +kernel) (by decide +kernel) (by decide +kernel)
    (by decide +kernel), by decide +kernel, hparser, ?_⟩
  rintro ⟨itemMap, hitemMap, happart⟩
  rw [hparser, Option.some.injEq] at hitemMap
  obtain ⟨info, hfind, -, hmap⟩ := happart.own ⟨⟨text "a", none⟩, [(text "x=2", false)]⟩
    (by decide +kernel) (by decide +kernel)
  have hinfo : SortedMap.find (trim (text "a")) itemMap =
      some ⟨text "a", [], [(text "k", text "1"), (text "x", text "2")]⟩ := by
    rw [← hitemMap]
    decide +kernel
  obtain rfl := Option.some.inj (hinfo.symm.trans hfind)
  exact absurd hmap (by decide +kernel)

end DaemonFileHelper

end SignalEventLoop.Daemon
