/-
# The rotation of the log files

When the log file is full, `rename_file` looks through the directory for the files of the
program, `<name>.log` and `<name>_<index>.log`, gives each of those it keeps a free index behind
all others, removes the rest, and then gives the kept ones the indices from 1 on.  The names are
put together by concatenation, but they are taken apart by
`sscanf(temp.c_str(),"%[^_]_%u.log",pro_name,&index)`, which ends the program name at the first
underscore.
-/
import SignalEventLoop.Lib.CText
import SignalEventLoop.Lib.Directory
import SignalEventLoop.Lib.Run
import SignalEventLoop.Lib.Scan
import SignalEventLoop.Lib.SortedMap

namespace SignalEventLoop.Log

open Lib

/-- The regular files of `m_save_path`. -/
abbrev Dir := Directory Bytes Bytes

/-- A file name has at most `NAME_MAX` bytes. -/
def validName (name : Bytes) : Bool := name.length ≤ 255

/-- `m_pro_name+".log"` -/
def logFileName (m_pro_name : Bytes) : Bytes := m_pro_name ++ [46, 108, 111, 103]

/-- `m_pro_name+"_"+std::to_string(index)+".log"` -/
def indexFileName (m_pro_name : Bytes) (index : ℕ) : Bytes :=
  m_pro_name ++ 95 :: (decimal index ++ [46, 108, 111, 103])

/-- What `%u` stores for a number: `strtoul` reads an `unsigned long` of 64 bits, of which the
lower half is stored. -/
def storeU32 (negative : Bool) (n : ℕ) : ℕ :=
  (if n ≥ 2 ^ 64 then 2 ^ 64 - 1 else if negative then (2 ^ 64 - n) % 2 ^ 64 else n) % 2 ^ 32

/-- `sscanf(temp.c_str(),"%[^_]_%u.log",pro_name,&index)`, when it returns 2; what follows the
number does not matter. -/
def scanTemp (temp : Bytes) : Option (Bytes × ℕ) :=
  (scanUntil [95] (cString temp)).bind fun (pro_name, s) =>
    match s with
    | 95 :: s => (scanInteger s).map fun (negative, n, _) => (pro_name, storeU32 negative n)
    | _ => none

/-- What the directory scan adds to `log_files` for a file. -/
def logFileEntry (m_pro_name temp : Bytes) : Option (ℕ × Bytes) :=
  if temp = [] then none
  else if temp = logFileName m_pro_name then some (0, logFileName m_pro_name)
  else if temp.length > 512 then none
  else
    (scanTemp temp).bind fun (pro_name, index) =>
      if pro_name ≠ m_pro_name then none
      else if index > 0 then some (index, temp)
      else none

/-- The scan: `log_files`, after `readdir` has given the names of the files in some order. -/
def scanDir (m_pro_name : Bytes) (order : List Bytes) : List (ℕ × Bytes) :=
  (order.filterMap (logFileEntry m_pro_name)).foldl (fun m e => SortedMap.emplace e.1 e.2 m) []

/-- `while(log_files.find(base_index)!=log_files.end())++base_index;` -/
def firstFree (log_files : List (ℕ × Bytes)) : ℕ → ℕ → ℕ
  | 0, base_index => base_index
  | fuel + 1, base_index =>
    if (SortedMap.find base_index log_files).isSome then
      firstFree log_files fuel ((base_index + 1) % 2 ^ 32)
    else base_index

/-- The loop over `log_files`: the directory, the files that are left in `log_files`, and
`rename_list`. -/
def renameLoop (m_pro_name : Bytes) : ℕ → ℕ → ℕ → List (ℕ × Bytes) → Dir →
    Dir × List (ℕ × Bytes) × List (Bytes × Bytes)
  | 0, _, _, log_files, dir => (dir, log_files, [])
  | _, _, _, [], dir => (dir, [], [])
  | reserve_cnt + 1, base_index, file_index, (index, file) :: log_files, dir =>
    let target_name := indexFileName m_pro_name file_index
    let (base_index, new_name, dir) :=
      if base_index ≠ index then
        -- as many steps as there are files find a free index
        let base_index := firstFree ((index, file) :: log_files) (log_files.length + 2) base_index
        let new_name := indexFileName m_pro_name base_index
        (base_index, new_name, dir.rename validName file new_name)
      else (base_index, file, dir)
    let (dir, left, rename_list) := renameLoop m_pro_name reserve_cnt ((base_index + 1) % 2 ^ 32)
      ((file_index + 1) % 2 ^ 32) log_files dir
    (dir, left, if target_name ≠ new_name then (new_name, target_name) :: rename_list
      else rename_list)

/-- `AimyLogger::rename_file`, with the order in which `readdir` gives the files. -/
def rename_file (m_pro_name : Bytes) (m_log_file_cache_max_cnts : ℕ) (order : List Bytes)
    (dir : Dir) : Dir :=
  let log_files := scanDir m_pro_name order
  let reserve_cnt := log_files.length % 2 ^ 32
  let reserve_cnt :=
    if m_log_file_cache_max_cnts > 0 then
      if reserve_cnt > m_log_file_cache_max_cnts then m_log_file_cache_max_cnts else reserve_cnt
    else reserve_cnt
  let (dir, left, rename_list) := renameLoop m_pro_name reserve_cnt 1 1 log_files dir
  (dir.removeAll (left.map Prod.snd)).renameAll validName rename_list

/-! ## Rotations -/

/-- The directory, and the logs that were rotated, the newest one first. -/
structure LogState where
  dir : Dir
  rotated : List Bytes

/-- `fopen(file_name.c_str(),"a+")` in `open_file`. -/
def openLog (m_pro_name : Bytes) (dir : Dir) : Dir :=
  match dir (logFileName m_pro_name) with
  | none => dir.write (logFileName m_pro_name) []
  | some _ => dir

/-- What `append_to_file` leaves in the log file. -/
def appendLog (m_pro_name text : Bytes) (dir : Dir) : Dir :=
  dir.write (logFileName m_pro_name) ((dir (logFileName m_pro_name)).getD [] ++ text)

/-- The log file is filled with a text, found to be too long by `open_file`, rotated and opened
again. -/
structure Rotation where
  text : Bytes
  order : List Bytes

def LogState.initial (m_pro_name : Bytes) (files : Dir) : LogState := ⟨openLog m_pro_name files, []⟩

def LogState.step (m_pro_name : Bytes) (m_log_file_cache_max_cnts : ℕ) (s : LogState)
    (r : Rotation) : Option LogState :=
  let dir := appendLog m_pro_name r.text s.dir
  some ⟨openLog m_pro_name (rename_file m_pro_name m_log_file_cache_max_cnts r.order dir),
    (dir (logFileName m_pro_name)).getD [] :: s.rotated⟩

/-! ## The names that are written and the names that are read -/

/-- A program name: a file name that is not empty. -/
structure IsProName (m_pro_name : Bytes) : Prop where
  ne_nil : m_pro_name ≠ []
  ne_nul : ∀ c ∈ m_pro_name, c ≠ 0
  ne_slash : ∀ c ∈ m_pro_name, c ≠ 47

section

variable {name : Bytes} {index : ℕ}

lemma cString_indexFileName (hname : IsProName name) (index : ℕ) :
    cString (indexFileName name index) = indexFileName name index := by
  refine cString_eq_self fun c hc => ?_
  rw [indexFileName, List.mem_append, List.mem_cons, List.mem_append] at hc
  rcases hc with hc | rfl | hc | hc
  · exact hname.ne_nul c hc
  · decide
  · exact ne_zero_of_mem_decimal hc
  · rintro rfl
    exact absurd hc (by decide)

/-- A name without an underscore is found again, with the index. -/
lemma scanTemp_indexFileName (hname : IsProName name) (h_ : 95 ∉ name) (hindex : index < 2 ^ 32) :
    scanTemp (indexFileName name index) = some (name, index) := by
  have hscan : scanUntil [95] (indexFileName name index) =
      some (name, 95 :: (decimal index ++ [46, 108, 111, 103])) := by
    refine scanUntil_append hname.ne_nil (fun c hc h => h_ ?_) (by simp)
    rwa [← List.mem_singleton.mp h]
  have hstore : storeU32 false index = index := by
    rw [storeU32, if_neg (by omega)]
    exact Nat.mod_eq_of_lt hindex
  rw [scanTemp, cString_indexFileName hname, hscan, Option.bind_some]
  simp only [scanInteger_decimal index (s := [46, 108, 111, 103]) (by simp [isDecimalDigit]),
    Option.map_some, hstore]

/-- The program name that is read never has an underscore. -/
lemma notMem_of_scanTemp {temp pro_name : Bytes} (h : scanTemp temp = some (pro_name, index)) :
    95 ∉ pro_name := by
  obtain ⟨⟨w, s⟩, hw, hs⟩ := Option.bind_eq_some_iff.mp h
  have hpro : w = pro_name := by
    dsimp only at hs
    split at hs
    · obtain ⟨_, _, hx⟩ := Option.map_eq_some_iff.mp hs
      exact (Prod.ext_iff.mp hx).1
    · exact absurd hs (by simp)
  rw [scanUntil] at hw
  split_ifs at hw with hnil
  obtain ⟨rfl, -⟩ := Prod.ext_iff.mp (Option.some.inj hw)
  subst hpro
  intro hmem
  exact absurd (List.mem_takeWhile_imp hmem) (by simp)

lemma indexFileName_ne_logFileName (name : Bytes) (index : ℕ) :
    indexFileName name index ≠ logFileName name := by
  intro h
  exact absurd (List.cons.inj (List.append_cancel_left h)).1 (by decide)

/-- **A rotated file is recognised** when the program name has no underscore. -/
theorem logFileEntry_indexFileName (hname : IsProName name) (h_ : 95 ∉ name) (hpos : 0 < index)
    (hindex : index < 2 ^ 32) (hlen : (indexFileName name index).length ≤ 255) :
    logFileEntry name (indexFileName name index) = some (index, indexFileName name index) := by
  have hne : indexFileName name index ≠ [] := by simp [indexFileName]
  rw [logFileEntry, if_neg hne, if_neg (indexFileName_ne_logFileName _ _), if_neg (by omega),
    scanTemp_indexFileName hname h_ hindex, Option.bind_some]
  simp only [ne_eq, not_true_eq_false, if_false, if_pos hpos]

/-- **No rotated file is recognised** when it has one. -/
theorem logFileEntry_eq_none_of_underscore (h_ : 95 ∈ name) {temp : Bytes}
    (htemp : temp ≠ logFileName name) : logFileEntry name temp = none := by
  rw [logFileEntry, if_neg htemp]
  split_ifs
  · rfl
  · rfl
  · rw [Option.bind_eq_none_iff]
    rintro ⟨pro_name, index⟩ hscan
    have hne : pro_name ≠ name := by
      rintro rfl
      exact notMem_of_scanTemp hscan h_
    exact if_pos hne

end

end SignalEventLoop.Log
