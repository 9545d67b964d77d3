/-
# The plan of a rotation

`rename_file` decides which files it renames and removes from the names of the files alone.  It
gives the kept files free indices first, in the order of their old ones, removes the other files,
and then gives the kept ones the indices from 1 on.  A free index is one that no file has which
is still to come, so the first renaming never meets a file that was not moved yet.  The free
indices grow from file to file, and the one of the `j`-th file is at least `j`: so the second
renaming never meets a file that it did not move yet.  Whatever the gaps between the indices are,
no step renames a file onto another one.
-/
import SignalEventLoop.Log.RenameFile
import Mathlib.Data.Finset.Sort

namespace SignalEventLoop.Log

open Lib
open scoped Bytes

/-- The files of the program by their index: the log itself, and the rotated files. -/
def fileName (m_pro_name : Bytes) : ℕ → Bytes
  | 0 => logFileName m_pro_name
  | index + 1 => indexFileName m_pro_name (index + 1)

/-- How many files are kept: all of them without a limit. -/
def keptCount (m_log_file_cache_max_cnts count : ℕ) : ℕ :=
  if m_log_file_cache_max_cnts = 0 then count else min count m_log_file_cache_max_cnts

/-- The calls of the loop over `log_files`, the files that it leaves there, and `rename_list`. -/
def renameLoopCalls (m_pro_name : Bytes) : ℕ → ℕ → ℕ → List (ℕ × Bytes) →
    List (Bytes × Bytes) × List (ℕ × Bytes) × List (Bytes × Bytes)
  | 0, _, _, log_files => ([], log_files, [])
  | _, _, _, [] => ([], [], [])
  | reserve_cnt + 1, base_index, file_index, (index, file) :: log_files =>
    let target_name := indexFileName m_pro_name file_index
    let (base_index, new_name, calls) :=
      if base_index ≠ index then
        let base_index := firstFree ((index, file) :: log_files) (log_files.length + 2) base_index
        let new_name := indexFileName m_pro_name base_index
        (base_index, new_name, [(file, new_name)])
      else (base_index, file, [])
    let (rest, left, rename_list) := renameLoopCalls m_pro_name reserve_cnt
      ((base_index + 1) % 2 ^ 32) ((file_index + 1) % 2 ^ 32) log_files
    (calls ++ rest, left, if target_name ≠ new_name then (new_name, target_name) :: rename_list
      else rename_list)

/-- The calls of `rename` and `remove` in `rename_file`. -/
def renameCalls (m_pro_name : Bytes) (m_log_file_cache_max_cnts : ℕ) (order : List Bytes) :
    List (Directory.Call Bytes) :=
  let log_files := scanDir m_pro_name order
  let reserve_cnt := log_files.length % 2 ^ 32
  let reserve_cnt :=
    if m_log_file_cache_max_cnts > 0 then
      if reserve_cnt > m_log_file_cache_max_cnts then m_log_file_cache_max_cnts else reserve_cnt
    else reserve_cnt
  let (calls, left, rename_list) := renameLoopCalls m_pro_name reserve_cnt 1 1 log_files
  Directory.renames calls ++ ((left.map Prod.snd).map .remove ++ Directory.renames rename_list)

section

variable {name : Bytes} {m n r : ℕ} {d : Dir} {order : List Bytes} {indices : List ℕ}

lemma fileName_injective (name : Bytes) : Function.Injective (fileName name) := by
  intro i j h
  cases i with
  | zero =>
    cases j with
    | zero => rfl
    | succ j => exact absurd h.symm (indexFileName_ne_logFileName name (j + 1))
  | succ i =>
    cases j with
    | zero => exact absurd h (indexFileName_ne_logFileName name (i + 1))
    | succ j =>
      have hcancel := (List.cons.inj (List.append_cancel_left h)).2
      exact decimal_injective (List.append_cancel_right hcancel)

lemma fileName_ne {i j : ℕ} (h : i ≠ j) : fileName name i ≠ fileName name j :=
  fun heq => h (fileName_injective name heq)

lemma length_fileName_mono {i j : ℕ} (h : i ≤ j) :
    (fileName name i).length ≤ (fileName name j).length := by
  cases i with
  | zero =>
    cases j with
    | zero => exact le_rfl
    | succ j =>
      simp only [fileName, logFileName, indexFileName, List.length_append, List.length_cons,
        List.length_nil]
      omega
  | succ i =>
    cases j with
    | zero => omega
    | succ j =>
      have := length_decimal_mono h
      simp only [fileName, indexFileName, List.length_append, List.length_cons, List.length_nil]
      omega

lemma validName_fileName {i n : ℕ} (hin : i ≤ n) (hn : (fileName name n).length ≤ 255) :
    validName (fileName name i) = true :=
  decide_eq_true ((length_fileName_mono hin).trans hn)

lemma fileName_of_pos {i : ℕ} (hi : 0 < i) : fileName name i = indexFileName name i := by
  obtain ⟨i, rfl⟩ : ∃ j, i = j + 1 := ⟨i - 1, by omega⟩
  rfl

/-! ## The scan -/

/-- The entries of `log_files` for the files with some indices. -/
def logEntries (name : Bytes) (indices : List ℕ) : List (ℕ × Bytes) :=
  indices.map fun i => (i, fileName name i)

@[simp] lemma length_logEntries : (logEntries name indices).length = indices.length := by
  simp [logEntries]

lemma logEntries_cons (i : ℕ) : logEntries name (i :: indices) =
    (i, fileName name i) :: logEntries name indices := rfl

lemma mem_logEntries {e : ℕ × Bytes} :
    e ∈ logEntries name indices ↔ e.1 ∈ indices ∧ e.2 = fileName name e.1 := by
  obtain ⟨j, x⟩ := e
  simp only [logEntries, List.mem_map, Prod.mk.injEq]
  constructor
  · rintro ⟨a, ha, rfl, rfl⟩
    exact ⟨ha, rfl⟩
  · rintro ⟨ha, rfl⟩
    exact ⟨j, ha, rfl, rfl⟩

lemma logEntries_sorted (h : indices.Pairwise (· < ·)) :
    SortedMap.Sorted (logEntries name indices) := by
  rw [SortedMap.Sorted, logEntries, List.pairwise_map]
  exact h

lemma find_logEntries_isSome {j : ℕ} :
    (SortedMap.find j (logEntries name indices)).isSome = true ↔ j ∈ indices := by
  rw [SortedMap.find, Option.isSome_map, List.find?_isSome]
  simp only [decide_eq_true_eq]
  constructor
  · rintro ⟨e, he, rfl⟩
    exact (mem_logEntries.mp he).1
  · exact fun hj => ⟨(j, fileName name j), mem_logEntries.mpr ⟨hj, rfl⟩, rfl⟩

/-- **The scan**, whatever the order of the files is. -/
lemma scanDir_eq_logEntries (hsorted : indices.Pairwise (· < ·))
    (hfound : ∀ i, d (fileName name i) ≠ none ↔ i ∈ indices)
    (hrecognised : ∀ i ∈ indices, logFileEntry name (fileName name i) = some (i, fileName name i))
    (hothers : ∀ x, (∀ i, x ≠ fileName name i) → d x ≠ none → logFileEntry name x = none)
    (horder : d.Lists order) : scanDir name order = logEntries name indices := by
  obtain ⟨hnodup, hmem⟩ := horder
  have hentry : ∀ x ∈ order, ∀ e, logFileEntry name x = some e ↔
      e.1 ∈ indices ∧ x = fileName name e.1 ∧ e.2 = fileName name e.1 := by
    rintro x hx e
    by_cases hfile : ∃ i, x = fileName name i
    · obtain ⟨i, rfl⟩ := hfile
      have hi : i ∈ indices := (hfound i).mp ((hmem _).mp hx)
      rw [hrecognised i hi, Option.some.injEq]
      constructor
      · rintro rfl
        exact ⟨hi, rfl, rfl⟩
      · rintro ⟨-, heq, he⟩
        obtain rfl := fileName_injective name heq
        exact Prod.ext rfl he.symm
    · push Not at hfile
      rw [hothers x hfile ((hmem x).mp hx)]
      constructor
      · exact fun hn => absurd hn (by simp)
      · exact fun he => absurd he.2.1 (hfile e.1)
  refine SortedMap.foldl_emplace_eq ?_ (logEntries_sorted hsorted) fun e => ?_
  · rw [List.Nodup, List.pairwise_map, List.pairwise_filterMap]
    refine hnodup.imp_of_mem fun {x y} hx hy hxy e he e' he' heq => hxy ?_
    rw [((hentry x hx e).mp he).2.1, ((hentry y hy e').mp he').2.1, heq]
  · rw [List.mem_filterMap, mem_logEntries]
    constructor
    · rintro ⟨x, hx, he⟩
      obtain ⟨hi, -, hfile⟩ := (hentry x hx e).mp he
      exact ⟨hi, hfile⟩
    · rintro ⟨hi, hfile⟩
      have hx : fileName name e.1 ∈ order := (hmem _).mpr ((hfound e.1).mpr hi)
      exact ⟨_, hx, (hentry _ hx e).mpr ⟨hi, rfl, hfile⟩⟩

/-! ## The loop and its calls -/

/-- The loop is made of its calls. -/
lemma renameLoop_eq (name : Bytes) (r base file : ℕ) (log_files : List (ℕ × Bytes)) (d : Dir) :
    renameLoop name r base file log_files d =
      (d.renameAll validName (renameLoopCalls name r base file log_files).1,
        (renameLoopCalls name r base file log_files).2) := by
  induction r generalizing base file log_files d with
  | zero => rfl
  | succ r ih =>
    cases log_files with
    | nil => rfl
    | cons e log_files =>
      obtain ⟨index, x⟩ := e
      rw [renameLoop, renameLoopCalls]
      by_cases hbase : base ≠ index
      · simp only [if_pos hbase, ih]
        rfl
      · simp only [if_neg hbase, ih]
        rfl

/-- **`rename_file` is the run of its calls.** -/
theorem run_renameCalls (name : Bytes) (m : ℕ) (order : List Bytes) (d : Dir) :
    run (Directory.Call.step validName) d (renameCalls name m order) =
      some (rename_file name m order d) := by
  simp only [renameCalls, rename_file, renameLoop_eq, run_append, Directory.run_renames,
    Directory.run_removes, Option.bind_some]

/-- The search for a free index: it ends at the latest behind all files. -/
lemma firstFree_spec (name : Bytes) (hn : ∀ i ∈ indices, i < n) (h32 : n < 2 ^ 32) :
    ∀ {fuel base : ℕ},
    (indices.filter (base ≤ ·)).length < fuel →
    let free := firstFree (logEntries name indices) fuel base
    base ≤ free ∧ free ≤ max base n ∧ free ∉ indices := by
  intro fuel
  induction fuel with
  | zero => intro base hfuel; omega
  | succ fuel ih =>
    intro base hfuel
    dsimp only
    rw [firstFree]
    by_cases hin : base ∈ indices
    · have hlt : base < n := hn base hin
      rw [if_pos (find_logEntries_isSome.mpr hin), Nat.mod_eq_of_lt (by omega)]
      -- one file less is to be passed
      have hsplit : indices.filter (base + 1 ≤ ·) =
          (indices.filter (base ≤ ·)).filter (base ≠ ·) := by
        rw [List.filter_filter]
        refine List.filter_congr fun i _ => ?_
        rw [← Bool.decide_and, decide_eq_decide]
        omega
      have hless : (indices.filter (base + 1 ≤ ·)).length <
          (indices.filter (base ≤ ·)).length := by
        rw [hsplit, List.length_filter_lt_length_iff_exists]
        exact ⟨base, by simp [hin], by simp⟩
      obtain ⟨hle, hmax, hfree⟩ := @ih (base + 1) (by omega)
      exact ⟨by omega, by omega, hfree⟩
    · rw [if_neg fun h => hin (find_logEntries_isSome.mp h)]
      exact ⟨le_rfl, by omega, hin⟩

/-- What is done with a log file that is kept: it has an index, an index between the two
renamings, and an index after them. -/
structure LogMove where
  index : ℕ
  temp : ℕ
  target : ℕ

/-- The renaming in the loop. -/
def loopRenames (name : Bytes) (moves : List LogMove) : List (Bytes × Bytes) :=
  (moves.filter fun p => p.index ≠ p.temp).map fun p =>
    (fileName name p.index, fileName name p.temp)

/-- The renaming after the loop. -/
def listRenames (name : Bytes) (moves : List LogMove) : List (Bytes × Bytes) :=
  (moves.filter fun p => p.target ≠ p.temp).map fun p =>
    (fileName name p.temp, fileName name p.target)

/-- The moves of the loop from the indices `base` and `target` on, for files with indices below
`n` of which `kept` are moved and `left` are removed. -/
structure Planned (base target n : ℕ) (kept left : List ℕ) (moves : List LogMove) : Prop where
  index : moves.map LogMove.index = kept
  target : moves.map LogMove.target = List.range' target kept.length
  base_le : ∀ p ∈ moves, base ≤ p.temp
  lt : ∀ p ∈ moves, p.temp < n + kept.length
  target_le : ∀ p ∈ moves, p.target ≤ p.temp
  notMem_left : ∀ p ∈ moves, p.temp ∉ left
  apart : moves.Pairwise fun p q => p.temp < q.temp ∧ p.temp ≠ q.index

/-- One file more in front: its index between the renamings is behind the ones used before, and
no later file has it. -/
lemma Planned.cons {base target index temp : ℕ} {kept left : List ℕ} {moves : List LogMove}
    (h : Planned (temp + 1) (target + 1) (n + 1) kept left moves) (hbase : base ≤ temp)
    (htarget : target ≤ temp) (hn : temp ≤ n) (hkept : temp ∉ kept) (hleft : temp ∉ left) :
    Planned base target n (index :: kept) left (⟨index, temp, target⟩ :: moves) := by
  refine ⟨?_, ?_, ?_, ?_, ?_, ?_, ?_⟩
  · rw [List.map_cons, h.index]
  · rw [List.map_cons, h.target, List.length_cons, List.range'_succ]
  · refine List.forall_mem_cons.mpr ⟨hbase, fun p hp => ?_⟩
    have := h.base_le p hp
    omega
  · rw [List.length_cons]
    refine List.forall_mem_cons.mpr ⟨?_, fun p hp => ?_⟩
    · dsimp only
      omega
    · have := h.lt p hp
      omega
  · exact List.forall_mem_cons.mpr ⟨htarget, h.target_le⟩
  · exact List.forall_mem_cons.mpr ⟨hleft, h.notMem_left⟩
  · refine List.pairwise_cons.mpr ⟨fun q hq => ⟨h.base_le q hq, ?_⟩, h.apart⟩
    rintro rfl
    exact hkept (h.index ▸ List.mem_map_of_mem hq)

/-- One file of the loop: it stays where it is, or it gets the next free index. -/
lemma renameLoopCalls_succ (name : Bytes) (r : ℕ) {base file i : ℕ}
    (hsorted : (i :: indices).Pairwise (· < ·))
    (hn : ∀ j ∈ i :: indices, j < n) (h32 : n < 2 ^ 32) (hbase : 0 < base) (hfile : 0 < file) :
    ∃ temp, base ≤ temp ∧ temp ≤ max base n ∧ temp ∉ indices ∧
      renameLoopCalls name (r + 1) base file (logEntries name (i :: indices)) =
        let rest := renameLoopCalls name r ((temp + 1) % 2 ^ 32) ((file + 1) % 2 ^ 32)
          (logEntries name indices)
        ((if i ≠ temp then [(fileName name i, fileName name temp)] else []) ++ rest.1, rest.2.1,
          if file ≠ temp then (fileName name temp, fileName name file) :: rest.2.2
          else rest.2.2) := by
  have hfileName : indexFileName name file = fileName name file := (fileName_of_pos hfile).symm
  by_cases hi : base = i
  · subst hi
    refine ⟨base, le_rfl, le_max_left _ _, ?_, ?_⟩
    · exact fun hmem => absurd ((List.pairwise_cons.mp hsorted).1 base hmem) (lt_irrefl _)
    · simp only [logEntries_cons, renameLoopCalls, ne_eq, not_true_eq_false, if_false,
        List.nil_append, hfileName, (fileName_injective name).eq_iff]
  · have hfuel : ((i :: indices).filter (base ≤ ·)).length < indices.length + 2 := by
      have := List.length_filter_le (base ≤ ·) (i :: indices)
      rw [List.length_cons] at this
      omega
    obtain ⟨hle, hmax, hfree⟩ := firstFree_spec name hn h32 hfuel
    generalize htemp : firstFree (logEntries name (i :: indices)) (indices.length + 2) base = temp
      at hle hmax hfree
    have hne : i ≠ temp := by
      rintro rfl
      exact hfree List.mem_cons_self
    have htempName : indexFileName name temp = fileName name temp :=
      (fileName_of_pos (by omega)).symm
    refine ⟨temp, hle, hmax, fun hmem => hfree (List.mem_cons_of_mem i hmem), ?_⟩
    rw [logEntries_cons] at htemp ⊢
    simp only [renameLoopCalls, if_pos hi, length_logEntries, htemp, if_pos hne, hfileName,
      htempName, ne_eq, (fileName_injective name).eq_iff]

/-- **The loop**, by induction on the number of files that are kept. -/
lemma renameLoopCalls_planned (name : Bytes) : ∀ {r base file n : ℕ} {indices : List ℕ},
    indices.Pairwise (· < ·) → (∀ i ∈ indices, i < n) → 0 < file → file ≤ base → base ≤ n →
    n + r < 2 ^ 32 → ∃ moves, Planned base file n (indices.take r) (indices.drop r) moves ∧
      renameLoopCalls name r base file (logEntries name indices) =
        (loopRenames name moves, logEntries name (indices.drop r), listRenames name moves) := by
  intro r
  induction r with
  | zero =>
    intro base file n indices _ _ _ _ _ _
    refine ⟨[], ⟨rfl, rfl, ?_, ?_, ?_, ?_, List.Pairwise.nil⟩, rfl⟩
    all_goals exact fun p hp => absurd hp List.not_mem_nil
  | succ r ih =>
    intro base file n indices hsorted hn hfile hle hbase h32
    cases indices with
    | nil =>
      refine ⟨[], ⟨rfl, rfl, ?_, ?_, ?_, ?_, List.Pairwise.nil⟩, rfl⟩
      all_goals exact fun p hp => absurd hp List.not_mem_nil
    | cons i indices =>
      obtain ⟨temp, hbt, hmax, hfree, hcalls⟩ := renameLoopCalls_succ name r
        hsorted hn (by omega) (hfile.trans_le hle) hfile
      have hmod : (temp + 1) % 2 ^ 32 = temp + 1 := Nat.mod_eq_of_lt (by omega)
      have hmod' : (file + 1) % 2 ^ 32 = file + 1 := Nat.mod_eq_of_lt (by omega)
      obtain ⟨moves, hplanned, hrest⟩ := @ih (temp + 1) (file + 1) (n + 1) indices
        (List.pairwise_cons.mp hsorted).2
        (fun j hj => (hn j (List.mem_cons_of_mem i hj)).trans (Nat.lt_succ_self n))
        (by omega) (by omega) (by omega) (by omega)
      refine ⟨⟨i, temp, file⟩ :: moves, ?_, ?_⟩
      · rw [List.take_succ_cons, List.drop_succ_cons]
        exact hplanned.cons hbt (by omega) (by omega) (fun h => hfree (List.mem_of_mem_take h))
          fun h => hfree (List.mem_of_mem_drop h)
      · rw [hcalls, hmod, hmod', hrest, List.drop_succ_cons]
        simp only [loopRenames, listRenames, List.filter_cons, decide_eq_true_eq]
        refine Prod.ext ?_ (Prod.ext rfl ?_)
        · by_cases hi : i = temp <;> simp [hi]
        · by_cases hf : file = temp <;> simp [hf]

/-! ## The two renamings -/

section

variable {kept left : List ℕ} {moves : List LogMove} {base target : ℕ}

lemma Planned.index_mem (h : Planned base target n kept left moves) {p : LogMove} (hp : p ∈ moves) :
    p.index ∈ kept :=
  h.index ▸ List.mem_map_of_mem hp

lemma Planned.temp_inj (h : Planned base target n kept left moves) {p q : LogMove}
    (hp : p ∈ moves) (hq : q ∈ moves) (heq : p.temp = q.temp) : p = q := by
  refine List.inj_on_of_nodup_map (f := LogMove.temp) ?_ hp hq heq
  rw [List.Nodup, List.pairwise_map]
  exact h.apart.imp fun hpq => hpq.1.ne

lemma Planned.target_lt (h : Planned base target n kept left moves) :
    moves.Pairwise fun p q => p.target < q.target := by
  rw [← List.pairwise_map (f := LogMove.target) (R := (· < ·)), h.target]
  exact List.pairwise_lt_range'

lemma Planned.target_inj (h : Planned base target n kept left moves) {p q : LogMove}
    (hp : p ∈ moves) (hq : q ∈ moves) (heq : p.target = q.target) : p = q := by
  refine List.inj_on_of_nodup_map (f := LogMove.target) ?_ hp hq heq
  rw [h.target]
  exact List.nodup_range'

lemma Planned.index_lt (h : Planned base target n kept left moves)
    (hkept : kept.Pairwise (· < ·)) : moves.Pairwise fun p q => p.index < q.index := by
  rw [← List.pairwise_map (f := LogMove.index) (R := (· < ·)), h.index]
  exact hkept

lemma Planned.index_inj (h : Planned base target n kept left moves)
    (hkept : kept.Pairwise (· < ·)) {p q : LogMove} (hp : p ∈ moves) (hq : q ∈ moves)
    (heq : p.index = q.index) : p = q := by
  refine List.inj_on_of_nodup_map (f := LogMove.index) ?_ hp hq heq
  rw [List.Nodup, List.pairwise_map]
  exact (h.index_lt hkept).imp fun hpq => hpq.ne

/-- The move of the `j`-th kept file. -/
lemma Planned.exists_move (h : Planned base target n kept left moves) {j : ℕ}
    (hj : j < kept.length) :
    ∃ p ∈ moves, p.target = target + j ∧ kept[j]? = some p.index := by
  have hlen : j < moves.length := by rwa [← List.length_map (f := LogMove.index), h.index]
  refine ⟨moves[j], List.getElem_mem hlen, ?_, ?_⟩
  · have hget : (moves.map LogMove.target)[j]? = (List.range' target kept.length)[j]? := by
      rw [h.target]
    rw [List.getElem?_map, List.getElem?_eq_getElem hlen, List.getElem?_range' hj] at hget
    simpa using hget
  · rw [← h.index, List.getElem?_map, List.getElem?_eq_getElem hlen, Option.map_some]

lemma mem_loopRenames {x : Bytes × Bytes} : x ∈ loopRenames name moves ↔
    ∃ p ∈ moves, p.index ≠ p.temp ∧ (fileName name p.index, fileName name p.temp) = x := by
  simp [loopRenames, and_assoc]

lemma mem_listRenames {x : Bytes × Bytes} : x ∈ listRenames name moves ↔
    ∃ p ∈ moves, p.target ≠ p.temp ∧ (fileName name p.temp, fileName name p.target) = x := by
  simp [listRenames, and_assoc]

lemma movable_loopRenames (h : Planned base target n kept left moves)
    (hkept : kept.Pairwise (· < ·)) (hfound : ∀ i ∈ kept, d (fileName name i) ≠ none)
    (hvalid : ∀ p ∈ moves, validName (fileName name p.temp) = true) :
    Directory.Movable validName d (loopRenames name moves) := by
  refine ⟨?_, ?_, ?_, ?_⟩
  · rw [loopRenames, List.pairwise_map]
    refine ((h.index_lt hkept).and h.apart).filter _ |>.imp fun {p q} hpq => ?_
    exact ⟨fileName_ne hpq.1.ne, fileName_ne hpq.2.2, fileName_ne hpq.2.1.ne⟩
  all_goals
    intro x hx
    obtain ⟨p, hp, hne, rfl⟩ := mem_loopRenames.mp hx
  · exact fileName_ne hne
  · exact hfound _ (h.index_mem hp)
  · exact hvalid p hp

lemma movable_listRenames (h : Planned base target n kept left moves)
    (hfound : ∀ p ∈ moves, d (fileName name p.temp) ≠ none)
    (hvalid : ∀ p ∈ moves, validName (fileName name p.target) = true) :
    Directory.Movable validName d (listRenames name moves) := by
  refine ⟨?_, ?_, ?_, ?_⟩
  · rw [listRenames, List.pairwise_map]
    refine List.Pairwise.filter _ ?_
    refine (h.target_lt.and h.apart).imp_of_mem fun {p q} hp _ hpq => ?_
    have hle := h.target_le p hp
    exact ⟨fileName_ne hpq.2.1.ne, fileName_ne (hle.trans_lt hpq.2.1).ne, fileName_ne hpq.1.ne⟩
  all_goals
    intro x hx
    obtain ⟨p, hp, hne, rfl⟩ := mem_listRenames.mp hx
  · exact fileName_ne hne.symm
  · exact hfound p hp
  · exact hvalid p hp

/-- The directory between the two renamings, after the files that are left are removed. -/
def planBetween (name : Bytes) (moves : List LogMove) (left : List ℕ) (d : Dir) : Dir :=
  (d.renameAll validName (loopRenames name moves)).removeAll (left.map (fileName name))

/-- Every kept file is at its index between the renamings. -/
lemma planBetween_temp (h : Planned base target n kept left moves)
    (hkept : kept.Pairwise (· < ·))
    (haway : Directory.Movable validName d (loopRenames name moves)) {p : LogMove}
    (hp : p ∈ moves) :
    planBetween name moves left d (fileName name p.temp) = d (fileName name p.index) := by
  rw [planBetween, Directory.removeAll_of_notMem]
  · by_cases hne : p.index = p.temp
    · -- a file that stays is not touched
      rw [Directory.renameAll_of_notMem, hne]
      intro x hx
      obtain ⟨q, hq, hqne, rfl⟩ := mem_loopRenames.mp hx
      have hpq : p ≠ q := fun heq => hqne (heq ▸ hne)
      refine ⟨fileName_ne fun heq => hpq ?_, fileName_ne fun heq => hpq (h.temp_inj hp hq heq)⟩
      exact h.index_inj hkept hp hq (hne.trans heq)
    · exact Directory.renameAll_target haway _ (mem_loopRenames.mpr ⟨p, hp, hne, rfl⟩)
  · intro hmem
    obtain ⟨i, hi, heq⟩ := List.mem_map.mp hmem
    exact h.notMem_left p hp (fileName_injective name heq ▸ hi)

/-- No other file of the program is there. -/
lemma planBetween_free (h : Planned base target n kept left moves)
    (hfound : ∀ i, d (fileName name i) ≠ none → i ∈ kept ∨ i ∈ left)
    (haway : Directory.Movable validName d (loopRenames name moves)) {i : ℕ}
    (hi : ∀ p ∈ moves, i ≠ p.temp) : planBetween name moves left d (fileName name i) = none := by
  refine Directory.removeAll_of_mem ?_
  by_cases hleft : i ∈ left
  · exact Or.inl (List.mem_map_of_mem hleft)
  · right
    refine Directory.renameAll_source haway ?_ ?_
    · intro x hx
      obtain ⟨q, hq, -, rfl⟩ := mem_loopRenames.mp hx
      exact fileName_ne (hi q hq)
    · by_cases hnone : d (fileName name i) = none
      · exact Or.inr hnone
      · left
        have hkept : i ∈ kept := (hfound i hnone).resolve_right hleft
        rw [← h.index] at hkept
        obtain ⟨p, hp, rfl⟩ := List.mem_map.mp hkept
        exact ⟨_, mem_loopRenames.mpr ⟨p, hp, hi p hp, rfl⟩, rfl⟩

/-- A file that does not belong to the log stays. -/
lemma planBetween_other {x : Bytes} (hx : ∀ i, x ≠ fileName name i) :
    planBetween name moves left d x = d x := by
  rw [planBetween, Directory.removeAll_of_notMem, Directory.renameAll_of_notMem]
  · intro y hy
    obtain ⟨p, -, -, rfl⟩ := mem_loopRenames.mp hy
    exact ⟨hx _, hx _⟩
  · intro hmem
    obtain ⟨i, -, rfl⟩ := List.mem_map.mp hmem
    exact hx i rfl

/-- Both renamings can be made. -/
lemma movable_of_planned (h : Planned base target n kept left moves)
    (hkept : kept.Pairwise (· < ·)) (hfound : ∀ i ∈ kept, d (fileName name i) ≠ none) {i : ℕ}
    (htemp : ∀ p ∈ moves, p.temp ≤ i) (hlen : (fileName name i).length ≤ 255) :
    Directory.Movable validName d (loopRenames name moves) ∧
      Directory.Movable validName (planBetween name moves left d) (listRenames name moves) := by
  have haway : Directory.Movable validName d (loopRenames name moves) :=
    movable_loopRenames h hkept hfound fun p hp => validName_fileName (htemp p hp) hlen
  refine ⟨haway, movable_listRenames h (fun p hp => ?_) fun p hp => ?_⟩
  · rw [planBetween_temp h hkept haway hp]
    exact hfound _ (h.index_mem hp)
  · exact validName_fileName ((h.target_le p hp).trans (htemp p hp)) hlen

/-- **The loop renames no file onto another one**: a file that has the index is one that was
moved before. -/
lemma loopRenames_free (h : Planned base target n kept left moves)
    (hfound : ∀ i, d (fileName name i) ≠ none → i ∈ kept ∨ i ∈ left) :
    ∀ x ∈ loopRenames name moves, d x.2 = none ∨ ∃ y ∈ loopRenames name moves, x.2 = y.1 := by
  intro x hx
  obtain ⟨p, hp, hne, rfl⟩ := mem_loopRenames.mp hx
  by_cases hnone : d (fileName name p.temp) = none
  · exact Or.inl hnone
  · have hkept : p.temp ∈ kept := (hfound _ hnone).resolve_right (h.notMem_left p hp)
    rw [← h.index] at hkept
    obtain ⟨q, hq, heq⟩ := List.mem_map.mp hkept
    have hqne : q.index ≠ q.temp := by
      intro hstay
      obtain rfl := h.temp_inj hq hp (hstay.symm.trans heq)
      exact hne hstay
    exact Or.inr ⟨_, mem_loopRenames.mpr ⟨q, hq, hqne, rfl⟩, by rw [heq]⟩

/-- **The second renaming neither.** -/
lemma listRenames_free (h : Planned base target n kept left moves)
    (hfree : ∀ i, (∀ p ∈ moves, i ≠ p.temp) → d (fileName name i) = none) :
    ∀ x ∈ listRenames name moves, d x.2 = none ∨ ∃ y ∈ listRenames name moves, x.2 = y.1 := by
  intro x hx
  obtain ⟨p, hp, hne, rfl⟩ := mem_listRenames.mp hx
  by_cases hnone : d (fileName name p.target) = none
  · exact Or.inl hnone
  · obtain ⟨q, hq, heq⟩ : ∃ q ∈ moves, p.target = q.temp := by
      by_contra hnot
      push Not at hnot
      exact hnone (hfree _ hnot)
    have hqne : q.target ≠ q.temp := by
      intro hstay
      obtain rfl := h.target_inj hp hq (heq.trans hstay.symm)
      exact hne hstay
    exact Or.inr ⟨_, mem_listRenames.mpr ⟨q, hq, hqne, rfl⟩, by rw [heq]⟩

end

/-! ## One call -/

/-- The files of the program are `<name>_1.log` and so on, with the contents that the files with
some indices had before, and the files of others are as they were. -/
structure Renumbered (m_pro_name : Bytes) (kept : List ℕ) (dir dir' : Dir) : Prop where
  rotated : ∀ j, dir' (indexFileName m_pro_name (j + 1)) =
    kept[j]?.bind fun index => dir (fileName m_pro_name index)
  log : dir' (logFileName m_pro_name) = none
  others : ∀ x, (∀ index, x ≠ fileName m_pro_name index) → dir' x = dir x

/-- The directory after the second renaming. -/
lemma renumbered_of_planned {kept left : List ℕ} {moves : List LogMove}
    (h : Planned 1 1 n kept left moves) (hkept : kept.Pairwise (· < ·))
    (hfound : ∀ i, d (fileName name i) ≠ none → i ∈ kept ∨ i ∈ left)
    (haway : Directory.Movable validName d (loopRenames name moves))
    (hback : Directory.Movable validName (planBetween name moves left d)
      (listRenames name moves)) :
    Renumbered name kept d
      ((planBetween name moves left d).renameAll validName (listRenames name moves)) := by
  -- what is not at one of the new indices is gone
  have hgone : ∀ i, (∀ p ∈ moves, i ≠ p.target) →
      ((planBetween name moves left d).renameAll validName (listRenames name moves))
        (fileName name i) = none := by
    intro i hi
    refine Directory.renameAll_source hback ?_ ?_
    · intro x hx
      obtain ⟨p, hp, -, rfl⟩ := mem_listRenames.mp hx
      exact fileName_ne (hi p hp)
    · by_cases htemp : ∃ p ∈ moves, i = p.temp
      · obtain ⟨p, hp, rfl⟩ := htemp
        exact Or.inl ⟨_, mem_listRenames.mpr ⟨p, hp, (hi p hp).symm, rfl⟩, rfl⟩
      · push Not at htemp
        exact Or.inr (planBetween_free h hfound haway htemp)
  have htargets : ∀ i, (∃ p ∈ moves, i = p.target) → 1 ≤ i ∧ i < 1 + kept.length := by
    rintro i ⟨p, hp, rfl⟩
    rw [← List.mem_range'_1, ← h.target]
    exact List.mem_map_of_mem hp
  refine ⟨fun j => ?_, hgone 0 fun p hp hi => ?_, fun x hx => ?_⟩
  · by_cases hj : j < kept.length
    · obtain ⟨p, hp, htarget, hindex⟩ := h.exists_move hj
      have hname : indexFileName name (j + 1) = fileName name p.target := by
        rw [htarget, fileName_of_pos (by omega), Nat.add_comm]
      rw [hindex, Option.bind_some, ← planBetween_temp h hkept haway hp, hname]
      by_cases hne : p.target = p.temp
      · -- a file that is in its place is not touched
        rw [Directory.renameAll_of_notMem, hne]
        intro x hx
        obtain ⟨q, hq, hqne, rfl⟩ := mem_listRenames.mp hx
        have hpq : p ≠ q := fun heq => hqne (heq ▸ hne)
        exact ⟨fileName_ne fun heq => hpq (h.temp_inj hp hq (hne.symm.trans heq)),
          fileName_ne fun heq => hpq (h.target_inj hp hq heq)⟩
      · exact Directory.renameAll_target hback _ (mem_listRenames.mpr ⟨p, hp, hne, rfl⟩)
    · rw [List.getElem?_eq_none (by omega), Option.bind_none]
      refine hgone (j + 1) fun p hp hi => ?_
      have := htargets _ ⟨p, hp, hi⟩
      omega
  · have := htargets _ ⟨p, hp, hi⟩
    omega
  · rw [Directory.renameAll_of_notMem, planBetween_other hx]
    intro y hy
    obtain ⟨p, -, -, rfl⟩ := mem_listRenames.mp hy
    exact ⟨hx _, hx _⟩

/-- The directory has the files of the program with some indices, and the scan takes no other
file for one of them. -/
structure LogFiles (m_pro_name : Bytes) (indices : Finset ℕ) (dir : Dir) : Prop where
  found : ∀ index, dir (fileName m_pro_name index) ≠ none ↔ index ∈ indices
  others : ∀ x, (∀ index, x ≠ fileName m_pro_name index) → dir x ≠ none →
    logFileEntry m_pro_name x = none

lemma map_snd_logEntries (indices : List ℕ) :
    (logEntries name indices).map Prod.snd = indices.map (fileName name) := by
  simp [logEntries]

lemma logFileEntry_fileName (hname : IsProName name) (h_ : 95 ∉ name) {i : ℕ} (hi : i < 2 ^ 32)
    (hlen : (fileName name i).length ≤ 255) :
    logFileEntry name (fileName name i) = some (i, fileName name i) := by
  cases i with
  | zero =>
    have hne : logFileName name ≠ [] := by simp [logFileName]
    rw [fileName, logFileEntry, if_neg hne, if_pos rfl]
  | succ i => exact logFileEntry_indexFileName hname h_ (Nat.succ_pos i) hi hlen

variable {indices : Finset ℕ}

lemma LogFiles.scanDir_eq (h : LogFiles name indices d) (hname : IsProName name) (h_ : 95 ∉ name)
    (horder : d.Lists order) (h32 : ∀ i ∈ indices, i < 2 ^ 32)
    (hlen : ∀ i ∈ indices, (fileName name i).length ≤ 255) :
    scanDir name order = logEntries name indices.sort := by
  refine scanDir_eq_logEntries indices.sortedLT_sort.pairwise (fun i => ?_) (fun i hi => ?_)
    h.others horder
  · rw [h.found, Finset.mem_sort]
  · rw [Finset.mem_sort] at hi
    exact logFileEntry_fileName hname h_ (h32 i hi) (hlen i hi)

/-- How many files the loop keeps. -/
lemma reserve_cnt_eq {count : ℕ} (h32 : count < 2 ^ 32) :
    (if m > 0 then if count % 2 ^ 32 > m then m else count % 2 ^ 32 else count % 2 ^ 32) =
      keptCount m count := by
  rw [Nat.mod_eq_of_lt h32, keptCount]
  split_ifs <;> omega

/-- **`rename_file` and its calls**, by the moves of the files that it keeps. -/
lemma exists_planned (hscan : scanDir name order = logEntries name indices.sort)
    (h32 : indices.sup id + keptCount m indices.card + 1 < 2 ^ 32) :
    ∃ moves, Planned 1 1 (indices.sup id + 1) (indices.sort.take (keptCount m indices.card))
        (indices.sort.drop (keptCount m indices.card)) moves ∧
      rename_file name m order d =
        (planBetween name moves (indices.sort.drop (keptCount m indices.card)) d).renameAll
          validName (listRenames name moves) ∧
      renameCalls name m order = Directory.renames (loopRenames name moves) ++
        (((indices.sort.drop (keptCount m indices.card)).map (fileName name)).map .remove ++
          Directory.renames (listRenames name moves)) := by
  have hlt : ∀ i ∈ indices, i < indices.sup id + 1 :=
    fun i hi => Nat.lt_succ_of_le (Finset.le_sup (f := id) hi)
  have hcard : indices.card ≤ indices.sup id + 1 := by
    have hsub : indices ⊆ Finset.range (indices.sup id + 1) :=
      fun i hi => Finset.mem_range.mpr (hlt i hi)
    simpa using Finset.card_le_card hsub
  have hreserve := reserve_cnt_eq (m := m) (show indices.card < 2 ^ 32 by omega)
  obtain ⟨moves, hplan, hcalls⟩ := @renameLoopCalls_planned name (keptCount m indices.card) 1 1
    (indices.sup id + 1) indices.sort indices.sortedLT_sort.pairwise
    (fun i hi => hlt i ((Finset.mem_sort _).mp hi)) (by omega) (by omega) (by omega) (by omega)
  refine ⟨moves, hplan, ?_, ?_⟩
  · simp only [rename_file, hscan, length_logEntries, Finset.length_sort, hreserve, renameLoop_eq,
      hcalls, map_snd_logEntries, planBetween]
  · simp only [renameCalls, hscan, length_logEntries, Finset.length_sort, hreserve, hcalls,
      map_snd_logEntries]

end

/-- **The plan of a rotation**: no call renames a file onto another one, and the files that are
kept, those with the lowest indices, get the indices from 1 on. -/
theorem rename_file_plan (m_pro_name : Bytes) (m_log_file_cache_max_cnts : ℕ)
    (indices : Finset ℕ) (dir : Dir) (order : List Bytes) (hname : IsProName m_pro_name)
    (h_ : 95 ∉ m_pro_name) (hlogs : LogFiles m_pro_name indices dir) (horder : dir.Lists order)
    (h32 : indices.sup id + keptCount m_log_file_cache_max_cnts indices.card + 1 < 2 ^ 32)
    (hlen : (fileName m_pro_name (indices.sup id +
      keptCount m_log_file_cache_max_cnts indices.card)).length ≤ 255) :
    let calls := renameCalls m_pro_name m_log_file_cache_max_cnts order
    let dir' := rename_file m_pro_name m_log_file_cache_max_cnts order dir
    run (Directory.Call.step validName) dir calls = some dir' ∧
      AllSteps (Directory.Call.step validName) Directory.Call.NotOnto dir calls ∧
      Renumbered m_pro_name
        (indices.sort.take (keptCount m_log_file_cache_max_cnts indices.card)) dir dir' := by
  intro calls dir'
  refine ⟨run_renameCalls _ _ _ _, ?_⟩
  have hle : ∀ i ∈ indices, i ≤ indices.sup id := fun i hi => Finset.le_sup (f := id) hi
  have hscan : scanDir m_pro_name order = logEntries m_pro_name indices.sort := by
    refine hlogs.scanDir_eq hname h_ horder (fun i hi => ?_) fun i hi => ?_
    · have := hle i hi
      omega
    · exact (length_fileName_mono ((hle i hi).trans (Nat.le_add_right _ _))).trans hlen
  obtain ⟨moves, hplan, hdir', hcalls⟩ := exists_planned (d := dir) hscan h32
  rw [show dir' = _ from hdir', show calls = _ from hcalls]
  set k := keptCount m_log_file_cache_max_cnts indices.card
  have hkept : (indices.sort.take k).Pairwise (· < ·) :=
    indices.sortedLT_sort.pairwise.sublist (List.take_sublist k indices.sort)
  have hfound : ∀ i, dir (fileName m_pro_name i) ≠ none →
      i ∈ indices.sort.take k ∨ i ∈ indices.sort.drop k := by
    intro i hi
    rw [← List.mem_append, List.take_append_drop, Finset.mem_sort]
    exact (hlogs.found i).mp hi
  have hkeptFound : ∀ i ∈ indices.sort.take k, dir (fileName m_pro_name i) ≠ none :=
    fun i hi => (hlogs.found i).mpr ((Finset.mem_sort _).mp (List.mem_of_mem_take hi))
  have htemp : ∀ p ∈ moves, p.temp ≤ indices.sup id + k := by
    intro p hp
    have hlt := hplan.lt p hp
    rw [List.length_take, Finset.length_sort] at hlt
    omega
  obtain ⟨haway, hback⟩ := movable_of_planned hplan hkept hkeptFound htemp hlen
  refine ⟨?_, renumbered_of_planned hplan hkept hfound haway hback⟩
  rw [allSteps_append]
  refine ⟨Directory.allSteps_renames haway (loopRenames_free hplan hfound), fun d₁ hd₁ => ?_⟩
  rw [Directory.run_renames, Option.some.injEq] at hd₁
  subst hd₁
  rw [allSteps_append]
  refine ⟨Directory.allSteps_removes _ _ _, fun d₂ hd₂ => ?_⟩
  rw [Directory.run_removes, Option.some.injEq] at hd₂
  subst hd₂
  exact Directory.allSteps_renames hback (listRenames_free hplan fun i hi =>
    planBetween_free hplan hfound haway hi)

/-- A directory with some log files and nothing else. -/
def logDir (m_pro_name : Bytes) (logs : List (ℕ × Bytes)) : Dir :=
  fun x => (logs.find? fun e => fileName m_pro_name e.1 = x).map Prod.snd

lemma logDir_ne_none {name x : Bytes} {logs : List (ℕ × Bytes)} :
    logDir name logs x ≠ none ↔ ∃ e ∈ logs, fileName name e.1 = x := by
  simp [logDir]

lemma logFiles_logDir (name : Bytes) (logs : List (ℕ × Bytes)) :
    LogFiles name (logs.map Prod.fst).toFinset (logDir name logs) := by
  refine ⟨fun i => ?_, fun x hx hne => ?_⟩
  · simp [logDir_ne_none, (fileName_injective name).eq_iff]
  · obtain ⟨e, -, rfl⟩ := logDir_ne_none.mp hne
    exact absurd rfl (hx e.1)

lemma lists_logDir {name : Bytes} {logs : List (ℕ × Bytes)} (h : (logs.map Prod.fst).Nodup) :
    (logDir name logs).Lists ((logs.map Prod.fst).map (fileName name)) := by
  refine ⟨h.map (fileName_injective name), fun x => ?_⟩
  rw [logDir_ne_none]
  simp

/-- The log and the rotated files 1 and 3 of the program `test`, of which two are kept. -/
theorem rename_file_plan_test :
    let test : Bytes := [116, 101, 115, 116]
    let logs : List (ℕ × Bytes) := [(3, [51]), (0, [48]), (1, [49])]
    let order := (logs.map Prod.fst).map (fileName test)
    let dir' := rename_file test 2 order (logDir test logs)
    run (Directory.Call.step validName) (logDir test logs) (renameCalls test 2 order) = some dir' ∧
      AllSteps (Directory.Call.step validName) Directory.Call.NotOnto (logDir test logs)
        (renameCalls test 2 order) ∧
      Renumbered test ((logs.map Prod.fst).toFinset.sort.take (keptCount 2 3)) (logDir test logs)
        dir' :=
  rename_file_plan [116, 101, 115, 116] 2 _ (logDir _ [(3, [51]), (0, [48]), (1, [49])]) _
    ⟨by decide, by decide, by decide⟩ (by decide) (logFiles_logDir _ _) (lists_logDir (by decide))
    (by decide) (by decide)

/-- The rotated file 1 leaves its place before the log gets it. -/
example :
    let file := fileName [116, 101, 115, 116]
    renameCalls [116, 101, 115, 116] 2 [file 3, file 0, file 1] =
      [.rename (file 0) (file 2), .rename (file 1) (file 4), .remove (file 3),
        .rename (file 2) (file 1), .rename (file 4) (file 2)] := by
  decide +kernel

end SignalEventLoop.Log
