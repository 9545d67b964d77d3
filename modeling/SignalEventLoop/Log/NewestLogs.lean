/-
# The newest logs are kept

In a directory in which the files of the program are the log and `k` rotated files with the
indices `1` to `k`, `rename_file` moves every kept file one index up, and removes the last one
when there are too many.  So after any number of rotations the newest logs are there, the newest
one at the index 1, provided that the program name has no underscore: with one, the scan knows
none of the rotated files, and every rotation overwrites the one before it.
-/
import SignalEventLoop.Log.RotationPlan

namespace SignalEventLoop.Log

open Lib
open scoped Bytes

section

variable {name : Bytes} {m k r : ℕ} {d : Dir} {order : List Bytes}

/-! ## The scan -/

/-- The entries of the indices `i` to `i + n - 1`. -/
def entries (name : Bytes) (i n : ℕ) : List (ℕ × Bytes) :=
  (List.range' i n).map fun j => (j, fileName name j)

@[simp] lemma entries_zero (i : ℕ) : entries name i 0 = [] := rfl

lemma entries_succ (i n : ℕ) :
    entries name i (n + 1) = (i, fileName name i) :: entries name (i + 1) n := rfl

@[simp] lemma length_entries (i n : ℕ) : (entries name i n).length = n := by
  simp [entries]

lemma entries_eq (i n : ℕ) : entries name i n = logEntries name (List.range' i n) := rfl

lemma find_entries_isSome {i n j : ℕ} :
    (SortedMap.find j (entries name i n)).isSome = true ↔ i ≤ j ∧ j < i + n := by
  rw [entries_eq, find_logEntries_isSome, List.mem_range'_1]

/-- The directory of a program that has rotated `k` files: the scan finds the log and these, and
no other file. -/
structure Indexed (name : Bytes) (k : ℕ) (d : Dir) : Prop where
  found : ∀ i, d (fileName name i) ≠ none ↔ i ≤ k
  recognised : ∀ i, i ≤ k → logFileEntry name (fileName name i) = some (i, fileName name i)
  others : ∀ x, (∀ i, x ≠ fileName name i) → d x ≠ none → logFileEntry name x = none

/-- The scan, whatever the order of the files is. -/
lemma Indexed.scanDir_eq (h : Indexed name k d) (horder : d.Lists order) :
    scanDir name order = entries name 0 (k + 1) := by
  have hmem : ∀ i, i ∈ List.range' 0 (k + 1) ↔ i ≤ k := by
    intro i
    rw [List.mem_range'_1]
    omega
  refine scanDir_eq_logEntries List.pairwise_lt_range' (fun i => ?_) (fun i hi => ?_) h.others
    horder
  · rw [h.found, hmem]
  · exact h.recognised i ((hmem i).mp hi)

/-! ## The loop -/

/-- The first renaming: the `r` files from `i` on go behind all others. -/
def awayPairs (name : Bytes) (k i r : ℕ) : List (Bytes × Bytes) :=
  (List.range' i r).map fun j => (fileName name j, fileName name (k + 1 + j))

/-- The second renaming: they get the indices behind their old ones. -/
def backPairs (name : Bytes) (k i r : ℕ) : List (Bytes × Bytes) :=
  (List.range' i r).map fun j => (fileName name (k + 1 + j), fileName name (j + 1))

/-- The search for a free index goes past the entries that are there. -/
lemma firstFree_entries {i n fuel b : ℕ} (hi : i ≤ b) (hb : b ≤ i + n) (h32 : i + n < 2 ^ 32)
    (hfuel : n < fuel) : firstFree (entries name i n) fuel b = i + n := by
  have hlength : ((List.range' i n).filter (b ≤ ·)).length < fuel := by
    have := List.length_filter_le (b ≤ ·) (List.range' i n)
    rw [List.length_range'] at this
    omega
  obtain ⟨hle, hmax, hfree⟩ := firstFree_spec name
    (fun j (hj : j ∈ List.range' i n) => (List.mem_range'_1.mp hj).2) h32 hlength
  rw [List.mem_range'_1] at hfree
  rw [entries_eq]
  omega

/-- One file of the loop: it goes to the index `b`. -/
lemma renameLoop_succ {reserve base file i n b : ℕ} (hne : base ≠ i)
    (hb : firstFree (entries name i (n + 1)) (n + 2) base = b + 1) :
    renameLoop name (reserve + 1) base (file + 1) (entries name i (n + 1)) d =
      let rest := renameLoop name reserve ((b + 2) % 2 ^ 32) ((file + 2) % 2 ^ 32)
        (entries name (i + 1) n) (d.rename validName (fileName name i) (fileName name (b + 1)))
      (rest.1, rest.2.1, if fileName name (file + 1) ≠ fileName name (b + 1) then
        (fileName name (b + 1), fileName name (file + 1)) :: rest.2.2 else rest.2.2) := by
  rw [entries_succ] at hb ⊢
  simp only [renameLoop, if_pos hne, length_entries, hb]
  rfl

/-- The files behind the first one. -/
lemma renameLoop_entries (hk : k ≠ 0) : ∀ {i n base file : ℕ}, i ≠ 0 → i + n = k + 1 → r ≤ n →
    k + i + r < 2 ^ 32 → base = (k + 1 + i) % 2 ^ 32 → file = (i + 1) % 2 ^ 32 →
    renameLoop name r base file (entries name i n) d =
      (d.renameAll validName (awayPairs name k i r), entries name (i + r) (n - r),
        backPairs name k i r) := by
  induction r generalizing d with
  | zero =>
    intro i n base file hi hn hr hlt hbase hfile
    cases n <;> rfl
  | succ r ih =>
    intro i n base file hi hn hr hlt hbase hfile
    obtain ⟨n, rfl⟩ : ∃ n', n = n' + 1 := ⟨n - 1, by omega⟩
    rw [Nat.mod_eq_of_lt (by omega)] at hbase hfile
    subst hbase hfile
    have hfree : firstFree (entries name i (n + 1)) (n + 2) (k + 1 + i) = k + i + 1 := by
      rw [firstFree, if_neg]
      · omega
      · intro h
        have := find_entries_isSome.mp h
        omega
    have htarget : fileName name (i + 1) ≠ fileName name (k + i + 1) :=
      fileName_ne fun h => hk (by omega)
    rw [renameLoop_succ (by omega) hfree, ih (by omega) (by omega) (by omega) (by omega)
      (by congr 1; omega) rfl]
    simp only [if_pos htarget]
    refine Prod.ext ?_ (Prod.ext ?_ ?_)
    · simp only [awayPairs, List.range'_succ, List.map_cons, Directory.renameAll, List.foldl_cons]
      rw [show k + 1 + i = k + i + 1 by omega]
    · rw [show i + 1 + r = i + (r + 1) by omega, show n - r = n + 1 - (r + 1) by omega]
    · simp only [backPairs, List.range'_succ, List.map_cons]
      rw [show k + 1 + i = k + i + 1 by omega]

/-- **The loop**, when there are rotated files. -/
lemma renameLoop_all (hk : k ≠ 0) (hr : r + 1 ≤ k + 1) (hlt : k + (r + 1) < 2 ^ 32) :
    renameLoop name (r + 1) 1 1 (entries name 0 (k + 1)) d =
      (d.renameAll validName (awayPairs name k 0 (r + 1)), entries name (r + 1) (k - r),
        backPairs name k 0 (r + 1)) := by
  have hfree : firstFree (entries name 0 (k + 1)) (k + 2) 1 = k + 1 := by
    rw [firstFree_entries (by omega) (by omega) (by omega) (by omega), zero_add]
  have htarget : fileName name (0 + 1) ≠ fileName name (k + 1) :=
    fileName_ne fun h => hk (by omega)
  have hrest : renameLoop name r ((k + 2) % 2 ^ 32) ((0 + 2) % 2 ^ 32) (entries name (0 + 1) k)
      (d.rename validName (fileName name 0) (fileName name (k + 1))) = _ :=
    renameLoop_entries hk one_ne_zero (by omega) (by omega) (by omega) rfl rfl
  rw [renameLoop_succ zero_ne_one.symm hfree]
  simp only [if_pos htarget]
  rw [hrest]
  refine Prod.ext rfl (Prod.ext ?_ rfl)
  rw [Nat.add_comm 1 r]

/-! ## One call -/

/-- The log and the first rotated files are one index further, up to the index `r`; the other
files of the program are gone, and the files of others are as they were. -/
structure Shifted (name : Bytes) (r : ℕ) (d d' : Dir) : Prop where
  kept : ∀ j, j < r → d' (fileName name (j + 1)) = d (fileName name j)
  log : d' (fileName name 0) = none
  gone : ∀ j, r ≤ j → d' (fileName name (j + 1)) = none
  others : ∀ x, (∀ i, x ≠ fileName name i) → d' x = d x

/-- The directory between the two renamings, after the removal of the files that are left. -/
def betweenDir (name : Bytes) (k r : ℕ) (d : Dir) : Dir :=
  (d.renameAll validName (awayPairs name k 0 r)).removeAll
    ((entries name r (k + 1 - r)).map Prod.snd)

/-- The plan of the rotation: every kept file goes behind all others, and then one index up. -/
def shiftMoves (k r : ℕ) : List LogMove := (List.range' 0 r).map fun j => ⟨j, k + 1 + j, j + 1⟩

lemma mem_shiftMoves {p : LogMove} (hp : p ∈ shiftMoves k r) :
    p.index < r ∧ p.temp = k + 1 + p.index ∧ p.target = p.index + 1 := by
  obtain ⟨j, hj, rfl⟩ := List.mem_map.mp hp
  exact ⟨by simpa using hj, rfl, rfl⟩

lemma planned_shiftMoves (hr : r ≤ k + 1) : Planned 1 1 (k + 1) (List.range' 0 r)
    (List.range' r (k + 1 - r)) (shiftMoves k r) := by
  refine ⟨?_, ?_, fun p hp => ?_, fun p hp => ?_, fun p hp => ?_, fun p hp => ?_, ?_⟩
  · rw [shiftMoves, List.map_map]
    exact List.map_id _
  · have hadd : (List.range' 0 r).map (1 + ·) = List.range' 1 r := List.map_add_range' 0 r 1
    rw [shiftMoves, List.map_map, List.length_range', ← hadd]
    exact List.map_congr_left fun j _ => Nat.add_comm j 1
  · have := mem_shiftMoves hp
    omega
  · have := mem_shiftMoves hp
    rw [List.length_range']
    omega
  · have := mem_shiftMoves hp
    omega
  · have := mem_shiftMoves hp
    rw [List.mem_range'_1]
    omega
  · rw [shiftMoves, List.pairwise_map]
    refine List.Pairwise.imp_of_mem (fun {i j} _ hj hlt => ?_) List.pairwise_lt_range'
    have := List.mem_range'_1.mp hj
    dsimp only
    omega

lemma awayPairs_eq : awayPairs name k 0 r = loopRenames name (shiftMoves k r) := by
  have hmoved : ∀ p ∈ shiftMoves k r, decide (p.index ≠ p.temp) = true := by
    intro p hp
    have := mem_shiftMoves hp
    exact decide_eq_true (by omega)
  rw [loopRenames, List.filter_eq_self.mpr hmoved, shiftMoves, List.map_map]
  rfl

lemma backPairs_eq (hk : k ≠ 0) : backPairs name k 0 r = listRenames name (shiftMoves k r) := by
  have hmoved : ∀ p ∈ shiftMoves k r, decide (p.target ≠ p.temp) = true := by
    intro p hp
    have := mem_shiftMoves hp
    exact decide_eq_true (by omega)
  rw [listRenames, List.filter_eq_self.mpr hmoved, shiftMoves, List.map_map]
  rfl

lemma betweenDir_eq :
    betweenDir name k r d = planBetween name (shiftMoves k r) (List.range' r (k + 1 - r)) d := by
  rw [betweenDir, planBetween, awayPairs_eq, entries_eq, map_snd_logEntries]

/-- The files that are kept get the indices behind their old ones. -/
lemma Renumbered.shifted {d' : Dir} (h : Renumbered name (List.range' 0 r) d d') :
    Shifted name r d d' := by
  refine ⟨fun j hj => ?_, h.log, fun j hj => ?_, h.others⟩
  · refine (h.rotated j).trans ?_
    rw [List.getElem?_range' hj]
    simp
  · refine (h.rotated j).trans ?_
    rw [List.getElem?_eq_none (by rwa [List.length_range'])]
    rfl

/-- The two renamings, with the removal of the files that are left between them. -/
lemma shifted_of_moves (h : Indexed name k d) (hr : r ≤ k + 1)
    (hlen : (fileName name (k + r)).length ≤ 255) :
    Shifted name r d ((planBetween name (shiftMoves k r) (List.range' r (k + 1 - r)) d).renameAll
      validName (listRenames name (shiftMoves k r))) := by
  have hplan := planned_shiftMoves hr
  have hkept : (List.range' 0 r).Pairwise (· < ·) := List.pairwise_lt_range'
  have hfound : ∀ i ∈ List.range' 0 r, d (fileName name i) ≠ none := by
    intro i hi
    rw [List.mem_range'_1] at hi
    exact (h.found i).mpr (by omega)
  have hindices : ∀ i, d (fileName name i) ≠ none →
      i ∈ List.range' 0 r ∨ i ∈ List.range' r (k + 1 - r) := by
    intro i hi
    have := (h.found i).mp hi
    rw [List.mem_range'_1, List.mem_range'_1]
    omega
  have htemp : ∀ p ∈ shiftMoves k r, p.temp ≤ k + r := by
    intro p hp
    have := mem_shiftMoves hp
    omega
  obtain ⟨haway, hback⟩ := movable_of_planned hplan hkept hfound htemp hlen
  exact (renumbered_of_planned hplan hkept hindices haway hback).shifted

/-- **`rename_file`** with a limit. -/
theorem rename_file_shifted (h : Indexed name k d) (horder : d.Lists order) (hm : 0 < m)
    (hlt : k + min (k + 1) m < 2 ^ 32) (hlen : (fileName name (k + min (k + 1) m)).length ≤ 255) :
    Shifted name (min (k + 1) m) d (rename_file name m order d) := by
  obtain ⟨r, hr⟩ : ∃ r, min (k + 1) m = r + 1 := ⟨min (k + 1) m - 1, by omega⟩
  have hreserve : (if m > 0 then if (k + 1) % 2 ^ 32 > m then m else (k + 1) % 2 ^ 32
      else (k + 1) % 2 ^ 32) = r + 1 := by
    rw [Nat.mod_eq_of_lt (by omega), if_pos hm]
    split_ifs <;> omega
  rw [hr] at hlt hlen ⊢
  simp only [rename_file, h.scanDir_eq horder, length_entries, hreserve]
  by_cases hk : k = 0
  · subst hk
    obtain rfl : r = 0 := by omega
    have hloop : renameLoop name (0 + 1) 1 1 (entries name 0 (0 + 1)) d =
        (d.rename validName (fileName name 0) (fileName name 1), [], []) := by
      rw [renameLoop_succ (b := 0) zero_ne_one.symm
        (firstFree_entries (by omega) (by omega) (by omega) (by omega))]
      simp only [ne_eq, not_true_eq_false, if_false]
      rfl
    rw [hloop]
    exact shifted_of_moves h (by omega) hlen
  · rw [renameLoop_all hk (by omega) hlt, show k - r = k + 1 - (r + 1) by omega]
    have hshifted := shifted_of_moves h (r := r + 1) (by omega) hlen
    rwa [← betweenDir_eq, ← backPairs_eq hk] at hshifted

/-- The files of the program after a rotation. -/
lemma Shifted.indexed {d' : Dir} (h : Shifted name r d d') (hd : Indexed name k d)
    (hname : IsProName name) (h_ : 95 ∉ name) (hr : r ≤ k + 1) (hlt : r < 2 ^ 32)
    (hlen : (fileName name r).length ≤ 255) (content : Bytes) :
    Indexed name r (d'.write (fileName name 0) content) := by
  have hwrite : ∀ {x}, x ≠ fileName name 0 → d'.write (fileName name 0) content x = d' x :=
    fun hx => Directory.write_of_ne hx _
  refine ⟨fun i => ?_, fun i hi => ?_, fun x hx hne => ?_⟩
  · cases i with
    | zero => simp
    | succ i =>
      rw [hwrite (fileName_ne (by omega))]
      by_cases hi : i < r
      · rw [h.kept i hi, hd.found]
        omega
      · rw [h.gone i (by omega)]
        simpa using hi
  · cases i with
    | zero => exact hd.recognised 0 (by omega)
    | succ i =>
      exact logFileEntry_indexFileName hname h_ (by omega) (by omega)
        ((length_fileName_mono hi).trans hlen)
  · rw [hwrite (hx 0), h.others x hx] at hne
    exact hd.others x hx hne

lemma Indexed.write_log (h : Indexed name k d) (content : Bytes) :
    Indexed name k (d.write (fileName name 0) content) := by
  have hwrite : ∀ {x}, x ≠ fileName name 0 → d.write (fileName name 0) content x = d x :=
    fun hx => Directory.write_of_ne hx _
  refine ⟨fun i => ?_, h.recognised, fun x hx hne => h.others x hx (hwrite (hx 0) ▸ hne)⟩
  by_cases hi : i = 0
  · simp [hi]
  · rw [hwrite (fileName_ne hi), h.found]

end

/-! ## Runs -/

section

variable {name : Bytes} {m : ℕ} {files : Dir} {s : LogState} {r : Rotation}

/-- A directory without rotated files of the program. -/
structure Fresh (m_pro_name : Bytes) (files : Dir) : Prop where
  rotated : ∀ index, files (indexFileName m_pro_name (index + 1)) = none
  others : ∀ x, x ≠ logFileName m_pro_name → files x ≠ none → logFileEntry m_pro_name x = none

/-- `readdir` gives every file once, and the highest index that the rotation needs on its way is
one of 32 bits whose file name is not too long. -/
def LogState.Fits (m_pro_name : Bytes) (m_log_file_cache_max_cnts : ℕ) (s : LogState)
    (r : Rotation) : Prop :=
  let k := min m_log_file_cache_max_cnts s.rotated.length
  let highest := k + min (k + 1) m_log_file_cache_max_cnts
  (appendLog m_pro_name r.text s.dir).Lists r.order ∧ highest < 2 ^ 32 ∧
    (indexFileName m_pro_name highest).length ≤ 255

/-- The rotated files are the newest logs, the newest one at the index 1, and every one of them
is recognised by the next scan. -/
structure LogState.Newest (m_pro_name : Bytes) (m_log_file_cache_max_cnts : ℕ) (s : LogState) :
    Prop where
  kept : ∀ j, s.dir (indexFileName m_pro_name (j + 1)) =
    (s.rotated.take m_log_file_cache_max_cnts)[j]?
  recognised : ∀ j, s.dir (indexFileName m_pro_name (j + 1)) ≠ none →
    logFileEntry m_pro_name (indexFileName m_pro_name (j + 1)) =
      some (j + 1, indexFileName m_pro_name (j + 1))

/-- The invariant: the log and the newest rotated logs are what the scan finds. -/
structure LogState.Rotated (m_pro_name : Bytes) (m_log_file_cache_max_cnts : ℕ) (s : LogState) :
    Prop where
  kept : ∀ j, s.dir (indexFileName m_pro_name (j + 1)) =
    (s.rotated.take m_log_file_cache_max_cnts)[j]?
  indexed : Indexed m_pro_name (s.rotated.take m_log_file_cache_max_cnts).length s.dir

lemma LogState.Rotated.newest (h : s.Rotated name m) : s.Newest name m :=
  ⟨h.kept, fun j hj => h.indexed.recognised (j + 1) ((h.indexed.found (j + 1)).mp hj)⟩

/-- The logs after one more rotation. -/
lemma getElem?_take_cons {log : Bytes} {logs : List Bytes} {j : ℕ} (hj : j + 1 < m) :
    ((log :: logs).take m)[j + 1]? = (logs.take m)[j]? := by
  obtain ⟨m, rfl⟩ : ∃ m', m = m' + 1 := ⟨m - 1, by omega⟩
  rw [List.take_succ_cons, List.getElem?_cons_succ, List.getElem?_take_of_lt (by omega),
    List.getElem?_take_of_lt (by omega)]

lemma openLog_eq_write {d : Dir} (h : d (logFileName name) = none) :
    openLog name d = d.write (logFileName name) [] := by
  simp [openLog, h]

/-- **One rotation.** -/
lemma LogState.Rotated.step (h : s.Rotated name m) (hname : IsProName name) (h_ : 95 ∉ name)
    (hm : 0 < m) (hfits : s.Fits name m r) {s' : LogState} (hs' : s.step name m r = some s') :
    s'.Rotated name m := by
  obtain rfl := Option.some.inj hs'
  obtain ⟨horder, hlt, hlen⟩ := hfits
  set k := (s.rotated.take m).length with hk
  rw [List.length_take] at hk
  rw [← hk] at hlt hlen
  have hindexed : Indexed name k (appendLog name r.text s.dir) := h.indexed.write_log _
  obtain ⟨i, hi⟩ : ∃ i, k + min (k + 1) m = i + 1 := ⟨k + min (k + 1) m - 1, by omega⟩
  have hlen' : (fileName name (k + min (k + 1) m)).length ≤ 255 := by
    rw [hi] at hlen ⊢
    exact hlen
  have hshift := rename_file_shifted hindexed horder hm hlt hlen'
  have hlength : (((appendLog name r.text s.dir (logFileName name)).getD [] ::
      s.rotated).take m).length = min (k + 1) m := by
    rw [List.length_take, List.length_cons, hk]
    omega
  have hdir : openLog name (rename_file name m r.order (appendLog name r.text s.dir)) =
      (rename_file name m r.order (appendLog name r.text s.dir)).write (logFileName name) [] :=
    openLog_eq_write hshift.log
  refine ⟨fun j => ?_, ?_⟩
  · dsimp only
    rw [hdir, Directory.write_of_ne (indexFileName_ne_logFileName name (j + 1))]
    by_cases hj : j < min (k + 1) m
    · refine (hshift.kept j hj).trans ?_
      cases j with
      | zero =>
        obtain ⟨m, rfl⟩ : ∃ m', m = m' + 1 := ⟨m - 1, by omega⟩
        simp [fileName, appendLog]
      | succ j =>
        rw [getElem?_take_cons (by omega), ← h.kept j]
        exact Directory.write_of_ne (indexFileName_ne_logFileName name (j + 1)) _
    · refine (hshift.gone j (by omega)).trans ?_
      rw [List.getElem?_eq_none (by rw [hlength]; omega)]
  · dsimp only
    rw [hdir, hlength]
    exact hshift.indexed hindexed hname h_ (by omega) (by omega)
      ((length_fileName_mono (by omega)).trans hlen') []

lemma LogState.rotated_initial (hfresh : Fresh name files) :
    (LogState.initial name files).Rotated name m := by
  have hopen : ∀ {x}, x ≠ logFileName name → openLog name files x = files x := by
    intro x hx
    cases hlog : files (logFileName name) with
    | none =>
      rw [openLog_eq_write hlog]
      exact Directory.write_of_ne hx _
    | some content => simp only [openLog, hlog]
  have hindex : ∀ j, openLog name files (indexFileName name (j + 1)) = none :=
    fun j => (hopen (indexFileName_ne_logFileName name (j + 1))).trans (hfresh.rotated j)
  refine ⟨fun j => ?_, fun i => ?_, fun i hi => ?_, fun x hx hne => ?_⟩
  · simpa [LogState.initial] using hindex j
  · cases i with
    | zero =>
      have hlog : openLog name files (logFileName name) ≠ none := by
        cases hlog : files (logFileName name) with
        | none => simp [openLog_eq_write hlog]
        | some content => simp [openLog, hlog]
      simpa [LogState.initial, fileName] using hlog
    | succ i => simpa [LogState.initial, fileName] using hindex i
  · obtain rfl : i = 0 := by simpa [LogState.initial] using hi
    have hne : logFileName name ≠ [] := by simp [logFileName]
    rw [fileName, logFileEntry, if_neg hne, if_pos rfl]
  · exact hfresh.others x (hx 0) ((hopen (hx 0)).symm ▸ hne)

/-- With an underscore in the name the scan finds the log alone, which goes to the index 1. -/
theorem rename_file_underscore {d : Dir} {order : List Bytes} (h_ : 95 ∈ name)
    (horder : d.Lists order) (hlog : d (logFileName name) ≠ none) (hm : 0 < m) :
    rename_file name m order d =
      d.rename validName (logFileName name) (indexFileName name 1) := by
  have hne : logFileName name ≠ [] := by simp [logFileName]
  have hentry : ∀ x, logFileEntry name x = if x = logFileName name then
      some (0, logFileName name) else none := by
    intro x
    split_ifs with hx
    · rw [hx, logFileEntry, if_neg hne, if_pos rfl]
    · exact logFileEntry_eq_none_of_underscore h_ hx
  have hscan : scanDir name order = [(0, logFileName name)] := by
    refine SortedMap.foldl_emplace_eq ?_ (by simp [SortedMap.Sorted]) fun e => ?_
    · rw [List.Nodup, List.pairwise_map, List.pairwise_filterMap]
      refine horder.1.imp fun {x y} hxy e he e' he' heq => hxy ?_
      rw [hentry] at he he'
      split_ifs at he he' with hx hy
      exact hx.trans hy.symm
    · rw [List.mem_filterMap, List.mem_singleton]
      constructor
      · rintro ⟨x, -, he⟩
        rw [hentry] at he
        split_ifs at he
        exact (Option.some.inj he).symm
      · rintro rfl
        exact ⟨_, (horder.2 _).mpr hlog, by rw [hentry, if_pos rfl]⟩
  have hloop : renameLoop name 1 1 1 [(0, logFileName name)] d =
      (d.rename validName (logFileName name) (indexFileName name 1), [], []) := by
    have hfree : firstFree [(0, logFileName name)] 2 1 = 1 := rfl
    simp only [renameLoop, List.length_nil, hfree, ne_eq, one_ne_zero, not_false_eq_true, if_true,
      not_true_eq_false, if_false]
  have hreserve : (if m > 0 then if 1 % 2 ^ 32 > m then m else 1 % 2 ^ 32
      else 1 % 2 ^ 32) = 1 := by
    rw [if_pos hm, if_neg (by omega)]
    rfl
  simp only [rename_file, hscan, List.length_singleton, hreserve, hloop]
  rfl

end

/-- **The newest logs are kept**, in every run of rotations, exactly when the program name has no
underscore. -/
theorem newest_kept_iff (m_pro_name : Bytes) (m_log_file_cache_max_cnts : ℕ) (files : Dir)
    (rotations : List Rotation) (hname : IsProName m_pro_name)
    (hm : 1 ≤ m_log_file_cache_max_cnts) (hfresh : Fresh m_pro_name files)
    (hfits : AllSteps (LogState.step m_pro_name m_log_file_cache_max_cnts)
      (LogState.Fits m_pro_name m_log_file_cache_max_cnts) (.initial m_pro_name files) rotations) :
    AllStates (LogState.step m_pro_name m_log_file_cache_max_cnts)
        (LogState.Newest m_pro_name m_log_file_cache_max_cnts) (.initial m_pro_name files)
        rotations ↔
      95 ∉ m_pro_name ∨ rotations = [] := by
  have hstart : (LogState.initial m_pro_name files).Rotated m_pro_name
      m_log_file_cache_max_cnts := LogState.rotated_initial hfresh
  constructor
  · intro hall
    by_contra hnot
    rw [not_or, not_not] at hnot
    obtain ⟨h_, hne⟩ := hnot
    obtain ⟨r, rs, rfl⟩ := List.exists_cons_of_ne_nil hne
    obtain ⟨⟨horder, hlt, hlen⟩, -⟩ := hfits
    have hlog : (appendLog m_pro_name r.text (LogState.initial m_pro_name files).dir)
        (logFileName m_pro_name) ≠ none := by
      rw [appendLog, Directory.write_self]
      simp
    have hnewest := (hall.2 _ rfl).head
    have hne : logFileName m_pro_name ≠ indexFileName m_pro_name 1 :=
      (indexFileName_ne_logFileName m_pro_name 1).symm
    have hvalid : validName (indexFileName m_pro_name 1) = true := by
      refine decide_eq_true ?_
      simpa [LogState.initial, hm] using hlen
    have hfound := hnewest.recognised 0
    dsimp only at hfound
    rw [logFileEntry_eq_none_of_underscore h_ hne.symm, openLog_eq_write,
      Directory.write_of_ne hne.symm, rename_file_underscore h_ horder hlog hm,
      Directory.rename_new hvalid hlog] at hfound
    · exact absurd (hfound hlog) (by simp)
    · rw [rename_file_underscore h_ horder hlog hm]
      exact Directory.rename_old hvalid hlog hne
  · rintro (h_ | rfl)
    · exact allStates_of_allSteps (fun s r s' h hr hs' => h.step hname h_ hm hr hs')
        (fun s h => h.newest) hstart hfits
    · exact hstart.newest

/-- In an empty directory there is the log alone. -/
lemma fits_initial {name text : Bytes} {m : ℕ} (hm : 1 ≤ m)
    (hlen : (indexFileName name 1).length ≤ 255) :
    (LogState.initial name fun _ => none).Fits name m ⟨text, [logFileName name]⟩ := by
  refine ⟨⟨List.nodup_singleton _, fun x => ?_⟩, ?_, ?_⟩
  · rw [List.mem_singleton]
    by_cases hx : x = logFileName name
    · simp [hx, appendLog]
    · simp [hx, appendLog, LogState.initial, openLog, Directory.write]
  · simp only [LogState.initial, List.length_nil]
    omega
  · simpa [LogState.initial, hm] using hlen

lemma fresh_empty (name : Bytes) : Fresh name fun _ => none := ⟨fun _ => rfl, by simp⟩

/-- The program `test` with a limit of four files. -/
theorem newest_kept_test :
    AllStates (LogState.step [116, 101, 115, 116] 4) (LogState.Newest [116, 101, 115, 116] 4)
      (.initial [116, 101, 115, 116] fun _ => none)
      [⟨[49], [logFileName [116, 101, 115, 116]]⟩] :=
  (newest_kept_iff [116, 101, 115, 116] 4 (fun _ => none)
    [⟨[49], [logFileName [116, 101, 115, 116]]⟩] ⟨by decide, by decide, by decide⟩ (by decide)
    (fresh_empty _) ⟨fits_initial (by decide) (by decide), fun _ _ => trivial⟩).mpr
      (Or.inl (by decide))

/-- The program `vd_test` with a limit of four files: the file of the first rotation is not
recognised, and the second one overwrites it. -/
theorem vd_test_overwritten :
    let vd_test : Bytes := [118, 100, 95, 116, 101, 115, 116]
    ¬ AllStates (LogState.step vd_test 4) (LogState.Newest vd_test 4)
      (.initial vd_test fun _ => none) [⟨[49], [logFileName vd_test]⟩] ∧
    (run (LogState.step vd_test 4) (.initial vd_test fun _ => none)
      [⟨[49], [logFileName vd_test]⟩, ⟨[50], [logFileName vd_test, indexFileName vd_test 1]⟩]).map
        (fun s => (s.rotated, s.dir (indexFileName vd_test 1), s.dir (indexFileName vd_test 2))) =
      some ([[50], [49]], some [50], none) := by
  intro vd_test
  refine ⟨fun hall => ?_, by decide +kernel⟩
  have hnewest := (hall.2 _ rfl).head
  have hkept := hnewest.recognised 0
  rw [logFileEntry_eq_none_of_underscore (by decide) (indexFileName_ne_logFileName _ _)] at hkept
  exact absurd (hkept (by decide +kernel)) (by simp)

end SignalEventLoop.Log
