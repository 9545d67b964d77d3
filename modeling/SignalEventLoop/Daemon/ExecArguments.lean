/-
# The arguments of a command

`DaemonSession::exec` (`sub_project/daemon-service/src/daemon-instance.cpp`) divides the command of
a process into arguments.  It works in a copy of the command with a NUL behind it, and puts a NUL
over the separator behind every argument.

A pointer into the copy is the offset where it points to, and `none` is the null pointer.  The
array of pointers is a local one: at the beginning it holds anything.
-/
import SignalEventLoop.Lib.ByteMem
import SignalEventLoop.Lib.CText
import SignalEventLoop.Lib.Scan

namespace SignalEventLoop.Daemon

open Lib

namespace ExecArguments

/-! ## Model -/

/-- The number of entries of `argv`. -/
def max_length : ℕ := 50

/-- What stands between arguments. -/
def isSeparator (c : UInt8) : Bool := c = 32 || c = 0

/-- A loop that goes on over bytes of the command, up to its end. -/
def skipWhile (p : UInt8 → Bool) (tmp : Bytes) (cmd_len pos : ℕ) : ℕ :=
  pos + (((tmp.take cmd_len).drop pos).takeWhile p).length

/-- The copy, the array, and the number of arguments in it. -/
structure Arguments where
  tmp : Bytes
  argv : List (Option ℕ)
  argv_set_pos : ℕ
deriving DecidableEq

/-- The loop over the arguments, and the null pointer behind them; there is no result when a write
leaves the copy or the array, or the fuel is used up. -/
def argvLoop (cmd_len : ℕ) : ℕ → Arguments → ℕ → Option Arguments
  | 0, _, _ => none
  | fuel + 1, ⟨tmp, argv, argv_set_pos⟩, data_parser_pos =>
    if data_parser_pos < cmd_len ∧ argv_set_pos < max_length - 1 then
      let search_begin := skipWhile (!isSeparator ·) tmp cmd_len (data_parser_pos + 1)
      (store argv argv_set_pos [some data_parser_pos]).bind fun argv =>
        (store tmp search_begin [0]).bind fun tmp =>
          argvLoop cmd_len fuel ⟨tmp, argv, argv_set_pos + 1⟩
            (skipWhile isSeparator tmp cmd_len (search_begin + 1))
    else (store argv argv_set_pos [none]).map fun argv => ⟨tmp, argv, argv_set_pos⟩

/-- The part of `DaemonSession::exec` that sets `argv`. -/
def execArguments (fuel : ℕ) (cmd : Bytes) (argv : List (Option ℕ)) : Option Arguments :=
  (store (List.replicate (cmd.length + 1) 0) 0 cmd).bind fun tmp =>
    argvLoop cmd.length fuel ⟨tmp, argv, 0⟩ (skipWhile isSeparator tmp cmd.length 0)

/-! ## Arguments -/

/-- The pointer points to the argument, with its NUL inside of the copy. -/
def PointsTo (tmp : Bytes) (pointer : Option ℕ) (w : Bytes) : Prop :=
  ∃ pos, pointer = some pos ∧ slice tmp pos (w.length + 1) = w ++ [0] ∧ 0 ∉ w

/-- The arguments that are in front of `d`. -/
def PointsBefore (d : ℕ) (tmp : Bytes) (pointer : Option ℕ) (w : Bytes) : Prop :=
  ∃ pos, pointer = some pos ∧ pos + w.length + 1 ≤ d ∧ slice tmp pos (w.length + 1) = w ++ [0] ∧
    0 ∉ w

variable {cmd tmp tmp' w : Bytes} {argv : List (Option ℕ)} {d d' k n : ℕ} {pointer : Option ℕ}

lemma PointsBefore.pointsTo (h : PointsBefore d tmp pointer w) : PointsTo tmp pointer w := by
  obtain ⟨pos, hpointer, -, hslice, hw⟩ := h
  exact ⟨pos, hpointer, hslice, hw⟩

lemma PointsBefore.of_store (h : PointsBefore d tmp pointer w) (hk : d ≤ k) (hd : d ≤ d')
    {data : Bytes} (hstore : store tmp k data = some tmp') : PointsBefore d' tmp' pointer w := by
  obtain ⟨pos, hpointer, hle, hslice, hw⟩ := h
  refine ⟨pos, hpointer, by omega, ?_, hw⟩
  rw [slice_of_store_before hstore (by omega), hslice]

/-- The copy from `d` on is as it was. -/
def Untouched (cmd tmp : Bytes) (d : ℕ) : Prop :=
  tmp.length = cmd.length + 1 ∧ tmp.drop d = (cmd ++ [0]).drop d

lemma Untouched.drop_take (h : Untouched cmd tmp d) (hk : d ≤ k) :
    (tmp.take cmd.length).drop k = cmd.drop k := by
  have hdrop : tmp.drop k = (cmd ++ [0]).drop k := by
    have hmore := congrArg (List.drop (k - d)) h.2
    rwa [List.drop_drop, List.drop_drop, Nat.add_sub_cancel' hk] at hmore
  rw [List.drop_take, hdrop, ← List.drop_take, List.take_left]

lemma Untouched.skipWhile (h : Untouched cmd tmp d) (hk : d ≤ k) (p : UInt8 → Bool) :
    skipWhile p tmp cmd.length k = k + ((cmd.drop k).takeWhile p).length := by
  rw [ExecArguments.skipWhile, h.drop_take hk]

lemma drop_add_takeWhile (p : UInt8 → Bool) (cmd : Bytes) (k : ℕ) :
    cmd.drop (k + ((cmd.drop k).takeWhile p).length) = (cmd.drop k).dropWhile p := by
  rw [← List.drop_drop, drop_length_takeWhile]

/-! ## One argument -/

/-- The argument at `d`, and what stands behind it. -/
lemma exists_argument (hd : d < cmd.length)
    (hhead : ∀ c ∈ (cmd.drop d).head?, isSeparator c = false) :
    ∃ w, w ≠ [] ∧ (∀ c ∈ w, isSeparator c = false) ∧ cmd.drop d = w ++ cmd.drop (d + w.length) ∧
      (∀ c ∈ (cmd.drop (d + w.length)).head?, isSeparator c = true) ∧
      d + 1 + ((cmd.drop (d + 1)).takeWhile (!isSeparator ·)).length = d + w.length := by
  have hcons := List.drop_eq_getElem_cons hd
  have hfirst : isSeparator cmd[d] = false := hhead _ (by rw [hcons]; rfl)
  have hw : (cmd.drop d).takeWhile (!isSeparator ·) =
      cmd[d] :: (cmd.drop (d + 1)).takeWhile (!isSeparator ·) := by
    rw [hcons, List.takeWhile_cons_of_pos (by simp [hfirst])]
  refine ⟨(cmd.drop d).takeWhile (!isSeparator ·), by simp [hw], ?_, ?_, ?_, ?_⟩
  · intro c hc
    simpa using List.mem_takeWhile_imp hc
  · rw [drop_add_takeWhile, List.takeWhile_append_dropWhile]
  · intro c hc
    rw [drop_add_takeWhile] at hc
    simpa using eq_false_of_mem_head?_dropWhile hc
  · rw [hw, List.length_cons]
    omega

/-- Separators make no words. -/
lemma words_skip (hsep : ∀ c ∈ (cmd.drop k).head?, isSeparator c = true) :
    words isSeparator (cmd.drop k) = words isSeparator (cmd.drop
      (k + 1 + ((cmd.drop (k + 1)).takeWhile isSeparator).length)) := by
  rw [drop_add_takeWhile, words_dropWhile]
  rcases Nat.lt_or_ge k cmd.length with hk | hk
  · have hcons := List.drop_eq_getElem_cons hk
    rw [hcons, words_cons _ (hsep _ (by rw [hcons]; rfl))]
  · rw [List.drop_of_length_le hk, List.drop_of_length_le (by omega)]

/-- The NUL behind an argument. -/
lemma pointsBefore_of_store (h : Untouched cmd tmp d) (hdrop : cmd.drop d = w ++ cmd.drop k)
    (hk : k = d + w.length) (hw : 0 ∉ w) (hstore : store tmp k [0] = some tmp') :
    PointsBefore (k + 1) tmp' (some d) w := by
  refine ⟨d, rfl, by omega, ?_, hw⟩
  have htmp : slice tmp d w.length = w := by
    rcases Nat.lt_or_ge cmd.length d with hd | hd
    · rw [List.drop_of_length_le hd.le] at hdrop
      rw [(List.append_eq_nil_iff.mp hdrop.symm).1]
      exact slice_zero_len tmp d
    · rw [slice, h.2, List.drop_append_of_le_length hd, hdrop, List.append_assoc, List.take_left]
  rw [← slice_append_slice, slice_of_store_before hstore (by omega), htmp, ← hk]
  exact congrArg (w ++ ·) (slice_of_store_self hstore)

lemma Untouched.of_store (h : Untouched cmd tmp d) (hk : d ≤ k) (hd : k + 1 ≤ d')
    (hstore : store tmp k [0] = some tmp') : Untouched cmd tmp' d' := by
  refine ⟨(length_of_store hstore).trans h.1, ?_⟩
  have hmore := congrArg (List.drop (d' - d)) h.2
  rw [List.drop_drop, List.drop_drop, Nat.add_sub_cancel' (by omega)] at hmore
  rw [drop_of_store hstore (by simpa using hd), hmore]

/-! ## All arguments -/

/-- What the loop leaves behind. -/
structure Divided (cmd : Bytes) (args : List Bytes) (a : Arguments) : Prop where
  length_tmp : a.tmp.length = cmd.length + 1
  length_argv : a.argv.length = max_length
  argv_set_pos_eq : a.argv_set_pos = args.length
  pointsTo : List.Forall₂ (PointsTo a.tmp) (a.argv.take a.argv_set_pos) args
  null : a.argv[a.argv_set_pos]? = some none

/-- The null pointer is set behind the arguments. -/
lemma divided_of_store {argv' : List (Option ℕ)} {args : List Bytes}
    (htmp : tmp.length = cmd.length + 1) (hargv : argv.length = max_length)
    (hpoints : List.Forall₂ (PointsBefore d tmp) (argv.take n) args)
    (hstore : store argv n [none] = some argv') : Divided cmd args ⟨tmp, argv', n⟩ where
  length_tmp := htmp
  length_argv := (length_of_store hstore).trans hargv
  argv_set_pos_eq := by
    have hle : n + 1 ≤ argv.length := (store_eq_some.mp hstore).1
    rw [← hpoints.length_eq, List.length_take_of_le (by omega)]
  pointsTo := by
    have hle := (store_eq_some.mp hstore).1
    have hsame : argv'.take n = argv.take n := by
      have hslice := slice_of_store_before (i := 0) (n := n) hstore (by omega)
      simpa [slice] using hslice
    rw [hsame]
    exact hpoints.imp fun _ _ h => h.pointsTo
  null := by
    rw [getElem?_of_store hstore, if_pos (by simp)]
    simp

/-- The loop at an argument: `done` are the arguments in front of `d`. -/
structure Reached (cmd : Bytes) (d : ℕ) (done : List Bytes) (tmp : Bytes) (argv : List (Option ℕ))
    (n : ℕ) : Prop where
  untouched : Untouched cmd tmp d
  length_argv : argv.length = max_length
  head : ∀ c ∈ (cmd.drop d).head?, isSeparator c = false
  pointsBefore : List.Forall₂ (PointsBefore d tmp) (argv.take n) done

/-- One argument more. -/
lemma Reached.step {done : List Bytes} (h : Reached cmd d done tmp argv n) (hd : d < cmd.length)
    (hn : n < max_length) :
    ∃ w argv' k tmp' d', store argv n [some d] = some argv' ∧
      skipWhile (!isSeparator ·) tmp cmd.length (d + 1) = k ∧ store tmp k [0] = some tmp' ∧
      skipWhile isSeparator tmp' cmd.length (k + 1) = d' ∧
      Reached cmd d' (done ++ [w]) tmp' argv' (n + 1) ∧
      words isSeparator (cmd.drop d) = w :: words isSeparator (cmd.drop d') := by
  obtain ⟨w, hne, hw, hdrop, hsep, hend⟩ := exists_argument hd h.head
  have hle : d + w.length ≤ cmd.length := by
    have hlen := congrArg List.length hdrop
    simp only [List.length_append, List.length_drop] at hlen
    omega
  have hentry : n + [some d].length ≤ argv.length := by simpa [h.length_argv] using hn
  obtain ⟨argv', hargv'⟩ := exists_store hentry
  have hnul : d + w.length + [(0 : UInt8)].length ≤ tmp.length := by simpa [h.untouched.1] using hle
  obtain ⟨tmp', htmp'⟩ := exists_store hnul
  have huntouched := h.untouched.of_store (Nat.le_add_right d w.length) le_rfl htmp'
  have hzero : 0 ∉ w := fun hmem => absurd (hw 0 hmem) (by decide)
  have hargument := pointsBefore_of_store h.untouched hdrop rfl hzero htmp'
  generalize hd' : d + w.length + 1 + ((cmd.drop (d + w.length + 1)).takeWhile
    isSeparator).length = d'
  refine ⟨w, argv', d + w.length, tmp', d', hargv', ?_, htmp', ?_, ⟨?_, ?_, ?_, ?_⟩, ?_⟩
  · rw [h.untouched.skipWhile (Nat.le_succ d), hend]
  · rw [huntouched.skipWhile le_rfl, hd']
  · exact h.untouched.of_store (Nat.le_add_right d w.length) (by omega) htmp'
  · exact (length_of_store hargv').trans h.length_argv
  · -- the next argument begins behind the separators
    rw [← hd', drop_add_takeWhile]
    exact fun c hc => eq_false_of_mem_head?_dropWhile hc
  · have htake : argv'.take (n + 1) = argv.take n ++ [some d] := take_of_store hargv'
    rw [htake]
    refine List.rel_append (h.pointsBefore.imp fun _ _ h => ?_) (.cons ?_ .nil)
    · exact h.of_store (Nat.le_add_right d w.length) (by omega) htmp'
    · obtain ⟨pos, hpos, hbefore, hslice⟩ := hargument
      exact ⟨pos, hpos, by omega, hslice⟩
  · rw [hdrop, words_append hne hw hsep, words_skip hsep, hd']

lemma argvLoop_spec {fuel : ℕ} {done : List Bytes} (hfuel : max_length ≤ fuel + n)
    (hn : n < max_length) (h : Reached cmd d done tmp argv n) :
    ∃ a, argvLoop cmd.length fuel ⟨tmp, argv, n⟩ d = some a ∧
      Divided cmd (done ++ (words isSeparator (cmd.drop d)).take (max_length - 1 - n)) a := by
  induction fuel generalizing tmp argv n d done with
  | zero => omega
  | succ fuel ih =>
    rw [argvLoop]
    split_ifs with hgo
    · obtain ⟨w, argv', k, tmp', d', hargv', hk, htmp', hd', hnext, hwords⟩ := h.step hgo.1 hn
      have htake : done ++ (words isSeparator (cmd.drop d)).take (max_length - 1 - n) =
          done ++ [w] ++ (words isSeparator (cmd.drop d')).take (max_length - 1 - (n + 1)) := by
        rw [hwords, show max_length - 1 - n = max_length - 1 - (n + 1) + 1 by omega,
          List.take_succ_cons, List.append_assoc, List.singleton_append]
      simp only [hargv', hk, htmp', hd', Option.bind_some]
      rw [htake]
      exact ih (by omega) (by omega) hnext
    · -- the end of the command, or no room for another argument
      have hentry : n + [(none : Option ℕ)].length ≤ argv.length := by
        simpa [h.length_argv] using hn
      obtain ⟨argv', hargv'⟩ := exists_store hentry
      refine ⟨_, by rw [hargv', Option.map_some], ?_⟩
      have hrest : (words isSeparator (cmd.drop d)).take (max_length - 1 - n) = [] := by
        rcases Nat.lt_or_ge d cmd.length with hd | hd
        · rw [show max_length - 1 - n = 0 by omega, List.take_zero]
        · rw [List.drop_of_length_le hd, words_nil, List.take_nil]
      rw [hrest, List.append_nil]
      exact divided_of_store h.untouched.1 h.length_argv h.pointsBefore hargv'

/-- **The arguments of `exec`** are the first 49 words of the command. -/
theorem exec_arguments (cmd : Bytes) (argv : List.Vector (Option ℕ) max_length) (fuel : ℕ)
    (hfuel : max_length ≤ fuel) :
    ∃ a, execArguments fuel cmd argv.toList = some a ∧
      Divided cmd ((words isSeparator cmd).take (max_length - 1)) a := by
  obtain ⟨tmp, htmp⟩ : ∃ tmp, store (List.replicate (cmd.length + 1) 0) 0 cmd = some tmp :=
    exists_store_replicate.mpr (Nat.le_succ _)
  have hcopy : tmp = cmd ++ [0] := by
    obtain ⟨-, rfl⟩ := store_eq_some.mp htmp
    simp
  have huntouched : Untouched cmd tmp 0 := ⟨by simp [hcopy], by rw [hcopy]⟩
  rw [execArguments, htmp, Option.bind_some, huntouched.skipWhile le_rfl]
  generalize hd : 0 + ((cmd.drop 0).takeWhile isSeparator).length = d
  have hdrop : cmd.drop d = cmd.dropWhile isSeparator := by
    rw [← hd, drop_add_takeWhile, List.drop_zero]
  have hwords : words isSeparator cmd = words isSeparator (cmd.drop d) := by
    rw [hdrop, words_dropWhile]
  have hstart : Untouched cmd tmp d := ⟨huntouched.1, by rw [hcopy]⟩
  have hhead : ∀ c ∈ (cmd.drop d).head?, isSeparator c = false := by
    rw [hdrop]
    exact fun c hc => eq_false_of_mem_head?_dropWhile hc
  have hreached : Reached cmd d [] tmp argv.toList 0 :=
    ⟨hstart, argv.toList_length, hhead, .nil⟩
  rw [hwords]
  exact argvLoop_spec hfuel (by decide) hreached

/-- The command `" ls  -l"`. -/
theorem exec_arguments_ls : ∃ a, execArguments 50 [32, 108, 115, 32, 32, 45, 108]
      (List.replicate 50 none) = some a ∧ a.argv_set_pos = 2 ∧
    List.Forall₂ (PointsTo a.tmp) (a.argv.take a.argv_set_pos) [[108, 115], [45, 108]] := by
  obtain ⟨a, ha, hdivided⟩ := exec_arguments [32, 108, 115, 32, 32, 45, 108]
    (List.Vector.replicate 50 none) 50 le_rfl
  have hwords : (words isSeparator [32, 108, 115, 32, 32, 45, 108]).take (max_length - 1) =
      [[108, 115], [45, 108]] := by decide
  have hpoints := hdivided.pointsTo
  rw [hwords] at hpoints
  refine ⟨a, ha, ?_, hpoints⟩
  rw [hdivided.argv_set_pos_eq, hwords]
  rfl

end ExecArguments

end SignalEventLoop.Daemon
