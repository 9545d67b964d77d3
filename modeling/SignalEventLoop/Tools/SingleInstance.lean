/-
# The lock that makes a process run once

`acquireSigleInstanceLcok` holds the `flock` of the lock file only while it looks at the file and
writes its pid there; it gives the lock back before it returns.  What excludes a second process
is the pid in the file: the next caller reads it and asks `/proc` for its name.  The processes of
the system are threads that share the lock files, and every system call is a step of its own.
-/
import SignalEventLoop.Lib.CText
import SignalEventLoop.Lib.Scan
import SignalEventLoop.Lib.Threads

namespace SignalEventLoop.Tools

open Lib
open scoped Bytes

/-- A `pid_t` that the kernel gives to a process. -/
abbrev Pid := {n : ℕ // 0 < n ∧ n < 2 ^ 31}

/-! ## Processes -/

/-- What `/proc` shows of a process besides its pid: the name, and the text that follows it in
`stat`.  The name has a character in front of its first bracket. -/
structure Stat where
  comm : Bytes
  rest : Bytes
  comm_ne : ∀ c ∈ comm, c ≠ 0
  comm_head : comm.takeWhile (· ∉ [41]) ≠ []
  comm_length : comm.length < 64

/-- `/proc/<pid>/stat` -/
def Stat.text (stat : Stat) (pid : Pid) : Bytes :=
  decimal pid.val ++ ([32, 40] ++ (stat.comm ++ ([41, 32] ++ stat.rest)))

/-- Where a process is in `acquireSigleInstanceLcok`; `idle` is outside of it. -/
inductive Pc where
  | idle
  /-- `process_name` is known, `open` comes next -/
  | named
  /-- the lock file is open, `flock` comes next -/
  | opened
  /-- the file is locked, `read` comes next -/
  | locked
  /-- `readProcName(work_pid)` comes next -/
  | checking (work_pid : ℤ)
  /-- `isexisted` is false, `fopen` comes next -/
  | checked
  /-- the file is truncated, the pid is written by the time `fclose` returns -/
  | writing
  /-- `flock(fd, LOCK_UN)` and `close(fd)` come next -/
  | unlocking (ret : Bool)
  | returning (ret : Bool)
deriving DecidableEq

/-- A live process; `acquired` says that one of its calls has returned true. -/
structure Proc where
  stat : Stat
  pc : Pc
  acquired : Bool

/-- The lock files and the holders of their locks. -/
structure LockFiles where
  files : Bytes → Option Bytes
  locks : Bytes → Option Pid

abbrev State := Threads Pid LockFiles (Option Proc)

/-- No process is there, and no lock is held. -/
def State.initial (files : Bytes → Option Bytes) : State := ⟨⟨files, fun _ => none⟩, fun _ => none⟩

/-! ## The function -/

/-- `sscanf(read_buf, "%d (%[^)]", &t_pid, pro_name)`; `none` when `pro_name` is not written. -/
def scanProName (read_buf : Bytes) : Option Bytes :=
  (scanInteger (cString read_buf)).bind fun (_, _, s) =>
    match s.dropWhile isBlank with
    | 40 :: s => (scanUntil [41] s).map Prod.fst
    | _ => none

/-- `AIMY_UTILS::readProcName`.  The name is only unknown for a process that is not there; a
`stat` whose name `sscanf` does not find is not one of a `Proc`. -/
def readProcName (procs : Pid → Option Proc) (pid : ℤ) : Bytes :=
  if h : 0 < pid.toNat ∧ pid.toNat < 2 ^ 31 then
    match procs ⟨pid.toNat, h⟩ with
    | none => []
    | some proc =>
      let read_buf := (proc.stat.text ⟨pid.toNat, h⟩).take 512
      if read_buf.length ≤ 1 then [] else (scanProName read_buf).getD []
  else []

/-- `lock_file_path+"/"+process_name+".pid"` -/
def lockFileName (lock_file_path process_name : Bytes) : Bytes :=
  lock_file_path ++ ([47] ++ (process_name ++ [46, 112, 105, 100]))

def LockFiles.write (f : LockFiles) (name content : Bytes) : LockFiles :=
  { f with files := Function.update f.files name (some content) }

/-- `flock(fd, LOCK_UN)`, and what the end of a process does to its locks. -/
def LockFiles.unlock (f : LockFiles) (name : Bytes) (pid : Pid) : LockFiles :=
  if f.locks name = some pid then { f with locks := Function.update f.locks name none } else f

/-- A process starts, ends at any place, or makes its next system call. -/
inductive Action where
  | start (stat : Stat)
  | exit
  | call
  | open (ok : Bool)
  | flock (ok : Bool)
  | read
  | readProcName
  | fopen (ok : Bool)
  | fclose
  | unlock
  | ret

/-- `acquireSigleInstanceLcok`, from one system call to the next. -/
def Proc.advance (lock_file_path : Bytes) (procs : Pid → Option Proc) (f : LockFiles) (pid : Pid)
    (proc : Proc) (a : Action) : Option (LockFiles × Option Proc) :=
  let process_name := Tools.readProcName procs pid.val
  let name := lockFileName lock_file_path process_name
  match a, proc.pc with
  | .exit, _ => some (f.unlock name pid, none)
  | .call, .idle =>
    if process_name = [] then some (f, some { proc with pc := .returning false })
    else some (f, some { proc with pc := .named })
  | .open ok, .named =>
    -- `O_CREAT`
    if ok then some (f.write name ((f.files name).getD []), some { proc with pc := .opened })
    else some (f, some { proc with pc := .returning false })
  | .flock ok, .opened =>
    if ok then
      if f.locks name = none then
        some ({ f with locks := Function.update f.locks name (some pid) },
          some { proc with pc := .locked })
      else none
    else some (f, some { proc with pc := .unlocking false })
  | .read, .locked =>
    let buf := ((f.files name).getD []).take 31
    if buf.length > 0 then
      match stoi buf with
      -- the exception ends the process
      | none => some (f.unlock name pid, none)
      | some work_pid =>
        if work_pid ≠ pid.val then some (f, some { proc with pc := .checking work_pid })
        else some (f, some { proc with pc := .checked })
    else some (f, some { proc with pc := .checked })
  | .readProcName, .checking work_pid =>
    if Tools.readProcName procs work_pid = process_name then
      some (f, some { proc with pc := .unlocking false })
    else some (f, some { proc with pc := .checked })
  | .fopen ok, .checked =>
    if ok then some (f.write name [], some { proc with pc := .writing })
    else some (f, some { proc with pc := .unlocking false })
  | .fclose, .writing =>
    -- the stream writes from the beginning of the file
    let content := (f.files name).getD []
    let pidText := decimal pid.val
    some (f.write name (pidText ++ content.drop pidText.length),
      some { proc with pc := .unlocking true })
  | .unlock, .unlocking ret => some (f.unlock name pid, some { proc with pc := .returning ret })
  | .ret, .returning ret =>
    some (f, some { proc with pc := .idle, acquired := proc.acquired || ret })
  | _, _ => none

/-- One step of the system; only a pid that is free is given to a new process. -/
def State.step (lock_file_path : Bytes) (s : State) (a : Pid × Action) : Option State :=
  match s.pcs a.1, a.2 with
  | none, .start stat => some (s.move a.1 (s.shared, some ⟨stat, .idle, false⟩))
  | none, _ => none
  | some proc, act => (proc.advance lock_file_path s.pcs s.shared a.1 act).map (s.move a.1)

/-- There is a live process of the name with the pid, and a call of it has returned true. -/
def State.Acquired (s : State) (process_name : Bytes) (pid : Pid) : Prop :=
  ∃ proc, s.pcs pid = some proc ∧ readProcName s.pcs pid.val = process_name ∧
    proc.acquired = true

/-! ## Names -/

/-- The name of a process up to its first closing bracket. -/
def Stat.name (stat : Stat) : Bytes := stat.comm.takeWhile (· ∉ [41])

lemma takeWhile_append_stop {p : UInt8 → Bool} {c : UInt8} (hc : p c = false) (w s : Bytes) :
    (w ++ c :: s).takeWhile p = w.takeWhile p := by
  induction w with
  | nil => simp [hc]
  | cons a w ih => simp [List.takeWhile_cons, ih]

/-- The name lies in the part of `stat` that is read. -/
lemma Stat.take_text (stat : Stat) (pid : Pid) : ∃ s, (stat.text pid).take 512 =
    decimal pid.val ++ (32 :: 40 :: (stat.comm ++ 41 :: s)) := by
  have hpid : (decimal pid.val).length ≤ 10 :=
    length_decimal_le (by norm_num) (pid.property.2.trans (by norm_num))
  have hcomm := stat.comm_length
  obtain ⟨k, hk⟩ : ∃ k, 512 = (decimal pid.val).length + (stat.comm.length + k + 2 + 1) :=
    ⟨512 - (decimal pid.val).length - stat.comm.length - 3, by omega⟩
  refine ⟨(32 :: stat.rest).take k, ?_⟩
  rw [Stat.text, hk, List.take_length_add_append]
  congr 1
  rw [List.cons_append, List.cons_append, List.nil_append]
  rw [show stat.comm.length + k + 2 + 1 = (stat.comm.length + (k + 1)) + 1 + 1 by omega,
    List.take_succ_cons, List.take_succ_cons, List.take_length_add_append]
  rfl

lemma scanProName_text (stat : Stat) (pid : Pid) :
    scanProName ((stat.text pid).take 512) = some stat.name := by
  obtain ⟨s, hs⟩ := stat.take_text pid
  have hstring : cString (decimal pid.val ++ (32 :: 40 :: (stat.comm ++ 41 :: s))) =
      decimal pid.val ++ (32 :: 40 :: (stat.comm ++ 41 :: cString s)) := by
    rw [cString_append fun c hc => ne_zero_of_mem_decimal hc, cString_cons (by decide),
      cString_cons (by decide), cString_append stat.comm_ne, cString_cons (by decide)]
  have hname : (stat.comm ++ 41 :: cString s).takeWhile (· ∉ [41]) = stat.name :=
    takeWhile_append_stop (by decide) _ _
  have hblank : (32 :: 40 :: (stat.comm ++ 41 :: cString s)).dropWhile isBlank =
      40 :: (stat.comm ++ 41 :: cString s) := by
    rw [List.dropWhile_cons_of_pos (by decide), List.dropWhile_cons_of_neg (by decide)]
  rw [scanProName, hs, hstring, scanInteger_decimal _ (by simp [isDecimalDigit]),
    Option.bind_some]
  simp only [hblank, scanUntil, hname, if_neg stat.comm_head, Stat.name, Option.map_some]

/-- `readProcName` knows the name of every live process. -/
lemma readProcName_live {procs : Pid → Option Proc} {pid : Pid} {proc : Proc}
    (h : procs pid = some proc) : readProcName procs pid.val = proc.stat.name := by
  have hrange : 0 < (pid.val : ℤ).toNat ∧ (pid.val : ℤ).toNat < 2 ^ 31 := pid.property
  have hpid : (⟨(pid.val : ℤ).toNat, hrange⟩ : Pid) = pid := rfl
  have hlength : ¬ ((proc.stat.text pid).take 512).length ≤ 1 := by
    obtain ⟨s, hs⟩ := proc.stat.take_text pid
    rw [hs, List.length_append, List.length_cons, List.length_cons]
    omega
  rw [readProcName, dif_pos hrange, hpid, h]
  simp only [if_neg hlength, scanProName_text, Option.getD_some]

lemma lockFileName_injective (lock_file_path : Bytes) :
    Function.Injective (lockFileName lock_file_path) := by
  intro m n h
  exact List.append_cancel_right (List.append_cancel_left (List.append_cancel_left h))

/-- The pid in the file is read. -/
lemma stoi_decimal (pid : Pid) : stoi (decimal pid.val) = some (pid.val : ℤ) := by
  have hread := stoi_digits (s := []) (decimal_ne_nil pid.val)
    (fun _ => isDecimalDigit_of_mem_decimal) (by simp)
  rwa [List.append_nil, decimalValue_decimal, if_pos pid.property.2] at hread

/-! ## The invariant -/

/-- The process holds the lock of its file. -/
def Pc.holds : Pc → Bool
  | .locked | .checking _ | .checked | .writing | .unlocking true => true
  | _ => false

/-- A call has returned true, or is going to. -/
def Proc.Won (proc : Proc) : Prop :=
  proc.acquired = true ∨ proc.pc = .unlocking true ∨ proc.pc = .returning true

section

variable {path n : Bytes} {s : State} {f : LockFiles} {pid : Pid} {proc : Proc}

/-- What is in the lock file of the processes with the name `n`. -/
def LockFiles.content (path n : Bytes) (f : LockFiles) : Bytes :=
  (f.files (lockFileName path n)).getD []

/-- The processes with the name `n` that have won. -/
def State.Winner (n : Bytes) (s : State) (pid : Pid) : Prop :=
  ∃ proc, s.pcs pid = some proc ∧ proc.stat.name = n ∧ proc.Won

/-- What holds of a process between its steps: what it read is still in the file, and after the
check it is the only one that may have won. -/
structure Proc.Fits (path n : Bytes) (s : State) (f : LockFiles) (pid : Pid) (proc : Proc) :
    Prop where
  holds : proc.pc.holds = true → f.locks (lockFileName path proc.stat.name) = some pid
  checking : ∀ w, proc.pc = .checking w → proc.stat.name = n →
    ∃ q : Pid, w = q.val ∧ f.content path n = decimal q.val
  checked : proc.pc = .checked ∨ proc.pc = .writing → proc.stat.name = n →
    ∀ q, s.Winner n q → q = pid
  writing : proc.pc = .writing → proc.stat.name = n → f.content path n = []

/-- The file is empty or has a pid in it, and this is the pid of whoever has won; only while
the winner itself writes the file again is its pid not there. -/
structure State.Exclusive (path n : Bytes) (s : State) : Prop where
  content : s.shared.content path n = [] ∨ ∃ q : Pid, s.shared.content path n = decimal q.val
  fits : ∀ pid proc, s.pcs pid = some proc → proc.Fits path n s s.shared pid
  winner : ∀ pid proc, s.pcs pid = some proc → proc.stat.name = n → proc.Won →
    proc.pc = .writing ∨ s.shared.content path n = decimal pid.val

/-- Two processes of one name do not hold the lock together. -/
lemma State.Exclusive.holds_unique (h : s.Exclusive path n) {q : Pid} {proc' : Proc}
    (hp : s.pcs pid = some proc) (hq : s.pcs q = some proc') (hname : proc.stat.name = n)
    (hname' : proc'.stat.name = n) (hholds : proc.pc.holds = true)
    (hholds' : proc'.pc.holds = true) : q = pid := by
  have hlock := (h.fits pid proc hp).holds hholds
  have hlock' := (h.fits q proc' hq).holds hholds'
  rw [hname] at hlock
  rw [hname', hlock] at hlock'
  exact (Option.some.inj hlock').symm

/-- There is at most one winner. -/
lemma State.Exclusive.winner_unique (h : s.Exclusive path n) {q : Pid} (hp : s.Winner n pid)
    (hq : s.Winner n q) : q = pid := by
  obtain ⟨proc, hproc, hname, hwon⟩ := hp
  obtain ⟨proc', hproc', hname', hwon'⟩ := hq
  rcases h.winner pid proc hproc hname hwon with hwriting | hpid
  · exact (h.fits pid proc hproc).checked (Or.inr hwriting) hname q ⟨proc', hproc', hname', hwon'⟩
  · rcases h.winner q proc' hproc' hname' hwon' with hwriting' | hqid
    · exact ((h.fits q proc' hproc').checked (Or.inr hwriting') hname' pid
        ⟨proc, hproc, hname, hwon⟩).symm
    · exact Subtype.ext (decimal_injective (hqid.symm.trans hpid))

/-- A process that did not win before does not become a winner by a step of another one. -/
lemma State.winner_move {new : Option Proc}
    (hnew : ∀ proc' ∈ new, proc'.stat.name = n → proc'.Won → s.Winner n pid) {q : Pid}
    (h : State.Winner n (s.move pid (f, new)) q) : s.Winner n q := by
  obtain ⟨proc', hproc', hname, hwon⟩ := h
  by_cases hq : q = pid
  · rw [hq, Threads.move_pcs_self] at hproc'
    rw [hq]
    exact hnew proc' hproc' hname hwon
  · rw [Threads.move_pcs_ne hq] at hproc'
    exact ⟨proc', hproc', hname, hwon⟩

/-- A step that leaves the file of the name as it is and makes no winner. -/
lemma State.Exclusive.move (h : s.Exclusive path n) {new : Option Proc}
    (hlocks : ∀ q, q ≠ pid → ∀ name, s.shared.locks name = some q → f.locks name = some q)
    (hcontent : f.content path n = s.shared.content path n)
    (hnew : ∀ proc' ∈ new, proc'.Fits path n s f pid)
    (hwon : ∀ proc' ∈ new, proc'.stat.name = n → proc'.Won →
      s.Winner n pid ∧ f.content path n = decimal pid.val) :
    State.Exclusive path n (s.move pid (f, new)) := by
  have hwinner : ∀ {q}, State.Winner n (s.move pid (f, new)) q → s.Winner n q :=
    State.winner_move fun proc' hproc' hname hw => (hwon proc' hproc' hname hw).1
  refine ⟨?_, ?_, ?_⟩
  · rw [Threads.move_shared, hcontent]
    exact h.content
  · intro q proc' hproc'
    by_cases hq : q = pid
    · subst hq
      rw [Threads.move_pcs_self] at hproc'
      have hfits := hnew proc' hproc'
      exact ⟨hfits.holds, hfits.checking,
        fun hpc hname r hr => hfits.checked hpc hname r (hwinner hr), hfits.writing⟩
    · rw [Threads.move_pcs_ne hq] at hproc'
      have hfits := h.fits q proc' hproc'
      refine ⟨fun hholds => hlocks q hq _ (hfits.holds hholds), ?_,
        fun hpc hname r hr => hfits.checked hpc hname r (hwinner hr), ?_⟩
      · intro w hpc hname
        rw [Threads.move_shared, hcontent]
        exact hfits.checking w hpc hname
      · intro hpc hname
        rw [Threads.move_shared, hcontent]
        exact hfits.writing hpc hname
  · intro q proc' hproc' hname hw
    by_cases hq : q = pid
    · subst hq
      rw [Threads.move_pcs_self] at hproc'
      exact Or.inr (hwon proc' hproc' hname hw).2
    · rw [Threads.move_pcs_ne hq] at hproc'
      rw [Threads.move_shared, hcontent]
      exact h.winner q proc' hproc' hname hw

/-! ## The steps -/

/-- Away from the lock nothing is asked of a process. -/
lemma Proc.fits_of_not_holds (hpc : proc.pc.holds = false) : proc.Fits path n s f pid := by
  refine ⟨fun h => ?_, fun w h => ?_, fun h => ?_, fun h => ?_⟩
  · rw [hpc] at h
    exact absurd h (by simp)
  · rw [h] at hpc
    exact absurd hpc (by simp [Pc.holds])
  · rcases h with h | h <;> rw [h] at hpc <;> exact absurd hpc (by simp [Pc.holds])
  · rw [h] at hpc
    exact absurd hpc (by simp [Pc.holds])

/-- A winner that does not write the file has its pid there. -/
lemma State.Exclusive.winner_of_won (h : s.Exclusive path n) (hp : s.pcs pid = some proc)
    (hpc : proc.pc ≠ .writing) (hname : proc.stat.name = n) (hwon : proc.Won) :
    s.Winner n pid ∧ s.shared.content path n = decimal pid.val :=
  ⟨⟨proc, hp, hname, hwon⟩, (h.winner pid proc hp hname hwon).resolve_left hpc⟩

/-- A step within a call that leaves the file of the name as it is. -/
lemma State.Exclusive.move_pc (h : s.Exclusive path n) (hp : s.pcs pid = some proc)
    (hpc : proc.pc ≠ .writing) {proc' : Proc} (hstat : proc'.stat = proc.stat)
    (hwon : proc'.Won → proc.Won)
    (hlocks : ∀ q, q ≠ pid → ∀ name, s.shared.locks name = some q → f.locks name = some q)
    (hcontent : f.content path n = s.shared.content path n)
    (hfits : proc'.Fits path n s f pid) :
    State.Exclusive path n (s.move pid (f, some proc')) := by
  refine h.move hlocks hcontent ?_ ?_
  · intro proc'' hproc''
    obtain rfl := Option.some.inj hproc''
    exact hfits
  · intro proc'' hproc'' hname hw
    obtain rfl := Option.some.inj hproc''
    rw [hcontent]
    exact h.winner_of_won hp hpc (hstat ▸ hname) (hwon hw)

/-- A process ends. -/
lemma State.Exclusive.move_none (h : s.Exclusive path n)
    (hlocks : ∀ q, q ≠ pid → ∀ name, s.shared.locks name = some q → f.locks name = some q)
    (hcontent : f.content path n = s.shared.content path n) :
    State.Exclusive path n (s.move pid (f, none)) :=
  h.move hlocks hcontent (by simp) (by simp)

lemma LockFiles.unlock_content (f : LockFiles) (name : Bytes) (pid : Pid) :
    (f.unlock name pid).content path n = f.content path n := by
  rw [LockFiles.unlock]
  split_ifs <;> rfl

/-- Only the lock of the process itself is given back. -/
lemma LockFiles.unlock_locks (f : LockFiles) (name : Bytes) (pid q : Pid) (hq : q ≠ pid)
    (name' : Bytes) (h : f.locks name' = some q) : (f.unlock name pid).locks name' = some q := by
  rw [LockFiles.unlock]
  split_ifs with hlock
  · by_cases hname : name' = name
    · rw [hname, hlock] at h
      exact absurd (Option.some.inj h).symm hq
    · exact (Function.update_of_ne hname _ _).trans h
  · exact h

lemma LockFiles.write_content_self (f : LockFiles) (content : Bytes) :
    (f.write (lockFileName path n) content).content path n = content := by
  simp [LockFiles.content, LockFiles.write]

lemma LockFiles.write_content_ne (f : LockFiles) {m : Bytes} (hm : m ≠ n) (content : Bytes) :
    (f.write (lockFileName path m) content).content path n = f.content path n := by
  have hne : lockFileName path n ≠ lockFileName path m :=
    fun h => hm (lockFileName_injective path h).symm
  simp [LockFiles.content, LockFiles.write, Function.update_of_ne hne]

/-- The process that has passed the check writes the file: first nothing, then its pid. -/
lemma State.Exclusive.rewrite (h : s.Exclusive path n) (hp : s.pcs pid = some proc)
    (hpc : proc.pc = .checked ∨ proc.pc = .writing) (hname : proc.stat.name = n) {pc : Pc}
    {content : Bytes} (hnew : pc = .writing ∧ content = [] ∨
      pc = .unlocking true ∧ content = decimal pid.val) :
    State.Exclusive path n (s.move pid (s.shared.write (lockFileName path n) content,
      some { proc with pc := pc })) := by
  have hholds : proc.pc.holds = true := by
    rcases hpc with hpc | hpc <;> rw [hpc] <;> rfl
  have hlock := (h.fits pid proc hp).holds hholds
  have honly := (h.fits pid proc hp).checked hpc hname
  have hwinner : ∀ q, State.Winner n (s.move pid (s.shared.write (lockFileName path n) content,
      some { proc with pc := pc })) q → q = pid := by
    rintro q ⟨proc', hproc', hname', hwon⟩
    by_contra hq
    rw [Threads.move_pcs_ne hq] at hproc'
    exact hq (honly q ⟨proc', hproc', hname', hwon⟩)
  refine ⟨?_, ?_, ?_⟩
  · rw [Threads.move_shared, LockFiles.write_content_self]
    exact hnew.imp And.right fun hn => ⟨pid, hn.2⟩
  · intro q proc' hproc'
    by_cases hq : q = pid
    · subst hq
      rw [Threads.move_pcs_self] at hproc'
      obtain rfl := Option.some.inj hproc'
      refine ⟨fun _ => hlock, fun w hw => ?_, fun _ _ => hwinner, fun hw _ => ?_⟩
      · rcases hnew with ⟨hpc', -⟩ | ⟨hpc', -⟩ <;> simp [hpc'] at hw
      · rcases hnew with ⟨-, hcontent⟩ | ⟨hpc', -⟩
        · rw [Threads.move_shared, LockFiles.write_content_self, hcontent]
        · simp [hpc'] at hw
    · rw [Threads.move_pcs_ne hq] at hproc'
      by_cases hname' : proc'.stat.name = n
      · -- the lock is held by the process that writes
        refine Proc.fits_of_not_holds (Bool.eq_false_iff.mpr fun hholds' => hq ?_)
        exact h.holds_unique hp hproc' hname hname' hholds hholds'
      · exact ⟨(h.fits q proc' hproc').holds, fun _ _ hn => absurd hn hname',
          fun _ hn => absurd hn hname', fun _ hn => absurd hn hname'⟩
  · intro q proc' hproc' hname' hwon
    obtain rfl := hwinner q ⟨proc', hproc', hname', hwon⟩
    rw [Threads.move_pcs_self] at hproc'
    obtain rfl := Option.some.inj hproc'
    rw [Threads.move_shared, LockFiles.write_content_self]
    exact hnew.imp And.left And.right

/-- The same in the file of another name. -/
lemma State.Exclusive.rewrite_other (h : s.Exclusive path n) (hp : s.pcs pid = some proc)
    (hpc : proc.pc = .checked ∨ proc.pc = .writing) (hname : proc.stat.name ≠ n) (pc : Pc)
    (content : Bytes) :
    State.Exclusive path n (s.move pid (s.shared.write (lockFileName path proc.stat.name) content,
      some { proc with pc := pc })) := by
  have hholds : proc.pc.holds = true := by
    rcases hpc with hpc | hpc <;> rw [hpc] <;> rfl
  refine h.move (fun _ _ _ hq => hq) (LockFiles.write_content_ne _ hname _) ?_ ?_
  · intro proc' hproc'
    obtain rfl := Option.some.inj hproc'
    exact ⟨fun _ => (h.fits pid proc hp).holds hholds, fun _ _ hn => absurd hn hname,
      fun _ hn => absurd hn hname, fun _ hn => absurd hn hname⟩
  · intro proc' hproc' hname'
    obtain rfl := Option.some.inj hproc'
    exact absurd hname' hname

/-- While a process holds the lock and does not write yet, the pid of a winner is in the file. -/
lemma State.Exclusive.winner_content (h : s.Exclusive path n) (hp : s.pcs pid = some proc)
    (hholds : proc.pc.holds = true) (hpc : proc.pc ≠ .writing) (hname : proc.stat.name = n)
    {q : Pid} (hq : s.Winner n q) : s.shared.content path n = decimal q.val := by
  obtain ⟨proc', hproc', hname', hwon⟩ := hq
  rcases h.winner q proc' hproc' hname' hwon with hwriting | hcontent
  · have hqp : q = pid := h.holds_unique hp hproc' hname hname' hholds (by rw [hwriting]; rfl)
    rw [hqp, hp] at hproc'
    obtain rfl := Option.some.inj hproc'
    exact absurd hwriting hpc
  · exact hcontent

/-- What is read under the lock is nothing or a pid. -/
lemma State.Exclusive.stoi_content (h : s.Exclusive path n)
    (hlen : ((s.shared.content path n).take 31).length > 0) :
    ∃ q : Pid, stoi ((s.shared.content path n).take 31) = some (q.val : ℤ) ∧
      s.shared.content path n = decimal q.val := by
  rcases h.content with hnil | ⟨q, hq⟩
  · rw [hnil] at hlen
    exact absurd hlen (by simp)
  · have hlength : (decimal q.val).length ≤ 10 :=
      length_decimal_le (by norm_num) (q.property.2.trans (by norm_num))
    refine ⟨q, ?_, hq⟩
    rw [hq, List.take_of_length_le (by omega), stoi_decimal]

/-- `read` finds nothing, or the pid of the process itself: then there is no other winner. -/
lemma State.Exclusive.checked_of_read (h : s.Exclusive path n) (hp : s.pcs pid = some proc)
    (hpc : proc.pc = .locked) (hname : proc.stat.name = n)
    (hread : ((s.shared.content path n).take 31).length > 0 →
      stoi ((s.shared.content path n).take 31) = some (pid.val : ℤ)) (q : Pid)
    (hq : s.Winner n q) : q = pid := by
  have hcontent := h.winner_content hp (by rw [hpc]; rfl) (by simp [hpc]) hname hq
  have hlen : ((s.shared.content path n).take 31).length > 0 := by
    rw [hcontent, List.length_take]
    have := List.length_pos_iff.mpr (decimal_ne_nil q.val)
    omega
  obtain ⟨r, hr, hcontent'⟩ := h.stoi_content hlen
  have hrp : (r.val : ℤ) = pid.val := Option.some.inj (hr.symm.trans (hread hlen))
  have hrq : r.val = q.val := decimal_injective (hcontent'.symm.trans hcontent)
  exact Subtype.ext (by omega)

/-- `readProcName`: whoever may have won has the pid that was read, and no live process of the
name has it. -/
lemma State.Exclusive.checked_of_name_ne (h : s.Exclusive path n) (hp : s.pcs pid = some proc)
    {w : ℤ} (hpc : proc.pc = .checking w) (hname : proc.stat.name = n)
    (hw : readProcName s.pcs w ≠ n) (q : Pid) : ¬ s.Winner n q := by
  intro hq
  have hcontent := h.winner_content hp (by rw [hpc]; rfl) (by simp [hpc]) hname hq
  obtain ⟨r, rfl, hcontent'⟩ := (h.fits pid proc hp).checking w hpc hname
  obtain ⟨proc', hproc', hname', -⟩ := hq
  obtain rfl : r = q := Subtype.ext (decimal_injective (hcontent'.symm.trans hcontent))
  exact hw ((readProcName_live hproc').trans hname')

/-- `open` creates a file with nothing in it. -/
lemma LockFiles.write_content_same (f : LockFiles) (m : Bytes) :
    (f.write (lockFileName path m) ((f.files (lockFileName path m)).getD [])).content path n =
      f.content path n := by
  by_cases hm : m = n
  · rw [hm, LockFiles.write_content_self]
    rfl
  · exact LockFiles.write_content_ne f hm _

lemma Proc.won_of_pc {pc : Pc} (hw : Proc.Won { proc with pc := pc })
    (hpc : pc ≠ .unlocking true ∧ pc ≠ .returning true) : proc.Won :=
  Or.inl (hw.resolve_right fun h => h.elim hpc.1 hpc.2)

/-- A process that holds the lock goes on to `checked`. -/
lemma State.Exclusive.checked (h : s.Exclusive path n) (hp : s.pcs pid = some proc)
    (hholds : proc.pc.holds = true) (hpc : proc.pc ≠ .writing)
    (honly : proc.stat.name = n → ∀ q, s.Winner n q → q = pid) :
    State.Exclusive path n (s.move pid (s.shared, some { proc with pc := .checked })) :=
  h.move_pc hp hpc rfl (fun hw => Proc.won_of_pc hw (by simp)) (fun _ _ _ hq => hq) rfl
    ⟨fun _ => (h.fits pid proc hp).holds hholds, by simp, fun _ => honly, by simp⟩

/-- A call that fails. -/
lemma State.Exclusive.fails (h : s.Exclusive path n) (hp : s.pcs pid = some proc) {pc : Pc}
    (hpc : proc.pc ≠ .writing) (hquiet : pc.holds = false) (hret : pc ≠ .returning true) :
    State.Exclusive path n (s.move pid (s.shared, some { proc with pc := pc })) := by
  refine h.move_pc hp hpc rfl (fun hw => Proc.won_of_pc hw ⟨?_, hret⟩) (fun _ _ _ hq => hq) rfl
    (Proc.fits_of_not_holds hquiet)
  rintro rfl
  exact absurd hquiet (by simp [Pc.holds])

lemma State.Exclusive.read (h : s.Exclusive path n) (hp : s.pcs pid = some proc)
    (hpc : proc.pc = .locked) {r : LockFiles × Option Proc}
    (hr : proc.advance path s.pcs s.shared pid .read = some r) :
    State.Exclusive path n (s.move pid r) := by
  simp only [Proc.advance, readProcName_live hp, hpc] at hr
  split_ifs at hr with hlen
  · split at hr
    · obtain rfl := Option.some.inj hr
      exact h.move_none (LockFiles.unlock_locks _ _ _) (LockFiles.unlock_content _ _ _)
    · rename_i work_pid hstoi
      split_ifs at hr with hwork <;> obtain rfl := Option.some.inj hr
      · refine h.move_pc hp (by simp [hpc]) rfl (fun hw => Proc.won_of_pc hw (by simp))
          (fun _ _ _ hq => hq) rfl
          ⟨fun _ => (h.fits pid proc hp).holds (by rw [hpc]; rfl), ?_, by simp, by simp⟩
        rintro w hw rfl
        obtain ⟨q, hq, hcontent⟩ := h.stoi_content hlen
        obtain rfl : work_pid = w := by simpa using hw
        exact ⟨q, Option.some.inj (hstoi.symm.trans hq), hcontent⟩
      · rw [not_not] at hwork
        refine h.checked hp (by rw [hpc]; rfl) (by simp [hpc]) ?_
        rintro rfl
        exact h.checked_of_read hp hpc rfl fun _ => hwork ▸ hstoi
  · obtain rfl := Option.some.inj hr
    refine h.checked hp (by rw [hpc]; rfl) (by simp [hpc]) ?_
    rintro rfl
    exact h.checked_of_read hp hpc rfl fun hpos => absurd hpos hlen

/-- **One system call.** -/
theorem State.Exclusive.advance (h : s.Exclusive path n) (hp : s.pcs pid = some proc) {a : Action}
    {r : LockFiles × Option Proc} (hr : proc.advance path s.pcs s.shared pid a = some r) :
    State.Exclusive path n (s.move pid r) := by
  have hkeeps : ∀ q, q ≠ pid → ∀ name, s.shared.locks name = some q →
      s.shared.locks name = some q := fun _ _ _ hq => hq
  have hread := hr
  simp only [Proc.advance, readProcName_live hp] at hr
  split at hr
  · -- exit
    obtain rfl := Option.some.inj hr
    exact h.move_none (LockFiles.unlock_locks _ _ _) (LockFiles.unlock_content _ _ _)
  · -- call
    rename_i hpc
    split_ifs at hr <;> obtain rfl := Option.some.inj hr <;>
      exact h.fails hp (by simp [hpc]) rfl (by simp)
  · -- open
    rename_i hpc
    split_ifs at hr <;> obtain rfl := Option.some.inj hr
    · exact h.move_pc hp (by simp [hpc]) rfl (fun hw => Proc.won_of_pc hw (by simp)) hkeeps
        (LockFiles.write_content_same _ _) (Proc.fits_of_not_holds rfl)
    · exact h.fails hp (by simp [hpc]) rfl (by simp)
  · -- flock
    rename_i hpc
    split_ifs at hr with hok hfree <;> obtain rfl := Option.some.inj hr
    · refine h.move_pc hp (by simp [hpc]) rfl (fun hw => Proc.won_of_pc hw (by simp)) ?_ rfl
        ⟨fun _ => Function.update_self _ _ _, by simp, by simp, by simp⟩
      intro q _ name hq
      refine (Function.update_of_ne ?_ _ _).trans hq
      rintro rfl
      rw [hfree] at hq
      exact absurd hq (by simp)
    · exact h.fails hp (by simp [hpc]) rfl (by simp)
  · -- read
    rename_i hpc
    exact h.read hp hpc hread
  · -- readProcName
    rename_i hpc
    split_ifs at hr with hname <;> obtain rfl := Option.some.inj hr
    · exact h.fails hp (by simp [hpc]) rfl (by simp)
    · refine h.checked hp (by rw [hpc]; rfl) (by simp [hpc]) ?_
      rintro rfl q hq
      exact absurd hq (h.checked_of_name_ne hp hpc rfl hname q)
  · -- fopen
    rename_i hpc
    split_ifs at hr <;> obtain rfl := Option.some.inj hr
    · by_cases hname : proc.stat.name = n
      · subst hname
        exact h.rewrite hp (Or.inl hpc) rfl (Or.inl ⟨rfl, rfl⟩)
      · exact h.rewrite_other hp (Or.inl hpc) hname _ _
    · exact h.fails hp (by simp [hpc]) rfl (by simp)
  · -- fclose
    rename_i hpc
    obtain rfl := Option.some.inj hr
    by_cases hname : proc.stat.name = n
    · subst hname
      have hcontent := (h.fits pid proc hp).writing hpc rfl
      rw [LockFiles.content] at hcontent
      refine h.rewrite hp (Or.inr hpc) rfl (Or.inr ⟨rfl, ?_⟩)
      rw [hcontent, List.drop_nil, List.append_nil]
    · exact h.rewrite_other hp (Or.inr hpc) hname _ _
  · -- unlock
    rename_i ret hpc
    obtain rfl := Option.some.inj hr
    refine h.move_pc hp (by simp [hpc]) rfl ?_ (LockFiles.unlock_locks _ _ _)
      (LockFiles.unlock_content _ _ _) (Proc.fits_of_not_holds rfl)
    intro hw
    simpa [Proc.Won, hpc] using hw
  · -- ret
    rename_i ret hpc
    obtain rfl := Option.some.inj hr
    refine h.move_pc hp (by simp [hpc]) rfl ?_ hkeeps rfl (Proc.fits_of_not_holds rfl)
    intro hw
    simpa [Proc.Won, hpc] using hw
  · exact absurd hr (by simp)

/-- A process starts. -/
lemma State.Exclusive.start (h : s.Exclusive path n) (stat : Stat) :
    State.Exclusive path n (s.move pid (s.shared, some ⟨stat, .idle, false⟩)) := by
  refine h.move (fun _ _ _ hq => hq) rfl ?_ ?_
  · intro proc' hproc'
    obtain rfl := Option.some.inj hproc'
    exact Proc.fits_of_not_holds rfl
  · intro proc' hproc' _ hw
    obtain rfl := Option.some.inj hproc'
    exact absurd hw (by simp [Proc.Won])

/-- **One step of the system.** -/
theorem State.Exclusive.step (h : s.Exclusive path n) {a : Pid × Action} {s' : State}
    (hstep : s.step path a = some s') : s'.Exclusive path n := by
  simp only [State.step] at hstep
  split at hstep
  · obtain rfl := Option.some.inj hstep
    exact h.start _
  · exact absurd hstep (by simp)
  · rename_i hp
    obtain ⟨r, hr, rfl⟩ := Option.map_eq_some_iff.mp hstep
    exact h.advance hp hr

lemma State.exclusive_initial {files : Bytes → Option Bytes}
    (hfile : (files (lockFileName path n)).getD [] = []) :
    (State.initial files).Exclusive path n :=
  ⟨Or.inl hfile, by simp [State.initial], by simp [State.initial]⟩

end

/-- **At most one instance.** From a lock file that is absent or empty, whatever processes start,
end and call `acquireSigleInstanceLcok` in whatever order: there are never two live processes of
the name to which a call has returned true. -/
theorem acquired_unique (lock_file_path process_name : Bytes) (files : Bytes → Option Bytes)
    (hfile : files (lockFileName lock_file_path process_name) = none ∨
      files (lockFileName lock_file_path process_name) = some [])
    (as : List (Pid × Action)) :
    AllStates (State.step lock_file_path)
      (fun s => ∀ p q, s.Acquired process_name p → s.Acquired process_name q → p = q)
      (State.initial files) as := by
  have hempty : (files (lockFileName lock_file_path process_name)).getD [] = [] := by
    rcases hfile with h | h <;> rw [h] <;> rfl
  refine allStates_of_allSteps (fun s a s' h _ hs' => h.step hs') ?_
    (State.exclusive_initial hempty) (allSteps_of_forall _ fun _ _ => trivial)
  intro s h p q hp hq
  have hwinner : ∀ {r}, s.Acquired process_name r → s.Winner process_name r := by
    rintro r ⟨proc, hproc, hname, hacquired⟩
    exact ⟨proc, hproc, (readProcName_live hproc).symm.trans hname, Or.inl hacquired⟩
  exact h.winner_unique (hwinner hq) (hwinner hp)

/-- A first process gets the lock, a second one does not; it gets it when the first one is gone. -/
theorem acquired_unique_second :
    let stat : Stat := ⟨[97], [], by decide, by decide, by decide⟩
    let p : Pid := ⟨7, by decide⟩
    let q : Pid := ⟨8, by decide⟩
    let acquires := [Action.call, .open true, .flock true, .read, .fopen true, .fclose, .unlock, .ret]
    let refused := [Action.call, .open true, .flock true, .read, .readProcName, .unlock, .ret]
    let checked := [Action.call, .open true, .flock true, .read, .readProcName, .fopen true, .fclose,
      .unlock, .ret]
    let as := (p, .start stat) :: (q, .start stat) :: (acquires.map (p, ·) ++
      (refused.map (q, ·) ++ ((p, .exit) :: checked.map (q, ·))))
    (run (State.step []) (State.initial fun _ => none) as).map (fun s =>
        (readProcName s.pcs 8, (s.pcs q).map Proc.acquired)) = some ([97], some true) ∧
      AllStates (State.step [])
        (fun s => ∀ p q, s.Acquired [97] p → s.Acquired [97] q → p = q)
        (State.initial fun _ => none) as :=
  ⟨by decide +kernel, acquired_unique [] [97] _ (Or.inl rfl) _⟩

end SignalEventLoop.Tools
