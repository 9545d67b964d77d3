/-
# The uevent monitor

`UeventMonitor::on_recv` (`imp/uevent_monitor.cpp`) reads one message of the kernel into a buffer
of fixed size and cuts it into strings in place: the header `action@devpath`, and then the
entries of the environment.  What it hands to the slots of `notifyUevent` are pointers into a
copy of the buffer.

A pointer is an offset here.  A call returns `none` when `strlen` looks behind the buffer; the
inner `none` is a message that is dropped.
-/
import SignalEventLoop.Lib.CText

namespace SignalEventLoop.Tools

open Lib
open scoped Bytes

/-! ## The monitor -/

def IHOTPLUG_BUFFER_SIZE : ℕ := 1024

def IHOTPLUG_NUM_ENVP : ℕ := 32

def IOBJECT_SIZE : ℕ := 512

/-- `sizeof(buf)` -/
def BUF_SIZE : ℕ := IHOTPLUG_BUFFER_SIZE + IOBJECT_SIZE

/-- `envp` has the entries in front of the null pointer. -/
structure Iuevent where
  buffer : Bytes
  devpath : ℕ
  action : ℕ
  envp : List ℕ
deriving DecidableEq

/-- `strlen` of the string that begins at `i`. -/
def strlen (buffer : Bytes) (i : ℕ) : Option ℕ :=
  if 0 ∈ buffer.drop i then some (cString (buffer.drop i)).length else none

/-- The loop that finds the entries of the environment, up to `n` of them. -/
def envLoop (buffer : Bytes) (buflen : ℕ) : ℕ → ℕ → Option (List ℕ)
  | 0, _ => some []
  | n + 1, bufpos =>
    if bufpos < buflen then
      (strlen buffer bufpos).bind fun keylen =>
        (envLoop buffer buflen n (bufpos + (keylen + 1))).map fun envp => bufpos :: envp
    else some []

/-- A buffer of the size of `buf`, with zeros behind the bytes. -/
def filled (bytes : Bytes) : Bytes := bytes ++ List.replicate (BUF_SIZE - bytes.length) 0

/-- `UeventMonitor::on_recv`.  There is no message when `recvmsg` fails, and no uid when the
first control message is not `SCM_CREDENTIALS`. -/
def onRecv (message : Option Bytes) (uid : Option ℕ) : Option (Option Iuevent) :=
  match message with
  | none => some none
  | some message =>
    -- `recvmsg` cuts the message to the size of the buffer
    let buf := filled (message.take BUF_SIZE)
    let buflen := (message.take BUF_SIZE).length
    if uid ≠ some 0 then some none
    else
      (strlen buf 0).bind fun len =>
        let bufpos := len + 1
        if bufpos < 5 ∨ bufpos ≥ BUF_SIZE then some none
        else if ¬ text "@/" <:+: cString buf then some none
        else
          let buflen := if buflen > BUF_SIZE - 1 then BUF_SIZE - 1 else buflen
          let buffer := buf.set buflen 0
          (strlen buffer 0).bind fun len =>
            let bufpos := len + 1
            let pos := (cString buffer).findIdx (· = 64)
            if pos = (cString buffer).length then some none
            else
              let buffer := buffer.set pos 0
              (envLoop buffer buflen (IHOTPLUG_NUM_ENVP - 1) bufpos).map fun envp =>
                some { buffer := buffer, devpath := pos + 1, action := 0, envp := envp }

/-! ## The strings of a message -/

/-- The strings of a text, each of which ends with a NUL or with the text. -/
def cStrings : Bytes → List Bytes
  | [] => []
  | c :: s =>
    if c = 0 then [] :: cStrings s
    else
      match cStrings s with
      | [] => [[c]]
      | w :: ws => (c :: w) :: ws

/-- The string that a pointer points to. -/
def Iuevent.string (e : Iuevent) (i : ℕ) : Bytes := cString (e.buffer.drop i)

/-- The action, the path and the environment, as a slot reads them. -/
def Iuevent.strings (e : Iuevent) : Bytes × Bytes × List Bytes :=
  (e.string e.action, e.string e.devpath, e.envp.map e.string)

/-- Every pointer points to a string that ends inside of the buffer, and there is room for the
null pointer. -/
structure Iuevent.InBuffer (e : Iuevent) : Prop where
  length : e.buffer.length = BUF_SIZE
  action : 0 ∈ e.buffer.drop e.action
  devpath : 0 ∈ e.buffer.drop e.devpath
  envp : ∀ i ∈ e.envp, 0 ∈ e.buffer.drop i
  count : e.envp.length < IHOTPLUG_NUM_ENVP

lemma cStrings_append {w : Bytes} (hw : 0 ∉ w) (s : Bytes) :
    cStrings (w ++ 0 :: s) = w :: cStrings s := by
  induction w with
  | nil => simp [cStrings]
  | cons c w ih =>
    rw [List.mem_cons, not_or] at hw
    rw [List.cons_append, cStrings, if_neg (Ne.symm hw.1), ih hw.2]

lemma cStrings_of_notMem {w : Bytes} (hne : w ≠ []) (hw : 0 ∉ w) : cStrings w = [w] := by
  induction w with
  | nil => exact absurd rfl hne
  | cons c w ih =>
    rw [List.mem_cons, not_or] at hw
    rw [cStrings, if_neg (Ne.symm hw.1)]
    cases w with
    | nil => rfl
    | cons d w => rw [ih (by simp) hw.2]

/-- A string with its NUL. -/
lemma cString_append_cons {w : Bytes} (hw : 0 ∉ w) (s : Bytes) : cString (w ++ 0 :: s) = w := by
  rw [cString_append fun c hc h => hw (h ▸ hc)]
  exact List.append_nil w

lemma cString_of_notMem {w : Bytes} (hw : 0 ∉ w) : cString w = w :=
  cString_eq_self fun _ hc h => hw (h ▸ hc)

/-- The first string, and what follows its NUL. -/
lemma cStrings_eq {s : Bytes} (hne : s ≠ []) :
    cStrings s = cString s :: cStrings (s.drop ((cString s).length + 1)) := by
  by_cases h0 : 0 ∈ s
  · obtain ⟨w, rest, rfl, hw⟩ := List.eq_append_cons_of_mem h0
    rw [cStrings_append hw, cString_append_cons hw, ← List.drop_drop, List.drop_left]
    rfl
  · rw [cString_of_notMem h0, cStrings_of_notMem hne h0, List.drop_of_length_le (by omega)]
    rfl

/-- The strings and their NULs are as long as the text, or have one NUL more. -/
lemma sum_cStrings_le (s : Bytes) :
    ((cStrings s).map fun w => w.length + 1).sum ≤ s.length + 1 := by
  induction s with
  | nil => simp [cStrings]
  | cons c s ih =>
    rw [cStrings]
    split_ifs
    · simp only [List.map_cons, List.length_nil, List.sum_cons, List.length_cons]
      omega
    · cases hs : cStrings s with
      | nil => simp
      | cons w ws =>
        rw [hs] at ih
        simp only [List.map_cons, List.sum_cons, List.length_cons] at ih ⊢
        omega

/-! ## The buffer -/

variable {bytes : Bytes} {i : ℕ}

lemma length_filled (h : bytes.length ≤ BUF_SIZE) : (filled bytes).length = BUF_SIZE := by
  rw [filled, List.length_append, List.length_replicate]
  omega

lemma cString_replicate (n : ℕ) : cString (List.replicate n 0) = [] := by
  cases n <;> simp [cString, List.replicate_succ]

/-- The zeros behind a text do not change its strings. -/
lemma cString_append_replicate (s : Bytes) (n : ℕ) :
    cString (s ++ List.replicate n 0) = cString s := by
  by_cases h0 : 0 ∈ s
  · obtain ⟨w, rest, rfl, hw⟩ := List.eq_append_cons_of_mem h0
    rw [List.append_assoc, List.cons_append, cString_append_cons hw, cString_append_cons hw]
  · rw [cString_append fun c hc h => h0 (h ▸ hc), cString_replicate, List.append_nil,
      cString_of_notMem h0]

lemma drop_filled (hi : i ≤ bytes.length) :
    (filled bytes).drop i = bytes.drop i ++ List.replicate (BUF_SIZE - bytes.length) 0 := by
  rw [filled, List.drop_append_of_le_length hi]

lemma zero_mem_drop_filled (hlen : bytes.length < BUF_SIZE) (hi : i ≤ bytes.length) :
    0 ∈ (filled bytes).drop i := by
  rw [drop_filled hi]
  exact List.mem_append_right _ (List.mem_replicate.mpr ⟨by omega, rfl⟩)

/-- The loop finds the strings behind `bufpos`. -/
lemma envLoop_eq_some (hlen : bytes.length < BUF_SIZE) (buffer : Bytes) (n bufpos : ℕ)
    (hdrop : ∀ i, bufpos ≤ i → buffer.drop i = (filled bytes).drop i) :
    ∃ envp, envLoop buffer bytes.length n bufpos = some envp ∧
      envp.map (fun i => cString (buffer.drop i)) = (cStrings (bytes.drop bufpos)).take n ∧
      (∀ i ∈ envp, 0 ∈ buffer.drop i) ∧ envp.length ≤ n := by
  induction n generalizing bufpos with
  | zero => exact ⟨[], rfl, by simp, by simp, le_rfl⟩
  | succ n ih =>
    by_cases hpos : bufpos < bytes.length
    · have h0 : 0 ∈ buffer.drop bufpos := by
        rw [hdrop bufpos le_rfl]
        exact zero_mem_drop_filled hlen hpos.le
      have hstring : cString (buffer.drop bufpos) = cString (bytes.drop bufpos) := by
        rw [hdrop bufpos le_rfl, drop_filled hpos.le, cString_append_replicate]
      have hne : bytes.drop bufpos ≠ [] := by
        rw [Ne, List.drop_eq_nil_iff]
        omega
      obtain ⟨envp, hloop, hstrings, hends, hcount⟩ :=
        ih (bufpos + ((cString (buffer.drop bufpos)).length + 1)) fun i hi => hdrop i (by omega)
      refine ⟨bufpos :: envp, ?_, ?_, ?_, ?_⟩
      · rw [envLoop, if_pos hpos, strlen, if_pos h0, Option.bind_some, hloop, Option.map_some]
      · rw [List.map_cons, hstrings, cStrings_eq hne, List.take_succ_cons, hstring, List.drop_drop]
      · intro i hi
        rcases List.mem_cons.mp hi with rfl | hi
        · exact h0
        · exact hends i hi
      · rw [List.length_cons]
        omega
    · refine ⟨[], by rw [envLoop, if_neg hpos], ?_, by simp, Nat.zero_le _⟩
      rw [List.drop_of_length_le (by omega)]
      rfl

/-! ## A message -/

/-- The first string of a message. -/
def header (message : Bytes) : Bytes := cString (message.take BUF_SIZE)

/-- What follows it.  The last byte of the buffer becomes a NUL. -/
def body (message : Bytes) : Bytes :=
  (message.take (BUF_SIZE - 1)).drop ((header message).length + 1)

/-- The header of a uevent. -/
structure HasHeader (message : Bytes) : Prop where
  long : 4 ≤ (header message).length
  fits : (header message).length + 1 < BUF_SIZE
  path : text "@/" <:+: header message

/-- `strlen` looks behind the buffer. -/
def Endless (message : Bytes) : Prop := BUF_SIZE ≤ message.length ∧ 0 ∉ message.take BUF_SIZE

variable {message : Bytes}

lemma strlen_buf (h : ¬ Endless message) :
    strlen (filled (message.take BUF_SIZE)) 0 = some (header message).length := by
  have h0 : 0 ∈ filled (message.take BUF_SIZE) := by
    by_cases hmem : 0 ∈ message.take BUF_SIZE
    · exact List.mem_append_left _ hmem
    · have hlt : message.length < BUF_SIZE := not_le.mp fun hle => h ⟨hle, hmem⟩
      refine List.mem_append_right _ (List.mem_replicate.mpr ⟨?_, rfl⟩)
      rw [List.length_take]
      omega
  rw [strlen, List.drop_zero, if_pos h0, filled, cString_append_replicate, header]

lemma strlen_buf_eq_none (h : Endless message) :
    strlen (filled (message.take BUF_SIZE)) 0 = none := by
  obtain ⟨hle, hmem⟩ := h
  have hlen : (message.take BUF_SIZE).length = BUF_SIZE := by
    rw [List.length_take]
    omega
  rw [strlen, List.drop_zero, filled, hlen, Nat.sub_self, List.replicate_zero, List.append_nil,
    if_neg hmem]

/-- The NUL at `buflen`: the bytes that stay are the first `BUF_SIZE - 1`. -/
lemma filled_set (message : Bytes) :
    (filled (message.take BUF_SIZE)).set
        (if (message.take BUF_SIZE).length > BUF_SIZE - 1 then BUF_SIZE - 1
          else (message.take BUF_SIZE).length) 0 = filled (message.take (BUF_SIZE - 1)) := by
  have hsize : BUF_SIZE = 1535 + 1 := rfl
  by_cases hlt : message.length < BUF_SIZE
  · rw [List.take_of_length_le hlt.le, List.take_of_length_le (by omega), if_neg (by omega), filled,
      List.set_append_right _ _ le_rfl, Nat.sub_self]
    obtain ⟨n, hn⟩ := Nat.exists_eq_add_of_lt hlt
    rw [show BUF_SIZE - message.length = n + 1 by omega, List.replicate_succ, List.set_cons_zero]
  · have hlen : (message.take BUF_SIZE).length = BUF_SIZE := by
      rw [List.length_take]
      omega
    have hlen' : (message.take 1535).length = 1535 := by
      rw [List.length_take]
      omega
    rw [hlen, if_pos (by omega), filled, hlen, Nat.sub_self, List.replicate_zero, List.append_nil,
      hsize, Nat.add_sub_cancel, filled, hlen', ← List.take_append_getElem (by omega),
      List.set_append_right _ _ (by omega), hlen', Nat.sub_self]
    rfl

/-- The header, and its NUL or the end of the message. -/
lemma exists_header (hfits : (header message).length + 1 < BUF_SIZE) :
    ∃ rest, message.take (BUF_SIZE - 1) = header message ++ rest ∧ ∀ c ∈ rest.head?, c = 0 := by
  have hsize : BUF_SIZE = 1535 + 1 := rfl
  set behind := (message.take BUF_SIZE).dropWhile (· ≠ 0) with hbehind
  have hsplit : header message ++ behind = message.take BUF_SIZE := List.takeWhile_append_dropWhile
  refine ⟨behind.take (BUF_SIZE - 1 - (header message).length), ?_, fun c hc => ?_⟩
  · have htake : message.take (BUF_SIZE - 1) = (message.take BUF_SIZE).take (BUF_SIZE - 1) := by
      rw [List.take_take, min_eq_left (by omega)]
    rw [htake, ← hsplit, List.take_append, List.take_of_length_le (by omega)]
  · have hhead : c ∈ behind.head? := by
      rw [List.head?_take] at hc
      split_ifs at hc
      · exact absurd hc (by simp)
      · exact hc
    have := List.head?_dropWhile_not (· ≠ 0) (message.take BUF_SIZE)
    rw [← hbehind, hhead] at this
    simpa using this

lemma zero_notMem_header (message : Bytes) : 0 ∉ header message :=
  fun h => ne_zero_of_mem_cString h rfl

lemma cString_of_head? {w rest : Bytes} (hw : 0 ∉ w) (hrest : ∀ c ∈ rest.head?, c = 0) :
    cString (w ++ rest) = w := by
  cases rest with
  | nil => rw [List.append_nil, cString_of_notMem hw]
  | cons c rest =>
    rw [hrest c rfl]
    exact cString_append_cons hw rest

lemma at_mem_header (h : HasHeader message) : 64 ∈ header message :=
  h.path.subset (by decide)

/-- A message with a header becomes an event. -/
lemma onRecv_of_hasHeader (hend : ¬ Endless message) (h : HasHeader message) :
    ∃ e, onRecv (some message) (some 0) = some (some e) ∧ e.InBuffer ∧
      e.strings = ((header message).takeWhile (· ≠ 64),
        ((header message).dropWhile (· ≠ 64)).drop 1,
        (cStrings (body message)).take (IHOTPLUG_NUM_ENVP - 1)) := by
  obtain ⟨rest, hrest, hhead⟩ := exists_header h.fits
  set msg := message.take (BUF_SIZE - 1) with hmsg
  have hlt : msg.length < BUF_SIZE := by
    rw [hmsg, List.length_take]
    have : BUF_SIZE = 1535 + 1 := rfl
    omega
  have hnot := zero_notMem_header message
  have hcString : cString (filled msg) = header message := by
    rw [filled, cString_append_replicate, hrest, cString_of_head? hnot hhead]
  have hle : (header message).length ≤ msg.length := by
    rw [hrest, List.length_append]
    omega
  have h0 : 0 ∈ filled msg := zero_mem_drop_filled (i := 0) hlt (Nat.zero_le _)
  set pos := (header message).findIdx (· = 64) with hpos
  have hposlt : pos < (header message).length :=
    List.findIdx_lt_length_of_exists ⟨64, at_mem_header h, by simp⟩
  set buffer := (filled msg).set pos 0 with hbuffer
  have hdrop : ∀ i, pos < i → buffer.drop i = (filled msg).drop i :=
    fun i hi => List.drop_set_of_lt hi
  obtain ⟨envp, hloop, hstrings, hends, hcount⟩ := envLoop_eq_some hlt buffer
    (IHOTPLUG_NUM_ENVP - 1) ((header message).length + 1) fun i hi => hdrop i (by omega)
  have hbuflen : (if (message.take BUF_SIZE).length > BUF_SIZE - 1 then BUF_SIZE - 1
      else (message.take BUF_SIZE).length) = msg.length := by
    rw [hmsg, List.length_take, List.length_take]
    have : BUF_SIZE = 1535 + 1 := rfl
    split_ifs <;> omega
  have hset := filled_set message
  rw [hbuflen, ← hmsg] at hset
  have hlong := h.long
  have hfits := h.fits
  refine ⟨⟨buffer, pos + 1, 0, envp⟩, ?_, ⟨?_, ?_, ?_, hends, ?_⟩, ?_⟩
  · have hbuf : cString (filled (message.take BUF_SIZE)) = header message := by
      rw [filled, cString_append_replicate, header]
    have hstrlen : strlen (filled msg) 0 = some (header message).length := by
      rw [strlen, List.drop_zero, if_pos h0, hcString]
    have hnot5 : ¬ ((header message).length + 1 < 5 ∨ (header message).length + 1 ≥ BUF_SIZE) := by
      omega
    simp only [onRecv, ne_eq, not_true_eq_false, if_false, strlen_buf hend, Option.bind_some,
      if_neg hnot5, hbuf, h.path, hbuflen, hset, hstrlen, hcString, ← hpos, if_neg hposlt.ne,
      ← hbuffer, hloop, Option.map_some]
  · rw [hbuffer, List.length_set, length_filled hlt.le]
  · -- the NUL behind the action
    rw [List.drop_zero]
    exact List.mem_set (by rw [length_filled hlt.le]; omega) 0
  · rw [hdrop _ (Nat.lt_succ_self pos)]
    exact zero_mem_drop_filled hlt (by omega)
  · exact lt_of_le_of_lt hcount (by decide)
  · have hfilled : filled msg = header message ++ (rest ++
        List.replicate (BUF_SIZE - msg.length) 0) := by
      rw [filled, hrest, List.append_assoc]
    have haction : cString (buffer.drop 0) = (header message).takeWhile (· ≠ 64) := by
      rw [List.drop_zero, hbuffer, hfilled, List.set_append_left _ _ hposlt,
        List.set_eq_take_append_cons_drop, if_pos hposlt, List.append_assoc, List.cons_append,
        cString_append_cons fun hmem => hnot (List.mem_of_mem_take hmem)]
      rw [List.takeWhile_eq_take_findIdx_not, hpos]
      simp
    have hdevpath : cString (buffer.drop (pos + 1)) =
        ((header message).dropWhile (· ≠ 64)).drop 1 := by
      rw [hdrop _ (Nat.lt_succ_self pos), drop_filled (by omega), cString_append_replicate, hrest,
        List.drop_append_of_le_length hposlt,
        cString_of_head? (fun hmem => hnot (List.mem_of_mem_drop hmem)) hhead,
        List.dropWhile_eq_drop_findIdx_not, List.drop_drop, hpos]
      simp [Nat.add_comm]
    rw [Iuevent.strings, Iuevent.string, Iuevent.string, haction, hdevpath]
    exact congrArg (fun l => (_, _, l)) hstrings

/-- A message without one is dropped. -/
lemma onRecv_of_not_hasHeader (hend : ¬ Endless message) (h : ¬ HasHeader message) :
    onRecv (some message) (some 0) = some none := by
  have hbuf : cString (filled (message.take BUF_SIZE)) = header message := by
    rw [filled, cString_append_replicate, header]
  simp only [onRecv, ne_eq, not_true_eq_false, if_false, strlen_buf hend, Option.bind_some, hbuf]
  by_cases hlen : (header message).length + 1 < 5 ∨ (header message).length + 1 ≥ BUF_SIZE
  · rw [if_pos hlen]
  · rw [not_or] at hlen
    have hpath : ¬ text "@/" <:+: header message := fun hpath => h ⟨by omega, by omega, hpath⟩
    rw [if_neg (by omega), if_pos hpath]

/-- **Every message.** `on_recv` looks behind its buffer for a message that fills the buffer and
has no NUL there, and for no other.  It drops the messages without a header; of every other
message the slots get pointers to strings inside of the buffer: the header up to the first `@`,
the header behind it, and the first 31 strings that follow. -/
theorem uevent_parsed (message : Bytes) :
    (onRecv (some message) (some 0) = none ↔ Endless message) ∧
    (¬ Endless message →
      (onRecv (some message) (some 0) = some none ↔ ¬ HasHeader message) ∧
      ∀ e, onRecv (some message) (some 0) = some (some e) → e.InBuffer ∧
        e.strings = ((header message).takeWhile (· ≠ 64),
          ((header message).dropWhile (· ≠ 64)).drop 1,
          (cStrings (body message)).take 31)) := by
  have hnone : Endless message → onRecv (some message) (some 0) = none := by
    intro hend
    simp [onRecv, strlen_buf_eq_none hend]
  refine ⟨⟨fun h => ?_, hnone⟩, fun hend => ⟨⟨fun h hheader => ?_, ?_⟩, fun e he => ?_⟩⟩
  · by_contra hend
    by_cases hheader : HasHeader message
    · obtain ⟨e, he, -⟩ := onRecv_of_hasHeader hend hheader
      exact absurd (h.symm.trans he) (by simp)
    · exact absurd (h.symm.trans (onRecv_of_not_hasHeader hend hheader)) (by simp)
  · obtain ⟨e, he, -⟩ := onRecv_of_hasHeader hend hheader
    exact absurd (h.symm.trans he) (by simp)
  · exact onRecv_of_not_hasHeader hend
  · by_cases hheader : HasHeader message
    · obtain ⟨e', he', hin, hstrings⟩ := onRecv_of_hasHeader hend hheader
      obtain rfl : e = e' := Option.some.inj (Option.some.inj (he.symm.trans he'))
      exact ⟨hin, hstrings⟩
    · exact absurd (he.symm.trans (onRecv_of_not_hasHeader hend hheader)) (by simp)

/-! ## The messages of the kernel -/

/-- `action@devpath` and the entries of the environment, each with its NUL. -/
def kernelMessage (action devpath : Bytes) (env : List Bytes) : Bytes :=
  action ++ 64 :: devpath ++ 0 :: env.flatMap (· ++ [0])

/-- The parts of a message of the kernel: a path is absolute, and no entry is empty. -/
structure IsUevent (action devpath : Bytes) (env : List Bytes) : Prop where
  action_text : 0 ∉ action ∧ 64 ∉ action
  devpath_text : 0 ∉ devpath
  absolute : devpath.head? = some 47
  entries : ∀ w ∈ env, w ≠ [] ∧ 0 ∉ w

variable {action devpath : Bytes} {env : List Bytes}

lemma cStrings_flatMap (henv : ∀ w ∈ env, w ≠ [] ∧ 0 ∉ w) :
    cStrings (env.flatMap (· ++ [0])) = env := by
  induction env with
  | nil => rfl
  | cons w env ih =>
    rw [List.flatMap_cons, List.append_assoc, List.singleton_append,
      cStrings_append (henv w List.mem_cons_self).2,
      ih fun v hv => henv v (List.mem_cons_of_mem _ hv)]

/-- The last entry may be without its NUL. -/
lemma cStrings_dropLast (henv : ∀ w ∈ env, w ≠ [] ∧ 0 ∉ w) :
    cStrings (env.flatMap (· ++ [0])).dropLast = env := by
  induction env with
  | nil => rfl
  | cons w env ih =>
    obtain ⟨hne, hw⟩ := henv w List.mem_cons_self
    have hrest : ∀ v ∈ env, v ≠ [] ∧ 0 ∉ v := fun v hv => henv v (List.mem_cons_of_mem _ hv)
    cases env with
    | nil => simpa using cStrings_of_notMem hne hw
    | cons v env =>
      have hmore : (v :: env).flatMap (· ++ [(0 : UInt8)]) ≠ [] := by simp
      rw [List.flatMap_cons, List.dropLast_append_of_ne_nil hmore, List.append_assoc,
        List.singleton_append, cStrings_append hw, ih hrest]

lemma length_kernelMessage (action devpath : Bytes) (env : List Bytes) :
    (kernelMessage action devpath env).length =
      action.length + devpath.length + 2 + (env.map fun w => w.length + 1).sum := by
  rw [kernelMessage, List.length_append, List.length_append, List.length_cons, List.length_cons,
    List.length_flatMap]
  simp only [List.length_append, List.length_singleton]
  omega

lemma header_kernelMessage (h : IsUevent action devpath env)
    (hlt : action.length + 1 + devpath.length < BUF_SIZE) :
    header (kernelMessage action devpath env) = action ++ 64 :: devpath := by
  have hnot : 0 ∉ action ++ 64 :: devpath := by
    simp [h.action_text.1, h.devpath_text]
  have hlen : (action ++ 64 :: devpath).length = action.length + 1 + devpath.length := by
    rw [List.length_append, List.length_cons]
    omega
  obtain ⟨n, hn⟩ := Nat.exists_eq_add_of_lt hlt
  rw [header, kernelMessage, List.take_append, List.take_of_length_le (by omega), hlen,
    show BUF_SIZE - (action.length + 1 + devpath.length) = n + 1 by omega, List.take_succ_cons]
  exact cString_append_cons hnot _

/-- A header that does not end inside of the buffer. -/
lemma endless_kernelMessage (h : IsUevent action devpath env)
    (hle : BUF_SIZE ≤ action.length + 1 + devpath.length) :
    Endless (kernelMessage action devpath env) := by
  have hlen : (action ++ 64 :: devpath).length = action.length + 1 + devpath.length := by
    rw [List.length_append, List.length_cons]
    omega
  refine ⟨by rw [length_kernelMessage]; omega, fun hmem => ?_⟩
  rw [kernelMessage, List.take_append_of_le_length (by omega)] at hmem
  have := List.mem_of_mem_take hmem
  simp [h.action_text.1, h.devpath_text] at this

/-- The path is behind the first `@`. -/
lemma hasHeader_kernelMessage (h : IsUevent action devpath env)
    (hlong : 4 ≤ action.length + 1 + devpath.length)
    (hlt : action.length + 1 + devpath.length + 1 < BUF_SIZE) :
    HasHeader (kernelMessage action devpath env) := by
  have hheader := header_kernelMessage h (by omega)
  obtain ⟨path, rfl⟩ : ∃ path, devpath = 47 :: path := by
    obtain ⟨c, path, rfl⟩ := List.exists_cons_of_ne_nil fun hnil : devpath = [] => by
      simpa [hnil] using h.absolute
    exact ⟨path, by rw [Option.some.inj h.absolute]⟩
  have hlen : (action ++ 64 :: 47 :: path).length = action.length + 1 + (47 :: path).length := by
    rw [List.length_append, List.length_cons]
    omega
  refine ⟨by rw [hheader, hlen]; exact hlong, by rw [hheader, hlen]; exact hlt, ?_⟩
  rw [hheader]
  exact ⟨action, path, by rw [List.append_assoc]; rfl⟩

lemma takeWhile_header (h : 64 ∉ action) (devpath : Bytes) :
    (action ++ 64 :: devpath).takeWhile (· ≠ 64) = action ∧
      ((action ++ 64 :: devpath).dropWhile (· ≠ 64)).drop 1 = devpath := by
  have hne : ∀ c ∈ action, decide (c ≠ 64) = true :=
    fun c hc => decide_eq_true fun heq => h (heq ▸ hc)
  rw [List.takeWhile_append_of_pos hne, List.dropWhile_append_of_pos hne]
  simp

/-- The entries of a message that fits, possibly without the last NUL. -/
lemma cStrings_body (h : IsUevent action devpath env)
    (hlt : action.length + 1 + devpath.length < BUF_SIZE)
    (hle : (kernelMessage action devpath env).length ≤ BUF_SIZE) :
    cStrings (body (kernelMessage action devpath env)) = env := by
  have hsize : BUF_SIZE = 1535 + 1 := rfl
  have hlen : (action ++ 64 :: devpath).length = action.length + 1 + devpath.length := by
    rw [List.length_append, List.length_cons]
    omega
  have hdrop : (kernelMessage action devpath env).drop ((action ++ 64 :: devpath).length + 1) =
      env.flatMap (· ++ [0]) := by
    rw [kernelMessage, ← List.drop_drop, List.drop_left, List.drop_one, List.tail_cons]
  rw [body, header_kernelMessage h hlt, List.drop_take, hdrop]
  have hcount := congrArg List.length hdrop
  rw [List.length_drop] at hcount
  rcases hle.eq_or_lt with heq | hfit
  · have hpred : BUF_SIZE - 1 - ((action ++ 64 :: devpath).length + 1) =
        (env.flatMap (· ++ [(0 : UInt8)])).length - 1 := by omega
    rw [hpred, ← List.dropLast_eq_take, cStrings_dropLast h.entries]
  · rw [List.take_of_length_le (by omega), cStrings_flatMap h.entries]

/-- A message whose entries all arrive fits into the buffer. -/
lemma length_le_of_cStrings_body (h : IsUevent action devpath env)
    (hlt : action.length + 1 + devpath.length + 1 < BUF_SIZE) {n : ℕ}
    (henv : (cStrings (body (kernelMessage action devpath env))).take n = env) :
    (kernelMessage action devpath env).length ≤ BUF_SIZE := by
  have hsum := sum_cStrings_le (body (kernelMessage action devpath env))
  have hprefix : (env.map fun w => w.length + 1).sum ≤
      ((cStrings (body (kernelMessage action devpath env))).map fun w => w.length + 1).sum := by
    conv_lhs => rw [← henv]
    rw [← List.take_append_drop n (cStrings (body _)), List.map_append, List.sum_append,
      List.take_append_drop]
    exact Nat.le_add_right _ _
  have hbody : (body (kernelMessage action devpath env)).length ≤
      BUF_SIZE - 1 - (action.length + 1 + devpath.length + 1) := by
    rw [body, header_kernelMessage h (by omega), List.length_drop, List.length_append,
      List.length_cons, List.length_take]
    omega
  rw [length_kernelMessage]
  omega

/-- **The messages of the kernel.** The slots get the action, the path and all the entries of a
message if and only if its header has at least 4 bytes and fits into the buffer with its NUL and
one more byte, the message fits into the buffer, and there are at most 31 entries. -/
theorem uevent_round_trip_iff (action devpath : Bytes) (env : List Bytes)
    (h : IsUevent action devpath env) :
    (∃ e, onRecv (some (kernelMessage action devpath env)) (some 0) = some (some e) ∧
      e.strings = (action, devpath, env)) ↔
    4 ≤ action.length + 1 + devpath.length ∧ action.length + devpath.length + 2 < BUF_SIZE ∧
      (kernelMessage action devpath env).length ≤ BUF_SIZE ∧ env.length ≤ 31 := by
  have hparts := takeWhile_header h.action_text.2 devpath
  constructor
  · rintro ⟨e, he, hstrings⟩
    have hend : ¬ Endless (kernelMessage action devpath env) := fun hend => by
      simp [onRecv, strlen_buf_eq_none hend] at he
    have hlt : action.length + 1 + devpath.length < BUF_SIZE :=
      not_le.mp fun hle => hend (endless_kernelMessage h hle)
    have hheader : HasHeader (kernelMessage action devpath env) := by
      by_contra hheader
      exact absurd (he.symm.trans (onRecv_of_not_hasHeader hend hheader)) (by simp)
    have hlong := hheader.long
    have hfits := hheader.fits
    rw [header_kernelMessage h hlt, List.length_append, List.length_cons] at hlong hfits
    obtain ⟨e', he', -, hstrings'⟩ := onRecv_of_hasHeader hend hheader
    obtain rfl : e = e' := Option.some.inj (Option.some.inj (he.symm.trans he'))
    have henv : (cStrings (body (kernelMessage action devpath env))).take (IHOTPLUG_NUM_ENVP - 1) =
        env := congrArg (fun l => l.2.2) (hstrings'.symm.trans hstrings)
    refine ⟨by omega, by omega, length_le_of_cStrings_body h (by omega) henv, ?_⟩
    rw [← henv, List.length_take]
    exact min_le_left _ _
  · rintro ⟨hlong, hfits, hle, hcount⟩
    have hheader := hasHeader_kernelMessage h hlong (by omega)
    have hend : ¬ Endless (kernelMessage action devpath env) := by
      rintro ⟨-, hmem⟩
      refine hmem ?_
      rw [List.take_of_length_le hle, kernelMessage]
      simp
    obtain ⟨e, he, -, hstrings⟩ := onRecv_of_hasHeader hend hheader
    refine ⟨e, he, ?_⟩
    rw [hstrings, header_kernelMessage h (by omega), hparts.1, hparts.2,
      cStrings_body h (by omega) hle,
      List.take_of_length_le (show env.length ≤ IHOTPLUG_NUM_ENVP - 1 from hcount)]

theorem uevent_round_trip_iff_usb :
    IsUevent (text "add") (text "/devices/usb1") [text "ACTION=add", text "SEQNUM=7"] ∧
    ∃ e, onRecv (some (kernelMessage (text "add") (text "/devices/usb1")
        [text "ACTION=add", text "SEQNUM=7"])) (some 0) = some (some e) ∧
      e.strings = (text "add", text "/devices/usb1", [text "ACTION=add", text "SEQNUM=7"]) := by
  have h : IsUevent (text "add") (text "/devices/usb1") [text "ACTION=add", text "SEQNUM=7"] :=
    ⟨by decide, by decide, by decide, by decide⟩
  exact ⟨h, (uevent_round_trip_iff _ _ _ h).mpr ⟨by decide, by decide, by decide, by decide⟩⟩

end SignalEventLoop.Tools
