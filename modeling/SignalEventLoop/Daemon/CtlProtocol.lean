/-
# The protocol of `daemon ctl`

The client joins its arguments with spaces and sends them behind its own path, which has a field
of 108 bytes; the daemon cuts the command at its first space.  The reply is its length in four
bytes, and then its bytes in datagrams of 1024, which the client puts together again.  The
counter of the daemon's loop has 32 bits: for a reply that is longer than `2^32 - 1024` bytes it
wraps around before it has passed the end, and the last datagram is read over the end of the
reply.
-/
import SignalEventLoop.Lib.BigEndian
import SignalEventLoop.Lib.ByteMem
import SignalEventLoop.Lib.CText

namespace SignalEventLoop.Daemon

open Lib
open scoped Bytes

def max_path_size : ℕ := 108

/-- The size of the buffers of both sides. -/
def max_len : ℕ := 32 * 1024

/-! ## The request -/

/-- `cmd_data`, the arguments after the substitution of the path. -/
def cmdData (optionData : List Bytes) : Bytes :=
  optionData.foldl (fun cmd_data i =>
    (if cmd_data ≠ [] then cmd_data ++ [32] else cmd_data) ++ i) []

/-- `/tmp/daemon_client_<pid>.service` -/
def clientPath (pid : ℕ) : Bytes :=
  [47, 116, 109, 112, 47, 100, 97, 101, 109, 111, 110, 95, 99, 108, 105, 101, 110, 116, 95] ++
    (decimal pid ++ [46, 115, 101, 114, 118, 105, 99, 101])

/-- What the client sends. -/
def requestPacket (path cmd_data : Bytes) : Bytes :=
  path ++ List.replicate (max_path_size - path.length) 0 ++ cmd_data

/-- The search for the end of the first option, from `start_pos` on: where it ends, and whether
there is a space. -/
def scanOption : Bytes → ℕ → ℕ × Bool
  | [], start_pos => (start_pos, false)
  | c :: buf, start_pos =>
    if c = 0 then (start_pos, false)
    else if c = 32 then (start_pos, true)
    else scanOption buf (start_pos + 1)

structure CtlRequest where
  source_path : Bytes
  option1 : Bytes
  option2 : Bytes
deriving DecidableEq

/-- What `mainEventLoop` takes out of a datagram; one without a command is skipped. -/
def readRequest (datagram : Bytes) : Option CtlRequest :=
  let buf := datagram.take max_len
  if buf.length ≤ max_path_size then none
  else
    let (start_pos, find_space) := scanOption (buf.drop (max_path_size + 1)) (max_path_size + 1)
    some ⟨buf.take max_path_size, slice buf max_path_size (start_pos - max_path_size),
      if find_space = true ∧ start_pos + 1 < buf.length then buf.drop (start_pos + 1) else []⟩

/-! ## The reply -/

/-- `for(uint32_t i=0;i<data_len;i+=1024)`: the datagrams; `none` when one of them is read over
the end of the reply and its terminator, or when the loop is not at its end after `fuel` rounds. -/
def sendLoop (reply : Bytes) (data_len : ℕ) : ℕ → ℕ → Option (List Bytes)
  | 0, i => if i < data_len then none else some []
  | fuel + 1, i =>
    if i < data_len then
      let send_len := if (i + 1024) % 2 ^ 32 ≤ data_len then 1024 else data_len - i
      (load (reply ++ [0]) i send_len).bind fun datagram =>
        (sendLoop reply data_len fuel ((i + 1024) % 2 ^ 32)).map (datagram :: ·)
    else some []

/-- The datagrams of a reply: the length, and the parts. -/
def sendReply (fuel : ℕ) (reply : Bytes) : Option (List Bytes) :=
  let data_len := reply.length % 2 ^ 32
  (sendLoop reply data_len fuel 0).map (toBE 4 data_len :: ·)

/-- How the loop of the client ends: with the reply, or because nothing is received. -/
inductive RecvEnd where
  | complete
  | failed
deriving DecidableEq

structure RecvResult where
  reason : RecvEnd
  recv_data : Bytes
  unread : List Bytes
deriving DecidableEq

/-- The loop of the client, on the datagrams that arrive. -/
def recvLoop : Bytes → ℕ → List Bytes → RecvResult
  | recv_data, _, [] => ⟨.failed, recv_data, []⟩
  | recv_data, data_len, datagram :: datagrams =>
    let buf := datagram.take max_len
    if buf.length > 0 then
      let recv_data := recv_data ++ buf
      let data_len := if recv_data.length = 4 then ofBE recv_data else data_len
      if recv_data.length ≥ (4 + data_len) % 2 ^ 32 then ⟨.complete, recv_data, datagrams⟩
      else recvLoop recv_data data_len datagrams
    else ⟨.failed, recv_data, datagrams⟩

/-- `printf("%s\n",recv_data.c_str()+4)`, without the line end. -/
def printed (recv_data : Bytes) : Option Bytes :=
  if recv_data.length < 4 then none else some (cString (recv_data.drop 4))

/-- The daemon sends the reply to its end, the client stops exactly behind the last datagram, and
it prints the reply. -/
def Replied (reply : Bytes) : Prop :=
  ∃ fuel datagrams recv_data, sendReply fuel reply = some datagrams ∧
    recvLoop [] 0 datagrams = ⟨.complete, recv_data, []⟩ ∧ printed recv_data = some reply

/-! ## The request arrives -/

section

variable {arg : Bytes} {args : List Bytes} {pid : ℕ}

lemma foldl_cmdData {cmd_data : Bytes} (h : cmd_data ≠ []) (args : List Bytes) :
    args.foldl (fun cmd_data i => (if cmd_data ≠ [] then cmd_data ++ [32] else cmd_data) ++ i)
      cmd_data = cmd_data ++ args.flatMap fun i => 32 :: i := by
  induction args generalizing cmd_data with
  | nil => simp
  | cons i args ih =>
    rw [List.foldl_cons, if_pos h, ih (by simp [h]), List.flatMap_cons]
    simp

lemma cmdData_cons (harg : arg ≠ []) (args : List Bytes) :
    cmdData (arg :: args) = arg ++ args.flatMap fun i => 32 :: i := by
  rw [cmdData, List.foldl_cons, if_neg (by simp), List.nil_append, foldl_cmdData harg]

lemma intercalate_cons (arg : Bytes) (args : List Bytes) :
    [32].intercalate (arg :: args) = arg ++ args.flatMap fun i => 32 :: i := by
  induction args generalizing arg with
  | nil => simp [List.intercalate]
  | cons i args ih =>
    have hstep : [32].intercalate (arg :: i :: args) =
        arg ++ ([32] ++ [32].intercalate (i :: args)) := by
      simp [List.intercalate]
    rw [hstep, ih, List.flatMap_cons]
    simp

lemma length_clientPath (hpid : pid < 2 ^ 31) : (clientPath pid).length ≤ max_path_size := by
  have := length_decimal_le (k := 10) (by norm_num) (hpid.trans (by norm_num))
  simp only [clientPath, List.length_append, List.length_cons, List.length_nil, max_path_size]
  omega

lemma cString_clientPath (pid : ℕ) (n : ℕ) :
    cString (clientPath pid ++ List.replicate n 0) = clientPath pid := by
  have hne : ∀ c ∈ clientPath pid, c ≠ 0 := by
    intro c hc
    rw [clientPath, List.mem_append, List.mem_append] at hc
    rcases hc with hc | hc | hc
    · rintro rfl
      exact absurd hc (by decide)
    · exact ne_zero_of_mem_decimal hc
    · rintro rfl
      exact absurd hc (by decide)
  rw [cString_append hne]
  cases n <;> simp [cString, List.replicate_succ]

/-- An option without spaces and NULs is passed over. -/
lemma scanOption_append {w : Bytes} (hw : ∀ c ∈ w, c ≠ 0 ∧ c ≠ 32) (buf : Bytes) (pos : ℕ) :
    scanOption (w ++ buf) pos = scanOption buf (pos + w.length) := by
  induction w generalizing pos with
  | nil => rfl
  | cons c w ih =>
    obtain ⟨hc, hw⟩ := List.forall_mem_cons.mp hw
    rw [List.cons_append, scanOption, if_neg hc.1, if_neg hc.2, ih hw, List.length_cons]
    congr 1
    omega

/-- **The request**: the first argument, and the others joined with spaces. -/
theorem readRequest_packet (hpid : pid < 2 ^ 31) (harg : arg ≠ [])
    (hword : ∀ c ∈ arg, c ≠ 0 ∧ c ≠ 32)
    (hfit : max_path_size + (cmdData (arg :: args)).length ≤ max_len) :
    ∃ source_path, readRequest (requestPacket (clientPath pid) (cmdData (arg :: args))) =
        some ⟨source_path, arg, [32].intercalate args⟩ ∧
      cString source_path = clientPath pid := by
  have hpath := length_clientPath hpid
  set path := clientPath pid ++ List.replicate (max_path_size - (clientPath pid).length) 0 with hp
  have hlen : path.length = max_path_size := by
    rw [hp, List.length_append, List.length_replicate]
    omega
  refine ⟨path, ?_, cString_clientPath pid _⟩
  obtain ⟨c, w, rfl⟩ := List.exists_cons_of_ne_nil harg
  obtain ⟨-, hw⟩ := List.forall_mem_cons.mp hword
  rw [cmdData_cons harg] at hfit ⊢
  generalize htail : (args.flatMap fun i => 32 :: i) = tail at hfit ⊢
  rw [requestPacket, ← hp]
  have htake : (path ++ (c :: w ++ tail)).take max_len = path ++ (c :: w ++ tail) := by
    refine List.take_of_length_le ?_
    rw [List.length_append, hlen]
    exact hfit
  have hlength : (path ++ (c :: w ++ tail)).length =
      max_path_size + 1 + w.length + tail.length := by
    rw [List.length_append, hlen, List.length_append, List.length_cons]
    omega
  have hdrop : ∀ n, (path ++ (c :: w ++ tail)).drop (max_path_size + n) =
      (c :: w ++ tail).drop n := by
    intro n
    rw [← List.drop_drop, ← hlen, List.drop_left]
  have hslice : slice (path ++ (c :: w ++ tail)) max_path_size (w.length + 1) = c :: w := by
    have := hdrop 0
    rw [Nat.add_zero, List.drop_zero] at this
    rw [slice, this]
    exact List.take_left' (by simp)
  have hpos : max_path_size + 1 + w.length - max_path_size = w.length + 1 := by omega
  have htaken : (path ++ (c :: w ++ tail)).take max_path_size = path := by
    rw [← hlen, List.take_left]
  rw [readRequest, htake, if_neg (by omega), hdrop 1]
  dsimp only
  rw [List.cons_append, List.drop_succ_cons, List.drop_zero, scanOption_append hw,
    ← List.cons_append, htaken]
  cases args with
  | nil =>
    obtain rfl : tail = [] := htail.symm
    simp only [scanOption, hpos, hslice, Bool.false_eq_true, false_and, if_false]
    rfl
  | cons i args =>
    obtain rfl : tail = 32 :: (i ++ args.flatMap fun i => 32 :: i) := by
      rw [← htail, List.flatMap_cons, List.cons_append]
    have hscan : ∀ pos, scanOption (32 :: (i ++ args.flatMap fun i => 32 :: i)) pos =
        (pos, true) := fun _ => rfl
    have hrest : (path ++ (c :: w ++ 32 :: (i ++ args.flatMap fun i => 32 :: i))).drop
        (max_path_size + 1 + w.length + 1) = [32].intercalate (i :: args) := by
      rw [show max_path_size + 1 + w.length + 1 = max_path_size + (w.length + 1 + 1) by omega,
        hdrop, intercalate_cons, List.cons_append, List.drop_succ_cons, ← List.drop_drop,
        List.drop_left, List.drop_one, List.tail_cons]
    simp only [hscan, hpos, hslice, true_and, hrest, hlength, List.length_cons]
    split_ifs with hlt
    · rfl
    · -- nothing follows the space
      have hnil : (i ++ args.flatMap fun i => 32 :: i) = [] :=
        List.length_eq_zero_iff.mp (by omega)
      rw [intercalate_cons, hnil]

/-! ## The reply arrives -/

/-- The parts from the position `i` on, when the counter does not wrap around. -/
lemma sendLoop_eq {reply : Bytes} (hlen : reply.length ≤ 2 ^ 32 - 1024) : ∀ {fuel i : ℕ},
    reply.length ≤ i + 1024 * fuel →
    ∃ datagrams, sendLoop reply reply.length fuel i = some datagrams ∧
      datagrams.flatten = reply.drop i ∧ ∀ d ∈ datagrams, d ≠ [] ∧ d.length ≤ 1024 := by
  intro fuel
  induction fuel with
  | zero =>
    intro i hi
    refine ⟨[], by rw [sendLoop, if_neg (by omega)], ?_, by simp⟩
    rw [List.drop_eq_nil_of_le (by omega), List.flatten_nil]
  | succ fuel ih =>
    intro i hi
    rw [sendLoop]
    by_cases hlt : i < reply.length
    · obtain ⟨datagrams, hsend, hflatten, hparts⟩ := ih (i := i + 1024) (by omega)
      set send_len := if i + 1024 ≤ reply.length then 1024 else reply.length - i with hsendlen
      have hroom : i + send_len ≤ reply.length := by
        rw [hsendlen]
        split_ifs <;> omega
      have hpart : load (reply ++ [0]) i send_len = some ((reply.drop i).take send_len) := by
        rw [load, if_pos (by rw [List.length_append]; omega), slice,
          List.drop_append_of_le_length (by omega),
          List.take_append_of_le_length (by rw [List.length_drop]; omega)]
      have hpos : 0 < send_len ∧ send_len ≤ 1024 := by
        rw [hsendlen]
        split_ifs <;> omega
      have hlength : ((reply.drop i).take send_len).length = send_len := by
        rw [List.length_take, List.length_drop]
        omega
      refine ⟨(reply.drop i).take send_len :: datagrams, ?_, ?_, ?_⟩
      · rw [if_pos hlt, Nat.mod_eq_of_lt (by omega)]
        simp only [← hsendlen, hpart, Option.bind_some, hsend, Option.map_some]
      · rw [List.flatten_cons, hflatten, ← List.drop_drop, hsendlen]
        split_ifs with hfull
        · exact List.take_append_drop _ _
        · have hrest : (reply.drop i).drop 1024 = [] :=
            List.drop_eq_nil_of_le (by rw [List.length_drop]; omega)
          rw [hrest, List.append_nil]
          exact List.take_of_length_le (by rw [List.length_drop])
      · refine List.forall_mem_cons.mpr ⟨⟨?_, by rw [hlength]; exact hpos.2⟩, hparts⟩
        rw [← List.length_pos_iff, hlength]
        exact hpos.1
    · refine ⟨[], by rw [if_neg hlt], ?_, by simp⟩
      rw [List.drop_eq_nil_of_le (by omega), List.flatten_nil]

/-- The client collects parts until it has the announced length. -/
lemma recvLoop_parts {data_len : ℕ} (hlen : data_len < 2 ^ 32 - 4) : ∀ {datagrams : List Bytes}
    {recv_data : Bytes}, datagrams ≠ [] → 4 ≤ recv_data.length →
    recv_data.length + datagrams.flatten.length = 4 + data_len →
    (∀ d ∈ datagrams, d ≠ [] ∧ d.length ≤ 1024) →
    recvLoop recv_data data_len datagrams =
      ⟨.complete, recv_data ++ datagrams.flatten, []⟩ := by
  intro datagrams
  induction datagrams with
  | nil => exact fun h => absurd rfl h
  | cons d datagrams ih =>
    intro recv_data _ hfour hsum hparts
    obtain ⟨⟨hne, hsize⟩, hparts'⟩ := List.forall_mem_cons.mp hparts
    have hpos := List.length_pos_iff.mpr hne
    have htake : d.take max_len = d :=
      List.take_of_length_le (hsize.trans (by norm_num [max_len]))
    have hlength : (recv_data ++ d).length = recv_data.length + d.length := List.length_append
    rw [List.flatten_cons, List.length_append] at hsum
    rw [recvLoop, htake]
    simp only [if_pos (show d.length > 0 from hpos), hlength,
      if_neg (show ¬ recv_data.length + d.length = 4 by omega),
      Nat.mod_eq_of_lt (show 4 + data_len < 2 ^ 32 by omega)]
    cases datagrams with
    | nil =>
      rw [List.flatten_nil, List.length_nil] at hsum
      rw [if_pos (by omega)]
      simp
    | cons d' datagrams =>
      obtain ⟨⟨hne', -⟩, -⟩ := List.forall_mem_cons.mp hparts'
      have hpos' := List.length_pos_iff.mpr hne'
      rw [List.flatten_cons, List.length_append] at hsum
      rw [if_neg (by omega), ih (by simp) (by omega) ?_ hparts', List.flatten_cons,
        List.append_assoc]
      · rfl
      · rw [hlength, List.flatten_cons, List.length_append]
        omega

/-- A reply that is too long is read over its end, in however many rounds. -/
lemma sendLoop_overrun {reply : Bytes} (hlong : 2 ^ 32 - 1024 < reply.length)
    (hlen : reply.length < 2 ^ 32 - 4) : ∀ {fuel j : ℕ}, 1024 * j ≤ 2 ^ 32 - 1024 →
    sendLoop reply reply.length fuel (1024 * j) = none := by
  intro fuel
  induction fuel with
  | zero =>
    intro j hj
    rw [sendLoop, if_pos (by omega)]
  | succ fuel ih =>
    intro j hj
    rw [sendLoop, if_pos (by omega)]
    by_cases hlast : 1024 * j = 2 ^ 32 - 1024
    · -- the counter wraps around, and 1024 bytes are read where there are fewer
      have hwrap : (1024 * j + 1024) % 2 ^ 32 = 0 := by
        rw [hlast]
        rfl
      have hover : load (reply ++ [0]) (1024 * j) 1024 = none := by
        rw [load, if_neg]
        rw [List.length_append, List.length_singleton]
        omega
      simp only [hwrap, Nat.zero_le, if_true, hover, Option.bind_none]
    · have hnext : (1024 * j + 1024) % 2 ^ 32 = 1024 * (j + 1) := by
        rw [Nat.mod_eq_of_lt (by omega)]
        omega
      simp only [hnext, ih (j := j + 1) (by omega), Option.map_none, Option.bind_fun_none]

/-- **The reply**, in one direction. -/
lemma replied_of_le {reply : Bytes} (hreply : 0 ∉ reply) (hlen : reply.length ≤ 2 ^ 32 - 1024) :
    Replied reply := by
  have hmod : reply.length % 2 ^ 32 = reply.length := Nat.mod_eq_of_lt (by omega)
  obtain ⟨datagrams, hsend, hflatten, hparts⟩ :=
    sendLoop_eq hlen (show reply.length ≤ 0 + 1024 * reply.length by omega)
  rw [List.drop_zero] at hflatten
  have hhead : ofBE (toBE 4 reply.length) = reply.length := ofBE_toBE (by omega)
  have hfour : (toBE 4 reply.length).length = 4 := length_toBE 4 _
  refine ⟨reply.length, toBE 4 reply.length :: datagrams, toBE 4 reply.length ++ reply, ?_, ?_, ?_⟩
  · simp only [sendReply, hmod, hsend, Option.map_some]
  · have htake : (toBE 4 reply.length).take max_len = toBE 4 reply.length :=
      List.take_of_length_le (by rw [hfour]; norm_num [max_len])
    rw [recvLoop, htake]
    simp only [List.nil_append, hfour, if_true, hhead, show (4 : ℕ) > 0 by omega]
    rw [Nat.mod_eq_of_lt (by omega)]
    cases datagrams with
    | nil =>
      obtain rfl : reply = [] := hflatten.symm
      rfl
    | cons d datagrams =>
      have hpos : 0 < reply.length := by
        have := List.length_pos_iff.mpr (hparts d List.mem_cons_self).1
        rw [← hflatten, List.flatten_cons, List.length_append]
        omega
      rw [if_neg (by omega), recvLoop_parts (by omega) (by simp) hfour.ge ?_ hparts, hflatten]
      rw [hflatten, hfour]
  · rw [printed, List.length_append, hfour, if_neg (by omega), List.drop_left' hfour,
      cString_eq_self fun c hc => ne_of_mem_of_not_mem hc hreply]

end

/-- **The protocol of `daemon ctl`** works for every command, and for every reply that is not
longer than `2^32 - 1024` bytes. -/
theorem ctl_protocol_iff (pid : ℕ) (arg : Bytes) (args : List Bytes) (reply : Bytes)
    (hpid : pid < 2 ^ 31) (harg : arg ≠ []) (hword : ∀ c ∈ arg, c ≠ 0 ∧ c ≠ 32)
    (hfit : max_path_size + (cmdData (arg :: args)).length ≤ max_len) (hreply : 0 ∉ reply)
    (hlen : reply.length < 2 ^ 32 - 4) :
    ((∃ source_path, readRequest (requestPacket (clientPath pid) (cmdData (arg :: args))) =
        some ⟨source_path, arg, [32].intercalate args⟩ ∧ cString source_path = clientPath pid) ∧
      Replied reply) ↔ reply.length ≤ 2 ^ 32 - 1024 := by
  constructor
  · rintro ⟨-, fuel, datagrams, recv_data, hsend, -, -⟩
    by_contra hlong
    have hmod : reply.length % 2 ^ 32 = reply.length := Nat.mod_eq_of_lt (by omega)
    have hnone : sendReply fuel reply = none := by
      simp only [sendReply, hmod, sendLoop_overrun (not_le.mp hlong) hlen (j := 0) (by omega),
        Option.map_none]
    rw [hnone] at hsend
    cases hsend
  · exact fun hle => ⟨readRequest_packet hpid harg hword hfit, replied_of_le hreply hle⟩

/-- The command `start a b` and its reply `ok`. -/
theorem ctl_protocol_start :
    (∃ source_path, readRequest (requestPacket (clientPath 7) (cmdData
        [[115, 116, 97, 114, 116], [97], [98]])) =
          some ⟨source_path, [115, 116, 97, 114, 116], [32].intercalate [[97], [98]]⟩ ∧
        cString source_path = clientPath 7) ∧ Replied [111, 107] :=
  (ctl_protocol_iff 7 [115, 116, 97, 114, 116] [[97], [98]] [111, 107] (by norm_num) (by decide)
    (by decide) (by decide) (by decide) (by decide)).mpr (by decide)

/-- A reply of `2^32 - 1000` bytes is not sent to its end. -/
theorem long_reply_overruns : ¬ Replied (List.replicate (2 ^ 32 - 1000) 97) := by
  have hlength : (List.replicate (2 ^ 32 - 1000) (97 : UInt8)).length = 2 ^ 32 - 1000 :=
    List.length_replicate
  rintro ⟨fuel, datagrams, recv_data, hsend, -, -⟩
  have hmod : (List.replicate (2 ^ 32 - 1000) (97 : UInt8)).length % 2 ^ 32 =
      (List.replicate (2 ^ 32 - 1000) (97 : UInt8)).length := Nat.mod_eq_of_lt (by omega)
  have hnone : sendReply fuel (List.replicate (2 ^ 32 - 1000) 97) = none := by
    simp only [sendReply, hmod, sendLoop_overrun (j := 0) (by omega : 2 ^ 32 - 1024 <
      (List.replicate (2 ^ 32 - 1000) (97 : UInt8)).length) (by omega) (by omega), Option.map_none]
  rw [hnone] at hsend
  cases hsend

end SignalEventLoop.Daemon
