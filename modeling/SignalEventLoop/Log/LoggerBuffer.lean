/-
# The buffer of a log message

`AimyLoggerBuffer` (`log/aimy-log.cpp`) collects a message in pieces.  `append` makes room for
`max_len` bytes and lets `vsnprintf` write no more than these.  But it goes on by what `vsnprintf`
returns, and this is the length of the whole output, also of the part that was cut off.
-/
import SignalEventLoop.Lib.ByteMem
import SignalEventLoop.Lib.CText
import SignalEventLoop.Lib.Run

namespace SignalEventLoop.Log

open Lib

/-- `AimyLoggerBuffer`; the level and the place of the message do not change. -/
structure AimyLoggerBuffer where
  log_info : Bytes
  size : UInt32
  fill_size : UInt32
deriving DecidableEq

/-- A call of `append`, with what the format and its arguments print. -/
structure AppendCall where
  max_len : UInt32
  output : Bytes

/-- The output, as far as it was announced. -/
def AppendCall.printed (call : AppendCall) : Bytes := call.output.take call.max_len.toNat

namespace AimyLoggerBuffer

/-! ## Model -/

/-- `vsnprintf(log_info+off,n,..)`: the memory behind it, and what it returns. -/
def vsnprintf (log_info : Bytes) (off n : ℕ) (output : Bytes) : Option (Bytes × ℤ) :=
  (if n = 0 then some log_info else store log_info off (output.take (n - 1) ++ [0])).map
    fun log_info => (log_info, if output.length < 2 ^ 31 then output.length else -1)

section

-- what a new array holds
variable (new_char : (n : ℕ) → List.Vector UInt8 n)

/-- The constructor. -/
def construct (reserver_size : UInt32) : Option AimyLoggerBuffer :=
  (store (new_char (reserver_size + 1).toNat).toList 0 [0]).map fun log_info =>
    ⟨log_info, reserver_size, 0⟩

/-- The first half of `append`. -/
def reserve (b : AimyLoggerBuffer) (max_len : UInt32) : Option AimyLoggerBuffer :=
  let need_size := max_len + b.fill_size
  if need_size > b.size then
    let new_size := b.size + if 4096 > max_len then 4096 else max_len
    (load b.log_info 0 b.fill_size.toNat).bind fun old =>
      (store (new_char (new_size + 1).toNat).toList 0 old).bind fun new_buf =>
        (store new_buf b.fill_size.toNat [0]).map fun log_info =>
          { b with log_info := log_info, size := new_size }
  else some b

def append (b : AimyLoggerBuffer) (call : AppendCall) : Option AimyLoggerBuffer :=
  (b.reserve new_char call.max_len).bind fun b =>
    (vsnprintf b.log_info b.fill_size.toNat (call.max_len + 1).toNat call.output).bind
      fun (log_info, fill_len) =>
        let fill_size := b.fill_size + UInt32.ofInt fill_len
        (store log_info fill_size.toNat [0]).map fun log_info =>
          { b with log_info := log_info, fill_size := fill_size }

end

/-! ## What the buffer should hold -/

/-- The buffer holds a text, inside of its memory. -/
structure Holds (b : AimyLoggerBuffer) (content : Bytes) : Prop where
  allocated : b.log_info.length = b.size.toNat + 1
  fill_size_le : b.fill_size ≤ b.size
  content_eq : b.log_info.take b.fill_size.toNat = content

/-- No sum is more than 32 bits, and the output is no longer than an `int` can tell. -/
def NoWrap (b : AimyLoggerBuffer) (call : AppendCall) : Prop :=
  call.output.length < 2 ^ 31 ∧ call.max_len.toNat + b.fill_size.toNat < 2 ^ 32 ∧
    (b.size.toNat < call.max_len.toNat + b.fill_size.toNat →
      b.size.toNat + max 4096 call.max_len.toNat + 1 < 2 ^ 32)

variable {new_char : (n : ℕ) → List.Vector UInt8 n} {b b' : AimyLoggerBuffer} {call : AppendCall}
  {content : Bytes} {size : UInt32}

/-! ## One call -/

lemma Holds.length_content (h : Holds b content) : content.length = b.fill_size.toNat := by
  have hle := UInt32.le_iff_toNat_le.mp h.fill_size_le
  rw [← h.content_eq, List.length_take, h.allocated]
  omega

lemma toNat_ofInt {n : ℕ} (hn : n < 2 ^ 31) : (UInt32.ofInt n).toNat = n := by
  rw [UInt32.ofInt, UInt32.toNat_ofNat']
  omega

/-- How much larger the memory gets. -/
lemma toNat_growth (max_len : UInt32) :
    (if 4096 > max_len then 4096 else max_len).toNat = max 4096 max_len.toNat := by
  split_ifs with h4096
  · rw [gt_iff_lt, UInt32.lt_iff_toNat_lt] at h4096
    exact (max_eq_left h4096.le).symm
  · rw [gt_iff_lt, UInt32.lt_iff_toNat_lt, not_lt] at h4096
    exact (max_eq_right h4096).symm

/-- New memory does not change what is in it. -/
lemma fill_size_of_reserve {max_len : UInt32} (h : b.reserve new_char max_len = some b') :
    b'.fill_size = b.fill_size := by
  rw [reserve] at h
  dsimp only at h
  by_cases hgrow : max_len + b.fill_size > b.size
  · rw [if_pos hgrow] at h
    obtain ⟨old, -, h⟩ := Option.bind_eq_some_iff.mp h
    obtain ⟨new_buf, -, h⟩ := Option.bind_eq_some_iff.mp h
    obtain ⟨log_info, -, rfl⟩ := Option.map_eq_some_iff.mp h
    rfl
  · rw [if_neg hgrow] at h
    rw [Option.some.inj h]

/-- The buffer has room for what was announced. -/
lemma exists_reserve (h : Holds b content) (hsize : b.size.toNat + 1 < 2 ^ 32)
    (hwrap : NoWrap b call) : ∃ b', b.reserve new_char call.max_len = some b' ∧ Holds b' content ∧
      b'.fill_size = b.fill_size ∧
      call.max_len.toNat + b.fill_size.toNat ≤ b'.size.toNat ∧ b'.size.toNat + 1 < 2 ^ 32 := by
  obtain ⟨-, hsum, hgrow⟩ := hwrap
  have hle := UInt32.le_iff_toNat_le.mp h.fill_size_le
  have hneed : (call.max_len + b.fill_size).toNat = call.max_len.toNat + b.fill_size.toNat := by
    rw [UInt32.toNat_add, Nat.mod_eq_of_lt hsum]
  rw [reserve]
  dsimp only
  by_cases hlt : call.max_len + b.fill_size > b.size
  · rw [if_pos hlt]
    rw [gt_iff_lt, UInt32.lt_iff_toNat_lt, hneed] at hlt
    have hgrow := hgrow hlt
    have hmax := toNat_growth call.max_len
    set more : UInt32 := if 4096 > call.max_len then 4096 else call.max_len
    have hnew : (b.size + more).toNat = b.size.toNat + max 4096 call.max_len.toNat := by
      rw [UInt32.toNat_add, hmax, Nat.mod_eq_of_lt (by omega)]
    have halloc : (b.size + more + 1).toNat = (b.size + more).toNat + 1 := by
      rw [UInt32.toNat_add, hnew]
      exact Nat.mod_eq_of_lt hgrow
    have hload : load b.log_info 0 b.fill_size.toNat = some content := by
      rw [load_eq_some, h.allocated, ← h.content_eq]
      exact ⟨by omega, rfl⟩
    have hlength := h.length_content
    have harray := (new_char (b.size + more + 1).toNat).toList_length
    rw [hload, Option.bind_some]
    obtain ⟨new_buf, hnew_buf⟩ : ∃ new_buf,
        store (new_char (b.size + more + 1).toNat).toList 0 content = some new_buf :=
      exists_store (by omega)
    have hnewLength := (length_of_store hnew_buf).trans harray
    obtain ⟨log_info, hlog_info⟩ : ∃ log_info,
        store new_buf b.fill_size.toNat [0] = some log_info :=
      exists_store (by rw [List.length_singleton]; omega)
    have hcontent : new_buf.take b.fill_size.toNat = content :=
      hlength ▸ take_of_store_zero hnew_buf
    rw [hnew_buf, Option.bind_some, hlog_info, Option.map_some]
    refine ⟨_, rfl, ⟨?_, ?_, ?_⟩, rfl, ?_, ?_⟩
    · rw [length_of_store hlog_info, hnewLength, halloc]
    · rw [UInt32.le_iff_toNat_le]
      dsimp only
      omega
    · have hfront : slice log_info 0 b.fill_size.toNat = slice new_buf 0 b.fill_size.toNat :=
        slice_of_store_before hlog_info (by omega)
      exact hfront.trans hcontent
    · rw [hnew]
      omega
    · rw [hnew]
      exact hgrow
  · rw [if_neg hlt]
    rw [gt_iff_lt, UInt32.lt_iff_toNat_lt, hneed, not_lt] at hlt
    exact ⟨b, rfl, h, rfl, hlt, hsize⟩

/-- An output that is no longer than announced is appended. -/
lemma exists_append (h : Holds b content) (hsize : b.size.toNat + 1 < 2 ^ 32)
    (hwrap : NoWrap b call) (hfits : call.output.length ≤ call.max_len.toNat) :
    ∃ b', b.append new_char call = some b' ∧ Holds b' (content ++ call.printed) ∧
      b'.size.toNat + 1 < 2 ^ 32 := by
  obtain ⟨b₁, hreserve, h₁, hfill, hroom, hsize₁⟩ := exists_reserve h hsize hwrap
  have hn : (call.max_len + 1).toNat = call.max_len.toNat + 1 := by
    rw [UInt32.toNat_add]
    exact Nat.mod_eq_of_lt (show call.max_len.toNat + 1 < 2 ^ 32 by omega)
  have hprinted : call.printed = call.output := List.take_of_length_le hfits
  have hfill' : (b₁.fill_size + UInt32.ofInt call.output.length).toNat =
      b.fill_size.toNat + call.output.length := by
    rw [UInt32.toNat_add, toNat_ofInt hwrap.1, hfill, Nat.mod_eq_of_lt (by omega)]
  have hlength := h₁.allocated
  obtain ⟨log_info, hstore⟩ : ∃ log_info,
      store b₁.log_info b₁.fill_size.toNat (call.output ++ [0]) = some log_info := by
    refine exists_store ?_
    rw [List.length_append, List.length_singleton, hfill]
    omega
  have hlength' := (length_of_store hstore).trans hlength
  obtain ⟨log_info', hstore'⟩ : ∃ log_info', store log_info
      (b₁.fill_size + UInt32.ofInt call.output.length).toNat [0] = some log_info' := by
    refine exists_store ?_
    rw [List.length_singleton, hfill']
    omega
  refine ⟨⟨log_info', b₁.size, b₁.fill_size + UInt32.ofInt call.output.length⟩, ?_,
    ⟨?_, ?_, ?_⟩, hsize₁⟩
  · rw [append, hreserve, Option.bind_some, vsnprintf, hn, if_neg (Nat.succ_ne_zero _),
      Nat.add_sub_cancel, List.take_of_length_le hfits, hstore, Option.map_some, Option.bind_some,
      if_pos hwrap.1]
    dsimp only
    rw [hstore', Option.map_some]
  · rw [length_of_store hstore', hlength']
  · rw [UInt32.le_iff_toNat_le]
    dsimp only
    omega
  · have htake := take_of_store hstore
    rw [List.length_append, List.length_singleton, ← Nat.add_assoc, hfill,
      ← hfill, h₁.content_eq, hfill, ← List.append_assoc] at htake
    have hlen : (content ++ call.output).length = b.fill_size.toNat + call.output.length := by
      rw [List.length_append, h.length_content]
    have hcontent : (content ++ call.output ++ [0]).take (b.fill_size.toNat + call.output.length) =
        content ++ call.output := List.take_left' hlen
    rw [← htake, List.take_take, min_eq_left (Nat.le_succ _)] at hcontent
    dsimp only
    rw [hprinted, ← hcontent, hfill']
    have hfront : slice log_info' 0 (b.fill_size.toNat + call.output.length) =
        slice log_info 0 (b.fill_size.toNat + call.output.length) :=
      slice_of_store_before hstore' (by omega)
    exact hfront

/-- Behind an output that is longer, the buffer does not hold what it should. -/
lemma Holds.length_le (h : Holds b content) (hlength : call.output.length < 2 ^ 31)
    (happend : b.append new_char call = some b') (h' : Holds b' (content ++ call.printed)) :
    call.output.length ≤ call.max_len.toNat := by
  obtain ⟨b₁, hreserve, happend⟩ := Option.bind_eq_some_iff.mp happend
  have hfill : b₁.fill_size = b.fill_size := fill_size_of_reserve hreserve
  obtain ⟨⟨log_info, fill_len⟩, hprint, happend⟩ := Option.bind_eq_some_iff.mp happend
  obtain ⟨_, -, hpair⟩ := Option.map_eq_some_iff.mp hprint
  obtain ⟨rfl, rfl⟩ := Prod.mk.inj hpair
  obtain ⟨log_info', -, rfl⟩ := Option.map_eq_some_iff.mp happend
  have hcontent := h'.length_content
  dsimp only at hcontent
  rw [if_pos hlength, hfill, UInt32.toNat_add, toNat_ofInt hlength, List.length_append,
    h.length_content, AppendCall.printed, List.length_take] at hcontent
  have hlt := b.fill_size.toNat_lt
  omega

/-! ## Runs -/

/-- The constructor and some calls. -/
def appendAll (new_char : (n : ℕ) → List.Vector UInt8 n) (size : UInt32)
    (calls : List AppendCall) : Option AimyLoggerBuffer :=
  (construct new_char size).bind fun b => run (append new_char) b calls

lemma construct_eq_some (h : construct new_char size = some b) :
    Holds b [] ∧ size.toNat + 1 < 2 ^ 32 ∧ b.size = size := by
  obtain ⟨log_info, hstore, rfl⟩ := Option.map_eq_some_iff.mp h
  have hlt := size.toNat_lt
  have hle := (store_eq_some.mp hstore).1
  rw [List.Vector.toList_length, List.length_singleton, UInt32.toNat_add] at hle
  have hone : (1 : UInt32).toNat = 1 := rfl
  rw [hone] at hle
  have hsize : size.toNat + 1 < 2 ^ 32 := by omega
  refine ⟨⟨?_, ?_, ?_⟩, hsize, rfl⟩
  · rw [length_of_store hstore, List.Vector.toList_length, UInt32.toNat_add, hone,
      Nat.mod_eq_of_lt hsize]
  · exact UInt32.le_iff_toNat_le.mpr (Nat.zero_le _)
  · exact List.take_zero

lemma exists_construct (new_char : (n : ℕ) → List.Vector UInt8 n)
    (hsize : size.toNat + 1 < 2 ^ 32) :
    ∃ b, construct new_char size = some b := by
  rw [construct, store, if_pos]
  · exact ⟨_, rfl⟩
  · rw [List.Vector.toList_length, List.length_singleton, UInt32.toNat_add]
    have hone : (1 : UInt32).toNat = 1 := rfl
    omega

/-- The calls of a run whose outputs are no longer than announced. -/
lemma exists_run (h : Holds b []) (hsize : b.size.toNat + 1 < 2 ^ 32) {calls : List AppendCall}
    (hwrap : AllSteps (append new_char) NoWrap b calls)
    (hfits : ∀ call ∈ calls, call.output.length ≤ call.max_len.toNat) :
    ∃ b', run (append new_char) b calls = some b' ∧ Holds b' (calls.flatMap AppendCall.printed) ∧
      b'.size.toNat + 1 < 2 ^ 32 := by
  induction calls using List.reverseRecOn with
  | nil => exact ⟨b, rfl, h, hsize⟩
  | append_singleton calls call ih =>
    rw [List.forall_mem_append, List.forall_mem_singleton] at hfits
    obtain ⟨hwrap, hlast⟩ := allSteps_append.mp hwrap
    obtain ⟨b₁, hrun, h₁, hsize₁⟩ := ih hwrap hfits.1
    obtain ⟨b', happend, h', hsize'⟩ := exists_append h₁ hsize₁ (hlast b₁ hrun).1 hfits.2
    exact ⟨b', run_concat_eq_some.mpr ⟨b₁, hrun, happend⟩, by simpa using h', hsize'⟩

/-- **The bounds of the buffer**: for every run in which no sum wraps, the buffer holds what was
printed, inside of its memory, after every call, exactly when every output is as short as it was
announced. -/
theorem appendAll_holds_iff (new_char : (n : ℕ) → List.Vector UInt8 n) (size : UInt32)
    (calls : List AppendCall) (hwrap : ∀ b, construct new_char size = some b →
      AllSteps (append new_char) NoWrap b calls) :
    (∀ pre, pre <+: calls → ∃ b, appendAll new_char size pre = some b ∧
        Holds b (pre.flatMap AppendCall.printed)) ↔
      size.toNat + 1 < 2 ^ 32 ∧ ∀ call ∈ calls, call.output.length ≤ call.max_len.toNat := by
  constructor
  · intro hall
    obtain ⟨b₀, hb₀, -⟩ := hall [] List.nil_prefix
    obtain ⟨b, hb, -⟩ := Option.bind_eq_some_iff.mp hb₀
    refine ⟨(construct_eq_some hb).2.1, fun call hcall => ?_⟩
    obtain ⟨pre, post, rfl⟩ := List.append_of_mem hcall
    obtain ⟨b₁, h₁, hholds₁⟩ := hall pre (List.prefix_append _ _)
    obtain ⟨b₂, h₂, hholds₂⟩ := hall (pre ++ [call]) ⟨post, by simp⟩
    rw [appendAll, hb, Option.bind_some] at h₁ h₂
    obtain ⟨b₁', hrun, happend⟩ := run_concat_eq_some.mp h₂
    obtain rfl : b₁ = b₁' := Option.some.inj (h₁.symm.trans hrun)
    rw [List.flatMap_append, List.flatMap_singleton] at hholds₂
    have hstep := (allSteps_append.mp (hwrap b hb)).2 b₁ h₁
    exact hholds₁.length_le hstep.1.1 happend hholds₂
  · rintro ⟨hsize, hfits⟩ pre ⟨post, rfl⟩
    obtain ⟨b, hb⟩ := exists_construct new_char hsize
    obtain ⟨hholds, -, hbsize⟩ := construct_eq_some hb
    have hpre : ∀ call ∈ pre, call.output.length ≤ call.max_len.toNat :=
      fun call hcall => hfits call (List.mem_append_left _ hcall)
    obtain ⟨b', hrun, hholds', -⟩ :=
      exists_run hholds (by rwa [hbsize]) (allSteps_append.mp (hwrap b hb)).1 hpre
    exact ⟨b', by rw [appendAll, hb, Option.bind_some, hrun], hholds'⟩

/-- New arrays that hold zeros. -/
def zeroChars (n : ℕ) : List.Vector UInt8 n := ⟨List.replicate n 0, List.length_replicate⟩

instance (b : AimyLoggerBuffer) (call : AppendCall) : Decidable (NoWrap b call) :=
  inferInstanceAs (Decidable (_ ∧ _))

/-- Two outputs in a buffer of eight bytes. -/
theorem appendAll_holds_iff_eight :
    (∀ pre, pre <+: [⟨4, text "abc"⟩, ⟨4, text "defg"⟩] → ∃ b, appendAll zeroChars 8 pre = some b ∧
        Holds b (pre.flatMap AppendCall.printed)) ↔
      (8 : UInt32).toNat + 1 < 2 ^ 32 ∧
        ∀ call ∈ [AppendCall.mk 4 (text "abc"), ⟨4, text "defg"⟩],
          call.output.length ≤ call.max_len.toNat := by
  refine appendAll_holds_iff zeroChars 8 _ fun b hb => ?_
  obtain rfl := Option.some.inj hb
  decide

/-- An output of nine bytes for which one was announced: its NUL is written behind the memory. -/
theorem append_out_of_bounds :
    ¬ ∀ pre, pre <+: [AppendCall.mk 1 (text "abcdefghi")] →
      ∃ b, appendAll zeroChars 2 pre = some b ∧ Holds b (pre.flatMap AppendCall.printed) := by
  intro hall
  obtain ⟨b, hb, -⟩ := hall _ (List.prefix_refl _)
  have hnone : appendAll zeroChars 2 [AppendCall.mk 1 (text "abcdefghi")] = none := by decide
  rw [hnone] at hb
  simp at hb

end AimyLoggerBuffer

end SignalEventLoop.Log
