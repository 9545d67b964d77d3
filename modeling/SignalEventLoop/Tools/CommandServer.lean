/-
# The server of the command line test tool

`commandLineTestTool::handleRequest` (`imp/commandlineTool.cpp`) gets any datagram, decodes its
pieces and reads the parameters by their lengths.  Here the decoder writes into a block of
`ret_size` bytes, whose other bytes are what they were.

All the bytes that are written have their place.  The length of a parameter is another matter: the
decoder takes away one byte for every `=`, wherever it stands, and when there are more of them
than bytes, the difference of two unsigned numbers becomes a large one.
-/
import SignalEventLoop.Lib.ByteMem
import SignalEventLoop.Lib.CText
import SignalEventLoop.Lib.Scan
import SignalEventLoop.Tools.CommandlineTool

namespace SignalEventLoop.Tools

open Lib

namespace CommandServer

/-! ## Model -/

/-- What the new blocks hold, by their number and size. -/
abbrev Heap := ℕ → (n : ℕ) → List.Vector UInt8 n

/-- The loop of `base64Decode`, which writes three bytes from `k` on for each group. -/
def decodeLoop : Bytes → ℕ → ℕ → Bytes → Option (Bytes × ℕ)
  | i₀ :: i₁ :: i₂ :: i₃ :: rest, k, paddingCount, ret_buf =>
    (store ret_buf k (decodeGroup (outTmp i₀) (outTmp i₁) (outTmp i₂) (outTmp i₃))).bind
      fun ret_buf =>
        decodeLoop rest (k + 3) (paddingCount + [i₀, i₁, i₂, i₃].count 61) ret_buf
  | _, _, paddingCount, ret_buf => some (ret_buf, paddingCount)

/-- `base64Decode` with its block; `none` when it writes outside of it. -/
def decodeBlock (fresh : (n : ℕ) → List.Vector UInt8 n) (input_buf : Bytes) :
    Option ExternalParam :=
  let ret_size := 3 * input_buf.length % 2 ^ 32 / 4
  (decodeLoop input_buf 0 0 (fresh ret_size).toList).map fun (ret_buf, paddingCount) =>
    ⟨ret_buf, (2 ^ 32 + ret_size - paddingCount) % 2 ^ 32⟩

/-- `parse_func` -/
def parseFunc (heap : Heap) (ret : List ExternalParam) (piece : Bytes) :
    Option (List ExternalParam) :=
  if piece = [] then some ret
  else (decodeBlock (heap ret.length) piece).map fun p => ret ++ [p]

/-- The loop of `parse`, as in `Tools.parseLoop`, with the parameters that it has found. -/
def parseLoop (heap : Heap) :
    Option Bytes → Bytes → List ExternalParam → Option (List ExternalParam)
  | piece, [], ret => parseFunc heap ret (piece.getD [])
  | none, c :: rest, ret =>
    if c = PARAM_SPLIT_CHAR then parseLoop heap none rest ret
    else parseLoop heap (some [c]) rest ret
  | some piece, c :: rest, ret =>
    if c ≠ PARAM_SPLIT_CHAR then parseLoop heap (some (piece ++ [c])) rest ret
    else (parseFunc heap ret piece).bind (parseLoop heap none rest)

def parse (heap : Heap) (param : ExternalParam) : Option (List ExternalParam) :=
  if param.second = 0 then some [] else parseLoop heap none param.bytes []

/-- `commandLineTestTool::paramToString`; `none` when it reads outside of the block. -/
def paramToString (param : ExternalParam) : Option Bytes :=
  if param.second = 0 then some [] else load param.data 0 param.second

/-- What `handleRequest` does: it answers with a text, with the help or with the result of a
callback, or `std::stoi` throws. -/
inductive Reply where
  | text (s : Bytes)
  | getHelpInfo (print_func_info : Bool) (func_name : Bytes)
  | invokeCallback (func_name : Bytes) (params : List ExternalParam)
  | throws
deriving DecidableEq

/-- The help, behind the name of the mode. -/
def handleHelp : List ExternalParam → Option Reply
  | [] => some (.getHelpInfo false [])
  | info :: rest => (paramToString info).bind fun s =>
    match stoi s, rest with
    | none, _ => some .throws
    | some n, [] => some (.getHelpInfo (n ≠ 0) [])
    | some n, name :: _ => (paramToString name).map fun func_name =>
      .getHelpInfo (n ≠ 0) func_name

/-- The call of a function; all of `param_list` is printed. -/
def handleRun (param_list : List ExternalParam) : List ExternalParam → Option Reply
  | [] => some (.text (text "request parse failed, error:[no specified func name]"))
  | name :: funcParamList => (param_list.mapM paramToString).bind fun _ =>
    (paramToString name).map fun func_name => .invokeCallback func_name funcParamList

/-- `handleRequest` behind `parse`. -/
def handleParams : List ExternalParam → Option Reply
  | [] => some (.text (text "invalid input!"))
  | mode :: rest => (load mode.data 0 mode.second).bind fun mode_name =>
    if mode_name = text "help" ∨ mode_name = text "--help" ∨ mode_name = text "-h" then
      handleHelp rest
    else if mode_name = text "run" then handleRun (mode :: rest) rest
    else if mode_name = text "keepalive" then some (.text [])
    else some (.text (mode_name ++ text " not supported!"))

/-- `commandLineTestTool::handleRequest`; `none` when something is read or written outside of its
block. -/
def handleRequest (heap : Heap) (param : ExternalParam) : Option Reply :=
  (parse heap param).bind handleParams

/-! ## What is asked of the server -/

/-- The parameter of a datagram. -/
def datagramParam (datagram : Bytes) : ExternalParam := ⟨datagram, datagram.length⟩

/-- No length is larger than its block, and `handleRequest` stays inside of the blocks. -/
def Survives (heap : Heap) (datagram : Bytes) : Prop :=
  ∃ params, parse heap (datagramParam datagram) = some params ∧
    (∀ p ∈ params, p.second ≤ p.data.length) ∧
    ∃ reply, handleRequest heap (datagramParam datagram) = some reply

/-- The pieces that are decoded. -/
def pieces (datagram : Bytes) : List Bytes := words (· = PARAM_SPLIT_CHAR) datagram

/-- The number of `=` in the groups of four. -/
def paddingCount (piece : Bytes) : ℕ := (piece.take (4 * (piece.length / 4))).count 61

/-- There are more `=` than bytes of the block. -/
def OverPadded (piece : Bytes) : Prop := 3 * piece.length / 4 < paddingCount piece

instance (piece : Bytes) : Decidable (OverPadded piece) := inferInstanceAs (Decidable (_ < _))

/-! ## The decoder -/

variable {input_buf ret_buf piece datagram : Bytes} {k n : ℕ} {heap : Heap}
  {params ret : List ExternalParam}

/-- Fewer than four characters make no group. -/
lemma short_of_forall_ne
    (h : ∀ i₀ i₁ i₂ i₃ rest, input_buf = i₀ :: i₁ :: i₂ :: i₃ :: rest → False) :
    input_buf.length / 4 = 0 := by
  match input_buf, h with
  | [], _ | [_], _ | [_, _], _ | [_, _, _], _ => simp
  | i₀ :: i₁ :: i₂ :: i₃ :: rest, h => exact absurd rfl (h i₀ i₁ i₂ i₃ rest)

lemma decodeGroups_short
    (h : ∀ i₀ i₁ i₂ i₃ rest, input_buf = i₀ :: i₁ :: i₂ :: i₃ :: rest → False) :
    decodeGroups input_buf = ([], 0) := by
  unfold decodeGroups
  split
  · exact absurd rfl (h _ _ _ _ _)
  · rfl

lemma length_group (i₀ i₁ i₂ i₃ : UInt8) (rest : Bytes) :
    (i₀ :: i₁ :: i₂ :: i₃ :: rest).length / 4 = rest.length / 4 + 1 := by
  simp only [List.length_cons]
  omega

lemma paddingCount_group (i₀ i₁ i₂ i₃ : UInt8) (rest : Bytes) :
    paddingCount (i₀ :: i₁ :: i₂ :: i₃ :: rest) =
      [i₀, i₁, i₂, i₃].count 61 + paddingCount rest := by
  rw [paddingCount, length_group, Nat.mul_add, Nat.mul_one, paddingCount, ← List.count_append]
  rfl

lemma decodeGroups_paddingCount (input_buf : Bytes) :
    (decodeGroups input_buf).2 = paddingCount input_buf := by
  induction input_buf using decodeGroups.induct with
  | case1 i₀ i₁ i₂ i₃ rest bytes padding hrest ih =>
    rw [paddingCount_group, ← ih]
    rfl
  | case2 input_buf hshort =>
    rw [paddingCount, short_of_forall_ne hshort, decodeGroups_short hshort]
    rfl

/-- What the loop writes, and what it counts. -/
lemma decodeLoop_eq (hroom : k + 3 * (input_buf.length / 4) ≤ ret_buf.length) :
    ∃ ret_buf', decodeLoop input_buf k n ret_buf = some (ret_buf', n + paddingCount input_buf) ∧
      ret_buf'.length = ret_buf.length ∧
      ret_buf'.take (k + 3 * (input_buf.length / 4)) =
        ret_buf.take k ++ (decodeGroups input_buf).1 := by
  induction input_buf, k, n, ret_buf using decodeLoop.induct with
  | case1 i₀ i₁ i₂ i₃ rest k n ret_buf ih =>
    rw [length_group] at hroom ⊢
    have hfits : k + (decodeGroup (outTmp i₀) (outTmp i₁) (outTmp i₂) (outTmp i₃)).length ≤
        ret_buf.length := by
      simp only [decodeGroup, List.length_cons, List.length_nil]
      omega
    obtain ⟨ret_buf₁, hstore⟩ := exists_store hfits
    have hlen := length_of_store hstore
    obtain ⟨ret_buf', hloop, hlen', htake⟩ := ih ret_buf₁ (by rw [hlen]; omega)
    refine ⟨ret_buf', ?_, hlen'.trans hlen, ?_⟩
    · rw [decodeLoop, hstore, Option.bind_some, hloop, paddingCount_group, Nat.add_assoc]
    · have hwritten : ret_buf₁.take (k + 3) = ret_buf.take k ++
          decodeGroup (outTmp i₀) (outTmp i₁) (outTmp i₂) (outTmp i₃) := take_of_store hstore
      rw [Nat.mul_add, Nat.mul_one, Nat.add_comm (3 * _), ← Nat.add_assoc, htake, hwritten,
        List.append_assoc]
      rfl
  | case2 input_buf k n ret_buf hshort =>
    have hzero := short_of_forall_ne hshort
    refine ⟨ret_buf, ?_, rfl, ?_⟩
    · unfold decodeLoop
      split
      · exact absurd rfl (hshort _ _ _ _ _)
      · rw [paddingCount, hzero]
        simp
    · rw [hzero, decodeGroups_short hshort]
      simp

/-- What a piece is decoded to: the size of the block, and the length that counts. -/
structure DecodedFrom (p : ExternalParam) (piece : Bytes) : Prop where
  length_data : p.data.length = 3 * piece.length / 4
  second_eq : p.second = (2 ^ 32 + 3 * piece.length / 4 - paddingCount piece) % 2 ^ 32
  bytes : p.data.take (3 * (piece.length / 4)) = (decodeGroups piece).1

/-- All writes have their place. -/
lemma exists_decodeBlock (fresh : (n : ℕ) → List.Vector UInt8 n)
    (hlen : 3 * piece.length < 2 ^ 32) :
    ∃ p, decodeBlock fresh piece = some p ∧ DecodedFrom p piece := by
  have hsize : 3 * piece.length % 2 ^ 32 / 4 = 3 * piece.length / 4 := by
    rw [Nat.mod_eq_of_lt hlen]
  have hroom : 0 + 3 * (piece.length / 4) ≤ (fresh (3 * piece.length / 4)).toList.length := by
    rw [List.Vector.toList_length]
    omega
  obtain ⟨ret_buf, hloop, hlength, htake⟩ := decodeLoop_eq (n := 0) hroom
  rw [Nat.zero_add] at hloop htake
  rw [List.Vector.toList_length] at hlength
  rw [decodeBlock]
  dsimp only
  rw [hsize, hloop]
  exact ⟨_, rfl, hlength, rfl, by simpa using htake⟩

/-- The decoder of the client's arguments gives the same length, and the bytes that are written. -/
lemma DecodedFrom.base64Decode {p : ExternalParam} (h : DecodedFrom p piece)
    (hlen : 3 * piece.length < 2 ^ 32) :
    (Tools.base64Decode piece).second = p.second ∧ (Tools.base64Decode piece).data <+: p.data := by
  constructor
  · simp only [Tools.base64Decode, decodeGroups_paddingCount, h.second_eq, Nat.mod_eq_of_lt hlen]
  · rw [Tools.base64Decode]
    dsimp only
    rw [← h.bytes]
    exact List.take_prefix _ _

lemma paddingCount_le (piece : Bytes) : paddingCount piece ≤ piece.length :=
  List.count_le_length.trans (by rw [List.length_take]; exact min_le_right _ _)

/-- The length that counts is larger than the block for too many `=`. -/
lemma DecodedFrom.second_le_iff {p : ExternalParam} (h : DecodedFrom p piece)
    (hlen : 3 * piece.length < 2 ^ 32) :
    p.second ≤ p.data.length ↔ ¬ OverPadded piece := by
  have hpadding := paddingCount_le piece
  rw [h.length_data, h.second_eq, OverPadded]
  omega

/-! ## The pieces -/

lemma parseLoop_none (heap : Heap) (data : Bytes) (ret : List ExternalParam) :
    parseLoop heap none data ret = parseLoop heap (some []) data ret := by
  cases data with
  | nil => rfl
  | cons c rest =>
    by_cases hc : c = PARAM_SPLIT_CHAR
    · simp [parseLoop, parseFunc, hc]
    · simp [parseLoop, hc]

/-- The loop decodes the words between the separators. -/
lemma parseLoop_eq (hpiece : PARAM_SPLIT_CHAR ∉ piece) (data : Bytes) (ret : List ExternalParam) :
    parseLoop heap (some piece) data ret =
      (pieces (piece ++ data)).foldlM (parseFunc heap) ret := by
  have hseparate : ∀ c ∈ piece, decide (c = PARAM_SPLIT_CHAR) = false := fun c hc =>
    decide_eq_false (ne_of_mem_of_not_mem hc hpiece)
  induction data generalizing piece ret with
  | nil =>
    rw [parseLoop, List.append_nil, Option.getD_some, pieces]
    by_cases hnil : piece = []
    · rw [hnil, words_nil, parseFunc, if_pos rfl]
      rfl
    · rw [words_of_forall hnil hseparate]
      simp
  | cons c rest ih =>
    rw [parseLoop]
    by_cases hc : c = PARAM_SPLIT_CHAR
    · -- the piece is complete; an empty one is not decoded
      have hrest (ret : List ExternalParam) :
          parseLoop heap none rest ret = (pieces rest).foldlM (parseFunc heap) ret := by
        rw [parseLoop_none, ih (by simp) _ (by simp), List.nil_append]
      rw [if_neg (by simpa using hc), pieces, words_append_cons piece rest (by simp [hc])]
      by_cases hnil : piece = []
      · rw [hnil, words_nil, parseFunc, if_pos rfl, Option.bind_some, hrest]
        rfl
      · rw [words_of_forall hnil hseparate, List.singleton_append, List.foldlM_cons]
        exact Option.bind_congr fun ret _ => hrest ret
    · have hnotMem : PARAM_SPLIT_CHAR ∉ piece ++ [c] := by
        simp [hpiece, Ne.symm hc]
      rw [if_pos hc, ih hnotMem, List.append_assoc, List.singleton_append]
      exact fun d hd => decide_eq_false (ne_of_mem_of_not_mem hd hnotMem)

lemma parse_eq (heap : Heap) (datagram : Bytes) :
    parse heap (datagramParam datagram) = (pieces datagram).foldlM (parseFunc heap) [] := by
  have hbytes : (datagramParam datagram).bytes = datagram := List.take_length
  rw [parse, hbytes]
  split_ifs with hlen
  · rw [List.length_eq_zero_iff.mp hlen, pieces, words_nil]
    rfl
  · rw [parseLoop_none, parseLoop_eq (by simp), List.nil_append]

lemma foldlM_parseFunc {ps : List Bytes} (hne : ∀ piece ∈ ps, piece ≠ [])
    (hlen : ∀ piece ∈ ps, 3 * piece.length < 2 ^ 32) (ret : List ExternalParam) :
    ∃ new, ps.foldlM (parseFunc heap) ret = some (ret ++ new) ∧
      List.Forall₂ DecodedFrom new ps := by
  induction ps generalizing ret with
  | nil => exact ⟨[], by simp, .nil⟩
  | cons piece ps ih =>
    rw [List.forall_mem_cons] at hne hlen
    obtain ⟨p, hp, hdecoded⟩ := exists_decodeBlock (heap ret.length) hlen.1
    obtain ⟨new, hnew, hall⟩ := ih hne.2 hlen.2 (ret ++ [p])
    refine ⟨p :: new, ?_, .cons hdecoded hall⟩
    have hfirst : parseFunc heap ret piece = some (ret ++ [p]) := by
      rw [parseFunc, if_neg hne.1, hp, Option.map_some]
    rw [List.foldlM_cons, hfirst]
    simpa using hnew

/-- The parameters of a datagram. -/
lemma exists_params (heap : Heap) (hlen : datagram.length ≤ 32768) :
    ∃ params, parse heap (datagramParam datagram) = some params ∧
      List.Forall₂ DecodedFrom params (pieces datagram) := by
  rw [parse_eq]
  refine foldlM_parseFunc (fun piece hp => ne_nil_of_mem_words hp) (fun piece hp => ?_) []
  have hle := length_le_of_mem_words hp
  omega

/-! ## The request -/

lemma exists_load {p : ExternalParam} (h : p.second ≤ p.data.length) :
    ∃ s, load p.data 0 p.second = some s :=
  ⟨_, load_eq_some.mpr ⟨by rwa [Nat.zero_add], rfl⟩⟩

lemma exists_paramToString {p : ExternalParam} (h : p.second ≤ p.data.length) :
    ∃ s, paramToString p = some s := by
  rw [paramToString]
  split_ifs
  · exact ⟨_, rfl⟩
  · exact exists_load h

lemma exists_mapM_paramToString (h : ∀ p ∈ params, p.second ≤ p.data.length) :
    ∃ strings, params.mapM paramToString = some strings := by
  induction params with
  | nil => exact ⟨[], rfl⟩
  | cons p params ih =>
    rw [List.forall_mem_cons] at h
    obtain ⟨s, hs⟩ := exists_paramToString h.1
    obtain ⟨strings, hstrings⟩ := ih h.2
    exact ⟨s :: strings, by simp [hs, hstrings]⟩

lemma exists_handleHelp (h : ∀ p ∈ params, p.second ≤ p.data.length) :
    ∃ reply, handleHelp params = some reply := by
  cases params with
  | nil => exact ⟨_, rfl⟩
  | cons info rest =>
    rw [List.forall_mem_cons] at h
    obtain ⟨s, hs⟩ := exists_paramToString h.1
    rw [handleHelp, hs, Option.bind_some]
    cases stoi s with
    | none => exact ⟨_, rfl⟩
    | some n =>
      cases rest with
      | nil => exact ⟨_, rfl⟩
      | cons name rest =>
        obtain ⟨func_name, hname⟩ := exists_paramToString (h.2 name List.mem_cons_self)
        dsimp only
        rw [hname, Option.map_some]
        exact ⟨_, rfl⟩

/-- A request whose lengths are right reads nothing else. -/
lemma exists_handleParams (h : ∀ p ∈ params, p.second ≤ p.data.length) :
    ∃ reply, handleParams params = some reply := by
  cases params with
  | nil => exact ⟨_, rfl⟩
  | cons mode rest =>
    obtain ⟨strings, hstrings⟩ := exists_mapM_paramToString h
    rw [List.forall_mem_cons] at h
    obtain ⟨mode_name, hmode⟩ := exists_load h.1
    rw [handleParams, hmode, Option.bind_some]
    split_ifs
    · exact exists_handleHelp h.2
    · cases rest with
      | nil => exact ⟨_, rfl⟩
      | cons name params =>
        obtain ⟨func_name, hname⟩ := exists_paramToString (h.2 name List.mem_cons_self)
        exact ⟨_, by rw [handleRun, hstrings, Option.bind_some, hname, Option.map_some]⟩
    · exact ⟨_, rfl⟩
    · exact ⟨_, rfl⟩

/-- **The lengths of the parameters** are those of their blocks, or smaller, for exactly the
datagrams in which no piece has more `=` than bytes. -/
theorem commandServer_survives_iff (heap : Heap) (datagram : Bytes)
    (hlen : datagram.length ≤ 32768) :
    Survives heap datagram ↔ ∀ piece ∈ pieces datagram, ¬ OverPadded piece := by
  obtain ⟨params, hparams, hdecoded⟩ := exists_params heap hlen
  have hshort : ∀ piece ∈ pieces datagram, 3 * piece.length < 2 ^ 32 := by
    intro piece hp
    have hle := length_le_of_mem_words hp
    omega
  -- a length that counts is right exactly for the piece that it was decoded from
  have hiff : (∀ p ∈ params, p.second ≤ p.data.length) ↔
      ∀ piece ∈ pieces datagram, ¬ OverPadded piece := by
    clear hparams
    generalize pieces datagram = ps at hdecoded hshort
    induction hdecoded with
    | nil => simp
    | cons hp _ ih =>
      rw [List.forall_mem_cons] at hshort
      rw [List.forall_mem_cons, List.forall_mem_cons, hp.second_le_iff hshort.1, ih hshort.2]
  rw [← hiff, Survives, hparams]
  constructor
  · rintro ⟨params', hparams', hsecond, -⟩
    obtain rfl := Option.some.inj hparams'
    exact hsecond
  · intro hsecond
    obtain ⟨reply, hreply⟩ := exists_handleParams hsecond
    exact ⟨params, rfl, hsecond, reply, by rw [handleRequest, hparams, Option.bind_some, hreply]⟩

/-- New blocks of zeros. -/
def zeroHeap : Heap := fun _ n => List.Vector.replicate n 0

/-- The datagram `"cnVu"`, which stands for `run`. -/
theorem commandServer_survives_iff_run : Survives zeroHeap (text "cnVu") :=
  (commandServer_survives_iff zeroHeap (text "cnVu") (by decide)).mpr (by decide)

/-- The piece `"===="` is decoded to a block of 3 bytes with the length 2^32 - 1. -/
theorem commandServer_overPadded : ¬ Survives zeroHeap (text "====") := by
  rintro ⟨params, hparams, hsecond, -⟩
  have hdecoded : parse zeroHeap (datagramParam (text "====")) =
      some [⟨[0, 0, 0], 2 ^ 32 - 1⟩] := by decide
  obtain rfl := Option.some.inj (hdecoded.symm.trans hparams)
  have hle := hsecond _ List.mem_cons_self
  exact absurd hle (by decide)

end CommandServer

end SignalEventLoop.Tools
