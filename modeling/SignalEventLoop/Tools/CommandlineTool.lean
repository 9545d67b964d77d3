/-
# The arguments of the command line test tool

`commandLineTestTool` (`imp/commandlineTool.cpp`).  The client encodes every argument in base64 and
joins the results with the byte 255; the server splits the datagram and decodes the pieces.

A block of memory is the list of the bytes that were written to it, and an `ExternalParam` adds the
length that counts.  The joiner writes a separator when something stands before it, and the
splitter passes over runs of separators, so that an empty argument leaves no trace.
-/
import Mathlib.Tactic

namespace SignalEventLoop.Tools

/-- A block and the length that counts; `createExternalParam` of no bytes, and the base64 functions
on no bytes, give the null pointer. -/
structure ExternalParam where
  data : List UInt8
  second : ℕ
deriving DecidableEq

namespace ExternalParam

/-- The bytes that count, as `paramToString` reads them. -/
def bytes (p : ExternalParam) : List UInt8 := p.data.take p.second

/-- The parameter holds exactly these bytes. -/
def Holds (p : ExternalParam) (arg : List UInt8) : Prop := p.second = arg.length ∧ p.bytes = arg

instance (p : ExternalParam) (arg : List UInt8) : Decidable (p.Holds arg) :=
  inferInstanceAs (Decidable (_ ∧ _))

end ExternalParam

/-! ## base64 -/

def base64Char : List UInt8 :=
  "ABCDEFGHIJKLMNOPQRSTUVWXYZabcdefghijklmnopqrstuvwxyz0123456789+/".toList.map fun c =>
    UInt8.ofNat c.toNat

/-- `base64Char[i&0x3F]`. -/
def charOf (i : UInt8) : UInt8 := base64Char.getD (i &&& 0x3F).toNat 0

/-- The loop of `base64Encode`, and the bytes behind the last group of three. -/
def encodeGroups : List UInt8 → List UInt8
  | a :: b :: c :: rest =>
    charOf (a >>> 2) :: charOf (((a &&& 0x3) <<< 4) ||| (b >>> 4)) ::
      charOf ((b <<< 2) ||| (c >>> 6)) :: charOf c :: encodeGroups rest
  | [a, b] =>
    [charOf (a >>> 2), charOf (((a &&& 0x3) <<< 4) ||| (b >>> 4)), charOf (b <<< 2), 61]
  | [a] => [charOf (a >>> 2), charOf ((a &&& 0x3) <<< 4), 61, 61]
  | [] => []

def base64Encode (input_buf : List UInt8) : ExternalParam :=
  let buf_size := input_buf.length
  let numOrig24BitValues := buf_size / 3
  let havePadding := if buf_size > numOrig24BitValues * 3 then 1 else 0
  ⟨encodeGroups input_buf, 4 * (numOrig24BitValues + havePadding)⟩

def base64DecodeTable (c : UInt8) : UInt8 :=
  if 65 ≤ c ∧ c ≤ 90 then 0 + (c - 65)
  else if 97 ≤ c ∧ c ≤ 122 then 26 + (c - 97)
  else if 48 ≤ c ∧ c ≤ 57 then 52 + (c - 48)
  else if c = 43 then 62
  else if c = 47 then 63
  else if c = 61 then 0
  else 0x80

/-- An invalid character counts as `A`. -/
def outTmp (inTmp : UInt8) : UInt8 :=
  if base64DecodeTable inTmp &&& 0x80 ≠ 0 then 0 else base64DecodeTable inTmp

/-- The bytes of a group of four characters. -/
def decodeGroup (o₀ o₁ o₂ o₃ : UInt8) : List UInt8 :=
  [(o₀ <<< 2) ||| (o₁ >>> 4), (o₁ <<< 4) ||| (o₂ >>> 2), (o₂ <<< 6) ||| o₃]

/-- The loop of `base64Decode`: the bytes, and how many `=` it has seen. -/
def decodeGroups : List UInt8 → List UInt8 × ℕ
  | i₀ :: i₁ :: i₂ :: i₃ :: rest =>
    let (bytes, paddingCount) := decodeGroups rest
    (decodeGroup (outTmp i₀) (outTmp i₁) (outTmp i₂) (outTmp i₃) ++ bytes,
      [i₀, i₁, i₂, i₃].count 61 + paddingCount)
  | _ => ([], 0)

/-- `base64Decode`; the sizes are `uint32_t`. -/
def base64Decode (input_buf : List UInt8) : ExternalParam :=
  let ret_size := 3 * input_buf.length % 2 ^ 32 / 4
  let (ret_buf, paddingCount) := decodeGroups input_buf
  ⟨ret_buf, (2 ^ 32 + ret_size - paddingCount) % 2 ^ 32⟩

/-! ## The client and the server -/

/-- `commandLineTestTool::PARAM_SPLIT_CHAR`. -/
def PARAM_SPLIT_CHAR : UInt8 := 0xff

/-- One argument is copied behind the ones before it. -/
def appendParam (data : List UInt8) (i : ExternalParam) : List UInt8 :=
  (if data.length > 0 then data ++ [PARAM_SPLIT_CHAR] else data) ++ i.bytes

/-- The datagram for a list of encoded arguments. -/
def joinParams (dataList : List ExternalParam) : ExternalParam :=
  let data := dataList.foldl appendParam []
  ⟨data, data.length⟩

def appendClientData (inputList : List (List UInt8)) : ExternalParam :=
  joinParams (inputList.map base64Encode)

/-- `handleCommandlineCmd` behind its options: `opt` is the first argument that is none. -/
def handleCommandlineCmd (opt : List UInt8) (argv : List (List UInt8)) : ExternalParam :=
  joinParams (base64Encode opt :: argv.map base64Encode)

/-- `parse_func`: a piece without bytes is dropped. -/
def parseFunc (piece : List UInt8) : List ExternalParam :=
  if piece = [] then [] else [base64Decode piece]

/-- The loop of `parse`.  `none` stands for the inner loop that passes over separators, and
`some piece` for the outer one, between `start_pos` and `offset`. -/
def parseLoop : Option (List UInt8) → List UInt8 → List ExternalParam
  | piece, [] => parseFunc (piece.getD [])
  | none, c :: rest =>
    if c = PARAM_SPLIT_CHAR then parseLoop none rest else parseLoop (some [c]) rest
  | some piece, c :: rest =>
    if c ≠ PARAM_SPLIT_CHAR then parseLoop (some (piece ++ [c])) rest
    else parseFunc piece ++ parseLoop none rest

def parse (param : ExternalParam) : List ExternalParam :=
  if param.second = 0 then [] else parseLoop none param.bytes

/-- The arguments, in their order, with their lengths and bytes, and no others. -/
def Returns (params : List ExternalParam) (args : List (List UInt8)) : Prop :=
  List.Forall₂ ExternalParam.Holds params args

/-! ## One argument -/

/-- The characters that stand for the numbers below 64. -/
lemma outTmp_table : ∀ n : Fin 64, outTmp (base64Char.getD n.val 0) = UInt8.ofNat n.val ∧
    base64Char.getD n.val 0 ≠ 61 ∧ base64Char.getD n.val 0 ≠ PARAM_SPLIT_CHAR := by
  decide +kernel

lemma charOf_spec (i : UInt8) :
    outTmp (charOf i) = i &&& 0x3F ∧ charOf i ≠ 61 ∧ charOf i ≠ PARAM_SPLIT_CHAR := by
  have hlt : (i &&& 0x3F).toNat < 64 := by
    rw [UInt8.toNat_and]
    exact lt_of_le_of_lt Nat.and_le_right (by decide)
  obtain ⟨h1, h2, h3⟩ := outTmp_table ⟨_, hlt⟩
  refine ⟨?_, h2, h3⟩
  rw [charOf, h1, UInt8.ofNat_toNat]

lemma outTmp_charOf (i : UInt8) : outTmp (charOf i) = i &&& 0x3F := (charOf_spec i).1

lemma charOf_ne_pad (i : UInt8) : charOf i ≠ 61 := (charOf_spec i).2.1

/-- The three bytes of a full group. -/
lemma decodeGroup_triple (a b c : UInt8) :
    decodeGroup ((a >>> 2) &&& 0x3F) ((((a &&& 0x3) <<< 4) ||| (b >>> 4)) &&& 0x3F)
      (((b <<< 2) ||| (c >>> 6)) &&& 0x3F) (c &&& 0x3F) = [a, b, c] := by
  rw [decodeGroup, List.cons.injEq, List.cons.injEq, List.cons.injEq]
  refine ⟨?_, ?_, ?_, rfl⟩ <;>
  · apply UInt8.toBitVec_inj.mp
    ext i hi
    interval_cases i <;> simp

/-- The numbers behind the padding are 0, so that the groups at the end are full groups as well. -/
lemma decodeGroup_pair (a b : UInt8) :
    decodeGroup ((a >>> 2) &&& 0x3F) ((((a &&& 0x3) <<< 4) ||| (b >>> 4)) &&& 0x3F)
      ((b <<< 2) &&& 0x3F) 0 = [a, b, 0] := by
  have h := decodeGroup_triple a b 0
  rwa [show (0 : UInt8) >>> 6 = 0 from rfl, UInt8.or_zero, UInt8.zero_and] at h

lemma decodeGroup_single (a : UInt8) :
    decodeGroup ((a >>> 2) &&& 0x3F) (((a &&& 0x3) <<< 4) &&& 0x3F) 0 0 = [a, 0, 0] := by
  have h := decodeGroup_triple a 0 0
  rwa [show (0 : UInt8) >>> 4 = 0 from rfl, show (0 : UInt8) <<< 2 = 0 from rfl,
    show (0 : UInt8) >>> 6 = 0 from rfl, UInt8.or_zero, UInt8.or_zero, UInt8.zero_and] at h

lemma length_encodeGroups (arg : List UInt8) :
    (encodeGroups arg).length = 4 * ((arg.length + 2) / 3) := by
  induction arg using encodeGroups.induct with
  | case1 a b c rest ih =>
    simp only [encodeGroups, List.length_cons, ih]
    omega
  | case2 a b => simp [encodeGroups]
  | case3 a => simp [encodeGroups]
  | case4 => rfl

/-- The decoder finds the bytes, with a zero for every `=`. -/
lemma decodeGroups_encodeGroups (arg : List UInt8) :
    ∃ k, (decodeGroups (encodeGroups arg)) = (arg ++ List.replicate k 0, k) ∧
      arg.length + k = 3 * ((arg.length + 2) / 3) := by
  induction arg using encodeGroups.induct with
  | case1 a b c rest ih =>
    obtain ⟨k, he, hk⟩ := ih
    refine ⟨k, ?_, by simp only [List.length_cons]; omega⟩
    simp only [encodeGroups, decodeGroups, outTmp_charOf, decodeGroup_triple, he]
    simp [charOf_ne_pad]
  | case2 a b =>
    refine ⟨1, ?_, by simp⟩
    simp only [encodeGroups, decodeGroups, outTmp_charOf, show outTmp 61 = 0 from rfl,
      decodeGroup_pair]
    simp [charOf_ne_pad]
  | case3 a =>
    refine ⟨2, ?_, by simp⟩
    simp only [encodeGroups, decodeGroups, outTmp_charOf, show outTmp 61 = 0 from rfl,
      decodeGroup_single]
    simp [charOf_ne_pad]
  | case4 => exact ⟨0, rfl, rfl⟩

lemma base64Encode_bytes (arg : List UInt8) : (base64Encode arg).bytes = encodeGroups arg := by
  rw [ExternalParam.bytes, base64Encode, List.take_of_length_le]
  rw [length_encodeGroups]
  dsimp only
  split <;> omega

lemma encodeGroups_eq_nil {arg : List UInt8} : encodeGroups arg = [] ↔ arg = [] := by
  rw [← List.length_eq_zero_iff, length_encodeGroups, ← List.length_eq_zero_iff]
  omega

/-- **One argument.**  It comes back when the decoder can count its characters. -/
theorem base64Decode_encodeGroups {arg : List UInt8}
    (h : 3 * (encodeGroups arg).length < 2 ^ 32) :
    (base64Decode (encodeGroups arg)).Holds arg := by
  obtain ⟨k, he, hk⟩ := decodeGroups_encodeGroups arg
  have hsize : 3 * (encodeGroups arg).length % 2 ^ 32 / 4 = arg.length + k := by
    rw [Nat.mod_eq_of_lt h, length_encodeGroups, hk]
    omega
  rw [length_encodeGroups] at h
  have hsecond : (base64Decode (encodeGroups arg)).second = arg.length := by
    simp only [base64Decode, he, hsize]
    omega
  refine ⟨hsecond, ?_⟩
  rw [ExternalParam.bytes, hsecond]
  simp only [base64Decode, he]
  exact List.take_left

/-! ## The separators -/

lemma split_notMem_encodeGroups (arg : List UInt8) : PARAM_SPLIT_CHAR ∉ encodeGroups arg := by
  have hne : ∀ i, PARAM_SPLIT_CHAR ≠ charOf i := fun i => Ne.symm (charOf_spec i).2.2
  have hpad : PARAM_SPLIT_CHAR ≠ 61 := by decide
  induction arg using encodeGroups.induct with
  | case1 a b c rest ih => simp [encodeGroups, hne, ih]
  | case2 a b => simp [encodeGroups, hne, hpad]
  | case3 a => simp [encodeGroups, hne, hpad]
  | case4 => exact List.not_mem_nil

/-- Passing over separators is the same as scanning from an empty piece. -/
lemma parseLoop_none (data : List UInt8) : parseLoop none data = parseLoop (some []) data := by
  cases data with
  | nil => rfl
  | cons c rest =>
    by_cases hc : c = PARAM_SPLIT_CHAR
    · simp [parseLoop, parseFunc, hc]
    · simp [parseLoop, hc]

/-- The pieces behind a separator are found as if the datagram began there. -/
lemma parseLoop_append_split (piece d e : List UInt8) :
    parseLoop (some piece) (d ++ PARAM_SPLIT_CHAR :: e) =
      parseLoop (some piece) d ++ parseLoop (some []) e := by
  induction d generalizing piece with
  | nil => simp [parseLoop, parseLoop_none]
  | cons c d ih =>
    by_cases hc : c = PARAM_SPLIT_CHAR
    · simp [parseLoop, hc, parseLoop_none, ih]
    · simp [parseLoop, hc, ih]

/-- A piece without a separator. -/
lemma parseLoop_piece {w : List UInt8} (hw : PARAM_SPLIT_CHAR ∉ w) (piece : List UInt8) :
    parseLoop (some piece) w = parseFunc (piece ++ w) := by
  induction w generalizing piece with
  | nil => simp [parseLoop]
  | cons c w ih =>
    rw [List.mem_cons, not_or] at hw
    rw [parseLoop, if_pos (Ne.symm hw.1), ih hw.2, List.append_assoc, List.singleton_append]

/-- What one call of `appendParam` adds to the pieces. -/
lemma parseLoop_appendParam (data : List UInt8) {i : ExternalParam}
    (hi : PARAM_SPLIT_CHAR ∉ i.bytes) :
    parseLoop (some []) (appendParam data i) = parseLoop (some []) data ++ parseFunc i.bytes := by
  have hpiece := parseLoop_piece hi []
  rw [List.nil_append] at hpiece
  rw [appendParam]
  split_ifs with hdata
  · rw [List.append_assoc, List.singleton_append, parseLoop_append_split, hpiece]
  · have hnil : data = [] := List.length_eq_zero_iff.mp (by omega)
    rw [hnil, List.nil_append, hpiece]
    simp [parseLoop, parseFunc]

/-- The server finds the arguments that are not empty. -/
lemma parseLoop_join (args : List (List UInt8)) (data : List UInt8) :
    parseLoop (some []) ((args.map base64Encode).foldl appendParam data) =
      parseLoop (some []) data ++ args.flatMap fun arg => parseFunc (encodeGroups arg) := by
  induction args generalizing data with
  | nil => simp
  | cons arg args ih =>
    have harg : PARAM_SPLIT_CHAR ∉ (base64Encode arg).bytes := by
      rw [base64Encode_bytes]
      exact split_notMem_encodeGroups arg
    rw [List.map_cons, List.foldl_cons, ih, parseLoop_appendParam data harg, base64Encode_bytes,
      List.flatMap_cons, List.append_assoc]

lemma parse_appendClientData (args : List (List UInt8)) :
    parse (appendClientData args) = args.flatMap fun arg => parseFunc (encodeGroups arg) := by
  have hjoin := parseLoop_join args []
  rw [parse]
  split_ifs with hlen
  · -- an empty datagram is not looked at
    have hnil : (args.map base64Encode).foldl appendParam [] = [] :=
      List.length_eq_zero_iff.mp hlen
    rw [hnil] at hjoin
    simpa [parseLoop, parseFunc] using hjoin
  · rw [parseLoop_none, ExternalParam.bytes, appendClientData, joinParams, List.take_length,
      hjoin]
    simp [parseLoop, parseFunc]

/-! ## All arguments -/

/-- Every encoded argument is a part of the datagram. -/
lemma length_le_join (args : List (List UInt8)) (data : List UInt8) :
    data.length ≤ ((args.map base64Encode).foldl appendParam data).length ∧
    ∀ arg ∈ args, (encodeGroups arg).length ≤
      ((args.map base64Encode).foldl appendParam data).length := by
  induction args generalizing data with
  | nil => simp
  | cons arg args ih =>
    rw [List.map_cons, List.foldl_cons]
    obtain ⟨hdata, hargs⟩ := ih (appendParam data (base64Encode arg))
    have hone : data.length ≤ (appendParam data (base64Encode arg)).length ∧
        (encodeGroups arg).length ≤ (appendParam data (base64Encode arg)).length := by
      rw [appendParam, base64Encode_bytes]
      split_ifs <;> simp only [List.length_append] <;> omega
    refine ⟨le_trans hone.1 hdata, fun arg' harg' => ?_⟩
    rcases List.mem_cons.mp harg' with rfl | harg'
    · exact le_trans hone.2 hdata
    · exact hargs arg' harg'

lemma length_flatMap_parseFunc (args : List (List UInt8)) :
    (args.flatMap fun arg => parseFunc (encodeGroups arg)).length =
      args.countP fun arg => decide (arg ≠ []) := by
  induction args with
  | nil => rfl
  | cons arg args ih =>
    rw [List.flatMap_cons, List.length_append, ih, parseFunc]
    by_cases h : arg = []
    · simp [encodeGroups_eq_nil, h]
    · simp only [encodeGroups_eq_nil, h, if_false, List.length_singleton, ne_eq,
        not_false_eq_true, decide_true, List.countP_cons_of_pos]
      omega

lemma returns_of_ne_nil {args : List (List UInt8)}
    (hsize : ∀ arg ∈ args, 3 * (encodeGroups arg).length < 2 ^ 32)
    (hne : ∀ arg ∈ args, arg ≠ []) :
    Returns (args.flatMap fun arg => parseFunc (encodeGroups arg)) args := by
  induction args with
  | nil => exact List.Forall₂.nil
  | cons arg args ih =>
    rw [List.forall_mem_cons] at hsize hne
    rw [List.flatMap_cons, parseFunc, if_neg (by rw [encodeGroups_eq_nil]; exact hne.1)]
    exact List.Forall₂.cons (base64Decode_encodeGroups hsize.1) (ih hsize.2 hne.2)

/-- **The arguments of a command.**  For arguments whose datagram fits into the buffer of the
server, `parse` returns exactly the arguments if and only if none of them is empty; the two
functions of the client build the same datagram. -/
theorem arguments_roundTrip_iff (opt : List UInt8) (argv : List (List UInt8))
    (hfit : (appendClientData (opt :: argv)).second ≤ 32 * 1024) :
    handleCommandlineCmd opt argv = appendClientData (opt :: argv) ∧
    (Returns (parse (appendClientData (opt :: argv))) (opt :: argv) ↔
      ∀ arg ∈ opt :: argv, arg ≠ []) := by
  refine ⟨rfl, ?_⟩
  generalize opt :: argv = args at hfit ⊢
  rw [parse_appendClientData]
  constructor
  · intro h
    have hlen := h.length_eq
    rw [length_flatMap_parseFunc, List.countP_eq_length] at hlen
    exact fun arg harg => of_decide_eq_true (hlen arg harg)
  · refine returns_of_ne_nil fun arg harg => ?_
    have hle : (encodeGroups arg).length ≤ (appendClientData args).second :=
      (length_le_join args []).2 arg harg
    omega

/-- A command with two arguments, one of them with bytes that are no text. -/
theorem arguments_roundTrip_sample :
    Returns (parse (appendClientData [[115, 101, 116], [0xff, 0], [49]]))
      [[115, 101, 116], [0xff, 0], [49]] :=
  (arguments_roundTrip_iff [115, 101, 116] [[0xff, 0], [49]] (by decide +kernel)).2.mpr (by decide)

/-- An empty argument between two others is lost: the server gets two arguments and not three. -/
theorem empty_argument_lost :
    ¬ Returns (parse (appendClientData [[115], [], [49]])) [[115], [], [49]] ∧
    (parse (appendClientData [[115], [], [49]])).length = 2 := by
  have hlen : (parse (appendClientData [[115], [], [49]])).length = 2 := by decide +kernel
  refine ⟨fun h => ?_, hlen⟩
  have := h.length_eq
  rw [hlen] at this
  exact absurd this (by decide)

end SignalEventLoop.Tools
