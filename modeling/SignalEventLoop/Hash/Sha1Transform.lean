/-
# The block function of SHA-1

`ws_sha1_transform` (`imp/network/websocket/websocket_connection_helper.cpp`) is unrolled into
eighty lines.  A line is one of the macros `R0` to `R4` on the five variables, which change their
roles from line to line, and the block is overwritten with the words that are still needed.

`compress` is the function in the words of its standard: a schedule of eighty words, and five
working variables that move by one place in every round.  The two agree.
-/
import SignalEventLoop.Lib.Words

namespace SignalEventLoop.Hash.Sha1

open Lib

/-- The variables `a` to `e`; the five words of a state have the same places. -/
abbrev Reg := Fin 5

namespace Reg

def a : Reg := 0
def b : Reg := 1
def c : Reg := 2
def d : Reg := 3
def e : Reg := 4

/-- The variable with a number. -/
def ofNat (i : ℕ) : Reg := Fin.ofNat 5 i

end Reg

/-- `state[5]` -/
abbrev State := Vector UInt32 5

/-! ## The code -/

inductive Op where
  | R0
  | R1
  | R2
  | R3
  | R4
deriving DecidableEq

/-- A line `R0(v, w, x, y, z, i);` -/
structure Line where
  op : Op
  v : Reg
  w : Reg
  x : Reg
  y : Reg
  z : Reg
  i : ℕ
deriving DecidableEq

/-- The variables, and the words `block->l`. -/
structure Locals where
  reg : State
  l : Vector UInt32 16

/-- `i & 15` -/
def place (i : ℕ) : Fin 16 := Fin.ofNat 16 i

/-- `blk0`, whose places are below 16: the word of a machine with the least significant byte
first is exchanged. -/
def blk0 (l : Vector UInt32 16) (i : ℕ) : Vector UInt32 16 :=
  l.set (place i) (swapWord (l.get (place i)))

def blk (l : Vector UInt32 16) (i : ℕ) : Vector UInt32 16 :=
  l.set (place i) (rol (l.get (place (i + 13)) ^^^ l.get (place (i + 8)) ^^^
    l.get (place (i + 2)) ^^^ l.get (place i)) 1)

namespace Op

def mix : Op → UInt32 → UInt32 → UInt32 → UInt32
  | .R0, w, x, y | .R1, w, x, y => (w &&& (x ^^^ y)) ^^^ y
  | .R2, w, x, y | .R4, w, x, y => w ^^^ x ^^^ y
  | .R3, w, x, y => ((w ||| x) &&& y) ||| (w &&& x)

def const : Op → UInt32
  | .R0 | .R1 => 0x5A827999
  | .R2 => 0x6ED9EBA1
  | .R3 => 0x8F1BBCDC
  | .R4 => 0xCA62C1D6

/-- The words after the macro's `blk0` or `blk`. -/
def word : Op → Vector UInt32 16 → ℕ → Vector UInt32 16
  | .R0 => blk0
  | _ => blk

end Op

def Line.exec (s : Locals) (n : Line) : Locals :=
  let l := n.op.word s.l n.i
  let z := s.reg.get n.z + (n.op.mix (s.reg.get n.w) (s.reg.get n.x) (s.reg.get n.y) +
    l.get (place n.i) + n.op.const + rol (s.reg.get n.v) 5)
  let reg := s.reg.set n.z z
  ⟨reg.set n.w (rol (reg.get n.w) 30), l⟩

/-- The body of `ws_sha1_transform`. -/
def lines : List Line :=
  [⟨.R0, .a, .b, .c, .d, .e, 0⟩, ⟨.R0, .e, .a, .b, .c, .d, 1⟩, ⟨.R0, .d, .e, .a, .b, .c, 2⟩,
    ⟨.R0, .c, .d, .e, .a, .b, 3⟩, ⟨.R0, .b, .c, .d, .e, .a, 4⟩, ⟨.R0, .a, .b, .c, .d, .e, 5⟩,
    ⟨.R0, .e, .a, .b, .c, .d, 6⟩, ⟨.R0, .d, .e, .a, .b, .c, 7⟩, ⟨.R0, .c, .d, .e, .a, .b, 8⟩,
    ⟨.R0, .b, .c, .d, .e, .a, 9⟩, ⟨.R0, .a, .b, .c, .d, .e, 10⟩, ⟨.R0, .e, .a, .b, .c, .d, 11⟩,
    ⟨.R0, .d, .e, .a, .b, .c, 12⟩, ⟨.R0, .c, .d, .e, .a, .b, 13⟩, ⟨.R0, .b, .c, .d, .e, .a, 14⟩,
    ⟨.R0, .a, .b, .c, .d, .e, 15⟩, ⟨.R1, .e, .a, .b, .c, .d, 16⟩, ⟨.R1, .d, .e, .a, .b, .c, 17⟩,
    ⟨.R1, .c, .d, .e, .a, .b, 18⟩, ⟨.R1, .b, .c, .d, .e, .a, 19⟩, ⟨.R2, .a, .b, .c, .d, .e, 20⟩,
    ⟨.R2, .e, .a, .b, .c, .d, 21⟩, ⟨.R2, .d, .e, .a, .b, .c, 22⟩, ⟨.R2, .c, .d, .e, .a, .b, 23⟩,
    ⟨.R2, .b, .c, .d, .e, .a, 24⟩, ⟨.R2, .a, .b, .c, .d, .e, 25⟩, ⟨.R2, .e, .a, .b, .c, .d, 26⟩,
    ⟨.R2, .d, .e, .a, .b, .c, 27⟩, ⟨.R2, .c, .d, .e, .a, .b, 28⟩, ⟨.R2, .b, .c, .d, .e, .a, 29⟩,
    ⟨.R2, .a, .b, .c, .d, .e, 30⟩, ⟨.R2, .e, .a, .b, .c, .d, 31⟩, ⟨.R2, .d, .e, .a, .b, .c, 32⟩,
    ⟨.R2, .c, .d, .e, .a, .b, 33⟩, ⟨.R2, .b, .c, .d, .e, .a, 34⟩, ⟨.R2, .a, .b, .c, .d, .e, 35⟩,
    ⟨.R2, .e, .a, .b, .c, .d, 36⟩, ⟨.R2, .d, .e, .a, .b, .c, 37⟩, ⟨.R2, .c, .d, .e, .a, .b, 38⟩,
    ⟨.R2, .b, .c, .d, .e, .a, 39⟩, ⟨.R3, .a, .b, .c, .d, .e, 40⟩, ⟨.R3, .e, .a, .b, .c, .d, 41⟩,
    ⟨.R3, .d, .e, .a, .b, .c, 42⟩, ⟨.R3, .c, .d, .e, .a, .b, 43⟩, ⟨.R3, .b, .c, .d, .e, .a, 44⟩,
    ⟨.R3, .a, .b, .c, .d, .e, 45⟩, ⟨.R3, .e, .a, .b, .c, .d, 46⟩, ⟨.R3, .d, .e, .a, .b, .c, 47⟩,
    ⟨.R3, .c, .d, .e, .a, .b, 48⟩, ⟨.R3, .b, .c, .d, .e, .a, 49⟩, ⟨.R3, .a, .b, .c, .d, .e, 50⟩,
    ⟨.R3, .e, .a, .b, .c, .d, 51⟩, ⟨.R3, .d, .e, .a, .b, .c, 52⟩, ⟨.R3, .c, .d, .e, .a, .b, 53⟩,
    ⟨.R3, .b, .c, .d, .e, .a, 54⟩, ⟨.R3, .a, .b, .c, .d, .e, 55⟩, ⟨.R3, .e, .a, .b, .c, .d, 56⟩,
    ⟨.R3, .d, .e, .a, .b, .c, 57⟩, ⟨.R3, .c, .d, .e, .a, .b, 58⟩, ⟨.R3, .b, .c, .d, .e, .a, 59⟩,
    ⟨.R4, .a, .b, .c, .d, .e, 60⟩, ⟨.R4, .e, .a, .b, .c, .d, 61⟩, ⟨.R4, .d, .e, .a, .b, .c, 62⟩,
    ⟨.R4, .c, .d, .e, .a, .b, 63⟩, ⟨.R4, .b, .c, .d, .e, .a, 64⟩, ⟨.R4, .a, .b, .c, .d, .e, 65⟩,
    ⟨.R4, .e, .a, .b, .c, .d, 66⟩, ⟨.R4, .d, .e, .a, .b, .c, 67⟩, ⟨.R4, .c, .d, .e, .a, .b, 68⟩,
    ⟨.R4, .b, .c, .d, .e, .a, 69⟩, ⟨.R4, .a, .b, .c, .d, .e, 70⟩, ⟨.R4, .e, .a, .b, .c, .d, 71⟩,
    ⟨.R4, .d, .e, .a, .b, .c, 72⟩, ⟨.R4, .c, .d, .e, .a, .b, 73⟩, ⟨.R4, .b, .c, .d, .e, .a, 74⟩,
    ⟨.R4, .a, .b, .c, .d, .e, 75⟩, ⟨.R4, .e, .a, .b, .c, .d, 76⟩, ⟨.R4, .d, .e, .a, .b, .c, 77⟩,
    ⟨.R4, .c, .d, .e, .a, .b, 78⟩, ⟨.R4, .b, .c, .d, .e, .a, 79⟩]

def ws_sha1_transform (state : State) (buffer : List UInt8) : State :=
  let s := lines.foldl Line.exec ⟨state, Vector.ofFn fun i => leWord buffer i⟩
  Vector.ofFn fun k => state.get k + s.reg.get k

/-! ## The standard -/

/-- The words of the rounds. -/
def schedule (block : List UInt8) (t : ℕ) : UInt32 :=
  if t < 16 then beWord block t
  else rol (schedule block (t - 3) ^^^ schedule block (t - 8) ^^^ schedule block (t - 14) ^^^
    schedule block (t - 16)) 1
termination_by t

/-- The function of a round: choice, parity, majority, parity. -/
def f (t : ℕ) (b c d : UInt32) : UInt32 :=
  if t < 20 then (b &&& c) ^^^ (~~~b &&& d)
  else if t < 40 then b ^^^ c ^^^ d
  else if t < 60 then (b &&& c) ^^^ (b &&& d) ^^^ (c &&& d)
  else b ^^^ c ^^^ d

/-- The constant of a round. -/
def K (t : ℕ) : UInt32 :=
  if t < 20 then 0x5A827999
  else if t < 40 then 0x6ED9EBA1
  else if t < 60 then 0x8F1BBCDC
  else 0xCA62C1D6

/-- A round on the working variables. -/
def round (block : List UInt8) (r : State) (t : ℕ) : State :=
  #v[rol (r.get 0) 5 + f t (r.get 1) (r.get 2) (r.get 3) + r.get 4 + K t + schedule block t,
    r.get 0, rol (r.get 1) 30, r.get 2, r.get 3]

def rounds (state : State) (block : List UInt8) (n : ℕ) : State :=
  (List.range n).foldl (round block) state

def compress (state : State) (block : List UInt8) : State :=
  Vector.ofFn fun k => state.get k + (rounds state block 80).get k

/-! ## The lines -/

/-- The macro of a line. -/
def opAt (t : ℕ) : Op :=
  if t < 16 then .R0 else if t < 20 then .R1 else if t < 40 then .R2 else if t < 60 then .R3
  else .R4

/-- The roles move by one variable from line to line. -/
def lineAt (t : ℕ) : Line :=
  let n : Reg := Fin.ofNat 5 t
  ⟨opAt t, 0 - n, 1 - n, 2 - n, 3 - n, 4 - n, t⟩

lemma lines_eq : lines = (List.range 80).map lineAt := by decide +kernel

lemma mix_choice (w x y : UInt32) : (w &&& (x ^^^ y)) ^^^ y = (w &&& x) ^^^ (~~~w &&& y) := by
  apply UInt32.toBitVec_inj.mp
  ext i hi
  simp only [UInt32.toBitVec_xor, UInt32.toBitVec_and, UInt32.toBitVec_not, BitVec.getElem_xor,
    BitVec.getElem_and, BitVec.getElem_not]
  cases w.toBitVec[i] <;> cases x.toBitVec[i] <;> cases y.toBitVec[i] <;> rfl

lemma mix_majority (w x y : UInt32) :
    ((w ||| x) &&& y) ||| (w &&& x) = (w &&& x) ^^^ (w &&& y) ^^^ (x &&& y) := by
  apply UInt32.toBitVec_inj.mp
  ext i hi
  simp only [UInt32.toBitVec_xor, UInt32.toBitVec_and, UInt32.toBitVec_or, BitVec.getElem_xor,
    BitVec.getElem_and, BitVec.getElem_or]
  cases w.toBitVec[i] <;> cases x.toBitVec[i] <;> cases y.toBitVec[i] <;> rfl

lemma mix_opAt (t : ℕ) (w x y : UInt32) : (opAt t).mix w x y = f t w x y := by
  rw [opAt, f]
  split_ifs <;> first | omega | rfl | exact mix_choice w x y | exact mix_majority w x y

lemma const_opAt (t : ℕ) : (opAt t).const = K t := by
  rw [opAt, K]
  split_ifs <;> first | omega | rfl

/-! ## One line is one round -/

/-- The words behind the first `t` lines: the last sixteen words of the schedule, and the words
of the block that were not exchanged yet. -/
structure Words (block : List UInt8) (t : ℕ) (l : Vector UInt32 16) : Prop where
  done : ∀ j, j < t → t ≤ j + 16 → l.get (place j) = schedule block j
  raw : ∀ j, t ≤ j → j < 16 → l.get (place j) = leWord block j

variable {block : List UInt8} {t : ℕ} {l : Vector UInt32 16}

lemma place_eq {i j : ℕ} : place i = place j ↔ i % 16 = j % 16 := by
  simp [place, Fin.ofNat]

/-- The word of the round is written to its place. -/
lemma Words.step (h : Words block t l) : Words block (t + 1) ((opAt t).word l t) ∧
    ((opAt t).word l t).get (place t) = schedule block t := by
  have hset : ∀ {x}, x = schedule block t → Words block (t + 1) (l.set (place t) x) ∧
      (l.set (place t) x).get (place t) = schedule block t := by
    rintro x rfl
    refine ⟨⟨fun j hj hj' => ?_, fun j hj hj' => ?_⟩, by rw [get_set, if_pos rfl]⟩
    · rw [get_set]
      split_ifs with heq
      · rw [place_eq] at heq
        rw [show j = t by omega]
      · rw [place_eq] at heq
        exact h.done j (by omega) (by omega)
    · rw [get_set, if_neg (by rw [place_eq]; omega), h.raw j (by omega) hj']
  by_cases ht : t < 16
  · have hop : opAt t = .R0 := if_pos ht
    rw [hop]
    refine hset ?_
    rw [h.raw t le_rfl ht, swapWord_leWord, schedule, if_pos ht]
  · have hop : (opAt t).word l t = blk l t := by
      rw [opAt, if_neg ht]
      split_ifs <;> rfl
    rw [hop]
    refine hset ?_
    rw [schedule, if_neg ht, ← h.done (t - 3) (by omega) (by omega),
      ← h.done (t - 8) (by omega) (by omega), ← h.done (t - 14) (by omega) (by omega),
      ← h.done (t - 16) (by omega) (by omega),
      place_eq.mpr (show (t + 13) % 16 = (t - 3) % 16 by omega),
      place_eq.mpr (show (t + 8) % 16 = (t - 8) % 16 by omega),
      place_eq.mpr (show (t + 2) % 16 = (t - 14) % 16 by omega),
      place_eq.mpr (show t % 16 = (t - 16) % 16 by omega)]

/-- The variables behind the first `t` lines hold the working variables, in their new roles. -/
structure Sim (state : State) (block : List UInt8) (t : ℕ) (s : Locals) : Prop where
  reg : ∀ k : Reg, s.reg.get (k - Fin.ofNat 5 t) = (rounds state block t).get k
  words : Words block t s.l

lemma Sim.step {state : State} {s : Locals} (h : Sim state block t s) :
    Sim state block (t + 1) (Line.exec s (lineAt t)) := by
  obtain ⟨hwords, hval⟩ := h.words.step
  refine ⟨fun k => ?_, hwords⟩
  have hr : rounds state block (t + 1) = round block (rounds state block t) t := by
    rw [rounds, List.range_succ, List.foldl_append]
    rfl
  rw [sub_ofNat_succ, hr, Line.exec]
  simp only [lineAt, get_set, sub_left_inj, h.reg, hval, mix_opAt, const_opAt]
  fin_cases k
  · -- the variable that the line adds to
    have hsum : ∀ z m word const v : UInt32,
        z + (m + word + const + v) = v + m + z + const + word := by
      intro z m word const v
      ac_rfl
    rw [if_neg (by decide), if_pos (by decide), hsum]
    rfl
  · rw [if_neg (by decide), if_neg (by decide)]
    rfl
  · -- the variable that the line rotates
    rw [if_pos (by decide), if_neg (by decide)]
    rfl
  · rw [if_neg (by decide), if_neg (by decide)]
    rfl
  · rw [if_neg (by decide), if_neg (by decide)]
    rfl

theorem ws_sha1_transform_eq (state : State) (buffer : List UInt8) :
    ws_sha1_transform state buffer = compress state buffer := by
  have hrun : ∀ n, Sim state buffer n (((List.range n).map lineAt).foldl Line.exec
      ⟨state, Vector.ofFn fun i => leWord buffer i⟩) := by
    intro n
    induction n with
    | zero =>
      refine ⟨fun k => congrArg state.get (sub_zero k),
        fun j hj => absurd hj (Nat.not_lt_zero j), fun j _ hj => ?_⟩
      rw [List.range_zero, List.map_nil, List.foldl_nil, get_ofFn]
      exact congrArg (leWord buffer) (Nat.mod_eq_of_lt hj)
    | succ n ih =>
      rw [List.range_succ, List.map_append, List.foldl_append]
      exact ih.step
  have hreg : ∀ k, (lines.foldl Line.exec ⟨state, Vector.ofFn fun i => leWord buffer i⟩).reg.get k =
      (rounds state buffer 80).get k := by
    intro k
    have h := (hrun 80).reg k
    rwa [show Fin.ofNat 5 80 = 0 from rfl, sub_zero, ← lines_eq] at h
  simp only [ws_sha1_transform, compress, hreg]

end SignalEventLoop.Hash.Sha1
