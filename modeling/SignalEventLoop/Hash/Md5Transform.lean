/-
# The block function of MD5

`MY_MD5Context::transform64Bytes` (`third_party/md5/md5.cpp`) is unrolled into sixty-four lines.
A line is one of the macros `FF`, `GG`, `HH` and `II` on four variables, which change their roles
from line to line.  `compress` is the function in the words of its standard; the two agree.
-/
import SignalEventLoop.Lib.Words

namespace SignalEventLoop.Hash.Md5

open Lib

/-- The variables `a` to `d`; the four words of a state have the same places. -/
abbrev Reg := Fin 4

namespace Reg

def a : Reg := 0
def b : Reg := 1
def c : Reg := 2
def d : Reg := 3

end Reg

/-- `fState[4]` -/
abbrev State := Vector UInt32 4

/-! ## The code -/

inductive Op where
  | FF
  | GG
  | HH
  | II
deriving DecidableEq

/-- A line `FF(a, b, c, d, x[k], s, ac);` -/
structure Line where
  op : Op
  a : Reg
  b : Reg
  c : Reg
  d : Reg
  k : ℕ
  s : UInt32
  ac : UInt32
deriving DecidableEq

/-- The macros `F`, `G`, `H` and `I`. -/
def Op.mix : Op → UInt32 → UInt32 → UInt32 → UInt32
  | .FF, x, y, z => (x &&& y) ||| (~~~x &&& z)
  | .GG, x, y, z => (x &&& z) ||| (y &&& ~~~z)
  | .HH, x, y, z => x ^^^ y ^^^ z
  | .II, x, y, z => y ^^^ (x ||| ~~~z)

def Line.exec (x : ℕ → UInt32) (reg : State) (n : Line) : State :=
  let a := reg.get n.a + (n.op.mix (reg.get n.b) (reg.get n.c) (reg.get n.d) + x n.k + n.ac)
  reg.set n.a (rol a n.s + reg.get n.b)

def S11 : UInt32 := 7
def S12 : UInt32 := 12
def S13 : UInt32 := 17
def S14 : UInt32 := 22
def S21 : UInt32 := 5
def S22 : UInt32 := 9
def S23 : UInt32 := 14
def S24 : UInt32 := 20
def S31 : UInt32 := 4
def S32 : UInt32 := 11
def S33 : UInt32 := 16
def S34 : UInt32 := 23
def S41 : UInt32 := 6
def S42 : UInt32 := 10
def S43 : UInt32 := 15
def S44 : UInt32 := 21

/-- The body of `transform64Bytes`. -/
def lines : List Line :=
  [⟨.FF, .a, .b, .c, .d, 0, S11, 0xd76aa478⟩, ⟨.FF, .d, .a, .b, .c, 1, S12, 0xe8c7b756⟩,
    ⟨.FF, .c, .d, .a, .b, 2, S13, 0x242070db⟩, ⟨.FF, .b, .c, .d, .a, 3, S14, 0xc1bdceee⟩,
    ⟨.FF, .a, .b, .c, .d, 4, S11, 0xf57c0faf⟩, ⟨.FF, .d, .a, .b, .c, 5, S12, 0x4787c62a⟩,
    ⟨.FF, .c, .d, .a, .b, 6, S13, 0xa8304613⟩, ⟨.FF, .b, .c, .d, .a, 7, S14, 0xfd469501⟩,
    ⟨.FF, .a, .b, .c, .d, 8, S11, 0x698098d8⟩, ⟨.FF, .d, .a, .b, .c, 9, S12, 0x8b44f7af⟩,
    ⟨.FF, .c, .d, .a, .b, 10, S13, 0xffff5bb1⟩, ⟨.FF, .b, .c, .d, .a, 11, S14, 0x895cd7be⟩,
    ⟨.FF, .a, .b, .c, .d, 12, S11, 0x6b901122⟩, ⟨.FF, .d, .a, .b, .c, 13, S12, 0xfd987193⟩,
    ⟨.FF, .c, .d, .a, .b, 14, S13, 0xa679438e⟩, ⟨.FF, .b, .c, .d, .a, 15, S14, 0x49b40821⟩,
    ⟨.GG, .a, .b, .c, .d, 1, S21, 0xf61e2562⟩, ⟨.GG, .d, .a, .b, .c, 6, S22, 0xc040b340⟩,
    ⟨.GG, .c, .d, .a, .b, 11, S23, 0x265e5a51⟩, ⟨.GG, .b, .c, .d, .a, 0, S24, 0xe9b6c7aa⟩,
    ⟨.GG, .a, .b, .c, .d, 5, S21, 0xd62f105d⟩, ⟨.GG, .d, .a, .b, .c, 10, S22, 0x2441453⟩,
    ⟨.GG, .c, .d, .a, .b, 15, S23, 0xd8a1e681⟩, ⟨.GG, .b, .c, .d, .a, 4, S24, 0xe7d3fbc8⟩,
    ⟨.GG, .a, .b, .c, .d, 9, S21, 0x21e1cde6⟩, ⟨.GG, .d, .a, .b, .c, 14, S22, 0xc33707d6⟩,
    ⟨.GG, .c, .d, .a, .b, 3, S23, 0xf4d50d87⟩, ⟨.GG, .b, .c, .d, .a, 8, S24, 0x455a14ed⟩,
    ⟨.GG, .a, .b, .c, .d, 13, S21, 0xa9e3e905⟩, ⟨.GG, .d, .a, .b, .c, 2, S22, 0xfcefa3f8⟩,
    ⟨.GG, .c, .d, .a, .b, 7, S23, 0x676f02d9⟩, ⟨.GG, .b, .c, .d, .a, 12, S24, 0x8d2a4c8a⟩,
    ⟨.HH, .a, .b, .c, .d, 5, S31, 0xfffa3942⟩, ⟨.HH, .d, .a, .b, .c, 8, S32, 0x8771f681⟩,
    ⟨.HH, .c, .d, .a, .b, 11, S33, 0x6d9d6122⟩, ⟨.HH, .b, .c, .d, .a, 14, S34, 0xfde5380c⟩,
    ⟨.HH, .a, .b, .c, .d, 1, S31, 0xa4beea44⟩, ⟨.HH, .d, .a, .b, .c, 4, S32, 0x4bdecfa9⟩,
    ⟨.HH, .c, .d, .a, .b, 7, S33, 0xf6bb4b60⟩, ⟨.HH, .b, .c, .d, .a, 10, S34, 0xbebfbc70⟩,
    ⟨.HH, .a, .b, .c, .d, 13, S31, 0x289b7ec6⟩, ⟨.HH, .d, .a, .b, .c, 0, S32, 0xeaa127fa⟩,
    ⟨.HH, .c, .d, .a, .b, 3, S33, 0xd4ef3085⟩, ⟨.HH, .b, .c, .d, .a, 6, S34, 0x4881d05⟩,
    ⟨.HH, .a, .b, .c, .d, 9, S31, 0xd9d4d039⟩, ⟨.HH, .d, .a, .b, .c, 12, S32, 0xe6db99e5⟩,
    ⟨.HH, .c, .d, .a, .b, 15, S33, 0x1fa27cf8⟩, ⟨.HH, .b, .c, .d, .a, 2, S34, 0xc4ac5665⟩,
    ⟨.II, .a, .b, .c, .d, 0, S41, 0xf4292244⟩, ⟨.II, .d, .a, .b, .c, 7, S42, 0x432aff97⟩,
    ⟨.II, .c, .d, .a, .b, 14, S43, 0xab9423a7⟩, ⟨.II, .b, .c, .d, .a, 5, S44, 0xfc93a039⟩,
    ⟨.II, .a, .b, .c, .d, 12, S41, 0x655b59c3⟩, ⟨.II, .d, .a, .b, .c, 3, S42, 0x8f0ccc92⟩,
    ⟨.II, .c, .d, .a, .b, 10, S43, 0xffeff47d⟩, ⟨.II, .b, .c, .d, .a, 1, S44, 0x85845dd1⟩,
    ⟨.II, .a, .b, .c, .d, 8, S41, 0x6fa87e4f⟩, ⟨.II, .d, .a, .b, .c, 15, S42, 0xfe2ce6e0⟩,
    ⟨.II, .c, .d, .a, .b, 6, S43, 0xa3014314⟩, ⟨.II, .b, .c, .d, .a, 13, S44, 0x4e0811a1⟩,
    ⟨.II, .a, .b, .c, .d, 4, S41, 0xf7537e82⟩, ⟨.II, .d, .a, .b, .c, 11, S42, 0xbd3af235⟩,
    ⟨.II, .c, .d, .a, .b, 2, S43, 0x2ad7d2bb⟩, ⟨.II, .b, .c, .d, .a, 9, S44, 0xeb86d391⟩]

def transform64Bytes (fState : State) (block : List UInt8) : State :=
  let reg := lines.foldl (Line.exec (leWord block)) fState
  Vector.ofFn fun k => fState.get k + reg.get k

/-! ## The standard -/

/-- The function of a round. -/
def f (t : ℕ) (x y z : UInt32) : UInt32 :=
  if t < 16 then (x &&& y) ||| (~~~x &&& z)
  else if t < 32 then (x &&& z) ||| (y &&& ~~~z)
  else if t < 48 then x ^^^ y ^^^ z
  else y ^^^ (x ||| ~~~z)

/-- The word that a round adds. -/
def word (t : ℕ) : ℕ :=
  if t < 16 then t
  else if t < 32 then (5 * t + 1) % 16
  else if t < 48 then (3 * t + 5) % 16
  else 7 * t % 16

/-- How far a round rotates. -/
def shift (t : ℕ) : UInt32 :=
  ([[7, 12, 17, 22], [5, 9, 14, 20], [4, 11, 16, 23], [6, 10, 15, 21]].getD (t / 16) []).getD
    (t % 4) 0

/-- The integer parts of `2 ^ 32` times the absolute values of the sines of 1 to 64. -/
def sines : List UInt32 :=
  [0xd76aa478, 0xe8c7b756, 0x242070db, 0xc1bdceee,
    0xf57c0faf, 0x4787c62a, 0xa8304613, 0xfd469501,
    0x698098d8, 0x8b44f7af, 0xffff5bb1, 0x895cd7be,
    0x6b901122, 0xfd987193, 0xa679438e, 0x49b40821,
    0xf61e2562, 0xc040b340, 0x265e5a51, 0xe9b6c7aa,
    0xd62f105d, 0x02441453, 0xd8a1e681, 0xe7d3fbc8,
    0x21e1cde6, 0xc33707d6, 0xf4d50d87, 0x455a14ed,
    0xa9e3e905, 0xfcefa3f8, 0x676f02d9, 0x8d2a4c8a,
    0xfffa3942, 0x8771f681, 0x6d9d6122, 0xfde5380c,
    0xa4beea44, 0x4bdecfa9, 0xf6bb4b60, 0xbebfbc70,
    0x289b7ec6, 0xeaa127fa, 0xd4ef3085, 0x04881d05,
    0xd9d4d039, 0xe6db99e5, 0x1fa27cf8, 0xc4ac5665,
    0xf4292244, 0x432aff97, 0xab9423a7, 0xfc93a039,
    0x655b59c3, 0x8f0ccc92, 0xffeff47d, 0x85845dd1,
    0x6fa87e4f, 0xfe2ce6e0, 0xa3014314, 0x4e0811a1,
    0xf7537e82, 0xbd3af235, 0x2ad7d2bb, 0xeb86d391]

/-- The constant of a step. -/
def table (t : ℕ) : UInt32 := sines.getD t 0

/-- A round on the working variables. -/
def round (block : List UInt8) (r : State) (t : ℕ) : State :=
  #v[r.get 3, r.get 1 + rol (r.get 0 + f t (r.get 1) (r.get 2) (r.get 3) +
    leWord block (word t) + table t) (shift t), r.get 1, r.get 2]

def rounds (state : State) (block : List UInt8) (n : ℕ) : State :=
  (List.range n).foldl (round block) state

def compress (state : State) (block : List UInt8) : State :=
  Vector.ofFn fun k => state.get k + (rounds state block 64).get k

/-! ## One line is one round -/

/-- The macro of a line. -/
def opAt (t : ℕ) : Op := if t < 16 then .FF else if t < 32 then .GG else if t < 48 then .HH else .II

/-- The roles move by one variable from line to line. -/
def lineAt (t : ℕ) : Line :=
  let n : Reg := Fin.ofNat 4 t
  ⟨opAt t, 0 - n, 1 - n, 2 - n, 3 - n, word t, shift t, table t⟩

lemma lines_eq : lines = (List.range 64).map lineAt := by decide +kernel

lemma mix_opAt (t : ℕ) (x y z : UInt32) : (opAt t).mix x y z = f t x y z := by
  rw [opAt, f]
  split_ifs <;> rfl

/-- The variables behind a line hold the working variables, in their new roles. -/
lemma exec_lineAt {block : List UInt8} {reg r : State} {t : ℕ}
    (h : ∀ k : Reg, reg.get (k - Fin.ofNat 4 t) = r.get k) (k : Reg) :
    ((lineAt t).exec (leWord block) reg).get (k - Fin.ofNat 4 (t + 1)) =
      (round block r t).get k := by
  rw [sub_ofNat_succ, Line.exec]
  simp only [lineAt, get_set, sub_left_inj, h, mix_opAt]
  fin_cases k
  · rw [if_neg (by decide)]
    rfl
  · -- the variable that the line changes
    have hsum : ∀ a m x ac : UInt32, a + (m + x + ac) = a + m + x + ac := by
      intro a m x ac
      ac_rfl
    rw [if_pos (by decide), hsum, UInt32.add_comm (rol _ _)]
    rfl
  · rw [if_neg (by decide)]
    rfl
  · rw [if_neg (by decide)]
    rfl

theorem transform64Bytes_eq (fState : State) (block : List UInt8) :
    transform64Bytes fState block = compress fState block := by
  have hrun : ∀ n, ∀ k : Reg,
      (((List.range n).map lineAt).foldl (Line.exec (leWord block)) fState).get
        (k - Fin.ofNat 4 n) = (rounds fState block n).get k := by
    intro n
    induction n with
    | zero => exact fun k => congrArg fState.get (sub_zero k)
    | succ n ih =>
      rw [rounds, List.range_succ, List.map_append, List.foldl_append, List.foldl_append]
      exact exec_lineAt ih
  have hreg : ∀ k, (lines.foldl (Line.exec (leWord block)) fState).get k =
      (rounds fState block 64).get k := by
    intro k
    have h := hrun 64 k
    rwa [show Fin.ofNat 4 64 = 0 from rfl, sub_zero, ← lines_eq] at h
  simp only [transform64Bytes, compress, hreg]

end SignalEventLoop.Hash.Md5
