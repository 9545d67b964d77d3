/-
# The texts of JSON

A `JsonText` is a text of JSON with everything about its spelling: the blanks between its parts,
the escapes of its strings, and the parts of its numbers.  `text` gives its characters and `value`
what they stand for.  This is the format by itself; the parser comes into it only where `value`
has the items of cJSON, and where `Readable` leaves out what the parser does not keep.
-/
import SignalEventLoop.Json.CJson

namespace SignalEventLoop

open Lib

namespace CJson

/-! ## Strings -/

/-- Four digits in base 16. -/
abbrev Hex4 := { s : Bytes // s.length = 4 ∧ ∀ c ∈ s, isHexDigit c = true }

/-- The number that the digits stand for. -/
def Hex4.value (u : Hex4) : ℕ := hexValue u.1

/-- A part of a string: a character by itself, an escape with a letter, and one or two escapes
with numbers; a surrogate without its other half stands for no character. -/
inductive Piece
  | plain (c : UInt8) (h : 32 ≤ c ∧ c ≠ 34 ∧ c ≠ 92)
  | letter (d : UInt8) (h : d ∈ [34, 92, 47, 98, 102, 110, 114, 116])
  | unit (u : Hex4) (h : ¬ (0xD800 ≤ u.value ∧ u.value ≤ 0xDFFF))
  | pair (hi lo : Hex4) (hhi : 0xD800 ≤ hi.value ∧ hi.value ≤ 0xDBFF)
      (hlo : 0xDC00 ≤ lo.value ∧ lo.value ≤ 0xDFFF)

/-- The code point of two surrogates. -/
def surrogatePair (hi lo : ℕ) : ℕ := 0x10000 + (hi - 0xD800) * 0x400 + (lo - 0xDC00)

namespace Piece

def text : Piece → Bytes
  | plain c _ => [c]
  | letter d _ => [92, d]
  | unit u _ => 92 :: 117 :: u.1
  | pair hi lo _ _ => 92 :: 117 :: hi.1 ++ 92 :: 117 :: lo.1

/-- The bytes in UTF-8. -/
def meaning : Piece → Bytes
  | plain c _ => [c]
  | letter d _ => [unescapeLetter d]
  | unit u _ => String.utf8EncodeChar (Char.ofNat u.value)
  | pair hi lo _ _ => String.utf8EncodeChar (Char.ofNat (surrogatePair hi.value lo.value))

/-- The escape of a NUL, which `parse_string` leaves out, is not read, and the bit of a pair that
it loses is not set. -/
def Readable : Piece → Prop
  | unit u _ => u.value ≠ 0
  | pair hi _ _ _ => hi.value / 64 % 2 = 0
  | _ => True

end Piece

/-- A string with its quotes. -/
def literal (ps : List Piece) : Bytes := 34 :: ps.flatMap Piece.text ++ [34]

/-! ## Numbers -/

/-- An exponent: the letter is a capital one, the sign if there is one, and the digits. -/
structure ExponentText where
  capital : Bool
  sign : Option Bool
  digits : { s : Bytes // s ≠ [] ∧ ∀ c ∈ s, isDecimalDigit c = true }

/-- A number: its sign, what is in front of the point, the digits behind it, which there may be
none of, and the exponent. -/
structure NumberText where
  negative : Bool
  whole : ℕ
  decimals : { s : Bytes // ∀ c ∈ s, isDecimalDigit c = true }
  exponent : Option ExponentText

namespace ExponentText

def text (e : ExponentText) : Bytes :=
  (if e.capital then 69 else 101) ::
    (e.sign.elim [] fun negative => [if negative then 45 else 43]) ++ e.digits.1

def value (e : ExponentText) : ℤ :=
  if e.sign = some true then - (decimalValue e.digits.1 : ℤ) else decimalValue e.digits.1

end ExponentText

namespace NumberText

def text (n : NumberText) : Bytes :=
  (if n.negative then [45] else []) ++ decimal n.whole ++
    (if n.decimals.1 = [] then [] else 46 :: n.decimals.1) ++
    n.exponent.elim [] ExponentText.text

/-- The exponent that is written. -/
def scale (n : NumberText) : ℤ := n.exponent.elim 0 ExponentText.value

/-- The digits that are added up; a zero in front of the point is not one of them. -/
def digits (n : NumberText) : Bytes :=
  (if n.whole = 0 then [] else decimal n.whole) ++ n.decimals.1

/-- An integer has no digits behind the point and no exponent but zero. -/
def IsInt (n : NumberText) : Prop := n.decimals.1 = [] ∧ n.scale = 0

instance (n : NumberText) : Decidable n.IsInt := inferInstanceAs (Decidable (_ ∧ _))

def value {D : Type} (lib : Doubles D) (n : NumberText) : Value D :=
  if n.IsInt then
    if n.negative then .int (-1) (- Int64.ofNat n.whole) else .int 1 (Int64.ofNat n.whole)
  else .double (lib.number n.negative n.digits (n.scale - n.decimals.1.length))

/-- The number fits into the types of `parse_number`. -/
def Readable (n : NumberText) : Prop :=
  (n.IsInt → n.whole < 2 ^ 63) ∧ ∀ e ∈ n.exponent, decimalValue e.digits.1 < 2 ^ 31

instance (n : NumberText) : Decidable n.Readable := inferInstanceAs (Decidable (_ ∧ _))

end NumberText

/-! ## Values -/

/-- Blanks between the parts. -/
abbrev Blanks := { s : Bytes // ∀ c ∈ s, c ∈ [32, 9, 10, 13] }

def noBlanks : Blanks := ⟨[], by simp⟩

mutual

inductive JsonText
  | null
  | bool (b : Bool)
  | number (n : NumberText)
  | string (s : List Piece)
  | emptyArray (inner : Blanks)
  | array (es : Elements)
  | emptyObject (inner : Blanks)
  | object (ms : Members)

inductive Elements
  | last (before : Blanks) (v : JsonText) (after : Blanks)
  | cons (before : Blanks) (v : JsonText) (after : Blanks) (next : Elements)

inductive Members
  | last (before : Blanks) (name : List Piece) (colon middle : Blanks) (v : JsonText)
      (after : Blanks)
  | cons (before : Blanks) (name : List Piece) (colon middle : Blanks) (v : JsonText)
      (after : Blanks) (next : Members)

end

mutual

/-- The characters of a text. -/
def JsonText.text : JsonText → Bytes
  | .null => Lib.text "null"
  | .bool false => Lib.text "false"
  | .bool true => Lib.text "true"
  | .number n => n.text
  | .string s => literal s
  | .emptyArray inner => 91 :: inner.1 ++ [93]
  | .array es => 91 :: es.text
  | .emptyObject inner => 123 :: inner.1 ++ [125]
  | .object ms => 123 :: ms.text

/-- The elements up to the bracket behind them. -/
def Elements.text : Elements → Bytes
  | .last before v after => before.1 ++ v.text ++ after.1 ++ [93]
  | .cons before v after next => before.1 ++ v.text ++ after.1 ++ 44 :: next.text

/-- The members up to the brace behind them. -/
def Members.text : Members → Bytes
  | .last before name colon middle v after =>
    before.1 ++ literal name ++ colon.1 ++ 58 :: middle.1 ++ v.text ++ after.1 ++ [125]
  | .cons before name colon middle v after next =>
    before.1 ++ literal name ++ colon.1 ++ 58 :: middle.1 ++ v.text ++ after.1
      ++ 44 :: next.text

end

section value

variable {D : Type} (lib : Doubles D)

mutual

/-- The item that a text stands for. -/
def JsonText.value : JsonText → Value D
  | .null => .null
  | .bool b => .bool b
  | .number n => n.value lib
  | .string s => .string (s.flatMap Piece.meaning)
  | .emptyArray _ => .array .nil
  | .array es => .array es.value
  | .emptyObject _ => .object .nil
  | .object ms => .object ms.value

def Elements.value : Elements → Items D
  | .last _ v _ => .cons none v.value .nil
  | .cons _ v _ next => .cons none v.value next.value

def Members.value : Members → Items D
  | .last _ name _ _ v _ => .cons (some (name.flatMap Piece.meaning)) v.value .nil
  | .cons _ name _ _ v _ next => .cons (some (name.flatMap Piece.meaning)) v.value next.value

end

end value

mutual

/-- The parser keeps all the numbers and strings of the text. -/
def JsonText.Readable : JsonText → Prop
  | .number n => n.Readable
  | .string s => ∀ p ∈ s, p.Readable
  | .array es => es.Readable
  | .object ms => ms.Readable
  | _ => True

def Elements.Readable : Elements → Prop
  | .last _ v _ => v.Readable
  | .cons _ v _ next => v.Readable ∧ next.Readable

def Members.Readable : Members → Prop
  | .last _ name _ _ v _ => (∀ p ∈ name, p.Readable) ∧ v.Readable
  | .cons _ name _ _ v _ next => (∀ p ∈ name, p.Readable) ∧ v.Readable ∧ next.Readable

end

end CJson

end SignalEventLoop
