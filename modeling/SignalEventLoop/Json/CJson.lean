/-
# cJSON

`third_party/json/cjson.cpp`: what an item stands for, its text (`cJSON_Print` and
`cJSON_PrintUnformatted`), and the reading of a text (`cJSON_Parse`).

A pointer into a text is the memory from there to the end of its block, and every character that
is looked at is checked against that end.  A text that is built is checked against the size of the
block that was allocated for it.  The allocation itself succeeds here.
-/
import SignalEventLoop.Lib.HexText

namespace SignalEventLoop

open Lib

namespace CJson

/-! ## Items -/

mutual

/-- The `type` of an item, and the fields that the type uses. -/
inductive Value (D : Type)
  | null
  | bool (b : Bool)
  | int (sign : ℤ) (valueint : Int64)
  | double (valuedouble : D)
  | string (valuestring : Bytes)
  | array (child : Items D)
  | object (child : Items D)

/-- A chain of items from one `next` to the other; each has a `string`, which may be null. -/
inductive Items (D : Type)
  | nil
  | cons (string : Option Bytes) (item : Value D) (next : Items D)

end

/-- What the C library does with a `double`: `printf` is `sprintf` with `%lf`, and `number` is
`sign * n * pow(10.0, exponent)`, where the digits are those that were added up in `n`. -/
structure Doubles (D : Type) where
  printf : D → Bytes
  number : (negative : Bool) → (digits : Bytes) → (exponent : ℤ) → D

/-- A step that the language does not define, or, for `fuel`, a model that was stopped. -/
inductive Fault
  /-- A character behind the end of the memory is looked at. -/
  | outOfBounds
  /-- A text does not fit into its block. -/
  | overrun
  /-- A number is used that `sscanf` has not written. -/
  | uninitialised
  /-- A number does not fit into its type. -/
  | outOfRange
  | fuel
deriving DecidableEq

/-! ## Printing -/

/-- A text with its NUL, written to a block of `len` bytes; `len` is an `int`. -/
def block (len : ℕ) (s : Bytes) : Except Fault Bytes :=
  if 2 ^ 31 ≤ len then .error .outOfRange
  else if len < s.length + 1 then .error .overrun
  else .ok s

/-- The text of an integer with a sign. -/
def signedText (v : ℤ) : Bytes :=
  if v < 0 then 45 :: decimal v.natAbs else decimal v.natAbs

/-- `print_int` -/
def print_int (sign : ℤ) (valueint : Int64) : Except Fault Bytes :=
  block 22 <|
    if sign = -1 then
      if valueint.toInt ≤ 2 ^ 31 - 1 ∧ - 2 ^ 31 ≤ valueint.toInt then
        signedText valueint.toInt32.toInt
      else signedText valueint.toInt
    else
      if valueint.toUInt64 ≤ 4294967295 then decimal valueint.toUInt64.toUInt32.toNat
      else decimal valueint.toUInt64.toNat

/-- The characters with an escape of one letter, and these letters. -/
def letterEscapes : List (UInt8 × UInt8) :=
  [(92, 92), (34, 34), (8, 98), (12, 102), (10, 110), (13, 114), (9, 116)]

/-- The first loop of `print_string_ptr`. -/
def escapedLen : Bytes → ℕ
  | [] => 0
  | c :: s =>
    1 + (if c ∈ [34, 92, 8, 12, 10, 13, 9] then 1 else if c < 32 then 5 else 0) + escapedLen s

/-- What the second loop writes for a character. -/
def escapeChar (c : UInt8) : Bytes :=
  if 31 < c ∧ c ≠ 34 ∧ c ≠ 92 then [c]
  else 92 :: ((letterEscapes.lookup c).elim (117 :: hexText false 4 c.toNat) fun d => [d])

/-- `print_string_ptr` -/
def print_string_ptr : Option Bytes → Except Fault Bytes
  | none => block 1 []
  | some str =>
    block (escapedLen (cString str) + 3) (34 :: (cString str).flatMap escapeChar ++ [34])

/-- The characters between two entries of an array. -/
def separator (fmt : Bool) : Bytes := if fmt then [44, 32] else [44]

/-- The end of `print_array`, behind the texts of the entries. -/
def arrayText (fmt : Bool) (entries : List Bytes) : Except Fault Bytes :=
  block (5 + (entries.map fun e => e.length + 2 + if fmt then 1 else 0).sum)
    (91 :: List.intercalate (separator fmt) entries ++ [93])

/-- The loop of `print_object` that composes the output. -/
def objectLines (fmt : Bool) (depth : ℕ) : List (Bytes × Bytes) → Bytes
  | [] => []
  | (name, entry) :: entries =>
    (if fmt then List.replicate depth 9 else []) ++ name ++ 58 :: (if fmt then [9] else [])
      ++ entry ++ (if entries = [] then [] else [44]) ++ (if fmt then [10] else [])
      ++ objectLines fmt depth entries

/-- The end of `print_object`; `depth` is already that of the entries. -/
def objectText (fmt : Bool) (depth : ℕ) (entries : List (Bytes × Bytes)) : Except Fault Bytes :=
  block
    (7 + (if fmt then depth else 0) + (entries.map fun e =>
      e.2.length + e.1.length + 2 + if fmt then 2 + depth else 0).sum)
    (123 :: (if fmt then [10] else []) ++ objectLines fmt depth entries
      ++ (if fmt then List.replicate (depth - 1) 9 else []) ++ [125])

section print

variable {D : Type} (lib : Doubles D) (fmt : Bool)

mutual

/-- `print_value` -/
def print_value : ℕ → Value D → Except Fault Bytes
  | _, .null => block 5 (text "null")
  | _, .bool false => block 6 (text "false")
  | _, .bool true => block 5 (text "true")
  | _, .int sign valueint => print_int sign valueint
  | _, .double valuedouble => block 64 (lib.printf valuedouble)
  | _, .string valuestring => print_string_ptr (some valuestring)
  | depth, .array child => (print_items (depth + 1) child).bind (arrayText fmt)
  | depth, .object child => (print_members (depth + 1) child).bind (objectText fmt (depth + 1))

/-- The loop of `print_array` over the items. -/
def print_items : ℕ → Items D → Except Fault (List Bytes)
  | _, .nil => .ok []
  | depth, .cons _ item next =>
    (print_value depth item).bind fun entry =>
      (print_items depth next).map fun entries => entry :: entries

/-- The loop of `print_object` over the items. -/
def print_members : ℕ → Items D → Except Fault (List (Bytes × Bytes))
  | _, .nil => .ok []
  | depth, .cons string item next =>
    (print_string_ptr string).bind fun name =>
      (print_value depth item).bind fun entry =>
        (print_members depth next).map fun entries => (name, entry) :: entries

end

end print

/-- `cJSON_Print` -/
def cJSON_Print {D : Type} (lib : Doubles D) (item : Value D) : Except Fault Bytes :=
  print_value lib true 0 item

/-- `cJSON_PrintUnformatted` -/
def cJSON_PrintUnformatted {D : Type} (lib : Doubles D) (item : Value D) : Except Fault Bytes :=
  print_value lib false 0 item

/-! ## Reading -/

/-- What a function of the parser comes to: an item with the pointer behind its text, or a null
pointer with the place that it leaves in `ep`. -/
inductive Parsed (α : Type)
  | item (a : α) (rest : Bytes)
  | failed (ep : Bytes)
  | fault (f : Fault)
deriving DecidableEq

namespace Parsed

variable {α β : Type}

def andThen (x : Parsed α) (f : α → Bytes → Parsed β) : Parsed β :=
  match x with
  | .item a rest => f a rest
  | .failed ep => .failed ep
  | .fault e => .fault e

def map (f : α → β) (x : Parsed α) : Parsed β := x.andThen fun a rest => .item (f a) rest

end Parsed

section parse

variable {α D : Type}

/-- The character that a pointer points to. -/
def look (s : Bytes) (k : UInt8 → Parsed α) : Parsed α :=
  match s with
  | [] => .fault .outOfBounds
  | c :: _ => k c

/-- `!strncmp(s, word, strlen(word))` -/
def startsWith : Bytes → Bytes → (Bool → Parsed α) → Parsed α
  | [], _, k => k true
  | c :: word, s, k => look s fun d => if d = c then startsWith word s.tail k else k false

/-- `skip` -/
def skip : Bytes → Parsed Unit
  | [] => .fault .outOfBounds
  | c :: s => if c ≠ 0 ∧ c ≤ 32 then skip s else .item () (c :: s)

/-! ### Numbers -/

/-- A loop over digits. -/
def digitRun : Bytes → Parsed Bytes
  | [] => .fault .outOfBounds
  | c :: s => if isDecimalDigit c then (digitRun s).map (c :: ·) else .item [] (c :: s)

/-- The digits in front of the point: one zero, and then digits that do not begin with a zero. -/
def wholePart (num : Bytes) : Parsed Bytes :=
  look num fun c =>
    let num := if c = 48 then num.tail else num
    look num fun c => if 49 ≤ c ∧ c ≤ 57 then digitRun num else .item [] num

/-- The digits behind the point. -/
def fraction (num : Bytes) : Parsed Bytes :=
  look num fun c =>
    if c = 46 then
      look num.tail fun d => if isDecimalDigit d then digitRun num.tail else .item [] num
    else .item [] num

/-- `subscale * signsubscale`; the number is added up in an `int`. -/
def exponent (num : Bytes) : Parsed ℤ :=
  look num fun c =>
    if c = 101 ∨ c = 69 then
      look num.tail fun d =>
        (digitRun (if d = 43 ∨ d = 45 then num.tail.tail else num.tail)).andThen fun digits rest =>
          if 2 ^ 31 ≤ decimalValue digits then .fault .outOfRange
          else .item (if d = 45 then - (decimalValue digits : ℤ) else decimalValue digits) rest
    else .item 0 num

/-- `parse_number`.  The number is added up in a `long double`, which is exact below `2 ^ 64`;
what does not fit into an `int64` is converted to one without a defined result. -/
def parse_number (lib : Doubles D) (num : Bytes) : Parsed (Value D) :=
  look num fun c =>
    (wholePart (if c = 45 then num.tail else num)).andThen fun whole num =>
      (fraction num).andThen fun decimals num =>
        (exponent num).andThen fun subscale num =>
          if decimals = [] ∧ subscale = 0 then
            if 2 ^ 63 ≤ decimalValue whole then .fault .outOfRange
            else if c = 45 then .item (.int (-1) (- Int64.ofNat (decimalValue whole))) num
            else .item (.int 1 (Int64.ofNat (decimalValue whole))) num
          else
            .item (.double (lib.number (c = 45) (whole ++ decimals)
              (subscale - decimals.length))) num

/-! ### Strings -/

/-- The first loop of `parse_string`; `none` when it leaves the memory. -/
def stringLen : Bytes → Option ℕ
  | [] => none
  | [c] => if c = 34 ∨ c = 0 then some 0 else none
  | c :: d :: s =>
    if c = 34 ∨ c = 0 then some 0
    else if c = 92 then (stringLen s).map (· + 1)
    else (stringLen (d :: s)).map (· + 1)

/-- The numbers `uc` and `uc2`, which keep what they are when `sscanf` reads nothing. -/
abbrev Codes := Option UInt32 × Option UInt32

/-- `sscanf(s, "%4x", &uc)`, with what `uc` is before. -/
def scanCode (uc : Option UInt32) (s : Bytes) : Except Fault UInt32 :=
  if 0 ∈ s then
    match scanHex 4 (cString s) with
    | some (negative, n) => .ok (if negative then - UInt32.ofNat n else UInt32.ofNat n)
    | none => uc.elim (.error .uninitialised) .ok
  else .error .outOfBounds

/-- The number of bytes for a character. -/
def utf8Len (uc : UInt32) : ℕ :=
  if uc < 0x80 then 1 else if uc < 0x800 then 2 else if uc < 0x10000 then 3 else 4

/-- `firstByteMark` -/
def firstByteMark : List UInt32 := [0x00, 0x00, 0xC0, 0xE0, 0xF0, 0xF8, 0xFC]

/-- The `switch` that writes the bytes from the last one to the first; `out` is what is written
behind them.  Also what is left in `uc`. -/
def putUtf8 (mark : UInt32) : ℕ → UInt32 → Bytes → Bytes × UInt32
  | 0, uc, out => ((uc ||| mark).toUInt8 :: out, uc)
  | k + 1, uc, out => putUtf8 mark k (uc >>> 6) (((uc ||| 0x80) &&& 0xBF).toUInt8 :: out)

/-- The bytes of a character. -/
def encodeUtf8 (uc : UInt32) : Bytes × UInt32 :=
  putUtf8 (firstByteMark.getD (utf8Len uc) 0) (utf8Len uc - 1) uc []

/-- The character of a pair of surrogates. -/
def pairCode (uc uc2 : UInt32) : UInt32 :=
  (65536 : UInt32) ||| ((uc &&& 0x3FF) <<< 10) ||| (uc2 &&& 0x3FF)

/-- The case `'u'`, up to the `ptr++` behind the `switch`. -/
def unicodeEscape (codes : Codes) (ptr : Bytes) : Parsed (Bytes × Codes) :=
  match scanCode codes.1 (ptr.drop 1) with
  | .error e => .fault e
  | .ok uc =>
    let ptr := ptr.drop 4
    if (0xDC00 ≤ uc ∧ uc ≤ 0xDFFF) ∨ uc = 0 then .item ([], some uc, codes.2) (ptr.drop 1)
    else if 0xD800 ≤ uc ∧ uc ≤ 0xDBFF then
      look (ptr.drop 1) fun a =>
        if a ≠ 92 then .item ([], some uc, codes.2) (ptr.drop 1)
        else look (ptr.drop 2) fun b =>
          if b ≠ 117 then .item ([], some uc, codes.2) (ptr.drop 1)
          else
            match scanCode codes.2 (ptr.drop 3) with
            | .error e => .fault e
            | .ok uc2 =>
              let ptr := ptr.drop 6
              if uc2 < 0xDC00 ∨ 0xDFFF < uc2 then .item ([], some uc, some uc2) (ptr.drop 1)
              else
                let r := encodeUtf8 (pairCode uc uc2)
                .item (r.1, some r.2, some uc2) (ptr.drop 1)
    else
      let r := encodeUtf8 uc
      .item (r.1, some r.2, codes.2) (ptr.drop 1)

/-- The character that an escape of one letter stands for. -/
def unescapeLetter (d : UInt8) : UInt8 :=
  if d = 98 then 8 else if d = 102 then 12 else if d = 110 then 10 else if d = 114 then 13
  else if d = 116 then 9 else d

/-- The second loop of `parse_string`, for up to `fuel` characters: what is written, and the
pointer to the quote or the NUL at which it ends. -/
def unescape : ℕ → Codes → Bytes → Parsed Bytes
  | 0, _, _ => .fault .fuel
  | fuel + 1, codes, ptr =>
    look ptr fun c =>
      if c = 34 ∨ c = 0 then .item [] ptr
      else if c ≠ 92 then (unescape fuel codes ptr.tail).map (c :: ·)
      else
        look ptr.tail fun d =>
          if d = 117 then
            (unicodeEscape codes ptr.tail).andThen fun r rest =>
              (unescape fuel r.2 rest).map (r.1 ++ ·)
          else (unescape fuel codes ptr.tail.tail).map (unescapeLetter d :: ·)

/-- `parse_string` -/
def parse_string (str : Bytes) : Parsed Bytes :=
  look str fun c =>
    if c ≠ 34 then .failed str
    else
      match stringLen str.tail with
      | none => .fault .outOfBounds
      | some len =>
        (unescape str.length (none, none) str.tail).andThen fun out ptr =>
          if len < out.length then .fault .overrun
          else look ptr fun c => .item out (if c = 34 then ptr.tail else ptr)

/-! ### Values -/

/-- The beginning of `parse_array` and `parse_object`, up to the first entry. -/
def parseList (close : UInt8) (make : Items D → Value D) (entries : Bytes → Parsed (Items D))
    (value : Bytes) : Parsed (Value D) :=
  (skip value.tail).andThen fun _ value =>
    look value fun c => if c = close then .item (make .nil) value.tail
      else (entries value).map make

mutual

/-- `parse_value`, for up to `fuel` calls inside each other. -/
def parse_value (lib : Doubles D) : ℕ → Bytes → Parsed (Value D)
  | 0, _ => .fault .fuel
  | fuel + 1, value =>
    startsWith (text "null") value fun isNull =>
    if isNull then .item .null (value.drop 4) else
    startsWith (text "false") value fun isFalse =>
    if isFalse then .item (.bool false) (value.drop 5) else
    startsWith (text "true") value fun isTrue =>
    if isTrue then .item (.bool true) (value.drop 4) else
    look value fun c =>
    if c = 34 then (parse_string value).map .string
    else if c = 45 ∨ isDecimalDigit c then parse_number lib value
    else if c = 91 then parseList 93 .array (parse_items lib fuel) value
    else if c = 123 then parseList 125 .object (parse_members lib fuel) value
    else .failed value

/-- The part of `parse_array` from an entry on. -/
def parse_items (lib : Doubles D) : ℕ → Bytes → Parsed (Items D)
  | 0, _ => .fault .fuel
  | fuel + 1, value =>
    (skip value).andThen fun _ value =>
    (parse_value lib fuel value).andThen fun child value =>
    (skip value).andThen fun _ value =>
    look value fun c =>
    if c = 44 then (parse_items lib fuel value.tail).map (.cons none child)
    else if c = 93 then .item (.cons none child .nil) value.tail
    else .failed value

/-- The part of `parse_object` from an entry on. -/
def parse_members (lib : Doubles D) : ℕ → Bytes → Parsed (Items D)
  | 0, _ => .fault .fuel
  | fuel + 1, value =>
    (skip value).andThen fun _ value =>
    (parse_string value).andThen fun string value =>
    (skip value).andThen fun _ value =>
    look value fun c =>
    if c ≠ 58 then .failed value else
    (skip value.tail).andThen fun _ value =>
    (parse_value lib fuel value).andThen fun child value =>
    (skip value).andThen fun _ value =>
    look value fun c =>
    if c = 44 then (parse_members lib fuel value.tail).map (.cons (some string) child)
    else if c = 125 then .item (.cons (some string) child .nil) value.tail
    else .failed value

end

/-- `cJSON_Parse`; the calls inside each other are not more than two for each character. -/
def cJSON_Parse (lib : Doubles D) (value : Bytes) : Parsed (Value D) :=
  (skip value).andThen fun _ value => parse_value lib (2 * value.length + 1) value

end parse

end CJson

end SignalEventLoop
