/-
# Loading a HEX file

`HexFileContext::readData` (`imp/device-update/update-type-def.cpp`) and
`UpdateFileContext::loadProgramData` (`imp/device-update/update-file.cpp`).  A HEX file has one
record a line.  `readData` goes through the lines, keeps the base address, and copies the part
of every data record that lies in a range of addresses; it stops at the first line that it
cannot decode, and cuts the range off at the first gap.

A result `none` means that a copy leaves its block.
-/
import Mathlib.Data.UInt
import SignalEventLoop.Lib.BigEndian
import SignalEventLoop.Lib.ByteMem

namespace SignalEventLoop.Device

open Lib

/-! ## Lines -/

/-- `fgets`, for up to `n` bytes: the line, and the rest of the file. -/
def fgets : ℕ → List UInt8 → List UInt8 × List UInt8
  | 0, file => ([], file)
  | _ + 1, [] => ([], [])
  | n + 1, c :: file =>
    if c = 10 then ([c], file)
    else
      let (line, rest) := fgets n file
      (c :: line, rest)

/-- What the calls of `fgets` with a buffer of 256 bytes return, for up to `fuel` calls. -/
def fgetsLoop : ℕ → List UInt8 → List (List UInt8)
  | 0, _ => []
  | fuel + 1, file =>
    if file = [] then []
    else
      let (line, rest) := fgets 255 file
      line :: fgetsLoop fuel rest

/-- Every call takes a byte, so that there are not more calls than bytes. -/
def readLines (file : List UInt8) : List (List UInt8) := fgetsLoop file.length file

/-- The line without `\n` or `\r\n`. -/
def stripEol (line : List UInt8) : List UInt8 :=
  if line.getLast? = some 10 then
    if line.dropLast.getLast? = some 13 then line.dropLast.dropLast else line.dropLast
  else line

/-! ## Numbers -/

/-- The value of a hexadecimal digit. -/
def hexDigit (c : UInt8) : Option ℕ :=
  if 48 ≤ c ∧ c ≤ 57 then some (c.toNat - 48)
  else if 65 ≤ c ∧ c ≤ 70 then some (c.toNat - 55)
  else if 97 ≤ c ∧ c ≤ 102 then some (c.toNat - 87)
  else none

/-- The digits at the beginning of a text, as a number. -/
def hexValue (text : List UInt8) : ℕ :=
  (text.takeWhile fun c => (hexDigit c).isSome).foldl
    (fun n c => 16 * n + (hexDigit c).getD 0) 0

/-- `isspace`. -/
def isSpace (c : UInt8) : Bool := c = 32 ∨ (9 ≤ c ∧ c ≤ 13)

/-- The text behind `0x`. -/
def skip0x : List UInt8 → List UInt8
  | 48 :: 120 :: text => text
  | 48 :: 88 :: text => text
  | text => text

/-- `strtol` with the base 16: spaces, a sign and `0x` are passed over, and it stops at the
first character that is not a digit. -/
def strtol (text : List UInt8) : ℤ :=
  match text.dropWhile isSpace with
  | 45 :: digits => - hexValue (skip0x digits)
  | 43 :: digits => hexValue (skip0x digits)
  | digits => hexValue (skip0x digits)

/-- `strtol` of two characters, `& 0xff`. -/
def byteAt (line : List UInt8) (off : ℕ) : UInt8 := UInt8.ofInt (strtol (slice line off 2))

/-! ## Records -/

/-- `AimyHexRecordType`. -/
inductive AimyHexRecordType where
  | data
  | eof
  | exSegAddr
  | startSegAddr
  | exLinearAddr
  | startLinearAddr
deriving DecidableEq

def AimyHexRecordType.ofByte (type : UInt8) : Option AimyHexRecordType :=
  [data, eof, exSegAddr, startSegAddr, exLinearAddr, startLinearAddr][type.toNat]?

structure HexRecord where
  offset_address : UInt16
  type : UInt8
  payload : List UInt8
deriving DecidableEq

/-- The record of a line; `none` when the loop of `readData` ends with it. -/
def decodeLine (chunk : List UInt8) : Option HexRecord :=
  -- strlen
  let read_cache := chunk.takeWhile (· ≠ 0)
  if read_cache.length < 11 ∨ read_cache.head? ≠ some 58 then none
  else
    let line := stripEol read_cache
    if line.length < 11 then none
    else
      let payload_len := byteAt line 1
      if line.length ≠ 1 + 2 + 4 + 2 + payload_len.toNat * 2 + 2 then none
      else
        let offset_address := UInt16.ofInt (strtol (slice line 3 4))
        let type := byteAt line 7
        let payload := (List.range payload_len.toNat).map fun i => byteAt line (9 + 2 * i)
        let check_code := byteAt line (9 + 2 * payload_len.toNat)
        let sum := check_code + payload_len + UInt8.ofNat (offset_address.toNat / 2 ^ 8) +
          UInt8.ofNat (offset_address.toNat % 2 ^ 8) + type + payload.sum
        if sum ≠ 0 then none else some ⟨offset_address, type, payload⟩

/-! ## `readData` -/

/-- The variables of `readData`. -/
structure HexState where
  find_LINEAR_ADDR : Bool
  last_ex_linear_addr : ℕ
  buf : List UInt8
  flag : List Bool
  ret : ℤ

namespace HexState

variable (start_addr end_addr : ℕ) (s : HexState)

/-- The `memcpy` to `buf` and the `memset` of the flags. -/
def copy (offset : ℕ) (bytes : Option (List UInt8)) : Option HexState := do
  let bytes ← bytes
  let buf ← store s.buf offset bytes
  let flag ← store s.flag offset (List.replicate bytes.length true)
  some { s with buf := buf, flag := flag, ret := 1 }

/-- The part of a data record in the range is copied; the addresses are `uint32_t`. -/
def copyData (data_start_addr : ℕ) (payload : List UInt8) : Option HexState :=
  let tmp := payload ++ [0]
  let data_end_addr := (data_start_addr + payload.length) % 2 ^ 32
  let actual_end_addr := if data_end_addr < end_addr then data_end_addr else end_addr
  if data_start_addr < start_addr then
    if data_end_addr < start_addr then some s
    else
      s.copy 0 (load tmp (start_addr - data_start_addr)
        ((2 ^ 32 + actual_end_addr - start_addr) % 2 ^ 32))
  else if data_start_addr > end_addr then some s
  else
    s.copy (data_start_addr - start_addr)
      (load tmp 0 ((2 ^ 32 + actual_end_addr - data_start_addr) % 2 ^ 32))

/-- The `switch` of `readData`. -/
def record (r : HexRecord) : Option HexState :=
  match AimyHexRecordType.ofByte r.type with
  | some .data =>
    if s.find_LINEAR_ADDR = false then some s
    else
      s.copyData start_addr end_addr
        ((s.last_ex_linear_addr + r.offset_address.toNat) % 2 ^ 32) r.payload
  | some .eof => some { s with find_LINEAR_ADDR := false }
  | some .exLinearAddr =>
    if r.payload.length ≠ 2 then some s
    else
      some { s with
        find_LINEAR_ADDR := true, last_ex_linear_addr := ofBE r.payload * 2 ^ 16 }
  | some .startLinearAddr =>
    if r.payload.length ≠ 4 then some s
    else some { s with find_LINEAR_ADDR := false, last_ex_linear_addr := ofBE r.payload }
  | some .exSegAddr | some .startSegAddr => some { s with find_LINEAR_ADDR := false }
  | none => some s

/-- The loop of `readData`. -/
def readLoop (s : HexState) : List (List UInt8) → Option HexState
  | [] => some s
  | line :: lines =>
    match decodeLine line with
    | none => some s
    | some r => (s.record start_addr end_addr r).bind fun s => readLoop s lines

end HexState

/-- `HexFileContext::readData`, with a buffer that has one byte more: the returned value, the
buffer, and the length. -/
def readData (file : List UInt8) (data_addr max_read_len : ℕ) : Option (ℤ × List UInt8 × ℕ) :=
  (HexState.readLoop data_addr ((data_addr + max_read_len) % 2 ^ 32)
    ⟨false, 0, List.replicate (max_read_len + 1) 0, List.replicate max_read_len false, -1⟩
    (readLines file)).map fun s => (s.ret, s.buf, (s.flag.takeWhile id).length)

/-! ## `loadProgramData` -/

/-- `AimyUpdateFileType`. -/
inductive AimyUpdateFileType where
  | hexFile
  | binFile
  | encryptBinFile
  | unknownFile
deriving DecidableEq

/-- The segments of an `UpdateFileContext`. -/
structure ProgramData where
  vecData : List UInt8
  vecDataLen : ℕ
  codeData : List UInt8
  codeDataLen : ℕ
deriving DecidableEq

/-- One segment of the program: a block, and the length that counts.  A segment without bytes
is not read; the outer `none` is a copy that leaves its block, the inner one a read that
fails. -/
def loadSegment (len : ℕ) (block : List UInt8) (read : Option (ℤ × List UInt8 × ℕ)) :
    Option (Option (List UInt8 × ℕ)) :=
  if len > 0 then
    read.map fun (read_len, block, len) => if read_len ≤ 0 then none else some (block, len)
  else some (some (block, len))

/-- A segment of a HEX file. -/
def hexSegment (file : List UInt8) (start len : ℕ) : Option (Option (List UInt8 × ℕ)) :=
  loadSegment len (List.replicate (len + 1) 0) (readData file start len)

/-- A segment of another file: `fseek` and `fread`. -/
def normalSegment (file : List UInt8) (pos len : ℕ) (block : List UInt8) :
    Option (Option (List UInt8 × ℕ)) :=
  loadSegment len block ((store block 0 (slice file pos len)).map fun block =>
    ((slice file pos len).length, block, len))

/-- The vectors, and then the code. -/
def bothSegments (vec code : Option (Option (List UInt8 × ℕ))) : Option (Option ProgramData) :=
  vec.bind fun vec =>
    match vec with
    | none => some none
    | some (vecData, vecDataLen) =>
      code.map fun code =>
        code.map fun (codeData, codeDataLen) => ⟨vecData, vecDataLen, codeData, codeDataLen⟩

/-- `sizeof (DeviceInfo)`. -/
def DEVICE_INFO_SIZE : ℕ := 3 * 0x20

/-- `UpdateFileContext::loadProgramData`, when the file is open: the segments when it returns
true. -/
def loadProgramData (type : AimyUpdateFileType) (file : List UInt8)
    (vec_start vec_end code_start code_end : UInt32) : Option (Option ProgramData) :=
  if vec_end < vec_start ∨ code_end < code_start then some none
  else
    let vecDataLen := (vec_end - vec_start).toNat
    let codeDataLen := (code_end - code_start).toNat
    if vecDataLen = 0 ∧ codeDataLen = 0 then some none
    else
      let vecData := List.replicate (vecDataLen + 1) 0
      let codeData := List.replicate (codeDataLen + 1) 0
      match type with
      | .binFile =>
        bothSegments (normalSegment file vec_start.toNat vecDataLen vecData)
          (normalSegment file 0 codeDataLen codeData)
      | .encryptBinFile =>
        bothSegments (normalSegment file vec_start.toNat vecDataLen vecData)
          (normalSegment file 0
            (min codeDataLen ((2 ^ 64 + file.length - DEVICE_INFO_SIZE) % 2 ^ 64)) codeData)
      | .hexFile =>
        bothSegments (hexSegment file vec_start.toNat vecDataLen)
          (hexSegment file code_start.toNat codeDataLen)
      | .unknownFile => some none

end SignalEventLoop.Device
