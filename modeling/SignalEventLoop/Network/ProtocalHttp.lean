/-
# The HTTP protocol of the handshake

`ProtocalHttp` (`imp/network/websocket/protocal-http.cpp`): a frame is a request or a response
with its head, which ends with an empty line, and as many bytes of content as the field
`Content-Length` says.

The head is read by `sscanf` from memory.  A scan stops at a zero byte, and the end of a list
stands for one.  `sscanf` writes each conversion into a buffer of 4096 bytes without a check,
`std::stoul` may throw, and a sum of two `int64_t` may overflow: these are the faults of the
decoder.  The decoder keeps what it has read of a head in `header_cache`.
-/
import SignalEventLoop.Lib.Scan
import SignalEventLoop.Network.CacheBuffer

namespace SignalEventLoop.Network

/-- How a call of the decoder ends that does not return. -/
inductive Fault where
  /-- A `memcpy` leaves its block, or a loop does not end. -/
  | noResult
  /-- A conversion of `sscanf` does not fit into its buffer. -/
  | bufferOverflow
  /-- An exception that nobody catches. -/
  | uncaught
  /-- A signed sum overflows. -/
  | signedOverflow
deriving DecidableEq

/-- A `std::string`. -/
abbrev Text := List UInt8

/-- The bytes of a literal. -/
def ascii (s : String) : Text := s.toList.map fun c => c.toNat.toUInt8

/-- The entries of a `std::map<std::string,std::string>`, in its order. -/
abbrev KeysMap := List (Text × Text)

namespace KeysMap

def empty : KeysMap := []

/-- `keys[key] = value` -/
def set (key value : Text) : KeysMap → KeysMap
  | [] => [(key, value)]
  | e :: keys =>
    if key < e.1 then (key, value) :: e :: keys
    else if key = e.1 then (key, value) :: keys
    else e :: set key value keys

/-- `keys.emplace(key, value)`, which keeps an entry that is there. -/
def emplace (key value : Text) : KeysMap → KeysMap
  | [] => [(key, value)]
  | e :: keys =>
    if key < e.1 then (key, value) :: e :: keys
    else if key = e.1 then e :: keys
    else e :: emplace key value keys

/-- `keys.erase(key)` -/
def erase (key : Text) (keys : KeysMap) : KeysMap := keys.filter fun e => e.1 ≠ key

/-- `keys.find(key)` -/
def find (key : Text) (keys : KeysMap) : Option Text := keys.lookup key

end KeysMap

namespace ProtocalHttp

/-- `HEAD_END` -/
def headEnd : Text := [13, 10, 13, 10]

/-- `LINE_END` -/
def lineEnd : Text := [13, 10]

/-- `CONTENT_LENGTH_KEY` -/
def contentLengthKey : Text := ascii "Content-Length"

/-- The sizes of `ProtocalHttp()`. -/
def maxCacheSize : ℕ := 10 * 1024 * 1024

def maxFrameSize : ℕ := 10 * 1024 * 1024

def sliceSize : ℕ := 1200

/-- `ProtocalHttp::minProtocalSize` -/
def minProtocalSize : ℕ := 24

/-! ## Encoding -/

/-- The bytes that are passed for a string; their number is a `uint32_t`. -/
def asBytes (t : Text) : Bytes :=
  ⟨t.take (t.length % 2 ^ 32), by
    have := Nat.mod_lt t.length (show 0 < 2 ^ 32 by norm_num)
    rw [List.length_take]
    omega⟩

/-- `ProtocalHttp::encodeFrame`: a head, and the content when there is one. -/
def encodeFrame (input_list : List Bytes) : Except Fault Bytes :=
  let total_len := input_list.foldl (fun n i => add32 n i.1.length) 0
  match input_list with
  | [] => .ok noBytes
  | header :: contents =>
    if total_len > maxFrameSize then .ok noBytes
    else
      let content := (contents.head?.map Subtype.val).getD []
      -- the buffer has one byte more
      if header.1.length + content.length > total_len + 1 then .error .noResult
      else .ok (asBytes ((header.1 ++ content ++ List.replicate total_len 0).take total_len))

/-- The first line of a head. -/
def joinWords (header : List Text) : Text :=
  header.foldl (fun data i => if data = [] then i else data ++ ascii " " ++ i) []

/-- `std::to_string` -/
def numeral (n : ℕ) : Text := ascii n.repr

/-- `ProtocalHttp::packetFrame` -/
def packetFrame (header : List Text) (keys_map : KeysMap) (content : Bytes) :
    Except Fault Bytes :=
  let keys :=
    if content.1.length = 0 then keys_map.erase contentLengthKey
    else keys_map.set contentLengthKey (numeral content.1.length)
  let header_data := joinWords header ++ lineEnd ++
    (keys.map fun e => e.1 ++ ascii ": " ++ e.2 ++ lineEnd).flatten ++ lineEnd
  encodeFrame (asBytes header_data :: if content.1.length > 0 then [content] else [])

/-! ## `sscanf` -/

/-- `isspace` -/
def isSpace (c : UInt8) : Bool := c = 32 || (9 ≤ c && c ≤ 13)

def isLineEnd (c : UInt8) : Bool := c = 13 || c = 10

/-- A blank in a format. -/
def skipSpace (s : Text) : Text := s.dropWhile isSpace

/-- A conversion that takes the bytes with the property `p`: the text and what follows. -/
def scanWhile (p : UInt8 → Bool) (s : Text) : Except Fault (Option (Text × Text)) :=
  let p' := fun c => c ≠ 0 && p c
  if s.takeWhile p' = [] then .ok none
  else if (s.takeWhile p').length ≥ 4096 then .error .bufferOverflow
  else .ok (some (s.takeWhile p', s.dropWhile p'))

/-- `%s` -/
def scanWord (s : Text) : Except Fault (Option (Text × Text)) :=
  scanWhile (fun c => !isSpace c) (skipSpace s)

/-- `sscanf(data, "%s %s %[^\r\n]", a, b, c)`; `none` when it does not return 3. -/
def scanFirstLine (data : Text) : Except Fault (Option (Text × Text × Text)) := do
  let some (a, s) ← scanWord data | .ok none
  let some (b, s) ← scanWord s | .ok none
  let some (c, _) ← scanWhile (fun c => !isLineEnd c) (skipSpace s) | .ok none
  .ok (some (a, b, c))

/-- `sscanf(temp, "%[^:]: %[^\r\n]", key, value)`; `none` when it does not return 2. -/
def scanKeyLine (temp : Text) : Except Fault (Option (Text × Text)) := do
  let some (key, s) ← scanWhile (fun c => c ≠ 58) temp | .ok none
  match s with
  | 58 :: s =>
    let some (value, _) ← scanWhile (fun c => !isLineEnd c) (skipSpace s) | .ok none
    .ok (some (key, value))
  | _ => .ok none

/-- A line feed behind the end of a line belongs to it. -/
def skipLineFeed : Text → Text
  | [] => []
  | c :: input => if c = 10 then input else c :: input

/-- `ProtocalHttp::getNextLine` -/
def getNextLine : Text → Option Text
  | [] => none
  | c :: input =>
    if c = 0 then none
    else if isLineEnd c then some (skipLineFeed input)
    else getNextLine input

/-- A digit of a decimal number. -/
def isDigit (c : UInt8) : Bool := 48 ≤ c && c ≤ 57

/-- `std::stoul`, an `unsigned long` of 64 bits. -/
def stoul (s : Text) : Except Fault ℕ :=
  let s := skipSpace s
  let digits :=
    match s with
    | 43 :: s | 45 :: s => s.takeWhile isDigit
    | s => s.takeWhile isDigit
  let value := digits.foldl (fun n c => 10 * n + (c.toNat - 48)) 0
  if digits = [] ∨ value ≥ 2 ^ 64 then .error .uncaught
  else if s.head? = some 45 then .ok ((2 ^ 64 - value) % 2 ^ 64)
  else .ok value

/-- The conversion of an `unsigned long` to an `int64_t`. -/
def toInt64 (n : ℕ) : ℤ := if n < 2 ^ 63 then n else (n : ℤ) - 2 ^ 64

/-! ## Decoding -/

/-- What the decoder knows of a head. -/
structure StreamHttpHeader where
  header : List Text
  keys : KeysMap
  content_length : ℤ
  header_offset : ℤ
  parse_error : Bool
  process_finished : Bool
deriving DecidableEq

/-- `StreamHttpHeader::StreamHttpHeader` -/
def StreamHttpHeader.init : StreamHttpHeader := ⟨[], [], -1, 24, false, false⟩

/-- The loop over the lines in front of `tmp_pos`, from which on `left` bytes follow; the
flag tells whether a line is no key line.  There are at most as many lines as bytes. -/
def decodeKeys (left : ℕ) : ℕ → KeysMap → Text → Except Fault (Bool × KeysMap)
  | 0, keys, _ => .ok (false, keys)
  | fuel + 1, keys, temp =>
    match getNextLine temp with
    | none => .ok (false, keys)
    | some temp =>
      if temp.length ≤ left then .ok (false, keys)
      else do
        match ← scanKeyLine temp with
        | none => .ok (true, [])
        | some (key, value) => decodeKeys left fuel (keys.emplace key value) temp

/-- The value of `content_length` for these keys. -/
def contentLength (keys : KeysMap) : Except Fault ℤ :=
  match keys.find contentLengthKey with
  | some value => (stoul value).map toInt64
  | none => .ok 0

/-- `ProtocalHttp::decodeFrameHeader`, for the memory from `data` on. -/
def decodeFrameHeader (header : StreamHttpHeader) (data : Text) (data_len : ℕ) :
    Except Fault StreamHttpHeader :=
  if header.content_length ≥ 0 then .ok header
  else
    match Lib.search headEnd (data.take data_len) with
    | none => .ok header
    | some tmp_pos => do
      match ← scanFirstLine data with
      | none => .ok { header with parse_error := true }
      | some (a, b, c) =>
        let (bad, keys) ← decodeKeys (data.length - tmp_pos) data.length header.keys data
        let header := { header with keys := keys, parse_error := header.parse_error || bad }
        if keys ≠ [] ∧ header.parse_error = false then
          let content_length ← contentLength keys
          .ok { header with
            header := header.header ++ [a, b, c]
            content_length := content_length
            header_offset := tmp_pos + 4 }
        else .ok header

/-- The sum of two `int64_t`. -/
def add64 (a b : ℤ) : Except Fault ℤ :=
  if -2 ^ 63 ≤ a + b ∧ a + b < 2 ^ 63 then .ok (a + b) else .error .signedOverflow

/-- `ProtocalHttp::decodeFrame`: the offset and the length of the frame, and the new
`header_cache`. -/
def decodeFrame (header_cache : StreamHttpHeader) (data : Text) (len : ℕ) :
    Except Fault ((ℕ × ℕ) × StreamHttpHeader) :=
  if header_cache.process_finished then .ok ((0, len), header_cache)
  else if len < minProtocalSize then .ok ((0, 0), header_cache)
  else do
    let header ← decodeFrameHeader header_cache data len
    if header.parse_error then .ok ((0, add32 maxFrameSize len), header)
    else if header.content_length < 0 then .ok ((0, 0), header)
    else
      let need_size ← add64 header.header_offset header.content_length
      if need_size > len then .ok ((0, 0), header)
      else .ok ((0, need_size.toNat), { header with process_finished := true })

/-- `ProtocalHttp::bufferToFrame` on a frame that was popped: its value, and the head of the
frame. -/
def bufferToFrame (buf : Text) : Except Fault (Bool × StreamHttpHeader) :=
  if buf.length < minProtocalSize then .ok (false, .init)
  else do
    let header ← decodeFrameHeader .init buf buf.length
    if header.parse_error then .ok (false, header)
    else if header.content_length < 0 then .ok (false, header)
    else
      let need_size ← add64 header.header_offset header.content_length
      .ok (decide (need_size ≤ buf.length), header)

end ProtocalHttp

end SignalEventLoop.Network
