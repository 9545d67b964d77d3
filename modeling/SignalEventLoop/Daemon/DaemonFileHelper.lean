/-
# The config files of the daemon

`DaemonFileHelper` (`sub_project/daemon-service/src/daemon-instance.cpp`) writes and reads the
config files.  A file has items, `[name:description]`, with lines `key=value`.  A line that ends
with a backslash goes on in the next one; the reader collects such lines in `data_cache`, without
their blanks.

The words of a line are read with `sscanf` into arrays of fixed size.  The reader gives `none`
when a word does not fit into its array.
-/
import SignalEventLoop.Lib.Lines
import SignalEventLoop.Lib.Run
import SignalEventLoop.Lib.Scan
import SignalEventLoop.Lib.SortedMap

namespace SignalEventLoop.Daemon

open Lib
open scoped ByteOrder

/-- `std::map<std::string,std::string>` -/
abbrev StringMap := List (Bytes × Bytes)

/-- `DaemonConfigInfo` -/
structure DaemonConfigInfo where
  fieldName : Bytes
  description : Bytes
  configMap : StringMap
deriving DecidableEq

/-- The reader between two lines of the file. -/
structure DaemonFileHelper where
  data_cache : Bytes
  info : DaemonConfigInfo
  itemMap : List (Bytes × DaemonConfigInfo)
deriving DecidableEq

namespace DaemonFileHelper

def isTrimCharacter (c : UInt8) : Bool := c = 32 || c = 9 || c = 13 || c = 10

def trim (src : Bytes) : Bytes := trimEnds isTrimCharacter isTrimCharacter src

/-! ## Writing -/

/-- The comment in front of an entry. -/
def commentLine (comment : Bytes) : Bytes :=
  if comment = [] then [] else 35 :: (cString comment ++ [10])

def appendItemTofile (item_name description comment : Bytes) : Option Bytes :=
  if item_name = [] then none
  else some (commentLine comment ++
    if description = [] then 91 :: (cString item_name ++ [93, 10])
    else 91 :: (cString item_name ++ 58 :: (cString description ++ [93, 10])))

def appendKeyValueTofile (key value comment : Bytes) : Option Bytes :=
  if key = [] then none
  else some (commentLine comment ++
    if value = [] then cString key ++ [61, 10]
    else cString key ++ 61 :: (cString value ++ [10]))

/-- A value of a list has a comma and a backslash behind it. -/
def listLine (value : Bytes) : Bytes := cString value ++ [44, 92, 10]

def appendKeyValuelistTofile (key : Bytes) (valueList : List Bytes) (comment : Bytes) :
    Option Bytes :=
  if key = [] then none
  else some (commentLine comment ++
    match valueList with
    | [] => cString key ++ [61, 10]
    | value :: valueList => cString key ++ 61 :: (listLine value ++ valueList.flatMap listLine))

/-! ## Reading -/

/-- `sscanf(s,"%[^=]=%[^\r\n]",first,second)` with another separator and other stops: `some none`
when it does not return 2, and `none` when a word does not fit into its array. -/
def scanTwo (separator : UInt8) (stops : Bytes) (size₁ size₂ : ℕ) (s : Bytes) :
    Option (Option (Bytes × Bytes)) :=
  match scanUntil [separator] (cString s) with
  | none => some none
  | some (first, rest) =>
    if first.length ≥ size₁ then none
    else
      match scanUntil stops (rest.drop 1) with
      | none => some none
      | some (second, _) => if second.length ≥ size₂ then none else some (some (first, second))

/-- The two formats for an entry. -/
def scanKeyValue (data_cache : Bytes) : Option (Option (Bytes × Bytes)) :=
  (scanTwo 61 [13, 10] 256 (128 * 1024 + 1) data_cache).bind fun
    | some pair => some (some pair)
    | none => scanTwo 58 [13, 10] 256 (128 * 1024 + 1) data_cache

/-- `info.configMap.emplace(key,value)` -/
def insertEntry (info : DaemonConfigInfo) (key value : Bytes) : DaemonConfigInfo :=
  { info with configMap := SortedMap.emplace key value info.configMap }

/-- "handle cache": the cache behind it, and the item. -/
def handleCache (data_cache : Bytes) (info : DaemonConfigInfo) :
    Option (Bytes × DaemonConfigInfo) :=
  if data_cache.length ≥ 2 then
    (scanKeyValue data_cache).map fun
      | some (key, value) => ([], insertEntry info (trim key) (trim value))
      | none =>
        if data_cache.getLast? = some 58 ∨ data_cache.getLast? = some 61 then
          ([], insertEntry info (trim data_cache.dropLast) [])
        else ([], info)
  else some (data_cache, info)

/-- An item that has a name and entries goes into `itemMap`. -/
def flushItem (info : DaemonConfigInfo) (itemMap : List (Bytes × DaemonConfigInfo)) :
    DaemonConfigInfo × List (Bytes × DaemonConfigInfo) :=
  if info.fieldName ≠ [] ∧ info.configMap ≠ [] then
    (⟨[], [], []⟩, SortedMap.emplace (trim info.fieldName) info itemMap)
  else (info, itemMap)

/-- The name and the description in a line of an item. -/
def scanItem (data : Bytes) (info : DaemonConfigInfo) : Option DaemonConfigInfo :=
  if data.getLast? ≠ some 93 ∨ data.length < 3 then some info
  else
    (scanTwo 58 [93] 128 128 (data.drop 1)).map fun
      | some (type_str, description) =>
        { info with fieldName := trim type_str, description := trim description }
      | none => { info with fieldName := (data.drop 1).take (data.length - 2) }

/-- A line of the file. -/
def readLine (p : DaemonFileHelper) (line : Bytes) : Option DaemonFileHelper :=
  let data := trim line
  if data.head? = some 35 ∨ data = [] then some p
  else if data.head? = some 91 then
    (handleCache p.data_cache p.info).bind fun (data_cache, info) =>
      let (info, itemMap) := flushItem info p.itemMap
      (scanItem data info).map fun info => ⟨data_cache, info, itemMap⟩
  else if data.getLast? = some 92 then
    some { p with data_cache := p.data_cache ++ data.dropLast }
  else
    (handleCache (p.data_cache ++ data) p.info).map fun (data_cache, info) =>
      { p with data_cache := data_cache, info := info }

/-- What is left in the cache and in `info` at the end of the file. -/
def finish (p : DaemonFileHelper) : Option (List (Bytes × DaemonConfigInfo)) :=
  (handleCache p.data_cache p.info).map fun (_, info) => (flushItem info p.itemMap).2

/-- `itemMap` behind `parser`, on the contents of the file. -/
def parser (file : Bytes) : Option (List (Bytes × DaemonConfigInfo)) :=
  (run readLine ⟨[], ⟨[], [], []⟩, []⟩ (getlines file)).bind finish

/-- The loop of `splitEnvInput` over the pieces. -/
def splitEnvLoop : List Bytes → StringMap → Option StringMap
  | [], ret => some ret
  | i :: cache, ret =>
    if i = [] then splitEnvLoop cache ret
    else
      (scanTwo 61 [13, 10] 512 2048 i).bind fun
        | none => splitEnvLoop cache ret
        | some (key, value) =>
          splitEnvLoop cache (SortedMap.emplace (trim key) (trim value) ret)

def splitEnvInput (src : Bytes) (split_char : UInt8) : Option StringMap :=
  splitEnvLoop (src.splitOn split_char) []

end DaemonFileHelper

end SignalEventLoop.Daemon
