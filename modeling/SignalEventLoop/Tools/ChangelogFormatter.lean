/-
# The changelog formatter

`ChangelogFormatter` (`imp/changelog-format.cpp`) reads a changelog into `contextMap`, the list of
its comments, versions and titles, and `dumpToFile` writes the list in a canonical form.

The loops of `loadFile` read the file line by line, an inner one up to the end of a header, a
comment or a version.  Here a line is a step, and `LoadMode` says which of the loops reads it.
The keys of `contextMap` count from 0 on, so that it is a list.  A line has to fit into the buffer
of 4096 bytes, and the comparison of `versionsMap` throws for a number that is too large: then
there is no next state.
-/
import SignalEventLoop.Lib.Lines
import SignalEventLoop.Lib.Run

namespace SignalEventLoop.Tools

open Lib

inductive LineType where
  | undefinedType
  | headerStart
  | headerEnd
  | scopeCommentStart
  | scopeCommentEnd
  | lineComment
  | versionStart
  | versionEnd
  | titleLevel1
  | titleLevel2
  | discardContext
deriving DecidableEq

/-- `line_data` -/
structure LineData where
  type : LineType
  data : Bytes
deriving DecidableEq

/-- `version_info` -/
structure VersionInfo where
  version : Bytes
  time_str : Bytes
  start_line : ℕ
  end_line : ℕ
deriving DecidableEq

/-- `header_info` -/
structure HeaderInfo where
  descrpition : Bytes
  start_line : ℕ
  end_line : ℕ
deriving DecidableEq

structure ChangelogFormatter where
  contextMap : List LineData
  versionsMap : List (Bytes × VersionInfo)
  header : HeaderInfo
deriving DecidableEq

namespace ChangelogFormatter

/-! ## The order of the versions -/

/-- `std::stoul`, stored in a `uint32_t`; it throws for a number of more than 64 bits. -/
def stoul (digits : Bytes) : Option ℕ :=
  if decimalValue digits < 2 ^ 64 then some (decimalValue digits % 2 ^ 32) else none

/-- The loop of `str_to_ver`, with the digits behind the last dot. -/
def strToVerLoop : Bytes → Bytes → List ℕ → Option (List ℕ)
  | digits, [], ret => if digits ≠ [] then (stoul digits).map fun n => ret ++ [n] else some ret
  | digits, c :: version, ret =>
    if isDecimalDigit c then strToVerLoop (digits ++ [c]) version ret
    else if c = 46 then
      (if digits ≠ [] then stoul digits else some 0).bind fun n =>
        strToVerLoop [] version (ret ++ [n])
    else some []

def str_to_ver (version : Bytes) : Option (List ℕ) := strToVerLoop [] version []

/-- `version_compare_less` -/
def versionCompareLess : List ℕ → List ℕ → Bool
  | [], vec2 => vec2 ≠ []
  | _ :: _, [] => false
  | a :: vec1, b :: vec2 => if a < b then true else if a > b then false
    else versionCompareLess vec1 vec2

/-- The place of a new entry in the map; a version that is there stays. -/
def insertVersion (ver : List ℕ) (e : Bytes × VersionInfo) :
    List (Bytes × VersionInfo) → Option (List (Bytes × VersionInfo))
  | [] => some [e]
  | e' :: m => (str_to_ver e'.1).bind fun ver' =>
    if versionCompareLess ver ver' then some (e :: e' :: m)
    else if versionCompareLess ver' ver then (insertVersion ver e m).map (e' :: ·)
    else some (e' :: m)

/-- `versionsMap.emplace(verion,ver)`; the first entry is not compared with any other. -/
def emplaceVersion (verion : Bytes) (ver : VersionInfo) (m : List (Bytes × VersionInfo)) :
    Option (List (Bytes × VersionInfo)) :=
  if m = [] then some [(verion, ver)]
  else (str_to_ver verion).bind fun v => insertVersion v (verion, ver) m

/-! ## The kinds of lines -/

def isLeadingBlank (c : UInt8) : Bool := c = 32 || c = 9

def isTrailingBlank (c : UInt8) : Bool := c = 32 || c = 9 || c = 13 || c = 10

def trim (data : Bytes) : Bytes := trimEnds isLeadingBlank isTrailingBlank data

def isEmptyLine (data : Bytes) : Bool := data = [] || data.head? = some 13 || data.head? = some 10

/-- The text behind a mark of two characters, without the blanks in front of it. -/
def markedText (a b : UInt8) (data : Bytes) : Option Bytes :=
  if data.length < 2 then none
  else if data.take 2 = [a, b] then some ((data.drop 2).dropWhile isLeadingBlank)
  else none

def isLineComment (data : Bytes) : Option Bytes := markedText 47 47 data

def isScopeCommentStart (data : Bytes) : Bool := 2 ≤ data.length && data.take 2 = [47, 42]

def isScopeCommentEnd (data : Bytes) : Bool := 2 ≤ data.length && data.take 2 = [42, 47]

def isHeaderStart (data : Bytes) : Option Bytes := markedText 36 36 data

/-- The bytes behind a line are blanks or NULs, never a `$`. -/
def isHeaderEnd (data : Bytes) : Bool := 2 ≤ data.length && data.take 4 = [36, 36, 36, 36]

/-- The first `c` from `start` on, or 0. -/
def findFrom (c : UInt8) (start : ℕ) (data : Bytes) : ℕ :=
  if c ∈ data.drop start then start + (data.drop start).idxOf c else 0

/-- The positions of the version and of the time. -/
def isVersionStart (data : Bytes) : Option (ℕ × ℕ × ℕ × ℕ) :=
  if data.length < 20 then none
  else if data.take 8 ≠ List.replicate 8 35 then none
  else
    let pos_left_comma := findFrom 40 8 data
    if pos_left_comma ≤ 8 then none
    else
      let pos_right_comma := findFrom 41 pos_left_comma data
      if pos_right_comma ≤ pos_left_comma + 1 ∨ pos_right_comma + 8 ≥ data.length then none
      else if (data.drop (pos_right_comma + 1)).take 8 ≠ List.replicate 8 35 then none
      else some (8, pos_left_comma, pos_left_comma + 1, pos_right_comma)

def isVersionEnd (data : Bytes) : Bool := 16 ≤ data.length && data.take 16 = List.replicate 16 35

def isTitileLevel1 (data : Bytes) : Option Bytes :=
  if data.length < 2 then none
  else if data.take 1 = [94] then some (trim (data.drop 1))
  else none

def isTitileLevel2 (data : Bytes) : Option Bytes :=
  if data.length < 2 then none
  else if data.take 2 = [42, 42] then some (trim (data.drop 2))
  else none

def isTileMultiLine (data : Bytes) : Bool :=
  match data with
  | [] => true
  | c :: _ => !(c = 36 || c = 94 || c = 42 || c = 47 || c = 35)

def isDiscard (data : Bytes) : Bool := data.head? = some 36

/-! ## Titles -/

/-- `rbegin()->data.append(text)` -/
def appendLast (text : Bytes) : List LineData → List LineData
  | [] => []
  | [d] => [{ d with data := d.data ++ text }]
  | d :: d' :: ds => d :: appendLast text (d' :: ds)

/-- The lines behind the first title. -/
def titleLoop : List LineData → List Bytes → Option (List LineData)
  | cacheContextList, [] => some cacheContextList
  | cacheContextList, line :: cacheList =>
    if isTileMultiLine line then
      titleLoop (appendLast ([13, 10] ++ line) cacheContextList) cacheList
    else
      match isTitileLevel1 line with
      | some title => titleLoop (cacheContextList ++ [⟨.titleLevel1, title⟩]) cacheList
      | none =>
        match isTitileLevel2 line with
        | some title => titleLoop (cacheContextList ++ [⟨.titleLevel2, title⟩]) cacheList
        | none => none

/-- The loop of `checkVersion` and `checkHeader`, behind the entry for their first line: `none`
for a line in false format. -/
def checkTitles (start : LineData) : List Bytes → Option (List LineData)
  | [] => some [start]
  | line :: cacheList => (isTitileLevel1 line).bind fun title =>
    titleLoop [start, ⟨.titleLevel1, title⟩] cacheList

/-- The data of a version start. -/
def versionText (ver time : Bytes) : Bytes := ver ++ 40 :: (time ++ [41])

variable (F : ChangelogFormatter)

/-- Whether the version is accepted, and the formatter behind it. -/
def checkVersion (cacheList : List Bytes) (verion time : Bytes) :
    Option (Bool × ChangelogFormatter) :=
  match checkTitles ⟨.versionStart, versionText verion time⟩ cacheList with
  | none => some (false, F)
  | some cacheContextList =>
    let contextMap := F.contextMap ++ (cacheContextList ++ [⟨.versionEnd, []⟩])
    let ver : VersionInfo := ⟨verion, time, F.contextMap.length + 1, contextMap.length⟩
    (emplaceVersion verion ver F.versionsMap).map fun versionsMap =>
      (true, { F with contextMap := contextMap, versionsMap := versionsMap })

def checkHeader (cacheList : List Bytes) (description : Bytes) : Bool × ChangelogFormatter :=
  match checkTitles ⟨.headerStart, description⟩ cacheList with
  | none => (false, { F with header := ⟨description, F.contextMap.length + 1, 0⟩ })
  | some cacheContextList =>
    let contextMap := F.contextMap ++ (cacheContextList ++ [⟨.headerEnd, []⟩])
    (true, { F with
      contextMap := contextMap
      header := ⟨description, F.contextMap.length + 1, contextMap.length⟩ })

end ChangelogFormatter

/-! ## Reading -/

open ChangelogFormatter

/-- The loop that reads the next line, with its `cachelist`. -/
inductive LoadMode where
  | main
  | header (description : Bytes) (cachelist : List Bytes)
  | scopeComment (cachelist : List Bytes)
  | version (ver time : Bytes) (cachelist : List Bytes)
  | discard
deriving DecidableEq

/-- `loadFile` between two lines. -/
structure ChangelogLoader where
  formatter : ChangelogFormatter
  ret_flag : Bool
  mode : LoadMode
deriving DecidableEq

namespace ChangelogLoader

/-- Further entries of `contextMap`. -/
def push (L : ChangelogLoader) (entries : List LineData) : ChangelogLoader :=
  { L with formatter := { L.formatter with contextMap := L.formatter.contextMap ++ entries } }

/-- The texts of a comment in one. -/
def joinLines (cachelist : List Bytes) : Bytes := [13, 10].intercalate cachelist

/-- An empty line is not cached. -/
def cacheLine (cachelist : List Bytes) (data : Bytes) : List Bytes :=
  if isEmptyLine data then cachelist else cachelist ++ [data]

/-- A comment, the start of a version, or an unknown line. -/
def readEntry (L : ChangelogLoader) (line data : Bytes) : ChangelogLoader :=
  match isLineComment data with
  | some comment => L.push [⟨.lineComment, comment⟩]
  | none =>
    if isScopeCommentStart data then { L with mode := .scopeComment [] }
    else
      match isVersionStart data with
      | some (ver_p_1, ver_p_2, tim_p_1, tim_p_2) =>
        -- the positions in `data` are used in the line
        let ver := (line.drop ver_p_1).take (ver_p_2 - ver_p_1)
        let tmp1 := (line.drop tim_p_1).take (tim_p_2 - tim_p_1)
        { L with mode := .version ver tmp1 [] }
      | none => { L with ret_flag := false }

/-- A line outside of all inner loops. -/
def readMain (L : ChangelogLoader) (line : Bytes) : ChangelogLoader :=
  let data := trim line
  if isEmptyLine data then L
  else
    match if L.formatter.contextMap = [] then isHeaderStart data else none with
    | some description => { L with mode := .header description [] }
    | none =>
      if isDiscard data then { L.push [⟨.discardContext, []⟩] with mode := .discard }
      else L.readEntry line data

/-- A line of the file. -/
def step (L : ChangelogLoader) (line : Bytes) : Option ChangelogLoader :=
  if line.length ≥ 4096 then none
  else
    match L.mode with
    | .main => some (L.readMain line)
    | .header description cachelist =>
      if isHeaderEnd (trim line) then
        let (checked, formatter) := L.formatter.checkHeader cachelist description
        some ⟨formatter, L.ret_flag && checked, .main⟩
      else some { L with mode := .header description (cacheLine cachelist (trim line)) }
    | .scopeComment cachelist =>
      if isScopeCommentEnd (trim line) then
        let L := { L with mode := .main }
        some (if cachelist = [] then L
          else L.push [⟨.scopeCommentStart, joinLines cachelist⟩, ⟨.scopeCommentEnd, []⟩])
      else some { L with mode := .scopeComment (cacheLine cachelist (trim line)) }
    | .version ver time cachelist =>
      if isVersionEnd (trim line) then
        (L.formatter.checkVersion cachelist ver time).map fun (checked, formatter) =>
          ⟨formatter, L.ret_flag && checked, .main⟩
      else some { L with mode := .version ver time (cacheLine cachelist (trim line)) }
    | .discard => some { L with
        formatter := { L.formatter with contextMap := appendLast line L.formatter.contextMap } }

/-- The result at the end of the file: a loop that still looks for its end has failed. -/
def result (L : ChangelogLoader) : Bool × ChangelogFormatter :=
  match L.mode with
  | .main | .discard => (L.ret_flag, L.formatter)
  | .header _ _ | .scopeComment _ | .version _ _ _ => (false, L.formatter)

end ChangelogLoader

namespace ChangelogFormatter

/-- The constructor. -/
def new : ChangelogFormatter := ⟨[], [], ⟨[], 0, 0⟩⟩

variable (F : ChangelogFormatter)

/-- Everything but the line numbers of the header is cleared. -/
def clear : ChangelogFormatter := ⟨[], [], { F.header with descrpition := [] }⟩

/-- `loadFile` on the contents of a file: what it returns, and the formatter behind it. -/
def loadFile (file : Bytes) : Option (Bool × ChangelogFormatter) :=
  (run ChangelogLoader.step ⟨F.clear, true, .main⟩ (getlines file)).map ChangelogLoader.result

/-! ## Writing -/

/-- What is written for an entry. -/
def dumpEntry (i : LineData) : Bytes :=
  match i.type with
  | .undefinedType => []
  | .headerStart => 36 :: 36 :: (cString i.data ++ [13, 10])
  | .headerEnd => [36, 36, 36, 36, 13, 10, 13, 10]
  | .scopeCommentStart => 47 :: 42 :: 13 :: 10 :: (cString i.data ++ [13, 10])
  | .scopeCommentEnd => [42, 47, 13, 10, 13, 10]
  | .lineComment => 47 :: 47 :: (cString i.data ++ [13, 10])
  | .versionStart => List.replicate 8 35 ++ (cString i.data ++ (List.replicate 8 35 ++ [13, 10]))
  | .versionEnd => List.replicate 32 35 ++ [13, 10, 13, 10]
  | .titleLevel1 => 94 :: (cString i.data ++ [13, 10])
  | .titleLevel2 => 32 :: 42 :: 42 :: (cString i.data ++ [13, 10])
  | .discardContext => 36 :: 13 :: 10 :: cString i.data

/-- The loop ends behind a discarded rest. -/
def dumpLoop : List LineData → Bytes
  | [] => []
  | i :: contextMap =>
    dumpEntry i ++ if i.type = .discardContext then [] else dumpLoop contextMap

/-- `dumpToFile`: the contents of the file. -/
def dumpToFile : Bytes := dumpLoop F.contextMap

end ChangelogFormatter

end SignalEventLoop.Tools
