/-
# The config file of a session

`DaemonSession::dumpConfig` writes the fields of a session that are configured, and `loadConfig`
sets those that the file names; the other ones stay as they are.  Numbers are written with
`std::to_string`, and read with `std::stold` and `std::stoul`.  A `long double` has every number
of 64 bits.
-/
import SignalEventLoop.Daemon.DaemonFileHelper

namespace SignalEventLoop.Daemon

open Lib
open scoped ByteOrder

inductive ConfigItemType where
  | cmd
  | autoStart
  | autoRestart
  | startDelaySec
  | restartIntervalSec
  | env
  | workPath
  | logPath
  | logFileSizeLimitKb
  | logToTerminal
  | statusPrintIntervalSec
  | maxErrorRebootCnt
  | errorThreshold
  | execType
  | logMaxFileCnts
  | subType
  | saveLog
deriving DecidableEq

namespace ConfigItemType

def all : List ConfigItemType :=
  [cmd, autoStart, autoRestart, startDelaySec, restartIntervalSec, env, workPath, logPath,
    logFileSizeLimitKb, logToTerminal, statusPrintIntervalSec, maxErrorRebootCnt, errorThreshold,
    execType, logMaxFileCnts, subType, saveLog]

end ConfigItemType

def ConfigItemString : ConfigItemType → Bytes
  | .cmd => text "command"
  | .autoStart => text "autostart"
  | .autoRestart => text "autorestart"
  | .startDelaySec => text "startsecs"
  | .restartIntervalSec => text "restartsecs"
  | .env => text "environment"
  | .workPath => text "directory"
  | .logPath => text "logPath"
  | .logFileSizeLimitKb => text "logFileSizeKBytesLimit"
  | .logToTerminal => text "logToTerminal"
  | .statusPrintIntervalSec => text "statusPrintIntervalSec"
  | .maxErrorRebootCnt => text "maxErrorRebootCnt"
  | .errorThreshold => text "rebootErrorThresholdSec"
  | .execType => text "exectype"
  | .logMaxFileCnts => text "logMaxFileCnts"
  | .subType => text "subtype"
  | .saveLog => text "savelog"

/-- `getConfigItemMap().find(key)` -/
def configItem (key : Bytes) : Option ConfigItemType :=
  ConfigItemType.all.find? fun type => ConfigItemString type = key

/-! ## Numbers -/

/-- `std::to_string` for an `int64_t`. -/
def toString64 (n : Int64) : Bytes :=
  if n < 0 then 45 :: decimal (-n.toInt).toNat else decimal n.toInt.toNat

/-- `std::stold`, assigned to an `int64_t`: `none` when there is no number, or one that is out of
range.  The fraction of a number is cut off; exponents and hexadecimal numbers are not modelled. -/
def stold (value : Bytes) : Option Int64 :=
  (scanInteger value).bind fun (negative, n, _) =>
    let n : ℤ := if negative then -n else n
    if -2 ^ 63 ≤ n ∧ n < 2 ^ 63 then some (Int64.ofInt n) else none

/-- `std::stoul`, assigned to an `int64_t`: a negative number wraps around twice. -/
def stoul (value : Bytes) : Option Int64 :=
  (scanInteger value).bind fun (negative, n, _) =>
    if n ≥ 2 ^ 64 then none else some (Int64.ofInt (if negative then -n else n))

/-! ## The fields of a session -/

/-- The fields of a `DaemonSession` that are read from a config file. -/
structure SessionConfig where
  configName : Bytes
  execCmd : Bytes
  sessionType : Bytes
  subType : Bytes
  autoStart : Bool
  autoRestart : Bool
  saveLog : Bool
  logFileSizeKBytesLimit : Int64
  logFilePath : Bytes
  startDelaySec : Int64
  restartIntervalSec : Int64
  workPath : Bytes
  errorRebootThresholdSec : Int64
  maxErrorRebootCnt : Int64
  env : Bytes
  envMap : StringMap
deriving DecidableEq

def DAEMON_SHELL_TYPE : Bytes := text "shellscript"

def DAEMON_PROCESS_TYPE : Bytes := text "process"

def DAEMON_SUB_TYPE_1 : Bytes := text "normal"

def DAEMON_SUB_TYPE_2 : Bytes := text "monitor"

namespace SessionConfig

/-- The constructor of `DaemonSession`. -/
def new : SessionConfig where
  configName := text "default"
  execCmd := []
  sessionType := DAEMON_PROCESS_TYPE
  subType := DAEMON_SUB_TYPE_1
  autoStart := false
  autoRestart := true
  saveLog := false
  logFileSizeKBytesLimit := 0
  logFilePath := []
  startDelaySec := 0
  restartIntervalSec := 5
  workPath := []
  errorRebootThresholdSec := 0
  maxErrorRebootCnt := 0
  env := []
  envMap := []

/-! ## Writing -/

def info_str : Bytes :=
  text "this is a config file for daemon session,a valid session's config must end with \".conf\"\n" ++
  text "#config support two exec type: \"process\" for normal program,\"shellscript\" for shell script"

def boolText (b : Bool) : Bytes := if b then text "true" else text "false"

/-- The entries in front of the environment, with their comments. -/
def dumpItems (s : SessionConfig) : List (ConfigItemType × Bytes × Bytes) :=
  [(.cmd, s.execCmd, text "exec command"),
    (.execType, s.sessionType, text "exec type[shellscript/process]"),
    (.subType, s.subType, text "sub type[normal/monitor]"),
    (.autoStart, boolText s.autoStart,
      text "if it's true,it will be start after default loading"),
    (.autoRestart, boolText s.autoRestart,
      text "if it's true ,it will be restart after the task is done"),
    (.saveLog, boolText s.saveLog, text "if it's true,log will be saved"),
    (.logFileSizeLimitKb, toString64 s.logFileSizeKBytesLimit,
      text "limit log_file size kb range[32k-2G],<=0 means no limit"),
    (.logPath, s.logFilePath, text "specify logPath"),
    (.startDelaySec, toString64 s.startDelaySec, text "specify the default start delay seconds"),
    (.restartIntervalSec, toString64 s.restartIntervalSec,
      text "specify the restart delay seconds"),
    (.workPath, s.workPath, text "specify the work path"),
    (.errorThreshold, toString64 s.errorRebootThresholdSec,
      text "specify the seconds threshold for an fatal reboot,<=0 will be inactive"),
    (.maxErrorRebootCnt, toString64 s.maxErrorRebootCnt,
      text "specify max fatal reboot cnts,<=0 will be inactive")]

/-- What `dumpConfig` writes. -/
def dumpConfig (s : SessionConfig) : Option Bytes := do
  let item ← DaemonFileHelper.appendItemTofile (text "program") s.configName info_str
  let entries ← s.dumpItems.mapM fun i =>
    DaemonFileHelper.appendKeyValueTofile (ConfigItemString i.1) i.2.1 i.2.2
  let envlist := s.envMap.map fun i => i.1 ++ 61 :: i.2
  let environment ← DaemonFileHelper.appendKeyValuelistTofile (ConfigItemString .env) envlist
    (text "specify the environment")
  return item ++ entries.flatten ++ environment

/-! ## Reading -/

/-- A value is only set when there is one. -/
def setNonempty {α : Type*} (read : Bytes → Option α) (value : Bytes) (old : α) : Option α :=
  if value = [] then some old else read value

def readBool (value : Bytes) : Option Bool := some (value = text "true")

/-- The `switch` of `loadConfig`. -/
def setItem (t : SessionConfig) (value : Bytes) : ConfigItemType → Option SessionConfig
  | .cmd => some { t with execCmd := value }
  | .autoStart => (setNonempty readBool value t.autoStart).map fun b => { t with autoStart := b }
  | .autoRestart =>
    (setNonempty readBool value t.autoRestart).map fun b => { t with autoRestart := b }
  | .startDelaySec => (setNonempty stold value t.startDelaySec).map fun n =>
    { t with startDelaySec := if n < 0 then 0 else n }
  | .restartIntervalSec => (setNonempty stold value t.restartIntervalSec).map fun n =>
    { t with restartIntervalSec := if n < 1 then 1 else n }
  | .maxErrorRebootCnt =>
    (setNonempty stold value t.maxErrorRebootCnt).map fun n => { t with maxErrorRebootCnt := n }
  | .errorThreshold => (setNonempty stold value t.errorRebootThresholdSec).map fun n =>
    { t with errorRebootThresholdSec := n }
  | .env => (DaemonFileHelper.splitEnvInput value 44).map fun envMap =>
    { t with env := value, envMap := envMap }
  | .workPath => some { t with workPath := value }
  | .execType => some { t with
      sessionType := if value ≠ DAEMON_PROCESS_TYPE ∧ value ≠ DAEMON_SHELL_TYPE then
        DAEMON_PROCESS_TYPE else value }
  | .subType => some { t with
      subType := if value ≠ DAEMON_SUB_TYPE_1 ∧ value ≠ DAEMON_SUB_TYPE_2 then
        DAEMON_SUB_TYPE_1 else value }
  | .saveLog => (setNonempty readBool value t.saveLog).map fun b => { t with saveLog := b }
  | .logFileSizeLimitKb => (setNonempty stoul value t.logFileSizeKBytesLimit).map fun n =>
    { t with logFileSizeKBytesLimit := n }
  | .logPath => some { t with logFilePath := value }
  | .logToTerminal => some t
  | .statusPrintIntervalSec => some t
  | .logMaxFileCnts => some t

/-- An entry of the item; one that is not known is passed over. -/
def setEntry (t : SessionConfig) (i : Bytes × Bytes) : Option SessionConfig :=
  match configItem i.1 with
  | some type => t.setItem i.2 type
  | none => some t

/-- `loadConfig` on the contents of a file: the fields behind it, when it returns true. -/
def loadConfig (t : SessionConfig) (file : Bytes) : Option SessionConfig :=
  (DaemonFileHelper.parser file).bind fun itemMap =>
    (SortedMap.find (text "program") itemMap).bind fun info =>
      if info.description = [] then none
      else run setEntry { t with configName := info.description } info.configMap

end SessionConfig

end SignalEventLoop.Daemon
