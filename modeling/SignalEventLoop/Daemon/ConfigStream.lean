/-
# The loop over the lines of a config file

`DaemonFileHelper::parser` reads while `feof` returns 0 and passes over the calls of `getline`
that fail.  A stream has two indicators, and a read error does not raise the one that the loop
looks at: when the errors do not stop, as for a directory, the loop does not stop either.
-/
import SignalEventLoop.Daemon.DaemonFileHelper

namespace SignalEventLoop.Daemon

open Lib
open scoped ByteOrder

/-! ## Streams -/

/-- What the last calls of `getline` do. -/
inductive Ending
  /-- The end of the file; the last line may have no end of its own. -/
  | endOfFile (line : Option Bytes)
  /-- From here on every call fails. -/
  | readError

/-- A stream that is open for reading: what the calls of `getline` return, `none` for one that
fails, and whether the end of the file was seen. -/
structure FILE where
  results : List (Option Bytes)
  ending : Ending
  eof : Bool

namespace FILE

def getline (fp : FILE) : Option Bytes × FILE :=
  match fp.results with
  | result :: results => (result, { fp with results := results })
  | [] =>
    match fp.ending with
    | .endOfFile line => (line, { fp with ending := .endOfFile none, eof := true })
    | .readError => (none, fp)

/-- `fopen` on a file: the calls up to the last line succeed, and the one that finds no end of the
line has seen the end of the file. -/
def fopen (file : Bytes) : FILE :=
  if file.getLast? = some 10 then ⟨(getlines file).map some, .endOfFile none, false⟩
  else ⟨(getlines file).dropLast.map some, .endOfFile (getlines file).getLast?, false⟩

end FILE

namespace DaemonFileHelper

/-! ## The loop -/

/-- The loop of `parser`; there is no result when the fuel is used up.  The reader is `none` from
where a word did not fit into its array. -/
def readLoop : ℕ → FILE → Option DaemonFileHelper → Option (Option DaemonFileHelper)
  | 0, _, _ => none
  | fuel + 1, fp, p =>
    if fp.eof then some p
    else
      match fp.getline with
      | (none, fp) => readLoop fuel fp p
      | (some line, fp) => readLoop fuel fp (p.bind fun p => readLine p line)

/-- The loop reads all lines of a file, and passes over the calls that fail. -/
lemma readLoop_endOfFile (results : List (Option Bytes)) (line : Option Bytes)
    (p : Option DaemonFileHelper) :
    readLoop (results.length + 2) ⟨results, .endOfFile line, false⟩ p =
      some (p.bind fun p => run readLine p (results.filterMap id ++ line.toList)) := by
  induction results generalizing p with
  | nil =>
    rw [List.filterMap_nil, List.nil_append]
    cases line with
    | none => cases p <;> rfl
    | some line => cases p <;> simp [readLoop, FILE.getline, run_cons]
  | cons result results ih =>
    rw [List.length_cons, Nat.add_right_comm, readLoop]
    cases result with
    | none => exact ih p
    | some data =>
      refine (ih (p.bind fun p => readLine p data)).trans ?_
      rw [Option.bind_assoc]
      rfl

lemma dropLast_append_toList (lines : List Bytes) :
    lines.dropLast ++ lines.getLast?.toList = lines := by
  cases lines using List.reverseRecOn with
  | nil => rfl
  | append_singleton lines line => simp

/-- A persistent read error leaves the indicator of `feof` as it is, however long the loop runs. -/
lemma readLoop_readError (fuel : ℕ) (results : List (Option Bytes)) (p : Option DaemonFileHelper) :
    readLoop fuel ⟨results, .readError, false⟩ p = none := by
  induction fuel generalizing results p with
  | zero => rfl
  | succ fuel ih =>
    cases results with
    | nil => simpa [readLoop, FILE.getline] using ih [] p
    | cons result results =>
      cases result with
      | none => simpa [readLoop, FILE.getline] using ih results p
      | some data => simpa [readLoop, FILE.getline] using ih results _

/-- **The loop of `parser` ends** for exactly the streams that come to the end of the file. -/
theorem readLoop_ends_iff (results : List (Option Bytes)) (ending : Ending)
    (p : Option DaemonFileHelper) :
    (∃ fuel q, readLoop fuel ⟨results, ending, false⟩ p = some q) ↔ ending ≠ .readError := by
  cases ending with
  | endOfFile line =>
    exact ⟨fun _ => by simp, fun _ => ⟨_, _, readLoop_endOfFile results line p⟩⟩
  | readError =>
    simp [readLoop_readError]

/-- A directory: `fopen` opens it for reading, and every `getline` fails. -/
theorem readLoop_directory :
    ¬ ∃ fuel q, readLoop fuel ⟨[], .readError, false⟩ (some ⟨[], ⟨[], [], []⟩, []⟩) = some q := by
  simp [readLoop_readError]

/-- On a file, the loop does what `parser` does. -/
theorem parser_fopen (file : Bytes) :
    ∃ fuel, (readLoop fuel (FILE.fopen file) (some ⟨[], ⟨[], [], []⟩, []⟩)).map (·.bind finish) =
      some (parser file) := by
  have hsome (lines : List Bytes) : (lines.map some).filterMap id = lines := by
    simp [List.filterMap_map]
  rw [FILE.fopen]
  split_ifs with hlast
  · refine ⟨((getlines file).map some).length + 2, ?_⟩
    rw [readLoop_endOfFile, hsome, Option.toList_none, List.append_nil]
    rfl
  · refine ⟨((getlines file).dropLast.map some).length + 2, ?_⟩
    rw [readLoop_endOfFile, hsome, dropLast_append_toList]
    rfl

end DaemonFileHelper

end SignalEventLoop.Daemon
