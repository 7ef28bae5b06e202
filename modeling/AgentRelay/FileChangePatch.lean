import AgentRelay.ThreadRuntime

/-! The patch of a file change: which text an Undo applies, whether `git apply` would take it, and
what is left of it in an entry that travels without its diffs. -/
namespace AgentRelay.Relay
open Text

/-- A line without its line feed and a carriage return before it; the line is held reversed. -/
def endOfLine : List Char → List Char
  | '\r' :: line => line.reverse
  | line => line.reverse

def linesFrom : List Char → List Char → List (List Char)
  | [], [] => []
  | [], line => [line.reverse]
  | '\n' :: rest, line => endOfLine line :: linesFrom rest []
  | c :: rest, line => linesFrom rest (c :: line)

/-- `str::lines`. -/
def linesOf (text : List Char) : List (List Char) := linesFrom text []

/-- `str::split_whitespace`. -/
def splitWhitespace (text : List Char) : List (List Char) :=
  (text.splitOnP isWhitespace).filter (· ≠ [])

def stripPrefix (pre text : List Char) : Option (List Char) :=
  if pre <+: text then some (text.drop pre.length) else none

/-- The largest value of a `usize`. -/
def usizeMax : Nat := 2 ^ 64 - 1

def digitsValue (digits : List Char) : Nat :=
  digits.foldl (fun value c => value * 10 + (c.toNat - '0'.toNat)) 0

/-- `str::parse::<usize>`: decimal digits after an optional plus sign. -/
def parseUsize (text : List Char) : Option Nat :=
  let digits := (stripPrefix ['+'] text).getD text
  if digits ≠ [] ∧ digits.all Char.isDigit ∧ digitsValue digits ≤ usizeMax then
    some (digitsValue digits)
  else none

/-- The single patch an Undo hands to `git apply`: the diff of the entry, or those of its files
joined. -/
def patchForApply (tool : ToolCallView) : Option String :=
  match tool.diff.filter fun value => trim value ≠ "" with
  | some diff => some diff
  | none =>
    let parts := (tool.fileChanges.map (·.diff)).filter fun diff => trim diff ≠ ""
    if parts = [] then none else some (String.intercalate "\n" parts)

namespace PatchScan

def absoluteTarget (value : List Char) : Bool :=
  decide ("a//".toList <+: value) || decide ("b//".toList <+: value)

def badSide (rest : List Char) : Bool :=
  absoluteTarget rest || (decide (['/'] <+: rest) && decide (rest ≠ "/dev/null".toList))

/-- One side of a hunk header: without a comma it covers one line. -/
def side (value : List Char) (sign : Char) : Option Nat := do
  let value ← stripPrefix [sign] value
  match value.dropWhile (· ≠ ',') with
  | [] => some 1
  | _ :: count => parseUsize count

def hunkCounts (rest : List Char) : Option (Nat × Nat) :=
  match splitWhitespace rest with
  | old :: new :: _ => do
    let old ← side old '-'
    let new ← side new '+'
    return (old, new)
  | _ => none

end PatchScan

/-- Where the scan of a patch stands; `owed` are the lines the hunk in hand has yet to show. -/
structure PatchScan where
  sections : Nat := 0
  hasOld : Bool := false
  hasNew : Bool := false
  sectionOpen : Bool := false
  owed : Option (Nat × Nat) := none
  deriving DecidableEq, Repr

namespace PatchScan

def stillOwed (old new : Nat) : Option (Nat × Nat) :=
  if 0 < old ∨ 0 < new then some (old, new) else none

def checkedPred (n : Nat) : Option Nat := if n = 0 then none else some (n - 1)

def bodyLine (line : List Char) (old new : Nat) : Option (Option (Nat × Nat)) :=
  match line with
  | [] | ' ' :: _ => do
    let old ← checkedPred old
    let new ← checkedPred new
    return stillOwed old new
  | '-' :: _ => do
    let old ← checkedPred old
    return stillOwed old new
  | '+' :: _ => do
    let new ← checkedPred new
    return stillOwed old new
  | '\\' :: _ => some (stillOwed old new)
  | _ => none

/-- One line; `none` where the patch is refused. -/
def step (scan : PatchScan) (line : List Char) : Option PatchScan :=
  match stripPrefix "diff --git ".toList line with
  | some rest =>
    if scan.owed.isSome then none
    else if scan.sectionOpen && !(scan.hasOld && scan.hasNew) then none
    else if (splitWhitespace rest).any absoluteTarget then none
    else some { scan with
      sections := scan.sections + 1, sectionOpen := true, hasOld := false, hasNew := false }
  | none =>
    match stripPrefix "@@ ".toList line with
    | some rest =>
      if scan.owed.isSome then none
      else do
        let (old, new) ← hunkCounts rest
        return { scan with owed := stillOwed old new }
    | none =>
      match scan.owed with
      | some (old, new) => do
        let owed ← bodyLine line old new
        return { scan with owed }
      | none =>
        match stripPrefix "--- ".toList line with
        | some rest => if badSide rest then none else some { scan with hasOld := true }
        | none =>
          match stripPrefix "+++ ".toList line with
          | some rest => if badSide rest then none else some { scan with hasNew := true }
          | none => some scan

end PatchScan

/-- Whether a stored patch is one `git apply` will accept: headers it does not reject, and hunks
that show the lines they promise. -/
def patchIsAppliable (diff : String) : Bool :=
  let diff := (trim diff).toList
  if diff = [] then false
  else
    match (linesOf diff).foldlM PatchScan.step {} with
    | none => false
    | some scan => scan.owed.isNone && scan.hasOld && scan.hasNew

def stripToolDiffs (tool : ToolCallView) : ToolCallView :=
  let hasDiffBody := tool.diff.isSome || tool.fileChanges.any (·.diff ≠ "")
  if hasDiffBody then
    { tool with
      canApply := some (((patchForApply tool).map patchIsAppliable).getD false)
      diff := none
      fileChanges := tool.fileChanges.map fun change => { change with diff := "" }
      fileChangesOmitted := true }
  else tool

/-- `strip_file_change_diffs_for_transport`, on one entry. -/
def stripFileChangeDiffs (entry : TranscriptEntryView) : TranscriptEntryView :=
  { entry with tool := entry.tool.map stripToolDiffs }

def stripFileChangeDiffsForTransport (transcript : List TranscriptEntryView) :
    List TranscriptEntryView := transcript.map stripFileChangeDiffs

end AgentRelay.Relay
