import AgentRelay.Text
import AgentRelay.Doubles

/-! The rows of a file change card: a unified diff is read line by line, and each line is told by
its first characters. Line numbers are read and counted as doubles. -/
namespace AgentRelay.DiffView
open Text Doubles

def lineFeed : UInt16 := 10
def space : UInt16 := 32
def plus : UInt16 := 43
def comma : UInt16 := 44
def minus : UInt16 := 45
def backslash : UInt16 := 92

/-- `note` is the type `meta` of the source. -/
inductive RowType
  | context
  | add
  | delete
  | note
  deriving DecidableEq, Repr

structure DiffRow where
  line : JsString
  marker : String
  oldLine : Option Count
  newLine : Option Count
  type : RowType
  deriving DecidableEq, Repr

def iterateLines (value : JsString) : List JsString := value.splitOn lineFeed

/-- `String.prototype.startsWith`. -/
def startsWith (line pre : JsString) : Bool := decide (pre <+: line)

def afterPrefix (pre line : JsString) : Option JsString :=
  if startsWith line pre then some (line.drop pre.length) else none

def isDigit (unit : UInt16) : Bool := 48 ≤ unit && unit ≤ 57

def digitsValue (digits : JsString) : ℕ :=
  digits.foldl (fun value unit => value * 10 + (unit.toNat - 48)) 0

/-- `Number` of decimal digits. -/
def digitsNumber (digits : JsString) : Count := double (some (digitsValue digits))

/-- `(\d+)`. -/
def takeNumber (line : JsString) : Option (Count × JsString) :=
  let digits := line.takeWhile isDigit
  if digits = [] then none else some (digitsNumber digits, line.dropWhile isDigit)

/-- `(?:,\d+)?`. -/
def skipCount : JsString → JsString
  | [] => []
  | unit :: rest =>
    if unit = comma then ((takeNumber rest).map (·.2)).getD (unit :: rest) else unit :: rest

/-- `^@@ -(\d+)(?:,\d+)? \+(\d+)(?:,\d+)? @@`. -/
def hunkMatch (line : JsString) : Option (Count × Count) := do
  let rest ← afterPrefix (utf16 "@@ -") line
  let (oldLine, rest) ← takeNumber rest
  let rest ← afterPrefix (utf16 " +") (skipCount rest)
  let (newLine, rest) ← takeNumber rest
  let _ ← afterPrefix (utf16 " @@") (skipCount rest)
  return (oldLine, newLine)

def noNewlineMarker : JsString := utf16 "\\ No newline at end of file"

def succ (line : Count) : Count := line.map (· + 1)

/-- `line += 1`. -/
def addOne (line : Count) : Count := double (succ line)

structure RowScan where
  oldLine : Count := some 0
  newLine : Count := some 0
  inHunk : Bool := false
  deriving DecidableEq, Repr

namespace RowScan

def pushContext (scan : RowScan) (line : JsString) : RowScan × Option DiffRow :=
  ({ scan with oldLine := addOne scan.oldLine, newLine := addOne scan.newLine },
    some ⟨line, " ", some scan.oldLine, some scan.newLine, .context⟩)

def read (scan : RowScan) (line : JsString) : RowScan × Option DiffRow :=
  if line = [] then if scan.inHunk then scan.pushContext line else (scan, none)
  else if startsWith line (utf16 "diff --git") || startsWith line (utf16 "+++")
      || startsWith line (utf16 "---") then (scan, none)
  else
    match hunkMatch line with
    | some (oldLine, newLine) => (⟨oldLine, newLine, true⟩, none)
    | none =>
      if line = noNewlineMarker then (scan, some ⟨line, "", none, none, .note⟩)
      else if !scan.inHunk && !startsWith line [plus] && !startsWith line [minus]
          && !startsWith line [space] then (scan, none)
      else if startsWith line [plus] && !startsWith line (utf16 "+++") then
        ({ scan with newLine := addOne scan.newLine },
          some ⟨line, "+", none, some scan.newLine, .add⟩)
      else if startsWith line [minus] && !startsWith line (utf16 "---") then
        ({ scan with oldLine := addOne scan.oldLine },
          some ⟨line, "-", some scan.oldLine, none, .delete⟩)
      else if scan.inHunk then scan.pushContext line
      else (scan, some ⟨line, " ", none, none, .context⟩)

end RowScan

/-- The loop: it stops as soon as there are more rows than `maxRows`. -/
def rowsLoop (maxRows : Option ℕ) (rows : List DiffRow) : RowScan → List JsString → List DiffRow
  | _, [] => rows
  | scan, line :: rest =>
    match scan.read line with
    | (scan, none) => rowsLoop maxRows rows scan rest
    | (scan, some row) =>
      if maxRows.any (· < (rows ++ [row]).length) then rows ++ [row]
      else rowsLoop maxRows (rows ++ [row]) scan rest

/-- `none` stands for no limit. -/
def parseUnifiedDiffRows (value : JsString) (maxRows : Option ℕ) : List DiffRow :=
  rowsLoop maxRows [] {} (iterateLines value)

structure DiffStats where
  added : ℕ
  removed : ℕ
  deriving DecidableEq, Repr

def isAddedLine (line : JsString) : Bool :=
  startsWith line [plus] && !startsWith line (utf16 "+++")

def isRemovedLine (line : JsString) : Bool :=
  startsWith line [minus] && !startsWith line (utf16 "---")

def countLine (stats : DiffStats) (line : JsString) : DiffStats :=
  if isAddedLine line then { stats with added := stats.added + 1 }
  else if isRemovedLine line then { stats with removed := stats.removed + 1 }
  else stats

def diffStats (diff : JsString) : DiffStats :=
  if diff = [] then ⟨0, 0⟩ else (diff.splitOn lineFeed).foldl countLine ⟨0, 0⟩

section diffs

abbrev Content := { text : JsString // lineFeed ∉ text }

inductive GitHeader
  | diff | index | oldMode | newMode | deletedFile | newFile | copyFrom | copyTo
  | renameFrom | renameTo | similarity | dissimilarity
  deriving DecidableEq, Repr

def GitHeader.word : GitHeader → String
  | diff => "diff --git "
  | index => "index "
  | oldMode => "old mode "
  | newMode => "new mode "
  | deletedFile => "deleted file mode "
  | newFile => "new file mode "
  | copyFrom => "copy from "
  | copyTo => "copy to "
  | renameFrom => "rename from "
  | renameTo => "rename to "
  | similarity => "similarity index "
  | dissimilarity => "dissimilarity index "

inductive BodyLine
  | context (text : Content)
  | add (text : Content)
  | delete (text : Content)
  | noNewline

namespace BodyLine

def render : BodyLine → JsString
  | context text => space :: text.val
  | add text => plus :: text.val
  | delete text => minus :: text.val
  | noNewline => noNewlineMarker

def oldCount : BodyLine → ℕ
  | context _ | delete _ => 1
  | add _ | noNewline => 0

def newCount : BodyLine → ℕ
  | context _ | add _ => 1
  | delete _ | noNewline => 0

def row (oldLine newLine : Count) (line : BodyLine) : DiffRow :=
  match line with
  | context _ => ⟨line.render, " ", some oldLine, some newLine, .context⟩
  | add _ => ⟨line.render, "+", none, some newLine, .add⟩
  | delete _ => ⟨line.render, "-", some oldLine, none, .delete⟩
  | noNewline => ⟨line.render, "", none, none, .note⟩

def LooksLikeHeader : BodyLine → Prop
  | add text => utf16 "++" <+: text.val
  | delete text => utf16 "--" <+: text.val
  | context _ | noNewline => False

instance : DecidablePred LooksLikeHeader
  | add text => inferInstanceAs (Decidable (utf16 "++" <+: text.val))
  | delete text => inferInstanceAs (Decidable (utf16 "--" <+: text.val))
  | context _ => inferInstanceAs (Decidable False)
  | noNewline => inferInstanceAs (Decidable False)

end BodyLine

abbrev Digits := { digits : JsString // digits ≠ [] ∧ digits.all isDigit = true }

structure HunkRange where
  start : Digits
  count : Option Digits

namespace HunkRange

def lines (range : HunkRange) : ℕ := (range.count.map fun d => digitsValue d.val).getD 1

def render (range : HunkRange) : JsString :=
  range.start.val ++ (range.count.map fun d => comma :: d.val).getD []

def first (range : HunkRange) : ℕ := digitsValue range.start.val

end HunkRange

structure Hunk where
  old : HunkRange
  new : HunkRange
  heading : Content
  body : List BodyLine
  oldLines : (body.map BodyLine.oldCount).sum = old.lines
  newLines : (body.map BodyLine.newCount).sum = new.lines

namespace Hunk

def header (hunk : Hunk) : JsString :=
  utf16 "@@ -" ++ (hunk.old.render ++ (utf16 " +" ++ (hunk.new.render ++
    (utf16 " @@" ++ hunk.heading.val))))

def lines (hunk : Hunk) : List JsString := hunk.header :: hunk.body.map BodyLine.render

end Hunk

structure FileDiff where
  git : List (GitHeader × Content)
  oldName : Content
  newName : Content
  hunks : List Hunk

namespace FileDiff

def headers (d : FileDiff) : List JsString :=
  d.git.map (fun line => utf16 line.1.word ++ line.2.val)
    ++ [utf16 "--- " ++ d.oldName.val, utf16 "+++ " ++ d.newName.val]

def lines (d : FileDiff) : List JsString := d.headers ++ d.hunks.flatMap Hunk.lines

def text (d : FileDiff) : JsString := [lineFeed].intercalate d.lines

def body (d : FileDiff) : List BodyLine := d.hunks.flatMap Hunk.body

def rowsFrom (next : Count → Count) (oldLine newLine : Count) : List BodyLine → List DiffRow
  | [] => []
  | line :: rest => line.row oldLine newLine ::
      rowsFrom next (next^[line.oldCount] oldLine) (next^[line.newCount] newLine) rest

/-- One row for each body line, numbered from the header of its hunk. -/
def rows (d : FileDiff) : List DiffRow :=
  d.hunks.flatMap fun hunk => rowsFrom succ (some hunk.old.first) (some hunk.new.first) hunk.body

/-- The line numbers of the rows are numbers that JavaScript has. -/
def NumbersAreDoubles (d : FileDiff) : Prop :=
  ∀ row ∈ d.rows, ∀ number ∈ row.oldLine.toList ++ row.newLine.toList, double number = number

/-- The card shows the diff: a row for each body line, the changes counted, and a limit cuts the
rows short. -/
structure ShownAsIs (d : FileDiff) : Prop where
  rows : parseUnifiedDiffRows d.text none = d.rows
  added : (diffStats d.text).added = (d.rows.filter (·.type = .add)).length
  removed : (diffStats d.text).removed = (d.rows.filter (·.type = .delete)).length
  limited : ∀ k : ℕ, parseUnifiedDiffRows d.text (some k) = d.rows.take (min d.rows.length (k + 1))

end FileDiff

end diffs

section reading

def rowsOf : RowScan → List JsString → List DiffRow
  | _, [] => []
  | scan, line :: rest => (scan.read line).2.toList ++ rowsOf (scan.read line).1 rest

def scanAfter (scan : RowScan) (lines : List JsString) : RowScan :=
  lines.foldl (fun scan line => (scan.read line).1) scan

theorem rowsOf_append (scan : RowScan) (lines more : List JsString) :
    rowsOf scan (lines ++ more) = rowsOf scan lines ++ rowsOf (scanAfter scan lines) more := by
  induction lines generalizing scan with
  | nil => rfl
  | cons line lines ih =>
    rw [List.cons_append, rowsOf, ih, rowsOf, List.append_assoc]
    rfl

theorem scanAfter_append (scan : RowScan) (lines more : List JsString) :
    scanAfter scan (lines ++ more) = scanAfter (scanAfter scan lines) more := by
  simp [scanAfter]

theorem rowsLoop_none (rows : List DiffRow) (scan : RowScan) (lines : List JsString) :
    rowsLoop none rows scan lines = rows ++ rowsOf scan lines := by
  induction lines generalizing rows scan with
  | nil => simp [rowsLoop, rowsOf]
  | cons line lines ih =>
    rw [rowsLoop, rowsOf]
    obtain ⟨next, pushed⟩ := scan.read line
    cases pushed with
    | none => simpa using ih rows next
    | some row => simp [ih]

theorem rowsLoop_some (k : ℕ) (rows : List DiffRow) (scan : RowScan) (lines : List JsString)
    (hroom : rows.length ≤ k) :
    rowsLoop (some k) rows scan lines = (rows ++ rowsOf scan lines).take (k + 1) := by
  induction lines generalizing rows scan with
  | nil =>
    rw [rowsLoop, rowsOf, List.append_nil, List.take_of_length_le (by omega)]
  | cons line lines ih =>
    rw [rowsLoop, rowsOf]
    obtain ⟨next, pushed⟩ := scan.read line
    cases pushed with
    | none => simpa using ih rows next hroom
    | some row =>
      have hlength : (rows ++ [row]).length = rows.length + 1 := by simp
      by_cases hfull : k < (rows ++ [row]).length
      · simp only [Option.any_some, hfull, decide_true, if_true, Option.toList_some]
        rw [← List.append_assoc, List.take_append_of_le_length (by omega),
          List.take_of_length_le (by omega)]
      · simp only [Option.any_some, hfull, decide_false, Bool.false_eq_true, if_false,
          Option.toList_some]
        rw [ih _ _ (by omega), List.append_assoc]

theorem afterPrefix_append (pre rest : JsString) : afterPrefix pre (pre ++ rest) = some rest := by
  simp [afterPrefix, startsWith]

theorem hunkMatch_of_head {unit : UInt16} (rest : JsString) (h : unit ≠ 64) :
    hunkMatch (unit :: rest) = none := by
  have hpre : utf16 "@@ -" = [64, 64, 32, 45] := by decide
  have hnot : afterPrefix (utf16 "@@ -") (unit :: rest) = none := by
    rw [hpre, afterPrefix, if_neg]
    simp [startsWith, List.cons_prefix_cons, Ne.symm h]
  simp [hunkMatch, hnot]

theorem takeNumber_append (digits : Digits) {unit : UInt16} (rest : JsString)
    (hunit : isDigit unit = false) :
    takeNumber (digits.val ++ unit :: rest) = some (digitsNumber digits.val, unit :: rest) := by
  obtain ⟨digits, hne, hall⟩ := digits
  have hdigits : ∀ d ∈ digits, isDigit d = true := List.all_eq_true.mp hall
  have htake : (digits ++ unit :: rest).takeWhile isDigit = digits := by
    rw [List.takeWhile_append_of_pos hdigits]
    simp [hunit]
  have hdrop : (digits ++ unit :: rest).dropWhile isDigit = unit :: rest := by
    rw [List.dropWhile_append_of_pos hdigits]
    simp [hunit]
  simp only [takeNumber, htake, hdrop, hne, if_false]

theorem takeNumber_range (range : HunkRange) (rest : JsString) :
    ∃ counted,
      takeNumber (range.render ++ space :: rest) = some (double (some range.first), counted) ∧
      skipCount counted = space :: rest := by
  obtain ⟨start, count⟩ := range
  cases count with
  | none =>
    refine ⟨space :: rest, ?_, ?_⟩
    · simpa [HunkRange.render, HunkRange.first, digitsNumber] using takeNumber_append start rest
        (by decide : isDigit space = false)
    · rw [skipCount, if_neg (by decide)]
  | some count =>
    refine ⟨comma :: (count.val ++ space :: rest), ?_, ?_⟩
    · simpa [HunkRange.render, HunkRange.first, digitsNumber] using
        takeNumber_append start (count.val ++ space :: rest)
          (by decide : isDigit comma = false)
    · rw [skipCount, if_pos rfl, takeNumber_append count rest (by decide)]
      rfl

theorem hunkMatch_header (hunk : Hunk) :
    hunkMatch hunk.header =
      some (double (some hunk.old.first), double (some hunk.new.first)) := by
  have hplus : utf16 " +" = [space, plus] := by decide
  have hend : utf16 " @@" = [space, 64, 64] := by decide
  obtain ⟨oldCounted, hold, holdSkip⟩ := takeNumber_range hunk.old
    (plus :: (hunk.new.render ++ (utf16 " @@" ++ hunk.heading.val)))
  obtain ⟨newCounted, hnew, hnewSkip⟩ := takeNumber_range hunk.new
    (64 :: 64 :: hunk.heading.val)
  have hfirst : takeNumber (hunk.old.render ++ (utf16 " +" ++ (hunk.new.render ++
      (utf16 " @@" ++ hunk.heading.val)))) = some (double (some hunk.old.first), oldCounted) := by
    rw [hplus]
    exact hold
  have hsecond : takeNumber (hunk.new.render ++ (utf16 " @@" ++ hunk.heading.val)) =
      some (double (some hunk.new.first), newCounted) := by
    rw [hend]
    exact hnew
  have hafterOld : afterPrefix (utf16 " +") (skipCount oldCounted) =
      some (hunk.new.render ++ (utf16 " @@" ++ hunk.heading.val)) := by
    rw [holdSkip, hplus]
    exact afterPrefix_append [space, plus] _
  have hafterNew : afterPrefix (utf16 " @@") (skipCount newCounted) = some hunk.heading.val := by
    rw [hnewSkip, hend]
    exact afterPrefix_append [space, 64, 64] _
  simp only [hunkMatch, Hunk.header, afterPrefix_append, Option.bind_eq_bind, Option.bind_some,
    hfirst, hafterOld, hsecond, hafterNew]
  rfl

end reading

section lines
variable {scan : RowScan}

theorem startsWith_cons (unit : UInt16) (rest : JsString) (first : UInt16) (pre : JsString) :
    startsWith (unit :: rest) (first :: pre) = (decide (first = unit) && startsWith rest pre) := by
  simp [startsWith, List.cons_prefix_cons]

@[simp] theorem startsWith_nil (line : JsString) : startsWith line [] = true := by
  simp [startsWith]

theorem utf16_git : utf16 "diff --git" = 100 :: utf16 "iff --git" := by decide

theorem utf16_pluses : utf16 "+++" = plus :: utf16 "++" := by decide

theorem utf16_minuses : utf16 "---" = minus :: utf16 "--" := by decide

theorem noNewlineMarker_eq :
    noNewlineMarker = backslash :: utf16 " No newline at end of file" := by decide

theorem ne_marker {unit : UInt16} (rest : JsString) (h : unit ≠ backslash) :
    unit :: rest ≠ noNewlineMarker := by
  intro hsame
  exact h (List.cons.inj (hsame.trans noNewlineMarker_eq)).1

theorem read_header {unit : UInt16} (rest : JsString) (hscan : scan.inHunk = false)
    (hunit : unit ∉ [64, backslash, plus, minus, space]) :
    scan.read (unit :: rest) = (scan, none) := by
  simp only [List.mem_cons, List.not_mem_nil, or_false, not_or] at hunit
  obtain ⟨hhunk, hmarker, hplus, hminus, hspace⟩ := hunit
  have hbody : (!scan.inHunk && !startsWith (unit :: rest) [plus] &&
      !startsWith (unit :: rest) [minus] && !startsWith (unit :: rest) [space]) = true := by
    simp [hscan, startsWith_cons, Ne.symm hplus, Ne.symm hminus, Ne.symm hspace]
  rw [RowScan.read, if_neg (List.cons_ne_nil _ _), hunkMatch_of_head rest hhunk]
  dsimp only
  rw [if_neg (ne_marker rest hmarker), if_pos hbody, ite_self]

theorem GitHeader.word_oneLine (header : GitHeader) : lineFeed ∉ utf16 header.word := by
  cases header <;> decide +kernel

theorem GitHeader.word_cons (header : GitHeader) : ∃ unit word, utf16 header.word = unit :: word ∧
    unit ∉ [64, backslash, plus, minus, space] := by
  have hhead : ∃ unit ∈ (utf16 header.word).head?,
      unit ∉ [64, backslash, plus, minus, space] := by
    cases header <;> decide +kernel
  obtain ⟨unit, hunit, hletter⟩ := hhead
  obtain ⟨word, hword⟩ := List.head?_eq_some_iff.mp hunit
  exact ⟨unit, word, hword, hletter⟩

theorem read_git (header : GitHeader) (text : JsString) (hscan : scan.inHunk = false) :
    scan.read (utf16 header.word ++ text) = (scan, none) := by
  obtain ⟨unit, word, hword, hunit⟩ := header.word_cons
  rw [hword, List.cons_append]
  exact read_header _ hscan hunit

theorem read_name {pre : String} (text : JsString)
    (hpre : startsWith (utf16 pre) (utf16 "---") = true ∨
      startsWith (utf16 pre) (utf16 "+++") = true) :
    scan.read (utf16 pre ++ text) = (scan, none) := by
  have hprefix : startsWith (utf16 pre ++ text) (utf16 "---") = true ∨
      startsWith (utf16 pre ++ text) (utf16 "+++") = true := by
    simp only [startsWith, decide_eq_true_eq] at hpre ⊢
    exact hpre.imp (·.trans (List.prefix_append _ _)) (·.trans (List.prefix_append _ _))
  have hne : utf16 pre ++ text ≠ [] := by
    intro hnil
    rw [hnil] at hprefix
    exact absurd hprefix (by decide)
  rw [RowScan.read, if_neg hne, if_pos]
  rcases hprefix with hminus | hplus
  · simp [hminus]
  · simp [hplus]

theorem read_hunk (hunk : Hunk) :
    scan.read hunk.header =
      (⟨double (some hunk.old.first), double (some hunk.new.first), true⟩, none) := by
  obtain ⟨rest, hrest⟩ : ∃ rest, hunk.header = 64 :: rest := ⟨_, rfl⟩
  have hmatch := hunkMatch_header hunk
  rw [hrest] at hmatch ⊢
  rw [RowScan.read, if_neg (List.cons_ne_nil _ _), if_neg, hmatch]
  simp [utf16_git, utf16_pluses, utf16_minuses, startsWith_cons, plus, minus]

/-- In a hunk a body line adds its row, unless it looks like a line that names a file. -/
theorem read_body (line : BodyLine) (hscan : scan.inHunk = true) :
    scan.read line.render = if line.LooksLikeHeader then (scan, none) else
      ({ scan with oldLine := addOne^[line.oldCount] scan.oldLine
                   newLine := addOne^[line.newCount] scan.newLine },
        some (line.row scan.oldLine scan.newLine)) := by
  cases line with
  | context text =>
    have hnone := ne_marker text.val (by decide : space ≠ backslash)
    rw [BodyLine.render, RowScan.read, if_neg (List.cons_ne_nil _ _),
      hunkMatch_of_head text.val (by decide)]
    simp +decide [utf16_git, utf16_pluses, utf16_minuses, startsWith_cons, hnone, hscan,
      BodyLine.LooksLikeHeader, BodyLine.row, BodyLine.render, BodyLine.oldCount,
      BodyLine.newCount, RowScan.pushContext]
  | add text =>
    have hnone := ne_marker text.val (by decide : plus ≠ backslash)
    rw [BodyLine.render, RowScan.read, if_neg (List.cons_ne_nil _ _),
      hunkMatch_of_head text.val (by decide)]
    have hstart : startsWith text.val (utf16 "++") = decide (utf16 "++" <+: text.val) := rfl
    by_cases hlooks : utf16 "++" <+: text.val
    · simp [utf16_pluses, startsWith_cons, hstart, BodyLine.LooksLikeHeader, hlooks]
    · simp +decide [utf16_git, utf16_pluses, utf16_minuses, startsWith_cons, hstart, hnone, hscan,
        BodyLine.LooksLikeHeader, hlooks, BodyLine.row, BodyLine.render, BodyLine.oldCount,
        BodyLine.newCount]
  | delete text =>
    have hnone := ne_marker text.val (by decide : minus ≠ backslash)
    rw [BodyLine.render, RowScan.read, if_neg (List.cons_ne_nil _ _),
      hunkMatch_of_head text.val (by decide)]
    have hstart : startsWith text.val (utf16 "--") = decide (utf16 "--" <+: text.val) := rfl
    by_cases hlooks : utf16 "--" <+: text.val
    · simp [utf16_minuses, startsWith_cons, hstart, BodyLine.LooksLikeHeader, hlooks]
    · simp +decide [utf16_git, utf16_pluses, utf16_minuses, startsWith_cons, hstart, hnone, hscan,
        BodyLine.LooksLikeHeader, hlooks, BodyLine.row, BodyLine.render, BodyLine.oldCount,
        BodyLine.newCount]
  | noNewline =>
    obtain ⟨rest, hrest⟩ : ∃ rest, noNewlineMarker = backslash :: rest := ⟨_, noNewlineMarker_eq⟩
    have hmatch : hunkMatch noNewlineMarker = none := by
      rw [hrest]
      exact hunkMatch_of_head rest (by decide)
    rw [BodyLine.render, RowScan.read, if_neg (by rw [hrest]; exact List.cons_ne_nil _ _), if_neg
      (by decide), hmatch]
    simp [BodyLine.LooksLikeHeader, BodyLine.row, BodyLine.render, BodyLine.oldCount,
      BodyLine.newCount]

end lines

section rows

/-- The rows that reading a body adds: the lines that look like a header leave none, and do not
move the numbers. -/
def shownFrom (oldLine newLine : Count) (body : List BodyLine) : List DiffRow :=
  FileDiff.rowsFrom addOne oldLine newLine (body.filter fun line => !decide line.LooksLikeHeader)

def FileDiff.shown (d : FileDiff) : List DiffRow :=
  d.hunks.flatMap fun hunk =>
    shownFrom (double (some hunk.old.first)) (double (some hunk.new.first)) hunk.body

theorem length_rowsFrom (next : Count → Count) (oldLine newLine : Count) (body : List BodyLine) :
    (FileDiff.rowsFrom next oldLine newLine body).length = body.length := by
  induction body generalizing oldLine newLine with
  | nil => rfl
  | cons line body ih => rw [FileDiff.rowsFrom, List.length_cons, ih, List.length_cons]

theorem rowsOf_body (body : List BodyLine) (scan : RowScan) (hscan : scan.inHunk = true) :
    rowsOf scan (body.map BodyLine.render) = shownFrom scan.oldLine scan.newLine body ∧
      (scanAfter scan (body.map BodyLine.render)).inHunk = true := by
  induction body generalizing scan with
  | nil => exact ⟨rfl, hscan⟩
  | cons line body ih =>
    rw [List.map_cons, rowsOf, scanAfter, List.foldl_cons, read_body line hscan]
    by_cases hlooks : line.LooksLikeHeader
    · have hrest := ih scan hscan
      simp only [hlooks, if_true, Option.toList_none, List.nil_append]
      rw [shownFrom, List.filter_cons_of_neg (by simp [hlooks])]
      exact hrest
    · have hrest := ih { scan with
        oldLine := addOne^[line.oldCount] scan.oldLine
        newLine := addOne^[line.newCount] scan.newLine } hscan
      simp only [hlooks, if_false, Option.toList_some, List.singleton_append]
      rw [shownFrom, List.filter_cons_of_pos (by simp [hlooks]), FileDiff.rowsFrom, hrest.1]
      exact ⟨rfl, hrest.2⟩

theorem rowsOf_hunks (hunks : List Hunk) (scan : RowScan) :
    rowsOf scan (hunks.flatMap Hunk.lines) =
      hunks.flatMap fun hunk =>
        shownFrom (double (some hunk.old.first)) (double (some hunk.new.first)) hunk.body := by
  induction hunks generalizing scan with
  | nil => rfl
  | cons hunk hunks ih =>
    have hbody := rowsOf_body hunk.body
      ⟨double (some hunk.old.first), double (some hunk.new.first), true⟩ rfl
    rw [List.flatMap_cons, List.flatMap_cons, rowsOf_append, ih, Hunk.lines, rowsOf, read_hunk,
      Option.toList_none, List.nil_append, hbody.1]

theorem rowsOf_headers (d : FileDiff) :
    rowsOf {} d.headers = [] ∧ scanAfter {} d.headers = {} := by
  have hgit : ∀ lines : List (GitHeader × Content),
      rowsOf {} (lines.map fun line => utf16 line.1.word ++ line.2.val) = [] ∧
        scanAfter {} (lines.map fun line => utf16 line.1.word ++ line.2.val) = {} := by
    intro lines
    induction lines with
    | nil => exact ⟨rfl, rfl⟩
    | cons line lines ih =>
      rw [List.map_cons, rowsOf, scanAfter, List.foldl_cons, read_git line.1 line.2.val rfl]
      exact ih
  have hold : RowScan.read {} (utf16 "--- " ++ d.oldName.val) = ({}, none) :=
    read_name _ (Or.inl (by decide))
  have hnew : RowScan.read {} (utf16 "+++ " ++ d.newName.val) = ({}, none) :=
    read_name _ (Or.inr (by decide))
  rw [FileDiff.headers, rowsOf_append, scanAfter_append, (hgit d.git).1, (hgit d.git).2]
  simp [rowsOf, scanAfter, hold, hnew]

theorem rowsOf_lines (d : FileDiff) : rowsOf {} d.lines = d.shown := by
  rw [FileDiff.lines, rowsOf_append, (rowsOf_headers d).1, (rowsOf_headers d).2, rowsOf_hunks]
  rfl

end rows

section text

theorem digits_oneLine (digits : Digits) : lineFeed ∉ digits.val := by
  intro hmem
  have hdigit := List.all_eq_true.mp digits.property.2 lineFeed hmem
  exact absurd hdigit (by decide)

theorem range_oneLine (range : HunkRange) : lineFeed ∉ range.render := by
  obtain ⟨start, count⟩ := range
  cases count with
  | none => simpa [HunkRange.render] using digits_oneLine start
  | some count =>
    have hcomma : lineFeed ≠ comma := by decide
    simp [HunkRange.render, digits_oneLine start, digits_oneLine count, hcomma]

theorem bodyLine_oneLine (line : BodyLine) : lineFeed ∉ line.render := by
  cases line with
  | context text =>
    have hspace : lineFeed ≠ space := by decide
    simp [BodyLine.render, hspace, text.property]
  | add text =>
    have hplus : lineFeed ≠ plus := by decide
    simp [BodyLine.render, hplus, text.property]
  | delete text =>
    have hminus : lineFeed ≠ minus := by decide
    simp [BodyLine.render, hminus, text.property]
  | noNewline => decide

theorem line_oneLine {d : FileDiff} {line : JsString} (h : line ∈ d.lines) : lineFeed ∉ line := by
  simp only [FileDiff.lines, FileDiff.headers, List.mem_append, List.mem_map, List.mem_cons,
    List.not_mem_nil, or_false, List.mem_flatMap] at h
  rcases h with (⟨git, -, rfl⟩ | rfl | rfl) | ⟨hunk, -, hline⟩
  · simp [GitHeader.word_oneLine, git.2.property]
  · have hpre : lineFeed ∉ utf16 "--- " := by decide
    simp only [List.mem_append, not_or]
    exact ⟨hpre, d.oldName.property⟩
  · have hpre : lineFeed ∉ utf16 "+++ " := by decide
    simp only [List.mem_append, not_or]
    exact ⟨hpre, d.newName.property⟩
  · rcases List.mem_cons.mp hline with rfl | hbody
    · have hstart : lineFeed ∉ utf16 "@@ -" := by decide
      have hmiddle : lineFeed ∉ utf16 " +" := by decide
      have hend : lineFeed ∉ utf16 " @@" := by decide
      simp only [Hunk.header, List.mem_append, not_or]
      exact ⟨hstart, range_oneLine _, hmiddle, range_oneLine _, hend, hunk.heading.property⟩
    · obtain ⟨body, -, rfl⟩ := List.mem_map.mp hbody
      exact bodyLine_oneLine body

theorem lines_ne_nil (d : FileDiff) : d.lines ≠ [] := by
  simp [FileDiff.lines, FileDiff.headers]

theorem splitOn_text (d : FileDiff) : d.text.splitOn lineFeed = d.lines :=
  List.splitOn_intercalate lineFeed (fun _ h => line_oneLine h) (lines_ne_nil d)

theorem parse_text (d : FileDiff) (maxRows : Option ℕ) :
    parseUnifiedDiffRows d.text maxRows = rowsLoop maxRows [] {} d.lines := by
  rw [parseUnifiedDiffRows, iterateLines, splitOn_text]

end text

section stats

theorem not_added_and_removed (line : JsString) (h : isAddedLine line = true) :
    isRemovedLine line = false := by
  cases line with
  | nil => rfl
  | cons unit rest =>
    have hplus : plus = unit := by
      have hstart := (Bool.and_eq_true_iff.mp h).1
      rw [startsWith_cons] at hstart
      simpa using hstart
    subst hplus
    rw [isRemovedLine, startsWith_cons]
    simp +decide

theorem foldl_countLine (lines : List JsString) (stats : DiffStats) :
    lines.foldl countLine stats = ⟨stats.added + lines.countP isAddedLine,
      stats.removed + lines.countP isRemovedLine⟩ := by
  induction lines generalizing stats with
  | nil => rfl
  | cons line lines ih =>
    rw [List.foldl_cons, ih, countLine, List.countP_cons, List.countP_cons]
    by_cases hadded : isAddedLine line = true
    · simp only [hadded, if_true, not_added_and_removed line hadded, Bool.false_eq_true, if_false,
        DiffStats.mk.injEq]
      omega
    · by_cases hremoved : isRemovedLine line = true
      · simp only [hadded, hremoved, if_true, Bool.false_eq_true, if_false, DiffStats.mk.injEq]
        omega
      · simp [hadded, hremoved]

theorem diffStats_text (d : FileDiff) : diffStats d.text =
    ⟨d.lines.countP isAddedLine, d.lines.countP isRemovedLine⟩ := by
  have hne : d.text ≠ [] := by
    intro hnil
    have hlines := splitOn_text d
    have htwo : 2 ≤ d.lines.length := by
      simp only [FileDiff.lines, FileDiff.headers, List.length_append, List.length_cons,
        List.length_nil]
      omega
    rw [hnil, List.splitOn_nil] at hlines
    rw [← hlines] at htwo
    exact absurd htwo (by decide)
  rw [diffStats, if_neg hne, splitOn_text, foldl_countLine]
  simp

structure CountsAs (counts : JsString → Bool) (type : RowType) : Prop where
  body : ∀ line : BodyLine, ¬line.LooksLikeHeader → ∀ oldLine newLine : Count,
    counts line.render = decide ((line.row oldLine newLine).type = type)
  git : ∀ (header : GitHeader) (text : JsString), counts (utf16 header.word ++ text) = false
  oldName : ∀ text : JsString, counts (utf16 "--- " ++ text) = false
  newName : ∀ text : JsString, counts (utf16 "+++ " ++ text) = false
  header : ∀ hunk : Hunk, counts hunk.header = false

theorem CountsAs.count {counts : JsString → Bool} {type : RowType} (h : CountsAs counts type)
    (d : FileDiff) (hplain : ∀ line ∈ d.body, ¬line.LooksLikeHeader) :
    d.lines.countP counts = (d.rows.filter (·.type = type)).length := by
  have hheaders : d.headers.countP counts = 0 := by
    rw [List.countP_eq_zero]
    intro line hline
    simp only [FileDiff.headers, List.mem_append, List.mem_map, List.mem_cons, List.not_mem_nil,
      or_false] at hline
    rcases hline with ⟨git, -, rfl⟩ | rfl | rfl
    · simp [h.git]
    · simp [h.oldName]
    · simp [h.newName]
  have hbody : ∀ (body : List BodyLine) (oldLine newLine : Count),
      (∀ line ∈ body, ¬line.LooksLikeHeader) → (body.map BodyLine.render).countP counts =
        ((FileDiff.rowsFrom succ oldLine newLine body).filter (·.type = type)).length := by
    intro body
    induction body with
    | nil => exact fun _ _ _ => rfl
    | cons line body ih =>
      intro oldLine newLine hbody
      have hline := h.body line (hbody line List.mem_cons_self) oldLine newLine
      have hrest := ih (succ^[line.oldCount] oldLine) (succ^[line.newCount] newLine)
        fun other hother => hbody other (List.mem_cons_of_mem _ hother)
      rw [List.map_cons, List.countP_cons, FileDiff.rowsFrom, List.filter_cons, hrest, hline]
      by_cases htype : (line.row oldLine newLine).type = type
      · simp [htype]
      · simp [htype]
  rw [FileDiff.lines, List.countP_append, hheaders, Nat.zero_add, FileDiff.rows,
    List.countP_flatMap, List.filter_flatMap, List.length_flatMap]
  congr 1
  apply List.map_congr_left
  intro hunk hhunk
  simp only [Function.comp_apply]
  rw [Hunk.lines, List.countP_cons, h.header,
    hbody _ (some hunk.old.first) (some hunk.new.first) fun line hline =>
      hplain line (List.mem_flatMap.mpr ⟨hunk, hhunk, hline⟩)]
  rfl

theorem countsAs_added : CountsAs isAddedLine .add where
  body line hplain oldLine newLine := by
    cases line with
    | add text =>
      have hlooks : startsWith text.val (utf16 "++") = false := decide_eq_false hplain
      simp [isAddedLine, BodyLine.render, BodyLine.row, utf16_pluses, startsWith_cons, hlooks]
    | context text =>
      simp +decide [isAddedLine, BodyLine.render, BodyLine.row, startsWith_cons]
    | delete text =>
      simp +decide [isAddedLine, BodyLine.render, BodyLine.row, startsWith_cons]
    | noNewline => simp +decide [isAddedLine, BodyLine.render, BodyLine.row]
  git header text := by
    obtain ⟨unit, word, hword, hunit⟩ := header.word_cons
    have hplus : plus ≠ unit := by
      rintro rfl
      exact hunit (by decide)
    rw [hword, List.cons_append, isAddedLine, startsWith_cons]
    simp [hplus]
  oldName text := by
    rw [isAddedLine, (by decide : utf16 "--- " = minus :: utf16 "-- "), List.cons_append,
      startsWith_cons]
    simp +decide
  newName text := by
    have hpre : startsWith (utf16 "+++ " ++ text) (utf16 "+++") = true := by
      rw [startsWith, decide_eq_true_eq]
      exact (by decide : utf16 "+++" <+: utf16 "+++ ").trans (List.prefix_append _ _)
    rw [isAddedLine, hpre, Bool.not_true, Bool.and_false]
  header hunk := by
    obtain ⟨rest, hrest⟩ : ∃ rest, hunk.header = 64 :: rest := ⟨_, rfl⟩
    rw [hrest, isAddedLine, startsWith_cons]
    simp +decide

theorem countsAs_removed : CountsAs isRemovedLine .delete where
  body line hplain oldLine newLine := by
    cases line with
    | delete text =>
      have hlooks : startsWith text.val (utf16 "--") = false := decide_eq_false hplain
      simp [isRemovedLine, BodyLine.render, BodyLine.row, utf16_minuses, startsWith_cons, hlooks]
    | context text =>
      simp +decide [isRemovedLine, BodyLine.render, BodyLine.row, startsWith_cons]
    | add text =>
      simp +decide [isRemovedLine, BodyLine.render, BodyLine.row, startsWith_cons]
    | noNewline => simp +decide [isRemovedLine, BodyLine.render, BodyLine.row]
  git header text := by
    obtain ⟨unit, word, hword, hunit⟩ := header.word_cons
    have hminus : minus ≠ unit := by
      rintro rfl
      exact hunit (by decide)
    rw [hword, List.cons_append, isRemovedLine, startsWith_cons]
    simp [hminus]
  oldName text := by
    have hpre : startsWith (utf16 "--- " ++ text) (utf16 "---") = true := by
      rw [startsWith, decide_eq_true_eq]
      exact (by decide : utf16 "---" <+: utf16 "--- ").trans (List.prefix_append _ _)
    rw [isRemovedLine, hpre, Bool.not_true, Bool.and_false]
  newName text := by
    rw [isRemovedLine, (by decide : utf16 "+++ " = plus :: utf16 "++ "), List.cons_append,
      startsWith_cons]
    simp +decide
  header hunk := by
    obtain ⟨rest, hrest⟩ : ∃ rest, hunk.header = 64 :: rest := ⟨_, rfl⟩
    rw [hrest, isRemovedLine, startsWith_cons]
    simp +decide

end stats

theorem length_shown_le (d : FileDiff) : d.shown.length + (d.body.countP (·.LooksLikeHeader)) =
    d.rows.length := by
  unfold FileDiff.shown FileDiff.rows FileDiff.body
  induction d.hunks with
  | nil => rfl
  | cons hunk hunks ih =>
    have hbody := List.length_eq_countP_add_countP (fun line => !decide line.LooksLikeHeader)
      (l := hunk.body)
    simp only [List.flatMap_cons, List.length_append, List.countP_append, shownFrom,
      length_rowsFrom, ← List.countP_eq_length_filter] at ih ⊢
    simp only [Bool.not_eq_true, Bool.not_eq_false', decide_eq_true_eq] at hbody
    omega

theorem double_iterate_addOne (count : ℕ) {line : Count} (h : double line = line) :
    double (addOne^[count] line) = addOne^[count] line := by
  cases count with
  | zero => exact h
  | succ count =>
    rw [Function.iterate_succ_apply']
    exact double_double _

theorem rowsFrom_double (body : List BodyLine) {oldLine newLine : Count}
    (hold : double oldLine = oldLine) (hnew : double newLine = newLine) :
    ∀ row ∈ FileDiff.rowsFrom addOne oldLine newLine body,
      ∀ number ∈ row.oldLine.toList ++ row.newLine.toList, double number = number := by
  induction body generalizing oldLine newLine with
  | nil => simp [FileDiff.rowsFrom]
  | cons line body ih =>
    have hrest := ih (double_iterate_addOne line.oldCount hold)
      (double_iterate_addOne line.newCount hnew)
    rw [FileDiff.rowsFrom, List.forall_mem_cons]
    refine ⟨?_, hrest⟩
    cases line <;> simp [BodyLine.row, hold, hnew]

/-- As long as the numbers are doubles, they are counted as they are. -/
theorem rowsFrom_addOne (body : List BodyLine) (oldLine newLine : Count)
    (h : ∀ row ∈ FileDiff.rowsFrom succ oldLine newLine body,
      ∀ number ∈ row.oldLine.toList ++ row.newLine.toList, double number = number) :
    FileDiff.rowsFrom addOne (double oldLine) (double newLine) body =
      FileDiff.rowsFrom succ oldLine newLine body := by
  induction body generalizing oldLine newLine with
  | nil => rfl
  | cons line body ih =>
    rw [FileDiff.rowsFrom, List.forall_mem_cons] at h
    have hrest := ih _ _ h.2
    have hline := h.1
    rw [FileDiff.rowsFrom, FileDiff.rowsFrom, ← hrest]
    cases line <;>
      simp_all [BodyLine.row, BodyLine.oldCount, BodyLine.newCount, addOne]

theorem shown_double (d : FileDiff) (h : d.shown = d.rows) : d.NumbersAreDoubles := by
  intro row hrow
  rw [← h] at hrow
  obtain ⟨hunk, -, hmem⟩ := List.mem_flatMap.mp hrow
  exact rowsFrom_double _ (double_double _) (double_double _) row hmem

/-- The card shows a diff as it is exactly if no added line goes on with two pluses and no deleted
line with two minuses, and its line numbers are doubles. -/
theorem shownAsIs_iff (d : FileDiff) :
    d.ShownAsIs ↔ (∀ line ∈ d.body, ¬line.LooksLikeHeader) ∧ d.NumbersAreDoubles := by
  have hread : parseUnifiedDiffRows d.text none = d.shown := by
    rw [parse_text, rowsLoop_none, rowsOf_lines, List.nil_append]
  constructor
  · intro hshown
    refine ⟨?_, shown_double d (hread.symm.trans hshown.rows)⟩
    intro line hline hlooks
    have hcount := length_shown_le d
    rw [← hread, hshown.rows] at hcount
    have hnone : d.body.countP (·.LooksLikeHeader) = 0 := by omega
    exact absurd (List.countP_eq_zero.mp hnone line hline) (by simpa using hlooks)
  · rintro ⟨hplain, hdoubles⟩
    have hrows : d.shown = d.rows := by
      unfold FileDiff.shown FileDiff.rows
      apply List.flatMap_congr
      intro hunk hhunk
      rw [shownFrom, List.filter_eq_self.mpr]
      · apply rowsFrom_addOne
        intro row hrow
        exact hdoubles row (List.mem_flatMap.mpr ⟨hunk, hhunk, hrow⟩)
      · intro line hline
        simpa using hplain line (List.mem_flatMap.mpr ⟨hunk, hhunk, hline⟩)
    refine ⟨hread.trans hrows, ?_, ?_, ?_⟩
    · rw [diffStats_text]
      exact countsAs_added.count d hplain
    · rw [diffStats_text]
      exact countsAs_removed.count d hplain
    · intro k
      rw [parse_text, rowsLoop_some k [] {} d.lines (Nat.zero_le k), rowsOf_lines,
        List.nil_append, hrows]
      rcases Nat.le_total d.rows.length (k + 1) with hshort | hlong
      · rw [Nat.min_eq_left hshort, List.take_length, List.take_of_length_le hshort]
      · rw [Nat.min_eq_right hlong]

/-- Deletes the line `-- x` of a file. -/
def deletedComment : FileDiff where
  git := []
  oldName := ⟨utf16 "a/q.sql", by decide⟩
  newName := ⟨utf16 "b/q.sql", by decide⟩
  hunks := [{
    old := ⟨⟨utf16 "1", by decide⟩, some ⟨utf16 "2", by decide⟩⟩
    new := ⟨⟨utf16 "1", by decide⟩, some ⟨utf16 "1", by decide⟩⟩
    heading := ⟨[], by decide⟩
    body := [.delete ⟨utf16 "-- x", by decide⟩, .context ⟨utf16 "y", by decide⟩]
    oldLines := by decide
    newLines := by decide }]

/-- A deleted SQL comment leaves no row, and the line after it gets its number. -/
theorem deletedComment_not_shown : ¬deletedComment.ShownAsIs ∧
    deletedComment.NumbersAreDoubles ∧
    parseUnifiedDiffRows deletedComment.text none =
      [⟨utf16 " y", " ", some (some 1), some (some 1), .context⟩] ∧
    diffStats deletedComment.text = ⟨0, 0⟩ := by
  have hrows : parseUnifiedDiffRows deletedComment.text none =
      [⟨utf16 " y", " ", some (some 1), some (some 1), .context⟩] := by decide +kernel
  have hdoubles : deletedComment.NumbersAreDoubles := by
    unfold FileDiff.NumbersAreDoubles
    decide +kernel
  refine ⟨?_, hdoubles, hrows, by decide +kernel⟩
  intro hshown
  exact absurd (hrows.symm.trans hshown.rows) (by decide +kernel)

end AgentRelay.DiffView
