import AgentRelay.TextLines

/-! The Undo verdict on whole patches: the grammar of a multi-file unified patch, and what the
scan says of its text and of its cuts. -/
namespace AgentRelay.Relay
open Text

abbrev LineText := { text : List Char // '\n' ∉ text }

def startLine (start : String) (rest : List Char) : List Char := start.toList ++ rest

structure RelativePath where
  text : List Char
  nonempty : text ≠ []
  oneLine : '\n' ∉ text
  components : ('/' :: text).IsChain fun a b => ¬(a = '/' ∧ b = '/')

inductive PatchSide
  | file (path : RelativePath)
  | devNull

def PatchSide.render (side : PatchSide) (mark : Char) : List Char :=
  match side with
  | .file path => [mark] ++ '/' :: path.text
  | .devNull => startLine "/dev/null" []

abbrev Digits := { digits : List Char // digits ≠ [] ∧ digits.all Char.isDigit = true }

structure HunkRange where
  start : Digits
  count : Option Digits

def HunkRange.lines (range : HunkRange) : Nat :=
  range.count.elim 1 fun count => digitsValue count.val

def HunkRange.render (range : HunkRange) : List Char :=
  range.start.val ++ range.count.elim [] fun count => ',' :: count.val

inductive BodyLine
  | context (text : LineText)
  | removed (text : LineText)
  | added (text : LineText)
  | marker (text : LineText)

namespace BodyLine

def render : BodyLine → List Char
  | context text => ' ' :: text.val
  | removed text => '-' :: text.val
  | added text => '+' :: text.val
  | marker text => '\\' :: text.val

def oldCount : BodyLine → Nat
  | context _ | removed _ => 1
  | added _ | marker _ => 0

def newCount : BodyLine → Nat
  | context _ | added _ => 1
  | removed _ | marker _ => 0

end BodyLine

def oldLines (body : List BodyLine) : Nat := (body.map BodyLine.oldCount).sum

def newLines (body : List BodyLine) : Nat := (body.map BodyLine.newCount).sum

structure PatchHunk where
  old : HunkRange
  new : HunkRange
  tail : LineText
  body : List BodyLine
  oldExact : oldLines body = old.lines
  newExact : newLines body = new.lines

namespace PatchHunk

def header (hunk : PatchHunk) : List Char :=
  startLine "@@ " (('-' :: hunk.old.render) ++ ' ' :: (('+' :: hunk.new.render) ++
    ' ' :: '@' :: '@' :: hunk.tail.val))

def lines (hunk : PatchHunk) : List (List Char) := hunk.header :: hunk.body.map BodyLine.render

end PatchHunk

structure FileSection where
  oldPath : RelativePath
  newPath : RelativePath
  oldSide : PatchSide
  newSide : PatchSide
  hunks : List PatchHunk
  gap : Nat

namespace FileSection

def gitLine (part : FileSection) : List Char :=
  startLine "diff --git " (['a'] ++ '/' :: (part.oldPath.text ++
    ' ' :: 'b' :: '/' :: part.newPath.text))

def oldLine (part : FileSection) : List Char := startLine "--- " (part.oldSide.render 'a')

def newLine (part : FileSection) : List Char := startLine "+++ " (part.newSide.render 'b')

def headers (part : FileSection) : List (List Char) :=
  [part.gitLine, part.oldLine, part.newLine]

def filled (part : FileSection) : List (List Char) :=
  part.headers ++ part.hunks.flatMap PatchHunk.lines

def lines (part : FileSection) : List (List Char) :=
  part.filled ++ List.replicate part.gap []

def endsBlank (part : FileSection) : Bool :=
  match (part.hunks.getLast?).bind (·.body.getLast?) with
  | some (.context text) => blankLine text.val
  | _ => false

end FileSection

def patchText (parts : List FileSection) : List Char :=
  joinLines (parts.flatMap FileSection.lines)

/-! ## Reading lines -/

def Reads (lines : List (List Char)) (scan next : PatchScan) : Prop :=
  ∀ shown, List.Forall₂ Shown lines shown → shown.foldlM PatchScan.step scan = some next

theorem Reads.nil (scan : PatchScan) : Reads [] scan scan := by
  intro shown h
  cases h
  rfl

theorem Reads.cons {line : List Char} {lines : List (List Char)} {scan mid next : PatchScan}
    (hline : ∀ shown, Shown line shown → PatchScan.step scan shown = some mid)
    (h : Reads lines mid next) : Reads (line :: lines) scan next := by
  intro shown hshown
  cases hshown with
  | cons hfirst hrest => rw [List.foldlM_cons, hline _ hfirst]; exact h _ hrest

theorem Reads.append {lines more : List (List Char)} {scan mid next : PatchScan}
    (h : Reads lines scan mid) (hmore : Reads more mid next) :
    Reads (lines ++ more) scan next := by
  induction lines generalizing scan with
  | nil =>
    have hsame : some scan = some mid := h [] .nil
    exact Option.some.inj hsame ▸ hmore
  | cons line lines ih =>
    intro shown hshown
    have hfirst := (List.forall₂_take_append shown (line :: lines) more hshown.flip).flip
    have hrest := (List.forall₂_drop_append shown (line :: lines) more hshown.flip).flip
    rw [← List.take_append_drop (line :: lines).length shown, List.foldlM_append, h _ hfirst]
    exact hmore _ hrest

section Steps

variable {scan : PatchScan} {shown : List Char}

theorem stripPrefix_append (pre text : List Char) : stripPrefix pre (pre ++ text) = some text := by
  simp [stripPrefix]

theorem stripPrefix_of_head {a b : Char} (pre text : List Char) (h : a ≠ b) :
    stripPrefix (a :: pre) (b :: text) = none := by
  rw [stripPrefix, if_neg]
  intro hprefix
  exact h (List.cons_prefix_cons.mp hprefix).1

structure SectionRead (scan : PatchScan) : Prop where
  idle : scan.owed = none
  old : scan.hasOld = true
  new : scan.hasNew = true

def ReadyFor (scan : PatchScan) : Prop :=
  scan.owed = none ∧ (scan.sectionOpen && !(scan.hasOld && scan.hasNew)) = false

theorem SectionRead.ready (h : SectionRead scan) : ReadyFor scan := by
  simp [ReadyFor, h.idle, h.old, h.new]

theorem words_relative {text : List Char} (h : text.IsChain fun a b => ¬(a = '/' ∧ b = '/')) :
    (splitWhitespace text).any PatchScan.absoluteTarget = false := by
  rw [List.any_eq_false]
  intro word hword htarget
  have hchain := isChain_splitWhitespace h hword
  rw [PatchScan.absoluteTarget, Bool.or_eq_true, decide_eq_true_eq, decide_eq_true_eq] at htarget
  obtain ⟨rest, rfl⟩ | ⟨rest, rfl⟩ := htarget
  · simp at hchain
  · simp at hchain

theorem step_gitLine (part : FileSection) (hready : ReadyFor scan)
    (h : Shown part.gitLine shown) :
    PatchScan.step scan shown = some { scan with
      sections := scan.sections + 1, sectionOpen := true, hasOld := false, hasNew := false } := by
  rw [FileSection.gitLine, startLine] at h
  obtain ⟨kept, hkept, rfl⟩ := Shown.keeps_through (by decide) h
  have hchain : (['a'] ++ '/' :: kept).IsChain fun a b => ¬(a = '/' ∧ b = '/') := by
    have hall : ('/' :: (part.oldPath.text ++ ' ' :: 'b' :: '/' :: part.newPath.text)).IsChain
        fun a b => ¬(a = '/' ∧ b = '/') := by
      rw [← List.cons_append]
      refine part.oldPath.components.append ?_ (by simp)
      exact .cons_cons (by simp) (.cons_cons (by simp) part.newPath.components)
    obtain ⟨more, hmore⟩ := hkept
    rw [← hmore, ← List.cons_append] at hall
    exact .cons_cons (by simp) hall.left_of_append
  rw [PatchScan.step, stripPrefix_append]
  simp only [hready.1, hready.2, words_relative hchain, Option.isSome_none, Bool.false_eq_true,
    if_false]

theorem not_opening {c : Char} (text : List Char) (hd : 'd' ≠ c) (hat : '@' ≠ c) :
    stripPrefix "diff --git ".toList (c :: text) = none ∧
      stripPrefix "@@ ".toList (c :: text) = none :=
  have hgit : "diff --git ".toList = 'd' :: "iff --git ".toList := by decide
  have hhunk : "@@ ".toList = '@' :: "@ ".toList := by decide
  ⟨hgit ▸ stripPrefix_of_head _ _ hd, hhunk ▸ stripPrefix_of_head _ _ hat⟩

theorem badSide_file {mark : Char} {path : RelativePath} {kept : List Char}
    (hmark : mark ≠ '/') (hkept : kept <+: path.text) :
    PatchScan.badSide ([mark] ++ '/' :: kept) = false := by
  have hslash : ¬['/'] <+: kept := by
    intro hstart
    obtain ⟨rest, hrest⟩ := hstart.trans hkept
    have hcomponents := path.components
    rw [← hrest] at hcomponents
    simp at hcomponents
  have ha : "a//".toList = ['a', '/', '/'] := by decide
  have hb : "b//".toList = ['b', '/', '/'] := by decide
  simp only [PatchScan.badSide, PatchScan.absoluteTarget, ha, hb, List.singleton_append,
    List.cons_prefix_cons, hslash, and_false, hmark.symm, false_and, decide_false, Bool.or_self,
    Bool.false_and]

theorem shown_side {pre : List Char} (side : PatchSide) {mark : Char} (hmark : mark ≠ '/')
    (h : Shown (pre ++ side.render mark) shown) :
    ∃ rest, shown = pre ++ rest ∧ PatchScan.badSide rest = false := by
  cases side with
  | file path =>
    obtain ⟨kept, hkept, rfl⟩ := Shown.keeps_through (by decide) h
    exact ⟨_, rfl, badSide_file hmark hkept⟩
  | devNull =>
    have hlit : "/dev/null".toList ++ [] = "/dev/nul".toList ++ ['l'] := by decide
    rw [PatchSide.render, startLine, hlit] at h
    obtain ⟨kept, hkept, rfl⟩ := Shown.keeps_through (by decide) h
    rw [List.prefix_nil] at hkept
    exact ⟨_, rfl, hkept ▸ by decide⟩

theorem step_oldLine (part : FileSection) (hidle : scan.owed = none)
    (h : Shown part.oldLine shown) :
    PatchScan.step scan shown = some { scan with hasOld := true } := by
  rw [FileSection.oldLine, startLine] at h
  obtain ⟨rest, rfl, hrest⟩ := shown_side part.oldSide (by decide) h
  have hcons : "--- ".toList ++ rest = '-' :: ("-- ".toList ++ rest) := by
    have hlit : "--- ".toList = '-' :: "-- ".toList := by decide
    rw [hlit, List.cons_append]
  have hopen := not_opening ("-- ".toList ++ rest) (by decide : 'd' ≠ '-') (by decide)
  rw [← hcons] at hopen
  simp only [PatchScan.step, hopen.1, hopen.2, hidle, stripPrefix_append, hrest,
    Bool.false_eq_true, if_false]

theorem step_newLine (part : FileSection) (hidle : scan.owed = none)
    (h : Shown part.newLine shown) :
    PatchScan.step scan shown = some { scan with hasNew := true } := by
  rw [FileSection.newLine, startLine] at h
  obtain ⟨rest, rfl, hrest⟩ := shown_side part.newSide (by decide) h
  have hcons : "+++ ".toList ++ rest = '+' :: ("++ ".toList ++ rest) := by
    have hlit : "+++ ".toList = '+' :: "++ ".toList := by decide
    rw [hlit, List.cons_append]
  have hopen := not_opening ("++ ".toList ++ rest) (by decide : 'd' ≠ '+') (by decide)
  have hold : stripPrefix "--- ".toList ('+' :: ("++ ".toList ++ rest)) = none := by
    have hlit : "--- ".toList = '-' :: "-- ".toList := by decide
    rw [hlit]
    exact stripPrefix_of_head _ _ (by decide)
  rw [← hcons] at hopen hold
  simp only [PatchScan.step, hopen.1, hopen.2, hold, hidle, stripPrefix_append, hrest,
    Bool.false_eq_true, if_false]

theorem step_gap (hidle : scan.owed = none) (h : Shown [] shown) :
    PatchScan.step scan shown = some scan := by
  rw [List.prefix_nil.mp h.2]
  have hnone : ∀ pre, pre ≠ [] → stripPrefix pre [] = none := by
    intro pre hne
    simp [stripPrefix, hne]
  simp only [PatchScan.step, hidle, hnone _ (by decide : "diff --git ".toList ≠ []),
    hnone _ (by decide : "@@ ".toList ≠ []), hnone _ (by decide : "--- ".toList ≠ []),
    hnone _ (by decide : "+++ ".toList ≠ [])]

theorem isDigit_bounds {c : Char} (h : c.isDigit = true) : 48 ≤ c.toNat ∧ c.toNat ≤ 57 := by
  simp only [Char.isDigit, Bool.and_eq_true, decide_eq_true_eq] at h
  exact ⟨UInt32.le_iff_toNat_le.mp h.1, UInt32.le_iff_toNat_le.mp h.2⟩

theorem isDigit_not_whitespace {c : Char} (h : c.isDigit = true) : isWhitespace c = false := by
  obtain ⟨hlow, hhigh⟩ := isDigit_bounds h
  simp only [isWhitespace, Bool.or_eq_false_iff, Bool.and_eq_false_iff, decide_eq_false_iff_not]
  omega

theorem isDigit_ne {c d : Char} (h : c.isDigit = true) (hd : d.isDigit = false) : c ≠ d := by
  intro hsame
  rw [hsame, hd] at h
  exact Bool.false_ne_true h

theorem HunkRange.render_word (range : HunkRange) {c : Char} (h : c ∈ range.render) :
    isWhitespace c = false := by
  rw [HunkRange.render, List.mem_append] at h
  obtain hstart | hcount := h
  · exact isDigit_not_whitespace (List.all_eq_true.mp range.start.property.2 c hstart)
  · cases hdigits : range.count with
    | none => simp [hdigits] at hcount
    | some digits =>
      rw [hdigits, Option.elim_some, List.mem_cons] at hcount
      obtain rfl | hmem := hcount
      · decide
      · exact isDigit_not_whitespace (List.all_eq_true.mp digits.property.2 c hmem)

theorem parseUsize_digits (digits : Digits) (h : digitsValue digits.val ≤ usizeMax) :
    parseUsize digits.val = some (digitsValue digits.val) := by
  obtain ⟨digits, hne, hall⟩ := digits
  obtain ⟨c, rest, rfl⟩ := List.exists_cons_of_ne_nil hne
  have hc : '+' ≠ c := by
    intro hplus
    simp [← hplus] at hall
  rw [parseUsize, stripPrefix_of_head _ _ hc]
  simp only [Option.getD_none]
  rw [if_pos ⟨hne, hall, h⟩]

theorem side_render (range : HunkRange) (sign : Char) (h : range.lines ≤ usizeMax) :
    PatchScan.side (sign :: range.render) sign = some range.lines := by
  have hstrip : stripPrefix [sign] (sign :: range.render) = some range.render :=
    stripPrefix_append [sign] range.render
  have hdrop : range.render.dropWhile (· ≠ ',') =
      range.count.elim [] fun count => ',' :: count.val := by
    rw [HunkRange.render, List.dropWhile_append_of_pos]
    · cases range.count <;> simp
    · intro c hc
      have hdigit := List.all_eq_true.mp range.start.property.2 c hc
      simpa using isDigit_ne hdigit (by decide : ','.isDigit = false)
  unfold PatchScan.side
  simp only [hstrip, Option.bind_eq_bind, Option.bind_some, hdrop]
  cases hcount : range.count with
  | none => simp [HunkRange.lines, hcount]
  | some count =>
    rw [HunkRange.lines, hcount] at h
    simpa [HunkRange.lines, hcount] using parseUsize_digits count h

theorem hunkCounts_header (hunk : PatchHunk) (kept : List Char)
    (hold : hunk.old.lines ≤ usizeMax) (hnew : hunk.new.lines ≤ usizeMax) :
    PatchScan.hunkCounts (('-' :: hunk.old.render) ++ ' ' :: (('+' :: hunk.new.render) ++
      ' ' :: '@' :: '@' :: kept)) = some (hunk.old.lines, hunk.new.lines) := by
  have hword : ∀ (sign : Char) (range : HunkRange), isWhitespace sign = false →
      ∀ x ∈ sign :: range.render, isWhitespace x = false := by
    intro sign range hsign x hx
    cases List.mem_cons.mp hx with
    | inl hfirst => exact hfirst ▸ hsign
    | inr hrest => exact range.render_word hrest
  unfold PatchScan.hunkCounts
  rw [splitWhitespace_word _ (hword '-' hunk.old (by decide)) (by simp) (by decide),
    splitWhitespace_word _ (hword '+' hunk.new (by decide)) (by simp) (by decide)]
  simp only [side_render hunk.old '-' hold, side_render hunk.new '+' hnew, Option.bind_eq_bind,
    Option.bind_some, Option.pure_def]

theorem step_hunkHeader (hunk : PatchHunk) (hidle : scan.owed = none)
    (hold : hunk.old.lines ≤ usizeMax) (hnew : hunk.new.lines ≤ usizeMax)
    (h : Shown hunk.header shown) :
    PatchScan.step scan shown =
      some { scan with owed := PatchScan.stillOwed hunk.old.lines hunk.new.lines } := by
  have hmid : ∀ tail : List Char, ('-' :: hunk.old.render) ++ ' ' :: (('+' :: hunk.new.render) ++
      ' ' :: '@' :: '@' :: tail) = (('-' :: hunk.old.render) ++ ' ' :: (('+' :: hunk.new.render) ++
      [' ', '@'])) ++ '@' :: tail := by
    intro tail
    simp
  rw [PatchHunk.header, startLine, hmid] at h
  obtain ⟨kept, hkept, rfl⟩ := Shown.keeps_through (by decide) h
  have hgit : stripPrefix "diff --git ".toList ("@@ ".toList ++
      (('-' :: hunk.old.render) ++ ' ' :: (('+' :: hunk.new.render) ++
        ' ' :: '@' :: '@' :: kept))) = none := by
    have hlit : "diff --git ".toList = 'd' :: "iff --git ".toList := by decide
    have hhunk : "@@ ".toList = '@' :: "@ ".toList := by decide
    rw [hlit, hhunk, List.cons_append]
    exact stripPrefix_of_head _ _ (by decide)
  rw [← hmid, PatchScan.step, hgit, stripPrefix_append]
  simp only [hidle, Option.isSome_none, Bool.false_eq_true, if_false,
    hunkCounts_header hunk kept hold hnew, Option.bind_eq_bind, Option.bind_some, Option.pure_def]

theorem stillOwed_pos {old new : Nat} (h : 0 < old ∨ 0 < new) :
    PatchScan.stillOwed old new = some (old, new) := if_pos h

theorem step_counted {old new : Nat} {owed : Option (Nat × Nat)}
    (howed : scan.owed = some (old, new))
    (hgit : stripPrefix "diff --git ".toList shown = none)
    (hhunk : stripPrefix "@@ ".toList shown = none)
    (hcount : PatchScan.bodyLine shown old new = some owed) :
    PatchScan.step scan shown = some { scan with owed := owed } := by
  rw [PatchScan.step, hgit, hhunk]
  simp only [howed, hcount, Option.bind_eq_bind, Option.bind_some, Option.pure_def]

/-- What is shown of a line starts with its first character, unless that is white space. -/
theorem shown_head {c : Char} {text : List Char} (hc : isWhitespace c = false)
    (h : Shown (c :: text) shown) : ∃ kept, shown = c :: kept := by
  have hwhole : Shown ([] ++ c :: text) shown := h
  obtain ⟨kept, -, hshown⟩ := hwhole.keeps hc
  exact ⟨kept, hshown⟩

/-- A body line pays for what it is, and a marker for nothing. -/
theorem step_body (line : BodyLine) {old new : Nat}
    (howed : scan.owed = PatchScan.stillOwed (old + line.oldCount) (new + line.newCount))
    (h : Shown line.render shown) :
    PatchScan.step scan shown = some { scan with owed := PatchScan.stillOwed old new } := by
  cases line with
  | context text =>
    have hpos : scan.owed = some (old + 1, new + 1) :=
      howed.trans (stillOwed_pos (.inl (by simp [BodyLine.oldCount])))
    have hcount : ∀ kept, PatchScan.bodyLine (' ' :: kept) (old + 1) (new + 1) =
        some (PatchScan.stillOwed old new) := fun _ => rfl
    cases hshown : shown with
    | nil => exact step_counted hpos (by decide) (by decide) rfl
    | cons c kept =>
      have hspace : c = ' ' := by
        have hpre := h.2
        rw [hshown] at hpre
        exact (List.cons_prefix_cons.mp hpre).1
      subst hspace
      have hopen := not_opening kept (by decide : 'd' ≠ ' ') (by decide)
      exact step_counted hpos hopen.1 hopen.2 (hcount kept)
  | removed text =>
    have hpos : scan.owed = some (old + 1, new) :=
      howed.trans (stillOwed_pos (.inl (by simp [BodyLine.oldCount])))
    obtain ⟨kept, rfl⟩ := shown_head (by decide) h
    have hopen := not_opening kept (by decide : 'd' ≠ '-') (by decide)
    exact step_counted hpos hopen.1 hopen.2 rfl
  | added text =>
    have hpos : scan.owed = some (old, new + 1) :=
      howed.trans (stillOwed_pos (.inr (by simp [BodyLine.newCount])))
    obtain ⟨kept, rfl⟩ := shown_head (by decide) h
    have hopen := not_opening kept (by decide : 'd' ≠ '+') (by decide)
    exact step_counted hpos hopen.1 hopen.2 rfl
  | marker text =>
    obtain ⟨kept, rfl⟩ := shown_head (by decide) h
    have hopen := not_opening kept (by decide : 'd' ≠ '\\') (by decide)
    by_cases hpos : 0 < old ∨ 0 < new
    · exact step_counted (howed.trans (stillOwed_pos hpos)) hopen.1 hopen.2 rfl
    · have hidle : scan.owed = none := howed.trans (if_neg hpos)
      have hdone : PatchScan.stillOwed old new = none := if_neg hpos
      have hold : stripPrefix "--- ".toList ('\\' :: kept) = none := by
        have hlit : "--- ".toList = '-' :: "-- ".toList := by decide
        exact hlit ▸ stripPrefix_of_head _ _ (by decide)
      have hnew : stripPrefix "+++ ".toList ('\\' :: kept) = none := by
        have hlit : "+++ ".toList = '+' :: "++ ".toList := by decide
        exact hlit ▸ stripPrefix_of_head _ _ (by decide)
      rw [PatchScan.step, hopen.1, hopen.2]
      simp only [hidle, hold, hnew, hdone]
      rw [← hidle]

end Steps

/-! ## Reading a patch -/

theorem oldLines_cons (line : BodyLine) (body : List BodyLine) :
    oldLines (line :: body) = line.oldCount + oldLines body := by simp [oldLines]

theorem newLines_cons (line : BodyLine) (body : List BodyLine) :
    newLines (line :: body) = line.newCount + newLines body := by simp [newLines]

theorem reads_body (body : List BodyLine) (scan : PatchScan) (old new : Nat) :
    Reads (body.map BodyLine.render)
      { scan with owed := PatchScan.stillOwed (old + oldLines body) (new + newLines body) }
      { scan with owed := PatchScan.stillOwed old new } := by
  induction body with
  | nil => exact Reads.nil _
  | cons line body ih =>
    refine Reads.cons (fun shown hshown => ?_) ih
    refine step_body line ?_ hshown
    have hold : old + oldLines (line :: body) = old + oldLines body + line.oldCount := by
      rw [oldLines_cons]
      omega
    have hnew : new + newLines (line :: body) = new + newLines body + line.newCount := by
      rw [newLines_cons]
      omega
    rw [hold, hnew]

theorem reads_hunk (hunk : PatchHunk) {scan : PatchScan} (hidle : scan.owed = none)
    (hold : hunk.old.lines ≤ usizeMax) (hnew : hunk.new.lines ≤ usizeMax) :
    Reads hunk.lines scan scan := by
  refine Reads.cons (fun shown hshown => step_hunkHeader hunk hidle hold hnew hshown) ?_
  have hbody := reads_body hunk.body scan 0 0
  rw [Nat.zero_add, Nat.zero_add, hunk.oldExact, hunk.newExact] at hbody
  have hdone : { scan with owed := PatchScan.stillOwed 0 0 } = scan := by
    cases scan
    simp_all [PatchScan.stillOwed]
  rwa [hdone] at hbody

def HunkFits (hunk : PatchHunk) : Prop :=
  hunk.old.lines ≤ usizeMax ∧ hunk.new.lines ≤ usizeMax

theorem reads_hunks (hunks : List PatchHunk) {scan : PatchScan} (hidle : scan.owed = none)
    (hfits : ∀ hunk ∈ hunks, HunkFits hunk) :
    Reads (hunks.flatMap PatchHunk.lines) scan scan := by
  induction hunks with
  | nil => exact Reads.nil scan
  | cons hunk hunks ih =>
    rw [List.flatMap_cons]
    have hfirst := hfits hunk List.mem_cons_self
    exact (reads_hunk hunk hidle hfirst.1 hfirst.2).append
      (ih fun other hother => hfits other (List.mem_cons_of_mem _ hother))

def afterHeaders (scan : PatchScan) : PatchScan :=
  { scan with sections := scan.sections + 1, sectionOpen := true, hasOld := true, hasNew := true }

theorem reads_headers (part : FileSection) {scan : PatchScan} (hready : ReadyFor scan) :
    Reads part.headers scan (afterHeaders scan) := by
  refine Reads.cons (fun shown hshown => step_gitLine part hready hshown) ?_
  refine Reads.cons (fun shown hshown => step_oldLine part hready.1 hshown) ?_
  exact Reads.cons (fun shown hshown => step_newLine part hready.1 hshown) (Reads.nil _)

theorem afterHeaders_read {scan : PatchScan} (hready : ReadyFor scan) :
    SectionRead (afterHeaders scan) := ⟨hready.1, rfl, rfl⟩

theorem reads_filled (part : FileSection) {scan : PatchScan} (hready : ReadyFor scan)
    (hfits : ∀ hunk ∈ part.hunks, HunkFits hunk) :
    Reads part.filled scan (afterHeaders scan) :=
  (reads_headers part hready).append (reads_hunks part.hunks hready.1 hfits)

theorem reads_gap (gap : Nat) {scan : PatchScan} (hidle : scan.owed = none) :
    Reads (List.replicate gap []) scan scan := by
  induction gap with
  | zero => exact Reads.nil scan
  | succ gap ih =>
    rw [List.replicate_succ]
    exact Reads.cons (fun shown hshown => step_gap hidle hshown) ih

theorem reads_sections (parts : List FileSection) {scan : PatchScan} (hready : ReadyFor scan)
    (hfits : ∀ part ∈ parts, ∀ hunk ∈ part.hunks, HunkFits hunk) :
    ∃ next, ReadyFor next ∧ Reads (parts.flatMap FileSection.lines) scan next := by
  induction parts generalizing scan with
  | nil => exact ⟨scan, hready, Reads.nil scan⟩
  | cons part parts ih =>
    have hread := afterHeaders_read hready
    obtain ⟨next, hnext, hrest⟩ :=
      ih hread.ready fun other hother => hfits other (List.mem_cons_of_mem _ hother)
    refine ⟨next, hnext, ?_⟩
    rw [List.flatMap_cons]
    exact ((reads_filled part hready (hfits part List.mem_cons_self)).append
      (reads_gap part.gap hread.idle)).append hrest

/-! ## The text of a patch -/

theorem startLine_oneLine {start : String} {rest : List Char} (h : '\n' ∉ start.toList) :
    '\n' ∈ startLine start rest ↔ '\n' ∈ rest := by
  simp [startLine, h]

theorem range_oneLine (range : HunkRange) : '\n' ∉ range.render := by
  intro h
  exact absurd (range.render_word h) (by decide)

theorem side_oneLine (side : PatchSide) {mark : Char} (hmark : '\n' ≠ mark) :
    '\n' ∉ side.render mark := by
  cases side with
  | file path => simp [PatchSide.render, hmark, path.oneLine]
  | devNull =>
    have hlit : '\n' ∉ "/dev/null".toList ++ [] := by decide
    rwa [PatchSide.render, startLine]

theorem bodyLine_oneLine (line : BodyLine) : '\n' ∉ line.render := by
  cases line with
  | context text => simpa [BodyLine.render] using text.property
  | removed text => simpa [BodyLine.render] using text.property
  | added text => simpa [BodyLine.render] using text.property
  | marker text => simpa [BodyLine.render] using text.property

theorem hunk_oneLine (hunk : PatchHunk) {line : List Char} (h : line ∈ hunk.lines) :
    '\n' ∉ line := by
  rw [PatchHunk.lines, List.mem_cons] at h
  obtain rfl | hbody := h
  · have hlit : '\n' ∉ "@@ ".toList := by decide
    simp [PatchHunk.header, startLine_oneLine hlit, range_oneLine, hunk.tail.property]
  · obtain ⟨body, -, rfl⟩ := List.mem_map.mp hbody
    exact bodyLine_oneLine body

theorem headers_oneLine (part : FileSection) {line : List Char} (h : line ∈ part.headers) :
    '\n' ∉ line := by
  have hgit : '\n' ∉ "diff --git ".toList := by decide
  have hold : '\n' ∉ "--- ".toList := by decide
  have hnew : '\n' ∉ "+++ ".toList := by decide
  simp only [FileSection.headers, List.mem_cons, List.not_mem_nil, or_false] at h
  obtain rfl | rfl | rfl := h
  · simp [FileSection.gitLine, startLine_oneLine hgit, part.oldPath.oneLine, part.newPath.oneLine]
  · simp [FileSection.oldLine, startLine_oneLine hold, side_oneLine]
  · simp [FileSection.newLine, startLine_oneLine hnew, side_oneLine]

theorem section_oneLine (part : FileSection) {line : List Char} (h : line ∈ part.lines) :
    '\n' ∉ line := by
  rw [FileSection.lines, FileSection.filled, List.mem_append, List.mem_append] at h
  obtain (hhead | hhunk) | hgap := h
  · exact headers_oneLine part hhead
  · obtain ⟨hunk, -, hline⟩ := List.mem_flatMap.mp hhunk
    exact hunk_oneLine hunk hline
  · rw [List.eq_of_mem_replicate hgap]
    exact List.not_mem_nil

theorem sections_oneLine {parts : List FileSection} {line : List Char}
    (h : line ∈ parts.flatMap FileSection.lines) : '\n' ∉ line := by
  obtain ⟨part, -, hline⟩ := List.mem_flatMap.mp h
  exact section_oneLine part hline

theorem gitLine_start (part : FileSection) :
    ∃ c text, part.gitLine = c :: text ∧ isWhitespace c = false := by
  have hlit : "diff --git ".toList = 'd' :: "iff --git ".toList := by decide
  rw [FileSection.gitLine, startLine, hlit]
  exact ⟨'d', _, rfl, by decide⟩

theorem oldLines_le (body : List BodyLine) : oldLines body ≤ body.length := by
  induction body with
  | nil => exact Nat.le_refl 0
  | cons line body ih =>
    have hline : line.oldCount ≤ 1 := by cases line <;> simp [BodyLine.oldCount]
    rw [oldLines_cons, List.length_cons]
    omega

theorem newLines_le (body : List BodyLine) : newLines body ≤ body.length := by
  induction body with
  | nil => exact Nat.le_refl 0
  | cons line body ih =>
    have hline : line.newCount ≤ 1 := by cases line <;> simp [BodyLine.newCount]
    rw [newLines_cons, List.length_cons]
    omega

theorem length_le_joinLines (line : List Char) (more : List (List Char)) :
    more.length ≤ (joinLines (line :: more)).length := by
  rw [joinLines_cons, List.length_append]
  induction more with
  | nil => simp
  | cons next more ih =>
    rw [List.flatMap_cons, List.length_append, List.length_cons, List.length_cons]
    omega

theorem hunkFits_of_text {parts : List FileSection} (h : (patchText parts).length ≤ usizeMax)
    {part : FileSection} (hpart : part ∈ parts) {hunk : PatchHunk} (hhunk : hunk ∈ part.hunks) :
    HunkFits hunk := by
  have hpartLines : hunk.body.length + 1 ≤ part.lines.length := by
    obtain ⟨before, after, hsplit⟩ := List.append_of_mem hhunk
    simp only [FileSection.lines, FileSection.filled, hsplit, List.flatMap_append,
      List.flatMap_cons, PatchHunk.lines, List.length_append, List.length_cons, List.length_map]
    omega
  have hall : part.lines.length ≤ (parts.flatMap FileSection.lines).length := by
    obtain ⟨before, after, rfl⟩ := List.append_of_mem hpart
    simp only [List.flatMap_append, List.flatMap_cons, List.length_append]
    omega
  have hold := oldLines_le hunk.body
  have hnew := newLines_le hunk.body
  rw [hunk.oldExact] at hold
  rw [hunk.newExact] at hnew
  unfold patchText at h
  unfold HunkFits
  cases hlines : parts.flatMap FileSection.lines with
  | nil =>
    rw [hlines, List.length_nil] at hall
    omega
  | cons line more =>
    rw [hlines] at h hall
    have hcount := length_le_joinLines line more
    rw [List.length_cons] at hall
    exact ⟨by omega, by omega⟩

/-! ## The verdict -/

theorem patchIsAppliable_of_reads {first : List Char} {rest core : List (List Char)}
    {next : PatchScan} (hfirst : ∃ c text, first = c :: text ∧ isWhitespace c = false)
    (hlines : ∀ line ∈ first :: rest, '\n' ∉ line)
    (hcore : (first :: rest).rdropWhile blankLine = core) (hread : Reads core {} next) :
    patchIsAppliable (String.ofList (joinLines (first :: rest))) =
      (next.owed.isNone && next.hasOld && next.hasNew) := by
  have hshown := shown_lines hfirst hlines
  rw [hcore] at hshown
  have hscan := hread _ hshown
  unfold patchIsAppliable
  simp only [trim, String.toList_ofList]
  rw [hscan, if_neg]
  intro hempty
  rw [hempty] at hshown
  obtain ⟨c, text, rfl, hc⟩ := hfirst
  cases hshown
  have hblank := List.rdropWhile_eq_nil_iff.mp hcore (c :: text) List.mem_cons_self
  simp [blankLine, hc] at hblank

theorem startLine_not_blank {start : String} {rest : List Char}
    (h : blankLine start.toList = false) : blankLine (startLine start rest) = false := by
  rw [startLine, blankLine, List.all_append, ← blankLine, h, Bool.false_and]

theorem header_not_blank (hunk : PatchHunk) : blankLine hunk.header = false :=
  startLine_not_blank (by decide)

theorem bodyLine_blank {line : BodyLine} (h : blankLine line.render = true) :
    ∃ text : LineText, line = .context text ∧ blankLine text.val = true := by
  cases line with
  | context text => exact ⟨text, rfl, by simpa [BodyLine.render, blankLine, isWhitespace] using h⟩
  | removed text => simp [BodyLine.render, blankLine, isWhitespace] at h
  | added text => simp [BodyLine.render, blankLine, isWhitespace] at h
  | marker text => simp [BodyLine.render, blankLine, isWhitespace] at h

theorem hunk_last (hunk : PatchHunk) :
    ∃ init last, hunk.lines = init ++ [last] ∧
      (blankLine last = true → ∃ text : LineText,
        hunk.body.getLast? = some (.context text) ∧ blankLine text.val = true) := by
  obtain hnil | ⟨body, line, hbody⟩ := hunk.body.eq_nil_or_concat
  · refine ⟨[], hunk.header, by simp [PatchHunk.lines, hnil], fun hblank => ?_⟩
    rw [header_not_blank] at hblank
    exact absurd hblank Bool.false_ne_true
  · refine ⟨hunk.header :: body.map BodyLine.render, line.render, by simp [PatchHunk.lines, hbody],
      fun hblank => ?_⟩
    obtain ⟨text, rfl, htext⟩ := bodyLine_blank hblank
    exact ⟨text, by simp [hbody], htext⟩

/-- The last line of a section shows something unless it is a blank context line. -/
theorem filled_last (part : FileSection) (h : part.endsBlank = false) :
    ∃ init last, part.filled = init ++ [last] ∧ blankLine last = false := by
  obtain hnil | ⟨hunks, hunk, hhunks⟩ := part.hunks.eq_nil_or_concat
  · refine ⟨[part.gitLine, part.oldLine], part.newLine, ?_, startLine_not_blank (by decide)⟩
    simp [FileSection.filled, FileSection.headers, hnil]
  · obtain ⟨init, last, hlines, hblank⟩ := hunk_last hunk
    refine ⟨part.headers ++ hunks.flatMap PatchHunk.lines ++ init, last, ?_, ?_⟩
    · simp [FileSection.filled, hhunks, hlines]
    · by_contra hno
      obtain ⟨text, hlast, htext⟩ := hblank (by simpa using hno)
      simp [FileSection.endsBlank, hhunks, hlast, htext] at h

theorem rdropWhile_gap {lines : List (List Char)} {last : List Char} (gap : Nat)
    (h : blankLine last = false) :
    (lines ++ [last] ++ List.replicate gap []).rdropWhile blankLine = lines ++ [last] := by
  rw [rdropWhile_append_all _ fun line hline => by rw [List.eq_of_mem_replicate hline]; rfl,
    List.rdropWhile_concat_neg _ _ _ (by simp [h])]

theorem patch_accepted (before : List FileSection) (part : FileSection)
    (hfits : (patchText (before ++ [part])).length ≤ usizeMax) (hlast : part.endsBlank = false) :
    patchIsAppliable (String.ofList (patchText (before ++ [part]))) = true := by
  obtain ⟨init, last, hfilled, hblank⟩ := filled_last part hlast
  have hhunks : ∀ other ∈ before ++ [part], ∀ hunk ∈ other.hunks, HunkFits hunk :=
    fun other hother hunk hhunk => hunkFits_of_text hfits hother hhunk
  have hready : ReadyFor {} := ⟨rfl, rfl⟩
  obtain ⟨scan, hscan, hbefore⟩ := reads_sections before hready fun other hother =>
    hhunks other (List.mem_append_left _ hother)
  have hpart := reads_filled part hscan (hhunks part (by simp))
  have hread := afterHeaders_read hscan
  have hlines : (before ++ [part]).flatMap FileSection.lines =
      before.flatMap FileSection.lines ++ part.filled ++ List.replicate part.gap [] := by
    simp [FileSection.lines]
  have hcore : ((before ++ [part]).flatMap FileSection.lines).rdropWhile blankLine =
      before.flatMap FileSection.lines ++ part.filled := by
    rw [hlines, hfilled, ← List.append_assoc, rdropWhile_gap part.gap hblank]
  have hone : ∀ line ∈ (before ++ [part]).flatMap FileSection.lines, '\n' ∉ line :=
    fun line hline => sections_oneLine hline
  obtain ⟨first, rest, hstart, hfirst⟩ : ∃ first rest,
      (before ++ [part]).flatMap FileSection.lines = first :: rest ∧
        ∃ c text, first = c :: text ∧ isWhitespace c = false := by
    cases before with
    | nil => exact ⟨part.gitLine, _, rfl, gitLine_start part⟩
    | cons head before => exact ⟨head.gitLine, _, rfl, gitLine_start head⟩
  rw [patchText, hstart]
  rw [hstart] at hcore hone
  rw [patchIsAppliable_of_reads hfirst hone hcore (hbefore.append hpart), hread.idle, hread.old,
    hread.new]
  rfl

/-! ## Cuts -/

theorem bodyLine_part (line : BodyLine) {text : List Char} (h : text <+: line.render)
    (hne : text ≠ []) :
    ∃ cut : BodyLine, cut.render = text ∧ cut.oldCount = line.oldCount ∧
      cut.newCount = line.newCount := by
  obtain ⟨c, rest, rfl⟩ := List.exists_cons_of_ne_nil hne
  cases line with
  | context whole =>
    obtain ⟨rfl, hrest⟩ := List.cons_prefix_cons.mp h
    exact ⟨.context ⟨rest, fun hc => whole.property (hrest.mem hc)⟩, rfl, rfl, rfl⟩
  | removed whole =>
    obtain ⟨rfl, hrest⟩ := List.cons_prefix_cons.mp h
    exact ⟨.removed ⟨rest, fun hc => whole.property (hrest.mem hc)⟩, rfl, rfl, rfl⟩
  | added whole =>
    obtain ⟨rfl, hrest⟩ := List.cons_prefix_cons.mp h
    exact ⟨.added ⟨rest, fun hc => whole.property (hrest.mem hc)⟩, rfl, rfl, rfl⟩
  | marker whole =>
    obtain ⟨rfl, hrest⟩ := List.cons_prefix_cons.mp h
    exact ⟨.marker ⟨rest, fun hc => whole.property (hrest.mem hc)⟩, rfl, rfl, rfl⟩

/-- A cut through body lines leaves body lines, of no more counts, and at most a bare line
feed after them. -/
theorem cut_body (pre : List BodyLine) {tail : List Char}
    (h : tail <+: (pre.map BodyLine.render ++ [[]]).flatMap ('\n' :: ·)) :
    ∃ body gap, tail = (body.map BodyLine.render ++ List.replicate gap []).flatMap ('\n' :: ·) ∧
      oldLines body ≤ oldLines pre ∧ newLines body ≤ newLines pre := by
  induction pre generalizing tail with
  | nil =>
    cases tail with
    | nil => exact ⟨[], 0, rfl, le_rfl, le_rfl⟩
    | cons c tail =>
      obtain ⟨rfl, hrest⟩ := List.cons_prefix_cons.mp h
      exact ⟨[], 1, by simpa using hrest, le_rfl, le_rfl⟩
  | cons line pre ih =>
    cases tail with
    | nil => exact ⟨[], 0, rfl, Nat.zero_le _, Nat.zero_le _⟩
    | cons c tail =>
      rw [List.map_cons, List.cons_append, List.flatMap_cons, List.cons_append] at h
      obtain ⟨rfl, hrest⟩ := List.cons_prefix_cons.mp h
      obtain hshort | ⟨more, rfl⟩ :=
        List.prefix_or_prefix_of_prefix hrest (List.prefix_append line.render _)
      · by_cases hne : tail = []
        · exact ⟨[], 1, by simp [hne], Nat.zero_le _, Nat.zero_le _⟩
        · obtain ⟨cut, hcut, hold, hnew⟩ := bodyLine_part line hshort hne
          refine ⟨[cut], 0, by simp [hcut], ?_, ?_⟩
          · simp only [oldLines_cons, hold]
            simp [oldLines]
          · simp only [newLines_cons, hnew]
            simp [newLines]
      · obtain ⟨body, gap, rfl, hold, hnew⟩ := ih ((List.prefix_append_right_inj _).mp hrest)
        refine ⟨line :: body, gap, by simp, ?_, ?_⟩
        · rw [oldLines_cons, oldLines_cons]
          omega
        · rw [newLines_cons, newLines_cons]
          omega

theorem oldLines_append (a b : List BodyLine) : oldLines (a ++ b) = oldLines a + oldLines b := by
  simp [oldLines]

theorem newLines_append (a b : List BodyLine) : newLines (a ++ b) = newLines a + newLines b := by
  simp [newLines]

def linesAbove (before : List FileSection) (part : FileSection) (above : List PatchHunk) :
    List (List Char) :=
  before.flatMap FileSection.lines ++ (part.headers ++ above.flatMap PatchHunk.lines)

def throughHeader (before : List FileSection) (part : FileSection) (above : List PatchHunk)
    (hunk : PatchHunk) : List Char :=
  joinLines (linesAbove before part above ++ [hunk.header])

/-- The text of a patch up to where the hunk's lines after `pre` begin. -/
def upToLine (before : List FileSection) (part : FileSection) (above : List PatchHunk)
    (hunk : PatchHunk) (pre : List BodyLine) : List Char :=
  throughHeader before part above hunk ++ (pre.map BodyLine.render ++ [[]]).flatMap ('\n' :: ·)

section Cut

variable {before after : List FileSection} {part : FileSection} {above below : List PatchHunk}
  {hunk : PatchHunk} {pre post : List BodyLine} {line : BodyLine}

theorem upToLine_isPrefixOf (hhunks : part.hunks = above ++ hunk :: below)
    (hbody : hunk.body = pre ++ line :: post) :
    upToLine before part above hunk pre <+: patchText (before ++ part :: after) := by
  have hlines : (before ++ part :: after).flatMap FileSection.lines =
      (linesAbove before part above ++ [hunk.header]) ++ (pre.map BodyLine.render ++
        line.render :: (post.map BodyLine.render ++ (below.flatMap PatchHunk.lines ++
          (List.replicate part.gap [] ++ after.flatMap FileSection.lines)))) := by
    simp [FileSection.lines, FileSection.filled, linesAbove, hhunks, PatchHunk.lines, hbody]
  rw [patchText, hlines, joinLines_append (by simp), upToLine, throughHeader,
    List.prefix_append_right_inj, List.flatMap_append, List.flatMap_append,
    List.prefix_append_right_inj]
  simp

theorem reads_above (hfits : ∀ other ∈ before ++ part :: after, ∀ h ∈ other.hunks, HunkFits h)
    (hhunks : part.hunks = above ++ hunk :: below) :
    ∃ scan, scan.owed = none ∧ Reads (linesAbove before part above) {} scan := by
  have hready : ReadyFor {} := ⟨rfl, rfl⟩
  obtain ⟨scan, hscan, hbefore⟩ := reads_sections before hready fun other hother =>
    hfits other (List.mem_append_left _ hother)
  have habove : ∀ h ∈ above, HunkFits h := fun h hmem =>
    hfits part (by simp) h (hhunks ▸ List.mem_append_left _ hmem)
  have hread := afterHeaders_read hscan
  exact ⟨afterHeaders scan, hread.idle,
    hbefore.append ((reads_headers part hscan).append (reads_hunks above hread.idle habove))⟩

theorem linesAbove_oneLine {l : List Char} (h : l ∈ linesAbove before part above) : '\n' ∉ l := by
  rw [linesAbove, List.mem_append, List.mem_append] at h
  obtain hbefore | hhead | habove := h
  · exact sections_oneLine hbefore
  · exact headers_oneLine part hhead
  · obtain ⟨other, -, hother⟩ := List.mem_flatMap.mp habove
    exact hunk_oneLine other hother

/-- A cut that leaves a promised line out is refused: the hunk it is in still owes it. -/
theorem cut_refused {tail : List Char}
    (hfits : ∀ other ∈ before ++ part :: after, ∀ h ∈ other.hunks, HunkFits h)
    (hhunks : part.hunks = above ++ hunk :: below) (hbody : hunk.body = pre ++ line :: post)
    (hpromised : 0 < line.oldCount + line.newCount)
    (htail : tail <+: (pre.map BodyLine.render ++ [[]]).flatMap ('\n' :: ·)) :
    patchIsAppliable (String.ofList (throughHeader before part above hunk ++ tail)) = false := by
  obtain ⟨body, gap, rfl, hold, hnew⟩ := cut_body pre htail
  obtain ⟨scan, hidle, habove⟩ := reads_above hfits hhunks
  have hunkFits : HunkFits hunk := hfits part (by simp) hunk (by simp [hhunks])
  -- the blank lines at the end of the cut are trimmed away
  obtain ⟨shown, hshown⟩ : ∃ count, ((body.map BodyLine.render).rdropWhile blankLine) =
      (body.take count).map BodyLine.render := by
    have hprefix := List.rdropWhile_prefix blankLine (body.map BodyLine.render)
    refine ⟨((body.map BodyLine.render).rdropWhile blankLine).length, ?_⟩
    rw [List.map_take]
    exact List.prefix_iff_eq_take.mp hprefix
  have hlines : linesAbove before part above ++ [hunk.header] ++ (body.map BodyLine.render ++
      List.replicate gap []) = linesAbove before part above ++ hunk.header ::
        (body.map BodyLine.render ++ List.replicate gap []) := by
    simp
  have hcore : (linesAbove before part above ++ hunk.header :: (body.map BodyLine.render ++
      List.replicate gap [])).rdropWhile blankLine = linesAbove before part above ++
        hunk.header :: (body.take shown).map BodyLine.render := by
    rw [rdropWhile_concat_of_neg _ _ (header_not_blank hunk), rdropWhile_append_all _ fun l hl => by
      rw [List.eq_of_mem_replicate hl]; rfl, hshown]
  -- what the shown lines pay is less than the header promises
  have hless : oldLines (body.take shown) ≤ oldLines pre ∧
      newLines (body.take shown) ≤ newLines pre := by
    have holdSplit := oldLines_append (body.take shown) (body.drop shown)
    have hnewSplit := newLines_append (body.take shown) (body.drop shown)
    rw [List.take_append_drop] at holdSplit hnewSplit
    omega
  have holdAll : hunk.old.lines = oldLines pre + (line.oldCount + oldLines post) := by
    rw [← hunk.oldExact, hbody, oldLines_append, oldLines_cons]
  have hnewAll : hunk.new.lines = newLines pre + (line.newCount + newLines post) := by
    rw [← hunk.newExact, hbody, newLines_append, newLines_cons]
  obtain ⟨old, hold⟩ : ∃ old, hunk.old.lines = old + oldLines (body.take shown) :=
    ⟨hunk.old.lines - oldLines (body.take shown), by omega⟩
  obtain ⟨new, hnew⟩ : ∃ new, hunk.new.lines = new + newLines (body.take shown) :=
    ⟨hunk.new.lines - newLines (body.take shown), by omega⟩
  have howes : 0 < old ∨ 0 < new := by omega
  have hcut : Reads (hunk.header :: (body.take shown).map BodyLine.render) scan
      { scan with owed := PatchScan.stillOwed old new } := by
    refine Reads.cons (fun text htext =>
      step_hunkHeader hunk hidle hunkFits.1 hunkFits.2 htext) ?_
    rw [hold, hnew]
    exact reads_body _ scan old new
  have hone : ∀ l ∈ linesAbove before part above ++ hunk.header :: (body.map BodyLine.render ++
      List.replicate gap []), '\n' ∉ l := by
    intro l hl
    rw [List.mem_append, List.mem_cons, List.mem_append] at hl
    obtain habove | rfl | hmem | hgap := hl
    · exact linesAbove_oneLine habove
    · exact hunk_oneLine hunk List.mem_cons_self
    · obtain ⟨shownLine, -, rfl⟩ := List.mem_map.mp hmem
      exact bodyLine_oneLine shownLine
    · rw [List.eq_of_mem_replicate hgap]
      exact List.not_mem_nil
  obtain ⟨first, rest, hstart, hfirst⟩ : ∃ first rest,
      linesAbove before part above ++ hunk.header :: (body.map BodyLine.render ++
        List.replicate gap []) = first :: rest ∧
        ∃ c text, first = c :: text ∧ isWhitespace c = false := by
    cases before with
    | nil => exact ⟨part.gitLine, _, rfl, gitLine_start part⟩
    | cons head before => exact ⟨head.gitLine, _, rfl, gitLine_start head⟩
  rw [throughHeader, ← joinLines_append (by simp), hlines, hstart]
  rw [hstart] at hcore hone
  rw [patchIsAppliable_of_reads hfirst hone hcore (habove.append hcut), stillOwed_pos howes]
  rfl

end Cut

/-! ## The verdict on a patch and on its cuts -/

theorem lines_ne_nil {parts : List FileSection} (h : parts ≠ []) :
    parts.flatMap FileSection.lines ≠ [] := by
  obtain ⟨part, rest, rfl⟩ := List.exists_cons_of_ne_nil h
  simp [FileSection.lines, FileSection.filled, FileSection.headers]

theorem patchText_append {parts more : List FileSection} (h : parts ≠ []) (hmore : more ≠ []) :
    patchText (parts ++ more) = patchText parts ++ '\n' :: patchText more := by
  obtain ⟨line, lines, hlines⟩ := List.exists_cons_of_ne_nil (lines_ne_nil hmore)
  rw [patchText, List.flatMap_append, joinLines_append (lines_ne_nil h), patchText, patchText,
    hlines, joinLines_cons, List.flatMap_cons, List.cons_append]

theorem joined_text {groups : List (List FileSection)} (hne : ∀ group ∈ groups, group ≠ [])
    (hsome : groups ≠ []) :
    (String.intercalate "\n" (groups.map fun group => String.ofList (patchText group))).toList =
      patchText groups.flatten := by
  induction groups with
  | nil => exact absurd rfl hsome
  | cons group rest ih =>
    cases rest with
    | nil => simp
    | cons next rest =>
      have hrest := ih (fun other hother => hne other (List.mem_cons_of_mem _ hother)) (by simp)
      have hfilled : (next :: rest).flatten ≠ [] := by
        have hnext : next ≠ [] := hne next (by simp)
        simp [hnext]
      have hflat : (group :: next :: rest).flatten = group ++ (next :: rest).flatten := rfl
      rw [List.map_cons] at hrest
      rw [List.map_cons, List.map_cons, String.intercalate_cons_cons, String.toList_append,
        String.toList_append, hrest, hflat, patchText_append (hne group List.mem_cons_self) hfilled]
      simp

theorem patchForApply_text (tool : ToolCallView) (groups : List (List FileSection))
    (hdiff : (tool.diff.filter fun diff => trim diff ≠ "") = none)
    (hchanges : ((tool.fileChanges.map (·.diff)).filter fun diff => trim diff ≠ "") =
      groups.map fun group => String.ofList (patchText group))
    (hne : ∀ group ∈ groups, group ≠ []) (hsome : groups ≠ []) :
    patchForApply tool = some (String.ofList (patchText groups.flatten)) := by
  rw [patchForApply, hdiff, hchanges]
  dsimp only
  rw [if_neg (by simpa using hsome), ← joined_text hne hsome, String.ofList_toList]

/-- The verdict takes every whole patch whose last line is no blank context line, also one
joined from the entry's files, and refuses every cut between a hunk's header and the start of
a line its header promises. -/
theorem undo_verdict (parts : List FileSection) (hne : parts ≠ [])
    (hfits : (patchText parts).length ≤ usizeMax) :
    ((∀ part, parts.getLast? = some part → part.endsBlank = false) →
      patchIsAppliable (String.ofList (patchText parts)) = true) ∧
    (∀ before part after above hunk below pre line post, parts = before ++ part :: after →
      part.hunks = above ++ hunk :: below → hunk.body = pre ++ line :: post →
      0 < line.oldCount + line.newCount → ∀ kept, kept <+: patchText parts →
      throughHeader before part above hunk <+: kept →
      kept.length ≤ (upToLine before part above hunk pre).length →
      patchIsAppliable (String.ofList kept) = false) ∧
    ∀ (tool : ToolCallView) (groups : List (List FileSection)),
      (tool.diff.filter fun diff => trim diff ≠ "") = none →
      ((tool.fileChanges.map (·.diff)).filter fun diff => trim diff ≠ "") =
        groups.map (fun group => String.ofList (patchText group)) →
      (∀ group ∈ groups, group ≠ []) → groups.flatten = parts →
      patchForApply tool = some (String.ofList (patchText parts)) := by
  refine ⟨fun hlast => ?_, ?_, ?_⟩
  · obtain ⟨before, part, rfl⟩ := (List.eq_nil_or_concat parts).resolve_left hne
    rw [List.concat_eq_append] at hfits hlast ⊢
    exact patch_accepted before part hfits (hlast part (by simp))
  · intro before part after above hunk below pre line post hparts hhunks hbody hpromised kept hkept
      hheader hshort
    subst hparts
    have hin : kept <+: upToLine before part above hunk pre :=
      List.prefix_of_prefix_length_le hkept (upToLine_isPrefixOf hhunks hbody) hshort
    obtain ⟨tail, rfl⟩ := hheader
    exact cut_refused (fun other hother h hmem => hunkFits_of_text hfits hother hmem) hhunks hbody
      hpromised ((List.prefix_append_right_inj _).mp hin)
  · intro tool groups hdiff hchanges hgroups hflat
    have hsome : groups ≠ [] := fun hnil => hne (by rw [← hflat, hnil]; rfl)
    rw [patchForApply_text tool groups hdiff hchanges hgroups hsome, hflat]

section Runs

def fileName : RelativePath :=
  { text := ['f'], nonempty := by decide, oneLine := by decide, components := by simp }

def digit (d : Char) (h : d.isDigit = true) : Digits := ⟨[d], by simp, by simp [h]⟩

def oneLineRange : HunkRange := { start := digit '1' (by decide), count := none }

def sectionOf (hunk : PatchHunk) : FileSection :=
  { oldPath := fileName, newPath := fileName, oldSide := .file fileName, newSide := .file fileName
    hunks := [hunk], gap := 0 }

/-- One line for another, the new one without a line feed at the end of the file. -/
def changedHunk : PatchHunk :=
  { old := oneLineRange, new := oneLineRange, tail := ⟨[], by decide⟩
    body :=
      [.removed ⟨['x'], by decide⟩, .added ⟨['y'], by decide⟩, .marker ⟨[' ', 'N'], by decide⟩]
    oldExact := rfl, newExact := rfl }

def blankHunk : PatchHunk :=
  { old := oneLineRange, new := oneLineRange, tail := ⟨[], by decide⟩
    body := [.context ⟨[], by decide⟩], oldExact := rfl, newExact := rfl }

theorem undo_verdict_changed :
    patchIsAppliable (String.ofList (patchText [sectionOf changedHunk])) = true :=
  (undo_verdict [sectionOf changedHunk] (by simp) (by decide +kernel)).1 fun part hpart => by
    rw [← Option.some.inj hpart]
    rfl

/-- A patch that ends with an empty context line is refused, and one cut before its closing
marker is taken. -/
theorem undo_verdict_misses :
    patchIsAppliable (String.ofList (patchText [sectionOf blankHunk])) = false ∧
      throughHeader [] (sectionOf changedHunk) [] changedHunk <+:
        upToLine [] (sectionOf changedHunk) [] changedHunk (changedHunk.body.take 2) ∧
      upToLine [] (sectionOf changedHunk) [] changedHunk (changedHunk.body.take 2) <+:
        patchText [sectionOf changedHunk] ∧
      patchIsAppliable (String.ofList
        (upToLine [] (sectionOf changedHunk) [] changedHunk (changedHunk.body.take 2))) = true := by
  have hcut : upToLine [] (sectionOf changedHunk) [] changedHunk (changedHunk.body.take 2) <+:
      patchText ([] ++ sectionOf changedHunk :: []) := upToLine_isPrefixOf rfl rfl
  exact ⟨by decide +kernel, List.prefix_append _ _, hcut, by decide +kernel⟩

end Runs

end AgentRelay.Relay
