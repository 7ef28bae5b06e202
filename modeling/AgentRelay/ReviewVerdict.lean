import AgentRelay.TextLines
import Mathlib

/-! The verdict of a review, read from the last `VERDICT:` line of its text: the leading run of
letters decides, and a question mark after it takes an approval back. -/
namespace AgentRelay.Review
open Text Relay

inductive Verdict
  | approve
  | needsChanges
  | unsure
  | unknown
  deriving DecidableEq, Repr

/-- `str::trim`, on characters. -/
def trimmed (text : List Char) : List Char :=
  (text.dropWhile isWhitespace).rdropWhile isWhitespace

/-- `str::to_ascii_lowercase`, on characters. -/
def lowered (text : List Char) : List Char := text.map Char.toLower

/-- What a line says after the prefix of a verdict, if it starts with it. -/
def verdictRest (line : List Char) : Option (List Char) :=
  (stripPrefix "verdict:".toList (lowered (trimmed line))).map trimmed

def isKeywordChar (c : Char) : Bool := c.isAlpha || c = '_'

/-- The leading keyword: the first run of letters and underscores. -/
def token (rest : List Char) : List Char := rest.takeWhile isKeywordChar

/-- A question mark right after the keyword, or after white space. -/
def hedged (rest : List Char) : Bool :=
  ((rest.dropWhile isKeywordChar).dropWhile isWhitespace).head? = some '?'

def approvals : List (List Char) := ["approve".toList, "approved".toList]

def verdictOf (rest : List Char) : Verdict :=
  if token rest ∈ approvals ∧ ¬hedged rest then .approve
  else if token rest ∈ ["needs".toList, "needs_changes".toList, "needs_change".toList] then
    .needsChanges
  else if token rest ∈ ["unsure".toList, "uncertain".toList, "unclear".toList] then .unsure
  else .unknown

def parseVerdict (review : String) : Verdict :=
  match (linesOf review.toList).reverse.findSome? verdictRest with
  | none => .unknown
  | some rest => verdictOf rest

/-- A verdict line: trimmed and whatever its case, it starts with the prefix. -/
def isVerdictLine (line : List Char) : Bool :=
  decide ("verdict:".toList <+: lowered (trimmed line))

def lastVerdictLine (review : String) : Option (List Char) :=
  (linesOf review.toList).reverse.find? isVerdictLine

/-- The two lines of the prompt that do not approve. -/
def needsChangesLine : String := "VERDICT: NEEDS_CHANGES"

def unsureLine : String := "VERDICT: UNSURE"

section approval
variable (punctuation : Char → Bool)

/-- What may be stripped from the end of a word. -/
def strippable (c : Char) : Bool := punctuation c && c ≠ '?'

/-- The first word said, without the punctuation at its end; a question mark stays. -/
def saidWord (rest : List Char) : List Char :=
  (rest.takeWhile fun c => !isWhitespace c).rdropWhile (strippable punctuation)

/-- The word approves, and no question mark comes after it. -/
def SaysApprove (rest : List Char) : Prop :=
  saidWord punctuation rest ∈ approvals ∧
    ((rest.dropWhile fun c => !isWhitespace c).dropWhile isWhitespace).head? ≠ some '?'

/-- A review approves only when its last verdict line says so, and the prompt's own lines are
read as what they say. -/
structure ApprovesOnlyWhenSaid (review : String) : Prop where
  lastLine : ∀ other, lastVerdictLine other = lastVerdictLine review →
    parseVerdict other = parseVerdict review
  said : parseVerdict review = .approve → ∃ line rest, lastVerdictLine review = some line ∧
    verdictRest line = some rest ∧ SaysApprove punctuation rest
  needsChanges : parseVerdict (review ++ "\n" ++ needsChangesLine) = .needsChanges
  unsure : parseVerdict (review ++ "\n" ++ unsureLine) = .unsure

/-- What stands between the keyword and the next white space. -/
def wordTail (rest : List Char) : List Char :=
  (rest.dropWhile isKeywordChar).takeWhile fun c => !isWhitespace c

/-- A line whose keyword approves ends its word with punctuation only, and asks nothing after it. -/
def ClearApproval (line : List Char) : Prop :=
  ∀ rest, verdictRest line = some rest → token rest ∈ approvals → hedged rest = false →
    (∀ c ∈ wordTail rest, strippable punctuation c = true) ∧
      ((rest.dropWhile fun c => !isWhitespace c).dropWhile isWhitespace).head? ≠ some '?'

end approval

section lines

theorem stripPrefix_isSome (pre text : List Char) :
    (stripPrefix pre text).isSome = decide (pre <+: text) := by
  unfold stripPrefix
  by_cases hprefix : pre <+: text
  · simp only [if_pos hprefix, decide_eq_true hprefix, Option.isSome_some]
  · simp only [if_neg hprefix, decide_eq_false hprefix, Option.isSome_none]

theorem verdictRest_isSome (line : List Char) : (verdictRest line).isSome = isVerdictLine line := by
  rw [verdictRest, Option.isSome_map, stripPrefix_isSome]
  rfl

theorem findSome_verdictRest (lines : List (List Char)) :
    lines.findSome? verdictRest = (lines.find? isVerdictLine).bind verdictRest := by
  induction lines with
  | nil => rfl
  | cons line lines ih =>
    rw [List.findSome?_cons, List.find?_cons, ← verdictRest_isSome]
    cases hrest : verdictRest line with
    | none => simpa using ih
    | some rest => simp [hrest]

theorem parseVerdict_eq (review : String) : parseVerdict review =
    (((lastVerdictLine review).bind verdictRest).map verdictOf).getD .unknown := by
  unfold parseVerdict lastVerdictLine
  rw [findSome_verdictRest]
  cases ((linesOf review.toList).reverse.find? isVerdictLine).bind verdictRest with
  | none => rfl
  | some rest => rfl

theorem linesFrom_concat_line (text held last : List Char) :
    ∃ lines, linesFrom (text ++ '\n' :: last) held = lines ++ linesFrom last [] := by
  induction text generalizing held with
  | nil => exact ⟨[endOfLine held], by simp [linesFrom]⟩
  | cons c text ih =>
    by_cases hc : c = '\n'
    · subst hc
      obtain ⟨lines, hlines⟩ := ih []
      exact ⟨endOfLine held :: lines, by rw [List.cons_append, linesFrom, hlines, List.cons_append]⟩
    · obtain ⟨lines, hlines⟩ := ih (c :: held)
      refine ⟨lines, ?_⟩
      rw [List.cons_append, linesFrom, hlines]
      exact hc

theorem parseVerdict_append (review line : String) (hline : '\n' ∉ line.toList)
    (hverdict : isVerdictLine line.toList = true) :
    parseVerdict (review ++ "\n" ++ line) =
      ((verdictRest line.toList).map verdictOf).getD .unknown := by
  have hne : line.toList ≠ [] := by
    intro hnil
    rw [hnil] at hverdict
    exact absurd hverdict (by decide)
  have hlast : linesFrom line.toList [] = [line.toList] := by
    have happend := linesFrom_append hline [] []
    rw [List.append_nil, List.append_nil] at happend
    rw [happend, linesFrom_nil (by simpa using hne), List.reverse_reverse]
  obtain ⟨lines, hlines⟩ := linesFrom_concat_line review.toList [] line.toList
  have hfound : lastVerdictLine (review ++ "\n" ++ line) = some line.toList := by
    unfold lastVerdictLine linesOf
    rw [String.toList_append, String.toList_append, List.append_assoc]
    change (linesFrom (review.toList ++ '\n' :: line.toList) []).reverse.find? _ = _
    rw [hlines, hlast, List.reverse_append, List.reverse_singleton, List.singleton_append,
      List.find?_cons, hverdict]
  rw [parseVerdict_eq, hfound, Option.bind_some]

end lines

section word
variable {punctuation : Char → Bool} {rest : List Char}

theorem keywordChar_not_whitespace {c : Char} (h : isKeywordChar c = true) :
    isWhitespace c = false := by
  have hrange : c.toNat = 95 ∨ (65 ≤ c.toNat ∧ c.toNat ≤ 90) ∨ (97 ≤ c.toNat ∧ c.toNat ≤ 122) := by
    simp only [isKeywordChar, Char.isAlpha, Char.isUpper, Char.isLower, Bool.or_eq_true,
      Bool.and_eq_true, decide_eq_true_eq, UInt32.le_iff_toNat_le, ge_iff_le] at h
    rcases h with (⟨hlow, hhigh⟩ | ⟨hlow, hhigh⟩) | rfl
    · exact Or.inr (Or.inl ⟨hlow, hhigh⟩)
    · exact Or.inr (Or.inr ⟨hlow, hhigh⟩)
    · exact Or.inl rfl
  unfold isWhitespace
  simp only [Bool.or_eq_false_iff, Bool.and_eq_false_iff, decide_eq_false_iff_not]
  omega

theorem word_eq (rest : List Char) :
    (rest.takeWhile fun c => !isWhitespace c) = token rest ++ wordTail rest := by
  have hkeyword : ∀ c ∈ token rest, (!isWhitespace c) = true := by
    intro c hc
    rw [keywordChar_not_whitespace (List.mem_takeWhile_imp hc)]
    rfl
  conv_lhs => rw [← List.takeWhile_append_dropWhile (p := isKeywordChar) (l := rest)]
  exact List.takeWhile_append_of_pos hkeyword

theorem mem_approvals_letters {word : List Char} (h : word ∈ approvals) :
    ∀ c ∈ word, c.isAlpha = true := by
  simp only [approvals, List.mem_cons, List.not_mem_nil, or_false] at h
  rcases h with rfl | rfl
  · exact List.all_eq_true.mp (by decide)
  · exact List.all_eq_true.mp (by decide)

theorem mem_approvals_ne_nil {word : List Char} (h : word ∈ approvals) : word ≠ [] := by
  rintro rfl
  exact absurd h (by decide)

theorem saidWord_mem_approvals (hletters : ∀ c : Char, c.isAlpha = true → punctuation c = false)
    (htoken : token rest ∈ approvals) :
    saidWord punctuation rest ∈ approvals ↔
      ∀ c ∈ wordTail rest, strippable punctuation c = true := by
  unfold saidWord
  rw [word_eq]
  constructor
  · intro hsaid c hc
    by_contra hkept
    have hstop : strippable punctuation c = false := by simpa using hkept
    obtain ⟨before, after, htail⟩ := List.append_of_mem hc
    rw [htail, ← List.append_assoc, rdropWhile_concat_of_neg _ _ hstop] at hsaid
    -- The first character of the tail is no letter, and it stays in the word said.
    have hfirst : ∀ d ∈ (wordTail rest).head?, isKeywordChar d = false := by
      intro d hd
      have hdrop : d ∈ (rest.dropWhile isKeywordChar).head? := by
        unfold wordTail at hd
        cases hlist : rest.dropWhile isKeywordChar with
        | nil =>
          rw [hlist] at hd
          simp at hd
        | cons e tail =>
          rw [hlist, List.takeWhile_cons] at hd
          split at hd
          · simpa using hd
          · simp at hd
      have hnot := List.head?_dropWhile_not isKeywordChar rest
      rw [Option.mem_def.mp hdrop] at hnot
      simpa using hnot
    have hletter := mem_approvals_letters hsaid
    obtain ⟨d, hd, hmem⟩ : ∃ d, (wordTail rest).head? = some d ∧
        d ∈ token rest ++ before ++ c :: after.rdropWhile (strippable punctuation) := by
      cases before with
      | nil => exact ⟨c, by simp [htail], by simp⟩
      | cons d before => exact ⟨d, by simp [htail], by simp⟩
    have hkeyword := hfirst d hd
    rw [isKeywordChar, hletter d hmem] at hkeyword
    exact absurd hkeyword (by simp)
  · intro htail
    rw [rdropWhile_append_all _ htail]
    obtain ⟨init, last, hlast⟩ :=
      (List.eq_nil_or_concat (token rest)).resolve_left (mem_approvals_ne_nil htoken)
    have hletter : last.isAlpha = true :=
      mem_approvals_letters htoken last (by simp [hlast])
    have hkeep : strippable punctuation last = false := by
      rw [strippable, hletters last hletter, Bool.false_and]
    rw [hlast, List.concat_eq_append, rdropWhile_concat_of_neg init [] hkeep, List.rdropWhile_nil,
      ← List.concat_eq_append, ← hlast]
    exact htoken

end word

theorem verdictOf_eq_approve {rest : List Char} :
    verdictOf rest = .approve ↔ token rest ∈ approvals ∧ hedged rest = false := by
  unfold verdictOf
  split_ifs with happrove hneeds hunsure
  · simpa using happrove
  · simpa using happrove
  · simpa using happrove
  · simpa using happrove

/-- A review approves only when it says so exactly if its last verdict line does not run an approval
into anything but punctuation, or ask about it. -/
theorem approvesOnlyWhenSaid_iff (punctuation : Char → Bool)
    (hletters : ∀ c : Char, c.isAlpha = true → punctuation c = false) (review : String) :
    ApprovesOnlyWhenSaid punctuation review ↔
      ∀ line, lastVerdictLine review = some line → ClearApproval punctuation line := by
  constructor
  · intro honly line hline rest hrest htoken hedge
    have happrove : parseVerdict review = .approve := by
      rw [parseVerdict_eq, hline, Option.bind_some, hrest]
      exact verdictOf_eq_approve.mpr ⟨htoken, hedge⟩
    obtain ⟨line', rest', hline', hrest', hword, hasked⟩ := honly.said happrove
    obtain rfl : line = line' := Option.some.inj (hline.symm.trans hline')
    obtain rfl : rest = rest' := Option.some.inj (hrest.symm.trans hrest')
    exact ⟨(saidWord_mem_approvals hletters htoken).mp hword, hasked⟩
  · intro hclear
    refine ⟨?_, ?_, ?_, ?_⟩
    · intro other hother
      rw [parseVerdict_eq, parseVerdict_eq, hother]
    · intro happrove
      rw [parseVerdict_eq] at happrove
      cases hline : lastVerdictLine review with
      | none =>
        rw [hline] at happrove
        exact absurd happrove (by decide)
      | some line =>
        cases hrest : verdictRest line with
        | none =>
          rw [hline, Option.bind_some, hrest] at happrove
          exact absurd happrove (by decide)
        | some rest =>
          rw [hline, Option.bind_some, hrest] at happrove
          obtain ⟨htoken, hedge⟩ := verdictOf_eq_approve.mp happrove
          obtain ⟨htail, hasked⟩ := hclear line hline rest hrest htoken hedge
          exact ⟨line, rest, rfl, hrest,
            (saidWord_mem_approvals hletters htoken).mpr htail, hasked⟩
    · rw [parseVerdict_append review needsChangesLine (by decide) (by decide)]
      decide
    · rw [parseVerdict_append review unsureLine (by decide) (by decide)]
      decide

/-- `char::is_ascii_punctuation`. -/
def isAsciiPunctuation (c : Char) : Bool :=
  (33 ≤ c.toNat && c.toNat ≤ 47) || (58 ≤ c.toNat && c.toNat ≤ 64)
    || (91 ≤ c.toNat && c.toNat ≤ 96) || (123 ≤ c.toNat && c.toNat ≤ 126)

theorem letter_not_punctuation (c : Char) (h : c.isAlpha = true) : isAsciiPunctuation c = false := by
  have hrange : (65 ≤ c.toNat ∧ c.toNat ≤ 90) ∨ (97 ≤ c.toNat ∧ c.toNat ≤ 122) := by
    simp only [Char.isAlpha, Char.isUpper, Char.isLower, Bool.or_eq_true, Bool.and_eq_true,
      decide_eq_true_eq, UInt32.le_iff_toNat_le, ge_iff_le] at h
    exact h
  unfold isAsciiPunctuation
  simp only [Bool.or_eq_false_iff, Bool.and_eq_false_iff, decide_eq_false_iff_not]
  omega

theorem approvesOnlyWhenSaid_iff_plain :
    ApprovesOnlyWhenSaid isAsciiPunctuation "VERDICT: Approve." ∧
      ¬ApprovesOnlyWhenSaid isAsciiPunctuation "VERDICT: approve(?)" := by
  constructor
  · refine (approvesOnlyWhenSaid_iff _ letter_not_punctuation _).mpr ?_
    intro line hline rest hrest htoken hedge
    obtain rfl : line = "VERDICT: Approve.".toList :=
      Option.some.inj (hline.symm.trans (by decide))
    obtain rfl : rest = "approve.".toList := Option.some.inj (hrest.symm.trans (by decide))
    exact ⟨List.all_eq_true.mp (by decide), by decide⟩
  · intro honly
    have hclear := (approvesOnlyWhenSaid_iff _ letter_not_punctuation _).mp honly
      "VERDICT: approve(?)".toList (by decide)
    have htail := (hclear "approve(?)".toList (by decide) (by decide) (by decide)).1
    exact absurd (htail '?' (by decide)) (by decide)

/-- A verdict that offers both words approves. -/
theorem compound_verdict_approves :
    parseVerdict "VERDICT: APPROVE/NEEDS_CHANGES" = .approve ∧
      ¬ApprovesOnlyWhenSaid isAsciiPunctuation "VERDICT: APPROVE/NEEDS_CHANGES" := by
  refine ⟨by decide, fun honly => ?_⟩
  obtain ⟨line, rest, hline, hrest, hword, -⟩ := honly.said (by decide)
  obtain rfl : line = "VERDICT: APPROVE/NEEDS_CHANGES".toList :=
    Option.some.inj (hline.symm.trans (by decide))
  obtain rfl : rest = "approve/needs_changes".toList :=
    Option.some.inj (hrest.symm.trans (by decide))
  exact absurd hword (by decide)

end AgentRelay.Review
