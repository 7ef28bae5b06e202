import AgentRelay.FileChangePatch

/-! Texts made of lines: what `str::trim` and `str::lines` leave of them, and their prefixes. -/
namespace AgentRelay.Relay
open Text

def joinLines : List (List Char) → List Char
  | [] => []
  | [line] => line
  | line :: next :: rest => line ++ '\n' :: joinLines (next :: rest)

/-- What is read of a line: only white space at its end may be gone. -/
def Shown (line shown : List Char) : Prop :=
  line.rdropWhile isWhitespace <+: shown ∧ shown <+: line

def blankLine (line : List Char) : Bool := line.all isWhitespace

theorem Shown.refl (line : List Char) : Shown line line :=
  ⟨List.rdropWhile_prefix _ _, List.prefix_rfl⟩

theorem shown_rdropWhile (line : List Char) : Shown line (line.rdropWhile isWhitespace) :=
  ⟨List.prefix_rfl, List.rdropWhile_prefix _ _⟩

theorem rdropWhile_concat_of_neg {α : Type*} {p : α → Bool} {c : α} (init tail : List α)
    (hc : p c = false) :
    (init ++ c :: tail).rdropWhile p = init ++ c :: tail.rdropWhile p := by
  induction tail using List.reverseRecOn with
  | nil => rw [List.rdropWhile_concat_neg _ _ _ (by simp [hc]), List.rdropWhile_nil]
  | append_singleton tail x ih =>
    rw [← List.cons_append, ← List.append_assoc]
    by_cases hx : p x
    · rw [List.rdropWhile_concat_pos _ _ _ hx, ih, List.rdropWhile_concat_pos _ _ _ hx]
    · rw [List.rdropWhile_concat_neg _ _ _ hx, List.rdropWhile_concat_neg _ _ _ hx]
      simp

theorem Shown.keeps {init tail shown : List Char} {c : Char} (hc : isWhitespace c = false)
    (h : Shown (init ++ c :: tail) shown) :
    ∃ kept, kept <+: tail ∧ shown = init ++ c :: kept := by
  obtain ⟨⟨more, hmore⟩, hshown⟩ := h
  rw [rdropWhile_concat_of_neg init tail hc] at hmore
  refine ⟨tail.rdropWhile isWhitespace ++ more, ?_, by simp [← hmore]⟩
  rw [← hmore, List.append_assoc, List.cons_append] at hshown
  have hinner := (List.prefix_append_right_inj init).mp hshown
  exact (List.cons_prefix_cons.mp hinner).2

theorem Shown.keeps_through {init mid tail shown : List Char} {c : Char}
    (hc : isWhitespace c = false) (h : Shown (init ++ (mid ++ c :: tail)) shown) :
    ∃ kept, kept <+: tail ∧ shown = init ++ (mid ++ c :: kept) := by
  rw [← List.append_assoc] at h
  obtain ⟨kept, hkept, hshown⟩ := h.keeps hc
  exact ⟨kept, hkept, by rw [hshown, List.append_assoc]⟩

theorem shown_endOfLine (line : List Char) : Shown line (endOfLine line.reverse) := by
  obtain rfl | ⟨init, c, rfl⟩ := line.eq_nil_or_concat
  · exact Shown.refl []
  · rw [List.concat_eq_append, List.reverse_append, List.reverse_singleton, List.singleton_append]
    by_cases hc : c = '\r'
    · subst hc
      have hdrop : (init ++ ['\r']).rdropWhile isWhitespace = init.rdropWhile isWhitespace :=
        List.rdropWhile_concat_pos _ _ _ (by decide)
      simp only [endOfLine, List.reverse_reverse]
      exact ⟨hdrop ▸ List.rdropWhile_prefix _ _, List.prefix_append _ _⟩
    · have hsame : endOfLine (c :: init.reverse) = init ++ [c] := by
        simp [endOfLine, hc]
      rw [hsame]
      exact Shown.refl _

theorem linesFrom_append {line : List Char} (h : '\n' ∉ line) (rest held : List Char) :
    linesFrom (line ++ rest) held = linesFrom rest (line.reverse ++ held) := by
  induction line generalizing held with
  | nil => rfl
  | cons c line ih =>
    have hc : c ≠ '\n' := fun e => h (e ▸ List.mem_cons_self)
    have hline : '\n' ∉ line := fun hmem => h (List.mem_cons_of_mem _ hmem)
    rw [List.cons_append, linesFrom, ih hline, List.reverse_cons, List.append_assoc]
    · rfl
    · exact hc

theorem linesFrom_nil {held : List Char} (h : held ≠ []) : linesFrom [] held = [held.reverse] := by
  cases held with
  | nil => exact absurd rfl h
  | cons c held => rfl

theorem joinLines_before (line : List Char) (init : List (List Char)) (last : List Char) :
    joinLines (line :: (init ++ [last])) = line ++ '\n' :: joinLines (init ++ [last]) := by
  cases init <;> rfl

/-- `str::lines` gives back joined lines, each without a carriage return at its end but the
last, which no line feed ends. -/
theorem linesOf_joinLines {init : List (List Char)} {last : List Char}
    (hinit : ∀ line ∈ init, '\n' ∉ line) (hlast : '\n' ∉ last) (hne : last ≠ []) :
    linesOf (joinLines (init ++ [last])) =
      init.map (fun line => endOfLine line.reverse) ++ [last] := by
  unfold linesOf
  induction init with
  | nil =>
    have hread := linesFrom_append hlast [] []
    rw [List.append_nil, List.append_nil] at hread
    simp only [List.nil_append, joinLines, hread, List.map_nil]
    rw [linesFrom_nil (by simpa using hne), List.reverse_reverse]
  | cons line init ih =>
    have hline : '\n' ∉ line := hinit line List.mem_cons_self
    have hrest := ih fun other hother => hinit other (List.mem_cons_of_mem _ hother)
    rw [List.cons_append, joinLines_before, linesFrom_append hline, linesFrom, hrest]
    simp

theorem joinLines_cons (line : List Char) (more : List (List Char)) :
    joinLines (line :: more) = line ++ more.flatMap ('\n' :: ·) := by
  induction more generalizing line with
  | nil => simp [joinLines]
  | cons next more ih => rw [joinLines, ih next, List.flatMap_cons, List.cons_append]

theorem joinLines_append {lines : List (List Char)} (h : lines ≠ []) (more : List (List Char)) :
    joinLines (lines ++ more) = joinLines lines ++ more.flatMap ('\n' :: ·) := by
  obtain ⟨line, lines, rfl⟩ := List.exists_cons_of_ne_nil h
  rw [List.cons_append, joinLines_cons, joinLines_cons, List.flatMap_append, List.append_assoc]

theorem joinLines_concat (init : List (List Char)) (last : List Char) :
    joinLines (init ++ [last]) = init.flatMap (· ++ ['\n']) ++ last := by
  induction init with
  | nil => simp [joinLines]
  | cons line init ih =>
    rw [List.cons_append, joinLines_before, ih]
    simp

theorem rdropWhile_append_all {α : Type*} {p : α → Bool} (text : List α) {tail : List α}
    (h : ∀ c ∈ tail, p c = true) : (text ++ tail).rdropWhile p = text.rdropWhile p := by
  induction tail using List.reverseRecOn with
  | nil => simp
  | append_singleton tail c ih =>
    rw [← List.append_assoc, List.rdropWhile_concat_pos _ _ _ (h c (by simp)),
      ih fun x hx => h x (by simp [hx])]

theorem exists_of_not_blank {line : List Char} (h : blankLine line = false) :
    ∃ init c tail, line = init ++ c :: tail ∧ isWhitespace c = false := by
  simp only [blankLine, List.all_eq_false] at h
  obtain ⟨c, hc, hno⟩ := h
  obtain ⟨init, tail, rfl⟩ := List.append_of_mem hc
  exact ⟨init, c, tail, rfl, by simpa using hno⟩

theorem rdropWhile_append_of_not_blank (text : List Char) {line : List Char}
    (h : blankLine line = false) :
    (text ++ line).rdropWhile isWhitespace = text ++ line.rdropWhile isWhitespace ∧
      line.rdropWhile isWhitespace ≠ [] := by
  obtain ⟨init, c, tail, rfl, hc⟩ := exists_of_not_blank h
  rw [← List.append_assoc, rdropWhile_concat_of_neg _ _ hc, rdropWhile_concat_of_neg _ _ hc]
  simp

/-- The lines a reader is shown of a trimmed text are its lines, without the blank ones at its
end. -/
theorem shown_lines {first : List Char} {rest : List (List Char)}
    (hfirst : ∃ c text, first = c :: text ∧ isWhitespace c = false)
    (hlines : ∀ line ∈ first :: rest, '\n' ∉ line) :
    List.Forall₂ Shown ((first :: rest).rdropWhile blankLine)
      (linesOf (((joinLines (first :: rest)).dropWhile isWhitespace).rdropWhile isWhitespace)) := by
  obtain ⟨c, text, rfl, hc⟩ := hfirst
  have hstart : (joinLines ((c :: text) :: rest)).dropWhile isWhitespace =
      joinLines ((c :: text) :: rest) := by
    cases rest <;> simp [joinLines, hc]
  have hfilled : blankLine (c :: text) = false := by simp [blankLine, hc]
  have hkept : ((c :: text) :: rest).rdropWhile blankLine ≠ [] := by
    intro hnil
    have hblank := List.rdropWhile_eq_nil_iff.mp hnil (c :: text) List.mem_cons_self
    simp [hfilled] at hblank
  have hblanks : ((c :: text) :: rest).rdropWhile blankLine ++
      ((c :: text) :: rest).rtakeWhile blankLine = (c :: text) :: rest :=
    List.rdropWhile_append_rtakeWhile
  have hempty : ∀ line ∈ ((c :: text) :: rest).rtakeWhile blankLine, blankLine line = true :=
    fun line hline => List.mem_rtakeWhile_imp hline
  generalize ((c :: text) :: rest).rtakeWhile blankLine = blanks at hblanks hempty
  obtain hnil | ⟨init, last, hcore⟩ :=
    (((c :: text) :: rest).rdropWhile blankLine).eq_nil_or_concat
  · exact absurd hnil hkept
  have hlastBlank : blankLine last = false := by
    have hnot := List.rdropWhile_last_not blankLine ((c :: text) :: rest) hkept
    simpa [hcore] using hnot
  rw [List.concat_eq_append] at hcore
  rw [hcore] at hblanks ⊢
  have hgone : ∀ x ∈ blanks.flatMap ('\n' :: ·), isWhitespace x = true := by
    intro x hx
    obtain ⟨line, hline, hin⟩ := List.mem_flatMap.mp hx
    cases List.mem_cons.mp hin with
    | inl hfeed => exact hfeed ▸ by decide
    | inr htext => exact List.all_eq_true.mp (hempty line hline) x htext
  obtain ⟨htrim, hsome⟩ := rdropWhile_append_of_not_blank (init.flatMap (· ++ ['\n'])) hlastBlank
  rw [hstart, ← hblanks, joinLines_append (by simp), rdropWhile_append_all _ hgone,
    joinLines_concat, htrim, ← joinLines_concat]
  have hmem : ∀ line ∈ init ++ [last], '\n' ∉ line := fun line hline =>
    hlines line (hblanks ▸ List.mem_append_left blanks hline)
  have hlast : '\n' ∉ last.rdropWhile isWhitespace := fun hc =>
    hmem last (by simp) ((List.rdropWhile_prefix _ _).mem hc)
  rw [linesOf_joinLines (fun line hline => hmem line (by simp [hline])) hlast hsome]
  have hshown : List.Forall₂ Shown init (init.map fun line => endOfLine line.reverse) :=
    List.forall₂_map_right_iff.mpr (List.forall₂_same.mpr fun line _ => shown_endOfLine line)
  exact List.rel_append hshown (.cons (shown_rdropWhile last) .nil)

theorem splitWhitespace_word {word : List Char} {c : Char} (rest : List Char)
    (hword : ∀ x ∈ word, isWhitespace x = false) (hne : word ≠ [])
    (hc : isWhitespace c = true) :
    splitWhitespace (word ++ c :: rest) = word :: splitWhitespace rest := by
  rw [splitWhitespace, List.splitOnP_append_cons_of_forall_mem hword c hc,
    List.filter_cons_of_pos (by simpa using hne), splitWhitespace]

theorem isChain_splitOnPPrepend {α : Type*} {R : α → α → Prop} {p : α → Bool}
    {text held word : List α} (h : (held.reverse ++ text).IsChain R)
    (hword : word ∈ List.splitOnPPrepend p text held) : word.IsChain R := by
  induction text generalizing held with
  | nil =>
    rw [List.splitOnPPrepend_nil, List.mem_singleton] at hword
    exact hword ▸ h.left_of_append
  | cons c text ih =>
    rw [List.splitOnPPrepend_cons_eq_if] at hword
    split at hword
    · cases List.mem_cons.mp hword with
      | inl hheld => exact hheld ▸ h.left_of_append
      | inr hrest =>
        have htext : (([] : List α).reverse ++ text).IsChain R := h.right_of_append.tail
        exact ih htext hrest
    · exact ih (by simpa using h) hword

theorem isChain_splitWhitespace {R : Char → Char → Prop} {text word : List Char}
    (h : text.IsChain R) (hword : word ∈ splitWhitespace text) : word.IsChain R := by
  have hpiece : word ∈ List.splitOnPPrepend isWhitespace text [] := (List.mem_filter.mp hword).1
  have hheld : (([] : List Char).reverse ++ text).IsChain R := h
  exact isChain_splitOnPPrepend hheld hpiece

end AgentRelay.Relay
