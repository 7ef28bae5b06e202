import AgentRelay.SessionLines

/-! What reading in chunks comes to, forward and backward: the text split at its newlines, each
line with its place. -/
namespace AgentRelay.SessionPage

/-- Lines one after the other, with a newline between each and the next. -/
def placed (start : Nat) : List Bytes → List Line
  | [] => []
  | bytes :: rest => ⟨start, start + bytes.length, bytes⟩ :: placed (start + bytes.length + 1) rest

def textLines (start : Nat) (text : Bytes) : List Line := placed start (text.splitOn newline)

def dropEmptyLast (lines : List Line) : List Line :=
  if lines.getLast?.any fun line => line.bytes.isEmpty then lines.dropLast else lines

def dropEmptyFirst (lines : List Line) : List Line :=
  if lines.head?.any fun line => line.bytes.isEmpty then lines.tail else lines

section placed
variable {start : Nat} {text : Bytes}

theorem placed_ne_nil {pieces : List Bytes} (h : pieces ≠ []) : placed start pieces ≠ [] := by
  cases pieces with
  | nil => exact absurd rfl h
  | cons bytes rest => exact List.cons_ne_nil _ _

theorem textLines_ne_nil : textLines start text ≠ [] := placed_ne_nil (List.splitOn_ne_nil _ _)

theorem textLines_of_unbroken (h : newline ∉ text) :
    textLines start text = [⟨start, start + text.length, text⟩] := by
  rw [textLines, List.splitOn_eq_singleton h]
  rfl

theorem textLines_cons {first rest : Bytes} (h : newline ∉ first) :
    textLines start (first ++ newline :: rest) =
      ⟨start, start + first.length, first⟩ :: textLines (start + first.length + 1) rest := by
  rw [textLines, List.splitOn_append_cons_self_of_not_mem h]
  rfl

theorem placed_append (first rest : List Bytes) :
    placed start (first ++ rest) =
      placed start first ++ placed (start + (first.map (·.length + 1)).sum) rest := by
  induction first generalizing start with
  | nil => simp [placed]
  | cons bytes first ih => simp [placed, ih, Nat.add_assoc]

theorem sum_length_splitOn (text : Bytes) :
    ((text.splitOn newline).map (·.length + 1)).sum = text.length + 1 := by
  induction text with
  | nil => rfl
  | cons byte text ih =>
    rw [List.splitOn_cons_eq_if_modifyHead]
    split_ifs
    · simp [ih, Nat.add_comm]
    · obtain ⟨first, rest, hsplit⟩ := List.exists_cons_of_ne_nil (List.splitOn_ne_nil newline text)
      rw [hsplit, List.map_cons, List.sum_cons] at ih
      rw [hsplit, List.modifyHead_cons, List.map_cons, List.sum_cons, List.length_cons,
        List.length_cons]
      omega

theorem textLines_concat {before last : Bytes} (h : newline ∉ last) :
    textLines start (before ++ newline :: last) = textLines start before ++
      [⟨start + (before.length + 1), start + (before.length + 1) + last.length, last⟩] := by
  rw [textLines, List.splitOn_append_cons_self, List.splitOn_eq_singleton h, placed_append,
    sum_length_splitOn]
  rfl

theorem dropEmptyLast_append (lines : List Line) {rest : List Line} (h : rest ≠ []) :
    dropEmptyLast (lines ++ rest) = lines ++ dropEmptyLast rest := by
  rw [dropEmptyLast, dropEmptyLast, List.getLast?_append_of_ne_nil _ h,
    List.dropLast_append_of_ne_nil h]
  split_ifs <;> rfl

theorem dropEmptyFirst_append {lines : List Line} (rest : List Line) (h : lines ≠ []) :
    dropEmptyFirst (lines ++ rest) = dropEmptyFirst lines ++ rest := by
  obtain ⟨line, lines, rfl⟩ := List.exists_cons_of_ne_nil h
  rw [dropEmptyFirst, dropEmptyFirst, List.cons_append, List.head?_cons, List.head?_cons]
  split_ifs <;> rfl

end placed

theorem slice_front (file : Bytes) (stop : Nat) : slice file 0 stop = file.take stop := rfl

theorem slice_back (file : Bytes) (start : Nat) : slice file start file.length = file.drop start := by
  rw [slice, List.take_length]

section forward

/-- The lines that end in a chunk, and what is left of it. -/
theorem newlinesForward_eq (data more : Bytes) (dataStart left index segmentStart : Nat)
    (hle : segmentStart ≤ index) (hlength : index + left = data.length)
    (hunbroken : newline ∉ slice data segmentStart index) :
    let out := newlinesForward data dataStart left index segmentStart
    newline ∉ data.drop out.2 ∧
      textLines (dataStart + segmentStart) (data.drop segmentStart ++ more) =
        out.1 ++ textLines (dataStart + out.2) (data.drop out.2 ++ more) := by
  induction left generalizing index segmentStart with
  | zero =>
    have hall : slice data segmentStart index = data.drop segmentStart := by
      rw [slice, ← Nat.add_zero index, hlength, List.take_length]
    rw [hall] at hunbroken
    exact ⟨hunbroken, rfl⟩
  | succ left ih =>
    have hsplit : data.drop segmentStart =
        slice data segmentStart index ++ data.drop index := by
      have hdrop : slice data segmentStart index ++ slice data index data.length =
        slice data segmentStart data.length := slice_append hle (by omega)
      rw [slice_back, slice_back] at hdrop
      exact hdrop.symm
    have hindex : index < data.length := by omega
    have hnext : data.drop index = data[index] :: data.drop (index + 1) :=
      List.drop_eq_getElem_cons hindex
    unfold newlinesForward
    rw [List.getElem?_eq_getElem hindex]
    split_ifs with hbyte
    · obtain ⟨hrest, hlines⟩ := ih (index + 1) (index + 1) le_rfl (by omega) (by
        rw [slice_self]
        exact List.not_mem_nil)
      refine ⟨hrest, ?_⟩
      have hslice : (slice data segmentStart index).length = index - segmentStart :=
        slice_length hindex.le
      rw [hsplit, hnext, Option.some.inj hbyte, List.append_assoc, List.cons_append,
        textLines_cons hunbroken, hslice]
      have hplace : dataStart + segmentStart + (index - segmentStart) = dataStart + index := by
        omega
      rw [hplace, Nat.add_assoc, hlines]
      rfl
    · apply ih (index + 1) segmentStart (by omega) (by omega)
      have hone : slice data index (index + 1) = [data[index]] := by
        rw [slice, List.take_add_one, List.getElem?_eq_getElem hindex, List.drop_left']
        · rfl
        · rw [List.length_take, Nat.min_eq_left hindex.le]
      rw [← slice_append hle (Nat.le_succ index), List.mem_append, hone, List.mem_singleton]
      rintro (hmem | hat)
      · exact hunbroken hmem
      · exact hbyte (congrArg some hat.symm)

theorem dropEmptyLast_textLines {lineStart : Nat} {pre : Bytes} (h : newline ∉ pre) :
    dropEmptyLast (textLines lineStart pre) = lastLine lineStart pre := by
  rw [textLines_of_unbroken h]
  cases pre <;> rfl

theorem linesForwardLoop_eq (file : Bytes) {chunkBytes : Nat} (hchunk : 0 < chunkBytes)
    (rounds position lineStart : Nat) (pre : Bytes) (hrounds : file.length - position ≤ rounds)
    (hpre : newline ∉ pre) :
    linesForwardLoop file chunkBytes rounds position pre lineStart =
      dropEmptyLast (textLines lineStart (pre ++ file.drop position)) := by
  induction rounds generalizing position lineStart pre with
  | zero =>
    rw [List.drop_eq_nil_of_le (by omega), List.append_nil, dropEmptyLast_textLines hpre]
    rfl
  | succ rounds ih =>
    unfold linesForwardLoop
    split_ifs with hmore
    · have hpos : 0 < min chunkBytes (file.length - position) := Nat.lt_min.mpr ⟨hchunk, by omega⟩
      have hbound := Nat.min_le_right chunkBytes (file.length - position)
      dsimp only
      generalize min chunkBytes (file.length - position) = length at hpos hbound ⊢
      generalize hdata : pre ++ slice file position (position + length) = data
      have hwhole : pre ++ file.drop position = data ++ file.drop (position + length) := by
        have hdrop : slice file position (position + length) ++
            slice file (position + length) file.length = slice file position file.length :=
          slice_append (Nat.le_add_right position length) (by omega)
        rw [slice, slice, slice, List.take_length] at hdrop
        rw [← hdata, List.append_assoc, slice, ← hdrop]
      obtain ⟨hrest, hlines⟩ := newlinesForward_eq data (file.drop (position + length)) lineStart
        data.length 0 0 le_rfl (Nat.zero_add _) (by
          rw [slice_self]
          exact List.not_mem_nil)
      rw [ih _ _ _ (by omega) hrest, ← dropEmptyLast_append _ textLines_ne_nil, ← hlines, hwhole]
      rfl
    · rw [List.drop_eq_nil_of_le (by omega), List.append_nil, dropEmptyLast_textLines hpre]

end forward

section backward

theorem newlinesBackward_eq (before data : Bytes) (index lineEnd : Nat) (hle : index ≤ lineEnd)
    (hlength : lineEnd ≤ data.length) (hunbroken : newline ∉ slice data index lineEnd) :
    let out := newlinesBackward data before.length index lineEnd
    newline ∉ data.take out.2 ∧
      textLines 0 (before ++ data.take lineEnd) =
        textLines 0 (before ++ data.take out.2) ++ out.1.reverse := by
  induction index generalizing lineEnd with
  | zero => exact ⟨hunbroken, (List.append_nil _).symm⟩
  | succ index ih =>
    have hindex : index < data.length := by omega
    have hone : data.take (index + 1) = data.take index ++ [data[index]] := by
      rw [List.take_add_one, List.getElem?_eq_getElem hindex]
      rfl
    have hsplit : data.take lineEnd =
        data.take index ++ data[index] :: slice data (index + 1) lineEnd := by
      have htake : slice data 0 (index + 1) ++ slice data (index + 1) lineEnd =
        slice data 0 lineEnd := slice_append (Nat.zero_le (index + 1)) hle
      rw [slice_front, slice_front, hone, List.append_assoc] at htake
      exact htake.symm
    unfold newlinesBackward
    rw [List.getElem?_eq_getElem hindex]
    split_ifs with hbyte
    · obtain ⟨hrest, hlines⟩ := ih index le_rfl hindex.le (by
        rw [slice_self]
        exact List.not_mem_nil)
      refine ⟨hrest, ?_⟩
      have hslice : (slice data (index + 1) lineEnd).length = lineEnd - (index + 1) :=
        slice_length hlength
      have hplace : before.length + (index + 1) + (lineEnd - (index + 1)) =
          before.length + lineEnd := by omega
      rw [hsplit, Option.some.inj hbyte, ← List.append_assoc, textLines_concat hunbroken, hlines,
        hslice, List.length_append, List.length_take, Nat.min_eq_left hindex.le, Nat.zero_add,
        Nat.add_assoc before.length index 1, hplace, List.reverse_cons, List.append_assoc]
    · apply ih lineEnd (by omega) hlength
      have hhead : slice data index lineEnd = data[index] :: slice data (index + 1) lineEnd := by
        rw [slice, hsplit, List.drop_left']
        rw [List.length_take, Nat.min_eq_left hindex.le]
      rw [hhead, List.mem_cons]
      rintro (hat | hmem)
      · exact hbyte (congrArg some hat.symm)
      · exact hunbroken hmem

theorem dropEmptyFirst_textLines {suffix : Bytes} (h : newline ∉ suffix) :
    (dropEmptyFirst (textLines 0 suffix)).reverse = firstLine suffix := by
  rw [textLines_of_unbroken h, Nat.zero_add]
  cases suffix <;> rfl

theorem linesBackwardLoop_eq (file : Bytes) {chunkBytes : Nat} (hchunk : 0 < chunkBytes)
    (rounds position : Nat) (suffix : Bytes) (hrounds : position ≤ rounds)
    (hposition : position ≤ file.length) (hsuffix : newline ∉ suffix) :
    linesBackwardLoop file chunkBytes rounds position suffix =
      (dropEmptyFirst (textLines 0 (file.take position ++ suffix))).reverse := by
  induction rounds generalizing position suffix with
  | zero =>
    obtain rfl := Nat.le_zero.mp hrounds
    rw [List.take_zero, List.nil_append, dropEmptyFirst_textLines hsuffix]
    rfl
  | succ rounds ih =>
    unfold linesBackwardLoop
    split_ifs with hmore
    · have hlt : position - chunkBytes < position := by omega
      dsimp only
      generalize position - chunkBytes = start at hlt ⊢
      generalize hdata : slice file start position ++ suffix = data
      have hslice : (slice file start position).length = position - start :=
        slice_length hposition
      have hbefore : (file.take start).length = start := by
        rw [List.length_take, Nat.min_eq_left (by omega)]
      have hwhole : file.take position ++ suffix = file.take start ++ data.take data.length := by
        have htake : slice file 0 start ++ slice file start position = slice file 0 position :=
          slice_append (Nat.zero_le start) hlt.le
        rw [slice_front, slice_front] at htake
        rw [List.take_length, ← hdata, ← htake, List.append_assoc]
      obtain ⟨hrest, hlines⟩ := newlinesBackward_eq (file.take start) data (position - start)
        data.length (by rw [← hdata, List.length_append, hslice]; omega) le_rfl (by
          rw [slice, List.take_length, ← hdata, List.drop_left' hslice]
          exact hsuffix)
      rw [hbefore] at hrest hlines
      rw [ih start _ (by omega) (by omega) hrest, hwhole, hlines,
        dropEmptyFirst_append _ textLines_ne_nil, List.reverse_append, List.reverse_reverse]
    · obtain rfl : position = 0 := by omega
      rw [List.take_zero, List.nil_append, dropEmptyFirst_textLines hsuffix]

end backward

def LineStart (file : Bytes) (place : Nat) : Prop := place ≤ file.length ∧ Opens file 0 place

theorem isLine_of_forward {file : Bytes} {low : Nat} {line : Line} (hlow : LineStart file low)
    (h : Piece file low file.length line) : IsLine file line := by
  refine ⟨Nat.zero_le _, h.ordered, h.to_high, h.bytes, h.whole, ?_, h.closes⟩
  rcases h.opens with hopen | hopen
  · rw [hopen]
    exact hlow.2
  · exact Or.inr hopen

theorem isLine_of_backward {file : Bytes} {high : Nat} {line : Line}
    (hhigh : LineStart file high ∨ high = file.length) (h : Piece file 0 high line)
    (hline : line.bytes ≠ []) : IsLine file line := by
  have hordered := h.ordered
  have hto := h.to_high
  have hlength : high ≤ file.length := hhigh.elim (fun hstart => hstart.1) fun hend => hend.le
  refine ⟨h.from_low, h.ordered, hto.trans hlength, h.bytes, h.whole, h.opens, ?_⟩
  rcases h.closes with hclose | hclose
  · rcases hhigh with hstart | hend
    · -- A bound that is the start of a line has a newline before it, so only an empty line ends there.
      exfalso
      have hshort : line.start < line.stop := by
        by_contra hempty
        apply hline
        rw [h.bytes, Nat.le_antisymm (not_lt.mp hempty) hordered, slice_self]
      rcases hstart.2 with hzero | ⟨hpos, hnewline⟩
      · omega
      · exact h.whole (high - 1) (by omega) (by omega) hnewline
    · exact Or.inl (hclose.trans hend)
  · exact Or.inr hclose

structure Readable (file : Bytes) (line : Line) : Prop where
  bytes : line.bytes = slice file line.start line.stop
  again : line.bytes ≠ [] → readLineAtStart file line.start = some line

theorem readable_of_piece {file : Bytes} {low high : Nat} {line : Line}
    (h : Piece file low high line) (hline : line.bytes ≠ [] → IsLine file line) :
    Readable file line := by
  refine ⟨h.bytes, fun hbytes => readLineAtStart_of_isLine (hline hbytes) ?_⟩
  by_contra hend
  apply hbytes
  rw [h.bytes, slice, List.drop_eq_nil_iff, List.length_take]
  exact (Nat.min_le_right _ _).trans (not_lt.mp hend)

/-- Whatever the size of the chunks, reading forward from the start of a line yields the lines of
the rest of the file, but for an empty one at its end, and reading backward from the start of a
line or the end of the file yields the lines before it in reverse, but for an empty one at the
front of the file. -/
theorem lines_of_chunks (file : Bytes) (bound : Nat) {chunkBytes : Nat} (hchunk : 1 ≤ chunkBytes) :
    (LineStart file bound →
      linesForward file bound chunkBytes =
          dropEmptyLast (textLines bound (slice file bound file.length)) ∧
        ∀ line ∈ linesForward file bound chunkBytes, Readable file line) ∧
    (LineStart file bound ∨ bound = file.length →
      linesBackward file bound chunkBytes =
          (dropEmptyFirst (textLines 0 (slice file 0 bound))).reverse ∧
        ∀ line ∈ linesBackward file bound chunkBytes, Readable file line) := by
  constructor
  · intro hstart
    have hloop := linesForwardLoop_eq file hchunk file.length bound bound [] (Nat.sub_le _ _)
      List.not_mem_nil
    refine ⟨?_, fun line hline => ?_⟩
    · rw [slice, List.take_length]
      exact hloop
    · have hpiece := ((linesForward_spec file hchunk hstart.1 line).mp hline).1
      exact readable_of_piece hpiece fun _ => isLine_of_forward hstart hpiece
  · intro hbound
    have hlength : bound ≤ file.length := hbound.elim (fun hstart => hstart.1) fun hend => hend.le
    have hloop := linesBackwardLoop_eq file hchunk bound bound [] le_rfl hlength List.not_mem_nil
    refine ⟨?_, fun line hline => ?_⟩
    · rw [List.append_nil] at hloop
      exact hloop
    · have hpiece := ((linesBackward_spec file hchunk hlength).1 line |>.mp hline).1
      exact readable_of_piece hpiece (isLine_of_backward hbound hpiece)

/-- Two lines and an empty one, in chunks of two bytes. -/
theorem lines_of_two_byte_chunks :
    linesForward [97, 98, 99, 10, 100, 10] 0 2 =
        dropEmptyLast (textLines 0 [97, 98, 99, 10, 100, 10]) ∧
      linesBackward [97, 98, 99, 10, 100, 10] 4 2 =
        (dropEmptyFirst (textLines 0 [97, 98, 99, 10])).reverse :=
  ⟨((lines_of_chunks [97, 98, 99, 10, 100, 10] 0 (by decide)).1 ⟨by decide, .inl rfl⟩).1,
    ((lines_of_chunks [97, 98, 99, 10, 100, 10] 4 (by decide)).2
      (.inl ⟨by decide, .inr (by decide)⟩)).1⟩

end AgentRelay.SessionPage
