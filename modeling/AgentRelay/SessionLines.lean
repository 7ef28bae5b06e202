import Mathlib.Tactic
import Mathlib.Data.List.TakeDrop

/-! The lines of a session file, read in chunks: one line from its start, the lines before a place
from the last to the first, and the lines after it. Whatever the size of the chunks, what is read
are the lines of the file. -/
namespace AgentRelay.SessionPage

abbrev Bytes := List UInt8

def newline : UInt8 := 0x0a

/-- A line with its place in the file; `stop` is where its newline stands. -/
@[ext] structure Line where
  start : Nat
  stop : Nat
  bytes : Bytes
  deriving DecidableEq, Repr

def slice (file : Bytes) (start stop : Nat) : Bytes := (file.take stop).drop start

def readLineChunkBytes : Nat := 4 * 1024

def readChunkBytes : Nat := 64 * 1024

def parentSearchChunkBytes : Nat := 4 * 1024

section reading

variable (file : Bytes)

/-- The loop of `read_line_at_start`; what was read before is `chunks`. The rounds are counted
down from the size of the file. -/
def readLineLoop (start : Nat) : Nat → Nat → Bytes → Option Line
  | 0, _, chunks =>
    if 0 < chunks.length then some ⟨start, start + chunks.length, chunks⟩ else none
  | rounds + 1, position, chunks =>
    if position < file.length then
      let length := min readLineChunkBytes (file.length - position)
      let data := slice file position (position + length)
      if newline ∈ data then
        let bytes := chunks ++ data.takeWhile (· ≠ newline)
        some ⟨start, start + bytes.length, bytes⟩
      else readLineLoop start rounds (position + length) (chunks ++ data)
    else if 0 < chunks.length then some ⟨start, start + chunks.length, chunks⟩ else none

def readLineAtStart (start : Nat) : Option Line := readLineLoop file start file.length start []

/-- The lines that end in a chunk, the last first, and where the line that begins before the chunk
ends; `index` walks down to the front of the chunk. -/
def newlinesBackward (data : Bytes) (start : Nat) : Nat → Nat → List Line × Nat
  | 0, lineEnd => ([], lineEnd)
  | index + 1, lineEnd =>
    if data[index]? = some newline then
      let rest := newlinesBackward data start index index
      (⟨start + (index + 1), start + lineEnd, slice data (index + 1) lineEnd⟩ :: rest.1, rest.2)
    else newlinesBackward data start index lineEnd

/-- The line at the front of the file, unless it is empty. -/
def firstLine (suffix : Bytes) : List Line :=
  if 0 < suffix.length then [⟨0, suffix.length, suffix⟩] else []

def linesBackwardLoop (chunkBytes : Nat) : Nat → Nat → Bytes → List Line
  | 0, _, suffix => firstLine suffix
  | rounds + 1, position, suffix =>
    if 0 < position then
      let start := position - chunkBytes
      let data := slice file start position ++ suffix
      let lines := newlinesBackward data start (position - start) data.length
      lines.1 ++ linesBackwardLoop chunkBytes rounds start (data.take lines.2)
    else firstLine suffix

def linesBackward (endExclusive chunkBytes : Nat) : List Line :=
  linesBackwardLoop file chunkBytes endExclusive endExclusive []

def newlinesForward (data : Bytes) (dataStart : Nat) : Nat → Nat → Nat → List Line × Nat
  | 0, _, segmentStart => ([], segmentStart)
  | left + 1, index, segmentStart =>
    if data[index]? = some newline then
      let rest := newlinesForward data dataStart left (index + 1) (index + 1)
      (⟨dataStart + segmentStart, dataStart + index, slice data segmentStart index⟩ :: rest.1,
        rest.2)
    else newlinesForward data dataStart left (index + 1) segmentStart

/-- The line at the end of the file, unless it is empty. -/
def lastLine (lineStart : Nat) (pre : Bytes) : List Line :=
  if 0 < pre.length then [⟨lineStart, lineStart + pre.length, pre⟩] else []

def linesForwardLoop (chunkBytes : Nat) : Nat → Nat → Bytes → Nat → List Line
  | 0, _, pre, lineStart => lastLine lineStart pre
  | rounds + 1, position, pre, lineStart =>
    if position < file.length then
      let length := min chunkBytes (file.length - position)
      let data := pre ++ slice file position (position + length)
      let lines := newlinesForward data lineStart data.length 0 0
      lines.1 ++ linesForwardLoop chunkBytes rounds (position + length) (data.drop lines.2)
        (lineStart + lines.2)
    else lastLine lineStart pre

def linesForward (start chunkBytes : Nat) : List Line :=
  linesForwardLoop file chunkBytes file.length start [] start

end reading

structure Piece (file : Bytes) (low high : Nat) (line : Line) : Prop where
  from_low : low ≤ line.start
  ordered : line.start ≤ line.stop
  to_high : line.stop ≤ high
  bytes : line.bytes = slice file line.start line.stop
  whole : ∀ index, line.start ≤ index → index < line.stop → file[index]? ≠ some newline
  opens : line.start = low ∨ 0 < line.start ∧ file[line.start - 1]? = some newline
  closes : line.stop = high ∨ file[line.stop]? = some newline

def IsLine (file : Bytes) (line : Line) : Prop := Piece file 0 file.length line

section slices

variable {file : Bytes}

theorem slice_length {start stop : Nat} (hstop : stop ≤ file.length) :
    (slice file start stop).length = stop - start := by
  unfold slice
  rw [List.length_drop, List.length_take, Nat.min_eq_left hstop]

theorem slice_append {start middle stop : Nat} (hstart : start ≤ middle) (hstop : middle ≤ stop) :
    slice file start middle ++ slice file middle stop = slice file start stop := by
  unfold slice
  have htake : file.take middle = (file.take stop).take middle := by
    rw [List.take_take, Nat.min_eq_left hstop]
  have hdrop : (file.take stop).drop middle =
      ((file.take stop).drop start).drop (middle - start) := by
    rw [List.drop_drop, Nat.add_sub_cancel' hstart]
  rw [htake, List.drop_take, hdrop, List.take_append_drop]

theorem slice_self (start : Nat) : slice file start start = [] := by
  unfold slice
  rw [List.drop_eq_nil_iff, List.length_take]
  exact Nat.min_le_left _ _

theorem slice_getElem? {start stop index : Nat} (h : start + index < stop) :
    (slice file start stop)[index]? = file[start + index]? := by
  unfold slice
  rw [List.getElem?_drop, List.getElem?_take_of_lt h]

theorem slice_slice {start stop first last : Nat} (h : start + last ≤ stop) :
    slice (slice file start stop) first last = slice file (start + first) (start + last) := by
  unfold slice
  rw [List.take_drop, List.take_take, Nat.min_eq_left h, List.drop_drop]

end slices

section pieces

variable {file : Bytes} {low high : Nat} {line : Line}

def Unbroken (file : Bytes) (start stop : Nat) : Prop :=
  ∀ index, start ≤ index → index < stop → file[index]? ≠ some newline

/-- A line may end here: at a newline or where the part of the file does. -/
def Closes (file : Bytes) (high stop : Nat) : Prop := stop = high ∨ file[stop]? = some newline

/-- A line may begin here. -/
def Opens (file : Bytes) (low start : Nat) : Prop :=
  start = low ∨ 0 < start ∧ file[start - 1]? = some newline

theorem Piece.eq_of_start (h : Piece file low high line) {other : Line}
    (hother : Piece file low high other) (hstart : line.start = other.start) : line = other := by
  have hstop : line.stop = other.stop := by
    have hordered := h.ordered
    have hordered' := hother.ordered
    have hhigh := h.to_high
    have hhigh' := hother.to_high
    rcases Nat.lt_trichotomy line.stop other.stop with hlt | heq | hlt
    · rcases h.closes with hclose | hclose
      · omega
      · exact absurd hclose (hother.whole line.stop (by omega) hlt)
    · exact heq
    · rcases hother.closes with hclose | hclose
      · omega
      · exact absurd hclose (h.whole other.stop (by omega) hlt)
  have hbytes := h.bytes
  rw [hstart, hstop, ← hother.bytes] at hbytes
  exact Line.ext hstart hstop hbytes

theorem Piece.beside (h : Piece file low high line) {stop : Nat} (hcloses : Closes file high stop) :
    line.stop ≤ stop ∨ stop < line.start := by
  have hhigh := h.to_high
  rcases hcloses with hend | hnewline
  · omega
  · by_contra hinside
    rw [not_or, not_le, not_lt] at hinside
    exact h.whole stop hinside.2 hinside.1 hnewline

theorem Piece.of_unbroken {start stop : Nat} (h : Piece file low high line)
    (hunbroken : Unbroken file start stop) (hstart : start ≤ line.start) (hstop : line.stop ≤ stop)
    (hhigh : stop ≤ high) (hlow : low < line.start ∨ line.start = start) :
    line.start = start ∧ line.stop = stop := by
  have hordered := h.ordered
  constructor
  · rcases hlow with hlow | heq
    · rcases h.opens with hopen | ⟨hpos, hopen⟩
      · omega
      · by_contra hne
        exact hunbroken (line.start - 1) (by omega) (by omega) hopen
    · exact heq
  · rcases h.closes with hclose | hclose
    · omega
    · by_contra hne
      exact hunbroken line.stop (by omega) (by omega) hclose

end pieces

section backward

variable {file : Bytes} {high start k : Nat}

/-- What one chunk yields: the pieces after its last cut down to its first, the last first. -/
theorem newlinesBackward_spec (hkhigh : k ≤ high) (index lineEnd : Nat) (hle : index ≤ lineEnd)
    (hend : start + lineEnd ≤ k)
    (hunbroken : Unbroken file (start + index) (start + lineEnd))
    (hcloses : Closes file high (start + lineEnd)) :
    let out := newlinesBackward (slice file start k) start index lineEnd
    out.2 ≤ lineEnd ∧ Unbroken file start (start + out.2) ∧ Closes file high (start + out.2) ∧
      (∀ line, line ∈ out.1 ↔ Piece file 0 high line ∧ start + out.2 < line.start ∧
        line.stop ≤ start + lineEnd) ∧
      out.1.Pairwise (fun left right => right.start < left.start) := by
  induction index generalizing lineEnd with
  | zero =>
    refine ⟨le_rfl, hunbroken, hcloses, ?_, List.Pairwise.nil⟩
    intro line
    constructor
    · intro hmem
      cases hmem
    · rintro ⟨hpiece, hlt, hle⟩
      have hordered := hpiece.ordered
      simp only [newlinesBackward] at hlt
      omega
  | succ index ih =>
    unfold newlinesBackward
    have hbyte : (slice file start k)[index]? = file[start + index]? := slice_getElem? (by omega)
    split_ifs with hnewline
    · rw [hbyte] at hnewline
      have hnone : Unbroken file (start + index) (start + index) := by
        intro place hge hlt
        omega
      obtain ⟨hrest, hfirst, hcut, hmem, hsorted⟩ :=
        ih index le_rfl (by omega) hnone (Or.inr hnewline)
      dsimp only
      refine ⟨by omega, hfirst, hcut, ?_, ?_⟩
      · intro line
        rw [List.mem_cons, hmem line]
        constructor
        · rintro (rfl | ⟨hpiece, hlt, hstop⟩)
          · refine ⟨⟨by omega, ?_, ?_, ?_, ?_, ?_, hcloses⟩, ?_, le_rfl⟩
            · dsimp only
              omega
            · dsimp only
              omega
            · exact slice_slice hend
            · exact hunbroken
            · refine Or.inr ⟨by dsimp only; omega, ?_⟩
              exact hnewline
            · dsimp only
              omega
          · exact ⟨hpiece, hlt, by omega⟩
        · rintro ⟨hpiece, hlt, hstop⟩
          rcases hpiece.beside (Or.inr hnewline) with hbefore | hafter
          · exact Or.inr ⟨hpiece, hlt, hbefore⟩
          · left
            obtain ⟨hopen, hclose⟩ := hpiece.of_unbroken hunbroken (by omega) hstop (by omega)
              (Or.inl (by omega))
            have hbytes := hpiece.bytes
            rw [hopen, hclose, ← slice_slice hend] at hbytes
            exact Line.ext hopen hclose hbytes
      · rw [List.pairwise_cons]
        refine ⟨?_, hsorted⟩
        intro line hline
        obtain ⟨hpiece, -, hstop⟩ := (hmem line).mp hline
        have hordered := hpiece.ordered
        dsimp only
        omega
    · rw [hbyte] at hnewline
      apply ih lineEnd (by omega) hend
      · intro place hge hlt
        by_cases hat : place = start + index
        · rw [hat]
          exact hnewline
        · exact hunbroken place (by omega) hlt
      · exact hcloses

theorem firstLine_spec (hk : k ≤ file.length) (hkhigh : k ≤ high)
    (hunbroken : Unbroken file 0 k) (hcloses : Closes file high k) (line : Line) :
    line ∈ firstLine (slice file 0 k) ↔ Piece file 0 high line ∧ line.stop ≤ k ∧
      (0 < line.start ∨ line.bytes ≠ []) := by
  have hlength : (slice file 0 k).length = k := by rw [slice_length hk, Nat.sub_zero]
  unfold firstLine
  rw [hlength]
  constructor
  · intro hmem
    split_ifs at hmem with hpos
    · obtain rfl := List.mem_singleton.mp hmem
      refine ⟨⟨le_rfl, Nat.zero_le _, hkhigh, rfl, hunbroken, Or.inl rfl, hcloses⟩, le_rfl, ?_⟩
      right
      intro hempty
      have hzero : (slice file 0 k).length = 0 := congrArg List.length hempty
      omega
    · cases hmem
  · rintro ⟨hpiece, hstop, hsome⟩
    have hordered := hpiece.ordered
    have hzero : line.start = 0 := by
      rcases hpiece.opens with hopen | ⟨hpos, hopen⟩
      · exact hopen
      · exact absurd hopen (hunbroken _ (Nat.zero_le _) (by omega))
    obtain ⟨-, hclose⟩ := hpiece.of_unbroken hunbroken (Nat.zero_le _) hstop hkhigh (Or.inr hzero)
    have hbytes := hpiece.bytes
    rw [hzero, hclose] at hbytes
    have hpos : 0 < k := by
      rcases Nat.eq_zero_or_pos k with rfl | hpos
      · rw [slice_self] at hbytes
        rcases hsome with hstart | hne
        · omega
        · exact absurd hbytes hne
      · exact hpos
    rw [if_pos hpos, List.mem_singleton]
    exact Line.ext hzero hclose hbytes

theorem linesBackwardLoop_spec {chunkBytes : Nat} (hchunk : 0 < chunkBytes)
    (hhigh : high ≤ file.length) (rounds position : Nat) (hrounds : position ≤ rounds)
    (hposition : position ≤ k) (hkhigh : k ≤ high) (hunbroken : Unbroken file position k)
    (hcloses : Closes file high k) :
    let lines := linesBackwardLoop file chunkBytes rounds position (slice file position k)
    (∀ line, line ∈ lines ↔ Piece file 0 high line ∧ line.stop ≤ k ∧
      (0 < line.start ∨ line.bytes ≠ [])) ∧
      lines.Pairwise fun left right => right.start < left.start := by
  have hfirst : ∀ {k : Nat}, k ≤ high → Unbroken file 0 k → Closes file high k →
      (∀ line, line ∈ firstLine (slice file 0 k) ↔ Piece file 0 high line ∧ line.stop ≤ k ∧
        (0 < line.start ∨ line.bytes ≠ [])) ∧
        (firstLine (slice file 0 k)).Pairwise fun left right => right.start < left.start := by
    intro k hkhigh hunbroken hcloses
    refine ⟨firstLine_spec (hkhigh.trans hhigh) hkhigh hunbroken hcloses, ?_⟩
    unfold firstLine
    split_ifs
    · exact List.pairwise_singleton _ _
    · exact List.Pairwise.nil
  induction rounds generalizing position k with
  | zero =>
    obtain rfl := Nat.le_zero.mp hrounds
    exact hfirst hkhigh hunbroken hcloses
  | succ rounds ih =>
    unfold linesBackwardLoop
    split_ifs with hpos
    · have hdata : slice file (position - chunkBytes) position ++ slice file position k =
          slice file (position - chunkBytes) k := slice_append (by omega) hposition
      have hlength : (slice file (position - chunkBytes) k).length = k - (position - chunkBytes) :=
        slice_length (hkhigh.trans hhigh)
      dsimp only
      rw [hdata, hlength]
      have hlt : position - chunkBytes < position := by omega
      generalize position - chunkBytes = start at hlt hdata hlength ⊢
      have hmiddle : start + (position - start) = position := by omega
      have hstop : start + (k - start) = k := by omega
      obtain ⟨hrest, hleft, hcut, hmem, hsorted⟩ := newlinesBackward_spec hkhigh (position - start)
        (k - start) (by omega) hstop.le (by rw [hmiddle, hstop]; exact hunbroken)
        (by rw [hstop]; exact hcloses)
      generalize newlinesBackward (slice file start k) start (position - start) (k - start) = out
        at hrest hleft hcut hmem hsorted ⊢
      rw [hstop] at hmem
      have htake : (slice file start k).take out.2 = slice file start (start + out.2) := by
        have hslice : slice (slice file start k) 0 out.2 = slice file (start + 0) (start + out.2) :=
          slice_slice (by omega)
        simpa [slice] using hslice
      rw [htake]
      obtain ⟨hloop, hloopSorted⟩ := ih (start) (by omega) (Nat.le_add_right _ _) (by omega) hleft
        hcut
      constructor
      · intro line
        rw [List.mem_append, hmem line, hloop line]
        constructor
        · rintro (⟨hpiece, hlt, hle⟩ | ⟨hpiece, hle, hsome⟩)
          · exact ⟨hpiece, hle, Or.inl (by omega)⟩
          · exact ⟨hpiece, by omega, hsome⟩
        · rintro ⟨hpiece, hle, hsome⟩
          rcases hpiece.beside hcut with hbefore | hafter
          · exact Or.inr ⟨hpiece, hbefore, hsome⟩
          · exact Or.inl ⟨hpiece, hafter, hle⟩
      · rw [List.pairwise_append]
        refine ⟨hsorted, hloopSorted, ?_⟩
        intro left hleft right hright
        have hlt := ((hmem left).mp hleft).2.1
        obtain ⟨hpiece, hle, -⟩ := (hloop right).mp hright
        have hordered := hpiece.ordered
        omega
    · obtain rfl : position = 0 := by omega
      exact hfirst hkhigh hunbroken hcloses

/-- Reading backwards yields the lines before a place, the last first, an empty line at the front
of the file apart. -/
theorem linesBackward_spec (file : Bytes) {high chunkBytes : Nat} (hchunk : 0 < chunkBytes)
    (hhigh : high ≤ file.length) :
    (∀ line, line ∈ linesBackward file high chunkBytes ↔ Piece file 0 high line ∧
      (0 < line.start ∨ line.bytes ≠ [])) ∧
      (linesBackward file high chunkBytes).Pairwise fun left right => right.start < left.start := by
  have hnone : Unbroken file high high := by
    intro place hge hlt
    omega
  have hloop := linesBackwardLoop_spec hchunk hhigh high high le_rfl le_rfl le_rfl hnone
    (Or.inl rfl)
  rw [slice_self] at hloop
  refine ⟨?_, hloop.2⟩
  intro line
  unfold linesBackward
  rw [hloop.1 line]
  constructor
  · exact fun h => ⟨h.1, h.2.2⟩
  · exact fun h => ⟨h.1, h.1.to_high, h.2⟩

end backward

section forward

variable {file : Bytes} {low start k : Nat}

/-- What one chunk yields on the way forward: the pieces that end in it. -/
theorem newlinesForward_spec (hk : k ≤ file.length) (hlow : low ≤ start)
    (left index segmentStart : Nat) (hle : segmentStart ≤ index) (hend : start + index + left = k)
    (hunbroken : Unbroken file (start + segmentStart) (start + index))
    (hopens : Opens file low (start + segmentStart)) :
    let out := newlinesForward (slice file start k) start left index segmentStart
    start + out.2 ≤ k ∧ segmentStart ≤ out.2 ∧ Unbroken file (start + out.2) k ∧
      Opens file low (start + out.2) ∧
      ∀ line, line ∈ out.1 ↔ Piece file low file.length line ∧ start + segmentStart ≤ line.start ∧
        line.stop < start + out.2 := by
  induction left generalizing index segmentStart with
  | zero =>
    obtain rfl : start + index = k := by omega
    refine ⟨by simp only [newlinesForward]; omega, le_rfl, hunbroken, hopens, ?_⟩
    intro line
    constructor
    · intro hmem
      cases hmem
    · rintro ⟨hpiece, hge, hlt⟩
      have hordered := hpiece.ordered
      simp only [newlinesForward] at hlt
      omega
  | succ left ih =>
    unfold newlinesForward
    have hbyte : (slice file start k)[index]? = file[start + index]? := slice_getElem? (by omega)
    split_ifs with hnewline
    · rw [hbyte] at hnewline
      have hnone : Unbroken file (start + (index + 1)) (start + (index + 1)) := by
        intro place hge hlt
        omega
      have hopen : Opens file low (start + (index + 1)) := Or.inr ⟨by omega, hnewline⟩
      obtain ⟨hrest, hge, hlast, hcut, hmem⟩ :=
        ih (index + 1) (index + 1) le_rfl (by omega) hnone hopen
      dsimp only
      refine ⟨hrest, by omega, hlast, hcut, ?_⟩
      intro line
      rw [List.mem_cons, hmem line]
      constructor
      · rintro (rfl | ⟨hpiece, hafter, hbefore⟩)
        · refine ⟨⟨?_, ?_, ?_, ?_, hunbroken, hopens, Or.inr hnewline⟩, le_rfl, ?_⟩
          · dsimp only
            omega
          · dsimp only
            omega
          · dsimp only
            omega
          · exact slice_slice (by omega)
          · dsimp only
            omega
        · exact ⟨hpiece, by omega, hbefore⟩
      · rintro ⟨hpiece, hafter, hbefore⟩
        have hordered := hpiece.ordered
        rcases hpiece.beside (Or.inr hnewline) with hstop | hstart
        · left
          have hopened : line.start = start + segmentStart := by
            rcases hpiece.opens with hat | ⟨hpos, hat⟩
            · omega
            · by_contra hne
              exact hunbroken (line.start - 1) (by omega) (by omega) hat
          have hclosed : line.stop = start + index := by
            rcases hpiece.closes with hat | hat
            · omega
            · by_contra hne
              exact hunbroken line.stop (by omega) (by omega) hat
          have hbytes := hpiece.bytes
          have hslice : slice (slice file start k) segmentStart index =
              slice file (start + segmentStart) (start + index) := slice_slice (by omega)
          rw [hopened, hclosed, ← hslice] at hbytes
          exact Line.ext hopened hclosed hbytes
        · exact Or.inr ⟨hpiece, by omega, hbefore⟩
    · rw [hbyte] at hnewline
      apply ih (index + 1) segmentStart (by omega) (by omega)
      · intro place hge hlt
        by_cases hat : place = start + index
        · rw [hat]
          exact hnewline
        · exact hunbroken place hge (by omega)
      · exact hopens

theorem linesForwardLoop_spec {chunkBytes : Nat} (hchunk : 0 < chunkBytes) (rounds position : Nat)
    (hrounds : file.length - position ≤ rounds) (hposition : position ≤ file.length)
    (hstart : start ≤ position) (hlow : low ≤ start) (hunbroken : Unbroken file start position)
    (hopens : Opens file low start) (line : Line) :
    line ∈ linesForwardLoop file chunkBytes rounds position (slice file start position) start ↔
      Piece file low file.length line ∧ start ≤ line.start ∧
        (line.stop < file.length ∨ line.bytes ≠ []) := by
  have hlast : ∀ {start : Nat}, start ≤ file.length → low ≤ start →
      Unbroken file start file.length → Opens file low start →
      (line ∈ lastLine start (slice file start file.length) ↔
        Piece file low file.length line ∧ start ≤ line.start ∧
          (line.stop < file.length ∨ line.bytes ≠ [])) := by
    intro start hstart hlow hunbroken hopens
    have hlength : (slice file start file.length).length = file.length - start :=
      slice_length le_rfl
    unfold lastLine
    rw [hlength]
    constructor
    · intro hmem
      split_ifs at hmem with hpos
      · obtain rfl := List.mem_singleton.mp hmem
        have hstop : start + (file.length - start) = file.length := by omega
        rw [hstop]
        refine ⟨⟨hlow, hstart, le_rfl, rfl, hunbroken, hopens, Or.inl rfl⟩, le_rfl, ?_⟩
        right
        intro hempty
        have hzero : (slice file start file.length).length = 0 := congrArg List.length hempty
        omega
      · cases hmem
    · rintro ⟨hpiece, hge, hsome⟩
      have hordered := hpiece.ordered
      have hhigh := hpiece.to_high
      have hclosed : line.stop = file.length := by
        rcases hpiece.closes with hat | hat
        · exact hat
        · by_contra hne
          exact hunbroken line.stop (by omega) (by omega) hat
      have hbytes := hpiece.bytes
      have hopened : line.start = start := by
        by_contra hne
        rcases hpiece.opens with hat | ⟨hpos, hat⟩
        · omega
        · exact hunbroken (line.start - 1) (by omega) (by omega) hat
      rw [hopened, hclosed] at hbytes
      have hpos : 0 < file.length - start := by
        by_contra hnone
        have hsame : start = file.length := by omega
        rw [hsame, slice_self] at hbytes
        rcases hsome with hlt | hne
        · omega
        · exact hne hbytes
      rw [if_pos hpos, List.mem_singleton]
      have hstop : start + (file.length - start) = file.length := by omega
      rw [hstop]
      exact Line.ext hopened hclosed hbytes
  induction rounds generalizing position start with
  | zero =>
    obtain rfl : position = file.length := by omega
    exact hlast hstart hlow hunbroken hopens
  | succ rounds ih =>
    unfold linesForwardLoop
    split_ifs with hmore
    · dsimp only
      obtain ⟨next, hnext⟩ : ∃ next, next = position + min chunkBytes (file.length - position) :=
        ⟨_, rfl⟩
      have hlt : position < next := by
        have hpos : 0 < min chunkBytes (file.length - position) :=
          Nat.lt_min.mpr ⟨hchunk, by omega⟩
        omega
      have hle : next ≤ file.length := by
        have hmin := Nat.min_le_right chunkBytes (file.length - position)
        omega
      rw [← hnext, slice_append hstart hlt.le, slice_length hle]
      have hnone : Unbroken file (start + 0) (start + 0) := by
        intro place hge hbelow
        omega
      obtain ⟨hrest, -, hleft, hcut, hmem⟩ := newlinesForward_spec hle hlow (next - start) 0 0
        le_rfl (by omega) hnone hopens
      generalize newlinesForward (slice file start next) start (next - start) 0 0 = out
        at hrest hleft hcut hmem ⊢
      have hdrop : (slice file start next).drop out.2 = slice file (start + out.2) next := by
        unfold slice
        rw [List.drop_drop]
      have hloop := ih next (by omega) hle hrest (by omega) hleft hcut
      rw [hdrop, List.mem_append, hmem line]
      refine (or_congr_right hloop).trans ?_
      constructor
      · rintro (⟨hpiece, hge, hbefore⟩ | ⟨hpiece, hge, hsome⟩)
        · exact ⟨hpiece, hge, Or.inl (by omega)⟩
        · exact ⟨hpiece, by omega, hsome⟩
      · rintro ⟨hpiece, hge, hsome⟩
        by_cases hafter : start + out.2 ≤ line.start
        · exact Or.inr ⟨hpiece, hafter, hsome⟩
        · left
          refine ⟨hpiece, hge, ?_⟩
          rcases hcut with hat | ⟨hpos, hat⟩
          · omega
          · rcases hpiece.beside (Or.inr hat) with hbefore | hbehind
            · omega
            · omega
    · obtain rfl : position = file.length := by omega
      exact hlast hstart hlow hunbroken hopens

theorem linesForward_spec (file : Bytes) {low chunkBytes : Nat} (hchunk : 0 < chunkBytes)
    (hlow : low ≤ file.length) (line : Line) :
    line ∈ linesForward file low chunkBytes ↔ Piece file low file.length line ∧
      (line.stop < file.length ∨ line.bytes ≠ []) := by
  have hnone : Unbroken file low low := by
    intro place hge hlt
    omega
  have hloop := linesForwardLoop_spec hchunk file.length low (Nat.sub_le _ _) hlow le_rfl le_rfl
    hnone (Or.inl rfl) line
  rw [slice_self] at hloop
  unfold linesForward
  rw [hloop]
  constructor
  · exact fun h => ⟨h.1, h.2.2⟩
  · exact fun h => ⟨h.1, h.1.from_low, h.2⟩

end forward

section oneLine

variable {file : Bytes}

theorem takeWhile_slice {start stop last : Nat} (hstop : stop ≤ file.length) (hstart : start ≤ last)
    (hlast : last < stop) (hunbroken : Unbroken file start last)
    (hnewline : file[last]? = some newline) :
    newline ∈ slice file start stop ∧
      (slice file start stop).takeWhile (· ≠ newline) = slice file start last := by
  have hsplit : slice file start last ++ slice file last stop = slice file start stop :=
    slice_append hstart hlast.le
  have hhead : ∃ rest, slice file last stop = newline :: rest := by
    have hget : (slice file last stop)[0]? = some newline := by
      rw [slice_getElem? (by omega), Nat.add_zero, hnewline]
    cases hrest : slice file last stop with
    | nil =>
      rw [hrest] at hget
      cases hget
    | cons head rest =>
      rw [hrest] at hget
      exact ⟨rest, by rw [Option.some.inj hget]⟩
  obtain ⟨rest, hrest⟩ := hhead
  have hnone : ∀ byte ∈ slice file start last, decide (byte ≠ newline) = true := by
    intro byte hmem
    obtain ⟨index, hget⟩ := List.mem_iff_getElem?.mp hmem
    have hlt : index < (slice file start last).length := (List.getElem?_eq_some_iff.mp hget).1
    rw [slice_length (by omega)] at hlt
    rw [slice_getElem? (by omega)] at hget
    have hne := hunbroken (start + index) (by omega) (by omega)
    rw [hget] at hne
    simpa using hne
  rw [← hsplit, hrest]
  refine ⟨List.mem_append_right _ List.mem_cons_self, ?_⟩
  rw [List.takeWhile_append_of_pos hnone, List.takeWhile_cons_of_neg (by simp), List.append_nil]

theorem newline_not_mem_slice {start stop : Nat} (hstop : stop ≤ file.length)
    (hunbroken : Unbroken file start stop) : newline ∉ slice file start stop := by
  intro hmem
  obtain ⟨index, hget⟩ := List.mem_iff_getElem?.mp hmem
  have hlt : index < (slice file start stop).length := (List.getElem?_eq_some_iff.mp hget).1
  rw [slice_length hstop] at hlt
  rw [slice_getElem? (by omega)] at hget
  exact hunbroken (start + index) (by omega) (by omega) hget

theorem readLineLoop_spec {line : Line} (h : IsLine file line) (hlt : line.start < file.length)
    (rounds position : Nat) (hrounds : file.length - position ≤ rounds)
    (hposition : position ≤ line.stop) (hstart : line.start ≤ position) :
    readLineLoop file line.start rounds position (slice file line.start position) = some line := by
  have hstop := h.to_high
  have hordered := h.ordered
  have hlength : (slice file line.start line.stop).length = line.stop - line.start :=
    slice_length hstop
  have hdone : ∀ position, line.stop = file.length → position = file.length →
      (if 0 < (slice file line.start position).length then
        some ⟨line.start, line.start + (slice file line.start position).length,
          slice file line.start position⟩ else none) = some line := by
    intro position hend hat
    rw [hat, ← hend, hlength, if_pos (by omega), ← h.bytes,
      Nat.add_sub_cancel' hordered]
  induction rounds generalizing position with
  | zero => exact hdone position (by omega) (by omega)
  | succ rounds ih =>
    unfold readLineLoop
    by_cases hmore : position < file.length
    · rw [if_pos hmore]
      dsimp only
      obtain ⟨next, hnext⟩ : ∃ next,
          next = position + min readLineChunkBytes (file.length - position) := ⟨_, rfl⟩
      have hchunk : 0 < readLineChunkBytes := by decide
      have hpos : 0 < min readLineChunkBytes (file.length - position) :=
        Nat.lt_min.mpr ⟨hchunk, by omega⟩
      have hmin := Nat.min_le_right readLineChunkBytes (file.length - position)
      rw [← hnext]
      have hunbroken : Unbroken file position line.stop :=
        fun place hge hbelow => h.whole place (by omega) hbelow
      by_cases hinside : line.stop < next
      · have hnewline : file[line.stop]? = some newline := by
          rcases h.closes with hat | hat
          · omega
          · exact hat
        obtain ⟨hmem, htake⟩ := takeWhile_slice (by omega) hposition hinside hunbroken hnewline
        rw [if_pos hmem, htake, slice_append hstart hposition, hlength,
          Nat.add_sub_cancel' hordered, ← h.bytes]
      · have hmem : newline ∉ slice file position next :=
          newline_not_mem_slice (by omega) fun place hge hbelow =>
            hunbroken place hge (by omega)
        rw [if_neg hmem, slice_append hstart (by omega)]
        exact ih next (by omega) (by omega) (by omega)
    · rw [if_neg hmore]
      exact hdone position (by omega) (by omega)

theorem readLineAtStart_of_isLine {line : Line} (h : IsLine file line)
    (hlt : line.start < file.length) : readLineAtStart file line.start = some line := by
  have hloop := readLineLoop_spec h hlt file.length line.start (Nat.sub_le _ _) h.ordered le_rfl
  rw [slice_self] at hloop
  exact hloop

end oneLine

end AgentRelay.SessionPage
