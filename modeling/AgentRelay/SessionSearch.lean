import AgentRelay.SessionPage

/-! The search for a record by its uuid: what the two scans and the remembered offsets find is a
line whose text shows the uuid, and they miss no such line. -/
namespace AgentRelay.SessionPage
open Tabs (Js)

theorem strictEq_string {text : String} {value : Js} :
    strictEq (.string text) value = true ↔ value = .string text := by
  cases value <;> simp [strictEq, eq_comm]

theorem strictEq_string_right {text : String} {value : Js} :
    strictEq value (.string text) = true ↔ value = .string text := by
  cases value <;> simp [strictEq]

section search

variable {decode : Bytes → List Char} {file : Bytes}

def Shows (decode : Bytes → List Char) (line : Line) (uuid : Js) : Prop :=
  ∃ text, rawUuid decode line = some text ∧ uuid = .string text

def FromLine (decode : Bytes → List Char) (lines : List Line) (entry : Js × Nat) : Prop :=
  ∃ line ∈ lines, Shows decode line entry.1 ∧ entry.2 = line.start

theorem cacheUuidOffset_spec (decode : Bytes → List Char) (line : Line) (offsets : Offsets)
    (uuid : Js) :
    (((cacheUuidOffset decode line offsets).1.map
      fun text => strictEq (.string text) uuid).getD false = true ↔ Shows decode line uuid) ∧
    ∀ entry ∈ (cacheUuidOffset decode line offsets).2,
      entry ∈ offsets ∨ FromLine decode [line] entry := by
  unfold cacheUuidOffset
  cases hraw : rawUuid decode line with
  | none =>
    refine ⟨?_, fun entry hmem => Or.inl hmem⟩
    constructor
    · intro h
      cases h
    · rintro ⟨text, hshown, -⟩
      rw [hraw] at hshown
      cases hshown
  | some text =>
    constructor
    · simp only [Option.map_some, Option.getD_some, strictEq_string]
      constructor
      · intro h
        exact ⟨text, hraw, h⟩
      · rintro ⟨other, hshown, rfl⟩
        rw [hraw] at hshown
        rw [Option.some.inj hshown]
    · intro entry hmem
      rcases List.mem_cons.mp hmem with rfl | hold
      · exact Or.inr ⟨line, List.mem_cons_self, ⟨text, hraw, rfl⟩, rfl⟩
      · exact Or.inl hold

theorem FromLine.mono {lines more : List Line} {entry : Js × Nat} (h : FromLine decode lines entry)
    (hsub : lines ⊆ more) : FromLine decode more entry := by
  obtain ⟨line, hmem, hshows⟩ := h
  exact ⟨line, hsub hmem, hshows⟩

def Scan.left (scan : Scan) : Nat := scan.lines.length + if scan.done then 0 else 1

/-- What one window does: it finds the target, or takes lines that do not show it. -/
theorem scanWindow_spec (decode : Bytes → List Char) (targetUuid : Js) (leaves : Line → Bool)
    (lines : List Line) (offsets : Offsets) :
    let out := scanWindow decode targetUuid leaves lines offsets
    (∀ start, out.1 = some start → ∃ line ∈ lines, Shows decode line targetUuid ∧
      line.start = start) ∧
    (out.1 = none → ∃ taken, lines = taken ++ out.2.1.lines ∧
      (∀ line ∈ taken, ¬ Shows decode line targetUuid) ∧
      (out.2.1.done = true → out.2.1.lines = []) ∧ out.2.1.left ≤ lines.length) ∧
    ∀ entry ∈ out.2.2, entry ∈ offsets ∨ FromLine decode lines entry := by
  induction lines generalizing offsets with
  | nil =>
    refine ⟨?_, ?_, fun entry hmem => Or.inl hmem⟩
    · intro start h
      cases h
    · intro _
      exact ⟨[], rfl, by simp, fun _ => rfl, le_rfl⟩
  | cons line rest ih =>
    obtain ⟨hshows, hentries⟩ := cacheUuidOffset_spec decode line offsets targetUuid
    have hhere : ∀ entry ∈ (cacheUuidOffset decode line offsets).2,
        entry ∈ offsets ∨ FromLine decode (line :: rest) entry := by
      intro entry hmem
      exact (hentries entry hmem).imp_right fun h => h.mono (by simp)
    unfold scanWindow
    dsimp only
    split_ifs with hfound hleaves
    · refine ⟨?_, ?_, hhere⟩
      · intro start h
        exact ⟨line, List.mem_cons_self, hshows.mp hfound, Option.some.inj h⟩
      · intro h
        cases h
    · refine ⟨?_, ?_, hhere⟩
      · intro start h
        cases h
      · intro _
        refine ⟨[line], rfl, ?_, ?_, ?_⟩
        · intro other hmem
          rw [List.mem_singleton.mp hmem]
          exact fun h => hfound (hshows.mpr h)
        · intro h
          cases h
        · simp [Scan.left]
    · obtain ⟨hsome, hnone, hcached⟩ := ih (cacheUuidOffset decode line offsets).2
      refine ⟨?_, ?_, ?_⟩
      · intro start h
        obtain ⟨other, hmem, hother⟩ := hsome start h
        exact ⟨other, List.mem_cons_of_mem _ hmem, hother⟩
      · intro h
        obtain ⟨taken, hsplit, htaken, hdone, hleft⟩ := hnone h
        refine ⟨line :: taken, ?_, ?_, hdone, ?_⟩
        · rw [List.cons_append, ← hsplit]
        · intro other hmem
          rcases List.mem_cons.mp hmem with rfl | hother
          · exact fun h => hfound (hshows.mpr h)
          · exact htaken other hother
        · simp only [List.length_cons]
          omega
      · intro entry hmem
        rcases hcached entry hmem with hold | hnew
        · exact hhere entry hold
        · exact Or.inr (hnew.mono (List.subset_cons_self _ _))

/-- One direction of a round; a direction that has ended is left alone. -/
theorem scanTurn_spec (decode : Bytes → List Char) (targetUuid : Js) (leaves : Line → Bool)
    (scan : Scan) (offsets : Offsets) (hended : scan.done = true → scan.lines = []) :
    let out := scanTurn decode targetUuid leaves scan offsets
    (∀ start, out.1 = some start → ∃ line ∈ scan.lines, Shows decode line targetUuid ∧
      line.start = start) ∧
    (out.1 = none → ∃ taken, scan.lines = taken ++ out.2.1.lines ∧
      (∀ line ∈ taken, ¬ Shows decode line targetUuid) ∧
      (out.2.1.done = true → out.2.1.lines = []) ∧
      (if scan.done then out.2.1.left ≤ scan.left else out.2.1.left < scan.left)) ∧
    ∀ entry ∈ out.2.2, entry ∈ offsets ∨ FromLine decode scan.lines entry := by
  unfold scanTurn
  dsimp only
  split_ifs with hdone
  · refine ⟨?_, ?_, fun entry hmem => Or.inl hmem⟩
    · intro start h
      cases h
    · intro _
      exact ⟨[], rfl, by simp, hended, le_rfl⟩
  · obtain ⟨hsome, hnone, hcached⟩ :=
      scanWindow_spec decode targetUuid leaves scan.lines offsets
    refine ⟨hsome, ?_, hcached⟩
    intro h
    obtain ⟨taken, hsplit, htaken, hend, hleft⟩ := hnone h
    refine ⟨taken, hsplit, htaken, hend, ?_⟩
    have hself : scan.left = scan.lines.length + 1 := by
      unfold Scan.left
      rw [if_neg hdone]
    omega

/-- The rounds of both directions find a line that shows the target if there is one. -/
theorem searchLoop_spec (decode : Bytes → List Char) (file : Bytes) (targetUuid : Js)
    (rounds : Nat) (backward : Scan) (backwardFloor : Nat)
    (forward : Scan) (forwardCeiling : Nat) (offsets : Offsets)
    (hback : backward.done = true → backward.lines = [])
    (hforward : forward.done = true → forward.lines = [])
    (hrounds : backward.left + forward.left ≤ rounds) :
    let out := searchLoop decode file targetUuid rounds backward backwardFloor forward
      forwardCeiling offsets
    (∀ start, out.1 = some start → ∃ line ∈ backward.lines ++ forward.lines,
      Shows decode line targetUuid ∧ line.start = start) ∧
    (out.1 = none → ∀ line ∈ backward.lines ++ forward.lines, ¬ Shows decode line targetUuid) ∧
    ∀ entry ∈ out.2, entry ∈ offsets ∨
      FromLine decode (backward.lines ++ forward.lines) entry := by
  have hover : ∀ {backward forward : Scan}, (backward.done = true → backward.lines = []) →
      (forward.done = true → forward.lines = []) → backward.done = true → forward.done = true →
      ∀ line ∈ backward.lines ++ forward.lines, ¬ Shows decode line targetUuid := by
    intro backward forward hback hforward hfirst hsecond line hmem
    rw [hback hfirst, hforward hsecond] at hmem
    cases hmem
  induction rounds generalizing backward backwardFloor forward forwardCeiling offsets with
  | zero =>
    have hends : backward.done = true ∧ forward.done = true := by
      unfold Scan.left at hrounds
      constructor
      · by_contra hdone
        rw [if_neg hdone] at hrounds
        omega
      · by_contra hdone
        rw [if_neg hdone] at hrounds
        omega
    refine ⟨?_, fun _ => hover hback hforward hends.1 hends.2, fun entry hmem => Or.inl hmem⟩
    intro start h
    cases h
  | succ rounds ih =>
    unfold searchLoop
    split_ifs with hends
    · refine ⟨?_, fun _ => hover hback hforward hends.1 hends.2, fun entry hmem => Or.inl hmem⟩
      intro start h
      cases h
    · dsimp only
      obtain ⟨hsome, hnone, hcached⟩ := scanTurn_spec decode targetUuid
        (fun line => decide (line.start ≤ nextFloor backward backwardFloor)) backward offsets hback
      generalize scanTurn decode targetUuid
        (fun line => decide (line.start ≤ nextFloor backward backwardFloor)) backward offsets = back
        at hsome hnone hcached ⊢
      obtain ⟨found, backward', offsets'⟩ := back
      dsimp only at hsome hnone hcached ⊢
      cases found with
      | some start =>
        dsimp only
        refine ⟨?_, ?_, ?_⟩
        · intro other h
          obtain ⟨line, hmem, hline⟩ := hsome start rfl
          rw [← Option.some.inj h]
          exact ⟨line, List.mem_append_left _ hmem, hline⟩
        · intro h
          cases h
        · intro entry hmem
          exact (hcached entry hmem).imp_right fun h => h.mono (List.subset_append_left _ _)
      | none =>
        dsimp only
        obtain ⟨taken, hsplit, htaken, hbackEnd, hbackLeft⟩ := hnone rfl
        obtain ⟨hsome', hnone', hcached'⟩ := scanTurn_spec decode targetUuid
          (fun line => decide (nextCeiling file forward forwardCeiling ≤ line.stop)) forward offsets'
          hforward
        generalize scanTurn decode targetUuid
          (fun line => decide (nextCeiling file forward forwardCeiling ≤ line.stop)) forward
          offsets' = ahead at hsome' hnone' hcached' ⊢
        obtain ⟨found', forward', offsets''⟩ := ahead
        dsimp only at hsome' hnone' hcached' ⊢
        have hentries : ∀ entry ∈ offsets'', entry ∈ offsets ∨
            FromLine decode (backward.lines ++ forward.lines) entry := by
          intro entry hmem
          rcases hcached' entry hmem with hold | hnew
          · exact (hcached entry hold).imp_right fun h => h.mono (List.subset_append_left _ _)
          · exact Or.inr (hnew.mono (List.subset_append_right _ _))
        cases found' with
        | some start =>
          dsimp only
          refine ⟨?_, ?_, hentries⟩
          · intro other h
            obtain ⟨line, hmem, hline⟩ := hsome' start rfl
            rw [← Option.some.inj h]
            exact ⟨line, List.mem_append_right _ hmem, hline⟩
          · intro h
            cases h
        | none =>
          dsimp only
          obtain ⟨taken', hsplit', htaken', hforwardEnd, hforwardLeft⟩ := hnone' rfl
          have hless : backward'.left + forward'.left ≤ rounds := by
            rw [not_and_or] at hends
            rcases hends with hopen | hopen
            · rw [if_neg hopen] at hbackLeft
              split_ifs at hforwardLeft <;> omega
            · rw [if_neg hopen] at hforwardLeft
              split_ifs at hbackLeft <;> omega
          obtain ⟨hrest, hmissed, hlater⟩ := ih backward'
            (nextFloor backward backwardFloor) forward' (nextCeiling file forward forwardCeiling)
            offsets'' hbackEnd hforwardEnd hless
          have hsub : backward'.lines ++ forward'.lines ⊆ backward.lines ++ forward.lines := by
            rw [hsplit, hsplit']
            intro line hmem
            rcases List.mem_append.mp hmem with hline | hline
            · exact List.mem_append_left _ (List.mem_append_right _ hline)
            · exact List.mem_append_right _ (List.mem_append_right _ hline)
          refine ⟨?_, ?_, ?_⟩
          · intro start h
            obtain ⟨line, hmem, hline⟩ := hrest start h
            exact ⟨line, hsub hmem, hline⟩
          · intro h line hmem
            have hleft := hmissed h
            rw [hsplit, hsplit'] at hmem
            simp only [List.mem_append] at hmem hleft
            rcases hmem with (hline | hline) | (hline | hline)
            · exact htaken line hline
            · exact hleft line (Or.inl hline)
            · exact htaken' line hline
            · exact hleft line (Or.inr hline)
          · intro entry hmem
            rcases hlater entry hmem with hold | hnew
            · exact hentries entry hold
            · exact Or.inr (hnew.mono hsub)

theorem Shows.nonempty {line : Line} {uuid : Js} (hdecode : decode [] = [])
    (h : Shows decode line uuid) : line.bytes ≠ [] := by
  intro hempty
  obtain ⟨text, hraw, -⟩ := h
  unfold rawUuid at hraw
  rw [hempty, hdecode] at hraw
  cases hraw

theorem Piece.start_lt {low high : Nat} {line : Line} (h : Piece file low high line)
    (hbytes : line.bytes ≠ []) : line.start < line.stop := by
  by_contra hnot
  have hordered := h.ordered
  have heq : line.stop = line.start := by omega
  apply hbytes
  rw [h.bytes, heq, slice_self]

theorem Piece.isLine_before {line current : Line} (hcurrent : IsLine file current)
    (h : Piece file 0 current.start line) (hbytes : line.bytes ≠ []) : IsLine file line := by
  have hlt := h.start_lt hbytes
  have hhigh := h.to_high
  have hlength := hcurrent.ordered.trans hcurrent.to_high
  refine ⟨Nat.zero_le _, h.ordered, hhigh.trans hlength, h.bytes, h.whole, h.opens, ?_⟩
  rcases h.closes with hend | hnewline
  · rcases hcurrent.opens with hzero | ⟨hpos, hnewline⟩
    · omega
    · exact absurd hnewline (h.whole (current.start - 1) (by omega) (by omega))
  · exact Or.inr hnewline

theorem Piece.isLine_after {line current : Line} (hcurrent : IsLine file current)
    (hmore : current.stop + 1 ≤ file.length) (h : Piece file (current.stop + 1) file.length line) :
    IsLine file line := by
  refine ⟨Nat.zero_le _, h.ordered, h.to_high, h.bytes, h.whole, ?_, h.closes⟩
  rcases h.opens with hstart | hopen
  · right
    refine ⟨by omega, ?_⟩
    rw [hstart, Nat.add_sub_cancel]
    rcases hcurrent.closes with hend | hnewline
    · omega
    · exact hnewline
  · exact Or.inr hopen

theorem IsLine.before_or_after {line current : Line} (hcurrent : IsLine file current)
    (h : IsLine file line) (hne : line ≠ current) :
    Piece file 0 current.start line ∨
      current.stop + 1 ≤ file.length ∧ Piece file (current.stop + 1) file.length line := by
  have hordered := h.ordered
  have hhigh := h.to_high
  have hlength := hcurrent.to_high
  have horder := hcurrent.ordered
  have hsame : current.start ≤ line.start → line.stop ≤ current.stop → False := by
    intro hge hle
    have hstart : 0 < line.start ∨ line.start = current.start := by omega
    obtain ⟨hopen, -⟩ := h.of_unbroken hcurrent.whole hge hle hlength hstart
    exact hne (h.eq_of_start hcurrent hopen)
  rcases h.beside hcurrent.closes with hle | hlt
  · left
    rcases hcurrent.opens with hzero | ⟨hpos, hnewline⟩
    · exact absurd hle (fun hle => hsame (by omega) hle)
    · rcases h.beside (Or.inr hnewline) with hbefore | hafter
      · refine ⟨Nat.zero_le _, hordered, by omega, h.bytes, h.whole, h.opens, ?_⟩
        rcases h.closes with hend | hclose
        · omega
        · exact Or.inr hclose
      · exact absurd hle (fun hle => hsame (by omega) hle)
  · right
    refine ⟨by omega, hlt, hordered, hhigh, h.bytes, h.whole, ?_, h.closes⟩
    rcases h.opens with hzero | hopen
    · omega
    · exact Or.inr hopen

/-- The lookup of a uuid from a line: an offset it remembers, or a line that shows the uuid; and
none only if no other line shows it. -/
theorem findRecordOffsetByUuid_spec (hdecode : decode [] = []) {current : Line}
    (hcurrent : IsLine file current) (targetUuid : Js) (offsets : Offsets) :
    let out := findRecordOffsetByUuid decode file targetUuid current.start current.stop offsets
    (∀ start, out.1 = some start →
      (∃ entry ∈ offsets, strictEq entry.1 targetUuid = true ∧ entry.2 = start) ∨
      ∃ line, IsLine file line ∧ Shows decode line targetUuid ∧ line.start = start) ∧
    (out.1 = none → (∀ entry ∈ offsets, strictEq entry.1 targetUuid = false) ∧
      ∀ line, IsLine file line → line ≠ current → ¬ Shows decode line targetUuid) ∧
    ∀ entry ∈ out.2, entry ∈ offsets ∨
      ∃ line, IsLine file line ∧ Shows decode line entry.1 ∧ entry.2 = line.start := by
  unfold findRecordOffsetByUuid
  cases hcached : offsets.get targetUuid with
  | some cached =>
    dsimp only
    refine ⟨?_, ?_, fun entry hmem => Or.inl hmem⟩
    · intro start h
      left
      obtain ⟨entry, hfind, hentry⟩ := Option.map_eq_some_iff.mp hcached
      have hsame := List.find?_some hfind
      exact ⟨entry, List.mem_of_find?_eq_some hfind, hsame, hentry.trans (Option.some.inj h)⟩
    · intro h
      cases h
  | none =>
    dsimp only
    have hlength := hcurrent.to_high
    have horder := hcurrent.ordered
    have hchunk : 0 < parentSearchChunkBytes := by decide
    have hback := (linesBackward_spec file hchunk (horder.trans hlength)).1
    have hahead := linesForward_spec file hchunk (Nat.min_le_right (current.stop + 1) file.length)
    have hbackEnd : decide (current.start ≤ 0) = true →
        linesBackward file current.start parentSearchChunkBytes = [] := by
      intro hzero
      have hstart : current.start = 0 := by simpa using hzero
      rw [List.eq_nil_iff_forall_not_mem]
      intro line hmem
      obtain ⟨hpiece, hsome⟩ := (hback line).mp hmem
      have hordered := hpiece.ordered
      have hhigh := hpiece.to_high
      rcases hsome with hpos | hbytes
      · omega
      · have hlt := hpiece.start_lt hbytes
        omega
    have haheadEnd : decide (file.length ≤ current.stop + 1) = true →
        linesForward file (min (current.stop + 1) file.length) parentSearchChunkBytes = [] := by
      intro hend
      have hle : file.length ≤ current.stop + 1 := by simpa using hend
      rw [List.eq_nil_iff_forall_not_mem]
      intro line hmem
      obtain ⟨hpiece, hsome⟩ := (hahead line).mp hmem
      have hlow := hpiece.from_low
      have hordered := hpiece.ordered
      have hhigh := hpiece.to_high
      rw [Nat.min_eq_right hle] at hlow
      rcases hsome with hbelow | hbytes
      · omega
      · have hlt := hpiece.start_lt hbytes
        omega
    obtain ⟨hfound, hmissed, hentries⟩ := searchLoop_spec decode file targetUuid
      ((linesBackward file current.start parentSearchChunkBytes).length +
        (linesForward file (min (current.stop + 1) file.length) parentSearchChunkBytes).length + 2)
      ⟨linesBackward file current.start parentSearchChunkBytes, current.start ≤ 0⟩ current.start
      ⟨linesForward file (min (current.stop + 1) file.length) parentSearchChunkBytes,
        file.length ≤ current.stop + 1⟩ (current.stop + 1) offsets hbackEnd haheadEnd (by
        simp only [Scan.left]
        split_ifs <;> omega)
    have hline : ∀ line uuid, line ∈ linesBackward file current.start parentSearchChunkBytes ++
        linesForward file (min (current.stop + 1) file.length) parentSearchChunkBytes →
        Shows decode line uuid → IsLine file line := by
      intro line uuid hmem hshows
      have hbytes := hshows.nonempty hdecode
      rcases List.mem_append.mp hmem with hbefore | hafter
      · exact ((hback line).mp hbefore).1.isLine_before hcurrent hbytes
      · have hpiece := ((hahead line).mp hafter).1
        by_cases hmore : current.stop + 1 ≤ file.length
        · rw [Nat.min_eq_left hmore] at hpiece
          exact hpiece.isLine_after hcurrent hmore
        · rw [haheadEnd (by simp; omega)] at hafter
          cases hafter
    refine ⟨?_, ?_, ?_⟩
    · intro start h
      obtain ⟨line, hmem, hshows, hstart⟩ := hfound start h
      exact Or.inr ⟨line, hline line _ hmem hshows, hshows, hstart⟩
    · intro h
      constructor
      · intro entry hmem
        have hnone := List.find?_eq_none.mp (Option.map_eq_none_iff.mp hcached) entry hmem
        simpa using hnone
      · intro line hisLine hne hshows
        have hbytes := hshows.nonempty hdecode
        refine hmissed h line ?_ hshows
        rcases IsLine.before_or_after hcurrent hisLine hne with hbefore | ⟨hmore, hafter⟩
        · exact List.mem_append_left _ ((hback line).mpr ⟨hbefore, Or.inr hbytes⟩)
        · refine List.mem_append_right _ ((hahead line).mpr ⟨?_, Or.inr hbytes⟩)
          rw [Nat.min_eq_left hmore]
          exact hafter
    · intro entry hmem
      rcases hentries entry hmem with hold | ⟨line, hmem, hshows, hstart⟩
      · exact Or.inl hold
      · exact Or.inr ⟨line, hline line _ hmem hshows, hshows, hstart⟩

end search

section latest

variable {decode : Bytes → List Char} {jsonParse : List Char → Option Js} {file : Bytes}

def IsConversation (decode : Bytes → List Char) (jsonParse : List Char → Option Js) (line : Line) :
    Prop := isConversationMessage (parseRecord decode jsonParse line.bytes) = true

structure Newest (decode : Bytes → List Char) (jsonParse : List Char → Option Js) (file : Bytes)
    (line : Line) : Prop where
  isLine : IsLine file line
  conversation : IsConversation decode jsonParse line
  last : ∀ other, IsLine file other → IsConversation decode jsonParse other →
    other.start ≤ line.start

theorem parseRecord_nil (hdecode : decode [] = []) : parseRecord decode jsonParse [] = .null := by
  unfold parseRecord
  rw [hdecode]
  rfl

theorem IsConversation.nonempty (hdecode : decode [] = []) {line : Line}
    (h : IsConversation decode jsonParse line) : line.bytes ≠ [] := by
  intro hempty
  unfold IsConversation at h
  rw [hempty, parseRecord_nil hdecode] at h
  cases h

theorem findLatestConversationRecord_spec (decode : Bytes → List Char)
    (jsonParse : List Char → Option Js) (lines : List Line) (offsets : Offsets) :
    let out := findLatestConversationRecord decode jsonParse lines offsets
    (out.1 = none → ∀ line ∈ lines, ¬ IsConversation decode jsonParse line) ∧
    (∀ line, out.1 = some line → ∃ before after, lines = before ++ line :: after ∧
      (∀ other ∈ before, ¬ IsConversation decode jsonParse other) ∧
      IsConversation decode jsonParse line) ∧
    ∀ entry ∈ out.2, entry ∈ offsets ∨ FromLine decode lines entry := by
  induction lines generalizing offsets with
  | nil =>
    refine ⟨by simp, ?_, fun entry hmem => Or.inl hmem⟩
    intro line h
    cases h
  | cons head rest ih =>
    have hcached := (cacheUuidOffset_spec decode head offsets .null).2
    have hhere : ∀ entry ∈ (cacheUuidOffset decode head offsets).2,
        entry ∈ offsets ∨ FromLine decode (head :: rest) entry := by
      intro entry hmem
      exact (hcached entry hmem).imp_right fun h => h.mono (by simp)
    unfold findLatestConversationRecord
    dsimp only
    split_ifs with hconversation
    · refine ⟨?_, ?_, hhere⟩
      · intro h
        cases h
      · intro line h
        obtain rfl := Option.some.inj h
        exact ⟨[], rest, rfl, by simp, hconversation⟩
    · obtain ⟨hnone, hsome, hentries⟩ := ih (cacheUuidOffset decode head offsets).2
      refine ⟨?_, ?_, ?_⟩
      · intro h line hmem
        rcases List.mem_cons.mp hmem with rfl | hline
        · exact hconversation
        · exact hnone h line hline
      · intro line h
        obtain ⟨before, after, rfl, hbefore, hline⟩ := hsome line h
        refine ⟨head :: before, after, rfl, ?_, hline⟩
        intro other hmem
        rcases List.mem_cons.mp hmem with rfl | hother
        · exact hconversation
        · exact hbefore other hother
      · intro entry hmem
        rcases hentries entry hmem with hold | hnew
        · exact hhere entry hold
        · exact Or.inr (hnew.mono (List.subset_cons_self _ _))

theorem latest_spec (hdecode : decode [] = []) :
    let out := findLatestConversationRecord decode jsonParse
      (linesBackward file file.length readChunkBytes) []
    (out.1 = none → ∀ line, IsLine file line → ¬ IsConversation decode jsonParse line) ∧
    (∀ line, out.1 = some line → Newest decode jsonParse file line) ∧
    ∀ entry ∈ out.2, ∃ line, IsLine file line ∧ Shows decode line entry.1 ∧
      entry.2 = line.start := by
  have hchunk : 0 < readChunkBytes := by decide
  obtain ⟨hlines, hsorted⟩ := linesBackward_spec file hchunk le_rfl
  obtain ⟨hnone, hsome, hentries⟩ := findLatestConversationRecord_spec decode
    jsonParse (linesBackward file file.length readChunkBytes) []
  refine ⟨?_, ?_, ?_⟩
  · intro h line hline hconversation
    have hbytes := hconversation.nonempty hdecode
    exact hnone h line ((hlines line).mpr ⟨hline, Or.inr hbytes⟩) hconversation
  · intro line h
    obtain ⟨before, after, hsplit, hbefore, hconversation⟩ := hsome line h
    have hmem : line ∈ linesBackward file file.length readChunkBytes := by
      rw [hsplit]
      simp
    refine ⟨((hlines line).mp hmem).1, hconversation, ?_⟩
    intro other hother hotherConversation
    have hbytes := hotherConversation.nonempty hdecode
    have hread := (hlines other).mpr ⟨hother, Or.inr hbytes⟩
    rw [hsplit, List.mem_append, List.mem_cons] at hread
    rw [hsplit, List.pairwise_append, List.pairwise_cons] at hsorted
    rcases hread with hnewer | rfl | holder
    · exact absurd hotherConversation (hbefore other hnewer)
    · exact le_rfl
    · exact (hsorted.2.1.1 other holder).le
  · intro entry hmem
    rcases hentries entry hmem with hold | ⟨line, hline, hshows, hstart⟩
    · cases hold
    · exact ⟨line, ((hlines line).mp hline).1, hshows, hstart⟩

end latest

end AgentRelay.SessionPage
