import AgentRelay.SessionChain

/-! All pages of a session file: they are the whole chain of parents where its records show their
own uuids; a chain that comes back ends them only if it does so within a page. -/
namespace AgentRelay.SessionPage
open Tabs (Js)
open ChainWalk (Path Walk Cycle)

section pages

variable {session : SessionFile} {line newest : Line} {cursor : Option Nat}

open SessionFile

structure StartsAt (session : SessionFile) (newest line : Line) (cursor : Option Nat) : Prop where
  reached : Reached session newest line
  cursor : cursor = some line.start ∨ cursor = none ∧ line = newest ∧ session.IsNewest newest

theorem newest_unique {other : Line} (h : session.IsNewest line) (hother : session.IsNewest other) :
    line = other := by
  have hle := hother.last line h.isLine h.conversation
  have hge := h.last other hother.isLine hother.conversation
  exact h.isLine.eq_of_start hother.isLine (le_antisymm hle hge)

theorem latestRecord_spec (hdecode : session.decode [] = []) :
    let out := findLatestConversationRecord session.decode session.jsonParse
      (linesBackward session.file session.file.length readChunkBytes) []
    (out.1 = none → ∀ line, session.HasLine line →
      ¬ IsConversation session.decode session.jsonParse line) ∧
    (∀ line, out.1 = some line → session.IsNewest line) ∧
    ∀ entry ∈ out.2, ∃ line, session.HasLine line ∧ Shows session.decode line entry.1 ∧
      entry.2 = line.start := latest_spec hdecode

theorem latest_of_newest (hdecode : session.decode [] = []) (h : session.IsNewest newest) :
    (findLatestConversationRecord session.decode session.jsonParse
      (linesBackward session.file session.file.length readChunkBytes) []).1 = some newest := by
  obtain ⟨hnone, hsome, -⟩ := latestRecord_spec hdecode
  cases hlatest : (findLatestConversationRecord session.decode session.jsonParse
      (linesBackward session.file session.file.length readChunkBytes) []).1 with
  | none => exact absurd h.conversation (hnone hlatest newest h.isLine)
  | some other => rw [newest_unique (hsome other hlatest) h]

theorem StartsAt.page (hdecode : session.decode [] = []) (h : StartsAt session newest line cursor) :
    ∃ s, PageAt session newest [] s line ∧
      session.readPage cursor = loopOf session (session.file.length + 2) s := by
  obtain ⟨uuid, hne, huuid⟩ := h.reached.uuid
  have htruthy : (session.uuidOf line).isTruthy = true := by
    rw [huuid]
    simp [Js.isTruthy, hne]
  have hat : ∀ offsets : Offsets, (∀ entry ∈ offsets, Remembered session newest entry) →
      PageAt session newest [] ⟨line.start, session.uuidOf line, [], [], 0, offsets⟩ line := by
    intro offsets hoffsets
    exact ⟨h.reached, by simp, rfl, rfl, rfl, rfl, hoffsets⟩
  have hfrom : ∀ offsets : Offsets, pageFrom session.decode session.jsonParse session.messageBytes
      session.limits session.file line.start (session.uuidOf line) offsets =
      loopOf session (session.file.length + 2)
        ⟨line.start, session.uuidOf line, [], [], 0, offsets⟩ := by
    intro offsets
    unfold pageFrom
    rw [if_pos htruthy]
    rfl
  rcases h.cursor with rfl | ⟨rfl, rfl, hnewest⟩
  · refine ⟨_, hat [] (by simp), ?_⟩
    rw [← hfrom]
    unfold readPage readSessionMessagePage
    dsimp only
    rw [readLineAtStart_of_isLine h.reached.hasLine (h.reached.start_lt hdecode)]
    exact if_neg (not_not.mpr htruthy)
  · obtain ⟨-, -, hentries⟩ := latestRecord_spec hdecode
    have hlatest := latest_of_newest hdecode hnewest
    rcases hout : findLatestConversationRecord session.decode session.jsonParse
      (linesBackward session.file session.file.length readChunkBytes) [] with ⟨found, offsets⟩
    rw [hout] at hentries hlatest
    obtain rfl : found = some line := hlatest
    refine ⟨_, hat offsets ?_, ?_⟩
    · intro entry hmem
      obtain ⟨other, hother, hshows, hstart⟩ := hentries entry hmem
      exact ⟨other, hother, hstart, Or.inl hshows⟩
    · rw [← hfrom]
      unfold readPage readSessionMessagePage
      dsimp only
      rw [hout]
      rfl

theorem reached_of_path {lines : List Line} {last : Line} (h : Reached session newest line)
    (hpath : Path session.Finds line lines last) : ∀ other ∈ lines, Reached session newest other := by
  induction hpath with
  | nil line => simp
  | cons hlink _ ih =>
    intro other hmem
    rcases List.mem_cons.mp hmem with rfl | hrest
    · exact h
    · exact ih (h.follow hlink) other hrest

theorem lines_length_le {lines : List Line} (hlines : ∀ line ∈ lines, session.HasLine line)
    (hnodup : lines.Nodup) : lines.length ≤ session.file.length + 1 := by
  have hstarts : (lines.map Line.start).Nodup := by
    refine hnodup.map_on ?_
    intro left hleft right hright hsame
    exact (hlines left hleft).eq_of_start (hlines right hright) hsame
  have hrange : lines.map Line.start ⊆ List.range (session.file.length + 1) := by
    intro start hmem
    obtain ⟨line, hline, rfl⟩ := List.mem_map.mp hmem
    have hordered := (hlines line hline).ordered
    have hhigh := (hlines line hline).to_high
    rw [List.mem_range]
    omega
  have hle := (hstarts.subperm hrange).length_le
  rw [List.length_map, List.length_range] at hle
  exact hle

theorem StartsAt.page_path (hdecode : session.decode [] = []) (hdistinct : session.DistinctUuids)
    (hkeys : session.KeysApart newest) (h : StartsAt session newest line cursor)
    {rest : List Line} {last : Line} (hpath : Path session.Finds line rest last)
    (hnodup : rest.Nodup) :
    (∃ s rounds, PageAt session newest rest s last ∧
      (rest ≠ [] → session.isFull (session.messagesOf rest) = false) ∧
      session.readPage cursor = loopOf session (rounds + 1) s) ∨
    ∃ taken left next, rest = taken ++ left ∧ taken ≠ [] ∧ Path session.Finds line taken next ∧
      Path session.Finds next left last ∧ StartsAt session newest next (some next.start) ∧
      session.isFull (session.messagesOf taken) = true ∧
      PageOf session taken (some next.start) (session.readPage cursor) := by
  obtain ⟨s, hat, hread⟩ := h.page hdecode
  have hlength := lines_length_le (fun other hmem =>
    (reached_of_path h.reached hpath other hmem).hasLine) hnodup
  have hrounds : session.file.length + 2 =
      rest.length + (session.file.length + 1 - rest.length + 1) := by omega
  rw [hread, hrounds]
  rcases hat.loop_path hdecode hdistinct hkeys hpath hnodup
      (session.file.length + 1 - rest.length + 1) with
    ⟨final, hfinal, hopen, hloop⟩ |
      ⟨taken, left, next, hrest, hne, htaken, hleft, hnext, hfull, hpage⟩
  · exact Or.inl ⟨final, _, hfinal, hopen, hloop⟩
  · exact Or.inr ⟨taken, left, next, hrest, hne, htaken, hleft, ⟨hnext, Or.inl rfl⟩, hfull, hpage⟩

theorem pages_of_walk (hdecode : session.decode [] = []) (hdistinct : session.DistinctUuids)
    (hkeys : session.KeysApart newest) {ending : Ending} {lines : List Line}
    (h : StartsAt session newest line cursor)
    (hwalk : Walk session.Finds (session.Stops session.Finds) ending line lines) :
    ∃ pages, session.ReadPages cursor pages ending ∧ (ending = .complete →
      pages.reverse.flatMap (·.messages) = (session.messagesOf lines).reverse) := by
  have hstops : ∀ ending left right, session.Stops session.Finds ending left →
      ¬ session.Finds left right := stops_not_next fun _ _ h => h.1
  induction hlength : lines.length using Nat.strongRecOn generalizing line cursor lines with
  | _ length ih =>
    have hnodup := hwalk.nodup (finds_functional hdistinct) hstops
    obtain ⟨before, last, rfl, hpath, hstop⟩ := hwalk.path
    obtain ⟨hbefore, -, hapart⟩ := List.nodup_append.mp hnodup
    have hnew : last ∉ before := by
      intro hmem
      exact hapart last hmem last (List.mem_singleton.mpr rfl) rfl
    rcases h.page_path hdecode hdistinct hkeys hpath hbefore with
      ⟨s, rounds, hat, -, hread⟩ | ⟨taken, left, next, rfl, hne, -, hleft, hnext, -, hpage⟩
    · cases ending with
      | complete =>
        obtain ⟨page, hloop, hmessages, hcursor⟩ :=
          hat.loop_root hdecode hdistinct hnew hstop rounds
        refine ⟨[page], Pages.last (hread.trans hloop) hcursor, fun _ => ?_⟩
        simpa using hmessages
      | failed =>
        obtain ⟨error, hloop⟩ := hat.loop_lost hdecode hdistinct hkeys hnew hstop rounds
        exact ⟨[], Pages.error (hread.trans hloop), by simp⟩
    · obtain ⟨page, hread, hmessages, hcursor⟩ := hpage
      have hpos := List.length_pos_iff.mpr hne
      have hless : (left ++ [last]).length < length := by
        rw [← hlength]
        simp only [List.length_append]
        omega
      obtain ⟨pages, hpages, hrest⟩ :=
        ih (left ++ [last]).length hless hnext (hleft.walk (Walk.stop hstop)) rfl
      refine ⟨page :: pages, Pages.more hread hcursor hpages, ?_⟩
      intro hcomplete
      rw [List.reverse_cons, List.flatMap_append, hrest hcomplete, List.append_assoc,
        messagesOf_append taken, List.reverse_append]
      simpa using hmessages

theorem pages_of_short_cycle (hdecode : session.decode [] = []) (hdistinct : session.DistinctUuids)
    (hkeys : session.KeysApart newest) {tail cycle : List Line} {first : Line}
    (h : StartsAt session newest line cursor) (htail : Path session.Finds line tail first)
    (hcycle : Cycle session.Finds first cycle) (hnodup : (tail ++ cycle).Nodup)
    (hshort : session.isFull (session.messagesOf cycle) = false) :
    ∃ pages, session.ReadPages cursor pages .failed := by
  induction hlength : tail.length using Nat.strongRecOn
    generalizing line cursor tail cycle first with
  | _ length ih =>
    rcases h.page_path hdecode hdistinct hkeys (htail.append hcycle.path) hnodup with
      ⟨s, rounds, hat, -, hread⟩ | ⟨taken, left, next, hsplit, hne, -, hleft, hnext, hfull, hpage⟩
    · have hseen : first ∈ tail ++ cycle :=
        List.mem_append_right _ (hcycle.mem_of_path (finds_functional hdistinct) (Path.nil first))
      obtain ⟨error, herror⟩ := hat.step_seen hdistinct hseen
      rw [loopOf_succ, herror] at hread
      exact ⟨[], Pages.error hread⟩
    · obtain ⟨page, hread, -, hcursor⟩ := hpage
      obtain ⟨tail', first', cycle', htail', hcycle', hnodup', hperm, hless⟩ :=
        hcycle.resume hnodup hsplit hne hleft
      have hshort' : session.isFull (session.messagesOf cycle') = false := by
        by_contra hfull'
        rw [Bool.not_eq_false] at hfull'
        rw [isFull_of_subperm (messagesOf_subperm hperm.subperm) hfull'] at hshort
        cases hshort
      have hturned : tail ≠ [] := by
        rintro rfl
        have hpart : taken.Subperm cycle := by
          rw [← List.nil_append cycle, hsplit]
          exact (List.sublist_append_left taken left).subperm
        rw [isFull_of_subperm (messagesOf_subperm hpart) hfull] at hshort
        cases hshort
      have hless' : tail'.length < length := by
        have hpos := List.length_pos_iff.mpr hturned
        rcases hless with rfl | hless
        · rw [← hlength]
          exact hpos
        · rw [← hlength]
          exact hless
      obtain ⟨pages, hpages⟩ := ih tail'.length hless' hnext htail' hcycle' hnodup' hshort' rfl
      exact ⟨page :: pages, Pages.more hread hcursor hpages⟩

/-- And one that comes back only after a page is full is read for ever. -/
theorem no_pages_of_long_cycle (hdecode : session.decode [] = [])
    (hdistinct : session.DistinctUuids) (hkeys : session.KeysApart newest)
    {tail cycle : List Line} {first : Line} {pages : List Page} {ending : Ending}
    (hpages : session.ReadPages cursor pages ending)
    (h : StartsAt session newest line cursor) (htail : Path session.Finds line tail first)
    (hcycle : Cycle session.Finds first cycle) (hnodup : (tail ++ cycle).Nodup)
    (hlong : session.isFull (session.messagesOf cycle) = true) : False := by
  have hpage : ∀ {cursor line tail cycle first}, StartsAt session newest line cursor →
      Path session.Finds line tail first → Cycle session.Finds first cycle →
      (tail ++ cycle).Nodup → session.isFull (session.messagesOf cycle) = true →
      ∃ next page tail' cycle' first', session.readPage cursor = some (.ok page) ∧
        page.nextCursor = some next.start ∧ StartsAt session newest next (some next.start) ∧
        Path session.Finds next tail' first' ∧ Cycle session.Finds first' cycle' ∧
        (tail' ++ cycle').Nodup ∧ session.isFull (session.messagesOf cycle') = true := by
    intro cursor line tail cycle first h htail hcycle hnodup hlong
    rcases h.page_path hdecode hdistinct hkeys (htail.append hcycle.path) hnodup with
      ⟨s, rounds, -, hopen, -⟩ | ⟨taken, left, next, hsplit, hne, -, hleft, hnext, -, hpage⟩
    · have hsome : tail ++ cycle ≠ [] := by
        intro hnil
        exact hcycle.ne_nil (List.append_eq_nil_iff.mp hnil).2
      have hpart : cycle.Subperm (tail ++ cycle) := (List.sublist_append_right tail cycle).subperm
      have hfull := isFull_of_subperm (messagesOf_subperm hpart) hlong
      rw [hopen hsome] at hfull
      cases hfull
    · obtain ⟨page, hread, -, hcursor⟩ := hpage
      obtain ⟨tail', first', cycle', htail', hcycle', hnodup', hperm, -⟩ :=
        hcycle.resume hnodup hsplit hne hleft
      exact ⟨next, page, tail', cycle', first', hread, hcursor, hnext, htail', hcycle', hnodup',
        isFull_of_subperm (messagesOf_subperm hperm.symm.subperm) hlong⟩
  unfold ReadPages at hpages
  induction hpages generalizing line tail cycle first with
  | error herror =>
    obtain ⟨next, page, -, -, -, hread, -⟩ := hpage h htail hcycle hnodup hlong
    cases hread.symm.trans herror
  | last hok hlast =>
    obtain ⟨next, page, -, -, -, hread, hcursor, -⟩ := hpage h htail hcycle hnodup hlong
    cases hread.symm.trans hok
    cases hlast.symm.trans hcursor
  | more hok hmore _ ih =>
    obtain ⟨next, page, tail', cycle', first', hread, hcursor, hnext, htail', hcycle', hnodup',
      hlong'⟩ := hpage h htail hcycle hnodup hlong
    cases hread.symm.trans hok
    obtain rfl := Option.some.inj (hmore.symm.trans hcursor)
    exact ih hnext htail' hcycle' hnodup' hlong'

theorem readPages_unique {pages pages' : List Page} {ending ending' : Ending}
    (h : session.ReadPages cursor pages ending) (h' : session.ReadPages cursor pages' ending') :
    pages = pages' ∧ ending = ending' := by
  unfold ReadPages at h h'
  induction h generalizing pages' with
  | error herror =>
    cases h' with
    | error _ => exact ⟨rfl, rfl⟩
    | last hok _ => cases herror.symm.trans hok
    | more hok _ _ => cases herror.symm.trans hok
  | last hok hlast =>
    cases h' with
    | error herror => cases herror.symm.trans hok
    | last hok' _ =>
      cases hok.symm.trans hok'
      exact ⟨rfl, rfl⟩
    | more hok' hmore _ =>
      cases hok.symm.trans hok'
      cases hlast.symm.trans hmore
  | more hok hmore _ ih =>
    cases h' with
    | error herror => cases herror.symm.trans hok
    | last hok' hlast =>
      cases hok.symm.trans hok'
      cases hlast.symm.trans hmore
    | more hok' hmore' hrest =>
      cases hok.symm.trans hok'
      cases hmore.symm.trans hmore'
      obtain ⟨rfl, rfl⟩ := ih hrest
      exact ⟨rfl, rfl⟩

end pages

section wholeChain

variable {session : SessionFile} {newest : Line}

open SessionFile

theorem reached_newest (h : session.IsNewest newest) (hne : session.uuidOf newest ≠ .string "") :
    Reached session newest newest := by
  have hstring : isJsString (session.uuidOf newest) = true := by
    have hconversation := h.conversation
    unfold IsConversation isConversationMessage at hconversation
    rw [Bool.and_eq_true] at hconversation
    exact hconversation.2
  refine ⟨h.isLine, ?_, ⟨[], Path.nil newest⟩, Or.inl rfl⟩
  cases huuid : session.uuidOf newest with
  | string uuid =>
    refine ⟨uuid, ?_, rfl⟩
    rintro rfl
    exact hne huuid
  | _ =>
    rw [huuid] at hstring
    cases hstring

theorem startsAt_newest (h : session.IsNewest newest) (hne : session.uuidOf newest ≠ .string "") :
    StartsAt session newest newest none := ⟨reached_newest h hne, Or.inr ⟨rfl, rfl, h⟩⟩

theorem pages_of_unnamed (hdecode : session.decode [] = []) (h : session.IsNewest newest)
    (hempty : session.uuidOf newest = .string "") :
    ∃ pages, session.ReadPages none pages .failed := by
  have hbytes := h.conversation.nonempty hdecode
  have hlt := Piece.start_lt h.isLine hbytes
  have hhigh := h.isLine.to_high
  have hline := readLineAtStart_of_isLine h.isLine (by omega)
  have hfirst : session.readPage none =
      some (.ok ⟨[], some newest.start, session.uuidOf newest, 0⟩) := by
    unfold readPage readSessionMessagePage
    dsimp only
    rw [latest_of_newest hdecode h]
    dsimp only
    unfold pageFrom
    refine if_neg ?_
    rw [show (parseRecord session.decode session.jsonParse newest.bytes).get "uuid" =
      session.uuidOf newest from rfl, hempty]
    simp [Js.isTruthy]
  have hsecond : session.readPage (some newest.start) =
      some (.error (.cursorGone newest.start)) := by
    unfold readPage readSessionMessagePage
    dsimp only
    rw [hline]
    refine if_pos ?_
    rw [show (parseRecord session.decode session.jsonParse newest.bytes).get "uuid" =
      session.uuidOf newest from rfl, hempty]
    simp [Js.isTruthy]
  exact ⟨_, Pages.more hfirst rfl (Pages.error hsecond)⟩

theorem finds_walk_or_cycle (h : Reached session newest newest) :
    (∃ ending lines, Walk session.Finds (session.Stops session.Finds) ending newest lines) ∨
      ∃ tail first cycle, Path session.Finds newest tail first ∧
        Cycle session.Finds first cycle ∧ (tail ++ cycle).Nodup := by
  refine ChainWalk.walk_or_cycle (stops_or_moves session.Finds) (session.file.length + 1) newest ?_
  intro lines last hpath hnodup
  exact lines_length_le (fun line hmem => (reached_of_path h hpath line hmem).hasLine) hnodup

theorem chain_of_walk {line : Line} {lines : List Line}
    (h : Walk session.Finds (session.Stops session.Finds) .complete line lines) :
    session.Chain line lines ∧ ∀ other ∈ lines.tail, session.ShowsItself other := by
  induction h with
  | stop hstop => exact ⟨Walk.stop hstop, by simp⟩
  | @step line parent lines hlink rest ih =>
    refine ⟨Walk.step hlink.1 ih.1, ?_⟩
    intro other hmem
    rw [List.tail_cons] at hmem
    cases rest with
    | stop _ =>
      rw [List.mem_singleton.mp hmem]
      exact hlink.2
    | step _ _ =>
      rcases List.mem_cons.mp hmem with rfl | hlater
      · exact hlink.2
      · exact ih.2 other hlater

theorem walk_of_chain {line : Line} {lines : List Line} (h : session.Chain line lines)
    (hshown : ∀ other ∈ lines.tail, session.ShowsItself other) :
    Walk session.Finds (session.Stops session.Finds) .complete line lines := by
  unfold Chain at h
  induction h with
  | stop hstop => exact Walk.stop hstop
  | @step line parent lines hlink rest ih =>
    rw [List.tail_cons] at hshown
    refine Walk.step ⟨hlink, ?_⟩ (ih fun other hmem => hshown other (List.mem_of_mem_tail hmem))
    cases rest with
    | stop _ => exact hshown parent List.mem_cons_self
    | step _ _ => exact hshown parent List.mem_cons_self

theorem chain_no_cycle (hdistinct : session.DistinctUuids) {lines tail cycle : List Line}
    {first : Line} (h : session.Chain newest lines) (htail : Path session.Finds newest tail first)
    (hcycle : Cycle session.Finds first cycle) : False :=
  Walk.no_cycle (isParent_functional hdistinct) (stops_not_next fun _ _ h => h) h
    (htail.imp fun _ _ h => h.1) (hcycle.imp fun _ _ h => h.1)

theorem readable_of_pages (hdecode : session.decode [] = []) (hdistinct : session.DistinctUuids)
    (hnewest : session.IsNewest newest) (hkeys : session.KeysApart newest)
    (hpages : session.PagesWholeChain) : session.Readable newest := by
  have huuid : ∀ lines, session.Chain newest lines → session.uuidOf newest ≠ .string "" := by
    intro lines hchain hempty
    obtain ⟨pages, hread, -⟩ := hpages.chain newest lines hnewest hchain
    obtain ⟨pages', hread'⟩ := pages_of_unnamed hdecode hnewest hempty
    cases (readPages_unique hread hread').2
  refine ⟨huuid, ?_, ?_⟩
  · intro lines hchain
    have hstarts := startsAt_newest hnewest (huuid lines hchain)
    obtain ⟨pages, hread, -⟩ := hpages.chain newest lines hnewest hchain
    rcases finds_walk_or_cycle hstarts.reached with ⟨ending, walked, hwalk⟩ |
      ⟨tail, first, cycle, htail, hcycle, -⟩
    · cases ending with
      | complete =>
        obtain ⟨hwhole, hshown⟩ := chain_of_walk hwalk
        rw [Walk.unique (isParent_functional hdistinct) (stops_not_next fun _ _ h => h) hchain
          hwhole]
        exact hshown
      | failed =>
        obtain ⟨pages', hread', -⟩ := pages_of_walk hdecode hdistinct hkeys hstarts hwalk
        cases (readPages_unique hread hread').2
    · exact (chain_no_cycle hdistinct hchain htail hcycle).elim
  · intro hne tail first cycle htail hcycle
    have hstarts := startsAt_newest hnewest hne
    have hrootless : ∀ lines, ¬ session.Chain newest lines := fun lines hchain =>
      chain_no_cycle hdistinct hchain htail hcycle
    obtain ⟨pages, hread⟩ := hpages.rootless newest hnewest hrootless
    rcases finds_walk_or_cycle hstarts.reached with ⟨ending, walked, hwalk⟩ |
      ⟨tail', first', cycle', htail', hcycle', hnodup⟩
    · exact (hwalk.no_cycle (finds_functional hdistinct) (stops_not_next fun _ _ h => h.1) htail
        hcycle).elim
    · have hperm := hcycle.perm (finds_functional hdistinct) htail htail' hcycle'
      by_contra hlong
      rw [Bool.not_eq_false] at hlong
      have hlong' := isFull_of_subperm (messagesOf_subperm hperm.subperm) hlong
      exact no_pages_of_long_cycle hdecode hdistinct hkeys hread hstarts htail' hcycle' hnodup
        hlong'

theorem pages_of_rootless (hdecode : session.decode [] = []) (hdistinct : session.DistinctUuids)
    (hnewest : session.IsNewest newest) (hkeys : session.KeysApart newest)
    (hready : session.Readable newest) (hrootless : ∀ lines, ¬ session.Chain newest lines) :
    ∃ pages, session.ReadPages none pages .failed := by
  by_cases hempty : session.uuidOf newest = .string ""
  · exact pages_of_unnamed hdecode hnewest hempty
  have hstarts := startsAt_newest hnewest hempty
  rcases finds_walk_or_cycle hstarts.reached with ⟨ending, walked, hwalk⟩ |
    ⟨tail, first, cycle, htail, hcycle, hnodup⟩
  · cases ending with
    | complete => exact absurd (chain_of_walk hwalk).1 (hrootless walked)
    | failed =>
      obtain ⟨pages, hread, -⟩ := pages_of_walk hdecode hdistinct hkeys hstarts hwalk
      exact ⟨pages, hread⟩
  · have hshort := hready.cycle hempty tail first cycle htail hcycle
    exact pages_of_short_cycle hdecode hdistinct hkeys hstarts htail hcycle hnodup hshort

theorem pages_of_none (hdecode : session.decode [] = []) (hnone : ∀ line, ¬ session.IsNewest line) :
    session.readPage none = some (.ok emptyPage) := by
  have hlatest : (findLatestConversationRecord session.decode session.jsonParse
      (linesBackward session.file session.file.length readChunkBytes) []).1 = none := by
    rw [Option.eq_none_iff_forall_not_mem]
    intro line hline
    exact hnone line ((latestRecord_spec hdecode).2.1 line hline)
  unfold readPage readSessionMessagePage
  dsimp only
  rw [hlatest]

/-- Where no record on the chain is taken for another, the pages are the whole chain exactly when
its parents show their uuids and a chain that comes back does so within a page. -/
theorem pages_whole_chain_iff (hdecode : session.decode [] = []) (hdistinct : session.DistinctUuids)
    (hkeys : ∀ newest, session.IsNewest newest → session.KeysApart newest) :
    session.PagesWholeChain ↔ ∀ newest, session.IsNewest newest → session.Readable newest := by
  constructor
  · intro hpages newest hnewest
    exact readable_of_pages hdecode hdistinct hnewest (hkeys newest hnewest) hpages
  · intro hreadable
    refine ⟨?_, ?_, ?_⟩
    · intro hnone
      exact ⟨[emptyPage], Pages.last (pages_of_none hdecode hnone) rfl, rfl⟩
    · intro newest lines hnewest hchain
      have hready := hreadable newest hnewest
      have hstarts := startsAt_newest hnewest (hready.uuid lines hchain)
      have hwalk := walk_of_chain hchain (hready.shown lines hchain)
      obtain ⟨pages, hread, hmessages⟩ :=
        pages_of_walk hdecode hdistinct (hkeys newest hnewest) hstarts hwalk
      exact ⟨pages, hread, hmessages rfl⟩
    · intro newest hnewest hrootless
      exact pages_of_rootless hdecode hdistinct hnewest (hkeys newest hnewest)
        (hreadable newest hnewest) hrootless

end wholeChain

/-! Two records: a question and its answer, whose text may quote a uuid before its own. -/
namespace Answer
open SessionFile

def ascii (text : String) : Bytes := text.toList.map fun c => UInt8.ofNat c.toNat

def question : String := "\x7b\"type\":\"user\",\"uuid\":\"q\"\x7d"

def answer : String := "\x7b\"type\":\"assistant\",\"uuid\":\"a\",\"parentUuid\":\"q\"\x7d"

def quoting : String :=
  "\x7b\"type\":\"user\",\"message\":\x7b\"uuid\":\"x\"\x7d,\"uuid\":\"q\"\x7d"

def parse (text : List Char) : Option Js :=
  if text = question.toList then
    some (.object [("type", .string "user"), ("uuid", .string "q")])
  else if text = answer.toList then
    some (.object [("type", .string "assistant"), ("uuid", .string "a"),
      ("parentUuid", .string "q")])
  else if text = quoting.toList then
    some (.object [("type", .string "user"), ("message", .object [("uuid", .string "x")]),
      ("uuid", .string "q")])
  else none

def session (first : String) : SessionFile where
  decode bytes := bytes.map fun byte => Char.ofNat byte.toNat
  jsonParse := parse
  messageBytes _ := 0
  limits := ⟨96, 14000⟩
  file := ascii first ++ newline :: ascii answer

def firstLineOf (first : String) : Line := ⟨0, first.length, ascii first⟩

def answerLine (first : String) : Line :=
  ⟨first.length + 1, first.length + 1 + answer.length, ascii answer⟩

structure TwoRecords (first : String) : Prop where
  lines : linesBackward (session first).file (session first).file.length readChunkBytes =
    [answerLine first, firstLineOf first]
  latest : (findLatestConversationRecord (session first).decode (session first).jsonParse
    (linesBackward (session first).file (session first).file.length readChunkBytes) []).1 =
      some (answerLine first)
  question : (session first).uuidOf (firstLineOf first) = .string "q"
  root : (session first).parentOf (firstLineOf first) = .undefined
  answer : (session first).uuidOf (answerLine first) = .string "a"
  parent : (session first).parentOf (answerLine first) = .string "q"

theorem bytes_of_uuid {first : String} {line : Line} {uuid : String}
    (huuid : (session first).uuidOf line = .string uuid) : line.bytes ≠ [] := by
  intro hempty
  unfold uuidOf recordOf at huuid
  rw [hempty, parseRecord_nil rfl] at huuid
  cases huuid

section twoRecords

variable {first : String} (h : TwoRecords first)
include h

theorem TwoRecords.hasLine_iff (line : Line) (hbytes : line.bytes ≠ []) :
    (session first).HasLine line ↔ line = answerLine first ∨ line = firstLineOf first := by
  have hread := (linesBackward_spec (session first).file
    (show 0 < readChunkBytes by decide) le_rfl).1 line
  rw [h.lines, List.mem_pair] at hread
  rw [hread]
  exact ⟨fun hline => ⟨hline, Or.inr hbytes⟩, And.left⟩

theorem TwoRecords.newest : (session first).IsNewest (answerLine first) :=
  (latestRecord_spec rfl).2.1 _ h.latest

theorem TwoRecords.distinct : (session first).DistinctUuids := by
  intro line other uuid hline hother huuid huuid'
  have hanswer := h.answer
  have hquestion := h.question
  have hcases := (h.hasLine_iff line (bytes_of_uuid huuid)).mp hline
  have hcases' := (h.hasLine_iff other (bytes_of_uuid huuid')).mp hother
  rcases hcases with rfl | rfl <;> rcases hcases' with rfl | rfl
  · rfl
  · rw [hanswer, ← huuid', hquestion] at huuid
    simp at huuid
  · rw [hquestion, ← huuid', hanswer] at huuid
    simp at huuid
  · rfl

theorem TwoRecords.isParent :
    (session first).IsParent (answerLine first) (firstLineOf first) := by
  refine ⟨?_, h.parent.trans h.question.symm, "q", by decide, h.question⟩
  exact (h.hasLine_iff _ (bytes_of_uuid h.question)).mpr (Or.inr rfl)

theorem TwoRecords.chain :
    (session first).Chain (answerLine first) [answerLine first, firstLineOf first] := by
  refine Walk.step h.isParent (Walk.stop ?_)
  show ((session first).parentOf (firstLineOf first)).isTruthy = false
  rw [h.root]
  rfl

end twoRecords

theorem twoRecords_question : TwoRecords question :=
  ⟨by decide +kernel, by decide +kernel, rfl, rfl, rfl, rfl⟩

theorem twoRecords_quoting : TwoRecords quoting :=
  ⟨by decide +kernel, by decide +kernel, rfl, rfl, rfl, rfl⟩

theorem shows_question {line : Line} (hline : line = answerLine question ∨
    line = firstLineOf question) : (session question).ShowsItself line := by
  rcases hline with rfl | rfl
  · exact ⟨"a", by decide +kernel, twoRecords_question.answer⟩
  · exact ⟨"q", by decide +kernel, twoRecords_question.question⟩

/-- The question and its answer are one page. -/
theorem pages_whole_chain_answer : (session question).PagesWholeChain := by
  have h := twoRecords_question
  refine (pages_whole_chain_iff rfl h.distinct ?_).mpr ?_
  · intro newest hnewest
    refine ⟨?_, ?_⟩
    · intro lines line other hpath hother hshows
      have hcases := (h.hasLine_iff other (hshows.nonempty rfl)).mp hother
      obtain ⟨text, hraw, htext⟩ := hshows
      obtain ⟨own, hown, huuid⟩ := shows_question hcases
      rw [huuid, htext, Option.some.inj (hown.symm.trans hraw)]
    · intro lines line hpath hparent
      obtain ⟨uuid, -, huuid⟩ := hparent.uuid
      exact shows_question ((h.hasLine_iff newest (bytes_of_uuid huuid)).mp hparent.hasLine)
  · intro newest hnewest
    obtain rfl := newest_unique h.newest hnewest
    refine ⟨?_, ?_, ?_⟩
    · intro lines hchain
      rw [h.answer]
      simp
    · intro lines hchain
      have hsame : [answerLine question, firstLineOf question] = lines :=
        Walk.unique (isParent_functional h.distinct) (stops_not_next fun _ _ h => h) h.chain hchain
      rw [← hsame]
      intro line hmem
      exact shows_question (Or.inr (List.mem_singleton.mp hmem))
    · intro _ tail first cycle htail hcycle
      exact (chain_no_cycle h.distinct h.chain htail hcycle).elim

/-- A message that quotes a uuid before its own is not found as a parent. -/
theorem quoting_parent_is_lost : (session quoting).DistinctUuids ∧
    (session quoting).IsNewest (answerLine quoting) ∧
    (session quoting).Chain (answerLine quoting) [answerLine quoting, firstLineOf quoting] ∧
    ¬ (session quoting).PagesWholeChain := by
  have h := twoRecords_quoting
  refine ⟨h.distinct, h.newest, h.chain, ?_⟩
  intro hpages
  obtain ⟨pages, hread, -⟩ := hpages.chain _ _ h.newest h.chain
  have herror : ∃ error, (session quoting).readPage none = some (.error error) := ⟨_, rfl⟩
  obtain ⟨error, hlost⟩ := herror
  cases (readPages_unique hread (Pages.error hlost)).2

end Answer

end AgentRelay.SessionPage
