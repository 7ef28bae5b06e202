import AgentRelay.LocalDeltas

/-! What a live delta does to the texts that the local surface shows: the place that takes it
appends what it lacks, and no place loses text to any delta, snapshot or page. -/
namespace AgentRelay.Hydration
open Text Relay StepRun

def rowText (rows : List RenderedEntry) (itemId : String) : JsString :=
  ((rows.find? (·.itemId = some itemId)).bind (·.text)).getD []

/-- The part of the delta that a text lacks; nothing where it is refused. -/
def gain (text : JsString) (event : DeltaEvent) : JsString :=
  (resolveDeltaAppend text (event.delta.getD []) event.textOffset).getD []

def admits (policy : DeltaPolicy) (event : DeltaEvent) (currentThreadId : Option String) : Bool :=
  !(policy.requireEventThreadId && (transcriptEventThreadId event).isNone) &&
    !((transcriptEventThreadId event).isSome && (truthy currentThreadId).isSome
      && transcriptEventThreadId event != currentThreadId)

def rowsAfter (rows : List RenderedEntry) (outcome : DeltaOutcome) : List RenderedEntry :=
  if outcome.kind = .append then outcome.nextTranscript.getD rows else rows

section rows
variable {policy : DeltaPolicy} {session : RenderedSession} {rows : List RenderedEntry}
  {event : DeltaEvent} {currentThreadId : Option String} {itemId : String} {text : JsString}

theorem find_set_other {row : RenderedEntry} {index : Nat} (hold : ∀ old, rows[index]? = some old →
      old.itemId ≠ some itemId) (hrow : row.itemId ≠ some itemId) :
    (rows.set index row).find? (·.itemId = some itemId) =
      rows.find? (·.itemId = some itemId) := by
  induction rows generalizing index with
  | nil => rfl
  | cons first rows ih =>
    cases index with
    | zero =>
      have hfirst : first.itemId ≠ some itemId := hold first rfl
      simp [hfirst, hrow]
    | succ index =>
      rw [List.set_cons_succ, List.find?_cons, List.find?_cons, ih fun old h => hold old h]

theorem rowText_placeNextEntry {next : RenderedEntry} (hnext : next.itemId = some itemId)
    (other : String) :
    rowText (placeNextEntry rows (findCurrentEntry rows itemId none) next) other =
      if other = itemId then next.text.getD [] else rowText rows other := by
  by_cases hother : other = itemId
  · subst hother
    rw [rowText, placeNextEntry_find hnext, if_pos rfl]
    rfl
  · have hne : next.itemId ≠ some other := by
      rw [hnext]
      exact fun h => hother (Option.some.inj h).symm
    rw [if_neg hother]
    unfold findCurrentEntry
    cases hindex : rows.findIdx? (·.itemId = some itemId) with
    | none => simp [placeNextEntry, rowText, List.find?_append, hne]
    | some index =>
      obtain ⟨hlt, hhit, -⟩ := List.findIdx?_eq_some_iff_getElem.mp hindex
      have hid : rows[index].itemId = some itemId := by simpa using hhit
      simp only [Option.bind_some, List.getElem?_eq_getElem hlt, Option.map_some, placeNextEntry,
        rowText]
      rw [find_set_other _ hne]
      intro old hold
      rw [List.getElem?_eq_getElem hlt, Option.some.injEq] at hold
      rw [← hold, hid]
      exact fun h => hother (Option.some.inj h).symm

theorem deltaNextEntry_text {kind : String} {more : JsString} :
    (deltaNextEntry event itemId ((findCurrentEntry rows itemId none).map (·.2)) more
      kind).text.getD [] = rowText rows itemId ++ more := by
  rw [findCurrentEntry_row, rowText]
  cases rows.find? (·.itemId = some itemId) <;> rfl

theorem gain_offsetless (h : numericOffset event.textOffset = none) :
    gain text event = event.delta.getD [] := by
  have hsafe : safeInteger event.textOffset = none := h
  simp [gain, resolveDeltaAppend, hsafe]

theorem reduce_admitted (hstale : policy.rejectStaleRevision = false)
    (current : Option (Option RenderedEntry)) (hrows : session.transcript = some rows)
    (hitem : truthy event.itemId = some itemId) (h : admits policy event currentThreadId) :
    ∃ placed, reduceTranscriptDeltaEvent policy (some session) event currentThreadId current =
      reducePlacedDelta policy session rows event placed itemId
        (findCurrentEntry rows itemId current) := by
  rw [admits, Bool.and_eq_true, Bool.not_eq_true', Bool.not_eq_true'] at h
  unfold reduceTranscriptDeltaEvent
  simp only [Option.bind_some, hrows, hitem, h.1, h.2, hstale, Bool.false_and, Bool.false_eq_true,
    if_false]
  exact ⟨_, rfl⟩

theorem reduce_noop (current : Option (Option RenderedEntry))
    (h : ¬(admits policy event currentThreadId ∧ (truthy event.itemId).isSome)) :
    (reduceTranscriptDeltaEvent policy (some session) event currentThreadId current).kind =
      .noop := by
  unfold reduceTranscriptDeltaEvent
  cases hrows : session.transcript with
  | none => simp [hrows]
  | some rows =>
    cases hitem : truthy event.itemId with
    | none => simp [hrows]
    | some itemId =>
      simp only [Option.bind_some, hrows]
      by_cases hmissing : (policy.requireEventThreadId
          && (transcriptEventThreadId event).isNone) = true
      · simp [hmissing]
      · by_cases hwrong : ((transcriptEventThreadId event).isSome
            && (truthy currentThreadId).isSome
            && transcriptEventThreadId event != currentThreadId) = true
        · rw [if_neg hmissing, if_pos hwrong]
          rfl
        · refine absurd ⟨?_, by simp [hitem]⟩ h
          rw [Bool.not_eq_true] at hmissing hwrong
          rw [admits, hmissing, hwrong]
          rfl

theorem rowsAfter_of_ne_append {outcome : DeltaOutcome} (h : outcome.kind ≠ .append) :
    rowsAfter rows outcome = rows := if_neg h

theorem rowText_deltaAppend (hbuild : policy.buildTranscript) (located : DeltaOutcome)
    (more : JsString) (kind other : String) :
    rowText (rowsAfter rows (deltaAppend policy session rows event located itemId
        (findCurrentEntry rows itemId none) more kind)) other =
      if other = itemId then rowText rows itemId ++ more else rowText rows other := by
  rw [rowsAfter, deltaAppend_kind, if_pos rfl]
  simp only [deltaAppend, hbuild, if_true, Option.getD_some]
  rw [rowText_placeNextEntry deltaNextEntry_itemId, deltaNextEntry_text]

/-- Without the guard on base revisions an event appends what its item lacks, or it appends nothing
because nothing is lacking. -/
theorem reducePlacedDelta_gain (hbase : policy.enforceBaseRevisionWithoutOffset = false)
    (placed : DeltaOutcome) :
    let more := gain (rowText rows itemId) event
    let outcome := reducePlacedDelta policy session rows event placed itemId
      (findCurrentEntry rows itemId none)
    (more = [] ∧ outcome.kind ≠ .append) ∨ ∃ located kind, outcome =
      deltaAppend policy session rows event located itemId (findCurrentEntry rows itemId none)
        more kind := by
  have hgain : (resolveDeltaAppend
      (((findCurrentEntry rows itemId none).map (·.2)).bind (·.text) |>.getD [])
      (event.delta.getD []) event.textOffset).getD [] = gain (rowText rows itemId) event := by
    rw [findCurrentEntry_row, gain, rowText]
  dsimp only
  cases hoffset : numericOffset event.textOffset with
  | some offset =>
    have h := @reducePlacedDelta_offset policy session rows event placed itemId
      (findCurrentEntry rows itemId none) offset hoffset
    dsimp only at h
    rw [hgain] at h
    split at h
    · rename_i hnil
      exact Or.inl ⟨hnil, h⟩
    · exact Or.inr h
  | none =>
    have h := @reducePlacedDelta_offsetless policy session rows event placed itemId
      (findCurrentEntry rows itemId none) hoffset
    dsimp only at h
    rw [gain_offsetless hoffset]
    split at h
    · rename_i hempty
      exact Or.inl ⟨by simpa [hbase] using hempty.imp_right And.left, h⟩
    · exact Or.inr h

theorem rowText_reduce (hstale : policy.rejectStaleRevision = false)
    (hbase : policy.enforceBaseRevisionWithoutOffset = false) (hbuild : policy.buildTranscript)
    (hrows : session.transcript = some rows) (other : String) :
    rowText (rowsAfter rows (reduceTranscriptDeltaEvent policy (some session) event
        currentThreadId none)) other =
      rowText rows other ++
        if admits policy event currentThreadId ∧ truthy event.itemId = some other then
          gain (rowText rows other) event else [] := by
  by_cases htaken : admits policy event currentThreadId ∧ (truthy event.itemId).isSome
  · obtain ⟨hadmits, hsome⟩ := htaken
    obtain ⟨itemId, hitem⟩ := Option.isSome_iff_exists.mp hsome
    obtain ⟨placed, hplaced⟩ := @reduce_admitted policy session rows event currentThreadId itemId
      hstale none hrows hitem hadmits
    rw [hplaced]
    simp only [hadmits, hitem, Option.some.injEq, true_and]
    rcases @reducePlacedDelta_gain policy session rows event itemId hbase placed with
      ⟨hnil, hkind⟩ | ⟨located, kind, happended⟩
    · rw [rowsAfter_of_ne_append hkind]
      by_cases hsame : itemId = other
      · rw [if_pos hsame, ← hsame, hnil, List.append_nil]
      · rw [if_neg hsame, List.append_nil]
    · rw [happended, rowText_deltaAppend hbuild]
      by_cases hsame : other = itemId
      · simp [hsame]
      · simp [hsame, Ne.symm hsame]
  · rw [rowsAfter_of_ne_append (by rw [reduce_noop none htaken]; simp), if_neg, List.append_nil]
    rintro ⟨hadmits, hitem⟩
    exact htaken ⟨hadmits, by simp [hitem]⟩

end rows

section windows
variable {w : Window} {itemId : String}

theorem length_selectTranscriptText (existing incoming : Option JsString)
    (existingFull incomingFull : Bool) :
    (existing.getD []).length ≤
      ((selectTranscriptText existing incoming existingFull incomingFull).getD []).length := by
  unfold selectTranscriptText
  cases existing with
  | none => simp
  | some text =>
    cases incoming with
    | none => exact le_rfl
    | some other =>
      simp only
      split_ifs with hkept hlonger
      · exact le_rfl
      · exact hlonger
      · exact le_rfl

/-- The table holds every item with at least the text it had. -/
def Grows (before after : Table Entry) : Prop :=
  ∀ itemId : String, ((before[itemId]?.bind (·.text)).getD []).length ≤
    ((after[itemId]?.bind (·.text)).getD []).length

theorem Grows.refl (entries : Table Entry) : Grows entries entries := fun _ => le_rfl

theorem Grows.trans {a b c : Table Entry} (hab : Grows a b) (hbc : Grows b c) : Grows a c :=
  fun itemId => (hab itemId).trans (hbc itemId)

theorem Grows.insert {entries after : Table Entry} (h : Grows entries after) {entry : Entry}
    (hentry : ((entries[itemId]?.bind (·.text)).getD []).length ≤ (entry.text.getD []).length) :
    Grows entries (after.insert itemId entry) := by
  intro other
  rw [Std.ExtTreeMap.getElem?_insert]
  split_ifs with hsame
  · rw [← Std.LawfulEqCmp.eq_of_compare hsame]
    exact hentry
  · exact h other

theorem length_mergeTranscriptEntry (existing : Option Entry) (incoming : Entry) :
    ((existing.bind (·.text)).getD []).length ≤
      ((mergeTranscriptEntry existing incoming).text.getD []).length := by
  cases existing with
  | none => simp
  | some existing => exact length_selectTranscriptText ..

theorem grows_foldl_merge (prepare : String × WireEntry → Entry)
    (entries : Table Entry) (items : List (String × WireEntry)) :
    Grows entries (items.foldl (fun entries e => entries.insert e.1
      (mergeTranscriptEntry entries[e.1]? (prepare e))) entries) := by
  induction items generalizing entries with
  | nil => exact .refl entries
  | cons e items ih =>
    exact ((Grows.refl entries).insert (length_mergeTranscriptEntry entries[e.1]? _)).trans
      (ih _)

theorem overlay_longer (entries : Table Entry) (items : List (String × WireEntry))
    (acc : Table Entry)
    (hacc : ∀ (id : String) e, acc[id]? = some e →
      ((entries[id]?.bind (·.text)).getD []).length ≤ (e.text.getD []).length) :
    ∀ (id : String) e, (items.foldl (fun overlay e => overlay.insert e.1
        (mergeTranscriptEntry entries[e.1]? (prepareSnapshotOverlayEntry e.1 e.2))) acc)[id]? =
          some e →
      ((entries[id]?.bind (·.text)).getD []).length ≤ (e.text.getD []).length := by
  induction items generalizing acc with
  | nil => exact hacc
  | cons item items ih =>
    refine ih _ fun id e hget => ?_
    rw [Std.ExtTreeMap.getElem?_insert] at hget
    split_ifs at hget with hsame
    · rw [← Std.LawfulEqCmp.eq_of_compare hsame, ← Option.some.inj hget]
      exact length_mergeTranscriptEntry ..
    · exact hacc id e hget

theorem grows_overlay {entries overlay : Table Entry}
    (h : ∀ (id : String) e, overlay[id]? = some e →
      ((entries[id]?.bind (·.text)).getD []).length ≤ (e.text.getD []).length) :
    Grows entries (overlay.foldl (fun entries id e => entries.insert id e) entries) := by
  rw [Std.ExtTreeMap.foldl_eq_foldl_toList]
  have hmem : ∀ p ∈ overlay.toList,
      ((entries[p.1]?.bind (·.text)).getD []).length ≤ (p.2.text.getD []).length := fun p hp =>
    h p.1 p.2 (Std.ExtTreeMap.mem_toList_iff_getElem?_eq_some.mp hp)
  suffices hall : ∀ after, Grows entries after →
      Grows entries (overlay.toList.foldl (fun entries p => entries.insert p.1 p.2) after) from
    hall entries (.refl entries)
  generalize overlay.toList = items at hmem
  induction items with
  | nil => exact fun after hafter => hafter
  | cons p items ih =>
    intro after hafter
    exact ih (fun q hq => hmem q (List.mem_cons_of_mem p hq)) _
      (hafter.insert (hmem p List.mem_cons_self))

theorem text_applyDeltaToEntry (entry : Entry) (d : Delta) :
    (applyDeltaToEntry entry d).1.text.getD [] =
      entry.text.getD [] ++ windowGain (some entry) d := by
  change _ = entry.text.getD [] ++
    (resolveDeltaAppend (entry.text.getD []) d.delta d.textOffset).getD []
  cases hresolve : resolveDeltaAppend (entry.text.getD []) d.delta d.textOffset with
  | none => rw [applyDeltaToEntry_refused hresolve, Option.getD_none, List.append_nil]
  | some more =>
    by_cases hnil : more = []
    · rw [hnil] at hresolve ⊢
      rw [applyDeltaToEntry_covered hresolve, Option.getD_some, List.append_nil]
    · rw [(applyDeltaToEntry_grown hnil hresolve).1]
      rfl

theorem text_windowEntryAfter (held : Option Entry) (d : Delta) :
    (windowEntryAfter itemId held d).text.getD [] =
      (held.bind (·.text)).getD [] ++ windowGain held d := by
  cases held with
  | none => simp [windowEntryAfter, firstDeltaEntry, windowGain]
  | some entry => exact text_applyDeltaToEntry entry d

theorem textOf_deliver {event : DeltaEvent} {threadId : String} (hw : w.threadId = some threadId)
    (ht : threadId ≠ "") (hthread : (truthy event.threadId).getD threadId = threadId)
    (other : String) :
    (w.deliver event.toDelta).textOf other = w.textOf other ++
      if truthy event.itemId = some other then windowGain w.entries[other]? event.toDelta
      else [] := by
  by_cases hitem : truthy event.itemId = some other
  · have hafter := window_entry_after hitem hw ht hthread
    rw [if_pos hitem, Window.textOf, Window.deliver, hafter, Option.bind_some,
      text_windowEntryAfter]
    rfl
  · have hother : ¬Addressed threadId other event.toDelta := fun h => hitem h.1
    rw [if_neg hitem, List.append_nil, Window.textOf, Window.deliver_other hw hother]
    rfl

theorem entries_deliver (w : Window) (d : Delta) :
    (w.deliver d).entries = w.entries ∨ ∃ itemId, truthy d.itemId = some itemId ∧
      (w.deliver d).entries =
        w.entries.insert itemId (windowEntryAfter itemId w.entries[itemId]? d) := by
  unfold Window.deliver Window.applyTranscriptDeltaToWindow
  cases hitem : truthy d.itemId with
  | none => exact Or.inl rfl
  | some itemId =>
    cases truthy w.threadId with
    | none => exact Or.inl rfl
    | some threadId =>
      dsimp only
      split_ifs
      · exact Or.inl rfl
      · cases hget : w.entries[itemId]? with
        | none => exact Or.inr ⟨itemId, rfl, by rw [hget]; rfl⟩
        | some entry => exact Or.inr ⟨itemId, rfl, by rw [hget]; rfl⟩

theorem grows_deliver (d : Delta) : Grows w.entries (w.deliver d).entries := by
  rcases entries_deliver w d with hsame | ⟨itemId, -, hinsert⟩
  · rw [hsame]
    exact .refl _
  · rw [hinsert]
    refine (Grows.refl _).insert ?_
    rw [text_windowEntryAfter, List.length_append]
    omega

theorem grows_step (op : WindowOp) : Grows w.entries (w.step op).entries := by
  cases op with
  | snapshotTail snapshot signature =>
    exact grows_foldl_merge (fun e => prepareSnapshotOverlayEntry e.1 e.2) _ _
  | hydratedSnapshot snapshot =>
    unfold Window.step Window.buildHydratedTranscriptSnapshot
    dsimp only
    split_ifs
    · exact .refl _
    · exact grows_overlay (overlay_longer _ _ ∅ fun id e hget => by simp at hget)
  | page now page prepend => exact grows_foldl_merge (fun e => toTranscriptEntry e.1 e.2) _ _
  | delta d => exact grows_deliver d

end windows

section gains
variable {text : JsString} {event : DeltaEvent} {offset : Nat}

theorem gain_covered (hoffset : numericOffset event.textOffset = some offset)
    (hlong : offset + (event.delta.getD []).length ≤ text.length) : gain text event = [] := by
  have hsafe : safeInteger event.textOffset = some offset := hoffset
  unfold gain resolveDeltaAppend
  rw [hsafe]
  dsimp only
  split_ifs <;> rfl

theorem gain_empty (h : event.delta.getD [] = []) : gain text event = [] := by
  cases hoffset : numericOffset event.textOffset with
  | none => rw [gain_offsetless hoffset, h]
  | some offset =>
    have hsafe : safeInteger event.textOffset = some offset := hoffset
    unfold gain resolveDeltaAppend
    rw [hsafe, h]
    dsimp only
    split_ifs <;> simp

theorem length_gain (hoffset : event.textOffset = some offset) (hreached : offset ≤ text.length)
    (htaken : resolveDeltaAppend text (event.delta.getD []) event.textOffset ≠ none) :
    offset + (event.delta.getD []).length ≤ (text ++ gain text event).length := by
  cases hnumeric : numericOffset event.textOffset with
  | none =>
    rw [gain_offsetless hnumeric, List.length_append]
    omega
  | some numeric =>
    have hsafe : safeInteger event.textOffset = some numeric := hnumeric
    have hsame : numeric = offset :=
      Option.some.inj ((numericOffset_eq hnumeric).symm.trans hoffset)
    unfold gain
    unfold resolveDeltaAppend at htaken ⊢
    rw [hsafe, hsame] at htaken ⊢
    dsimp only at htaken ⊢
    split_ifs at htaken ⊢ with hgap hdiffers hcovered
    · simp at htaken
    · simp at htaken
    · simpa using hcovered
    · simp only [Option.getD_some, List.length_append, List.length_drop]
      omega

end gains

section outcomes
variable {policy : DeltaPolicy} {session : RenderedSession} {rows : List RenderedEntry}
  {event : DeltaEvent} {currentThreadId : Option String} {current : Option (Option RenderedEntry)}

theorem reduce_append (hstale : policy.rejectStaleRevision = false)
    (hbuild : policy.buildTranscript) (hrows : session.transcript = some rows)
    (happend : (reduceTranscriptDeltaEvent policy (some session) event currentThreadId
      current).kind = .append) :
    let outcome := reduceTranscriptDeltaEvent policy (some session) event currentThreadId current
    outcome.nextTranscript = some (rowsAfter rows outcome) ∧
      ∃ next, outcome.nextSession = some next ∧ next.activeThreadId = session.activeThreadId ∧
        next.transcript = some (rowsAfter rows outcome) := by
  have htaken : admits policy event currentThreadId ∧ (truthy event.itemId).isSome := by
    by_contra h
    rw [reduce_noop current h] at happend
    cases happend
  obtain ⟨itemId, hitem⟩ := Option.isSome_iff_exists.mp htaken.2
  obtain ⟨placed, hplaced⟩ := reduce_admitted hstale current hrows hitem htaken.1
  rw [hplaced] at happend ⊢
  obtain ⟨located, more, kind, hout⟩ := reducePlacedDelta_cases.resolve_left (not_not.mpr happend)
  dsimp only
  rw [hout]
  simp [rowsAfter, deltaAppend, hbuild]

theorem reduce_window_ne_noop (hrows : session.transcript.isSome)
    (hitem : (truthy event.itemId).isSome)
    (hadmits : admits windowDeltaPolicy event currentThreadId) :
    (reduceTranscriptDeltaEvent windowDeltaPolicy (some session) event currentThreadId
      current).kind ≠ .noop := by
  obtain ⟨rows, hrows⟩ := Option.isSome_iff_exists.mp hrows
  obtain ⟨itemId, hitem⟩ := Option.isSome_iff_exists.mp hitem
  obtain ⟨placed, hplaced⟩ := @reduce_admitted windowDeltaPolicy session rows event
    currentThreadId itemId rfl current hrows hitem hadmits
  rw [hplaced]
  unfold reducePlacedDelta
  cases numericOffset event.textOffset with
  | none => simp [windowDeltaPolicy, deltaAppend]
  | some offset =>
    dsimp only
    split
    · simp
    · split <;> simp

end outcomes

inductive Place
  | window
  | transcript
  | pin
  | orchestrator
  deriving DecidableEq, Repr

namespace LocalClient

def windowLoaded (c : LocalClient) : Bool :=
  (truthy c.session.activeThreadId).any c.window.transcriptWindowIsLoaded

def textAt (c : LocalClient) (itemId : String) : Place → JsString
  | .window => c.window.textOf itemId
  | .transcript => rowText (c.session.transcript.getD []) itemId
  | .pin => rowText ((c.viewOnlyThread.bind (·.entries)).getD []) itemId
  | .orchestrator => rowText (c.orchestratorEntries.getD []) itemId

def pinAdmits (c : LocalClient) (event : DeltaEvent) : Bool :=
  c.viewOnlyThread.any fun pin =>
    pin.entries.isSome && admits pinDeltaPolicy event pin.threadId

def orchestratorAdmits (c : LocalClient) (event : DeltaEvent) : Bool :=
  c.orchestratorEntries.isSome && (truthy c.orchestratorEntriesThreadId).any fun threadId =>
    admits pinDeltaPolicy event (some threadId)

/-- The delta goes to the place: of the active thread to the window or, while none is loaded, to
the rendered transcript; of another thread to whichever place shows that one. -/
def takes (c : LocalClient) (event : DeltaEvent) (place : Place) : Bool :=
  (truthy event.itemId).isSome && c.session.transcript.isSome &&
    match place with
    | .window => !c.Elsewhere event && c.windowLoaded
    | .transcript => !c.Elsewhere event && !c.windowLoaded
    | .pin => c.Elsewhere event && c.pinAdmits event
    | .orchestrator => c.Elsewhere event && c.orchestratorAdmits event

end LocalClient

section pins
variable {pin : ViewOnlyPin} {event : DeltaEvent} {rows : List RenderedEntry}

theorem applyDelta_of_no_rows (h : pin.entries = none) :
    applyDeltaToViewOnlyPin pin event = none := by
  unfold applyDeltaToViewOnlyPin
  rw [h]
  cases truthy event.itemId <;> rfl

theorem pin_rows (hrows : pin.entries = some rows) :
    let next := (applyDeltaToViewOnlyPin pin event).getD pin
    next.threadId = pin.threadId ∧
      next.entries = some (rowsAfter rows (reduceTranscriptDeltaEvent pinDeltaPolicy
        (some { activeThreadId := pin.threadId, transcriptRevision := pin.transcriptRevision
                transcript := some rows }) event pin.threadId none)) := by
  unfold applyDeltaToViewOnlyPin
  cases hitem : truthy event.itemId with
  | none =>
    rw [rowsAfter_of_ne_append (by rw [reduce_noop none (by simp [hitem])]; simp)]
    exact ⟨rfl, hrows⟩
  | some itemId =>
    simp only [hrows]
    generalize hout : reduceTranscriptDeltaEvent pinDeltaPolicy _ event pin.threadId none = outcome
    cases hkind : outcome.kind with
    | noop => simp [rowsAfter, hkind, hrows]
    | duplicate => simp [rowsAfter, hkind, hrows]
    | needsRepair => simp [rowsAfter, hkind]
    | append =>
      have happend := (@reduce_append pinDeltaPolicy _ rows event _ _ rfl rfl rfl
        (by rw [hout]; exact hkind)).1
      rw [hout] at happend
      simp [happend]

theorem pin_text (hrows : pin.entries = some rows) (other : String) :
    rowText ((((applyDeltaToViewOnlyPin pin event).getD pin).entries).getD []) other =
      rowText rows other ++
        if admits pinDeltaPolicy event pin.threadId ∧ truthy event.itemId = some other then
          gain (rowText rows other) event else [] := by
  rw [(pin_rows hrows).2, Option.getD_some]
  exact rowText_reduce rfl rfl rfl rfl other

end pins

namespace LocalClient
section places
variable {c d : LocalClient} {event : DeltaEvent} {place : Place}

structure SamePlaces (c d : LocalClient) : Prop where
  active : d.session.activeThreadId = c.session.activeThreadId
  shown : d.session.transcript.isSome = c.session.transcript.isSome
  loaded : d.windowLoaded = c.windowLoaded
  pin : d.viewOnlyThread.map (fun pin => (pin.threadId, pin.entries.isSome)) =
    c.viewOnlyThread.map fun pin => (pin.threadId, pin.entries.isSome)
  orchestratorThread : d.orchestratorEntriesThreadId = c.orchestratorEntriesThreadId
  orchestrator : d.orchestratorEntries.isSome = c.orchestratorEntries.isSome

theorem SamePlaces.refl (c : LocalClient) : c.SamePlaces c := ⟨rfl, rfl, rfl, rfl, rfl, rfl⟩

theorem SamePlaces.takes (h : c.SamePlaces d) : d.takes event place = c.takes event place := by
  have helsewhere : d.Elsewhere event = c.Elsewhere event := by
    rw [Elsewhere, Elsewhere, h.active]
  have hpin : d.pinAdmits event = c.pinAdmits event := by
    have hmap := congrArg (Option.any fun pin : Option String × Bool =>
      pin.2 && admits pinDeltaPolicy event pin.1) h.pin
    simpa [pinAdmits, Option.any_map, Function.comp_def] using hmap
  have horchestrator : d.orchestratorAdmits event = c.orchestratorAdmits event := by
    rw [orchestratorAdmits, orchestratorAdmits, h.orchestratorThread, h.orchestrator]
  unfold LocalClient.takes
  rw [h.shown, helsewhere, h.loaded, hpin, horchestrator]

/-- A step after which the deltas of `event` go where they went, and the places they go to show no
item with less text. -/
structure Follows (event : DeltaEvent) (c d : LocalClient) : Prop where
  places : c.SamePlaces d
  grows : ∀ place, c.takes event place → ∀ itemId,
    (c.textAt itemId place).length ≤ (d.textAt itemId place).length

theorem Follows.refl (c : LocalClient) : c.Follows event c :=
  ⟨.refl c, fun _ _ _ => le_rfl⟩

end places

section elsewhere
variable {c : LocalClient} {event : DeltaEvent}

theorem elsewhere_parts :
    (c.applyDeltaElsewhere event).session = c.session ∧
      (c.applyDeltaElsewhere event).window = c.window ∧
      (c.applyDeltaElsewhere event).viewOnlyThread =
        c.viewOnlyThread.map (fun pin => (applyDeltaToViewOnlyPin pin event).getD pin) ∧
      (c.applyDeltaElsewhere event).orchestratorEntriesThreadId =
        c.orchestratorEntriesThreadId ∧
      (c.applyDeltaElsewhere event).orchestratorEntries =
        match truthy c.orchestratorEntriesThreadId, c.orchestratorEntries with
        | some threadId, some entries =>
          ((applyDeltaToViewOnlyPin { threadId := some threadId, entries := some entries }
            event).getD { threadId := some threadId, entries := some entries }).entries
        | _, entries => entries := by
  have hpin : (c.viewOnlyThread.bind (applyDeltaToViewOnlyPin · event)).or c.viewOnlyThread =
      c.viewOnlyThread.map fun pin => (applyDeltaToViewOnlyPin pin event).getD pin := by
    cases c.viewOnlyThread with
    | none => rfl
    | some pin => cases h : applyDeltaToViewOnlyPin pin event <;> simp [h]
  unfold applyDeltaElsewhere applyDeltaToOrchestratorEntries
  rw [hpin]
  dsimp only
  cases truthy c.orchestratorEntriesThreadId with
  | none => exact ⟨rfl, rfl, rfl, rfl, rfl⟩
  | some threadId =>
    cases hentries : c.orchestratorEntries with
    | none => simp
    | some entries =>
      dsimp only
      cases applyDeltaToViewOnlyPin { threadId := some threadId, entries := some entries }
        event with
      | none => simp
      | some next => exact ⟨rfl, rfl, rfl, rfl, rfl⟩

theorem textAt_pin_elsewhere (other : String) :
    (c.applyDeltaElsewhere event).textAt other .pin = c.textAt other .pin ++
      if c.pinAdmits event ∧ truthy event.itemId = some other then
        gain (c.textAt other .pin) event else [] := by
  cases hpin : c.viewOnlyThread with
  | none => simp [textAt, elsewhere_parts.2.2.1, pinAdmits, hpin]
  | some pin =>
    cases hrows : pin.entries with
    | none =>
      simp [textAt, elsewhere_parts.2.2.1, pinAdmits, hpin, applyDelta_of_no_rows hrows, hrows]
    | some rows =>
      simp only [textAt, elsewhere_parts.2.2.1, hpin, Option.map_some, Option.bind_some]
      rw [pin_text hrows]
      simp [pinAdmits, hpin, hrows]

theorem textAt_orchestrator_elsewhere (other : String) :
    (c.applyDeltaElsewhere event).textAt other .orchestrator = c.textAt other .orchestrator ++
      if c.orchestratorAdmits event ∧ truthy event.itemId = some other then
        gain (c.textAt other .orchestrator) event else [] := by
  cases hthread : truthy c.orchestratorEntriesThreadId with
  | none => simp [textAt, elsewhere_parts.2.2.2.2, orchestratorAdmits, hthread]
  | some threadId =>
    cases hrows : c.orchestratorEntries with
    | none => simp [textAt, elsewhere_parts.2.2.2.2, orchestratorAdmits, hrows]
    | some rows =>
      simp only [textAt, elsewhere_parts.2.2.2.2, hthread, hrows]
      rw [pin_text rfl]
      simp [orchestratorAdmits, hthread, hrows]

theorem samePlaces_elsewhere : c.SamePlaces (c.applyDeltaElsewhere event) := by
  obtain ⟨hsession, hwindow, hpin, hthread, hentries⟩ := @elsewhere_parts c event
  refine ⟨by rw [hsession], by rw [hsession], by rw [windowLoaded, hsession, hwindow]; rfl, ?_,
    hthread, ?_⟩
  · rw [hpin, Option.map_map]
    congr 1
    funext pin
    cases hrows : pin.entries with
    | none => simp [applyDelta_of_no_rows hrows, hrows]
    | some rows =>
      obtain ⟨hthread, hnext⟩ := @pin_rows pin event rows hrows
      simp [hthread, hnext]
  · rw [hentries]
    cases truthy c.orchestratorEntriesThreadId with
    | none => rfl
    | some threadId =>
      cases c.orchestratorEntries with
      | none => rfl
      | some rows =>
        dsimp only
        rw [(pin_rows rfl).2]
        rfl

end elsewhere

section loaded
variable {c : LocalClient} {event : DeltaEvent} {itemId : String}

theorem settle_parts (outcome : DeltaOutcome) :
    let settled := c.settleForRefusal outcome
    settled.window = c.window ∧
      settled.session.activeThreadId = c.session.activeThreadId ∧
      (c.session.transcript.isSome → settled.session.transcript.isSome) ∧
      settled.viewOnlyThread = c.viewOnlyThread ∧
      settled.orchestratorEntriesThreadId = c.orchestratorEntriesThreadId ∧
      settled.orchestratorEntries = c.orchestratorEntries := by
  unfold settleForRefusal settleTranscriptProjection
  split_ifs
  · exact ⟨rfl, rfl, id, rfl, rfl, rfl⟩
  · exact ⟨rfl, rfl, fun _ => rfl, rfl, rfl, rfl⟩
  · exact ⟨rfl, rfl, id, rfl, rfl, rfl⟩
  · exact ⟨rfl, rfl, id, rfl, rfl, rfl⟩

theorem windowGain_empty {held : Option Entry} (h : event.delta.getD [] = []) :
    windowGain held event.toDelta = [] := by
  cases held with
  | none => simp [windowGain, h]
  | some entry => exact gain_empty h

theorem text_emptyDelta {w : Window} {existing : Entry}
    (hitem : truthy event.itemId = some itemId) (hempty : event.delta.getD [] = [])
    (hexisting : (w.deliver event.toDelta).entries[itemId]? = some existing) :
    existing.text.getD [] = (w.entries[itemId]?.bind (·.text)).getD [] := by
  rcases entries_deliver w event.toDelta with hsame | ⟨other, hother, hinsert⟩
  · rw [hsame] at hexisting
    rw [hexisting]
    rfl
  · obtain rfl : itemId = other := Option.some.inj (hitem.symm.trans hother)
    rw [hinsert, Std.ExtTreeMap.getElem?_insert_self, Option.some.injEq] at hexisting
    rw [← hexisting, text_windowEntryAfter, windowGain_empty hempty, List.append_nil]

theorem patch_emptyDelta {session : RenderedSession} {held : Option Entry}
    {currentThreadId : Option String} {patch : RenderedEntry}
    (hsession : session.transcript.isSome) (hitem : truthy event.itemId = some itemId)
    (hempty : event.delta.getD [] = []) (hoffset : event.textOffset = none)
    (happend : (reduceTranscriptDeltaEvent windowDeltaPolicy (some session) event
      currentThreadId (some (held.map Entry.toRow))).kind = .append)
    (hpatch : (reduceTranscriptDeltaEvent windowDeltaPolicy (some session) event
      currentThreadId (some (held.map Entry.toRow))).entryPatch = some patch) :
    patch.text.getD [] = (held.bind (·.text)).getD [] := by
  have htaken : admits windowDeltaPolicy event currentThreadId ∧
      (truthy event.itemId).isSome := by
    by_contra h
    rw [reduce_noop _ h] at happend
    cases happend
  obtain ⟨rows, hrows⟩ := Option.isSome_iff_exists.mp hsession
  obtain ⟨placed, hplaced⟩ := @reduce_admitted windowDeltaPolicy session rows event
    currentThreadId itemId rfl (some (held.map Entry.toRow)) hrows hitem htaken.1
  rw [hplaced] at hpatch
  have hnumeric : numericOffset event.textOffset = none := by rw [hoffset]; rfl
  have h := @reducePlacedDelta_offsetless windowDeltaPolicy session rows event placed itemId
    (findCurrentEntry rows itemId (some (held.map Entry.toRow))) hnumeric
  rw [if_neg (by simp [windowDeltaPolicy])] at h
  obtain ⟨located, kind, heq⟩ := h
  rw [heq, hempty] at hpatch
  cases held with
  | none =>
    simp only [deltaAppend, findCurrentEntry, Option.map_none, Option.some.injEq] at hpatch
    rw [← hpatch]
    rfl
  | some entry =>
    simp only [deltaAppend, findCurrentEntry, Option.map_some, Option.some.injEq] at hpatch
    rw [← hpatch]
    exact List.append_nil _

theorem textOf_acceptedEmpty {session : RenderedSession} {w : Window}
    {currentThreadId : Option String} (hsession : session.transcript.isSome)
    (hitem : truthy event.itemId = some itemId) (other : String) :
    (applyAcceptedEmptyOffsetlessDeltaToWindow (w.deliver event.toDelta) event itemId
        (reduceTranscriptDeltaEvent windowDeltaPolicy (some session) event currentThreadId
          (some (w.entries[itemId]?.map Entry.toRow)))).textOf other =
      (w.deliver event.toDelta).textOf other := by
  unfold applyAcceptedEmptyOffsetlessDeltaToWindow
  split_ifs with hno
  · rfl
  · simp only [not_or, not_not, Bool.not_eq_true, Option.isSome_eq_false_iff,
      Option.isNone_iff_eq_none] at hno
    obtain ⟨happend, -, hempty, hoffset⟩ := hno
    cases hexisting : (w.deliver event.toDelta).entries[itemId]? with
    | none => rfl
    | some existing =>
      cases hpatch : (reduceTranscriptDeltaEvent windowDeltaPolicy (some session) event
          currentThreadId (some (w.entries[itemId]?.map Entry.toRow))).entryPatch with
      | none => rfl
      | some patch =>
        have hsame := (patch_emptyDelta hsession hitem hempty hoffset happend hpatch).trans
          (text_emptyDelta hitem hempty hexisting).symm
        dsimp only
        simp only [Window.textOf]
        rw [Table.getElem?_insert_of]
        split_ifs with hother
        · rw [hother, hexisting]
          exact hsame
        · rfl

theorem order_deliver {w : Window} (d : Delta) (h : w.order ≠ []) :
    (w.deliver d).order ≠ [] := by
  unfold Window.deliver Window.applyTranscriptDeltaToWindow
  split
  · split_ifs
    · exact h
    · split
      · exact h
      · simp
  · exact h

theorem acceptedEmpty_parts {w : Window} {outcome : DeltaOutcome} :
    (applyAcceptedEmptyOffsetlessDeltaToWindow w event itemId outcome).threadId = w.threadId ∧
      (applyAcceptedEmptyOffsetlessDeltaToWindow w event itemId outcome).order = w.order := by
  unfold applyAcceptedEmptyOffsetlessDeltaToWindow
  split_ifs
  · exact ⟨rfl, rfl⟩
  · split <;> exact ⟨rfl, rfl⟩

theorem windowAfterDelta_parts {session : RenderedSession} {w : Window}
    {currentThreadId : Option String} (hsession : session.transcript.isSome)
    (hitem : truthy event.itemId = some itemId) :
    let after := windowAfterDelta w event itemId (reduceTranscriptDeltaEvent windowDeltaPolicy
      (some session) event currentThreadId (some (w.entries[itemId]?.map Entry.toRow)))
    after.threadId = w.threadId ∧ (w.order ≠ [] → after.order ≠ []) ∧
      ∀ other, after.textOf other = (w.deliver event.toDelta).textOf other := by
  dsimp only
  unfold windowAfterDelta
  dsimp only
  split_ifs with happlied
  · exact ⟨Window.deliver_threadId, order_deliver event.toDelta, fun _ => rfl⟩
  · refine ⟨acceptedEmpty_parts.1.trans Window.deliver_threadId, fun h => ?_,
      fun other => textOf_acceptedEmpty hsession hitem other⟩
    rw [acceptedEmpty_parts.2]
    exact order_deliver event.toDelta h

theorem loaded_parts {currentThreadId : Option String} (hsession : c.session.transcript.isSome)
    (hitem : truthy event.itemId = some itemId) :
    let after := c.applyDeltaToLoadedWindow event itemId currentThreadId
    after.session.activeThreadId = c.session.activeThreadId ∧
      after.session.transcript.isSome ∧
      after.viewOnlyThread = c.viewOnlyThread ∧
      after.orchestratorEntriesThreadId = c.orchestratorEntriesThreadId ∧
      after.orchestratorEntries = c.orchestratorEntries ∧
      after.window.threadId = c.window.threadId ∧
      (c.window.order ≠ [] → after.window.order ≠ []) ∧
      (after.window = c.window ∧ ¬admits windowDeltaPolicy event currentThreadId ∨
        ∀ other, after.window.textOf other =
          (c.window.deliver event.toDelta).textOf other) := by
  unfold applyDeltaToLoadedWindow
  dsimp only
  by_cases hnoop : (reduceTranscriptDeltaEvent windowDeltaPolicy (some c.session) event
      currentThreadId (some (c.window.entries[itemId]?.map Entry.toRow))).kind = .noop
  · rw [if_pos hnoop]
    refine ⟨rfl, hsession, rfl, rfl, rfl, rfl, id, Or.inl ⟨rfl, fun hadmits => ?_⟩⟩
    exact reduce_window_ne_noop hsession (by simp [hitem]) hadmits hnoop
  · rw [if_neg hnoop]
    obtain ⟨hwindow, hactive, hshown, hpin, hthread, hentries⟩ := @settle_parts c
      (reduceTranscriptDeltaEvent windowDeltaPolicy (some c.session) event currentThreadId
        (some (c.window.entries[itemId]?.map Entry.toRow)))
    rw [hwindow]
    obtain ⟨hkept, horder, htexts⟩ :=
      @windowAfterDelta_parts event itemId c.session c.window currentThreadId hsession hitem
    exact ⟨hactive, hshown hsession, hpin, hthread, hentries, hkept, horder, Or.inr htexts⟩

theorem windowLoaded_of {d : LocalClient} (h : c.windowLoaded)
    (hactive : d.session.activeThreadId = c.session.activeThreadId)
    (hthread : d.window.threadId = c.window.threadId)
    (horder : c.window.order ≠ [] → d.window.order ≠ []) : d.windowLoaded := by
  unfold windowLoaded at h ⊢
  rw [hactive]
  cases hcurrent : truthy c.session.activeThreadId with
  | none => simp [hcurrent] at h
  | some threadId =>
    rw [hcurrent, Option.any_some, Window.transcriptWindowIsLoaded, Bool.and_eq_true,
      decide_eq_true_eq] at h
    rw [Option.any_some, Window.transcriptWindowIsLoaded, hthread, Bool.and_eq_true,
      decide_eq_true_eq]
    exact ⟨h.1, horder h.2⟩

theorem rendered_parts {currentThreadId : Option String} {rows : List RenderedEntry}
    (hrows : c.session.transcript = some rows) :
    let after := c.applyDeltaToRenderedTranscript event currentThreadId
    after.session.activeThreadId = c.session.activeThreadId ∧
      after.session.transcript = some (rowsAfter rows (reduceTranscriptDeltaEvent {}
        (some c.session) event currentThreadId none)) ∧
      after.window = c.window ∧
      after.viewOnlyThread = c.viewOnlyThread ∧
      after.orchestratorEntriesThreadId = c.orchestratorEntriesThreadId ∧
      after.orchestratorEntries = c.orchestratorEntries := by
  unfold applyDeltaToRenderedTranscript
  dsimp only
  generalize hout : reduceTranscriptDeltaEvent {} (some c.session) event currentThreadId none =
    outcome
  cases hkind : outcome.kind with
  | noop => simp [rowsAfter, hkind, hrows]
  | duplicate => simp [rowsAfter, hkind, hrows]
  | needsRepair => simp [rowsAfter, hkind, hrows, revised]
  | append =>
    obtain ⟨-, next, hnext, hactive, htranscript⟩ :=
      @reduce_append {} c.session rows event currentThreadId none rfl rfl hrows
        (by rw [hout]; exact hkind)
    rw [hout] at hnext htranscript
    simp [hnext, hactive, htranscript]

end loaded

section deliveries
variable {c : LocalClient} {event delivered : DeltaEvent}

theorem length_textOf_le {w v : Window} (h : Grows w.entries v.entries) (itemId : String) :
    (w.textOf itemId).length ≤ (v.textOf itemId).length := h itemId

theorem follows_loaded {currentThreadId : Option String} {itemId : String}
    (hsession : c.session.transcript.isSome) (hitem : truthy delivered.itemId = some itemId)
    (hloaded : c.windowLoaded) :
    c.Follows event (c.applyDeltaToLoadedWindow delivered itemId currentThreadId) := by
  obtain ⟨hactive, hshown, hpin, hthread, hentries, hkept, horder, htexts⟩ :=
    @loaded_parts c delivered itemId currentThreadId hsession hitem
  refine ⟨⟨hactive, hshown.trans hsession.symm, ?_, by rw [hpin], hthread, by rw [hentries]⟩,
    fun place htakes other => ?_⟩
  · rw [hloaded]
    exact windowLoaded_of hloaded hactive hkept horder
  · cases place with
    | window =>
      rcases htexts with ⟨hsame, -⟩ | htexts
      · rw [textAt, textAt, hsame]
      · rw [textAt, textAt, htexts other]
        exact length_textOf_le (grows_deliver delivered.toDelta) other
    | transcript => simp [LocalClient.takes, hloaded] at htakes
    | pin => rw [textAt, textAt, hpin]
    | orchestrator => rw [textAt, textAt, hentries]

theorem follows_rendered {currentThreadId : Option String} {rows : List RenderedEntry}
    (hrows : c.session.transcript = some rows) :
    c.Follows event (c.applyDeltaToRenderedTranscript delivered currentThreadId) := by
  obtain ⟨hactive, htranscript, hwindow, hpin, hthread, hentries⟩ :=
    @rendered_parts c delivered currentThreadId rows hrows
  refine ⟨⟨hactive, by rw [htranscript, hrows]; rfl, ?_, by rw [hpin], hthread,
    by rw [hentries]⟩, fun place _ other => ?_⟩
  · rw [windowLoaded, windowLoaded, hactive, hwindow]
  · cases place with
    | window => rw [textAt, textAt, hwindow]
    | transcript =>
      rw [textAt, textAt, htranscript, hrows, Option.getD_some, Option.getD_some,
        rowText_reduce rfl rfl rfl hrows, List.length_append]
      omega
    | pin => rw [textAt, textAt, hpin]
    | orchestrator => rw [textAt, textAt, hentries]

theorem follows_elsewhere : c.Follows event (c.applyDeltaElsewhere delivered) := by
  obtain ⟨hsession, hwindow, -⟩ := @elsewhere_parts c delivered
  refine ⟨samePlaces_elsewhere, fun place _ other => ?_⟩
  cases place with
  | window => rw [textAt, textAt, hwindow]
  | transcript => rw [textAt, textAt, hsession]
  | pin =>
    rw [textAt_pin_elsewhere, List.length_append]
    omega
  | orchestrator =>
    rw [textAt_orchestrator_elsewhere, List.length_append]
    omega

theorem follows_deliver :
    c.Follows event (c.applyLocalTranscriptEntryDelta delivered) := by
  unfold applyLocalTranscriptEntryDelta
  cases hitem : truthy delivered.itemId with
  | none => exact .refl c
  | some itemId =>
    cases hrows : c.session.transcript with
    | none => exact .refl c
    | some rows =>
      dsimp only
      split_ifs with helsewhere hloaded
      · exact follows_elsewhere
      · exact follows_loaded (by simp [hrows]) hitem hloaded
      · exact follows_rendered hrows

end deliveries

def gainAt (c : LocalClient) (event : DeltaEvent) (itemId : String) : Place → JsString
  | .window => windowGain c.window.entries[itemId]? event.toDelta
  | place => gain (c.textAt itemId place) event

section taken
variable {c : LocalClient} {event : DeltaEvent} {itemId : String} {place : Place}

theorem admits_here {policy : DeltaPolicy} (hpolicy : policy.requireEventThreadId = false)
    (honly : transcriptEventThreadId event = truthy event.threadId)
    (hhere : c.Elsewhere event = false) :
    admits policy event (truthy c.session.activeThreadId) := by
  unfold admits
  rw [hpolicy, honly]
  cases hevent : truthy event.threadId with
  | none => simp
  | some threadId =>
    cases hactive : truthy c.session.activeThreadId with
    | none => simp [truthy]
    | some active =>
      have hsame : event.threadId = c.session.activeThreadId := by
        simpa [Elsewhere, hevent, hactive] using hhere
      have hthread : threadId = active := by
        rw [hsame, hactive] at hevent
        exact (Option.some.inj hevent).symm
      simp [hthread]

theorem loaded_thread (hloaded : c.windowLoaded) (hhere : c.Elsewhere event = false) :
    ∃ threadId, c.window.threadId = some threadId ∧ threadId ≠ "" ∧
      (truthy event.threadId).getD threadId = threadId := by
  unfold windowLoaded at hloaded
  cases hactive : truthy c.session.activeThreadId with
  | none => simp [hactive] at hloaded
  | some active =>
    rw [hactive, Option.any_some] at hloaded
    simp only [Window.transcriptWindowIsLoaded, Bool.and_eq_true, decide_eq_true_eq] at hloaded
    refine ⟨active, hloaded.1.2, hloaded.1.1, ?_⟩
    cases hevent : truthy event.threadId with
    | none => rfl
    | some threadId =>
      have hsame : event.threadId = c.session.activeThreadId := by
        simpa [Elsewhere, hevent, hactive] using hhere
      rw [hsame, hactive] at hevent
      exact (Option.some.inj hevent).symm

theorem textAt_deliver (honly : transcriptEventThreadId event = truthy event.threadId)
    (hitem : truthy event.itemId = some itemId) (htakes : c.takes event place) :
    (c.applyLocalTranscriptEntryDelta event).textAt itemId place =
      c.textAt itemId place ++ c.gainAt event itemId place := by
  unfold LocalClient.takes at htakes
  rw [Bool.and_eq_true, Bool.and_eq_true] at htakes
  obtain ⟨⟨-, hsession⟩, hroute⟩ := htakes
  obtain ⟨rows, hrows⟩ := Option.isSome_iff_exists.mp hsession
  unfold applyLocalTranscriptEntryDelta
  simp only [hitem, hrows]
  cases place with
  | window =>
    rw [Bool.and_eq_true, Bool.not_eq_true'] at hroute
    obtain ⟨hhere, hloaded⟩ := hroute
    have hwindow := hloaded
    rw [windowLoaded] at hwindow
    rw [if_neg (by simp [hhere]), if_pos hwindow]
    obtain ⟨threadId, hthread, hne, hname⟩ := loaded_thread hloaded hhere
    obtain ⟨-, -, -, -, -, -, -, htexts⟩ := @loaded_parts c event itemId
      (truthy c.session.activeThreadId) hsession hitem
    have htext := htexts.resolve_left fun h => h.2 (admits_here rfl honly hhere)
    rw [textAt, htext, textOf_deliver hthread hne hname, if_pos hitem]
    rfl
  | transcript =>
    rw [Bool.and_eq_true, Bool.not_eq_true', Bool.not_eq_true'] at hroute
    obtain ⟨hhere, hloaded⟩ := hroute
    rw [windowLoaded] at hloaded
    rw [if_neg (by simp [hhere]), if_neg (by simp [hloaded]), textAt,
      (rendered_parts hrows).2.1, Option.getD_some, rowText_reduce rfl rfl rfl hrows,
      if_pos ⟨admits_here rfl honly hhere, hitem⟩, gainAt, textAt, hrows, Option.getD_some]
    simp
  | pin =>
    rw [Bool.and_eq_true] at hroute
    rw [if_pos hroute.1, textAt_pin_elsewhere, if_pos ⟨hroute.2, hitem⟩]
    rfl
  | orchestrator =>
    rw [Bool.and_eq_true] at hroute
    rw [if_pos hroute.1, textAt_orchestrator_elsewhere, if_pos ⟨hroute.2, hitem⟩]
    rfl

end taken
end LocalClient

end AgentRelay.Hydration
