import AgentRelay.DeltaStream

/-! The array reducer of live deltas beside the hydration window: one append policy written
twice. -/
namespace AgentRelay.Hydration
open Text Relay

structure RenderedEntry where
  itemId : Option String
  turnId : Option String
  text : Option JsString
  kind : Option String
  status : Option String
  tool : Option ToolView
  entrySeq : Option Nat
  deriving DecidableEq, Repr

structure RenderedSession where
  activeThreadId : Option String
  transcriptRevision : Option Nat
  transcript : Option (List RenderedEntry)
  deriving DecidableEq, Repr

structure DeltaEvent where
  threadId : Option String := none
  activeThreadId : Option String := none
  entryThreadId : Option String := none
  itemId : Option String
  turnId : Option String := none
  delta : Option JsString
  deltaKind : Option String := none
  entryKind : Option String := none
  kind : Option String := none
  textOffset : Option Nat := none
  entrySeq : Option Nat := none
  revision : Option Nat := none
  transcriptRevision : Option Nat := none
  baseRevision : Option Nat := none
  deriving DecidableEq, Repr

def DeltaEvent.toDelta (event : DeltaEvent) : Delta :=
  { threadId := event.threadId, itemId := event.itemId, delta := event.delta.getD []
    deltaKind := event.deltaKind, textOffset := event.textOffset, turnId := event.turnId
    entrySeq := event.entrySeq }

inductive UnknownKindFallback
  | preserve
  | agentText
  deriving DecidableEq, Repr

structure DeltaPolicy where
  buildTranscript : Bool := true
  rejectStaleRevision : Bool := false
  enforceBaseRevisionWithoutOffset : Bool := false
  requireEventThreadId : Bool := false
  useDeltaEventKindFallback : Bool := false
  unknownDeltaKindFallback : UnknownKindFallback := .preserve
  appendEmptyOffsetlessDelta : Bool := false
  deriving DecidableEq, Repr

def remoteDeltaPolicy : DeltaPolicy :=
  { rejectStaleRevision := true, enforceBaseRevisionWithoutOffset := true
    useDeltaEventKindFallback := true, unknownDeltaKindFallback := .agentText
    appendEmptyOffsetlessDelta := true }

inductive DeltaOutcomeKind
  | noop
  | needsRepair
  | duplicate
  | append
  deriving DecidableEq, Repr

inductive DeltaDetail
  | offset (item : String) (offset haveLen : Nat)
  | baseRevision (item : String) (baseRevision current : Option Nat)
  deriving DecidableEq, Repr

structure DeltaOutcome where
  kind : DeltaOutcomeKind
  reason : Option String := none
  itemId : Option String := none
  eventThreadId : Option String := none
  currentThreadId : Option String := none
  currentRevision : Option Nat
  eventRevision : Option Nat
  nextRevision : Option Nat
  entryIndex : Option Int := none
  unknownItem : Option Bool := none
  detail : Option DeltaDetail := none
  appendText : Option JsString := none
  entryPatch : Option RenderedEntry := none
  nextTranscript : Option (List RenderedEntry) := none
  nextSession : Option RenderedSession := none
  textLengthBefore : Option Nat := none
  textLengthAfter : Option Nat := none
  deriving DecidableEq, Repr

def numericRevision (value : Option Nat) : Option Nat := safeInteger value

/-- A natural number is never negative, so the sign test of the source always passes. -/
def numericOffset (value : Option Nat) : Option Nat := safeInteger value

def nextMonotonicRevision : Option Nat → Option Nat → Option Nat
  | current, none => current
  | none, some event => some event
  | some current, some event => some (max current event)

def transcriptEventThreadId (event : DeltaEvent) : Option String :=
  ((truthy event.threadId).or (truthy event.activeThreadId)).or (truthy event.entryThreadId)

/-- `normalizeTranscriptDeltaKind` with its fallback option; the window passes none. -/
def normalizeDeltaKindWith (fallback : UnknownKindFallback) (kind : Option String) : String :=
  match truthy kind with
  | none => "agent_text"
  | some "command_output" => "command"
  | some "agent_text" => "agent_text"
  | some kind => if fallback = .agentText then "agent_text" else kind

/-- Whether the event is older than the session. -/
def staleRevision : Option Nat → Option Nat → Bool
  | some event, some current => event < current
  | _, _ => false

/-- Whether the event was made on another revision than the session's. -/
def baseRevisionGap : Option Nat → Option Nat → Bool
  | some base, some current => base != current
  | _, _ => false

def deltaNoop (reason : String) (outcome : DeltaOutcome) : DeltaOutcome :=
  { outcome with kind := .noop, reason := some reason }

def deltaNeedsRepair (reason : String) (outcome : DeltaOutcome) : DeltaOutcome :=
  { outcome with kind := .needsRepair, reason := some reason }

def deltaNextEntry (event : DeltaEvent) (itemId : String) (entry : Option RenderedEntry)
    (appendText : JsString) (resolvedKind : String) : RenderedEntry :=
  match entry with
  | some entry =>
    { entry with
      entrySeq := firstValidSeq entry.entrySeq event.entrySeq
      kind := (truthy entry.kind).or (some resolvedKind)
      status := some "running"
      text := some (entry.text.getD [] ++ appendText)
      turnId := (truthy entry.turnId).or (truthy event.turnId) }
  | none =>
    { itemId := some itemId, turnId := event.turnId, text := some appendText
      kind := some resolvedKind, status := some "running", tool := none
      entrySeq := safeInteger event.entrySeq }

def placeNextEntry (transcript : List RenderedEntry) (found : Option (Nat × RenderedEntry))
    (nextEntry : RenderedEntry) : List RenderedEntry :=
  match found with
  | some (index, _) => transcript.set index nextEntry
  | none => transcript ++ [nextEntry]

def deltaAppend (policy : DeltaPolicy) (session : RenderedSession)
    (transcript : List RenderedEntry) (event : DeltaEvent) (located : DeltaOutcome)
    (itemId : String) (found : Option (Nat × RenderedEntry)) (appendText : JsString)
    (resolvedKind : String) : DeltaOutcome :=
  let entry := found.map (·.2)
  let haveText := (entry.bind (·.text)).getD []
  let nextEntry := deltaNextEntry event itemId entry appendText resolvedKind
  let nextTranscript := placeNextEntry transcript found nextEntry
  { located with
    kind := .append
    appendText := some appendText
    entryPatch := some nextEntry
    nextTranscript := if policy.buildTranscript then some nextTranscript else none
    nextSession :=
      if policy.buildTranscript then
        some { session with
          transcript := some nextTranscript
          transcriptRevision :=
            if located.eventRevision.isSome then located.nextRevision
            else session.transcriptRevision }
      else none
    textLengthBefore := some haveText.length
    textLengthAfter := some (haveText.length + appendText.length)
    unknownItem := some entry.isNone }

/-- The entry the delta is for: the one the caller names, else the first of the array. -/
def findCurrentEntry (transcript : List RenderedEntry) (itemId : String)
    (current : Option (Option RenderedEntry)) : Option (Nat × RenderedEntry) :=
  match current with
  | some entry => entry.map ((0, ·))
  | none =>
    (transcript.findIdx? (·.itemId = some itemId)).bind fun index =>
      transcript[index]?.map ((index, ·))

def reducePlacedDelta (policy : DeltaPolicy) (session : RenderedSession)
    (transcript : List RenderedEntry) (event : DeltaEvent) (placed : DeltaOutcome)
    (itemId : String) (found : Option (Nat × RenderedEntry)) : DeltaOutcome :=
  let entry := found.map (·.2)
  let located := { placed with entryIndex := some (found.elim (-1) fun f => (f.1 : Int)) }
  let deltaText := event.delta.getD []
  let haveText := (entry.bind (·.text)).getD []
  let resolvedKind := normalizeDeltaKindWith policy.unknownDeltaKindFallback
    (((truthy event.deltaKind).or (truthy event.entryKind)).or
      (if policy.useDeltaEventKindFallback then event.kind else none))
  match numericOffset event.textOffset with
  | some offset =>
    let refused :=
      { located with
        unknownItem := some entry.isNone
        detail := some (.offset itemId offset haveText.length) }
    if haveText.length < offset then deltaNeedsRepair "offset_gap" refused
    else
      match resolveDeltaAppend haveText deltaText (some offset) with
      | none => deltaNeedsRepair "offset_mismatch" refused
      | some [] =>
        { located with
          kind := .duplicate
          textLengthBefore := some haveText.length
          textLengthAfter := some haveText.length }
      | some appendText =>
        deltaAppend policy session transcript event located itemId found appendText resolvedKind
  | none =>
    let baseRevision := numericRevision event.baseRevision
    if policy.enforceBaseRevisionWithoutOffset
        && baseRevisionGap baseRevision placed.currentRevision then
      deltaNeedsRepair "base_revision_gap"
        { located with
          unknownItem := some entry.isNone
          detail := some (.baseRevision itemId baseRevision placed.currentRevision) }
    else if deltaText = [] ∧ policy.appendEmptyOffsetlessDelta = false then
      deltaNoop "empty_offsetless_delta"
        { located with
          textLengthBefore := some haveText.length
          textLengthAfter := some haveText.length
          unknownItem := some entry.isNone }
    else deltaAppend policy session transcript event located itemId found deltaText resolvedKind

/-- Reduce a live delta over a rendered array. `current` is the pair `hasCurrentEntry`,
`currentEntry` of a caller that looked the entry up itself. -/
def reduceTranscriptDeltaEvent (policy : DeltaPolicy) (session : Option RenderedSession)
    (event : DeltaEvent) (currentThreadId : Option String)
    (current : Option (Option RenderedEntry)) : DeltaOutcome :=
  let eventThreadId := transcriptEventThreadId event
  let currentRevision := numericRevision (session.bind (·.transcriptRevision))
  let eventRevision := numericRevision (event.revision.or event.transcriptRevision)
  let revisions : DeltaOutcome :=
    { kind := .noop, currentRevision := currentRevision, eventRevision := eventRevision
      nextRevision := nextMonotonicRevision currentRevision eventRevision }
  match session, session.bind (·.transcript) with
  | some session, some transcript =>
    match truthy event.itemId with
    | none => deltaNoop "missing_item" revisions
    | some itemId =>
      let named := { revisions with itemId := some itemId }
      let placed :=
        { named with eventThreadId := eventThreadId, currentThreadId := currentThreadId }
      if policy.requireEventThreadId && eventThreadId.isNone then
        deltaNoop "missing_thread" named
      else if eventThreadId.isSome && (truthy currentThreadId).isSome
          && eventThreadId != currentThreadId then
        deltaNoop "wrong_thread" placed
      else if policy.rejectStaleRevision && staleRevision eventRevision currentRevision then
        deltaNoop "stale_revision" placed
      else
        reducePlacedDelta policy session transcript event placed itemId
          (findCurrentEntry transcript itemId current)
  | _, _ => deltaNoop "missing_session" revisions

/-! ## Where the two paths agree -/

def SameItem : Option RenderedEntry → Option Entry → Prop
  | none, none => True
  | some row, some entry =>
    row.text.getD [] = entry.text.getD [] ∧ row.turnId = entry.turnId ∧
      row.entrySeq = entry.entrySeq
  | _, _ => False

/-- Both paths left the same text, status, turn and sequence number. -/
def SameResult (row : RenderedEntry) (entry : Entry) : Prop :=
  row.text.getD [] = entry.text.getD [] ∧ row.status = some entry.status ∧
    row.turnId = entry.turnId ∧ row.entrySeq = entry.entrySeq

/-- The text the window holds did not change; an unknown item gained at most an empty body. -/
def TextUnchanged (before after : Option Entry) : Prop :=
  match before with
  | some held => after.map (·.text) = some held.text
  | none => ∀ entry, after = some entry → entry.text.getD [] = []

/-- The window follows the reducer: an append leaves the same item, anything else no text. -/
def WindowFollows (outcome : DeltaOutcome) (before after : Option Entry) : Prop :=
  if outcome.kind = .append then
    ∃ row entry, outcome.entryPatch = some row ∧ after = some entry ∧ SameResult row entry
  else TextUnchanged before after

def guardRefuses (policy : DeltaPolicy) (session : RenderedSession) (event : DeltaEvent) : Bool :=
  let current := numericRevision session.transcriptRevision
  (policy.rejectStaleRevision
      && staleRevision (numericRevision (event.revision.or event.transcriptRevision)) current)
    || (policy.enforceBaseRevisionWithoutOffset && (numericOffset event.textOffset).isNone
      && baseRevisionGap (numericRevision event.baseRevision) current)

/-- The part of the delta the held text lacks, or the first body of an unknown item. -/
def windowGain (held : Option Entry) (d : Delta) : JsString :=
  match held with
  | some entry => (resolveDeltaAppend (entry.text.getD []) d.delta d.textOffset).getD []
  | none => if startsAtZero d then d.delta else []

def acceptedEmpty (policy : DeltaPolicy) (event : DeltaEvent) : Bool :=
  policy.appendEmptyOffsetlessDelta && (numericOffset event.textOffset).isNone
    && event.delta.getD [] = []

def SettledAs (event : DeltaEvent) (entry : Entry) : Prop :=
  entry.status = "running" ∧ (truthy entry.turnId).or (truthy event.turnId) = entry.turnId ∧
    firstValidSeq entry.entrySeq event.entrySeq = entry.entrySeq

structure PathsMeet (policy : DeltaPolicy) (session : RenderedSession) (event : DeltaEvent)
    (held : Option Entry) : Prop where
  /-- What a revision guard refuses brings the window no text either. -/
  guarded : guardRefuses policy session event = true → windowGain held event.toDelta = []
  /-- An accepted empty delta finds the held entry as it would leave it. -/
  empty : guardRefuses policy session event = false → acceptedEmpty policy event = true →
    ∀ entry, held = some entry → SettledAs event entry
  /-- A first delta with text has no offset or a numeric one. -/
  offset : guardRefuses policy session event = false → held = none →
    event.delta.getD [] ≠ [] → numericOffset event.textOffset = none → event.textOffset = none
  /-- A first delta that is accepted does not name the empty turn. -/
  turn : guardRefuses policy session event = false → held = none →
    (event.delta.getD [] ≠ [] ∧ (numericOffset event.textOffset).getD 0 = 0) ∨
      acceptedEmpty policy event = true → event.turnId ≠ some ""

section Window

def windowEntryAfter (itemId : String) (held : Option Entry) (d : Delta) : Entry :=
  match held with
  | some entry => (applyDeltaToEntry entry d).1
  | none => firstDeltaEntry itemId d

theorem window_entry_after {w : Window} {event : DeltaEvent} {itemId threadId : String}
    (hitem : truthy event.itemId = some itemId) (hw : w.threadId = some threadId)
    (ht : threadId ≠ "")
    (hthread : (truthy event.threadId).getD threadId = threadId) :
    (w.applyTranscriptDeltaToWindow event.toDelta).1.entries[itemId]? =
      some (windowEntryAfter itemId w.entries[itemId]? event.toDelta) := by
  have htruthy : truthy (some threadId) = some threadId := by simp [truthy, ht]
  unfold Window.applyTranscriptDeltaToWindow
  simp only [DeltaEvent.toDelta, hitem, hw, htruthy, hthread, ne_eq, not_true_eq_false, if_false]
  cases w.entries[itemId]? with
  | none => simp [windowEntryAfter]
  | some entry => simp [windowEntryAfter]

theorem applyDeltaToEntry_text {existing : Entry} {d : Delta} :
    (applyDeltaToEntry existing d).1.text = existing.text ↔
      windowGain (some existing) d = [] := by
  unfold windowGain
  cases hres : resolveDeltaAppend (existing.text.getD []) d.delta d.textOffset with
  | none => simp [applyDeltaToEntry_refused hres, hres]
  | some gain =>
    by_cases hnil : gain = []
    · subst hnil
      simp [applyDeltaToEntry_covered hres, hres]
    · rw [(applyDeltaToEntry_grown hnil hres).1]
      simp only [hres, Option.getD_some, hnil, iff_false]
      intro hsame
      have hlen := congrArg (fun text => (text.getD []).length) hsame
      have hpos : 0 < gain.length := List.length_pos_iff.mpr hnil
      simp only [Option.getD_some, List.length_append] at hlen
      omega

theorem textUnchanged_iff {itemId : String} {held : Option Entry} {d : Delta} :
    TextUnchanged held (some (windowEntryAfter itemId held d)) ↔ windowGain held d = [] := by
  cases held with
  | some entry =>
    rw [← applyDeltaToEntry_text]
    simp [TextUnchanged, windowEntryAfter]
  | none => simp [TextUnchanged, windowEntryAfter, windowGain, firstDeltaEntry]

end Window

section Reducer

variable {policy : DeltaPolicy} {session : RenderedSession} {transcript : List RenderedEntry}
  {event : DeltaEvent} {placed : DeltaOutcome} {itemId : String}
  {found : Option (Nat × RenderedEntry)}

@[simp] theorem deltaNoop_kind (reason : String) (outcome : DeltaOutcome) :
    (deltaNoop reason outcome).kind = .noop := rfl

@[simp] theorem deltaNeedsRepair_kind (reason : String) (outcome : DeltaOutcome) :
    (deltaNeedsRepair reason outcome).kind = .needsRepair := rfl

@[simp] theorem deltaAppend_kind (located : DeltaOutcome) (appendText : JsString)
    (resolvedKind : String) :
    (deltaAppend policy session transcript event located itemId found appendText
      resolvedKind).kind = .append := rfl

theorem numericOffset_eq {offset : Nat} (h : numericOffset event.textOffset = some offset) :
    event.textOffset = some offset := by
  unfold numericOffset safeInteger at h
  exact (Option.filter_eq_some_iff.mp h).1

theorem resolveDeltaAppend_gap {haveText deltaText : JsString} {textOffset : Option Nat}
    {offset : Nat} (hsafe : safeInteger textOffset = some offset)
    (hgap : haveText.length < offset) :
    resolveDeltaAppend haveText deltaText textOffset = none := by
  simp [resolveDeltaAppend, hsafe, hgap]

theorem reducePlacedDelta_offset {offset : Nat}
    (hoffset : numericOffset event.textOffset = some offset) :
    let gain := (resolveDeltaAppend ((found.map (·.2)).bind (·.text) |>.getD [])
      (event.delta.getD []) event.textOffset).getD []
    let outcome := reducePlacedDelta policy session transcript event placed itemId found
    if gain = [] then outcome.kind ≠ .append
    else ∃ located kind,
      outcome = deltaAppend policy session transcript event located itemId found gain kind := by
  have hraw := numericOffset_eq hoffset
  have hsafe : numericOffset (some offset) = some offset := hraw ▸ hoffset
  dsimp only
  unfold reducePlacedDelta
  simp only [hraw, hsafe]
  by_cases hgap : (((found.map (·.2)).bind (·.text)).getD []).length < offset
  · rw [if_pos hgap, resolveDeltaAppend_gap hsafe hgap]
    simp
  · rw [if_neg hgap]
    cases hres : resolveDeltaAppend (((found.map (·.2)).bind (·.text)).getD [])
        (event.delta.getD []) (some offset) with
    | none => simp
    | some gain =>
      cases gain with
      | nil => simp
      | cons c cs => exact ⟨_, _, rfl⟩

/-- Without a numeric offset the reducer appends the delta, unless a guard or the policy on
empty deltas stops it. -/
theorem reducePlacedDelta_offsetless (hoffset : numericOffset event.textOffset = none) :
    let outcome := reducePlacedDelta policy session transcript event placed itemId found
    if (policy.enforceBaseRevisionWithoutOffset
        && baseRevisionGap (numericRevision event.baseRevision) placed.currentRevision) = true ∨
      (event.delta.getD [] = [] ∧ policy.appendEmptyOffsetlessDelta = false) then
      outcome.kind ≠ .append
    else ∃ located kind, outcome = deltaAppend policy session transcript event located itemId
      found (event.delta.getD []) kind := by
  dsimp only
  unfold reducePlacedDelta
  simp only [hoffset]
  by_cases hbase : (policy.enforceBaseRevisionWithoutOffset
      && baseRevisionGap (numericRevision event.baseRevision) placed.currentRevision) = true
  · simp [hbase]
  · by_cases hempty : event.delta.getD [] = [] ∧ policy.appendEmptyOffsetlessDelta = false
    · simp [hbase, hempty]
    · rw [if_neg (not_or.mpr ⟨hbase, hempty⟩), if_neg hbase, if_neg hempty]
      exact ⟨_, _, rfl⟩

theorem reducePlacedDelta_cases :
    let outcome := reducePlacedDelta policy session transcript event placed itemId found
    outcome.kind ≠ .append ∨ ∃ located gain kind,
      outcome = deltaAppend policy session transcript event located itemId found gain kind := by
  cases hoffset : numericOffset event.textOffset with
  | none =>
    have h := @reducePlacedDelta_offsetless policy session transcript event placed itemId found
      hoffset
    dsimp only at h
    split at h
    · exact .inl h
    · exact .inr ⟨h.choose, _, h.choose_spec⟩
  | some offset =>
    have h := @reducePlacedDelta_offset policy session transcript event placed itemId found _
      hoffset
    dsimp only at h
    split at h
    · exact .inl h
    · exact .inr ⟨h.choose, _, h.choose_spec⟩

/-- The event is for this thread: it names it, or names none where none is required. -/
def AddressedTo (policy : DeltaPolicy) (event : DeltaEvent) (threadId : String) : Prop :=
  transcriptEventThreadId event = some threadId ∨
    (transcriptEventThreadId event = none ∧ policy.requireEventThreadId = false)

theorem AddressedTo.window {threadId : String} (h : AddressedTo policy event threadId) :
    (truthy event.threadId).getD threadId = threadId := by
  cases hid : truthy event.threadId with
  | none => rfl
  | some other =>
    have hfirst : transcriptEventThreadId event = some other := by
      simp [transcriptEventThreadId, hid]
    cases h with
    | inl hnamed => simpa using hfirst.symm.trans hnamed
    | inr hnone => simp [hfirst] at hnone

/-- A stale event the policy rejects is a no-op; any other one is reduced at its place. -/
theorem reduceTranscriptDeltaEvent_addressed {threadId : String}
    (current : Option (Option RenderedEntry))
    (htranscript : session.transcript = some transcript)
    (hitem : truthy event.itemId = some itemId) (h : AddressedTo policy event threadId) :
    let currentRevision := numericRevision session.transcriptRevision
    let outcome :=
      reduceTranscriptDeltaEvent policy (some session) event (some threadId) current
    if (policy.rejectStaleRevision && staleRevision
        (numericRevision (event.revision.or event.transcriptRevision)) currentRevision) = true then
      outcome.kind ≠ .append
    else ∃ placed : DeltaOutcome, placed.currentRevision = currentRevision ∧
      outcome = reducePlacedDelta policy session transcript event placed itemId
        (findCurrentEntry transcript itemId current) := by
  dsimp only
  unfold reduceTranscriptDeltaEvent
  have hmissing :
      (policy.requireEventThreadId && (transcriptEventThreadId event).isNone) = false := by
    cases h with
    | inl hnamed => simp [hnamed]
    | inr hnone => simp [hnone.2]
  have hwrong : ((transcriptEventThreadId event).isSome && (truthy (some threadId)).isSome
      && transcriptEventThreadId event != some threadId) = false := by
    cases h with
    | inl hnamed => simp [hnamed]
    | inr hnone => simp [hnone.1]
  simp only [Option.bind_some, htranscript, hitem, hmissing, hwrong, Bool.false_eq_true, if_false]
  split
  · simp
  · exact ⟨_, rfl, rfl⟩

end Reducer

section Agreement

@[simp] theorem DeltaEvent.toDelta_delta (event : DeltaEvent) :
    event.toDelta.delta = event.delta.getD [] := rfl

@[simp] theorem DeltaEvent.toDelta_textOffset (event : DeltaEvent) :
    event.toDelta.textOffset = event.textOffset := rfl

@[simp] theorem DeltaEvent.toDelta_turnId (event : DeltaEvent) :
    event.toDelta.turnId = event.turnId := rfl

@[simp] theorem DeltaEvent.toDelta_entrySeq (event : DeltaEvent) :
    event.toDelta.entrySeq = event.entrySeq := rfl

variable {policy : DeltaPolicy} {session : RenderedSession} {event : DeltaEvent}
  {outcome : DeltaOutcome} {itemId : String} {row : Option RenderedEntry} {held : Option Entry}

abbrev windowAfter (itemId : String) (held : Option Entry) (event : DeltaEvent) : Option Entry :=
  some (windowEntryAfter itemId held event.toDelta)

theorem windowFollows_unchanged (h : outcome.kind ≠ .append) :
    WindowFollows outcome held (windowAfter itemId held event) ↔
      windowGain held event.toDelta = [] := by
  rw [WindowFollows, if_neg h, textUnchanged_iff]

theorem windowFollows_append {transcript : List RenderedEntry} {located : DeltaOutcome}
    {found : Option (Nat × RenderedEntry)} {gain : JsString} {kind : String} :
    WindowFollows (deltaAppend policy session transcript event located itemId found gain kind) held
        (windowAfter itemId held event) ↔
      SameResult (deltaNextEntry event itemId (found.map (·.2)) gain kind)
        (windowEntryAfter itemId held event.toDelta) := by
  rw [WindowFollows, if_pos (deltaAppend_kind located gain kind)]
  simp [deltaAppend]

theorem resolved_gain {offset : Nat} (hsame : SameItem row held)
    (hoffset : numericOffset event.textOffset = some offset) :
    (resolveDeltaAppend ((row.bind (·.text)).getD []) (event.delta.getD [])
      event.textOffset).getD [] = windowGain held event.toDelta := by
  cases row with
  | some row =>
    cases held with
    | none => exact absurd hsame id
    | some entry => simp [windowGain, hsame.1]
  | none =>
    cases held with
    | some entry => exact absurd hsame id
    | none =>
      have hraw := numericOffset_eq hoffset
      have hsafe : safeInteger (some offset) = some offset := hraw ▸ hoffset
      simp only [windowGain, startsAtZero, DeltaEvent.toDelta_delta,
        DeltaEvent.toDelta_textOffset, hraw, resolveDeltaAppend, hsafe]
      by_cases hzero : offset = 0
      · by_cases hdelta : event.delta.getD [] = [] <;> simp [hzero, hdelta]
      · have hpos : 0 < offset := Nat.pos_of_ne_zero hzero
        simp [hzero, hpos]

theorem resolve_of_gain {entry : Entry} (hgain : windowGain (some entry) event.toDelta ≠ []) :
    resolveDeltaAppend (entry.text.getD []) (event.delta.getD []) event.textOffset =
      some (windowGain (some entry) event.toDelta) := by
  have hsome : (resolveDeltaAppend (entry.text.getD []) (event.delta.getD [])
      event.textOffset).getD [] ≠ [] := hgain
  cases hres : resolveDeltaAppend (entry.text.getD []) (event.delta.getD [])
      event.textOffset with
  | none => simp [hres] at hsome
  | some gain => simp [windowGain, hres]

theorem grown_same {known : RenderedEntry} {entry : Entry} {kind : String}
    (hsame : SameItem (some known) (some entry))
    (hgain : windowGain (some entry) event.toDelta ≠ []) :
    SameResult (deltaNextEntry event itemId (some known)
        (windowGain (some entry) event.toDelta) kind)
      (windowEntryAfter itemId (some entry) event.toDelta) := by
  have hres := resolve_of_gain hgain
  obtain ⟨c, cs, hcons⟩ := List.exists_cons_of_ne_nil hgain
  rw [hcons] at hres ⊢
  obtain ⟨htext, hturn, hseq⟩ := hsame
  simp [SameResult, deltaNextEntry, windowEntryAfter, applyDeltaToEntry, hres, htext, hturn, hseq]

theorem truthy_eq_self {value : Option String} : value = truthy value ↔ value ≠ some "" := by
  cases value with
  | none => simp [truthy]
  | some text =>
    by_cases h : text = ""
    · subst h
      exact iff_of_false (by decide) (by simp)
    · have hkept : truthy (some text) = some text := by simp [truthy, h]
      exact iff_of_true hkept.symm (by simp [h])

/-- On an unknown item the reducer and the window differ in the body of an offset that is no
safe integer, and in an empty turn. -/
theorem first_same {text : JsString} {kind : String} :
    SameResult (deltaNextEntry event itemId none text kind)
        (windowEntryAfter itemId none event.toDelta) ↔
      text = (if startsAtZero event.toDelta then event.delta.getD [] else []) ∧
        event.turnId ≠ some "" := by
  simp [SameResult, deltaNextEntry, windowEntryAfter, firstDeltaEntry, ← truthy_eq_self]

/-- The paths agree past the guards when the delta has a numeric offset, unless an unknown
item's first delta names the empty turn. -/
theorem follows_offset {transcript : List RenderedEntry} {placed : DeltaOutcome}
    {found : Option (Nat × RenderedEntry)} {offset : Nat}
    (hsame : SameItem (found.map (·.2)) held)
    (hoffset : numericOffset event.textOffset = some offset) :
    WindowFollows (reducePlacedDelta policy session transcript event placed itemId found) held
        (windowAfter itemId held event) ↔
      (held = none → event.delta.getD [] ≠ [] → offset = 0 → event.turnId ≠ some "") := by
  have hreduce := @reducePlacedDelta_offset policy session transcript event placed itemId found _
    hoffset
  dsimp only at hreduce
  rw [resolved_gain hsame hoffset] at hreduce
  by_cases hgain : windowGain held event.toDelta = []
  · rw [if_pos hgain] at hreduce
    rw [windowFollows_unchanged hreduce]
    refine iff_of_true hgain ?_
    rintro rfl hdelta rfl
    simp [windowGain, startsAtZero, numericOffset_eq hoffset] at hgain
    exact absurd hgain hdelta
  · rw [if_neg hgain] at hreduce
    obtain ⟨located, kind, happend⟩ := hreduce
    rw [happend, windowFollows_append]
    cases hfound : found.map (·.2) with
    | some known =>
      rw [hfound] at hsame
      cases held with
      | none => exact absurd hsame id
      | some entry =>
        exact iff_of_true (grown_same hsame hgain) fun hnone => absurd hnone (by simp)
    | none =>
      rw [hfound] at hsame
      cases held with
      | some entry => exact absurd hsame id
      | none =>
        rw [first_same]
        have hstart : startsAtZero event.toDelta = true := by
          by_contra hlate
          simp [windowGain, hlate] at hgain
        have hzero : offset = 0 := by
          simpa [startsAtZero, numericOffset_eq hoffset] using hstart
        have hdelta : event.delta.getD [] ≠ [] := by
          simpa [windowGain, hstart] using hgain
        simp [windowGain, hstart, hzero, hdelta]

theorem windowGain_offsetless (entry : Entry) (hoffset : numericOffset event.textOffset = none) :
    windowGain (some entry) event.toDelta = event.delta.getD [] := by
  have hnone : safeInteger event.textOffset = none := hoffset
  simp [windowGain, resolveDeltaAppend, hnone]

/-- An absent offset starts the body; one past the safe integers does not. -/
theorem startsAtZero_offsetless (hoffset : numericOffset event.textOffset = none) :
    startsAtZero event.toDelta = true ↔ event.textOffset = none := by
  unfold startsAtZero
  cases hraw : event.textOffset with
  | none => simp [hraw]
  | some offset =>
    have hbig : maxSafeInteger < offset := by
      simpa [numericOffset, safeInteger, hraw] using hoffset
    simp only [DeltaEvent.toDelta_textOffset, hraw, Option.getD_some, decide_eq_true_eq,
      reduceCtorEq, iff_false]
    omega

theorem empty_same {known : RenderedEntry} {entry : Entry} {kind : String}
    (hsame : SameItem (some known) (some entry))
    (hres : resolveDeltaAppend (entry.text.getD []) event.toDelta.delta
      event.toDelta.textOffset = some []) :
    SameResult (deltaNextEntry event itemId (some known) [] kind)
        (windowEntryAfter itemId (some entry) event.toDelta) ↔ SettledAs event entry := by
  obtain ⟨htext, hturn, hseq⟩ := hsame
  have hkeep : windowEntryAfter itemId (some entry) event.toDelta = entry :=
    congrArg Prod.fst (applyDeltaToEntry_covered hres)
  rw [hkeep]
  simp [SameResult, SettledAs, deltaNextEntry, htext, hturn, hseq, eq_comm]

/-- The paths agree past the guards on a delta without a numeric offset when an accepted empty
one finds its entry settled, and an unknown item's has no odd offset and no empty turn. -/
theorem follows_offsetless {transcript : List RenderedEntry} {placed : DeltaOutcome}
    {found : Option (Nat × RenderedEntry)} (hsame : SameItem (found.map (·.2)) held)
    (hoffset : numericOffset event.textOffset = none)
    (hbase : (policy.enforceBaseRevisionWithoutOffset
      && baseRevisionGap (numericRevision event.baseRevision) placed.currentRevision) = false) :
    WindowFollows (reducePlacedDelta policy session transcript event placed itemId found) held
        (windowAfter itemId held event) ↔
      (acceptedEmpty policy event = true → ∀ entry, held = some entry → SettledAs event entry) ∧
        (held = none → event.delta.getD [] ≠ [] → event.textOffset = none) ∧
        (held = none → event.delta.getD [] ≠ [] ∨ acceptedEmpty policy event = true →
          event.turnId ≠ some "") := by
  have hreduce := @reducePlacedDelta_offsetless policy session transcript event placed itemId
    found hoffset
  simp only [hbase, Bool.false_eq_true, false_or] at hreduce
  have haccepted : acceptedEmpty policy event = true ↔
      policy.appendEmptyOffsetlessDelta = true ∧ event.delta.getD [] = [] := by
    simp [acceptedEmpty, hoffset]
  by_cases hquiet : event.delta.getD [] = [] ∧ policy.appendEmptyOffsetlessDelta = false
  · rw [if_pos hquiet] at hreduce
    rw [windowFollows_unchanged hreduce]
    have hnil : windowGain held event.toDelta = [] := by
      cases held with
      | some entry => rw [windowGain_offsetless entry hoffset, hquiet.1]
      | none => simp [windowGain, hquiet.1]
    refine iff_of_true hnil ?_
    simp [haccepted, hquiet.1, hquiet.2]
  · rw [if_neg hquiet] at hreduce
    obtain ⟨located, kind, happend⟩ := hreduce
    rw [happend, windowFollows_append]
    cases hfound : found.map (·.2) with
    | some known =>
      rw [hfound] at hsame
      cases held with
      | none => exact absurd hsame id
      | some entry =>
        have hgain := windowGain_offsetless entry hoffset
        by_cases hdelta : event.delta.getD [] = []
        · have hasked : policy.appendEmptyOffsetlessDelta = true := by
            by_contra hno
            exact hquiet ⟨hdelta, by simpa using hno⟩
          have hres : resolveDeltaAppend (entry.text.getD []) event.toDelta.delta
              event.toDelta.textOffset = some [] := by
            have hnone : safeInteger event.textOffset = none := hoffset
            simp [resolveDeltaAppend, hnone, hdelta]
          rw [hdelta, empty_same hsame hres]
          simp [haccepted, hasked, hdelta]
        · rw [← hgain]
          refine iff_of_true (grown_same hsame (hgain ▸ hdelta)) ?_
          simp [haccepted, hdelta]
    | none =>
      rw [hfound] at hsame
      cases held with
      | some entry => exact absurd hsame id
      | none =>
        rw [first_same]
        have hstart := startsAtZero_offsetless hoffset
        by_cases hdelta : event.delta.getD [] = []
        · have hasked : policy.appendEmptyOffsetlessDelta = true := by
            by_contra hno
            exact hquiet ⟨hdelta, by simpa using hno⟩
          simp [haccepted, hasked, hdelta]
        · by_cases hzero : startsAtZero event.toDelta = true
          · simp [hzero, hdelta, hstart.mp hzero]
          · have hodd : event.textOffset ≠ none := fun h => hzero (hstart.mpr h)
            simp [hzero, hdelta, hodd]

theorem guardRefuses_not_append {transcript : List RenderedEntry} {threadId : String}
    {current : Option (Option RenderedEntry)} (htranscript : session.transcript = some transcript)
    (hitem : truthy event.itemId = some itemId) (haddressed : AddressedTo policy event threadId)
    (hguard : guardRefuses policy session event = true) :
    (reduceTranscriptDeltaEvent policy (some session) event (some threadId) current).kind ≠
      .append := by
  have hreduce :=
    reduceTranscriptDeltaEvent_addressed current htranscript hitem haddressed
  dsimp only at hreduce
  split at hreduce
  · exact hreduce
  · rename_i hfresh
    obtain ⟨placed, hrevision, hplaced⟩ := hreduce
    have hbase : (policy.enforceBaseRevisionWithoutOffset && (numericOffset event.textOffset).isNone
        && baseRevisionGap (numericRevision event.baseRevision)
          (numericRevision session.transcriptRevision)) = true := by
      rw [guardRefuses, Bool.or_eq_true] at hguard
      exact hguard.resolve_left hfresh
    simp only [Bool.and_eq_true, Option.isNone_iff_eq_none] at hbase
    have hquiet := @reducePlacedDelta_offsetless policy session transcript event placed itemId
      (findCurrentEntry transcript itemId current) hbase.1.2
    dsimp only at hquiet
    rw [if_pos (.inl (by simp [hbase.1.1, hrevision, hbase.2]))] at hquiet
    rwa [hplaced]

/-- The window follows the reducer on an item both hold exactly when the inputs meet. -/
theorem windowFollows_iff {transcript : List RenderedEntry} {threadId : String}
    {current : Option (Option RenderedEntry)} (htranscript : session.transcript = some transcript)
    (hitem : truthy event.itemId = some itemId) (haddressed : AddressedTo policy event threadId)
    (hsame : SameItem ((findCurrentEntry transcript itemId current).map (·.2)) held) :
    WindowFollows
        (reduceTranscriptDeltaEvent policy (some session) event (some threadId) current) held
        (windowAfter itemId held event) ↔ PathsMeet policy session event held := by
  by_cases hguard : guardRefuses policy session event = true
  · rw [windowFollows_unchanged (guardRefuses_not_append htranscript hitem haddressed hguard)]
    refine ⟨fun hnil => ⟨fun _ => hnil, ?_, ?_, ?_⟩, fun hmeet => hmeet.guarded hguard⟩ <;>
      simp [hguard]
  · have hopen : guardRefuses policy session event = false := by simpa using hguard
    have hclear := hopen
    rw [guardRefuses, Bool.or_eq_false_iff] at hclear
    have hreduce :=
      reduceTranscriptDeltaEvent_addressed current htranscript hitem haddressed
    dsimp only at hreduce
    rw [if_neg (by simp [hclear.1])] at hreduce
    obtain ⟨placed, hrevision, hplaced⟩ := hreduce
    rw [hplaced]
    cases hoffset : numericOffset event.textOffset with
    | some offset =>
      rw [follows_offset hsame hoffset]
      have hfilled : acceptedEmpty policy event = false := by simp [acceptedEmpty, hoffset]
      constructor
      · intro hturn
        refine ⟨by simp [hopen], by simp [hfilled], by simp [hoffset], fun _ hnone hfirst => ?_⟩
        simp only [hfilled, hoffset, Option.getD_some, Bool.false_eq_true, or_false] at hfirst
        exact hturn hnone hfirst.1 hfirst.2
      · intro hmeet hnone hdelta hzero
        exact hmeet.turn hopen hnone (.inl ⟨hdelta, by simp [hoffset, hzero]⟩)
    | none =>
      have hbase : (policy.enforceBaseRevisionWithoutOffset && baseRevisionGap
          (numericRevision event.baseRevision) placed.currentRevision) = false := by
        simpa [hoffset, hrevision] using hclear.2
      rw [follows_offsetless hsame hoffset hbase]
      constructor
      · rintro ⟨hsettled, hodd, hturn⟩
        refine ⟨by simp [hopen], fun _ => hsettled, fun _ hnone hdelta _ => hodd hnone hdelta,
          fun _ hnone hfirst => hturn hnone (hfirst.imp And.left id)⟩
      · intro hmeet
        refine ⟨hmeet.empty hopen, fun hnone hdelta => hmeet.offset hopen hnone hdelta hoffset,
          fun hnone hfirst => hmeet.turn hopen hnone (hfirst.imp (fun hdelta => ⟨hdelta, ?_⟩) id)⟩
        simp [hoffset]

end Agreement

section Array

variable {transcript : List RenderedEntry} {itemId : String}

theorem findCurrentEntry_row :
    (findCurrentEntry transcript itemId none).map (·.2) =
      transcript.find? (·.itemId = some itemId) := by
  unfold findCurrentEntry
  cases hindex : transcript.findIdx? (·.itemId = some itemId) with
  | none =>
    have hno := List.findIdx?_eq_none_iff.mp hindex
    simpa using (List.find?_eq_none.mpr fun row hrow => by simpa using hno row hrow).symm
  | some index =>
    obtain ⟨hlt, hhit, hmiss⟩ := List.findIdx?_eq_some_iff_getElem.mp hindex
    have hfind : transcript.find? (·.itemId = some itemId) = some transcript[index] :=
      List.find?_eq_some_iff_getElem.mpr
        ⟨hhit, index, hlt, rfl, fun j hj => by simpa using hmiss j hj⟩
    simp [hfind, hlt]

theorem placeNextEntry_find {next : RenderedEntry} (hnext : next.itemId = some itemId) :
    (placeNextEntry transcript (findCurrentEntry transcript itemId none) next).find?
      (·.itemId = some itemId) = some next := by
  unfold findCurrentEntry
  cases hindex : transcript.findIdx? (·.itemId = some itemId) with
  | none =>
    have hno : transcript.find? (·.itemId = some itemId) = none :=
      List.find?_eq_none.mpr fun row hrow => by
        simpa using List.findIdx?_eq_none_iff.mp hindex row hrow
    simp [placeNextEntry, hno, hnext]
  | some index =>
    obtain ⟨hlt, hhit, hmiss⟩ := List.findIdx?_eq_some_iff_getElem.mp hindex
    simp only [Option.bind_some, List.getElem?_eq_getElem hlt, Option.map_some, placeNextEntry]
    refine List.find?_eq_some_iff_getElem.mpr ⟨by simp [hnext], index, by simpa using hlt,
      by simp, fun j hj => ?_⟩
    have hne : index ≠ j := by omega
    simpa [List.getElem_set_ne hne] using hmiss j hj

theorem deltaNextEntry_itemId {event : DeltaEvent} {gain : JsString} {kind : String} :
    (deltaNextEntry event itemId ((findCurrentEntry transcript itemId none).map (·.2)) gain
      kind).itemId = some itemId := by
  rw [findCurrentEntry_row]
  cases hfind : transcript.find? (·.itemId = some itemId) with
  | none => rfl
  | some row => simpa [deltaNextEntry] using List.find?_some hfind

end Array

theorem windowFollows_array (policy : DeltaPolicy) (session : RenderedSession)
    (transcript : List RenderedEntry) (event : DeltaEvent) (w : Window) (itemId threadId : String)
    (htranscript : session.transcript = some transcript)
    (hitem : truthy event.itemId = some itemId) (ht : threadId ≠ "")
    (haddressed : AddressedTo policy event threadId) (hw : w.threadId = some threadId)
    (hsame : SameItem (transcript.find? (·.itemId = some itemId)) w.entries[itemId]?) :
    WindowFollows (reduceTranscriptDeltaEvent policy (some session) event (some threadId) none)
        w.entries[itemId]? (w.applyTranscriptDeltaToWindow event.toDelta).1.entries[itemId]? ↔
      PathsMeet policy session event w.entries[itemId]? := by
  rw [← findCurrentEntry_row] at hsame
  rw [window_entry_after hitem hw ht haddressed.window]
  exact windowFollows_iff htranscript hitem haddressed hsame

/-- A live delta leaves a rendered array and a window that hold the same item in agreement
exactly when the inputs meet, and the array then shows the entry the reducer reports. -/
theorem delta_paths_agree_iff (policy : DeltaPolicy) (session : RenderedSession)
    (transcript : List RenderedEntry) (event : DeltaEvent) (w : Window) (itemId threadId : String)
    (htranscript : session.transcript = some transcript)
    (hitem : truthy event.itemId = some itemId) (ht : threadId ≠ "")
    (haddressed : AddressedTo policy event threadId) (hw : w.threadId = some threadId)
    (hsame : SameItem (transcript.find? (·.itemId = some itemId)) w.entries[itemId]?) :
    let outcome := reduceTranscriptDeltaEvent policy (some session) event (some threadId) none
    let after := (w.applyTranscriptDeltaToWindow event.toDelta).1
    (WindowFollows outcome w.entries[itemId]? after.entries[itemId]? ↔
        PathsMeet policy session event w.entries[itemId]?) ∧
      (outcome.kind = .append → ∀ rows, outcome.nextTranscript = some rows →
        rows.find? (·.itemId = some itemId) = outcome.entryPatch) := by
  refine ⟨windowFollows_array policy session transcript event w itemId threadId htranscript hitem
    ht haddressed hw hsame, fun happend rows hrows => ?_⟩
  have hreduce := reduceTranscriptDeltaEvent_addressed none htranscript hitem haddressed
  dsimp only at hreduce
  split at hreduce
  · exact absurd happend hreduce
  · obtain ⟨placed, -, hplaced⟩ := hreduce
    rw [hplaced] at happend hrows ⊢
    obtain ⟨located, gain, kind, hout⟩ :=
      reducePlacedDelta_cases.resolve_left (not_not.mpr happend)
    rw [hout] at hrows ⊢
    simp only [deltaAppend] at hrows ⊢
    split at hrows
    · rw [← Option.some.inj hrows]
      exact placeNextEntry_find deltaNextEntry_itemId
    · nomatch hrows

section Runs

def heldRow (status : String) : RenderedEntry :=
  { itemId := some "item-1", turnId := some "turn-1", text := some (utf16 "Hello")
    kind := some "command", status := some status, tool := none, entrySeq := some 3 }

def heldEntry (status : String) : Entry :=
  { itemId := "item-1", kind := "command", text := some (utf16 "Hello"), status := status
    turnId := some "turn-1", tool := none, entrySeq := some 3, contentState := .full }

def heldSession (transcript : List RenderedEntry) : RenderedSession :=
  { activeThreadId := some "thread-1", transcriptRevision := some 1
    transcript := some transcript }

def heldWindow (status : String) : Window :=
  { threadId := some "thread-1", entries := (∅ : Table Entry).insert "item-1" (heldEntry status)
    order := ["item-1"] }

def overlapEvent : DeltaEvent :=
  { threadId := some "thread-1", itemId := some "item-1", delta := some (utf16 "lo world")
    deltaKind := some "command_output", textOffset := some 3, revision := some 2 }

def emptyEvent : DeltaEvent :=
  { threadId := some "thread-1", itemId := some "item-1", delta := some []
    deltaKind := some "command_output", revision := some 2, baseRevision := some 1 }

def emptyTurnEvent : DeltaEvent :=
  { threadId := some "thread-1", itemId := some "item-1", turnId := some ""
    delta := some (utf16 "Hi"), textOffset := some 0 }

theorem heldWindow_entry (status : String) :
    (heldWindow status).entries["item-1"]? = some (heldEntry status) := by
  simp [heldWindow]

/-- A delta that repeats and extends the held text meets. -/
theorem overlap_paths_agree :
    WindowFollows
        (reduceTranscriptDeltaEvent {} (some (heldSession [heldRow "running"])) overlapEvent
          (some "thread-1") none)
        (heldWindow "running").entries["item-1"]?
        ((heldWindow "running").applyTranscriptDeltaToWindow
          overlapEvent.toDelta).1.entries["item-1"]? := by
  refine (delta_paths_agree_iff {} (heldSession [heldRow "running"]) [heldRow "running"]
    overlapEvent (heldWindow "running") "item-1" "thread-1" rfl (by decide) (by decide)
    (.inl (by decide)) rfl ?_).1.mpr ?_
  · rw [heldWindow_entry]
    exact ⟨rfl, rfl, rfl⟩
  · have hguard : guardRefuses {} (heldSession [heldRow "running"]) overlapEvent = false := by
      decide
    have hfilled : acceptedEmpty {} overlapEvent = false := by decide
    rw [heldWindow_entry]
    exact ⟨by simp [hguard], by simp [hfilled], by simp, by simp⟩

/-- An empty delta of a command marks the array's row running and leaves the window's entry
completed; a first delta that names the empty turn keeps it in the array only. -/
theorem delta_paths_drift :
    (¬WindowFollows
        (reduceTranscriptDeltaEvent remoteDeltaPolicy
          (some (heldSession [heldRow "completed"])) emptyEvent (some "thread-1") none)
        (heldWindow "completed").entries["item-1"]?
        ((heldWindow "completed").applyTranscriptDeltaToWindow
          emptyEvent.toDelta).1.entries["item-1"]?) ∧
      ¬WindowFollows
        (reduceTranscriptDeltaEvent {} (some (heldSession [])) emptyTurnEvent
          (some "thread-1") none)
        ({ threadId := some "thread-1" } : Window).entries["item-1"]?
        (({ threadId := some "thread-1" } : Window).applyTranscriptDeltaToWindow
          emptyTurnEvent.toDelta).1.entries["item-1"]? := by
  constructor
  · have hsame : SameItem ([heldRow "completed"].find? (·.itemId = some "item-1"))
        (heldWindow "completed").entries["item-1"]? := by
      rw [heldWindow_entry]
      exact ⟨rfl, rfl, rfl⟩
    rw [windowFollows_array _ _ [heldRow "completed"] _ _ _ _ rfl (by decide) (by decide)
      (.inl (by decide)) rfl hsame]
    intro hmeet
    have hsettled := hmeet.empty (by decide) (by decide) _ (heldWindow_entry "completed")
    exact absurd hsettled.1 (by decide)
  · rw [windowFollows_array _ _ [] _ _ _ _ rfl (by decide) (by decide) (.inl (by decide)) rfl
      (by simp [SameItem])]
    intro hmeet
    exact hmeet.turn (by decide) (by simp) (.inl (by decide)) rfl

end Runs

end AgentRelay.Hydration
