import AgentRelay.LocalPlaces

/-! A delta that is delivered again: text that names its place in the item is recognized by its
length, text that does not is appended once more. -/
namespace AgentRelay.Hydration
open Text Relay StepRun

def DeltaEvent.reach (event : DeltaEvent) : Nat :=
  event.textOffset.elim 0 (· + (event.delta.getD []).length)

namespace LocalClient

/-- The place turns the delta away: it starts past the text, or says otherwise. -/
def Refuses (c : LocalClient) (event : DeltaEvent) (itemId : String) (place : Place) : Prop :=
  ∃ offset, event.textOffset = some offset ∧ ((c.textAt itemId place).length < offset ∨
    resolveDeltaAppend (c.textAt itemId place) (event.delta.getD []) event.textOffset = none)

def Reached (event : DeltaEvent) (itemId : String) (c : LocalClient) : Prop :=
  ∀ place, c.takes event place → event.reach ≤ (c.textAt itemId place).length

section reached
variable {c d : LocalClient} {event : DeltaEvent} {itemId : String} {place : Place}

theorem Reached.follows (h : c.Reached event itemId) (hfollows : c.Follows event d) :
    d.Reached event itemId := by
  intro place htakes
  rw [hfollows.places.takes] at htakes
  exact (h place htakes).trans (hfollows.grows place htakes itemId)

theorem gain_eq_nil_iff {text : JsString} (hreach : event.reach ≤ text.length) :
    gain text event = [] ↔
      (numericOffset event.textOffset).isSome ∨ event.delta.getD [] = [] := by
  cases hnumeric : numericOffset event.textOffset with
  | none => simp [gain_offsetless hnumeric]
  | some offset =>
    rw [DeltaEvent.reach, numericOffset_eq hnumeric] at hreach
    simp [gain_covered hnumeric hreach]

/-- Where the text reaches as far as the delta, nothing is lacking if the delta has a numeric
offset or is empty, and otherwise all of it. -/
theorem gainAt_eq_nil_iff (hreach : event.reach ≤ (c.textAt itemId place).length) :
    c.gainAt event itemId place = [] ↔
      (numericOffset event.textOffset).isSome ∨ event.delta.getD [] = [] := by
  cases place with
  | window =>
    rw [gainAt]
    cases hheld : c.window.entries[itemId]? with
    | some entry =>
      rw [textAt, Window.textOf_some hheld] at hreach
      exact gain_eq_nil_iff hreach
    | none =>
      rw [textAt, Window.textOf_none hheld] at hreach
      cases hoffset : event.textOffset with
      | none => simp [windowGain, startsAtZero, hoffset, numericOffset, safeInteger]
      | some offset =>
        have hempty : event.delta.getD [] = [] := by
          rw [DeltaEvent.reach, hoffset] at hreach
          have hlength : (event.delta.getD []).length = 0 := by
            simp only [Option.elim_some, List.length_nil] at hreach
            omega
          exact List.eq_nil_of_length_eq_zero hlength
        simp [windowGain_empty hempty, hempty]
  | transcript => exact gain_eq_nil_iff hreach
  | pin => exact gain_eq_nil_iff hreach
  | orchestrator => exact gain_eq_nil_iff hreach

theorem reached_deliver (honly : transcriptEventThreadId event = truthy event.threadId)
    (hitem : truthy event.itemId = some itemId)
    (htaken : ∀ place, c.takes event place → ¬c.Refuses event itemId place) :
    (c.applyLocalTranscriptEntryDelta event).Reached event itemId := by
  intro place htakes
  have hfollows : c.Follows event (c.applyLocalTranscriptEntryDelta event) := follows_deliver
  rw [hfollows.places.takes] at htakes
  have hopen := htaken place htakes
  rw [textAt_deliver honly hitem htakes]
  cases hoffset : event.textOffset with
  | none => simp [DeltaEvent.reach, hoffset]
  | some offset =>
    simp only [Refuses, hoffset, Option.some.injEq, exists_eq_left', not_or, not_lt] at hopen
    obtain ⟨hwithin, hresolves⟩ := hopen
    rw [← hoffset] at hresolves
    have hgain := length_gain hoffset hwithin hresolves
    rw [DeltaEvent.reach, hoffset]
    cases place with
    | window =>
      rw [gainAt]
      cases hheld : c.window.entries[itemId]? with
      | some entry =>
        rw [textAt, Window.textOf_some hheld] at hgain ⊢
        exact hgain
      | none =>
        rw [textAt, Window.textOf_none hheld] at hwithin ⊢
        obtain rfl : offset = 0 := by simpa using hwithin
        simp [windowGain, startsAtZero, hoffset]
    | transcript => exact hgain
    | pin => exact hgain
    | orchestrator => exact hgain

end reached

/-- What the local surface takes in: deltas of any thread, and what the loaded window merges. -/
inductive LocalStep
  | deliver (event : DeltaEvent)
  | merge (op : WindowOp)

def step (c : LocalClient) : LocalStep → LocalClient
  | .deliver event => c.applyLocalTranscriptEntryDelta event
  | .merge op => { c with window := c.window.step op }

/-- A merge finds the window loaded for the active thread, and leaves it so. -/
def Merging (c : LocalClient) : LocalStep → Prop
  | .deliver _ => True
  | .merge op => c.windowLoaded ∧ (c.step (.merge op)).windowLoaded

theorem follows_step {c : LocalClient} {event : DeltaEvent} {next : LocalStep}
    (h : c.Merging next) : c.Follows event (c.step next) := by
  cases next with
  | deliver delivered => exact follows_deliver
  | merge op =>
    refine ⟨⟨rfl, rfl, h.2.trans h.1.symm, rfl, rfl, rfl⟩, fun place _ other => ?_⟩
    cases place with
    | window => exact length_textOf_le (grows_step op) other
    | transcript => exact le_rfl
    | pin => exact le_rfl
    | orchestrator => exact le_rfl

def Includes (c : LocalClient) (event : DeltaEvent) (itemId text : String) : Prop :=
  ∀ place, c.takes event place → utf16 text <+: c.textAt itemId place

def LeavesText (event : DeltaEvent) (itemId : String) (c : LocalClient) : Prop :=
  ∀ place, c.takes event place →
    (c.applyLocalTranscriptEntryDelta event).textAt itemId place = c.textAt itemId place

section published
variable {c : LocalClient} {event : DeltaEvent} {itemId : String}

theorem takes_item (hitem : event.itemId = some itemId) {place : Place}
    (htakes : c.takes event place) : truthy event.itemId = some itemId := by
  have hsome : (truthy event.itemId).isSome := by
    unfold LocalClient.takes at htakes
    simp only [Bool.and_eq_true] at htakes
    exact htakes.1.1
  rw [hitem] at hsome ⊢
  simpa [truthy] using hsome

theorem textAt_deliver_iff (honly : transcriptEventThreadId event = truthy event.threadId)
    (hitem : event.itemId = some itemId) (hreached : c.Reached event itemId) {place : Place}
    (htakes : c.takes event place) :
    (c.applyLocalTranscriptEntryDelta event).textAt itemId place = c.textAt itemId place ↔
      (numericOffset event.textOffset).isSome ∨ event.delta.getD [] = [] := by
  rw [textAt_deliver honly (takes_item hitem htakes) htakes, List.append_right_eq_self,
    gainAt_eq_nil_iff (hreached place htakes)]

theorem leavesText_iff (honly : transcriptEventThreadId event = truthy event.threadId)
    (hitem : event.itemId = some itemId) (hreached : c.Reached event itemId) :
    c.LeavesText event itemId ↔ (numericOffset event.textOffset).isSome ∨
      event.delta.getD [] = [] ∨ ∀ place, ¬c.takes event place := by
  by_cases htaken : ∃ place, c.takes event place
  · obtain ⟨place, htakes⟩ := htaken
    constructor
    · intro hleaves
      exact ((textAt_deliver_iff honly hitem hreached htakes).mp
        (hleaves place htakes)).imp_right Or.inl
    · rintro (hnumeric | hempty | hnone)
      · exact fun place htakes =>
          (textAt_deliver_iff honly hitem hreached htakes).mpr (Or.inl hnumeric)
      · exact fun place htakes =>
          (textAt_deliver_iff honly hitem hreached htakes).mpr (Or.inr hempty)
      · exact absurd htakes (hnone place)
  · have hnone : ∀ place, ¬c.takes event place := fun place htakes => htaken ⟨place, htakes⟩
    exact ⟨fun _ => Or.inr (Or.inr hnone), fun _ place htakes => absurd htakes (hnone place)⟩

theorem window_leavesText_iff (hitem : event.itemId = some itemId)
    (hreached : c.Reached event itemId) (htakes : c.takes event .window) :
    (c.window.applyTranscriptDeltaToWindow event.toDelta).1.textOf itemId =
        c.window.textOf itemId ↔
      (numericOffset event.textOffset).isSome ∨ event.delta.getD [] = [] := by
  have htruthy := takes_item hitem htakes
  have hlong := hreached .window htakes
  unfold LocalClient.takes at htakes
  simp only [Bool.and_eq_true, Bool.not_eq_true'] at htakes
  obtain ⟨threadId, hthread, hne, hname⟩ := loaded_thread htakes.2.2 htakes.2.1
  have htext := @textOf_deliver c.window event threadId hthread hne hname itemId
  rw [if_pos htruthy] at htext
  change (c.window.deliver event.toDelta).textOf itemId = _ ↔ _
  rw [htext, List.append_right_eq_self]
  exact gainAt_eq_nil_iff hlong

end published

end LocalClient

section relay
variable (s : RelayState) (now : Nat) (call : DeltaCall)

theorem textOffset_deltaCall : (s.deltaCall now call).2.textOffset =
    if call.isAgent then
      some (utf16 (s.scopedText (call.scope s.activeThreadId) call.itemId)).length
    else none := by
  have hthread (threadId itemId delta turnId : String) :
      (s.appendAgentDeltaForThread now threadId itemId delta turnId).2.textOffset =
        some (utf16 (s.scopedText (some threadId) itemId)).length := by
    unfold RelayState.scopedText
    rw [← RelayState.recordsOf_ensure s now threadId]
    rfl
  cases call with
  | agent itemId delta turnId =>
    cases hactive : s.activeThreadId with
    | none =>
      simp only [RelayState.deltaCall, RelayState.appendAgentDelta, hactive]
      rfl
    | some threadId =>
      simp only [RelayState.deltaCall, RelayState.appendAgentDelta, hactive]
      exact hthread threadId itemId delta turnId
  | agentForThread threadId itemId delta turnId => exact hthread threadId itemId delta turnId
  | command itemId delta =>
    cases hactive : s.activeThreadId with
    | none =>
      simp only [RelayState.deltaCall, RelayState.appendCommandDelta, hactive]
      rfl
    | some threadId =>
      simp only [RelayState.deltaCall, RelayState.appendCommandDelta, hactive]
      rfl
  | commandForThread threadId itemId delta => rfl

theorem wireDelta_agent (h : call.isAgent) :
    (s.deltaCall now call).2.wireDelta call.delta = call.delta := by
  cases call with
  | agent itemId delta turnId =>
    simp only [RelayState.deltaCall, RelayState.appendAgentDelta]
    split <;> rfl
  | agentForThread threadId itemId delta turnId => rfl
  | command itemId delta => cases h
  | commandForThread threadId itemId delta => cases h

def textBefore : String := s.scopedText (call.scope s.activeThreadId) call.itemId

def textAfter : String :=
  (s.deltaCall now call).1.scopedText (call.scope s.activeThreadId) call.itemId

theorem textAfter_eq : textAfter s now call = call.appendTo (textBefore s call) := by
  have hscope : call.scope s.activeThreadId = none → s.activeThreadId = none := by
    cases call <;> simp [DeltaCall.scope]
  have h := RelayState.scopedText_callStep s (now, call) hscope call.itemId
  rw [if_pos ⟨rfl, rfl⟩] at h
  exact h

theorem length_utf16Char (c : Char) : 0 < (utf16Char c).length := by
  unfold utf16Char
  split_ifs <;> simp

theorem utf16_eq_nil (text : String) : utf16 text = [] ↔ text = "" := by
  rw [utf16, List.flatMap_eq_nil_iff, ← String.toList_eq_nil_iff, List.eq_nil_iff_forall_not_mem]
  refine forall₂_congr fun c _ => ?_
  rw [iff_false]
  exact List.length_pos_iff.mp (length_utf16Char c)

theorem reach_le (threadId : String) (turnId : Option String) {text : JsString}
    (h : utf16 (textAfter s now call) <+: text) :
    (publishedEvent s now threadId turnId call).reach ≤ text.length := by
  rw [DeltaEvent.reach]
  simp only [publishedEvent, textOffset_deltaCall, Option.getD_some]
  by_cases hagent : call.isAgent
  · have hafter : textAfter s now call = textBefore s call ++ call.delta := by
      rw [textAfter_eq]
      cases call <;> first | rfl | cases hagent
    rw [if_pos hagent, wireDelta_agent s now call hagent, Option.elim_some]
    refine le_trans (le_of_eq ?_) h.length_le
    rw [hafter, utf16_append, List.length_append]
    rfl
  · rw [if_neg hagent]
    exact Nat.zero_le _

end relay

open LocalClient

/-- Deltas that are delivered again. From a snapshot that includes the delta, or an earlier
delivery that no place refused, and through whatever deltas and merges follow, delivering it once
more leaves the item's text as it is exactly when it is agent text at an offset that JavaScript
holds exactly, or it is empty, or no place takes it. -/
theorem redelivered_delta_iff (s : RelayState) (now : Nat) (threadId : String)
    (turnId : Option String) (call : DeltaCall) (base : LocalClient) (steps : List LocalStep)
    (hbase : base.Includes (publishedEvent s now threadId turnId call) call.itemId
        (textAfter s now call) ∨
      ∃ before : LocalClient, base = before.applyLocalTranscriptEntryDelta
          (publishedEvent s now threadId turnId call) ∧
        ∀ place, before.takes (publishedEvent s now threadId turnId call) place →
          ¬before.Refuses (publishedEvent s now threadId turnId call) call.itemId place)
    (hsteps : Along step Merging base steps) :
    Always step (fun c =>
      (c.LeavesText (publishedEvent s now threadId turnId call) call.itemId ↔
        (call.isAgent ∧ (utf16 (textBefore s call)).length ≤ maxSafeInteger) ∨
          (s.deltaCall now call).2.wireDelta call.delta = "" ∨
          ∀ place, ¬c.takes (publishedEvent s now threadId turnId call) place) ∧
      (c.takes (publishedEvent s now threadId turnId call) .window →
        ((c.window.applyTranscriptDeltaToWindow
            (publishedEvent s now threadId turnId call).toDelta).1.textOf call.itemId =
              c.window.textOf call.itemId ↔
          (call.isAgent ∧ (utf16 (textBefore s call)).length ≤ maxSafeInteger) ∨
            (s.deltaCall now call).2.wireDelta call.delta = ""))) base steps := by
  have honly : transcriptEventThreadId (publishedEvent s now threadId turnId call) =
      truthy (publishedEvent s now threadId turnId call).threadId := by
    simp [transcriptEventThreadId, publishedEvent, truthy]
  have hnumeric :
      (numericOffset (publishedEvent s now threadId turnId call).textOffset).isSome ↔
        call.isAgent ∧ (utf16 (textBefore s call)).length ≤ maxSafeInteger := by
    simp only [publishedEvent, textOffset_deltaCall, textBefore]
    by_cases hagent : call.isAgent <;> simp [hagent, numericOffset, safeInteger]
  have hempty : (publishedEvent s now threadId turnId call).delta.getD [] = [] ↔
      (s.deltaCall now call).2.wireDelta call.delta = "" := utf16_eq_nil _
  have hstart : base.Reached (publishedEvent s now threadId turnId call) call.itemId := by
    rcases hbase with hincludes | ⟨before, rfl, hopen⟩
    · exact fun place htakes => reach_le s now call threadId turnId (hincludes place htakes)
    · by_cases hitem : truthy (some call.itemId) = some call.itemId
      · exact reached_deliver honly hitem hopen
      · intro place htakes
        exact absurd (takes_item rfl htakes) hitem
  have hreached : Always step
      (LocalClient.Reached (publishedEvent s now threadId turnId call) call.itemId) base steps :=
    always_of_step (fun c next hc hnext => hc.follows (follows_step hnext)) hstart hsteps
  refine hreached.mono fun c hc => ⟨?_, fun htakes => ?_⟩
  · rw [leavesText_iff honly rfl hc, hnumeric, hempty]
  · rw [window_leavesText_iff rfl hc htakes, hnumeric, hempty]

/-- A conversation with nothing in it yet, before its first hydration. -/
def coldClient : LocalClient :=
  { session :=
      { activeThreadId := some "t", transcriptRevision := some 1, transcript := some [] } }

/-- The same conversation with an empty command in its window. -/
def warmClient : LocalClient :=
  { coldClient with
    window :=
      { threadId := some "t", order := ["c"]
        entries := (∅ : Table Entry).insert "c"
          { itemId := "c", kind := "command", text := none, status := "running", turnId := none
            tool := none, contentState := .full } } }

def spokenEvent : DeltaEvent :=
  publishedEvent (RelayState.new "/w") 1 "t" none (.agentForThread "t" "m" "Hé" "turn")

def outputEvent : DeltaEvent :=
  publishedEvent (RelayState.new "/w") 1 "t" none (.commandForThread "t" "c" "ok\n")

/-- Agent text that arrives a second and a third time, with output of a command in between. -/
theorem redelivered_delta_iff_spoken :
    Always step (LeavesText spokenEvent "m")
      (coldClient.applyLocalTranscriptEntryDelta spokenEvent)
      [.deliver outputEvent, .deliver spokenEvent] := by
  refine (redelivered_delta_iff (RelayState.new "/w") 1 "t" none
    (.agentForThread "t" "m" "Hé" "turn") _ [.deliver outputEvent, .deliver spokenEvent]
    (Or.inr ⟨coldClient, rfl, fun place _ hrefuses => ?_⟩) ⟨trivial, trivial, trivial⟩).mono
    fun c hc => hc.1.mpr (Or.inl ⟨rfl, by decide +kernel⟩)
  obtain ⟨offset, hoffset, hrefused⟩ := hrefuses
  have hzero : offset = 0 := by
    have hsome : (some 0 : Option Nat) = some offset := hoffset
    exact (Option.some.inj hsome).symm
  have hnone : coldClient.textAt "m" place = [] := by
    cases place <;> simp [textAt, coldClient, rowText, Window.textOf]
  rcases hrefused with hgap | hdiffers
  · omega
  · rw [show (DeltaCall.agentForThread "t" "m" "Hé" "turn").itemId = "m" from rfl, hnone]
      at hdiffers
    revert hdiffers
    decide +kernel

/-- Command output that is delivered twice stands there twice, in the rendered transcript and in
the window. -/
theorem redelivered_output_doubled :
    (coldClient.applyLocalTranscriptEntryDelta outputEvent).textAt "c" .transcript =
        utf16 "ok\n" ∧
      ((coldClient.applyLocalTranscriptEntryDelta outputEvent).applyLocalTranscriptEntryDelta
        outputEvent).textAt "c" .transcript = utf16 "ok\nok\n" ∧
      ((warmClient.applyLocalTranscriptEntryDelta outputEvent).applyLocalTranscriptEntryDelta
        outputEvent).textAt "c" .window = utf16 "ok\nok\n" := by
  decide +kernel

end AgentRelay.Hydration
