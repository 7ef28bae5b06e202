import AgentRelay.HydrationWindow
import AgentRelay.StepRun
import AgentRelay.TranscriptOrder
import AgentRelay.TranscriptRefinement

/-! The stream of agent deltas, from the relay that appends them to the window that
rebuilds the text. Each delta says at which UTF-16 offset it was appended. -/
namespace AgentRelay.Relay
open Text

theorem writeItem_cons (x : TranscriptRecord) (xs : List TranscriptRecord) (itemId : String)
    (onto : TranscriptRecord → TranscriptRecord) (fresh : TranscriptRecord) :
    (writeItem (x :: xs) itemId onto fresh).1 =
      if x.itemId = itemId then onto x :: xs else x :: (writeItem xs itemId onto fresh).1 := by
  unfold writeItem
  rw [List.findIdx?_cons]
  by_cases h : x.itemId = itemId
  · simp [h]
  · simp only [h, decide_false, Bool.false_eq_true, if_false]
    cases hf : xs.findIdx? (fun r => decide (r.itemId = itemId)) with
    | none => simp
    | some k => simp

theorem itemText_cons (x : TranscriptRecord) (xs : List TranscriptRecord) (itemId : String) :
    itemText (x :: xs) itemId =
      if x.itemId = itemId then x.text.getD "" else itemText xs itemId := by
  unfold itemText
  rw [List.find?_cons]
  by_cases h : x.itemId = itemId
  · simp [h]
  · simp [h]

theorem itemText_writeItem_of {onto : TranscriptRecord → TranscriptRecord}
    {fresh : TranscriptRecord} {itemId : String} {f : String → String}
    (honto : ∀ x, (onto x).itemId = x.itemId ∧ (onto x).text.getD "" = f (x.text.getD ""))
    (hfresh : fresh.itemId = itemId ∧ fresh.text.getD "" = f "")
    (records : List TranscriptRecord) (other : String) :
    itemText (writeItem records itemId onto fresh).1 other =
      if other = itemId then f (itemText records itemId) else itemText records other := by
  induction records with
  | nil =>
    by_cases h : other = itemId
    · simp [writeItem, itemText, hfresh, h]
    · have h' : itemId ≠ other := fun heq => h heq.symm
      simp [writeItem, itemText, hfresh, h, h']
  | cons x xs ih =>
    rw [writeItem_cons]
    by_cases hx : x.itemId = itemId
    · rw [if_pos hx, itemText_cons, itemText_cons, itemText_cons, (honto x).1, (honto x).2, hx]
      by_cases h : other = itemId
      · simp [h]
      · have h' : itemId ≠ other := fun heq => h heq.symm
        simp [h, h']
    · rw [if_neg hx, itemText_cons, itemText_cons, itemText_cons, ih, if_neg hx]
      by_cases h : other = itemId
      · simp [h, hx]
      · simp [h]

theorem itemText_writeItem (records : List TranscriptRecord) (itemId other delta turnId : String) :
    itemText (writeItem records itemId (agentDeltaOnto delta turnId)
        (freshAgentDelta itemId delta turnId)).1 other =
      if other = itemId then itemText records itemId ++ delta else itemText records other := by
  refine itemText_writeItem_of (f := (· ++ delta)) ?_ ?_ records other
  · exact fun x => ⟨rfl, rfl⟩
  · simp [freshAgentDelta]

namespace Transcripts

def contentOf (c : Transcripts) (threadId : String) : Content :=
  ((c.shown threadId).map (·.2)).getD emptyContent

theorem contentOf_ensure {c : Transcripts} {threadId : String} {entry : Nat × Content}
    (h : (c.ensure threadId).runtime threadId = some entry) : entry.2 = c.contentOf threadId := by
  unfold ensure at h
  unfold contentOf shown
  cases hr : c.runtime threadId with
  | some e =>
    simp only [hr, Option.isSome_some, if_true, Option.some.injEq] at h
    simp [h]
  | none =>
    simp only [hr, Option.isSome_none, Bool.false_eq_true, if_false] at h
    by_cases ha : c.active = some threadId
    · simp only [ha, if_true, putFresh, put, Function.update_self, Option.some.injEq] at h
      simp [ha, ← h]
    · simp only [ha, if_false, putFresh, put, Function.update_self, Option.some.injEq] at h
      simp [ha, ← h]

theorem contentOf_write_self (c : Transcripts) (threadId : String) (content : Content) :
    (c.write threadId content).contentOf threadId = content := by
  have hr : (c.write threadId content).runtime threadId =
      some ((c.ensure threadId).mint.clock, content) := by
    unfold write syncIf sync
    split_ifs
    · simp [putFresh, put]
    · simp [putFresh, put]
  simp [contentOf, shown_of_runtime hr]

theorem shown_ensure_of_ne (c : Transcripts) {threadId t : String} (h : t ≠ threadId) :
    (c.ensure threadId).shown t = c.shown t := by
  unfold ensure
  split_ifs
  · rfl
  · exact shown_put_of_ne c.mint _ h
  · exact shown_put_of_ne c.mint _ h

theorem shown_syncIf_of_ne (c : Transcripts) {threadId t : String} (h : t ≠ threadId) :
    (c.syncIf threadId).shown t = c.shown t := by
  unfold syncIf
  split_ifs with ha
  · have hne : threadId ≠ t := fun heq => h heq.symm
    have hactive : c.sync.active = some threadId := ha
    have hruntime : c.sync.runtime = c.runtime := rfl
    unfold shown
    rw [hruntime, hactive, ha]
    simp [hne]
  · rfl

theorem contentOf_write_of_ne (c : Transcripts) {threadId t : String} (content : Content)
    (h : t ≠ threadId) : (c.write threadId content).contentOf t = c.contentOf t := by
  unfold contentOf write
  rw [shown_syncIf_of_ne _ h]
  have hput : ((c.ensure threadId).putFresh threadId content).shown t = c.shown t :=
    (shown_put_of_ne (c.ensure threadId).mint _ h).trans (shown_ensure_of_ne c h)
  rw [hput]

end Transcripts

namespace RelayState

def shownRecords (s : RelayState) (threadId : String) : List TranscriptRecord :=
  match s.runtimes[threadId]? with
  | some rt => rt.transcript
  | none => if s.activeThreadId = some threadId then s.transcript else []

def agentText (s : RelayState) (threadId itemId : String) : String :=
  itemText (s.shownRecords threadId) itemId

theorem shownRecords_eq (s : RelayState) (threadId : String) :
    s.shownRecords threadId = (s.transcripts.contentOf threadId).1 := by
  rw [Transcripts.contentOf, shown_transcripts, shownRecords]
  cases s.runtimes[threadId]? with
  | none =>
    dsimp only
    split_ifs <;> rfl
  | some rt => rfl

theorem transcriptOf_ensure (s : RelayState) (now : Nat) (threadId : String) :
    (s.ensureRuntimeForThread now threadId).transcriptOf threadId = s.shownRecords threadId := by
  obtain ⟨rt, hrt⟩ := ensure_isSome s now threadId
  have hentry : (s.transcripts.ensure threadId).runtime threadId = some rt.entry := by
    rw [← transcripts_ensure s now]
    simp [transcripts, hrt]
  have hcontent : rt.content = s.transcripts.contentOf threadId :=
    Transcripts.contentOf_ensure hentry
  rw [shownRecords_eq, ← hcontent]
  simp [transcriptOf, hrt, ThreadRuntime.content]

theorem shownRecords_append (s : RelayState) (now : Nat) (threadId itemId delta turnId : String)
    (t : String) :
    (s.appendAgentDeltaForThread now threadId itemId delta turnId).1.shownRecords t =
      if t = threadId then (writeItem (s.shownRecords threadId) itemId
        (agentDeltaOnto delta turnId) (freshAgentDelta itemId delta turnId)).1
      else s.shownRecords t := by
  obtain ⟨rt, hrt⟩ := ensure_isSome s now threadId
  have hwrite := transcripts_write now hrt (fun rt => { rt with
    transcript := (writeItem ((s.ensureRuntimeForThread now threadId).transcriptOf threadId)
      itemId (agentDeltaOnto delta turnId) (freshAgentDelta itemId delta turnId)).1 })
  rw [transcripts_ensure, transcriptOf_ensure] at hwrite
  have happend : (s.appendAgentDeltaForThread now threadId itemId delta turnId).1.transcripts =
      s.transcripts.write threadId ((writeItem (s.shownRecords threadId) itemId
        (agentDeltaOnto delta turnId) (freshAgentDelta itemId delta turnId)).1, rt.applyStates) := by
    rw [appendAgentDeltaForThread, transcriptOf_ensure]
    exact hwrite
  rw [shownRecords_eq, happend]
  by_cases ht : t = threadId
  · subst ht
    rw [Transcripts.contentOf_write_self, if_pos rfl]
  · rw [Transcripts.contentOf_write_of_ne _ _ ht, if_neg ht, shownRecords_eq]

theorem agentText_append (s : RelayState) (now : Nat) (threadId itemId delta turnId : String)
    (t i : String) :
    (s.appendAgentDeltaForThread now threadId itemId delta turnId).1.agentText t i =
      if t = threadId ∧ i = itemId then s.agentText t i ++ delta else s.agentText t i := by
  unfold agentText
  rw [shownRecords_append]
  by_cases ht : t = threadId
  · subst ht
    rw [if_pos rfl, itemText_writeItem]
    by_cases hi : i = itemId
    · simp [hi]
    · simp [hi]
  · simp [ht]

theorem append_textOffset (s : RelayState) (now : Nat) (threadId itemId delta turnId : String) :
    (s.appendAgentDeltaForThread now threadId itemId delta turnId).2.textOffset =
      some (utf16 (s.agentText threadId itemId)).length := by
  unfold agentText
  rw [← transcriptOf_ensure s now threadId]
  rfl

end RelayState

structure AppendCall where
  now : Nat
  threadId : String
  itemId : String
  delta : String
  turnId : String
  deriving DecidableEq, Repr

namespace RelayState

def appendCall (s : RelayState) (call : AppendCall) : RelayState × TranscriptMutationMeta :=
  s.appendAgentDeltaForThread call.now call.threadId call.itemId call.delta call.turnId

def publishedDelta (s : RelayState) (call : AppendCall) : Hydration.Delta :=
  let mutation := (s.appendCall call).2
  { threadId := some call.threadId
    itemId := some call.itemId
    delta := utf16 (mutation.wireDelta call.delta)
    deltaKind := some "agent_text"
    textOffset := mutation.textOffset
    turnId := some call.turnId
    entrySeq := some mutation.entrySeq }

def appendAll (s : RelayState) (calls : List AppendCall) : RelayState :=
  StepRun.run (fun s call => (s.appendCall call).1) s calls

def publishedFor (threadId itemId : String) (s : RelayState) :
    List AppendCall → List Hydration.Delta
  | [] => []
  | call :: calls =>
    let rest := publishedFor threadId itemId (s.appendCall call).1 calls
    if call.threadId = threadId ∧ call.itemId = itemId then s.publishedDelta call :: rest else rest

end RelayState

end AgentRelay.Relay

namespace AgentRelay.Hydration
open Text Relay

/-- Deltas that take the text from `x` to `y`, each at the length it finds. -/
def Chain : JsString → List Delta → JsString → Prop
  | x, [], y => x = y
  | x, d :: ds, y => d.textOffset = some x.length ∧ Chain (x ++ d.delta) ds y

def Fits (text : JsString) (d : Delta) : Prop :=
  ∃ pre post, text = pre ++ d.delta ++ post ∧ d.textOffset = some pre.length

theorem Chain.grows {x y : JsString} {ds : List Delta} (h : Chain x ds y) : x <+: y := by
  induction ds generalizing x with
  | nil => exact h ▸ List.prefix_rfl
  | cons d ds ih => exact (List.prefix_append x d.delta).trans (ih h.2)

theorem Chain.fits {x y : JsString} {ds : List Delta} (h : Chain x ds y) {d : Delta}
    (hd : d ∈ ds) : Fits y d := by
  induction ds generalizing x with
  | nil => cases hd
  | cons d' ds ih =>
    obtain ⟨hoffset, hrest⟩ := h
    rcases List.mem_cons.mp hd with rfl | hd
    · obtain ⟨post, rfl⟩ := hrest.grows
      exact ⟨x, post, rfl, hoffset⟩
    · exact ih hrest hd

theorem chain_published (threadId itemId : String) (s : RelayState) (calls : List AppendCall) :
    Chain (utf16 (s.agentText threadId itemId)) (RelayState.publishedFor threadId itemId s calls)
      (utf16 ((s.appendAll calls).agentText threadId itemId)) := by
  induction calls generalizing s with
  | nil => rfl
  | cons call calls ih =>
    have hrest := ih (s.appendCall call).1
    have htext := RelayState.agentText_append s call.now call.threadId call.itemId call.delta
      call.turnId threadId itemId
    unfold RelayState.publishedFor
    by_cases h : call.threadId = threadId ∧ call.itemId = itemId
    · obtain ⟨rfl, rfl⟩ := h
      simp only [and_self, if_true]
      rw [if_pos ⟨rfl, rfl⟩] at htext
      refine ⟨RelayState.append_textOffset s call.now call.threadId call.itemId call.delta
        call.turnId, ?_⟩
      have hwire : (s.publishedDelta call).delta = utf16 call.delta := rfl
      rw [hwire, ← utf16_append, ← htext]
      exact hrest
    · simp only [h, if_false]
      have h' : ¬(threadId = call.threadId ∧ itemId = call.itemId) :=
        fun heq => h ⟨heq.1.symm, heq.2.symm⟩
      rw [if_neg h'] at htext
      rw [← htext]
      exact hrest

theorem safeInteger_of_le {n : Nat} (h : n ≤ maxSafeInteger) : safeInteger (some n) = some n := by
  simp [safeInteger, h]

/-- What a piece of the text adds to a prefix of it: nothing before its offset is reached,
nothing once it is covered, and in between exactly what is missing. -/
theorem resolveDeltaAppend_of_fits {text haveText delta pre post : JsString}
    (hsafe : text.length ≤ maxSafeInteger) (hhave : haveText <+: text)
    (htext : text = pre ++ delta ++ post) :
    resolveDeltaAppend haveText delta (some pre.length) =
      if haveText.length < pre.length then none
      else if pre.length + delta.length ≤ haveText.length then some []
      else some (delta.drop (haveText.length - pre.length)) := by
  have hpre : pre.length ≤ text.length := by simp [htext]
  have hdrop : haveText.drop pre.length <+: delta ++ post := by
    have h := hhave.drop pre.length
    rwa [htext, List.append_assoc, List.drop_left] at h
  -- The overlap is cut from the same text, so it cannot differ.
  have hoverlap : ∀ k, k ≤ haveText.length - pre.length → k ≤ delta.length →
      (haveText.drop pre.length).take k = delta.take k := by
    intro k hk hkd
    obtain ⟨rest, hrest⟩ := hdrop
    have hlen : k ≤ (haveText.drop pre.length).length := by rwa [List.length_drop]
    calc (haveText.drop pre.length).take k
        = (haveText.drop pre.length ++ rest).take k := (List.take_append_of_le_length hlen).symm
      _ = (delta ++ post).take k := by rw [hrest]
      _ = delta.take k := List.take_append_of_le_length hkd
  unfold resolveDeltaAppend
  rw [safeInteger_of_le (hpre.trans hsafe)]
  dsimp only
  have hsame := hoverlap (min (haveText.length - pre.length) delta.length)
    (min_le_left _ _) (min_le_right _ _)
  simp only [hsame, ne_eq, not_true_eq_false, and_false, if_false]

theorem append_missing {text haveText delta pre post : JsString} (hhave : haveText <+: text)
    (htext : text = pre ++ delta ++ post) (hle : pre.length ≤ haveText.length)
    (hlt : haveText.length ≤ pre.length + delta.length) :
    haveText ++ delta.drop (haveText.length - pre.length) = pre ++ delta := by
  have hpiece : pre ++ delta <+: text := ⟨post, htext.symm⟩
  have hsub : haveText <+: pre ++ delta :=
    List.prefix_of_prefix_length_le hhave hpiece (by simpa using hlt)
  have hdrop : (pre ++ delta).drop haveText.length = delta.drop (haveText.length - pre.length) := by
    rw [List.drop_append, List.drop_eq_nil_of_le hle, List.nil_append]
  calc haveText ++ delta.drop (haveText.length - pre.length)
      = (pre ++ delta).take haveText.length ++ (pre ++ delta).drop haveText.length := by
        rw [hdrop, ← List.prefix_iff_eq_take.mp hsub]
    _ = pre ++ delta := List.take_append_drop _ _

section ApplyDelta

variable {existing : Entry} {d : Delta}

theorem applyDeltaToEntry_refused
    (h : resolveDeltaAppend (existing.text.getD []) d.delta d.textOffset = none) :
    applyDeltaToEntry existing d = ({ existing with contentState := .preview }, false) := by
  simp only [applyDeltaToEntry, h]

theorem applyDeltaToEntry_covered
    (h : resolveDeltaAppend (existing.text.getD []) d.delta d.textOffset = some []) :
    applyDeltaToEntry existing d = (existing, false) := by
  simp only [applyDeltaToEntry, h]

theorem applyDeltaToEntry_grown {x : JsString} (hx : x ≠ [])
    (h : resolveDeltaAppend (existing.text.getD []) d.delta d.textOffset = some x) :
    (applyDeltaToEntry existing d).1.text = some (existing.text.getD [] ++ x) ∧
      (applyDeltaToEntry existing d).1.contentState = .full := by
  obtain ⟨c, cs, rfl⟩ := List.exists_cons_of_ne_nil hx
  simp only [applyDeltaToEntry, h, and_self]

/-- An entry whose text is a prefix takes a delta that fits: the text stays a prefix, does
not shrink, reaches the end of the delta unless refused, and a covered one is a no-op. -/
theorem applyDeltaToEntry_of_fits {text : JsString} (hsafe : text.length ≤ maxSafeInteger)
    (hhave : existing.text.getD [] <+: text) {pre post : JsString}
    (htext : text = pre ++ d.delta ++ post) (hoffset : d.textOffset = some pre.length) :
    ((applyDeltaToEntry existing d).1.text.getD [] <+: text) ∧
      (existing.text.getD []).length ≤ ((applyDeltaToEntry existing d).1.text.getD []).length ∧
      (resolveDeltaAppend (existing.text.getD []) d.delta d.textOffset ≠ none →
        pre.length + d.delta.length ≤ ((applyDeltaToEntry existing d).1.text.getD []).length) ∧
      (pre.length + d.delta.length ≤ (existing.text.getD []).length →
        applyDeltaToEntry existing d = (existing, false)) := by
  have hresolve := resolveDeltaAppend_of_fits hsafe hhave htext
  rw [← hoffset] at hresolve
  by_cases hgap : (existing.text.getD []).length < pre.length
  · rw [if_pos hgap] at hresolve
    rw [applyDeltaToEntry_refused hresolve]
    exact ⟨hhave, le_rfl, fun h => absurd hresolve h, fun h => by omega⟩
  · rw [if_neg hgap] at hresolve
    by_cases hcov : pre.length + d.delta.length ≤ (existing.text.getD []).length
    · rw [if_pos hcov] at hresolve
      rw [applyDeltaToEntry_covered hresolve]
      exact ⟨hhave, le_rfl, fun _ => hcov, fun _ => rfl⟩
    · rw [if_neg hcov] at hresolve
      have hmissing : d.delta.drop ((existing.text.getD []).length - pre.length) ≠ [] := by
        intro hnil
        have hlen := congrArg List.length hnil
        rw [List.length_drop, List.length_nil] at hlen
        omega
      rw [(applyDeltaToEntry_grown hmissing hresolve).1, Option.getD_some,
        append_missing hhave htext (by omega) (by omega)]
      refine ⟨⟨post, htext.symm⟩, ?_, fun _ => ?_, fun h => absurd h hcov⟩
      · rw [List.length_append]
        omega
      · rw [List.length_append]

end ApplyDelta

def Addressed (threadId itemId : String) (d : Delta) : Prop :=
  truthy d.itemId = some itemId ∧ (truthy d.threadId).getD threadId = threadId

namespace Window

def textOf (w : Window) (itemId : String) : JsString :=
  (w.entries[itemId]?.bind (·.text)).getD []

def deliver (w : Window) (d : Delta) : Window := (w.applyTranscriptDeltaToWindow d).1

/-- The window turns the delta away: text before it is missing. -/
def Refuses (w : Window) (itemId : String) (d : Delta) : Prop :=
  match w.entries[itemId]? with
  | some existing => resolveDeltaAppend (existing.text.getD []) d.delta d.textOffset = none
  | none => startsAtZero d = false

instance (w : Window) (itemId : String) (d : Delta) : Decidable (w.Refuses itemId d) :=
  match h : w.entries[itemId]? with
  | some existing =>
    decidable_of_iff (resolveDeltaAppend (existing.text.getD []) d.delta d.textOffset = none)
      (by simp [Refuses, h])
  | none => decidable_of_iff (startsAtZero d = false) (by simp [Refuses, h])

theorem textOf_some {w : Window} {itemId : String} {e : Entry} (h : w.entries[itemId]? = some e) :
    w.textOf itemId = e.text.getD [] := by
  simp [textOf, h]

theorem textOf_none {w : Window} {itemId : String} (h : w.entries[itemId]? = none) :
    w.textOf itemId = [] := by
  simp [textOf, h]

section Deliver

variable {w : Window} {threadId itemId : String} {d : Delta}

theorem deliver_threadId : (w.deliver d).threadId = w.threadId := by
  unfold deliver applyTranscriptDeltaToWindow
  split
  · split_ifs
    · rfl
    · split <;> rfl
  · rfl

theorem deliver_other (hthread : w.threadId = some threadId) (h : ¬Addressed threadId itemId d) :
    (w.deliver d).entries[itemId]? = w.entries[itemId]? := by
  unfold deliver applyTranscriptDeltaToWindow
  rw [hthread]
  cases hi : truthy d.itemId with
  | none => rfl
  | some i =>
    cases ht : truthy (some threadId) with
    | none => rfl
    | some t =>
      obtain rfl : threadId = t := by
        simp only [truthy, Option.filter_some] at ht
        split_ifs at ht
        exact Option.some.inj ht
      dsimp only
      split_ifs with hother
      · rfl
      · have hne : i ≠ itemId := by
          rintro rfl
          exact h ⟨hi, not_ne_iff.mp hother⟩
        split <;> simp [Std.ExtTreeMap.getElem?_insert, hne]

theorem applyDelta_some (hthread : w.threadId = some threadId) (ht : threadId ≠ "")
    (h : Addressed threadId itemId d) {e : Entry} (he : w.entries[itemId]? = some e) :
    w.applyTranscriptDeltaToWindow d =
      ({ w with entries := w.entries.insert itemId (applyDeltaToEntry e d).1 },
        (applyDeltaToEntry e d).2) := by
  have htruthy : truthy (some threadId) = some threadId := by simp [truthy, ht]
  unfold applyTranscriptDeltaToWindow
  simp only [hthread, htruthy, h.1, h.2, he, ne_eq, not_true_eq_false, if_false]

theorem applyDelta_none (hthread : w.threadId = some threadId) (ht : threadId ≠ "")
    (h : Addressed threadId itemId d) (he : w.entries[itemId]? = none) :
    w.applyTranscriptDeltaToWindow d =
      ({ w with
          entries := w.entries.insert itemId (firstDeltaEntry itemId d)
          order := w.order ++ [itemId] }, startsAtZero d) := by
  have htruthy : truthy (some threadId) = some threadId := by simp [truthy, ht]
  unfold applyTranscriptDeltaToWindow
  simp only [hthread, htruthy, h.1, h.2, he, ne_eq, not_true_eq_false, if_false]

theorem insert_self {V : Type} {m : Table V} {key : String} {value : V}
    (h : m[key]? = some value) : m.insert key value = m := by
  apply Std.ExtTreeMap.ext_getElem?
  intro k
  rw [Std.ExtTreeMap.getElem?_insert]
  split_ifs with hk
  · rw [Std.LawfulEqCmp.eq_of_compare hk] at h
    exact h.symm
  · rfl

theorem deliver_fits (hthread : w.threadId = some threadId) (ht : threadId ≠ "")
    (h : Addressed threadId itemId d) {text : JsString} (hsafe : text.length ≤ maxSafeInteger)
    (hhave : w.textOf itemId <+: text) {pre post : JsString}
    (htext : text = pre ++ d.delta ++ post) (hoffset : d.textOffset = some pre.length) :
    (w.deliver d).textOf itemId <+: text ∧
      (w.textOf itemId).length ≤ ((w.deliver d).textOf itemId).length ∧
      (¬w.Refuses itemId d → pre.length + d.delta.length ≤ ((w.deliver d).textOf itemId).length) ∧
      ((w.entries[itemId]?).isSome → pre.length + d.delta.length ≤ (w.textOf itemId).length →
        w.applyTranscriptDeltaToWindow d = (w, false)) := by
  cases he : w.entries[itemId]? with
  | some e =>
    have happly := applyDelta_some hthread ht h he
    have htextOf := textOf_some he
    have hnew : (w.deliver d).textOf itemId = (applyDeltaToEntry e d).1.text.getD [] := by
      apply textOf_some
      rw [deliver, happly]
      simp
    rw [htextOf] at hhave
    obtain ⟨hpre, hlen, hreach, hcov⟩ := applyDeltaToEntry_of_fits hsafe hhave htext hoffset
    rw [hnew, htextOf]
    refine ⟨hpre, hlen, ?_, ?_⟩
    · intro hrefuses
      apply hreach
      simpa [Refuses, he] using hrefuses
    · intro _ hle
      rw [happly, hcov hle]
      simp only [insert_self he]
  | none =>
    have happly := applyDelta_none hthread ht h he
    have hnew : (w.deliver d).textOf itemId = (if startsAtZero d then d.delta else []) := by
      have hentry : (w.deliver d).entries[itemId]? = some (firstDeltaEntry itemId d) := by
        rw [deliver, happly]
        simp
      rw [textOf_some hentry]
      rfl
    rw [hnew, textOf_none he]
    refine ⟨?_, Nat.zero_le _, ?_, fun hsome => by simp at hsome⟩
    · split_ifs with hzero
      · have hnil : pre = [] := by
          simp only [startsAtZero, hoffset, Option.getD_some, decide_eq_true_eq] at hzero
          exact List.eq_nil_of_length_eq_zero hzero
        exact ⟨post, by rw [htext, hnil, List.nil_append]⟩
      · exact List.nil_prefix
    · intro hrefuses
      have hzero : startsAtZero d = true := by simpa [Refuses, he] using hrefuses
      have hlen : pre.length = 0 := by
        simpa [startsAtZero, hoffset] using hzero
      rw [if_pos hzero]
      omega

end Deliver

end Window

open Window StepRun

section Stream

variable {threadId itemId : String} (ht : threadId ≠ "") {text : JsString}
  (hsafe : text.length ≤ maxSafeInteger)
include ht hsafe

theorem deliver_keeps {w : Window} (hthread : w.threadId = some threadId)
    (hhave : w.textOf itemId <+: text) {d : Delta}
    (hd : Addressed threadId itemId d → Fits text d) :
    (w.deliver d).textOf itemId <+: text ∧
      (w.textOf itemId).length ≤ ((w.deliver d).textOf itemId).length := by
  by_cases h : Addressed threadId itemId d
  · obtain ⟨pre, post, htext, hoffset⟩ := hd h
    obtain ⟨hpre, hlen, -⟩ := deliver_fits hthread ht h hsafe hhave htext hoffset
    exact ⟨hpre, hlen⟩
  · have hsame : (w.deliver d).textOf itemId = w.textOf itemId := by
      unfold textOf
      rw [deliver_other hthread h]
    rw [hsame]
    exact ⟨hhave, le_rfl⟩

theorem run_keeps {w : Window} (hthread : w.threadId = some threadId)
    (hhave : w.textOf itemId <+: text) {ds : List Delta}
    (hds : ∀ d ∈ ds, Addressed threadId itemId d → Fits text d) :
    (run deliver w ds).threadId = some threadId ∧ (run deliver w ds).textOf itemId <+: text := by
  induction ds generalizing w with
  | nil => exact ⟨hthread, hhave⟩
  | cons d ds ih =>
    have hstep := deliver_keeps ht hsafe hthread hhave (hds d List.mem_cons_self)
    exact ih (deliver_threadId.trans hthread) hstep.1
      fun d' hd' => hds d' (List.mem_cons_of_mem d hd')

theorem run_reaches {x : JsString} {chain post : List Delta} (hsub : chain.Sublist post)
    (hchain : Chain x chain text) (haddr : ∀ d ∈ chain, Addressed threadId itemId d)
    {w : Window} (hthread : w.threadId = some threadId) (hhave : w.textOf itemId <+: text)
    (hpost : ∀ d ∈ post, Addressed threadId itemId d → Fits text d)
    (hrefuse : Along deliver (fun w d => Addressed threadId itemId d → ¬w.Refuses itemId d) w post)
    (hstart : chain ≠ [] ∨ x.length ≤ (w.textOf itemId).length) :
    text.length ≤ ((run deliver w post).textOf itemId).length := by
  induction hsub generalizing x w with
  | slnil =>
    obtain rfl : x = text := hchain
    exact hstart.resolve_left fun h => h rfl
  | cons d hsub ih =>
    have hstep := deliver_keeps ht hsafe hthread hhave (hpost d List.mem_cons_self)
    exact ih hchain haddr (deliver_threadId.trans hthread) hstep.1
      (fun d' hd' => hpost d' (List.mem_cons_of_mem d hd')) hrefuse.2
      (hstart.imp_right fun h => h.trans hstep.2)
  | cons_cons d hsub ih =>
    have hd := haddr d List.mem_cons_self
    obtain ⟨hoffset, hrest⟩ := hchain
    obtain ⟨rest, hrest'⟩ := hrest.grows
    obtain ⟨hpre, -, hreach, -⟩ :=
      deliver_fits hthread ht hd hsafe hhave hrest'.symm hoffset
    refine ih hrest (fun d' hd' => haddr d' (List.mem_cons_of_mem d hd'))
      (deliver_threadId.trans hthread) hpre
      (fun d' hd' => hpost d' (List.mem_cons_of_mem d hd')) hrefuse.2 (Or.inr ?_)
    rw [List.length_append]
    exact hreach (hrefuse.1 hd)

end Stream

theorem addressed_published {threadId itemId : String} (ht : threadId ≠ "") (hi : itemId ≠ "")
    {s : RelayState} {calls : List AppendCall} {d : Delta}
    (hd : d ∈ s.publishedFor threadId itemId calls) : Addressed threadId itemId d := by
  induction calls generalizing s with
  | nil => cases hd
  | cons call calls ih =>
    unfold RelayState.publishedFor at hd
    dsimp only at hd
    split_ifs at hd with hcall
    · rcases List.mem_cons.mp hd with rfl | hd
      · obtain ⟨rfl, rfl⟩ := hcall
        simp [Addressed, RelayState.publishedDelta, truthy, Option.filter_some, ht, hi]
      · exact ih hd
    · exact ih hd

/-- The deltas of an agent item, delivered in any order, duplicated and lost, to a window
that holds a prefix of its text or nothing: the window keeps a prefix, covered deltas change
nothing, and once all of them arrive in order with none refused the text is complete. -/
theorem deltaStream_converges (s : RelayState) (calls : List AppendCall) (threadId itemId : String)
    (w : Window) (deliveries : List Delta) (ht : threadId ≠ "") (hi : itemId ≠ "")
    (hsafe : (utf16 ((s.appendAll calls).agentText threadId itemId)).length ≤ maxSafeInteger)
    (hthread : w.threadId = some threadId)
    (hstart : w.textOf itemId <+: utf16 ((s.appendAll calls).agentText threadId itemId))
    (hdeliver : ∀ d ∈ deliveries, Addressed threadId itemId d →
      d ∈ s.publishedFor threadId itemId calls) :
    (∀ xs, xs <+: deliveries →
      (run deliver w xs).textOf itemId <+: utf16 ((s.appendAll calls).agentText threadId itemId) ∧
      (∀ e, (run deliver w xs).entries[itemId]? = some e → e.contentState = .full →
        e.text.getD [] <+: utf16 ((s.appendAll calls).agentText threadId itemId)) ∧
      ∀ d ∈ s.publishedFor threadId itemId calls, ∀ offset, d.textOffset = some offset →
        ((run deliver w xs).entries[itemId]?).isSome →
        offset + d.delta.length ≤ ((run deliver w xs).textOf itemId).length →
          (run deliver w xs).applyTranscriptDeltaToWindow d = (run deliver w xs, false)) ∧
    ∀ pre post, deliveries = pre ++ post →
      Along deliver (fun w d => Addressed threadId itemId d → ¬w.Refuses itemId d)
        (run deliver w pre) post →
      (s.publishedFor threadId itemId calls).Sublist post →
      (s.publishedFor threadId itemId calls ≠ [] ∨ s.agentText threadId itemId = "") →
        (run deliver w deliveries).textOf itemId =
          utf16 ((s.appendAll calls).agentText threadId itemId) := by
  have hchain := chain_published threadId itemId s calls
  have hfits : ∀ d ∈ deliveries, Addressed threadId itemId d →
      Fits (utf16 ((s.appendAll calls).agentText threadId itemId)) d :=
    fun d hd haddr => hchain.fits (hdeliver d hd haddr)
  have hkeeps : ∀ xs, xs <+: deliveries → (run deliver w xs).threadId = some threadId ∧
      (run deliver w xs).textOf itemId <+:
        utf16 ((s.appendAll calls).agentText threadId itemId) :=
    fun xs hxs => run_keeps ht hsafe hthread hstart fun d hd => hfits d (hxs.subset hd)
  refine ⟨?_, ?_⟩
  · intro xs hxs
    obtain ⟨hthread', hhave⟩ := hkeeps xs hxs
    refine ⟨hhave, ?_, ?_⟩
    · intro e he _
      rwa [textOf_some he] at hhave
    · intro d hd offset hoffset hsome hcov
      obtain ⟨pre, post, htext, hpre⟩ := hchain.fits hd
      obtain rfl : pre.length = offset := Option.some.inj (hpre.symm.trans hoffset)
      exact (deliver_fits hthread' ht (addressed_published ht hi hd) hsafe hhave htext
        hpre).2.2.2 hsome hcov
  · intro pre post hsplit hrefuse hsub hnonempty
    obtain ⟨hthread', hhave⟩ := hkeeps pre (hsplit ▸ List.prefix_append pre post)
    have hpost : ∀ d ∈ post, Addressed threadId itemId d →
        Fits (utf16 ((s.appendAll calls).agentText threadId itemId)) d := by
      intro d hd
      refine hfits d ?_
      rw [hsplit]
      exact List.mem_append_right pre hd
    have hreach := run_reaches ht hsafe hsub hchain
      (fun d hd => addressed_published ht hi hd) hthread' hhave hpost hrefuse
      (hnonempty.imp_right fun h => by simp [h])
    have hend := (hkeeps deliveries List.prefix_rfl).2
    rw [hsplit, run_append] at hend ⊢
    exact hend.eq_of_length (le_antisymm hend.length_le hreach)

def twoAppends : List AppendCall :=
  [⟨1, "t", "m", "Hé", "turn"⟩, ⟨2, "t", "m", "llo", "turn"⟩]

/-- Two appends whose deltas arrive in the wrong order and then once more in the right one. -/
theorem deltaStream_converges_reversed :
    (run deliver { threadId := some "t" }
      (((RelayState.new "/w").publishedFor "t" "m" twoAppends).reverse ++
        (RelayState.new "/w").publishedFor "t" "m" twoAppends)).textOf "m" = utf16 "Héllo" := by
  have htext : ((RelayState.new "/w").appendAll twoAppends).agentText "t" "m" = "Héllo" := by
    decide
  have h := deltaStream_converges (RelayState.new "/w") twoAppends "t" "m"
    { threadId := some "t" }
    (((RelayState.new "/w").publishedFor "t" "m" twoAppends).reverse ++
      (RelayState.new "/w").publishedFor "t" "m" twoAppends)
    (by decide) (by decide) (by rw [htext]; decide) rfl (by simp [textOf])
    (fun d hd _ => (List.mem_append.mp hd).elim List.mem_reverse.mp id)
  rw [← htext]
  refine h.2 _ _ rfl ?_ (List.Sublist.refl _) (Or.inl ?_)
  · unfold Addressed
    decide +kernel
  · decide +kernel

end AgentRelay.Hydration
