import AgentRelay.DeltaStream

/-! When the client may trust a body marked full: over snapshots, pages and deltas, a full
entry holds a prefix of the relay's text as long as no clipped preview is merged with, or
extended into, a full one. -/
namespace AgentRelay.Hydration
open Text Relay StepRun

def ellipsisLen : Nat := 3

/-- Clip a text to a number of characters, the last three of them dots. -/
def truncateWithEllipsis (value : String) (maxChars : Nat) : String × Bool :=
  if value.length ≤ maxChars then (value, false)
  else if maxChars ≤ ellipsisLen then (String.ofList (List.replicate maxChars '.'), true)
  else (String.ofList (value.toList.take (maxChars - ellipsisLen)) ++ "...", true)

def FullBody (text : String) (body : Option JsString) : Prop :=
  ∃ part : String, part.toList <+: text.toList ∧ body = some (utf16 part)

/-- A body carried as a preview: a prefix over the budget, clipped to it. -/
def PreviewBody (text : String) (body : Option JsString) : Prop :=
  ∃ (part : String) (maxChars : Nat), part.toList <+: text.toList ∧ maxChars < part.length ∧
    body = some (utf16 (truncateWithEllipsis part maxChars).1)

inductive WindowOp
  | snapshotTail (snapshot : Snapshot) (signature : String)
  | hydratedSnapshot (snapshot : Snapshot)
  | page (now : Nat) (page : Page) (prepend : Bool)
  | delta (d : Delta)

namespace Window

def step (w : Window) : WindowOp → Window
  | .snapshotTail snapshot signature => w.createMergedSnapshotTailPatch snapshot signature
  | .hydratedSnapshot snapshot => (w.buildHydratedTranscriptSnapshot snapshot).1
  | .page now page prepend => w.createMergedTranscriptHydrationPagePatch now page prepend
  | .delta d => w.deliver d

end Window

section Texts

variable (texts : String → String)

def SnapshotEntryFaithful (e : String × WireEntry) : Prop :=
  match e.2.contentState.getD .full with
  | .full => FullBody (texts e.1) e.2.text
  | .preview => PreviewBody (texts e.1) e.2.text
  | .omitted => True

/-- What the relay may send while these are its items' texts. -/
def Faithful : WindowOp → Prop
  | .snapshotTail snapshot _ | .hydratedSnapshot snapshot =>
    ∀ e ∈ addressable snapshot.transcript, SnapshotEntryFaithful texts e
  | .page _ page _ => ∀ e ∈ addressable page.entries,
      e.2.contentState.getD .full = .full ∧ FullBody (texts e.1) e.2.text
  | .delta d => ∀ itemId, truthy d.itemId = some itemId → Fits (utf16 (texts itemId)) d

def HonestEntry (text : JsString) (e : Entry) : Prop :=
  e.contentState = .full → ∃ body, e.text = some body ∧ body <+: text

def HonestEntries (entries : Table Entry) : Prop :=
  ∀ itemId e, entries[itemId]? = some e → HonestEntry (utf16 (texts itemId)) e

def Honest (w : Window) : Prop := HonestEntries texts w.entries

/-- Of a full body and one that is not, the longer is kept; it must be a prefix when it is
the one that is not full. -/
def MergeSafe (text : JsString) (existing : Option Entry) (incoming : Entry) : Prop :=
  ∀ e, existing = some e → ∀ x y, e.text = some x → incoming.text = some y →
    (e.contentState = .full → incoming.contentState ≠ .full → y.length ≤ x.length ∨ y <+: text) ∧
    (e.contentState ≠ .full → incoming.contentState = .full → x.length ≤ y.length ∨ x <+: text)

def ExtendsPast (body : JsString) (d : Delta) : Prop :=
  ∃ offset, d.textOffset = some offset ∧ offset ≤ body.length ∧
    body.length < offset + d.delta.length ∧
    body.drop offset = d.delta.take (body.length - offset)

/-- A body that is not full is not extended by the delta, or is a prefix all the same. -/
def ExtendSafe (text : JsString) (e : Entry) (d : Delta) : Prop :=
  e.contentState ≠ .full → e.text.getD [] <+: text ∨ ¬ExtendsPast (e.text.getD []) d

def mergeSnapshotEntry (entries : Table Entry) (e : String × WireEntry) : Table Entry :=
  entries.insert e.1 (mergeTranscriptEntry entries[e.1]? (prepareSnapshotOverlayEntry e.1 e.2))

def mergePageEntry (entries : Table Entry) (e : String × WireEntry) : Table Entry :=
  entries.insert e.1 (mergeTranscriptEntry entries[e.1]? (toTranscriptEntry e.1 e.2))

/-- The step merges and extends only what is safe to. -/
def Undisturbed (w : Window) : WindowOp → Prop
  | .snapshotTail snapshot _ =>
    Along mergeSnapshotEntry (fun entries e => MergeSafe (utf16 (texts e.1)) entries[e.1]?
      (prepareSnapshotOverlayEntry e.1 e.2)) w.entries (addressable snapshot.transcript)
  | .hydratedSnapshot snapshot => ∀ e ∈ addressable snapshot.transcript,
      MergeSafe (utf16 (texts e.1)) w.entries[e.1]? (prepareSnapshotOverlayEntry e.1 e.2)
  | .page _ page _ =>
    Along mergePageEntry (fun entries e => MergeSafe (utf16 (texts e.1)) entries[e.1]?
      (toTranscriptEntry e.1 e.2)) w.entries (addressable page.entries)
  | .delta d => ∀ itemId e, truthy d.itemId = some itemId → w.entries[itemId]? = some e →
      ExtendSafe (utf16 (texts itemId)) e d

end Texts

theorem rankToContentState_eq_full {a b : TranscriptContentState} :
    rankToContentState (max (contentStateRank a) (contentStateRank b)) = .full ↔
      a = .full ∨ b = .full := by
  cases a <;> cases b <;> decide

theorem selectTranscriptText_cases (x y : JsString) (existingFull incomingFull : Bool) :
    (selectTranscriptText (some x) (some y) existingFull incomingFull = some x ∧
        (y.length < x.length ∨ existingFull = true ∧ incomingFull = false ∧ y.length ≤ x.length)) ∨
      (selectTranscriptText (some x) (some y) existingFull incomingFull = some y ∧
        x.length ≤ y.length ∧
          ¬(existingFull = true ∧ incomingFull = false ∧ y.length ≤ x.length)) := by
  unfold selectTranscriptText
  dsimp only
  split_ifs with hkeep hlonger
  · exact Or.inl ⟨rfl, Or.inr (by simpa using hkeep)⟩
  · exact Or.inr ⟨rfl, hlonger, by simpa using hkeep⟩
  · exact Or.inl ⟨rfl, Or.inl (by omega)⟩

/-- A safe merge of honest entries is honest. -/
theorem mergeTranscriptEntry_honest {text : JsString} {existing : Option Entry} {incoming : Entry}
    (he : ∀ e, existing = some e → HonestEntry text e) (hi : HonestEntry text incoming)
    (hsafe : MergeSafe text existing incoming) :
    HonestEntry text (mergeTranscriptEntry existing incoming) := by
  cases existing with
  | none => exact hi
  | some e =>
    specialize he e rfl
    intro hfull
    have hstate := rankToContentState_eq_full.mp hfull
    change ∃ body, selectTranscriptText e.text incoming.text (isFullContent e)
      (isFullContent incoming) = some body ∧ body <+: text
    cases hy : incoming.text with
    | none =>
      -- The incoming entry brings no body, so it was not the full one.
      have hef : e.contentState = .full := by
        refine hstate.resolve_right fun hif => ?_
        obtain ⟨body, hbody, -⟩ := hi hif
        rw [hy] at hbody
        cases hbody
      obtain ⟨x, hx, hpre⟩ := he hef
      exact ⟨x, by rw [hx]; rfl, hpre⟩
    | some y =>
      cases hx : e.text with
      | none =>
        have hif : incoming.contentState = .full := by
          refine hstate.resolve_left fun hef => ?_
          obtain ⟨body, hbody, -⟩ := he hef
          rw [hx] at hbody
          cases hbody
        obtain ⟨body, hbody, hpre⟩ := hi hif
        obtain rfl : y = body := Option.some.inj (hy.symm.trans hbody)
        exact ⟨y, rfl, hpre⟩
      | some x =>
        obtain ⟨hkeep, htake⟩ := hsafe e rfl x y hx hy
        have hxpre : e.contentState = .full → x <+: text := by
          intro hef
          obtain ⟨body, hbody, hpre⟩ := he hef
          exact Option.some.inj (hx.symm.trans hbody) ▸ hpre
        have hypre : incoming.contentState = .full → y <+: text := by
          intro hif
          obtain ⟨body, hbody, hpre⟩ := hi hif
          exact Option.some.inj (hy.symm.trans hbody) ▸ hpre
        rcases selectTranscriptText_cases x y (isFullContent e) (isFullContent incoming) with
          ⟨hsel, hlen⟩ | ⟨hsel, hlen, hnot⟩
        · refine ⟨x, hsel, ?_⟩
          by_cases hef : e.contentState = .full
          · exact hxpre hef
          · have hlt : y.length < x.length := by
              refine hlen.resolve_right fun h => hef ?_
              simpa [isFullContent] using h.1
            exact (htake hef (hstate.resolve_left hef)).resolve_left (by omega)
        · refine ⟨y, hsel, ?_⟩
          by_cases hif : incoming.contentState = .full
          · exact hypre hif
          · have hef := hstate.resolve_right hif
            have hlt : ¬y.length ≤ x.length := fun h =>
              hnot ⟨by simp [isFullContent, hef], by simp [isFullContent, hif], h⟩
            exact (hkeep hef hif).resolve_left hlt

theorem FullBody.honest {text : String} {body : Option JsString} (h : FullBody text body) :
    ∃ b, body = some b ∧ b <+: utf16 text := by
  obtain ⟨part, hpart, rfl⟩ := h
  exact ⟨utf16 part, rfl, utf16_prefix hpart⟩

theorem prepareSnapshotOverlayEntry_honest {texts : String → String} {e : String × WireEntry}
    (h : SnapshotEntryFaithful texts e) :
    HonestEntry (utf16 (texts e.1)) (prepareSnapshotOverlayEntry e.1 e.2) := by
  intro hfull
  unfold prepareSnapshotOverlayEntry at hfull ⊢
  dsimp only at hfull ⊢
  have hstate : e.2.contentState.getD .full = .full := by
    split_ifs at hfull
    · exact hfull
    · exact hfull
  have homitted : (toTranscriptEntry e.1 e.2).contentState ≠ .omitted := by
    simp [toTranscriptEntry, hstate]
  rw [if_neg homitted]
  simp only [SnapshotEntryFaithful, hstate] at h
  obtain ⟨b, hb, hpre⟩ := h.honest
  exact ⟨b, by simp [toTranscriptEntry, hb], hpre⟩

theorem toTranscriptEntry_honest {text : String} {itemId : String} {e : WireEntry}
    (h : FullBody text e.text) : HonestEntry (utf16 text) (toTranscriptEntry itemId e) := by
  intro _
  obtain ⟨b, hb, hpre⟩ := h.honest
  exact ⟨b, by simp [toTranscriptEntry, hb], hpre⟩

section Steps

variable {texts : String → String}

theorem HonestEntries.insert {entries : Table Entry} (h : HonestEntries texts entries)
    {itemId : String} {e : Entry} (he : HonestEntry (utf16 (texts itemId)) e) :
    HonestEntries texts (entries.insert itemId e) := by
  intro i e' hget
  rw [Std.ExtTreeMap.getElem?_insert] at hget
  split_ifs at hget with hi
  · rw [Std.LawfulEqCmp.eq_of_compare hi] at he
    cases hget
    exact he
  · exact h i e' hget

theorem mergeSnapshotEntry_honest {entries : Table Entry} (h : HonestEntries texts entries)
    {e : String × WireEntry} (hsafe : MergeSafe (utf16 (texts e.1)) entries[e.1]?
      (prepareSnapshotOverlayEntry e.1 e.2)) (he : SnapshotEntryFaithful texts e) :
    HonestEntries texts (mergeSnapshotEntry entries e) :=
  h.insert (mergeTranscriptEntry_honest (fun e' he' => h e.1 e' he')
    (prepareSnapshotOverlayEntry_honest he) hsafe)

theorem mergePageEntry_honest {entries : Table Entry} (h : HonestEntries texts entries)
    {e : String × WireEntry} (hsafe : MergeSafe (utf16 (texts e.1)) entries[e.1]?
      (toTranscriptEntry e.1 e.2)) (he : FullBody (texts e.1) e.2.text) :
    HonestEntries texts (mergePageEntry entries e) :=
  h.insert (mergeTranscriptEntry_honest (fun e' he' => h e.1 e' he')
    (toTranscriptEntry_honest he) hsafe)

theorem HonestEntries.overlay {entries overlay : Table Entry} (h : HonestEntries texts entries)
    (ho : HonestEntries texts overlay) :
    HonestEntries texts (overlay.foldl (fun entries id e => entries.insert id e) entries) := by
  rw [Std.ExtTreeMap.foldl_eq_foldl_toList]
  have hmem : ∀ p ∈ overlay.toList, HonestEntry (utf16 (texts p.1)) p.2 := by
    intro p hp
    exact ho p.1 p.2 (Std.ExtTreeMap.mem_toList_iff_getElem?_eq_some.mp hp)
  generalize overlay.toList = ps at hmem
  induction ps generalizing entries with
  | nil => exact h
  | cons p ps ih =>
    exact ih (h.insert (hmem p List.mem_cons_self)) fun q hq => hmem q (List.mem_cons_of_mem p hq)

theorem hydratedOverlay_honest {entries : Table Entry} (h : HonestEntries texts entries)
    {tail : List (String × WireEntry)}
    (hsafe : ∀ e ∈ tail, MergeSafe (utf16 (texts e.1)) entries[e.1]?
      (prepareSnapshotOverlayEntry e.1 e.2))
    (he : ∀ e ∈ tail, SnapshotEntryFaithful texts e) {acc : Table Entry}
    (hacc : HonestEntries texts acc) :
    HonestEntries texts (tail.foldl (fun overlay e => overlay.insert e.1
      (mergeTranscriptEntry entries[e.1]? (prepareSnapshotOverlayEntry e.1 e.2))) acc) := by
  induction tail generalizing acc with
  | nil => exact hacc
  | cons e tail ih =>
    refine ih (fun e' he' => hsafe e' (List.mem_cons_of_mem e he'))
      (fun e' he' => he e' (List.mem_cons_of_mem e he')) (hacc.insert ?_)
    exact mergeTranscriptEntry_honest (fun e' he' => h e.1 e' he')
      (prepareSnapshotOverlayEntry_honest (he e List.mem_cons_self)) (hsafe e List.mem_cons_self)

theorem extendsPast_of_resolve {body x : JsString} {d : Delta} {offset : Nat}
    (hoffset : d.textOffset = some offset) (hsafe : offset ≤ maxSafeInteger) (hx : x ≠ [])
    (h : resolveDeltaAppend body d.delta d.textOffset = some x) : ExtendsPast body d := by
  rw [hoffset] at h
  unfold resolveDeltaAppend at h
  rw [safeInteger_of_le hsafe] at h
  dsimp only at h
  split_ifs at h with hgap hdiffers hcov
  · exact absurd (Option.some.inj h).symm hx
  · refine ⟨offset, hoffset, by omega, by omega, ?_⟩
    have hmin : min (body.length - offset) d.delta.length = body.length - offset := by omega
    rw [hmin] at hdiffers
    have htake : (body.drop offset).take (body.length - offset) = body.drop offset :=
      List.take_of_length_le (by rw [List.length_drop])
    rw [htake] at hdiffers
    by_cases hzero : body.length - offset = 0
    · rw [hzero, List.take_zero, List.drop_eq_nil_of_le (by omega)]
    · by_contra hne
      exact hdiffers ⟨by omega, hne⟩

theorem applyDeltaToEntry_honest {text : JsString} (hsafe : text.length ≤ maxSafeInteger)
    {e : Entry} (he : HonestEntry text e) {d : Delta} (hd : Fits text d)
    (hext : ExtendSafe text e d) : HonestEntry text (applyDeltaToEntry e d).1 := by
  obtain ⟨pre, post, htext, hoffset⟩ := hd
  have hpre : pre.length ≤ maxSafeInteger := by
    have hle : pre.length ≤ text.length := by simp [htext]
    exact hle.trans hsafe
  cases hres : resolveDeltaAppend (e.text.getD []) d.delta d.textOffset with
  | none =>
    intro hfull
    rw [applyDeltaToEntry_refused hres] at hfull
    cases hfull
  | some x =>
    by_cases hx : x = []
    · subst hx
      rw [applyDeltaToEntry_covered hres]
      exact he
    · -- The body grew, so it has to have been a prefix already.
      have hhave : e.text.getD [] <+: text := by
        by_cases hfull : e.contentState = .full
        · obtain ⟨body, hbody, hpre⟩ := he hfull
          rw [hbody]
          exact hpre
        · exact (hext hfull).resolve_right fun hno =>
            hno (extendsPast_of_resolve hoffset hpre hx hres)
      intro _
      have htext' := (applyDeltaToEntry_grown hx hres).1
      have hkeep := (applyDeltaToEntry_of_fits hsafe hhave htext hoffset).1
      rw [htext', Option.getD_some] at hkeep
      exact ⟨_, htext', hkeep⟩

theorem firstDeltaEntry_honest {text : JsString} {itemId : String} {d : Delta}
    (hd : Fits text d) : HonestEntry text (firstDeltaEntry itemId d) := by
  intro hfull
  obtain ⟨pre, post, htext, hoffset⟩ := hd
  have hzero : startsAtZero d = true := by
    by_contra h
    simp [firstDeltaEntry, h] at hfull
  have hnil : pre = [] := by
    simp only [startsAtZero, hoffset, Option.getD_some, decide_eq_true_eq] at hzero
    exact List.eq_nil_of_length_eq_zero hzero
  refine ⟨d.delta, by simp [firstDeltaEntry, hzero], post, ?_⟩
  rw [htext, hnil, List.nil_append]

theorem deliver_honest (hsafe : ∀ itemId, (utf16 (texts itemId)).length ≤ maxSafeInteger)
    {w : Window} (hw : Honest texts w) {d : Delta} (hd : Faithful texts (.delta d))
    (hext : Undisturbed texts w (.delta d)) : Honest texts (w.deliver d) := by
  unfold Window.deliver Window.applyTranscriptDeltaToWindow
  cases hi : truthy d.itemId with
  | none => exact hw
  | some itemId =>
    cases truthy w.threadId with
    | none => exact hw
    | some threadId =>
      dsimp only
      split_ifs with hother
      · exact hw
      · cases he : w.entries[itemId]? with
        | none => exact HonestEntries.insert hw (firstDeltaEntry_honest (hd itemId hi))
        | some e =>
          exact HonestEntries.insert hw (applyDeltaToEntry_honest (hsafe itemId)
            (hw itemId e he) (hd itemId hi) (hext itemId e hi he))

theorem step_honest (hsafe : ∀ itemId, (utf16 (texts itemId)).length ≤ maxSafeInteger)
    {w : Window} (hw : Honest texts w) {op : WindowOp} (hf : Faithful texts op)
    (hu : Undisturbed texts w op) : Honest texts (w.step op) := by
  cases op with
  | snapshotTail snapshot signature =>
    have halways := always_of_step (I := HonestEntries texts)
      (fun _ _ h hP => mergeSnapshotEntry_honest h hP.1 hP.2) hw (Along.and_mem hu hf)
    exact halways.last
  | hydratedSnapshot snapshot =>
    have hoverlay := hydratedOverlay_honest hw hu hf
      (fun _ _ h => by simp at h : HonestEntries texts ∅)
    unfold Window.step Window.buildHydratedTranscriptSnapshot
    dsimp only
    split_ifs with hempty
    · exact hw
    · exact HonestEntries.overlay hw hoverlay
  | page now page prepend =>
    have halways := always_of_step (I := HonestEntries texts)
      (fun _ _ h hP => mergePageEntry_honest h hP.1 hP.2) hw
      (Along.and_mem hu fun e he => (hf e he).2)
    exact halways.last
  | delta d => exact deliver_honest hsafe hw hf hu

end Steps

/-- From an empty window, whatever the relay sends: while no clipped preview is kept over,
or extended into, a full body, every full entry holds a prefix of its item's text. -/
theorem honest_of_undisturbed (texts : String → String) (w : Window) (ops : List WindowOp)
    (hsafe : ∀ itemId, (utf16 (texts itemId)).length ≤ maxSafeInteger) (hw : w.entries = ∅)
    (hfaithful : ∀ op ∈ ops, Faithful texts op)
    (hundisturbed : Along Window.step (Undisturbed texts) w ops) :
    Always Window.step (Honest texts) w ops := by
  refine always_of_step (fun w op hw hop => step_honest hsafe hw hop.2 hop.1) ?_
    (hundisturbed.and_mem hfaithful)
  intro itemId e he
  simp [hw] at he

def alphabet : String := "abcdefghijkl"

def agentEntry (text : String) (contentState : TranscriptContentState) : WireEntry :=
  { itemId := some "m", kind := "agent_text", text := some (utf16 text), status := "streaming",
    contentState := some contentState }

/-- A page carries the text as of an early moment, a snapshot its clipped later state. -/
def clippedRun (maxChars : Nat) : List WindowOp :=
  [.page 0 { entries := [agentEntry "ab" .full] } false,
    .snapshotTail { activeThreadId := some "t", transcript :=
      [agentEntry (truncateWithEllipsis alphabet maxChars).1 .preview] } "s"]

theorem clippedRun_faithful (maxChars : Nat) (h : maxChars < 12) :
    ∀ op ∈ clippedRun maxChars, Faithful (fun _ => alphabet) op := by
  intro op hop
  simp only [clippedRun, List.mem_cons, List.not_mem_nil, or_false] at hop
  rcases hop with rfl | rfl
  · intro e he
    obtain rfl : e = ("m", agentEntry "ab" .full) := by
      simpa [addressable, agentEntry, truthy, Option.filter_some] using he
    exact ⟨rfl, "ab", by decide, rfl⟩
  · intro e he
    obtain rfl : e = ("m", agentEntry (truncateWithEllipsis alphabet maxChars).1 .preview) := by
      simpa [addressable, agentEntry, truthy, Option.filter_some] using he
    exact ⟨alphabet, maxChars, List.prefix_rfl, h, rfl⟩

/-- A preview no longer than the body it meets leaves it alone. -/
theorem honest_shortPreview :
    Always Window.step (Honest fun _ => alphabet) { threadId := some "t" } (clippedRun 2) := by
  refine honest_of_undisturbed (fun _ => alphabet) { threadId := some "t" } (clippedRun 2)
    (fun _ => by decide) rfl (clippedRun_faithful 2 (by omega)) ?_
  refine ⟨⟨?_, trivial⟩, ⟨?_, trivial⟩, trivial⟩
  · intro e he
    cases he
  · intro e he x y hx hy
    have hstored : (({ threadId := some "t" } : Window).step (.page 0
        { entries := [agentEntry "ab" .full] } false)).entries["m"]?.map
          (fun e => (e.contentState, e.text)) = some (.full, some (utf16 "ab")) := by decide
    have he' : (({ threadId := some "t" } : Window).step (.page 0
        { entries := [agentEntry "ab" .full] } false)).entries["m"]? = some e := he
    rw [he', Option.map_some, Option.some.injEq, Prod.mk.injEq, hx, Option.some.injEq] at hstored
    have hy' : utf16 (truncateWithEllipsis alphabet 2).1 = y := Option.some.inj hy
    refine ⟨fun _ _ => Or.inl ?_, fun hnot => absurd hstored.1 hnot⟩
    rw [← hy', hstored.2]
    decide

/-- A longer preview replaces the early body, and the clip is marked full. -/
theorem preview_marked_full :
    (∀ op ∈ clippedRun 8, Faithful (fun _ => alphabet) op) ∧
      ¬Always Window.step (Honest fun _ => alphabet) { threadId := some "t" } (clippedRun 8) := by
  refine ⟨clippedRun_faithful 8 (by omega), fun h => ?_⟩
  have hstored : (run Window.step { threadId := some "t" } (clippedRun 8)).entries["m"]?.map
      (fun e => (e.contentState, e.text)) = some (.full, some (utf16 "abcde...")) := by decide
  rw [Option.map_eq_some_iff] at hstored
  obtain ⟨e, he, hpair⟩ := hstored
  rw [Prod.mk.injEq] at hpair
  obtain ⟨body, hbody, hclip⟩ := h.last "m" e he hpair.1
  obtain rfl : utf16 "abcde..." = body := Option.some.inj (hpair.2.symm.trans hbody)
  revert hclip
  decide

end AgentRelay.Hydration
