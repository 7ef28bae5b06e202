import AgentRelay.FileChangePatch
import AgentRelay.RelayTranscript

/-! Reading a transcript from its end, one page before the other. A page of the runtime is packed
backwards under a byte budget; a thread whose provider keeps the older history goes on with the
provider's pages. -/
namespace AgentRelay.Relay
open Text

structure ThreadTranscriptResponse where
  threadId : String
  revision : Nat
  entries : List TranscriptEntryView
  entrySeqStart : Option Nat
  entrySeqEnd : Option Nat
  nextCursor : Option Nat
  prevCursor : Option Nat
  deriving DecidableEq, Repr

def threadTranscriptResponseTargetBytes : Nat := 20000

def threadTranscriptEnvelopeUpperBoundBytes : Nat := 320

def buildThreadTranscriptPage (threadId : String) (entries : List TranscriptEntryView)
    (nextCursor prevCursor : Option Nat) (revision startIndex : Nat) : ThreadTranscriptResponse :=
  { threadId, revision, entries, nextCursor, prevCursor
    entrySeqStart := if entries = [] then none else some (startIndex + 1)
    entrySeqEnd := if entries = [] then none else some (startIndex + entries.length) }

namespace ThreadTranscriptResponse

def fromProviderPage (threadId : String) (entries : List TranscriptEntryView)
    (prevCursor : Option Nat) (revision : Nat) : ThreadTranscriptResponse :=
  { threadId, revision, prevCursor
    entries := stripFileChangeDiffsForTransport entries
    entrySeqStart := none, entrySeqEnd := none, nextCursor := none }

end ThreadTranscriptResponse

section Packing

variable (serializedLen : TranscriptEntryView → Nat)

/-- Take entries, the newest first, until the next one would go over the budget; the result is
how many are left and what was taken. -/
def packBackwards (envelopeUpperBound : Nat) :
    List TranscriptEntryView → Nat → List TranscriptEntryView → Nat × List TranscriptEntryView
  | [], _, selected => (0, selected)
  | newest :: older, entryBytesSum, selected =>
    let entry := stripFileChangeDiffs newest
    let entryLen := serializedLen entry
    let estimated := envelopeUpperBound + entryBytesSum + entryLen + selected.length
    if threadTranscriptResponseTargetBytes < estimated ∧ selected ≠ [] then
      (older.length + 1, selected)
    else packBackwards envelopeUpperBound older (entryBytesSum + entryLen) (entry :: selected)

/-- `build_reverse_thread_transcript_page_from_source`, on the views of the whole transcript. -/
def buildReverseThreadTranscriptPage (threadId : String) (views : List TranscriptEntryView)
    (upperBound revision : Nat) : ThreadTranscriptResponse :=
  let envelopeUpperBound := threadTranscriptEnvelopeUpperBoundBytes + threadId.utf8ByteSize
  let packed :=
    packBackwards serializedLen envelopeUpperBound (views.take upperBound).reverse 0 []
  -- A page is never empty while there is something before the bound.
  let (index, selected) :=
    match packed.2, (views.take upperBound).getLast? with
    | [], some entry => (upperBound - 1, [stripFileChangeDiffs entry])
    | _, _ => packed
  buildThreadTranscriptPage threadId selected
    (if upperBound < views.length then some upperBound else none)
    (if 0 < index then some index else none) revision index

def ThreadTranscriptResponse.fromTranscriptSource (threadId : String)
    (views : List TranscriptEntryView) (before : Option Nat) (revision : Nat) :
    ThreadTranscriptResponse :=
  buildReverseThreadTranscriptPage serializedLen threadId views
    (min (before.getD views.length) views.length) revision

def ThreadRuntime.transcriptPage (runtime : ThreadRuntime) (threadId : String)
    (before : Option Nat) : ThreadTranscriptResponse :=
  let page := ThreadTranscriptResponse.fromTranscriptSource serializedLen threadId
    runtime.transcriptViews before runtime.transcriptRevision
  if before = none ∧ runtime.providerHistoryPaged then
    { page with prevCursor := runtime.providerHistoryCursor }
  else page

end Packing

structure ThreadTranscriptPageData where
  transcript : List TranscriptEntryView
  prevCursor : Option Nat
  deriving DecidableEq, Repr

/-- The records of a provider page; one without an id is named by the page and its place. -/
def providerHistoryRecords (entries : List TranscriptEntryView) (requestedCursor : Option Nat) :
    List TranscriptRecord :=
  let fallbackPage := (requestedCursor.map toString).getD "tail"
  entries.zipIdx.map fun (entry, index) =>
    { itemId := entry.itemId.getD ("provider-history-" ++ fallbackPage ++ "-" ++ toString index)
      kind := entry.kind, text := entry.text, status := entry.status, turnId := entry.turnId
      tool := entry.tool }

def lastIndexOf (records : List TranscriptRecord) (itemId : String) : Option Nat :=
  ((records.map (·.itemId)).reverse.idxOf? itemId).map (records.length - 1 - ·)

/-- Keep the records the transcript does not have, and merge the tool call of the others into the
record it has. A second new record of one id is looked up at an index that no transcript has. -/
def retainNew : List TranscriptRecord → List TranscriptRecord → List TranscriptRecord →
    Option (List TranscriptRecord × List TranscriptRecord)
  | [], transcript, kept => some (kept.reverse, transcript)
  | record :: records, transcript, kept =>
    match lastIndexOf transcript record.itemId with
    | some index =>
      retainNew records
        (transcript.modify index fun existing =>
          { existing with tool := mergeToolCallView existing.tool record.tool }) kept
    | none =>
      if record.itemId ∈ kept.map (·.itemId) then none
      else retainNew records transcript (record :: kept)

/-- `None` where the source panics. -/
def ThreadRuntime.prependProviderHistory (runtime : ThreadRuntime)
    (entries : List TranscriptEntryView) (requestedCursor prevCursor : Option Nat) :
    Option ThreadRuntime := do
  let (kept, transcript) ←
    retainNew (providerHistoryRecords entries requestedCursor) runtime.transcript []
  return { runtime with
    transcript := kept ++ transcript
    providerHistoryCursor := prevCursor }

/-- `read_thread_transcript` for a loaded thread; `provider` answers for its bridge. -/
def readThreadTranscript (serializedLen : TranscriptEntryView → Nat)
    (provider : Nat → Option ThreadTranscriptPageData) (runtime : ThreadRuntime)
    (threadId : String) (before : Option Nat) :
    Option (ThreadTranscriptResponse × ThreadRuntime) :=
  match before.filter fun _ => runtime.providerHistoryPaged with
  | some cursor =>
    match provider cursor with
    | some page => do
      let pageItemIds := page.transcript.filterMap (·.itemId)
      let runtime ← runtime.prependProviderHistory page.transcript before page.prevCursor
      -- The merged records are returned, unless an entry had no id to match on.
      let merged := pageItemIds.filterMap fun itemId =>
        (runtime.transcript.find? (·.itemId = itemId)).map TranscriptRecord.toView
      let entries := if merged.length = page.transcript.length then merged else page.transcript
      return (.fromProviderPage threadId entries page.prevCursor runtime.transcriptRevision, runtime)
    | none => some (runtime.transcriptPage serializedLen threadId before, runtime)
  | none => some (runtime.transcriptPage serializedLen threadId before, runtime)

/-- A client that reads backwards: the runtime as it is now, the cursor of the page it got last,
and its pages, the newest request first. -/
structure PageReader where
  runtime : ThreadRuntime
  cursor : Option Nat
  pages : List ThreadTranscriptResponse

def PageReader.delivered (reader : PageReader) : List TranscriptEntryView :=
  reader.pages.flatMap (·.entries)

structure ThreadRuntime.Grows (runtime runtime' : ThreadRuntime) : Prop where
  ids : runtime.transcript.map (·.itemId) <+: runtime'.transcript.map (·.itemId)
  paged : runtime'.providerHistoryPaged = runtime.providerHistoryPaged

section Reading

variable (serializedLen : TranscriptEntryView → Nat)
  (provider : Nat → Option ThreadTranscriptPageData) (threadId : String)

def PageReader.start (runtime : ThreadRuntime) : PageReader :=
  let page := runtime.transcriptPage serializedLen threadId none
  { runtime, cursor := page.prevCursor, pages := [page] }

/-- Ask for the page before the cursor; `None` where there is no cursor or the read fails. -/
def PageReader.next (reader : PageReader) : Option PageReader := do
  let cursor ← reader.cursor
  let (page, runtime) ←
    readThreadTranscript serializedLen provider reader.runtime threadId (some cursor)
  return { runtime, cursor := page.prevCursor, pages := page :: reader.pages }

inductive PageReader.Reads (runtime : ThreadRuntime) : PageReader → Prop
  | start : Reads runtime (.start serializedLen threadId runtime)
  | grow {reader : PageReader} {runtime' : ThreadRuntime} (h : Reads runtime reader)
      (hgrow : reader.runtime.Grows runtime') : Reads runtime { reader with runtime := runtime' }
  | request {reader reader' : PageReader} (h : Reads runtime reader)
      (hnext : reader.next serializedLen provider threadId = some reader') : Reads runtime reader'

structure ReadsAll (runtime : ThreadRuntime) (older : List TranscriptEntryView) : Prop where
  complete : ∀ reader, PageReader.Reads serializedLen provider threadId runtime reader →
    reader.cursor = none → reader.delivered.map (·.itemId) =
      older.map (·.itemId) ++ runtime.transcript.map fun record => some record.itemId
  answered : ∀ reader, PageReader.Reads serializedLen provider threadId runtime reader →
    reader.cursor ≠ none → (reader.next serializedLen provider threadId).isSome
  ends : ∃ bound, ∀ reader, PageReader.Reads serializedLen provider threadId runtime reader →
    reader.pages.length ≤ bound

end Reading

/-- The provider's history before a cursor, followed page by page and held oldest page first; the
entries of one page are different entries. -/
inductive ProviderHistory (provider : Nat → Option ThreadTranscriptPageData) :
    Option Nat → List (List TranscriptEntryView) → Prop
  | done : ProviderHistory provider none []
  | page {cursor : Nat} {answer : ThreadTranscriptPageData}
      {older : List (List TranscriptEntryView)} (hanswer : provider cursor = some answer)
      (hdistinct : ((providerHistoryRecords answer.transcript (some cursor)).map
        (·.itemId)).Nodup)
      (holder : ProviderHistory provider answer.prevCursor older) :
      ProviderHistory provider (some cursor) (older ++ [answer.transcript])

def FitsOnePage (serializedLen : TranscriptEntryView → Nat) (threadId : String)
    (views : List TranscriptEntryView) : Prop :=
  views.length ≤ 1 ∨
    threadTranscriptEnvelopeUpperBoundBytes + threadId.utf8ByteSize +
      (views.map fun view => serializedLen (stripFileChangeDiffs view)).sum + (views.length - 1) ≤
        threadTranscriptResponseTargetBytes

section Budget

variable (serializedLen : TranscriptEntryView → Nat) (envelope : Nat)

theorem packBackwards_eq (newestFirst : List TranscriptEntryView) (sum : Nat)
    (selected : List TranscriptEntryView) :
    ∃ taken ≤ newestFirst.length,
      packBackwards serializedLen envelope newestFirst sum selected =
        (newestFirst.length - taken,
          ((newestFirst.take taken).reverse.map stripFileChangeDiffs) ++ selected) ∧
      (selected = [] → newestFirst ≠ [] → 0 < taken) := by
  induction newestFirst generalizing sum selected with
  | nil => exact ⟨0, le_rfl, by simp [packBackwards], by simp⟩
  | cons newest older ih =>
    unfold packBackwards
    dsimp only
    split_ifs with hbreak
    · refine ⟨0, Nat.zero_le _, by simp, ?_⟩
      intro hselected
      exact absurd hselected hbreak.2
    · obtain ⟨taken, htaken, heq, -⟩ := ih (sum + serializedLen (stripFileChangeDiffs newest))
        (stripFileChangeDiffs newest :: selected)
      refine ⟨taken + 1, by simpa using htaken, ?_, fun _ _ => Nat.succ_pos taken⟩
      rw [heq]
      simp

theorem packBackwards_all_of_selected (newestFirst : List TranscriptEntryView) (sum : Nat)
    {selected : List TranscriptEntryView} (hselected : selected ≠ []) :
    (packBackwards serializedLen envelope newestFirst sum selected).1 = 0 ↔
      newestFirst = [] ∨ envelope + sum +
        (newestFirst.map fun view => serializedLen (stripFileChangeDiffs view)).sum +
          selected.length + (newestFirst.length - 1) ≤ threadTranscriptResponseTargetBytes := by
  induction newestFirst generalizing sum selected with
  | nil => simp [packBackwards]
  | cons newest older ih =>
    unfold packBackwards
    dsimp only
    rw [List.map_cons, List.sum_cons, List.length_cons]
    split_ifs with hbreak
    · have hover := hbreak.1
      simp only [false_or, false_iff, Nat.not_le]
      omega
    · have hroom : envelope + sum + serializedLen (stripFileChangeDiffs newest) +
          selected.length ≤ threadTranscriptResponseTargetBytes := by
        by_contra hover
        exact hbreak ⟨by omega, hselected⟩
      rw [ih _ (List.cons_ne_nil _ _), List.length_cons]
      cases older with
      | nil => simpa using hroom
      | cons next rest =>
        simp only [List.cons_ne_nil, false_or, List.length_cons, List.map_cons, List.sum_cons]
        omega

theorem packBackwards_all (newestFirst : List TranscriptEntryView) :
    (packBackwards serializedLen envelope newestFirst 0 []).1 = 0 ↔
      newestFirst.length ≤ 1 ∨ envelope +
        (newestFirst.map fun view => serializedLen (stripFileChangeDiffs view)).sum +
          (newestFirst.length - 1) ≤ threadTranscriptResponseTargetBytes := by
  cases newestFirst with
  | nil => simp [packBackwards]
  | cons newest older =>
    unfold packBackwards
    dsimp only
    rw [if_neg (by simp),
      packBackwards_all_of_selected serializedLen envelope older _ (List.cons_ne_nil _ _)]
    rw [List.map_cons, List.sum_cons, List.length_cons]
    cases older with
    | nil => simp
    | cons next rest =>
      simp only [List.cons_ne_nil, false_or, List.length_cons, List.length_nil]
      omega

end Budget

section Pages

variable (serializedLen : TranscriptEntryView → Nat)

/-- A packed page is the run of entries from some index up to the bound, at least one of them if
there is one. -/
theorem reversePage_eq (threadId : String) (views : List TranscriptEntryView) {upperBound : Nat}
    (hbound : upperBound ≤ views.length) (revision : Nat) :
    ∃ index ≤ upperBound, (0 < upperBound → index < upperBound) ∧
      packBackwards serializedLen (threadTranscriptEnvelopeUpperBoundBytes + threadId.utf8ByteSize)
          (views.take upperBound).reverse 0 [] =
        (index, ((views.take upperBound).drop index).map stripFileChangeDiffs) ∧
      buildReverseThreadTranscriptPage serializedLen threadId views upperBound revision =
        buildThreadTranscriptPage threadId
          (((views.take upperBound).drop index).map stripFileChangeDiffs)
          (if upperBound < views.length then some upperBound else none)
          (if 0 < index then some index else none) revision index := by
  have hlen : (views.take upperBound).reverse.length = upperBound := by
    rw [List.length_reverse, List.length_take]
    omega
  obtain ⟨taken, htaken, hpacked, htook⟩ := packBackwards_eq serializedLen
    (threadTranscriptEnvelopeUpperBoundBytes + threadId.utf8ByteSize)
    (views.take upperBound).reverse 0 []
  rw [hlen] at htaken hpacked
  have hentries : ((views.take upperBound).reverse.take taken).reverse =
      (views.take upperBound).drop (upperBound - taken) := by
    rw [List.take_reverse, List.reverse_reverse, List.length_take, Nat.min_eq_left hbound]
  have hsome : 0 < upperBound → 0 < taken := by
    intro hpos
    apply htook rfl
    intro hnil
    rw [hnil, List.length_nil] at hlen
    omega
  rw [hentries, List.append_nil] at hpacked
  refine ⟨upperBound - taken, by omega, fun hpos => by have := hsome hpos; omega, hpacked, ?_⟩
  -- the branch for an empty page is never taken
  unfold buildReverseThreadTranscriptPage
  dsimp only
  rw [hpacked]
  by_cases hpos : 0 < upperBound
  · have hne : ((views.take upperBound).drop (upperBound - taken)).map
        stripFileChangeDiffs ≠ [] := by
      intro hnil
      have hzero := congrArg List.length hnil
      rw [List.length_map, List.length_drop, List.length_take, List.length_nil] at hzero
      have := hsome hpos
      omega
    split
    · rename_i hnil _
      exact absurd hnil hne
    · rfl
  · obtain rfl : upperBound = 0 := by omega
    simp

/-- The spec of a packed page: the entries from some index up to the bound, at least one of them
if there is one. -/
theorem reversePage_spec (threadId : String)
    (views : List TranscriptEntryView) {upperBound : Nat} (hbound : upperBound ≤ views.length)
    (revision : Nat) :
    ∃ index ≤ upperBound, (0 < upperBound → index < upperBound) ∧
      (buildReverseThreadTranscriptPage serializedLen threadId views upperBound revision).entries =
        ((views.take upperBound).drop index).map stripFileChangeDiffs ∧
      (buildReverseThreadTranscriptPage serializedLen threadId views upperBound
        revision).prevCursor = (if 0 < index then some index else none) ∧
      (index = 0 ↔ FitsOnePage serializedLen threadId (views.take upperBound)) := by
  obtain ⟨index, hindex, hless, hpacked, hpage⟩ :=
    reversePage_eq serializedLen threadId views hbound revision
  have hall := packBackwards_all serializedLen
    (threadTranscriptEnvelopeUpperBoundBytes + threadId.utf8ByteSize)
    (views.take upperBound).reverse
  rw [hpacked, List.length_reverse, List.map_reverse, List.sum_reverse] at hall
  rw [hpage]
  exact ⟨index, hindex, hless, rfl, rfl, hall⟩

/-- The spec of a page of the runtime. -/
theorem transcriptPage_spec (runtime : ThreadRuntime) (threadId : String) (before : Option Nat) :
    ∃ index ≤ min (before.getD runtime.transcript.length) runtime.transcript.length,
      (0 < min (before.getD runtime.transcript.length) runtime.transcript.length →
        index < min (before.getD runtime.transcript.length) runtime.transcript.length) ∧
      (runtime.transcriptPage serializedLen threadId before).entries =
        ((runtime.transcriptViews.take
          (min (before.getD runtime.transcript.length) runtime.transcript.length)).drop index).map
            stripFileChangeDiffs ∧
      (runtime.transcriptPage serializedLen threadId before).prevCursor =
        (if before = none ∧ runtime.providerHistoryPaged = true then
          runtime.providerHistoryCursor
        else if 0 < index then some index else none) ∧
      (index = 0 ↔ FitsOnePage serializedLen threadId (runtime.transcriptViews.take
        (min (before.getD runtime.transcript.length) runtime.transcript.length))) := by
  have hviews : runtime.transcriptViews.length = runtime.transcript.length := by
    simp [ThreadRuntime.transcriptViews, transcriptViewsOf]
  obtain ⟨index, hindex, hless, hentries, hcursor, hfits⟩ := reversePage_spec serializedLen threadId
    runtime.transcriptViews (Nat.min_le_right (before.getD runtime.transcriptViews.length) _)
    runtime.transcriptRevision
  rw [hviews] at hindex hless hentries hcursor hfits
  refine ⟨index, hindex, hless, ?_, ?_, hfits⟩
  · rw [← hentries]
    unfold ThreadRuntime.transcriptPage ThreadTranscriptResponse.fromTranscriptSource
    dsimp only
    rw [hviews]
    split_ifs <;> rfl
  · unfold ThreadRuntime.transcriptPage ThreadTranscriptResponse.fromTranscriptSource
    dsimp only
    rw [hviews]
    split_ifs with hprovider hzero
    · rfl
    · rw [hcursor, if_pos hzero]
    · rw [hcursor, if_neg hzero]

end Pages

theorem filterMap_full {α β : Type} {f : α → Option β} {l : List α}
    (h : (l.filterMap f).length = l.length) : (l.filterMap f).map some = l.map f := by
  induction l with
  | nil => rfl
  | cons a l ih =>
    have hle := List.length_filterMap_le f l
    rw [List.filterMap_cons] at h ⊢
    cases hf : f a with
    | none =>
      rw [hf, List.length_cons] at h
      dsimp only at h
      omega
    | some b =>
      rw [hf] at h
      simp only [List.length_cons, Nat.add_right_cancel_iff] at h
      simp only [List.map_cons, ih h, hf]

theorem served_ids (records : List TranscriptRecord) (page : List TranscriptEntryView) :
    (if ((page.filterMap (·.itemId)).filterMap fun itemId =>
        (records.find? (·.itemId = itemId)).map TranscriptRecord.toView).length = page.length then
      (page.filterMap (·.itemId)).filterMap fun itemId =>
        (records.find? (·.itemId = itemId)).map TranscriptRecord.toView
    else page).map (·.itemId) = page.map (·.itemId) := by
  split_ifs with hlen
  · have hids : (page.filterMap (·.itemId)).length = page.length := by
      have h1 := List.length_filterMap_le (fun itemId =>
        (records.find? (·.itemId = itemId)).map TranscriptRecord.toView)
        (page.filterMap (·.itemId))
      have h2 := List.length_filterMap_le (·.itemId) page
      omega
    have hmerged := filterMap_full (hlen.trans hids.symm)
    rw [← filterMap_full hids]
    have hbind := congrArg (List.map (Option.bind · (·.itemId))) hmerged
    simp only [List.map_map] at hbind
    refine Eq.trans (Eq.trans ?_ hbind) (List.map_congr_left ?_)
    · exact List.map_congr_left fun view _ => rfl
    · intro itemId hmem
      -- every id was found, or the merged list would be shorter
      have hfound : ∃ view, (records.find? (·.itemId = itemId)).map TranscriptRecord.toView =
          some view := by
        have hin : (records.find? (·.itemId = itemId)).map TranscriptRecord.toView ∈
            (page.filterMap (·.itemId)).map fun itemId =>
              (records.find? (·.itemId = itemId)).map TranscriptRecord.toView :=
          List.mem_map_of_mem hmem
        rw [← hmerged] at hin
        obtain ⟨view, -, hview⟩ := List.mem_map.mp hin
        exact ⟨view, hview.symm⟩
      obtain ⟨view, hview⟩ := hfound
      obtain ⟨record, hrecord, rfl⟩ := Option.map_eq_some_iff.mp hview
      have hid : record.itemId = itemId := by simpa using List.find?_some hrecord
      simp only [Function.comp_apply, hview, Option.bind_some, TranscriptRecord.toView, hid]
  · rfl

theorem retainNew_isSome (records transcript kept : List TranscriptRecord)
    (hdistinct : (records.map (·.itemId)).Nodup)
    (hkept : ∀ record ∈ records, record.itemId ∉ kept.map (·.itemId)) :
    (retainNew records transcript kept).isSome := by
  induction records generalizing transcript kept with
  | nil => rfl
  | cons record records ih =>
    rw [List.map_cons, List.nodup_cons] at hdistinct
    rw [List.forall_mem_cons] at hkept
    unfold retainNew
    cases lastIndexOf transcript record.itemId with
    | some index => exact ih _ _ hdistinct.2 hkept.2
    | none =>
      dsimp only
      rw [if_neg hkept.1]
      apply ih _ _ hdistinct.2
      intro other hother
      rw [List.map_cons, List.mem_cons, not_or]
      refine ⟨?_, hkept.2 other hother⟩
      intro hsame
      exact hdistinct.1 (hsame ▸ List.mem_map_of_mem hother)

section Reading

variable {serializedLen : TranscriptEntryView → Nat}
  {provider : Nat → Option ThreadTranscriptPageData} {threadId : String}

theorem stripped_ids (entries : List TranscriptEntryView) :
    (entries.map stripFileChangeDiffs).map (·.itemId) = entries.map (·.itemId) := by
  rw [List.map_map]
  rfl

theorem transcriptViews_ids (runtime : ThreadRuntime) :
    runtime.transcriptViews.map (·.itemId) =
      (runtime.transcript.map (·.itemId)).map some := by
  simp only [ThreadRuntime.transcriptViews, transcriptViewsOf, List.map_map]
  apply List.map_congr_left
  intro record _
  simp only [Function.comp_apply, overlayApplyState]
  split <;> rfl

theorem read_provider_page (serializedLen : TranscriptEntryView → Nat) (threadId : String)
    {runtime : ThreadRuntime} {cursor : Nat} {answer : ThreadTranscriptPageData}
    (hpaged : runtime.providerHistoryPaged = true)
    (hanswer : provider cursor = some answer)
    (hdistinct : ((providerHistoryRecords answer.transcript (some cursor)).map
      (·.itemId)).Nodup) :
    ∃ page runtime', readThreadTranscript serializedLen provider runtime threadId (some cursor) =
        some (page, runtime') ∧
      page.entries.map (·.itemId) = answer.transcript.map (·.itemId) ∧
      page.prevCursor = answer.prevCursor ∧ runtime'.providerHistoryPaged = true := by
  obtain ⟨⟨kept, transcript⟩, hretain⟩ := Option.isSome_iff_exists.mp
    (retainNew_isSome _ runtime.transcript [] hdistinct (by simp))
  unfold readThreadTranscript
  rw [Option.filter_some, if_pos (by simpa using hpaged)]
  dsimp only
  rw [hanswer]
  simp only [ThreadRuntime.prependProviderHistory, hretain, Option.bind_eq_bind, Option.bind_some,
    Option.pure_def, Option.some.injEq, Prod.mk.injEq]
  refine ⟨_, _, ⟨rfl, rfl⟩, ?_, rfl, hpaged⟩
  simp only [ThreadTranscriptResponse.fromProviderPage, stripFileChangeDiffsForTransport,
    stripped_ids]
  exact served_ids (kept ++ transcript) answer.transcript

theorem read_runtime_page (serializedLen : TranscriptEntryView → Nat)
    (provider : Nat → Option ThreadTranscriptPageData) (threadId : String)
    {runtime : ThreadRuntime} (cursor : Nat) (hpaged : runtime.providerHistoryPaged = false) :
    readThreadTranscript serializedLen provider runtime threadId (some cursor) =
      some (runtime.transcriptPage serializedLen threadId (some cursor), runtime) := by
  unfold readThreadTranscript
  rw [Option.filter_some, if_neg (by simp [hpaged])]

structure PageReader.OwnPages (runtime : ThreadRuntime) (reader : PageReader) : Prop where
  paged : reader.runtime.providerHistoryPaged = false
  ids : runtime.transcript.map (·.itemId) <+: reader.runtime.transcript.map (·.itemId)
  bound : reader.cursor.getD 0 ≤ runtime.transcript.length
  positive : reader.cursor ≠ some 0
  delivered : reader.delivered.map (·.itemId) =
    ((runtime.transcript.map (·.itemId)).drop (reader.cursor.getD 0)).map some
  pages : reader.pages.length + reader.cursor.getD 0 ≤ runtime.transcript.length + 1

theorem page_ids {runtime runtime' : ThreadRuntime} {upper index : Nat}
    {entries : List TranscriptEntryView}
    (hids : runtime.transcript.map (·.itemId) <+: runtime'.transcript.map (·.itemId))
    (hupper : upper ≤ runtime.transcript.length)
    (hentries : entries =
      ((runtime'.transcriptViews.take upper).drop index).map stripFileChangeDiffs) :
    entries.map (·.itemId) =
      (((runtime.transcript.map (·.itemId)).take upper).drop index).map some := by
  obtain ⟨extra, hextra⟩ := hids
  rw [hentries, stripped_ids, List.map_drop, List.map_take, transcriptViews_ids, ← hextra,
    ← List.map_take, ← List.map_drop, List.take_append_of_le_length (by simpa using hupper)]

theorem drop_take_append_drop {α : Type} {l : List α} {index upper : Nat} (h : index ≤ upper)
    (hupper : upper ≤ l.length) : (l.take upper).drop index ++ l.drop upper = l.drop index := by
  have hlen : index ≤ (l.take upper).length := by
    rw [List.length_take]
    omega
  rw [← List.drop_append_of_le_length hlen, List.take_append_drop]

theorem next_pages {reader reader' : PageReader}
    (h : reader.next serializedLen provider threadId = some reader') :
    reader'.pages.length = reader.pages.length + 1 := by
  simp only [PageReader.next, Option.bind_eq_bind, Option.bind_eq_some_iff, Option.pure_def,
    Option.some.injEq] at h
  obtain ⟨cursor, -, ⟨page, runtime⟩, -, rfl⟩ := h
  rfl

theorem ownPages_start {runtime : ThreadRuntime} (hpaged : runtime.providerHistoryPaged = false) :
    (PageReader.start serializedLen threadId runtime).OwnPages runtime := by
  obtain ⟨index, hindex, hless, hentries, hcursor, -⟩ :=
    transcriptPage_spec serializedLen runtime threadId none
  rw [Option.getD_none, Nat.min_self] at hindex hless hentries
  rw [if_neg (by simp [hpaged])] at hcursor
  have hgetD : (if 0 < index then some index else none).getD 0 = index := by
    split_ifs
    · rfl
    · simp only [Option.getD_none]
      omega
  have hids := page_ids (List.prefix_refl _) le_rfl hentries
  rw [List.take_of_length_le (by rw [List.length_map])] at hids
  refine ⟨hpaged, List.prefix_refl _, ?_, ?_, ?_, ?_⟩
  · change (runtime.transcriptPage serializedLen threadId none).prevCursor.getD 0 ≤ _
    rw [hcursor, hgetD]
    exact hindex
  · change (runtime.transcriptPage serializedLen threadId none).prevCursor ≠ some 0
    rw [hcursor]
    split_ifs with hpos
    · rw [Ne, Option.some.injEq]
      omega
    · simp
  · change (([runtime.transcriptPage serializedLen threadId none].flatMap (·.entries)).map _) =
      ((runtime.transcript.map _).drop
        ((runtime.transcriptPage serializedLen threadId none).prevCursor.getD 0)).map some
    rw [hcursor, hgetD, List.flatMap_singleton]
    exact hids
  · change 1 + (runtime.transcriptPage serializedLen threadId none).prevCursor.getD 0 ≤ _
    rw [hcursor, hgetD]
    omega

theorem ownPages_grow {runtime runtime' : ThreadRuntime} {reader : PageReader}
    (h : reader.OwnPages runtime) (hgrow : reader.runtime.Grows runtime') :
    PageReader.OwnPages runtime { reader with runtime := runtime' } :=
  ⟨hgrow.paged.trans h.paged, h.ids.trans hgrow.ids, h.bound, h.positive, h.delivered, h.pages⟩

theorem ownPages_next (serializedLen : TranscriptEntryView → Nat)
    (provider : Nat → Option ThreadTranscriptPageData) (threadId : String)
    {runtime : ThreadRuntime} {reader : PageReader} (h : reader.OwnPages runtime) {cursor : Nat}
    (hreader : reader.cursor = some cursor) :
    ∃ reader', reader.next serializedLen provider threadId = some reader' ∧
      reader'.OwnPages runtime := by
  have hread := read_runtime_page serializedLen provider threadId cursor h.paged
  refine ⟨_, by rw [PageReader.next, hreader, Option.bind_eq_bind, Option.bind_some, hread]; rfl,
    ?_⟩
  have hbound := h.bound
  have hpages := h.pages
  have hdelivered := h.delivered
  have hpositive : 0 < cursor := by
    have := h.positive
    rw [hreader, Ne, Option.some.injEq] at this
    omega
  rw [hreader, Option.getD_some] at hbound hpages hdelivered
  have hgrown : runtime.transcript.length ≤ reader.runtime.transcript.length := by
    simpa using h.ids.length_le
  have hmin : min cursor reader.runtime.transcript.length = cursor := by omega
  obtain ⟨index, hindex, hless, hentries, hcursor, -⟩ :=
    transcriptPage_spec serializedLen reader.runtime threadId (some cursor)
  rw [Option.getD_some, hmin] at hindex hless hentries
  rw [if_neg (by simp)] at hcursor
  have hindexless := hless hpositive
  have hgetD : (if 0 < index then some index else none).getD 0 = index := by
    split_ifs
    · rfl
    · simp only [Option.getD_none]
      omega
  refine ⟨h.paged, h.ids, ?_, ?_, ?_, ?_⟩
  · dsimp only
    rw [hcursor, hgetD]
    omega
  · dsimp only
    rw [hcursor]
    split_ifs with hpos
    · rw [Ne, Option.some.injEq]
      omega
    · simp
  · dsimp only [PageReader.delivered]
    rw [List.flatMap_cons, List.map_append, page_ids h.ids hbound hentries, hcursor, hgetD]
    have hold : (reader.pages.flatMap (·.entries)).map (·.itemId) =
        ((runtime.transcript.map (·.itemId)).drop cursor).map some := hdelivered
    rw [hold, ← List.map_append, drop_take_append_drop hindex (by simpa using hbound)]
  · dsimp only
    rw [hcursor, hgetD, List.length_cons]
    omega

/-- What the tail page begins, growth leaves and every answer keeps holds while a reader pages. -/
theorem PageReader.Reads.keeps {P : PageReader → Prop} {runtime : ThreadRuntime}
    (hstart : P (.start serializedLen threadId runtime))
    (hgrows : ∀ (reader : PageReader) (runtime' : ThreadRuntime),
      reader.runtime.Grows runtime' → P reader → P { reader with runtime := runtime' })
    (hnexts : ∀ (reader : PageReader) (cursor : Nat), P reader → reader.cursor = some cursor →
      ∃ next, reader.next serializedLen provider threadId = some next ∧ P next)
    {reader : PageReader} (h : Reads serializedLen provider threadId runtime reader) :
    P reader := by
  induction h with
  | start => exact hstart
  | grow _ hgrow ih => exact hgrows _ _ hgrow ih
  | request _ hnext ih =>
    rename_i reader reader' _
    cases hcursor : reader.cursor with
    | none =>
      rw [PageReader.next, hcursor] at hnext
      exact absurd hnext (by simp)
    | some cursor =>
      obtain ⟨next, hnext', hkept⟩ := hnexts reader cursor ih hcursor
      rw [hnext] at hnext'
      exact Option.some.inj hnext' ▸ hkept

theorem ownPages_reads {runtime : ThreadRuntime} (hpaged : runtime.providerHistoryPaged = false)
    {reader : PageReader}
    (h : PageReader.Reads serializedLen provider threadId runtime reader) :
    reader.OwnPages runtime :=
  h.keeps (ownPages_start hpaged) (fun _ _ hgrow ih => ownPages_grow ih hgrow)
    fun _ _ ih hcursor => ownPages_next serializedLen provider threadId ih hcursor

theorem readsAll_own {runtime : ThreadRuntime} (hpaged : runtime.providerHistoryPaged = false) :
    ReadsAll serializedLen provider threadId runtime [] := by
  refine ⟨?_, ?_, runtime.transcript.length + 1, ?_⟩
  · intro reader hreads hnone
    have hdelivered := (ownPages_reads hpaged hreads).delivered
    rw [hnone, Option.getD_none, List.drop_zero, List.map_map] at hdelivered
    exact hdelivered
  · intro reader hreads hsome
    obtain ⟨cursor, hcursor⟩ := Option.ne_none_iff_exists'.mp hsome
    obtain ⟨reader', hnext, -⟩ := ownPages_next serializedLen provider threadId
      (ownPages_reads hpaged hreads) hcursor
    rw [hnext]
    rfl
  · intro reader hreads
    have hpages := (ownPages_reads hpaged hreads).pages
    omega

/-- Where a reader of a provider-paged thread stands: it has the provider's pages it asked for
and, of the runtime, what the tail page held. -/
structure PageReader.ProviderPages (provider : Nat → Option ThreadTranscriptPageData)
    (runtime : ThreadRuntime) (pages : List (List TranscriptEntryView)) (index : Nat)
    (reader : PageReader) : Prop where
  paged : reader.runtime.providerHistoryPaged = true
  history : ∃ left got, ProviderHistory provider reader.cursor left ∧ left ++ got = pages ∧
    reader.pages.length = got.length + 1 ∧
    reader.delivered.map (·.itemId) =
      got.flatten.map (·.itemId) ++ ((runtime.transcript.map (·.itemId)).drop index).map some

/-- The first page of a provider-paged thread: the end of the runtime, and the provider's
cursor. -/
theorem providerPages_start (serializedLen : TranscriptEntryView → Nat) (threadId : String)
    {provider : Nat → Option ThreadTranscriptPageData} {runtime : ThreadRuntime}
    (hpaged : runtime.providerHistoryPaged = true) {pages : List (List TranscriptEntryView)}
    (hhistory : ProviderHistory provider runtime.providerHistoryCursor pages) :
    ∃ index ≤ runtime.transcript.length,
      (index = 0 ↔ FitsOnePage serializedLen threadId runtime.transcriptViews) ∧
      (PageReader.start serializedLen threadId runtime).ProviderPages provider runtime pages
        index := by
  obtain ⟨index, hindex, -, hentries, hcursor, hfits⟩ :=
    transcriptPage_spec serializedLen runtime threadId none
  rw [Option.getD_none, Nat.min_self] at hindex hentries hfits
  rw [if_pos ⟨rfl, hpaged⟩] at hcursor
  have hviews : runtime.transcriptViews.length = runtime.transcript.length := by
    simp [ThreadRuntime.transcriptViews, transcriptViewsOf]
  rw [← hviews, List.take_length] at hfits
  have hids := page_ids (List.prefix_refl _) le_rfl hentries
  rw [List.take_of_length_le (by rw [List.length_map])] at hids
  refine ⟨index, hindex, hfits, hpaged, pages, [], ?_, List.append_nil _, rfl, ?_⟩
  · change ProviderHistory provider (runtime.transcriptPage serializedLen threadId none).prevCursor _
    rw [hcursor]
    exact hhistory
  · change (([runtime.transcriptPage serializedLen threadId none].flatMap (·.entries)).map _) = _
    rw [List.flatMap_singleton]
    exact hids

theorem providerPages_next {runtime : ThreadRuntime} {pages : List (List TranscriptEntryView)}
    {index : Nat} {reader : PageReader} (h : reader.ProviderPages provider runtime pages index)
    {cursor : Nat} (hreader : reader.cursor = some cursor) :
    ∃ reader', reader.next serializedLen provider threadId = some reader' ∧
      reader'.ProviderPages provider runtime pages index := by
  obtain ⟨left, got, hhistory, happend, hcount, hdelivered⟩ := h.history
  rw [hreader] at hhistory
  cases hhistory with
  | page hanswer hdistinct holder =>
    rename_i answer older
    obtain ⟨page, runtime', hread, hids, hprev, hpaged⟩ :=
      read_provider_page serializedLen threadId h.paged hanswer hdistinct
    refine ⟨_, by rw [PageReader.next, hreader, Option.bind_eq_bind, Option.bind_some, hread]; rfl,
      hpaged, older, answer.transcript :: got, ?_, ?_, ?_, ?_⟩
    · change ProviderHistory provider page.prevCursor older
      rw [hprev]
      exact holder
    · rw [← happend, List.append_assoc]
      rfl
    · simp [hcount]
    · dsimp only [PageReader.delivered]
      rw [List.flatMap_cons, List.map_append, hids, List.flatten_cons, List.map_append,
        List.append_assoc]
      exact congrArg _ hdelivered

theorem providerPages_reads {runtime : ThreadRuntime} {pages : List (List TranscriptEntryView)}
    {index : Nat} (hstart : (PageReader.start serializedLen threadId runtime).ProviderPages provider
      runtime pages index) {reader : PageReader}
    (h : PageReader.Reads serializedLen provider threadId runtime reader) :
    reader.ProviderPages provider runtime pages index :=
  h.keeps hstart (fun _ _ hgrow ih => ⟨hgrow.paged.trans ih.paged, ih.history⟩)
    fun _ _ ih hcursor => providerPages_next ih hcursor

/-- What a reader has in the end: the provider's pages and the part of the runtime that the tail
page held. -/
theorem providerPages_end {runtime : ThreadRuntime} {pages : List (List TranscriptEntryView)}
    {index : Nat} {reader : PageReader} (h : reader.ProviderPages provider runtime pages index)
    (hcursor : reader.cursor = none) : reader.delivered.map (·.itemId) =
      pages.flatten.map (·.itemId) ++
        ((runtime.transcript.map (·.itemId)).drop index).map some := by
  obtain ⟨left, got, hhistory, happend, -, hdelivered⟩ := h.history
  rw [hcursor] at hhistory
  cases hhistory with
  | done =>
    rw [List.nil_append] at happend
    rw [hdelivered, happend]

theorem exists_end {runtime : ThreadRuntime} {older : List TranscriptEntryView}
    (h : ReadsAll serializedLen provider threadId runtime older) :
    ∃ reader, PageReader.Reads serializedLen provider threadId runtime reader ∧
      reader.cursor = none := by
  obtain ⟨bound, hbound⟩ := h.ends
  have hgo : ∀ left reader, PageReader.Reads serializedLen provider threadId runtime reader →
      bound ≤ reader.pages.length + left → ∃ reader',
        PageReader.Reads serializedLen provider threadId runtime reader' ∧ reader'.cursor = none := by
    intro left
    induction left with
    | zero =>
      intro reader hreads hlen
      by_contra hnone
      have hsome : reader.cursor ≠ none := fun hcursor => hnone ⟨reader, hreads, hcursor⟩
      obtain ⟨reader', hnext⟩ := Option.isSome_iff_exists.mp (h.answered reader hreads hsome)
      have hmore := hbound reader' (hreads.request hnext)
      have hcount := next_pages hnext
      omega
    | succ left ih =>
      intro reader hreads hlen
      by_cases hcursor : reader.cursor = none
      · exact ⟨reader, hreads, hcursor⟩
      · obtain ⟨reader', hnext⟩ := Option.isSome_iff_exists.mp (h.answered reader hreads hcursor)
        have hcount := next_pages hnext
        exact ih reader' (hreads.request hnext) (by omega)
  exact hgo bound _ .start (by omega)

theorem tail_skips (serializedLen : TranscriptEntryView → Nat) (threadId : String)
    {provider : Nat → Option ThreadTranscriptPageData} {runtime : ThreadRuntime}
    (hpaged : runtime.providerHistoryPaged = true) {pages : List (List TranscriptEntryView)}
    (hhistory : ProviderHistory provider runtime.providerHistoryCursor pages)
    (hfits : ¬ FitsOnePage serializedLen threadId runtime.transcriptViews) :
    ¬ ReadsAll serializedLen provider threadId runtime pages.flatten := by
  intro hall
  obtain ⟨index, hindex, hzero, hstart⟩ :=
    providerPages_start serializedLen threadId hpaged hhistory
  have hpositive : index ≠ 0 := fun h => hfits (hzero.mp h)
  obtain ⟨reader, hreads, hcursor⟩ := exists_end hall
  have hgot := providerPages_end (providerPages_reads hstart hreads) hcursor
  rw [hall.complete reader hreads hcursor] at hgot
  have hlen := congrArg List.length (List.append_cancel_left hgot)
  simp only [List.length_map, List.length_drop] at hlen
  omega

theorem readsAll_paged (serializedLen : TranscriptEntryView → Nat) (threadId : String)
    {provider : Nat → Option ThreadTranscriptPageData} {runtime : ThreadRuntime}
    (hpaged : runtime.providerHistoryPaged = true) {pages : List (List TranscriptEntryView)}
    (hhistory : ProviderHistory provider runtime.providerHistoryCursor pages)
    (hfits : FitsOnePage serializedLen threadId runtime.transcriptViews) :
    ReadsAll serializedLen provider threadId runtime pages.flatten := by
  obtain ⟨index, hindex, hzero, hstart⟩ :=
    providerPages_start serializedLen threadId hpaged hhistory
  obtain rfl : index = 0 := hzero.mpr hfits
  refine ⟨?_, ?_, pages.length + 1, ?_⟩
  · intro reader hreads hcursor
    rw [providerPages_end (providerPages_reads hstart hreads) hcursor, List.drop_zero,
      List.map_map]
    rfl
  · intro reader hreads hsome
    obtain ⟨cursor, hcursor⟩ := Option.ne_none_iff_exists'.mp hsome
    obtain ⟨reader', hnext, -⟩ :=
      providerPages_next (providerPages_reads hstart hreads) hcursor
    rw [hnext]
    rfl
  · intro reader hreads
    obtain ⟨left, got, -, happend, hcount, -⟩ := (providerPages_reads hstart hreads).history
    rw [hcount, ← happend, List.length_append]
    omega

end Reading

/-- Reading backwards gives every entry once and in order exactly when the runtime serves its own
pages, or its whole transcript fits the tail page: the tail page of a provider-paged thread goes
on with the provider's cursor and never comes back to what it had no room for. -/
theorem paging_complete_iff (serializedLen : TranscriptEntryView → Nat)
    (provider : Nat → Option ThreadTranscriptPageData) (threadId : String)
    (runtime : ThreadRuntime) (pages : List (List TranscriptEntryView))
    (hhistory : if runtime.providerHistoryPaged = true then
      ProviderHistory provider runtime.providerHistoryCursor pages else pages = []) :
    ReadsAll serializedLen provider threadId runtime pages.flatten ↔
      runtime.providerHistoryPaged = false ∨
        FitsOnePage serializedLen threadId runtime.transcriptViews := by
  cases hpaged : runtime.providerHistoryPaged with
  | false =>
    rw [if_neg (by simp [hpaged])] at hhistory
    rw [hhistory]
    simp only [List.flatten_nil, true_or, iff_true]
    exact readsAll_own hpaged
  | true =>
    rw [if_pos hpaged] at hhistory
    simp only [Bool.true_eq_false, false_or]
    constructor
    · intro hall
      by_contra hfits
      exact tail_skips serializedLen threadId hpaged hhistory hfits hall
    · intro hfits
      exact readsAll_paged serializedLen threadId hpaged hhistory hfits

/-- The serialized length of a completed reply with a one-letter id. -/
def replyLen (view : TranscriptEntryView) : Nat := 116 + (view.text.getD "").utf8ByteSize

def twoReplies (textLength : Nat) (cursor : Option Nat) : ThreadRuntime where
  summary := none
  currentStatus := "idle"
  transcriptRevision := 1
  transcript := ["a", "b"].map fun itemId =>
    { itemId, kind := .agentText, text := some (String.ofList (List.replicate textLength 'x'))
      status := "completed", turnId := none, tool := none }
  providerHistoryPaged := true
  providerHistoryCursor := cursor
  lastUpdateAt := 0

theorem replicate_size (n : Nat) : (String.ofList (List.replicate n 'x')).utf8ByteSize = n := by
  induction n with
  | zero => simp
  | succ n ih =>
    rw [List.replicate_succ, String.ofList_cons, String.utf8ByteSize_append, ih,
      String.utf8ByteSize_singleton]
    have hsize : 'x'.utf8Size = 1 := by decide
    omega

theorem twoReplies_fits (textLength : Nat) (cursor : Option Nat) :
    FitsOnePage replyLen "t" (twoReplies textLength cursor).transcriptViews ↔
      textLength ≤ 9723 := by
  have hviews : (twoReplies textLength cursor).transcriptViews.length = 2 := rfl
  have hsum : ((twoReplies textLength cursor).transcriptViews.map fun view =>
      replyLen (stripFileChangeDiffs view)).sum = 2 * (116 + textLength) := by
    change 116 + (String.ofList (List.replicate textLength 'x')).utf8ByteSize +
      (116 + (String.ofList (List.replicate textLength 'x')).utf8ByteSize + 0) = _
    rw [replicate_size]
    omega
  have hid : "t".utf8ByteSize = 1 := by decide
  unfold FitsOnePage threadTranscriptEnvelopeUpperBoundBytes
    threadTranscriptResponseTargetBytes
  rw [hviews, hsum, hid]
  omega

/-- Two replies of twelve thousand bytes: only the newer one is ever served. -/
theorem first_reply_unreachable :
    ¬ ReadsAll replyLen (fun _ => none) "t" (twoReplies 12000 none) [] := by
  have hhistory : ProviderHistory (fun _ => none) (twoReplies 12000 none).providerHistoryCursor [] :=
    .done
  have hlong : ¬ FitsOnePage replyLen "t" (twoReplies 12000 none).transcriptViews := by
    rw [twoReplies_fits]
    decide
  have hpaged : (twoReplies 12000 none).providerHistoryPaged = true := rfl
  exact tail_skips replyLen "t" hpaged hhistory hlong

def oneOlderPage (cursor : Nat) : Option ThreadTranscriptPageData :=
  if cursor = 4096 then
    some { transcript := [⟨some "z", .userText, some "hi", "completed", none, none, .full⟩]
           prevCursor := none }
  else none

/-- Two short replies and that older page. -/
theorem paging_complete_short :
    ReadsAll replyLen oneOlderPage "t" (twoReplies 12 (some 4096))
      [⟨some "z", .userText, some "hi", "completed", none, none, .full⟩] := by
  have hanswer : oneOlderPage 4096 = some
      { transcript := [⟨some "z", .userText, some "hi", "completed", none, none, .full⟩]
        prevCursor := none } := rfl
  have hhistory : ProviderHistory oneOlderPage (some 4096)
      ([] ++ [[⟨some "z", .userText, some "hi", "completed", none, none, .full⟩]]) :=
    .page hanswer (by simp [providerHistoryRecords]) .done
  have hfits : FitsOnePage replyLen "t" (twoReplies 12 (some 4096)).transcriptViews := by
    rw [twoReplies_fits]
    decide
  have hpaged : (twoReplies 12 (some 4096)).providerHistoryPaged = true := rfl
  refine (paging_complete_iff replyLen oneOlderPage "t" (twoReplies 12 (some 4096))
    [[⟨some "z", .userText, some "hi", "completed", none, none, .full⟩]] ?_).mpr (Or.inr hfits)
  rw [if_pos hpaged]
  exact hhistory

end AgentRelay.Relay
