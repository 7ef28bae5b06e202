import AgentRelay.WindowOrder

/-! The gate around the hydration window: a status, a fetch under way and the request that owns
both. A client may have several requests unanswered at once, and only the one whose promise is
stored owns the status. -/
namespace AgentRelay.Hydration
open Text Relay StepRun

/-- The identity and shape of a snapshot's tail, without its texts. -/
def transcriptHydrationSignature (snapshot : Snapshot) : String :=
  let parts := [snapshot.activeThreadId.getD "", snapshot.activeTurnId.getD "",
    toString snapshot.transcript.length]
  "|".intercalate (parts ++ snapshot.transcript.flatMap fun entry =>
    [entry.itemId.getD "", entry.kind, entry.turnId.getD "",
      (entry.tool.map (·.itemType)).getD "", (entry.tool.map (·.name)).getD "",
      (entry.tool.bind (·.path)).getD "", (entry.tool.bind (·.url)).getD "",
      (entry.tool.bind (·.command)).getD ""])

/-- Which page a hydration waits for: the tail, or an older one of its backfill. The backfill
keeps the cursor of the tail page it began with. -/
inductive Fetch
  | tail
  | older (before : String) (tailPrevCursor : Option String) (loadedPages : Nat)
  deriving DecidableEq, Repr

/-- A request that has not settled. Once its outcome is applied it runs a callback and is
`settling`: all that is left of it is its `finally` block. -/
inductive Request
  | hydrate (snapshot : Snapshot) (signature : String) (minInitialEntries maxInitialPages : Nat)
      (capturedRefusalEpoch : Option Nat) (fetch : Fetch)
  | loadOlder (threadId before : String) (capturedRefusalEpoch : Option Nat)
  | settling
  deriving DecidableEq, Repr

inductive Answer
  | failed
  | page (threadId : Option String) (page : Page) (now : Nat)
  deriving DecidableEq, Repr

structure Client where
  store : Store := { window := {} }
  promise : Option Nat := none
  fetchedRevision : Option Nat := none
  refusalEpoch : Option Nat := none
  /-- The thread of the rendered session. -/
  sessionThreadId : Option String := none
  requests : Nat → Option Request := fun _ => none
  nextRequest : Nat := 0

inductive PageCheck
  | error
  | stale
  | refused
  | moved
  | rekeyed
  | passes
  deriving DecidableEq, Repr

structure Prepared where
  signature : Option String := none
  shouldHydrate : Bool := false
  alreadyComplete : Bool := false
  existingPromise : Option Nat := none

inductive ClientOp
  | hydrate (snapshot : Snapshot) (transcriptTruncated : Bool)
      (minInitialEntries maxInitialPages : Nat)
  | loadOlder
  | answer (id : Nat) (answer : Answer)
  | finish (id : Nat)
  | bumpRefusalEpoch
  | renderSession (threadId : Option String)
  | stash
  | restore (threadId : Option String)
  | clear
  | restoreSnapshot (snapshot : Snapshot)
  | delta (delta : Delta)
  | invalidate (threadId itemId : String)
  | needsRepair

def ClientOp.request : ClientOp → Option Nat
  | .answer id _ | .finish id => some id
  | _ => none

namespace Client

abbrev window (c : Client) : Window := c.store.window

abbrev status (c : Client) : HydrationStatus := c.window.status

def setWindow (c : Client) (w : Window) : Client := { c with store := { c.store with window := w } }

def setStatus (c : Client) (status : HydrationStatus) : Client :=
  c.setWindow { c.window with status := status }

def setRequest (c : Client) (id : Nat) (request : Option Request) : Client :=
  { c with requests := Function.update c.requests id request }

/-- Lay a window over the cleared slot, which has no promise and no fetched revision. -/
def resetWindow (c : Client) (w : Window) : Client :=
  { c.setWindow w with promise := none, fetchedRevision := none }

/-- The window takes in the snapshot; the fetch path is armed again when the tail lacks a body
the window does not hold and nothing is being fetched. -/
def prepareTranscriptHydration (c : Client) (snapshot : Snapshot) (transcriptTruncated : Bool) :
    Client × Prepared :=
  if truthy snapshot.activeThreadId = none ∨ transcriptTruncated = false then (c, {})
  else
    let w := c.window
    let signature := transcriptHydrationSignature snapshot
    let sameThread := decide (w.threadId = snapshot.activeThreadId)
    let sameThreadWithVisibleEntries := sameThread && decide (w.order ≠ [])
    let hydrationInFlight := decide (w.status = .loading)
    let alreadyFetchedThisRevision := snapshot.transcriptRevision.isSome &&
      decide (snapshot.transcriptRevision = c.fetchedRevision)
    let reHydrateTail := sameThreadWithVisibleEntries && !hydrationInFlight &&
      !alreadyFetchedThisRevision && w.snapshotTailNeedsFullText snapshot
    let patched :=
      if sameThreadWithVisibleEntries then
        c.setWindow (w.createMergedSnapshotTailPatch snapshot signature)
      else if !sameThread || decide (w.signature ≠ some signature) then
        c.resetWindow { baseSnapshot := some snapshot, signature := some signature
                        threadId := snapshot.activeThreadId }
      else c.setWindow { w with baseSnapshot := some snapshot }
    let rearmed :=
      if reHydrateTail then
        { patched.setWindow { patched.window with tailReady := false, status := .idle } with
          promise := none, fetchedRevision := snapshot.transcriptRevision }
      else patched
    -- the answers read the state before the patch
    (rearmed,
      { signature := some signature
        shouldHydrate := reHydrateTail || !w.tailReady
        alreadyComplete := !reHydrateTail && w.tailReady && decide (w.olderCursor = none)
        existingPromise := if reHydrateTail then none else c.promise })

/-- Set the status to loading and store the new request's promise. The callback some surfaces
run in between renders the session and starts no request. -/
def startRequest (c : Client) (request : Request) : Client :=
  { (c.setStatus .loading).setRequest c.nextRequest (some request) with
    promise := some c.nextRequest, nextRequest := c.nextRequest + 1 }

def hydrateTranscript (c : Client) (snapshot : Snapshot) (transcriptTruncated : Bool)
    (minInitialEntries maxInitialPages : Nat) : Client :=
  let prepared := c.prepareTranscriptHydration snapshot transcriptTruncated
  if prepared.2.shouldHydrate = false ∨ prepared.2.alreadyComplete then prepared.1
  else if prepared.2.existingPromise.isSome then prepared.1
  else
    prepared.1.startRequest (.hydrate snapshot (transcriptHydrationSignature snapshot)
      minInitialEntries maxInitialPages prepared.1.refusalEpoch .tail)

def loadOlderTranscript (c : Client) : Client :=
  match truthy c.sessionThreadId, c.window.olderCursor with
  | some threadId, some before =>
    if c.promise.isSome ∨ c.status = .loading then c
    else c.startRequest (.loadOlder threadId before c.refusalEpoch)
  | _, _ => c

/-- Release loading, for the request whose promise is stored. -/
def setTranscriptHydrationIdle (c : Client) (id : Nat) : Client :=
  if c.promise ≠ some id ∨ c.status ≠ .loading then c else c.setStatus .idle

def clearTranscriptHydrationPromise (c : Client) (id : Nat) : Client :=
  if c.promise ≠ some id then c
  else
    let released := if c.status = .loading then c.setStatus .idle else c
    { released with promise := none }

/-- The `finally` block, after which the request has settled. -/
def settle (c : Client) (id : Nat) : Client :=
  (c.clearTranscriptHydrationPromise id).setRequest id none

def mergeTranscriptHydrationPage (c : Client) (now : Nat) (page : Page) (prepend : Bool) :
    Client :=
  c.setWindow (c.window.createMergedTranscriptHydrationPagePatch now page prepend)

def markTranscriptHydrationComplete (c : Client) : Client :=
  c.setWindow { c.window with status := .complete, tailReady := true }

def clearTranscriptHydrationFetchedRevision (c : Client) : Client :=
  { c with fetchedRevision := none }

def isStaleTranscriptPage (c : Client) (threadId : Option String) : Bool :=
  (truthy threadId).isSome && (truthy c.sessionThreadId).isSome &&
    decide (threadId ≠ c.sessionThreadId)

def isRefusalEpochStale (c : Client) (capturedRefusalEpoch : Option Nat) : Bool :=
  capturedRefusalEpoch ≠ c.refusalEpoch

def checkWindow (c : Client) (snapshot : Snapshot) (signature : String) : PageCheck :=
  if c.window.threadId ≠ snapshot.activeThreadId then .moved
  else if c.window.signature ≠ some signature then .rekeyed
  else .passes

def checkPage (c : Client) (threadId : Option String) (capturedRefusalEpoch : Option Nat)
    (pageThreadId : Option String) : PageCheck :=
  if pageThreadId ≠ threadId then .error
  else if c.isStaleTranscriptPage pageThreadId then .stale
  else if c.isRefusalEpochStale capturedRefusalEpoch then .refused
  else .passes

def checkTailPage (c : Client) (snapshot : Snapshot) (signature : String)
    (capturedRefusalEpoch : Option Nat) (pageThreadId : Option String) (page : Page) :
    PageCheck :=
  if pageThreadId ≠ snapshot.activeThreadId then .error
  else if snapshot.transcript ≠ [] ∧ page.entries = [] then .error
  else
    match c.checkPage snapshot.activeThreadId capturedRefusalEpoch pageThreadId with
    | .passes => c.checkWindow snapshot signature
    | failed => failed

/-- The `catch` block. The error callback runs next, so the request is not settled yet. -/
def failRequest (c : Client) (id : Nat) : Client :=
  (c.setTranscriptHydrationIdle id).setRequest id (some .settling)

def turnAway (c : Client) (id : Nat) : PageCheck → Client
  | .error => c.failRequest id
  | .rekeyed => c.clearTranscriptHydrationFetchedRevision.settle id
  | _ => c.settle id

/-- The pages are in: record what they were, and run the progress callback. -/
def concludeHydration (c : Client) (id : Nat) (snapshot : Snapshot)
    (tailPrevCursor : Option String) : Client :=
  let recorded := c.setWindow { c.window with bodyRevision := snapshot.transcriptRevision }
  let completed :=
    if tailPrevCursor = none then
      { recorded.markTranscriptHydrationComplete with
        fetchedRevision := snapshot.transcriptRevision }
    else recorded
  completed.setRequest id (some .settling)

/-- After a merged page: fetch the next older one while the window is short, else conclude. -/
def continueHydration (c : Client) (id : Nat) (snapshot : Snapshot) (signature : String)
    (minInitialEntries maxInitialPages : Nat) (tailPrevCursor : Option String)
    (loadedPages : Nat) : Client :=
  match c.window.olderCursor with
  | some before =>
    if c.window.order.length < minInitialEntries ∧ loadedPages < maxInitialPages then
      c.setRequest id (some (.hydrate snapshot signature minInitialEntries maxInitialPages
        c.refusalEpoch (.older before tailPrevCursor loadedPages)))
    else c.concludeHydration id snapshot tailPrevCursor
  | none => c.concludeHydration id snapshot tailPrevCursor

def mergeBackfillPage (c : Client) (id : Nat) (snapshot : Snapshot) (signature : String)
    (minInitialEntries maxInitialPages : Nat) (tailPrevCursor : Option String)
    (loadedPages now : Nat) (page : Page) : Client :=
  let merged := c.mergeTranscriptHydrationPage now page true
  match merged.checkWindow snapshot signature with
  | .passes =>
    merged.continueHydration id snapshot signature minInitialEntries maxInitialPages
      tailPrevCursor (loadedPages + 1)
  | check => merged.turnAway id check

def mergeOlderPage (c : Client) (id now : Nat) (page : Page) : Client :=
  let merged := c.mergeTranscriptHydrationPage now page true
  let marked := if page.prevCursor.isSome then merged.setTranscriptHydrationIdle id
    else merged.markTranscriptHydrationComplete
  marked.setRequest id (some .settling)

def answerRequest (c : Client) (id : Nat) (answer : Answer) : Client :=
  match c.requests id, answer with
  | none, _ | some .settling, _ => c
  | some _, .failed => c.failRequest id
  | some (.hydrate snapshot signature minInitialEntries maxInitialPages epoch .tail),
      .page threadId page now =>
    match c.checkTailPage snapshot signature epoch threadId page with
    | .passes =>
      (c.mergeTranscriptHydrationPage now page false).continueHydration id snapshot signature
        minInitialEntries maxInitialPages page.prevCursor 1
    | check => c.turnAway id check
  | some (.hydrate snapshot signature minInitialEntries maxInitialPages epoch
        (.older _ tailPrevCursor loadedPages)), .page threadId page now =>
    match c.checkPage snapshot.activeThreadId epoch threadId with
    | .passes =>
      c.mergeBackfillPage id snapshot signature minInitialEntries maxInitialPages
        tailPrevCursor loadedPages now page
    | check => c.turnAway id check
  | some (.loadOlder olderThreadId _ epoch), .page threadId page now =>
    match c.checkPage (some olderThreadId) epoch threadId with
    | .passes => c.mergeOlderPage id now page
    | .refused => (c.setTranscriptHydrationIdle id).settle id
    | check => c.turnAway id check

def finishRequest (c : Client) (id : Nat) : Client :=
  match c.requests id with
  | some .settling => c.settle id
  | _ => c

/-- The tail is laid over the loaded window of its thread. -/
def restoreHydratedTranscriptSnapshot (c : Client) (snapshot : Snapshot) : Client :=
  if truthy snapshot.activeThreadId = none ∨ c.window.threadId ≠ snapshot.activeThreadId ∨
      c.window.order = [] then c
  else c.setWindow (c.window.buildHydratedTranscriptSnapshot snapshot).1

/-- After a gap in the deltas no body of the window is relied on. -/
def markTranscriptWindowNeedsRepair (c : Client) : Client :=
  c.setWindow { c.window with
    entries := c.window.entries.map fun _ entry =>
      if entry.contentState = .full then { entry with contentState := .preview } else entry }

def step (c : Client) : ClientOp → Client
  | .hydrate snapshot transcriptTruncated minInitialEntries maxInitialPages =>
    c.hydrateTranscript snapshot transcriptTruncated minInitialEntries maxInitialPages
  | .loadOlder => c.loadOlderTranscript
  | .answer id answer => c.answerRequest id answer
  | .finish id => c.finishRequest id
  | .bumpRefusalEpoch => { c with refusalEpoch := some (c.refusalEpoch.getD 0 + 1) }
  | .renderSession threadId => { c with sessionThreadId := threadId }
  | .stash => { c with store := c.store.stashTranscriptHydrationForThread }
  | .restore threadId =>
    { c with store := c.store.restoreTranscriptHydrationForThread threadId
             promise := none, fetchedRevision := none }
  | .clear => { c with store := { window := {} }, promise := none, fetchedRevision := none }
  | .restoreSnapshot snapshot => c.restoreHydratedTranscriptSnapshot snapshot
  | .delta delta => c.setWindow (c.window.deliver delta)
  | .invalidate threadId itemId =>
    c.setWindow (c.window.invalidateTranscriptWindowEntryForPatch threadId itemId)
  | .needsRepair => c.markTranscriptWindowNeedsRepair

def merges (c : Client) (id : Nat) (answer : Answer) : Bool :=
  match c.requests id, answer with
  | some (.hydrate snapshot signature _ _ epoch .tail), .page threadId page _ =>
    c.checkTailPage snapshot signature epoch threadId page = .passes
  | some (.hydrate snapshot _ _ _ epoch (.older _ _ _)), .page threadId _ _ =>
    c.checkPage snapshot.activeThreadId epoch threadId = .passes
  | some (.loadOlder olderThreadId _ epoch), .page threadId _ _ =>
    c.checkPage (some olderThreadId) epoch threadId = .passes
  | _, _ => false

/-- Only the request whose promise is stored gets a page as far as the merge. -/
def OwnerMerges (c : Client) : ClientOp → Prop
  | .answer id answer => c.merges id answer → c.promise = some id
  | _ => True

instance decidableOwnerMerges (c : Client) (op : ClientOp) : Decidable (c.OwnerMerges op) :=
  match op with
  | .answer id answer =>
    inferInstanceAs (Decidable (c.merges id answer = true → c.promise = some id))
  | .hydrate .. | .loadOlder | .finish _ | .bumpRefusalEpoch | .renderSession _ | .stash
  | .restore _ | .clear | .restoreSnapshot _ | .delta _ | .invalidate .. | .needsRepair =>
    isTrue trivial

/-- Loading is held by a request that has not settled, and its settling ends it. -/
def Gate (c : Client) : Prop :=
  c.status = .loading → ∃ id, c.promise = some id ∧ c.requests id ≠ none ∧
    ∀ op : ClientOp, op.request = some id → (c.step op).requests id = none →
      (c.step op).status ≠ .loading

/-- A request that does not own the state moves on without a change to status or promise. -/
def Bystander (c : Client) (op : ClientOp) : Prop :=
  ∀ id, op.request = some id → c.promise ≠ some id →
    (c.step op).status = c.status ∧ (c.step op).promise = c.promise

structure Tended (c : Client) : Prop where
  held : c.status = .loading → c.promise ≠ none
  pending : ∀ id, c.promise = some id → c.requests id ≠ none
  fresh : ∀ id, c.requests id ≠ none → id < c.nextRequest

/-- What moving a request on does to the gate: nothing, it lives on, or it settles. -/
inductive Moves (c : Client) (id : Nat) (c' : Client) : Prop
  | stays (requests : c'.requests = c.requests) (nextRequest : c'.nextRequest = c.nextRequest)
      (promise : c'.promise = c.promise) (bystander : c.promise ≠ some id → c'.status = c.status)
  | livesOn (request : Request) (pending : c.requests id ≠ none)
      (requests : c'.requests = Function.update c.requests id (some request))
      (nextRequest : c'.nextRequest = c.nextRequest) (promise : c'.promise = c.promise)
      (bystander : c.promise ≠ some id → c'.status = c.status)
  | settles (pending : c.requests id ≠ none)
      (requests : c'.requests = Function.update c.requests id none)
      (nextRequest : c'.nextRequest = c.nextRequest)
      (owner : c.promise = some id → c'.promise = none ∧ c'.status ≠ .loading)
      (bystander : c.promise ≠ some id → c'.promise = c.promise ∧ c'.status = c.status)

/-- What any other operation does to the gate: nothing, it resets it, or it starts a request. -/
inductive Background (c c' : Client) : Prop
  | keeps (status : c'.status = c.status) (promise : c'.promise = c.promise)
      (requests : c'.requests = c.requests) (nextRequest : c'.nextRequest = c.nextRequest)
  | resets (status : c'.status = .idle) (promise : c'.promise = none)
      (requests : c'.requests = c.requests) (nextRequest : c'.nextRequest = c.nextRequest)
  | starts (request : Request) (promise : c'.promise = some c.nextRequest)
      (requests : c'.requests = Function.update c.requests c.nextRequest (some request))
      (nextRequest : c'.nextRequest = c.nextRequest + 1)

section moving

variable {c : Client} {id : Nat}

theorem setTranscriptHydrationIdle_gate (c : Client) (id : Nat) :
    (c.setTranscriptHydrationIdle id).promise = c.promise ∧
    (c.setTranscriptHydrationIdle id).requests = c.requests ∧
    (c.setTranscriptHydrationIdle id).nextRequest = c.nextRequest ∧
    (c.promise ≠ some id → (c.setTranscriptHydrationIdle id).status = c.status) := by
  unfold setTranscriptHydrationIdle
  split_ifs with h
  · exact ⟨rfl, rfl, rfl, fun _ => rfl⟩
  · refine ⟨rfl, rfl, rfl, ?_⟩
    intro hother
    exact absurd (Or.inl hother) h

theorem settle_moves (hpending : c.requests id ≠ none) : Moves c id (c.settle id) := by
  unfold settle clearTranscriptHydrationPromise
  split_ifs with hother hloading
  · refine .settles hpending rfl rfl ?_ ?_
    · intro howner
      exact absurd howner hother
    · intro _
      exact ⟨rfl, rfl⟩
  · refine .settles hpending rfl rfl ?_ ?_
    · intro _
      exact ⟨rfl, fun h => by cases h⟩
    · intro h
      exact absurd h hother
  · refine .settles hpending rfl rfl ?_ ?_
    · intro _
      exact ⟨rfl, hloading⟩
    · intro h
      exact absurd h hother

theorem failRequest_moves (hpending : c.requests id ≠ none) :
    Moves c id (c.failRequest id) := by
  obtain ⟨hpromise, hrequests, hnext, hstatus⟩ := c.setTranscriptHydrationIdle_gate id
  refine .livesOn .settling hpending ?_ hnext hpromise hstatus
  show Function.update _ _ _ = _
  rw [hrequests]

theorem Moves.after (before : Client) {after : Client} (promise : before.promise = c.promise)
    (requests : before.requests = c.requests) (nextRequest : before.nextRequest = c.nextRequest)
    (bystander : c.promise ≠ some id → before.status = c.status) (h : Moves before id after) :
    Moves c id after := by
  cases h with
  | stays requests' nextRequest' promise' bystander' =>
    refine .stays (requests'.trans requests) (nextRequest'.trans nextRequest)
      (promise'.trans promise) ?_
    intro hother
    exact (bystander' (promise ▸ hother)).trans (bystander hother)
  | livesOn request pending requests' nextRequest' promise' bystander' =>
    refine .livesOn request (requests ▸ pending) (requests ▸ requests')
      (nextRequest'.trans nextRequest) (promise'.trans promise) ?_
    intro hother
    exact (bystander' (promise ▸ hother)).trans (bystander hother)
  | settles pending requests' nextRequest' owner bystander' =>
    refine .settles (requests ▸ pending) (requests ▸ requests')
      (nextRequest'.trans nextRequest) (fun howner => owner (promise ▸ howner)) ?_
    intro hother
    obtain ⟨hpromise, hstatus⟩ := bystander' (promise ▸ hother)
    exact ⟨hpromise.trans promise, hstatus.trans (bystander hother)⟩

theorem turnAway_moves (hpending : c.requests id ≠ none) (check : PageCheck) :
    Moves c id (c.turnAway id check) := by
  unfold turnAway
  split
  · exact failRequest_moves hpending
  · exact .after (c.clearTranscriptHydrationFetchedRevision) rfl rfl rfl (fun _ => rfl)
      (settle_moves hpending)
  · exact settle_moves hpending

theorem concludeHydration_moves (howner : c.promise = some id) (hpending : c.requests id ≠ none)
    (snapshot : Snapshot) (tailPrevCursor : Option String) :
    Moves c id (c.concludeHydration id snapshot tailPrevCursor) := by
  unfold concludeHydration
  dsimp only
  split_ifs <;> exact .livesOn .settling hpending rfl rfl rfl fun h => absurd howner h

theorem continueHydration_moves (howner : c.promise = some id) (hpending : c.requests id ≠ none)
    (snapshot : Snapshot) (signature : String) (minInitialEntries maxInitialPages : Nat)
    (tailPrevCursor : Option String) (loadedPages : Nat) :
    Moves c id (c.continueHydration id snapshot signature minInitialEntries maxInitialPages
      tailPrevCursor loadedPages) := by
  unfold continueHydration
  split
  · split_ifs
    · exact .livesOn _ hpending rfl rfl rfl fun _ => rfl
    · exact concludeHydration_moves howner hpending snapshot tailPrevCursor
  · exact concludeHydration_moves howner hpending snapshot tailPrevCursor

theorem mergeBackfillPage_moves (howner : c.promise = some id) (hpending : c.requests id ≠ none)
    (snapshot : Snapshot) (signature : String) (minInitialEntries maxInitialPages : Nat)
    (tailPrevCursor : Option String) (loadedPages now : Nat) (page : Page) :
    Moves c id (c.mergeBackfillPage id snapshot signature minInitialEntries maxInitialPages
      tailPrevCursor loadedPages now page) := by
  unfold mergeBackfillPage
  dsimp only
  generalize hmerged : c.mergeTranscriptHydrationPage now page true = merged
  have hpromise : merged.promise = c.promise := hmerged ▸ rfl
  have hrequests : merged.requests = c.requests := hmerged ▸ rfl
  refine .after merged hpromise hrequests (hmerged ▸ rfl) (fun h => absurd howner h) ?_
  split
  · exact continueHydration_moves (hpromise ▸ howner) (hrequests ▸ hpending) _ _ _ _ _ _
  · exact turnAway_moves (hrequests ▸ hpending) _

theorem mergeOlderPage_moves (howner : c.promise = some id) (hpending : c.requests id ≠ none)
    (now : Nat) (page : Page) : Moves c id (c.mergeOlderPage id now page) := by
  unfold mergeOlderPage
  dsimp only
  split_ifs
  · obtain ⟨hpromise, hrequests, hnext, -⟩ :=
      (c.mergeTranscriptHydrationPage now page true).setTranscriptHydrationIdle_gate id
    refine .livesOn .settling hpending ?_ hnext hpromise fun h => absurd howner h
    show Function.update _ _ _ = _
    rw [hrequests]
    rfl
  · exact .livesOn .settling hpending rfl rfl rfl fun h => absurd howner h

theorem answerRequest_moves {answer : Answer}
    (hmerges : c.merges id answer → c.promise = some id) :
    Moves c id (c.answerRequest id answer) := by
  unfold answerRequest
  unfold merges at hmerges
  split
  · exact .stays rfl rfl rfl fun _ => rfl
  · exact .stays rfl rfl rfl fun _ => rfl
  · rename_i request hrequest
    exact failRequest_moves (by simp [hrequest])
  · rename_i snapshot signature minInitialEntries maxInitialPages epoch threadId page now hrequest
    have hpending : c.requests id ≠ none := by simp [hrequest]
    simp only [hrequest, decide_eq_true_eq] at hmerges
    split
    · rename_i hpasses
      exact .after (c.mergeTranscriptHydrationPage now page false) rfl rfl rfl
        (fun h => absurd (hmerges hpasses) h)
        (continueHydration_moves (c := c.mergeTranscriptHydrationPage now page false)
          (hmerges hpasses) hpending _ _ _ _ _ _)
    · exact turnAway_moves hpending _
  · rename_i snapshot signature minInitialEntries maxInitialPages epoch before tailPrevCursor
      loadedPages threadId page now hrequest
    have hpending : c.requests id ≠ none := by simp [hrequest]
    simp only [hrequest, decide_eq_true_eq] at hmerges
    split
    · rename_i hpasses
      exact mergeBackfillPage_moves (hmerges hpasses) hpending _ _ _ _ _ _ _ _
    · exact turnAway_moves hpending _
  · rename_i olderThreadId before epoch threadId page now hrequest
    have hpending : c.requests id ≠ none := by simp [hrequest]
    simp only [hrequest, decide_eq_true_eq] at hmerges
    split
    · rename_i hpasses
      exact mergeOlderPage_moves (hmerges hpasses) hpending now page
    · obtain ⟨hpromise, hrequests, hnext, hstatus⟩ := c.setTranscriptHydrationIdle_gate id
      exact .after _ hpromise hrequests hnext hstatus (settle_moves (hrequests ▸ hpending))
    · exact turnAway_moves hpending _

theorem finishRequest_moves (c : Client) (id : Nat) : Moves c id (c.finishRequest id) := by
  unfold finishRequest
  split
  · rename_i hrequest
    exact settle_moves (by simp [hrequest])
  · exact .stays rfl rfl rfl fun _ => rfl

end moving

section background

variable {c : Client}

@[simp] theorem deliver_status (w : Window) (delta : Delta) :
    (w.deliver delta).status = w.status := by
  unfold Window.deliver Window.applyTranscriptDeltaToWindow
  split
  · split_ifs
    · rfl
    · split <;> rfl
  · rfl

@[simp] theorem buildHydratedTranscriptSnapshot_status (w : Window) (snapshot : Snapshot) :
    (w.buildHydratedTranscriptSnapshot snapshot).1.status = w.status := by
  unfold Window.buildHydratedTranscriptSnapshot
  dsimp only
  split_ifs <;> rfl

@[simp] theorem invalidateTranscriptWindowEntryForPatch_status (w : Window)
    (threadId itemId : String) :
    (w.invalidateTranscriptWindowEntryForPatch threadId itemId).status = w.status := by
  unfold Window.invalidateTranscriptWindowEntryForPatch
  split_ifs
  · rfl
  · split
    · rfl
    · split_ifs <;> rfl

theorem setWindow_background {w : Window} (h : w.status = c.status) :
    Background c (c.setWindow w) :=
  .keeps h rfl rfl rfl

theorem prepareTranscriptHydration_gate (c : Client) (snapshot : Snapshot)
    (transcriptTruncated : Bool) :
    let prepared := (c.prepareTranscriptHydration snapshot transcriptTruncated).1
    prepared.requests = c.requests ∧ prepared.nextRequest = c.nextRequest ∧
      (prepared.status = c.status ∧ prepared.promise = c.promise ∨
        prepared.status = .idle ∧ prepared.promise = none) := by
  unfold prepareTranscriptHydration
  split_ifs
  · exact ⟨rfl, rfl, Or.inl ⟨rfl, rfl⟩⟩
  · dsimp only
    split_ifs
    all_goals first
      | exact ⟨rfl, rfl, Or.inr ⟨rfl, rfl⟩⟩
      | exact ⟨rfl, rfl, Or.inl ⟨rfl, rfl⟩⟩

theorem startRequest_background {before : Client} (hrequests : before.requests = c.requests)
    (hnext : before.nextRequest = c.nextRequest) (request : Request) :
    Background c (before.startRequest request) := by
  refine .starts request ?_ ?_ ?_
  · show some before.nextRequest = _
    rw [hnext]
  · show Function.update before.requests before.nextRequest _ = _
    rw [hrequests, hnext]
  · show before.nextRequest + 1 = _
    rw [hnext]

theorem hydrateTranscript_background (c : Client) (snapshot : Snapshot)
    (transcriptTruncated : Bool) (minInitialEntries maxInitialPages : Nat) :
    Background c (c.hydrateTranscript snapshot transcriptTruncated minInitialEntries
      maxInitialPages) := by
  obtain ⟨hrequests, hnext, hgate⟩ := c.prepareTranscriptHydration_gate snapshot
    transcriptTruncated
  have hprepared : Background c
      (c.prepareTranscriptHydration snapshot transcriptTruncated).1 := by
    rcases hgate with ⟨hstatus, hpromise⟩ | ⟨hstatus, hpromise⟩
    · exact .keeps hstatus hpromise hrequests hnext
    · exact .resets hstatus hpromise hrequests hnext
  unfold hydrateTranscript
  dsimp only
  split_ifs
  · exact hprepared
  · exact hprepared
  · exact startRequest_background hrequests hnext _

theorem loadOlderTranscript_background (c : Client) : Background c c.loadOlderTranscript := by
  unfold loadOlderTranscript
  split
  · split_ifs
    · exact .keeps rfl rfl rfl rfl
    · exact startRequest_background rfl rfl _
  · exact .keeps rfl rfl rfl rfl

theorem step_background (c : Client) {op : ClientOp} (hop : op.request = none) :
    Background c (c.step op) := by
  cases op with
  | hydrate snapshot transcriptTruncated minInitialEntries maxInitialPages =>
    exact hydrateTranscript_background c _ _ _ _
  | loadOlder => exact loadOlderTranscript_background c
  | answer id answer => cases hop
  | finish id => cases hop
  | bumpRefusalEpoch => exact .keeps rfl rfl rfl rfl
  | renderSession threadId => exact .keeps rfl rfl rfl rfl
  | stash =>
    refine .keeps ?_ rfl rfl rfl
    show c.store.stashTranscriptHydrationForThread.window.status = _
    unfold Store.stashTranscriptHydrationForThread
    split
    · rfl
    · split_ifs <;> rfl
  | restore threadId =>
    refine .resets ?_ rfl rfl rfl
    show (c.store.restoreTranscriptHydrationForThread threadId).window.status = _
    unfold Store.restoreTranscriptHydrationForThread
    split <;> rfl
  | clear => exact .resets rfl rfl rfl rfl
  | restoreSnapshot snapshot =>
    show Background c (c.restoreHydratedTranscriptSnapshot snapshot)
    unfold restoreHydratedTranscriptSnapshot
    split_ifs
    · exact .keeps rfl rfl rfl rfl
    · exact setWindow_background (buildHydratedTranscriptSnapshot_status _ _)
  | delta delta => exact setWindow_background (deliver_status _ _)
  | invalidate threadId itemId =>
    exact setWindow_background (invalidateTranscriptWindowEntryForPatch_status _ _ _)
  | needsRepair => exact setWindow_background rfl

end background

section gate

variable {c : Client}

theorem step_moves {op : ClientOp} {id : Nat} (hop : op.request = some id)
    (howner : c.OwnerMerges op) : Moves c id (c.step op) := by
  cases op with
  | answer other answer =>
    obtain rfl := Option.some.inj hop
    exact answerRequest_moves howner
  | finish other =>
    obtain rfl := Option.some.inj hop
    exact finishRequest_moves c _
  | hydrate | loadOlder | bumpRefusalEpoch | renderSession | stash | restore | clear
  | restoreSnapshot | delta | invalidate | needsRepair => cases hop

theorem held_of_moves {c' : Client} {id : Nat} (h : c.Tended) (promise : c'.promise = c.promise)
    (bystander : c.promise ≠ some id → c'.status = c.status) :
    c'.status = .loading → c'.promise ≠ none := by
  intro hloading
  rw [promise]
  by_cases howns : c.promise = some id
  · simp [howns]
  · exact h.held (bystander howns ▸ hloading)

theorem Tended.step {op : ClientOp} (h : c.Tended) (howner : c.OwnerMerges op) :
    (c.step op).Tended := by
  cases hop : op.request with
  | none =>
    cases c.step_background hop with
    | keeps status promise requests nextRequest =>
      exact {
        held := by rw [status, promise]; exact h.held
        pending := by rw [promise, requests]; exact h.pending
        fresh := by rw [requests, nextRequest]; exact h.fresh }
    | resets status promise requests nextRequest =>
      exact {
        held := by rw [status]; intro hloading; cases hloading
        pending := by rw [promise]; intro id hid; cases hid
        fresh := by rw [requests, nextRequest]; exact h.fresh }
    | starts request promise requests nextRequest =>
      refine ⟨by rw [promise]; simp, ?_, ?_⟩
      · intro id hid
        obtain rfl := Option.some.inj (promise.symm.trans hid)
        rw [requests]
        simp
      · intro id hid
        rw [nextRequest]
        by_cases hnew : id = c.nextRequest
        · omega
        · rw [requests, Function.update_of_ne hnew] at hid
          exact Nat.lt_succ_of_lt (h.fresh id hid)
  | some id =>
    cases step_moves hop howner with
    | stays requests nextRequest promise bystander =>
      exact {
        held := held_of_moves h promise bystander
        pending := by rw [promise, requests]; exact h.pending
        fresh := by rw [requests, nextRequest]; exact h.fresh }
    | livesOn request pending requests nextRequest promise bystander =>
      refine ⟨held_of_moves h promise bystander, ?_, ?_⟩
      · intro other hother
        rw [requests]
        by_cases hmoved : other = id
        · simp [hmoved]
        · rw [Function.update_of_ne hmoved]
          exact h.pending other (promise ▸ hother)
      · intro other hother
        rw [nextRequest]
        by_cases hmoved : other = id
        · exact h.fresh other (hmoved ▸ pending)
        · rw [requests, Function.update_of_ne hmoved] at hother
          exact h.fresh other hother
    | settles pending requests nextRequest owner bystander =>
      have hothers : ∀ other, other ≠ id → (c.step op).requests other = c.requests other := by
        intro other hother
        rw [requests, Function.update_of_ne hother]
      have hfresh : ∀ other, (c.step op).requests other ≠ none →
          other < (c.step op).nextRequest := by
        intro other hother
        rw [nextRequest]
        by_cases hmoved : other = id
        · exact h.fresh other (hmoved ▸ pending)
        · rw [hothers other hmoved] at hother
          exact h.fresh other hother
      by_cases howns : c.promise = some id
      · obtain ⟨hpromise, hreleased⟩ := owner howns
        refine ⟨fun hloading => absurd hloading hreleased, ?_, hfresh⟩
        intro other hother
        rw [hpromise] at hother
        cases hother
      · obtain ⟨hpromise, hstatus⟩ := bystander howns
        refine ⟨by rw [hstatus, hpromise]; exact h.held, ?_, hfresh⟩
        intro other hother
        rw [hpromise] at hother
        have hne : other ≠ id := fun heq => howns (heq ▸ hother)
        rw [hothers other hne]
        exact h.pending other hother

theorem Tended.gate (h : c.Tended) : c.Gate := by
  intro hloading
  obtain ⟨id, hpromise⟩ := Option.ne_none_iff_exists'.mp (h.held hloading)
  refine ⟨id, hpromise, h.pending id hpromise, ?_⟩
  intro op hop hsettled
  have howner : c.OwnerMerges op := by
    cases op with
    | answer other answer =>
      obtain rfl := Option.some.inj hop
      exact fun _ => hpromise
    | finish other => trivial
    | hydrate | loadOlder | bumpRefusalEpoch | renderSession | stash | restore | clear
    | restoreSnapshot | delta | invalidate | needsRepair => cases hop
  cases step_moves hop howner with
  | stays requests nextRequest promise bystander =>
    exact absurd (requests ▸ hsettled) (h.pending id hpromise)
  | livesOn request pending requests nextRequest promise bystander =>
    rw [requests, Function.update_self] at hsettled
    cases hsettled
  | settles pending requests nextRequest owner bystander => exact (owner hpromise).2

theorem bystander_of_ownerMerges {op : ClientOp} (howner : c.OwnerMerges op) :
    c.Bystander op := by
  intro id hop hother
  cases step_moves hop howner with
  | stays requests nextRequest promise bystander => exact ⟨bystander hother, promise⟩
  | livesOn request pending requests nextRequest promise bystander =>
    exact ⟨bystander hother, promise⟩
  | settles pending requests nextRequest owner bystander =>
    obtain ⟨hpromise, hstatus⟩ := bystander hother
    exact ⟨hstatus, hpromise⟩

theorem tended_start : Tended {} where
  held h := by cases h
  pending id h := by cases h
  fresh id h := absurd rfl h

/-- In every run where no request but the owner gets a page merged, loading always belongs to
a request that will end it, and a request that is not the owner never touches the gate. -/
theorem gate_never_wedges (ops : List ClientOp) (h : Along step OwnerMerges {} ops) :
    Always step Gate {} ops ∧ Along step Bystander {} ops := by
  have htended := always_of_step (fun _ _ hc howner => hc.step howner) tended_start h
  exact ⟨htended.mono fun _ hc => hc.gate, h.mono fun _ _ => bystander_of_ownerMerges⟩

end gate

/-! A thread with two messages. Its first snapshot starts a hydration that is still fetching
older pages when the second message arrives. -/
section backfill

def shell (itemId : String) : WireEntry :=
  { itemId := some itemId, kind := "agent_text", text := none, status := "running"
    contentState := some .omitted }

def wholeEntry (itemId : String) : WireEntry :=
  { itemId := some itemId, kind := "agent_text", text := some (utf16 itemId)
    status := "completed", contentState := some .full }

/-- The thread's snapshot with these messages, none of them with its text. -/
def clippedSnapshot (revision : Nat) (itemIds : List String) : Snapshot :=
  { activeThreadId := some "thread", transcriptRevision := some revision
    transcript := itemIds.map shell }

def pageOf (itemIds : List String) (prevCursor : Option String) : Answer :=
  .page (some "thread") { entries := itemIds.map wholeEntry, prevCursor := prevCursor } 0

/-- The tail page of the first hydration is in, and it asks for the page above. -/
def backfilling : List ClientOp :=
  [.renderSession (some "thread"), .hydrate (clippedSnapshot 1 ["two"]) true 12 3,
    .answer 0 (pageOf ["two"] (some "above two"))]

/-- A new message arms a second fetch; the older page is refused while it runs. -/
theorem gate_never_wedges_backfill :
    Always step Gate {} (backfilling ++ [.hydrate (clippedSnapshot 2 ["two", "three"]) true 12 3,
      .bumpRefusalEpoch, .answer 0 (pageOf ["one"] (some "above one")),
      .answer 1 .failed, .finish 1]) ∧
    Along step Bystander {} (backfilling ++
      [.hydrate (clippedSnapshot 2 ["two", "three"]) true 12 3, .bumpRefusalEpoch,
        .answer 0 (pageOf ["one"] (some "above one")), .answer 1 .failed, .finish 1]) :=
  gate_never_wedges _ (by decide +kernel)

/-- The second fetch fails and releases the gate; then the older page of the first comes in, and
its merge shuts the gate with no request left to open it. -/
theorem late_backfill_wedges_gate :
    ¬ ∀ ops, Always step Gate {} ops ∧ Along step Bystander {} ops := by
  intro h
  have hgate := (h (backfilling ++ [.hydrate (clippedSnapshot 2 ["two", "three"]) true 12 3,
    .answer 1 .failed, .finish 1, .answer 0 (pageOf ["one"] (some "above one"))])).1.last
  obtain ⟨id, hpromise, -⟩ := hgate (by decide +kernel)
  revert hpromise
  show ¬ _ = some id
  rw [show (run step {} _).promise = none by decide +kernel]
  exact fun hnone => by cases hnone

end backfill

end Client
end AgentRelay.Hydration
