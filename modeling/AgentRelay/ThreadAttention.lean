import AgentRelay.InsertionMap
import AgentRelay.ThreadRuntime

/-! Which threads work and which wait for the user, derived from each session snapshot
twice: by the relay, which pushes a notice at every change, and by the page, which notifies
and keeps a badge per thread. The snapshot describes the active thread in its own fields,
the others by the lists of busy threads and pending requests. -/
namespace AgentRelay.Attention
open Text Relay

/-- The fields of a session snapshot both sides read. The lists hold the thread ids of the
busy background threads, of the pending approvals and of the pending questions. -/
structure SessionSnapshot where
  activeThreadId : Option String := none
  activeTurnId : Option String := none
  currentStatus : String := "idle"
  activeFlags : List String := []
  threadActivity : List String := []
  pendingApprovals : List String := []
  pendingAskUserQuestions : List String := []
  deriving DecidableEq, Repr

@[ext] structure ThreadState where
  working : Bool := false
  needsInput : Bool := false
  deriving DecidableEq, Repr

def ThreadState.setWorking (st : ThreadState) : ThreadState := { st with working := true }

def ThreadState.setNeedsInput (st : ThreadState) : ThreadState := { st with needsInput := true }

def isWaitingFlag (flag : String) : Bool :=
  flag = "waitingOnApproval" || flag = "waitingOnAskUser"

namespace Push

inductive PushKind
  | needsInput
  | completed
  deriving DecidableEq, Repr

structure PushJob where
  kind : PushKind
  threadId : String
  deriving DecidableEq, Repr

/-- The entry of `id`, made when missing, with `f` done to it. -/
def mark (f : ThreadState → ThreadState) (states : Table ThreadState) (id : String) :
    Table ThreadState :=
  states.insert id (f (states[id]?.getD {}))

def markRequest (active : Option String) (states : Table ThreadState) (threadId : String) :
    Table ThreadState :=
  match if threadId.isEmpty then active else some threadId with
  | some id => mark .setNeedsInput states id
  | none => states

def computeThreadStates (snapshot : SessionSnapshot) : Table ThreadState :=
  let active := snapshot.activeThreadId
  let states : Table ThreadState := match active with
    | some activeId =>
      if snapshot.activeTurnId.isSome || threadStatusIsWorking snapshot.currentStatus then
        mark .setWorking ∅ activeId
      else ∅
    | none => ∅
  let states := snapshot.threadActivity.foldl
    (fun states id => if id.isEmpty then states else mark .setWorking states id) states
  let states := snapshot.pendingApprovals.foldl (markRequest active) states
  let states := snapshot.pendingAskUserQuestions.foldl (markRequest active) states
  match active with
  | some activeId =>
    if snapshot.activeFlags.any isWaitingFlag then mark .setNeedsInput states activeId
    else states
  | none => states

structure PushAttentionTracker where
  prev : Option (Table ThreadState) := none
  suppressed : StringSet := ∅

namespace PushAttentionTracker

def suppressCompleted (t : PushAttentionTracker) (threadId : String) : PushAttentionTracker :=
  { t with suppressed := t.suppressed.insert threadId () }

def threadIds (prev next : Table ThreadState) : List String :=
  (prev.keys ++ next.keys).dedup.mergeSort fun a b => decide (a ≤ b)

def ingestThread (prev next : Table ThreadState) (acc : StringSet × List PushJob)
    (id : String) : StringSet × List PushJob :=
  let before := prev[id]?.getD {}
  let after := next[id]?.getD {}
  -- A turn that starts forgets a suppression no turn has used.
  let suppressed := if !before.working && after.working then acc.1.erase id else acc.1
  if after.needsInput && !before.needsInput then
    (suppressed, acc.2 ++ [⟨.needsInput, id⟩])
  else if before.working && !after.working && !after.needsInput then
    if suppressed.contains id then (suppressed.erase id, acc.2)
    else (suppressed, acc.2 ++ [⟨.completed, id⟩])
  else (suppressed, acc.2)

def ingestStates (t : PushAttentionTracker) (next : Table ThreadState) :
    PushAttentionTracker × List PushJob :=
  let (suppressed, jobs) := match t.prev with
    | some prev => (threadIds prev next).foldl (ingestThread prev next) (t.suppressed, [])
    | none => (t.suppressed, [])
  (⟨some next, suppressed⟩, jobs)

def ingest (t : PushAttentionTracker) (snapshot : SessionSnapshot) :
    PushAttentionTracker × List PushJob :=
  t.ingestStates (computeThreadStates snapshot)

end PushAttentionTracker

end Push

namespace Client

/-- What JavaScript's `trim` removes: Rust's white space without the next-line control,
and the byte order mark. -/
def isJsWhitespace (c : Char) : Bool :=
  (isWhitespace c && c.toNat ≠ 0x85) || c.toNat = 0xFEFF

/-- JavaScript's lower case of a character, as far as a word of ASCII letters can tell: of
all other characters only the Kelvin sign has an ASCII letter as its lower case. -/
def jsToLower (c : Char) : Char := if c.toNat = 0x212A then 'k' else c.toLower

def normalizeThreadStatus (status : String) : String :=
  String.ofList
    (((status.toList.dropWhile isJsWhitespace).rdropWhile isJsWhitespace).map jsToLower)

def isWorkingThreadStatus (status : String) : Bool :=
  normalizeThreadStatus status ∉ ["", "idle", "viewing", "completed", "unknown", "notloaded"]

def sessionIsWorking (session : SessionSnapshot) : Bool :=
  session.activeTurnId.isSome || isWorkingThreadStatus session.currentStatus

/-- A thread id that JavaScript takes for true: neither missing nor empty. -/
def truthy (id : Option String) : Option String := id.filter (· ≠ "")

/-- `ensure`, with what its callers then do to the entry. -/
def ensure (f : ThreadState → ThreadState) (states : InsertionMap String ThreadState)
    (threadId : Option String) : InsertionMap String ThreadState :=
  match truthy threadId with
  | some id => states.set id (f ((states.get id).getD {}))
  | none => states

def computeThreadStates (snapshot : SessionSnapshot) : InsertionMap String ThreadState :=
  let activeThreadId := truthy snapshot.activeThreadId
  let states := InsertionMap.empty
  let states := if activeThreadId.isSome && sessionIsWorking snapshot then
      ensure .setWorking states activeThreadId
    else states
  let states := snapshot.threadActivity.foldl
    (fun states id => ensure .setWorking states (some id)) states
  let request := fun states id =>
    ensure .setNeedsInput states ((truthy (some id)).or activeThreadId)
  let states := snapshot.pendingApprovals.foldl request states
  let states := snapshot.pendingAskUserQuestions.foldl request states
  if activeThreadId.isSome && snapshot.activeFlags.any isWaitingFlag then
    ensure .setNeedsInput states activeThreadId
  else states

def stateFor (map : InsertionMap String ThreadState) (threadId : String) : ThreadState :=
  (map.get threadId).getD {}

inductive AttentionKind
  | needsInput
  | completed
  deriving DecidableEq, Repr

structure AttentionEvent where
  threadId : String
  kind : AttentionKind
  notify : Bool
  deriving DecidableEq, Repr

structure Badges where
  attention : InsertionMap String AttentionKind
  changed : Bool

namespace Badges

def setKind (b : Badges) (id : String) (kind : AttentionKind) : Badges :=
  if b.attention.get id ≠ some kind then ⟨b.attention.set id kind, true⟩ else b

def dropKind (b : Badges) (id : String) : Badges :=
  if (b.attention.get id).isSome then ⟨b.attention.delete id, true⟩ else b

end Badges

structure ThreadAttentionTracker where
  prev : Option (InsertionMap String ThreadState) := none
  attention : InsertionMap String AttentionKind := .empty
  lastViewed : Option String := none
  version : Nat := 0

namespace ThreadAttentionTracker

def transition (before after : ThreadState) : Option AttentionKind :=
  if after.needsInput && !before.needsInput then some .needsInput
  else if before.working && !after.working && !after.needsInput then some .completed
  else none

/-- A set of the ids of both snapshots, in the order they were added. -/
def threadIds (prev next : InsertionMap String ThreadState) : List String :=
  prev.keys ++ next.keys.filter (· ∉ prev.keys)

def events (prev next : InsertionMap String ThreadState) (away : String → Bool) :
    List AttentionEvent :=
  (threadIds prev next).filterMap fun threadId =>
    (transition (stateFor prev threadId) (stateFor next threadId)).map fun kind =>
      ⟨threadId, kind, away threadId⟩

def markWaiting (away : String → Bool) (b : Badges) (entry : String × ThreadState) : Badges :=
  if entry.2.needsInput && away entry.1 then b.setKind entry.1 .needsInput
  else if b.attention.get entry.1 = some .needsInput then b.dropKind entry.1
  else b

/-- A thread that left the snapshot waits no longer. -/
def dropVanished (next : InsertionMap String ThreadState) (b : Badges)
    (entry : String × AttentionKind) : Badges :=
  if entry.2 = .needsInput && !(next.get entry.1).any (·.needsInput) then b.dropKind entry.1
  else b

def markCompleted (b : Badges) (event : AttentionEvent) : Badges :=
  if event.kind = .completed && event.notify
      && b.attention.get event.threadId ≠ some .needsInput then
    b.setKind event.threadId .completed
  else b

/-- A thread that works again is no longer finished. -/
def dropResumed (b : Badges) (entry : String × ThreadState) : Badges :=
  if entry.2.working && !entry.2.needsInput && b.attention.get entry.1 = some .completed then
    b.dropKind entry.1
  else b

def reconcile (next : InsertionMap String ThreadState) (events : List AttentionEvent)
    (away : String → Bool) (attention : InsertionMap String AttentionKind) : Badges :=
  let b : Badges := ⟨attention, false⟩
  let b := next.entries.foldl (markWaiting away) b
  let b := b.attention.entries.foldl (dropVanished next) b
  let b := events.foldl markCompleted b
  next.entries.foldl dropResumed b

def ingest (t : ThreadAttentionTracker) (snapshot : SessionSnapshot)
    (viewedThreadId : Option String) (isForeground : Bool) :
    ThreadAttentionTracker × List AttentionEvent :=
  let next := computeThreadStates snapshot
  let away := fun id => !(isForeground && some id = viewedThreadId)
  let events := match t.prev with
    | some prev => events prev next away
    | none => []
  let b := reconcile next events away t.attention
  let b := match truthy viewedThreadId with
    | some id => if isForeground then b.dropKind id else b
    | none => b
  (⟨some next, b.attention, (truthy viewedThreadId).or t.lastViewed,
    if b.changed then t.version + 1 else t.version⟩, events)

def clear (t : ThreadAttentionTracker) (threadId : String) : ThreadAttentionTracker :=
  if threadId ≠ "" && (t.attention.get threadId).isSome then
    { t with attention := t.attention.delete threadId, version := t.version + 1 }
  else t

/-- The page came to the front, with the thread it last showed. -/
def clearViewedOnFocus (t : ThreadAttentionTracker) (isForeground : Bool) :
    ThreadAttentionTracker :=
  match isForeground, t.lastViewed with
  | true, some id =>
    if (t.attention.get id).isSome then
      { t with attention := t.attention.delete id, version := t.version + 1 }
    else t
  | _, _ => t

end ThreadAttentionTracker

end Client

end AgentRelay.Attention
