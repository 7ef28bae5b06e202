import AgentRelay.BrokerWriter
import AgentRelay.CompactionStable
import AgentRelay.ReplyChunks
import AgentRelay.SealedActions

/-! Answers to remote actions in plain text. The result of an action is filed as it is, and every
publication of it, the first and each replay, compacts it and makes up its frames anew: one frame
where it fits, else a train of chunks, which the writer may refuse. -/
namespace AgentRelay.Compaction
open Broker Relay Replies

inductive RemoteActionResultKind
  | remoteActionAck
  | remoteApprovalResult
  | remoteControlResult
  | remoteSessionResult
  | remoteThreadsResult
  | remoteTranscriptResult
  deriving DecidableEq, Repr

def remoteActionResultKind : RemoteActionKind → RemoteActionResultKind
  | .startSession | .forkSession | .resumeSession | .updateSessionSettings => .remoteSessionResult
  | .claimChallenge | .claimDevice | .heartbeat | .watchThreads | .stopTurn | .takeOver =>
    .remoteControlResult
  | .listProviders | .listThreads | .listProviderModels => .remoteThreadsResult
  | .fetchThreadEntries | .fetchThreadEntryDetail | .fetchThreadTranscript | .fetchWorkspaceDiff
  | .fetchWorkspaceGitContext | .fetchThreadWorkspace | .setThreadWorkspace | .fetchThreadSettings
  | .fetchReviews | .fetchWorkflows | .fetchDevices | .fetchProjects
  | .fetchAskUserQuestionDetail => .remoteTranscriptResult
  | .decideApproval | .submitAskUserAnswer => .remoteApprovalResult
  | .sendMessage | .applyFileChange | .projectAction | .renameThread | .repairWorkspace
  | .requestReview | .startWorkflow | .resolveReview | .resolveWorkflow | .deleteReview
  | .registerPushSubscription | .unregisterPushSubscription => .remoteActionAck

def remoteActionResultAllowsSnapshot : RemoteActionKind → Bool
  | .startSession | .forkSession | .resumeSession | .updateSessionSettings => true
  | _ => false

/-- The views an action brings, by the frames that carry them; a chunked answer carries all. -/
structure RemoteActionOutcome (Rest : Type) where
  receipt : Option Rest := none
  askUserAnswerReceipt : Option Rest := none
  /-- The providers and their models. -/
  models : Option Rest := none
  threads : Option (ThreadsResponse Rest) := none
  /-- From the thread entries to the detail of a question. -/
  readings : Option Rest := none
  sessionClaim : Option Rest := none
  claimChallenge : Option Rest := none

structure CachedResult (Rest : Type) where
  ok : Bool
  snapshot : Option (SessionSnapshot Rest)
  outcome : RemoteActionOutcome Rest
  error : Option String

structure RemoteActionResult (Rest : Type) extends CachedResult Rest where
  kind : RemoteActionResultKind
  action : RemoteActionKind

inductive ResultBody (Rest : Type)
  | remoteActionAck
  | remoteApprovalResult (receipt : Option Rest)
  | remoteControlResult (sessionClaim claimChallenge : Option Rest)
  | remoteSessionResult (snapshot : SessionSnapshot Rest) (sessionClaim : Option Rest)
  | remoteThreadsResult (models : Option Rest) (threads : Option (ThreadsResponse Rest))
  | remoteTranscriptResult (readings : Option Rest)

inductive OutboundBrokerPayload (Rest : Type)
  | result (actionId targetPeerId : String) (action : RemoteActionKind) (ok : Bool)
      (body : ResultBody Rest) (error : Option String)
  | remoteActionResultChunk (actionId targetPeerId : String) (action : RemoteActionKind)
      (chunkIndex chunkCount : Nat) (data : String)

section publish

variable {Rest : Type} (serializedLen : SessionSnapshot Rest → Nat)
  (threadsLen : ThreadsResponse Rest → Nat) (requestBytes : AskUserQuestionRequestView → Nat)
  (contentHash : List AskUserQuestionView → String)
  -- The text of a frame and of a whole result, as the serializer makes them.
  (frame : OutboundBrokerPayload Rest → List UInt8) (serialized : RemoteActionResult Rest → String)

def buildPlainRemoteActionResultPayload (actionId targetPeerId : String)
    (result : RemoteActionResult Rest) : Except String (OutboundBrokerPayload Rest) := do
  let body ← match result.kind with
    | .remoteActionAck => .ok .remoteActionAck
    | .remoteApprovalResult => .ok (.remoteApprovalResult result.outcome.receipt)
    | .remoteControlResult =>
      .ok (.remoteControlResult result.outcome.sessionClaim result.outcome.claimChallenge)
    | .remoteSessionResult =>
      match result.snapshot with
      | some snapshot => .ok (.remoteSessionResult snapshot result.outcome.sessionClaim)
      | none => .error "remote session result is missing snapshot"
    | .remoteThreadsResult =>
      .ok (.remoteThreadsResult result.outcome.models result.outcome.threads)
    | .remoteTranscriptResult => .ok (.remoteTranscriptResult result.outcome.readings)
  .ok (.result actionId targetPeerId result.action result.ok body result.error)

def buildPlainRemoteActionResultChunkPayloads (actionId targetPeerId : String)
    (result : RemoteActionResult Rest) : Except String (List (OutboundBrokerPayload Rest)) :=
  let chunk := OutboundBrokerPayload.remoteActionResultChunk actionId targetPeerId result.action
  match fitChunks (serialized result)
      (fun piece index count => (frame (chunk index count piece)).length)
      remoteActionResultChunkTargetChars with
  | some pieces => .ok (pieces.mapIdx fun index piece => chunk index pieces.length piece)
  | none => .error "remote action result chunk payload still exceeds broker frame limit"

def busyRemoteActionResult (kind : RemoteActionResultKind) (action : RemoteActionKind) :
    RemoteActionResult Rest where
  ok := false
  snapshot := none
  outcome := {}
  error := some "the relay already has too many large replies in flight; retry this request"
  kind := kind
  action := action

/-- The result with its snapshot and its thread list compacted for a remote surface. -/
def compactResult (result : CachedResult Rest) : CachedResult Rest :=
  { result with
    snapshot := result.snapshot.map
      (compactFor serializedLen requestBytes contentHash .remoteSurface)
    outcome.threads := result.outcome.threads.map (compactThreadsFor threadsLen .remoteSurface) }

def plaintextResult (action : RemoteActionKind) (result : CachedResult Rest) :
    RemoteActionResult Rest :=
  { compactResult serializedLen threadsLen requestBytes contentHash result with
    kind := remoteActionResultKind action, action := action }

/-- The answer as one frame, if it is small enough for the broker. -/
def wholeFrame (targetPeerId actionId : String) (result : RemoteActionResult Rest) :
    Except String (Option (List UInt8)) := do
  let payload ← buildPlainRemoteActionResultPayload actionId targetPeerId result
  .ok (if (frame payload).length ≤ maxBrokerTextFrameBytes then some (frame payload) else none)

/-- The frames given to the writer, which queues a train or is busy; the busy answer takes the
place of a refused train. -/
def publishPlainRemoteActionResult (handoff : TrainHandoff) (targetPeerId actionId : String)
    (action : RemoteActionKind) (result : CachedResult Rest) : Except String (List (List UInt8)) := do
  let plaintext := plaintextResult serializedLen threadsLen requestBytes contentHash action result
  match ← wholeFrame frame targetPeerId actionId plaintext with
  | some bytes => .ok [bytes]
  | none => do
    let chunks ← buildPlainRemoteActionResultChunkPayloads frame serialized actionId targetPeerId
      plaintext
    match handoff with
    | .queued => .ok (chunks.map frame)
    | .busy => do
      let busy ← buildPlainRemoteActionResultPayload actionId targetPeerId
        (busyRemoteActionResult plaintext.kind action)
      .ok [frame busy]

def replayPlainRemoteActionResult (handoff : TrainHandoff) (targetPeerId actionId : String)
    (action : RemoteActionKind) (cached : CachedResult Rest) : Except String (List (List UInt8)) :=
  publishPlainRemoteActionResult serializedLen threadsLen requestBytes contentHash frame serialized
    handoff targetPeerId actionId action cached

def cachedRemoteActionResult (action : RemoteActionKind) (snapshot : SessionSnapshot Rest)
    (outcome : RemoteActionOutcome Rest) (error : Option String) (ok : Bool) :
    CachedResult Rest where
  ok := ok
  snapshot := if remoteActionResultAllowsSnapshot action then some snapshot else none
  outcome := outcome
  error := error

/-- The end of `handle_remote_action`: the result that is filed for a repeated request, and the
frames of the first answer. -/
def answerRemoteAction (handoff : TrainHandoff) (targetPeerId actionId : String)
    (action : RemoteActionKind) (snapshot : SessionSnapshot Rest)
    (outcome : RemoteActionOutcome Rest) (error : Option String) (ok : Bool) :
    CachedResult Rest × Except String (List (List UInt8)) :=
  let cached := cachedRemoteActionResult action snapshot outcome error ok
  (cached, replayPlainRemoteActionResult serializedLen threadsLen requestBytes contentHash frame
    serialized handoff targetPeerId actionId action cached)

variable {serializedLen threadsLen requestBytes contentHash frame serialized}

variable (threadsLen requestBytes contentHash) in
theorem compactResult_idem (hflag : ∀ snapshot : SessionSnapshot Rest,
      serializedLen { snapshot with transcriptTruncated := true } ≤ serializedLen snapshot)
    (result : CachedResult Rest) :
    let compact := compactResult serializedLen threadsLen requestBytes contentHash
    compact (compact result) = compact result := by
  have hsnapshots : compactFor serializedLen requestBytes contentHash .remoteSurface ∘
      compactFor serializedLen requestBytes contentHash .remoteSurface =
        compactFor serializedLen requestBytes contentHash .remoteSurface :=
    funext (compactFor_idem hflag .remoteSurface)
  have hthreads : compactThreadsFor threadsLen .remoteSurface ∘
      compactThreadsFor threadsLen .remoteSurface = compactThreadsFor threadsLen .remoteSurface :=
    funext (compactThreadsFor_idem .remoteSurface)
  simp only [compactResult, Option.map_map, hsnapshots, hthreads]

/-- Without a train the writer has nothing to refuse. -/
theorem publish_of_whole {targetPeerId actionId : String} {action : RemoteActionKind}
    {result : CachedResult Rest}
    (hwhole : wholeFrame frame targetPeerId actionId
      (plaintextResult serializedLen threadsLen requestBytes contentHash action result) ≠ .ok none)
    (handoff later : TrainHandoff) :
    publishPlainRemoteActionResult serializedLen threadsLen requestBytes contentHash frame
        serialized later targetPeerId actionId action result =
      publishPlainRemoteActionResult serializedLen threadsLen requestBytes contentHash frame
        serialized handoff targetPeerId actionId action result := by
  unfold publishPlainRemoteActionResult
  dsimp only
  cases hframe : wholeFrame frame targetPeerId actionId
      (plaintextResult serializedLen threadsLen requestBytes contentHash action result) with
  | error e => rfl
  | ok whole =>
    cases whole with
    | some bytes => rfl
    | none => exact absurd hframe hwhole

end publish

/-- Compaction is stable: on every surface a compacted snapshot and a compacted thread list are
compacted to themselves, and a replay gives the writer the bytes of the first answer, whether what
was filed is compacted again or for the first time. Only a train can meet another fate. -/
theorem compaction_stable {Rest : Type} (serializedLen : SessionSnapshot Rest → Nat)
    (threadsLen : ThreadsResponse Rest → Nat) (requestBytes : AskUserQuestionRequestView → Nat)
    (contentHash : List AskUserQuestionView → String)
    (hflag : ∀ snapshot : SessionSnapshot Rest,
      serializedLen { snapshot with transcriptTruncated := true } ≤ serializedLen snapshot) :
    (∀ profile snapshot,
      compactFor serializedLen requestBytes contentHash profile
          (compactFor serializedLen requestBytes contentHash profile snapshot) =
        compactFor serializedLen requestBytes contentHash profile snapshot) ∧
    (∀ profile response,
      compactThreadsFor threadsLen profile (compactThreadsFor threadsLen profile response) =
        compactThreadsFor threadsLen profile response) ∧
    ∀ (frame : OutboundBrokerPayload Rest → List UInt8)
      (serialized : RemoteActionResult Rest → String) handoff targetPeerId actionId action snapshot
      outcome error ok later,
      let answer := answerRemoteAction serializedLen threadsLen requestBytes contentHash frame
        serialized handoff targetPeerId actionId action snapshot outcome error ok
      let replay := replayPlainRemoteActionResult serializedLen threadsLen requestBytes contentHash
        frame serialized later targetPeerId actionId action
      (later = handoff ∨ wholeFrame frame targetPeerId actionId (plaintextResult serializedLen
        threadsLen requestBytes contentHash action answer.1) ≠ .ok none) →
        replay answer.1 = answer.2 ∧
        replay (compactResult serializedLen threadsLen requestBytes contentHash answer.1) =
          answer.2 := by
  refine ⟨compactFor_idem hflag, compactThreadsFor_idem, ?_⟩
  intro frame serialized handoff targetPeerId actionId action snapshot outcome error ok later
    answer replay hfate
  have hfirst : replay answer.1 = answer.2 := by
    rcases hfate with rfl | hwhole
    · rfl
    · exact publish_of_whole hwhole handoff later
  refine ⟨hfirst, Eq.trans ?_ hfirst⟩
  have hidem := compactResult_idem threadsLen requestBytes contentHash hflag answer.1
  simp only [replay, replayPlainRemoteActionResult, publishPlainRemoteActionResult,
    plaintextResult, hidem]

namespace Greeting

/-- In a relay that lists no threads. -/
theorem compaction_stable_greeting :
    let compacted := compactFor serializedLen (fun _ => 0) (fun _ => "") .remoteSurface
    (compacted snapshot).transcript.length < snapshot.transcript.length ∧
      compacted (compacted snapshot) = compacted snapshot :=
  ⟨by decide +kernel, (compaction_stable serializedLen (fun _ => 14) (fun _ => 0) (fun _ => "")
    serializedLen_flagged).1 .remoteSurface snapshot⟩

/-- Frames of an answer that is too large unless it is refused; its chunks are small. -/
def largeFrame : OutboundBrokerPayload Unit → List UInt8
  | .result _ _ _ ok _ _ => if ok then List.replicate (maxBrokerTextFrameBytes + 1) 0 else [0]
  | .remoteActionResultChunk .. => [1]

/-- A train that was refused at first and is taken at the repeated request. -/
theorem busy_answer_replayed :
    ¬∀ (serializedLen : SessionSnapshot Unit → Nat) (threadsLen : ThreadsResponse Unit → Nat)
      (requestBytes : AskUserQuestionRequestView → Nat)
      (contentHash : List AskUserQuestionView → String)
      (frame : OutboundBrokerPayload Unit → List UInt8)
      (serialized : RemoteActionResult Unit → String)
      handoff later targetPeerId actionId action snapshot outcome error ok,
      (∀ snapshot : SessionSnapshot Unit,
        serializedLen { snapshot with transcriptTruncated := true } ≤ serializedLen snapshot) →
      let answer := answerRemoteAction serializedLen threadsLen requestBytes contentHash frame
        serialized handoff targetPeerId actionId action snapshot outcome error ok
      replayPlainRemoteActionResult serializedLen threadsLen requestBytes contentHash frame serialized
        later targetPeerId actionId action answer.1 = answer.2 := by
  intro h
  have hsame := h serializedLen (fun _ => 14) (fun _ => 0) (fun _ => "") largeFrame (fun _ => "")
    .busy .queued "peer" "a1" .listThreads snapshot {} none true serializedLen_flagged
  have hlarge : ∀ body, ¬(largeFrame (.result "a1" "peer" .listThreads true body none)).length ≤
      maxBrokerTextFrameBytes := by
    intro body
    simp [largeFrame]
  have hrefused : ∀ body error,
      largeFrame (.result "a1" "peer" .listThreads false body error) = [0] := fun _ _ => rfl
  have hchunk : ∀ index count data,
      largeFrame (.remoteActionResultChunk "a1" "peer" .listThreads index count data) = [1] :=
    fun _ _ _ => rfl
  have hpieces : fitChunks "" (fun _ _ _ => 1) remoteActionResultChunkTargetChars = some [""] := by
    rw [fitChunks, fitFrom]
    exact if_pos (by decide)
  simp [answerRemoteAction, replayPlainRemoteActionResult, publishPlainRemoteActionResult,
    wholeFrame, buildPlainRemoteActionResultPayload, buildPlainRemoteActionResultChunkPayloads,
    plaintextResult, compactResult, cachedRemoteActionResult, busyRemoteActionResult,
    remoteActionResultKind, hlarge, hrefused, hchunk, hpieces, bind, Except.bind] at hsame

end Greeting

end AgentRelay.Compaction
