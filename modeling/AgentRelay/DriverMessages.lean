import AgentRelay.Orchestration

/-! The messages between a driver and the local executor: closed commands one way and closed
events back, each with its hand-written decoder. -/
namespace AgentRelay.Orchestration
open Wire

inductive DiffScope
  | head
  | currentSubTask
  | mergeBaseTarget
  deriving DecidableEq, Repr

instance : Literals DiffScope where
  values := [.head, .currentSubTask, .mergeBaseTarget]
  text
    | .head => "head"
    | .currentSubTask => "current_sub_task"
    | .mergeBaseTarget => "merge_base_target"
  complete scope := by cases scope <;> simp
  distinct := by decide

inductive MergeBaseTarget
  | pinnedTarget
  deriving DecidableEq, Repr

instance : Literals MergeBaseTarget where
  values := [.pinnedTarget]
  text
    | .pinnedTarget => "pinned_target"
  complete target := by cases target; simp
  distinct := by decide

inductive CommandRejection
  | unknownRevision
  | duplicateCommand
  | staleCommand
  | backendMismatch
  | permissionDenied
  | workspaceUnavailable
  | templateUnavailable
  | artifactUnavailable
  | executorBusy
  | invalidState
  | unsupportedProtocol
  deriving DecidableEq, Repr

instance : Literals CommandRejection where
  values := [.unknownRevision, .duplicateCommand, .staleCommand, .backendMismatch,
    .permissionDenied, .workspaceUnavailable, .templateUnavailable, .artifactUnavailable,
    .executorBusy, .invalidState, .unsupportedProtocol]
  text
    | .unknownRevision => "unknown_revision"
    | .duplicateCommand => "duplicate_command"
    | .staleCommand => "stale_command"
    | .backendMismatch => "backend_mismatch"
    | .permissionDenied => "permission_denied"
    | .workspaceUnavailable => "workspace_unavailable"
    | .templateUnavailable => "template_unavailable"
    | .artifactUnavailable => "artifact_unavailable"
    | .executorBusy => "executor_busy"
    | .invalidState => "invalid_state"
    | .unsupportedProtocol => "unsupported_protocol"
  complete reason := by cases reason <;> simp
  distinct := by decide

inductive TurnOutcomeKind
  | replied
  | silent
  | failed
  | blocked
  deriving DecidableEq, Repr

instance : Literals TurnOutcomeKind where
  values := [.replied, .silent, .failed, .blocked]
  text
    | .replied => "replied"
    | .silent => "silent"
    | .failed => "failed"
    | .blocked => "blocked"
  complete outcome := by cases outcome <;> simp
  distinct := by decide

inductive DriverCommand
  | requireWorkspace
  | startThread (role : DriverRole)
  | resumeOrStartThread (role : DriverRole)
      (candidates : BoundedVec ThreadHandle maxCandidateThreads)
  | runTemplate (thread : ThreadHandle) (role : DriverRole) (templateId : TemplateId)
      (bindings : BoundedVec ArtifactBinding maxCommandBindings)
  | checkpointCommit
  | collectDiff (scope : DiffScope)
  | mergeBase (target : MergeBaseTarget)
  | commit (messageTemplateId : TemplateId)
      (bindings : BoundedVec ArtifactBinding maxCommandBindings)
  | pauseAtBoundary
  | settleRun (status : DriverRunStatus)
  deriving DecidableEq

inductive DriverCommandKind
  | requireWorkspace
  | startThread
  | resumeOrStartThread
  | runTemplate
  | checkpointCommit
  | collectDiff
  | mergeBase
  | commit
  | pauseAtBoundary
  | settleRun
  deriving DecidableEq, Repr

instance : Literals DriverCommandKind where
  values := [.requireWorkspace, .startThread, .resumeOrStartThread, .runTemplate,
    .checkpointCommit, .collectDiff, .mergeBase, .commit, .pauseAtBoundary, .settleRun]
  text
    | .requireWorkspace => "require_workspace"
    | .startThread => "start_thread"
    | .resumeOrStartThread => "resume_or_start_thread"
    | .runTemplate => "run_template"
    | .checkpointCommit => "checkpoint_commit"
    | .collectDiff => "collect_diff"
    | .mergeBase => "merge_base"
    | .commit => "commit"
    | .pauseAtBoundary => "pause_at_boundary"
    | .settleRun => "settle_run"
  complete kind := by cases kind <;> simp
  distinct := by decide

inductive DriverCommandField
  | kind
  | role
  | candidates
  | thread
  | templateId
  | bindings
  | scope
  | target
  | messageTemplateId
  | status
  deriving DecidableEq, Repr

def readText (α : Type) [Literals α] : Json → Decoded α
  | .string text => readVariant α text
  | _ => .error .invalidType

/-- `DriverRole::from_wire`, on a string that was read. -/
def readRole : Json → Decoded DriverRole
  | .string raw =>
    match (Literals.values (α := DriverRole)).find? (Literals.text · = raw) with
    | some role => .ok role
    | none => .error (.custom (.message ("unsupported driver role \x60" ++ raw ++ "\x60")))
  | _ => .error .invalidType

def notValid {α : Type} (field kind message : String) : Decoded α :=
  .error (.custom (.message ("field " ++ field ++ " is not valid for " ++ kind ++ " " ++ message)))

/-- Fields that must not have been said. -/
def rejectExtra {F : Type} {T : F → Type} (r : Record Refusal F T) (s : Slots T)
    (kind message : String) : List F → Decoded Unit
  | [] => .ok ()
  | field :: fields =>
    if (s field).isSome then notValid (r.name field) kind message
    else rejectExtra r s kind message fields

namespace DriverCommand

abbrev Value : DriverCommandField → Type
  | .kind => DriverCommandKind
  | .role => DriverRole
  | .candidates => BoundedVec ThreadHandle maxCandidateThreads
  | .thread => ThreadHandle
  | .templateId | .messageTemplateId => TemplateId
  | .bindings => BoundedVec ArtifactBinding maxCommandBindings
  | .scope => DiffScope
  | .target => MergeBaseTarget
  | .status => DriverRunStatus

def wire : Record Refusal DriverCommandField Value where
  fields := [.kind, .role, .candidates, .thread, .templateId, .bindings, .scope, .target,
    .messageTemplateId, .status]
  name
    | .kind => "kind"
    | .role => "role"
    | .candidates => "candidates"
    | .thread => "thread"
    | .templateId => "template_id"
    | .bindings => "bindings"
    | .scope => "scope"
    | .target => "target"
    | .messageTemplateId => "message_template_id"
    | .status => "status"
  read
    | .kind => readText DriverCommandKind
    | .role => readRole
    | .candidates =>
      BoundedVec.read maxCandidateThreads (Token.read "thread_handle" maxOpaqueIdLen)
    | .thread => Token.read "thread_handle" maxOpaqueIdLen
    | .templateId | .messageTemplateId => Token.read "template_id" maxOpaqueIdLen
    | .bindings => BoundedVec.read maxCommandBindings ArtifactBinding.decode
    | .scope => readEnum DiffScope
    | .target => readEnum MergeBaseTarget
    | .status => readEnum DriverRunStatus
  complete f := by cases f <;> simp
  distinct := by decide

def commandFieldAllowedForKind : DriverCommandKind → DriverCommandField → Bool
  | .requireWorkspace, _ | .checkpointCommit, _ | .pauseAtBoundary, _ => false
  | .startThread, field => field = .role
  | .resumeOrStartThread, field => field = .role || field = .candidates
  | .runTemplate, field =>
    field = .thread || field = .role || field = .templateId || field = .bindings
  | .collectDiff, field => field = .scope
  | .mergeBase, field => field = .target
  | .commit, field => field = .messageTemplateId || field = .bindings
  | .settleRun, field => field = .status

/-- Once the kind is known, a field it does not have is refused before its value is read. -/
def guard (s : Slots Value) (field : DriverCommandField) : Decoded Unit :=
  match s .kind with
  | some kind =>
    if field ≠ .kind ∧ commandFieldAllowedForKind kind field = false then
      notValid (wire.name field) (Literals.text kind) "command"
    else .ok ()
  | none => .ok ()

def rejectCommandExtra (s : Slots Value) (kind : DriverCommandKind) :
    List DriverCommandField → Decoded Unit :=
  rejectExtra wire s (Literals.text kind) "command"

def finish (s : Slots Value) : Decoded DriverCommand := do
  let kind ← wire.required s .kind
  match kind with
  | .requireWorkspace =>
    rejectCommandExtra s kind [.role, .candidates, .thread, .templateId, .bindings, .scope,
      .target, .messageTemplateId, .status]
    return .requireWorkspace
  | .startThread =>
    let role ← wire.required s .role
    rejectCommandExtra s kind [.candidates, .thread, .templateId, .bindings, .scope, .target,
      .messageTemplateId, .status]
    return .startThread role
  | .resumeOrStartThread =>
    let role ← wire.required s .role
    let candidates ← wire.required s .candidates
    rejectCommandExtra s kind [.thread, .templateId, .bindings, .scope, .target,
      .messageTemplateId, .status]
    return .resumeOrStartThread role candidates
  | .runTemplate =>
    let thread ← wire.required s .thread
    let role ← wire.required s .role
    let templateId ← wire.required s .templateId
    let bindings ← wire.required s .bindings
    rejectCommandExtra s kind [.candidates, .scope, .target, .messageTemplateId, .status]
    return .runTemplate thread role templateId bindings
  | .checkpointCommit =>
    rejectCommandExtra s kind [.role, .candidates, .thread, .templateId, .bindings, .scope,
      .target, .messageTemplateId, .status]
    return .checkpointCommit
  | .collectDiff =>
    let scope ← wire.required s .scope
    rejectCommandExtra s kind [.role, .candidates, .thread, .templateId, .bindings, .target,
      .messageTemplateId, .status]
    return .collectDiff scope
  | .mergeBase =>
    let target ← wire.required s .target
    rejectCommandExtra s kind [.role, .candidates, .thread, .templateId, .bindings, .scope,
      .messageTemplateId, .status]
    return .mergeBase target
  | .commit =>
    let messageTemplateId ← wire.required s .messageTemplateId
    let bindings ← wire.required s .bindings
    rejectCommandExtra s kind [.role, .candidates, .thread, .templateId, .scope, .target,
      .status]
    return .commit messageTemplateId bindings
  | .pauseAtBoundary =>
    rejectCommandExtra s kind [.role, .candidates, .thread, .templateId, .bindings, .scope,
      .target, .messageTemplateId, .status]
    return .pauseAtBoundary
  | .settleRun =>
    let status ← wire.required s .status
    rejectCommandExtra s kind [.role, .candidates, .thread, .templateId, .bindings, .scope,
      .target, .messageTemplateId]
    return .settleRun status

def decode : Json → Decoded DriverCommand
  | .object entries => wire.readEntries guard entries >>= finish
  | _ => .error .invalidType

def encode : DriverCommand → Json
  | .requireWorkspace => .object [("kind", .string "require_workspace")]
  | .startThread role =>
    .object [("kind", .string "start_thread"), ("role", .string (Literals.text role))]
  | .resumeOrStartThread role candidates =>
    .object [("kind", .string "resume_or_start_thread"), ("role", .string (Literals.text role)),
      ("candidates", candidates.encode Token.encode)]
  | .runTemplate thread role templateId bindings =>
    .object [("kind", .string "run_template"), ("thread", thread.encode),
      ("role", .string (Literals.text role)), ("template_id", templateId.encode),
      ("bindings", bindings.encode ArtifactBinding.encode)]
  | .checkpointCommit => .object [("kind", .string "checkpoint_commit")]
  | .collectDiff scope =>
    .object [("kind", .string "collect_diff"), ("scope", .string (Literals.text scope))]
  | .mergeBase target =>
    .object [("kind", .string "merge_base"), ("target", .string (Literals.text target))]
  | .commit messageTemplateId bindings =>
    .object [("kind", .string "commit"), ("message_template_id", messageTemplateId.encode),
      ("bindings", bindings.encode ArtifactBinding.encode)]
  | .pauseAtBoundary => .object [("kind", .string "pause_at_boundary")]
  | .settleRun status =>
    .object [("kind", .string "settle_run"), ("status", .string (Literals.text status))]

end DriverCommand

inductive DriverEvent
  | commandAccepted
  | commandRejected (reason : CommandRejection)
  | workspaceReady
  | threadReady (thread : ThreadHandle) (role : DriverRole)
  | turnFinished (outcome : TurnOutcomeKind) (artifact : Option ArtifactRef)
  | diffCollected (changed : Bool) (artifact : ArtifactRef)
  | mergeBaseResolved (available : Bool) (artifact : Option ArtifactRef)
  | commitRecorded (changed : Bool) (artifact : Option ArtifactRef)
  | cursorAdvanced (cursor : DriverCursor)
  | runSettled (status : DriverRunStatus)
  deriving DecidableEq

inductive DriverEventKind
  | commandAccepted
  | commandRejected
  | workspaceReady
  | threadReady
  | turnFinished
  | diffCollected
  | mergeBaseResolved
  | commitRecorded
  | cursorAdvanced
  | runSettled
  deriving DecidableEq, Repr

instance : Literals DriverEventKind where
  values := [.commandAccepted, .commandRejected, .workspaceReady, .threadReady, .turnFinished,
    .diffCollected, .mergeBaseResolved, .commitRecorded, .cursorAdvanced, .runSettled]
  text
    | .commandAccepted => "command_accepted"
    | .commandRejected => "command_rejected"
    | .workspaceReady => "workspace_ready"
    | .threadReady => "thread_ready"
    | .turnFinished => "turn_finished"
    | .diffCollected => "diff_collected"
    | .mergeBaseResolved => "merge_base_resolved"
    | .commitRecorded => "commit_recorded"
    | .cursorAdvanced => "cursor_advanced"
    | .runSettled => "run_settled"
  complete kind := by cases kind <;> simp
  distinct := by decide

inductive DriverEventField
  | kind
  | reason
  | thread
  | role
  | outcome
  | artifact
  | changed
  | available
  | cursor
  | status
  deriving DecidableEq, Repr

namespace DriverEvent

abbrev Value : DriverEventField → Type
  | .kind => DriverEventKind
  | .reason => CommandRejection
  | .thread => ThreadHandle
  | .role => DriverRole
  | .outcome => TurnOutcomeKind
  | .artifact => Option ArtifactRef
  | .changed | .available => Bool
  | .cursor => DriverCursor
  | .status => DriverRunStatus

def wire : Record Refusal DriverEventField Value where
  fields := [.kind, .reason, .thread, .role, .outcome, .artifact, .changed, .available, .cursor,
    .status]
  name
    | .kind => "kind"
    | .reason => "reason"
    | .thread => "thread"
    | .role => "role"
    | .outcome => "outcome"
    | .artifact => "artifact"
    | .changed => "changed"
    | .available => "available"
    | .cursor => "cursor"
    | .status => "status"
  read
    | .kind => readText DriverEventKind
    | .reason => readEnum CommandRejection
    | .thread => Token.read "thread_handle" maxOpaqueIdLen
    | .role => readRole
    | .outcome => readEnum TurnOutcomeKind
    | .artifact => readOption ArtifactRef.decode
    | .changed | .available => readBool
    | .cursor => DriverCursor.decode
    | .status => readEnum DriverRunStatus
  complete f := by cases f <;> simp
  distinct := by decide

def eventFieldAllowedForKind : DriverEventKind → DriverEventField → Bool
  | .commandAccepted, _ | .workspaceReady, _ => false
  | .commandRejected, field => field = .reason
  | .threadReady, field => field = .thread || field = .role
  | .turnFinished, field => field = .outcome || field = .artifact
  | .diffCollected, field => field = .changed || field = .artifact
  | .mergeBaseResolved, field => field = .available || field = .artifact
  | .commitRecorded, field => field = .changed || field = .artifact
  | .cursorAdvanced, field => field = .cursor
  | .runSettled, field => field = .status

def guard (s : Slots Value) (field : DriverEventField) : Decoded Unit :=
  match s .kind with
  | some kind =>
    if field ≠ .kind ∧ eventFieldAllowedForKind kind field = false then
      notValid (wire.name field) (Literals.text kind) "event"
    else .ok ()
  | none => .ok ()

def rejectEventExtra (s : Slots Value) (kind : DriverEventKind) :
    List DriverEventField → Decoded Unit :=
  rejectExtra wire s (Literals.text kind) "event"

def requiredArtifact (s : Slots Value) : Decoded ArtifactRef := do
  match ← wire.required s .artifact with
  | some artifact => return artifact
  | none => .error (.custom (.message "artifact must not be null"))

def finish (s : Slots Value) : Decoded DriverEvent := do
  let kind ← wire.required s .kind
  match kind with
  | .commandAccepted =>
    rejectEventExtra s kind [.reason, .thread, .role, .outcome, .artifact, .changed, .available,
      .cursor, .status]
    return .commandAccepted
  | .commandRejected =>
    let reason ← wire.required s .reason
    rejectEventExtra s kind [.thread, .role, .outcome, .artifact, .changed, .available, .cursor,
      .status]
    return .commandRejected reason
  | .workspaceReady =>
    rejectEventExtra s kind [.reason, .thread, .role, .outcome, .artifact, .changed, .available,
      .cursor, .status]
    return .workspaceReady
  | .threadReady =>
    let thread ← wire.required s .thread
    let role ← wire.required s .role
    rejectEventExtra s kind [.reason, .outcome, .artifact, .changed, .available, .cursor, .status]
    return .threadReady thread role
  | .turnFinished =>
    let outcome ← wire.required s .outcome
    let artifact := (s .artifact).getD none
    rejectEventExtra s kind [.reason, .thread, .role, .changed, .available, .cursor, .status]
    return .turnFinished outcome artifact
  | .diffCollected =>
    let changed ← wire.required s .changed
    let artifact ← requiredArtifact s
    rejectEventExtra s kind [.reason, .thread, .role, .outcome, .available, .cursor, .status]
    return .diffCollected changed artifact
  | .mergeBaseResolved =>
    let available ← wire.required s .available
    let artifact := (s .artifact).getD none
    rejectEventExtra s kind [.reason, .thread, .role, .outcome, .changed, .cursor, .status]
    return .mergeBaseResolved available artifact
  | .commitRecorded =>
    let changed ← wire.required s .changed
    let artifact := (s .artifact).getD none
    rejectEventExtra s kind [.reason, .thread, .role, .outcome, .available, .cursor, .status]
    return .commitRecorded changed artifact
  | .cursorAdvanced =>
    let cursor ← wire.required s .cursor
    rejectEventExtra s kind [.reason, .thread, .role, .outcome, .artifact, .changed, .available,
      .status]
    return .cursorAdvanced cursor
  | .runSettled =>
    let status ← wire.required s .status
    rejectEventExtra s kind [.reason, .thread, .role, .outcome, .artifact, .changed, .available,
      .cursor]
    return .runSettled status

def decode : Json → Decoded DriverEvent
  | .object entries => wire.readEntries guard entries >>= finish
  | _ => .error .invalidType

/-- An artifact that may be missing is written as null. -/
def encode : DriverEvent → Json
  | .commandAccepted => .object [("kind", .string "command_accepted")]
  | .commandRejected reason =>
    .object [("kind", .string "command_rejected"), ("reason", .string (Literals.text reason))]
  | .workspaceReady => .object [("kind", .string "workspace_ready")]
  | .threadReady thread role =>
    .object [("kind", .string "thread_ready"), ("thread", thread.encode),
      ("role", .string (Literals.text role))]
  | .turnFinished outcome artifact =>
    .object [("kind", .string "turn_finished"), ("outcome", .string (Literals.text outcome)),
      ("artifact", ofOption ArtifactRef.encode artifact)]
  | .diffCollected changed artifact =>
    .object [("kind", .string "diff_collected"), ("changed", .bool changed),
      ("artifact", artifact.encode)]
  | .mergeBaseResolved available artifact =>
    .object [("kind", .string "merge_base_resolved"), ("available", .bool available),
      ("artifact", ofOption ArtifactRef.encode artifact)]
  | .commitRecorded changed artifact =>
    .object [("kind", .string "commit_recorded"), ("changed", .bool changed),
      ("artifact", ofOption ArtifactRef.encode artifact)]
  | .cursorAdvanced cursor =>
    .object [("kind", .string "cursor_advanced"), ("cursor", cursor.encode)]
  | .runSettled status =>
    .object [("kind", .string "run_settled"), ("status", .string (Literals.text status))]

end DriverEvent

end AgentRelay.Orchestration
