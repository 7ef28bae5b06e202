import AgentRelay.TeamRun
import AgentRelay.Wire
import Mathlib

/-! The vocabulary of the content-blind orchestration protocol: bounded tokens, closed literals,
artifact references and the cursor a driver chooses its next command from. -/
namespace AgentRelay.Orchestration
open Text Wire Team

def currentProtocolVersion : UInt32 := 1

def minProtocolVersion : UInt32 := 1

def maxOpaqueIdLen : ℕ := 96

def maxCommandBindings : ℕ := 16

def maxCandidateThreads : ℕ := 16

def maxCursorArtifacts : ℕ := 64

inductive ProtocolValueError
  | empty (field : String)
  | tooLong (field : String) (max actual : ℕ)
  | invalidCharacter (field : String) (character : Char)
  | invalidTokenShape (field : String)
  | tooManyItems (field : String) (max actual : ℕ)
  | unsupportedProtocolVersion (version : UInt32)
  | malformedDriverProgress
  | unknownBackend
  deriving DecidableEq, Repr

inductive Refusal
  | value (error : ProtocolValueError)
  | message (text : String)
  deriving DecidableEq, Repr

abbrev Decoded (α : Type) := Except (DeError Refusal) α

def isTokenChar (character : Char) : Bool :=
  character.isAlphanum || character = '-' || character = '_' || character = '.'

def validateToken (field raw : String) (maxLen : ℕ) : Except ProtocolValueError String :=
  if raw = "" then .error (.empty field)
  else if maxLen < raw.utf8ByteSize then .error (.tooLong field maxLen raw.utf8ByteSize)
  else
    match raw.toList.find? (!isTokenChar ·) with
    | some character => .error (.invalidCharacter field character)
    | none =>
      if startsWith raw "." || raw.toList.getLast? = some '.' || contains raw ".." then
        .error (.invalidTokenShape field)
      else .ok raw

theorem validateToken_eq {field raw token : String} {maxLen : ℕ}
    (h : validateToken field raw maxLen = .ok token) : token = raw := by
  unfold validateToken at h
  split_ifs at h <;> split at h <;> simp_all

structure IsToken (maxLen : ℕ) (raw : String) : Prop where
  nonempty : raw ≠ ""
  short : raw.length ≤ maxLen
  characters : ∀ character ∈ raw.toList, isTokenChar character = true
  shape : ¬ ['.'] <+: raw.toList ∧ raw.toList.getLast? ≠ some '.' ∧ ¬ ['.', '.'] <:+: raw.toList

theorem isTokenChar_ascii {character : Char} (h : isTokenChar character = true) :
    character.utf8Size = 1 := by
  rw [Char.utf8Size_eq_one_iff]
  simp only [isTokenChar, Bool.or_eq_true, decide_eq_true_eq, Char.isAlphanum, Char.isAlpha,
    Char.isUpper, Char.isLower, Char.isDigit, Bool.and_eq_true, ge_iff_le] at h
  rcases h with ((h | rfl) | rfl) | rfl
  · simp only [UInt32.le_iff_toNat_le] at h ⊢
    rcases h with (⟨-, h⟩ | ⟨-, h⟩) | ⟨-, h⟩
    · exact h.trans (by decide)
    · exact h.trans (by decide)
    · exact h.trans (by decide)
  · decide
  · decide
  · decide

theorem utf8ByteSize_ascii {raw : String} (h : ∀ character ∈ raw.toList, character.utf8Size = 1) :
    raw.utf8ByteSize = raw.length := by
  rw [← String.ofList_toList (s := raw), String.length_ofList]
  generalize raw.toList = characters at h
  induction characters with
  | nil => simp
  | cons character rest ih =>
    have hrest := ih fun other hother => h other (List.mem_cons_of_mem _ hother)
    rw [String.ofList_cons, String.utf8ByteSize_append, String.utf8ByteSize_singleton, hrest,
      h character List.mem_cons_self, List.length_cons]
    omega

theorem validateToken_iff {field raw : String} {maxLen : ℕ} :
    validateToken field raw maxLen = .ok raw ↔ IsToken maxLen raw := by
  have hfind : raw.toList.find? (!isTokenChar ·) = none ↔
      ∀ character ∈ raw.toList, isTokenChar character = true := by
    simp [List.find?_eq_none]
  have hshape : (startsWith raw "." || raw.toList.getLast? = some '.' || contains raw "..") =
      false ↔ ¬ ['.'] <+: raw.toList ∧ raw.toList.getLast? ≠ some '.' ∧
        ¬ ['.', '.'] <:+: raw.toList := by
    simp [startsWith, contains, and_assoc]
  constructor
  · intro h
    unfold validateToken at h
    cases hall : raw.toList.find? (!isTokenChar ·) with
    | some character =>
      rw [hall] at h
      split_ifs at h
    | none =>
      rw [hall] at h
      dsimp only at h
      split_ifs at h with hempty hlong hpath
      have hcharacters := hfind.mp hall
      have hbytes := utf8ByteSize_ascii fun c hc => isTokenChar_ascii (hcharacters c hc)
      exact ⟨hempty, by omega, hcharacters, hshape.mp (Bool.not_eq_true _ ▸ hpath)⟩
  · rintro ⟨hempty, hshort, hcharacters, hpath⟩
    have hbytes := utf8ByteSize_ascii fun c hc => isTokenChar_ascii (hcharacters c hc)
    unfold validateToken
    rw [if_neg hempty, if_neg (by omega), hfind.mpr hcharacters, hshape.mpr hpath]
    rfl

structure Token (field : String) (maxLen : ℕ) where
  raw : String
  valid : validateToken field raw maxLen = .ok raw
  deriving DecidableEq

namespace Token

variable {field : String} {maxLen : ℕ}

def new (field : String) (maxLen : ℕ) (raw : String) :
    Except ProtocolValueError (Token field maxLen) :=
  match h : validateToken field raw maxLen with
  | .ok token => .ok ⟨token, (validateToken_eq h).symm ▸ h⟩
  | .error e => .error e

theorem new_eq {raw : String} {token : Token field maxLen} :
    new field maxLen raw = .ok token ↔ token.raw = raw := by
  unfold new
  split
  · rename_i text h
    obtain rfl := validateToken_eq h
    constructor
    · intro heq
      rw [← Except.ok.inj heq]
    · intro heq
      cases token
      simp_all
  · rename_i e h
    simp only [reduceCtorEq, false_iff]
    intro heq
    have hvalid := token.valid
    rw [heq, h] at hvalid
    exact absurd hvalid (by simp)

theorem new_accepts (field : String) (maxLen : ℕ) (raw : String) :
    (∃ token : Token field maxLen, new field maxLen raw = .ok token) ↔ IsToken maxLen raw := by
  simp only [new_eq]
  constructor
  · rintro ⟨token, rfl⟩
    exact validateToken_iff.mp token.valid
  · intro h
    exact ⟨⟨raw, validateToken_iff.mpr h⟩, rfl⟩

def read (field : String) (maxLen : ℕ) : Json → Decoded (Token field maxLen)
  | .string raw => (new field maxLen raw).mapError fun e => .custom (.value e)
  | _ => .error .invalidType

def encode (token : Token field maxLen) : Json := .string token.raw

end Token

abbrev CommandId := Token "command_id" maxOpaqueIdLen

abbrev ThreadHandle := Token "thread_handle" maxOpaqueIdLen

abbrev TemplateId := Token "template_id" maxOpaqueIdLen

abbrev ArtifactId := Token "artifact_id" maxOpaqueIdLen

structure BoundedVec (α : Type) (max : ℕ) where
  items : List α
  bounded : items.length ≤ max
  deriving DecidableEq

namespace BoundedVec

variable {α : Type} {max : ℕ}

def new (field : String) (max : ℕ) (items : List α) :
    Except ProtocolValueError (BoundedVec α max) :=
  if h : items.length ≤ max then .ok ⟨items, h⟩
  else .error (.tooManyItems field max items.length)

def empty : BoundedVec α max := ⟨[], Nat.zero_le _⟩

/-- One item after the other, and none once the vector is full. -/
def visitSeq (read : Json → Decoded α) : List Json → BoundedVec α max → Decoded (BoundedVec α max)
  | [], found => .ok found
  | json :: rest, found =>
    if hfull : found.items.length = max then
      .error (.custom (.value (.tooManyItems "bounded_vector" max (max + 1))))
    else do
      let item ← read json
      visitSeq read rest ⟨found.items ++ [item], by
        have hbound := found.bounded
        rw [List.length_append, List.length_singleton]
        omega⟩

def read (max : ℕ) (read : Json → Decoded α) : Json → Decoded (BoundedVec α max)
  | .array items => visitSeq read items empty
  | _ => .error .invalidType

def encode (encode : α → Json) (vec : BoundedVec α max) : Json := .array (vec.items.map encode)

end BoundedVec

inductive OrchestrationBackendKind
  | legacyEmbedded
  | cloud
  | localSidecar
  | unknownNonExecuting
  deriving DecidableEq, Repr

instance : Literals OrchestrationBackendKind where
  values := [.legacyEmbedded, .cloud, .localSidecar, .unknownNonExecuting]
  text
    | .legacyEmbedded => "legacy_embedded"
    | .cloud => "cloud"
    | .localSidecar => "local_sidecar"
    | .unknownNonExecuting => "unknown_non_executing"
  complete kind := by cases kind <;> simp
  distinct := by decide

inductive DriverRunStatus
  | queued
  | running
  | pausePending
  | paused
  | awaitingUser
  | done
  | escalated
  | blocked
  | resolving
  | failed
  | interrupted
  | cancelled
  deriving DecidableEq, Repr

instance : Literals DriverRunStatus where
  values := [.queued, .running, .pausePending, .paused, .awaitingUser, .done, .escalated,
    .blocked, .resolving, .failed, .interrupted, .cancelled]
  text
    | .queued => "queued"
    | .running => "running"
    | .pausePending => "pause_pending"
    | .paused => "paused"
    | .awaitingUser => "awaiting_user"
    | .done => "done"
    | .escalated => "escalated"
    | .blocked => "blocked"
    | .resolving => "resolving"
    | .failed => "failed"
    | .interrupted => "interrupted"
    | .cancelled => "cancelled"
  complete status := by cases status <;> simp
  distinct := by decide

def DriverRunStatus.fromTeamStatus : TeamRunStatus → DriverRunStatus
  | .queued => queued
  | .running => running
  | .pausePending => pausePending
  | .paused => paused
  | .awaitingUser => awaitingUser
  | .done => done
  | .escalated => escalated
  | .blocked => blocked
  | .resolving => resolving
  | .failed => failed
  | .interrupted => interrupted
  | .cancelled => cancelled

inductive DriverPhase
  | intake
  | design
  | designReview
  | planning
  | subTasks
  | mrGate
  | wrapping
  | finished
  deriving DecidableEq, Repr

instance : Literals DriverPhase where
  values := [.intake, .design, .designReview, .planning, .subTasks, .mrGate, .wrapping, .finished]
  text
    | .intake => "intake"
    | .design => "design"
    | .designReview => "design_review"
    | .planning => "planning"
    | .subTasks => "sub_tasks"
    | .mrGate => "mr_gate"
    | .wrapping => "wrapping"
    | .finished => "finished"
  complete phase := by cases phase <;> simp
  distinct := by decide

def DriverPhase.fromTeamPhase : TeamPhase → DriverPhase
  | .intake => intake
  | .design => design
  | .designReview => designReview
  | .planning => planning
  | .subTasks => subTasks
  | .mrGate => mrGate
  | .wrapping => wrapping
  | .finished => finished

inductive DriverRole
  | tl
  | dev
  | reviewer
  deriving DecidableEq, Repr

instance : Literals DriverRole where
  values := [.tl, .dev, .reviewer]
  text
    | .tl => "tl"
    | .dev => "dev"
    | .reviewer => "reviewer"
  complete role := by cases role <;> simp
  distinct := by decide

inductive ArtifactKind
  | taskSpec
  | plan
  | design
  | report
  | subTaskBrief
  | workspaceDiff
  | reviewVerdict
  | transcriptDigest
  deriving DecidableEq, Repr

instance : Literals ArtifactKind where
  values := [.taskSpec, .plan, .design, .report, .subTaskBrief, .workspaceDiff, .reviewVerdict,
    .transcriptDigest]
  text
    | .taskSpec => "task_spec"
    | .plan => "plan"
    | .design => "design"
    | .report => "report"
    | .subTaskBrief => "sub_task_brief"
    | .workspaceDiff => "workspace_diff"
    | .reviewVerdict => "review_verdict"
    | .transcriptDigest => "transcript_digest"
  complete kind := by cases kind <;> simp
  distinct := by decide

inductive ArtifactBindingSlot
  | taskSpec
  | plan
  | design
  | report
  | subTaskBrief
  | diff
  | verdict
  | priorSummary
  deriving DecidableEq, Repr

instance : Literals ArtifactBindingSlot where
  values := [.taskSpec, .plan, .design, .report, .subTaskBrief, .diff, .verdict, .priorSummary]
  text
    | .taskSpec => "task_spec"
    | .plan => "plan"
    | .design => "design"
    | .report => "report"
    | .subTaskBrief => "sub_task_brief"
    | .diff => "diff"
    | .verdict => "verdict"
    | .priorSummary => "prior_summary"
  complete slot := by cases slot <;> simp
  distinct := by decide

structure ArtifactRef where
  artifactId : ArtifactId
  kind : ArtifactKind
  revision : UInt64
  sizeBytes : Option UInt64
  deriving DecidableEq

inductive ArtifactRefField
  | artifactId
  | kind
  | revision
  | sizeBytes
  deriving DecidableEq, Repr

namespace ArtifactRef

abbrev Value : ArtifactRefField → Type
  | .artifactId => ArtifactId
  | .kind => ArtifactKind
  | .revision => UInt64
  | .sizeBytes => Option UInt64

def wire : Record Refusal ArtifactRefField Value where
  fields := [.artifactId, .kind, .revision, .sizeBytes]
  name
    | .artifactId => "artifact_id"
    | .kind => "kind"
    | .revision => "revision"
    | .sizeBytes => "size_bytes"
  read
    | .artifactId => Token.read "artifact_id" maxOpaqueIdLen
    | .kind => readEnum ArtifactKind
    | .revision => readU64
    | .sizeBytes => readOption readU64
  complete f := by cases f <;> simp
  distinct := by decide

def hasDefault : ArtifactRefField → Bool
  | .sizeBytes => true
  | _ => false

def finish (s : Slots Value) : Decoded ArtifactRef := do
  let artifactId ← wire.required s .artifactId
  let kind ← wire.required s .kind
  let revision ← wire.required s .revision
  return { artifactId, kind, revision, sizeBytes := (s .sizeBytes).getD none }

def decode (json : Json) : Decoded ArtifactRef := wire.readStruct hasDefault json >>= finish

def encode (artifact : ArtifactRef) : Json :=
  .object ([("artifact_id", artifact.artifactId.encode),
    ("kind", .string (Literals.text artifact.kind)),
    ("revision", ofU64 artifact.revision)] ++
    artifact.sizeBytes.toList.map fun size => ("size_bytes", ofU64 size))

end ArtifactRef

structure ArtifactBinding where
  slot : ArtifactBindingSlot
  artifact : ArtifactRef
  deriving DecidableEq

inductive ArtifactBindingField
  | slot
  | artifact
  deriving DecidableEq, Repr

namespace ArtifactBinding

abbrev Value : ArtifactBindingField → Type
  | .slot => ArtifactBindingSlot
  | .artifact => ArtifactRef

def wire : Record Refusal ArtifactBindingField Value where
  fields := [.slot, .artifact]
  name
    | .slot => "slot"
    | .artifact => "artifact"
  read
    | .slot => readEnum ArtifactBindingSlot
    | .artifact => ArtifactRef.decode
  complete f := by cases f <;> simp
  distinct := by decide

def hasDefault (_ : ArtifactBindingField) : Bool := false

def finish (s : Slots Value) : Decoded ArtifactBinding := do
  let slot ← wire.required s .slot
  let artifact ← wire.required s .artifact
  return { slot, artifact }

def decode (json : Json) : Decoded ArtifactBinding := wire.readStruct hasDefault json >>= finish

def encode (binding : ArtifactBinding) : Json :=
  .object [("slot", .string (Literals.text binding.slot)), ("artifact", binding.artifact.encode)]

end ArtifactBinding

/-- `SupportedProtocolVersion::new`, on a number that was read. -/
def deserializeSupportedProtocolVersion (json : Json) : Decoded UInt32 := do
  let version ← readU32 json
  if minProtocolVersion ≤ version ∧ version ≤ currentProtocolVersion then return version
  else .error (.custom (.value (.unsupportedProtocolVersion version)))

structure DriverCursor where
  protocolVersion : UInt32
  backend : OrchestrationBackendKind
  status : DriverRunStatus
  phase : DriverPhase
  stateRevision : UInt64
  lastCommandSeq : UInt64
  lastEventSeq : UInt64
  inFlightCommandId : Option CommandId
  currentSubTaskIndex : UInt32
  subTaskCount : UInt32
  currentRoundsUsed : UInt32
  maxReviewRounds : UInt32
  designReviewRounds : UInt32
  mrRoundsUsed : UInt32
  tlGeneration : UInt32
  pauseRequested : Bool
  awaitingUser : Bool
  artifacts : BoundedVec ArtifactRef maxCursorArtifacts
  deriving DecidableEq

inductive DriverCursorField
  | protocolVersion
  | backend
  | status
  | phase
  | stateRevision
  | lastCommandSeq
  | lastEventSeq
  | inFlightCommandId
  | currentSubTaskIndex
  | subTaskCount
  | currentRoundsUsed
  | maxReviewRounds
  | designReviewRounds
  | mrRoundsUsed
  | tlGeneration
  | pauseRequested
  | awaitingUser
  | artifacts
  deriving DecidableEq, Repr

namespace DriverCursor

abbrev Value : DriverCursorField → Type
  | .backend => OrchestrationBackendKind
  | .status => DriverRunStatus
  | .phase => DriverPhase
  | .stateRevision | .lastCommandSeq | .lastEventSeq => UInt64
  | .inFlightCommandId => Option CommandId
  | .protocolVersion | .currentSubTaskIndex | .subTaskCount | .currentRoundsUsed
  | .maxReviewRounds | .designReviewRounds | .mrRoundsUsed | .tlGeneration => UInt32
  | .pauseRequested | .awaitingUser => Bool
  | .artifacts => BoundedVec ArtifactRef maxCursorArtifacts

def wire : Record Refusal DriverCursorField Value where
  fields := [.protocolVersion, .backend, .status, .phase, .stateRevision, .lastCommandSeq,
    .lastEventSeq, .inFlightCommandId, .currentSubTaskIndex, .subTaskCount, .currentRoundsUsed,
    .maxReviewRounds, .designReviewRounds, .mrRoundsUsed, .tlGeneration, .pauseRequested,
    .awaitingUser, .artifacts]
  name
    | .protocolVersion => "protocol_version"
    | .backend => "backend"
    | .status => "status"
    | .phase => "phase"
    | .stateRevision => "state_revision"
    | .lastCommandSeq => "last_command_seq"
    | .lastEventSeq => "last_event_seq"
    | .inFlightCommandId => "in_flight_command_id"
    | .currentSubTaskIndex => "current_sub_task_index"
    | .subTaskCount => "sub_task_count"
    | .currentRoundsUsed => "current_rounds_used"
    | .maxReviewRounds => "max_review_rounds"
    | .designReviewRounds => "design_review_rounds"
    | .mrRoundsUsed => "mr_rounds_used"
    | .tlGeneration => "tl_generation"
    | .pauseRequested => "pause_requested"
    | .awaitingUser => "awaiting_user"
    | .artifacts => "artifacts"
  read
    | .protocolVersion => deserializeSupportedProtocolVersion
    | .backend => readEnum OrchestrationBackendKind
    | .status => readEnum DriverRunStatus
    | .phase => readEnum DriverPhase
    | .stateRevision | .lastCommandSeq | .lastEventSeq => readU64
    | .inFlightCommandId => readOption (Token.read "command_id" maxOpaqueIdLen)
    | .currentSubTaskIndex | .subTaskCount | .currentRoundsUsed | .maxReviewRounds
    | .designReviewRounds | .mrRoundsUsed | .tlGeneration => readU32
    | .pauseRequested | .awaitingUser => readBool
    | .artifacts => BoundedVec.read maxCursorArtifacts ArtifactRef.decode
  complete f := by cases f <;> simp
  distinct := by decide

def hasDefault : DriverCursorField → Bool
  | .inFlightCommandId | .artifacts => true
  | _ => false

def finish (s : Slots Value) : Decoded DriverCursor := do
  let protocolVersion ← wire.required s .protocolVersion
  let backend ← wire.required s .backend
  let status ← wire.required s .status
  let phase ← wire.required s .phase
  let stateRevision ← wire.required s .stateRevision
  let lastCommandSeq ← wire.required s .lastCommandSeq
  let lastEventSeq ← wire.required s .lastEventSeq
  let currentSubTaskIndex ← wire.required s .currentSubTaskIndex
  let subTaskCount ← wire.required s .subTaskCount
  let currentRoundsUsed ← wire.required s .currentRoundsUsed
  let maxReviewRounds ← wire.required s .maxReviewRounds
  let designReviewRounds ← wire.required s .designReviewRounds
  let mrRoundsUsed ← wire.required s .mrRoundsUsed
  let tlGeneration ← wire.required s .tlGeneration
  let pauseRequested ← wire.required s .pauseRequested
  let awaitingUser ← wire.required s .awaitingUser
  return { protocolVersion, backend, status, phase, stateRevision, lastCommandSeq, lastEventSeq
           inFlightCommandId := (s .inFlightCommandId).getD none
           currentSubTaskIndex, subTaskCount, currentRoundsUsed, maxReviewRounds
           designReviewRounds, mrRoundsUsed, tlGeneration, pauseRequested, awaitingUser
           artifacts := (s .artifacts).getD BoundedVec.empty }

def decode (json : Json) : Decoded DriverCursor := wire.readStruct hasDefault json >>= finish

def encode (cursor : DriverCursor) : Json :=
  .object ([("protocol_version", ofU32 cursor.protocolVersion),
    ("backend", .string (Literals.text cursor.backend)),
    ("status", .string (Literals.text cursor.status)),
    ("phase", .string (Literals.text cursor.phase)),
    ("state_revision", ofU64 cursor.stateRevision),
    ("last_command_seq", ofU64 cursor.lastCommandSeq),
    ("last_event_seq", ofU64 cursor.lastEventSeq)] ++
    (cursor.inFlightCommandId.toList.map fun id => ("in_flight_command_id", id.encode)) ++
    [("current_sub_task_index", ofU32 cursor.currentSubTaskIndex),
    ("sub_task_count", ofU32 cursor.subTaskCount),
    ("current_rounds_used", ofU32 cursor.currentRoundsUsed),
    ("max_review_rounds", ofU32 cursor.maxReviewRounds),
    ("design_review_rounds", ofU32 cursor.designReviewRounds),
    ("mr_rounds_used", ofU32 cursor.mrRoundsUsed),
    ("tl_generation", ofU32 cursor.tlGeneration),
    ("pause_requested", .bool cursor.pauseRequested),
    ("awaiting_user", .bool cursor.awaitingUser),
    ("artifacts", cursor.artifacts.encode ArtifactRef.encode)])

end DriverCursor

end AgentRelay.Orchestration
