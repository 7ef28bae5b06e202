import AgentRelay.DevicePairing

/-! Who receives the transcript of a thread. A frame goes to the online peers of paired
devices; whether a peer is among them is decided by the watch set of its surface, which
carries the device that declared it, and for a peer without one by its own device. -/
namespace AgentRelay.Relay
open Text

structure WatchThreadsInput where
  threadIds : List String
  deviceId : Option String
  surfaceId : Option String
  surfaceGeneration : Option Nat
  deriving DecidableEq, Repr

def requireDeviceId (deviceId : Option String) : Except String String :=
  match nonEmpty deviceId with
  | some deviceId => .ok deviceId
  | none => .error "device_id is required"

namespace SurfaceState

/-- The surface a client's declaration is for: the peer a paired device was last heard
over, else the id the client sent, else the device itself. -/
def declaredSurfaceId (s : SurfaceState) (deviceId : String) (surfaceId : Option String) : String :=
  (s.pairedDevicePeerId deviceId).getD ((nonEmpty surfaceId).getD deviceId)

def setWatchedThreads (canonicalize : String → String) (cwdOf : String → Option String)
    (s : SurfaceState) (input : WatchThreadsInput) : SurfaceState × Except String Unit :=
  match requireDeviceId input.deviceId with
  | .error message => (s, .error message)
  | .ok deviceId =>
    let surfaceId := s.declaredSurfaceId deviceId input.surfaceId
    let s := if (s.pairedDevicePeerId deviceId).isSome then s.registerBrokerSurface surfaceId else s
    ((s.setWatchedThreadsForGeneration canonicalize cwdOf surfaceId deviceId input.threadIds
      input.surfaceGeneration).1, .ok ())

end SurfaceState

namespace RelayState

def cwdOf (s : RelayState) (threadId : String) : Option String :=
  s.runtimes[threadId]?.map (·.currentCwd)

def brokerTargetsForThread (canonicalize : String → String) (s : RelayState) (threadId : String) :
    List (String × String × String) :=
  s.surfaces.brokerTargetsForThread canonicalize s.cwdOf s.activeThreadId threadId

end RelayState

inductive DeliveryOp
  | relay (op : RelayOp)
  | applyPersisted (persisted : PersistedRelayState)
  | preparePairingTicket (ttlSecs : Option Nat) (pathScope : List String)
      (idToken pairingSecret : String)
  | consumePairingTicket (pairingId pairingSecret : String) (deviceId label : Option String)
      (verifyKey : String) (ticketExpiresAt : Option Nat) (peerId idToken payloadSecret : String)
  | registerPairingRequest (pairingId : String) (deviceId label : Option String)
      (peerId verifyKey idToken : String)
  | claimPairingRequest (pairingId : String)
  | restorePairingRequest (request : PendingPairingRequest)
  | decidePairingRequest (pairingId : String) (approved : Bool) (ticketExpiresAt : Option Nat)
      (idToken payloadSecret : String)
  | issueClaimChallenge (deviceId peerId idToken challenge : String)
  | claimChallenge (deviceId challengeId peerId : String)
  | completeRemoteClaim (deviceId challengeId peerId : String)
  | markPairedDeviceSeen (deviceId peerId : String)
  | revokePairedDevice (deviceId : String)
  | revokeAllOtherPairedDevices (keepDeviceId : String)
  | setAllowedRoots (allowedRoots : List String)
  | setBrokerConnection (connected : Bool)
  | markSurfacePeerOnline (peerId : String)
  | markSurfacePeerOffline (peerId : String)
  | replaceOnlineSurfacePeers (peerIds : List String)
  | bindSurfacePeerToDevice (deviceId peerId : String)
  | registerBrokerSurface (surfaceId : String)
  | openSurfaceGeneration (surfaceId : String) (claimed : Option Nat)
  | dropWatchedSurface (surfaceId : String)
  | dropWatchedSurfaceGeneration (surfaceId : String) (generation : Nat)
  | setWatchedThreadsForGeneration (surfaceId deviceId : String) (threadIds : List String)
      (generation : Option Nat)
  | setWatchedThreads (input : WatchThreadsInput)

section
variable (canonicalize sha256Hex : String → String)

def SurfaceState.step (s : SurfaceState) (cwdOf : String → Option String) (now : Nat) :
    DeliveryOp → SurfaceState
  | .preparePairingTicket ttlSecs pathScope idToken pairingSecret =>
    (s.preparePairingTicket sha256Hex now ttlSecs pathScope idToken pairingSecret).1
  | .consumePairingTicket pairingId pairingSecret deviceId label verifyKey ticketExpiresAt peerId
      idToken payloadSecret =>
    (s.consumePairingTicket sha256Hex now pairingId pairingSecret deviceId label verifyKey
      ticketExpiresAt peerId idToken payloadSecret).1
  | .registerPairingRequest pairingId deviceId label peerId verifyKey idToken =>
    (s.registerPairingRequest now pairingId deviceId label peerId verifyKey idToken).1
  | .claimPairingRequest pairingId => (s.claimPairingRequest now pairingId).1
  | .restorePairingRequest request => s.restorePairingRequest request
  | .decidePairingRequest pairingId approved ticketExpiresAt idToken payloadSecret =>
    (s.decidePairingRequest sha256Hex now pairingId approved ticketExpiresAt idToken
      payloadSecret).1
  | .issueClaimChallenge deviceId peerId idToken challenge =>
    (s.issueClaimChallenge now deviceId peerId idToken challenge).1
  | .claimChallenge deviceId challengeId peerId =>
    (s.claimChallenge now deviceId challengeId peerId).1
  | .completeRemoteClaim deviceId challengeId peerId =>
    (s.completeRemoteClaim now deviceId challengeId peerId).1
  | .markPairedDeviceSeen deviceId peerId => (s.markPairedDeviceSeen now deviceId peerId).1
  | .setAllowedRoots allowedRoots => (s.setAllowedRoots allowedRoots).1
  | .setBrokerConnection connected => s.setBrokerConnection connected
  | .markSurfacePeerOnline peerId => s.markSurfacePeerOnline peerId
  | .markSurfacePeerOffline peerId => s.markSurfacePeerOffline peerId
  | .replaceOnlineSurfacePeers peerIds => s.replaceOnlineSurfacePeers peerIds
  | .bindSurfacePeerToDevice deviceId peerId => s.bindSurfacePeerToDevice deviceId peerId
  | .registerBrokerSurface surfaceId => s.registerBrokerSurface surfaceId
  | .openSurfaceGeneration surfaceId claimed => (s.openSurfaceGeneration surfaceId claimed).1
  | .dropWatchedSurface surfaceId => (s.dropWatchedSurface surfaceId).1
  | .dropWatchedSurfaceGeneration surfaceId generation =>
    (s.dropWatchedSurfaceGeneration surfaceId generation).1
  | .setWatchedThreadsForGeneration surfaceId deviceId threadIds generation =>
    (s.setWatchedThreadsForGeneration canonicalize cwdOf surfaceId deviceId threadIds
      generation).1
  | .setWatchedThreads input => (s.setWatchedThreads canonicalize cwdOf input).1
  -- The rest reach beyond the surfaces; `deliveryStep` handles them before this.
  | .relay _ | .applyPersisted _ | .revokePairedDevice _ | .revokeAllOtherPairedDevices _ => s

def RelayState.deliveryStep (s : RelayState) (op : Nat × DeliveryOp) : RelayState :=
  match op.2 with
  | .relay relayOp => s.step (op.1, relayOp)
  | .applyPersisted persisted => s.applyPersisted op.1 persisted
  | .revokePairedDevice deviceId => (s.revokePairedDevice op.1 deviceId).1
  | .revokeAllOtherPairedDevices keepDeviceId =>
    (s.revokeAllOtherPairedDevices op.1 keepDeviceId).1
  | surfaceOp =>
    { s with surfaces := s.surfaces.step canonicalize sha256Hex s.cwdOf op.1 surfaceOp }

end

/-- Every target of a thread is a paired device whose own scope, with the relay's roots,
permits the directory of the thread. -/
def RelayState.DeliveryInScope (canonicalize : String → String) (s : RelayState) : Prop :=
  ∀ threadId, ∀ target ∈ s.brokerTargetsForThread canonicalize threadId,
    ∃ device, s.surfaces.pairedDevices[target.1]? = some device ∧
      ensurePathWithinDeviceScope canonicalize ((s.cwdOf threadId).getD "") device.pathScope
        s.surfaces.allowedRoots = .ok ()

/-! Of the operations on threads only a restore touches the surfaces. -/

namespace RelayState

@[simp] theorem nextTranscriptRevision_surfaces (s : RelayState) :
    s.nextTranscriptRevision.1.surfaces = s.surfaces := rfl

@[simp] theorem materializeSelectedRuntimeFromFields_surfaces (s : RelayState) (now : Nat) :
    (s.materializeSelectedRuntimeFromFields now).surfaces = s.surfaces := by
  unfold materializeSelectedRuntimeFromFields
  split
  · rfl
  · split_ifs <;> rfl

@[simp] theorem ensureRuntimeForThread_surfaces (s : RelayState) (now : Nat) (threadId : String) :
    (s.ensureRuntimeForThread now threadId).surfaces = s.surfaces := by
  simp only [ensureRuntimeForThread]
  split_ifs <;> simp

@[simp] theorem syncSelectedRuntimeToFields_surfaces (s : RelayState) :
    s.syncSelectedRuntimeToFields.surfaces = s.surfaces := by
  unfold syncSelectedRuntimeToFields
  split <;> rfl

@[simp] theorem syncIfSelected_surfaces (s : RelayState) (threadId : String) :
    (s.syncIfSelected threadId).surfaces = s.surfaces := by
  unfold syncIfSelected
  split_ifs <;> simp

@[simp] theorem bumpThreadTranscriptRevision_surfaces (s : RelayState) (now : Nat)
    (threadId : String) :
    (s.bumpThreadTranscriptRevision now threadId).1.surfaces = s.surfaces := by
  simp only [bumpThreadTranscriptRevision]
  split_ifs <;> simp [touchThreadLastActivity]

@[simp] theorem bumpTranscriptRevision_surfaces (s : RelayState) (now : Nat) :
    (s.bumpTranscriptRevision now).1.surfaces = s.surfaces := by
  unfold bumpTranscriptRevision
  split <;> simp

@[simp] theorem setThreadStatus_surfaces (s : RelayState) (now : Nat) (threadId status : String)
    (activeFlags : List String) :
    (s.setThreadStatus now threadId status activeFlags).surfaces = s.surfaces := by
  simp only [setThreadStatus]
  split_ifs <;> simp [dropPendingRequestsForThread]

@[simp] theorem upsertThread_surfaces (s : RelayState) (thread : ThreadSummaryView) :
    (s.upsertThread thread).surfaces = s.surfaces := by
  unfold upsertThread
  split_ifs <;> rfl

@[simp] theorem mergeLoadedRuntime_surfaces (s : RelayState) (threadId : String)
    (fresh : ThreadRuntime) : (s.mergeLoadedRuntime threadId fresh).surfaces = s.surfaces := by
  unfold mergeLoadedRuntime
  split <;> rfl

@[simp] theorem loadThreadData_surfaces (s : RelayState) (now : Nat) (data : ThreadSyncData)
    (settings : ThreadSessionSettings) (deviceId : String) :
    (s.loadThreadData now data settings deviceId).surfaces = s.surfaces := by
  simp [loadThreadData, rememberThreadSettings, assignActiveController]

@[simp] theorem hydrateBackgroundRuntimeInner_surfaces (s : RelayState) (now : Nat)
    (data : ThreadSyncData) (settings : ThreadSessionSettings) (rememberSettings : Bool) :
    (s.hydrateBackgroundRuntimeInner now data settings rememberSettings).surfaces =
      s.surfaces := by
  simp only [hydrateBackgroundRuntimeInner]
  split_ifs <;> simp [rememberThreadSettings]

@[simp] theorem promoteBackgroundThread_surfaces (s : RelayState) (now : Nat)
    (pendingId realId : String) :
    (s.promoteBackgroundThread now pendingId realId).surfaces = s.surfaces := by
  unfold promoteBackgroundThread
  split_ifs <;> simp

@[simp] theorem writeLegacyItem_surfaces (s : RelayState) (now : Nat) (itemId : String)
    (onto : Nat → TranscriptRecord → TranscriptRecord) (fresh : Nat → TranscriptRecord) :
    (s.writeLegacyItem now itemId onto fresh).1.surfaces = s.surfaces := by
  simp [writeLegacyItem]

theorem step_surfaces (s : RelayState) (now : Nat) (op : RelayOp) :
    (s.step (now, op)).surfaces = s.surfaces ∨
      ∃ data persisted, op = .restoreThreadData data persisted ∧
        (s.step (now, op)).surfaces = persisted.restoredSurfaces s.surfaces := by
  cases op with
  | restoreThreadData data persisted =>
    exact Or.inr ⟨data, persisted, rfl, by simp [step, restoreThreadData]⟩
  | upsertTranscriptItem =>
    left
    simp only [step, upsertTranscriptItem]
    split <;> simp [upsertTranscriptItemLegacy, upsertTranscriptItemForThread, setTranscriptOf,
      stampTranscriptItemSeq, modifyRuntime]
  | appendAgentDelta =>
    left
    simp only [step, appendAgentDelta]
    split <;> simp [appendAgentDeltaLegacy, appendAgentDeltaForThread, setTranscriptOf,
      modifyRuntime]
  | appendCommandDelta =>
    left
    simp only [step, appendCommandDelta]
    split <;> simp [appendCommandDeltaLegacy, appendCommandDeltaForThread, setTranscriptOf,
      modifyRuntime]
  | setTranscriptItemStatus =>
    left
    simp only [step, setTranscriptItemStatus, setTranscriptItemStatusLegacy,
      setTranscriptItemStatusForThread]
    split <;> split_ifs <;> simp [setTranscriptOf, modifyRuntime]
  | setTranscriptItemStatusForThread =>
    left
    simp only [step, setTranscriptItemStatusForThread]
    split_ifs <;> simp [setTranscriptOf, modifyRuntime]
  | setFileChangeApplyStateForThread =>
    left
    simp only [step, setFileChangeApplyStateForThread]
    split_ifs <;> simp [modifyRuntime]
  | _ =>
    left
    simp [step, upsertTranscriptItemForThread, appendAgentDeltaForThread,
      appendCommandDeltaForThread, setTranscriptOf, stampTranscriptItemSeq, modifyRuntime,
      rememberThreadSettings, clearActiveSession]

end RelayState

end AgentRelay.Relay
