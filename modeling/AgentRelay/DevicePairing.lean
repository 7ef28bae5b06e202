import AgentRelay.RelayTranscript

/-! How a device gets into the relay and out of it: pairing tickets and requests, claim
challenges over a broker peer, and revocation. Tokens drawn at random and the digest of a
secret come from outside. -/
namespace AgentRelay.Relay
open Text

def nonEmpty (value : Option String) : Option String := (value.map trim).filter (· ≠ "")

def defaultPairingTtlSecs : Nat := 180
def maxPairingTtlSecs : Nat := 600
def claimChallengeTtlSecs : Nat := 60

/-- One character of a device id: runs of separators become one dash, none in front. -/
def normalizeIdChar (acc : List Char × Bool) (character : Char) : List Char × Bool :=
  if character.isAlphanum then (acc.1 ++ [character], false)
  else if character ∈ ['-', '_', ' ', '.'] ∧ ¬acc.2 ∧ acc.1 ≠ [] then (acc.1 ++ ['-'], true)
  else acc

def normalizeRemoteDeviceId (value : Option String) : Option String :=
  value.bind fun value =>
    let input := (toAsciiLowercase (trim value)).toList
    let normalized := ((input.foldl normalizeIdChar ([], false)).1).rdropWhile (· = '-')
    if normalized = [] then none else some (String.ofList (normalized.take 48))

def normalizeDeviceLabel (value : Option String) (fallback : String) : String :=
  let label := trim ((nonEmpty value).getD (trim fallback))
  let label := if label = "" then "Remote Device" else label
  String.ofList (label.toList.take 80)

structure PreparedPairingTicket where
  pairingId : String
  pairingSecret : String
  expiresAt : Nat
  pathScope : List String
  deriving DecidableEq, Repr

structure PendingPairingResult where
  pairingId : String
  targetPeerId : String
  pairingSecret : String
  device : Option PairedDevice
  payloadSecret : Option String
  deviceJoinTicketExpiresAt : Option Nat
  error : Option String
  deriving DecidableEq, Repr

namespace SurfaceState

def pruneExpiredPairings (s : SurfaceState) (now : Nat) : SurfaceState :=
  let pendingPairings := s.pendingPairings.filter fun _ pairing => now < pairing.expiresAt
  { s with
    pendingPairings := pendingPairings
    pendingPairingRequests := s.pendingPairingRequests.filter fun pairingId _ =>
      pendingPairings.contains pairingId }

def pruneExpiredClaimChallenges (s : SurfaceState) (now : Nat) : SurfaceState :=
  { s with pendingClaimChallenges :=
      s.pendingClaimChallenges.filter fun _ challenge => now < challenge.expiresAt }

def pruneClaimChallengesForDevice (s : SurfaceState) (deviceId exceptId : String) : SurfaceState :=
  { s with pendingClaimChallenges :=
      s.pendingClaimChallenges.filter fun challengeId challenge =>
        challenge.deviceId ≠ deviceId || challengeId = exceptId }

def syncDeviceRecordFromApprovedDevice (s : SurfaceState) (device : PairedDevice) (now : Nat) :
    SurfaceState :=
  let record := { s.deviceRecords[device.deviceId]?.getD device.toRecord with
    label := device.label
    lifecycleState := .approved
    lastSeenAt := device.lastSeenAt
    lastPeerId := device.lastPeerId
    deviceVerifyKey := device.deviceVerifyKey
    brokerJoinTicketExpiresAt := device.brokerJoinTicketExpiresAt
    pathScope := device.pathScope
    stateChangedAt := now }
  { s with deviceRecords := s.deviceRecords.insert device.deviceId record }

def recordRejectedDevice (s : SurfaceState) (request : PendingPairingRequest) (now : Nat) :
    SurfaceState :=
  let fresh : DeviceRecord :=
    { deviceId := request.deviceId, label := request.label, lifecycleState := .rejected
      createdAt := request.requestedAt, stateChangedAt := now, lastSeenAt := none
      lastPeerId := some request.brokerPeerId, deviceVerifyKey := request.deviceVerifyKey
      brokerJoinTicketExpiresAt := none, pathScope := [] }
  let record := { s.deviceRecords[request.deviceId]?.getD fresh with
    label := request.label
    lifecycleState := .rejected
    stateChangedAt := now
    lastPeerId := some request.brokerPeerId
    deviceVerifyKey := request.deviceVerifyKey
    brokerJoinTicketExpiresAt := none }
  { s with deviceRecords := s.deviceRecords.insert request.deviceId record }

def recordRevokedDevice (s : SurfaceState) (device : PairedDevice) (now : Nat) : SurfaceState :=
  let record := { s.deviceRecords[device.deviceId]?.getD device.toRecord with
    label := device.label
    lifecycleState := .revoked
    stateChangedAt := now
    lastSeenAt := device.lastSeenAt
    lastPeerId := device.lastPeerId
    deviceVerifyKey := device.deviceVerifyKey
    brokerJoinTicketExpiresAt := device.brokerJoinTicketExpiresAt }
  { s with deviceRecords := s.deviceRecords.insert device.deviceId record }

section
variable (sha256Hex : String → String)

def preparePairingTicket (s : SurfaceState) (now : Nat) (requestedTtlSecs : Option Nat)
    (pathScope : List String) (idToken pairingSecret : String) :
    SurfaceState × PreparedPairingTicket :=
  let s := s.pruneExpiredPairings now
  let ttlSecs := min (max (requestedTtlSecs.getD defaultPairingTtlSecs) 30) maxPairingTtlSecs
  let pairingId := "pair-" ++ toAsciiLowercase idToken
  let expiresAt := saturatingAdd now ttlSecs
  let pairing : PendingPairing :=
    { pairingId := pairingId, pairingSecret := pairingSecret
      secretHash := sha256Hex pairingSecret, createdAt := now, expiresAt := expiresAt
      pathScope := pathScope }
  ({ s with pendingPairings := s.pendingPairings.insert pairingId pairing },
    ⟨pairingId, pairingSecret, expiresAt, pathScope⟩)

def freshDeviceId (idToken : String) : String := "device-" ++ toAsciiLowercase idToken

/-- Approve a device for a pending ticket and bind the peer it came over to it. -/
def consumePairingTicket (s : SurfaceState) (now : Nat) (pairingId pairingSecret : String)
    (requestedDeviceId deviceLabel : Option String) (deviceVerifyKey : String)
    (brokerJoinTicketExpiresAt : Option Nat) (peerId idToken payloadSecret : String) :
    SurfaceState × Except String (PairedDevice × String) :=
  let s := s.pruneExpiredPairings now
  match s.pendingPairings[pairingId]? with
  | none => (s, .error "pairing request is missing or expired")
  | some pending =>
    if pending.secretHash ≠ sha256Hex pairingSecret then (s, .error "pairing secret is invalid")
    else
      let deviceId := (normalizeRemoteDeviceId requestedDeviceId).getD (freshDeviceId idToken)
      let label := normalizeDeviceLabel deviceLabel (requestedDeviceId.getD peerId)
      let device : PairedDevice :=
        { deviceId := (s.pairedDevices[deviceId]?.map (·.deviceId)).getD deviceId
          label := label
          payloadSecret := payloadSecret
          deviceVerifyKey := deviceVerifyKey
          createdAt := (s.pairedDevices[deviceId]?.map (·.createdAt)).getD now
          lastSeenAt := some now
          lastPeerId := some peerId
          brokerJoinTicketExpiresAt := brokerJoinTicketExpiresAt
          pathScope := pending.pathScope }
      let s := { s with
        pendingPairings := s.pendingPairings.erase pairingId
        pairedDevices := s.pairedDevices.insert deviceId device }
      ((s.bindSurfacePeerToDevice device.deviceId peerId).syncDeviceRecordFromApprovedDevice
        device now, .ok (device, payloadSecret))

def registerPairingRequest (s : SurfaceState) (now : Nat) (pairingId : String)
    (requestedDeviceId deviceLabel : Option String) (peerId deviceVerifyKey idToken : String) :
    SurfaceState × Except String PendingPairingRequest :=
  let s := s.pruneExpiredPairings now
  match s.pendingPairings[pairingId]? with
  | none => (s, .error "pairing request is missing or expired")
  | some ticket =>
    let label := normalizeDeviceLabel deviceLabel (requestedDeviceId.getD peerId)
    match s.pendingPairingRequests[pairingId]? with
    | some existing =>
      if existing.deviceVerifyKey ≠ deviceVerifyKey then
        (s, .error ("another device is already waiting for approval on this pairing ticket; " ++
          "generate a fresh pairing ticket for this device"))
      else
        let request := { existing with
          deviceId := (normalizeRemoteDeviceId requestedDeviceId).getD existing.deviceId
          label := label
          brokerPeerId := peerId
          pathScope := ticket.pathScope }
        ({ s with pendingPairingRequests := s.pendingPairingRequests.insert pairingId request },
          .ok request)
    | none =>
      let request : PendingPairingRequest :=
        { pairingId := pairingId
          deviceId := (normalizeRemoteDeviceId requestedDeviceId).getD (freshDeviceId idToken)
          label := label, requestedAt := now, expiresAt := ticket.expiresAt
          brokerPeerId := peerId, deviceVerifyKey := deviceVerifyKey
          pathScope := ticket.pathScope }
      ({ s with pendingPairingRequests := s.pendingPairingRequests.insert pairingId request },
        .ok request)

/-- Take a request out before a credential is issued for it. -/
def claimPairingRequest (s : SurfaceState) (now : Nat) (pairingId : String) :
    SurfaceState × Except String PendingPairingRequest :=
  let s := s.pruneExpiredPairings now
  match s.pendingPairingRequests[pairingId]? with
  | none => (s, .error "pairing request is not waiting for approval")
  | some request =>
    ({ s with pendingPairingRequests := s.pendingPairingRequests.erase pairingId }, .ok request)

def restorePairingRequest (s : SurfaceState) (request : PendingPairingRequest) : SurfaceState :=
  { s with
    pendingPairingRequests := s.pendingPairingRequests.insert request.pairingId request }

def decidePairingRequest (s : SurfaceState) (now : Nat) (pairingId : String) (approved : Bool)
    (deviceJoinTicketExpiresAt : Option Nat) (idToken payloadSecret : String) :
    SurfaceState × Except String PendingPairingResult :=
  let s := s.pruneExpiredPairings now
  match s.pendingPairingRequests[pairingId]? with
  | none => (s, .error "pairing request is not waiting for approval")
  | some request =>
    let s := { s with pendingPairingRequests := s.pendingPairingRequests.erase pairingId }
    match s.pendingPairings[pairingId]? with
    | none => (s, .error "pairing request is missing or expired")
    | some pending =>
      if approved then
        match s.consumePairingTicket sha256Hex now pairingId pending.pairingSecret
            (some request.deviceId) (some request.label) request.deviceVerifyKey
            deviceJoinTicketExpiresAt request.brokerPeerId idToken payloadSecret with
        | (s, .error error) => (s, .error error)
        | (s, .ok (device, token)) =>
          (s, .ok ⟨pairingId, request.brokerPeerId, pending.pairingSecret, some device,
            some token, deviceJoinTicketExpiresAt, none⟩)
      else
        let s := { s with pendingPairings := s.pendingPairings.erase pairingId }
        (s.recordRejectedDevice request now,
          .ok ⟨pairingId, request.brokerPeerId, pending.pairingSecret, none, none, none,
            some "pairing request was rejected on the local relay"⟩)

end

def issueClaimChallenge (s : SurfaceState) (now : Nat) (deviceId peerId idToken challenge : String) :
    SurfaceState × Except String ClaimChallenge :=
  let s := (s.pruneExpiredClaimChallenges now).pruneClaimChallengesForDevice deviceId ""
  if s.pairedDevices.contains deviceId then
    let issued : ClaimChallenge :=
      { challengeId := "claim-" ++ toAsciiLowercase idToken, deviceId := deviceId
        peerId := peerId, challenge := challenge
        expiresAt := saturatingAdd now claimChallengeTtlSecs }
    ({ s with
        pendingClaimChallenges := s.pendingClaimChallenges.insert issued.challengeId issued },
      .ok issued)
  else (s, .error "device is not paired")

def claimChallenge (s : SurfaceState) (now : Nat) (deviceId challengeId peerId : String) :
    SurfaceState × Except String ClaimChallenge :=
  let s := s.pruneExpiredClaimChallenges now
  match s.pendingClaimChallenges[challengeId]? with
  | none => (s, .error "claim challenge is missing or expired")
  | some challenge =>
    if challenge.deviceId ≠ deviceId then
      (s, .error "claim challenge does not belong to this device")
    else if challenge.peerId ≠ peerId then
      (s, .error "claim challenge does not belong to this broker peer")
    else if s.pairedDevices.contains deviceId then (s, .ok challenge)
    else (s, .error "device is not paired")

def noteDeviceSeen (s : SurfaceState) (now : Nat) (deviceId peerId : String)
    (device : PairedDevice) : SurfaceState :=
  let device := { device with lastSeenAt := some now, lastPeerId := some peerId }
  let s := { s with pairedDevices := s.pairedDevices.insert deviceId device }
  (s.bindSurfacePeerToDevice deviceId peerId).syncDeviceRecordFromApprovedDevice device now

def completeRemoteClaim (s : SurfaceState) (now : Nat) (deviceId challengeId peerId : String) :
    SurfaceState × Except String Unit :=
  match s.claimChallenge now deviceId challengeId peerId with
  | (s, .error error) => (s, .error error)
  | (s, .ok challenge) =>
    let s := { s with pendingClaimChallenges := s.pendingClaimChallenges.erase challengeId }
    match s.pairedDevices[deviceId]? with
    | none => (s, .error "device is not paired")
    | some device =>
      ((s.noteDeviceSeen now deviceId peerId device).pruneClaimChallengesForDevice deviceId
        challenge.challengeId, .ok ())

def markPairedDeviceSeen (s : SurfaceState) (now : Nat) (deviceId peerId : String) :
    SurfaceState × Except String Unit :=
  match s.pairedDevices[deviceId]? with
  | none => (s, .error "device is not paired")
  | some device => (s.noteDeviceSeen now deviceId peerId device, .ok ())

def pairedDevicePeerId (s : SurfaceState) (deviceId : String) : Option String :=
  s.pairedDevices[deviceId]?.bind (·.lastPeerId)

end SurfaceState

namespace RelayState

def clearOrchestratorPinIfDevice (s : RelayState) (deviceId : String) : RelayState :=
  if s.threadMeta.orchestratorDeviceId = some deviceId then
    { s with threadMeta :=
        { s.threadMeta with orchestratorThreadId := none, orchestratorDeviceId := none } }
  else s

def revokePairedDevice (s : RelayState) (now : Nat) (deviceId : String) : RelayState × Bool :=
  match s.surfaces.pairedDevices[deviceId]? with
  | none => (s, false)
  | some device =>
    let surfaces := { s.surfaces with pairedDevices := s.surfaces.pairedDevices.erase deviceId }
    let s := { s with
      surfaces :=
        (surfaces.clearWatchedThreadsForDevice deviceId).recordRevokedDevice device now
      activeControllerDeviceId :=
        if s.activeControllerDeviceId = some deviceId then none else s.activeControllerDeviceId
      activeControllerLastSeenAt :=
        if s.activeControllerDeviceId = some deviceId then none
        else s.activeControllerLastSeenAt }
    (s.clearOrchestratorPinIfDevice deviceId, true)

def revokeAllOtherPairedDevices (s : RelayState) (now : Nat) (keepDeviceId : String) :
    RelayState × Except String (List String) :=
  if s.surfaces.pairedDevices.contains keepDeviceId then
    let revoked := s.surfaces.pairedDevices.keys.filter (· ≠ keepDeviceId)
    (revoked.foldl (fun s deviceId => (s.revokePairedDevice now deviceId).1) s, .ok revoked)
  else (s, .error "device is not paired")

end RelayState

end AgentRelay.Relay
