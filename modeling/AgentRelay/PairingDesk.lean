import AgentRelay.DevicePairing
import AgentRelay.StepRun

/-! The pairing desk: tickets, the requests registered on them, the approval flows that
took a request out and wait for the broker, and the results kept for the device that comes
back for them. What the broker issues comes from outside. -/
namespace AgentRelay.Relay
open Text StepRun

structure PushSubscription where
  endpoint : String
  p256dh : String
  auth : String
  deviceId : String
  createdAt : Nat
  deriving DecidableEq, Repr

structure CompletedPairing where
  pairingId : String
  pairingSecret : String
  expiresAt : Nat
  deviceVerifyKey : String
  device : Option PairedDevice
  payloadSecret : Option String
  relayId : Option String := none
  relayLabel : Option String := none
  clientClaimId : Option String := none
  clientClaimNonce : Option String := none
  clientClaimExpiresAt : Option Nat := none
  deviceRefreshToken : Option String := none
  deviceJoinTicket : Option String := none
  deviceJoinTicketExpiresAt : Option Nat
  error : Option String
  pathScope : List String
  deriving DecidableEq, Repr

structure DeliveredPairingResult extends PendingPairingResult where
  relayId : Option String := none
  relayLabel : Option String := none
  clientClaimId : Option String := none
  clientClaimNonce : Option String := none
  clientClaimExpiresAt : Option Nat := none
  deviceRefreshToken : Option String := none
  deviceJoinTicket : Option String := none
  deriving DecidableEq, Repr

structure DeviceBrokerCredential where
  refreshToken : Option String
  joinToken : String
  joinExpiresAt : Option Nat
  deriving DecidableEq, Repr

structure ClientBrokerGrant where
  relayId : String
  relayLabel : Option String
  claimId : String
  claimNonce : String
  claimExpiresAt : Nat
  deriving DecidableEq, Repr

structure ApprovalFlow where
  pairingId : String
  request : PendingPairingRequest
  now : Nat
  deriving DecidableEq, Repr

structure PairingDesk where
  relay : RelayState := {}
  completedPairings : Table CompletedPairing := ∅
  pushSubscriptions : Table (List PushSubscription) := ∅
  flows : List ApprovalFlow := []

namespace PairingDesk

/-- The desk of a relay that just started; pairings under way are not saved. -/
def opened (relay : RelayState) : PairingDesk :=
  { relay := { relay with
      surfaces := { relay.surfaces with pendingPairings := ∅, pendingPairingRequests := ∅ } } }

abbrev surfaces (desk : PairingDesk) : SurfaceState := desk.relay.surfaces

def setSurfaces (desk : PairingDesk) (surfaces : SurfaceState) : PairingDesk :=
  { desk with relay := { desk.relay with surfaces := surfaces } }

/-- The results whose ticket has not expired. -/
def pruneCompletedPairings (desk : PairingDesk) (now : Nat) : PairingDesk :=
  { desk with completedPairings :=
      desk.completedPairings.filter fun _ pairing => now < pairing.expiresAt }

def pruneExpiredPairings (desk : PairingDesk) (now : Nat) : PairingDesk :=
  (desk.setSurfaces (desk.surfaces.pruneExpiredPairings now)).pruneCompletedPairings now

def registerPairingRequest (desk : PairingDesk) (now : Nat) (pairingId : String)
    (requestedDeviceId deviceLabel : Option String) (peerId deviceVerifyKey idToken : String) :
    PairingDesk × Except String PendingPairingRequest :=
  let (surfaces, result) := desk.surfaces.registerPairingRequest now pairingId requestedDeviceId
    deviceLabel peerId deviceVerifyKey idToken
  ((desk.setSurfaces surfaces).pruneCompletedPairings now, result)

/-- An approval takes its request out and goes on to the broker with it. -/
def beginApproval (desk : PairingDesk) (now : Nat) (pairingId : String) :
    PairingDesk × Except String PendingPairingRequest :=
  let (surfaces, result) := desk.surfaces.claimPairingRequest now pairingId
  let desk := (desk.setSurfaces surfaces).pruneCompletedPairings now
  match result with
  | .error error => (desk, .error error)
  | .ok request => ({ desk with flows := desk.flows ++ [⟨pairingId, request, now⟩] }, .ok request)

def restorePairingRequest (desk : PairingDesk) (request : PendingPairingRequest) : PairingDesk :=
  desk.setSurfaces (desk.surfaces.restorePairingRequest request)

def attachPairingBrokerCredential (desk : PairingDesk) (pairingId : String)
    (credential : DeviceBrokerCredential) (now : Nat) : PairingDesk × Except String Unit :=
  match desk.completedPairings[pairingId]? with
  | none => (desk, .error "completed pairing result is missing")
  | some completed =>
    let completed := { completed with
      deviceRefreshToken := credential.refreshToken
      deviceJoinTicket := some credential.joinToken
      deviceJoinTicketExpiresAt := credential.joinExpiresAt }
    let desk := { desk with
      completedPairings := desk.completedPairings.insert pairingId completed }
    match completed.device with
    | none => (desk, .ok ())
    | some view =>
      match desk.surfaces.pairedDevices[view.deviceId]? with
      | none => (desk, .error "device is not paired")
      | some device =>
        let device := { device with brokerJoinTicketExpiresAt := credential.joinExpiresAt }
        let surfaces := { desk.surfaces with
          pairedDevices := desk.surfaces.pairedDevices.insert view.deviceId device }
        (desk.setSurfaces (surfaces.syncDeviceRecordFromApprovedDevice device now), .ok ())

def attachPairingClientGrant (desk : PairingDesk) (pairingId : String)
    (grant : ClientBrokerGrant) : PairingDesk × Except String Unit :=
  match desk.completedPairings[pairingId]? with
  | none => (desk, .error "completed pairing result is missing")
  | some completed =>
    let completed := { completed with
      relayId := some grant.relayId
      relayLabel := grant.relayLabel
      clientClaimId := some grant.claimId
      clientClaimNonce := some grant.claimNonce
      clientClaimExpiresAt := some grant.claimExpiresAt }
    ({ desk with completedPairings := desk.completedPairings.insert pairingId completed }, .ok ())

section
variable (sha256Hex : String → String)

def preparePairingTicket (desk : PairingDesk) (now : Nat) (requestedTtlSecs : Option Nat)
    (pathScope : List String) (idToken pairingSecret : String) :
    PairingDesk × PreparedPairingTicket :=
  let (surfaces, prepared) := desk.surfaces.preparePairingTicket sha256Hex now requestedTtlSecs
    pathScope idToken pairingSecret
  ((desk.setSurfaces surfaces).pruneCompletedPairings now, prepared)

def decidePairingRequest (desk : PairingDesk) (now : Nat) (pairingId : String) (approved : Bool)
    (deviceJoinTicketExpiresAt : Option Nat) (idToken payloadSecret : String) :
    PairingDesk × Except String PendingPairingResult :=
  let pruned := desk.surfaces.pruneExpiredPairings now
  let (surfaces, result) := desk.surfaces.decidePairingRequest sha256Hex now pairingId approved
    deviceJoinTicketExpiresAt idToken payloadSecret
  let desk := (desk.setSurfaces surfaces).pruneCompletedPairings now
  match result, pruned.pendingPairingRequests[pairingId]?, pruned.pendingPairings[pairingId]? with
  | .ok result, some request, some pending =>
    let completed : CompletedPairing :=
      { pairingId := pairingId, pairingSecret := pending.pairingSecret
        expiresAt := pending.expiresAt, deviceVerifyKey := request.deviceVerifyKey
        device := result.device, payloadSecret := result.payloadSecret
        deviceJoinTicketExpiresAt := result.deviceJoinTicketExpiresAt
        error := result.error, pathScope := pending.pathScope }
    ({ desk with completedPairings := desk.completedPairings.insert pairingId completed },
      .ok result)
  | result, _, _ => (desk, result)

/-- The second half of an approval: the claim is handed back under the lock that decides
it, and what the broker issued goes into the kept result. -/
def finishApproval (desk : PairingDesk) (flow : ApprovalFlow) (credential : DeviceBrokerCredential)
    (grant : Option ClientBrokerGrant) (idToken payloadSecret : String) :
    PairingDesk × Except String PendingPairingResult :=
  let desk := desk.restorePairingRequest flow.request
  match desk.decidePairingRequest sha256Hex flow.now flow.pairingId true credential.joinExpiresAt
      idToken payloadSecret with
  | (desk, .error error) => (desk, .error error)
  | (desk, .ok result) =>
    match desk.attachPairingBrokerCredential flow.pairingId credential flow.now with
    | (desk, .error error) => (desk, .error error)
    | (desk, .ok ()) =>
      match grant with
      | none => (desk, .ok result)
      | some grant =>
        match desk.attachPairingClientGrant flow.pairingId grant with
        | (desk, .error error) => (desk, .error error)
        | (desk, .ok ()) => (desk, .ok result)

end

def completedPairingResult (desk : PairingDesk) (now : Nat)
    (pairingId deviceVerifyKey peerId : String) :
    PairingDesk × Except String (Option DeliveredPairingResult) :=
  let desk := desk.pruneExpiredPairings now
  match desk.completedPairings[pairingId]? with
  | none => (desk, .ok none)
  | some completed =>
    if completed.deviceVerifyKey ≠ deviceVerifyKey then
      (desk, .error "pairing request does not match the approved device")
    else
      (desk, .ok (some
        { pairingId := completed.pairingId, targetPeerId := peerId
          pairingSecret := completed.pairingSecret, device := completed.device
          payloadSecret := completed.payloadSecret
          deviceJoinTicketExpiresAt := completed.deviceJoinTicketExpiresAt
          error := completed.error, relayId := completed.relayId
          relayLabel := completed.relayLabel, clientClaimId := completed.clientClaimId
          clientClaimNonce := completed.clientClaimNonce
          clientClaimExpiresAt := completed.clientClaimExpiresAt
          deviceRefreshToken := completed.deviceRefreshToken
          deviceJoinTicket := completed.deviceJoinTicket }))

def revokePairedDevice (desk : PairingDesk) (now : Nat) (deviceId : String) : PairingDesk × Bool :=
  let (relay, revoked) := desk.relay.revokePairedDevice now deviceId
  if revoked then
    ({ desk with relay := relay, pushSubscriptions := desk.pushSubscriptions.erase deviceId }, true)
  else (desk, false)

def revokeAllOtherPairedDevices (desk : PairingDesk) (now : Nat) (keepDeviceId : String) :
    PairingDesk × Except String (List String) :=
  if desk.surfaces.pairedDevices.contains keepDeviceId then
    let revoked := desk.surfaces.pairedDevices.keys.filter (· ≠ keepDeviceId)
    (revoked.foldl (fun desk deviceId => (desk.revokePairedDevice now deviceId).1) desk,
      .ok revoked)
  else (desk, .error "device is not paired")

end PairingDesk

/-- A step of the desk, with the clock it reads and the tokens it draws; an approval flow is
named by its place among those that wait. -/
inductive PairingOp
  | prepare (now : Nat) (requestedTtlSecs : Option Nat) (pathScope : List String)
      (idToken pairingSecret : String)
  | register (now : Nat) (pairingId : String) (requestedDeviceId deviceLabel : Option String)
      (peerId deviceVerifyKey idToken : String)
  | approve (now : Nat) (pairingId : String)
  | issueFailed (flow : Nat)
  | issued (flow : Nat) (credential : DeviceBrokerCredential) (grant : Option ClientBrokerGrant)
      (idToken payloadSecret : String)
  | reject (now : Nat) (pairingId : String)
  | result (now : Nat) (pairingId deviceVerifyKey peerId : String)
  | challenge (now : Nat) (deviceId peerId idToken challenge : String)
  | claim (now : Nat) (deviceId challengeId peerId : String)
  | seen (now : Nat) (deviceId peerId : String)
  | revoke (now : Nat) (deviceId : String)
  | revokeAllOthers (now : Nat) (keepDeviceId : String)
  deriving DecidableEq, Repr

inductive PairingEvent
  | prepared (pairingId : String)
  | registered (pairingId deviceVerifyKey : String)
  | approved (pairingId deviceVerifyKey deviceId : String)
  | delivered (pairingId deviceVerifyKey payloadSecret : String)
  deriving DecidableEq, Repr

namespace PairingDesk

section
variable (sha256Hex : String → String)

def step (desk : PairingDesk) : PairingOp → PairingDesk
  | .prepare now ttl pathScope idToken pairingSecret =>
    (desk.preparePairingTicket sha256Hex now ttl pathScope idToken pairingSecret).1
  | .register now pairingId requestedDeviceId deviceLabel peerId deviceVerifyKey idToken =>
    (desk.registerPairingRequest now pairingId requestedDeviceId deviceLabel peerId
      deviceVerifyKey idToken).1
  | .approve now pairingId => (desk.beginApproval now pairingId).1
  | .issueFailed i =>
    match desk.flows[i]? with
    | none => desk
    | some flow =>
      { desk with flows := desk.flows.eraseIdx i }.restorePairingRequest flow.request
  | .issued i credential grant idToken payloadSecret =>
    match desk.flows[i]? with
    | none => desk
    | some flow =>
      ({ desk with flows := desk.flows.eraseIdx i }.finishApproval sha256Hex flow credential grant
        idToken payloadSecret).1
  | .reject now pairingId => (desk.decidePairingRequest sha256Hex now pairingId false none "" "").1
  | .result now pairingId deviceVerifyKey peerId =>
    (desk.completedPairingResult now pairingId deviceVerifyKey peerId).1
  | .challenge now deviceId peerId idToken challenge =>
    desk.setSurfaces (desk.surfaces.issueClaimChallenge now deviceId peerId idToken challenge).1
  | .claim now deviceId challengeId peerId =>
    desk.setSurfaces (desk.surfaces.completeRemoteClaim now deviceId challengeId peerId).1
  | .seen now deviceId peerId =>
    desk.setSurfaces (desk.surfaces.markPairedDeviceSeen now deviceId peerId).1
  | .revoke now deviceId => (desk.revokePairedDevice now deviceId).1
  | .revokeAllOthers now keepDeviceId => (desk.revokeAllOtherPairedDevices now keepDeviceId).1

/-- The ticket, registration, approval or delivery of a payload secret a step amounts to. -/
def event (desk : PairingDesk) : PairingOp → Option PairingEvent
  | .prepare now ttl pathScope idToken pairingSecret =>
    some (.prepared (desk.preparePairingTicket sha256Hex now ttl pathScope idToken
      pairingSecret).2.pairingId)
  | .register now pairingId requestedDeviceId deviceLabel peerId deviceVerifyKey idToken =>
    match (desk.registerPairingRequest now pairingId requestedDeviceId deviceLabel peerId
        deviceVerifyKey idToken).2 with
    | .ok request => some (.registered request.pairingId request.deviceVerifyKey)
    | .error _ => none
  | .issued i credential _ idToken payloadSecret =>
    desk.flows[i]?.bind fun flow =>
      match (({ desk with flows := desk.flows.eraseIdx i }.restorePairingRequest
          flow.request).decidePairingRequest sha256Hex flow.now flow.pairingId true
          credential.joinExpiresAt idToken payloadSecret).2 with
      | .ok result => result.device.map fun device =>
          .approved result.pairingId device.deviceVerifyKey device.deviceId
      | .error _ => none
  | .result now pairingId deviceVerifyKey peerId =>
    match (desk.completedPairingResult now pairingId deviceVerifyKey peerId).2 with
    | .ok (some result) => result.payloadSecret.map fun secret =>
        .delivered pairingId deviceVerifyKey secret
    | _ => none
  | _ => none

def events : PairingDesk → List PairingOp → List PairingEvent
  | _, [] => []
  | desk, op :: ops => (desk.event sha256Hex op).toList ++ events (desk.step sha256Hex op) ops

end

end PairingDesk

end AgentRelay.Relay
