import AgentRelay.ControlStore
import AgentRelay.StepRun

/-! The broker's public control plane: its records in memory, what its backend holds, and
the operations, each a critical section that authenticates and one that edits and saves. How
a read or a write of the backend goes is up to the backend. -/
namespace AgentRelay.Control
open Text RecordTables
open AgentRelay.Relay (saturatingAdd)

/-- An action of the plane that may refuse or fail, with the state it leaves either way. -/
abbrev Outcome (σ α : Type) := σ × Except String α

namespace Outcome
variable {σ α β : Type}

def andThen (r : Outcome σ α) (f : σ → α → Outcome σ β) : Outcome σ β :=
  match r with
  | (s, .error e) => (s, .error e)
  | (s, .ok a) => f s a

@[simp] theorem andThen_ok (s : σ) (a : α) (f : σ → α → Outcome σ β) :
    andThen (s, .ok a) f = f s a := rfl

@[simp] theorem andThen_error (s : σ) (e : String) (f : σ → α → Outcome σ β) :
    andThen (s, .error e) f = (s, .error e) := rfl

theorem andThen_eq_ok {r : Outcome σ α} {f : σ → α → Outcome σ β} {s : σ} {b : β}
    (h : andThen r f = (s, .ok b)) : ∃ s' a, r = (s', .ok a) ∧ f s' a = (s, .ok b) := by
  obtain ⟨s', e | a⟩ := r
  · exact absurd (congrArg Prod.snd h) (by simp [andThen])
  · exact ⟨s', a, rfl, h⟩

end Outcome

open Outcome

inductive Backend
  | inMemory
  | json
  | postgres (reloadBeforeUse : Bool)
  deriving DecidableEq, Repr

/-- How a write goes: the error reported for it, whether it took hold all the same, and
whether the reload that is to find out gets through. -/
structure WriteOutcome where
  error : Option String := none
  landed : Bool := false
  reloads : Bool := true
  deriving DecidableEq, Repr

structure Env where
  authNow : Nat
  pruneNow : Nat
  checkNow : Nat
  now : Nat
  authLoadError : Option String := none
  missLoadError : Option String := none
  loadError : Option String := none
  authWrite : WriteOutcome := {}
  write : WriteOutcome := {}
  deriving DecidableEq, Repr

structure PendingClientClaim where
  relayId : String
  brokerRoomId : String
  deviceId : String
  clientVerifyKey : String
  clientLabel : Option String
  deviceLabel : Option String
  relayLabel : Option String
  nonce : String
  expiresAt : Nat
  deriving DecidableEq, Repr

def defaultClientClaimTtlSecs : Nat := 300

def maxPendingClientClaims : Nat := 512

structure PublicControlPlane where
  persistence : Backend
  rotationGraceSecs : Nat
  state : PublicControlStateStore := {}
  /-- What a load reads: the file, or the database. -/
  persisted : PublicControlStateStore := {}
  /-- The snapshot the next save is compared with. -/
  lastSaved : PublicControlStateStore := {}
  needsReload : Bool := false
  pendingClientClaims : Table PendingClientClaim := ∅

structure ClientGrantRequest where
  relayId : String
  brokerRoomId : String
  deviceId : String
  clientVerifyKey : String
  clientLabel : Option String
  deviceLabel : Option String
  deriving DecidableEq, Repr

structure ClientGrantResponse where
  claimId : String
  claimNonce : String
  claimExpiresAt : Nat
  relayId : String
  brokerRoomId : String
  deviceId : String
  relayLabel : Option String
  deriving DecidableEq, Repr

structure ClientClaimResponse where
  clientId : String
  clientRefreshToken : String
  relayId : String
  brokerRoomId : String
  deviceId : String
  relayLabel : Option String
  deriving DecidableEq, Repr

inductive SaveReconciliation
  | committed
  | rolledBack
  | indeterminate
  deriving DecidableEq, Repr

def classifySaveReconciliation (reconciled prev next : PublicControlStateStore) :
    SaveReconciliation :=
  if reconciled = next then .committed
  else if reconciled = prev then .rolledBack
  else .indeterminate

namespace PublicControlStateStore

/-- The unique columns of the database's tables, each without a repetition. -/
def MeetsConstraints (s : PublicControlStateStore) : Prop :=
  (s.relayRegistrationsByHash.values.map (·.relayId)).Nodup ∧
  (s.relayRegistrationsByHash.values.map (·.brokerRoomId)).Nodup ∧
  (s.relayRegistrationsByHash.values.filterMap (·.relayVerifyKey)).Nodup ∧
  (s.clientRegistrationsByHash.values.map (·.clientId)).Nodup ∧
  (s.clientRegistrationsByHash.values.map (·.clientVerifyKey)).Nodup ∧
  (s.grantsByHash.values.map fun g => (g.relayId, g.brokerRoomId, g.deviceId)).Nodup ∧
  (s.clientRelayGrantsByKey.values.map fun g => (g.clientId, g.relayId)).Nodup

instance (s : PublicControlStateStore) : Decidable s.MeetsConstraints := by
  unfold MeetsConstraints
  infer_instance

def applySave (prev next rows : PublicControlStateStore) : PublicControlStateStore :=
  { relayRegistrationsByHash := applyDiff prev.relayRegistrationsByHash
      next.relayRegistrationsByHash rows.relayRegistrationsByHash
    clientRegistrationsByHash := applyDiff prev.clientRegistrationsByHash
      next.clientRegistrationsByHash rows.clientRegistrationsByHash
    grantsByHash := applyDiff prev.grantsByHash next.grantsByHash rows.grantsByHash
    clientRelayGrantsByKey := applyDiff prev.clientRelayGrantsByKey
      next.clientRelayGrantsByKey rows.clientRelayGrantsByKey }

end PublicControlStateStore

def uniqueViolation : String := "duplicate key value violates unique constraint"

/-- What an edit of the records may make of them: it is refused, or it gives the new records,
whether they are to be saved, and its answer. -/
abbrev StoreEdit (α : Type) :=
  PublicControlStateStore → Except String (PublicControlStateStore × Bool × α)

namespace PublicControlPlane

def isPostgres (p : PublicControlPlane) : Bool :=
  match p.persistence with
  | .postgres _ => true
  | _ => false

def reloadBeforeUse (p : PublicControlPlane) : Bool :=
  match p.persistence with
  | .postgres reloadBeforeUse => reloadBeforeUse || p.needsReload
  | _ => false

/-- Take over what the backend holds, in memory and as the snapshot. -/
def loadState (p : PublicControlPlane) (error : Option String) : Outcome PublicControlPlane Unit :=
  match error with
  | some e => (p, .error e)
  | none =>
    ({ p with state := p.persisted, lastSaved := p.persisted, needsReload := false }, .ok ())

def lockState (p : PublicControlPlane) (error : Option String) : Outcome PublicControlPlane Unit :=
  if p.reloadBeforeUse then p.loadState error else (p, .ok ())

def savePublicControlJson (p : PublicControlPlane) (write : WriteOutcome) :
    Outcome PublicControlPlane Unit :=
  match write.error with
  | some e => (p, .error e)
  | none =>
    match PublicControlStateStore.fromPersisted p.state.toPersisted with
    | .ok written => ({ p with persisted := written }, .ok ())
    | .error e => (p, .error e)

/-- Write the difference to the last snapshot; after an error, let what the database really
holds decide how the save went. -/
def savePublicControlPostgres (p : PublicControlPlane) (write : WriteOutcome) :
    Outcome PublicControlPlane Unit :=
  let written := PublicControlStateStore.applySave p.lastSaved p.state p.persisted
  let error := if written.MeetsConstraints then write.error
    else some (write.error.getD uniqueViolation)
  match error with
  | none => ({ p with persisted := written, lastSaved := p.state }, .ok ())
  | some e =>
    let p := if write.landed ∧ written.MeetsConstraints then { p with persisted := written } else p
    if write.reloads then
      match classifySaveReconciliation p.persisted p.lastSaved p.state with
      | .committed => ({ p with lastSaved := p.persisted }, .ok ())
      | .rolledBack => ({ p with state := p.persisted }, .error e)
      | .indeterminate => ({ p with state := p.persisted, lastSaved := p.persisted }, .error e)
    else ({ p with needsReload := true }, .error e)

def save (p : PublicControlPlane) (write : WriteOutcome) : Outcome PublicControlPlane Unit :=
  match p.persistence with
  | .inMemory => (p, .ok ())
  | .json => p.savePublicControlJson write
  | .postgres _ => p.savePublicControlPostgres write

/-- Look a token up; a miss against a shared backend is looked up once more after a load. -/
def lookup {α : Type} (p : PublicControlPlane) (missLoadError : Option String)
    (look : PublicControlStateStore → Option α) : Outcome PublicControlPlane (Option α) :=
  match look p.state with
  | some a => (p, .ok (some a))
  | none =>
    if p.isPostgres then
      (p.loadState missLoadError).andThen fun p _ => (p, .ok (look p.state))
    else (p, .ok none)

/-- Edit the records under one lock, and save them when the edit says so. -/
def transact {α : Type} (p : PublicControlPlane) (env : Env) (edit : StoreEdit α) :
    Outcome PublicControlPlane α :=
  (p.lockState env.loadError).andThen fun p _ =>
    match edit p.state with
    | .error e => (p, .error e)
    | .ok (next, changed, a) =>
      let p := { p with state := next }
      if changed then (p.save env.write).andThen fun p _ => (p, .ok a) else (p, .ok a)

def renewClientGrace (p : PublicControlPlane) (env : Env) (primaryHash tokenHash : String) :
    PublicControlPlane :=
  match p.state.clientRegistrationsByHash[primaryHash]? with
  | none => p
  | some live =>
    let (superseded, bumped) :=
      bumpSupersededExpiry tokenHash env.authNow p.rotationGraceSecs live.superseded
    let p := { p with
      state.clientRegistrationsByHash := p.state.clientRegistrationsByHash.insert primaryHash
        { live with superseded := superseded } }
    if bumped then (p.save env.authWrite).1 else p

def renewDeviceGrace (p : PublicControlPlane) (env : Env) (primaryHash tokenHash : String) :
    PublicControlPlane :=
  match p.state.grantsByHash[primaryHash]? with
  | none => p
  | some live =>
    let (superseded, bumped) :=
      bumpSupersededExpiry tokenHash env.authNow p.rotationGraceSecs live.superseded
    let p := { p with
      state.grantsByHash := p.state.grantsByHash.insert primaryHash
        { live with superseded := superseded } }
    if bumped then (p.save env.authWrite).1 else p

/-- The checks of a device's join ticket; the ticket itself is not kept. -/
def mintDeviceWsToken (brokerRoomId deviceId : String) : Except String Unit :=
  if trim brokerRoomId = "" then .error "join_ticket channel_id is required"
  else if trim deviceId = "" then .error "device surface join_ticket device_id is required"
  else .ok ()

def trimmedOptionString (value : Option String) : Option String :=
  (value.map trim).filter (· ≠ "")

def clientClaimMessage (claimId nonce relayId : String) : String :=
  "agent-relay:client-claim:" ++ claimId ++ ":" ++ nonce ++ ":" ++ relayId

section
variable (sha256Hex : String → String)

def authenticateRelay (p : PublicControlPlane) (env : Env)
    (bearerToken relayId brokerRoomId : String) :
    Outcome PublicControlPlane PersistedRelayRegistration :=
  (p.lockState env.authLoadError).andThen fun p _ =>
  let tokenHash := sha256Hex (trim bearerToken)
  (p.lookup env.missLoadError (·.relayRegistrationsByHash[tokenHash]?)).andThen fun p found =>
  match found with
  | none => (p, .error "relay refresh token is invalid")
  | some registration =>
    if registration.relayId ≠ relayId then
      (p, .error "relay refresh token does not match relay_id")
    else if registration.brokerRoomId ≠ brokerRoomId then
      (p, .error "relay refresh token does not match broker_room_id")
    else (p, .ok registration)

def authenticateClient (p : PublicControlPlane) (env : Env) (bearerToken : String) :
    Outcome PublicControlPlane PersistedClientIdentity :=
  (p.lockState env.authLoadError).andThen fun p _ =>
  let tokenHash := sha256Hex (trim bearerToken)
  (p.lookup env.missLoadError (findClientIdentityForToken · tokenHash env.authNow)).andThen
    fun p found =>
  match found with
  | none => (p, .error "client refresh token is invalid")
  | some (primaryHash, identity) =>
    (if primaryHash ≠ tokenHash then p.renewClientGrace env primaryHash tokenHash else p,
      .ok identity)

def deviceGrantFromRefreshTokenScoped (p : PublicControlPlane) (env : Env)
    (bearerToken : String) (expectedRoom : Option String) :
    Outcome PublicControlPlane (String × PersistedDeviceGrant) :=
  (p.lockState env.authLoadError).andThen fun p _ =>
  let tokenHash := sha256Hex (trim bearerToken)
  (p.lookup env.missLoadError (findDeviceGrantForToken · tokenHash env.authNow)).andThen
    fun p found =>
  match found with
  | none => (p, .error "device refresh token is invalid")
  | some (primaryHash, grant) =>
    if expectedRoom.any (grant.brokerRoomId ≠ ·) then (p, .error "device refresh token is invalid")
    else
      (if primaryHash ≠ tokenHash then p.renewDeviceGrace env primaryHash tokenHash else p,
        .ok (primaryHash, grant))

def issueRelayRegistrationForVerifyKey (p : PublicControlPlane) (env : Env)
    (relayVerifyKey : String) (relayLabel : Option String) (draws : List (String × String))
    (drawn : String) : Outcome PublicControlPlane PersistedRelayRegistration :=
  p.transact env fun s =>
    match s.registerRelay sha256Hex relayVerifyKey relayLabel env.now draws drawn with
    | some (next, registration) => .ok (next, true, registration)
    | none => .error "no unused relay id drawn yet"

def deviceLimitError (limit : Nat) : String :=
  "device limit reached: this license allows " ++ toString limit ++
    " device(s); remove a device to add a new one"

/-- Whether a license has no seat left for this device; a device it has takes no new one. -/
def overDeviceLimit (s : PublicControlStateStore) (relayId deviceId : String)
    (deviceLimit : Option Nat) : Option Nat :=
  if s.hasDeviceGrant relayId deviceId then none
  else deviceLimit.filter (· ≤ s.countDeviceGrantsForRelay relayId)

def issueDeviceGrant (p : PublicControlPlane) (env : Env)
    (bearerToken relayId brokerRoomId deviceId : String) (deviceLimit : Option Nat)
    (drawn : String) : Outcome PublicControlPlane String :=
  (p.authenticateRelay sha256Hex env bearerToken relayId brokerRoomId).andThen
    fun p registration =>
  (p.transact env fun s =>
    match overDeviceLimit s registration.relayId deviceId deviceLimit with
    | some limit => .error (deviceLimitError limit)
    | none => .ok (s.issueDeviceGrant sha256Hex registration deviceId env.now
        p.rotationGraceSecs drawn, true, ())).andThen fun p _ =>
  match mintDeviceWsToken registration.brokerRoomId deviceId with
  | .error e => (p, .error e)
  | .ok () => (p, .ok ("dref-" ++ toAsciiLowercase drawn))

def issueClientGrant (validVerifyKey : String → Bool) (p : PublicControlPlane) (env : Env)
    (bearerToken : String) (request : ClientGrantRequest) (claimDrawn nonceDrawn : String) :
    Outcome PublicControlPlane ClientGrantResponse :=
  (p.authenticateRelay sha256Hex env bearerToken request.relayId request.brokerRoomId).andThen
    fun p registration =>
  match trimmedOptionString (some request.clientVerifyKey) with
  | none => (p, .error "client verify key is required")
  | some clientVerifyKey =>
    if !validVerifyKey clientVerifyKey then (p, .error "relay verify key is invalid")
    else
      let claimId := "ccl-" ++ toAsciiLowercase claimDrawn
      let nonce := "cn-" ++ toAsciiLowercase nonceDrawn
      let expiresAt := saturatingAdd env.now defaultClientClaimTtlSecs
      let p := { p with
        pendingClientClaims := p.pendingClientClaims.filter fun _ c => env.pruneNow < c.expiresAt }
      if maxPendingClientClaims ≤ p.pendingClientClaims.size then
        (p, .error "too many pending client claims; retry shortly")
      else
        ({ p with
            pendingClientClaims := p.pendingClientClaims.insert claimId
              { relayId := registration.relayId, brokerRoomId := registration.brokerRoomId
                deviceId := request.deviceId, clientVerifyKey := clientVerifyKey
                clientLabel := trimmedOptionString request.clientLabel
                deviceLabel := trimmedOptionString request.deviceLabel
                relayLabel := registration.relayLabel, nonce := nonce, expiresAt := expiresAt } },
          .ok
            { claimId := claimId, claimNonce := nonce, claimExpiresAt := expiresAt
              relayId := registration.relayId, brokerRoomId := registration.brokerRoomId
              deviceId := request.deviceId, relayLabel := registration.relayLabel })

/-- Take a pending claim out; whatever comes of it, it is not there for another call. -/
def takeClientClaim (p : PublicControlPlane) (env : Env) (claimId : String) :
    Outcome PublicControlPlane PendingClientClaim :=
  let claims := p.pendingClientClaims.filter fun _ c => env.pruneNow < c.expiresAt
  match claims[claimId]? with
  | none => ({ p with pendingClientClaims := claims }, .error "client claim is invalid")
  | some pending => ({ p with pendingClientClaims := claims.erase claimId }, .ok pending)

def grantClaim (s : PublicControlStateStore) (env : Env) (graceSecs : Nat)
    (pending : PendingClientClaim) (drawn : String) :
    PublicControlStateStore × (String × String) :=
  let (s, clientId, token) := s.issueOrRotateClientIdentity sha256Hex pending.clientVerifyKey
    pending.clientLabel env.now graceSecs drawn
  (s.upsertClientRelayGrant
    { clientId := clientId, relayId := pending.relayId, brokerRoomId := pending.brokerRoomId
      deviceId := pending.deviceId, grantedAt := env.now, relayLabel := pending.relayLabel
      deviceLabel := pending.deviceLabel }, (clientId, token))

def claimClientIdentity (verifies : String → String → String → Bool) (p : PublicControlPlane)
    (env : Env) (claimId claimSignature drawn : String) :
    Outcome PublicControlPlane ClientClaimResponse :=
  match trimmedOptionString (some claimId) with
  | none => (p, .error "client claim id is required")
  | some claimId =>
    match trimmedOptionString (some claimSignature) with
    | none => (p, .error "client claim signature is required")
    | some claimSignature =>
      (p.takeClientClaim env claimId).andThen fun p pending =>
      if pending.expiresAt ≤ env.checkNow then (p, .error "client claim has expired")
      else if !verifies pending.clientVerifyKey
          (clientClaimMessage claimId pending.nonce pending.relayId) claimSignature then
        (p, .error "client claim signature is invalid")
      else
        (p.transact env fun s =>
          let granted := grantClaim sha256Hex s env p.rotationGraceSecs pending drawn
          .ok (granted.1, true, granted.2)).andThen fun p identity =>
        (p, .ok
          { clientId := identity.1, clientRefreshToken := identity.2, relayId := pending.relayId
            brokerRoomId := pending.brokerRoomId, deviceId := pending.deviceId
            relayLabel := pending.relayLabel })

def storeRotation (p : PublicControlPlane) (env : Env) (client : PersistedClientIdentity)
    (drawn : String) : Outcome PublicControlPlane (String × String) :=
  p.transact env fun s =>
    let (next, token) := s.rotateClientIdentity sha256Hex client env.now p.rotationGraceSecs drawn
    .ok (next, true, (client.clientId, token))

def rotateClientIdentity (p : PublicControlPlane) (env : Env) (bearerToken drawn : String) :
    Outcome PublicControlPlane (String × String) :=
  (p.authenticateClient sha256Hex env bearerToken).andThen fun p client =>
    p.storeRotation sha256Hex env client drawn

/-- The second half of a revocation; the counts are of identities and of relay grants. -/
def removeClient (p : PublicControlPlane) (env : Env) (client : PersistedClientIdentity) :
    Outcome PublicControlPlane (String × Nat × Nat) :=
  p.transact env fun s =>
    let (s, revokedIdentityCount) := s.removeClientIdentityByClientId client.clientId
    let (s, revokedGrantCount) := s.removeClientRelayGrantsByClientId client.clientId
    .ok (s, 0 < revokedIdentityCount || 0 < revokedGrantCount,
      (client.clientId, revokedIdentityCount, revokedGrantCount))

def revokeClientIdentity (p : PublicControlPlane) (env : Env) (bearerToken : String) :
    Outcome PublicControlPlane (String × Nat × Nat) :=
  (p.authenticateClient sha256Hex env bearerToken).andThen fun p client => p.removeClient env client

def issueDeviceSessionInner (p : PublicControlPlane) (env : Env) (bearerToken : String)
    (expectedRoom : Option String) : Outcome PublicControlPlane PersistedDeviceGrant :=
  (p.deviceGrantFromRefreshTokenScoped sha256Hex env bearerToken expectedRoom).andThen
    fun p found => (p, .ok found.2)

/-- Mark a grant as just seen, in memory and by a write of its own row. -/
def touchDeviceLastSeen (p : PublicControlPlane) (env : Env) (primaryHash : String) :
    PublicControlPlane :=
  let touch := fun grants : Table PersistedDeviceGrant =>
    grants.modify primaryHash fun grant => { grant with lastSeen := some env.authNow }
  let p := { p with state.grantsByHash := touch p.state.grantsByHash }
  if p.isPostgres ∧ env.write.error = none then
    { p with persisted.grantsByHash := touch p.persisted.grantsByHash }
  else p

def issueDeviceWsTokenInner (p : PublicControlPlane) (env : Env) (bearerToken : String)
    (expectedRoom : Option String) : Outcome PublicControlPlane Unit :=
  (p.deviceGrantFromRefreshTokenScoped sha256Hex env bearerToken expectedRoom).andThen
    fun p (primaryHash, grant) =>
  let p := if shouldTouchLastSeen grant.lastSeen env.authNow then
      p.touchDeviceLastSeen env primaryHash
    else p
  (p, mintDeviceWsToken grant.brokerRoomId grant.deviceId)

def revokeDeviceGrant (p : PublicControlPlane) (env : Env)
    (bearerToken relayId brokerRoomId deviceId : String) : Outcome PublicControlPlane Nat :=
  (p.authenticateRelay sha256Hex env bearerToken relayId brokerRoomId).andThen
    fun p registration =>
  p.transact env fun s =>
    let (s, revokedGrantCount) := s.removeDeviceGrants registration.relayId
      (some registration.brokerRoomId) (some deviceId)
    let (s, revokedClientGrantCount) := s.removeClientRelayGrants registration.relayId
      (some registration.brokerRoomId) (some deviceId)
    .ok (s, 0 < revokedGrantCount || 0 < revokedClientGrantCount, revokedGrantCount)

def revokeOtherDeviceGrants (p : PublicControlPlane) (env : Env)
    (bearerToken relayId brokerRoomId keepDeviceId : String) :
    Outcome PublicControlPlane (List String) :=
  (p.authenticateRelay sha256Hex env bearerToken relayId brokerRoomId).andThen
    fun p registration =>
  p.transact env fun s =>
    let (s, revokedDeviceIds) := s.removeAllOtherDeviceGrants registration.relayId
      registration.brokerRoomId keepDeviceId
    let (s, _) := s.removeAllOtherClientRelayGrants registration.relayId
      registration.brokerRoomId keepDeviceId
    .ok (s, !revokedDeviceIds.isEmpty, revokedDeviceIds)

/-- A fresh process over the same backend, with nothing seeded yet. -/
def reopened (p : PublicControlPlane) : PublicControlPlane :=
  let loaded := if p.persistence = .inMemory then {} else p.persisted
  { persistence := p.persistence, rotationGraceSecs := p.rotationGraceSecs, state := loaded
    persisted := p.persisted, lastSaved := loaded }

/-- A fresh process over the same backend, with the configured relays seeded. -/
def fromParts (p : PublicControlPlane) (env : Env) (registrations : List RelayRegistrationConfig) :
    Outcome PublicControlPlane Unit :=
  match (if p.persistence = .inMemory then none else env.authLoadError) with
  | some e => (p.reopened, .error e)
  | none =>
    let (next, seeded) := p.reopened.state.seedRelayRegistrations sha256Hex registrations
    let p := { p.reopened with state := next }
    if seeded then p.save env.write else (p, .ok ())

end

end PublicControlPlane

/-- The operations of the control plane; the last one is a restart of the process. -/
inductive ControlOp
  | issueRelayRegistration (relayVerifyKey : String) (relayLabel : Option String)
      (draws : List (String × String)) (drawn : String)
  | authenticateRelayBearer (bearerToken relayId brokerRoomId : String)
  | issueDeviceGrant (bearerToken relayId brokerRoomId deviceId : String)
      (deviceLimit : Option Nat) (drawn : String)
  | issueClientGrant (bearerToken : String) (request : ClientGrantRequest)
      (claimDrawn nonceDrawn : String)
  | claimClientIdentity (claimId claimSignature drawn : String)
  | issueClientSession (bearerToken : String)
  | rotateClientIdentity (bearerToken drawn : String)
  | revokeClientIdentity (bearerToken : String)
  | issueDeviceSession (bearerToken : String) (expectedRoom : Option String)
  | issueDeviceWsToken (bearerToken : String) (expectedRoom : Option String)
  | revokeDeviceGrant (bearerToken relayId brokerRoomId deviceId : String)
  | revokeOtherDeviceGrants (bearerToken relayId brokerRoomId keepDeviceId : String)
  | restart (registrations : List RelayRegistrationConfig)
  deriving DecidableEq, Repr

inductive ControlReply
  | done
  | clientGrant (response : ClientGrantResponse)
  | clientClaim (response : ClientClaimResponse)
  | revokedClient (clientId : String)
  deriving DecidableEq, Repr

structure Crypto where
  sha256Hex : String → String
  verifies : String → String → String → Bool
  validVerifyKey : String → Bool

namespace PublicControlPlane

def reply {α : Type} (r : Outcome PublicControlPlane α) (f : α → ControlReply) :
    Outcome PublicControlPlane ControlReply := (r.1, r.2.map f)

def perform (c : Crypto) (p : PublicControlPlane) (op : Env × ControlOp) :
    Outcome PublicControlPlane ControlReply :=
  let env := op.1
  match op.2 with
  | .issueRelayRegistration key label draws drawn =>
    reply (p.issueRelayRegistrationForVerifyKey c.sha256Hex env key label draws drawn)
      fun _ => .done
  | .authenticateRelayBearer bearer relayId room =>
    reply (p.authenticateRelay c.sha256Hex env bearer relayId room) fun _ => .done
  | .issueDeviceGrant bearer relayId room deviceId limit drawn =>
    reply (p.issueDeviceGrant c.sha256Hex env bearer relayId room deviceId limit drawn)
      fun _ => .done
  | .issueClientGrant bearer request claimDrawn nonceDrawn =>
    reply (p.issueClientGrant c.sha256Hex c.validVerifyKey env bearer request claimDrawn
      nonceDrawn) .clientGrant
  | .claimClientIdentity claimId signature drawn =>
    reply (p.claimClientIdentity c.sha256Hex c.verifies env claimId signature drawn)
      .clientClaim
  | .issueClientSession bearer =>
    reply (p.authenticateClient c.sha256Hex env bearer) fun _ => .done
  | .rotateClientIdentity bearer drawn =>
    reply (p.rotateClientIdentity c.sha256Hex env bearer drawn) fun _ => .done
  | .revokeClientIdentity bearer =>
    reply (p.revokeClientIdentity c.sha256Hex env bearer) fun r => .revokedClient r.1
  | .issueDeviceSession bearer room =>
    reply (p.issueDeviceSessionInner c.sha256Hex env bearer room) fun _ => .done
  | .issueDeviceWsToken bearer room =>
    reply (p.issueDeviceWsTokenInner c.sha256Hex env bearer room) fun _ => .done
  | .revokeDeviceGrant bearer relayId room deviceId =>
    reply (p.revokeDeviceGrant c.sha256Hex env bearer relayId room deviceId) fun _ => .done
  | .revokeOtherDeviceGrants bearer relayId room keep =>
    reply (p.revokeOtherDeviceGrants c.sha256Hex env bearer relayId room keep)
      fun _ => .done
  | .restart registrations =>
    reply (p.fromParts c.sha256Hex env registrations) fun _ => .done

def step (c : Crypto) (p : PublicControlPlane) (op : Env × ControlOp) : PublicControlPlane :=
  (p.perform c op).1

theorem step_claimClientIdentity (p : PublicControlPlane) (c : Crypto) (env : Env)
    (presented claimSignature drawn : String) :
    p.step c (env, .claimClientIdentity presented claimSignature drawn) =
      (p.claimClientIdentity c.sha256Hex c.verifies env presented claimSignature drawn).1 := by
  simp only [step, perform, reply]

end PublicControlPlane

end AgentRelay.Control
