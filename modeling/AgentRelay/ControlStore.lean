import AgentRelay.RecordTables
import AgentRelay.SurfaceState

/-! The durable records of the broker's public control plane: relay registrations, client
identities and device grants filed under the hash of their refresh token, and the grants a
client holds for relays. -/
namespace AgentRelay.Control
open Text RecordTables
open AgentRelay.Relay (saturatingAdd StringSet.ofList)

structure SupersededToken where
  refreshTokenHash : String
  expiresAt : Nat
  deriving DecidableEq, Repr

structure PersistedRelayRegistration where
  relayId : String
  brokerRoomId : String
  refreshTokenHash : String
  createdAt : Nat
  relayLabel : Option String
  relayVerifyKey : Option String
  deriving DecidableEq, Repr

structure PersistedClientIdentity where
  clientId : String
  clientVerifyKey : String
  refreshTokenHash : String
  createdAt : Nat
  clientLabel : Option String
  superseded : List SupersededToken
  deriving DecidableEq, Repr

structure PersistedDeviceGrant where
  relayId : String
  brokerRoomId : String
  deviceId : String
  refreshTokenHash : String
  createdAt : Nat
  lastSeen : Option Nat
  superseded : List SupersededToken
  deriving DecidableEq, Repr

structure PersistedClientRelayGrant where
  clientId : String
  relayId : String
  brokerRoomId : String
  deviceId : String
  grantedAt : Nat
  relayLabel : Option String
  deviceLabel : Option String
  deriving DecidableEq, Repr

structure RelayRegistrationConfig where
  relayId : String
  brokerRoomId : String
  refreshToken : String
  deriving DecidableEq, Repr

def publicControlStateVersion : Nat := 2

structure PersistedPublicControlState where
  schemaVersion : Nat
  relayRegistrations : List PersistedRelayRegistration := []
  clientRegistrations : List PersistedClientIdentity := []
  deviceGrants : List PersistedDeviceGrant := []
  clientRelayGrants : List PersistedClientRelayGrant := []

structure PublicControlStateStore where
  relayRegistrationsByHash : Table PersistedRelayRegistration := ∅
  clientRegistrationsByHash : Table PersistedClientIdentity := ∅
  grantsByHash : Table PersistedDeviceGrant := ∅
  clientRelayGrantsByKey : Table PersistedClientRelayGrant := ∅
  deriving DecidableEq

/-- The most superseded tokens a credential keeps; the oldest go first. -/
def maxSupersededTokens : Nat := 16

def lastSeenThrottleSecs : Nat := 3600

def clientRelayGrantKey (clientId relayId : String) : String := clientId ++ ":" ++ relayId

def PersistedClientRelayGrant.key (grant : PersistedClientRelayGrant) : String :=
  clientRelayGrantKey grant.clientId grant.relayId

def carrySuperseded (previous : List SupersededToken) (rotatedHash : String)
    (now graceSecs : Nat) : List SupersededToken :=
  let kept := (previous.filter fun token =>
      now < token.expiresAt ∧ token.refreshTokenHash ≠ rotatedHash) ++
    [⟨rotatedHash, saturatingAdd now graceSecs⟩]
  kept.drop (kept.length - maxSupersededTokens)

def bumpSupersededExpiry (tokenHash : String) (now graceSecs : Nat) :
    List SupersededToken → List SupersededToken × Bool
  | [] => ([], false)
  | token :: rest =>
    if token.refreshTokenHash = tokenHash ∧ now < token.expiresAt then
      let renewed := saturatingAdd now graceSecs
      if token.expiresAt < saturatingAdd now (graceSecs / 2) ∧ token.expiresAt < renewed then
        ({ token with expiresAt := renewed } :: rest, true)
      else (token :: rest, false)
    else
      let (rest, bumped) := bumpSupersededExpiry tokenHash now graceSecs rest
      (token :: rest, bumped)

def honours (superseded : List SupersededToken) (tokenHash : String) (now : Nat) : Bool :=
  superseded.any fun token => token.refreshTokenHash = tokenHash ∧ now < token.expiresAt

/-- The record a token hash opens, with the hash it is filed under: the current token of a
record, or a superseded one inside its grace window. -/
def findForToken {V : Type} (superseded : V → List SupersededToken) (entries : Table V)
    (tokenHash : String) (now : Nat) : Option (String × V) :=
  match entries[tokenHash]? with
  | some entry => some (tokenHash, entry)
  | none => entries.toList.find? fun entry => honours (superseded entry.2) tokenHash now

def findClientIdentityForToken (store : PublicControlStateStore) (tokenHash : String)
    (now : Nat) : Option (String × PersistedClientIdentity) :=
  findForToken (·.superseded) store.clientRegistrationsByHash tokenHash now

def findDeviceGrantForToken (store : PublicControlStateStore) (tokenHash : String)
    (now : Nat) : Option (String × PersistedDeviceGrant) :=
  findForToken (·.superseded) store.grantsByHash tokenHash now

def removeMatchingEntries {V : Type} (entries : Table V) (shouldRemove : V → Bool) :
    Table V × Nat :=
  (entries.filter fun _ entry => !shouldRemove entry, (entries.values.filter shouldRemove).length)

def collectRemovedDeviceIds {V : Type} (entries : Table V)
    (removedDeviceId : V → Option String) : Table V × List String :=
  (entries.filter fun _ entry => (removedDeviceId entry).isNone,
    (StringSet.ofList (entries.values.filterMap removedDeviceId)).keys)

def matchesOptionalRelayTarget (actualRelayId actualBrokerRoomId actualDeviceId relayId : String)
    (brokerRoomId deviceId : Option String) : Bool :=
  actualRelayId = relayId && brokerRoomId.all (· = actualBrokerRoomId) &&
    deviceId.all (· = actualDeviceId)

def shouldTouchLastSeen (lastSeen : Option Nat) (now : Nat) : Bool :=
  match lastSeen with
  | none => true
  | some previous => lastSeenThrottleSecs ≤ now - previous

namespace PublicControlStateStore

def toPersisted (s : PublicControlStateStore) : PersistedPublicControlState :=
  { schemaVersion := publicControlStateVersion
    relayRegistrations := s.relayRegistrationsByHash.values
    clientRegistrations := s.clientRegistrationsByHash.values
    deviceGrants := s.grantsByHash.values
    clientRelayGrants := s.clientRelayGrantsByKey.values }

def fromPersisted (p : PersistedPublicControlState) : Except String PublicControlStateStore :=
  if p.schemaVersion ≠ publicControlStateVersion then
    .error ("unsupported public control-plane state schema " ++ toString p.schemaVersion)
  else .ok
    { relayRegistrationsByHash := ofRecords (·.refreshTokenHash) p.relayRegistrations
      clientRegistrationsByHash := ofRecords (·.refreshTokenHash) p.clientRegistrations
      grantsByHash := ofRecords (·.refreshTokenHash) p.deviceGrants
      clientRelayGrantsByKey := ofRecords (·.key) p.clientRelayGrants }

def countDeviceGrantsForRelay (s : PublicControlStateStore) (relayId : String) : Nat :=
  (s.grantsByHash.values.filter (·.relayId = relayId)).length

def hasDeviceGrant (s : PublicControlStateStore) (relayId deviceId : String) : Bool :=
  s.grantsByHash.values.any fun grant => grant.relayId = relayId ∧ grant.deviceId = deviceId

def removeDeviceGrants (s : PublicControlStateStore) (relayId : String)
    (brokerRoomId deviceId : Option String) : PublicControlStateStore × Nat :=
  let (entries, removed) := removeMatchingEntries s.grantsByHash fun grant =>
    matchesOptionalRelayTarget grant.relayId grant.brokerRoomId grant.deviceId relayId
      brokerRoomId deviceId
  ({ s with grantsByHash := entries }, removed)

def removeClientRelayGrants (s : PublicControlStateStore) (relayId : String)
    (brokerRoomId deviceId : Option String) : PublicControlStateStore × Nat :=
  let (entries, removed) := removeMatchingEntries s.clientRelayGrantsByKey fun grant =>
    matchesOptionalRelayTarget grant.relayId grant.brokerRoomId grant.deviceId relayId
      brokerRoomId deviceId
  ({ s with clientRelayGrantsByKey := entries }, removed)

def removeClientRelayGrantsByClientId (s : PublicControlStateStore) (clientId : String) :
    PublicControlStateStore × Nat :=
  let (entries, removed) := removeMatchingEntries s.clientRelayGrantsByKey fun grant =>
    grant.clientId = clientId
  ({ s with clientRelayGrantsByKey := entries }, removed)

def removeAllOtherDeviceGrants (s : PublicControlStateStore)
    (relayId brokerRoomId keepDeviceId : String) : PublicControlStateStore × List String :=
  let (entries, removed) := collectRemovedDeviceIds s.grantsByHash fun grant =>
    if grant.relayId = relayId ∧ grant.brokerRoomId = brokerRoomId ∧
      grant.deviceId ≠ keepDeviceId then some grant.deviceId else none
  ({ s with grantsByHash := entries }, removed)

def removeAllOtherClientRelayGrants (s : PublicControlStateStore)
    (relayId brokerRoomId keepDeviceId : String) : PublicControlStateStore × List String :=
  let (entries, removed) := collectRemovedDeviceIds s.clientRelayGrantsByKey fun grant =>
    if grant.relayId = relayId ∧ grant.brokerRoomId = brokerRoomId ∧
      grant.deviceId ≠ keepDeviceId then some grant.deviceId else none
  ({ s with clientRelayGrantsByKey := entries }, removed)

def removeClientIdentityByClientId (s : PublicControlStateStore) (clientId : String) :
    PublicControlStateStore × Nat :=
  let (entries, removed) := removeMatchingEntries s.clientRegistrationsByHash fun registration =>
    registration.clientId = clientId
  ({ s with clientRegistrationsByHash := entries }, removed)

def registrationForVerifyKey (s : PublicControlStateStore) (relayVerifyKey : String) :
    Option PersistedRelayRegistration :=
  s.relayRegistrationsByHash.values.find? fun registration =>
    registration.relayVerifyKey = some relayVerifyKey

def clientIdentityForVerifyKey (s : PublicControlStateStore) (clientVerifyKey : String) :
    Option PersistedClientIdentity :=
  s.clientRegistrationsByHash.values.find? fun registration =>
    registration.clientVerifyKey = clientVerifyKey

def removeRelayRegistrationByVerifyKey (s : PublicControlStateStore) (relayVerifyKey : String) :
    PublicControlStateStore × Nat :=
  let (entries, removed) := removeMatchingEntries s.relayRegistrationsByHash fun registration =>
    registration.relayVerifyKey = some relayVerifyKey
  ({ s with relayRegistrationsByHash := entries }, removed)

def relayIdsTaken (s : PublicControlStateStore) (ids : String × String) : Bool :=
  s.relayRegistrationsByHash.values.any fun registration =>
    registration.relayId = ids.1 ∨ registration.brokerRoomId = ids.2

/-- The first pair drawn that no registration has; the source draws until there is one. -/
def issueNewRelayIds (s : PublicControlStateStore) (draws : List (String × String)) :
    Option (String × String) :=
  (draws.map fun draw =>
    ("relay-" ++ toAsciiLowercase draw.1, "room-" ++ toAsciiLowercase draw.2)).find?
      fun ids => !s.relayIdsTaken ids

def upsertClientRelayGrant (s : PublicControlStateStore) (grant : PersistedClientRelayGrant) :
    PublicControlStateStore :=
  { s with clientRelayGrantsByKey := s.clientRelayGrantsByKey.insert grant.key grant }

section
variable (sha256Hex : String → String)

def seedRelayRegistration (s : PublicControlStateStore × Bool)
    (registration : RelayRegistrationConfig) : PublicControlStateStore × Bool :=
  let refreshTokenHash := sha256Hex registration.refreshToken
  if s.1.relayRegistrationsByHash.contains refreshTokenHash then s
  else
    ({ s.1 with
        relayRegistrationsByHash := s.1.relayRegistrationsByHash.insert refreshTokenHash
          { relayId := registration.relayId, brokerRoomId := registration.brokerRoomId
            refreshTokenHash := refreshTokenHash, createdAt := 0, relayLabel := none
            relayVerifyKey := none } }, true)

def seedRelayRegistrations (s : PublicControlStateStore)
    (registrations : List RelayRegistrationConfig) : PublicControlStateStore × Bool :=
  registrations.foldl (seedRelayRegistration sha256Hex) (s, false)

def issueClientId (clientVerifyKey : String) : String :=
  "client-" ++ String.ofList ((sha256Hex clientVerifyKey).toList.take 16)

def issueOrRotateClientIdentity (s : PublicControlStateStore) (clientVerifyKey : String)
    (clientLabel : Option String) (createdAt graceSecs : Nat) (drawn : String) :
    PublicControlStateStore × (String × String) :=
  let (s, clientId, carriedLabel, superseded) :=
    match s.clientIdentityForVerifyKey clientVerifyKey with
    | some existing =>
      ((s.removeClientIdentityByClientId existing.clientId).1, existing.clientId,
        existing.clientLabel,
        carrySuperseded existing.superseded existing.refreshTokenHash createdAt graceSecs)
    | none => (s, issueClientId sha256Hex clientVerifyKey, none, [])
  let clientRefreshToken := "cref-" ++ toAsciiLowercase drawn
  let refreshTokenHash := sha256Hex clientRefreshToken
  ({ s with
      clientRegistrationsByHash := s.clientRegistrationsByHash.insert refreshTokenHash
        { clientId := clientId, clientVerifyKey := clientVerifyKey
          refreshTokenHash := refreshTokenHash, createdAt := createdAt
          clientLabel := clientLabel.or carriedLabel, superseded := superseded } },
    (clientId, clientRefreshToken))

def rotatedSuperseded (s : PublicControlStateStore) (clientId : String) (now graceSecs : Nat) :
    List SupersededToken :=
  (s.clientRegistrationsByHash.values.filter (·.clientId = clientId)).foldl
    (fun superseded registration =>
      carrySuperseded (registration.superseded ++ superseded) registration.refreshTokenHash now
        graceSecs) []

def rotateClientIdentity (s : PublicControlStateStore) (client : PersistedClientIdentity)
    (now graceSecs : Nat) (drawn : String) : PublicControlStateStore × String :=
  let superseded := s.rotatedSuperseded client.clientId now graceSecs
  let s := (s.removeClientIdentityByClientId client.clientId).1
  let clientRefreshToken := "cref-" ++ toAsciiLowercase drawn
  let refreshTokenHash := sha256Hex clientRefreshToken
  ({ s with
      clientRegistrationsByHash := s.clientRegistrationsByHash.insert refreshTokenHash
        { clientId := client.clientId, clientVerifyKey := client.clientVerifyKey
          refreshTokenHash := refreshTokenHash, createdAt := client.createdAt
          clientLabel := client.clientLabel, superseded := superseded } },
    clientRefreshToken)

/-- The ids a relay key is registered under, with its old registration taken out; a new
key draws ids. -/
def claimRelayIds (s : PublicControlStateStore) (relayVerifyKey : String)
    (draws : List (String × String)) : Option (PublicControlStateStore × (String × String)) :=
  match s.registrationForVerifyKey relayVerifyKey with
  | some existing =>
    some ((s.removeRelayRegistrationByVerifyKey relayVerifyKey).1,
      (existing.relayId, existing.brokerRoomId))
  | none => (s.issueNewRelayIds draws).map (s, ·)

/-- Register a relay key under a fresh token; nothing yet while every id drawn is taken. -/
def registerRelay (s : PublicControlStateStore) (relayVerifyKey : String)
    (relayLabel : Option String) (createdAt : Nat) (draws : List (String × String))
    (drawn : String) : Option (PublicControlStateStore × PersistedRelayRegistration) :=
  (s.claimRelayIds relayVerifyKey draws).map fun (s, ids) =>
    let registration : PersistedRelayRegistration :=
      { relayId := ids.1, brokerRoomId := ids.2
        refreshTokenHash := sha256Hex ("rref-" ++ toAsciiLowercase drawn)
        createdAt := createdAt, relayLabel := relayLabel, relayVerifyKey := some relayVerifyKey }
    ({ s with
        relayRegistrationsByHash := s.relayRegistrationsByHash.insert
          registration.refreshTokenHash registration }, registration)

def issueDeviceGrant (s : PublicControlStateStore) (registration : PersistedRelayRegistration)
    (deviceId : String) (createdAt graceSecs : Nat) (drawn : String) : PublicControlStateStore :=
  let refreshTokenHash := sha256Hex ("dref-" ++ toAsciiLowercase drawn)
  let previous := s.grantsByHash.values.find? fun grant =>
    grant.relayId = registration.relayId ∧ grant.deviceId = deviceId
  let superseded := match previous with
    | some grant => carrySuperseded grant.superseded grant.refreshTokenHash createdAt graceSecs
    | none => []
  let s := (s.removeDeviceGrants registration.relayId none (some deviceId)).1
  { s with
    grantsByHash := s.grantsByHash.insert refreshTokenHash
      { relayId := registration.relayId, brokerRoomId := registration.brokerRoomId
        deviceId := deviceId, refreshTokenHash := refreshTokenHash, createdAt := createdAt
        lastSeen := some createdAt, superseded := superseded } }

end

end PublicControlStateStore

end AgentRelay.Control
