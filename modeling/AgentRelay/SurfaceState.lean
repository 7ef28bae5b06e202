import AgentRelay.PathScope

/-! The part of the relay that knows about surfaces: paired devices, the peers that
are online and the device each one is bound to, and the watch set every surface
declared. The directory of a thread is a lookup the relay supplies. -/
namespace AgentRelay.Relay
open Text

def u64Max : Nat := 2 ^ 64 - 1

def saturatingAdd (a b : Nat) : Nat := min (a + b) u64Max

def StringSet.ofList (ids : List String) : StringSet := Std.ExtTreeMap.ofList (ids.map (·, ()))

structure WatchedSurface where
  deviceId : String
  threadIds : StringSet
  generation : Nat
  deriving DecidableEq

structure PendingPairing where
  pairingId : String
  pairingSecret : String
  secretHash : String
  createdAt : Nat
  expiresAt : Nat
  pathScope : List String
  deriving DecidableEq, Repr

structure PendingPairingRequest where
  pairingId : String
  deviceId : String
  label : String
  requestedAt : Nat
  expiresAt : Nat
  brokerPeerId : String
  deviceVerifyKey : String
  pathScope : List String
  deriving DecidableEq, Repr

structure PairedDevice where
  deviceId : String
  label : String
  payloadSecret : String
  deviceVerifyKey : String
  createdAt : Nat
  lastSeenAt : Option Nat
  lastPeerId : Option String
  brokerJoinTicketExpiresAt : Option Nat
  pathScope : List String
  deriving DecidableEq, Repr

inductive DeviceLifecycleState
  | pending
  | approved
  | rejected
  | revoked
  deriving DecidableEq, Repr

structure DeviceRecord where
  deviceId : String
  label : String
  lifecycleState : DeviceLifecycleState
  createdAt : Nat
  stateChangedAt : Nat
  lastSeenAt : Option Nat
  lastPeerId : Option String
  deviceVerifyKey : String
  brokerJoinTicketExpiresAt : Option Nat
  pathScope : List String
  deriving DecidableEq, Repr

structure ClaimChallenge where
  challengeId : String
  deviceId : String
  peerId : String
  challenge : String
  expiresAt : Nat
  deriving DecidableEq, Repr

structure SurfaceState where
  allowedRoots : List String := []
  pairedDevices : Table PairedDevice := ∅
  deviceRecords : Table DeviceRecord := ∅
  pendingPairings : Table PendingPairing := ∅
  pendingPairingRequests : Table PendingPairingRequest := ∅
  pendingClaimChallenges : Table ClaimChallenge := ∅
  brokerConnected : Bool := false
  onlineSurfacePeerIds : StringSet := ∅
  onlineSurfacePeerDevices : Table String := ∅
  watchedThreads : Table WatchedSurface := ∅
  brokerSurfaceIds : StringSet := ∅
  surfaceGenerations : Table Nat := ∅

def PairedDevice.toRecord (device : PairedDevice) : DeviceRecord :=
  { deviceId := device.deviceId, label := device.label, lifecycleState := .approved
    createdAt := device.createdAt, stateChangedAt := device.createdAt
    lastSeenAt := device.lastSeenAt, lastPeerId := device.lastPeerId
    deviceVerifyKey := device.deviceVerifyKey
    brokerJoinTicketExpiresAt := device.brokerJoinTicketExpiresAt
    pathScope := device.pathScope }

namespace SurfaceState

def devicePathScope (s : SurfaceState) (deviceId : String) : List String :=
  (s.pairedDevices[deviceId]?.map (·.pathScope)).getD []

section
variable (canonicalize : String → String)

/-- A thread is readable when its directory is in scope; an unknown or blank one only
when there is nothing to enforce. -/
def threadIsReadableBy (cwd : Option String) (deviceScope allowedRoots : List String) : Bool :=
  match (cwd.map trim).filter (· ≠ "") with
  | some cwd => (ensurePathWithinDeviceScope canonicalize cwd deviceScope allowedRoots).isOk
  | none => deviceScope.isEmpty && allowedRoots.isEmpty

variable (cwdOf : String → Option String)

/-- Whether a declaration keeps a thread: only what is provably out of scope goes. -/
def admitsWatch (s : SurfaceState) (deviceId threadId : String) : Bool :=
  threadId ≠ "" &&
    match cwdOf threadId with
    | some cwd =>
      if trim cwd = "" then true
      else threadIsReadableBy canonicalize (some cwd) (s.devicePathScope deviceId) s.allowedRoots
    | none => true

def surfaceGeneration (s : SurfaceState) (surfaceId : String) : Nat :=
  s.surfaceGenerations[surfaceId]?.getD 0

def isStaleDeclaration (s : SurfaceState) (surfaceId : String) (generation : Option Nat) : Bool :=
  match generation with
  | some generation => generation < s.surfaceGeneration surfaceId
  | none => false

def setWatchedThreadsForGeneration (s : SurfaceState) (surfaceId deviceId : String)
    (threadIds : List String) (generation : Option Nat) : SurfaceState × Bool :=
  if s.isStaleDeclaration surfaceId generation then (s, false)
  else
    let next : WatchedSurface :=
      { deviceId := deviceId
        threadIds := StringSet.ofList
          (threadIds.filter (s.admitsWatch canonicalize cwdOf deviceId))
        generation := s.surfaceGeneration surfaceId }
    if s.watchedThreads[surfaceId]? = some next then (s, false)
    else ({ s with watchedThreads := s.watchedThreads.insert surfaceId next }, true)

def threadIsReadableByDevice (s : SurfaceState) (threadId deviceId : String) : Bool :=
  threadIsReadableBy canonicalize (cwdOf threadId) (s.devicePathScope deviceId) s.allowedRoots

def surfaceWatchesThread (s : SurfaceState) (activeThreadId : Option String)
    (surfaceId threadId : String) : Bool :=
  match s.watchedThreads[surfaceId]? with
  | some watched =>
    watched.threadIds.contains threadId &&
      s.threadIsReadableByDevice canonicalize cwdOf threadId watched.deviceId
  | none => activeThreadId = some threadId

/-- Device, peer and payload secret of every online peer bound to a paired device. -/
def brokerTargets (s : SurfaceState) : List (String × String × String) :=
  s.onlineSurfacePeerIds.keys.filterMap fun peerId =>
    match s.onlineSurfacePeerDevices[peerId]? with
    | some deviceId =>
      s.pairedDevices[deviceId]?.map fun device => (device.deviceId, peerId, device.payloadSecret)
    | none => none

def brokerTargetsForThread (s : SurfaceState) (activeThreadId : Option String)
    (threadId : String) : List (String × String × String) :=
  s.brokerTargets.filter fun target =>
    if s.watchedThreads.contains target.2.1 then
      s.surfaceWatchesThread canonicalize cwdOf activeThreadId target.2.1 threadId
    else
      -- A peer that never declared falls back to the active thread.
      activeThreadId = some threadId &&
        s.threadIsReadableByDevice canonicalize cwdOf threadId target.1

end

def registerBrokerSurface (s : SurfaceState) (surfaceId : String) : SurfaceState :=
  { s with brokerSurfaceIds := s.brokerSurfaceIds.insert surfaceId () }

/-- Record a connection generation and return the one now in force. -/
def openSurfaceGeneration (s : SurfaceState) (surfaceId : String) (claimed : Option Nat) :
    SurfaceState × Nat :=
  let current := s.surfaceGeneration surfaceId
  let next := match claimed with
    | some claimed => if current < claimed then claimed else current
    | none => saturatingAdd current 1
  ({ s with surfaceGenerations := s.surfaceGenerations.insert surfaceId next }, next)

def dropWatchedSurface (s : SurfaceState) (surfaceId : String) : SurfaceState × Bool :=
  ({ s with
      surfaceGenerations := s.surfaceGenerations.erase surfaceId
      brokerSurfaceIds := s.brokerSurfaceIds.erase surfaceId
      watchedThreads := s.watchedThreads.erase surfaceId },
    s.watchedThreads.contains surfaceId)

/-- Drop a surface's watch set only if `generation` is still the current one. -/
def dropWatchedSurfaceGeneration (s : SurfaceState) (surfaceId : String) (generation : Nat) :
    SurfaceState × Bool :=
  if s.surfaceGenerations[surfaceId]? = some generation then s.dropWatchedSurface surfaceId
  else (s, false)

def clearWatchedThreadsForDevice (s : SurfaceState) (deviceId : String) : SurfaceState :=
  { s with watchedThreads := s.watchedThreads.filter fun _ watched => watched.deviceId ≠ deviceId }

def bindSurfacePeerToDevice (s : SurfaceState) (deviceId peerId : String) : SurfaceState :=
  { s with onlineSurfacePeerDevices := s.onlineSurfacePeerDevices.insert peerId deviceId }

def pruneOfflineBrokerSurfaces (s : SurfaceState) : SurfaceState :=
  { s with
    watchedThreads := s.watchedThreads.filter fun surfaceId _ =>
      !s.brokerSurfaceIds.contains surfaceId || s.onlineSurfacePeerIds.contains surfaceId
    brokerSurfaceIds := s.brokerSurfaceIds.filter fun surfaceId _ =>
      s.onlineSurfacePeerIds.contains surfaceId }

def markSurfacePeerOnline (s : SurfaceState) (peerId : String) : SurfaceState :=
  { s with onlineSurfacePeerIds := s.onlineSurfacePeerIds.insert peerId () }

def markSurfacePeerOffline (s : SurfaceState) (peerId : String) : SurfaceState :=
  pruneOfflineBrokerSurfaces
    { s with
      onlineSurfacePeerDevices := s.onlineSurfacePeerDevices.erase peerId
      onlineSurfacePeerIds := s.onlineSurfacePeerIds.erase peerId }

def replaceOnlineSurfacePeers (s : SurfaceState) (peerIds : List String) : SurfaceState :=
  pruneOfflineBrokerSurfaces
    { s with
      onlineSurfacePeerIds := StringSet.ofList peerIds
      onlineSurfacePeerDevices := s.onlineSurfacePeerDevices.filter fun peerId _ =>
        (StringSet.ofList peerIds).contains peerId }

def setBrokerConnection (s : SurfaceState) (connected : Bool) : SurfaceState :=
  if connected then { s with brokerConnected := true }
  else
    { s with
      brokerConnected := false
      onlineSurfacePeerIds := ∅
      onlineSurfacePeerDevices := ∅
      brokerSurfaceIds := ∅
      watchedThreads := s.watchedThreads.filter fun surfaceId _ =>
        !s.brokerSurfaceIds.contains surfaceId }

def setAllowedRoots (s : SurfaceState) (allowedRoots : List String) : SurfaceState × Bool :=
  if s.allowedRoots = allowedRoots then (s, false)
  else ({ s with allowedRoots := allowedRoots }, true)

end SurfaceState

end AgentRelay.Relay
