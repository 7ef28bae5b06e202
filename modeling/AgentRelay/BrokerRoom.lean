import AgentRelay.Mailboxes
import AgentRelay.Text

/-! The broker's rooms: who is seated in which channel, what each connection was told, and
where a published payload goes. Every join opens an unbounded queue; a seat holds its
sending end, and the connection reads it. -/
namespace AgentRelay.Broker
open Mailboxes

/-- A JSON value; the fields of an object have distinct names. -/
inductive Json
  | null
  | bool (value : Bool)
  | number (text : String)
  | string (text : String)
  | array (items : List Json)
  | object (fields : List (String × Json))

namespace Json

/-- `Value::get` with a string key. -/
def get (value : Json) (key : String) : Option Json :=
  match value with
  | .object fields => fields.lookup key
  | _ => none

def asStr : Json → Option String
  | .string text => some text
  | _ => none

end Json

inductive PeerRole
  | relay
  | surface
  deriving DecidableEq, Repr

structure PeerSummary where
  peerId : String
  role : PeerRole
  deviceId : Option String
  deriving DecidableEq, Repr

inductive PresenceKind
  | joined
  | left
  deriving DecidableEq, Repr

inductive ServerMessage
  | presence (channelId : String) (kind : PresenceKind) (peer : PeerSummary)
  | message (channelId fromPeerId : String) (fromRole : PeerRole) (payload : Json)
  | error (code message : String)

structure PeerHandle where
  connectionId : Nat
  role : PeerRole
  deviceId : Option String
  pairingId : Option String
  /-- The queue of this connection. -/
  tx : Nat
  deriving DecidableEq, Repr

def PeerHandle.summary (handle : PeerHandle) (peerId : String) : PeerSummary :=
  ⟨peerId, handle.role, handle.deviceId⟩

abbrev RoomState := Table PeerHandle

structure JoinResult where
  channelId : String
  peerId : String
  connectionId : Nat
  existingPeers : List PeerSummary
  deriving DecidableEq, Repr

structure BrokerState where
  rooms : Table RoomState := ∅
  nextConnectionId : Nat := 0
  /-- The queue of each connection, in the order the joins were made. -/
  inboxes : List (List ServerMessage) := []
  /-- History: what each of those joins returned. -/
  connections : List JoinResult := []

structure TargetedMessagePayload where
  targetPeerId : String
  payload : Json

/-- `serde_json::from_value`: by field name, or by position from an array. -/
def TargetedMessagePayload.fromValue : Json → Option TargetedMessagePayload
  | .array [.string targetPeerId, payload] => some ⟨targetPeerId, payload⟩
  | .object fields =>
    match fields.lookup "target_peer_id", fields.lookup "payload" with
    | some (.string targetPeerId), some payload => some ⟨targetPeerId, payload⟩
    | _, _ => none
  | _ => none

def targetedMessages : Json → Option (List TargetedMessagePayload)
  | .array [.array items] => items.mapM TargetedMessagePayload.fromValue
  | .object fields =>
    match fields.lookup "messages" with
    | some (.array items) => items.mapM TargetedMessagePayload.fromValue
    | _ => none
  | _ => none

def isTargetedMessagesPayload (payload : Json) : Bool :=
  (payload.get "kind").bind Json.asStr = some "targeted_messages"

/-- Payload kinds that may only be delivered through the `targeted_messages` wrapper. -/
def mustNotBeBroadcast (payloadKind : String) : Bool := payloadKind = "encrypted_pairing_result"

def payloadKind (payload : Json) : String := ((payload.get "kind").bind Json.asStr).getD "-"

def parseTargetedMessagesPayload (decodeError : Json → String) (payload : Json) :
    Except String (List TargetedMessagePayload) :=
  match targetedMessages payload with
  | none => .error ("invalid targeted_messages payload: " ++ decodeError payload)
  | some messages =>
    if messages.any (·.targetPeerId = "") then
      .error "invalid targeted_messages payload: target_peer_id is empty"
    else .ok messages

namespace BrokerState

def txs (room : RoomState) : List Nat := room.toList.map (·.2.tx)

def without (room : RoomState) (peerId : String) : RoomState := room.filter fun id _ => id ≠ peerId

def sendTo (s : BrokerState) (room : RoomState) (message : ServerMessage) : BrokerState :=
  { s with inboxes := postAll s.inboxes (txs room) message }

def unseat (s : BrokerState) (channelId : String) (room : RoomState) (peerId : String)
    (handle : PeerHandle) : BrokerState :=
  { s with rooms := s.rooms.insert channelId (room.erase peerId) }.sendTo (room.erase peerId)
    (.presence channelId .left (handle.summary peerId))

/-- A later join on the same pairing ticket takes the seat of an earlier one. -/
def supersede (channelId : String) (s : BrokerState) (peerId : String) : BrokerState :=
  let room := s.rooms[channelId]?.getD ∅
  match room[peerId]? with
  | none => s
  | some handle =>
    let notice := ServerMessage.error "pairing_ticket_superseded"
      "another client joined with this pairing ticket"
    { s with inboxes := post s.inboxes handle.tx notice }.unseat channelId room peerId handle

def superseded (room : RoomState) (peerId : String) : Option String → List String
  | some pairingId =>
    (room.toList.filter fun e => e.1 ≠ peerId ∧ e.2.pairingId = some pairingId).map (·.1)
  | none => []

def seat (s : BrokerState) (channelId peerId : String) (connectionId : Nat) (role : PeerRole)
    (deviceId pairingId : Option String) : BrokerState × JoinResult :=
  let room := s.rooms[channelId]?.getD ∅
  let others := without room peerId
  let result : JoinResult :=
    { channelId := channelId, peerId := peerId, connectionId := connectionId
      existingPeers := others.toList.map fun e => e.2.summary e.1 }
  let handle : PeerHandle :=
    { connectionId := connectionId, role := role, deviceId := deviceId
      pairingId := pairingId, tx := s.connections.length }
  let told := s.sendTo others (.presence channelId .joined ⟨peerId, role, deviceId⟩)
  ({ told with
      rooms := s.rooms.insert channelId (room.insert peerId handle)
      inboxes := told.inboxes ++ [[]]
      connections := s.connections ++ [result] }, result)

/-- `wrapping_add(1).max(1)` on 64 bits. -/
def bumpConnectionId (id : Nat) : Nat := max ((id + 1) % 2 ^ 64) 1

/-- Whether a seat may be taken over by a join of the same peer id. -/
def replaceable (existing : PeerHandle) (role : PeerRole) : Bool :=
  existing.role = .relay && role = .relay

def join (s : BrokerState) (channelId peerId : String) (role : PeerRole)
    (deviceId pairingId : Option String) : BrokerState × Except String JoinResult :=
  let connectionId := bumpConnectionId s.nextConnectionId
  let s := { s with nextConnectionId := connectionId }
  let room := s.rooms[channelId]?.getD ∅
  if (room[peerId]?).any (fun existing => !replaceable existing role) then
    (s, .error ("peer `" ++ peerId ++ "` is already connected to channel `" ++ channelId ++ "`"))
  else
    let cleared := (superseded room peerId pairingId).foldl (supersede channelId) s
    let (seated, result) := cleared.seat channelId peerId connectionId role deviceId pairingId
    (seated, .ok result)

def leaveInner (s : BrokerState) (channelId peerId : String) (expected : Option Nat) :
    BrokerState :=
  match s.rooms[channelId]? with
  | none => s
  | some room =>
    match room[peerId]? with
    | none => s
    | some handle =>
      if expected.any (· ≠ handle.connectionId) then s
      else
        let s := s.unseat channelId room peerId handle
        if room.erase peerId = ∅ then { s with rooms := s.rooms.erase channelId } else s

def leave (s : BrokerState) (channelId peerId : String) : BrokerState :=
  s.leaveInner channelId peerId none

def leaveConnection (s : BrokerState) (channelId peerId : String) (connectionId : Nat) :
    BrokerState :=
  s.leaveInner channelId peerId (some connectionId)

/-- Hand one targeted message over, unless it is for its sender or for nobody here. -/
def sendTargeted (room : RoomState) (channelId fromPeerId : String) (fromRole : PeerRole)
    (s : BrokerState) (message : TargetedMessagePayload) : BrokerState :=
  if message.targetPeerId = fromPeerId then s
  else
    match room[message.targetPeerId]? with
    | none => s
    | some handle =>
      let frame := ServerMessage.message channelId fromPeerId fromRole message.payload
      { s with inboxes := post s.inboxes handle.tx frame }

section
variable (decodeError : Json → String)

def publishInner (s : BrokerState) (channelId fromPeerId : String) (expected : Option Nat)
    (payload : Json) : BrokerState × Except String Unit :=
  match s.rooms[channelId]? with
  | none => (s, .error ("channel `" ++ channelId ++ "` is not active"))
  | some room =>
    match room[fromPeerId]? with
    | none =>
      (s, .error ("peer `" ++ fromPeerId ++ "` is not connected to channel `" ++ channelId ++ "`"))
    | some sender =>
      if expected.any (sender.connectionId ≠ ·) then
        (s, .error ("peer `" ++ fromPeerId ++ "` connection has been replaced in channel `" ++
          channelId ++ "`"))
      else if isTargetedMessagesPayload payload then
        match parseTargetedMessagesPayload decodeError payload with
        | .error error => (s, .error error)
        | .ok messages =>
          (messages.foldl (sendTargeted room channelId fromPeerId sender.role) s, .ok ())
      else if mustNotBeBroadcast (payloadKind payload) then
        (s, .error ("payload `" ++ payloadKind payload ++
          "` must be published inside a `targeted_messages` wrapper; refusing to broadcast it"))
      else
        (s.sendTo (without room fromPeerId) (.message channelId fromPeerId sender.role payload),
          .ok ())

def publish (s : BrokerState) (channelId fromPeerId : String) (payload : Json) :
    BrokerState × Except String Unit :=
  s.publishInner decodeError channelId fromPeerId none payload

def publishConnection (s : BrokerState) (channelId fromPeerId : String) (connectionId : Nat)
    (payload : Json) : BrokerState × Except String Unit :=
  s.publishInner decodeError channelId fromPeerId (some connectionId) payload

end

end BrokerState

inductive BrokerOp
  | join (channelId peerId : String) (role : PeerRole) (deviceId pairingId : Option String)
  | leave (channelId peerId : String)
  | leaveConnection (channelId peerId : String) (connectionId : Nat)
  | publish (channelId fromPeerId : String) (payload : Json)
  | publishConnection (channelId fromPeerId : String) (connectionId : Nat) (payload : Json)

def BrokerState.step (decodeError : Json → String) (s : BrokerState) : BrokerOp → BrokerState
  | .join channelId peerId role deviceId pairingId =>
    (s.join channelId peerId role deviceId pairingId).1
  | .leave channelId peerId => s.leave channelId peerId
  | .leaveConnection channelId peerId connectionId =>
    s.leaveConnection channelId peerId connectionId
  | .publish channelId fromPeerId payload => (s.publish decodeError channelId fromPeerId payload).1
  | .publishConnection channelId fromPeerId connectionId payload =>
    (s.publishConnection decodeError channelId fromPeerId connectionId payload).1

end AgentRelay.Broker
