import AgentRelay.RoomAgreement

/-! What a connection that lost its seat can still do, where a published payload goes, and
the whole of what holds of the broker's rooms over every sequence of calls. -/
namespace AgentRelay.Broker
open Mailboxes StepRun

namespace BrokerState

def isJoin : BrokerOp → Bool
  | .join .. => true
  | _ => false

def joins (ops : List BrokerOp) : Nat := ops.countP isJoin

structure Numbered (n : Nat) (s : BrokerState) : Prop where
  next : s.nextConnectionId = n
  ordered : s.connections.Pairwise fun c c' => c.connectionId < c'.connectionId
  le : ∀ c ∈ s.connections, c.connectionId ≤ n

theorem foldl_supersede_connections (s : BrokerState) (ch : String) (gone : List String) :
    (gone.foldl (supersede ch) s).connections = s.connections ∧
      (gone.foldl (supersede ch) s).nextConnectionId = s.nextConnectionId := by
  refine run_of_step (I := fun t : BrokerState =>
    t.connections = s.connections ∧ t.nextConnectionId = s.nextConnectionId) ?_ ⟨rfl, rfl⟩ gone
  intro t p ht
  unfold supersede
  dsimp only
  split
  · exact ht
  · exact ht

theorem bumpConnectionId_eq {id : Nat} (h : id + 1 < 2 ^ 64) : bumpConnectionId id = id + 1 := by
  rw [bumpConnectionId, Nat.mod_eq_of_lt h]
  omega

theorem join_numbered {s : BrokerState} {n : Nat} (h : s.Numbered n) (hn : n + 1 < 2 ^ 64)
    (ch p : String) (role : PeerRole) (deviceId pairingId : Option String) :
    (s.join ch p role deviceId pairingId).1.Numbered (n + 1) := by
  have hbump : bumpConnectionId s.nextConnectionId = n + 1 := by
    rw [h.next]
    exact bumpConnectionId_eq hn
  unfold join
  dsimp only
  rw [hbump]
  split_ifs
  · exact ⟨rfl, h.ordered, fun c hc => (h.le c hc).trans (Nat.le_succ n)⟩
  · obtain ⟨hconn, hnext⟩ := foldl_supersede_connections
      { s with nextConnectionId := n + 1 } ch (superseded (s.rooms[ch]?.getD ∅) p pairingId)
    refine ⟨hnext, ?_, ?_⟩
    · change List.Pairwise _ (_ ++ [_])
      rw [hconn, List.pairwise_append]
      refine ⟨h.ordered, List.pairwise_singleton _ _, ?_⟩
      intro c hc c' hc'
      rw [List.mem_singleton.mp hc']
      exact Nat.lt_succ_of_le (h.le c hc)
    · intro c hc
      change c ∈ _ ++ [_] at hc
      rw [hconn] at hc
      rcases List.mem_append.mp hc with hc | hc
      · exact (h.le c hc).trans (Nat.le_succ n)
      · rw [List.mem_singleton.mp hc]

theorem leaveInner_numbered {s : BrokerState} {n : Nat} (h : s.Numbered n) (ch p : String)
    (expected : Option Nat) : (s.leaveInner ch p expected).Numbered n := by
  unfold leaveInner
  split
  · exact h
  · split
    · exact h
    · split_ifs
      · exact h
      · exact ⟨h.next, h.ordered, h.le⟩
      · exact ⟨h.next, h.ordered, h.le⟩

theorem publishInner_numbered {s : BrokerState} {n : Nat} (h : s.Numbered n)
    (decodeError : Json → String) (ch p : String) (expected : Option Nat) (payload : Json) :
    (s.publishInner decodeError ch p expected payload).1.Numbered n := by
  obtain ⟨inboxes, hframe⟩ := publishInner_frame decodeError s ch p expected payload
  rw [hframe]
  exact ⟨h.next, h.ordered, h.le⟩

theorem run_numbered (decodeError : Json → String) {s : BrokerState} {n : Nat} (h : s.Numbered n)
    {ops : List BrokerOp} (hn : n + joins ops < 2 ^ 64) :
    (run (step decodeError) s ops).Numbered (n + joins ops) := by
  induction ops generalizing s n with
  | nil => exact h
  | cons op ops ih =>
    cases op with
    | join ch p role deviceId pairingId =>
      have hjoins : n + joins (.join ch p role deviceId pairingId :: ops) = n + 1 + joins ops := by
        simp only [joins, List.countP_cons, isJoin, if_true]
        omega
      rw [hjoins] at hn ⊢
      exact ih (join_numbered h (by omega) ch p role deviceId pairingId) hn
    | leave ch p => exact ih (leaveInner_numbered h ch p none) hn
    | leaveConnection ch p id => exact ih (leaveInner_numbered h ch p (some id)) hn
    | publish ch p payload => exact ih (publishInner_numbered h decodeError ch p none payload) hn
    | publishConnection ch p id payload =>
      exact ih (publishInner_numbered h decodeError ch p (some id) payload) hn

/-- Connection `i` does not hold the seat it was given: it left, was replaced or evicted. -/
def Unseated (s : BrokerState) (i : Nat) (c : JoinResult) : Prop :=
  ∀ handle, s.Seat c.channelId c.peerId handle → handle.tx ≠ i

/-- Connections without their seat can do nothing under their name. -/
def UnseatedInert (decodeError : Json → String) (s : BrokerState) : Prop :=
  ∀ i c, s.connections[i]? = some c → s.Unseated i c →
    s.leaveConnection c.channelId c.peerId c.connectionId = s ∧
    ∀ payload, ∃ error,
      s.publishConnection decodeError c.channelId c.peerId c.connectionId payload =
        (s, .error error)

theorem Agrees.connectionId_ne {s : BrokerState} (h : s.Agrees) {n : Nat} (hn : s.Numbered n)
    {i : Nat} {c : JoinResult} (hc : s.connections[i]? = some c) (hout : s.Unseated i c)
    {handle : PeerHandle} (hseat : s.Seat c.channelId c.peerId handle) :
    handle.connectionId ≠ c.connectionId := by
  have hne := hout handle hseat
  obtain ⟨room, hroom, hget⟩ := hseat
  obtain ⟨c', hc', -, -, hid⟩ := h.owner hroom hget
  obtain ⟨hi, hci⟩ := List.getElem?_eq_some_iff.mp hc
  obtain ⟨hj, hcj⟩ := List.getElem?_eq_some_iff.mp hc'
  have hordered := List.pairwise_iff_getElem.mp hn.ordered
  rw [← hid, ← hci, ← hcj]
  rcases Nat.lt_or_gt_of_ne hne with hlt | hgt
  · exact (hordered handle.tx i hj hi hlt).ne
  · exact (hordered i handle.tx hi hj hgt).ne'

theorem Agrees.unseatedInert {s : BrokerState} (h : s.Agrees) {n : Nat} (hn : s.Numbered n)
    (decodeError : Json → String) : s.UnseatedInert decodeError := by
  intro i c hc hout
  have hne : ∀ room handle, s.rooms[c.channelId]? = some room → room[c.peerId]? = some handle →
      handle.connectionId ≠ c.connectionId :=
    fun room handle hroom hget => h.connectionId_ne hn hc hout ⟨room, hroom, hget⟩
  refine ⟨?_, fun payload => ?_⟩
  · unfold leaveConnection leaveInner
    split
    · rfl
    · rename_i room hroom
      split
      · rfl
      · rename_i handle hget
        exact if_pos (by simpa using (hne room handle hroom hget).symm)
  · unfold publishConnection publishInner
    split
    · exact ⟨_, rfl⟩
    · rename_i room hroom
      split
      · exact ⟨_, rfl⟩
      · rename_i handle hget
        exact ⟨_, if_pos (by simpa using hne room handle hroom hget)⟩

def published : BrokerOp → Option (String × String × Json)
  | .publish ch fromPeerId payload => some (ch, fromPeerId, payload)
  | .publishConnection ch fromPeerId _ payload => some (ch, fromPeerId, payload)
  | _ => none

def Targets (payload : Json) (peerId : String) (part : Json) : Prop :=
  isTargetedMessagesPayload payload = true ∧
    ∃ messages, targetedMessages payload = some messages ∧ ⟨peerId, part⟩ ∈ messages

/-- How a frame may come into queue `j`: a published part goes to a member of the sender's
channel other than the sender, and a part that must not be broadcast only to a peer the
publish names for it. -/
def Explained (s : BrokerState) (op : BrokerOp) (j : Nat) : ServerMessage → Prop
  | .message ch fromPeerId fromRole part =>
    ∃ payload sender q handle, published op = some (ch, fromPeerId, payload) ∧
      s.Seat ch fromPeerId sender ∧ sender.role = fromRole ∧
      s.Seat ch q handle ∧ handle.tx = j ∧ q ≠ fromPeerId ∧
      (part = payload ∨ Targets payload q part) ∧
      (mustNotBeBroadcast (payloadKind part) = true → Targets payload q part)
  | _ => True

theorem unseat_grows {P : Nat → ServerMessage → Prop} (s : BrokerState) (ch : String)
    (room : RoomState) (p : String) (handle : PeerHandle)
    (h : ∀ j ch kind peer, P j (.presence ch kind peer)) :
    Grows P s.inboxes (s.unseat ch room p handle).inboxes :=
  grows_postAll (fun tx _ => h tx _ _ _) s.inboxes

theorem foldl_supersede_grows {P : Nat → ServerMessage → Prop} (s : BrokerState) (ch : String)
    (gone : List String) (hp : ∀ j ch kind peer, P j (.presence ch kind peer))
    (he : ∀ j code message, P j (.error code message)) :
    Grows P s.inboxes (gone.foldl (supersede ch) s).inboxes := by
  refine run_of_step (I := fun t : BrokerState => Grows P s.inboxes t.inboxes) ?_
    (Grows.refl P _) gone
  intro t p ht
  unfold supersede
  dsimp only
  split
  · exact ht
  · rename_i handle _
    have hnotice := grows_post (he handle.tx "pairing_ticket_superseded"
      "another client joined with this pairing ticket") t.inboxes
    exact (ht.trans hnotice).trans (unseat_grows { t with inboxes := _ } ch _ p handle hp)

theorem join_grows {P : Nat → ServerMessage → Prop} (s : BrokerState) (ch p : String)
    (role : PeerRole) (deviceId pairingId : Option String)
    (hp : ∀ j ch kind peer, P j (.presence ch kind peer))
    (he : ∀ j code message, P j (.error code message)) :
    Grows P s.inboxes (s.join ch p role deviceId pairingId).1.inboxes := by
  unfold join
  extract_lets connectionId s' room cleared
  split_ifs
  · exact Grows.refl P _
  · have hcleared : Grows P s'.inboxes cleared.inboxes := foldl_supersede_grows s' ch _ hp he
    refine (hcleared.trans (grows_postAll ?_ cleared.inboxes)).trans (grows_open P _)
    intro tx _
    exact hp tx ch .joined ⟨p, role, deviceId⟩

theorem leaveInner_grows {P : Nat → ServerMessage → Prop} (s : BrokerState) (ch p : String)
    (expected : Option Nat) (hp : ∀ j ch kind peer, P j (.presence ch kind peer)) :
    Grows P s.inboxes (s.leaveInner ch p expected).inboxes := by
  unfold leaveInner
  split
  · exact Grows.refl P _
  · rename_i room _
    split
    · exact Grows.refl P _
    · rename_i handle _
      split_ifs
      · exact Grows.refl P _
      · exact unseat_grows s ch room p handle hp
      · exact unseat_grows s ch room p handle hp

theorem sendTargeted_grows {P : Nat → ServerMessage → Prop} {s : BrokerState} {ch : String}
    {room : RoomState} {fromPeerId : String} {role : PeerRole}
    {messages : List TargetedMessagePayload}
    (h : ∀ m ∈ messages, ∀ handle : PeerHandle, m.targetPeerId ≠ fromPeerId →
      room[m.targetPeerId]? = some handle → P handle.tx (.message ch fromPeerId role m.payload)) :
    Grows P s.inboxes (messages.foldl (sendTargeted room ch fromPeerId role) s).inboxes := by
  induction messages generalizing s with
  | nil => exact Grows.refl P _
  | cons m messages ih =>
    refine Grows.trans ?_ (ih fun m' hm' => h m' (List.mem_cons_of_mem m hm'))
    unfold sendTargeted
    split_ifs with hself
    · exact Grows.refl P _
    · split
      · exact Grows.refl P _
      · rename_i handle hget
        exact grows_post (h m List.mem_cons_self handle hself hget) s.inboxes

theorem parse_ok {decodeError : Json → String} {payload : Json}
    {messages : List TargetedMessagePayload}
    (h : parseTargetedMessagesPayload decodeError payload = .ok messages) :
    targetedMessages payload = some messages := by
  unfold parseTargetedMessagesPayload at h
  split at h
  · cases h
  · rename_i parsed hparsed
    split_ifs at h
    rw [hparsed, Except.ok.inj h]

theorem publishInner_grows (decodeError : Json → String) (s : BrokerState) {op : BrokerOp}
    {ch fromPeerId : String} {payload : Json} (hop : published op = some (ch, fromPeerId, payload))
    (expected : Option Nat) :
    Grows (Explained s op) s.inboxes
      (s.publishInner decodeError ch fromPeerId expected payload).1.inboxes := by
  unfold publishInner
  split
  · exact Grows.refl _ _
  · rename_i room hroom
    split
    · exact Grows.refl _ _
    · rename_i sender hsender
      have hfrom : s.Seat ch fromPeerId sender := ⟨room, hroom, hsender⟩
      split_ifs with hid htargeted hsecret
      · exact Grows.refl _ _
      · split
        · exact Grows.refl _ _
        · rename_i messages hparse
          refine sendTargeted_grows fun m hm handle hne hget => ?_
          have htargets : Targets payload m.targetPeerId m.payload :=
            ⟨htargeted, messages, parse_ok hparse, hm⟩
          exact ⟨payload, sender, m.targetPeerId, handle, hop, hfrom, rfl, ⟨room, hroom, hget⟩, rfl,
            hne, Or.inr htargets, fun _ => htargets⟩
      · exact Grows.refl _ _
      · refine grows_postAll (fun tx htx => ?_) s.inboxes
        obtain ⟨q, handle, hget, rfl⟩ := mem_txs.mp htx
        rw [getElem?_without] at hget
        split_ifs at hget with hq
        exact ⟨payload, sender, q, handle, hop, hfrom, rfl, ⟨room, hroom, hget⟩, rfl, hq,
          Or.inl rfl, fun hyes => absurd hyes hsecret⟩

theorem step_grows (decodeError : Json → String) (s : BrokerState) (op : BrokerOp) :
    Grows (Explained s op) s.inboxes (s.step decodeError op).inboxes := by
  cases op with
  | join ch p role deviceId pairingId =>
    exact join_grows s ch p role deviceId pairingId (fun _ _ _ _ => trivial) fun _ _ _ => trivial
  | leave ch p => exact leaveInner_grows s ch p none fun _ _ _ _ => trivial
  | leaveConnection ch p id => exact leaveInner_grows s ch p (some id) fun _ _ _ _ => trivial
  | publish ch p payload => exact publishInner_grows decodeError s rfl none
  | publishConnection ch p id payload => exact publishInner_grows decodeError s rfl (some id)

structure RoomsAgree (decodeError : Json → String) (ops : List BrokerOp) (s : BrokerState) :
    Prop where
  /-- A seated connection's list is the membership of its room other than itself. -/
  views : ∀ (ch : String) (room : RoomState) (p : String) (handle : PeerHandle),
    s.rooms[ch]? = some room → room[p]? = some handle →
      ∃ c inbox, s.connections[handle.tx]? = some c ∧ c.channelId = ch ∧ c.peerId = p ∧
        c.connectionId = handle.connectionId ∧ s.inboxes[handle.tx]? = some inbox ∧
        viewOf c.existingPeers inbox = members room p
  tickets : s.OneSeatPerTicket
  /-- Until the numbers of connections run out, one without its seat can do nothing. -/
  unseated : joins ops < 2 ^ 64 → s.UnseatedInert decodeError

theorem Agrees.views {s : BrokerState} (h : s.Agrees) {ch : String} {room : RoomState} {p : String}
    {handle : PeerHandle} (hroom : s.rooms[ch]? = some room) (hget : room[p]? = some handle) :
    ∃ c inbox, s.connections[handle.tx]? = some c ∧ c.channelId = ch ∧ c.peerId = p ∧
      c.connectionId = handle.connectionId ∧ s.inboxes[handle.tx]? = some inbox ∧
      viewOf c.existingPeers inbox = members room p := by
  obtain ⟨c, hc, hch, hp, hid⟩ := h.owner hroom hget
  have hlt : handle.tx < s.inboxes.length := h.lengths ▸ (List.getElem?_eq_some_iff.mp hc).1
  have hbox := List.getElem?_eq_getElem hlt
  exact ⟨c, _, hc, hch, hp, hid, hbox, h.view hroom hget hc hbox⟩

theorem agrees_empty : Agrees {} := ⟨rfl, fun hroom => by simp at hroom, fun hroom => by simp at hroom⟩

/-- Over every sequence of calls: lists agree with rooms, tickets hold one seat in a room,
connections without a seat are inert, and every frame is explained by the call that sent it. -/
theorem rooms_agree (decodeError : Json → String) (ops : List BrokerOp) :
    RoomsAgree decodeError ops (run (step decodeError) {} ops) ∧
    Along (step decodeError)
      (fun s op => Grows (Explained s op) s.inboxes (s.step decodeError op).inboxes) {} ops := by
  have hagrees : (run (step decodeError) {} ops).Agrees :=
    run_of_step (I := Agrees) (fun _ op h => step_agrees decodeError h op) agrees_empty ops
  refine ⟨⟨fun ch room p handle => hagrees.views, ?_, ?_⟩, ?_⟩
  · refine run_of_step (I := OneSeatPerTicket) (fun _ op h => step_oneSeat decodeError h op) ?_ ops
    rintro ch p q ticket hp hq ⟨room, hroom, -⟩
    simp at hroom
  · intro hjoins
    have hzero : Numbered 0 ({} : BrokerState) := ⟨rfl, List.Pairwise.nil, nofun⟩
    have hnumbered : (run (step decodeError) {} ops).Numbered (0 + joins ops) :=
      run_numbered decodeError hzero (by omega)
    exact hagrees.unseatedInert hnumbered decodeError
  · exact along_of_forall (step_grows decodeError) {} ops

theorem join_refused {s : BrokerState} {ch p : String} {handle : PeerHandle}
    (hseat : s.Seat ch p handle) (deviceId pairingId : Option String) :
    (s.join ch p .surface deviceId pairingId).1 =
      { s with nextConnectionId := bumpConnectionId s.nextConnectionId } := by
  obtain ⟨room, hroom, hget⟩ := hseat
  unfold join
  dsimp only
  rw [if_pos]
  simp [hroom, hget, replaceable]

theorem run_refused (decodeError : Json → String) {s : BrokerState} {ch p : String}
    {handle : PeerHandle} (hseat : s.Seat ch p handle) {n : Nat}
    (hn : s.nextConnectionId + n < 2 ^ 64) :
    run (step decodeError) s (List.replicate n (.join ch p .surface none none)) =
      { s with nextConnectionId := s.nextConnectionId + n } := by
  induction n generalizing s with
  | zero => rfl
  | succ n ih =>
    have hone : s.step decodeError (.join ch p .surface none none) =
        { s with nextConnectionId := s.nextConnectionId + 1 } := by
      rw [← bumpConnectionId_eq (by omega)]
      exact join_refused hseat none none
    have hrest := ih (s := { s with nextConnectionId := s.nextConnectionId + 1 }) hseat
      (by dsimp only; omega)
    rw [List.replicate_succ, run_cons, hone, hrest]
    congr 1
    dsimp only
    omega

theorem leaveConnection_gone {s : BrokerState} {ch p : String} {handle : PeerHandle}
    (hseat : s.Seat ch p handle) (other : PeerHandle) :
    ¬ (s.leaveConnection ch p handle.connectionId).Seat ch p other := by
  obtain ⟨room, hroom, hget⟩ := hseat
  have hleave : s.leaveConnection ch p handle.connectionId =
      if room.erase p = ∅ then
        { s.unseat ch room p handle with rooms := (s.unseat ch room p handle).rooms.erase ch }
      else s.unseat ch room p handle := by
    simp only [leaveConnection, leaveInner, hroom, hget, Option.any_some, ne_eq, not_true_eq_false,
      decide_false, Bool.false_eq_true, if_false]
  rw [hleave]
  split_ifs
  · rintro ⟨room', hroom', -⟩
    rw [Table.getElem?_erase_of, if_pos rfl] at hroom'
    cases hroom'
  · intro hseat
    exact ((seat_unseat hroom _).mp hseat).2 ⟨rfl, rfl⟩

@[simp] theorem toList_empty : (∅ : RoomState).toList = [] :=
  Std.ExtTreeMap.toList_eq_nil_iff.mpr rfl

def oneRelay (given : Nat) : BrokerState where
  rooms := (∅ : Table RoomState).insert "room"
    ((∅ : RoomState).insert "relay" ⟨1, .relay, none, none, 0⟩)
  nextConnectionId := given
  inboxes := [[]]
  connections := [⟨"room", "relay", 1, []⟩]

theorem oneRelay_seat (given : Nat) :
    (oneRelay given).Seat "room" "relay" ⟨1, .relay, none, none, 0⟩ :=
  ⟨(∅ : RoomState).insert "relay" ⟨1, .relay, none, none, 0⟩, by simp [oneRelay], by simp⟩

theorem run_oneRelay :
    run (step fun _ => "") {} [.join "room" "relay" .relay none none] = oneRelay 1 := by
  simp [oneRelay, step, join, seat, sendTo, superseded, bumpConnectionId, without, txs, postAll]

/-- A relay joins, every other number is used up by refused joins, and the relay joins again. -/
def wrappingRun : List BrokerOp :=
  [.join "room" "relay" .relay none none] ++
    List.replicate (2 ^ 64 - 2) (.join "room" "relay" .surface none none) ++
    [.join "room" "relay" .relay none none]

theorem run_wrappingRun :
    run (step fun _ => "") {} wrappingRun =
      (oneRelay (2 ^ 64 - 1)).step (fun _ => "") (.join "room" "relay" .relay none none) := by
  have hrefused := run_refused (fun _ => "") (oneRelay_seat 1) (n := 2 ^ 64 - 2)
    (by simp [oneRelay])
  rw [wrappingRun, run_append, run_append, run_oneRelay, hrefused]
  rfl

/-- The same ticket is seated in two channels at once, and after the numbers have come round
the connection that was replaced can remove its successor. -/
theorem ticket_in_two_channels_and_reused_number :
    (∃ hp hq : PeerHandle,
      let s := run (step fun _ => "") {}
        [.join "room-a" "surface-1" .surface none (some "pairing"),
          .join "room-b" "surface-2" .surface none (some "pairing")]
      s.Seat "room-a" "surface-1" hp ∧ s.Seat "room-b" "surface-2" hq ∧
        hp.pairingId = some "pairing" ∧ hq.pairingId = some "pairing") ∧
    ¬ (run (step fun _ => "") {} wrappingRun).UnseatedInert (fun _ => "") := by
  refine ⟨⟨⟨1, .surface, none, some "pairing", 0⟩, ⟨2, .surface, none, some "pairing", 1⟩, ?_⟩, ?_⟩
  · simp [step, join, seat, sendTo, superseded, bumpConnectionId, Seat,
      Std.ExtTreeMap.getElem_insert]
  · rw [run_wrappingRun]
    generalize hs : (oneRelay (2 ^ 64 - 1)).step (fun _ => "")
      (.join "room" "relay" .relay none none) = s
    have hrooms : s.rooms[("room" : String)]? = some (((∅ : RoomState).insert "relay"
        ⟨1, .relay, none, none, 0⟩).insert "relay" ⟨1, .relay, none, none, 1⟩) := by
      rw [← hs]
      simp [oneRelay, step, join, seat, sendTo, superseded, bumpConnectionId, replaceable]
    have hconn : s.connections[0]? = some ⟨"room", "relay", 1, []⟩ := by
      rw [← hs]
      simp [oneRelay, step, join, seat, sendTo, superseded, bumpConnectionId, replaceable]
    intro hinert
    have hout : s.Unseated 0 ⟨"room", "relay", 1, []⟩ := by
      rintro handle ⟨room, hroom, hget⟩
      obtain rfl := Option.some.inj (hrooms.symm.trans hroom)
      simp only [Std.ExtTreeMap.getElem?_insert_self] at hget
      rw [← Option.some.inj hget]
      decide
    have hleave := (hinert 0 _ hconn hout).1
    have hseated : s.Seat "room" "relay" ⟨1, .relay, none, none, 1⟩ := ⟨_, hrooms, by simp⟩
    have hgone : ¬ (s.leaveConnection "room" "relay" 1).Seat "room" "relay"
        ⟨1, .relay, none, none, 1⟩ := leaveConnection_gone hseated _
    rw [hleave] at hgone
    exact hgone hseated

end BrokerState

end AgentRelay.Broker
