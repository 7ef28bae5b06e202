import AgentRelay.BrokerRoom
import AgentRelay.StepRun

/-! Every seated connection knows who is seated with it: what its welcome listed and the
presence frames it was sent since add up to the membership of its room. -/
namespace AgentRelay.Broker
open Mailboxes StepRun

def applyFrame (view : Table PeerSummary) : ServerMessage → Table PeerSummary
  | .presence _ .joined peer => view.insert peer.peerId peer
  | .presence _ .left peer => view.erase peer.peerId
  | _ => view

def welcomeView (existingPeers : List PeerSummary) : Table PeerSummary :=
  existingPeers.foldl (fun view peer => view.insert peer.peerId peer) ∅

/-- The peers a connection knows of after its welcome and these frames. -/
def viewOf (existingPeers : List PeerSummary) (inbox : List ServerMessage) : Table PeerSummary :=
  inbox.foldl applyFrame (welcomeView existingPeers)

@[simp] theorem viewOf_nil (existingPeers : List PeerSummary) :
    viewOf existingPeers [] = welcomeView existingPeers := rfl

@[simp] theorem viewOf_concat (existingPeers : List PeerSummary) (inbox : List ServerMessage)
    (frame : ServerMessage) :
    viewOf existingPeers (inbox ++ [frame]) = applyFrame (viewOf existingPeers inbox) frame := by
  simp [viewOf]

namespace BrokerState

def members (room : RoomState) (peerId : String) : Table PeerSummary :=
  (without room peerId).map fun id handle => handle.summary id

theorem getElem?_without (room : RoomState) (peerId q : String) :
    (without room peerId)[q]? = if q = peerId then none else room[q]? := by
  rw [without, Table.getElem?_filter]
  split_ifs with hq
  · cases room[q]? <;> simp [Option.filter, hq]
  · cases room[q]? <;> simp [Option.filter, hq]

theorem getElem?_members (room : RoomState) (peerId q : String) :
    (members room peerId)[q]? = if q = peerId then none else room[q]?.map (·.summary q) := by
  rw [members, Std.ExtTreeMap.getElem?_map, getElem?_without]
  split_ifs <;> rfl

theorem mem_txs {room : RoomState} {j : Nat} :
    j ∈ txs room ↔ ∃ (q : String) (handle : PeerHandle), room[q]? = some handle ∧ handle.tx = j := by
  unfold txs
  rw [List.mem_map]
  constructor
  · rintro ⟨⟨q, handle⟩, hmem, htx⟩
    exact ⟨q, handle, Std.ExtTreeMap.mem_toList_iff_getElem?_eq_some.mp hmem, htx⟩
  · rintro ⟨q, handle, hget, htx⟩
    exact ⟨(q, handle), Std.ExtTreeMap.mem_toList_iff_getElem?_eq_some.mpr hget, htx⟩

theorem nodup_txs {room : RoomState}
    (hinj : ∀ (p q : String) (hp hq : PeerHandle), room[p]? = some hp → room[q]? = some hq →
      hp.tx = hq.tx → p = q) : (txs room).Nodup := by
  unfold txs
  rw [List.Nodup, List.pairwise_map]
  refine (Std.ExtTreeMap.distinct_keys_toList (t := room)).imp_of_mem ?_
  rintro ⟨p, hp⟩ ⟨q, hq⟩ hpm hqm hne htx
  refine hne ?_
  rw [hinj p q hp hq (Std.ExtTreeMap.mem_toList_iff_getElem?_eq_some.mp hpm)
    (Std.ExtTreeMap.mem_toList_iff_getElem?_eq_some.mp hqm) htx]
  exact Std.ReflCmp.compare_self

theorem getElem?_foldl_insert {peers : List PeerSummary} {view : Table PeerSummary} {q : String}
    {target : Option PeerSummary} (hsame : ∀ peer ∈ peers, peer.peerId = q → target = some peer)
    (h : view[q]? = target ∨ ∃ peer ∈ peers, peer.peerId = q) :
    (peers.foldl (fun view peer => view.insert peer.peerId peer) view)[q]? = target := by
  induction peers generalizing view with
  | nil => simpa using h
  | cons peer peers ih =>
    rw [List.foldl_cons]
    refine ih (fun other hother => hsame other (List.mem_cons_of_mem peer hother)) ?_
    rw [Table.getElem?_insert_of]
    by_cases hq : q = peer.peerId
    · left
      rw [if_pos hq]
      exact (hsame peer List.mem_cons_self hq.symm).symm
    · rw [if_neg hq]
      rcases h with h | ⟨other, hother, hid⟩
      · exact Or.inl h
      · rcases List.mem_cons.mp hother with rfl | hother
        · exact absurd hid.symm hq
        · exact Or.inr ⟨other, hother, hid⟩

theorem welcomeView_members (room : RoomState) (peerId : String) :
    welcomeView ((without room peerId).toList.map fun e => e.2.summary e.1) =
      members room peerId := by
  refine Std.ExtTreeMap.ext_getElem? fun q => getElem?_foldl_insert ?_ ?_
  · intro peer hpeer hid
    obtain ⟨⟨id, handle⟩, hmem, rfl⟩ := List.mem_map.mp hpeer
    obtain rfl : id = q := hid
    have hget := Std.ExtTreeMap.mem_toList_iff_getElem?_eq_some.mp hmem
    rw [members, Std.ExtTreeMap.getElem?_map, hget]
    rfl
  · rw [members, Std.ExtTreeMap.getElem?_map]
    cases hget : (without room peerId)[q]? with
    | none => exact Or.inl (by simp)
    | some handle =>
      refine Or.inr ⟨handle.summary q, List.mem_map.mpr ⟨(q, handle), ?_, rfl⟩, rfl⟩
      exact Std.ExtTreeMap.mem_toList_iff_getElem?_eq_some.mpr hget

structure Agrees (s : BrokerState) : Prop where
  lengths : s.inboxes.length = s.connections.length
  owner : ∀ {ch : String} {room : RoomState} {p : String} {handle : PeerHandle},
    s.rooms[ch]? = some room → room[p]? = some handle →
      ∃ c, s.connections[handle.tx]? = some c ∧ c.channelId = ch ∧ c.peerId = p ∧
        c.connectionId = handle.connectionId
  view : ∀ {ch : String} {room : RoomState} {p : String} {handle : PeerHandle} {c : JoinResult}
    {box : List ServerMessage}, s.rooms[ch]? = some room → room[p]? = some handle →
      s.connections[handle.tx]? = some c → s.inboxes[handle.tx]? = some box →
        viewOf c.existingPeers box = members room p

theorem Agrees.tx_inj {s : BrokerState} (h : s.Agrees) {ch ch' : String} {room room' : RoomState}
    {p q : String} {hp hq : PeerHandle} (hroom : s.rooms[ch]? = some room)
    (hroom' : s.rooms[ch']? = some room') (hgetp : room[p]? = some hp)
    (hgetq : room'[q]? = some hq) (htx : hp.tx = hq.tx) : ch = ch' ∧ p = q := by
  obtain ⟨c, hc, hch, hpeer, -⟩ := h.owner hroom hgetp
  obtain ⟨c', hc', hch', hpeer', -⟩ := h.owner hroom' hgetq
  obtain rfl : c = c' := by
    rw [htx, hc'] at hc
    exact (Option.some.inj hc).symm
  exact ⟨hch.symm.trans hch', hpeer.symm.trans hpeer'⟩

/-- Who sits where. -/
def Seat (s : BrokerState) (ch p : String) (handle : PeerHandle) : Prop :=
  ∃ room, s.rooms[ch]? = some room ∧ room[p]? = some handle

theorem Agrees.nodup_txs {s : BrokerState} (h : s.Agrees) {ch : String} {part : RoomState}
    (hpart : ∀ (q : String) (handle : PeerHandle), part[q]? = some handle → s.Seat ch q handle) :
    (txs part).Nodup := by
  refine BrokerState.nodup_txs fun p q hp hq hgetp hgetq htx => ?_
  obtain ⟨room, hroom, hseat⟩ := hpart p hp hgetp
  obtain ⟨room', hroom', hseat'⟩ := hpart q hq hgetq
  exact (h.tx_inj hroom hroom' hseat hseat' htx).2

theorem Agrees.inbox_sendTo {s : BrokerState} (h : s.Agrees) {ch ch' : String} {part : RoomState}
    (hpart : ∀ (q : String) (handle : PeerHandle), part[q]? = some handle → s.Seat ch q handle)
    {q : String} {handle : PeerHandle} (hseat : s.Seat ch' q handle) (frame : ServerMessage) :
    (s.sendTo part frame).inboxes[handle.tx]? =
      if ch' = ch ∧ part[q]? = some handle then s.inboxes[handle.tx]?.map (· ++ [frame])
      else s.inboxes[handle.tx]? := by
  rw [sendTo, getElem?_postAll (h.nodup_txs hpart)]
  refine if_congr ?_ rfl rfl
  rw [mem_txs]
  obtain ⟨room', hroom', hget⟩ := hseat
  constructor
  · rintro ⟨p, hp, hgetp, htx⟩
    obtain ⟨room, hroom, hget'⟩ := hpart p hp hgetp
    obtain ⟨rfl, rfl⟩ := h.tx_inj hroom hroom' hget' hget htx
    obtain rfl : room = room' := Option.some.inj (hroom.symm.trans hroom')
    obtain rfl : hp = handle := Option.some.inj (hget'.symm.trans hget)
    exact ⟨rfl, hgetp⟩
  · rintro ⟨-, hgetq⟩
    exact ⟨q, handle, hgetq, rfl⟩

theorem getElem?_erase_sub {room : RoomState} {p q : String} {handle : PeerHandle}
    (h : (room.erase p)[q]? = some handle) : room[q]? = some handle ∧ q ≠ p := by
  rw [Table.getElem?_erase_of] at h
  split_ifs at h with hq
  exact ⟨h, hq⟩

theorem members_erase (room : RoomState) {p q : String} (hne : q ≠ p) :
    (members room q).erase p = members (room.erase p) q := by
  refine Std.ExtTreeMap.ext_getElem? fun k => ?_
  rw [Table.getElem?_erase_of, getElem?_members, getElem?_members, Table.getElem?_erase_of]
  by_cases hk : k = p
  · subst hk
    simp [Ne.symm hne]
  · simp [hk]

theorem members_insert (room : RoomState) {p q : String} (hne : q ≠ p) (handle : PeerHandle) :
    (members room q).insert p (handle.summary p) = members (room.insert p handle) q := by
  refine Std.ExtTreeMap.ext_getElem? fun k => ?_
  rw [Table.getElem?_insert_of, getElem?_members, getElem?_members, Table.getElem?_insert_of]
  by_cases hk : k = p
  · subst hk
    simp [Ne.symm hne]
  · simp [hk]

theorem members_insert_self (room : RoomState) (p : String) (handle : PeerHandle) :
    members (room.insert p handle) p = members room p := by
  refine Std.ExtTreeMap.ext_getElem? fun k => ?_
  rw [getElem?_members, getElem?_members, Table.getElem?_insert_of]
  by_cases hk : k = p
  · simp [hk]
  · simp [hk]

theorem unseat_agrees {s : BrokerState} (h : s.Agrees) {ch : String} {room : RoomState}
    (hroom : s.rooms[ch]? = some room) (p : String) (handle : PeerHandle) :
    (s.unseat ch room p handle).Agrees := by
  have hsub : ∀ (q : String) (hq : PeerHandle), (room.erase p)[q]? = some hq →
      room[q]? = some hq := fun q hq hget => (getElem?_erase_sub hget).1
  have hrooms : ∀ {ch' : String} {room' : RoomState},
      (s.unseat ch room p handle).rooms[ch']? = some room' →
        (ch' = ch ∧ room' = room.erase p) ∨ (ch' ≠ ch ∧ s.rooms[ch']? = some room') := by
    intro ch' room' hget
    change (s.rooms.insert ch (room.erase p))[ch']? = _ at hget
    rw [Table.getElem?_insert_of] at hget
    split_ifs at hget with hch
    · exact Or.inl ⟨hch, (Option.some.inj hget).symm⟩
    · exact Or.inr ⟨hch, hget⟩
  have hold : ∀ {ch' : String} {room' : RoomState} {q : String} {hq : PeerHandle},
      (s.unseat ch room p handle).rooms[ch']? = some room' → room'[q]? = some hq →
        s.Seat ch' q hq := by
    intro ch' room' q hq hget hseat
    rcases hrooms hget with ⟨rfl, rfl⟩ | ⟨-, hsame⟩
    · exact ⟨room, hroom, hsub q hq hseat⟩
    · exact ⟨room', hsame, hseat⟩
  refine ⟨?_, ?_, ?_⟩
  · simp only [unseat, sendTo, length_postAll]
    exact h.lengths
  · intro ch' room' q hq hget hseat
    obtain ⟨before, hbefore, hseat'⟩ := hold hget hseat
    exact h.owner hbefore hseat'
  · intro ch' room' q hq c box hget hseat hc hbox
    obtain ⟨before, hbefore, hseat'⟩ := hold hget hseat
    have hinbox := h.inbox_sendTo (fun q hq hget => ⟨room, hroom, hsub q hq hget⟩)
      ⟨before, hbefore, hseat'⟩ (.presence ch .left (handle.summary p))
    change (s.sendTo _ _).inboxes[hq.tx]? = _ at hbox
    rw [hinbox] at hbox
    rcases hrooms hget with ⟨rfl, rfl⟩ | ⟨hch, hsame⟩
    · -- Those who remain take the peer off their list.
      rw [if_pos ⟨rfl, hseat⟩, Option.map_eq_some_iff] at hbox
      obtain ⟨old, hold', rfl⟩ := hbox
      rw [viewOf_concat, h.view hroom (hsub q hq hseat) hc hold']
      exact members_erase room (getElem?_erase_sub hseat).2
    · rw [if_neg fun hboth => hch hboth.1] at hbox
      exact h.view hsame hseat hc hbox

theorem room_of_seat {s : BrokerState} {ch p : String} {handle : PeerHandle}
    (h : (s.rooms[ch]?.getD ∅)[p]? = some handle) :
    s.rooms[ch]? = some (s.rooms[ch]?.getD ∅) := by
  cases hroom : s.rooms[ch]? with
  | none =>
    rw [hroom] at h
    simp at h
  | some room => rfl

theorem rooms_insert_cases {s : BrokerState} {ch ch' p q : String} {room room' : RoomState}
    {handle hq : PeerHandle}
    (hget : (s.rooms.insert ch (room.insert p handle))[ch']? = some room')
    (hseat : room'[q]? = some hq) :
    (ch' = ch ∧ room' = room.insert p handle ∧
      ((q = p ∧ hq = handle) ∨ (q ≠ p ∧ room[q]? = some hq))) ∨
    (ch' ≠ ch ∧ s.rooms[ch']? = some room') := by
  rw [Table.getElem?_insert_of] at hget
  split_ifs at hget with hch
  · obtain rfl : room.insert p handle = room' := Option.some.inj hget
    rw [Table.getElem?_insert_of] at hseat
    split_ifs at hseat with hq'
    · exact Or.inl ⟨hch, rfl, Or.inl ⟨hq', (Option.some.inj hseat).symm⟩⟩
    · exact Or.inl ⟨hch, rfl, Or.inr ⟨hq', hseat⟩⟩
  · exact Or.inr ⟨hch, hget⟩

theorem Agrees.tx_lt {s : BrokerState} (h : s.Agrees) {ch p : String} {handle : PeerHandle}
    (hseat : s.Seat ch p handle) : handle.tx < s.connections.length := by
  obtain ⟨room, hroom, hget⟩ := hseat
  obtain ⟨c, hc, -⟩ := h.owner hroom hget
  exact (List.getElem?_eq_some_iff.mp hc).1

theorem seat_agrees {s : BrokerState} (h : s.Agrees) (ch p : String) (connectionId : Nat)
    (role : PeerRole) (deviceId pairingId : Option String) :
    (s.seat ch p connectionId role deviceId pairingId).1.Agrees := by
  unfold seat
  extract_lets room others result handle told
  have hothers : ∀ (q : String) (hq : PeerHandle), others[q]? = some hq → s.Seat ch q hq := by
    intro q hq hget
    rw [getElem?_without] at hget
    split_ifs at hget
    exact ⟨room, room_of_seat hget, hget⟩
  have hlen : told.inboxes.length = s.connections.length := by
    rw [← h.lengths]
    exact length_postAll ..
  -- The queues and records of the seats there were are found where they stood.
  have hbefore : ∀ {ch' q : String} {hq : PeerHandle}, s.Seat ch' q hq →
      (told.inboxes ++ [[]])[hq.tx]? = told.inboxes[hq.tx]? ∧
        (s.connections ++ [result])[hq.tx]? = s.connections[hq.tx]? := by
    intro ch' q hq hseat
    have hlt := h.tx_lt hseat
    exact ⟨List.getElem?_append_left (by omega), List.getElem?_append_left hlt⟩
  refine ⟨?_, ?_, ?_⟩
  · simp [hlen]
  · intro ch' room' q hq hget hseat
    rcases rooms_insert_cases hget hseat with ⟨rfl, -, ⟨rfl, rfl⟩ | ⟨-, hin⟩⟩ | ⟨-, hsame⟩
    · exact ⟨result, by simp [handle], rfl, rfl, rfl⟩
    · have hold : s.Seat ch' q hq := ⟨room, room_of_seat hin, hin⟩
      dsimp only
      rw [(hbefore hold).2]
      exact h.owner (room_of_seat hin) hin
    · dsimp only
      rw [(hbefore ⟨room', hsame, hseat⟩).2]
      exact h.owner hsame hseat
  · intro ch' room' q hq c box hget hseat hc hbox
    dsimp only at hc hbox
    rcases rooms_insert_cases hget hseat with ⟨rfl, rfl, ⟨rfl, rfl⟩ | ⟨hne, hin⟩⟩ | ⟨hch, hsame⟩
    · -- The newcomer has its welcome and nothing else.
      obtain rfl : result = c := by simpa [handle] using hc
      obtain rfl : [] = box := by simpa [handle, ← hlen] using hbox
      rw [viewOf_nil, members_insert_self]
      exact welcomeView_members room q
    · have hold : s.Seat ch' q hq := ⟨room, room_of_seat hin, hin⟩
      have hother : others[q]? = some hq := by
        rw [getElem?_without, if_neg hne]
        exact hin
      rw [(hbefore hold).2] at hc
      rw [(hbefore hold).1, h.inbox_sendTo hothers hold, if_pos ⟨rfl, hother⟩,
        Option.map_eq_some_iff] at hbox
      obtain ⟨old, hbox', rfl⟩ := hbox
      rw [viewOf_concat, h.view (room_of_seat hin) hin hc hbox']
      exact members_insert room hne handle
    · have hold : s.Seat ch' q hq := ⟨room', hsame, hseat⟩
      rw [(hbefore hold).2] at hc
      rw [(hbefore hold).1, h.inbox_sendTo hothers hold, if_neg fun hboth => hch hboth.1] at hbox
      exact h.view hsame hseat hc hbox

theorem post_agrees {s : BrokerState} (h : s.Agrees) {frame : ServerMessage}
    (hframe : ∀ view, applyFrame view frame = view) (tx : Nat) :
    Agrees { s with inboxes := post s.inboxes tx frame } := by
  refine ⟨?_, fun hroom hget => h.owner hroom hget, ?_⟩
  · rw [length_post]
    exact h.lengths
  · intro ch room p handle c box hroom hget hc hbox
    dsimp only at hbox
    rw [getElem?_post] at hbox
    split_ifs at hbox with htx
    · rw [Option.map_eq_some_iff] at hbox
      obtain ⟨old, hold, rfl⟩ := hbox
      rw [viewOf_concat, hframe]
      exact h.view hroom hget hc hold
    · exact h.view hroom hget hc hbox

theorem supersede_agrees {s : BrokerState} (h : s.Agrees) (ch p : String) :
    (supersede ch s p).Agrees := by
  unfold supersede
  dsimp only
  split
  · exact h
  · rename_i handle hget
    exact unseat_agrees (post_agrees h (fun _ => rfl) handle.tx) (room_of_seat hget) p handle

theorem join_agrees {s : BrokerState} (h : s.Agrees) (ch p : String) (role : PeerRole)
    (deviceId pairingId : Option String) : (s.join ch p role deviceId pairingId).1.Agrees := by
  have hbump : Agrees { s with nextConnectionId := bumpConnectionId s.nextConnectionId } :=
    ⟨h.lengths, h.owner, h.view⟩
  unfold join
  dsimp only
  split_ifs
  · exact hbump
  · refine seat_agrees ?_ ch p _ role deviceId pairingId
    exact run_of_step (I := Agrees) (fun _ q hs => supersede_agrees hs ch q) hbump _

theorem eraseRoom_agrees {s : BrokerState} (h : s.Agrees) (ch : String) :
    Agrees { s with rooms := s.rooms.erase ch } := by
  have hsub : ∀ {ch' : String} {room : RoomState}, (s.rooms.erase ch)[ch']? = some room →
      s.rooms[ch']? = some room := by
    intro ch' room hget
    rw [Table.getElem?_erase_of] at hget
    split_ifs at hget
    exact hget
  exact ⟨h.lengths, fun hroom hget => h.owner (hsub hroom) hget,
    fun hroom hget hc hbox => h.view (hsub hroom) hget hc hbox⟩

theorem leaveInner_agrees {s : BrokerState} (h : s.Agrees) (ch p : String) (expected : Option Nat) :
    (s.leaveInner ch p expected).Agrees := by
  unfold leaveInner
  split
  · exact h
  · rename_i room hroom
    split
    · exact h
    · rename_i handle hget
      split_ifs with hid hempty
      · exact h
      · exact eraseRoom_agrees (unseat_agrees h hroom p handle) ch
      · exact unseat_agrees h hroom p handle

theorem sendTo_agrees {s : BrokerState} (h : s.Agrees) {frame : ServerMessage}
    (hframe : ∀ view, applyFrame view frame = view) (room : RoomState) :
    (s.sendTo room frame).Agrees := by
  unfold sendTo
  generalize txs room = targets
  induction targets generalizing s with
  | nil => exact h
  | cons tx targets ih => exact ih (post_agrees h hframe tx)

theorem sendTargeted_agrees {s : BrokerState} (h : s.Agrees) (room : RoomState)
    (ch fromPeerId : String) (fromRole : PeerRole) (message : TargetedMessagePayload) :
    (sendTargeted room ch fromPeerId fromRole s message).Agrees := by
  unfold sendTargeted
  split_ifs
  · exact h
  · split
    · exact h
    · exact post_agrees h (fun _ => rfl) _

theorem publishInner_agrees {s : BrokerState} (h : s.Agrees) (decodeError : Json → String)
    (ch fromPeerId : String) (expected : Option Nat) (payload : Json) :
    (s.publishInner decodeError ch fromPeerId expected payload).1.Agrees := by
  unfold publishInner
  split
  · exact h
  · split
    · exact h
    · split_ifs
      · exact h
      · split
        · exact h
        · rename_i messages _
          exact run_of_step (I := Agrees)
            (fun _ m hs => sendTargeted_agrees hs _ ch fromPeerId _ m) h messages
      · exact h
      · exact sendTo_agrees h (fun _ => rfl) _

theorem step_agrees (decodeError : Json → String) {s : BrokerState} (h : s.Agrees) (op : BrokerOp) :
    (s.step decodeError op).Agrees := by
  cases op with
  | join ch p role deviceId pairingId => exact join_agrees h ch p role deviceId pairingId
  | leave ch p => exact leaveInner_agrees h ch p none
  | leaveConnection ch p connectionId => exact leaveInner_agrees h ch p (some connectionId)
  | publish ch p payload => exact publishInner_agrees h decodeError ch p none payload
  | publishConnection ch p connectionId payload =>
    exact publishInner_agrees h decodeError ch p (some connectionId) payload

theorem seat_unseat {s : BrokerState} {ch : String} {room : RoomState}
    (hroom : s.rooms[ch]? = some room) (handle : PeerHandle) {p ch' q : String}
    {hq : PeerHandle} :
    (s.unseat ch room p handle).Seat ch' q hq ↔ s.Seat ch' q hq ∧ ¬ (ch' = ch ∧ q = p) := by
  have hget : (s.unseat ch room p handle).rooms[ch']? =
      if ch' = ch then some (room.erase p) else s.rooms[ch']? :=
    Table.getElem?_insert_of s.rooms ch ch' (room.erase p)
  unfold Seat
  rw [hget]
  by_cases hch : ch' = ch
  · subst hch
    simp [hroom, Table.getElem?_erase_of, and_comm]
  · simp [hch]

theorem seat_supersede {s : BrokerState} {ch p ch' q : String} {hq : PeerHandle} :
    (supersede ch s p).Seat ch' q hq ↔ s.Seat ch' q hq ∧ ¬ (ch' = ch ∧ q = p) := by
  unfold supersede
  dsimp only
  split
  · rename_i hnone
    refine ⟨fun hseat => ⟨hseat, ?_⟩, And.left⟩
    rintro ⟨rfl, rfl⟩
    obtain ⟨room, hroom, hget⟩ := hseat
    rw [hroom, Option.getD_some, hget] at hnone
    cases hnone
  · rename_i handle hget
    exact seat_unseat (room_of_seat hget) handle

theorem seat_foldl_supersede {s : BrokerState} {ch ch' q : String} {hq : PeerHandle}
    {gone : List String} :
    (gone.foldl (supersede ch) s).Seat ch' q hq ↔ s.Seat ch' q hq ∧ ¬ (ch' = ch ∧ q ∈ gone) := by
  induction gone generalizing s with
  | nil => simp
  | cons p gone ih =>
    rw [List.foldl_cons, ih, seat_supersede]
    simp only [List.mem_cons]
    tauto

theorem seat_seat {s : BrokerState} {ch p ch' q : String} {connectionId : Nat} {role : PeerRole}
    {deviceId pairingId : Option String} {hq : PeerHandle}
    (h : (s.seat ch p connectionId role deviceId pairingId).1.Seat ch' q hq) :
    (ch' = ch ∧ q = p ∧ hq.pairingId = pairingId) ∨ (¬ (ch' = ch ∧ q = p) ∧ s.Seat ch' q hq) := by
  obtain ⟨room, hroom, hget⟩ := h
  rcases rooms_insert_cases hroom hget with ⟨rfl, -, ⟨rfl, rfl⟩ | ⟨hne, hin⟩⟩ | ⟨hch, hsame⟩
  · exact Or.inl ⟨rfl, rfl, rfl⟩
  · exact Or.inr ⟨fun hboth => hne hboth.2, _, room_of_seat hin, hin⟩
  · exact Or.inr ⟨fun hboth => hch hboth.1, room, hsame, hget⟩

def OneSeatPerTicket (s : BrokerState) : Prop :=
  ∀ (ch p q ticket : String) (hp hq : PeerHandle), s.Seat ch p hp → s.Seat ch q hq →
    hp.pairingId = some ticket → hq.pairingId = some ticket → p = q

theorem OneSeatPerTicket.of_seats {s t : BrokerState} (h : s.OneSeatPerTicket)
    (hsub : ∀ ch p hp, t.Seat ch p hp → s.Seat ch p hp) : t.OneSeatPerTicket :=
  fun ch p q ticket hp hq hseatp hseatq =>
    h ch p q ticket hp hq (hsub ch p hp hseatp) (hsub ch q hq hseatq)

theorem join_oneSeat {s : BrokerState} (h : s.OneSeatPerTicket) (ch p : String) (role : PeerRole)
    (deviceId pairingId : Option String) :
    (s.join ch p role deviceId pairingId).1.OneSeatPerTicket := by
  unfold join
  extract_lets connectionId s' room cleared
  split_ifs
  · exact h
  · -- No one else in the room holds the ticket any more.
    have hcleared : ∀ q hq, cleared.Seat ch q hq → q ≠ p → ∀ ticket, pairingId = some ticket →
        hq.pairingId ≠ some ticket := by
      intro q hq hseat hne ticket hticket hsame
      obtain ⟨⟨room', hroom', hget⟩, hgone⟩ := seat_foldl_supersede.mp hseat
      refine hgone ⟨rfl, ?_⟩
      have hroom : room = room' := by
        change s'.rooms[ch]?.getD ∅ = room'
        rw [hroom', Option.getD_some]
      rw [hticket, superseded, hroom, List.mem_map]
      refine ⟨(q, hq), List.mem_filter.mpr ⟨?_, by simp [hne, hsame]⟩, rfl⟩
      exact Std.ExtTreeMap.mem_toList_iff_getElem?_eq_some.mpr hget
    have hold : cleared.OneSeatPerTicket :=
      OneSeatPerTicket.of_seats (s := s) h fun _ _ _ hseat => (seat_foldl_supersede.mp hseat).1
    intro ch' q r ticket hq hr hseatq hseatr hidq hidr
    rcases seat_seat hseatq with ⟨rfl, rfl, hnew⟩ | ⟨hneq, hoq⟩
    · rcases seat_seat hseatr with ⟨-, rfl, -⟩ | ⟨hner, hor⟩
      · rfl
      · exact absurd hidr (hcleared r hr hor (fun hrq => hner ⟨rfl, hrq⟩) ticket (hnew ▸ hidq))
    · rcases seat_seat hseatr with ⟨rfl, rfl, hnew⟩ | ⟨-, hor⟩
      · exact absurd hidq (hcleared q hq hoq (fun hqr => hneq ⟨rfl, hqr⟩) ticket (hnew ▸ hidr))
      · exact hold ch' q r ticket hq hr hoq hor hidq hidr

theorem leaveInner_seats {s : BrokerState} {ch p : String} {expected : Option Nat} {ch' q : String}
    {hq : PeerHandle} (h : (s.leaveInner ch p expected).Seat ch' q hq) : s.Seat ch' q hq := by
  unfold leaveInner at h
  split at h
  · exact h
  · rename_i room hroom
    split at h
    · exact h
    · rename_i handle _
      split_ifs at h
      · exact h
      · obtain ⟨room', hroom', hget⟩ := h
        rw [Table.getElem?_erase_of] at hroom'
        split_ifs at hroom'
        have hseat : (s.unseat ch room p handle).Seat ch' q hq := ⟨room', hroom', hget⟩
        exact ((seat_unseat hroom _).mp hseat).1
      · exact ((seat_unseat hroom _).mp h).1

theorem publishInner_frame (decodeError : Json → String) (s : BrokerState) (ch fromPeerId : String)
    (expected : Option Nat) (payload : Json) :
    ∃ inboxes, (s.publishInner decodeError ch fromPeerId expected payload).1 =
      { s with inboxes := inboxes } := by
  have htargeted : ∀ (room : RoomState) (role : PeerRole) (messages : List TargetedMessagePayload),
      ∃ inboxes, messages.foldl (sendTargeted room ch fromPeerId role) s =
        { s with inboxes := inboxes } := by
    intro room role messages
    refine run_of_step (I := fun t : BrokerState => ∃ inboxes, t = { s with inboxes := inboxes })
      ?_ ⟨s.inboxes, rfl⟩ messages
    rintro t m ⟨inboxes, rfl⟩
    unfold sendTargeted
    split_ifs
    · exact ⟨_, rfl⟩
    · split
      · exact ⟨_, rfl⟩
      · exact ⟨_, rfl⟩
  unfold publishInner
  split
  · exact ⟨_, rfl⟩
  · split
    · exact ⟨_, rfl⟩
    · split_ifs
      · exact ⟨_, rfl⟩
      · split
        · exact ⟨_, rfl⟩
        · exact htargeted _ _ _
      · exact ⟨_, rfl⟩
      · exact ⟨_, rfl⟩

theorem step_oneSeat (decodeError : Json → String) {s : BrokerState} (h : s.OneSeatPerTicket)
    (op : BrokerOp) : (s.step decodeError op).OneSeatPerTicket := by
  have hpublish : ∀ ch p expected payload,
      (s.publishInner decodeError ch p expected payload).1.OneSeatPerTicket := by
    intro ch p expected payload
    obtain ⟨inboxes, hframe⟩ := publishInner_frame decodeError s ch p expected payload
    rw [hframe]
    exact h
  cases op with
  | join ch p role deviceId pairingId => exact join_oneSeat h ch p role deviceId pairingId
  | leave ch p => exact h.of_seats fun _ _ _ => leaveInner_seats
  | leaveConnection ch p connectionId => exact h.of_seats fun _ _ _ => leaveInner_seats
  | publish ch p payload => exact hpublish ch p none payload
  | publishConnection ch p connectionId payload => exact hpublish ch p (some connectionId) payload

end BrokerState

end AgentRelay.Broker
