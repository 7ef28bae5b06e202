import AgentRelay.PairingDesk

/-! One key per pairing ticket. The book of tickets is what the desk knows of them; one
lemma says everything a step of the desk can do to the book, and the rest is about books. -/
namespace AgentRelay.Relay
open Std StepRun

namespace SurfaceState

theorem getElem?_prune_pendingPairings (s : SurfaceState) (now : Nat) (k : String) :
    (s.pruneExpiredPairings now).pendingPairings[k]? =
      s.pendingPairings[k]?.filter fun pairing => now < pairing.expiresAt := by
  simp [pruneExpiredPairings]

theorem getElem?_prune_pendingPairingRequests (s : SurfaceState) (now : Nat) (k : String) :
    (s.pruneExpiredPairings now).pendingPairingRequests[k]? =
      s.pendingPairingRequests[k]?.filter fun _ =>
        (s.pruneExpiredPairings now).pendingPairings.contains k := by
  simp [pruneExpiredPairings]

theorem ticket_of_request {s : SurfaceState} {now : Nat} {k : String} {r : PendingPairingRequest}
    (h : (s.pruneExpiredPairings now).pendingPairingRequests[k]? = some r) :
    ∃ p, (s.pruneExpiredPairings now).pendingPairings[k]? = some p := by
  rw [getElem?_prune_pendingPairingRequests, Option.filter_eq_some_iff] at h
  rw [← Option.isSome_iff_exists, ← ExtTreeMap.contains_eq_isSome_getElem?]
  exact h.2

theorem prune_of_kept {s : SurfaceState} {now : Nat}
    (hpending : (s.pendingPairings.filter fun _ pairing => decide (now < pairing.expiresAt)) =
      s.pendingPairings)
    (hrequests : (s.pendingPairingRequests.filter fun pairingId _ =>
      s.pendingPairings.contains pairingId) = s.pendingPairingRequests) :
    s.pruneExpiredPairings now = s := by
  unfold pruneExpiredPairings
  simp only [hpending, hrequests]

theorem prune_erase_request (s : SurfaceState) (now : Nat) (k : String) :
    { s.pruneExpiredPairings now with
        pendingPairingRequests :=
          (s.pruneExpiredPairings now).pendingPairingRequests.erase k }.pruneExpiredPairings now =
      { s.pruneExpiredPairings now with
        pendingPairingRequests :=
          (s.pruneExpiredPairings now).pendingPairingRequests.erase k } := by
  apply prune_of_kept
  · apply ExtTreeMap.ext_getElem?
    intro a
    rw [Table.getElem?_filter, getElem?_prune_pendingPairings, Option.filter_filter]
    simp
  · apply ExtTreeMap.ext_getElem?
    intro a
    rw [Table.getElem?_filter, Table.getElem?_erase_of, getElem?_prune_pendingPairingRequests]
    split_ifs
    · rfl
    · rw [Option.filter_filter]
      simp

def approvedDevice (s : SurfaceState) (now : Nat) (request : PendingPairingRequest)
    (deviceId : String) (pathScope : List String) (brokerJoinTicketExpiresAt : Option Nat)
    (payloadSecret : String) : PairedDevice :=
  { deviceId := (s.pairedDevices[deviceId]?.map (·.deviceId)).getD deviceId
    label := normalizeDeviceLabel (some request.label) request.deviceId
    payloadSecret := payloadSecret
    deviceVerifyKey := request.deviceVerifyKey
    createdAt := (s.pairedDevices[deviceId]?.map (·.createdAt)).getD now
    lastSeenAt := some now
    lastPeerId := some request.brokerPeerId
    brokerJoinTicketExpiresAt := brokerJoinTicketExpiresAt
    pathScope := pathScope }

section
variable {sha256Hex : String → String} {s : SurfaceState} {now : Nat} {pairingId : String}

theorem decide_of_no_request (approved : Bool) (expiresAt : Option Nat)
    (idToken payloadSecret : String)
    (h : (s.pruneExpiredPairings now).pendingPairingRequests[pairingId]? = none) :
    s.decidePairingRequest sha256Hex now pairingId approved expiresAt idToken payloadSecret =
      (s.pruneExpiredPairings now, .error "pairing request is not waiting for approval") := by
  simp [decidePairingRequest, h]

theorem decide_approved {r : PendingPairingRequest} {p : PendingPairing} (expiresAt : Option Nat)
    (idToken payloadSecret : String)
    (hr : (s.pruneExpiredPairings now).pendingPairingRequests[pairingId]? = some r)
    (hp : (s.pruneExpiredPairings now).pendingPairings[pairingId]? = some p)
    (hsealed : p.secretHash = sha256Hex p.pairingSecret) :
    let deviceId := (normalizeRemoteDeviceId (some r.deviceId)).getD (freshDeviceId idToken)
    let device := s.approvedDevice now r deviceId p.pathScope expiresAt payloadSecret
    let pruned := s.pruneExpiredPairings now
    s.decidePairingRequest sha256Hex now pairingId true expiresAt idToken payloadSecret =
      (({ pruned with
          pendingPairingRequests := pruned.pendingPairingRequests.erase pairingId
          pendingPairings := pruned.pendingPairings.erase pairingId
          pairedDevices := pruned.pairedDevices.insert deviceId device }.bindSurfacePeerToDevice
            device.deviceId r.brokerPeerId).syncDeviceRecordFromApprovedDevice device now,
        .ok ⟨pairingId, r.brokerPeerId, p.pairingSecret, some device, some payloadSecret,
          expiresAt, none⟩) := by
  simp only [decidePairingRequest, hr, hp, consumePairingTicket, prune_erase_request, ↓reduceIte,
    hsealed, ne_eq, not_true_eq_false]
  rfl

theorem decide_rejected {r : PendingPairingRequest} {p : PendingPairing} (expiresAt : Option Nat)
    (idToken payloadSecret : String)
    (hr : (s.pruneExpiredPairings now).pendingPairingRequests[pairingId]? = some r)
    (hp : (s.pruneExpiredPairings now).pendingPairings[pairingId]? = some p) :
    s.decidePairingRequest sha256Hex now pairingId false expiresAt idToken payloadSecret =
      ({ s.pruneExpiredPairings now with
          pendingPairingRequests :=
            (s.pruneExpiredPairings now).pendingPairingRequests.erase pairingId
          pendingPairings :=
            (s.pruneExpiredPairings now).pendingPairings.erase pairingId }.recordRejectedDevice r now,
        .ok ⟨pairingId, r.brokerPeerId, p.pairingSecret, none, none, none,
          some "pairing request was rejected on the local relay"⟩) := by
  simp [decidePairingRequest, hr, hp]

/-- A registration is refused, or it is filed on a pending ticket whose request, if it has
one, carries the same key. -/
theorem register_cases (s : SurfaceState) (now : Nat) (pairingId : String)
    (requestedDeviceId deviceLabel : Option String) (peerId deviceVerifyKey idToken : String) :
    (∃ error, s.registerPairingRequest now pairingId requestedDeviceId deviceLabel peerId
        deviceVerifyKey idToken = (s.pruneExpiredPairings now, .error error)) ∨
    ∃ r : PendingPairingRequest, r.deviceVerifyKey = deviceVerifyKey ∧
      (s.pruneExpiredPairings now).pendingPairings[pairingId]?.isSome ∧
      (∀ old ∈ (s.pruneExpiredPairings now).pendingPairingRequests[pairingId]?,
        old.deviceVerifyKey = deviceVerifyKey ∧ r.pairingId = old.pairingId) ∧
      ((s.pruneExpiredPairings now).pendingPairingRequests[pairingId]? = none →
        r.pairingId = pairingId) ∧
      r.deviceId = (normalizeRemoteDeviceId requestedDeviceId).getD
        (((s.pruneExpiredPairings now).pendingPairingRequests[pairingId]?.map (·.deviceId)).getD
          (freshDeviceId idToken)) ∧
      s.registerPairingRequest now pairingId requestedDeviceId deviceLabel peerId
        deviceVerifyKey idToken =
          ({ s.pruneExpiredPairings now with pendingPairingRequests :=
              (s.pruneExpiredPairings now).pendingPairingRequests.insert pairingId r }, .ok r) := by
  cases hp : (s.pruneExpiredPairings now).pendingPairings[pairingId]? with
  | none =>
    left
    simp only [registerPairingRequest, hp]
    exact ⟨_, rfl⟩
  | some ticket =>
    cases hr : (s.pruneExpiredPairings now).pendingPairingRequests[pairingId]? with
    | none =>
      right
      simp only [registerPairingRequest, hp, hr]
      exact ⟨_, rfl, rfl, by simp, fun _ => rfl, rfl, rfl⟩
    | some old =>
      by_cases hkey : old.deviceVerifyKey = deviceVerifyKey
      · right
        simp only [registerPairingRequest, hp, hr, hkey, ne_eq, not_true_eq_false, ↓reduceIte]
        refine ⟨_, ?_, rfl, ?_, ?_, rfl, rfl⟩
        · rfl
        · simp [hkey]
        · simp
      · left
        simp only [registerPairingRequest, hp, hr, ne_eq, hkey, not_false_eq_true, ↓reduceIte]
        exact ⟨_, rfl⟩

end

end SurfaceState

structure TicketBook where
  pending : Table PendingPairing
  requests : Table PendingPairingRequest
  completed : Table CompletedPairing
  flows : List ApprovalFlow

namespace TicketBook

def prune (b : TicketBook) (now : Nat) : TicketBook :=
  let pending := b.pending.filter fun _ pairing => now < pairing.expiresAt
  { b with
    pending := pending
    requests := b.requests.filter fun pairingId _ => pending.contains pairingId
    completed := b.completed.filter fun _ pairing => now < pairing.expiresAt }

def file (b : TicketBook) (r : PendingPairingRequest) : TicketBook :=
  { b with requests := b.requests.insert r.pairingId r }

def settle (b : TicketBook) (pairingId : String) (completed : CompletedPairing) : TicketBook :=
  { b with
    pending := b.pending.erase pairingId
    requests := b.requests.erase pairingId
    completed := b.completed.insert pairingId completed }

def handBack (b : TicketBook) (i : Nat) (flow : ApprovalFlow) : TicketBook :=
  { b with flows := b.flows.eraseIdx i }.file flow.request

inductive Step (sha256Hex : String → String) (b : TicketBook) :
    Option PairingEvent → TicketBook → Prop
  | idle : Step sha256Hex b none b
  | prune (now : Nat) : Step sha256Hex b none (b.prune now)
  | prepare (now : Nat) (p : PendingPairing) (hsealed : p.secretHash = sha256Hex p.pairingSecret) :
    Step sha256Hex b (some (.prepared p.pairingId))
      { b.prune now with pending := (b.prune now).pending.insert p.pairingId p }
  | register (now : Nat) (r : PendingPairingRequest)
      (hticket : (b.prune now).pending[r.pairingId]?.isSome)
      (hkey : ∀ old ∈ (b.prune now).requests[r.pairingId]?,
        old.deviceVerifyKey = r.deviceVerifyKey) :
    Step sha256Hex b (some (.registered r.pairingId r.deviceVerifyKey)) ((b.prune now).file r)
  | claim (now : Nat) (pairingId : String) (r : PendingPairingRequest)
      (hr : (b.prune now).requests[pairingId]? = some r) :
    Step sha256Hex b none
      { b.prune now with
        requests := (b.prune now).requests.erase pairingId
        flows := (b.prune now).flows ++ [⟨pairingId, r, now⟩] }
  | restore (i : Nat) (flow : ApprovalFlow) (hflow : b.flows[i]? = some flow) :
    Step sha256Hex b none (b.handBack i flow)
  | late (i : Nat) (flow : ApprovalFlow) (hflow : b.flows[i]? = some flow)
      (hr : ((b.handBack i flow).prune flow.now).requests[flow.pairingId]? = none) :
    Step sha256Hex b none ((b.handBack i flow).prune flow.now)
  | approve (i : Nat) (flow : ApprovalFlow) (r : PendingPairingRequest)
      (completed : CompletedPairing) (deviceId : String) (hflow : b.flows[i]? = some flow)
      (hr : ((b.handBack i flow).prune flow.now).requests[flow.pairingId]? = some r)
      (hkey : completed.deviceVerifyKey = r.deviceVerifyKey) :
    Step sha256Hex b (some (.approved flow.pairingId r.deviceVerifyKey deviceId))
      (((b.handBack i flow).prune flow.now).settle flow.pairingId completed)
  | reject (now : Nat) (pairingId : String) (r : PendingPairingRequest)
      (completed : CompletedPairing) (hr : (b.prune now).requests[pairingId]? = some r)
      (hkey : completed.deviceVerifyKey = r.deviceVerifyKey) :
    Step sha256Hex b none ((b.prune now).settle pairingId completed)
  | deliver (now : Nat) (pairingId : String) (completed : CompletedPairing) (secret : String)
      (hc : (b.prune now).completed[pairingId]? = some completed) :
    Step sha256Hex b (some (.delivered pairingId completed.deviceVerifyKey secret)) (b.prune now)

structure Filed (sha256Hex : String → String) (b : TicketBook) : Prop where
  requests : ∀ (k : String) r, b.requests[k]? = some r → r.pairingId = k
  flows : ∀ flow ∈ b.flows, flow.request.pairingId = flow.pairingId
  sealed : ∀ (k : String) p, b.pending[k]? = some p → p.secretHash = sha256Hex p.pairingSecret

end TicketBook

namespace PairingDesk

def book (desk : PairingDesk) : TicketBook :=
  ⟨desk.surfaces.pendingPairings, desk.surfaces.pendingPairingRequests, desk.completedPairings,
    desk.flows⟩

section
variable {sha256Hex : String → String} {desk : PairingDesk} {now : Nat} {pairingId : String}

theorem book_attachCredential {completed : CompletedPairing} (credential : DeviceBrokerCredential)
    (now : Nat) (hc : desk.completedPairings[pairingId]? = some completed) :
    ∃ completed' : CompletedPairing, completed'.deviceVerifyKey = completed.deviceVerifyKey ∧
      (desk.attachPairingBrokerCredential pairingId credential now).1.book =
        { desk.book with completed := desk.book.completed.insert pairingId completed' } := by
  simp only [attachPairingBrokerCredential, hc]
  refine ⟨{ completed with
    deviceRefreshToken := credential.refreshToken
    deviceJoinTicket := some credential.joinToken
    deviceJoinTicketExpiresAt := credential.joinExpiresAt }, rfl, ?_⟩
  split
  · rfl
  · split <;> rfl

theorem book_attachGrant {completed : CompletedPairing} (grant : ClientBrokerGrant)
    (hc : desk.completedPairings[pairingId]? = some completed) :
    ∃ completed' : CompletedPairing, completed'.deviceVerifyKey = completed.deviceVerifyKey ∧
      (desk.attachPairingClientGrant pairingId grant).1.book =
        { desk.book with completed := desk.book.completed.insert pairingId completed' } := by
  simp only [attachPairingClientGrant, hc]
  refine ⟨_, ?_, rfl⟩
  rfl

theorem decide_none (approved : Bool) (expiresAt : Option Nat) (idToken payloadSecret : String)
    (hr : (desk.book.prune now).requests[pairingId]? = none) :
    desk.decidePairingRequest sha256Hex now pairingId approved expiresAt idToken payloadSecret =
      (desk.pruneExpiredPairings now, .error "pairing request is not waiting for approval") := by
  have hr' : (desk.surfaces.pruneExpiredPairings now).pendingPairingRequests[pairingId]? = none := hr
  simp only [decidePairingRequest, SurfaceState.decide_of_no_request _ _ _ _ hr', hr']
  rfl

theorem decide_some (hfiled : desk.book.Filed sha256Hex) {r : PendingPairingRequest}
    (approved : Bool) (expiresAt : Option Nat) (idToken payloadSecret : String)
    (hr : (desk.book.prune now).requests[pairingId]? = some r) :
    ∃ (decided : PairingDesk) (completed : CompletedPairing) (result : PendingPairingResult),
      desk.decidePairingRequest sha256Hex now pairingId approved expiresAt idToken payloadSecret =
        (decided, .ok result) ∧
      decided.book = (desk.book.prune now).settle pairingId completed ∧
      completed.deviceVerifyKey = r.deviceVerifyKey ∧ result.pairingId = pairingId ∧
      (approved = true → ∃ device, result.device = some device ∧
        device.deviceVerifyKey = r.deviceVerifyKey) := by
  have hr' : (desk.surfaces.pruneExpiredPairings now).pendingPairingRequests[pairingId]? =
    some r := hr
  obtain ⟨p, hp⟩ := SurfaceState.ticket_of_request hr'
  have hsealed : p.secretHash = sha256Hex p.pairingSecret := by
    apply hfiled.sealed pairingId
    rw [SurfaceState.getElem?_prune_pendingPairings] at hp
    exact (Option.filter_eq_some_iff.mp hp).1
  cases approved with
  | true =>
    simp only [decidePairingRequest, hr', hp,
      SurfaceState.decide_approved expiresAt idToken payloadSecret hr' hp hsealed]
    refine ⟨_, _, _, rfl, rfl, ?_, ?_, ?_⟩
    · rfl
    · rfl
    · intro _
      exact ⟨_, rfl, rfl⟩
  | false =>
    simp only [decidePairingRequest, hr', hp,
      SurfaceState.decide_rejected expiresAt idToken payloadSecret hr' hp]
    refine ⟨_, _, _, rfl, rfl, ?_, ?_, ?_⟩
    · rfl
    · rfl
    · simp

theorem settle_insert (b : TicketBook) (completed completed' : CompletedPairing) :
    { b.settle pairingId completed with
        completed := (b.settle pairingId completed).completed.insert pairingId completed' } =
      b.settle pairingId completed' := by
  have : (b.completed.insert pairingId completed).insert pairingId completed' =
      b.completed.insert pairingId completed' := by
    apply ExtTreeMap.ext_getElem?
    intro a
    simp only [Table.getElem?_insert_of]
    split_ifs <;> rfl
  simp only [TicketBook.settle, this]

theorem getElem?_settle (b : TicketBook) (completed : CompletedPairing) :
    (b.settle pairingId completed).completed[pairingId]? = some completed := by
  simp [TicketBook.settle]

theorem book_finishApproval {flow : ApprovalFlow} {r : PendingPairingRequest}
    (hfiled : (desk.restorePairingRequest flow.request).book.Filed sha256Hex)
    (credential : DeviceBrokerCredential) (grant : Option ClientBrokerGrant)
    (idToken payloadSecret : String)
    (hr : ((desk.restorePairingRequest flow.request).book.prune
      flow.now).requests[flow.pairingId]? = some r) :
    ∃ completed : CompletedPairing, completed.deviceVerifyKey = r.deviceVerifyKey ∧
      (desk.finishApproval sha256Hex flow credential grant idToken payloadSecret).1.book =
        ((desk.restorePairingRequest flow.request).book.prune flow.now).settle flow.pairingId
          completed := by
  obtain ⟨decided, first, result, hdecided, hbook, hkey, -, -⟩ :=
    decide_some hfiled true credential.joinExpiresAt idToken payloadSecret hr
  have hfirst : decided.completedPairings[flow.pairingId]? = some first := by
    change decided.book.completed[flow.pairingId]? = some first
    rw [hbook, getElem?_settle]
  obtain ⟨second, hkey₂, hbook₂⟩ := book_attachCredential credential flow.now hfirst
  simp only [finishApproval, hdecided]
  rw [hbook, settle_insert] at hbook₂
  generalize hattached : decided.attachPairingBrokerCredential flow.pairingId credential flow.now =
    attached at hbook₂ ⊢
  obtain ⟨attached, outcome⟩ := attached
  cases outcome with
  | error error => exact ⟨second, hkey₂.trans hkey, hbook₂⟩
  | ok _ =>
    cases grant with
    | none => exact ⟨second, hkey₂.trans hkey, hbook₂⟩
    | some grant =>
      have hsecond : attached.completedPairings[flow.pairingId]? = some second := by
        change attached.book.completed[flow.pairingId]? = some second
        rw [hbook₂, getElem?_settle]
      obtain ⟨third, hkey₃, hbook₃⟩ := book_attachGrant grant hsecond
      rw [hbook₂, settle_insert] at hbook₃
      refine ⟨third, hkey₃.trans (hkey₂.trans hkey), ?_⟩
      dsimp only
      split <;> simp_all

theorem book_challenge (now : Nat) (deviceId peerId idToken challenge : String) :
    (desk.setSurfaces (desk.surfaces.issueClaimChallenge now deviceId peerId idToken
      challenge).1).book = desk.book := by
  unfold SurfaceState.issueClaimChallenge
  dsimp only
  split <;> rfl

theorem book_seen (now : Nat) (deviceId peerId : String) :
    (desk.setSurfaces (desk.surfaces.markPairedDeviceSeen now deviceId peerId).1).book =
      desk.book := by
  unfold SurfaceState.markPairedDeviceSeen
  split <;> rfl

theorem claimChallenge_fst (desk : PairingDesk) (now : Nat) (deviceId challengeId peerId : String) :
    (desk.surfaces.claimChallenge now deviceId challengeId peerId).1 =
      desk.surfaces.pruneExpiredClaimChallenges now := by
  unfold SurfaceState.claimChallenge
  dsimp only
  split
  · rfl
  · split_ifs <;> rfl

theorem book_claim (now : Nat) (deviceId challengeId peerId : String) :
    (desk.setSurfaces (desk.surfaces.completeRemoteClaim now deviceId challengeId peerId).1).book =
      desk.book := by
  have hclaim := desk.claimChallenge_fst now deviceId challengeId peerId
  unfold SurfaceState.completeRemoteClaim
  generalize desk.surfaces.claimChallenge now deviceId challengeId peerId = claimed at hclaim ⊢
  obtain ⟨surfaces, outcome⟩ := claimed
  obtain rfl : surfaces = _ := hclaim
  cases outcome with
  | error error => rfl
  | ok challenge =>
    dsimp only
    split <;> rfl

theorem book_revoke (now : Nat) (deviceId : String) :
    (desk.revokePairedDevice now deviceId).1.book = desk.book := by
  unfold revokePairedDevice RelayState.revokePairedDevice
  cases desk.relay.surfaces.pairedDevices[deviceId]? with
  | none => rfl
  | some device =>
    simp only [↓reduceIte]
    unfold RelayState.clearOrchestratorPinIfDevice
    split_ifs <;> rfl

theorem book_revokeAllOthers (now : Nat) (keepDeviceId : String) :
    (desk.revokeAllOtherPairedDevices now keepDeviceId).1.book = desk.book := by
  have hfold : ∀ (ids : List String) (d : PairingDesk),
      (ids.foldl (fun d deviceId => (d.revokePairedDevice now deviceId).1) d).book = d.book := by
    intro ids
    induction ids with
    | nil => intro d; rfl
    | cons id ids ih =>
      intro d
      rw [List.foldl_cons, ih, book_revoke]
  unfold revokeAllOtherPairedDevices
  split_ifs
  · exact hfold _ _
  · rfl

theorem handBack_eq {i : Nat} {flow : ApprovalFlow} :
    ({ desk with flows := desk.flows.eraseIdx i }.restorePairingRequest flow.request).book =
      desk.book.handBack i flow := rfl

end

end PairingDesk

namespace TicketBook

theorem Filed.handBack {sha256Hex : String → String} {b : TicketBook} (h : b.Filed sha256Hex)
    {i : Nat} {flow : ApprovalFlow} : (b.handBack i flow).Filed sha256Hex := by
  constructor
  · intro k r hr
    simp only [TicketBook.handBack, file, Table.getElem?_insert_of] at hr
    split_ifs at hr with hk
    · rw [hk, ← Option.some.inj hr]
    · exact h.requests k r hr
  · intro f hf
    exact h.flows f (List.mem_of_mem_eraseIdx hf)
  · exact h.sealed

end TicketBook

namespace PairingDesk
variable {sha256Hex : String → String} {desk : PairingDesk}

/-- Everything a step of the desk can do to its book. -/
theorem step_book (hfiled : desk.book.Filed sha256Hex) (op : PairingOp) :
    desk.book.Step sha256Hex (desk.event sha256Hex op) (desk.step sha256Hex op).book := by
  cases op with
  | prepare now ttl pathScope idToken pairingSecret =>
    exact .prepare now ⟨"pair-" ++ Text.toAsciiLowercase idToken, pairingSecret,
      sha256Hex pairingSecret, now, _, pathScope⟩ rfl
  | register now pairingId requestedDeviceId deviceLabel peerId deviceVerifyKey idToken =>
    simp only [step, event, registerPairingRequest]
    obtain ⟨error, heq⟩ | ⟨r, rfl, hticket, hold, hnew, -, heq⟩ :=
      desk.surfaces.register_cases now pairingId requestedDeviceId deviceLabel peerId
        deviceVerifyKey idToken
    · rw [heq]
      exact .prune now
    · rw [heq]
      have hid : r.pairingId = pairingId := by
        cases hr : (desk.surfaces.pruneExpiredPairings now).pendingPairingRequests[pairingId]? with
        | none => exact hnew hr
        | some old =>
          rw [(hold old hr).2]
          apply hfiled.requests pairingId
          rw [SurfaceState.getElem?_prune_pendingPairingRequests] at hr
          exact (Option.filter_eq_some_iff.mp hr).1
      subst hid
      exact .register now r hticket fun old hr => (hold old hr).1
  | approve now pairingId =>
    simp only [step, event, beginApproval, SurfaceState.claimPairingRequest]
    cases hr : (desk.surfaces.pruneExpiredPairings now).pendingPairingRequests[pairingId]? with
    | none => exact .prune now
    | some r => exact .claim now pairingId r hr
  | issueFailed i =>
    simp only [step, event]
    cases hflow : desk.flows[i]? with
    | none => exact .idle
    | some flow => exact .restore i flow hflow
  | issued i credential grant idToken payloadSecret =>
    simp only [step, event]
    cases hflow : desk.flows[i]? with
    | none => exact .idle
    | some flow =>
      have hback : ({ desk with flows := desk.flows.eraseIdx i }.restorePairingRequest
          flow.request).book.Filed sha256Hex := hfiled.handBack
      cases hr : ((desk.book.handBack i flow).prune flow.now).requests[flow.pairingId]? with
      | none =>
        have hnone := hr
        rw [← handBack_eq] at hnone
        simp only [Option.bind_some, finishApproval, decide_none _ _ _ _ hnone]
        exact .late i flow hflow hr
      | some r =>
        obtain ⟨decided, -, result, hdecided, -, -, hid, happroved⟩ :=
          decide_some hback true credential.joinExpiresAt idToken payloadSecret hr
        obtain ⟨device, hdevice, hkey⟩ := happroved rfl
        obtain ⟨completed, hcompleted, hbook⟩ :=
          book_finishApproval hback credential grant idToken payloadSecret hr
        simp only [Option.bind_some, hdecided, hdevice, Option.map_some, hid, hkey, hbook]
        exact .approve i flow r completed device.deviceId hflow hr hcompleted
  | reject now pairingId =>
    simp only [step, event]
    cases hr : (desk.book.prune now).requests[pairingId]? with
    | none =>
      rw [decide_none _ _ _ _ hr]
      exact .prune now
    | some r =>
      obtain ⟨decided, completed, result, hdecided, hbook, hkey, -, -⟩ :=
        decide_some hfiled false none "" "" hr
      rw [hdecided, hbook]
      exact .reject now pairingId r completed hr hkey
  | result now pairingId deviceVerifyKey peerId =>
    simp only [step, event, completedPairingResult]
    cases hc : (desk.pruneExpiredPairings now).completedPairings[pairingId]? with
    | none => exact .prune now
    | some completed =>
      by_cases hkey : completed.deviceVerifyKey = deviceVerifyKey
      · subst hkey
        cases hsecret : completed.payloadSecret with
        | none =>
          simp only [hsecret, ne_eq, not_true_eq_false, ↓reduceIte, Option.map_none]
          exact .prune now
        | some secret =>
          simp only [hsecret, ne_eq, not_true_eq_false, ↓reduceIte, Option.map_some]
          exact .deliver now pairingId completed secret hc
      · simp only [ne_eq, hkey, not_false_eq_true, ↓reduceIte]
        exact .prune now
  | challenge now deviceId peerId idToken challenge =>
    simp only [step, event, book_challenge]
    exact .idle
  | claim now deviceId challengeId peerId =>
    simp only [step, event, book_claim]
    exact .idle
  | seen now deviceId peerId =>
    simp only [step, event, book_seen]
    exact .idle
  | revoke now deviceId =>
    simp only [step, event, book_revoke]
    exact .idle
  | revokeAllOthers now keepDeviceId =>
    simp only [step, event, book_revokeAllOthers]
    exact .idle

end PairingDesk

end AgentRelay.Relay
