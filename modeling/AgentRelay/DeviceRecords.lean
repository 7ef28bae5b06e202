import AgentRelay.TicketKeys

/-! The list of device records beside the pairings. A record is a second copy of the device,
written on approval, on rejection, when the device is heard from and on revocation. -/
namespace AgentRelay.Relay
open Std StepRun

structure DeviceRecord.Describes (record : DeviceRecord) (device : PairedDevice) : Prop where
  approved : record.lifecycleState = .approved
  deviceVerifyKey : record.deviceVerifyKey = device.deviceVerifyKey
  label : record.label = device.label
  pathScope : record.pathScope = device.pathScope

namespace SurfaceState

structure DevicesAgree (s : SurfaceState) : Prop where
  filed : ∀ (id : String) device, s.pairedDevices[id]? = some device → device.deviceId = id
  paired : ∀ (id : String) device, s.pairedDevices[id]? = some device →
    ∃ record, s.deviceRecords[id]? = some record ∧ record.Describes device
  approved : ∀ (id : String) record, s.deviceRecords[id]? = some record →
    record.lifecycleState = .approved → s.pairedDevices.contains id

variable {s t : SurfaceState} {now : Nat}

theorem DevicesAgree.congr (h : s.DevicesAgree) (hpaired : t.pairedDevices = s.pairedDevices)
    (hrecords : t.deviceRecords = s.deviceRecords) : t.DevicesAgree := by
  constructor
  · rw [hpaired]
    exact h.filed
  · rw [hpaired, hrecords]
    exact h.paired
  · rw [hpaired, hrecords]
    exact h.approved

theorem DevicesAgree.sync (h : s.DevicesAgree) (device : PairedDevice)
    (hpaired : t.pairedDevices = s.pairedDevices.insert device.deviceId device)
    (hrecords : t.deviceRecords = s.deviceRecords) :
    (t.syncDeviceRecordFromApprovedDevice device now).DevicesAgree := by
  constructor
  · intro id d hd
    simp only [syncDeviceRecordFromApprovedDevice, hpaired, Table.getElem?_insert_of] at hd
    split_ifs at hd with hid
    · rw [hid, ← Option.some.inj hd]
    · exact h.filed id d hd
  · intro id d hd
    simp only [syncDeviceRecordFromApprovedDevice, hpaired, hrecords,
      Table.getElem?_insert_of] at hd ⊢
    split_ifs at hd ⊢ with hid
    · rw [← Option.some.inj hd]
      exact ⟨_, rfl, rfl, rfl, rfl, rfl⟩
    · exact h.paired id d hd
  · intro id record hr happroved
    simp only [syncDeviceRecordFromApprovedDevice, hpaired, hrecords,
      Table.getElem?_insert_of, ExtTreeMap.contains_eq_isSome_getElem?] at hr ⊢
    split_ifs at hr ⊢ with hid
    · rfl
    · rw [← ExtTreeMap.contains_eq_isSome_getElem?]
      exact h.approved id record hr happroved

theorem DevicesAgree.reject (h : s.DevicesAgree) {request : PendingPairingRequest}
    (hfree : s.pairedDevices.contains request.deviceId = false) :
    (s.recordRejectedDevice request now).DevicesAgree := by
  have hnone : s.pairedDevices[request.deviceId]? = none := by
    rw [ExtTreeMap.contains_eq_isSome_getElem?, Option.isSome_eq_false_iff] at hfree
    exact Option.isNone_iff_eq_none.mp hfree
  constructor
  · exact h.filed
  · intro id d hd
    simp only [recordRejectedDevice, Table.getElem?_insert_of] at hd ⊢
    split_ifs with hid
    · rw [hid, hnone] at hd
      cases hd
    · exact h.paired id d hd
  · intro id record hr happroved
    simp only [recordRejectedDevice, Table.getElem?_insert_of] at hr ⊢
    split_ifs at hr with hid
    · rw [← Option.some.inj hr] at happroved
      cases happroved
    · exact h.approved id record hr happroved

theorem DevicesAgree.revoke (h : s.DevicesAgree) {device : PairedDevice}
    (hpaired : t.pairedDevices = s.pairedDevices.erase device.deviceId)
    (hrecords : t.deviceRecords = s.deviceRecords) :
    (t.recordRevokedDevice device now).DevicesAgree := by
  constructor
  · intro id d hd
    simp only [recordRevokedDevice, hpaired, Table.getElem?_erase_of] at hd
    split_ifs at hd
    exact h.filed id d hd
  · intro id d hd
    simp only [recordRevokedDevice, hpaired, hrecords, Table.getElem?_erase_of,
      Table.getElem?_insert_of] at hd ⊢
    split_ifs at hd ⊢
    exact h.paired id d hd
  · intro id record hr happroved
    simp only [recordRevokedDevice, hpaired, hrecords, Table.getElem?_erase_of,
      Table.getElem?_insert_of, ExtTreeMap.contains_eq_isSome_getElem?] at hr ⊢
    split_ifs at hr ⊢ with hid
    · rw [← Option.some.inj hr] at happroved
      cases happroved
    · rw [← ExtTreeMap.contains_eq_isSome_getElem?]
      exact h.approved id record hr happroved

/-- The entry a paired device is found under is its own id. -/
theorem approvedDevice_deviceId {deviceId : String}
    (hold : ∀ old, s.pairedDevices[deviceId]? = some old → old.deviceId = deviceId) (now : Nat)
    (request : PendingPairingRequest) (pathScope : List String) (expiresAt : Option Nat)
    (payloadSecret : String) :
    (s.approvedDevice now request deviceId pathScope expiresAt payloadSecret).deviceId =
      deviceId := by
  simp only [approvedDevice]
  cases hd : s.pairedDevices[deviceId]? with
  | none => rfl
  | some device => exact hold device hd

end SurfaceState

def PairingOp.rejection : PairingOp → Option (Nat × String)
  | .reject now pairingId => some (now, pairingId)
  | _ => none

namespace PairingDesk
variable {sha256Hex : String → String} {desk : PairingDesk} {now : Nat}

def rejected (desk : PairingDesk) (op : PairingOp) : Option PendingPairingRequest :=
  op.rejection.bind fun r =>
    (desk.surfaces.pruneExpiredPairings r.1).pendingPairingRequests[r.2]?

def SparesPaired (desk : PairingDesk) (op : PairingOp) : Prop :=
  ∀ request ∈ desk.rejected op, desk.surfaces.pairedDevices.contains request.deviceId = false

def RejectKeepsRecord (sha256Hex : String → String) (desk : PairingDesk) (op : PairingOp) : Prop :=
  ∀ request ∈ desk.rejected op, desk.surfaces.pairedDevices.contains request.deviceId →
    (desk.step sha256Hex op).surfaces.deviceRecords[request.deviceId]? =
      desk.surfaces.deviceRecords[request.deviceId]?

structure Forgets (desk : PairingDesk) (deviceId : String) : Prop where
  push : desk.pushSubscriptions[deviceId]? = none
  watch : ∀ (surfaceId : String) watched, desk.surfaces.watchedThreads[surfaceId]? = some watched →
    watched.deviceId ≠ deviceId
  controller : desk.relay.activeControllerDeviceId ≠ some deviceId
  orchestrator : desk.relay.threadMeta.orchestratorDeviceId ≠ some deviceId

def revoked (desk : PairingDesk) : PairingOp → List String
  | .revoke _ deviceId => if desk.surfaces.pairedDevices.contains deviceId then [deviceId] else []
  | .revokeAllOthers _ keepDeviceId =>
    if desk.surfaces.pairedDevices.contains keepDeviceId then
      desk.surfaces.pairedDevices.keys.filter (· ≠ keepDeviceId)
    else []
  | _ => []

def RevokeForgets (sha256Hex : String → String) (desk : PairingDesk) (op : PairingOp) : Prop :=
  ∀ deviceId ∈ desk.revoked op, (desk.step sha256Hex op).Forgets deviceId

/-- What becomes of the devices of a desk and of what is kept of them, change by change: nothing
does, a device is written, or one of `ids` is revoked. -/
inductive Moves (ids : List String) : PairingDesk → PairingDesk → Prop
  | same {desk next} (hpaired : next.surfaces.pairedDevices = desk.surfaces.pairedDevices)
      (hrecords : next.surfaces.deviceRecords = desk.surfaces.deviceRecords)
      (hpush : next.pushSubscriptions = desk.pushSubscriptions) : Moves ids desk next
  | write {desk next} (now : Nat) {deviceId : String} {device : PairedDevice}
      (hid : (∀ old, desk.surfaces.pairedDevices[deviceId]? = some old → old.deviceId = deviceId) →
        device.deviceId = deviceId)
      (hpaired : next.surfaces.pairedDevices =
        desk.surfaces.pairedDevices.insert deviceId device)
      (hrecords : next.surfaces.deviceRecords =
        (desk.surfaces.syncDeviceRecordFromApprovedDevice device now).deviceRecords)
      (hpush : next.pushSubscriptions = desk.pushSubscriptions) : Moves ids desk next
  | revoke {desk next} (now : Nat) {deviceId : String} {device : PairedDevice}
      (hmem : deviceId ∈ ids)
      (hdevice : desk.surfaces.pairedDevices[deviceId]? = some device)
      (hpaired : next.surfaces.pairedDevices = desk.surfaces.pairedDevices.erase deviceId)
      (hrecords : next.surfaces.deviceRecords =
        (desk.surfaces.recordRevokedDevice device now).deviceRecords)
      (hpush : next.pushSubscriptions = desk.pushSubscriptions.erase deviceId) :
      Moves ids desk next
  | trans {desk next last} (h : Moves ids desk next) (h' : Moves ids next last) :
      Moves ids desk last

theorem Moves.refl (ids : List String) (desk : PairingDesk) : Moves ids desk desk :=
  .same rfl rfl rfl

theorem Moves.mono {ids more : List String} {next : PairingDesk} (h : Moves ids desk next)
    (hsub : ids ⊆ more) : Moves more desk next := by
  induction h with
  | same hpaired hrecords hpush => exact .same hpaired hrecords hpush
  | write now hid hpaired hrecords hpush => exact .write now hid hpaired hrecords hpush
  | revoke now hmem hdevice hpaired hrecords hpush =>
    exact .revoke now (hsub hmem) hdevice hpaired hrecords hpush
  | trans _ _ ih ih' => exact ih.trans ih'

theorem Moves.contains {ids : List String} {next : PairingDesk} (h : Moves ids desk next)
    {deviceId : String} (hkept : deviceId ∉ ids)
    (hdevice : desk.surfaces.pairedDevices.contains deviceId) :
    next.surfaces.pairedDevices.contains deviceId := by
  induction h with
  | same hpaired _ _ => rwa [hpaired]
  | write _ _ hpaired _ _ => rw [hpaired, ExtTreeMap.contains_insert, hdevice, Bool.or_true]
  | revoke now hmem _ hpaired _ _ =>
    have hne : deviceId ≠ _ := fun heq => hkept (heq ▸ hmem)
    rw [hpaired, ExtTreeMap.contains_eq_isSome_getElem?, Table.getElem?_erase_of, if_neg hne]
    rwa [← ExtTreeMap.contains_eq_isSome_getElem?]
  | trans _ _ ih ih' => exact ih' (ih hdevice)

theorem Moves.agree {ids : List String} {next : PairingDesk} (h : Moves ids desk next)
    (hagree : desk.surfaces.DevicesAgree) : next.surfaces.DevicesAgree := by
  induction h with
  | same hpaired hrecords _ => exact hagree.congr hpaired hrecords
  | @write desk next now deviceId device hid hpaired hrecords _ =>
    have hwritten : (SurfaceState.syncDeviceRecordFromApprovedDevice { desk.surfaces with
        pairedDevices := desk.surfaces.pairedDevices.insert deviceId device } device
        now).DevicesAgree := hagree.sync device (by rw [hid (hagree.filed deviceId)]) rfl
    exact hwritten.congr hpaired hrecords
  | @revoke desk next now deviceId device _ hdevice hpaired hrecords _ =>
    have hrevoked : (SurfaceState.recordRevokedDevice { desk.surfaces with
        pairedDevices := desk.surfaces.pairedDevices.erase deviceId } device now).DevicesAgree :=
      hagree.revoke (by rw [hagree.filed deviceId device hdevice]) rfl
    exact hrevoked.congr hpaired hrecords
  | trans _ _ ih ih' => exact ih' (ih hagree)

theorem surfaces_decide (now : Nat) (pairingId : String) (approved : Bool)
    (expiresAt : Option Nat) (idToken payloadSecret : String) :
    (desk.decidePairingRequest sha256Hex now pairingId approved expiresAt idToken
      payloadSecret).1.surfaces = (desk.surfaces.decidePairingRequest sha256Hex now pairingId
        approved expiresAt idToken payloadSecret).1 := by
  unfold decidePairingRequest
  generalize desk.surfaces.decidePairingRequest sha256Hex now pairingId approved expiresAt idToken
    payloadSecret = decided
  obtain ⟨surfaces, result⟩ := decided
  dsimp only
  split <;> rfl

theorem pushSubscriptions_decide (now : Nat) (pairingId : String) (approved : Bool)
    (expiresAt : Option Nat) (idToken payloadSecret : String) :
    (desk.decidePairingRequest sha256Hex now pairingId approved expiresAt idToken
      payloadSecret).1.pushSubscriptions = desk.pushSubscriptions := by
  unfold decidePairingRequest
  dsimp only
  split <;> rfl

theorem moves_approve (hfiled : desk.book.Filed sha256Hex) (now : Nat) (pairingId : String)
    (expiresAt : Option Nat) (idToken payloadSecret : String) :
    Moves [] desk (desk.decidePairingRequest sha256Hex now pairingId true expiresAt idToken
      payloadSecret).1 := by
  have hpush := @pushSubscriptions_decide sha256Hex desk now pairingId true expiresAt idToken
    payloadSecret
  have hsurfaces := @surfaces_decide sha256Hex desk now pairingId true expiresAt idToken
    payloadSecret
  cases hr : (desk.surfaces.pruneExpiredPairings now).pendingPairingRequests[pairingId]? with
  | none =>
    rw [SurfaceState.decide_of_no_request _ _ _ _ hr] at hsurfaces
    have hpaired := congrArg SurfaceState.pairedDevices hsurfaces
    have hrecords := congrArg SurfaceState.deviceRecords hsurfaces
    exact .same hpaired hrecords hpush
  | some r =>
    obtain ⟨p, hp⟩ := SurfaceState.ticket_of_request hr
    rw [SurfaceState.decide_approved _ _ _ hr hp ((hfiled.prune now).sealed pairingId p hp)]
      at hsurfaces
    have hpaired := congrArg SurfaceState.pairedDevices hsurfaces
    have hrecords := congrArg SurfaceState.deviceRecords hsurfaces
    refine .write now (fun hold => ?_) hpaired hrecords hpush
    exact SurfaceState.approvedDevice_deviceId hold now r p.pathScope expiresAt payloadSecret

theorem agree_reject (h : desk.surfaces.DevicesAgree) (pairingId : String)
    (hspares : SparesPaired desk (.reject now pairingId)) :
    (desk.decidePairingRequest sha256Hex now pairingId false none "" "").1.surfaces.DevicesAgree := by
  rw [surfaces_decide]
  cases hr : (desk.surfaces.pruneExpiredPairings now).pendingPairingRequests[pairingId]? with
  | none =>
    rw [SurfaceState.decide_of_no_request _ _ _ _ hr]
    exact h.congr rfl rfl
  | some r =>
    obtain ⟨p, hp⟩ := SurfaceState.ticket_of_request hr
    rw [SurfaceState.decide_rejected _ _ _ hr hp]
    apply SurfaceState.DevicesAgree.reject
    · exact h.congr rfl rfl
    · exact hspares r hr

theorem pairedDevices_reject (now : Nat) (pairingId : String) :
    (desk.decidePairingRequest sha256Hex now pairingId false none "" "").1.surfaces.pairedDevices =
      desk.surfaces.pairedDevices := by
  rw [surfaces_decide]
  cases hr : (desk.surfaces.pruneExpiredPairings now).pendingPairingRequests[pairingId]? with
  | none =>
    rw [SurfaceState.decide_of_no_request _ _ _ _ hr]
    rfl
  | some r =>
    obtain ⟨p, hp⟩ := SurfaceState.ticket_of_request hr
    rw [SurfaceState.decide_rejected _ _ _ hr hp]
    rfl

theorem moves_attachCredential (pairingId : String) (credential : DeviceBrokerCredential)
    (now : Nat) :
    Moves [] desk (desk.attachPairingBrokerCredential pairingId credential now).1 := by
  unfold attachPairingBrokerCredential
  dsimp only
  split
  · exact .refl _ desk
  · split
    · exact .same rfl rfl rfl
    · split
      · exact .same rfl rfl rfl
      · next view _ _ device hdevice =>
        refine .write now (fun hold => ?_) rfl rfl rfl
        exact hold device hdevice

theorem moves_attachGrant (pairingId : String) (grant : ClientBrokerGrant) :
    Moves [] desk (desk.attachPairingClientGrant pairingId grant).1 := by
  unfold attachPairingClientGrant
  dsimp only
  split
  · exact .refl _ desk
  · exact .same rfl rfl rfl

/-- After the decision an approval only writes the device it paired. -/
theorem moves_decided (flow : ApprovalFlow) (credential : DeviceBrokerCredential)
    (grant : Option ClientBrokerGrant) (idToken payloadSecret : String) :
    Moves [] ((desk.restorePairingRequest flow.request).decidePairingRequest sha256Hex flow.now
        flow.pairingId true credential.joinExpiresAt idToken payloadSecret).1
      (desk.finishApproval sha256Hex flow credential grant idToken payloadSecret).1 := by
  unfold finishApproval
  dsimp only
  generalize (desk.restorePairingRequest flow.request).decidePairingRequest sha256Hex flow.now
    flow.pairingId true credential.joinExpiresAt idToken payloadSecret = decided
  obtain ⟨decided, result⟩ := decided
  cases result with
  | error error => exact .refl _ decided
  | ok result =>
    have hattached := @moves_attachCredential decided flow.pairingId credential flow.now
    dsimp only
    generalize decided.attachPairingBrokerCredential flow.pairingId credential flow.now =
      attached at hattached ⊢
    obtain ⟨attached, outcome⟩ := attached
    cases outcome with
    | error error => exact hattached
    | ok _ =>
      cases grant with
      | none => exact hattached
      | some grant =>
        have hgrant := hattached.trans (moves_attachGrant flow.pairingId grant)
        dsimp only
        generalize attached.attachPairingClientGrant flow.pairingId grant = granted at hgrant ⊢
        obtain ⟨granted, outcome⟩ := granted
        cases outcome <;> exact hgrant

theorem moves_finishApproval (flow : ApprovalFlow)
    (hfiled : (desk.restorePairingRequest flow.request).book.Filed sha256Hex)
    (credential : DeviceBrokerCredential) (grant : Option ClientBrokerGrant)
    (idToken payloadSecret : String) :
    Moves [] desk (desk.finishApproval sha256Hex flow credential grant idToken
      payloadSecret).1 := by
  have hback : Moves [] desk (desk.restorePairingRequest flow.request) := .same rfl rfl rfl
  exact (hback.trans (moves_approve hfiled flow.now flow.pairingId credential.joinExpiresAt idToken
    payloadSecret)).trans (moves_decided flow credential grant idToken payloadSecret)

theorem revoke_some {deviceId : String} {device : PairedDevice}
    (hdevice : desk.surfaces.pairedDevices[deviceId]? = some device) :
    ∃ surfaces : SurfaceState,
      (desk.revokePairedDevice now deviceId).1.surfaces =
        surfaces.recordRevokedDevice device now ∧
      surfaces.pairedDevices = desk.surfaces.pairedDevices.erase deviceId ∧
      surfaces.deviceRecords = desk.surfaces.deviceRecords ∧
      surfaces.watchedThreads =
        (desk.surfaces.clearWatchedThreadsForDevice deviceId).watchedThreads ∧
      (desk.revokePairedDevice now deviceId).1.pushSubscriptions =
        desk.pushSubscriptions.erase deviceId ∧
      (desk.revokePairedDevice now deviceId).1.relay.activeControllerDeviceId =
        (if desk.relay.activeControllerDeviceId = some deviceId then none
          else desk.relay.activeControllerDeviceId) ∧
      (desk.revokePairedDevice now deviceId).1.relay.threadMeta.orchestratorDeviceId =
        if desk.relay.threadMeta.orchestratorDeviceId = some deviceId then none
        else desk.relay.threadMeta.orchestratorDeviceId := by
  have hdevice' : desk.relay.surfaces.pairedDevices[deviceId]? = some device := hdevice
  simp only [revokePairedDevice, RelayState.revokePairedDevice, hdevice', ↓reduceIte,
    RelayState.clearOrchestratorPinIfDevice]
  by_cases hpin : desk.relay.threadMeta.orchestratorDeviceId = some deviceId
  · simp only [hpin, ↓reduceIte]
    exact ⟨_, rfl, rfl, rfl, rfl, trivial, trivial, trivial⟩
  · simp only [hpin, ↓reduceIte]
    exact ⟨_, rfl, rfl, rfl, rfl, trivial, trivial, trivial⟩

theorem revoke_none {deviceId : String}
    (hdevice : desk.surfaces.pairedDevices[deviceId]? = none) :
    (desk.revokePairedDevice now deviceId).1 = desk := by
  have hdevice' : desk.relay.surfaces.pairedDevices[deviceId]? = none := hdevice
  simp [revokePairedDevice, RelayState.revokePairedDevice, hdevice']

theorem moves_revoke {ids : List String} {deviceId : String} (hmem : deviceId ∈ ids) (now : Nat) :
    Moves ids desk (desk.revokePairedDevice now deviceId).1 := by
  cases hdevice : desk.surfaces.pairedDevices[deviceId]? with
  | none =>
    rw [revoke_none hdevice]
    exact .refl ids desk
  | some device =>
    obtain ⟨surfaces, heq, hpaired, hrecords, -, hpush, -⟩ := @revoke_some _ now _ _ hdevice
    refine .revoke now hmem hdevice ?_ ?_ hpush
    · rw [heq]
      exact hpaired
    · rw [heq]
      simp only [SurfaceState.recordRevokedDevice, hrecords]

theorem forgets_revoke {deviceId other : String}
    (h : (deviceId = other ∧ desk.surfaces.pairedDevices.contains other) ∨ desk.Forgets deviceId)
    (now : Nat) : (desk.revokePairedDevice now other).1.Forgets deviceId := by
  cases hdevice : desk.surfaces.pairedDevices[other]? with
  | none =>
    rw [revoke_none hdevice]
    refine h.resolve_left ?_
    simp [ExtTreeMap.contains_eq_isSome_getElem?, hdevice]
  | some device =>
    obtain ⟨surfaces, heq, -, -, hwatch, hpush, hcontroller, hpin⟩ := revoke_some hdevice
    have hother : deviceId ≠ other → desk.Forgets deviceId := fun hne =>
      h.resolve_left fun hown => hne hown.1
    constructor
    · rw [hpush, Table.getElem?_erase_of]
      split_ifs with hid
      · rfl
      · exact (hother hid).push
    · intro surfaceId watched hw
      rw [heq] at hw
      simp only [SurfaceState.recordRevokedDevice, hwatch,
        SurfaceState.clearWatchedThreadsForDevice, Table.getElem?_filter,
        Option.filter_eq_some_iff] at hw
      by_cases hid : deviceId = other
      · rw [hid]
        exact of_decide_eq_true hw.2
      · exact (hother hid).watch surfaceId watched hw.1
    · rw [hcontroller]
      split_ifs with hc
      · simp
      · by_cases hid : deviceId = other
        · rwa [hid]
        · exact (hother hid).controller
    · rw [hpin]
      split_ifs with hp
      · simp
      · by_cases hid : deviceId = other
        · rwa [hid]
        · exact (hother hid).orchestrator

theorem contains_revoke {deviceId other : String} (hne : deviceId ≠ other)
    (h : desk.surfaces.pairedDevices.contains deviceId) (now : Nat) :
    (desk.revokePairedDevice now other).1.surfaces.pairedDevices.contains deviceId :=
  (moves_revoke (List.mem_singleton.mpr rfl) now).contains (by simpa using hne) h

theorem forgets_foldl (now : Nat) (ids : List String) (desk : PairingDesk) {deviceId : String}
    (h : desk.Forgets deviceId ∨
      deviceId ∈ ids ∧ desk.surfaces.pairedDevices.contains deviceId) :
    (ids.foldl (fun desk deviceId => (desk.revokePairedDevice now deviceId).1) desk).Forgets
      deviceId := by
  induction ids generalizing desk with
  | nil => exact h.resolve_right (by simp)
  | cons id ids ih =>
    rw [List.foldl_cons]
    apply ih
    rcases h with h | ⟨hmem, hpaired⟩
    · exact .inl (forgets_revoke (.inr h) now)
    · by_cases hid : deviceId = id
      · subst hid
        exact .inl (forgets_revoke (.inl ⟨rfl, hpaired⟩) now)
      · exact .inr ⟨(List.mem_cons.mp hmem).resolve_left hid, contains_revoke hid hpaired now⟩

theorem moves_foldl (now : Nat) (ids : List String) (desk : PairingDesk) :
    Moves ids desk
      (ids.foldl (fun desk deviceId => (desk.revokePairedDevice now deviceId).1) desk) := by
  induction ids generalizing desk with
  | nil => exact .refl [] desk
  | cons id ids ih =>
    exact (moves_revoke List.mem_cons_self now).trans ((ih _).mono (List.subset_cons_self id ids))

theorem moves_seen (now : Nat) (deviceId peerId : String) : Moves [] desk
    (desk.setSurfaces (desk.surfaces.markPairedDeviceSeen now deviceId peerId).1) := by
  unfold SurfaceState.markPairedDeviceSeen
  cases hdevice : desk.surfaces.pairedDevices[deviceId]? with
  | none => exact .same rfl rfl rfl
  | some device =>
    refine .write now (fun hold => ?_) rfl rfl rfl
    exact hold device hdevice

theorem moves_claim (now : Nat) (deviceId challengeId peerId : String) : Moves [] desk
    (desk.setSurfaces (desk.surfaces.completeRemoteClaim now deviceId challengeId peerId).1) := by
  have hclaim := desk.claimChallenge_fst now deviceId challengeId peerId
  unfold SurfaceState.completeRemoteClaim
  generalize desk.surfaces.claimChallenge now deviceId challengeId peerId = claimed at hclaim ⊢
  obtain ⟨surfaces, outcome⟩ := claimed
  obtain rfl : surfaces = _ := hclaim
  cases outcome with
  | error error => exact .same rfl rfl rfl
  | ok challenge =>
    dsimp only
    split
    · exact .same rfl rfl rfl
    · next device hdevice =>
      refine .write now (fun hold => ?_) rfl rfl rfl
      exact hold device hdevice

/-- All that an operation other than a rejection does to the devices of a desk. -/
theorem moves_step (hfiled : desk.book.Filed sha256Hex) (op : PairingOp)
    (hop : op.rejection = none) : Moves (desk.revoked op) desk (desk.step sha256Hex op) := by
  cases op with
  | prepare now ttl pathScope idToken pairingSecret => exact .same rfl rfl rfl
  | register now pairingId requestedDeviceId deviceLabel peerId deviceVerifyKey idToken =>
    simp only [step, registerPairingRequest]
    obtain ⟨error, heq⟩ | ⟨r, -, -, -, -, -, heq⟩ :=
      desk.surfaces.register_cases now pairingId requestedDeviceId deviceLabel peerId
        deviceVerifyKey idToken
    · rw [heq]
      exact .same rfl rfl rfl
    · rw [heq]
      exact .same rfl rfl rfl
  | approve now pairingId =>
    simp only [step, beginApproval, SurfaceState.claimPairingRequest]
    cases (desk.surfaces.pruneExpiredPairings now).pendingPairingRequests[pairingId]? with
    | none => exact .same rfl rfl rfl
    | some r => exact .same rfl rfl rfl
  | issueFailed i =>
    simp only [step]
    cases desk.flows[i]? with
    | none => exact .refl _ desk
    | some flow => exact .same rfl rfl rfl
  | issued i credential grant idToken payloadSecret =>
    simp only [step]
    cases hflow : desk.flows[i]? with
    | none => exact .refl _ desk
    | some flow =>
      have htaken : Moves [] desk { desk with flows := desk.flows.eraseIdx i } := .same rfl rfl rfl
      exact htaken.trans
        (moves_finishApproval flow hfiled.handBack credential grant idToken payloadSecret)
  | reject now pairingId => cases hop
  | result now pairingId deviceVerifyKey peerId =>
    simp only [step, completedPairingResult]
    split
    · exact .same rfl rfl rfl
    · split
      · exact .same rfl rfl rfl
      · exact .same rfl rfl rfl
  | challenge now deviceId peerId idToken challenge =>
    simp only [step, SurfaceState.issueClaimChallenge]
    split
    · exact .same rfl rfl rfl
    · exact .same rfl rfl rfl
  | claim now deviceId challengeId peerId => exact moves_claim now deviceId challengeId peerId
  | seen now deviceId peerId => exact moves_seen now deviceId peerId
  | revoke now deviceId =>
    simp only [step, revoked]
    split_ifs with hdevice
    · exact moves_revoke (List.mem_singleton.mpr rfl) now
    · rw [ExtTreeMap.contains_eq_isSome_getElem?, Bool.not_eq_true, Option.isSome_eq_false_iff,
        Option.isNone_iff_eq_none] at hdevice
      rw [revoke_none hdevice]
      exact .refl _ desk
  | revokeAllOthers now keepDeviceId =>
    simp only [step, revoked, revokeAllOtherPairedDevices]
    split_ifs
    · exact moves_foldl now _ desk
    · exact .refl _ desk

theorem agree_step (hfiled : desk.book.Filed sha256Hex) (h : desk.surfaces.DevicesAgree)
    (op : PairingOp) (hspares : desk.SparesPaired op) :
    (desk.step sha256Hex op).surfaces.DevicesAgree := by
  cases op with
  | reject now pairingId => exact agree_reject h pairingId hspares
  | _ => exact (moves_step hfiled _ rfl).agree h

theorem revokeForgets_step (desk : PairingDesk) (op : PairingOp) :
    desk.RevokeForgets sha256Hex op := by
  intro deviceId hmem
  cases op with
  | revoke now id =>
    simp only [revoked] at hmem
    split_ifs at hmem with hpaired
    · rw [List.mem_singleton.mp hmem]
      exact forgets_revoke (.inl ⟨rfl, hpaired⟩) now
    · cases hmem
  | revokeAllOthers now keepDeviceId =>
    simp only [revoked] at hmem
    simp only [step, revokeAllOtherPairedDevices]
    split_ifs at hmem with hkeep
    · rw [if_pos hkeep]
      apply forgets_foldl
      refine .inr ⟨hmem, ?_⟩
      have hkey := (List.mem_filter.mp hmem).1
      rwa [ExtTreeMap.mem_keys, ← ExtTreeMap.contains_iff_mem] at hkey
    · cases hmem
  | _ => cases hmem

/-- In every run in which no rejected request names a paired device, records and pairings
agree in every state; a revoked device is forgotten in every run. -/
theorem deviceRecords_agree (sha256Hex : String → String) (relay : RelayState)
    (ops : List PairingOp) (hstart : relay.surfaces.DevicesAgree)
    (hspares : Along (step sha256Hex) SparesPaired (opened relay) ops) :
    Always (step sha256Hex) (fun desk => desk.surfaces.DevicesAgree) (opened relay) ops ∧
      Along (step sha256Hex) (RejectKeepsRecord sha256Hex) (opened relay) ops ∧
      Along (step sha256Hex) (RevokeForgets sha256Hex) (opened relay) ops := by
  refine ⟨?_, ?_, along_of_forall (fun desk op => desk.revokeForgets_step op) _ _⟩
  · have hinv : Always (step sha256Hex)
        (fun desk => desk.book.Filed sha256Hex ∧ desk.surfaces.DevicesAgree) (opened relay) ops := by
      apply always_of_step ?_ ⟨filed_opened relay, hstart.congr rfl rfl⟩ hspares
      rintro desk op ⟨hfiled, hagree⟩ hop
      exact ⟨hfiled.step (step_book hfiled op), agree_step hfiled hagree op hop⟩
    exact hinv.mono fun _ h => h.2
  · apply hspares.mono
    intro desk op hop request hrequest hpaired
    rw [hop request hrequest] at hpaired
    cases hpaired

instance (desk : PairingDesk) (op : PairingOp) : Decidable (desk.SparesPaired op) :=
  inferInstanceAs (Decidable (∀ request ∈ desk.rejected op, _))

theorem devicesAgree_new : ({} : RelayState).surfaces.DevicesAgree := by
  constructor
  · intro id device hdevice
    simp at hdevice
  · intro id device hdevice
    simp at hdevice
  · intro id record hrecord
    simp at hrecord

def pairsPhone : List PairingOp :=
  [.prepare 100 none ["/work"] "q" "qr-secret",
    .register 101 "pair-q" (some "phone") (some "My phone") "peer-1" "key-1" "x",
    .approve 102 "pair-q",
    .issued 0 ⟨none, "join", some 900⟩ none "y" "payload"]

/-- Paired, heard from, and revoked, with a stranger's request rejected in between. -/
theorem deviceRecords_agree_stranger :
    Always (step fun _ => "08ccec45e2bd6dbda20a984af4d48f83dbf86b9994ca9fd45514e5be516110f9")
      (fun desk => desk.surfaces.DevicesAgree) (opened {})
      (pairsPhone ++ [.seen 103 "phone" "peer-2", .prepare 104 none [] "r" "qr-secret",
        .register 105 "pair-r" (some "tablet") none "peer-3" "key-2" "x", .reject 106 "pair-r",
        .revoke 107 "phone"]) :=
  (deviceRecords_agree _ _ _ devicesAgree_new (by decide +kernel)).1

/-- A request under the id of a paired phone is rejected, and the phone's record with it. -/
theorem deviceRecords_disagree :
    ¬∀ (sha256Hex : String → String) (relay : RelayState) (ops : List PairingOp),
      relay.surfaces.DevicesAgree →
        Always (step sha256Hex) (fun desk => desk.surfaces.DevicesAgree) (opened relay) ops ∧
          Along (step sha256Hex) (RejectKeepsRecord sha256Hex) (opened relay) ops ∧
          Along (step sha256Hex) (RevokeForgets sha256Hex) (opened relay) ops := by
  intro h
  let last := run (step fun _ => "08ccec45e2bd6dbda20a984af4d48f83dbf86b9994ca9fd45514e5be516110f9")
    (opened {}) (pairsPhone ++ [.prepare 104 none [] "r" "qr-secret",
      .register 105 "pair-r" (some "phone") (some "Mine") "peer-3" "key-2" "x",
      .reject 106 "pair-r"])
  have hagree : last.surfaces.DevicesAgree := (h _ {} _ devicesAgree_new).1.last
  have hpaired : last.surfaces.pairedDevices["phone"]?.isSome := by decide +kernel
  have hrejected : (last.surfaces.deviceRecords["phone"]?.map (·.lifecycleState)) =
      some .rejected := by decide +kernel
  obtain ⟨device, hdevice⟩ := Option.isSome_iff_exists.mp hpaired
  obtain ⟨record, hrecord, hdescribes⟩ := hagree.paired "phone" device hdevice
  rw [hrecord, Option.map_some, hdescribes.approved] at hrejected
  cases hrejected

end PairingDesk

end AgentRelay.Relay
