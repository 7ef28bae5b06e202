import AgentRelay.StepRun
import AgentRelay.DeliveryRun

/-! Deliveries stay in scope while the device that declares a watch set and the device the
peer is bound to are the same one. -/
namespace AgentRelay.Relay
open Text StepRun

theorem isOk_iff_eq_ok {r : Except String Unit} : r.isOk ↔ r = .ok () := by
  cases r <;> simp [Except.isOk, Except.toBool]

theorem inScope_of_readable {canonicalize : String → String} {cwd : Option String}
    {deviceScope allowedRoots : List String}
    (h : SurfaceState.threadIsReadableBy canonicalize cwd deviceScope allowedRoots) :
    ensurePathWithinDeviceScope canonicalize (cwd.getD "") deviceScope allowedRoots = .ok () := by
  unfold SurfaceState.threadIsReadableBy at h
  rw [ensurePathWithinDeviceScope_ok_iff]
  cases hcwd : (cwd.map trim).filter (· ≠ "") with
  | none =>
    simp only [hcwd, Bool.and_eq_true, List.isEmpty_iff] at h
    obtain ⟨rfl, rfl⟩ := h
    simp [pathWithinAllowedRoots]
  | some path =>
    rw [hcwd] at h
    obtain ⟨hmap, -⟩ := Option.filter_eq_some_iff.mp hcwd
    obtain ⟨raw, rfl, rfl⟩ := Option.map_eq_some_iff.mp hmap
    have hok := isOk_iff_eq_ok.mp h
    rw [ensurePathWithinDeviceScope_ok_iff] at hok
    simpa only [pathWithinAllowedRoots_trim, Option.getD_some] using hok

def KeyedById (devices : Table PairedDevice) : Prop :=
  ∀ (deviceId : String) (device : PairedDevice), devices[deviceId]? = some device →
    device.deviceId = deviceId

instance (devices : Table PairedDevice) : Decidable (KeyedById devices) :=
  decidable_of_iff (∀ entry ∈ devices.toList, entry.2.deviceId = entry.1) <| by
    simp only [KeyedById, Prod.forall, Std.ExtTreeMap.mem_toList_iff_getElem?_eq_some]

namespace SurfaceState

/-- Devices stand under their own id, and the watch set of a bound peer was declared by
the device the peer is bound to. -/
structure DeclaredByBound (s : SurfaceState) : Prop where
  keyed : KeyedById s.pairedDevices
  declared : ∀ (peerId deviceId : String) (watched : WatchedSurface),
    s.watchedThreads[peerId]? = some watched →
    s.onlineSurfacePeerDevices[peerId]? = some deviceId → watched.deviceId = deviceId

theorem mem_brokerTargets {s : SurfaceState} {target : String × String × String} :
    target ∈ s.brokerTargets ↔
      ∃ deviceId device, s.onlineSurfacePeerIds.contains target.2.1 ∧
        s.onlineSurfacePeerDevices[target.2.1]? = some deviceId ∧
        s.pairedDevices[deviceId]? = some device ∧
        target = (device.deviceId, target.2.1, device.payloadSecret) := by
  unfold brokerTargets
  rw [List.mem_filterMap]
  constructor
  · rintro ⟨peerId, hpeer, htarget⟩
    cases hbound : s.onlineSurfacePeerDevices[peerId]? with
    | none => simp [hbound] at htarget
    | some deviceId =>
      simp only [hbound, Option.map_eq_some_iff] at htarget
      obtain ⟨device, hdevice, rfl⟩ := htarget
      exact ⟨deviceId, device, by simpa using hpeer, hbound, hdevice, rfl⟩
  · rintro ⟨deviceId, device, hpeer, hbound, hdevice, htarget⟩
    refine ⟨target.2.1, by simpa using hpeer, ?_⟩
    simp only [hbound, hdevice, Option.map_some]
    exact congrArg some htarget.symm

theorem DeclaredByBound.target_inScope {s : SurfaceState} (h : s.DeclaredByBound)
    {canonicalize : String → String} {cwdOf : String → Option String}
    {activeThreadId : Option String} {threadId : String} {target : String × String × String}
    (ht : target ∈ s.brokerTargetsForThread canonicalize cwdOf activeThreadId threadId) :
    ∃ device, s.pairedDevices[target.1]? = some device ∧
      ensurePathWithinDeviceScope canonicalize ((cwdOf threadId).getD "") device.pathScope
        s.allowedRoots = .ok () := by
  obtain ⟨htarget, hkeep⟩ := List.mem_filter.mp ht
  obtain ⟨deviceId, device, -, hbound, hdevice, heq⟩ := mem_brokerTargets.mp htarget
  have hid : target.1 = deviceId := by rw [heq]; exact h.keyed deviceId device hdevice
  refine ⟨device, by rw [hid, hdevice], ?_⟩
  have hscope : s.devicePathScope deviceId = device.pathScope := by
    simp [devicePathScope, hdevice]
  have hreadable : s.threadIsReadableByDevice canonicalize cwdOf threadId deviceId := by
    cases hwatch : s.watchedThreads[target.2.1]? with
    | none =>
      have hno : s.watchedThreads.contains target.2.1 = false := by
        rw [Std.ExtTreeMap.contains_eq_isSome_getElem?, hwatch, Option.isSome_none]
      simp only [hno, Bool.false_eq_true, if_false, Bool.and_eq_true, hid] at hkeep
      exact hkeep.2
    | some watched =>
      have hyes : s.watchedThreads.contains target.2.1 := by
        rw [Std.ExtTreeMap.contains_eq_isSome_getElem?, hwatch, Option.isSome_some]
      simp only [hyes, if_true, surfaceWatchesThread, hwatch, Bool.and_eq_true] at hkeep
      rw [← h.declared _ deviceId watched hwatch hbound]
      exact hkeep.2
  rw [threadIsReadableByDevice, hscope] at hreadable
  exact inScope_of_readable hreadable

theorem declaredByBound_empty : DeclaredByBound {} :=
  ⟨fun _ _ h => by simp at h, fun _ _ _ h => by simp at h⟩

structure Within (s' s : SurfaceState) : Prop where
  devices : ∀ (deviceId : String) (device : PairedDevice),
    s'.pairedDevices[deviceId]? = some device → s.pairedDevices[deviceId]? = some device
  watches : ∀ (surfaceId : String) (watched : WatchedSurface),
    s'.watchedThreads[surfaceId]? = some watched → s.watchedThreads[surfaceId]? = some watched
  bindings : ∀ (peerId deviceId : String),
    s'.onlineSurfacePeerDevices[peerId]? = some deviceId →
    s.onlineSurfacePeerDevices[peerId]? = some deviceId

theorem Within.of_eq {s s' : SurfaceState} (hdevices : s'.pairedDevices = s.pairedDevices)
    (hwatches : s'.watchedThreads = s.watchedThreads)
    (hbindings : s'.onlineSurfacePeerDevices = s.onlineSurfacePeerDevices) : s'.Within s :=
  ⟨fun _ _ h => hdevices ▸ h, fun _ _ h => hwatches ▸ h, fun _ _ h => hbindings ▸ h⟩

theorem DeclaredByBound.within {s s' : SurfaceState} (h : s.DeclaredByBound) (hw : s'.Within s) :
    s'.DeclaredByBound := by
  refine ⟨fun deviceId device hd => h.keyed deviceId device (hw.devices _ _ hd), ?_⟩
  intro peerId deviceId watched hwatch hbound
  exact h.declared peerId deviceId watched (hw.watches _ _ hwatch) (hw.bindings _ _ hbound)

theorem getElem?_of_filter {V : Type} {m : Table V} {f : String → V → Bool} {k : String} {v : V}
    (h : (m.filter f)[k]? = some v) : m[k]? = some v := by
  rw [Table.getElem?_filter] at h
  exact (Option.filter_eq_some_iff.mp h).1

theorem getElem?_of_erase {V : Type} {m : Table V} {k k' : String} {v : V}
    (h : (m.erase k')[k]? = some v) : m[k]? = some v := by
  rw [Table.getElem?_erase_of] at h
  split_ifs at h
  exact h

theorem pruneOfflineBrokerSurfaces_within (s : SurfaceState) :
    s.pruneOfflineBrokerSurfaces.Within s :=
  ⟨fun _ _ h => h, fun _ _ h => getElem?_of_filter h, fun _ _ h => h⟩

theorem dropWatchedSurface_within (s : SurfaceState) (surfaceId : String) :
    (s.dropWatchedSurface surfaceId).1.Within s :=
  ⟨fun _ _ h => h, fun _ _ h => getElem?_of_erase h, fun _ _ h => h⟩

theorem DeclaredByBound.setBrokerConnection {s : SurfaceState} (h : s.DeclaredByBound)
    (connected : Bool) : (s.setBrokerConnection connected).DeclaredByBound := by
  unfold SurfaceState.setBrokerConnection
  split_ifs
  · exact ⟨h.keyed, h.declared⟩
  · exact h.within ⟨fun _ _ h => h, fun _ _ h => getElem?_of_filter h, fun _ _ h => by simp at h⟩

theorem DeclaredByBound.markSurfacePeerOffline {s : SurfaceState} (h : s.DeclaredByBound)
    (peerId : String) : (s.markSurfacePeerOffline peerId).DeclaredByBound := by
  refine DeclaredByBound.within ?_ (pruneOfflineBrokerSurfaces_within _)
  exact h.within ⟨fun _ _ h => h, fun _ _ h => h, fun _ _ h => getElem?_of_erase h⟩

theorem DeclaredByBound.replaceOnlineSurfacePeers {s : SurfaceState} (h : s.DeclaredByBound)
    (peerIds : List String) : (s.replaceOnlineSurfacePeers peerIds).DeclaredByBound := by
  refine DeclaredByBound.within ?_ (pruneOfflineBrokerSurfaces_within _)
  exact h.within ⟨fun _ _ h => h, fun _ _ h => h, fun _ _ h => getElem?_of_filter h⟩

theorem DeclaredByBound.pair {s : SurfaceState} (h : s.DeclaredByBound) {deviceId : String}
    {device : PairedDevice} (hid : device.deviceId = deviceId) :
    DeclaredByBound { s with pairedDevices := s.pairedDevices.insert deviceId device } := by
  refine ⟨fun deviceId' device' hd => ?_, h.declared⟩
  rw [Table.getElem?_insert_of] at hd
  split_ifs at hd with heq
  · obtain rfl := Option.some.inj hd
    rw [hid, heq]
  · exact h.keyed deviceId' device' hd

theorem DeclaredByBound.bind {s : SurfaceState} (h : s.DeclaredByBound) {deviceId peerId : String}
    (hw : ∀ watched ∈ s.watchedThreads[peerId]?, watched.deviceId = deviceId) :
    (s.bindSurfacePeerToDevice deviceId peerId).DeclaredByBound := by
  refine ⟨h.keyed, fun peerId' deviceId' watched hwatch hbound => ?_⟩
  simp only [bindSurfacePeerToDevice, Table.getElem?_insert_of] at hwatch hbound
  split_ifs at hbound with heq
  · obtain rfl := Option.some.inj hbound
    exact hw watched (heq ▸ hwatch)
  · exact h.declared peerId' deviceId' watched hwatch hbound

theorem DeclaredByBound.declare {s : SurfaceState} (h : s.DeclaredByBound) {surfaceId : String}
    {next : WatchedSurface}
    (hb : ∀ deviceId ∈ s.onlineSurfacePeerDevices[surfaceId]?, deviceId = next.deviceId) :
    DeclaredByBound { s with watchedThreads := s.watchedThreads.insert surfaceId next } := by
  refine ⟨h.keyed, fun peerId deviceId watched hwatch hbound => ?_⟩
  simp only [Table.getElem?_insert_of] at hwatch
  split_ifs at hwatch with heq
  · obtain rfl := Option.some.inj hwatch
    exact (hb deviceId (heq ▸ hbound)).symm
  · exact h.declared peerId deviceId watched hwatch hbound

theorem DeclaredByBound.setWatchedThreadsForGeneration {s : SurfaceState} (h : s.DeclaredByBound)
    {canonicalize : String → String} {cwdOf : String → Option String}
    {surfaceId deviceId : String} {threadIds : List String} {generation : Option Nat}
    (hb : s.isStaleDeclaration surfaceId generation = false →
      ∀ bound ∈ s.onlineSurfacePeerDevices[surfaceId]?, bound = deviceId) :
    (s.setWatchedThreadsForGeneration canonicalize cwdOf surfaceId deviceId threadIds
      generation).1.DeclaredByBound := by
  simp only [SurfaceState.setWatchedThreadsForGeneration]
  split_ifs with hstale
  · exact h
  · exact h
  · exact h.declare (hb (by simpa using hstale))

theorem DeclaredByBound.admit {s s' : SurfaceState} (h : s.DeclaredByBound)
    {deviceId peerId : String} {device : PairedDevice}
    (hdevices : s'.pairedDevices = s.pairedDevices.insert deviceId device)
    (hwatches : s'.watchedThreads = s.watchedThreads)
    (hbindings : s'.onlineSurfacePeerDevices =
      s.onlineSurfacePeerDevices.insert peerId device.deviceId)
    (hid : device.deviceId = deviceId)
    (hw : ∀ watched ∈ s.watchedThreads[peerId]?, watched.deviceId = deviceId) :
    s'.DeclaredByBound := by
  have hbind := (h.pair hid).bind hw
  refine ⟨hdevices ▸ hbind.keyed, ?_⟩
  rw [hwatches, hbindings, hid]
  exact hbind.declared

theorem DeclaredByBound.noteDeviceSeen {s : SurfaceState} (h : s.DeclaredByBound) {now : Nat}
    {deviceId peerId : String} {device : PairedDevice} (hid : device.deviceId = deviceId)
    (hw : ∀ watched ∈ s.watchedThreads[peerId]?, watched.deviceId = deviceId) :
    (s.noteDeviceSeen now deviceId peerId device).DeclaredByBound := by
  subst hid
  exact h.admit rfl rfl rfl rfl hw

section
variable (sha256Hex : String → String)

def opensTicket (s : SurfaceState) (now : Nat) (pairingId pairingSecret : String) : Bool :=
  (s.pruneExpiredPairings now).pendingPairings[pairingId]?.any fun pending =>
    pending.secretHash = sha256Hex pairingSecret

end

def pairedDeviceId (requestedDeviceId : Option String) (idToken : String) : String :=
  (normalizeRemoteDeviceId requestedDeviceId).getD (freshDeviceId idToken)

theorem DeclaredByBound.consumePairingTicket {sha256Hex : String → String} {s : SurfaceState}
    (h : s.DeclaredByBound) {now : Nat} {pairingId pairingSecret : String}
    {requestedDeviceId deviceLabel : Option String} {deviceVerifyKey : String}
    {ticketExpiresAt : Option Nat} {peerId idToken payloadSecret : String}
    (hw : s.opensTicket sha256Hex now pairingId pairingSecret →
      ∀ watched ∈ s.watchedThreads[peerId]?,
        watched.deviceId = pairedDeviceId requestedDeviceId idToken) :
    (s.consumePairingTicket sha256Hex now pairingId pairingSecret requestedDeviceId deviceLabel
      deviceVerifyKey ticketExpiresAt peerId idToken payloadSecret).1.DeclaredByBound := by
  have hprune : (s.pruneExpiredPairings now).DeclaredByBound := ⟨h.keyed, h.declared⟩
  unfold SurfaceState.consumePairingTicket
  unfold opensTicket at hw
  cases hpending : (s.pruneExpiredPairings now).pendingPairings[pairingId]? with
  | none => simpa only [hpending] using hprune
  | some pending =>
    simp only [hpending, Option.any_some, decide_eq_true_eq] at hw ⊢
    split_ifs with hsecret
    · exact hprune
    · -- A device that is paired again keeps the id it stands under.
      have hid : ((s.pairedDevices[pairedDeviceId requestedDeviceId idToken]?.map
          (·.deviceId)).getD (pairedDeviceId requestedDeviceId idToken)) =
          pairedDeviceId requestedDeviceId idToken := by
        cases hold : s.pairedDevices[pairedDeviceId requestedDeviceId idToken]? with
        | none => rfl
        | some old => exact h.keyed _ old hold
      exact h.admit rfl rfl rfl hid (hw (not_not.mp hsecret))

theorem opensTicket_pruned {sha256Hex : String → String} {s s' : SurfaceState} {now : Nat}
    (hs : s'.pendingPairings = (s.pruneExpiredPairings now).pendingPairings)
    (pairingId pairingSecret : String) :
    s'.opensTicket sha256Hex now pairingId pairingSecret =
      s.opensTicket sha256Hex now pairingId pairingSecret := by
  simp only [pruneExpiredPairings] at hs
  simp only [opensTicket, pruneExpiredPairings, hs, Table.getElem?_filter, Option.filter_filter,
    Bool.and_self]

def approvedBinding (sha256Hex : String → String) (s : SurfaceState) (now : Nat)
    (pairingId idToken : String) : Option (String × String) :=
  match (s.pruneExpiredPairings now).pendingPairingRequests[pairingId]?,
      (s.pruneExpiredPairings now).pendingPairings[pairingId]? with
  | some request, some pending =>
    if s.opensTicket sha256Hex now pairingId pending.pairingSecret then
      some (request.brokerPeerId, pairedDeviceId (some request.deviceId) idToken)
    else none
  | _, _ => none

theorem DeclaredByBound.decidePairingRequest {sha256Hex : String → String} {s : SurfaceState}
    (h : s.DeclaredByBound) {now : Nat} {pairingId : String} {approved : Bool}
    {ticketExpiresAt : Option Nat} {idToken payloadSecret : String}
    (hw : approved → ∀ peerId deviceId,
      s.approvedBinding sha256Hex now pairingId idToken = some (peerId, deviceId) →
      ∀ watched ∈ s.watchedThreads[peerId]?, watched.deviceId = deviceId) :
    (s.decidePairingRequest sha256Hex now pairingId approved ticketExpiresAt idToken
      payloadSecret).1.DeclaredByBound := by
  have hprune : (s.pruneExpiredPairings now).DeclaredByBound := ⟨h.keyed, h.declared⟩
  unfold SurfaceState.decidePairingRequest
  cases hrequest : (s.pruneExpiredPairings now).pendingPairingRequests[pairingId]? with
  | none => simpa only [hrequest] using hprune
  | some request =>
    cases hpending : (s.pruneExpiredPairings now).pendingPairings[pairingId]? with
    | none =>
      simp only [hrequest, hpending]
      exact ⟨h.keyed, h.declared⟩
    | some pending =>
      simp only [hrequest, hpending]
      split_ifs with happroved
      · have hbinding (hopen : s.opensTicket sha256Hex now pairingId pending.pairingSecret) :
            s.approvedBinding sha256Hex now pairingId idToken =
              some (request.brokerPeerId, pairedDeviceId (some request.deviceId) idToken) := by
          simp only [approvedBinding, hrequest, hpending, hopen, if_true]
        -- The ticket is looked up again once the request is out of the table.
        have herased : DeclaredByBound { s.pruneExpiredPairings now with
            pendingPairingRequests :=
              (s.pruneExpiredPairings now).pendingPairingRequests.erase pairingId } :=
          ⟨h.keyed, h.declared⟩
        have hwatch (hopen : s.opensTicket sha256Hex now pairingId pending.pairingSecret) :
            ∀ watched ∈ s.watchedThreads[request.brokerPeerId]?,
              watched.deviceId = pairedDeviceId (some request.deviceId) idToken :=
          hw happroved _ _ (hbinding hopen)
        split <;> rename_i hc
        all_goals
          have hfst := congrArg Prod.fst hc
          simp only at hfst ⊢
          rw [← hfst]
          refine herased.consumePairingTicket fun hopen => hwatch ?_
          exact (opensTicket_pruned rfl pairingId pending.pairingSecret).symm.trans hopen
      · exact ⟨h.keyed, h.declared⟩

end SurfaceState

namespace DeliveryOp

def binding (sha256Hex : String → String) (s : SurfaceState) (now : Nat) :
    DeliveryOp → Option (String × String)
  | bindSurfacePeerToDevice deviceId peerId => some (peerId, deviceId)
  | markPairedDeviceSeen deviceId peerId =>
    if s.pairedDevices.contains deviceId then some (peerId, deviceId) else none
  | completeRemoteClaim deviceId challengeId peerId =>
    if (s.claimChallenge now deviceId challengeId peerId).2.isOk then some (peerId, deviceId)
    else none
  | consumePairingTicket pairingId pairingSecret deviceId _ _ _ peerId idToken _ =>
    if s.opensTicket sha256Hex now pairingId pairingSecret then
      some (peerId, SurfaceState.pairedDeviceId deviceId idToken)
    else none
  | decidePairingRequest pairingId approved _ idToken _ =>
    if approved then s.approvedBinding sha256Hex now pairingId idToken else none
  | _ => none

/-- The surface an operation declares a watch set for, and the device that declares it. -/
def declaration (s : SurfaceState) : DeliveryOp → Option (String × String)
  | setWatchedThreadsForGeneration surfaceId deviceId _ generation =>
    if s.isStaleDeclaration surfaceId generation then none else some (surfaceId, deviceId)
  | setWatchedThreads input =>
    (nonEmpty input.deviceId).bind fun deviceId =>
      let surfaceId := s.declaredSurfaceId deviceId input.surfaceId
      if s.isStaleDeclaration surfaceId input.surfaceGeneration then none
      else some (surfaceId, deviceId)
  | _ => none

def restored : DeliveryOp → Option PersistedRelayState
  | relay (.restoreThreadData _ persisted) | applyPersisted persisted => some persisted
  | _ => none

end DeliveryOp

/-- The step binds no peer whose watch set another device declared, declares no watch set
for a peer that is bound to another device, and restores only devices that stand under
their own ids. -/
def KeepsToDevice (sha256Hex : String → String) (s : RelayState) (op : Nat × DeliveryOp) : Prop :=
  (∀ binding ∈ op.2.binding sha256Hex s.surfaces op.1,
    ∀ watched ∈ s.surfaces.watchedThreads[binding.1]?, watched.deviceId = binding.2) ∧
  (∀ declaration ∈ op.2.declaration s.surfaces,
    ∀ deviceId ∈ s.surfaces.onlineSurfacePeerDevices[declaration.1]?, deviceId = declaration.2) ∧
  ∀ persisted ∈ op.2.restored, KeyedById persisted.pairedDevices

instance (sha256Hex : String → String) (s : RelayState) (op : Nat × DeliveryOp) :
    Decidable (KeepsToDevice sha256Hex s op) :=
  inferInstanceAs (Decidable (_ ∧ _ ∧ _))

namespace SurfaceState

theorem claimChallenge_fst (s : SurfaceState) (now : Nat) (deviceId challengeId peerId : String) :
    (s.claimChallenge now deviceId challengeId peerId).1 = s.pruneExpiredClaimChallenges now := by
  simp only [claimChallenge]
  split
  · rfl
  · split_ifs <;> rfl

theorem DeclaredByBound.completeRemoteClaim {s : SurfaceState} (h : s.DeclaredByBound) {now : Nat}
    {deviceId challengeId peerId : String}
    (hw : (s.claimChallenge now deviceId challengeId peerId).2.isOk →
      ∀ watched ∈ s.watchedThreads[peerId]?, watched.deviceId = deviceId) :
    (s.completeRemoteClaim now deviceId challengeId peerId).1.DeclaredByBound := by
  have hfst := s.claimChallenge_fst now deviceId challengeId peerId
  unfold SurfaceState.completeRemoteClaim
  rcases hclaim : s.claimChallenge now deviceId challengeId peerId with ⟨s', error | challenge⟩
  · rw [hclaim] at hfst
    subst hfst
    exact ⟨h.keyed, h.declared⟩
  · rw [hclaim] at hfst hw
    subst hfst
    simp only
    cases hdevice : (s.pruneExpiredClaimChallenges now).pairedDevices[deviceId]? with
    | none => exact ⟨h.keyed, h.declared⟩
    | some device =>
      have hopen : DeclaredByBound { s.pruneExpiredClaimChallenges now with
          pendingClaimChallenges :=
            (s.pruneExpiredClaimChallenges now).pendingClaimChallenges.erase challengeId } :=
        ⟨h.keyed, h.declared⟩
      have hid : device.deviceId = deviceId := h.keyed deviceId device hdevice
      exact (hopen.noteDeviceSeen hid (hw rfl)).within (Within.of_eq rfl rfl rfl)

theorem DeclaredByBound.markPairedDeviceSeen {s : SurfaceState} (h : s.DeclaredByBound) {now : Nat}
    {deviceId peerId : String}
    (hw : s.pairedDevices.contains deviceId →
      ∀ watched ∈ s.watchedThreads[peerId]?, watched.deviceId = deviceId) :
    (s.markPairedDeviceSeen now deviceId peerId).1.DeclaredByBound := by
  unfold SurfaceState.markPairedDeviceSeen
  rw [Std.ExtTreeMap.contains_eq_isSome_getElem?] at hw
  cases hdevice : s.pairedDevices[deviceId]? with
  | none => exact h
  | some device =>
    rw [hdevice] at hw
    exact h.noteDeviceSeen (h.keyed deviceId device hdevice) (hw rfl)

theorem registerPairingRequest_within (s : SurfaceState) (now : Nat) (pairingId : String)
    (deviceId label : Option String) (peerId verifyKey idToken : String) :
    (s.registerPairingRequest now pairingId deviceId label peerId verifyKey idToken).1.Within s := by
  simp only [registerPairingRequest]
  split
  · exact Within.of_eq rfl rfl rfl
  · split
    · split_ifs <;> exact Within.of_eq rfl rfl rfl
    · exact Within.of_eq rfl rfl rfl

theorem claimPairingRequest_within (s : SurfaceState) (now : Nat) (pairingId : String) :
    (s.claimPairingRequest now pairingId).1.Within s := by
  simp only [claimPairingRequest]
  split <;> exact Within.of_eq rfl rfl rfl

theorem issueClaimChallenge_within (s : SurfaceState) (now : Nat)
    (deviceId peerId idToken challenge : String) :
    (s.issueClaimChallenge now deviceId peerId idToken challenge).1.Within s := by
  simp only [issueClaimChallenge]
  split_ifs <;> exact Within.of_eq rfl rfl rfl

theorem dropWatchedSurfaceGeneration_within (s : SurfaceState) (surfaceId : String)
    (generation : Nat) : (s.dropWatchedSurfaceGeneration surfaceId generation).1.Within s := by
  unfold dropWatchedSurfaceGeneration
  split_ifs
  · exact s.dropWatchedSurface_within surfaceId
  · exact Within.of_eq rfl rfl rfl

theorem DeclaredByBound.setWatchedThreads {s : SurfaceState} (h : s.DeclaredByBound)
    {canonicalize : String → String} {cwdOf : String → Option String} {input : WatchThreadsInput}
    (hb : ∀ declaration ∈ (DeliveryOp.setWatchedThreads input).declaration s,
      ∀ deviceId ∈ s.onlineSurfacePeerDevices[declaration.1]?, deviceId = declaration.2) :
    (s.setWatchedThreads canonicalize cwdOf input).1.DeclaredByBound := by
  unfold SurfaceState.setWatchedThreads requireDeviceId
  unfold DeliveryOp.declaration at hb
  cases hdevice : nonEmpty input.deviceId with
  | none => exact h
  | some deviceId =>
    simp only [hdevice, Option.bind_some] at hb ⊢
    have hbound (hstale : s.isStaleDeclaration (s.declaredSurfaceId deviceId input.surfaceId)
        input.surfaceGeneration = false) :
        ∀ bound ∈ s.onlineSurfacePeerDevices[s.declaredSurfaceId deviceId input.surfaceId]?,
          bound = deviceId := by
      simpa [hstale] using hb
    have hregistered : (s.registerBrokerSurface
        (s.declaredSurfaceId deviceId input.surfaceId)).DeclaredByBound := ⟨h.keyed, h.declared⟩
    split_ifs
    · exact hregistered.setWatchedThreadsForGeneration hbound
    · exact h.setWatchedThreadsForGeneration hbound

variable {canonicalize sha256Hex : String → String}

/-- A step on the surfaces that keeps to the bound device keeps the invariant. -/
theorem DeclaredByBound.step {s : SurfaceState} (h : s.DeclaredByBound)
    {cwdOf : String → Option String} {now : Nat} {op : DeliveryOp}
    (hbind : ∀ binding ∈ op.binding sha256Hex s now,
      ∀ watched ∈ s.watchedThreads[binding.1]?, watched.deviceId = binding.2)
    (hdeclare : ∀ declaration ∈ op.declaration s,
      ∀ deviceId ∈ s.onlineSurfacePeerDevices[declaration.1]?, deviceId = declaration.2) :
    (s.step canonicalize sha256Hex cwdOf now op).DeclaredByBound := by
  cases op with
  | consumePairingTicket =>
    refine h.consumePairingTicket fun hopen => ?_
    simpa [DeliveryOp.binding, hopen] using hbind
  | decidePairingRequest =>
    refine h.decidePairingRequest fun happroved peerId deviceId hbinding => ?_
    simpa [DeliveryOp.binding, happroved, hbinding] using hbind
  | completeRemoteClaim =>
    refine h.completeRemoteClaim fun hok => ?_
    simpa [DeliveryOp.binding, hok] using hbind
  | markPairedDeviceSeen deviceId =>
    refine h.markPairedDeviceSeen fun hpaired => ?_
    simpa only [DeliveryOp.binding, hpaired, if_true, Option.mem_some_iff, forall_eq'] using hbind
  | bindSurfacePeerToDevice =>
    refine h.bind ?_
    simpa [DeliveryOp.binding] using hbind
  | setWatchedThreadsForGeneration =>
    refine h.setWatchedThreadsForGeneration fun hstale => ?_
    simpa [DeliveryOp.declaration, hstale] using hdeclare
  | setWatchedThreads => exact h.setWatchedThreads hdeclare
  | registerPairingRequest => exact h.within (registerPairingRequest_within ..)
  | claimPairingRequest => exact h.within (claimPairingRequest_within ..)
  | issueClaimChallenge => exact h.within (issueClaimChallenge_within ..)
  | claimChallenge =>
    simp only [SurfaceState.step, claimChallenge_fst]
    exact ⟨h.keyed, h.declared⟩
  | setAllowedRoots =>
    simp only [SurfaceState.step, SurfaceState.setAllowedRoots]
    split_ifs
    · exact h
    · exact ⟨h.keyed, h.declared⟩
  | setBrokerConnection connected => exact h.setBrokerConnection connected
  | markSurfacePeerOffline peerId => exact h.markSurfacePeerOffline peerId
  | replaceOnlineSurfacePeers peerIds => exact h.replaceOnlineSurfacePeers peerIds
  | dropWatchedSurface surfaceId => exact h.within (s.dropWatchedSurface_within surfaceId)
  | dropWatchedSurfaceGeneration surfaceId generation =>
    exact h.within (s.dropWatchedSurfaceGeneration_within surfaceId generation)
  | _ => exact ⟨h.keyed, h.declared⟩

end SurfaceState

namespace RelayState

theorem revokePairedDevice_within (s : RelayState) (now : Nat) (deviceId : String) :
    (s.revokePairedDevice now deviceId).1.surfaces.Within s.surfaces := by
  unfold revokePairedDevice clearOrchestratorPinIfDevice
  cases s.surfaces.pairedDevices[deviceId]? with
  | none => exact SurfaceState.Within.of_eq rfl rfl rfl
  | some device =>
    simp only
    split_ifs <;>
      exact ⟨fun _ _ h => SurfaceState.getElem?_of_erase h,
        fun _ _ h => SurfaceState.getElem?_of_filter h, fun _ _ h => h⟩

theorem revokeAllOtherPairedDevices_declaredByBound {s : RelayState} (now : Nat)
    (keepDeviceId : String) (h : s.surfaces.DeclaredByBound) :
    (s.revokeAllOtherPairedDevices now keepDeviceId).1.surfaces.DeclaredByBound := by
  unfold revokeAllOtherPairedDevices
  split_ifs with hkeep
  · clear hkeep
    generalize s.surfaces.pairedDevices.keys.filter (· ≠ keepDeviceId) = revoked
    -- One revocation after the other, each leaving less than it found.
    induction revoked generalizing s with
    | nil => exact h
    | cons deviceId rest ih => exact ih (h.within (s.revokePairedDevice_within now deviceId))
  · exact h

theorem restoredSurfaces_declaredByBound {persisted : PersistedRelayState}
    (hkeyed : KeyedById persisted.pairedDevices) (s : SurfaceState) :
    (persisted.restoredSurfaces s).DeclaredByBound :=
  ⟨hkeyed, fun _ _ _ _ h => by simp [PersistedRelayState.restoredSurfaces] at h⟩

variable {canonicalize sha256Hex : String → String}

theorem declaredByBound_deliveryStep {s : RelayState} {op : Nat × DeliveryOp}
    (h : s.surfaces.DeclaredByBound) (hop : KeepsToDevice sha256Hex s op) :
    (s.deliveryStep canonicalize sha256Hex op).surfaces.DeclaredByBound := by
  obtain ⟨now, op⟩ := op
  obtain ⟨hbind, hdeclare, hrestore⟩ := hop
  have hstep : (s.surfaces.step canonicalize sha256Hex s.cwdOf now op).DeclaredByBound :=
    h.step hbind hdeclare
  cases op with
  | relay op =>
    rcases s.step_surfaces now op with heq | ⟨data, persisted, rfl, heq⟩
    · simp only [deliveryStep, heq]
      exact h
    · simp only [deliveryStep, heq]
      exact restoredSurfaces_declaredByBound (hrestore persisted rfl) s.surfaces
  | applyPersisted persisted =>
    have hr := restoredSurfaces_declaredByBound (hrestore persisted rfl) s.surfaces
    exact ⟨hr.keyed, hr.declared⟩
  | revokePairedDevice deviceId => exact h.within (s.revokePairedDevice_within now deviceId)
  | revokeAllOtherPairedDevices keepDeviceId =>
    exact revokeAllOtherPairedDevices_declaredByBound now keepDeviceId h
  | _ => exact hstep

/-- In every run whose steps keep to the bound device, no thread is delivered to a device
outside whose scope or the relay's roots it lies. -/
theorem delivery_inScope_of_keepsToDevice (canonicalize sha256Hex : String → String)
    (currentCwd : String) (ops : List (Nat × DeliveryOp))
    (h : Along (deliveryStep canonicalize sha256Hex) (KeepsToDevice sha256Hex) (new currentCwd) ops) :
    Always (deliveryStep canonicalize sha256Hex) (DeliveryInScope canonicalize) (new currentCwd)
      ops := by
  have hinv := always_of_step (I := fun s : RelayState => s.surfaces.DeclaredByBound)
    (fun _ _ hs hop => declaredByBound_deliveryStep hs hop)
    (s := new currentCwd) SurfaceState.declaredByBound_empty h
  refine hinv.mono ?_
  intro s hs threadId target htarget
  exact hs.target_inScope htarget

/-- A phone allowed into one directory, online and bound, with a thread opened at `cwd`. -/
def scopedPhone (cwd : String) : List (Nat × DeliveryOp) :=
  [(100, .preparePairingTicket none ["/home/a"] "T1" "secret"),
    (101, .markSurfacePeerOnline "peer-1"),
    (102, .registerPairingRequest "pair-t1" (some "phone") (some "Phone") "peer-1" "key" "D1"),
    (103, .decidePairingRequest "pair-t1" true none "D1" "payload"),
    (104, .relay (.loadThreadData
      { thread := { id := "t", cwd := cwd }, status := "idle", activeFlags := [], transcript := [] }
      ⟨"untrusted", "workspace-write", "medium", "gpt-5.5"⟩ "desk"))]

def watchesThread (deviceId : String) (surfaceId : Option String) : Nat × DeliveryOp :=
  (105, .setWatchedThreads ⟨["t"], some deviceId, surfaceId, none⟩)

/-- The phone declares for itself and is sent the thread, which is in its scope. -/
theorem delivery_inScope_of_keepsToDevice_phone :
    Along (deliveryStep id id) (KeepsToDevice id) (new "/")
        (scopedPhone "/home/a/x" ++ [watchesThread "phone" none]) ∧
      ("phone", "peer-1", "payload") ∈ (run (deliveryStep id id) (new "/")
        (scopedPhone "/home/a/x" ++ [watchesThread "phone" none])).brokerTargetsForThread id "t" ∧
      Always (deliveryStep id id) (DeliveryInScope id) (new "/")
        (scopedPhone "/home/a/x" ++ [watchesThread "phone" none]) := by
  have h : Along (deliveryStep id id) (KeepsToDevice id) (new "/")
      (scopedPhone "/home/a/x" ++ [watchesThread "phone" none]) := by
    decide +kernel
  exact ⟨h, by decide +kernel, delivery_inScope_of_keepsToDevice id id "/" _ h⟩

/-- A local client that is not paired declares a watch set under the phone's peer id, and
the phone is sent a thread outside its scope. -/
theorem foreign_declaration_leaks :
    ¬Always (deliveryStep id id) (DeliveryInScope id) (new "/")
      (scopedPhone "/srv/b" ++ [watchesThread "laptop" (some "peer-1")]) := by
  intro h
  obtain ⟨device, hdevice, hscope⟩ := h.last "t" ("phone", "peer-1", "payload") (by decide +kernel)
  have hout : ∀ device ∈ (run (deliveryStep id id) (new "/") (scopedPhone "/srv/b" ++
      [watchesThread "laptop" (some "peer-1")])).surfaces.pairedDevices["phone"]?,
      device.pathScope = ["/home/a"] := by
    decide +kernel
  rw [hout device hdevice] at hscope
  revert hscope
  decide +kernel

end RelayState

end AgentRelay.Relay
