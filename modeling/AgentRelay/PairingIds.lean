import AgentRelay.DeviceIds
import AgentRelay.DeviceRecords

/-! One id from the request to the pairing. A request is shown and sent to the broker under the id
it was registered with, and the approval normalises that id again. -/
namespace AgentRelay.Relay
open Std StepRun

def NormalId (id : String) : Prop := normalizeRemoteDeviceId (some id) = some id

namespace SurfaceState
variable {s t : SurfaceState} {now : Nat}

/-- Paired devices are kept under their own ids. -/
def Keyed (s : SurfaceState) : Prop :=
  ∀ (id : String) device, s.pairedDevices[id]? = some device → device.deviceId = id

theorem Keyed.congr (h : s.Keyed) (hpaired : t.pairedDevices = s.pairedDevices) : t.Keyed := by
  rw [Keyed, hpaired]
  exact h

end SurfaceState

namespace TicketBook
variable {sha256Hex : String → String} {b b' : TicketBook} {e : Option PairingEvent}

structure NormalIds (b : TicketBook) : Prop where
  requests : ∀ (k : String) r, b.requests[k]? = some r → NormalId r.deviceId
  flows : ∀ flow ∈ b.flows, NormalId flow.request.deviceId

theorem NormalIds.prune (h : b.NormalIds) (now : Nat) : (b.prune now).NormalIds := by
  refine ⟨?_, h.flows⟩
  intro k r hr
  rw [getElem?_prune_requests] at hr
  exact h.requests k r (Option.filter_eq_some_iff.mp hr).1

theorem NormalIds.insert (h : b.NormalIds) {k : String} {r : PendingPairingRequest}
    (hr : NormalId r.deviceId) : { b with requests := b.requests.insert k r }.NormalIds := by
  refine ⟨?_, h.flows⟩
  intro k' r' hr'
  rw [Table.getElem?_insert_of] at hr'
  split_ifs at hr'
  · rw [← Option.some.inj hr']
    exact hr
  · exact h.requests k' r' hr'

theorem NormalIds.erase (h : b.NormalIds) (k : String) :
    { b with requests := b.requests.erase k }.NormalIds := by
  refine ⟨?_, h.flows⟩
  intro k' r' hr'
  rw [Table.getElem?_erase_of] at hr'
  split_ifs at hr'
  exact h.requests k' r' hr'

theorem NormalIds.settle (h : b.NormalIds) (pairingId : String) (completed : CompletedPairing) :
    (b.settle pairingId completed).NormalIds := ⟨(h.erase pairingId).requests, h.flows⟩

theorem NormalIds.handBack (h : b.NormalIds) {i : Nat} {flow : ApprovalFlow}
    (hflow : b.flows[i]? = some flow) : (b.handBack i flow).NormalIds := by
  have hflows : { b with flows := b.flows.eraseIdx i }.NormalIds :=
    ⟨h.requests, fun f hf => h.flows f (List.mem_of_mem_eraseIdx hf)⟩
  exact hflows.insert (h.flows flow (List.mem_of_getElem? hflow))

theorem NormalIds.step (h : b.NormalIds) (hstep : b.Step sha256Hex e b')
    (hquiet : ∀ pairingId key, e ≠ some (.registered pairingId key)) : b'.NormalIds := by
  cases hstep with
  | idle => exact h
  | prune now => exact h.prune now
  | prepare now p hsealed => exact ⟨(h.prune now).requests, h.flows⟩
  | register now r hticket hkey => exact absurd rfl (hquiet r.pairingId r.deviceVerifyKey)
  | claim now id r hr =>
    refine ⟨((h.prune now).erase id).requests, ?_⟩
    intro flow hflow
    obtain hold | hnew := List.mem_append.mp hflow
    · exact h.flows flow hold
    · rw [List.mem_singleton.mp hnew]
      exact (h.prune now).requests id r hr
  | restore i flow hflow => exact h.handBack hflow
  | late i flow hflow hr => exact (h.handBack hflow).prune flow.now
  | approve i flow r completed deviceId hflow hr hkey =>
    exact ((h.handBack hflow).prune flow.now).settle flow.pairingId completed
  | reject now id r completed hr hkey => exact (h.prune now).settle id completed
  | deliver now id completed secret hc => exact h.prune now

end TicketBook

/-- The id that a registration asks for is not cut behind a dash. -/
def PairingOp.KeepsId : PairingOp → Prop
  | .register _ _ requestedDeviceId _ _ _ _ => ∀ value ∈ requestedDeviceId, ¬CutAtDash value
  | _ => True

def PairingOp.DrawsToken : PairingOp → Prop
  | .register _ _ _ _ _ _ idToken => IsIdToken idToken
  | _ => True

namespace PairingDesk
variable {sha256Hex : String → String} {desk : PairingDesk}

theorem normalId_of_uncut {value : Option String} {id : String}
    (hcut : ∀ v ∈ value, ¬CutAtDash v) (h : normalizeRemoteDeviceId value = some id) :
    NormalId id := by
  cases value with
  | none => cases h
  | some value => exact (normalized_again_iff h).mpr (hcut value rfl)

theorem normalId_fresh {idToken : String} (h : IsIdToken idToken) :
    NormalId (SurfaceState.freshDeviceId idToken) := by
  refine h.isDeviceId.normalized fun hempty => ?_
  have hlength := congrArg String.length hempty
  rw [SurfaceState.freshDeviceId, String.length_append] at hlength
  simp at hlength

theorem normalIds_register (h : desk.book.NormalIds) {now : Nat} {pairingId : String}
    {requestedDeviceId deviceLabel : Option String} {peerId deviceVerifyKey idToken : String}
    (hcut : ∀ value ∈ requestedDeviceId, ¬CutAtDash value) (htoken : IsIdToken idToken) :
    (desk.registerPairingRequest now pairingId requestedDeviceId deviceLabel peerId
      deviceVerifyKey idToken).1.book.NormalIds := by
  simp only [registerPairingRequest]
  obtain ⟨error, heq⟩ | ⟨r, -, -, -, -, hid, heq⟩ := desk.surfaces.register_cases now pairingId
    requestedDeviceId deviceLabel peerId deviceVerifyKey idToken
  · rw [heq]
    exact h.prune now
  · rw [heq]
    refine (h.prune now).insert (k := pairingId) ?_
    rw [hid]
    cases hrequested : normalizeRemoteDeviceId requestedDeviceId with
    | some id => exact normalId_of_uncut hcut hrequested
    | none =>
      cases hold : (desk.surfaces.pruneExpiredPairings now).pendingPairingRequests[pairingId]? with
      | none => exact normalId_fresh htoken
      | some old => exact (h.prune now).requests pairingId old hold

theorem normalIds_step (hfiled : desk.book.Filed sha256Hex) (h : desk.book.NormalIds)
    (op : PairingOp) (hcut : op.KeepsId) (htoken : op.DrawsToken) :
    (desk.step sha256Hex op).book.NormalIds := by
  by_cases hregister : ∃ pairingId key,
      desk.event sha256Hex op = some (.registered pairingId key)
  · obtain ⟨pairingId, key, hevent⟩ := hregister
    obtain ⟨now, hop, -⟩ := registration_of_event hfiled hevent
    cases op with
    | register now id requestedDeviceId deviceLabel peerId deviceVerifyKey idToken =>
      exact normalIds_register h hcut htoken
    | _ => cases hop
  · push Not at hregister
    exact h.step (step_book hfiled op) hregister

theorem Moves.keyed {ids : List String} {next : PairingDesk} (h : Moves ids desk next)
    (hkeyed : desk.surfaces.Keyed) : next.surfaces.Keyed := by
  induction h with
  | same hpaired _ _ => exact hkeyed.congr hpaired
  | write _ hid hpaired _ _ =>
    intro k d hd
    rw [hpaired, Table.getElem?_insert_of] at hd
    split_ifs at hd with hk
    · rw [← Option.some.inj hd, hid (hkeyed _), hk]
    · exact hkeyed k d hd
  | revoke _ _ _ hpaired _ _ =>
    intro k d hd
    rw [hpaired, Table.getElem?_erase_of] at hd
    split_ifs at hd
    exact hkeyed k d hd
  | trans _ _ ih ih' => exact ih' (ih hkeyed)

theorem keyed_step (hfiled : desk.book.Filed sha256Hex) (h : desk.surfaces.Keyed)
    (op : PairingOp) : (desk.step sha256Hex op).surfaces.Keyed := by
  cases op with
  | reject now pairingId => exact h.congr (pairedDevices_reject now pairingId)
  | _ => exact (moves_step hfiled _ rfl).keyed h

/-- The request an approval takes out is the one that is shown, and the device that comes of it
has the id that the broker issued its credential for. -/
def IdsAgree (sha256Hex : String → String) (desk : PairingDesk) : PairingOp → Prop
  | .approve now pairingId => ∀ request, (desk.beginApproval now pairingId).2 = .ok request →
      (desk.surfaces.pruneExpiredPairings now).pendingPairingRequests[pairingId]? = some request ∧
      (desk.step sha256Hex (.approve now pairingId)).flows =
        desk.flows ++ [⟨pairingId, request, now⟩]
  | op@(.issued i ..) => ∀ flow ∈ desk.flows[i]?, ∀ pairingId key deviceId,
      desk.event sha256Hex op = some (.approved pairingId key deviceId) →
        deviceId = flow.request.deviceId ∧
        ∃ device, (desk.step sha256Hex op).surfaces.pairedDevices[deviceId]? = some device ∧
          device.deviceId = deviceId
  | _ => True

/-- An approval that is decided is one of the request it took out, under the id of that. -/
theorem decide_claimed (desk : PairingDesk) {flow : ApprovalFlow}
    (hfiled : (desk.restorePairingRequest flow.request).book.Filed sha256Hex)
    (hkeyed : desk.surfaces.Keyed) (hid : flow.request.pairingId = flow.pairingId)
    (hnormal : NormalId flow.request.deviceId) (expiresAt : Option Nat)
    (idToken payloadSecret : String) {result : PendingPairingResult}
    (hresult : ((desk.restorePairingRequest flow.request).decidePairingRequest sha256Hex flow.now
      flow.pairingId true expiresAt idToken payloadSecret).2 = .ok result) :
    (∀ device ∈ result.device, device.deviceId = flow.request.deviceId) ∧
      ((desk.restorePairingRequest flow.request).decidePairingRequest sha256Hex flow.now
        flow.pairingId true expiresAt idToken payloadSecret).1.surfaces.pairedDevices.contains
          flow.request.deviceId := by
  rw [surfaces_decide]
  generalize hlent : desk.restorePairingRequest flow.request = lent at hfiled hresult ⊢
  have hrestored : lent.surfaces.Keyed := hkeyed.congr (by rw [← hlent]; rfl)
  cases hr : (lent.surfaces.pruneExpiredPairings
    flow.now).pendingPairingRequests[flow.pairingId]? with
  | none =>
    rw [decide_none true expiresAt idToken payloadSecret hr] at hresult
    cases hresult
  | some r =>
    obtain rfl : flow.request = r := by
      rw [SurfaceState.getElem?_prune_pendingPairingRequests] at hr
      have hrequest := (Option.filter_eq_some_iff.mp hr).1
      rw [← hlent] at hrequest
      change (desk.surfaces.pendingPairingRequests.insert flow.request.pairingId
        flow.request)[flow.pairingId]? = some r at hrequest
      rw [hid, ExtTreeMap.getElem?_insert_self] at hrequest
      exact Option.some.inj hrequest
    obtain ⟨p, hp⟩ := SurfaceState.ticket_of_request hr
    have hsealed := (hfiled.prune flow.now).sealed flow.pairingId p hp
    have hdecided := SurfaceState.decide_approved expiresAt idToken payloadSecret hr hp hsealed
    dsimp only at hdecided
    rw [show normalizeRemoteDeviceId (some flow.request.deviceId) = _ from hnormal,
      Option.getD_some] at hdecided
    have hdevice := SurfaceState.approvedDevice_deviceId (hrestored flow.request.deviceId) flow.now
      flow.request p.pathScope expiresAt payloadSecret
    constructor
    · intro device hmem
      simp only [decidePairingRequest, hdecided, hr, hp] at hresult
      rw [← Except.ok.inj hresult] at hmem
      rw [← Option.some.inj hmem]
      exact hdevice
    · rw [hdecided]
      change (ExtTreeMap.insert _ flow.request.deviceId _).contains flow.request.deviceId
      rw [ExtTreeMap.contains_insert_self]

theorem idsAgree_step (hfiled : desk.book.Filed sha256Hex) (hids : desk.book.NormalIds)
    (hkeyed : desk.surfaces.Keyed) (op : PairingOp) : desk.IdsAgree sha256Hex op := by
  cases op with
  | approve now pairingId =>
    intro request hrequest
    simp only [step, beginApproval, SurfaceState.claimPairingRequest] at hrequest ⊢
    cases hr : (desk.surfaces.pruneExpiredPairings now).pendingPairingRequests[pairingId]? with
    | none =>
      rw [hr] at hrequest
      cases hrequest
    | some r =>
      rw [hr] at hrequest
      obtain rfl : r = request := by simpa using hrequest
      exact ⟨rfl, rfl⟩
  | issued i credential grant idToken payloadSecret =>
    intro flow hflow pairingId key deviceId hevent
    have hmem := List.mem_of_getElem? hflow
    have hfinish : (PairingDesk.finishApproval sha256Hex
        { desk with flows := desk.flows.eraseIdx i } flow credential grant idToken
        payloadSecret).1.surfaces.Keyed :=
      (moves_finishApproval flow hfiled.handBack credential grant idToken payloadSecret).keyed hkeyed
    simp only [event, show desk.flows[i]? = some flow from hflow, Option.bind_some] at hevent
    simp only [step, show desk.flows[i]? = some flow from hflow]
    split at hevent
    · next result hresult =>
      obtain ⟨hid, hcontains⟩ := decide_claimed { desk with flows := desk.flows.eraseIdx i }
        hfiled.handBack hkeyed (hfiled.flows flow hmem) (hids.flows flow hmem)
        credential.joinExpiresAt idToken payloadSecret hresult
      obtain ⟨device, hsome, happroved⟩ := Option.map_eq_some_iff.mp hevent
      obtain rfl : device.deviceId = deviceId := by injection happroved
      have hkept := (moves_decided flow credential grant idToken payloadSecret).contains
        List.not_mem_nil hcontains
      rw [ExtTreeMap.contains_eq_isSome_getElem?, Option.isSome_iff_exists] at hkept
      obtain ⟨paired, hpaired⟩ := hkept
      refine ⟨hid device hsome, paired, ?_, ?_⟩
      · rw [hid device hsome]
        exact hpaired
      · rw [hid device hsome]
        exact hfinish _ paired hpaired
    · cases hevent
  | _ => trivial

/-- Device ids are stable exactly where the cut is not behind a dash: an id is then well formed and
normalised once and for all, and in every run whose registrations ask for such ids every device
is paired under the id that was shown and that its credential was issued for. -/
theorem deviceIds_stable_iff (sha256Hex : String → String) (relay : RelayState) :
    (∀ value id, normalizeRemoteDeviceId (some value) = some id →
      (IsDeviceId id ∧ normalizeRemoteDeviceId (some id) = some id ↔ ¬CutAtDash value)) ∧
    ∀ ops : List PairingOp,
      relay.surfaces.Keyed → (∀ op ∈ ops, op.KeepsId ∧ op.DrawsToken) →
        Along (step sha256Hex) (IdsAgree sha256Hex) (opened relay) ops := by
  constructor
  · intro value id h
    rw [normalized_again_iff h, isDeviceId_iff h, and_self]
  · intro ops hkeyed hops
    have hstart : (opened relay).book.Filed sha256Hex ∧ (opened relay).book.NormalIds ∧
        (opened relay).surfaces.Keyed := by
      refine ⟨filed_opened relay, ⟨?_, ?_⟩, hkeyed.congr rfl⟩
      · intro k r hr
        simp [book, opened] at hr
      · intro flow hflow
        cases hflow
    have hnormal : Along (step sha256Hex) (fun _ op => True ∧ op.KeepsId ∧ op.DrawsToken)
        (opened relay) ops := (along_of_forall (fun _ _ => trivial) (opened relay) ops).and_mem hops
    refine along_of_step (I := fun desk => desk.book.Filed sha256Hex ∧ desk.book.NormalIds ∧
      desk.surfaces.Keyed) ?_ hstart hnormal
    rintro desk op ⟨hfiled, hids, hkeyed⟩ ⟨-, hcut, htoken⟩
    exact ⟨⟨hfiled.step (step_book hfiled op), normalIds_step hfiled hids op hcut htoken,
      keyed_step hfiled hkeyed op⟩, idsAgree_step hfiled hids hkeyed op⟩

def pairsAs (deviceId : String) : List PairingOp :=
  [.prepare 100 none [] "q" "qr-secret",
    .register 101 "pair-q" (some deviceId) none "peer-1" "key-1" "Abcd1234",
    .approve 102 "pair-q", .issued 0 ⟨none, "join", some 900⟩ none "y" "payload"]

theorem phone_keeps_id :
    (IsDeviceId "my-phone" ∧ normalizeRemoteDeviceId (some "my-phone") = some "my-phone" ↔
      ¬CutAtDash "My Phone") ∧
    Along (step fun secret => secret) (IdsAgree fun secret => secret) (opened {})
      (pairsAs "My Phone") := by
  have hnormal : normalizeRemoteDeviceId (some "My Phone") = some "my-phone" := by decide +kernel
  have hid : IsDeviceId "my-phone" := by
    refine ⟨by decide +kernel, by simp, by decide +kernel, by decide +kernel, by decide +kernel⟩
  have hcut := (isDeviceId_iff hnormal).mp hid
  refine ⟨(deviceIds_stable_iff id {}).1 "My Phone" "my-phone" hnormal,
    (deviceIds_stable_iff _ {}).2 (pairsAs "My Phone") ?_ ?_⟩
  · intro id device hdevice
    simp at hdevice
  · intro op hop
    simp only [pairsAs, List.mem_cons, List.not_mem_nil, or_false] at hop
    obtain rfl | rfl | rfl | rfl := hop
    · exact ⟨trivial, trivial⟩
    · refine ⟨?_, ⟨by decide +kernel, by simp⟩⟩
      rintro value ⟨⟩
      exact hcut
    · exact ⟨trivial, trivial⟩
    · exact ⟨trivial, trivial⟩

def longWord : String := String.ofList (List.replicate 47 'a')

/-- With a dash in the 48th place the credential is issued for another id than the device gets. -/
theorem cut_id_disagrees :
    ¬((∀ value id, normalizeRemoteDeviceId (some value) = some id →
        IsDeviceId id ∧ normalizeRemoteDeviceId (some id) = some id) ∧
      ∀ (sha256Hex : String → String) (relay : RelayState) (ops : List PairingOp),
        relay.surfaces.Keyed → (∀ op ∈ ops, op.DrawsToken) →
          Along (step sha256Hex) (IdsAgree sha256Hex) (opened relay) ops) ∧
    ¬Along (step fun secret => secret) (IdsAgree fun secret => secret) (opened {})
      (pairsAs (longWord ++ "-b")) := by
  constructor
  · intro h
    have hnormal : normalizeRemoteDeviceId (some (longWord ++ "-b")) = some (longWord ++ "-") := by
      decide +kernel
    exact absurd (h.1 _ _ hnormal).2 (by decide +kernel)
  · rintro ⟨-, -, -, hissued, -⟩
    have hevent : (run (step fun secret => secret) (opened {})
        ((pairsAs (longWord ++ "-b")).take 3)).event (fun secret => secret)
          (.issued 0 ⟨none, "join", some 900⟩ none "y" "payload") =
        some (.approved "pair-q" "key-1" longWord) := by
      decide +kernel
    have hflow : ((run (step fun secret => secret) (opened {})
        ((pairsAs (longWord ++ "-b")).take 3)).flows[0]?.map (·.request.deviceId)) =
        some (longWord ++ "-") := by
      decide +kernel
    obtain ⟨flow, hflow, hid⟩ := Option.map_eq_some_iff.mp hflow
    have hagree := (hissued flow hflow _ _ _ hevent).1
    rw [hid] at hagree
    exact absurd hagree (by decide +kernel)

end PairingDesk

end AgentRelay.Relay
