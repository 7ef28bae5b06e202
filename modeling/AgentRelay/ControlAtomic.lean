import AgentRelay.ControlStep

/-! A failed operation of the control plane leaves every credential as it was, and after each
operation the backend holds what memory does. -/
namespace AgentRelay.Control
open Text RecordTables Std

/-- What a caller can show: a token, by its hash, with what it is meant to open. -/
inductive Credential
  | relay (tokenHash relayId brokerRoomId : String)
  | client (tokenHash clientId : String)
  | device (tokenHash brokerRoomId deviceId : String)
  | clientRelay (tokenHash relayId : String)
  deriving DecidableEq, Repr

namespace PublicControlStateStore

def accepts (s : PublicControlStateStore) (now : Nat) : Credential → Bool
  | .relay tokenHash relayId brokerRoomId =>
    s.relayRegistrationsByHash[tokenHash]?.any fun registration =>
      registration.relayId = relayId ∧ registration.brokerRoomId = brokerRoomId
  | .client tokenHash clientId =>
    (findClientIdentityForToken s tokenHash now).any fun found => found.2.clientId = clientId
  | .device tokenHash brokerRoomId deviceId =>
    (findDeviceGrantForToken s tokenHash now).any fun found =>
      found.2.brokerRoomId = brokerRoomId ∧ found.2.deviceId = deviceId
  | .clientRelay tokenHash relayId =>
    (findClientIdentityForToken s tokenHash now).any fun found =>
      s.clientRelayGrantsByKey.values.any fun grant =>
        grant.clientId = found.2.clientId ∧ grant.relayId = relayId

theorem findForToken_view {V W : Type} {now : Nat} {superseded : V → List SupersededToken}
    (view : V → W) (opens : W → String → Bool)
    (hopens : ∀ v hash, opens (view v) hash = honours (superseded v) hash now) (m : Table V)
    (tokenHash : String) :
    (findForToken superseded m tokenHash now).map (fun found => view found.2) =
      match (m.map fun _ v => view v)[tokenHash]? with
      | some w => some w
      | none => ((m.map fun _ v => view v).toList.find? fun entry => opens entry.2 tokenHash).map
          (·.2) := by
  unfold findForToken
  rw [ExtTreeMap.getElem?_map]
  cases m[tokenHash]? with
  | some v => rfl
  | none =>
    have hpred : (fun entry : String × V => honours (superseded entry.2) tokenHash now) =
        fun entry => opens (view entry.2) tokenHash := by
      funext entry
      rw [hopens]
    simp only [Option.map_none, ExtTreeMap.toList_map, List.find?_map, Option.map_map, hpred]
    rfl

theorem findForToken_congr {V W : Type} {now : Nat} {superseded : V → List SupersededToken}
    (view : V → W) (opens : W → String → Bool)
    (hopens : ∀ v hash, opens (view v) hash = honours (superseded v) hash now) {m n : Table V}
    (h : ∀ k : String, (n[k]?).map view = (m[k]?).map view) (tokenHash : String) :
    (findForToken superseded n tokenHash now).map (fun found => view found.2) =
      (findForToken superseded m tokenHash now).map (fun found => view found.2) := by
  have hmap : (n.map fun _ v => view v) = m.map fun _ v => view v := by
    apply ExtTreeMap.ext_getElem?
    intro k
    rw [ExtTreeMap.getElem?_map, ExtTreeMap.getElem?_map]
    exact h k
  rw [findForToken_view view opens hopens, findForToken_view view opens hopens, hmap]

variable {s t : PublicControlStateStore} {now : Nat}

theorem any_view {V W : Type} {view : V → W} (test : W → Bool) {f g : Option (String × V)}
    (h : f.map (fun found => view found.2) = g.map fun found => view found.2) :
    (f.any fun found => test (view found.2)) = g.any fun found => test (view found.2) := by
  have hany := congrArg (Option.any test) h
  rwa [Option.any_map, Option.any_map] at hany

theorem Renewed.accepts (h : Renewed now s t) (credential : Credential) :
    t.accepts now credential = s.accepts now credential := by
  have hclient := findForToken_congr (PersistedClientIdentity.view now) (·.2.2)
    (fun _ _ => rfl) h.clients
  have hdevice := findForToken_congr (PersistedDeviceGrant.view now) (·.2.2.2)
    (fun _ _ => rfl) h.grants
  cases credential with
  | relay tokenHash relayId brokerRoomId =>
    simp only [PublicControlStateStore.accepts, h.relays]
  | client tokenHash clientId =>
    exact any_view (fun w => decide (w.1 = clientId)) (hclient tokenHash)
  | device tokenHash brokerRoomId deviceId =>
    exact any_view (fun w => decide (w.2.1 = brokerRoomId ∧ w.2.2.1 = deviceId))
      (hdevice tokenHash)
  | clientRelay tokenHash relayId =>
    simp only [PublicControlStateStore.accepts, h.relayGrants]
    exact any_view (fun w => s.clientRelayGrantsByKey.values.any fun grant =>
      decide (grant.clientId = w.1 ∧ grant.relayId = relayId)) (hclient tokenHash)

end PublicControlStateStore

namespace PublicControlPlane
open PublicControlStateStore

variable {p : PublicControlPlane} {c : Crypto} {op : Env × ControlOp}

def fresh (backend : Backend) (rotationGraceSecs : Nat) : PublicControlPlane :=
  { persistence := backend, rotationGraceSecs := rotationGraceSecs }

theorem inStep_fresh (backend : Backend) (rotationGraceSecs : Nat) :
    (fresh backend rotationGraceSecs).InStep where
  keyed := keyed_empty
  keyedPersisted := keyed_empty
  snapshot _ _ := rfl
  settled _ := rfl
  agree _ _ := rfl
  marker _ _ _ := markerAhead_of_eq _ _ rfl

theorem kept_fresh {P Q : PublicControlStateStore → Prop} (hP : P {}) (hQ : Q {})
    (backend : Backend) (rotationGraceSecs : Nat) : Kept P Q (fresh backend rotationGraceSecs) :=
  { keyed := keyed_empty, keyedPersisted := keyed_empty, snapshot := fun _ _ => rfl
    settled := fun _ => rfl, agree := fun _ _ => ⟨rfl, rfl⟩, state := hP, database := fun _ => hP
    stored := hQ }

/-- If the operation reports an error, everybody's access is what it was before the call. -/
def FailsClean (c : Crypto) (p : PublicControlPlane) (op : Env × ControlOp) : Prop :=
  ∀ e, (p.perform c op).2 = .error e → ∀ credential,
    (p.step c op).live.accepts op.1.authNow credential = p.live.accepts op.1.authNow credential ∧
    (p.step c op).persisted.accepts op.1.authNow credential =
      p.persisted.accepts op.1.authNow credential

/-- A step whose saves are all known to have happened or not, that can make out its ticket, and
that leaves nothing edited and unsaved. -/
structure Spares (c : Crypto) (p : PublicControlPlane) (op : Env × ControlOp) : Prop where
  dependable : p.Dependable op.1
  careful : p.Careful c op.2
  mints : Mints op.2

instance (c : Crypto) (p : PublicControlPlane) (op : Env × ControlOp) :
    Decidable (Spares c p op) :=
  decidable_of_iff (p.Dependable op.1 ∧ p.Careful c op.2 ∧ Mints op.2)
    ⟨fun h => ⟨h.1, h.2.1, h.2.2⟩, fun h => ⟨h.dependable, h.careful, h.mints⟩⟩

theorem InStep.failsClean (h : p.InStep) (hs : Spares c p op) : FailsClean c p op := by
  intro e he credential
  have hperform := h.perform hs.dependable hs.careful
  rcases hperform.moved with hsame | ⟨s, next, reply, -, -, hok, -⟩
  · exact ⟨hsame.live.accepts credential, hsame.persisted.accepts credential⟩
  · exact absurd (he.symm.trans (hok hs.mints)) (by simp)

/-- In a run that spares the backend, no failed operation changes who is let in. -/
theorem failures_change_no_access (c : Crypto) (backend : Backend) (rotationGraceSecs : Nat)
    (ops : List (Env × ControlOp))
    (h : StepRun.Along (step c) (Spares c) (fresh backend rotationGraceSecs) ops) :
    StepRun.Along (step c) (FailsClean c) (fresh backend rotationGraceSecs) ops := by
  refine StepRun.along_of_step (I := InStep) (fun p op hin hs => ?_)
    (inStep_fresh backend rotationGraceSecs) h
  exact ⟨(hin.perform hs.dependable hs.careful).inStep, hin.failsClean hs⟩

/-- A hash and a signature check that can be run by hand. -/
def plainCrypto : Crypto where
  sha256Hex token := token
  verifies _ _ signature := signature = "signed"
  validVerifyKey _ := true

/-- A backend that does all it is asked, at one moment. -/
def quiet (now : Nat) : Env := { authNow := now, pruneNow := now, checkNow := now, now := now }

theorem failures_change_no_access_wrong_room :
    StepRun.Along (step plainCrypto) (FailsClean plainCrypto) (fresh (.postgres false) 100)
      [(quiet 5, .issueRelayRegistration "key" none [("a", "r")] "one"),
        (quiet 6, .issueDeviceGrant "rref-one" "relay-a" "room-r" "phone" none "two"),
        ({ quiet 7 with write := { error := some "connection lost", landed := true } },
          .issueDeviceGrant "rref-one" "relay-a" "room-r" "phone" none "three"),
        (quiet 8, .revokeDeviceGrant "rref-one" "relay-a" "elsewhere" "phone")] :=
  failures_change_no_access plainCrypto (.postgres false) 100 _ (by decide +kernel)

/-- A file that cannot be written: the relay is told so, and its old token is gone. -/
theorem failed_write_drops_token :
    ¬ StepRun.Along (step plainCrypto) (FailsClean plainCrypto) (fresh .json 100)
      [(quiet 5, .issueRelayRegistration "key" none [("a", "r")] "one"),
        ({ quiet 6 with write := { error := some "disk full" } },
          .issueRelayRegistration "key" none [] "two")] := by
  intro h
  have hclean := h.2.1 "disk full" (by decide +kernel) (.relay "rref-one" "relay-a" "room-r")
  exact absurd hclean.1 (by decide +kernel)

def DropsDevice : ControlOp → PersistedDeviceGrant → Prop
  | .revokeDeviceGrant _ relayId brokerRoomId deviceId, grant =>
    grant.relayId = relayId ∧ grant.brokerRoomId = brokerRoomId ∧ grant.deviceId = deviceId
  | .revokeOtherDeviceGrants _ relayId brokerRoomId keepDeviceId, grant =>
    grant.relayId = relayId ∧ grant.brokerRoomId = brokerRoomId ∧ grant.deviceId ≠ keepDeviceId
  | _, _ => False

def DropsRelayGrant : ControlOp → ControlReply → PersistedClientRelayGrant → Prop
  | .revokeDeviceGrant _ relayId brokerRoomId deviceId, _, grant =>
    grant.relayId = relayId ∧ grant.brokerRoomId = brokerRoomId ∧ grant.deviceId = deviceId
  | .revokeOtherDeviceGrants _ relayId brokerRoomId keepDeviceId, _, grant =>
    grant.relayId = relayId ∧ grant.brokerRoomId = brokerRoomId ∧ grant.deviceId ≠ keepDeviceId
  | .revokeClientIdentity _, .revokedClient clientId, grant => grant.clientId = clientId
  | _, _, _ => False

structure Dropped (op : ControlOp) (reply : ControlReply) (s : PublicControlStateStore) : Prop where
  devices : ∀ (k : String) grant, s.grantsByHash[k]? = some grant → ¬ DropsDevice op grant
  relayGrants : ∀ (k : String) grant,
    s.clientRelayGrantsByKey[k]? = some grant → ¬ DropsRelayGrant op reply grant

theorem matchesOptionalRelayTarget_iff {relayId brokerRoomId deviceId : String}
    {actualRelayId actualRoom actualDevice : String} :
    matchesOptionalRelayTarget actualRelayId actualRoom actualDevice relayId (some brokerRoomId)
        (some deviceId) = true ↔
      actualRelayId = relayId ∧ actualRoom = brokerRoomId ∧ actualDevice = deviceId := by
  simp only [matchesOptionalRelayTarget, Option.all_some, Bool.and_eq_true, decide_eq_true_eq]
  constructor
  · rintro ⟨⟨rfl, rfl⟩, rfl⟩
    exact ⟨rfl, rfl, rfl⟩
  · rintro ⟨rfl, rfl, rfl⟩
    exact ⟨⟨rfl, rfl⟩, rfl⟩

theorem Writes.dropped {reply : ControlReply} {s next : PublicControlStateStore}
    (h : p.Writes c op reply s next) : Dropped op.2 reply next := by
  cases h with
  | revokeDevice =>
    refine ⟨fun k grant hk hdrops => ?_, fun k grant hk hdrops => ?_⟩
    · rw [removeClientRelayGrants, removeDeviceGrants, getElem?_removeMatchingEntries] at hk
      have hkept := (Option.filter_eq_some_iff.mp hk).2
      rw [matchesOptionalRelayTarget_iff.mpr hdrops] at hkept
      exact absurd hkept (by simp)
    · rw [removeClientRelayGrants, getElem?_removeMatchingEntries] at hk
      have hkept := (Option.filter_eq_some_iff.mp hk).2
      rw [matchesOptionalRelayTarget_iff.mpr hdrops] at hkept
      exact absurd hkept (by simp)
  | revokeOthers =>
    refine ⟨fun k grant hk hdrops => ?_, fun k grant hk hdrops => ?_⟩
    · rw [removeAllOtherClientRelayGrants, removeAllOtherDeviceGrants,
        getElem?_collectRemovedDeviceIds] at hk
      have hkept := (Option.filter_eq_some_iff.mp hk).2
      have hother : grant.relayId = _ ∧ grant.brokerRoomId = _ ∧ grant.deviceId ≠ _ := hdrops
      rw [if_pos hother] at hkept
      exact absurd hkept (by simp)
    · rw [removeAllOtherClientRelayGrants, getElem?_collectRemovedDeviceIds] at hk
      have hkept := (Option.filter_eq_some_iff.mp hk).2
      have hother : grant.relayId = _ ∧ grant.brokerRoomId = _ ∧ grant.deviceId ≠ _ := hdrops
      rw [if_pos hother] at hkept
      exact absurd hkept (by simp)
  | revokeClient clientId =>
    refine ⟨fun k grant _ hdrops => hdrops, fun k grant hk hdrops => ?_⟩
    rw [removeClientRelayGrantsByClientId, getElem?_removeMatchingEntries] at hk
    have hkept := (Option.filter_eq_some_iff.mp hk).2
    have hid : grant.clientId = clientId := hdrops
    rw [decide_eq_true hid] at hkept
    exact absurd hkept (by simp)
  | _ => exact ⟨fun _ _ _ hdrops => hdrops, fun _ _ _ hdrops => hdrops⟩

theorem Dropped.of_durable {o : ControlOp} {reply : ControlReply} {s t : PublicControlStateStore}
    (h : Dropped o reply t) (hs : s.durable = t.durable) : Dropped o reply s := by
  refine ⟨fun k grant hk hdrops => ?_, fun k grant hk => ?_⟩
  · obtain ⟨grant', hk', hunseen⟩ := getElem?_unseen hs hk
    have hrelay : grant'.relayId = grant.relayId := congrArg (·.relayId) hunseen
    have hroom : grant'.brokerRoomId = grant.brokerRoomId := congrArg (·.brokerRoomId) hunseen
    have hdevice : grant'.deviceId = grant.deviceId := congrArg (·.deviceId) hunseen
    apply h.devices k grant' hk'
    cases o with
    | revokeDeviceGrant =>
      exact ⟨hrelay.trans hdrops.1, hroom.trans hdrops.2.1, hdevice.trans hdrops.2.2⟩
    | revokeOtherDeviceGrants =>
      exact ⟨hrelay.trans hdrops.1, hroom.trans hdrops.2.1, hdevice ▸ hdrops.2.2⟩
    | _ => exact hdrops
  · rw [(durable_eq.mp hs).2.2.2] at hk
    exact h.relayGrants k grant hk

/-- After the operation the backend holds the records that memory does, the markers of activity
apart; and what a revocation was to drop is not there after a restart. -/
structure Mirrors (c : Crypto) (p : PublicControlPlane) (op : Env × ControlOp) : Prop where
  persisted : p.persistence ≠ .inMemory →
    (p.step c op).persisted.durable = (p.step c op).live.durable
  memory : p.persistence ≠ .inMemory → (p.step c op).needsReload = false →
    (p.step c op).persisted.durable = (p.step c op).state.durable
  restarted : p.persistence ≠ .inMemory →
    (p.step c op).reopened.state.durable = (p.step c op).live.durable
  dropped : ∀ reply, (p.perform c op).2 = .ok reply →
    Dropped op.2 reply (p.step c op).reopened.state

theorem edits_of_dropsDevice {o : ControlOp} {grant : PersistedDeviceGrant}
    (h : DropsDevice o grant) : Edits o := by
  cases o <;> first | exact trivial | exact h.elim

theorem edits_of_dropsRelayGrant {o : ControlOp} {reply : ControlReply}
    {grant : PersistedClientRelayGrant} (h : DropsRelayGrant o reply grant) : Edits o := by
  cases o <;> first | exact trivial | exact h.elim

theorem InStep.mirrors (h : p.InStep) (hd : p.Dependable op.1) (hcareful : p.Careful c op.2) :
    Mirrors c p op := by
  have hperform := h.perform hd hcareful
  have hin : (p.step c op).InStep := hperform.inStep
  have hback : (p.step c op).persistence = p.persistence := by
    rcases hperform.moved with hsame | ⟨s, next, reply, -, -, -, hholds⟩
    · exact hsame.persistence
    · exact hholds.persistence
  have hpersisted : p.persistence ≠ .inMemory →
      (p.step c op).persisted.durable = (p.step c op).live.durable := fun hne =>
    hin.live_persisted (hback ▸ hne)
  have hrestarted : p.persistence ≠ .inMemory →
      (p.step c op).reopened.state.durable = (p.step c op).live.durable := fun hne => by
    have hloaded : (p.step c op).reopened.state = (p.step c op).persisted := if_neg (hback ▸ hne)
    rw [hloaded]
    exact hpersisted hne
  have hmemory : p.persistence ≠ .inMemory → (p.step c op).needsReload = false →
      (p.step c op).persisted.durable = (p.step c op).state.durable := fun hne hready =>
    (hin.agree (hback ▸ hne) hready).symm
  refine ⟨hpersisted, hmemory, hrestarted, fun reply hok => ?_⟩
  by_cases hmem : p.persistence = .inMemory
  · have hempty : (p.step c op).reopened.state = {} := if_pos (hback ▸ hmem)
    rw [hempty]
    exact ⟨fun k grant hk => absurd hk (by simp), fun k grant hk => absurd hk (by simp)⟩
  · have hlive : Edits op.2 → Dropped op.2 reply (p.step c op).live := fun hedits => by
      obtain ⟨s, -, hwrites⟩ := hperform.applied hedits reply hok
      exact hwrites.dropped
    have hdropped := fun hedits => (hlive hedits).of_durable (hrestarted hmem)
    exact ⟨fun k grant hk hdrops => (hdropped (edits_of_dropsDevice hdrops)).devices k grant hk
        hdrops,
      fun k grant hk hdrops => (hdropped (edits_of_dropsRelayGrant hdrops)).relayGrants k grant hk
        hdrops⟩

structure Settles (c : Crypto) (p : PublicControlPlane) (op : Env × ControlOp) : Prop where
  dependable : p.Dependable op.1
  careful : p.Careful c op.2

instance (c : Crypto) (p : PublicControlPlane) (op : Env × ControlOp) :
    Decidable (Settles c p op) :=
  decidable_of_iff (p.Dependable op.1 ∧ p.Careful c op.2)
    ⟨fun h => ⟨h.1, h.2⟩, fun h => ⟨h.dependable, h.careful⟩⟩

/-- In a run of such steps the backend mirrors memory after every operation. -/
theorem backend_mirrors_memory (c : Crypto) (backend : Backend) (rotationGraceSecs : Nat)
    (ops : List (Env × ControlOp))
    (h : StepRun.Along (step c) (Settles c) (fresh backend rotationGraceSecs) ops) :
    StepRun.Along (step c) (Mirrors c) (fresh backend rotationGraceSecs) ops := by
  refine StepRun.along_of_step (I := InStep) (fun p op hin hs => ?_)
    (inStep_fresh backend rotationGraceSecs) h
  exact ⟨(hin.perform hs.dependable hs.careful).inStep, hin.mirrors hs.dependable hs.careful⟩

theorem backend_mirrors_memory_revoked_device :
    StepRun.Along (step plainCrypto) (Mirrors plainCrypto) (fresh .json 100)
      [(quiet 5, .issueRelayRegistration "key" none [("a", "r")] "one"),
        (quiet 6, .issueDeviceGrant "rref-one" "relay-a" "room-r" "phone" none "two"),
        (quiet 7, .issueDeviceGrant "rref-one" "relay-a" "room-r" "laptop" none "three"),
        (quiet 8, .revokeOtherDeviceGrants "rref-one" "relay-a" "room-r" "laptop"),
        (quiet 9, .restart [])] :=
  backend_mirrors_memory plainCrypto .json 100 _ (by decide +kernel)

/-- A client's relay grant with no device grant beside it comes back after the restart. -/
theorem revoked_relay_grant_comes_back :
    ¬ StepRun.Along (step plainCrypto) (Mirrors plainCrypto) (fresh .json 100)
      [(quiet 5, .issueRelayRegistration "key" none [("a", "r")] "one"),
        (quiet 6, .issueClientGrant "rref-one" ⟨"relay-a", "room-r", "phone", "ck", none, none⟩
          "c" "n"),
        (quiet 7, .claimClientIdentity "ccl-c" "signed" "two"),
        (quiet 8, .revokeOtherDeviceGrants "rref-one" "relay-a" "room-r" "laptop")] := by
  intro h
  have hmirrors := h.2.2.2.1.restarted (by decide +kernel)
  exact absurd hmirrors (by decide +kernel)

end PublicControlPlane

end AgentRelay.Control
