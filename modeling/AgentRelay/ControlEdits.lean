import AgentRelay.ControlAccess

/-! What each edit of the control plane's records does to the tables, and that every one of
them is an edit a save can write down. -/
namespace AgentRelay.Control
open Text RecordTables Std
open AgentRelay.Relay (saturatingAdd)

namespace PublicControlStateStore

variable {s t u next : PublicControlStateStore} {sha256Hex : String → String}

/-- A relay key registered anew: its old row goes, and it keeps the ids it had, or takes ids
that nobody has. -/
structure Registers (s : PublicControlStateStore) (relayVerifyKey : String)
    (registration : PersistedRelayRegistration) (next : PublicControlStateStore) : Prop where
  key : registration.relayVerifyKey = some relayVerifyKey
  rows : next =
    { s with
      relayRegistrationsByHash := (s.relayRegistrationsByHash.filter fun _ r =>
        !decide (r.relayVerifyKey = some relayVerifyKey)).insert registration.refreshTokenHash
          registration }
  ids :
    (∃ (k : String) (existing : PersistedRelayRegistration),
      s.relayRegistrationsByHash[k]? = some existing ∧
      existing.relayVerifyKey = some relayVerifyKey ∧
      registration.relayId = existing.relayId ∧
      registration.brokerRoomId = existing.brokerRoomId) ∨
    ∀ (k : String) r, s.relayRegistrationsByHash[k]? = some r →
      r.relayVerifyKey ≠ some relayVerifyKey ∧ r.relayId ≠ registration.relayId ∧
      r.brokerRoomId ≠ registration.brokerRoomId

theorem registrationForVerifyKey_eq_some {relayVerifyKey : String}
    {existing : PersistedRelayRegistration}
    (h : s.registrationForVerifyKey relayVerifyKey = some existing) :
    existing.relayVerifyKey = some relayVerifyKey ∧
      ∃ k : String, s.relayRegistrationsByHash[k]? = some existing := by
  have hkey := List.find?_some h
  exact ⟨of_decide_eq_true hkey, Table.mem_values.mp (List.mem_of_find?_eq_some h)⟩

theorem registrationForVerifyKey_eq_none {relayVerifyKey : String}
    (h : s.registrationForVerifyKey relayVerifyKey = none) (k : String)
    (r : PersistedRelayRegistration) (hr : s.relayRegistrationsByHash[k]? = some r) :
    r.relayVerifyKey ≠ some relayVerifyKey := by
  have hnone := List.find?_eq_none.mp h r (Table.mem_values.mpr ⟨k, hr⟩)
  simpa using hnone

theorem issueNewRelayIds_eq_some {draws : List (String × String)} {ids : String × String}
    (h : s.issueNewRelayIds draws = some ids) (k : String) (r : PersistedRelayRegistration)
    (hr : s.relayRegistrationsByHash[k]? = some r) :
    r.relayId ≠ ids.1 ∧ r.brokerRoomId ≠ ids.2 := by
  have htaken := List.find?_some h
  simp only [relayIdsTaken, Bool.not_eq_true', List.any_eq_false, decide_eq_true_eq,
    not_or] at htaken
  exact htaken r (Table.mem_values.mpr ⟨k, hr⟩)

theorem registerRelay_eq_some {relayVerifyKey : String} {relayLabel : Option String}
    {createdAt : Nat} {draws : List (String × String)} {drawn : String}
    {registration : PersistedRelayRegistration}
    (h : s.registerRelay sha256Hex relayVerifyKey relayLabel createdAt draws drawn =
      some (next, registration)) :
    Registers s relayVerifyKey registration next ∧
      registration.refreshTokenHash = sha256Hex ("rref-" ++ toAsciiLowercase drawn) := by
  obtain ⟨⟨taken, ids⟩, hclaim, hnext⟩ := Option.map_eq_some_iff.mp h
  obtain ⟨rfl, rfl⟩ := Prod.mk.inj hnext
  unfold claimRelayIds at hclaim
  cases hfind : s.registrationForVerifyKey relayVerifyKey with
  | some existing =>
    rw [hfind] at hclaim
    obtain ⟨rfl, rfl⟩ := Prod.mk.inj (Option.some.inj hclaim)
    obtain ⟨hkey, k, hk⟩ := registrationForVerifyKey_eq_some hfind
    exact ⟨⟨rfl, rfl, Or.inl ⟨k, existing, hk, hkey, rfl, rfl⟩⟩, rfl⟩
  | none =>
    rw [hfind] at hclaim
    obtain ⟨ids', hids, heq⟩ := Option.map_eq_some_iff.mp hclaim
    obtain ⟨rfl, rfl⟩ := Prod.mk.inj heq
    have hrows := registrationForVerifyKey_eq_none hfind
    refine ⟨⟨rfl, ?_, Or.inr fun k r hr => ?_⟩, rfl⟩
    · -- No row has this key, so taking out the rows that have it takes out nothing.
      rw [filter_of_forall]
      intro k r hr
      simp [hrows k r hr]
    · exact ⟨hrows k r hr, issueNewRelayIds_eq_some hids k r hr⟩

structure Enrols (sha256Hex : String → String) (s : PublicControlStateStore)
    (clientVerifyKey : String) (row : PersistedClientIdentity)
    (next : PublicControlStateStore) : Prop where
  key : row.clientVerifyKey = clientVerifyKey
  rows :
    (∃ (k : String) (existing : PersistedClientIdentity),
      s.clientRegistrationsByHash[k]? = some existing ∧
      existing.clientVerifyKey = clientVerifyKey ∧ row.clientId = existing.clientId ∧
      next = { s with
        clientRegistrationsByHash := (s.clientRegistrationsByHash.filter fun _ r =>
          !decide (r.clientId = existing.clientId)).insert row.refreshTokenHash row }) ∨
    ((∀ (k : String) r, s.clientRegistrationsByHash[k]? = some r →
        r.clientVerifyKey ≠ clientVerifyKey) ∧
      row.clientId = issueClientId sha256Hex clientVerifyKey ∧
      next = { s with
        clientRegistrationsByHash := s.clientRegistrationsByHash.insert row.refreshTokenHash row })

theorem clientIdentityForVerifyKey_eq_some {clientVerifyKey : String}
    {existing : PersistedClientIdentity}
    (h : s.clientIdentityForVerifyKey clientVerifyKey = some existing) :
    existing.clientVerifyKey = clientVerifyKey ∧
      ∃ k : String, s.clientRegistrationsByHash[k]? = some existing := by
  have hkey := List.find?_some h
  exact ⟨of_decide_eq_true hkey, Table.mem_values.mp (List.mem_of_find?_eq_some h)⟩

theorem clientIdentityForVerifyKey_eq_none {clientVerifyKey : String}
    (h : s.clientIdentityForVerifyKey clientVerifyKey = none) (k : String)
    (r : PersistedClientIdentity) (hr : s.clientRegistrationsByHash[k]? = some r) :
    r.clientVerifyKey ≠ clientVerifyKey := by
  have hnone := List.find?_eq_none.mp h r (Table.mem_values.mpr ⟨k, hr⟩)
  simpa using hnone

theorem issueOrRotateClientIdentity_enrols (sha256Hex : String → String)
    (s : PublicControlStateStore) (clientVerifyKey : String)
    (clientLabel : Option String) (createdAt graceSecs : Nat)
    (drawn : String) :
    ∃ row, Enrols sha256Hex s clientVerifyKey row
        (s.issueOrRotateClientIdentity sha256Hex clientVerifyKey clientLabel createdAt graceSecs
          drawn).1 ∧
      row.refreshTokenHash = sha256Hex ("cref-" ++ toAsciiLowercase drawn) ∧
      (s.issueOrRotateClientIdentity sha256Hex clientVerifyKey clientLabel createdAt graceSecs
        drawn).2 = (row.clientId, "cref-" ++ toAsciiLowercase drawn) := by
  unfold issueOrRotateClientIdentity
  cases hfind : s.clientIdentityForVerifyKey clientVerifyKey with
  | some existing =>
    obtain ⟨hkey, k, hk⟩ := clientIdentityForVerifyKey_eq_some hfind
    exact ⟨⟨existing.clientId, clientVerifyKey, _, createdAt, clientLabel.or existing.clientLabel,
      carrySuperseded existing.superseded existing.refreshTokenHash createdAt graceSecs⟩,
      ⟨rfl, Or.inl ⟨k, existing, hk, hkey, rfl, rfl⟩⟩, rfl, rfl⟩
  | none =>
    exact ⟨⟨issueClientId sha256Hex clientVerifyKey, clientVerifyKey, _, createdAt,
      clientLabel.or none, []⟩,
      ⟨rfl, Or.inr ⟨clientIdentityForVerifyKey_eq_none hfind, rfl, rfl⟩⟩, rfl, rfl⟩

theorem Enrols.grants {clientVerifyKey : String} {row : PersistedClientIdentity}
    (h : Enrols sha256Hex s clientVerifyKey row next) : next.grantsByHash = s.grantsByHash := by
  rcases h.rows with ⟨_, _, _, _, _, rfl⟩ | ⟨_, _, rfl⟩ <;> rfl

theorem Enrols.relays {clientVerifyKey : String} {row : PersistedClientIdentity}
    (h : Enrols sha256Hex s clientVerifyKey row next) :
    next.relayRegistrationsByHash = s.relayRegistrationsByHash := by
  rcases h.rows with ⟨_, _, _, _, _, rfl⟩ | ⟨_, _, rfl⟩ <;> rfl

theorem Enrols.keyed {clientVerifyKey : String} {row : PersistedClientIdentity}
    (h : Enrols sha256Hex s clientVerifyKey row next) (hs : s.Keyed) : next.Keyed := by
  rcases h.rows with ⟨_, _, _, _, _, rfl⟩ | ⟨_, _, rfl⟩
  · exact ⟨hs.relays, (hs.clients.filter _).insert rfl, hs.grants, hs.relayGrants⟩
  · exact ⟨hs.relays, hs.clients.insert rfl, hs.grants, hs.relayGrants⟩

/-- Revoking the other devices would drop no device grant, but some relay grant of a client. -/
def DropsRelayGrantsAlone (s : PublicControlStateStore)
    (relayId brokerRoomId keepDeviceId : String) : Prop :=
  (s.removeAllOtherDeviceGrants relayId brokerRoomId keepDeviceId).2 = [] ∧
    (s.removeAllOtherClientRelayGrants relayId brokerRoomId keepDeviceId).2 ≠ []

instance (s : PublicControlStateStore) (relayId brokerRoomId keepDeviceId : String) :
    Decidable (s.DropsRelayGrantsAlone relayId brokerRoomId keepDeviceId) := by
  unfold DropsRelayGrantsAlone
  infer_instance

theorem getElem?_unseen (h : s.durable = t.durable) {k : String} {v : PersistedDeviceGrant}
    (hv : s.grantsByHash[k]? = some v) :
    ∃ v', t.grantsByHash[k]? = some v' ∧ v'.unseen = v.unseen := by
  have hk := (durable_eq.mp h).2.2.1 k
  rw [hv, Option.map_some] at hk
  exact Option.map_eq_some_iff.mp hk.symm

theorem removeAllOtherDeviceGrants_nil (h : s.durable = t.durable)
    {relayId brokerRoomId keepDeviceId : String}
    (ht : (t.removeAllOtherDeviceGrants relayId brokerRoomId keepDeviceId).2 = []) :
    (s.removeAllOtherDeviceGrants relayId brokerRoomId keepDeviceId).2 = [] := by
  refine collectRemovedDeviceIds_snd.mpr fun k v hv => ?_
  obtain ⟨v', hv', hunseen⟩ := getElem?_unseen h hv
  have hv'' := collectRemovedDeviceIds_snd.mp ht k v' hv'
  have hrelay : v'.relayId = v.relayId := congrArg (·.relayId) hunseen
  have hroom : v'.brokerRoomId = v.brokerRoomId := congrArg (·.brokerRoomId) hunseen
  have hdevice : v'.deviceId = v.deviceId := congrArg (·.deviceId) hunseen
  rwa [hrelay, hroom, hdevice] at hv''

theorem DropsRelayGrantsAlone.of_durable (h : s.durable = t.durable)
    {relayId brokerRoomId keepDeviceId : String}
    (hs : s.DropsRelayGrantsAlone relayId brokerRoomId keepDeviceId) :
    t.DropsRelayGrantsAlone relayId brokerRoomId keepDeviceId := by
  refine ⟨removeAllOtherDeviceGrants_nil h.symm hs.1, ?_⟩
  have hgrants := (durable_eq.mp h).2.2.2
  have hs2 := hs.2
  unfold removeAllOtherClientRelayGrants at hs2 ⊢
  rwa [hgrants] at hs2

structure SameRows (s t : PublicControlStateStore) : Prop where
  relays : t.relayRegistrationsByHash = s.relayRegistrationsByHash
  clients : t.clientRegistrationsByHash = s.clientRegistrationsByHash
  grants : ∀ k : String, (t.grantsByHash[k]?).map PersistedDeviceGrant.unseen =
    (s.grantsByHash[k]?).map PersistedDeviceGrant.unseen

theorem SameRows.refl (s : PublicControlStateStore) : SameRows s s := ⟨rfl, rfl, fun _ => rfl⟩

theorem SameRows.symm (h : SameRows s t) : SameRows t s :=
  ⟨h.relays.symm, h.clients.symm, fun k => (h.grants k).symm⟩

theorem SameRows.trans (h : SameRows s t) (h' : SameRows t u) : SameRows s u :=
  ⟨h'.relays.trans h.relays, h'.clients.trans h.clients,
    fun k => (h'.grants k).trans (h.grants k)⟩

theorem sameRows_of_durable (h : s.durable = t.durable) : SameRows s t := by
  obtain ⟨hrelays, hclients, hgrants, -⟩ := durable_eq.mp h
  exact ⟨hrelays.symm, hclients.symm, fun k => (hgrants k).symm⟩

theorem SameRows.grant (h : SameRows s t) {k : String} {v : PersistedDeviceGrant}
    (hv : t.grantsByHash[k]? = some v) :
    ∃ w, s.grantsByHash[k]? = some w ∧ w.unseen = v.unseen := by
  have hk := h.grants k
  rw [hv, Option.map_some] at hk
  exact Option.map_eq_some_iff.mp hk.symm

end PublicControlStateStore

section edits
open PublicControlStateStore PublicControlPlane

variable {s next : PublicControlStateStore} {sha256Hex : String → String}

theorem registers_edit {relayVerifyKey : String} {registration : PersistedRelayRegistration}
    (h : Registers s relayVerifyKey registration next) : Edit s next := by
  obtain rfl := h.rows
  exact Edit.of_grants (fun hs => ⟨(hs.relays.filter _).insert rfl, hs.clients, hs.grants,
    hs.relayGrants⟩) rfl

theorem issueDeviceGrant_edit (registration : PersistedRelayRegistration)
    (deviceId : String) (createdAt graceSecs : Nat) (drawn : String)
    (hfresh : s.grantsByHash[sha256Hex ("dref-" ++ toAsciiLowercase drawn)]? = none) :
    Edit s (s.issueDeviceGrant sha256Hex registration deviceId createdAt graceSecs drawn) where
  keyed hs := ⟨hs.relays, hs.clients, (hs.grants.filter _).insert rfl, hs.relayGrants⟩
  grants k v v' hv hv' := by
    simp only [PublicControlStateStore.issueDeviceGrant, Table.getElem?_insert_of] at hv'
    split_ifs at hv' with hk
    · rw [hk, hfresh] at hv
      exact absurd hv (by simp)
    · rw [removeDeviceGrants, getElem?_removeMatchingEntries, hv] at hv'
      exact Or.inl (Option.some.inj (Option.filter_eq_some_iff.mp hv').1).symm

theorem grantClaim_edit (env : Env) (graceSecs : Nat) (pending : PendingClientClaim)
    (drawn : String) : Edit s (grantClaim sha256Hex s env graceSecs pending drawn).1 := by
  obtain ⟨row, hrow, -, -⟩ := issueOrRotateClientIdentity_enrols sha256Hex s pending.clientVerifyKey
    pending.clientLabel env.now graceSecs drawn
  refine Edit.of_grants (fun hs => ?_) hrow.grants
  have hkeyed := hrow.keyed hs
  exact ⟨hkeyed.relays, hkeyed.clients, hkeyed.grants, hkeyed.relayGrants.insert rfl⟩

theorem rotateClientIdentity_edit (client : PersistedClientIdentity) (now graceSecs : Nat)
    (drawn : String) :
    Edit s (s.rotateClientIdentity sha256Hex client now graceSecs drawn).1 :=
  Edit.of_grants (fun hs => ⟨hs.relays, (hs.clients.filter _).insert rfl, hs.grants,
    hs.relayGrants⟩) rfl

theorem Edit.of_filter {f : String → PersistedDeviceGrant → Bool}
    (hkeyed : s.Keyed → next.Keyed) (h : next.grantsByHash = s.grantsByHash.filter f) :
    Edit s next where
  keyed := hkeyed
  grants k v v' hv hv' := by
    rw [h, Table.getElem?_filter, hv] at hv'
    exact Or.inl (Option.some.inj (Option.filter_eq_some_iff.mp hv').1).symm

theorem removeClient_edit (clientId : String) :
    Edit s ((s.removeClientIdentityByClientId clientId).1.removeClientRelayGrantsByClientId
      clientId).1 :=
  Edit.of_grants (fun hs => ⟨hs.relays, hs.clients.filter _, hs.grants,
    hs.relayGrants.filter _⟩) rfl

theorem removeClient_unchanged {clientId : String}
    (hidentity : (s.removeClientIdentityByClientId clientId).2 = 0)
    (hgrant : ((s.removeClientIdentityByClientId clientId).1.removeClientRelayGrantsByClientId
      clientId).2 = 0) :
    ((s.removeClientIdentityByClientId clientId).1.removeClientRelayGrantsByClientId
      clientId).1 = s := by
  have hclients := removeMatchingEntries_fst hidentity
  have hgrants := removeMatchingEntries_fst hgrant
  simp only [removeClientRelayGrantsByClientId, removeClientIdentityByClientId] at hgrants ⊢
  rw [hgrants, hclients]

theorem revokeDeviceGrant_edit (relayId : String) (brokerRoomId deviceId : Option String) :
    Edit s ((s.removeDeviceGrants relayId brokerRoomId deviceId).1.removeClientRelayGrants relayId
      brokerRoomId deviceId).1 :=
  Edit.of_filter (fun hs => ⟨hs.relays, hs.clients, hs.grants.filter _,
    hs.relayGrants.filter _⟩) rfl

theorem revokeDeviceGrant_unchanged {relayId : String} {brokerRoomId deviceId : Option String}
    (hdevice : (s.removeDeviceGrants relayId brokerRoomId deviceId).2 = 0)
    (hclient : ((s.removeDeviceGrants relayId brokerRoomId deviceId).1.removeClientRelayGrants
      relayId brokerRoomId deviceId).2 = 0) :
    ((s.removeDeviceGrants relayId brokerRoomId deviceId).1.removeClientRelayGrants relayId
      brokerRoomId deviceId).1 = s := by
  have hgrants := removeMatchingEntries_fst hdevice
  have hrelayGrants := removeMatchingEntries_fst hclient
  simp only [removeClientRelayGrants, removeDeviceGrants] at hrelayGrants ⊢
  rw [hrelayGrants, hgrants]

theorem revokeOtherDeviceGrants_edit (relayId brokerRoomId keepDeviceId : String) :
    Edit s ((s.removeAllOtherDeviceGrants relayId brokerRoomId
      keepDeviceId).1.removeAllOtherClientRelayGrants relayId brokerRoomId keepDeviceId).1 :=
  Edit.of_filter (fun hs => ⟨hs.relays, hs.clients, hs.grants.filter _,
    hs.relayGrants.filter _⟩) rfl

/-- No device to drop means no change, unless relay grants of a client go alone. -/
theorem revokeOtherDeviceGrants_unchanged {relayId brokerRoomId keepDeviceId : String}
    (hdevices : (s.removeAllOtherDeviceGrants relayId brokerRoomId keepDeviceId).2 = [])
    (hboth : ¬ s.DropsRelayGrantsAlone relayId brokerRoomId keepDeviceId) :
    ((s.removeAllOtherDeviceGrants relayId brokerRoomId
      keepDeviceId).1.removeAllOtherClientRelayGrants relayId brokerRoomId keepDeviceId).1 = s := by
  have hclients : (s.removeAllOtherClientRelayGrants relayId brokerRoomId keepDeviceId).2 = [] := by
    by_contra hne
    exact hboth ⟨hdevices, hne⟩
  have hgrants := collectRemovedDeviceIds_fst hdevices
  have hrelayGrants := collectRemovedDeviceIds_fst hclients
  simp only [removeAllOtherClientRelayGrants, removeAllOtherDeviceGrants]
  rw [hrelayGrants, hgrants]

theorem seedRelayRegistrations_edit (sha256Hex : String → String)
    (s : PublicControlStateStore) (registrations : List RelayRegistrationConfig) :
    Edit s (s.seedRelayRegistrations sha256Hex registrations).1 ∧
      ((s.seedRelayRegistrations sha256Hex registrations).2 = false →
        (s.seedRelayRegistrations sha256Hex registrations).1 = s) := by
  unfold seedRelayRegistrations
  induction registrations using List.reverseRecOn with
  | nil => exact ⟨Edit.refl s, fun _ => rfl⟩
  | append_singleton registrations registration ih =>
    simp only [List.foldl_append, List.foldl_cons, List.foldl_nil]
    generalize registrations.foldl (seedRelayRegistration sha256Hex) (s, false) = seeded at ih
    unfold seedRelayRegistration
    dsimp only
    split_ifs with hfiled
    · exact ih
    · refine ⟨⟨fun hs => ?_, ih.1.grants⟩, fun h => absurd h (by simp)⟩
      have hkeyed := ih.1.keyed hs
      exact ⟨hkeyed.relays.insert rfl, hkeyed.clients, hkeyed.grants, hkeyed.relayGrants⟩

end edits

def ControlOp.clientBearer? : ControlOp → Option String
  | .issueClientSession bearerToken | .rotateClientIdentity bearerToken _
  | .revokeClientIdentity bearerToken => some bearerToken
  | _ => none

/-- The device token that an operation authenticates with, and the room it names. -/
def ControlOp.deviceBearer? : ControlOp → Option (String × Option String)
  | .issueDeviceSession bearerToken expectedRoom
  | .issueDeviceWsToken bearerToken expectedRoom => some (bearerToken, expectedRoom)
  | _ => none

namespace PublicControlPlane
open PublicControlStateStore

variable {p : PublicControlPlane} {next : PublicControlStateStore} {env : Env} {c : Crypto}
  {op : Env × ControlOp} {now : Nat}

theorem findForToken_filed {V : Type} {superseded : V → List SupersededToken} {entries : Table V}
    {tokenHash k : String} {v : V}
    (h : findForToken superseded entries tokenHash now = some (k, v)) :
    entries[k]? = some v := by
  unfold findForToken at h
  cases hk : entries[tokenHash]? with
  | some w =>
    rw [hk] at h
    simp only [Option.some.injEq, Prod.mk.injEq] at h
    obtain ⟨rfl, rfl⟩ := h
    exact hk
  | none =>
    rw [hk] at h
    exact ExtTreeMap.mem_toList_iff_getElem?_eq_some.mp (List.mem_of_find?_eq_some h)

theorem trimmedOptionString_eq_some {text trimmed : String}
    (h : trimmedOptionString (some text) = some trimmed) : trimmed = trim text := by
  unfold trimmedOptionString at h
  exact (Option.some.inj (Option.filter_eq_some_iff.mp h).1).symm

theorem takeClientClaim_eq_ok {claimId : String} {p' : PublicControlPlane}
    {pending : PendingClientClaim} (h : p.takeClientClaim env claimId = (p', .ok pending)) :
    p.pendingClientClaims[claimId]? = some pending ∧ env.pruneNow < pending.expiresAt ∧
      p' = { p with
        pendingClientClaims := (p.pendingClientClaims.filter fun _ claim =>
          env.pruneNow < claim.expiresAt).erase claimId } := by
  unfold takeClientClaim at h
  dsimp only at h
  cases hfound : (p.pendingClientClaims.filter fun _ claim =>
      decide (env.pruneNow < claim.expiresAt))[claimId]? with
  | none =>
    rw [hfound] at h
    exact absurd (congrArg Prod.snd h) (by simp)
  | some found =>
    rw [hfound] at h
    simp only [Prod.mk.injEq, Except.ok.injEq] at h
    obtain ⟨rfl, rfl⟩ := h
    rw [Table.getElem?_filter] at hfound
    obtain ⟨hpending, hvalid⟩ := Option.filter_eq_some_iff.mp hfound
    exact ⟨hpending, of_decide_eq_true hvalid, rfl⟩

theorem takeClientClaim_state (p : PublicControlPlane) (env : Env) (claimId : String) :
    ∃ claims, (p.takeClientClaim env claimId).1 = { p with pendingClientClaims := claims } := by
  unfold takeClientClaim
  dsimp only
  split <;> exact ⟨_, rfl⟩

def touched (primaryHash : String) (authNow : Nat) (grants : Table PersistedDeviceGrant) :
    Table PersistedDeviceGrant :=
  grants.modify primaryHash fun grant => { grant with lastSeen := some authNow }

theorem touched_unseen (primaryHash : String) (authNow : Nat)
    (grants : Table PersistedDeviceGrant) (k : String) :
    ((touched primaryHash authNow grants)[k]?).map PersistedDeviceGrant.unseen =
      (grants[k]?).map PersistedDeviceGrant.unseen := by
  unfold touched
  rw [Table.getElem?_modify_of]
  split_ifs
  · cases grants[k]? <;> rfl
  · rfl

theorem touched_keyed {primaryHash : String} {authNow : Nat}
    {grants : Table PersistedDeviceGrant} (h : RecordTables.Keyed (·.refreshTokenHash) grants) :
    RecordTables.Keyed (·.refreshTokenHash) (touched primaryHash authNow grants) := by
  intro k v hv
  unfold touched at hv
  rw [Table.getElem?_modify_of] at hv
  split_ifs at hv
  · obtain ⟨v', hv', rfl⟩ := Option.map_eq_some_iff.mp hv
    exact h k v' hv'
  · exact h k v hv

theorem durable_touched (s : PublicControlStateStore) (primaryHash : String) (authNow : Nat) :
    PublicControlStateStore.durable
      { s with grantsByHash := touched primaryHash authNow s.grantsByHash } = s.durable :=
  durable_eq.mpr ⟨rfl, rfl, touched_unseen primaryHash authNow s.grantsByHash, rfl⟩

theorem touched_keyed_store {s : PublicControlStateStore} (h : s.Keyed) (primaryHash : String)
    (authNow : Nat) : PublicControlStateStore.Keyed
      { s with grantsByHash := touched primaryHash authNow s.grantsByHash } :=
  ⟨h.relays, h.clients, touched_keyed h.grants, h.relayGrants⟩

theorem touchDeviceLastSeen_eq (p : PublicControlPlane) (env : Env) (primaryHash : String) :
    ∃ rows, p.touchDeviceLastSeen env primaryHash =
        { p with
          state.grantsByHash := touched primaryHash env.authNow p.state.grantsByHash
          persisted.grantsByHash := rows } ∧
      (rows = p.persisted.grantsByHash ∨
        rows = touched primaryHash env.authNow p.persisted.grantsByHash) ∧
      PublicControlStateStore.durable { p.persisted with grantsByHash := rows } =
        p.persisted.durable ∧
      (p.persisted.Keyed →
        PublicControlStateStore.Keyed { p.persisted with grantsByHash := rows }) := by
  unfold PublicControlPlane.touchDeviceLastSeen
  dsimp only
  split_ifs
  · exact ⟨_, rfl, Or.inr rfl, durable_touched p.persisted primaryHash env.authNow,
      fun hk => touched_keyed_store hk primaryHash env.authNow⟩
  · exact ⟨_, rfl, Or.inl rfl, rfl, id⟩

inductive Writes (c : Crypto) (p : PublicControlPlane) :
    Env × ControlOp → ControlReply → PublicControlStateStore → PublicControlStateStore → Prop
  | register {env relayVerifyKey relayLabel draws drawn s next registration}
      (h : s.registerRelay c.sha256Hex relayVerifyKey relayLabel env.now draws drawn =
        some (next, registration)) :
      Writes c p (env, .issueRelayRegistration relayVerifyKey relayLabel draws drawn) .done s next
  | grant {env bearerToken relayId brokerRoomId deviceId deviceLimit drawn s}
      (registration : PersistedRelayRegistration) (k : String)
      (hfiled : s.relayRegistrationsByHash[k]? = some registration)
      (hid : registration.relayId = relayId) (hroom : registration.brokerRoomId = brokerRoomId) :
      Writes c p
        (env, .issueDeviceGrant bearerToken relayId brokerRoomId deviceId deviceLimit drawn) .done s
        (s.issueDeviceGrant c.sha256Hex registration deviceId env.now p.rotationGraceSecs drawn)
  | claim {env claimId claimSignature drawn s} (pending : PendingClientClaim)
      (hpending : p.pendingClientClaims[trim claimId]? = some pending) :
      Writes c p (env, .claimClientIdentity claimId claimSignature drawn)
        (.clientClaim
          { clientId := (grantClaim c.sha256Hex s env p.rotationGraceSecs pending drawn).2.1
            clientRefreshToken :=
              (grantClaim c.sha256Hex s env p.rotationGraceSecs pending drawn).2.2
            relayId := pending.relayId, brokerRoomId := pending.brokerRoomId
            deviceId := pending.deviceId, relayLabel := pending.relayLabel }) s
        (grantClaim c.sha256Hex s env p.rotationGraceSecs pending drawn).1
  | rotate {env bearerToken drawn s} (client row : PersistedClientIdentity) (k : String)
      (hfiled : s.clientRegistrationsByHash[k]? = some row)
      (hid : row.clientId = client.clientId)
      (hkey : row.clientVerifyKey = client.clientVerifyKey) :
      Writes c p (env, .rotateClientIdentity bearerToken drawn) .done s
        (s.rotateClientIdentity c.sha256Hex client env.now p.rotationGraceSecs drawn).1
  | revokeClient {env bearerToken s} (clientId : String) :
      Writes c p (env, .revokeClientIdentity bearerToken) (.revokedClient clientId) s
        ((s.removeClientIdentityByClientId clientId).1.removeClientRelayGrantsByClientId
          clientId).1
  | revokeDevice {env bearerToken relayId brokerRoomId deviceId s} :
      Writes c p (env, .revokeDeviceGrant bearerToken relayId brokerRoomId deviceId) .done s
        ((s.removeDeviceGrants relayId (some brokerRoomId)
          (some deviceId)).1.removeClientRelayGrants relayId (some brokerRoomId) (some deviceId)).1
  | revokeOthers {env bearerToken relayId brokerRoomId keepDeviceId s} :
      Writes c p (env, .revokeOtherDeviceGrants bearerToken relayId brokerRoomId keepDeviceId)
        .done s
        ((s.removeAllOtherDeviceGrants relayId brokerRoomId
          keepDeviceId).1.removeAllOtherClientRelayGrants relayId brokerRoomId keepDeviceId).1
  | restart {env registrations s} :
      Writes c p (env, .restart registrations) .done s
        ((if p.persistence = .inMemory then {} else s).seedRelayRegistrations c.sha256Hex
          registrations).1

def Edits : ControlOp → Prop
  | .authenticateRelayBearer _ _ _ | .issueClientGrant _ _ _ _ | .issueClientSession _
  | .issueDeviceSession _ _ | .issueDeviceWsToken _ _ => False
  | _ => True

/-- A device token whose hash is new, and a bulk revocation that has a device grant to drop
where it has a relay grant of a client to drop. -/
def Careful (c : Crypto) (p : PublicControlPlane) : ControlOp → Prop
  | .issueDeviceGrant _ _ _ _ _ drawn =>
    p.live.grantsByHash[c.sha256Hex ("dref-" ++ toAsciiLowercase drawn)]? = none
  | .revokeOtherDeviceGrants _ relayId brokerRoomId keepDeviceId =>
    ¬ p.live.DropsRelayGrantsAlone relayId brokerRoomId keepDeviceId
  | _ => True

instance (c : Crypto) (p : PublicControlPlane) (op : ControlOp) : Decidable (p.Careful c op) := by
  cases op <;> unfold Careful <;> infer_instance

/-- The join ticket of a device grant can be made out: it names a room and a device. -/
def Mints : ControlOp → Prop
  | .issueDeviceGrant _ _ brokerRoomId deviceId _ _ =>
    mintDeviceWsToken brokerRoomId deviceId = .ok ()
  | _ => True

instance (op : ControlOp) : Decidable (Mints op) := by
  cases op <;> unfold Mints <;> infer_instance

/-- The operations that edit the records without letting a caller in first. -/
def Unlocked : ControlOp → Prop
  | .issueRelayRegistration _ _ _ _ | .claimClientIdentity _ _ _ => True
  | _ => False

/-- What an edit does for the operation that makes it; that it can be written down as it is
takes an operation which is careful of the records that it meets. -/
structure Inscribed (c : Crypto) (p : PublicControlPlane) (op : Env × ControlOp)
    (reply : ControlReply) (changed : Bool) (s next : PublicControlStateStore) : Prop where
  keyed : s.Keyed → next.Keyed
  same : changed = false → SameRows s next
  writes : p.Writes c op reply s next
  edit : p.Careful c op.2 → (op.2.clientBearer? = none → s.durable = p.live.durable) →
    Edit s next ∧ (changed = false → next = s)

def Inscribes {α : Type} (c : Crypto) (p : PublicControlPlane) (op : Env × ControlOp)
    (edit : StoreEdit α)
    (tell : α → ControlReply) (s : PublicControlStateStore) : Prop :=
  ∀ next changed a, edit s = .ok (next, changed, a) → Inscribed c p op (tell a) changed s next

/-- An edit that can always be written down as it is. -/
theorem Inscribed.of_edit {reply : ControlReply} {changed : Bool} {s next : PublicControlStateStore}
    (h : Edit s next) (hsame : changed = false → next = s) (hwrites : p.Writes c op reply s next) :
    Inscribed c p op reply changed s next :=
  ⟨h.keyed, fun hc => hsame hc ▸ SameRows.refl _, hwrites, fun _ _ => ⟨h, hsame⟩⟩

theorem Writes.edits {reply : ControlReply} {s next : PublicControlStateStore}
    (h : p.Writes c op reply s next) : Edits op.2 := by
  cases h <;> trivial

/-- The edit a revocation makes. -/
def removal (clientId : String) (s : PublicControlStateStore) :
    Except String (PublicControlStateStore × Bool × String × Nat × Nat) :=
  let identity := s.removeClientIdentityByClientId clientId
  let grants := identity.1.removeClientRelayGrantsByClientId clientId
  .ok (grants.1, 0 < identity.2 || 0 < grants.2, (clientId, identity.2, grants.2))

theorem removal_eq_ok {s : PublicControlStateStore} {clientId : String} {changed : Bool}
    {counts : String × Nat × Nat} (h : removal clientId s = .ok (next, changed, counts)) :
    next = ((s.removeClientIdentityByClientId clientId).1.removeClientRelayGrantsByClientId
        clientId).1 ∧ (changed = false → next = s) := by
  simp only [removal, Except.ok.injEq, Prod.mk.injEq] at h
  obtain ⟨rfl, hchanged, rfl⟩ := h
  refine ⟨rfl, fun hc => ?_⟩
  rw [hc, Bool.or_eq_false_iff] at hchanged
  have hidentity := of_decide_eq_false hchanged.1
  have hgrant := of_decide_eq_false hchanged.2
  exact removeClient_unchanged (by omega) (by omega)

end PublicControlPlane

end AgentRelay.Control
