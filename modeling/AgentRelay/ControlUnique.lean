import AgentRelay.ControlClaims

/-! The identities the control plane hands out. Its tables are keyed by token hash, so that a
relay id, a room, a verify key, a client id or a device stands in one row only is kept by the
scans that each operation makes, and missed where seeding makes none. -/
namespace AgentRelay.Control
open Text RecordTables Std

namespace PublicControlStateStore

variable {s t next : PublicControlStateStore} {sha256Hex : String → String}

def Registered (s : PublicControlStateStore) (relayId : String) : Prop :=
  ∃ (k : String) (r : PersistedRelayRegistration),
    s.relayRegistrationsByHash[k]? = some r ∧ r.relayId = relayId

structure Unique (s : PublicControlStateStore) : Prop where
  relayIds : UniqueBy (fun r => some r.relayId) s.relayRegistrationsByHash
  rooms : UniqueBy (fun r => some r.brokerRoomId) s.relayRegistrationsByHash
  verifyKeys : UniqueBy (·.relayVerifyKey) s.relayRegistrationsByHash
  clientIds : UniqueBy (fun r => some r.clientId) s.clientRegistrationsByHash
  clientKeys : UniqueBy (fun r => some r.clientVerifyKey) s.clientRegistrationsByHash
  devices : UniqueBy (fun g => some (g.relayId, g.deviceId)) s.grantsByHash
  grants : ∀ (k : String) g, s.grantsByHash[k]? = some g → s.Registered g.relayId
  relayGrants : ∀ (k : String) g, s.clientRelayGrantsByKey[k]? = some g → s.Registered g.relayId

theorem unique_empty : Unique {} where
  relayIds := uniqueBy_empty _
  rooms := uniqueBy_empty _
  verifyKeys := uniqueBy_empty _
  clientIds := uniqueBy_empty _
  clientKeys := uniqueBy_empty _
  devices := uniqueBy_empty _
  grants k g h := absurd h (by simp)
  relayGrants k g h := absurd h (by simp)

theorem Registered.of_relays {relayId : String} (h : s.Registered relayId)
    (hst : t.relayRegistrationsByHash = s.relayRegistrationsByHash) : t.Registered relayId := by
  unfold Registered
  rwa [hst]

theorem Unique.of_grants (h : Unique s)
    (hrelays : t.relayRegistrationsByHash = s.relayRegistrationsByHash)
    (hclients : t.clientRegistrationsByHash = s.clientRegistrationsByHash)
    (hgrants : ∀ (k : String) g, t.grantsByHash[k]? = some g →
      ∃ g', s.grantsByHash[k]? = some g' ∧ g'.relayId = g.relayId ∧ g'.deviceId = g.deviceId)
    (hrelayGrants : ∀ (k : String) g, t.clientRelayGrantsByKey[k]? = some g →
      s.clientRelayGrantsByKey[k]? = some g) : Unique t where
  relayIds := hrelays ▸ h.relayIds
  rooms := hrelays ▸ h.rooms
  verifyKeys := hrelays ▸ h.verifyKeys
  clientIds := hclients ▸ h.clientIds
  clientKeys := hclients ▸ h.clientKeys
  devices := by
    apply h.devices.of_rows
    intro k g hg
    obtain ⟨g', hg', hrelay, hdevice⟩ := hgrants k g hg
    exact ⟨g', hg', by rw [hrelay, hdevice]⟩
  grants k g hg := by
    obtain ⟨g', hg', hrelay, -⟩ := hgrants k g hg
    rw [← hrelay]
    exact (h.grants k g' hg').of_relays hrelays
  relayGrants k g hg := (h.relayGrants k g (hrelayGrants k g hg)).of_relays hrelays

theorem Unique.of_clients (h : Unique s)
    (hrelays : t.relayRegistrationsByHash = s.relayRegistrationsByHash)
    (hgrants : t.grantsByHash = s.grantsByHash)
    (hrelayGrants : t.clientRelayGrantsByKey = s.clientRelayGrantsByKey)
    (hids : UniqueBy (fun r => some r.clientId) t.clientRegistrationsByHash)
    (hkeys : UniqueBy (fun r => some r.clientVerifyKey) t.clientRegistrationsByHash) :
    Unique t where
  relayIds := hrelays ▸ h.relayIds
  rooms := hrelays ▸ h.rooms
  verifyKeys := hrelays ▸ h.verifyKeys
  clientIds := hids
  clientKeys := hkeys
  devices := hgrants ▸ h.devices
  grants k g hg := (h.grants k g (hgrants ▸ hg)).of_relays hrelays
  relayGrants k g hg := (h.relayGrants k g (hrelayGrants ▸ hg)).of_relays hrelays

theorem unique_of_durable (hst : s.durable = t.durable) (h : Unique s) : Unique t := by
  obtain ⟨hrelays, hclients, -, hrelayGrants⟩ := durable_eq.mp hst
  refine h.of_grants hrelays.symm hclients.symm (fun k g hg => ?_) fun k g hg => ?_
  · obtain ⟨g', hg', hunseen⟩ := getElem?_unseen hst.symm hg
    exact ⟨g', hg', congrArg (·.relayId) hunseen, congrArg (·.deviceId) hunseen⟩
  · rwa [hrelayGrants]

/-- A relay that is registered stays so when a key registers, unless the new token stands in
the place of somebody else's. -/
theorem Registers.registered {relayVerifyKey relayId : String}
    {registration : PersistedRelayRegistration}
    (h : Registers s relayVerifyKey registration next) (hs : Unique s)
    (hfresh : ∀ r, s.relayRegistrationsByHash[registration.refreshTokenHash]? = some r →
      r.relayVerifyKey = some relayVerifyKey) (hid : s.Registered relayId) :
    next.Registered relayId := by
  obtain rfl := h.rows
  obtain ⟨k, r, hr, rfl⟩ := hid
  by_cases hkey : r.relayVerifyKey = some relayVerifyKey
  · -- The key's own row gives way to the new one, which has its ids.
    refine ⟨registration.refreshTokenHash, registration, by simp, ?_⟩
    rcases h.ids with ⟨l, existing, hl, hexisting, hsame, -⟩ | hnone
    · have hlk := hs.verifyKeys l k existing r relayVerifyKey hl hr hexisting hkey
      rw [hlk, hr] at hl
      rw [hsame, Option.some.inj hl]
    · exact absurd hkey (hnone k r hr).1
  · refine ⟨k, r, ?_, rfl⟩
    have hne : k ≠ registration.refreshTokenHash := by
      rintro rfl
      exact hkey (hfresh r hr)
    rw [Table.getElem?_insert_of, if_neg hne, Table.getElem?_filter, hr]
    simp [hkey]

theorem Unique.registers {relayVerifyKey : String} {registration : PersistedRelayRegistration}
    (hs : Unique s) (h : Registers s relayVerifyKey registration next)
    (hfresh : ∀ r, s.relayRegistrationsByHash[registration.refreshTokenHash]? = some r →
      r.relayVerifyKey = some relayVerifyKey) : Unique next := by
  have hregistered : ∀ relayId, s.Registered relayId → next.Registered relayId :=
    fun relayId => h.registered hs hfresh
  obtain rfl := h.rows
  have hrest : ∀ (l : String) w, (s.relayRegistrationsByHash.filter fun _ r =>
      !decide (r.relayVerifyKey = some relayVerifyKey))[l]? = some w →
      s.relayRegistrationsByHash[l]? = some w ∧ w.relayVerifyKey ≠ some relayVerifyKey := by
    intro l w hw
    obtain ⟨hw, hkept⟩ := getElem?_of_filter hw
    exact ⟨hw, by simpa using hkept⟩
  -- No row that stays has an id of the new one.
  have hids : ∀ (l : String) w, s.relayRegistrationsByHash[l]? = some w →
      w.relayVerifyKey ≠ some relayVerifyKey →
      w.relayId ≠ registration.relayId ∧ w.brokerRoomId ≠ registration.brokerRoomId := by
    intro l w hw hkey
    rcases h.ids with ⟨k, existing, hk, hexisting, hid, hroom⟩ | hnone
    · constructor
      · intro heq
        have hlk := hs.relayIds l k w existing _ hw hk rfl (by rw [heq, hid])
        rw [hlk, hk] at hw
        exact hkey (Option.some.inj hw ▸ hexisting)
      · intro heq
        have hlk := hs.rooms l k w existing _ hw hk rfl (by rw [heq, hroom])
        rw [hlk, hk] at hw
        exact hkey (Option.some.inj hw ▸ hexisting)
    · exact (hnone l w hw).2
  exact
    { relayIds := (hs.relayIds.filter _).insert fun l w a hw hv hwa =>
        absurd (Option.some.inj (hwa.trans hv.symm)) (hids l w (hrest l w hw).1 (hrest l w hw).2).1
      rooms := (hs.rooms.filter _).insert fun l w a hw hv hwa =>
        absurd (Option.some.inj (hwa.trans hv.symm)) (hids l w (hrest l w hw).1 (hrest l w hw).2).2
      verifyKeys := (hs.verifyKeys.filter _).insert fun l w a hw hv hwa =>
        absurd (hwa.trans (hv.symm.trans h.key)) (hrest l w hw).2
      clientIds := hs.clientIds, clientKeys := hs.clientKeys, devices := hs.devices
      grants := fun k g hg => hregistered _ (hs.grants k g hg)
      relayGrants := fun k g hg => hregistered _ (hs.relayGrants k g hg) }

theorem Unique.replaceClient (hs : Unique s) {k clientId hash : String}
    {existing row : PersistedClientIdentity}
    (hk : s.clientRegistrationsByHash[k]? = some existing) (hexisting : existing.clientId = clientId)
    (hid : row.clientId = clientId) (hkey : row.clientVerifyKey = existing.clientVerifyKey) :
    Unique { s with
      clientRegistrationsByHash := (s.clientRegistrationsByHash.filter fun _ r =>
        !decide (r.clientId = clientId)).insert hash row } := by
  subst hexisting
  have hrest : ∀ (l : String) w, (s.clientRegistrationsByHash.filter fun _ r =>
      !decide (r.clientId = existing.clientId))[l]? = some w →
      s.clientRegistrationsByHash[l]? = some w ∧ w.clientId ≠ existing.clientId := by
    intro l w hw
    obtain ⟨hw, hkept⟩ := getElem?_of_filter hw
    exact ⟨hw, by simpa using hkept⟩
  refine hs.of_clients rfl rfl rfl ((hs.clientIds.filter _).insert fun l w a hw hv hwa => ?_)
    ((hs.clientKeys.filter _).insert fun l w a hw hv hwa => ?_)
  · have hsame : w.clientId = row.clientId := Option.some.inj (hwa.trans hv.symm)
    exact absurd (hsame.trans hid) (hrest l w hw).2
  · obtain ⟨hw, hne⟩ := hrest l w hw
    have hsame : w.clientVerifyKey = row.clientVerifyKey := Option.some.inj (hwa.trans hv.symm)
    have hlk := hs.clientKeys l k w existing _ hw hk rfl (by rw [hsame, hkey])
    rw [hlk, hk] at hw
    exact absurd (congrArg (·.clientId) (Option.some.inj hw).symm) hne

/-- The id a key would be enrolled under is not one that another key has. -/
def EnrolsApart (sha256Hex : String → String) (s : PublicControlStateStore)
    (clientVerifyKey : String) : Prop :=
  ∀ r ∈ s.clientRegistrationsByHash.values,
    r.clientId = issueClientId sha256Hex clientVerifyKey → r.clientVerifyKey = clientVerifyKey

instance (sha256Hex : String → String) (s : PublicControlStateStore) (clientVerifyKey : String) :
    Decidable (s.EnrolsApart sha256Hex clientVerifyKey) :=
  inferInstanceAs (Decidable (∀ r ∈ s.clientRegistrationsByHash.values,
    r.clientId = issueClientId sha256Hex clientVerifyKey → r.clientVerifyKey = clientVerifyKey))

theorem Unique.enrols {clientVerifyKey : String} {row : PersistedClientIdentity} (hs : Unique s)
    (h : Enrols sha256Hex s clientVerifyKey row next)
    (hapart : s.EnrolsApart sha256Hex clientVerifyKey) : Unique next := by
  rcases h.rows with ⟨k, existing, hk, hkey, hid, rfl⟩ | ⟨hnone, hid, rfl⟩
  · exact hs.replaceClient hk rfl hid (h.key.trans hkey.symm)
  · refine hs.of_clients rfl rfl rfl (hs.clientIds.insert fun l w a hw hv hwa => ?_)
      (hs.clientKeys.insert fun l w a hw hv hwa => ?_)
    · have hsame : w.clientId = row.clientId := Option.some.inj (hwa.trans hv.symm)
      exact absurd (hapart w (Table.mem_values.mpr ⟨l, hw⟩) (hsame.trans hid)) (hnone l w hw)
    · have hsame : w.clientVerifyKey = row.clientVerifyKey := Option.some.inj (hwa.trans hv.symm)
      exact absurd (hsame.trans h.key) (hnone l w hw)

theorem Unique.upsertClientRelayGrant (hs : Unique s) {grant : PersistedClientRelayGrant}
    (hgrant : s.Registered grant.relayId) : Unique (s.upsertClientRelayGrant grant) :=
  { hs with
    relayGrants := fun k g hg => by
      simp only [PublicControlStateStore.upsertClientRelayGrant, Table.getElem?_insert_of] at hg
      split_ifs at hg
      · rw [← Option.some.inj hg]
        exact hgrant
      · exact hs.relayGrants k g hg }

theorem getElem?_removeDevice {relayId deviceId l : String} {w : PersistedDeviceGrant}
    (hw : (s.removeDeviceGrants relayId none (some deviceId)).1.grantsByHash[l]? = some w) :
    s.grantsByHash[l]? = some w ∧ ¬ (w.relayId = relayId ∧ w.deviceId = deviceId) := by
  obtain ⟨hw, hkept⟩ := getElem?_of_filter hw
  refine ⟨hw, fun hboth => ?_⟩
  simp [matchesOptionalRelayTarget, hboth.1, hboth.2] at hkept

theorem uniqueBy_issueDeviceGrant
    (hs : UniqueBy (fun g => some (g.relayId, g.deviceId)) s.grantsByHash)
    (registration : PersistedRelayRegistration) (deviceId : String) (createdAt graceSecs : Nat)
    (drawn : String) :
    UniqueBy (fun g => some (g.relayId, g.deviceId))
      (s.issueDeviceGrant sha256Hex registration deviceId createdAt graceSecs
        drawn).grantsByHash := by
  refine UniqueBy.insert ?_ fun l w a hw hv hwa => ?_
  · exact hs.of_rows fun l w hw => ⟨w, (getElem?_removeDevice hw).1, rfl⟩
  · have hsame := Option.some.inj (hwa.trans hv.symm)
    exact absurd (Prod.mk.inj hsame) (getElem?_removeDevice hw).2

theorem Unique.issueDeviceGrant (hs : Unique s) {registration : PersistedRelayRegistration}
    (hregistered : s.Registered registration.relayId) (deviceId : String)
    (createdAt graceSecs : Nat) (drawn : String) :
    Unique (s.issueDeviceGrant sha256Hex registration deviceId createdAt graceSecs drawn) :=
  { hs with
    devices := uniqueBy_issueDeviceGrant hs.devices registration deviceId createdAt graceSecs drawn
    grants := fun l w hw => by
      simp only [PublicControlStateStore.issueDeviceGrant, Table.getElem?_insert_of] at hw
      split_ifs at hw
      · rw [← Option.some.inj hw]
        exact hregistered
      · exact hs.grants l w (getElem?_removeDevice hw).1 }

/-- Seeding never brings in a relay id or a room that a registration under another token has. -/
def SeedsApart (sha256Hex : String → String) (s : PublicControlStateStore) :
    List RelayRegistrationConfig → Prop
  | [] => True
  | registration :: registrations =>
    (s.relayRegistrationsByHash.contains (sha256Hex registration.refreshToken) = false →
      s.relayIdsTaken (registration.relayId, registration.brokerRoomId) = false) ∧
    SeedsApart sha256Hex (seedRelayRegistration sha256Hex (s, false) registration).1 registrations

instance decidableSeedsApart (sha256Hex : String → String) :
    (s : PublicControlStateStore) → (registrations : List RelayRegistrationConfig) →
      Decidable (s.SeedsApart sha256Hex registrations)
  | _, [] => isTrue trivial
  | s, registration :: registrations =>
    have := decidableSeedsApart sha256Hex (seedRelayRegistration sha256Hex (s, false) registration).1
      registrations
    inferInstanceAs (Decidable (_ ∧ _))

theorem seedRelayRegistration_fst (sha256Hex : String → String) (s : PublicControlStateStore)
    (seeded : Bool) (registration : RelayRegistrationConfig) :
    (seedRelayRegistration sha256Hex (s, seeded) registration).1 =
      (seedRelayRegistration sha256Hex (s, false) registration).1 := by
  unfold seedRelayRegistration
  dsimp only
  split_ifs <;> rfl

theorem Unique.seedRelayRegistration (hs : Unique s) (registration : RelayRegistrationConfig)
    (hapart : s.relayRegistrationsByHash.contains (sha256Hex registration.refreshToken) = false →
      s.relayIdsTaken (registration.relayId, registration.brokerRoomId) = false) :
    Unique (PublicControlStateStore.seedRelayRegistration sha256Hex (s, false) registration).1 := by
  unfold PublicControlStateStore.seedRelayRegistration
  dsimp only
  split_ifs with hfiled
  · exact hs
  · have hnew := Bool.not_eq_true _ ▸ hfiled
    have htaken := hapart hnew
    simp only [relayIdsTaken, List.any_eq_false, decide_eq_true_eq, not_or] at htaken
    have hother : ∀ (l : String) w, s.relayRegistrationsByHash[l]? = some w →
        w.relayId ≠ registration.relayId ∧ w.brokerRoomId ≠ registration.brokerRoomId :=
      fun l w hw => htaken w (Table.mem_values.mpr ⟨l, hw⟩)
    have hregistered : ∀ relayId, s.Registered relayId →
        PublicControlStateStore.Registered
          { s with
            relayRegistrationsByHash := s.relayRegistrationsByHash.insert
              (sha256Hex registration.refreshToken)
              { relayId := registration.relayId, brokerRoomId := registration.brokerRoomId
                refreshTokenHash := sha256Hex registration.refreshToken, createdAt := 0
                relayLabel := none, relayVerifyKey := none } } relayId := by
      rintro relayId ⟨k, r, hr, rfl⟩
      refine ⟨k, r, ?_, rfl⟩
      have hne : k ≠ sha256Hex registration.refreshToken := by
        rintro rfl
        rw [ExtTreeMap.contains_eq_isSome_getElem?, hr] at hnew
        exact absurd hnew (by simp)
      rw [Table.getElem?_insert_of, if_neg hne, hr]
    exact
      { relayIds := hs.relayIds.insert fun l w a hw hv hwa =>
          absurd (Option.some.inj (hwa.trans hv.symm)) (hother l w hw).1
        rooms := hs.rooms.insert fun l w a hw hv hwa =>
          absurd (Option.some.inj (hwa.trans hv.symm)) (hother l w hw).2
        verifyKeys := hs.verifyKeys.insert fun l w a hw hv hwa => absurd hv (by simp)
        clientIds := hs.clientIds, clientKeys := hs.clientKeys, devices := hs.devices
        grants := fun k g hg => hregistered _ (hs.grants k g hg)
        relayGrants := fun k g hg => hregistered _ (hs.relayGrants k g hg) }

theorem Unique.seedRelayRegistrations (hs : Unique s)
    {registrations : List RelayRegistrationConfig} (h : s.SeedsApart sha256Hex registrations) :
    Unique (s.seedRelayRegistrations sha256Hex registrations).1 := by
  unfold PublicControlStateStore.seedRelayRegistrations
  generalize false = seeded
  induction registrations generalizing s seeded with
  | nil => exact hs
  | cons registration registrations ih =>
    have hnext := hs.seedRelayRegistration registration h.1
    have hfirst := seedRelayRegistration_fst sha256Hex s seeded registration
    have hrest := ih hnext h.2
      (PublicControlStateStore.seedRelayRegistration sha256Hex (s, seeded) registration).2
    rw [List.foldl_cons]
    rwa [← hfirst] at hrest

end PublicControlStateStore

namespace PublicControlPlane
open PublicControlStateStore

variable {p : PublicControlPlane} {c : Crypto} {op : Env × ControlOp}
  {claims : Table PendingClientClaim} {s next : PublicControlStateStore}

def Sound (claims : Table PendingClientClaim) (s : PublicControlStateStore) : Prop :=
  Unique s ∧ ∀ (k : String) pending, claims[k]? = some pending → s.Registered pending.relayId

theorem stable_sound (claims : Table PendingClientClaim) : Stable (Sound claims) where
  durable s t hst hs :=
    ⟨unique_of_durable hst hs.1, fun k pending hk =>
      (hs.2 k pending hk).of_relays (durable_eq.mp hst).1.symm⟩
  client s k row superseded hrow hs := by
    refine ⟨hs.1.of_clients rfl rfl rfl (hs.1.clientIds.of_rows fun l w hw => ?_)
      (hs.1.clientKeys.of_rows fun l w hw => ?_), hs.2⟩
    all_goals
      simp only [Table.getElem?_insert_of] at hw
      split_ifs at hw with hl
      · rw [hl, ← Option.some.inj hw]
        exact ⟨row, hrow, rfl⟩
      · exact ⟨w, hw, rfl⟩
  grant s k row superseded hrow hs := by
    refine ⟨hs.1.of_grants rfl rfl (fun l w hw => ?_) fun _ _ hg => hg, hs.2⟩
    simp only [Table.getElem?_insert_of] at hw
    split_ifs at hw with hl
    · rw [hl, ← Option.some.inj hw]
      exact ⟨row, hrow, rfl, rfl⟩
    · exact ⟨w, hw, rfl, rfl⟩

theorem Sound.fewer {claims' : Table PendingClientClaim} (h : Sound claims s)
    (hfewer : ∀ (k : String) pending, claims'[k]? = some pending → claims[k]? = some pending) :
    Sound claims' s :=
  ⟨h.1, fun k pending hk => h.2 k pending (hfewer k pending hk)⟩

/-- What keeps identities apart: a relay's new token does not stand in the place of another
relay's, the id of a claimed key is not the id of another key, and seeding brings in no relay
id or room that a registration under another token has. -/
def Apart (c : Crypto) (p : PublicControlPlane) (op : Env × ControlOp) : Prop :=
  match op.2 with
  | .issueRelayRegistration relayVerifyKey _ _ drawn =>
    ∀ r ∈ p.live.relayRegistrationsByHash[c.sha256Hex ("rref-" ++ toAsciiLowercase drawn)]?,
      r.relayVerifyKey = some relayVerifyKey
  | .claimClientIdentity claimId _ _ =>
    ∀ pending ∈ p.pendingClientClaims[trim claimId]?,
      p.live.EnrolsApart c.sha256Hex pending.clientVerifyKey
  | .restart registrations => p.reopened.state.SeedsApart c.sha256Hex registrations
  | _ => True

instance (c : Crypto) (p : PublicControlPlane) (op : Env × ControlOp) :
    Decidable (Apart c p op) := by
  unfold Apart
  split <;> infer_instance

/-- Every edit that is kept apart carries sound records to sound records. -/
theorem carries_sound (h : Apart c p op) (hrestart : ∀ registrations, op.2 ≠ .restart registrations)
    (hclaims : ∀ (k : String) pending, p.pendingClientClaims[k]? = some pending →
      claims[k]? = some pending) :
    Carries c p op (Sound claims) (Sound claims) := by
  intro reply s next hk hs hlive hwrites
  cases hwrites with
  | @register env relayVerifyKey relayLabel draws drawn s next registration hregister =>
    obtain rfl := hlive trivial
    obtain ⟨hregisters, hhash⟩ := registerRelay_eq_some hregister
    have hfresh : ∀ r, p.live.relayRegistrationsByHash[registration.refreshTokenHash]? = some r →
        r.relayVerifyKey = some relayVerifyKey := by
      intro r hr
      rw [hhash] at hr
      exact h r hr
    exact ⟨hs.1.registers hregisters hfresh, fun k pending hk =>
      hregisters.registered hs.1 hfresh (hs.2 k pending hk)⟩
  | grant registration k hfiled hid hroom =>
    exact ⟨hs.1.issueDeviceGrant ⟨k, registration, hfiled, rfl⟩ _ _ _ _, hs.2⟩
  | @claim env claimId claimSignature drawn s pending hpending =>
    obtain rfl := hlive trivial
    obtain ⟨row, henrols, -, -⟩ := issueOrRotateClientIdentity_enrols c.sha256Hex p.live
      pending.clientVerifyKey pending.clientLabel env.now p.rotationGraceSecs drawn
    have hrelays := henrols.relays
    have hunique := hs.1.enrols henrols (h pending hpending)
    have hregistered := (hs.2 (trim claimId) pending (hclaims _ _ hpending)).of_relays hrelays
    exact ⟨hunique.upsertClientRelayGrant hregistered, fun k pending' hk =>
      (hs.2 k pending' hk).of_relays hrelays⟩
  | @rotate env bearerToken drawn s client row k hfiled hid hkey =>
    exact ⟨hs.1.replaceClient hfiled hid rfl hkey.symm, hs.2⟩
  | @revokeClient env bearerToken s clientId =>
    have hclients : Unique (s.removeClientIdentityByClientId clientId).1 :=
      hs.1.of_clients rfl rfl rfl (hs.1.clientIds.filter _) (hs.1.clientKeys.filter _)
    exact ⟨hclients.of_grants rfl rfl (fun k g hg => ⟨g, hg, rfl, rfl⟩)
      fun k g hg => (getElem?_of_filter hg).1, hs.2⟩
  | revokeDevice =>
    exact ⟨hs.1.of_grants rfl rfl (fun k g hg => ⟨g, (getElem?_of_filter hg).1, rfl, rfl⟩)
      fun k g hg => (getElem?_of_filter hg).1, hs.2⟩
  | revokeOthers =>
    exact ⟨hs.1.of_grants rfl rfl (fun k g hg => ⟨g, (getElem?_of_filter hg).1, rfl, rfl⟩)
      fun k g hg => (getElem?_of_filter hg).1, hs.2⟩
  | restart => exact absurd rfl (hrestart _)

theorem unique_stable : Stable Unique where
  durable _ _ hst hs := unique_of_durable hst hs
  client s k row superseded hrow hs :=
    ((stable_sound ∅).client s k row superseded hrow ⟨hs, by simp⟩).1
  grant s k row superseded hrow hs :=
    ((stable_sound ∅).grant s k row superseded hrow ⟨hs, by simp⟩).1

/-- The invariant: everything read next is sound for the claims that are pending, and what is
stored for the next process keeps identities apart. -/
def Distinct (p : PublicControlPlane) : Prop :=
  Kept (Sound p.pendingClientClaims) Unique p

theorem distinct_fresh (backend : Backend) (rotationGraceSecs : Nat) :
    Distinct (fresh backend rotationGraceSecs) :=
  kept_fresh ⟨unique_empty, by simp [fresh]⟩ unique_empty backend rotationGraceSecs

theorem Distinct.issueClientGrant (h : Distinct p) (env : Env) (bearerToken : String)
    (request : ClientGrantRequest) (claimDrawn nonceDrawn : String) :
    Distinct (p.issueClientGrant c.sha256Hex c.validVerifyKey env bearerToken request claimDrawn
      nonceDrawn).1 := by
  have hlets := Kept.authenticateRelay c.sha256Hex h env bearerToken request.relayId
    request.brokerRoomId
  obtain ⟨p₁, claims, hloads, hloaded, heq, -, hclaims⟩ :=
    issueClientGrant_cases p c env bearerToken request claimDrawn nonceDrawn
  rw [heq]
  have hkept : Kept (Sound p₁.pendingClientClaims) Unique p₁ := by
    rw [hloads.claims, ← hloaded]
    exact hlets.kept
  by_cases hletIn : ∃ registration, p.authenticateRelay c.sha256Hex env bearerToken
      request.relayId request.brokerRoomId = (p₁, .ok registration)
  · obtain ⟨registration, hletIn⟩ := hletIn
    rw [hletIn] at hlets
    obtain ⟨hready, -, -, hfiled⟩ := hlets.ok registration rfl
    have hregistered : p₁.state.Registered registration.relayId := by
      rw [(hkept.live_holders hready).1] at hfiled
      exact ⟨_, registration, hfiled, rfl⟩
    have hboth := hkept.and_holders (·.Registered registration.relayId) hready
      (fun s t hst hs => hs.of_relays hst.1.symm) hregistered
    refine (hboth.mono fun s hs => ⟨hs.1.1, fun k pending hk => ?_⟩).withClaims _
    rcases hclaims k pending hk with hbefore | ⟨⟨other, hrelay, hother⟩, -⟩
    · exact hs.1.2 k pending hbefore
    · rw [hletIn] at hother
      cases hother
      exact hrelay ▸ hs.2
  · refine (hkept.mono fun s hs => hs.fewer fun k pending hk => ?_).withClaims _
    rcases hclaims k pending hk with hbefore | ⟨⟨other, -, hother⟩, -⟩
    · exact hbefore
    · exact absurd ⟨other, hother⟩ hletIn

theorem Distinct.step (h : Distinct p) (hapart : Apart c p op) : Distinct (p.step c op) := by
  obtain ⟨env, op⟩ := op
  by_cases hrestart : ∃ registrations, op = .restart registrations
  · obtain ⟨registrations, rfl⟩ := hrestart
    have hclaims : (p.step c (env, .restart registrations)).pendingClientClaims = ∅ :=
      claims_fromParts p c.sha256Hex env registrations
    have hloaded : Unique p.reopened.state := by
      unfold PublicControlPlane.reopened
      dsimp only
      split_ifs
      · exact unique_empty
      · exact h.stored
    unfold Distinct
    rw [hclaims]
    exact h.restart (stable_sound ∅) (fun s hs => hs.1) registrations ⟨hloaded, by simp⟩
      ⟨hloaded.seedRelayRegistrations hapart, by simp⟩
  · have hrule : Rule c p (env, op) (Sound p.pendingClientClaims) (Sound p.pendingClientClaims)
        Unique :=
      { before := stable_sound _, after := stable_sound _, stored := unique_stable
        weaken := fun s hs => hs.1, mono := fun s hs => hs
        carries := carries_sound hapart (fun registrations hop => hrestart ⟨registrations, hop⟩)
          fun _ _ hk => hk }
    have hkept := hrule.step h fun registrations hop => hrestart ⟨registrations, hop⟩
    by_cases hgrant : ∃ bearerToken request claimDrawn nonceDrawn,
        op = .issueClientGrant bearerToken request claimDrawn nonceDrawn
    · obtain ⟨bearerToken, request, claimDrawn, nonceDrawn, rfl⟩ := hgrant
      exact h.issueClientGrant env bearerToken request claimDrawn nonceDrawn
    · refine hkept.mono fun s hs => hs.fewer fun k pending hk => ?_
      rcases claims_step hk with hattests | ⟨hbefore, -⟩
      · obtain ⟨bearerToken, request, claimDrawn, nonceDrawn, hop, -⟩ := hattests.key
        exact absurd ⟨bearerToken, request, claimDrawn, nonceDrawn, hop⟩ hgrant
      · exact hbefore

/-- In a run that keeps them apart, identities stand in one row each, in memory and in what is
stored, and every grant names a relay that is registered. -/
theorem identities_stay_unique (c : Crypto) (backend : Backend) (rotationGraceSecs : Nat)
    (ops : List (Env × ControlOp))
    (h : StepRun.Along (step c) (Apart c) (fresh backend rotationGraceSecs) ops) :
    StepRun.Always (step c) (fun p => p.persisted.Unique ∧ p.live.Unique)
      (fresh backend rotationGraceSecs) ops := by
  refine StepRun.Always.mono (StepRun.always_of_step (I := Distinct)
    (fun p op hp hop => hp.step hop) (distinct_fresh backend rotationGraceSecs) h) fun p hp => ?_
  have hstored : p.persisted.Unique := hp.stored
  exact ⟨hstored, hp.live.1.1⟩

theorem identities_stay_unique_reenrolled :
    StepRun.Always (step plainCrypto) (fun p => p.persisted.Unique ∧ p.live.Unique)
      (fresh (.postgres false) 100)
      [(quiet 4, .restart [⟨"relay-x", "room-x", "configured"⟩]),
        (quiet 5, .issueRelayRegistration "key" none [("a", "r")] "one"),
        (quiet 6, .issueClientGrant "rref-one" ⟨"relay-a", "room-r", "phone", "owner", none, none⟩
          "c" "n"),
        (quiet 7, .claimClientIdentity "ccl-c" "signed" "two"),
        (quiet 8, .issueRelayRegistration "key" none [] "three"),
        (quiet 9, .restart [⟨"relay-x", "room-x", "configured"⟩])] :=
  identities_stay_unique plainCrypto (.postgres false) 100 _ (by decide +kernel)

/-- A relay whose configured token was changed stands in two rows. -/
theorem changed_token_doubles_relay :
    ¬ StepRun.Always (step plainCrypto) (fun p => p.persisted.Unique ∧ p.live.Unique)
      (fresh .json 100)
      [(quiet 5, .restart [⟨"relay-a", "room-r", "old"⟩]),
        (quiet 6, .restart [⟨"relay-a", "room-r", "new"⟩])] := by
  intro h
  have hunique := h.last.1.relayIds "old" "new" ⟨"relay-a", "room-r", "old", 0, none, none⟩
    ⟨"relay-a", "room-r", "new", 0, none, none⟩ "relay-a" (by decide +kernel) (by decide +kernel)
    rfl rfl
  exact absurd hunique (by decide)

end PublicControlPlane

end AgentRelay.Control
