import AgentRelay.ControlUnique
import AgentRelay.RowStatements

/-! The two ways the control plane's records get into its database: by the difference to what was
saved last, and, in a benchmark, by writing every row anew. The loops that make the statements run
over hash maps, in any order. -/
namespace AgentRelay.Control
open Text RecordTables RowStatements Std

structure ControlRows where
  relayRegistrations : Rows String PersistedRelayRegistration
  clientIdentities : Rows String PersistedClientIdentity
  deviceGrants : Rows String PersistedDeviceGrant
  clientRelayGrants : Rows (String × String) PersistedClientRelayGrant

inductive ControlStatement
  | relay (statement : Statement String PersistedRelayRegistration)
  | client (statement : Statement String PersistedClientIdentity)
  | grant (statement : Statement String PersistedDeviceGrant)
  | relayGrant (statement : Statement (String × String) PersistedClientRelayGrant)

namespace ControlStatement

def relay? : ControlStatement → Option (Statement String PersistedRelayRegistration)
  | relay statement => some statement
  | _ => none

def client? : ControlStatement → Option (Statement String PersistedClientIdentity)
  | client statement => some statement
  | _ => none

def grant? : ControlStatement → Option (Statement String PersistedDeviceGrant)
  | grant statement => some statement
  | _ => none

def relayGrant? :
    ControlStatement → Option (Statement (String × String) PersistedClientRelayGrant)
  | relayGrant statement => some statement
  | _ => none

end ControlStatement

namespace ControlRows

def apply (rows : ControlRows) : ControlStatement → ControlRows
  | .relay statement =>
    { rows with relayRegistrations := RowStatements.apply rows.relayRegistrations statement }
  | .client statement =>
    { rows with clientIdentities := RowStatements.apply rows.clientIdentities statement }
  | .grant statement =>
    { rows with deviceGrants := RowStatements.apply rows.deviceGrants statement }
  | .relayGrant statement =>
    { rows with clientRelayGrants := RowStatements.apply rows.clientRelayGrants statement }

def run (rows : ControlRows) (statements : List ControlStatement) : ControlRows :=
  statements.foldl apply rows

structure MeetsConstraints (rows : ControlRows) : Prop where
  relayIds : Distinct (fun r => some r.relayId) rows.relayRegistrations
  rooms : Distinct (fun r => some r.brokerRoomId) rows.relayRegistrations
  relayKeys : Distinct (·.relayVerifyKey) rows.relayRegistrations
  clientIds : Distinct (fun r => some r.clientId) rows.clientIdentities
  clientKeys : Distinct (fun r => some r.clientVerifyKey) rows.clientIdentities
  devices : Distinct (fun g => some (g.relayId, g.brokerRoomId, g.deviceId)) rows.deviceGrants

theorem run_eq (rows : ControlRows) (statements : List ControlStatement) :
    rows.run statements =
      { relayRegistrations :=
          RowStatements.run rows.relayRegistrations (statements.filterMap (·.relay?))
        clientIdentities :=
          RowStatements.run rows.clientIdentities (statements.filterMap (·.client?))
        deviceGrants := RowStatements.run rows.deviceGrants (statements.filterMap (·.grant?))
        clientRelayGrants :=
          RowStatements.run rows.clientRelayGrants (statements.filterMap (·.relayGrant?)) } := by
  induction statements generalizing rows with
  | nil => rfl
  | cons statement statements ih =>
    have hstep : rows.run (statement :: statements) = (rows.apply statement).run statements := rfl
    rw [hstep, ih]
    cases statement <;> rfl

end ControlRows

def PersistedClientRelayGrant.pair (grant : PersistedClientRelayGrant) : String × String :=
  (grant.clientId, grant.relayId)

/-- The inserts of the rebuild name no column for the superseded tokens. -/
def PersistedClientIdentity.rebuilt (client : PersistedClientIdentity) : PersistedClientIdentity :=
  { client with superseded := [] }

def PersistedDeviceGrant.rebuilt (grant : PersistedDeviceGrant) : PersistedDeviceGrant :=
  { grant with superseded := [] }

namespace PublicControlStateStore

def rows (s : PublicControlStateStore) : ControlRows where
  relayRegistrations := rowsOf (·.refreshTokenHash) s.relayRegistrationsByHash
  clientIdentities := rowsOf (·.refreshTokenHash) s.clientRegistrationsByHash
  deviceGrants := rowsOf (·.refreshTokenHash) s.grantsByHash
  clientRelayGrants := rowsOf (·.pair) s.clientRelayGrantsByKey

structure LoopOrder (s : PublicControlStateStore) where
  relays : List (String × PersistedRelayRegistration)
  clients : List (String × PersistedClientIdentity)
  grants : List (String × PersistedDeviceGrant)
  relayGrants : List (String × PersistedClientRelayGrant)
  relaysPerm : relays.Perm s.relayRegistrationsByHash.toList
  clientsPerm : clients.Perm s.clientRegistrationsByHash.toList
  grantsPerm : grants.Perm s.grantsByHash.toList
  relayGrantsPerm : relayGrants.Perm s.clientRelayGrantsByKey.toList

/-- The statements of `save_public_control_postgres`: all deletes, then the upserts. -/
def saveStatements {prev next : PublicControlStateStore} (before : LoopOrder prev)
    (after : LoopOrder next) : List ControlStatement :=
  (deletes Prod.fst next.relayRegistrationsByHash before.relays).map .relay ++
    (deletes Prod.fst next.clientRegistrationsByHash before.clients).map .client ++
    (deletes Prod.fst next.grantsByHash before.grants).map .grant ++
    (deletes (·.2.pair) next.clientRelayGrantsByKey before.relayGrants).map .relayGrant ++
    (upserts (·.refreshTokenHash) prev.relayRegistrationsByHash after.relays).map .relay ++
    (upserts (·.refreshTokenHash) prev.clientRegistrationsByHash after.clients).map .client ++
    (upserts (·.refreshTokenHash) prev.grantsByHash after.grants).map .grant ++
    (upserts (·.pair) prev.clientRelayGrantsByKey after.relayGrants).map .relayGrant

/-- The statements of `save_public_control_postgres_full_rebuild`. The records have distinct keys,
so its inserts meet no row. -/
def rebuildStatements (state : PublicControlStateStore) : List ControlStatement :=
  let persisted := state.toPersisted
  let inserts {K V : Type} (pk : V → K) (rebuilt : V → V) (records : List V) :
      List (Statement K V) :=
    records.map fun row => .upsert (pk row) (rebuilt row)
  [.relayGrant .clear, .grant .clear, .client .clear, .relay .clear] ++
    (inserts (·.refreshTokenHash) id persisted.relayRegistrations).map .relay ++
    (inserts (·.refreshTokenHash) PersistedClientIdentity.rebuilt
      persisted.clientRegistrations).map .client ++
    (inserts (·.refreshTokenHash) PersistedDeviceGrant.rebuilt persisted.deviceGrants).map .grant ++
    (inserts (·.pair) id persisted.clientRelayGrants).map .relayGrant

/-- The save by difference leaves what the rebuild leaves, and at no moment two rows that share a
unique column. -/
def SavesAsRebuilt (prev next : PublicControlStateStore) : Prop :=
  ∀ (before : LoopOrder prev) (after : LoopOrder next),
    prev.rows.run (saveStatements before after) = prev.rows.run next.rebuildStatements ∧
    ∀ done, done <+: saveStatements before after → (prev.rows.run done).MeetsConstraints

/-- No credential is in a grace window. -/
def CarriesNoOldTokens (s : PublicControlStateStore) : Prop :=
  (∀ (k : String) client, s.clientRegistrationsByHash[k]? = some client → client.superseded = []) ∧
    ∀ (k : String) grant, s.grantsByHash[k]? = some grant → grant.superseded = []

/-- No record has a unique value that before stood in another one that keeps its token. -/
structure TakesNothingOver (prev next : PublicControlStateStore) : Prop where
  relayIds : Steady (fun r => some r.relayId) prev.relayRegistrationsByHash
    next.relayRegistrationsByHash
  rooms : Steady (fun r => some r.brokerRoomId) prev.relayRegistrationsByHash
    next.relayRegistrationsByHash
  relayKeys : Steady (·.relayVerifyKey) prev.relayRegistrationsByHash next.relayRegistrationsByHash
  clientIds : Steady (fun r => some r.clientId) prev.clientRegistrationsByHash
    next.clientRegistrationsByHash
  clientKeys : Steady (fun r => some r.clientVerifyKey) prev.clientRegistrationsByHash
    next.clientRegistrationsByHash
  devices : Steady (fun g => some (g.relayId, g.brokerRoomId, g.deviceId)) prev.grantsByHash
    next.grantsByHash

section compare

variable {prev next s : PublicControlStateStore}

theorem filed_relays (h : s.Keyed) :
    Filed (·.refreshTokenHash) id Prod.fst s.relayRegistrationsByHash :=
  ⟨h.relays, fun k v hv => (h.relays k v hv).symm⟩

theorem filed_clients (h : s.Keyed) :
    Filed (·.refreshTokenHash) id Prod.fst s.clientRegistrationsByHash :=
  ⟨h.clients, fun k v hv => (h.clients k v hv).symm⟩

theorem filed_grants (h : s.Keyed) : Filed (·.refreshTokenHash) id Prod.fst s.grantsByHash :=
  ⟨h.grants, fun k v hv => (h.grants k v hv).symm⟩

theorem filed_relayGrants (h : s.Keyed) :
    Filed (·.pair) (fun pair => clientRelayGrantKey pair.1 pair.2) (·.2.pair)
      s.clientRelayGrantsByKey :=
  ⟨h.relayGrants, fun _ _ _ => rfl⟩

theorem samePlace_of_filed {V : Type} {pk : V → String} {place : String × V → String}
    {m n : Table V} (hm : Filed pk id place m) (hn : Filed pk id place n) : SamePlace pk m n :=
  fun k v w hv hw => (hm.name k v hv).trans (hn.name k w hw).symm

theorem saveStatements_relays (before : LoopOrder prev) (after : LoopOrder next) :
    (saveStatements before after).filterMap (·.relay?) =
      saveDiff (·.refreshTokenHash) Prod.fst prev.relayRegistrationsByHash
        next.relayRegistrationsByHash before.relays after.relays := by
  simp [saveStatements, saveDiff, List.filterMap_append, List.filterMap_map,
    ControlStatement.relay?]

theorem saveStatements_clients (before : LoopOrder prev) (after : LoopOrder next) :
    (saveStatements before after).filterMap (·.client?) =
      saveDiff (·.refreshTokenHash) Prod.fst prev.clientRegistrationsByHash
        next.clientRegistrationsByHash before.clients after.clients := by
  simp [saveStatements, saveDiff, List.filterMap_append, List.filterMap_map,
    ControlStatement.client?]

theorem saveStatements_grants (before : LoopOrder prev) (after : LoopOrder next) :
    (saveStatements before after).filterMap (·.grant?) =
      saveDiff (·.refreshTokenHash) Prod.fst prev.grantsByHash next.grantsByHash before.grants
        after.grants := by
  simp [saveStatements, saveDiff, List.filterMap_append, List.filterMap_map,
    ControlStatement.grant?]

theorem saveStatements_relayGrants (before : LoopOrder prev) (after : LoopOrder next) :
    (saveStatements before after).filterMap (·.relayGrant?) =
      saveDiff (·.pair) (·.2.pair) prev.clientRelayGrantsByKey next.clientRelayGrantsByKey
        before.relayGrants after.relayGrants := by
  simp [saveStatements, saveDiff, List.filterMap_append, List.filterMap_map,
    ControlStatement.relayGrant?]

theorem run_rebuildStatements (rows : ControlRows) :
    rows.run s.rebuildStatements =
      { relayRegistrations := RowStatements.run rows.relayRegistrations
          (rebuild (·.refreshTokenHash) id s.relayRegistrationsByHash.values)
        clientIdentities := RowStatements.run rows.clientIdentities
          (rebuild (·.refreshTokenHash) PersistedClientIdentity.rebuilt
            s.clientRegistrationsByHash.values)
        deviceGrants := RowStatements.run rows.deviceGrants
          (rebuild (·.refreshTokenHash) PersistedDeviceGrant.rebuilt s.grantsByHash.values)
        clientRelayGrants := RowStatements.run rows.clientRelayGrants
          (rebuild (·.pair) id s.clientRelayGrantsByKey.values) } := by
  rw [ControlRows.run_eq]
  simp [rebuildStatements, toPersisted, rebuild, List.filterMap_append, List.filterMap_map,
    Function.comp_def, ControlStatement.relay?, ControlStatement.client?, ControlStatement.grant?,
    ControlStatement.relayGrant?]

def LoopOrder.byKey (s : PublicControlStateStore) : LoopOrder s where
  relays := s.relayRegistrationsByHash.toList
  clients := s.clientRegistrationsByHash.toList
  grants := s.grantsByHash.toList
  relayGrants := s.clientRelayGrantsByKey.toList
  relaysPerm := .refl _
  clientsPerm := .refl _
  grantsPerm := .refl _
  relayGrantsPerm := .refl _

/-- A column that the constraints keep distinct in one table stays distinct under the statements
that go to that table, in any order of the two loops over its maps. -/
theorem staysDistinct_of_saves {V C : Type} [DecidableEq V] {pk : V → String}
    {column : V → Option C} {m n : Table V} {pick : ControlStatement → Option (Statement String V)}
    {table : ControlRows → Rows String V}
    (hrun : ∀ statements, table (prev.rows.run statements) =
      RowStatements.run (rowsOf pk m) (statements.filterMap pick))
    (horder : ∀ before after, before.Perm m.toList → after.Perm n.toList →
      ∃ (loops : LoopOrder prev) (loops' : LoopOrder next),
        (saveStatements loops loops').filterMap pick = saveDiff pk Prod.fst m n before after)
    (hmeets : ∀ rows : ControlRows, rows.MeetsConstraints → Distinct column (table rows))
    (h : SavesAsRebuilt prev next) : StaysDistinct pk Prod.fst column m n := by
  intro before after hbefore hafter done hdone
  obtain ⟨loops, loops', hdiff⟩ := horder before after hbefore hafter
  rw [← hdiff] at hdone
  obtain ⟨whole, hwhole, rfl⟩ := List.prefix_filterMap_iff.mp hdone
  have hdistinct := hmeets _ ((h loops loops').2 whole hwhole)
  rwa [hrun] at hdistinct

theorem staysDistinct_relays {C : Type} {column : PersistedRelayRegistration → Option C}
    (hmeets : ∀ rows : ControlRows, rows.MeetsConstraints → Distinct column rows.relayRegistrations)
    (h : SavesAsRebuilt prev next) :
    StaysDistinct (·.refreshTokenHash) Prod.fst column prev.relayRegistrationsByHash
      next.relayRegistrationsByHash := by
  refine staysDistinct_of_saves (fun statements => by rw [ControlRows.run_eq]; rfl) ?_ hmeets h
  intro before after hbefore hafter
  exact ⟨{ LoopOrder.byKey prev with relays := before, relaysPerm := hbefore },
    { LoopOrder.byKey next with relays := after, relaysPerm := hafter }, saveStatements_relays ..⟩

theorem staysDistinct_clients {C : Type} {column : PersistedClientIdentity → Option C}
    (hmeets : ∀ rows : ControlRows, rows.MeetsConstraints → Distinct column rows.clientIdentities)
    (h : SavesAsRebuilt prev next) :
    StaysDistinct (·.refreshTokenHash) Prod.fst column prev.clientRegistrationsByHash
      next.clientRegistrationsByHash := by
  refine staysDistinct_of_saves (fun statements => by rw [ControlRows.run_eq]; rfl) ?_ hmeets h
  intro before after hbefore hafter
  exact ⟨{ LoopOrder.byKey prev with clients := before, clientsPerm := hbefore },
    { LoopOrder.byKey next with clients := after, clientsPerm := hafter },
    saveStatements_clients ..⟩

theorem staysDistinct_grants {C : Type} {column : PersistedDeviceGrant → Option C}
    (hmeets : ∀ rows : ControlRows, rows.MeetsConstraints → Distinct column rows.deviceGrants)
    (h : SavesAsRebuilt prev next) :
    StaysDistinct (·.refreshTokenHash) Prod.fst column prev.grantsByHash next.grantsByHash := by
  refine staysDistinct_of_saves (fun statements => by rw [ControlRows.run_eq]; rfl) ?_ hmeets h
  intro before after hbefore hafter
  exact ⟨{ LoopOrder.byKey prev with grants := before, grantsPerm := hbefore },
    { LoopOrder.byKey next with grants := after, grantsPerm := hafter }, saveStatements_grants ..⟩

theorem nodup_map_iff {V C : Type} {column : V → C} {m : Table V} :
    (m.values.map column).Nodup ↔ UniqueBy (fun v => some (column v)) m := by
  rw [← nodup_iff_uniqueBy, ← List.filterMap_eq_map]
  rfl

theorem meetsConstraints_iff (h : s.Keyed) :
    s.MeetsConstraints ↔
      UniqueBy (fun r => some r.relayId) s.relayRegistrationsByHash ∧
      UniqueBy (fun r => some r.brokerRoomId) s.relayRegistrationsByHash ∧
      UniqueBy (·.relayVerifyKey) s.relayRegistrationsByHash ∧
      UniqueBy (fun r => some r.clientId) s.clientRegistrationsByHash ∧
      UniqueBy (fun r => some r.clientVerifyKey) s.clientRegistrationsByHash ∧
      UniqueBy (fun g => some (g.relayId, g.brokerRoomId, g.deviceId)) s.grantsByHash := by
  have hpairs : UniqueBy (fun g => some (PersistedClientRelayGrant.pair g))
      s.clientRelayGrantsByKey := by
    intro k l v w a hv hw hva hwa
    have hpair : v.pair = w.pair := Option.some.inj (hva.trans hwa.symm)
    exact (filed_relayGrants h).injective hv hw hpair
  unfold MeetsConstraints
  simp only [nodup_map_iff, nodup_iff_uniqueBy]
  constructor
  · rintro ⟨hids, hrooms, hkeys, hclients, hclientKeys, hdevices, -⟩
    exact ⟨hids, hrooms, hkeys, hclients, hclientKeys, hdevices⟩
  · rintro ⟨hids, hrooms, hkeys, hclients, hclientKeys, hdevices⟩
    exact ⟨hids, hrooms, hkeys, hclients, hclientKeys, hdevices, hpairs⟩

/-- The rows that are left agree just when no credential is in a grace window and no key of a
client's grant has moved. -/
theorem run_save_eq_rebuild_iff (hprev : prev.Keyed) (hnext : next.Keyed) (before : LoopOrder prev)
    (after : LoopOrder next) :
    prev.rows.run (saveStatements before after) = prev.rows.run next.rebuildStatements ↔
      next.CarriesNoOldTokens ∧
        SamePlace PersistedClientRelayGrant.pair prev.clientRelayGrantsByKey
          next.clientRelayGrantsByKey := by
  rw [run_rebuildStatements, ControlRows.run_eq, saveStatements_relays, saveStatements_clients,
    saveStatements_grants, saveStatements_relayGrants, ControlRows.mk.injEq]
  have hrelays := saveDiff_eq_rebuild_iff (filed_relays hprev) (filed_relays hnext)
    before.relaysPerm after.relaysPerm id (fun _ => Iff.rfl) prev.rows.relayRegistrations
  have hclients := saveDiff_eq_rebuild_iff (filed_clients hprev) (filed_clients hnext)
    before.clientsPerm after.clientsPerm PersistedClientIdentity.rebuilt (fun _ => Iff.rfl)
    prev.rows.clientIdentities
  have hgrants := saveDiff_eq_rebuild_iff (filed_grants hprev) (filed_grants hnext)
    before.grantsPerm after.grantsPerm PersistedDeviceGrant.rebuilt (fun _ => Iff.rfl)
    prev.rows.deviceGrants
  have hrelayGrants := saveDiff_eq_rebuild_iff (filed_relayGrants hprev) (filed_relayGrants hnext)
    before.relayGrantsPerm after.relayGrantsPerm id (fun _ => Iff.rfl)
    prev.rows.clientRelayGrants
  have hclient : ∀ client : PersistedClientIdentity,
      client.rebuilt = client ↔ client.superseded = [] := by
    intro client
    cases client
    simp [PersistedClientIdentity.rebuilt, eq_comm]
  have hgrant : ∀ grant : PersistedDeviceGrant,
      grant.rebuilt = grant ↔ grant.superseded = [] := by
    intro grant
    cases grant
    simp [PersistedDeviceGrant.rebuilt, eq_comm]
  have hsameRelays := samePlace_of_filed (filed_relays hprev) (filed_relays hnext)
  have hsameClients := samePlace_of_filed (filed_clients hprev) (filed_clients hnext)
  have hsameGrants := samePlace_of_filed (filed_grants hprev) (filed_grants hnext)
  unfold rows at hrelays hclients hgrants hrelayGrants ⊢
  rw [hrelays, hclients, hgrants, hrelayGrants]
  simp only [hsameRelays, hsameClients, hsameGrants, hclient, hgrant, id, implies_true, and_true,
    true_and, CarriesNoOldTokens, and_assoc]

theorem run_saveStatements (hprev : prev.Keyed) (hnext : next.Keyed) (before : LoopOrder prev)
    (after : LoopOrder next)
    (hpairs : SamePlace PersistedClientRelayGrant.pair prev.clientRelayGrantsByKey
      next.clientRelayGrantsByKey) :
    prev.rows.run (saveStatements before after) = (applySave prev next prev).rows := by
  rw [ControlRows.run_eq, saveStatements_relays, saveStatements_clients, saveStatements_grants,
    saveStatements_relayGrants]
  have hrelays := run_saveDiff (filed_relays hprev) (filed_relays hnext) before.relaysPerm
    after.relaysPerm (samePlace_of_filed (filed_relays hprev) (filed_relays hnext))
  have hclients := run_saveDiff (filed_clients hprev) (filed_clients hnext) before.clientsPerm
    after.clientsPerm (samePlace_of_filed (filed_clients hprev) (filed_clients hnext))
  have hgrants := run_saveDiff (filed_grants hprev) (filed_grants hnext) before.grantsPerm
    after.grantsPerm (samePlace_of_filed (filed_grants hprev) (filed_grants hnext))
  have hrelayGrants := run_saveDiff (filed_relayGrants hprev) (filed_relayGrants hnext)
    before.relayGrantsPerm after.relayGrantsPerm hpairs
  simp only [rows, applySave, applyDiff_self, hrelays, hclients, hgrants, hrelayGrants]

/-- When the save by difference of records that are filed in order is as good as a rebuild. -/
theorem savesAsRebuilt_iff (hprev : prev.Keyed) (hnext : next.Keyed) :
    SavesAsRebuilt prev next ↔
      prev.MeetsConstraints ∧ next.MeetsConstraints ∧ next.CarriesNoOldTokens ∧
        TakesNothingOver prev next ∧
        SamePlace PersistedClientRelayGrant.pair prev.clientRelayGrantsByKey
          next.clientRelayGrantsByKey := by
  have hrelays {C : Type} {column : PersistedRelayRegistration → Option C} :
      StaysDistinct (·.refreshTokenHash) Prod.fst column prev.relayRegistrationsByHash
          next.relayRegistrationsByHash ↔
        UniqueBy column prev.relayRegistrationsByHash ∧
          UniqueBy column next.relayRegistrationsByHash ∧
          Steady column prev.relayRegistrationsByHash next.relayRegistrationsByHash :=
    staysDistinct_iff (filed_relays hprev) (filed_relays hnext)
      (samePlace_of_filed (filed_relays hprev) (filed_relays hnext))
  have hclients {C : Type} {column : PersistedClientIdentity → Option C} :
      StaysDistinct (·.refreshTokenHash) Prod.fst column prev.clientRegistrationsByHash
          next.clientRegistrationsByHash ↔
        UniqueBy column prev.clientRegistrationsByHash ∧
          UniqueBy column next.clientRegistrationsByHash ∧
          Steady column prev.clientRegistrationsByHash next.clientRegistrationsByHash :=
    staysDistinct_iff (filed_clients hprev) (filed_clients hnext)
      (samePlace_of_filed (filed_clients hprev) (filed_clients hnext))
  have hgrants {C : Type} {column : PersistedDeviceGrant → Option C} :
      StaysDistinct (·.refreshTokenHash) Prod.fst column prev.grantsByHash
          next.grantsByHash ↔
        UniqueBy column prev.grantsByHash ∧
          UniqueBy column next.grantsByHash ∧
          Steady column prev.grantsByHash next.grantsByHash :=
    staysDistinct_iff (filed_grants hprev) (filed_grants hnext)
      (samePlace_of_filed (filed_grants hprev) (filed_grants hnext))
  rw [meetsConstraints_iff hprev, meetsConstraints_iff hnext]
  constructor
  · intro h
    obtain ⟨hcurrent, hpairs⟩ := (run_save_eq_rebuild_iff hprev hnext (.byKey prev)
      (.byKey next)).mp (h (.byKey prev) (.byKey next)).1
    have hids := hrelays.mp (staysDistinct_relays (fun _ h => h.relayIds) h)
    have hrooms := hrelays.mp (staysDistinct_relays (fun _ h => h.rooms) h)
    have hkeys := hrelays.mp (staysDistinct_relays (fun _ h => h.relayKeys) h)
    have hclientIds := hclients.mp (staysDistinct_clients (fun _ h => h.clientIds) h)
    have hclientKeys := hclients.mp (staysDistinct_clients (fun _ h => h.clientKeys) h)
    have hdevices := hgrants.mp (staysDistinct_grants (fun _ h => h.devices) h)
    refine ⟨⟨hids.1, hrooms.1, hkeys.1, hclientIds.1, hclientKeys.1, hdevices.1⟩,
      ⟨hids.2.1, hrooms.2.1, hkeys.2.1, hclientIds.2.1, hclientKeys.2.1, hdevices.2.1⟩, hcurrent,
      ?_, hpairs⟩
    exact ⟨hids.2.2, hrooms.2.2, hkeys.2.2, hclientIds.2.2, hclientKeys.2.2, hdevices.2.2⟩
  · rintro ⟨⟨hids, hrooms, hkeys, hclientIds, hclientKeys, hdevices⟩,
      ⟨hids', hrooms', hkeys', hclientIds', hclientKeys', hdevices'⟩, hcurrent, hsteady, hpairs⟩
    intro before after
    refine ⟨(run_save_eq_rebuild_iff hprev hnext before after).mpr ⟨hcurrent, hpairs⟩, ?_⟩
    intro done hdone
    have hrelaysDone := hdone.filterMap (·.relay?)
    have hclientsDone := hdone.filterMap (·.client?)
    have hgrantsDone := hdone.filterMap (·.grant?)
    rw [saveStatements_relays] at hrelaysDone
    rw [saveStatements_clients] at hclientsDone
    rw [saveStatements_grants] at hgrantsDone
    rw [ControlRows.run_eq]
    constructor
    · exact hrelays.mpr ⟨hids, hids', hsteady.relayIds⟩ _ _ before.relaysPerm after.relaysPerm _
        hrelaysDone
    · exact hrelays.mpr ⟨hrooms, hrooms', hsteady.rooms⟩ _ _ before.relaysPerm after.relaysPerm _
        hrelaysDone
    · exact hrelays.mpr ⟨hkeys, hkeys', hsteady.relayKeys⟩ _ _ before.relaysPerm after.relaysPerm _
        hrelaysDone
    · exact hclients.mpr ⟨hclientIds, hclientIds', hsteady.clientIds⟩ _ _ before.clientsPerm
        after.clientsPerm _ hclientsDone
    · exact hclients.mpr ⟨hclientKeys, hclientKeys', hsteady.clientKeys⟩ _ _ before.clientsPerm
        after.clientsPerm _ hclientsDone
    · exact hgrants.mpr ⟨hdevices, hdevices', hsteady.devices⟩ _ _ before.grantsPerm
        after.grantsPerm _ hgrantsDone

end compare

end PublicControlStateStore

namespace PublicControlPlane
open PublicControlStateStore

theorem keyed_of_run (c : Crypto) (backend : Backend) (rotationGraceSecs : Nat)
    (ops : List (Env × ControlOp)) :
    (StepRun.run (step c) (fresh backend rotationGraceSecs) ops).state.Keyed := by
  have hstep : ∀ p op, Kept (fun _ => True) (fun _ => True) p →
      Kept (fun _ => True) (fun _ => True) (p.step c op) := by
    intro p op h
    obtain ⟨env, op⟩ := op
    by_cases hrestart : ∃ registrations, op = .restart registrations
    · obtain ⟨registrations, rfl⟩ := hrestart
      exact h.restart stable_true (fun _ _ => trivial) registrations trivial trivial
    · have hrule : Rule c p (env, op) (fun _ => True) (fun _ => True) (fun _ => True) :=
        { before := stable_true, after := stable_true, stored := stable_true
          weaken := fun _ _ => trivial, mono := fun _ _ => trivial
          carries := fun _ _ _ _ _ _ _ => trivial }
      exact hrule.step h fun registrations hop => hrestart ⟨registrations, hop⟩
  exact (StepRun.run_of_step hstep (kept_fresh trivial trivial backend rotationGraceSecs)
    ops).keyed

theorem run_saveStatements_rotated :
    let enrolled : List (Env × ControlOp) :=
      [(quiet 4, .issueRelayRegistration "key" none [("a", "r")] "one"),
        (quiet 5, .issueClientGrant "rref-one" ⟨"relay-a", "room-r", "phone", "owner", none, none⟩
          "c" "n"),
        (quiet 6, .claimClientIdentity "ccl-c" "signed" "two")]
    let rotated := enrolled ++ [(quiet 7, .rotateClientIdentity "cref-two" "three")]
    let prev := (StepRun.run (step plainCrypto) (fresh (.postgres false) 100) enrolled).state
    let next := (StepRun.run (step plainCrypto) (fresh (.postgres false) 100) rotated).state
    prev.clientRegistrationsByHash.keys = ["cref-two"] ∧
      next.clientRegistrationsByHash.keys = ["cref-three"] ∧
      prev.clientRelayGrantsByKey.keys = ["client-owner:relay-a"] ∧
      next.clientRelayGrantsByKey.keys = ["client-owner:relay-a"] ∧
      prev.rows.run (saveStatements (.byKey prev) (.byKey next)) =
        (applySave prev next prev).rows := by
  intro enrolled rotated prev next
  have hprev : prev.clientRelayGrantsByKey.toList.map (·.2.pair) = [("client-owner", "relay-a")] :=
    by decide +kernel
  have hnext : next.clientRelayGrantsByKey.toList.map (·.2.pair) = [("client-owner", "relay-a")] :=
    by decide +kernel
  have hpair : ∀ {m : Table PersistedClientRelayGrant} {k : String} {v},
      m.toList.map (·.2.pair) = [("client-owner", "relay-a")] → m[k]? = some v →
        v.pair = ("client-owner", "relay-a") := by
    intro m k v hlist hget
    have hmem := List.mem_map_of_mem (f := fun row : String × PersistedClientRelayGrant =>
      row.2.pair) (ExtTreeMap.mem_toList_iff_getElem?_eq_some.mpr hget)
    rw [hlist] at hmem
    exact List.mem_singleton.mp hmem
  refine ⟨by decide +kernel, by decide +kernel, by decide +kernel, by decide +kernel, ?_⟩
  apply run_saveStatements (keyed_of_run ..) (keyed_of_run ..)
  intro k v w hv hw
  rw [hpair hprev hv, hpair hnext hw]

/-- Between any two states the control plane can be in, saving the difference is as good as the
rebuild just when the old and the new records meet the constraints, no credential is in a grace
window, and no record takes over what another that stays had. -/
theorem diff_save_rebuilds_iff (c : Crypto) (backend backend' : Backend)
    (rotationGraceSecs rotationGraceSecs' : Nat) (ops ops' : List (Env × ControlOp)) :
    let prev := (StepRun.run (step c) (fresh backend rotationGraceSecs) ops).state
    let next := (StepRun.run (step c) (fresh backend' rotationGraceSecs') ops').state
    SavesAsRebuilt prev next ↔
      prev.MeetsConstraints ∧ next.MeetsConstraints ∧ next.CarriesNoOldTokens ∧
        TakesNothingOver prev next ∧
        SamePlace PersistedClientRelayGrant.pair prev.clientRelayGrantsByKey
          next.clientRelayGrantsByKey :=
  savesAsRebuilt_iff (keyed_of_run c backend rotationGraceSecs ops)
    (keyed_of_run c backend' rotationGraceSecs' ops')

/-- The rebuild forgets the token a client has just rotated away. -/
theorem rebuild_forgets_old_token :
    let enrolled : List (Env × ControlOp) :=
      [(quiet 4, .issueRelayRegistration "key" none [("a", "r")] "one"),
        (quiet 5, .issueClientGrant "rref-one" ⟨"relay-a", "room-r", "phone", "owner", none, none⟩
          "c" "n"),
        (quiet 6, .claimClientIdentity "ccl-c" "signed" "two")]
    let rotated := enrolled ++ [(quiet 7, .rotateClientIdentity "cref-two" "three")]
    ¬ SavesAsRebuilt
      (StepRun.run (step plainCrypto) (fresh (.postgres false) 100) enrolled).state
      (StepRun.run (step plainCrypto) (fresh (.postgres false) 100) rotated).state := by
  intro enrolled rotated h
  have hcurrent := ((savesAsRebuilt_iff (keyed_of_run _ _ _ enrolled)
    (keyed_of_run _ _ _ rotated)).mp h).2.2.1
  have hrow : (StepRun.run (step plainCrypto) (fresh (.postgres false) 100)
      rotated).state.clientRegistrationsByHash["cref-three"]? =
        some { clientId := "client-owner", clientVerifyKey := "owner"
               refreshTokenHash := "cref-three", createdAt := 6, clientLabel := none
               superseded := [⟨"cref-two", 107⟩] } := by
    decide +kernel
  exact absurd (hcurrent.1 _ _ hrow) (by simp)

end PublicControlPlane

end AgentRelay.Control
