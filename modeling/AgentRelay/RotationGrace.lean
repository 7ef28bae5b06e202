import AgentRelay.ControlMoves
import AgentRelay.ControlUnique
import AgentRelay.GraceTokens

/-! Rotation grace of client identities and device grants: how long a token that was rotated away
keeps letting its holder in, over whole runs of the control plane. -/
namespace AgentRelay.Control
open Text RecordTables Std
open Holdings (Edited Turns Tidy Free Retired Listed)

namespace PublicControlStateStore

variable {s t next : PublicControlStateStore}

def clientHoldings (s : PublicControlStateStore) : Holdings String :=
  s.clientRegistrationsByHash.map fun _ client => (client.clientId, client.superseded)

def grantHoldings (s : PublicControlStateStore) : Holdings (String × String) :=
  s.grantsByHash.map fun _ grant => ((grant.relayId, grant.deviceId), grant.superseded)

theorem getElem?_clientHoldings (s : PublicControlStateStore) (k : String) :
    s.clientHoldings[k]? = (s.clientRegistrationsByHash[k]?).map fun client =>
      (client.clientId, client.superseded) := by
  rw [clientHoldings, ExtTreeMap.getElem?_map]

theorem getElem?_grantHoldings (s : PublicControlStateStore) (k : String) :
    s.grantHoldings[k]? = (s.grantsByHash[k]?).map fun grant =>
      ((grant.relayId, grant.deviceId), grant.superseded) := by
  rw [grantHoldings, ExtTreeMap.getElem?_map]

theorem SameRows.clientHoldings (h : SameRows s t) : t.clientHoldings = s.clientHoldings := by
  unfold PublicControlStateStore.clientHoldings
  rw [h.clients]

theorem SameRows.grantHoldings (h : SameRows s t) : t.grantHoldings = s.grantHoldings := by
  apply ExtTreeMap.ext_getElem?
  intro k
  have hk := congrArg (Option.map fun grant : PersistedDeviceGrant =>
    ((grant.relayId, grant.deviceId), grant.superseded)) (h.grants k)
  rw [Option.map_map, Option.map_map] at hk
  rw [getElem?_grantHoldings, getElem?_grantHoldings]
  exact hk

theorem map_insert_renewed {V K : Type} {view : V → K × List SupersededToken} {m : Table V}
    {k tokenHash : String} {now graceSecs : Nat} {row row' : V} (hk : m[k]? = some row)
    (hrow : view row' =
      ((view row).1, (bumpSupersededExpiry tokenHash now graceSecs (view row).2).1)) :
    ((m.insert k row').map fun _ v => view v) =
      Holdings.renewed (m.map fun _ v => view v) k tokenHash now graceSecs := by
  apply ExtTreeMap.ext_getElem?
  intro l
  rw [Holdings.getElem?_renewed, ExtTreeMap.getElem?_map, ExtTreeMap.getElem?_map,
    Table.getElem?_insert_of]
  by_cases hl : l = k
  · rw [if_pos hl, hl, hk]
    simp [hrow]
  · simp only [if_neg hl, Option.map_map]
    rfl

theorem renewed_of_none {K : Type} {m : Holdings K} {k : String} (h : m[k]? = none)
    (tokenHash : String) (now graceSecs : Nat) : m.renewed k tokenHash now graceSecs = m := by
  unfold Holdings.renewed
  rw [h]

theorem clientHoldings_renewClient (s : PublicControlStateStore) (k tokenHash : String)
    (now graceSecs : Nat) : (s.renewClient k tokenHash now graceSecs).clientHoldings =
      s.clientHoldings.renewed k tokenHash now graceSecs := by
  unfold renewClient
  cases hk : s.clientRegistrationsByHash[k]? with
  | none =>
    rw [renewed_of_none]
    rw [getElem?_clientHoldings, hk]
    rfl
  | some row => exact map_insert_renewed hk rfl

theorem grantHoldings_renewGrant (s : PublicControlStateStore) (k tokenHash : String)
    (now graceSecs : Nat) : (s.renewGrant k tokenHash now graceSecs).grantHoldings =
      s.grantHoldings.renewed k tokenHash now graceSecs := by
  unfold renewGrant
  cases hk : s.grantsByHash[k]? with
  | none =>
    rw [renewed_of_none]
    rw [getElem?_grantHoldings, hk]
    rfl
  | some row => exact map_insert_renewed hk rfl

theorem grantHoldings_renewClient (s : PublicControlStateStore) (k tokenHash : String)
    (now graceSecs : Nat) :
    (s.renewClient k tokenHash now graceSecs).grantHoldings = s.grantHoldings := by
  unfold renewClient
  split <;> rfl

theorem clientHoldings_renewGrant (s : PublicControlStateStore) (k tokenHash : String)
    (now graceSecs : Nat) :
    (s.renewGrant k tokenHash now graceSecs).clientHoldings = s.clientHoldings := by
  unfold renewGrant
  split <;> rfl

structure ByToken (s : PublicControlStateStore) : Prop where
  clients : RecordTables.Keyed (·.refreshTokenHash) s.clientRegistrationsByHash
  grants : RecordTables.Keyed (·.refreshTokenHash) s.grantsByHash

theorem ByToken.of_sameRows (h : s.ByToken) (hrows : SameRows s t) : t.ByToken := by
  refine ⟨hrows.clients ▸ h.clients, fun k grant hk => ?_⟩
  obtain ⟨grant', hk', hunseen⟩ := hrows.grant hk
  have hsame : grant'.refreshTokenHash = grant.refreshTokenHash :=
    congrArg (·.refreshTokenHash) hunseen
  exact hsame.symm.trans (h.grants k grant' hk')

theorem ByToken.renewClient (h : s.ByToken) (k tokenHash : String) (now graceSecs : Nat) :
    (s.renewClient k tokenHash now graceSecs).ByToken := by
  unfold PublicControlStateStore.renewClient
  cases hk : s.clientRegistrationsByHash[k]? with
  | none => exact h
  | some row => exact ⟨h.clients.insert (h.clients k row hk), h.grants⟩

theorem ByToken.renewGrant (h : s.ByToken) (k tokenHash : String) (now graceSecs : Nat) :
    (s.renewGrant k tokenHash now graceSecs).ByToken := by
  unfold PublicControlStateStore.renewGrant
  cases hk : s.grantsByHash[k]? with
  | none => exact h
  | some row => exact ⟨h.clients, h.grants.insert (h.grants k row hk)⟩

end PublicControlStateStore

theorem findForToken_isSome {V K : Type} (view : V → K × List SupersededToken) (m : Table V)
    (tokenHash : String) (now : Nat) :
    (findForToken (fun v => (view v).2) m tokenHash now).isSome ↔
      Holdings.Opens (m.map fun _ v => view v) tokenHash now := by
  have hmap := findForToken_map view (·.2) m tokenHash now
  have hsome : (findForToken (fun v => (view v).2) m tokenHash now).isSome =
      (findForToken (·.2) (m.map fun _ v => view v) tokenHash now).isSome := by
    rw [hmap, Option.isSome_map]
  rw [hsome]
  generalize (m.map fun _ v => view v) = n
  unfold findForToken Holdings.Opens
  cases hn : n[tokenHash]? with
  | some row => simp
  | none =>
    simp only [List.find?_isSome, Option.isSome_none, Bool.false_eq_true, false_or]
    constructor
    · rintro ⟨⟨k, row⟩, hmem, hhonours⟩
      simp only [honours, List.any_eq_true, decide_eq_true_eq] at hhonours
      obtain ⟨⟨hash, expiresAt⟩, htoken, rfl, hvalid⟩ := hhonours
      exact ⟨expiresAt, ⟨k, row, ExtTreeMap.mem_toList_iff_getElem?_eq_some.mp hmem, htoken⟩,
        hvalid⟩
    · rintro ⟨expiresAt, ⟨k, row, hk, htoken⟩, hvalid⟩
      refine ⟨(k, row), ExtTreeMap.mem_toList_iff_getElem?_eq_some.mpr hk, ?_⟩
      simp only [honours, List.any_eq_true, decide_eq_true_eq]
      exact ⟨⟨tokenHash, expiresAt⟩, htoken, rfl, hvalid⟩

section rows
variable {V K : Type} {view : V → K × List SupersededToken} {m : Table V} {i : Intent}
  {newHash : String} {row' : V}

theorem map_insert_view (view : V → K × List SupersededToken) (m : Table V) (k : String) (row : V) :
    ((m.insert k row).map fun _ v => view v) =
      (ExtTreeMap.insert (m.map fun _ v => view v) k (view row) : Holdings K) := by
  apply ExtTreeMap.ext_getElem?
  intro l
  simp only [ExtTreeMap.getElem?_map, Table.getElem?_insert_of]
  split_ifs <;> rfl

variable [DecidableEq K]

theorem edited_rotate (h : Tidy (m.map fun _ v => view v)) {k : String} {row : V}
    (hk : m[k]? = some row) {keep : V → Bool}
    (hkeep : ∀ v, keep v = true ↔ (view v).1 ≠ (view row).1)
    (hnew : Free (m.map fun _ v => view v) newHash) (hdraws : i.draws newHash)
    (hrow' : view row' = ((view row).1, carrySuperseded (view row).2 k i.now i.graceSecs)) :
    Edited i (m.map fun _ v => view v)
      (((m.filter fun _ v => keep v).insert newHash row').map fun _ v => view v) := by
  rw [map_insert_view, hrow']
  apply Edited.rotate h _ _ hnew hdraws
  · rw [ExtTreeMap.getElem?_map, hk]
    rfl
  · intro l entry
    simp only [ExtTreeMap.getElem?_map, Table.getElem?_filter, Option.map_eq_some_iff,
      Option.filter_eq_some_iff]
    constructor
    · rintro ⟨v, ⟨hv, hstays⟩, rfl⟩
      exact ⟨⟨v, hv, rfl⟩, (hkeep v).mp hstays⟩
    · rintro ⟨⟨v, hv, rfl⟩, howner⟩
      exact ⟨v, ⟨hv, (hkeep v).mpr howner⟩, rfl⟩

theorem edited_enrol (h : Tidy (m.map fun _ v => view v))
    (hnew : Free (m.map fun _ v => view v) newHash) (hdraws : i.draws newHash)
    (howner : ∀ (k : String) v, m[k]? = some v → (view v).1 ≠ (view row').1)
    (hrow' : (view row').2 = []) :
    Edited i (m.map fun _ v => view v) ((m.insert newHash row').map fun _ v => view v) := by
  have hpair : view row' = ((view row').1, []) := by rw [← hrow']
  rw [map_insert_view, hpair]
  apply Edited.enrol h hnew hdraws
  rw [Holdings.current_eq_none]
  intro k entry hk
  rw [ExtTreeMap.getElem?_map, Option.map_eq_some_iff] at hk
  obtain ⟨v, hv, rfl⟩ := hk
  exact howner k v hv

theorem edited_filter (h : Tidy (m.map fun _ v => view v)) (hrevokes : i.revokes)
    (keep : String → V → Bool) :
    Edited i (m.map fun _ v => view v) ((m.filter keep).map fun _ v => view v) := by
  refine Edited.drop h hrevokes fun k entry hk => ?_
  rw [ExtTreeMap.getElem?_map, Option.map_eq_some_iff] at hk ⊢
  obtain ⟨v, hv, rfl⟩ := hk
  exact ⟨v, (getElem?_of_filter hv).1, rfl⟩

end rows

theorem filter_values_eq {V K : Type} [DecidableEq K] {column : V → K} {m : Table V} {k : String}
    {v : V} (h : UniqueBy (fun w => some (column w)) m) (hk : m[k]? = some v) :
    m.values.filter (fun w => column w = column v) = [v] := by
  have hlength : (m.values.filter fun w => column w = column v).length ≤ 1 := by
    rw [length_filter_values]
    have hsize : (m.filter fun _ w => decide (column w = column v)).size ≤
        (ExtTreeMap.insert (∅ : Table V) k v).size := by
      apply size_le_of_keys
      intro l hl
      obtain ⟨w, hw⟩ := Option.isSome_iff_exists.mp hl
      obtain ⟨hw, hsame⟩ := getElem?_of_filter hw
      have hkl := h l k w v (column v) hw hk (congrArg some (of_decide_eq_true hsame)) rfl
      simp [hkl]
    refine hsize.trans ?_
    exact ExtTreeMap.size_insert_le.trans (by simp)
  have hmem : v ∈ m.values.filter fun w => column w = column v :=
    List.mem_filter.mpr ⟨Table.mem_values.mpr ⟨k, hk⟩, by simp⟩
  cases hvalues : m.values.filter fun w => column w = column v with
  | nil => rw [hvalues] at hmem; exact absurd hmem (by simp)
  | cons w rest =>
    rw [hvalues, List.length_cons] at hlength
    rw [List.length_eq_zero_iff.mp (by omega : rest.length = 0)] at hvalues ⊢
    rw [hvalues, List.mem_singleton] at hmem
    rw [hmem]

def ControlOp.clientDraw? : ControlOp → Option String
  | .claimClientIdentity _ _ drawn | .rotateClientIdentity _ drawn =>
    some ("cref-" ++ toAsciiLowercase drawn)
  | _ => none

def ControlOp.deviceDraw? : ControlOp → Option String
  | .issueDeviceGrant _ _ _ _ _ drawn => some ("dref-" ++ toAsciiLowercase drawn)
  | _ => none

def ControlOp.relayBearer? : ControlOp → Option (String × String × String)
  | .authenticateRelayBearer bearerToken relayId brokerRoomId
  | .issueDeviceGrant bearerToken relayId brokerRoomId _ _ _
  | .revokeDeviceGrant bearerToken relayId brokerRoomId _
  | .revokeOtherDeviceGrants bearerToken relayId brokerRoomId _ =>
    some (bearerToken, relayId, brokerRoomId)
  | .issueClientGrant bearerToken request _ _ =>
    some (bearerToken, request.relayId, request.brokerRoomId)
  | _ => none

def ControlOp.RevokesClient : ControlOp → Prop
  | .revokeClientIdentity _ => True
  | _ => False

def ControlOp.RevokesDevices : ControlOp → Prop
  | .revokeDeviceGrant _ _ _ _ | .revokeOtherDeviceGrants _ _ _ _ => True
  | _ => False

namespace PublicControlPlane
open PublicControlStateStore

variable {p : PublicControlPlane} {c : Crypto} {op : Env × ControlOp} {reply : ControlReply}
  {s t next u : PublicControlStateStore}

def clientIntent (c : Crypto) (p : PublicControlPlane) (op : Env × ControlOp) : Intent :=
  { draws := fun tokenHash => op.2.clientDraw?.map c.sha256Hex = some tokenHash
    uses := fun tokenHash =>
      (op.2.clientBearer?.map fun token => c.sha256Hex (trim token)) = some tokenHash
    revokes := op.2.RevokesClient
    authNow := op.1.authNow, now := op.1.now, graceSecs := p.rotationGraceSecs }

/-- The token opens a device grant, and no other room than the grant's is asked for. -/
def OpensRoom (p : PublicControlPlane) (tokenHash : String) (expectedRoom : Option String)
    (now : Nat) : Prop :=
  ∃ k row, findDeviceGrantForToken p.live tokenHash now = some (k, row) ∧
    ∀ room ∈ expectedRoom, row.brokerRoomId = room

def deviceIntent (c : Crypto) (p : PublicControlPlane) (op : Env × ControlOp) : Intent :=
  { draws := fun tokenHash => op.2.deviceDraw?.map c.sha256Hex = some tokenHash
    uses := fun tokenHash => ∃ bearerToken expectedRoom,
      op.2.deviceBearer? = some (bearerToken, expectedRoom) ∧
      c.sha256Hex (trim bearerToken) = tokenHash ∧
      p.OpensRoom tokenHash expectedRoom op.1.authNow
    revokes := op.2.RevokesDevices
    authNow := op.1.authNow, now := op.1.now, graceSecs := p.rotationGraceSecs }

theorem not_matches_device (grant : PersistedDeviceGrant) (relayId deviceId : String) :
    (!matchesOptionalRelayTarget grant.relayId grant.brokerRoomId grant.deviceId relayId none
      (some deviceId)) = true ↔ (grant.relayId, grant.deviceId) ≠ (relayId, deviceId) := by
  simp [matchesOptionalRelayTarget, eq_comm (a := deviceId), imp_iff_not_or]

/-- A client's row makes way for one of the same client under a new token. -/
theorem Writes.editedClients (h : p.Writes c op reply s next) (htidy : Tidy s.clientHoldings)
    (hkeyed : Keyed (·.refreshTokenHash) s.clientRegistrationsByHash)
    (hrestart : ∀ registrations, op.2 ≠ .restart registrations)
    (hfree : ∀ token ∈ op.2.clientDraw?, Free s.clientHoldings (c.sha256Hex token))
    (hapart : ∀ claimId claimSignature drawn,
      op.2 = .claimClientIdentity claimId claimSignature drawn →
      ∀ pending ∈ p.pendingClientClaims[trim claimId]?,
        s.EnrolsApart c.sha256Hex pending.clientVerifyKey) :
    Edited (clientIntent c p op) s.clientHoldings next.clientHoldings := by
  cases h with
  | register hregister =>
    obtain rfl := (registerRelay_eq_some hregister).1.rows
    exact Edited.refl htidy
  | grant => exact Edited.refl htidy
  | @claim env claimId claimSignature drawn s pending hpending =>
    have hfree := hfree _ rfl
    have hapart := hapart claimId claimSignature drawn rfl pending hpending
    unfold grantClaim issueOrRotateClientIdentity
    cases hfind : s.clientIdentityForVerifyKey pending.clientVerifyKey with
    | some existing =>
      obtain ⟨-, k, hk⟩ := clientIdentityForVerifyKey_eq_some hfind
      have hhash : existing.refreshTokenHash = k := hkeyed k existing hk
      exact edited_rotate htidy hk (by simp) hfree rfl (by rw [← hhash]; rfl)
    | none =>
      refine edited_enrol htidy hfree rfl (fun k r hr hsame => ?_) rfl
      have hkey := hapart r (Table.mem_values.mpr ⟨k, hr⟩) hsame
      exact clientIdentityForVerifyKey_eq_none hfind k r hr hkey
  | @rotate env bearerToken drawn s client row k hfiled hid hkey =>
    have hfree := hfree _ rfl
    have hunique : UniqueBy (fun w => some w.clientId) s.clientRegistrationsByHash := by
      have hheld : ∀ (l : String) w, s.clientRegistrationsByHash[l]? = some w →
          s.clientHoldings[l]? = some (w.clientId, w.superseded) := by
        intro l w hw
        rw [getElem?_clientHoldings, hw]
        rfl
      intro l l' w w' a hw hw' hwa hwa'
      exact htidy.owner_key (hheld l w hw) (hheld l' w' hw')
        (Option.some.inj (hwa.trans hwa'.symm))
    have hvalues := filter_values_eq hunique hfiled
    rw [hid] at hvalues
    have hhash : row.refreshTokenHash = k := hkeyed k row hfiled
    unfold PublicControlStateStore.rotateClientIdentity rotatedSuperseded
    rw [hvalues]
    refine edited_rotate htidy hfiled (by simp [hid]) hfree rfl ?_
    rw [List.foldl_cons, List.foldl_nil, List.append_nil, hhash, hid]
    rfl
  | revokeClient => exact edited_filter htidy trivial _
  | revokeDevice => exact Edited.refl htidy
  | revokeOthers => exact Edited.refl htidy
  | restart => exact absurd rfl (hrestart _)

/-- A device's grant makes way for one of the same device under a new token. -/
theorem Writes.editedGrants (h : p.Writes c op reply s next) (htidy : Tidy s.grantHoldings)
    (hkeyed : Keyed (·.refreshTokenHash) s.grantsByHash)
    (hrestart : ∀ registrations, op.2 ≠ .restart registrations)
    (hfree : ∀ token ∈ op.2.deviceDraw?, Free s.grantHoldings (c.sha256Hex token)) :
    Edited (deviceIntent c p op) s.grantHoldings next.grantHoldings := by
  cases h with
  | register hregister =>
    obtain rfl := (registerRelay_eq_some hregister).1.rows
    exact Edited.refl htidy
  | @grant env bearerToken relayId brokerRoomId deviceId deviceLimit drawn s registration =>
    have hfree := hfree _ rfl
    unfold PublicControlStateStore.issueDeviceGrant removeDeviceGrants removeMatchingEntries
    cases hfind : s.grantsByHash.values.find? fun grant =>
        grant.relayId = registration.relayId ∧ grant.deviceId = deviceId with
    | some existing =>
      obtain ⟨k, hk⟩ := Table.mem_values.mp (List.mem_of_find?_eq_some hfind)
      obtain ⟨hrelay, hdevice⟩ : existing.relayId = registration.relayId ∧
        existing.deviceId = deviceId := by simpa using List.find?_some hfind
      have hhash : existing.refreshTokenHash = k := hkeyed k existing hk
      refine edited_rotate htidy hk (fun v => ?_) hfree rfl ?_
      · rw [not_matches_device, hrelay, hdevice]
      · rw [← hhash, hrelay, hdevice]
        rfl
    | none =>
      have hother : ∀ (k : String) v, s.grantsByHash[k]? = some v →
          (v.relayId, v.deviceId) ≠ (registration.relayId, deviceId) := by
        intro k v hv hsame
        have hnone := List.find?_eq_none.mp hfind v (Table.mem_values.mpr ⟨k, hv⟩)
        simp [(Prod.mk.inj hsame).1, (Prod.mk.inj hsame).2] at hnone
      rw [filter_of_forall]
      · exact edited_enrol htidy hfree rfl hother rfl
      · exact fun k v hv => (not_matches_device v _ _).mpr (hother k v hv)
  | @claim env claimId claimSignature drawn s pending hpending =>
    obtain ⟨row, henrols, -, -⟩ := issueOrRotateClientIdentity_enrols c.sha256Hex s
      pending.clientVerifyKey pending.clientLabel env.now p.rotationGraceSecs drawn
    have hgrants :
        (grantClaim c.sha256Hex s env p.rotationGraceSecs pending drawn).1.grantHoldings =
          s.grantHoldings := by
      unfold PublicControlStateStore.grantHoldings
      rw [← henrols.grants]
      rfl
    rw [hgrants]
    exact Edited.refl htidy
  | rotate => exact Edited.refl htidy
  | revokeClient => exact Edited.refl htidy
  | revokeDevice => exact edited_filter htidy trivial _
  | revokeOthers => exact edited_filter htidy trivial _
  | restart => exact absurd rfl (hrestart _)

/-- A token that is drawn stands nowhere yet, and the id of a claimed key is not the id of another
key. -/
def FreshToken (c : Crypto) (p : PublicControlPlane) (op : Env × ControlOp) : Prop :=
  match op.2 with
  | .issueDeviceGrant _ _ _ _ _ drawn =>
    p.live.grantHoldings.Free (c.sha256Hex ("dref-" ++ toAsciiLowercase drawn))
  | .claimClientIdentity claimId _ drawn =>
    p.live.clientHoldings.Free (c.sha256Hex ("cref-" ++ toAsciiLowercase drawn)) ∧
      ∀ pending ∈ p.pendingClientClaims[trim claimId]?,
        p.live.EnrolsApart c.sha256Hex pending.clientVerifyKey
  | .rotateClientIdentity _ drawn =>
    p.live.clientHoldings.Free (c.sha256Hex ("cref-" ++ toAsciiLowercase drawn))
  | .restart _ => False
  | _ => True

instance (c : Crypto) (p : PublicControlPlane) :
    (op : Env × ControlOp) → Decidable (FreshToken c p op)
  | (_, op) => by
    refine op.casesOn ?_ ?_ ?_ ?_ ?_ ?_ ?_ ?_ ?_ ?_ ?_ ?_ ?_ <;>
      intros <;> dsimp only [FreshToken] <;> infer_instance

theorem FreshToken.stays (h : FreshToken c p op) (registrations : List RelayRegistrationConfig) :
    op.2 ≠ .restart registrations := by
  intro hop
  simp [FreshToken, hop] at h

theorem FreshToken.client (h : FreshToken c p op) :
    ∀ token ∈ op.2.clientDraw?, Free p.live.clientHoldings (c.sha256Hex token) := by
  obtain ⟨env, op⟩ := op
  intro token htoken
  cases op with
  | claimClientIdentity claimId claimSignature drawn => exact Option.some.inj htoken ▸ h.1
  | rotateClientIdentity bearerToken drawn => exact Option.some.inj htoken ▸ h
  | _ => exact absurd htoken (by simp [ControlOp.clientDraw?])

theorem FreshToken.device (h : FreshToken c p op) :
    ∀ token ∈ op.2.deviceDraw?, Free p.live.grantHoldings (c.sha256Hex token) := by
  obtain ⟨env, op⟩ := op
  intro token htoken
  cases op with
  | issueDeviceGrant => exact Option.some.inj htoken ▸ h
  | _ => exact absurd htoken (by simp [ControlOp.deviceDraw?])

theorem FreshToken.apart {claimId claimSignature drawn : String} (h : FreshToken c p op)
    (hop : op.2 = .claimClientIdentity claimId claimSignature drawn) :
    ∀ pending ∈ p.pendingClientClaims[trim claimId]?,
      p.live.EnrolsApart c.sha256Hex pending.clientVerifyKey := by
  simp only [FreshToken, hop] at h
  exact h.2

theorem Renewal.byToken {graceSecs : Nat} (h : Renewal c graceSecs op s t) (hs : s.ByToken) :
    t.ByToken := by
  cases h with
  | none h => exact hs.of_sameRows h
  | client hop hfind hk h => exact (hs.renewClient _ _ _ _).of_sameRows h
  | grant hop hfind hroom hk h => exact (hs.renewGrant _ _ _ _).of_sameRows h

theorem Moves.turnsClients (h : p.Moves c op p.live u) (hp : Aligned p)
    (htidy : Tidy p.live.clientHoldings) (hfresh : FreshToken c p op) :
    Turns (clientIntent c p op) p.live.clientHoldings u.clientHoldings := by
  obtain ⟨t, hren, hedit⟩ := h
  have hkeyed := hren.byToken ⟨hp.kept.live.2.clients, hp.kept.live.2.grants⟩
  have hedited : Tidy t.clientHoldings →
      (∀ token ∈ op.2.clientDraw?, Free t.clientHoldings (c.sha256Hex token)) →
      Edited (clientIntent c p op) t.clientHoldings u.clientHoldings := by
    intro ht hfree
    rcases hedit with hsame | ⟨t', next, reply, hsame, hwrites, hu⟩
    · rw [hsame.clientHoldings]
      exact Edited.refl ht
    · have hkeyed' := hkeyed.of_sameRows hsame
      rw [← hsame.clientHoldings] at ht hfree ⊢
      rw [hu.clientHoldings]
      refine hwrites.editedClients ht hkeyed'.clients hfresh.stays hfree ?_
      intro claimId claimSignature drawn hop
      have hclients : t'.clientRegistrationsByHash = p.live.clientRegistrationsByHash := by
        rw [hsame.clients]
        cases hren with
        | none h => exact h.clients
        | client hbearer => exact absurd hbearer (by simp [hop, ControlOp.clientBearer?])
        | grant hbearer => exact absurd hbearer (by simp [hop, ControlOp.deviceBearer?])
      unfold EnrolsApart
      rw [hclients]
      exact hfresh.apart hop
  cases hren with
  | none h =>
    rw [h.clientHoldings] at hedited
    exact (hedited htidy hfresh.client).turns
  | grant hop hfind hroom hk h =>
    rw [h.clientHoldings, clientHoldings_renewGrant] at hedited
    exact (hedited htidy hfresh.client).turns
  | client hop hfind hk h =>
    rw [h.clientHoldings, clientHoldings_renewClient] at hedited
    refine Edited.afterRenewal htidy ?_ (hedited (htidy.renewed _ _ _ _) fun token htoken =>
      (hfresh.client token htoken).renewed _ _ _ _)
    simp [clientIntent, hop]

theorem Moves.turnsGrants (h : p.Moves c op p.live u) (hp : Aligned p)
    (htidy : Tidy p.live.grantHoldings) (hfresh : FreshToken c p op) :
    Turns (deviceIntent c p op) p.live.grantHoldings u.grantHoldings := by
  obtain ⟨t, hren, hedit⟩ := h
  have hkeyed := hren.byToken ⟨hp.kept.live.2.clients, hp.kept.live.2.grants⟩
  have hedited : Tidy t.grantHoldings →
      (∀ token ∈ op.2.deviceDraw?, Free t.grantHoldings (c.sha256Hex token)) →
      Edited (deviceIntent c p op) t.grantHoldings u.grantHoldings := by
    intro ht hfree
    rcases hedit with hsame | ⟨t', next, reply, hsame, hwrites, hu⟩
    · rw [hsame.grantHoldings]
      exact Edited.refl ht
    · have hkeyed' := hkeyed.of_sameRows hsame
      rw [← hsame.grantHoldings] at ht hfree ⊢
      rw [hu.grantHoldings]
      exact hwrites.editedGrants ht hkeyed'.grants hfresh.stays hfree
  cases hren with
  | none h =>
    rw [h.grantHoldings] at hedited
    exact (hedited htidy hfresh.device).turns
  | client hop hfind hk h =>
    rw [h.grantHoldings, grantHoldings_renewClient] at hedited
    exact (hedited htidy hfresh.device).turns
  | @grant bearerToken expectedRoom k row hop hfind hroom hk h =>
    rw [h.grantHoldings, grantHoldings_renewGrant] at hedited
    refine Edited.afterRenewal htidy ?_ (hedited (htidy.renewed _ _ _ _) fun token htoken =>
      (hfresh.device token htoken).renewed _ _ _ _)
    refine ⟨bearerToken, expectedRoom, hop, rfl, k, row, hfind, fun room hmem => ?_⟩
    subst hmem
    simpa using hroom

/-- Authentication lets in by the tokens that open a record, and by all of them when the backend
can be read; a device has to ask for no other room than its grant's. -/
structure Answers (c : Crypto) (p : PublicControlPlane) : Prop where
  client : ∀ env bearerToken, (p.authenticateClient c.sha256Hex env bearerToken).2.isOk →
    p.live.clientHoldings.Opens (c.sha256Hex (trim bearerToken)) env.authNow
  client_ok : ∀ env bearerToken, env.authLoadError = none →
    p.live.clientHoldings.Opens (c.sha256Hex (trim bearerToken)) env.authNow →
    (p.authenticateClient c.sha256Hex env bearerToken).2.isOk
  device : ∀ env bearerToken expectedRoom,
    (p.deviceGrantFromRefreshTokenScoped c.sha256Hex env bearerToken expectedRoom).2.isOk →
    p.OpensRoom (c.sha256Hex (trim bearerToken)) expectedRoom env.authNow
  device_ok : ∀ env bearerToken expectedRoom, env.authLoadError = none →
    p.OpensRoom (c.sha256Hex (trim bearerToken)) expectedRoom env.authNow →
    (p.deviceGrantFromRefreshTokenScoped c.sha256Hex env bearerToken expectedRoom).2.isOk
  opens : ∀ tokenHash now,
    p.OpensRoom tokenHash none now ↔ p.live.grantHoldings.Opens tokenHash now

theorem clientOpens_iff {tokenHash : String} {now : Nat} :
    (findClientIdentityForToken s tokenHash now).isSome ↔ s.clientHoldings.Opens tokenHash now :=
  findForToken_isSome (fun client : PersistedClientIdentity =>
    (client.clientId, client.superseded)) _ tokenHash now

theorem grantOpens_iff {tokenHash : String} {now : Nat} :
    (findDeviceGrantForToken s tokenHash now).isSome ↔ s.grantHoldings.Opens tokenHash now :=
  findForToken_isSome (fun grant : PersistedDeviceGrant =>
    ((grant.relayId, grant.deviceId), grant.superseded)) _ tokenHash now

theorem Aligned.answers (h : Aligned p) (c : Crypto) : Answers c p where
  client env bearerToken hok := by
    rw [← clientOpens_iff]
    unfold PublicControlPlane.authenticateClient at hok
    dsimp only at hok
    rw [andThen_assoc] at hok
    obtain ⟨p₁, -, -, -, ⟨e, hr⟩ | ⟨hstate, -, hr⟩⟩ := h.lockLookup env.authLoadError
      env.missLoadError
      (findClientIdentityForToken · (c.sha256Hex (trim bearerToken)) env.authNow)
    · rw [hr] at hok
      exact absurd hok (by simp [Except.isOk, Except.toBool])
    · rw [hr, Outcome.andThen_ok] at hok
      unfold findClientIdentityForToken at hok ⊢
      rw [← hstate.clients]
      split at hok
      · exact absurd hok (by simp [Except.isOk, Except.toBool])
      · rename_i hfound
        rw [hfound]
        rfl
  client_ok env bearerToken hload hopens := by
    rw [← clientOpens_iff, Option.isSome_iff_exists] at hopens
    obtain ⟨⟨k, row⟩, hfind⟩ := hopens
    unfold PublicControlPlane.authenticateClient
    dsimp only
    rw [andThen_assoc, lockLookup_hit hfind, hload, (lockState_none p).1]
    rfl
  device env bearerToken expectedRoom hok := by
    unfold PublicControlPlane.deviceGrantFromRefreshTokenScoped at hok
    dsimp only at hok
    rw [andThen_assoc] at hok
    obtain ⟨p₁, -, -, -, ⟨e, hr⟩ | ⟨hstate, -, hr⟩⟩ := h.lockLookup env.authLoadError
      env.missLoadError
      (findDeviceGrantForToken · (c.sha256Hex (trim bearerToken)) env.authNow)
    · rw [hr] at hok
      exact absurd hok (by simp [Except.isOk, Except.toBool])
    · rw [hr, Outcome.andThen_ok] at hok
      split at hok
      · exact absurd hok (by simp [Except.isOk, Except.toBool])
      · rename_i k row hfound
        by_cases hroom : expectedRoom.any (row.brokerRoomId ≠ ·) = true
        · rw [if_pos hroom] at hok
          exact absurd hok (by simp [Except.isOk, Except.toBool])
        · obtain ⟨row', hfind, hunseen⟩ := hstate.findDeviceGrantForToken hfound
          have hsame : row'.brokerRoomId = row.brokerRoomId := congrArg (·.brokerRoomId) hunseen
          refine ⟨k, row', hfind, fun room hmem => ?_⟩
          subst hmem
          simpa [hsame] using hroom
  device_ok env bearerToken expectedRoom hload hopens := by
    obtain ⟨k, row, hfind, hroom⟩ := hopens
    have hroom' : expectedRoom.any (fun room => row.brokerRoomId ≠ room) = false := by
      cases expectedRoom with
      | none => rfl
      | some room => simpa using hroom room rfl
    unfold PublicControlPlane.deviceGrantFromRefreshTokenScoped
    dsimp only
    rw [andThen_assoc, lockLookup_hit hfind, hload, (lockState_none p).1]
    simp only [Outcome.andThen_ok, hroom', Bool.false_eq_true, if_false]
    rfl
  opens tokenHash now := by
    rw [← grantOpens_iff, Option.isSome_iff_exists]
    constructor
    · rintro ⟨k, row, hfind, -⟩
      exact ⟨(k, row), hfind⟩
    · rintro ⟨⟨k, row⟩, hfind⟩
      exact ⟨k, row, hfind, by simp⟩

/-- A request whose token is good, but which names another room than its record is for. -/
inductive WrongRoom (c : Crypto) (p : PublicControlPlane) (op : Env × ControlOp) : Prop
  | device {bearerToken room k row} (hop : op.2.deviceBearer? = some (bearerToken, some room))
      (hfind : findDeviceGrantForToken p.live (c.sha256Hex (trim bearerToken)) op.1.authNow =
        some (k, row))
      (hroom : row.brokerRoomId ≠ room)
  | relay {bearerToken relayId room registration}
      (hop : op.2.relayBearer? = some (bearerToken, relayId, room))
      (hfiled : p.live.relayRegistrationsByHash[c.sha256Hex (trim bearerToken)]? =
        some registration)
      (hroom : registration.brokerRoomId ≠ room)

/-- A refusal that changes neither what is read next nor what is stored. -/
def Rejects {α : Type} (p : PublicControlPlane) (r : Outcome PublicControlPlane α) : Prop :=
  ∃ p' e, r = (p', .error e) ∧ p'.live = p.live ∧ p'.persisted = p.persisted

theorem Rejects.andThen {α β : Type} {r : Outcome PublicControlPlane α} (h : Rejects p r)
    (f : PublicControlPlane → α → Outcome PublicControlPlane β) : Rejects p (r.andThen f) := by
  obtain ⟨p', e, rfl, hframe⟩ := h
  exact ⟨p', e, rfl, hframe⟩

theorem Rejects.toReply {α : Type} {r : Outcome PublicControlPlane α} (h : Rejects p r)
    (f : α → ControlReply) : Rejects p (PublicControlPlane.reply r f) := by
  obtain ⟨p', e, rfl, hframe⟩ := h
  exact ⟨p', e, rfl, hframe⟩

theorem rejects_lockState {α : Type} {f : PublicControlPlane → Unit → Outcome PublicControlPlane α}
    (hf : ∀ p', ∃ e, f p' () = (p', .error e)) (error : Option String) :
    Rejects p ((p.lockState error).andThen f) := by
  have hframe := lockState_frame p error
  rcases hr : p.lockState error with ⟨p₁, e | _⟩
  · rw [hr] at hframe
    exact ⟨p₁, e, rfl, hframe⟩
  · rw [hr] at hframe
    obtain ⟨e, he⟩ := hf p₁
    exact ⟨p₁, e, he, hframe⟩

theorem rejects_authenticateRelay {registration : PersistedRelayRegistration}
    {bearerToken room : String} (env : Env) (relayId : String)
    (hfiled : p.live.relayRegistrationsByHash[c.sha256Hex (trim bearerToken)]? =
      some registration) (hroom : registration.brokerRoomId ≠ room) :
    Rejects p (p.authenticateRelay c.sha256Hex env bearerToken relayId room) := by
  unfold PublicControlPlane.authenticateRelay
  dsimp only
  rw [andThen_assoc, lockLookup_hit hfiled, ← andThen_assoc]
  refine rejects_lockState (fun p' => ?_) env.authLoadError
  simp only [Outcome.andThen_ok, if_pos hroom]
  split_ifs
  · exact ⟨_, rfl⟩
  · exact ⟨_, rfl⟩

theorem rejects_deviceGrant {row : PersistedDeviceGrant} {bearerToken room k : String} (env : Env)
    (hfind : findDeviceGrantForToken p.live (c.sha256Hex (trim bearerToken)) env.authNow =
      some (k, row)) (hroom : row.brokerRoomId ≠ room) :
    Rejects p (p.deviceGrantFromRefreshTokenScoped c.sha256Hex env bearerToken (some room)) := by
  have hroom' : (some room).any (fun room => row.brokerRoomId ≠ room) = true := by simpa using hroom
  unfold PublicControlPlane.deviceGrantFromRefreshTokenScoped
  dsimp only
  rw [andThen_assoc, lockLookup_hit hfind, ← andThen_assoc]
  refine rejects_lockState (fun p' => ?_) env.authLoadError
  simp only [Outcome.andThen_ok, if_pos hroom']
  exact ⟨_, rfl⟩

theorem WrongRoom.rejects (h : WrongRoom c p op) : Rejects p (p.perform c op) := by
  obtain ⟨env, op⟩ := op
  cases h with
  | @device bearerToken room k row hop hfind hroom =>
    have hrejects := rejects_deviceGrant env hfind hroom
    cases op with
    | issueDeviceSession bearer expectedRoom =>
      cases hop
      exact (hrejects.andThen _).toReply _
    | issueDeviceWsToken bearer expectedRoom =>
      cases hop
      exact (hrejects.andThen _).toReply _
    | _ => exact absurd hop (by simp [ControlOp.deviceBearer?])
  | @relay bearerToken relayId room registration hop hfiled hroom =>
    have hrejects := rejects_authenticateRelay env relayId hfiled hroom
    cases op with
    | authenticateRelayBearer =>
      cases hop
      exact hrejects.toReply _
    | issueDeviceGrant =>
      cases hop
      exact (hrejects.andThen _).toReply _
    | issueClientGrant =>
      cases hop
      exact (hrejects.andThen _).toReply _
    | revokeDeviceGrant =>
      cases hop
      exact (hrejects.andThen _).toReply _
    | revokeOtherDeviceGrants =>
      cases hop
      exact (hrejects.andThen _).toReply _
    | _ => exact absurd hop (by simp [ControlOp.relayBearer?])

section holds
variable {K : Type} [DecidableEq K] {view : PublicControlStateStore → Holdings K}
  {intent : PublicControlPlane → Env × ControlOp → Intent} {ops : List (Env × ControlOp)}

structure GraceHolds (c : Crypto) (view : PublicControlStateStore → Holdings K)
    (intent : PublicControlPlane → Env × ControlOp → Intent) (p : PublicControlPlane)
    (ops : List (Env × ControlOp)) : Prop where
  tidy : StepRun.Always (step c) (fun p => Tidy (view p.live)) p ops
  turns : StepRun.Along (step c)
    (fun p op => Turns (intent p op) (view p.live) (view (p.step c op).live)) p ops
  expires : StepRun.Always (step c) (fun p => ∀ owner tokenHash expiresAt later,
    Retired (view p.live) owner tokenHash expiresAt later →
    ∀ now, (view p.live).Opens tokenHash now ↔ now < expiresAt) p ops
  /-- A token that a revocation or a rotation takes from its record has ended. -/
  leaves : StepRun.Along (step c) (fun p op => ∀ owner tokenHash,
    (view p.live).Held owner tokenHash → ¬ (view (p.step c op).live).Held owner tokenHash →
    ∀ now, ¬ (view (p.step c op).live).Opens tokenHash now) p ops
  /-- Before it expires and while its record stays, only later rotations can end a token. -/
  lasts : ∀ xs ys, ops = xs ++ ys → ∀ owner tokenHash expiresAt later now,
    Retired (view (StepRun.run (step c) p xs).live) owner tokenHash expiresAt later →
    later + Holdings.rotations (step c) (fun p => view p.live) owner
      (StepRun.run (step c) p xs) ys < maxSupersededTokens →
    StepRun.Always (step c) (fun p => (view p.live).current owner ≠ none)
      (StepRun.run (step c) p xs) ys →
    (∀ op ∈ ys, op.1.now ≤ now) → now < expiresAt →
    (view (StepRun.run (step c) p ops).live).Opens tokenHash now
  /-- What has ended stays so. -/
  ends : ∀ xs ys, ops = xs ++ ys → ∀ tokenHash ended now,
    ¬ (view (StepRun.run (step c) p xs).live).Opens tokenHash ended →
    (∀ op ∈ ys, ended ≤ op.1.authNow) →
    StepRun.Along (step c) (fun p op => ¬ (intent p op).draws tokenHash)
      (StepRun.run (step c) p xs) ys →
    ended ≤ now → ¬ (view (StepRun.run (step c) p ops).live).Opens tokenHash now

theorem graceHolds_of_turns (hauth : ∀ p op, (intent p op).authNow = op.1.authNow)
    (hnow : ∀ p op, (intent p op).now = op.1.now)
    (htidy : StepRun.Always (step c) (fun p => Tidy (view p.live)) p ops)
    (hturns : StepRun.Along (step c) (fun p op => Tidy (view p.live) ∧
      Turns (intent p op) (view p.live) (view (p.step c op).live)) p ops) :
    GraceHolds c view intent p ops where
  tidy := htidy
  turns := hturns.mono fun p op h => h.2
  expires := htidy.mono fun p h owner tokenHash expiresAt later hretired =>
    h.opens_iff hretired
  leaves := hturns.mono fun p op h owner tokenHash hheld hgone => h.2.left h.1 hheld hgone
  lasts := by
    rintro xs ys rfl owner tokenHash expiresAt later now hretired hroom hkept hbefore hvalid
    have hys := (StepRun.along_append.mp (hturns.mono fun p op h => h.2)).2
    have hintime : StepRun.Along (step c) (fun p op => (intent p op).now < expiresAt)
        (StepRun.run (step c) p xs) ys := by
      refine ((StepRun.along_of_forall (fun _ _ => trivial) _ ys).and_mem hbefore).mono
        fun p op hop => ?_
      rw [hnow]
      exact hop.2.trans_lt hvalid
    obtain ⟨expiresAt', later', hlast, hle⟩ := Retired.run hys hretired hroom hkept hintime
    rw [StepRun.run_append]
    exact hlast.opens (hvalid.trans_le hle)
  ends := by
    rintro xs ys rfl tokenHash ended now hclosed hafter hdraws hle hopens
    have hys := (StepRun.along_append.mp (hturns.mono fun p op h => h.2)).2
    have hclosedRun := Holdings.closed_run hys hclosed
      ((hdraws.and_mem hafter).mono fun p op hop => ⟨hauth p op ▸ hop.2, hop.1⟩)
    rw [StepRun.run_append] at hopens
    exact hclosedRun (hopens.earlier hle)

theorem graceHolds_fresh (backend : Backend) (rotationGraceSecs : Nat)
    (hauth : ∀ p op, (intent p op).authNow = op.1.authNow)
    (hnow : ∀ p op, (intent p op).now = op.1.now)
    (hempty : view (fresh backend rotationGraceSecs).live = ∅)
    (hturn : ∀ p op, Aligned p → Tidy (view p.live) → FreshToken c p op →
      p.Moves c op p.live (p.step c op).live →
      Turns (intent p op) (view p.live) (view (p.step c op).live))
    (h : StepRun.Along (step c) (FreshToken c) (fresh backend rotationGraceSecs) ops) :
    GraceHolds c view intent (fresh backend rotationGraceSecs) ops := by
  have hstep : ∀ p op, Aligned p ∧ Tidy (view p.live) → FreshToken c p op →
      (Aligned (p.step c op) ∧ Tidy (view (p.step c op).live)) ∧
        Tidy (view p.live) ∧ Turns (intent p op) (view p.live) (view (p.step c op).live) := by
    rintro p op ⟨haligned, htidy⟩ hfresh
    have hleads := haligned.step (c := c) hfresh.stays
    have hturns := hturn p op haligned htidy hfresh hleads.moves
    exact ⟨⟨hleads.aligned, hturns.tidy⟩, htidy, hturns⟩
  have hstart : Aligned (fresh backend rotationGraceSecs) ∧
      Tidy (view (fresh backend rotationGraceSecs).live) :=
    ⟨aligned_fresh backend rotationGraceSecs, hempty ▸ Holdings.tidy_empty⟩
  refine graceHolds_of_turns hauth hnow ?_ (StepRun.along_of_step hstep hstart h)
  exact (StepRun.always_of_step (fun p op hp hop => (hstep p op hp hop).1) hstart h).mono
    fun p hp => hp.2

end holds

/-- In a run whose drawn tokens are fresh, a record keeps at most sixteen retired tokens, each once
and none of them current; each lets its holder in until it expires, which only its own use in its
room puts off, unless its record is revoked or later rotations take its place; what has ended
stays so; and a request that names the wrong room changes no record. -/
theorem rotation_grace (c : Crypto) (backend : Backend) (rotationGraceSecs : Nat)
    (ops : List (Env × ControlOp))
    (h : StepRun.Along (step c) (FreshToken c) (fresh backend rotationGraceSecs) ops) :
    GraceHolds c clientHoldings (clientIntent c) (fresh backend rotationGraceSecs) ops ∧
      GraceHolds c grantHoldings (deviceIntent c) (fresh backend rotationGraceSecs) ops ∧
      StepRun.Always (step c) (Answers c) (fresh backend rotationGraceSecs) ops ∧
      StepRun.Along (step c) (fun p op => WrongRoom c p op → Rejects p (p.perform c op))
        (fresh backend rotationGraceSecs) ops := by
  refine ⟨?_, ?_, ?_, ?_⟩
  · refine graceHolds_fresh backend rotationGraceSecs (fun _ _ => rfl) (fun _ _ => rfl) ?_ ?_ h
    · apply ExtTreeMap.ext_getElem?
      intro k
      rw [getElem?_clientHoldings, live_of_same rfl]
      rfl
    · exact fun p op haligned htidy hfresh hmoves => hmoves.turnsClients haligned htidy hfresh
  · refine graceHolds_fresh backend rotationGraceSecs (fun _ _ => rfl) (fun _ _ => rfl) ?_ ?_ h
    · apply ExtTreeMap.ext_getElem?
      intro k
      rw [getElem?_grantHoldings, live_of_same rfl]
      rfl
    · exact fun p op haligned htidy hfresh hmoves => hmoves.turnsGrants haligned htidy hfresh
  · refine (StepRun.always_of_step (I := Aligned) (fun p op hp hop => ?_)
      (aligned_fresh backend rotationGraceSecs) h).mono fun p hp => hp.answers c
    exact (hp.step (FreshToken.stays hop)).aligned
  · exact StepRun.along_of_forall (fun p op hwrong => hwrong.rejects) _ ops

theorem rotation_grace_missed_response :
    let ops := [(quiet 5, .issueRelayRegistration "key" none [("a", "r")] "one"),
      (quiet 6, .issueClientGrant "rref-one" ⟨"relay-a", "room-r", "phone", "owner", none, none⟩
        "c" "n"),
      (quiet 7, .claimClientIdentity "ccl-c" "signed" "two"),
      (quiet 8, .issueDeviceGrant "rref-one" "relay-a" "room-r" "phone" none "two"),
      (quiet 10, .rotateClientIdentity "cref-two" "three"),
      (quiet 11, .rotateClientIdentity "cref-two" "four"),
      (quiet 12, .issueDeviceGrant "rref-one" "relay-a" "room-r" "phone" none "three"),
      (quiet 13, .issueDeviceSession "dref-two" (some "elsewhere")),
      (quiet 13, .issueDeviceSession "dref-two" (some "room-r"))]
    GraceHolds plainCrypto clientHoldings (clientIntent plainCrypto) (fresh (.postgres false) 4)
        ops ∧
      GraceHolds plainCrypto grantHoldings (deviceIntent plainCrypto) (fresh (.postgres false) 4)
        ops ∧
      StepRun.Always (step plainCrypto) (Answers plainCrypto) (fresh (.postgres false) 4) ops ∧
      StepRun.Along (step plainCrypto)
        (fun p op => WrongRoom plainCrypto p op → Rejects p (p.perform plainCrypto op))
        (fresh (.postgres false) 4) ops :=
  rotation_grace plainCrypto (.postgres false) 4 _ (by decide +kernel)

/-- A client that never hears of its new token and rotates by the old one every three seconds,
for a grace of four: seventeen rotations later the old one still lets it in. -/
theorem used_token_outlasts_sixteen_rotations :
    let enrolled := [(quiet 5, ControlOp.issueRelayRegistration "key" none [("a", "r")] "one"),
      (quiet 6, .issueClientGrant "rref-one" ⟨"relay-a", "room-r", "phone", "owner", none, none⟩
        "c" "n"),
      (quiet 7, .claimClientIdentity "ccl-c" "signed" "two"),
      (quiet 10, .rotateClientIdentity "cref-two" "three")]
    let rotating := (List.range 17).map fun n =>
      (quiet (13 + 3 * n), ControlOp.rotateClientIdentity "cref-two" (toString n))
    let p := StepRun.run (step plainCrypto) (fresh .inMemory 4) enrolled
    StepRun.Along (step plainCrypto) (FreshToken plainCrypto) (fresh .inMemory 4)
        (enrolled ++ rotating) ∧
      p.live.clientHoldings["cref-three"]? = some ("client-owner", [⟨"cref-two", 14⟩]) ∧
      Holdings.rotations (step plainCrypto) (fun p => p.live.clientHoldings) "client-owner" p
        rotating = 17 ∧
      ((StepRun.run (step plainCrypto) p rotating).authenticateClient plainCrypto.sha256Hex
        (quiet 64) "cref-two").2.isOk := by
  decide +kernel

end PublicControlPlane

end AgentRelay.Control
