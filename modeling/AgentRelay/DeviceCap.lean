import AgentRelay.ControlMoves
import AgentRelay.ControlUnique

/-! The device cap of a license. A grant takes a seat at its relay; a device that has one keeps
it when its grant is issued anew, so a full relay can still refresh its devices. -/
namespace AgentRelay.Control
open Text RecordTables Std

namespace PublicControlStateStore

variable {s t u next : PublicControlStateStore} {sha256Hex : String → String}
  {relayId deviceId : String}

/-- Whose seat each grant takes: the relay and the device. -/
def seats (s : PublicControlStateStore) : Table (String × String) :=
  s.grantsByHash.map fun _ grant => (grant.relayId, grant.deviceId)

theorem getElem?_seats (s : PublicControlStateStore) (k : String) :
    s.seats[k]? = (s.grantsByHash[k]?).map fun grant => (grant.relayId, grant.deviceId) := by
  rw [seats, ExtTreeMap.getElem?_map]

theorem seats_congr (h : ∀ k : String, (t.grantsByHash[k]?).map (fun g => (g.relayId, g.deviceId)) =
    (s.grantsByHash[k]?).map fun g => (g.relayId, g.deviceId)) : t.seats = s.seats := by
  apply ExtTreeMap.ext_getElem?
  intro k
  rw [getElem?_seats, getElem?_seats, h]

theorem SameRows.seats (h : SameRows s t) : t.seats = s.seats := by
  apply seats_congr
  intro k
  have hk := congrArg (Option.map fun g : PersistedDeviceGrant => (g.relayId, g.deviceId))
    (h.grants k)
  rw [Option.map_map, Option.map_map] at hk
  exact hk

theorem countDeviceGrantsForRelay_eq (s : PublicControlStateStore) (relayId : String) :
    s.countDeviceGrantsForRelay relayId = (s.seats.filter fun _ seat => seat.1 = relayId).size := by
  have hmap : (s.seats.filter fun _ seat => decide (seat.1 = relayId)) =
      (s.grantsByHash.filter fun _ grant => decide (grant.relayId = relayId)).map
        fun _ grant => (grant.relayId, grant.deviceId) := by
    apply ExtTreeMap.ext_getElem?
    intro k
    rw [Table.getElem?_filter, getElem?_seats, ExtTreeMap.getElem?_map, Table.getElem?_filter,
      Option.filter_map]
    rfl
  rw [countDeviceGrantsForRelay, length_filter_values, hmap, ExtTreeMap.size_map]

theorem hasDeviceGrant_eq_true :
    s.hasDeviceGrant relayId deviceId = true ↔
      ∃ k : String, s.seats[k]? = some (relayId, deviceId) := by
  simp only [hasDeviceGrant, List.any_eq_true, Table.mem_values, decide_eq_true_eq, getElem?_seats,
    Option.map_eq_some_iff, Prod.mk.injEq]
  constructor
  · rintro ⟨grant, ⟨k, hk⟩, hseat⟩
    exact ⟨k, grant, hk, hseat⟩
  · rintro ⟨k, grant, hk, hseat⟩
    exact ⟨grant, ⟨k, hk⟩, hseat⟩

theorem count_congr (h : t.seats = s.seats) (relayId : String) :
    t.countDeviceGrantsForRelay relayId = s.countDeviceGrantsForRelay relayId := by
  rw [countDeviceGrantsForRelay_eq, countDeviceGrantsForRelay_eq, h]

theorem hasDeviceGrant_congr (h : t.seats = s.seats) (relayId deviceId : String) :
    t.hasDeviceGrant relayId deviceId = s.hasDeviceGrant relayId deviceId := by
  rw [Bool.eq_iff_iff, hasDeviceGrant_eq_true, hasDeviceGrant_eq_true, h]

theorem count_le_of_grants (h : ∀ (k : String) g, t.grantsByHash[k]? = some g →
    s.grantsByHash[k]? = some g) (relayId : String) :
    t.countDeviceGrantsForRelay relayId ≤ s.countDeviceGrantsForRelay relayId := by
  rw [countDeviceGrantsForRelay_eq, countDeviceGrantsForRelay_eq]
  apply size_le_of_keys
  intro k hk
  obtain ⟨seat, hseat⟩ := Option.isSome_iff_exists.mp hk
  obtain ⟨hseat, hrelay⟩ := getElem?_of_filter hseat
  rw [getElem?_seats, Option.map_eq_some_iff] at hseat
  obtain ⟨g, hg, rfl⟩ := hseat
  rw [Table.getElem?_filter, getElem?_seats, h k g hg, Option.map_some, Option.filter_some, hrelay]
  rfl

theorem seats_issueDeviceGrant (s : PublicControlStateStore)
    (registration : PersistedRelayRegistration) (deviceId : String) (createdAt graceSecs : Nat)
    (drawn : String) :
    (s.issueDeviceGrant sha256Hex registration deviceId createdAt graceSecs drawn).seats =
      (s.seats.filter fun _ seat => seat ≠ (registration.relayId, deviceId)).insert
        (sha256Hex ("dref-" ++ toAsciiLowercase drawn)) (registration.relayId, deviceId) := by
  apply ExtTreeMap.ext_getElem?
  intro k
  rw [getElem?_seats, issueDeviceGrant, Table.getElem?_insert_of, Table.getElem?_insert_of]
  split_ifs
  · rfl
  · rw [Table.getElem?_filter, getElem?_seats, Option.filter_map, removeDeviceGrants,
      getElem?_removeMatchingEntries]
    congr 2
    funext grant
    simp [matchesOptionalRelayTarget, Prod.ext_iff, eq_comm (a := deviceId)]

section seat
variable {m : Table (String × String)} {k : String}

theorem size_reseat_le (hk : m[k]? = some (relayId, deviceId)) (hash relayId' : String) :
    (((m.filter fun _ seat => seat ≠ (relayId, deviceId)).insert hash (relayId, deviceId)).filter
      fun _ seat => seat.1 = relayId').size ≤ (m.filter fun _ seat => seat.1 = relayId').size := by
  rw [filter_insert, filter_filter_comm]
  split_ifs with hrelay
  · have hmem : (m.filter fun _ seat => decide (seat.1 = relayId'))[k]? =
        some (relayId, deviceId) := by
      rw [Table.getElem?_filter, hk, Option.filter_some, hrelay]
      rfl
    have hlt := size_filter_lt (f := fun _ seat => decide (seat ≠ (relayId, deviceId))) hmem
      (by simp)
    have hinsert : (((m.filter fun _ seat => decide (seat.1 = relayId')).filter
        fun _ seat => decide (seat ≠ (relayId, deviceId))).insert hash (relayId, deviceId)).size ≤
        ((m.filter fun _ seat => decide (seat.1 = relayId')).filter
          fun _ seat => decide (seat ≠ (relayId, deviceId))).size + 1 := ExtTreeMap.size_insert_le
    omega
  · exact ExtTreeMap.size_erase_le.trans (ExtTreeMap.size_filter_le_size)

theorem filter_ne_seat {seat : String × String} (hk : m[k]? = some seat)
    (hone : ∀ l : String, m[l]? = some seat → l = k) :
    (m.filter fun _ other => other ≠ seat) = m.erase k := by
  apply ExtTreeMap.ext_getElem?
  intro l
  rw [Table.getElem?_filter, Table.getElem?_erase_of]
  split_ifs with hl
  · rw [hl, hk]
    simp
  · cases hm : m[l]? with
    | none => rfl
    | some other =>
      have hne : other ≠ seat := by
        rintro rfl
        exact hl (hone l hm)
      simp [hne]

theorem size_reseat_eq (hk : m[k]? = some (relayId, deviceId))
    (hone : ∀ l : String, m[l]? = some (relayId, deviceId) → l = k) {hash : String}
    (hfree : m[hash]? = none) (relayId' : String) :
    (((m.filter fun _ seat => seat ≠ (relayId, deviceId)).insert hash (relayId, deviceId)).filter
      fun _ seat => seat.1 = relayId').size = (m.filter fun _ seat => seat.1 = relayId').size := by
  have hfree' : (m.filter fun _ seat => decide (seat.1 = relayId'))[hash]? = none := by
    rw [Table.getElem?_filter, hfree]
    rfl
  rw [filter_insert, filter_filter_comm]
  split_ifs with hrelay
  · have hmem : (m.filter fun _ seat => decide (seat.1 = relayId'))[k]? =
        some (relayId, deviceId) := by
      rw [Table.getElem?_filter, hk, Option.filter_some, hrelay]
      rfl
    rw [filter_ne_seat hmem fun l hl => hone l (getElem?_of_filter hl).1]
    have hne : ((m.filter fun _ seat => decide (seat.1 = relayId')).erase k)[hash]? = none := by
      rw [Table.getElem?_erase_of]
      split_ifs
      · rfl
      · exact hfree'
    rw [size_insert_of hne, size_erase_of hmem]
  · -- The seats of another relay are not touched.
    have hstay : ((m.filter fun _ seat => decide (seat.1 = relayId')).filter
        fun _ seat => decide (seat ≠ (relayId, deviceId))) =
        m.filter fun _ seat => decide (seat.1 = relayId') := by
      apply filter_of_forall
      intro l seat hseat
      have hat : seat.1 = relayId' := of_decide_eq_true (getElem?_of_filter hseat).2
      have hne : seat ≠ (relayId, deviceId) := by
        rintro rfl
        exact hrelay (decide_eq_true hat)
      exact decide_eq_true hne
    have herase : (m.filter fun _ seat => decide (seat.1 = relayId')).erase hash =
        m.filter fun _ seat => decide (seat.1 = relayId') := by
      apply ExtTreeMap.ext_getElem?
      intro l
      rw [Table.getElem?_erase_of]
      split_ifs with hl
      · rw [hl, hfree']
      · rfl
    rw [hstay, herase]

end seat

theorem size_seat_other {m : Table (String × String)} {relayId' : String} (hne : relayId ≠ relayId')
    (hash : String) :
    (((m.filter fun _ seat => seat ≠ (relayId, deviceId)).insert hash (relayId, deviceId)).filter
      fun _ seat => seat.1 = relayId').size ≤ (m.filter fun _ seat => seat.1 = relayId').size := by
  rw [filter_insert, filter_filter_comm, if_neg (by simpa using hne)]
  exact ExtTreeMap.size_erase_le.trans ExtTreeMap.size_filter_le_size

/-- No device has two grants of one relay. -/
def OneSeat (s : PublicControlStateStore) : Prop :=
  UniqueBy (fun grant => some (grant.relayId, grant.deviceId)) s.grantsByHash

theorem OneSeat.seats (h : OneSeat s) {k l : String} {seat : String × String}
    (hk : s.seats[k]? = some seat) (hl : s.seats[l]? = some seat) : k = l := by
  rw [getElem?_seats, Option.map_eq_some_iff] at hk hl
  obtain ⟨v, hv, hvs⟩ := hk
  obtain ⟨w, hw, hws⟩ := hl
  exact h k l v w seat hv hw (congrArg some hvs) (congrArg some hws)

theorem grants_seedRelayRegistrations (sha256Hex : String → String)
    (s : PublicControlStateStore) (registrations : List RelayRegistrationConfig) :
    (s.seedRelayRegistrations sha256Hex registrations).1.grantsByHash = s.grantsByHash := by
  unfold seedRelayRegistrations
  induction registrations using List.reverseRecOn with
  | nil => rfl
  | append_singleton registrations registration ih =>
    rw [List.foldl_append, List.foldl_cons, List.foldl_nil, ← ih]
    unfold seedRelayRegistration
    dsimp only
    split_ifs <;> rfl

end PublicControlStateStore

namespace PublicControlPlane
open PublicControlStateStore

variable {p : PublicControlPlane} {c : Crypto} {op : Env × ControlOp} {env : Env}
  {reply : ControlReply} {s t next u : PublicControlStateStore}
  {bearerToken relayId brokerRoomId deviceId drawn : String} {deviceLimit : Option Nat}

theorem oneSeat_stable : Stable OneSeat where
  durable s t hst hs := by
    refine UniqueBy.of_rows hs fun k g hg => ?_
    obtain ⟨g', hg', hunseen⟩ := getElem?_unseen hst.symm hg
    have hrelay : g'.relayId = g.relayId := congrArg (·.relayId) hunseen
    have hdevice : g'.deviceId = g.deviceId := congrArg (·.deviceId) hunseen
    exact ⟨g', hg', by rw [hrelay, hdevice]⟩
  client s k row superseded hrow hs := hs
  grant s k row superseded hrow hs := by
    refine UniqueBy.of_rows hs fun l w hw => ?_
    simp only [Table.getElem?_insert_of] at hw
    split_ifs at hw with hl
    · rw [hl, ← Option.some.inj hw]
      exact ⟨row, hrow, rfl⟩
    · exact ⟨w, hw, rfl⟩

theorem Writes.oneSeat (h : p.Writes c op reply s next)
    (hrestart : ∀ registrations, op.2 ≠ .restart registrations) (hs : OneSeat s) :
    OneSeat next := by
  cases h with
  | register hregister =>
    obtain rfl := (registerRelay_eq_some hregister).1.rows
    exact hs
  | grant registration => exact uniqueBy_issueDeviceGrant hs registration _ _ _ _
  | @claim env claimId claimSignature drawn s pending hpending =>
    obtain ⟨row, henrols, -, -⟩ := issueOrRotateClientIdentity_enrols c.sha256Hex s
      pending.clientVerifyKey pending.clientLabel env.now p.rotationGraceSecs drawn
    unfold OneSeat at hs ⊢
    rw [← henrols.grants] at hs
    exact hs
  | rotate => exact hs
  | revokeClient => exact hs
  | revokeDevice => exact UniqueBy.filter hs _
  | revokeOthers => exact UniqueBy.filter hs _
  | restart => exact absurd rfl (hrestart _)

structure Seated (p : PublicControlPlane) : Prop where
  aligned : Aligned p
  kept : Kept OneSeat OneSeat p

theorem seated_fresh (backend : Backend) (rotationGraceSecs : Nat) :
    Seated (fresh backend rotationGraceSecs) :=
  ⟨aligned_fresh backend rotationGraceSecs,
    kept_fresh (uniqueBy_empty _) (uniqueBy_empty _) backend rotationGraceSecs⟩

theorem Seated.step (h : Seated p) (c : Crypto) (op : Env × ControlOp) :
    Seated (p.step c op) := by
  by_cases hrestart : ∃ registrations, op.2 = .restart registrations
  · obtain ⟨env, op⟩ := op
    obtain ⟨registrations, rfl⟩ := hrestart
    refine ⟨h.aligned.restart env registrations, ?_⟩
    have hloaded : OneSeat p.reopened.state := by
      unfold PublicControlPlane.reopened
      dsimp only
      split_ifs
      · exact uniqueBy_empty _
      · exact h.kept.stored
    refine h.kept.restart oneSeat_stable (fun _ hs => hs) registrations hloaded ?_
    unfold OneSeat
    rw [grants_seedRelayRegistrations]
    exact hloaded
  · have hrestart' := fun registrations hop => hrestart ⟨registrations, hop⟩
    have hrule : Rule c p op OneSeat OneSeat OneSeat :=
      { before := oneSeat_stable, after := oneSeat_stable, stored := oneSeat_stable
        weaken := fun _ hs => hs, mono := fun _ hs => hs
        carries := fun reply s next _ hs _ hwrites => hwrites.oneSeat hrestart' hs }
    exact ⟨(h.aligned.step hrestart').aligned, hrule.step h.kept hrestart'⟩

theorem Renewal.seats {graceSecs : Nat} (h : Renewal c graceSecs op s t) : t.seats = s.seats := by
  cases h with
  | none h => exact h.seats
  | @client bearerToken k _ hop hfind hk h =>
    rw [h.seats]
    unfold PublicControlStateStore.renewClient
    split <;> rfl
  | @grant bearerToken expectedRoom k row hop hfind hroom hk h =>
    rw [h.seats]
    unfold PublicControlStateStore.renewGrant
    split
    · rfl
    · rename_i row' hrow
      apply seats_congr
      intro l
      rw [Table.getElem?_insert_of]
      split_ifs with hl
      · rw [hl, hrow]
        rfl
      · rfl

theorem Moves.seats (h : p.Moves c op s u) :
    u.seats = s.seats ∨
      ∃ t next reply, t.seats = s.seats ∧ p.Writes c op reply t next ∧ u.seats = next.seats := by
  obtain ⟨t, hren, hsame | ⟨t', next, reply, hsame, hwrites, hu⟩⟩ := h
  · exact Or.inl (hsame.seats.trans hren.seats)
  · exact Or.inr ⟨t', next, reply, hsame.seats.trans hren.seats, hwrites, hu.seats⟩

theorem Writes.count_le (h : p.Writes c op reply s next)
    (hrestart : ∀ registrations, op.2 ≠ .restart registrations)
    (hissue : ∀ bearerToken brokerRoomId deviceId deviceLimit drawn,
      op.2 = .issueDeviceGrant bearerToken relayId brokerRoomId deviceId deviceLimit drawn →
      s.hasDeviceGrant relayId deviceId = true) :
    next.countDeviceGrantsForRelay relayId ≤ s.countDeviceGrantsForRelay relayId := by
  cases h with
  | register hregister =>
    obtain rfl := (registerRelay_eq_some hregister).1.rows
    exact le_rfl
  | @grant env bearerToken relayId' brokerRoomId deviceId deviceLimit drawn s registration k hfiled
      hid hroom =>
    subst hid
    rw [countDeviceGrantsForRelay_eq, countDeviceGrantsForRelay_eq, seats_issueDeviceGrant]
    by_cases hrelay : registration.relayId = relayId
    · subst hrelay
      obtain ⟨l, hl⟩ := hasDeviceGrant_eq_true.mp (hissue _ _ _ _ _ rfl)
      exact size_reseat_le hl _ _
    · exact size_seat_other hrelay _
  | @claim env claimId claimSignature drawn s pending hpending =>
    obtain ⟨row, henrols, -, -⟩ := issueOrRotateClientIdentity_enrols c.sha256Hex s
      pending.clientVerifyKey pending.clientLabel env.now p.rotationGraceSecs drawn
    refine count_le_of_grants (fun k g hg => ?_) relayId
    rw [← henrols.grants]
    exact hg
  | rotate => exact le_rfl
  | revokeClient => exact le_rfl
  | revokeDevice => exact count_le_of_grants (fun k g hg => (getElem?_of_filter hg).1) relayId
  | revokeOthers => exact count_le_of_grants (fun k g hg => (getElem?_of_filter hg).1) relayId
  | restart => exact absurd rfl (hrestart _)

theorem overDeviceLimit_congr (h : t.seats = s.seats) (relayId deviceId : String)
    (deviceLimit : Option Nat) :
    overDeviceLimit t relayId deviceId deviceLimit =
      overDeviceLimit s relayId deviceId deviceLimit := by
  unfold overDeviceLimit
  rw [hasDeviceGrant_congr h, count_congr h]

theorem overDeviceLimit_of_has (h : s.hasDeviceGrant relayId deviceId = true)
    (deviceLimit : Option Nat) : overDeviceLimit s relayId deviceId deviceLimit = none := by
  rw [overDeviceLimit, if_pos h]

theorem Aligned.refused_transact {α : Type} (h : Aligned p) (env : Env) {edit : StoreEdit α}
    (hedit : ∀ edited, edit p.live ≠ .ok edited) :
    SameRows p.live (p.transact env edit).1.live := by
  obtain ⟨-, hrows | ⟨next, changed, a, he, -⟩⟩ := h.transact env
    (fun _ _ _ he => absurd he (hedit _))
  · exact hrows
  · exact absurd he (hedit _)

theorem Aligned.refused_rows (h : Aligned p) (c : Crypto) (env : Env)
    (bearerToken brokerRoomId drawn : String) {limit : Nat}
    (hover : overDeviceLimit p.live relayId deviceId deviceLimit = some limit) :
    SameRows p.live (p.issueDeviceGrant c.sha256Hex env bearerToken relayId brokerRoomId deviceId
      deviceLimit drawn).1.live := by
  have hlook := h.authenticateRelay c.sha256Hex env bearerToken relayId brokerRoomId
  have hlets := (h.kept.authenticateRelay c.sha256Hex env bearerToken relayId brokerRoomId).ok
  unfold PublicControlPlane.issueDeviceGrant
  rcases hr : p.authenticateRelay c.sha256Hex env bearerToken relayId brokerRoomId with
    ⟨p₁, e | registration⟩
  · rw [hr] at hlook
    exact hlook.2
  · rw [hr] at hlook hlets
    obtain ⟨haligned, hrows⟩ := hlook
    obtain ⟨-, hid, -, -⟩ := hlets registration rfl
    have hover₁ : overDeviceLimit p₁.live registration.relayId deviceId deviceLimit =
        some limit := by
      rw [hid, overDeviceLimit_congr hrows.seats, hover]
    rw [Outcome.andThen_ok, answer_fst]
    · refine hrows.trans (haligned.refused_transact env fun edited => ?_)
      simp [hover₁]
    · intro p' a
      cases mintDeviceWsToken registration.brokerRoomId deviceId <;> rfl

structure LetsIn (c : Crypto) (p : PublicControlPlane) (bearerToken relayId brokerRoomId : String)
    (registration : PersistedRelayRegistration) : Prop where
  filed : p.live.relayRegistrationsByHash[c.sha256Hex (trim bearerToken)]? = some registration
  relayId : registration.relayId = relayId
  brokerRoomId : registration.brokerRoomId = brokerRoomId

variable {registration : PersistedRelayRegistration}

theorem LetsIn.authenticateRelay (hin : LetsIn c p bearerToken relayId brokerRoomId registration)
    (h : Aligned p) (env : Env) :
    p.authenticateRelay c.sha256Hex env bearerToken relayId brokerRoomId =
      (p.lockState env.authLoadError).andThen fun p₁ _ => (p₁, .ok registration) := by
  have hlock := (h.kept.lockState env.authLoadError).2
  unfold PublicControlPlane.authenticateRelay
  rcases hr : p.lockState env.authLoadError with ⟨p₁, e | _⟩
  · rfl
  · rw [hr] at hlock
    have hstate : p₁.state = p.live := (hlock () rfl).1
    simp only [Outcome.andThen_ok, PublicControlPlane.lookup, hstate, hin.filed, hin.relayId,
      hin.brokerRoomId, ne_eq, not_true_eq_false, if_false]

theorem LetsIn.refused (hin : LetsIn c p bearerToken relayId brokerRoomId registration)
    (h : Aligned p) {limit : Nat}
    (hover : overDeviceLimit p.live relayId deviceId deviceLimit = some limit) :
    (p.issueDeviceGrant c.sha256Hex env bearerToken relayId brokerRoomId deviceId deviceLimit
        drawn).1.live = p.live ∧
      (p.issueDeviceGrant c.sha256Hex env bearerToken relayId brokerRoomId deviceId deviceLimit
        drawn).1.persisted = p.persisted ∧
      (env.authLoadError = none → env.loadError = none →
        (p.issueDeviceGrant c.sha256Hex env bearerToken relayId brokerRoomId deviceId deviceLimit
          drawn).2 = .error (deviceLimitError limit)) := by
  have hframe := lockState_frame p env.authLoadError
  have hkept := h.kept.lockState env.authLoadError
  have hnone := (lockState_none p).1
  unfold PublicControlPlane.issueDeviceGrant
  rw [hin.authenticateRelay h env]
  rcases hr : p.lockState env.authLoadError with ⟨p₁, e | _⟩
  · rw [hr] at hframe
    refine ⟨hframe.1, hframe.2, fun hload => ?_⟩
    rw [hload, hnone] at hr
    exact absurd (congrArg Prod.snd hr) (by simp)
  · rw [hr] at hframe hkept
    obtain ⟨hlive₁, hpersisted₁⟩ := hframe
    have hframe₂ := lockState_frame p₁ env.loadError
    have hlock₂ := (hkept.1.lockState env.loadError).2
    have hnone₂ := (lockState_none p₁).1
    simp only [Outcome.andThen_ok, PublicControlPlane.transact]
    rcases hr₂ : p₁.lockState env.loadError with ⟨p₂, e | _⟩
    · rw [hr₂] at hframe₂
      refine ⟨hframe₂.1.trans hlive₁, hframe₂.2.trans hpersisted₁, fun _ hload => ?_⟩
      rw [hload, hnone₂] at hr₂
      exact absurd (congrArg Prod.snd hr₂) (by simp)
    · rw [hr₂] at hframe₂ hlock₂
      have hstate : p₂.state = p.live := (hlock₂ () rfl).1.trans hlive₁
      simp only [Outcome.andThen_ok, hstate, hin.relayId, hover, Outcome.andThen_error]
      exact ⟨hframe₂.1.trans hlive₁, hframe₂.2.trans hpersisted₁, fun _ _ => trivial⟩

/-- Nothing outside hinders a call: its relay is let in, the backend reads and writes, and a
ticket for the device can be made out. -/
structure Unhindered (c : Crypto) (p : PublicControlPlane) (env : Env)
    (bearerToken relayId brokerRoomId deviceId drawn : String)
    (registration : PersistedRelayRegistration) : Prop where
  letsIn : LetsIn c p bearerToken relayId brokerRoomId registration
  reads : env.authLoadError = none ∧ env.loadError = none
  writes : (({ (p.lockState none).1 with
      state := p.live.issueDeviceGrant c.sha256Hex registration deviceId env.now
        p.rotationGraceSecs drawn } : PublicControlPlane).save env.write).2 = .ok ()
  mints : mintDeviceWsToken brokerRoomId deviceId = .ok ()

theorem Unhindered.succeeds
    (hun : Unhindered c p env bearerToken relayId brokerRoomId deviceId drawn registration)
    (h : Aligned p) (hhas : p.live.hasDeviceGrant relayId deviceId = true)
    (deviceLimit : Option Nat) :
    (p.issueDeviceGrant c.sha256Hex env bearerToken relayId brokerRoomId deviceId deviceLimit
      drawn).2 = .ok ("dref-" ++ toAsciiLowercase drawn) := by
  have hstate : (p.lockState none).1.state = p.live :=
    ((h.kept.lockState none).2 () (congrArg Prod.snd (lockState_none p).1)).1
  have hgrace := (loads_lockState p none).graceSecs
  unfold PublicControlPlane.issueDeviceGrant
  rw [hun.letsIn.authenticateRelay h env, hun.reads.1, (lockState_none p).1]
  simp only [Outcome.andThen_ok, PublicControlPlane.transact, hun.reads.2, (lockState_none p).2]
  rw [(lockState_none p).1]
  simp only [Outcome.andThen_ok, hstate, hun.letsIn.relayId, overDeviceLimit_of_has hhas, if_true]
  have hwrites := hun.writes
  rw [← hgrace] at hwrites
  rw [andThen_of_ok hwrites]
  simp only [Outcome.andThen_ok, hun.letsIn.brokerRoomId, hun.mints]

theorem Aligned.issueDeviceGrant_unlimited (h : Aligned p)
    (hhas : p.live.hasDeviceGrant relayId deviceId = true) (deviceLimit : Option Nat) :
    p.issueDeviceGrant c.sha256Hex env bearerToken relayId brokerRoomId deviceId deviceLimit drawn =
      p.issueDeviceGrant c.sha256Hex env bearerToken relayId brokerRoomId deviceId none drawn := by
  have hlook := h.authenticateRelay c.sha256Hex env bearerToken relayId brokerRoomId
  have hlets := (h.kept.authenticateRelay c.sha256Hex env bearerToken relayId brokerRoomId).ok
  unfold PublicControlPlane.issueDeviceGrant
  rcases hr : p.authenticateRelay c.sha256Hex env bearerToken relayId brokerRoomId with
    ⟨p₁, e | registration⟩
  · rfl
  · rw [hr] at hlook hlets
    obtain ⟨haligned, hrows⟩ := hlook
    obtain ⟨-, hid, -, -⟩ := hlets registration rfl
    have hlock := (haligned.kept.lockState env.loadError).2
    simp only [Outcome.andThen_ok, PublicControlPlane.transact]
    rcases hr₂ : p₁.lockState env.loadError with ⟨p₂, e | _⟩
    · rfl
    · rw [hr₂] at hlock
      have hstate : p₂.state = p₁.live := (hlock () rfl).1
      have hhas₁ : p₁.live.hasDeviceGrant registration.relayId deviceId = true := by
        rw [hid, hasDeviceGrant_congr hrows.seats, hhas]
      simp only [Outcome.andThen_ok, hstate, overDeviceLimit_of_has hhas₁]

theorem Moves.hasDeviceGrant
    (h : p.Moves c
      (env, .issueDeviceGrant bearerToken relayId brokerRoomId deviceId deviceLimit drawn) s u)
    (hhas : s.hasDeviceGrant relayId deviceId = true) :
    u.hasDeviceGrant relayId deviceId = true := by
  rcases h.seats with hsame | ⟨t, next, reply, -, hwrites, hu⟩
  · rwa [hasDeviceGrant_congr hsame]
  · rw [hasDeviceGrant_congr hu]
    cases hwrites with
    | grant registration k hfiled hid hroom =>
      subst hid
      rw [hasDeviceGrant_eq_true, seats_issueDeviceGrant]
      exact ⟨c.sha256Hex ("dref-" ++ toAsciiLowercase drawn), by simp⟩

theorem Moves.count_eq
    (h : p.Moves c
      (env, .issueDeviceGrant bearerToken relayId brokerRoomId deviceId deviceLimit drawn) s u)
    (hone : OneSeat s) (hhas : s.hasDeviceGrant relayId deviceId = true)
    (hfresh : s.grantsByHash[c.sha256Hex ("dref-" ++ toAsciiLowercase drawn)]? = none)
    (relayId' : String) :
    u.countDeviceGrantsForRelay relayId' = s.countDeviceGrantsForRelay relayId' := by
  obtain ⟨k, hk⟩ := hasDeviceGrant_eq_true.mp hhas
  have hfree : s.seats[c.sha256Hex ("dref-" ++ toAsciiLowercase drawn)]? = none := by
    rw [getElem?_seats, hfresh]
    rfl
  rcases h.seats with hsame | ⟨t, next, reply, ht, hwrites, hu⟩
  · exact count_congr hsame relayId'
  · rw [count_congr hu]
    cases hwrites with
    | grant registration l hfiled hid hroom =>
      subst hid
      rw [countDeviceGrantsForRelay_eq, countDeviceGrantsForRelay_eq, seats_issueDeviceGrant, ht]
      exact size_reseat_eq hk (fun l hl => hone.seats hl hk) hfree relayId'

theorem OneSeat.length_eq_one (h : OneSeat s) (hhas : s.hasDeviceGrant relayId deviceId = true) :
    (s.grantsByHash.values.filter fun grant =>
      grant.relayId = relayId ∧ grant.deviceId = deviceId).length = 1 := by
  obtain ⟨k, hk⟩ := hasDeviceGrant_eq_true.mp hhas
  rw [getElem?_seats, Option.map_eq_some_iff] at hk
  obtain ⟨grant, hgrant, hseat⟩ := hk
  obtain ⟨hrelay, hdevice⟩ := Prod.mk.inj hseat
  have hsingle : (s.grantsByHash.filter fun _ g =>
      decide (g.relayId = relayId ∧ g.deviceId = deviceId)) = (∅ : Table _).insert k grant := by
    apply ExtTreeMap.ext_getElem?
    intro l
    rw [Table.getElem?_filter, Table.getElem?_insert_of]
    split_ifs with hl
    · rw [hl, hgrant]
      simp [hrelay, hdevice]
    · rw [ExtTreeMap.getElem?_empty, Option.eq_none_iff_forall_ne_some]
      intro g hg
      obtain ⟨hg, hmatch⟩ := Option.filter_eq_some_iff.mp hg
      obtain ⟨hrelay', hdevice'⟩ := of_decide_eq_true hmatch
      exact hl (h l k g grant (relayId, deviceId) hg hgrant
        (congrArg some (Prod.ext hrelay' hdevice')) (congrArg some hseat))
  rw [length_filter_values, hsingle, size_insert_of (by simp)]
  simp

end PublicControlPlane

namespace ControlOp

def HeldTo (relayId : String) (limit : Nat) : ControlOp → Prop
  | .issueDeviceGrant _ relayId' _ _ deviceLimit _ => relayId' = relayId → deviceLimit = some limit
  | .restart _ => False
  | _ => True

end ControlOp

namespace PublicControlPlane
open PublicControlStateStore

variable {p : PublicControlPlane} {c : Crypto} {op : Env × ControlOp}

/-- The token drawn for a device is not one on file. -/
def FreshGrant (c : Crypto) (p : PublicControlPlane) (op : Env × ControlOp) : Prop :=
  match op.2 with
  | .issueDeviceGrant _ _ _ _ _ drawn =>
    p.live.grantsByHash[c.sha256Hex ("dref-" ++ toAsciiLowercase drawn)]? = none
  | _ => True

instance (c : Crypto) (p : PublicControlPlane) :
    (op : Env × ControlOp) → Decidable (FreshGrant c p op)
  | (_, op) => by
    refine op.casesOn ?_ ?_ ?_ ?_ ?_ ?_ ?_ ?_ ?_ ?_ ?_ ?_ ?_ <;>
      intros <;> dsimp only [FreshGrant] <;> infer_instance

structure Reissues (c : Crypto) (p : PublicControlPlane) (env : Env)
    (bearerToken relayId brokerRoomId deviceId : String) (deviceLimit : Option Nat)
    (drawn : String) (r : Outcome PublicControlPlane String) : Prop where
  unlimited : r = p.issueDeviceGrant c.sha256Hex env bearerToken relayId brokerRoomId deviceId none
    drawn
  succeeds : ∀ registration,
    Unhindered c p env bearerToken relayId brokerRoomId deviceId drawn registration →
      r.2 = .ok ("dref-" ++ toAsciiLowercase drawn)
  one : (r.1.live.grantsByHash.values.filter fun grant =>
    grant.relayId = relayId ∧ grant.deviceId = deviceId).length = 1
  count : ∀ relayId',
    r.1.live.countDeviceGrantsForRelay relayId' = p.live.countDeviceGrantsForRelay relayId'

structure Refuses (p : PublicControlPlane) (env : Env) (limit : Nat)
    (r : Outcome PublicControlPlane String) : Prop where
  live : r.1.live = p.live
  persisted : r.1.persisted = p.persisted
  error : env.authLoadError = none → env.loadError = none → r.2 = .error (deviceLimitError limit)

structure KeepsCap (c : Crypto) (p : PublicControlPlane) (op : Env × ControlOp) : Prop where
  capped : ∀ relayId limit, op.2.HeldTo relayId limit →
    limit ≤ p.live.countDeviceGrantsForRelay relayId →
      (p.step c op).live.countDeviceGrantsForRelay relayId ≤
        p.live.countDeviceGrantsForRelay relayId
  reissued : ∀ bearerToken relayId brokerRoomId deviceId deviceLimit drawn,
    op.2 = .issueDeviceGrant bearerToken relayId brokerRoomId deviceId deviceLimit drawn →
    p.live.hasDeviceGrant relayId deviceId = true →
      Reissues c p op.1 bearerToken relayId brokerRoomId deviceId deviceLimit drawn
        (p.issueDeviceGrant c.sha256Hex op.1 bearerToken relayId brokerRoomId deviceId deviceLimit
          drawn)
  refused : ∀ bearerToken relayId brokerRoomId deviceId deviceLimit drawn registration limit,
    op.2 = .issueDeviceGrant bearerToken relayId brokerRoomId deviceId deviceLimit drawn →
    LetsIn c p bearerToken relayId brokerRoomId registration →
    overDeviceLimit p.live relayId deviceId deviceLimit = some limit →
      Refuses p op.1 limit
        (p.issueDeviceGrant c.sha256Hex op.1 bearerToken relayId brokerRoomId deviceId deviceLimit
          drawn)

theorem Seated.keepsCap (h : Seated p) (hfresh : FreshGrant c p op) : KeepsCap c p op where
  capped relayId limit hheld hfull := by
    have hrestart : ∀ registrations, op.2 ≠ .restart registrations := by
      intro registrations hop
      rw [hop] at hheld
      exact hheld
    have hmoves := (h.aligned.step (c := c) hrestart).moves
    by_cases hnew : ∃ bearerToken brokerRoomId deviceId deviceLimit drawn,
        op.2 = .issueDeviceGrant bearerToken relayId brokerRoomId deviceId deviceLimit drawn ∧
        p.live.hasDeviceGrant relayId deviceId = false
    · -- A device without a grant, and no seat left for it.
      obtain ⟨env, op⟩ := op
      obtain ⟨bearerToken, brokerRoomId, deviceId, deviceLimit, drawn, rfl, hhas⟩ := hnew
      have hlimit : deviceLimit = some limit := hheld rfl
      have hover : overDeviceLimit p.live relayId deviceId deviceLimit = some limit := by
        rw [overDeviceLimit, hhas, hlimit]
        simpa using hfull
      have hrows := h.aligned.refused_rows c env bearerToken brokerRoomId drawn hover
      exact (count_congr hrows.seats relayId).le
    · rcases hmoves.seats with hsame | ⟨t, next, reply, ht, hwrites, hu⟩
      · exact (count_congr hsame relayId).le
      · rw [count_congr hu, ← count_congr ht]
        refine hwrites.count_le hrestart
          fun bearerToken brokerRoomId deviceId deviceLimit drawn hop => ?_
        rw [hasDeviceGrant_congr ht]
        by_contra hhas
        exact hnew ⟨bearerToken, brokerRoomId, deviceId, deviceLimit, drawn, hop,
          Bool.not_eq_true _ ▸ hhas⟩
  reissued bearerToken relayId brokerRoomId deviceId deviceLimit drawn hop hhas := by
    obtain ⟨env, op⟩ := op
    obtain rfl : op = _ := hop
    have hleads : Leads c p
        (env, .issueDeviceGrant bearerToken relayId brokerRoomId deviceId deviceLimit drawn) _ :=
      h.aligned.step (by simp)
    have hmoves := hleads.moves
    have hseated := (h.step c
      (env, .issueDeviceGrant bearerToken relayId brokerRoomId deviceId deviceLimit
        drawn)).kept.live.1
    exact
      { unlimited := h.aligned.issueDeviceGrant_unlimited hhas deviceLimit
        succeeds := fun registration hun => hun.succeeds h.aligned hhas deviceLimit
        one := OneSeat.length_eq_one hseated (hmoves.hasDeviceGrant hhas)
        count := hmoves.count_eq h.kept.live.1 hhas hfresh }
  refused bearerToken relayId brokerRoomId deviceId deviceLimit drawn registration limit hop hin
      hover := by
    obtain ⟨hlive, hpersisted, herror⟩ := hin.refused h.aligned hover
    exact ⟨hlive, hpersisted, herror⟩

/-- In every run whose device tokens are fresh, every operation keeps the cap. -/
theorem device_cap_holds (c : Crypto) (backend : Backend) (rotationGraceSecs : Nat)
    (ops : List (Env × ControlOp))
    (h : StepRun.Along (step c) (FreshGrant c) (fresh backend rotationGraceSecs) ops) :
    StepRun.Along (step c) (KeepsCap c) (fresh backend rotationGraceSecs) ops :=
  StepRun.along_of_step (fun _ op hp hfresh => ⟨hp.step c op, hp.keepsCap hfresh⟩)
    (seated_fresh backend rotationGraceSecs) h

/-- A full relay refreshes its phone, and has no seat for a tablet. -/
theorem full_relay_keeps_cap :
    StepRun.Along (step plainCrypto) (KeepsCap plainCrypto) (fresh (.postgres false) 100)
      [(quiet 5, .issueRelayRegistration "key" none [("a", "r")] "one"),
        (quiet 6, .issueDeviceGrant "rref-one" "relay-a" "room-r" "phone" (some 1) "two"),
        (quiet 7, .issueDeviceGrant "rref-one" "relay-a" "room-r" "phone" (some 1) "three"),
        (quiet 8, .issueDeviceGrant "rref-one" "relay-a" "room-r" "tablet" (some 1) "four"),
        (quiet 9, .revokeDeviceGrant "rref-one" "relay-a" "room-r" "phone"),
        (quiet 10, .issueDeviceGrant "rref-one" "relay-a" "room-r" "tablet" (some 1) "five")] :=
  device_cap_holds plainCrypto (.postgres false) 100 _ (by decide +kernel)

/-- A device without a name gets a grant, and an error; its grant cannot be issued anew, though
there is no limit and nothing fails outside. -/
theorem nameless_device_not_reissued :
    let p := StepRun.run (step plainCrypto) (fresh .inMemory 100)
      [(quiet 5, .issueRelayRegistration "key" none [("a", "r")] "one"),
        (quiet 6, .issueDeviceGrant "rref-one" "relay-a" "room-r" "" none "two")]
    p.live.hasDeviceGrant "relay-a" "" = true ∧
      (p.issueDeviceGrant plainCrypto.sha256Hex (quiet 7) "rref-one" "relay-a" "room-r" "" none
        "three").2 = .error "device surface join_ticket device_id is required" := by
  decide +kernel

end PublicControlPlane

end AgentRelay.Control
