import AgentRelay.ControlKept

/-! The operations of the control plane, one by one: each lets its caller in and comes to its
edit in a critical section. What such steps keep or make, every operation keeps or makes. -/
namespace AgentRelay.Control
open Text RecordTables Std

namespace PublicControlPlane
open PublicControlStateStore

variable {p : PublicControlPlane} {env : Env} {c : Crypto} {op : Env × ControlOp}

theorem answer_fst {α β : Type} (r : Outcome PublicControlPlane α)
    {f : PublicControlPlane → α → Outcome PublicControlPlane β} (hf : ∀ p' a, (f p' a).1 = p') :
    (r.andThen f).1 = r.1 := by
  obtain ⟨p', e | a⟩ := r
  · rfl
  · exact hf p' a

/-- An operation that has come out of its critical section and only makes up its answer. -/
structure Tells {α β : Type} (op : ControlOp) (tell : α → ControlReply)
    (answer : PublicControlPlane → α → Outcome PublicControlPlane β)
    (g : β → ControlReply) : Prop where
  plane : ∀ p' a, (answer p' a).1 = p'
  told : ∀ p' a b, (answer p' a).2 = .ok b → g b = tell a
  answered : Mints op → ∀ p' a, ∃ b, (answer p' a).2 = .ok b

/-- What holds of the plane while the caller is let in, and what then holds of the outcome. -/
structure CallRule (c : Crypto) (p : PublicControlPlane) (op : Env × ControlOp)
    (Before : PublicControlPlane → Prop)
    (After : Outcome PublicControlPlane ControlReply → Prop) : Prop where
  kept : Kept (fun _ => True) (fun _ => True) p
  start : Before p
  relay : ∀ bearerToken relayId brokerRoomId,
    Before (p.authenticateRelay c.sha256Hex op.1 bearerToken relayId brokerRoomId).1
  client : ∀ bearerToken, op.2.clientBearer? = some bearerToken →
    Before (p.authenticateClient c.sha256Hex op.1 bearerToken).1
  device : ∀ bearerToken expectedRoom, op.2.deviceBearer? = some (bearerToken, expectedRoom) →
    Before (p.deviceGrantFromRefreshTokenScoped c.sha256Hex op.1 bearerToken expectedRoom).1
  touch : ∀ bearerToken expectedRoom p₁ primaryHash grant,
    op.2.deviceBearer? = some (bearerToken, expectedRoom) →
    p.deviceGrantFromRefreshTokenScoped c.sha256Hex op.1 bearerToken expectedRoom =
      (p₁, .ok (primaryHash, grant)) →
    shouldTouchLastSeen grant.lastSeen op.1.authNow →
    Before (p₁.touchDeviceLastSeen op.1 primaryHash)
  withClaims : ∀ p₁ claims, Before p₁ → Before { p₁ with pendingClientClaims := claims }
  idle : ¬ Edits op.2 → ∀ r, Before r.1 → After r
  failed : ∀ p₁ e, Before p₁ → After (p₁, .error e)
  transacts : ∀ {α β : Type} (p₁ : PublicControlPlane) (edit : StoreEdit α)
    (tell : α → ControlReply) (answer : PublicControlPlane → α → Outcome PublicControlPlane β)
    (g : β → ControlReply), Before p₁ → (Unlocked op.2 → p₁.live = p.live) →
    Inscribes c p op edit tell p₁.live → Tells op.2 tell answer g →
    After (reply ((p₁.transact op.1 edit).andThen answer) g)

namespace CallRule
variable {Before : PublicControlPlane → Prop}
  {After : Outcome PublicControlPlane ControlReply → Prop}

/-- An operation that tells what its edit says. -/
theorem plain {α : Type} (r : CallRule c p op Before After) {p₁ : PublicControlPlane}
    (hp₁ : Before p₁) (hlive : Unlocked op.2 → p₁.live = p.live) {edit : StoreEdit α}
    {g : α → ControlReply} (hedit : Inscribes c p op edit g p₁.live) :
    After (reply (p₁.transact op.1 edit) g) := by
  have hself : (p₁.transact op.1 edit).andThen (fun p' a => (p', .ok a)) =
      p₁.transact op.1 edit := by
    rcases p₁.transact op.1 edit with ⟨p', e | a⟩ <;> rfl
  rw [← hself]
  exact r.transacts p₁ edit g _ g hp₁ hlive hedit
    ⟨fun _ _ => rfl, fun _ _ _ hb => congrArg g (Except.ok.inj hb).symm, fun _ _ a => ⟨a, rfl⟩⟩

theorem relayCall {α : Type} (r : CallRule c p op Before After)
    {bearerToken relayId brokerRoomId : String}
    {f : PublicControlPlane → PersistedRelayRegistration → Outcome PublicControlPlane α}
    {g : α → ControlReply}
    (hf : ∀ p₁ registration, Before p₁ → p₁.rotationGraceSecs = p.rotationGraceSecs →
      registration.relayId = relayId → registration.brokerRoomId = brokerRoomId →
      p₁.live.relayRegistrationsByHash[c.sha256Hex (trim bearerToken)]? = some registration →
      After (reply (f p₁ registration) g)) :
    After (reply ((p.authenticateRelay c.sha256Hex op.1 bearerToken relayId
      brokerRoomId).andThen f) g) := by
  have hbefore := r.relay bearerToken relayId brokerRoomId
  have hloads := loads_authenticateRelay p c.sha256Hex op.1 bearerToken relayId brokerRoomId
  have hlets := (r.kept.authenticateRelay c.sha256Hex op.1 bearerToken relayId brokerRoomId).ok
  rcases hr : p.authenticateRelay c.sha256Hex op.1 bearerToken relayId brokerRoomId with
    ⟨p₁, e | registration⟩
  · rw [hr] at hbefore
    exact r.failed p₁ e hbefore
  · rw [hr] at hbefore hloads hlets
    obtain ⟨-, hid, hroom, hfiled⟩ := hlets registration rfl
    exact hf p₁ registration hbefore hloads.graceSecs hid hroom hfiled

theorem clientCall {α : Type} (r : CallRule c p op Before After) {bearerToken : String}
    (hop : op.2.clientBearer? = some bearerToken)
    {f : PublicControlPlane → PersistedClientIdentity → Outcome PublicControlPlane α}
    {g : α → ControlReply}
    (hf : ∀ p₁ client, Before p₁ → p₁.rotationGraceSecs = p.rotationGraceSecs →
      (∃ k, Files k client p₁.live) → After (reply (f p₁ client) g)) :
    After (reply ((p.authenticateClient c.sha256Hex op.1 bearerToken).andThen f) g) := by
  have hbefore := r.client bearerToken hop
  have hfixed := fixed_authenticateClient p c.sha256Hex op.1 bearerToken
  have hlets := (r.kept.authenticateClient c.sha256Hex stable_true (fun _ _ => trivial) op.1
    bearerToken).ok
  rcases hr : p.authenticateClient c.sha256Hex op.1 bearerToken with ⟨p₁, e | client⟩
  · rw [hr] at hbefore
    exact r.failed p₁ e hbefore
  · rw [hr] at hbefore hfixed hlets
    obtain ⟨k, hfiled⟩ := hlets client rfl
    exact hf p₁ client hbefore hfixed.graceSecs ⟨k, hfiled.live.1.2⟩

theorem issueRelayRegistration {relayVerifyKey : String} {relayLabel : Option String}
    {draws : List (String × String)} {drawn : String}
    (r : CallRule c p (env, .issueRelayRegistration relayVerifyKey relayLabel draws drawn)
      Before After) :
    After (p.perform c (env, .issueRelayRegistration relayVerifyKey relayLabel draws drawn)) := by
  refine r.plain r.start (fun _ => rfl) fun next changed a he => ?_
  cases hregister : p.live.registerRelay c.sha256Hex relayVerifyKey relayLabel env.now draws
      drawn with
  | none =>
    rw [hregister] at he
    exact absurd he (by simp)
  | some registered =>
    rw [hregister] at he
    simp only [Except.ok.injEq, Prod.mk.injEq] at he
    obtain ⟨rfl, rfl, rfl⟩ := he
    exact .of_edit (registers_edit (registerRelay_eq_some hregister).1)
      (fun hc => absurd hc (by simp)) (.register hregister)

theorem issueDeviceGrant {bearerToken relayId brokerRoomId deviceId : String}
    {deviceLimit : Option Nat} {drawn : String}
    (r : CallRule c p
      (env, .issueDeviceGrant bearerToken relayId brokerRoomId deviceId deviceLimit drawn)
      Before After) :
    After (p.perform c
      (env, .issueDeviceGrant bearerToken relayId brokerRoomId deviceId deviceLimit drawn)) := by
  refine r.relayCall fun p₁ registration hp₁ hgrace hid hroom hfiled => ?_
  refine r.transacts p₁ _ (fun _ => .done) _ _ hp₁ (fun hu => hu.elim)
    (fun next changed a he => ?_) ⟨fun p' _ => ?_, fun _ _ _ _ => rfl, fun hmints p' _ => ?_⟩
  · cases hlimit : overDeviceLimit p₁.live registration.relayId deviceId deviceLimit with
    | some limit =>
      rw [hlimit] at he
      exact absurd he (by simp)
    | none =>
      rw [hlimit] at he
      simp only [Except.ok.injEq, Prod.mk.injEq] at he
      obtain ⟨rfl, rfl, -⟩ := he
      rw [hgrace]
      refine ⟨fun hk => ⟨hk.relays, hk.clients, (hk.grants.filter _).insert rfl, hk.relayGrants⟩,
        fun hc => absurd hc (by simp), .grant registration _ hfiled hid hroom,
        fun hcareful hsame => ⟨issueDeviceGrant_edit _ _ _ _ _ ?_, fun hc => absurd hc (by simp)⟩⟩
      have hk := (durable_eq.mp (hsame rfl)).2.2.1 (c.sha256Hex ("dref-" ++ toAsciiLowercase drawn))
      rw [show p.live.grantsByHash[c.sha256Hex ("dref-" ++ toAsciiLowercase drawn)]? = none
        from hcareful] at hk
      exact Option.map_eq_none_iff.mp hk
  · cases mintDeviceWsToken registration.brokerRoomId deviceId <;> rfl
  · have hminted : mintDeviceWsToken registration.brokerRoomId deviceId = .ok () := hroom ▸ hmints
    exact ⟨"dref-" ++ toAsciiLowercase drawn, by simp only [hminted]⟩

theorem issueClientGrant {bearerToken : String} {request : ClientGrantRequest}
    {claimDrawn nonceDrawn : String}
    (r : CallRule c p (env, .issueClientGrant bearerToken request claimDrawn nonceDrawn)
      Before After) :
    After (p.perform c (env, .issueClientGrant bearerToken request claimDrawn nonceDrawn)) := by
  refine r.relayCall fun p₁ registration hp₁ _ _ _ _ => ?_
  dsimp only
  split
  · exact r.idle id _ hp₁
  · split_ifs
    · exact r.idle id _ hp₁
    · exact r.idle id _ (r.withClaims p₁ _ hp₁)
    · exact r.idle id _ (r.withClaims p₁ _ hp₁)

theorem claimClientIdentity {claimId claimSignature drawn : String}
    (r : CallRule c p (env, .claimClientIdentity claimId claimSignature drawn) Before After) :
    After (p.perform c (env, .claimClientIdentity claimId claimSignature drawn)) := by
  have hfailed : ∀ claims e, After ({ p with pendingClientClaims := claims }, .error e) :=
    fun claims e => r.failed _ e (r.withClaims p claims r.start)
  unfold perform PublicControlPlane.claimClientIdentity
  dsimp only
  cases hid : trimmedOptionString (some claimId) with
  | none => exact hfailed p.pendingClientClaims _
  | some id =>
    cases trimmedOptionString (some claimSignature) with
    | none => exact hfailed p.pendingClientClaims _
    | some signature =>
      dsimp only
      rcases htake : p.takeClientClaim env id with ⟨p₁, e | pending⟩
      · obtain ⟨claims, hclaims⟩ := takeClientClaim_state p env id
        rw [htake] at hclaims
        simp only at hclaims
        subst hclaims
        exact hfailed claims e
      · obtain ⟨hpending, -, rfl⟩ := takeClientClaim_eq_ok htake
        rw [trimmedOptionString_eq_some hid] at hpending
        rw [Outcome.andThen_ok]
        split_ifs
        · exact hfailed _ _
        · exact hfailed _ _
        · refine r.transacts _ _ (fun identity => .clientClaim
              { clientId := identity.1, clientRefreshToken := identity.2
                relayId := pending.relayId, brokerRoomId := pending.brokerRoomId
                deviceId := pending.deviceId, relayLabel := pending.relayLabel }) _ _
            (r.withClaims p _ r.start) (fun _ => rfl) (fun next changed a he => ?_)
            ⟨fun _ _ => rfl, fun _ _ _ hb => congrArg _ (Except.ok.inj hb).symm,
              fun _ _ _ => ⟨_, rfl⟩⟩
          simp only [Except.ok.injEq, Prod.mk.injEq] at he
          obtain ⟨rfl, rfl, rfl⟩ := he
          exact .of_edit (grantClaim_edit _ _ _ _) (fun hc => absurd hc (by simp))
            (.claim pending hpending)

theorem rotateClientIdentity {bearerToken drawn : String}
    (r : CallRule c p (env, .rotateClientIdentity bearerToken drawn) Before After) :
    After (p.perform c (env, .rotateClientIdentity bearerToken drawn)) := by
  refine r.clientCall rfl fun p₁ client hp₁ hgrace hfiled => ?_
  obtain ⟨k, row, hrow, hid, hkey⟩ := hfiled
  refine r.plain hp₁ (fun hu => hu.elim) fun next changed a he => ?_
  simp only [Except.ok.injEq, Prod.mk.injEq] at he
  obtain ⟨rfl, rfl, rfl⟩ := he
  rw [hgrace]
  exact .of_edit (rotateClientIdentity_edit _ _ _ _) (fun hc => absurd hc (by simp))
    (.rotate client row k hrow hid hkey)

theorem revokeClientIdentity {bearerToken : String}
    (r : CallRule c p (env, .revokeClientIdentity bearerToken) Before After) :
    After (p.perform c (env, .revokeClientIdentity bearerToken)) := by
  refine r.clientCall rfl fun p₁ client hp₁ _ _ => ?_
  refine r.plain hp₁ (fun hu => hu.elim) fun next changed a he => ?_
  have hsame := (removal_eq_ok he).2
  simp only [Except.ok.injEq, Prod.mk.injEq] at he
  obtain ⟨rfl, -, rfl⟩ := he
  exact .of_edit (removeClient_edit _) hsame (.revokeClient client.clientId)

theorem revokeDeviceGrant {bearerToken relayId brokerRoomId deviceId : String}
    (r : CallRule c p (env, .revokeDeviceGrant bearerToken relayId brokerRoomId deviceId)
      Before After) :
    After (p.perform c (env, .revokeDeviceGrant bearerToken relayId brokerRoomId deviceId)) := by
  refine r.relayCall fun p₁ registration hp₁ _ hid hroom _ => ?_
  subst hid hroom
  refine r.plain hp₁ (fun hu => hu.elim) fun next changed a he => ?_
  simp only [Except.ok.injEq, Prod.mk.injEq] at he
  obtain ⟨rfl, hchanged, rfl⟩ := he
  refine .of_edit (revokeDeviceGrant_edit _ _ _) (fun hc => ?_) .revokeDevice
  rw [hc, Bool.or_eq_false_iff] at hchanged
  have hdevice := of_decide_eq_false hchanged.1
  have hclient := of_decide_eq_false hchanged.2
  exact revokeDeviceGrant_unchanged (by omega) (by omega)

theorem revokeOtherDeviceGrants {bearerToken relayId brokerRoomId keepDeviceId : String}
    (r : CallRule c p
      (env, .revokeOtherDeviceGrants bearerToken relayId brokerRoomId keepDeviceId)
      Before After) :
    After (p.perform c
      (env, .revokeOtherDeviceGrants bearerToken relayId brokerRoomId keepDeviceId)) := by
  refine r.relayCall fun p₁ registration hp₁ _ hid hroom _ => ?_
  subst hid hroom
  refine r.plain hp₁ (fun hu => hu.elim) fun next changed a he => ?_
  simp only [Except.ok.injEq, Prod.mk.injEq] at he
  obtain ⟨rfl, hchanged, rfl⟩ := he
  have hnone : changed = false → (p₁.live.removeAllOtherDeviceGrants registration.relayId
      registration.brokerRoomId keepDeviceId).2 = [] := fun hc => by
    rwa [hc, Bool.not_eq_false', List.isEmpty_iff] at hchanged
  have hedit := revokeOtherDeviceGrants_edit (s := p₁.live) registration.relayId
    registration.brokerRoomId keepDeviceId
  refine ⟨hedit.keyed, fun hc => ⟨rfl, rfl, fun k => ?_⟩, .revokeOthers,
    fun hcareful hsame => ⟨hedit, fun hc => ?_⟩⟩
  · simp only [removeAllOtherClientRelayGrants, removeAllOtherDeviceGrants,
      collectRemovedDeviceIds_fst (hnone hc)]
  · exact revokeOtherDeviceGrants_unchanged (hnone hc)
      fun hdrops => hcareful (hdrops.of_durable (hsame rfl))

theorem issueDeviceWsToken {bearerToken : String} {expectedRoom : Option String}
    (r : CallRule c p (env, .issueDeviceWsToken bearerToken expectedRoom) Before After) :
    After (p.perform c (env, .issueDeviceWsToken bearerToken expectedRoom)) := by
  have hbefore := r.device bearerToken expectedRoom rfl
  have htouch := r.touch bearerToken expectedRoom
  refine r.idle id _ ?_
  simp only [PublicControlPlane.perform, reply, issueDeviceWsTokenInner]
  rcases hr : p.deviceGrantFromRefreshTokenScoped c.sha256Hex env bearerToken expectedRoom with
    ⟨p₁, e | ⟨primaryHash, grant⟩⟩
  · rw [hr] at hbefore
    exact hbefore
  · rw [hr] at hbefore
    rw [Outcome.andThen_ok]
    dsimp only
    split_ifs with hseen
    · exact htouch p₁ primaryHash grant rfl hr hseen
    · exact hbefore

theorem perform (r : CallRule c p op Before After)
    (hrestart : ∀ registrations, op.2 ≠ .restart registrations) : After (p.perform c op) := by
  obtain ⟨env, op⟩ := op
  cases op with
  | issueRelayRegistration => exact r.issueRelayRegistration
  | authenticateRelayBearer bearer relayId room => exact r.idle id _ (r.relay bearer relayId room)
  | issueDeviceGrant => exact r.issueDeviceGrant
  | issueClientGrant => exact r.issueClientGrant
  | claimClientIdentity => exact r.claimClientIdentity
  | issueClientSession bearer => exact r.idle id _ (r.client bearer rfl)
  | rotateClientIdentity => exact r.rotateClientIdentity
  | revokeClientIdentity => exact r.revokeClientIdentity
  | issueDeviceSession bearer room =>
    have hsame := answer_fst (p.deviceGrantFromRefreshTokenScoped c.sha256Hex env bearer room)
      (f := fun p' found => (p', .ok found.2)) fun _ _ => rfl
    exact r.idle id _ (hsame ▸ r.device bearer room rfl)
  | issueDeviceWsToken => exact r.issueDeviceWsToken
  | revokeDeviceGrant => exact r.revokeDeviceGrant
  | revokeOtherDeviceGrants => exact r.revokeOtherDeviceGrants
  | restart registrations => exact absurd rfl (hrestart registrations)

end CallRule

variable {P P' Q : PublicControlStateStore → Prop}

/-- What the edits of an operation make of records with one property has another. -/
def Carries (c : Crypto) (p : PublicControlPlane) (op : Env × ControlOp)
    (P P' : PublicControlStateStore → Prop) : Prop :=
  ∀ reply s next, s.Keyed → P s → (Unlocked op.2 → s = p.live) → p.Writes c op reply s next →
    P' next

/-- The premises of the step rule: the edits of the operation take the one property to the
other, and neither looks at what a renewal changes. -/
structure Rule (c : Crypto) (p : PublicControlPlane) (op : Env × ControlOp)
    (P P' Q : PublicControlStateStore → Prop) : Prop where
  before : Stable P
  after : Stable P'
  stored : Stable Q
  weaken : ∀ s, P' s → Q s
  mono : ∀ s, P s → P' s
  carries : Carries c p op P P'

theorem Rule.calls (r : Rule c p op P P' Q) (h : Kept P Q p) :
    CallRule c p op (Kept P Q) fun outcome => Kept P' Q outcome.1 := by
  have hweaken : ∀ s, P s → Q s := fun s hs => r.weaken s (r.mono s hs)
  have hdevice := fun bearerToken expectedRoom =>
    (h.deviceGrantFromRefreshTokenScoped c.sha256Hex r.before hweaken op.1 bearerToken
      expectedRoom).kept
  exact
    { kept := { h with state := trivial, database := fun _ => trivial, stored := trivial }
      start := h
      relay := fun bearerToken relayId brokerRoomId =>
        (h.authenticateRelay c.sha256Hex op.1 bearerToken relayId brokerRoomId).kept
      client := fun bearerToken _ =>
        (h.authenticateClient c.sha256Hex r.before hweaken op.1 bearerToken).kept
      device := fun bearerToken expectedRoom _ => hdevice bearerToken expectedRoom
      touch := fun bearerToken expectedRoom p₁ primaryHash grant _ hr _ => by
        have hp₁ := hdevice bearerToken expectedRoom
        rw [hr] at hp₁
        exact hp₁.touchDeviceLastSeen r.before r.stored op.1 primaryHash
      withClaims := fun p₁ claims hp₁ => hp₁.withClaims claims
      idle := fun _ _ hp₁ => hp₁.mono r.mono
      failed := fun _ _ hp₁ => hp₁.mono r.mono
      transacts := fun p₁ edit tell answer g hp₁ hlive hedit htells => by
        have hafter := answer_fst (p₁.transact op.1 edit) htells.plane
        refine hafter ▸ (hp₁.transact op.1 r.after r.weaken r.mono fun next changed a he => ?_).1
        have hinscribed := hedit next changed a he
        exact ⟨hinscribed.keyed hp₁.live.2,
          r.carries _ _ next hp₁.live.2 hp₁.live.1 hlive hinscribed.writes,
          fun hc => ⟨(hinscribed.same hc).relays, (hinscribed.same hc).clients⟩⟩ }

/-- The rule of the control plane for a property of its records: what every edit makes has it,
and so has every copy after every operation but a restart. -/
theorem Rule.step (r : Rule c p op P P' Q) (h : Kept P Q p)
    (hrestart : ∀ registrations, op.2 ≠ .restart registrations) : Kept P' Q (p.step c op) :=
  (r.calls h).perform hrestart

theorem Kept.reopened (h : Kept P Q p) (hloaded : P' p.reopened.state) :
    Kept P' Q p.reopened := by
  have hkeyed : p.reopened.state.Keyed := by
    unfold PublicControlPlane.reopened
    dsimp only
    split_ifs
    · exact keyed_empty
    · exact h.keyedPersisted
  have hpostgres : p.isPostgres → p.reopened.state = p.persisted := fun hp =>
    if_neg (isPostgres_ne_inMemory hp)
  exact
    { keyed := hkeyed, keyedPersisted := h.keyedPersisted
      snapshot := fun hp _ => congrArg _ (hpostgres hp)
      settled := fun _ => rfl
      agree := fun hp _ => by
        rw [hpostgres hp]
        exact ⟨rfl, rfl⟩
      state := hloaded, database := fun hp => hpostgres hp ▸ hloaded, stored := h.stored }

/-- A restart cannot load its records, finds nothing to seed, or saves what it has seeded. -/
theorem restart_cases (p : PublicControlPlane) (c : Crypto) (env : Env)
    (registrations : List RelayRegistrationConfig) :
    (p.persistence ≠ .inMemory ∧
      ∃ e, p.perform c (env, .restart registrations) = (p.reopened, .error e)) ∨
    ((p.reopened.state.seedRelayRegistrations c.sha256Hex registrations).1 = p.reopened.state ∧
      p.perform c (env, .restart registrations) = (p.reopened, .ok .done)) ∨
    p.perform c (env, .restart registrations) =
      reply (PublicControlPlane.save
        { p.reopened with
          state := (p.reopened.state.seedRelayRegistrations c.sha256Hex registrations).1 }
        env.write) fun _ => .done := by
  have hsame := (seedRelayRegistrations_edit c.sha256Hex p.reopened.state registrations).2
  simp only [PublicControlPlane.perform, reply, PublicControlPlane.fromParts]
  generalize p.reopened.state.seedRelayRegistrations c.sha256Hex registrations = seeded at *
  obtain ⟨next, changed⟩ := seeded
  cases hload : (if p.persistence = .inMemory then none else env.authLoadError) with
  | some e =>
    refine Or.inl ⟨fun hmem => ?_, e, rfl⟩
    rw [if_pos hmem] at hload
    exact absurd hload (by simp)
  | none =>
    cases changed with
    | false =>
      obtain rfl : next = p.reopened.state := hsame rfl
      exact Or.inr (Or.inl ⟨rfl, rfl⟩)
    | true => exact Or.inr (Or.inr rfl)

/-- The rule for a restart: what was stored, and what seeding makes of it, has the property. -/
theorem Kept.restart (hP' : Stable P') (hPQ : ∀ s, P' s → Q s) (h : Kept P Q p)
    (registrations : List RelayRegistrationConfig) (hloaded : P' p.reopened.state)
    (hseeded : P' (p.reopened.state.seedRelayRegistrations c.sha256Hex registrations).1) :
    Kept P' Q (p.step c (env, .restart registrations)) := by
  have hreopened := h.reopened hloaded
  have hnext := (seedRelayRegistrations_edit c.sha256Hex p.reopened.state registrations).1.keyed
    hreopened.keyed
  unfold PublicControlPlane.step
  rcases p.restart_cases c env registrations with ⟨-, e, hr⟩ | ⟨-, hr⟩ | hr
  · rw [hr]
    exact hreopened
  · rw [hr]
    exact hreopened
  · rw [hr]
    exact (hreopened.save hP' hPQ rfl hnext hseeded env.write).1

end PublicControlPlane

end AgentRelay.Control
