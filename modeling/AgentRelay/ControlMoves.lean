import AgentRelay.ControlRows

/-! What one operation of the control plane does to the records that are read next: it may
renew the superseded token its caller came with, and then make its edit. -/
namespace AgentRelay.Control
open Text RecordTables Std

namespace PublicControlPlane
open PublicControlStateStore

variable {p p' : PublicControlPlane} {next : PublicControlStateStore} {env : Env} {c : Crypto}
  {op : Env × ControlOp}

/-- What letting a caller in does to the records: a superseded token that it came with, in the
room its grant is for, may be renewed. -/
inductive Renewal (c : Crypto) (graceSecs : Nat) (op : Env × ControlOp)
    (s : PublicControlStateStore) : PublicControlStateStore → Prop
  | none {u} (h : SameRows s u) : Renewal c graceSecs op s u
  | client {u bearerToken k row} (hop : op.2.clientBearer? = some bearerToken)
      (hfind : findClientIdentityForToken s (c.sha256Hex (trim bearerToken)) op.1.authNow =
        some (k, row))
      (hk : k ≠ c.sha256Hex (trim bearerToken))
      (h : SameRows (s.renewClient k (c.sha256Hex (trim bearerToken)) op.1.authNow graceSecs) u) :
      Renewal c graceSecs op s u
  | grant {u bearerToken expectedRoom k row}
      (hop : op.2.deviceBearer? = some (bearerToken, expectedRoom))
      (hfind : findDeviceGrantForToken s (c.sha256Hex (trim bearerToken)) op.1.authNow =
        some (k, row))
      (hroom : expectedRoom.any (row.brokerRoomId ≠ ·) = false)
      (hk : k ≠ c.sha256Hex (trim bearerToken))
      (h : SameRows (s.renewGrant k (c.sha256Hex (trim bearerToken)) op.1.authNow graceSecs) u) :
      Renewal c graceSecs op s u

/-- The renewal, and then perhaps the edit of the operation. -/
def Moves (c : Crypto) (p : PublicControlPlane) (op : Env × ControlOp)
    (s u : PublicControlStateStore) : Prop :=
  ∃ t, Renewal c p.rotationGraceSecs op s t ∧ (SameRows t u ∨
    ∃ t' next reply, SameRows t t' ∧ p.Writes c op reply t' next ∧ SameRows next u)

structure Leads (c : Crypto) (p : PublicControlPlane) (op : Env × ControlOp)
    (p' : PublicControlPlane) : Prop where
  aligned : Aligned p'
  moves : p.Moves c op p.live p'.live

theorem Leads.of_renewal (h : Aligned p') (hren : Renewal c p.rotationGraceSecs op p.live p'.live) :
    Leads c p op p' := ⟨h, _, hren, Or.inl (SameRows.refl _)⟩

theorem Renewal.trans {graceSecs : Nat} {s t u : PublicControlStateStore}
    (h : Renewal c graceSecs op s t) (h' : SameRows t u) : Renewal c graceSecs op s u := by
  cases h with
  | none h => exact .none (h.trans h')
  | client hop hfind hk h => exact .client hop hfind hk (h.trans h')
  | grant hop hfind hroom hk h => exact .grant hop hfind hroom hk (h.trans h')

theorem Aligned.authenticateRelay (h : Aligned p) (sha256Hex : String → String) (env : Env)
    (bearerToken relayId brokerRoomId : String) :
    Aligned (p.authenticateRelay sha256Hex env bearerToken relayId brokerRoomId).1 ∧
      SameRows p.live
        (p.authenticateRelay sha256Hex env bearerToken relayId brokerRoomId).1.live := by
  unfold PublicControlPlane.authenticateRelay
  dsimp only
  rw [andThen_assoc]
  obtain ⟨p₁, haligned, hrows, -, ⟨e, hr⟩ | ⟨-, -, hr⟩⟩ := h.lockLookup env.authLoadError
    env.missLoadError (·.relayRegistrationsByHash[sha256Hex (trim bearerToken)]?)
  · rw [hr]
    exact ⟨haligned, hrows⟩
  · rw [hr, Outcome.andThen_ok]
    split
    · exact ⟨haligned, hrows⟩
    · split_ifs <;> exact ⟨haligned, hrows⟩

theorem Aligned.authenticateClient (h : Aligned p) (op : Env × ControlOp) {bearerToken : String}
    (hop : op.2.clientBearer? = some bearerToken) :
    Aligned (p.authenticateClient c.sha256Hex op.1 bearerToken).1 ∧
      Renewal c p.rotationGraceSecs op p.live
        (p.authenticateClient c.sha256Hex op.1 bearerToken).1.live := by
  unfold PublicControlPlane.authenticateClient
  dsimp only
  rw [andThen_assoc]
  obtain ⟨p₁, haligned, hrows, hgrace, ⟨e, hr⟩ | ⟨hstate, hready, hr⟩⟩ :=
    h.lockLookup op.1.authLoadError op.1.missLoadError
      (findClientIdentityForToken · (c.sha256Hex (trim bearerToken)) op.1.authNow)
  · rw [hr]
    exact ⟨haligned, .none hrows⟩
  · rw [hr, Outcome.andThen_ok]
    split
    · exact ⟨haligned, .none hrows⟩
    · rename_i k row hfound
      dsimp only
      split_ifs with hk
      · obtain ⟨hrenewed, hsame | hsame⟩ := haligned.renewClientGrace hready op.1 k
          (c.sha256Hex (trim bearerToken))
        · exact ⟨hrenewed, .none (hrows.trans hsame)⟩
        · have hfind : findClientIdentityForToken p.live (c.sha256Hex (trim bearerToken))
              op.1.authNow = some (k, row) := by
            unfold findClientIdentityForToken at hfound ⊢
            rw [← hstate.clients]
            exact hfound
          exact ⟨hrenewed, .client hop hfind hk
            ((hstate.renewClient k (c.sha256Hex (trim bearerToken)) op.1.authNow
              p.rotationGraceSecs).trans (hgrace ▸ hsame))⟩
      · exact ⟨haligned, .none hrows⟩

theorem Aligned.deviceGrantFromRefreshTokenScoped (h : Aligned p) {bearerToken : String}
    {expectedRoom : Option String} (hop : op.2.deviceBearer? = some (bearerToken, expectedRoom)) :
    Aligned (p.deviceGrantFromRefreshTokenScoped c.sha256Hex op.1 bearerToken expectedRoom).1 ∧
      Renewal c p.rotationGraceSecs op p.live
        (p.deviceGrantFromRefreshTokenScoped c.sha256Hex op.1 bearerToken
          expectedRoom).1.live := by
  unfold PublicControlPlane.deviceGrantFromRefreshTokenScoped
  dsimp only
  rw [andThen_assoc]
  obtain ⟨p₁, haligned, hrows, hgrace, ⟨e, hr⟩ | ⟨hstate, hready, hr⟩⟩ :=
    h.lockLookup op.1.authLoadError op.1.missLoadError
      (findDeviceGrantForToken · (c.sha256Hex (trim bearerToken)) op.1.authNow)
  · rw [hr]
    exact ⟨haligned, .none hrows⟩
  · rw [hr, Outcome.andThen_ok]
    split
    · exact ⟨haligned, .none hrows⟩
    · rename_i k row hfound
      split_ifs with hroom hk
      · exact ⟨haligned, .none hrows⟩
      · obtain ⟨hrenewed, hsame | hsame⟩ := haligned.renewDeviceGrace hready op.1 k
          (c.sha256Hex (trim bearerToken))
        · exact ⟨hrenewed, .none (hrows.trans hsame)⟩
        · obtain ⟨row', hfound', hunseen⟩ := hstate.findDeviceGrantForToken hfound
          have hroom' : row'.brokerRoomId = row.brokerRoomId := congrArg (·.brokerRoomId) hunseen
          have hright : expectedRoom.any (row'.brokerRoomId ≠ ·) = false := by
            rw [hroom']
            exact Bool.not_eq_true _ ▸ hroom
          exact ⟨hrenewed, .grant hop hfound' hright hk
            ((hstate.renewGrant k (c.sha256Hex (trim bearerToken)) op.1.authNow
              p.rotationGraceSecs).trans (hgrace ▸ hsame))⟩
      · exact ⟨haligned, .none hrows⟩

theorem Aligned.withClaims (h : Aligned p) (claims : Table PendingClientClaim) :
    Aligned { p with pendingClientClaims := claims } :=
  ⟨h.kept.withClaims claims, h.agree⟩

/-- What every operation but a restart needs of an aligned plane, and does to it. -/
theorem Aligned.calls (h : Aligned p) :
    CallRule c p op
      (fun p₁ => Aligned p₁ ∧ Renewal c p.rotationGraceSecs op p.live p₁.live)
      fun outcome => Leads c p op outcome.1 where
  kept := h.kept
  start := ⟨h, .none (SameRows.refl _)⟩
  relay bearerToken relayId brokerRoomId := by
    obtain ⟨haligned, hrows⟩ :=
      h.authenticateRelay c.sha256Hex op.1 bearerToken relayId brokerRoomId
    exact ⟨haligned, .none hrows⟩
  client _ hop := h.authenticateClient op hop
  device _ _ hop := h.deviceGrantFromRefreshTokenScoped hop
  touch bearerToken expectedRoom p₁ primaryHash grant hop hr _ := by
    obtain ⟨haligned, hren⟩ := h.deviceGrantFromRefreshTokenScoped (c := c) hop
    rw [hr] at haligned hren
    obtain ⟨htouched, hrows⟩ := haligned.touchDeviceLastSeen op.1 primaryHash
    exact ⟨htouched, hren.trans hrows⟩
  withClaims _ claims hp₁ := ⟨hp₁.1.withClaims claims, hp₁.2⟩
  idle _ _ hp₁ := Leads.of_renewal hp₁.1 hp₁.2
  failed _ _ hp₁ := Leads.of_renewal hp₁.1 hp₁.2
  transacts p₁ edit tell answer g hp₁ _ hedit htells := by
    have hafter := answer_fst (p₁.transact op.1 edit) htells.plane
    obtain ⟨haligned, hrows⟩ := hp₁.1.transact op.1 fun next changed a he =>
      ⟨(hedit next changed a he).keyed hp₁.1.kept.live.2, (hedit next changed a he).same⟩
    rw [← hafter] at haligned hrows
    refine ⟨haligned, p₁.live, hp₁.2, hrows.imp id ?_⟩
    rintro ⟨next, changed, a, he, hsame⟩
    exact ⟨p₁.live, next, tell a, SameRows.refl _, (hedit next changed a he).writes, hsame⟩

theorem Aligned.step (h : Aligned p) (hrestart : ∀ registrations, op.2 ≠ .restart registrations) :
    Leads c p op (p.step c op) :=
  h.calls.perform hrestart

theorem aligned_fresh (backend : Backend) (rotationGraceSecs : Nat) :
    Aligned (fresh backend rotationGraceSecs) :=
  ⟨kept_fresh trivial trivial backend rotationGraceSecs, fun _ _ => SameRows.refl _⟩

theorem Aligned.reopened (h : Aligned p) : Aligned p.reopened := by
  refine ⟨h.kept.reopened trivial, fun hp _ => ?_⟩
  rw [show p.reopened.state = p.persisted from if_neg (isPostgres_ne_inMemory (p := p) hp)]
  exact SameRows.refl _

theorem Aligned.restart (h : Aligned p) (env : Env)
    (registrations : List RelayRegistrationConfig) :
    Aligned (p.step c (env, .restart registrations)) := by
  have hreopened := h.reopened
  have hnext := (seedRelayRegistrations_edit c.sha256Hex p.reopened.state registrations).1.keyed
    hreopened.kept.keyed
  unfold PublicControlPlane.step
  rcases p.restart_cases c env registrations with ⟨-, e, hr⟩ | ⟨-, hr⟩ | hr
  · rw [hr]
    exact hreopened
  · rw [hr]
    exact hreopened
  · rw [hr]
    exact (hreopened.save rfl hnext env.write).1

end PublicControlPlane

end AgentRelay.Control
