import AgentRelay.ControlAtomic

/-! The claims a client has to prove: a relay attests a key, and the attestation waits in
memory until the owner of the key signs for it, or until it expires. -/
namespace AgentRelay.Control
open Text RecordTables Std

namespace PublicControlPlane
open PublicControlStateStore

variable {p p' : PublicControlPlane} {c : Crypto} {env : Env} {op : Env × ControlOp}

/-- The operations that touch the pending claims; the last of them forgets them all. -/
def SpeaksOfClaims : ControlOp → Prop
  | .issueClientGrant _ _ _ _ | .claimClientIdentity _ _ _ | .restart _ => True
  | _ => False

theorem fixed_renewDeviceGrace (p : PublicControlPlane) (env : Env)
    (primaryHash tokenHash : String) : Fixed p (p.renewDeviceGrace env primaryHash tokenHash) := by
  unfold PublicControlPlane.renewDeviceGrace
  split
  · exact Fixed.refl p
  · dsimp only
    split_ifs
    · refine Fixed.trans ?_ (fixed_save _ _)
      exact ⟨rfl, rfl, rfl⟩
    · exact ⟨rfl, rfl, rfl⟩

theorem fixed_deviceGrantFromRefreshTokenScoped (p : PublicControlPlane)
    (sha256Hex : String → String) (env : Env) (bearerToken : String)
    (expectedRoom : Option String) :
    Fixed p (p.deviceGrantFromRefreshTokenScoped sha256Hex env bearerToken expectedRoom).1 := by
  refine (loads_lockState p _).toFixed.andThen fun p₁ _ =>
    (loads_lookup p₁ _ _).toFixed.andThen fun p₂ found => ?_
  split
  · exact Fixed.refl p₂
  · split_ifs
    · exact Fixed.refl p₂
    · exact fixed_renewDeviceGrace p₂ env _ _
    · exact Fixed.refl p₂

theorem fixed_touchDeviceLastSeen (p : PublicControlPlane) (env : Env) (primaryHash : String) :
    Fixed p (p.touchDeviceLastSeen env primaryHash) := by
  unfold PublicControlPlane.touchDeviceLastSeen
  dsimp only
  split_ifs <;> exact ⟨rfl, rfl, rfl⟩

/-- An operation that does not speak of claims leaves them as they are. -/
theorem fixed_step (h : ¬ SpeaksOfClaims op.2) : Fixed p (p.step c op) := by
  obtain ⟨env, op⟩ := op
  unfold PublicControlPlane.step perform reply
  cases op with
  | issueRelayRegistration key label draws drawn => exact fixed_transact p env _
  | authenticateRelayBearer bearer relayId room =>
    exact (loads_authenticateRelay p c.sha256Hex env bearer relayId room).toFixed
  | issueDeviceGrant bearer relayId room deviceId limit drawn =>
    unfold PublicControlPlane.issueDeviceGrant
    refine (loads_authenticateRelay p c.sha256Hex env bearer relayId room).toFixed.andThen
      fun p₁ registration => (fixed_transact p₁ env _).andThen fun p₂ _ => ?_
    cases mintDeviceWsToken registration.brokerRoomId deviceId <;> exact Fixed.refl p₂
  | issueClientGrant => exact absurd trivial h
  | claimClientIdentity => exact absurd trivial h
  | issueClientSession bearer => exact fixed_authenticateClient p c.sha256Hex env bearer
  | rotateClientIdentity bearer drawn =>
    unfold PublicControlPlane.rotateClientIdentity
    exact (fixed_authenticateClient p c.sha256Hex env bearer).andThen
      fun p₁ client => fixed_transact p₁ env _
  | revokeClientIdentity bearer =>
    unfold PublicControlPlane.revokeClientIdentity
    exact (fixed_authenticateClient p c.sha256Hex env bearer).andThen
      fun p₁ client => fixed_transact p₁ env _
  | issueDeviceSession bearer room =>
    unfold issueDeviceSessionInner
    exact (fixed_deviceGrantFromRefreshTokenScoped p c.sha256Hex env bearer room).andThen
      fun p₁ found => Fixed.refl p₁
  | issueDeviceWsToken bearer room =>
    unfold issueDeviceWsTokenInner
    refine (fixed_deviceGrantFromRefreshTokenScoped p c.sha256Hex env bearer room).andThen
      fun p₁ found => ?_
    dsimp only
    split_ifs
    · exact fixed_touchDeviceLastSeen p₁ env found.1
    · exact Fixed.refl p₁
  | revokeDeviceGrant bearer relayId room deviceId =>
    unfold PublicControlPlane.revokeDeviceGrant
    exact (loads_authenticateRelay p c.sha256Hex env bearer relayId room).toFixed.andThen
      fun p₁ registration => fixed_transact p₁ env _
  | revokeOtherDeviceGrants bearer relayId room keep =>
    unfold PublicControlPlane.revokeOtherDeviceGrants
    exact (loads_authenticateRelay p c.sha256Hex env bearer relayId room).toFixed.andThen
      fun p₁ registration => fixed_transact p₁ env _
  | restart => exact absurd trivial h

theorem claims_fromParts (p : PublicControlPlane) (sha256Hex : String → String) (env : Env)
    (registrations : List RelayRegistrationConfig) :
    (p.fromParts sha256Hex env registrations).1.pendingClientClaims = ∅ := by
  unfold PublicControlPlane.fromParts
  split
  · rfl
  · dsimp only
    split_ifs
    · exact (fixed_save _ env.write).claims
    · rfl

theorem takeClientClaim_claims (p : PublicControlPlane) (env : Env) (claimId : String) :
    (p.takeClientClaim env claimId).1.pendingClientClaims =
      (p.pendingClientClaims.filter fun _ claim =>
        env.pruneNow < claim.expiresAt).erase claimId := by
  unfold takeClientClaim
  dsimp only
  split
  · rename_i hnone
    apply ExtTreeMap.ext_getElem?
    intro k
    rw [Table.getElem?_erase_of]
    split_ifs with hk
    · rw [hk]
      exact hnone
    · rfl
  · rfl

theorem claimClientIdentity_claims (p : PublicControlPlane) (c : Crypto) (env : Env)
    (claimId claimSignature drawn : String) :
    (p.claimClientIdentity c.sha256Hex c.verifies env claimId claimSignature
      drawn).1.pendingClientClaims =
      match trimmedOptionString (some claimId), trimmedOptionString (some claimSignature) with
      | some id, some _ =>
        (p.pendingClientClaims.filter fun _ claim => env.pruneNow < claim.expiresAt).erase id
      | _, _ => p.pendingClientClaims := by
  unfold PublicControlPlane.claimClientIdentity
  cases trimmedOptionString (some claimId) with
  | none => rfl
  | some id =>
    cases trimmedOptionString (some claimSignature) with
    | none => rfl
    | some signature =>
      dsimp only
      have htaken := takeClientClaim_claims p env id
      rcases hr : p.takeClientClaim env id with ⟨p₁, e | pending⟩
      · rw [hr] at htaken
        exact htaken
      · rw [hr] at htaken
        rw [Outcome.andThen_ok]
        split_ifs
        · exact htaken
        · exact htaken
        · have hfixed : Fixed p₁ ((p₁.transact env fun s =>
              let granted := grantClaim c.sha256Hex s env p₁.rotationGraceSecs pending drawn
              .ok (granted.1, true, granted.2)).andThen fun p identity =>
                (p, Except.ok (ClientClaimResponse.mk identity.1 identity.2 pending.relayId
                  pending.brokerRoomId pending.deviceId pending.relayLabel))).1 :=
            (fixed_transact p₁ env _).andThen fun p₂ _ => Fixed.refl p₂
          exact hfixed.claims.trans htaken

/-- The call presents this claim: it names its id, and brings a signature of some kind. -/
def Presents (claimId : String) : ControlOp → Prop
  | .claimClientIdentity presented claimSignature _ =>
    trimmedOptionString (some presented) = some claimId ∧
      trimmedOptionString (some claimSignature) ≠ none
  | _ => False

structure Attests (c : Crypto) (p : PublicControlPlane) (op : Env × ControlOp)
    (claimId : String) (pending : PendingClientClaim) : Prop where
  key : ∃ bearerToken request claimDrawn nonceDrawn,
    op.2 = .issueClientGrant bearerToken request claimDrawn nonceDrawn ∧
    trimmedOptionString (some request.clientVerifyKey) = some pending.clientVerifyKey
  answered : (p.perform c op).2 = .ok (.clientGrant
    { claimId := claimId, claimNonce := pending.nonce, claimExpiresAt := pending.expiresAt
      relayId := pending.relayId, brokerRoomId := pending.brokerRoomId
      deviceId := pending.deviceId, relayLabel := pending.relayLabel })

/-- What a grant makes of the claims: nothing that was not pending is pending after it but the
claim made out for the relay it let in, and there are never more of them than fit. -/
theorem issueClientGrant_cases (p : PublicControlPlane) (c : Crypto) (env : Env)
    (bearerToken : String) (request : ClientGrantRequest) (claimDrawn nonceDrawn : String) :
    ∃ p₁ claims, Loads p p₁ ∧
      (p.authenticateRelay c.sha256Hex env bearerToken request.relayId
        request.brokerRoomId).1 = p₁ ∧
      (p.issueClientGrant c.sha256Hex c.validVerifyKey env bearerToken request claimDrawn
        nonceDrawn).1 = { p₁ with pendingClientClaims := claims } ∧
      (p₁.pendingClientClaims.size ≤ maxPendingClientClaims →
        claims.size ≤ maxPendingClientClaims) ∧
      ∀ claimId pending, claims[claimId]? = some pending →
        p₁.pendingClientClaims[claimId]? = some pending ∨
          (∃ registration, registration.relayId = pending.relayId ∧
            p.authenticateRelay c.sha256Hex env bearerToken request.relayId
              request.brokerRoomId = (p₁, .ok registration)) ∧
            Attests c p (env, .issueClientGrant bearerToken request claimDrawn nonceDrawn) claimId
              pending := by
  have hloads := loads_authenticateRelay p c.sha256Hex env bearerToken request.relayId
    request.brokerRoomId
  have hanswer : p.perform c (env, .issueClientGrant bearerToken request claimDrawn nonceDrawn) =
      reply (p.issueClientGrant c.sha256Hex c.validVerifyKey env bearerToken request claimDrawn
        nonceDrawn) .clientGrant := rfl
  unfold PublicControlPlane.issueClientGrant at hanswer ⊢
  rcases hauth : p.authenticateRelay c.sha256Hex env bearerToken request.relayId
    request.brokerRoomId with ⟨p₁, e | registration⟩
  · rw [hauth] at hloads
    exact ⟨p₁, _, hloads, rfl, rfl, id, fun _ _ => Or.inl⟩
  · rw [hauth] at hloads hanswer
    rw [Outcome.andThen_ok] at hanswer ⊢
    cases hkey : trimmedOptionString (some request.clientVerifyKey) with
    | none => exact ⟨p₁, _, hloads, rfl, rfl, id, fun _ _ => Or.inl⟩
    | some clientVerifyKey =>
      simp only [hkey] at hanswer ⊢
      have hpruned : ∀ (claimId : String) (pending : PendingClientClaim),
          (p₁.pendingClientClaims.filter fun _ claim =>
            decide (env.pruneNow < claim.expiresAt))[claimId]? = some pending →
          p₁.pendingClientClaims[claimId]? = some pending :=
        fun claimId pending h => (getElem?_of_filter h).1
      split_ifs at hanswer ⊢ with hvalid hfull
      · exact ⟨p₁, _, hloads, rfl, rfl, id, fun _ _ => Or.inl⟩
      · exact ⟨p₁, _, hloads, rfl, rfl, ExtTreeMap.size_filter_le_size.trans,
          fun k pending h => Or.inl (hpruned k pending h)⟩
      · refine ⟨p₁, _, hloads, rfl, rfl, fun _ => ?_, fun claimId pending h => ?_⟩
        · refine ExtTreeMap.size_insert_le.trans ?_
          omega
        · rw [Table.getElem?_insert_of] at h
          split_ifs at h with hid
          · obtain rfl := Option.some.inj h
            refine Or.inr ⟨⟨registration, rfl, rfl⟩, ⟨_, _, _, _, rfl, hkey⟩, ?_⟩
            rw [hanswer, hid]
            rfl
          · exact Or.inl (hpruned claimId pending h)

theorem claims_step {claimId : String} {pending : PendingClientClaim}
    (h : (p.step c op).pendingClientClaims[claimId]? = some pending) :
    Attests c p op claimId pending ∨
      (p.pendingClientClaims[claimId]? = some pending ∧ ¬ Presents claimId op.2) := by
  by_cases hclaims : SpeaksOfClaims op.2
  · obtain ⟨env, op⟩ := op
    cases op with
    | issueClientGrant bearerToken request claimDrawn nonceDrawn =>
      obtain ⟨p₁, claims, hloads, -, heq, -, hclaims⟩ :=
        issueClientGrant_cases p c env bearerToken request claimDrawn nonceDrawn
      have hafter : claims[claimId]? = some pending := by
        rw [← h]
        exact congrArg (·.pendingClientClaims[claimId]?) heq.symm
      rcases hclaims claimId pending hafter with hbefore | ⟨-, hattests⟩
      · exact Or.inr ⟨hloads.claims ▸ hbefore, id⟩
      · exact Or.inl hattests
    | claimClientIdentity presented claimSignature drawn =>
      refine Or.inr ?_
      have hafter := h
      rw [step_claimClientIdentity, claimClientIdentity_claims] at hafter
      cases hid : trimmedOptionString (some presented) with
      | none =>
        rw [hid] at hafter
        exact ⟨hafter, fun hpresents => absurd (hid.symm.trans hpresents.1) (by simp)⟩
      | some id =>
        cases hsignature : trimmedOptionString (some claimSignature) with
        | none =>
          rw [hid, hsignature] at hafter
          exact ⟨hafter, fun hpresents => hpresents.2 hsignature⟩
        | some signature =>
          rw [hid, hsignature] at hafter
          simp only [Table.getElem?_erase_of, Table.getElem?_filter] at hafter
          split_ifs at hafter with hne
          exact ⟨(Option.filter_eq_some_iff.mp hafter).1,
            fun hpresents => hne (Option.some.inj (hid.symm.trans hpresents.1)).symm⟩
    | restart registrations =>
      have hafter : (p.fromParts c.sha256Hex env
          registrations).1.pendingClientClaims[claimId]? = some pending := h
      rw [claims_fromParts] at hafter
      exact absurd hafter (by simp)
    | _ => exact absurd hclaims id
  · refine Or.inr ⟨?_, fun hpresents => hclaims ?_⟩
    · rw [← (fixed_step (c := c) hclaims).claims]
      exact h
    · obtain ⟨env, op⟩ := op
      cases op with
      | claimClientIdentity => trivial
      | _ => exact hpresents.elim

/-- A pending claim of a run was attested in it, and nobody has presented it since. -/
theorem attested_of_pending (c : Crypto) (backend : Backend) (rotationGraceSecs : Nat)
    {ops : List (Env × ControlOp)} {claimId : String} {pending : PendingClientClaim}
    (h : (StepRun.run (step c) (fresh backend rotationGraceSecs)
      ops).pendingClientClaims[claimId]? = some pending) :
    ∃ earlier attestation between, ops = earlier ++ attestation :: between ∧
      Attests c (StepRun.run (step c) (fresh backend rotationGraceSecs) earlier) attestation
        claimId pending ∧
      ∀ op ∈ between, ¬ Presents claimId op.2 := by
  induction ops using List.reverseRecOn with
  | nil => exact absurd h (by simp [fresh])
  | append_singleton ops op ih =>
    rw [StepRun.run_concat] at h
    rcases claims_step h with hattests | ⟨hbefore, hpresents⟩
    · exact ⟨ops, op, [], rfl, hattests, by simp⟩
    · obtain ⟨earlier, attestation, between, rfl, hattests, hbetween⟩ := ih hbefore
      refine ⟨earlier, attestation, between ++ [op], by simp, hattests, fun op' hop' => ?_⟩
      rcases List.mem_append.mp hop' with hin | hlast
      · exact hbetween op' hin
      · rw [List.mem_singleton.mp hlast]
        exact hpresents

theorem save_state_of_ok {w : WriteOutcome} (h : p.save w = (p', .ok ())) :
    p'.state = p.state := by
  unfold PublicControlPlane.save at h
  split at h
  · rw [← (Prod.mk.inj h).1]
  · unfold savePublicControlJson at h
    split at h
    · exact absurd (congrArg Prod.snd h) (by simp)
    · split at h <;> rw [← (Prod.mk.inj h).1]
  · unfold savePublicControlPostgres at h
    dsimp only at h
    split at h
    · rw [← (Prod.mk.inj h).1]
    · have hstate : (if w.landed = true ∧
          (applySave p.lastSaved p.state p.persisted).MeetsConstraints then
          { p with persisted := applySave p.lastSaved p.state p.persisted } else p).state =
          p.state := by
        split_ifs <;> rfl
      generalize (if w.landed = true ∧
          (applySave p.lastSaved p.state p.persisted).MeetsConstraints then
          { p with persisted := applySave p.lastSaved p.state p.persisted } else p) = q at h hstate
      split_ifs at h
      · split at h
        · rw [← (Prod.mk.inj h).1]
          exact hstate
        · exact absurd (congrArg Prod.snd h) (by simp)
        · exact absurd (congrArg Prod.snd h) (by simp)
      · exact absurd (congrArg Prod.snd h) (by simp)

theorem transact_eq_ok {α : Type} {a : α} {edit : StoreEdit α}
    (h : p.transact env edit = (p', .ok a)) :
    ∃ s changed, edit s = .ok (p'.state, changed, a) := by
  rcases p.transact_cases env edit with ⟨e, hr⟩ | ⟨-, next, changed, b, he, hr⟩
  · rw [h] at hr
    exact absurd (congrArg Prod.snd hr) (by simp)
  · rw [h] at hr
    refine ⟨p.live, changed, ?_⟩
    split_ifs at hr
    · obtain ⟨p₂, _, hsave, hr⟩ := Outcome.andThen_eq_ok hr.symm
      obtain ⟨rfl, hb⟩ := Prod.mk.inj hr
      rw [he, save_state_of_ok hsave, Except.ok.inj hb]
    · obtain ⟨rfl, hb⟩ := Prod.mk.inj hr
      rw [he, Except.ok.inj hb]

/-- A credential that an answer hands out stands for a pending claim which the call presented
in time, with a signature of the claim's key over the claim's challenge; it is bound to that
key and to the claim's relay. -/
structure Redeems (c : Crypto) (p : PublicControlPlane) (op : Env × ControlOp)
    (response : ClientClaimResponse) (claimId : String) (pending : PendingClientClaim) : Prop where
  filed : p.pendingClientClaims[claimId]? = some pending
  unexpired : op.1.pruneNow < pending.expiresAt ∧ op.1.checkNow < pending.expiresAt
  signed : ∃ presented claimSignature drawn,
    op.2 = .claimClientIdentity presented claimSignature drawn ∧
    c.verifies pending.clientVerifyKey
      (clientClaimMessage claimId pending.nonce pending.relayId) (trim claimSignature) = true
  presented : Presents claimId op.2
  relay : response.relayId = pending.relayId
  key : ∃ row, (p.step c op).state.clientRegistrationsByHash[
      c.sha256Hex response.clientRefreshToken]? = some row ∧
    row.clientId = response.clientId ∧ row.clientVerifyKey = pending.clientVerifyKey
  grant : ∃ grant, (p.step c op).state.clientRelayGrantsByKey[
      clientRelayGrantKey response.clientId pending.relayId]? = some grant ∧
    grant.clientId = response.clientId ∧ grant.relayId = pending.relayId

theorem grantClaim_spec (sha256Hex : String → String) (s : PublicControlStateStore) (env : Env)
    (graceSecs : Nat) (pending : PendingClientClaim) (drawn : String) :
    let granted := grantClaim sha256Hex s env graceSecs pending drawn
    (∃ row, granted.1.clientRegistrationsByHash[sha256Hex granted.2.2]? = some row ∧
      row.clientId = granted.2.1 ∧ row.clientVerifyKey = pending.clientVerifyKey) ∧
    ∃ grant, granted.1.clientRelayGrantsByKey[
        clientRelayGrantKey granted.2.1 pending.relayId]? = some grant ∧
      grant.clientId = granted.2.1 ∧ grant.relayId = pending.relayId := by
  obtain ⟨row, henrols, hhash, hanswer⟩ := issueOrRotateClientIdentity_enrols sha256Hex s
    pending.clientVerifyKey pending.clientLabel env.now graceSecs drawn
  simp only [grantClaim, upsertClientRelayGrant, hanswer]
  refine ⟨⟨row, ?_, rfl, henrols.key⟩,
    ⟨⟨row.clientId, pending.relayId, pending.brokerRoomId, pending.deviceId, env.now,
      pending.relayLabel, pending.deviceLabel⟩, ?_, rfl, rfl⟩⟩
  · rw [← hhash]
    rcases henrols.rows with ⟨_, _, _, _, _, hnext⟩ | ⟨_, _, hnext⟩ <;>
      rw [hnext] <;> simp
  · rw [Table.getElem?_insert_of]
    exact if_pos rfl

theorem reply_eq_ok {α : Type} {r : Outcome PublicControlPlane α} {f : α → ControlReply}
    {answer : ControlReply} (h : (reply r f).2 = .ok answer) :
    ∃ p' a, r = (p', .ok a) ∧ f a = answer := by
  obtain ⟨p', e | a⟩ := r
  · exact absurd h (by simp [reply, Except.map])
  · exact ⟨p', a, rfl, Except.ok.inj h⟩

theorem redeems_of_claimClientIdentity {presented claimSignature drawn : String}
    {response : ClientClaimResponse}
    (h : p.claimClientIdentity c.sha256Hex c.verifies env presented claimSignature drawn =
      (p', .ok response)) :
    ∃ claimId pending,
      Redeems c p (env, .claimClientIdentity presented claimSignature drawn) response claimId
        pending := by
  have hstep : p.step c (env, .claimClientIdentity presented claimSignature drawn) = p' := by
    rw [step_claimClientIdentity, h]
  unfold PublicControlPlane.claimClientIdentity at h
  cases hid : trimmedOptionString (some presented) with
  | none =>
    rw [hid] at h
    exact absurd (congrArg Prod.snd h) (by simp)
  | some id =>
    cases hsignature : trimmedOptionString (some claimSignature) with
    | none =>
      rw [hid, hsignature] at h
      exact absurd (congrArg Prod.snd h) (by simp)
    | some signature =>
      simp only [hid, hsignature] at h
      obtain ⟨p₁, pending, htake, h⟩ := Outcome.andThen_eq_ok h
      obtain ⟨hpending, hprune, -⟩ := takeClientClaim_eq_ok htake
      split_ifs at h with hexpired hverifies
      · exact absurd (congrArg Prod.snd h) (by simp)
      · exact absurd (congrArg Prod.snd h) (by simp)
      · obtain ⟨p₂, identity, htransact, h⟩ := Outcome.andThen_eq_ok h
        obtain ⟨rfl, hresponse⟩ := Prod.mk.inj h
        obtain rfl := Except.ok.inj hresponse
        obtain ⟨s, changed, hedit⟩ := transact_eq_ok htransact
        simp only [Except.ok.injEq, Prod.mk.injEq] at hedit
        obtain ⟨hstate, -, rfl⟩ := hedit
        obtain ⟨hkey, hgrant⟩ := grantClaim_spec c.sha256Hex s env p₁.rotationGraceSecs pending
          drawn
        refine ⟨id, pending,
          { filed := hpending, unexpired := ⟨hprune, Nat.lt_of_not_le hexpired⟩
            signed := ⟨presented, claimSignature, drawn, rfl, ?_⟩
            presented := ⟨hid, by simp [hsignature]⟩, relay := rfl, key := ?_, grant := ?_ }⟩
        · rw [← trimmedOptionString_eq_some hsignature]
          simpa using hverifies
        · rw [hstep, ← hstate]
          exact hkey
        · rw [hstep, ← hstate]
          exact hgrant

theorem redeems_of_clientClaim {response : ClientClaimResponse}
    (h : (p.perform c op).2 = .ok (.clientClaim response)) :
    ∃ claimId pending, Redeems c p op response claimId pending := by
  obtain ⟨env, op⟩ := op
  cases op with
  | claimClientIdentity presented claimSignature drawn =>
    obtain ⟨p', a, hcall, hanswer⟩ := reply_eq_ok h
    obtain rfl : a = response := ControlReply.clientClaim.inj hanswer
    exact redeems_of_claimClientIdentity hcall
  | _ =>
    obtain ⟨p', a, -, hanswer⟩ := reply_eq_ok h
    exact absurd hanswer (by simp)

theorem size_step (h : p.pendingClientClaims.size ≤ maxPendingClientClaims) :
    (p.step c op).pendingClientClaims.size ≤ maxPendingClientClaims := by
  by_cases hclaims : SpeaksOfClaims op.2
  · obtain ⟨env, op⟩ := op
    cases op with
    | issueClientGrant bearerToken request claimDrawn nonceDrawn =>
      obtain ⟨p₁, claims, hloads, -, heq, hsize, -⟩ :=
        issueClientGrant_cases p c env bearerToken request claimDrawn nonceDrawn
      exact (congrArg (·.pendingClientClaims.size) heq).trans_le (hsize (hloads.claims ▸ h))
    | claimClientIdentity presented claimSignature drawn =>
      rw [step_claimClientIdentity, claimClientIdentity_claims]
      split
      · refine ExtTreeMap.size_erase_le.trans ?_
        exact ExtTreeMap.size_filter_le_size.trans h
      · exact h
    | restart registrations =>
      have hafter := claims_fromParts p c.sha256Hex env registrations
      refine (congrArg ExtTreeMap.size hafter).trans_le ?_
      simp
    | _ => exact absurd hclaims id
  · rw [(fixed_step (c := c) hclaims).claims]
    exact h

structure KeepsClaims (c : Crypto) (p : PublicControlPlane) (op : Env × ControlOp) : Prop where
  others : ∀ presented claimSignature drawn claimId pending,
    op.2 = .claimClientIdentity presented claimSignature drawn →
    p.pendingClientClaims[claimId]? = some pending → ¬ Presents claimId op.2 →
    op.1.pruneNow < pending.expiresAt →
    (p.step c op).pendingClientClaims[claimId]? = some pending
  unwritten : ∀ bearerToken request claimDrawn nonceDrawn,
    op.2 = .issueClientGrant bearerToken request claimDrawn nonceDrawn →
    (p.step c op).persisted = p.persisted
  forgotten : ∀ registrations, op.2 = .restart registrations →
    (p.step c op).pendingClientClaims = ∅

theorem keepsClaims (c : Crypto) (p : PublicControlPlane) (op : Env × ControlOp) :
    KeepsClaims c p op where
  others presented claimSignature drawn claimId pending hop hpending hpresents hexpires := by
    obtain ⟨env, op⟩ := op
    obtain rfl : op = .claimClientIdentity presented claimSignature drawn := hop
    rw [step_claimClientIdentity, claimClientIdentity_claims]
    cases hid : trimmedOptionString (some presented) with
    | none => exact hpending
    | some id =>
      cases hsignature : trimmedOptionString (some claimSignature) with
      | none => exact hpending
      | some signature =>
        have hne : claimId ≠ id := by
          rintro rfl
          exact hpresents ⟨hid, by simp [hsignature]⟩
        simp only [Table.getElem?_erase_of, Table.getElem?_filter, hpending, if_neg hne]
        exact Option.filter_eq_some_iff.mpr ⟨rfl, decide_eq_true hexpires⟩
  unwritten bearerToken request claimDrawn nonceDrawn hop := by
    obtain ⟨env, op⟩ := op
    obtain rfl : op = .issueClientGrant bearerToken request claimDrawn nonceDrawn := hop
    obtain ⟨p₁, claims, hloads, -, heq, -⟩ :=
      issueClientGrant_cases p c env bearerToken request claimDrawn nonceDrawn
    exact (congrArg (·.persisted) heq).trans hloads.persisted
  forgotten registrations hop := by
    obtain ⟨env, op⟩ := op
    obtain rfl : op = .restart registrations := hop
    exact claims_fromParts p c.sha256Hex env registrations

/-- Each credential of the run stands for a claim of its own: the claim was attested earlier in
the run, and nobody presented it between that and the call that is answered. -/
def ProvenCredentials (c : Crypto) (p : PublicControlPlane) (ops : List (Env × ControlOp)) :
    Prop :=
  ∀ before op after response, ops = before ++ op :: after →
    ((StepRun.run (step c) p before).perform c op).2 = .ok (.clientClaim response) →
    ∃ claimId pending earlier attestation between,
      Redeems c (StepRun.run (step c) p before) op response claimId pending ∧
      before = earlier ++ attestation :: between ∧
      Attests c (StepRun.run (step c) p earlier) attestation claimId pending ∧
      ∀ later ∈ between, ¬ Presents claimId later.2

/-- Credentials need a fresh proof, and the claims to be proven stay few and in memory. -/
theorem credentials_need_fresh_proof (c : Crypto) (backend : Backend) (rotationGraceSecs : Nat)
    (ops : List (Env × ControlOp)) :
    ProvenCredentials c (fresh backend rotationGraceSecs) ops ∧
    StepRun.Along (step c) (KeepsClaims c) (fresh backend rotationGraceSecs) ops ∧
    StepRun.Always (step c) (fun p => p.pendingClientClaims.size ≤ maxPendingClientClaims)
      (fresh backend rotationGraceSecs) ops := by
  refine ⟨?_, StepRun.along_of_forall (keepsClaims c) _ _, ?_⟩
  · intro before op after response _ hanswer
    obtain ⟨claimId, pending, hredeems⟩ := redeems_of_clientClaim hanswer
    obtain ⟨earlier, attestation, between, hbefore, hattests, hbetween⟩ :=
      attested_of_pending c backend rotationGraceSecs hredeems.filed
    exact ⟨claimId, pending, earlier, attestation, between, hredeems, hbefore, hattests, hbetween⟩
  · refine StepRun.always_of_step (P := fun _ _ => True)
      (I := fun p : PublicControlPlane => p.pendingClientClaims.size ≤ maxPendingClientClaims)
      (fun p op h _ => size_step h) ?_ (StepRun.along_of_forall (fun _ _ => trivial) _ _)
    simp [fresh]

/-- A signature check that can be run by hand: a signature names its key and its message. -/
def namedCrypto : Crypto :=
  { plainCrypto with verifies := fun key message signature => signature = key ++ "/" ++ message }

/-- A signature by another key, over a claim's challenge, uses the claim up. -/
theorem stranger_consumes_claim :
    ¬ ∀ (ops : List (Env × ControlOp)) (env : Env) (claimId claimSignature drawn key : String)
        (pending : PendingClientClaim),
      (StepRun.run (step namedCrypto) (fresh .inMemory 100)
        ops).pendingClientClaims[claimId]? = some pending →
      key ≠ pending.clientVerifyKey →
      namedCrypto.verifies key (clientClaimMessage claimId pending.nonce pending.relayId)
        claimSignature = true →
      ((StepRun.run (step namedCrypto) (fresh .inMemory 100) ops).perform namedCrypto
        (env, .claimClientIdentity claimId claimSignature drawn)).2 =
        .error "client claim signature is invalid" →
      ((StepRun.run (step namedCrypto) (fresh .inMemory 100) ops).step namedCrypto
        (env, .claimClientIdentity claimId claimSignature
          drawn)).pendingClientClaims[claimId]? = some pending := by
  intro h
  have hkept := h [(quiet 5, .issueRelayRegistration "key" none [("a", "r")] "one"),
      (quiet 6, .issueClientGrant "rref-one" ⟨"relay-a", "room-r", "phone", "owner", none, none⟩
        "c" "n")] (quiet 7) "ccl-c"
    ("stranger/" ++ clientClaimMessage "ccl-c" "cn-n" "relay-a") "two" "stranger"
    ⟨"relay-a", "room-r", "phone", "owner", none, none, none, "cn-n", 306⟩
    (by decide +kernel) (by decide +kernel) (by decide +kernel) (by decide +kernel)
  exact absurd hkept (by decide +kernel)

end PublicControlPlane

end AgentRelay.Control
