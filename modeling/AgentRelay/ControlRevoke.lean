import AgentRelay.ControlAtomic

/-! A client's revocation among its other calls: each call is let in under one lock and edits
the records under a later one, so a rotation can store its token when the client is gone. -/
namespace AgentRelay.Control
open Text RecordTables Std

namespace PublicControlPlane
open PublicControlStateStore

variable {P Q : PublicControlStateStore → Prop} {p p' : PublicControlPlane}
  {next : PublicControlStateStore}

def Lacks (clientId : String) (s : PublicControlStateStore) : Prop :=
  ∀ (k : String) row, s.clientRegistrationsByHash[k]? = some row → row.clientId ≠ clientId

theorem Lacks.insert {clientId : String} {s : PublicControlStateStore} (h : Lacks clientId s)
    {row : PersistedClientIdentity} (hrow : row.clientId ≠ clientId) (k : String)
    (f : String → PersistedClientIdentity → Bool) :
    Lacks clientId
      { s with
        clientRegistrationsByHash := (s.clientRegistrationsByHash.filter f).insert k row } := by
  intro l v hv
  simp only [Table.getElem?_insert_of] at hv
  split_ifs at hv
  · rw [← Option.some.inj hv]
    exact hrow
  · rw [Table.getElem?_filter] at hv
    exact h l v (Option.filter_eq_some_iff.mp hv).1

theorem stable_lacks (clientId : String) : Stable (Lacks clientId) where
  durable s t h hs k row hrow := by
    rw [← (durable_eq.mp h).2.1] at hrow
    exact hs k row hrow
  client s k row superseded hrow hs l v hv := by
    simp only [Table.getElem?_insert_of] at hv
    split_ifs at hv
    · rw [← Option.some.inj hv]
      exact hs k row hrow
    · exact hs l v hv
  grant s k row superseded hrow hs := hs

theorem lacks_removeClient (s : PublicControlStateStore) (clientId : String) :
    Lacks clientId
      ((s.removeClientIdentityByClientId clientId).1.removeClientRelayGrantsByClientId
        clientId).1 := by
  intro k row hrow
  rw [removeClientRelayGrantsByClientId, removeClientIdentityByClientId,
    getElem?_removeMatchingEntries] at hrow
  have hkept := (Option.filter_eq_some_iff.mp hrow).2
  simpa using hkept

theorem removeClient_eq (p : PublicControlPlane) (env : Env) (client : PersistedClientIdentity) :
    p.removeClient env client = p.transact env (removal client.clientId) := rfl

theorem Kept.removeClient (hP : Stable P) (hPQ : ∀ s, P s → Q s)
    (hfewer : ∀ s clientId, P s → P
      ((s.removeClientIdentityByClientId clientId).1.removeClientRelayGrantsByClientId
        clientId).1)
    (h : Kept P Q p) (env : Env) (client : PersistedClientIdentity) :
    Kept P Q (p.removeClient env client).1 ∧
      ∀ counts, (p.removeClient env client).2 = .ok counts →
        Kept (Lacks client.clientId) Q (p.removeClient env client).1 := by
  rw [removeClient_eq]
  have hedit : ∀ next changed counts,
      removal client.clientId p.live = .ok (next, changed, counts) →
      next.Keyed ∧ P next ∧ (changed = false → SameHolders next p.live) := by
    intro next changed counts he
    obtain ⟨rfl, hsame⟩ := removal_eq_ok he
    refine ⟨(removeClient_edit client.clientId).keyed h.live.2, hfewer _ _ h.live.1, fun hc => ?_⟩
    rw [hsame hc]
    exact ⟨rfl, rfl⟩
  obtain ⟨hkept, hok⟩ := h.transact env hP hPQ (fun _ hs => hs) hedit
  refine ⟨hkept, fun counts hcounts => ?_⟩
  obtain ⟨hready, changed, he⟩ := hok counts hcounts
  have hlacks : Lacks client.clientId (p.transact env (removal client.clientId)).1.state := by
    rw [(removal_eq_ok he).1]
    exact lacks_removeClient p.live client.clientId
  have hboth := hkept.and_holders (Lacks client.clientId) hready
    (fun s t hst hs k row hrow => hs k row (hst.2 ▸ hrow)) hlacks
  exact hboth.mono fun s hs => hs.2

theorem Kept.storeRotation (hP : Stable P) (hPQ : ∀ s, P s → Q s) (h : Kept P Q p)
    (sha256Hex : String → String) (env : Env) (client : PersistedClientIdentity) (drawn : String)
    (hrotate : ∀ s, P s →
      P (s.rotateClientIdentity sha256Hex client env.now p.rotationGraceSecs drawn).1) :
    Kept P Q (p.storeRotation sha256Hex env client drawn).1 := by
  refine (h.transact env hP hPQ (fun _ hs => hs) fun next changed a he => ?_).1
  simp only [Except.ok.injEq, Prod.mk.injEq] at he
  obtain ⟨rfl, rfl, rfl⟩ := he
  exact ⟨(rotateClientIdentity_edit client env.now p.rotationGraceSecs drawn).keyed h.live.2,
    hrotate _ h.live.1, fun hc => absurd hc (by simp)⟩

/-- A process that has just read its records back. -/
def loaded (backend : Backend) (rotationGraceSecs : Nat) (rows : PublicControlStateStore) :
    PublicControlPlane :=
  { persistence := backend, rotationGraceSecs := rotationGraceSecs, state := rows
    persisted := rows, lastSaved := rows }

theorem keyed_fromPersisted {file : PersistedPublicControlState} {rows : PublicControlStateStore}
    (h : fromPersisted file = .ok rows) : rows.Keyed := by
  unfold fromPersisted at h
  split_ifs at h
  obtain rfl := Except.ok.inj h
  exact ⟨keyed_ofRecords _ _, keyed_ofRecords _ _, keyed_ofRecords _ _, keyed_ofRecords _ _⟩

theorem kept_loaded (backend : Backend) (rotationGraceSecs : Nat)
    {rows : PublicControlStateStore} (h : rows.Keyed) :
    Kept (fun _ => True) (fun _ => True) (loaded backend rotationGraceSecs rows) :=
  { keyed := h, keyedPersisted := h, snapshot := fun _ _ => rfl, settled := fun _ => rfl
    agree := fun _ _ => ⟨rfl, rfl⟩, state := trivial, database := fun _ => trivial
    stored := trivial }

end PublicControlPlane

structure ClientCalls where
  plane : PublicControlPlane
  admitted : List PersistedClientIdentity := []

/-- A client's call in its two halves; the second half names the caller by its place. -/
inductive ClientStep
  | authenticate (env : Env) (bearerToken : String)
  | rotate (env : Env) (caller : Nat) (drawn : String)
  | revoke (env : Env) (caller : Nat)
  deriving DecidableEq, Repr

namespace ClientCalls
open PublicControlPlane PublicControlStateStore

variable (sha256Hex : String → String)

def step (d : ClientCalls) : ClientStep → ClientCalls
  | .authenticate env bearerToken =>
    let r := d.plane.authenticateClient sha256Hex env bearerToken
    match r.2 with
    | .ok client => { plane := r.1, admitted := d.admitted ++ [client] }
    | .error _ => { d with plane := r.1 }
  | .rotate env caller drawn =>
    match d.admitted[caller]? with
    | some client =>
      { plane := (d.plane.storeRotation sha256Hex env client drawn).1
        admitted := d.admitted.eraseIdx caller }
    | none => d
  | .revoke env caller =>
    match d.admitted[caller]? with
    | some client =>
      { plane := (d.plane.removeClient env client).1, admitted := d.admitted.eraseIdx caller }
    | none => d

theorem rotateClientIdentity_steps (p : PublicControlPlane) (env : Env)
    (bearerToken drawn : String) :
    (StepRun.run (step sha256Hex) { plane := p }
      [.authenticate env bearerToken, .rotate env 0 drawn]).plane =
      (p.rotateClientIdentity sha256Hex env bearerToken drawn).1 := by
  simp only [StepRun.run_cons, StepRun.run_nil, step, PublicControlPlane.rotateClientIdentity]
  rcases p.authenticateClient sha256Hex env bearerToken with ⟨p₁, e | client⟩ <;> rfl

theorem revokeClientIdentity_steps (p : PublicControlPlane) (env : Env) (bearerToken : String) :
    (StepRun.run (step sha256Hex) { plane := p }
      [.authenticate env bearerToken, .revoke env 0]).plane =
      (p.revokeClientIdentity sha256Hex env bearerToken).1 := by
  simp only [StepRun.run_cons, StepRun.run_nil, step, PublicControlPlane.revokeClientIdentity]
  rcases p.authenticateClient sha256Hex env bearerToken with ⟨p₁, e | client⟩ <;> rfl

def LeavesAlone (clientId : String) (d : ClientCalls) : ClientStep → Prop
  | .rotate _ caller _ =>
    ∀ client, d.admitted[caller]? = some client → client.clientId ≠ clientId
  | _ => True

instance (clientId : String) (d : ClientCalls) (s : ClientStep) :
    Decidable (d.LeavesAlone clientId s) := by
  cases s with
  | rotate env caller drawn =>
    unfold LeavesAlone
    cases hcaller : d.admitted[caller]? with
    | none => exact isTrue fun _ h => absurd (hcaller.symm.trans h) (by simp)
    | some client =>
      exact decidable_of_iff (client.clientId ≠ clientId)
        ⟨fun h _ hc => Option.some.inj (hcaller.symm.trans hc) ▸ h, fun h => h client hcaller⟩
  | authenticate env bearerToken => exact isTrue trivial
  | revoke env caller => exact isTrue trivial

variable {sha256Hex} {P : PublicControlStateStore → Prop} {d : ClientCalls}

theorem lacks_fewer (clientId : String) (s : PublicControlStateStore) (other : String)
    (h : Lacks clientId s) :
    Lacks clientId ((s.removeClientIdentityByClientId
      other).1.removeClientRelayGrantsByClientId other).1 := by
  intro k row hrow
  rw [removeClientRelayGrantsByClientId, removeClientIdentityByClientId,
    getElem?_removeMatchingEntries] at hrow
  exact h k row (Option.filter_eq_some_iff.mp hrow).1

/-- The step rule of this machine, for a property of the records. -/
theorem kept_step (hP : Stable P)
    (hfewer : ∀ s clientId, P s → P
      ((s.removeClientIdentityByClientId clientId).1.removeClientRelayGrantsByClientId
        clientId).1)
    (h : Kept P (fun _ => True) d.plane) (s : ClientStep)
    (hrotate : ∀ env caller drawn client t, s = .rotate env caller drawn →
      d.admitted[caller]? = some client → P t →
      P (t.rotateClientIdentity sha256Hex client env.now d.plane.rotationGraceSecs drawn).1) :
    Kept P (fun _ => True) (d.step sha256Hex s).plane := by
  have hany : ∀ s, P s → True := fun _ _ => trivial
  cases s with
  | authenticate env bearerToken =>
    have hkept := (h.authenticateClient sha256Hex hP hany env bearerToken).kept
    simp only [step]
    cases (d.plane.authenticateClient sha256Hex env bearerToken).2 <;> exact hkept
  | rotate env caller drawn =>
    simp only [step]
    cases hcaller : d.admitted[caller]? with
    | none => exact h
    | some client =>
      exact h.storeRotation hP hany sha256Hex env client drawn fun t ht =>
        hrotate env caller drawn client t rfl hcaller ht
  | revoke env caller =>
    simp only [step]
    cases hcaller : d.admitted[caller]? with
    | none => exact h
    | some client => exact (h.removeClient hP hany hfewer env client).1

theorem stable_any : Stable fun _ => True :=
  ⟨fun _ _ _ _ => trivial, fun _ _ _ _ _ _ => trivial, fun _ _ _ _ _ _ => trivial⟩

theorem kept_run (sha256Hex : String → String)
    (h : Kept (fun _ => True) (fun _ => True) d.plane) (steps : List ClientStep) :
    Kept (fun _ => True) (fun _ => True) (StepRun.run (step sha256Hex) d steps).plane :=
  StepRun.run_of_step (I := fun d : ClientCalls => Kept (fun _ => True) (fun _ => True) d.plane)
    (fun _ s hd => kept_step stable_any (fun _ _ _ => trivial) hd s
      fun _ _ _ _ _ _ _ _ => trivial) h steps

theorem lacks_step {clientId : String} (h : Kept (Lacks clientId) (fun _ => True) d.plane)
    {s : ClientStep} (hs : d.LeavesAlone clientId s) :
    Kept (Lacks clientId) (fun _ => True) (d.step sha256Hex s).plane := by
  refine kept_step (stable_lacks clientId) (lacks_fewer clientId) h s
    fun env caller drawn client t hstep hcaller ht => ?_
  subst hstep
  refine Lacks.insert ht ?_ _ _
  exact hs client hcaller

def RevokedForGood (sha256Hex : String → String) (d : ClientCalls) (clientId : String) : Prop :=
  ∀ env bearerToken found,
    (d.plane.authenticateClient sha256Hex env bearerToken).2 = .ok found →
      found.clientId ≠ clientId

/-- After a client was revoked no token of it is accepted, whatever other calls come between
and after, unless a rotation that was let in before stores its token. -/
theorem revocation_is_final (sha256Hex : String → String) (backend : Backend)
    (rotationGraceSecs : Nat) (file : PersistedPublicControlState)
    (rows : PublicControlStateStore) (hrows : fromPersisted file = .ok rows)
    (before after : List ClientStep) (env : Env) (caller : Nat)
    (client : PersistedClientIdentity) (counts : String × Nat × Nat)
    (hcaller : (StepRun.run (step sha256Hex) { plane := loaded backend rotationGraceSecs rows }
      before).admitted[caller]? = some client)
    (hrevoked : ((StepRun.run (step sha256Hex) { plane := loaded backend rotationGraceSecs rows }
      before).plane.removeClient env client).2 = .ok counts)
    (halone : StepRun.Along (step sha256Hex) (LeavesAlone client.clientId)
      (StepRun.run (step sha256Hex) { plane := loaded backend rotationGraceSecs rows }
        (before ++ [.revoke env caller])) after) :
    RevokedForGood sha256Hex
      (StepRun.run (step sha256Hex) { plane := loaded backend rotationGraceSecs rows }
        (before ++ .revoke env caller :: after)) client.clientId := by
  have hstart := kept_loaded backend rotationGraceSecs (keyed_fromPersisted hrows)
  have hbefore := kept_run sha256Hex
    (d := { plane := loaded backend rotationGraceSecs rows }) hstart before
  rw [StepRun.run_concat] at halone
  rw [StepRun.run_append, StepRun.run_cons]
  generalize StepRun.run (step sha256Hex) { plane := loaded backend rotationGraceSecs rows }
    before = d at *
  have hrevoke : Kept (Lacks client.clientId) (fun _ => True)
      (d.step sha256Hex (.revoke env caller)).plane := by
    have hkept := (hbefore.removeClient stable_any (fun _ _ => trivial) (fun _ _ _ => trivial)
      env client).2 counts hrevoked
    simp only [step, hcaller]
    exact hkept
  have hafter := (StepRun.always_of_step
    (I := fun d : ClientCalls => Kept (Lacks client.clientId) (fun _ => True) d.plane)
    (fun d s hd hs => lacks_step hd hs) hrevoke halone).last
  intro env' bearerToken found hfound
  obtain ⟨k, hfiled⟩ := (hafter.authenticateClient sha256Hex (stable_lacks _)
    (fun _ _ => trivial) env' bearerToken).ok found hfound
  obtain ⟨hlacks, row, hrow, hid, -⟩ := hfiled.state
  rw [← hid]
  exact hlacks k row hrow

def oneClientFile : PersistedPublicControlState where
  schemaVersion := publicControlStateVersion
  clientRegistrations := [⟨"client-1", "ck", "old", 1, none, []⟩]

def oneClient : PublicControlStateStore where
  clientRegistrationsByHash := RecordTables.ofRecords (·.refreshTokenHash)
    oneClientFile.clientRegistrations

theorem revocation_is_final_after_rotation :
    RevokedForGood id
      (StepRun.run (step id) { plane := loaded (.postgres false) 100 oneClient }
        ([.authenticate (quiet 5) "old", .rotate (quiet 5) 0 "new",
          .authenticate (quiet 6) "old", .authenticate (quiet 6) "cref-new"] ++
          .revoke (quiet 7) 0 :: [.authenticate (quiet 8) "old", .revoke (quiet 9) 0]))
      "client-1" :=
  revocation_is_final id (.postgres false) 100 oneClientFile oneClient rfl _ _ (quiet 7) 0
    ⟨"client-1", "ck", "cref-new", 1, none, [⟨"old", 105⟩]⟩ ("client-1", 1, 0)
    (by decide +kernel) (by decide +kernel) (by decide +kernel)

/-- A rotation that was let in before the revocation stores its token after it, and the token
lets its holder in. -/
theorem late_rotation_revives_client :
    ¬ ∀ (before after : List ClientStep) (env : Env) (caller : Nat)
        (client : PersistedClientIdentity) (counts : String × Nat × Nat),
      (StepRun.run (step id) { plane := loaded (.postgres false) 100 oneClient }
        before).admitted[caller]? = some client →
      ((StepRun.run (step id) { plane := loaded (.postgres false) 100 oneClient }
        before).plane.removeClient env client).2 = .ok counts →
      RevokedForGood id
        (StepRun.run (step id) { plane := loaded (.postgres false) 100 oneClient }
          (before ++ .revoke env caller :: after)) client.clientId := by
  intro h
  have hgone := h [.authenticate (quiet 5) "old", .authenticate (quiet 5) "old"]
    [.rotate (quiet 7) 0 "new"] (quiet 6) 1 ⟨"client-1", "ck", "old", 1, none, []⟩
    ("client-1", 1, 0) (by decide +kernel) (by decide +kernel)
  exact hgone (quiet 8) "cref-new" ⟨"client-1", "ck", "cref-new", 1, none, []⟩
    (by decide +kernel) rfl

end ClientCalls

end AgentRelay.Control
