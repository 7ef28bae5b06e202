import AgentRelay.ControlCalls

/-! What one operation of the control plane can do: it leaves everybody's access as it was, or
it makes one of the listed edits, in memory and in the backend at once. -/
namespace AgentRelay.Control
open Text RecordTables Std
open AgentRelay.Relay (saturatingAdd)

namespace PublicControlPlane
open PublicControlStateStore

variable {p p' p'' : PublicControlPlane} {next : PublicControlStateStore} {w : WriteOutcome}
  {now : Nat}

structure Dependable (p : PublicControlPlane) (env : Env) : Prop where
  auth : p.persistence = .json → env.authWrite.error = none
  file : p.persistence = .json → env.write.error = none
  database : p.isPostgres → env.write.error.isSome → env.write.landed → env.write.reloads

instance (p : PublicControlPlane) (env : Env) : Decidable (p.Dependable env) :=
  decidable_of_iff ((p.persistence = .json → env.authWrite.error = none) ∧
    (p.persistence = .json → env.write.error = none) ∧
    (p.isPostgres → env.write.error.isSome → env.write.landed → env.write.reloads))
    ⟨fun h => ⟨h.1, h.2.1, h.2.2⟩, fun h => ⟨h.auth, h.file, h.database⟩⟩

theorem isPostgres_congr (h : p'.persistence = p.persistence) : p'.isPostgres = p.isPostgres := by
  simp only [isPostgres, h]

theorem Dependable.of_persistence {env : Env} (h : p.Dependable env)
    (hb : p'.persistence = p.persistence) : p'.Dependable env where
  auth hj := h.auth (hb ▸ hj)
  file hj := h.file (hb ▸ hj)
  database hp := h.database (isPostgres_congr hb ▸ hp)

structure SameAccess (now : Nat) (p p' : PublicControlPlane) : Prop where
  persistence : p'.persistence = p.persistence
  graceSecs : p'.rotationGraceSecs = p.rotationGraceSecs
  persisted : Renewed now p.persisted p'.persisted
  live : Renewed now p.live p'.live

theorem Alike.sameAccess (h : Alike now p p') : SameAccess now p p' :=
  ⟨h.persistence, h.graceSecs, h.persisted, h.live⟩

theorem SameAccess.trans (h : SameAccess now p p') (h' : SameAccess now p' p'') :
    SameAccess now p p'' :=
  ⟨h'.persistence.trans h.persistence, h'.graceSecs.trans h.graceSecs,
    h.persisted.trans h'.persisted, h.live.trans h'.live⟩

structure Holds (p : PublicControlPlane) (next : PublicControlStateStore)
    (p' : PublicControlPlane) : Prop where
  persistence : p'.persistence = p.persistence
  graceSecs : p'.rotationGraceSecs = p.rotationGraceSecs
  state : p'.state = next
  known : p'.needsReload = false
  persisted : p.persistence ≠ .inMemory → p'.persisted = next

theorem Holds.live (h : Holds p next p') : p'.live = next := by
  unfold PublicControlPlane.live
  split_ifs with hr
  · have hne := isPostgres_ne_inMemory (isPostgres_of_reload hr)
    rw [h.persistence] at hne
    exact h.persisted hne
  · exact h.state

theorem Holds.of_eq (h : Holds p next p') (hb : p.persistence = p''.persistence)
    (hg : p.rotationGraceSecs = p''.rotationGraceSecs) : Holds p'' next p' :=
  ⟨h.persistence.trans hb, h.graceSecs.trans hg, h.state, h.known,
    fun hne => h.persisted (hb ▸ hne)⟩

theorem Saved.settled {r : Outcome PublicControlPlane Unit} (hs : Saved p next w r) (h : p.InStep)
    (hready : p.Ready)
    (hknown : p.isPostgres → w.error.isSome → w.landed → w.reloads) :
    (r.2 = .ok () ∧ Holds p next r.1) ∨
      (p.isPostgres ∧ (∃ e, r.2 = .error e) ∧ Unmoved p r.1) := by
  have hlive := hready.live
  cases hs with
  | memory hb => exact Or.inl ⟨rfl, rfl, rfl, rfl, hready.known, fun hne => absurd hb hne⟩
  | done saved hb hsaved =>
    exact Or.inl ⟨rfl, rfl, rfl, rfl, hready.known, fun _ => rfl⟩
  | undone e hp =>
    refine Or.inr ⟨hp, ⟨e, rfl⟩, rfl, rfl, rfl, rfl, ?_⟩
    have hlive' : PublicControlPlane.live
        { p with state := p.persisted, lastSaved := p.persisted } = p.persisted :=
      live_of_same rfl
    rw [hlive, hlive']
    exact (h.agree (isPostgres_ne_inMemory hp) hready.known).symm
  | unknown e rows hp hrows hreloads =>
    have hrows' : rows = p.persisted := by
      rcases hrows with hsame | ⟨herror, hlanded, -⟩
      · exact hsame
      · exact absurd (hknown hp herror hlanded) (by simp [hreloads])
    subst hrows'
    refine Or.inr ⟨hp, ⟨e, rfl⟩, rfl, rfl, rfl, rfl, ?_⟩
    obtain ⟨reload, hb⟩ := persistence_of_isPostgres hp
    have hlive' : PublicControlPlane.live
        { p with state := next, persisted := p.persisted, needsReload := true } =
          p.persisted := by
      simp [PublicControlPlane.live, reloadBeforeUse, hb]
    rw [hlive, hlive']
    exact (h.agree (isPostgres_ne_inMemory hp) hready.known).symm

/-- How a critical section ends: the edit holds and is reported, or nothing has moved. -/
structure Transacts {α : Type} (p : PublicControlPlane) (edit : StoreEdit α)
    (r : Outcome PublicControlPlane α) : Prop where
  inStep : r.1.InStep
  settled :
    (Unmoved p r.1 ∧ ∀ a, r.2 = .ok a →
      r.1.live = p.live ∧ edit p.live = .ok (p.live, false, a)) ∨
    ∃ next a, edit p.live = .ok (next, true, a) ∧ r.2 = .ok a ∧ Holds p next r.1

theorem InStep.transact {α : Type} {env : Env} (h : p.InStep) (hd : p.Dependable env)
    (edit : StoreEdit α)
    (hedit : ∀ next changed a, edit p.live = .ok (next, changed, a) →
      Edit p.live next ∧ (changed = false → next = p.live)) :
    Transacts p edit (p.transact env edit) := by
  obtain ⟨hin, hun, hready⟩ := h.lockState env.loadError
  rcases p.transact_cases env edit with ⟨e, hr⟩ | ⟨hok, next, changed, a, he, hr⟩
  · rw [hr]
    exact ⟨hin, Or.inl ⟨hun, fun _ ha => absurd ha (by simp)⟩⟩
  · have hstate := lockState_state hok
    obtain ⟨hready, -⟩ := hready () hok
    obtain ⟨hstored, hsame⟩ := hedit next changed a he
    rw [hr]
    generalize (p.lockState env.loadError).1 = p₁ at hin hun hstate hready
    cases changed with
    | false =>
      have hself : ({ p₁ with state := next } : PublicControlPlane) = p₁ := by
        rw [hsame rfl, ← hstate]
      simp only [Bool.false_eq_true, if_false, hself]
      refine ⟨hin, Or.inl ⟨hun, fun b hb => ⟨hready.live.trans hstate, ?_⟩⟩⟩
      rw [← Except.ok.inj hb, he, hsame rfl]
    | true =>
      have hd₁ := hd.of_persistence hun.persistence
      rw [← hstate] at hstored
      have hs := hin.saved hready.known hstored hd₁.file
      have hin' := hs.inStep hin hready.known hstored
      simp only [if_true]
      have hsettled := hs.settled hin hready hd₁.database
      generalize PublicControlPlane.save _ _ = saved at hin' hsettled ⊢
      obtain ⟨p₂, e | _⟩ := saved
      · rcases hsettled with ⟨hdone, -⟩ | ⟨-, -, hun'⟩
        · exact absurd hdone (by simp)
        · exact ⟨hin', Or.inl ⟨hun.trans hun', fun _ ha => absurd ha (by simp)⟩⟩
      · rcases hsettled with ⟨-, hholds⟩ | ⟨-, ⟨e, herror⟩, -⟩
        · exact ⟨hin', Or.inr ⟨next, a, he, rfl, hholds.of_eq hun.persistence hun.graceSecs⟩⟩
        · exact absurd herror (by simp)

/-- What an operation can do to a plane in step with its backend: an edit that is reported is
what counts from then on, and anything else leaves everybody's access as it was. -/
structure Performs (c : Crypto) (p : PublicControlPlane) (op : Env × ControlOp)
    (r : Outcome PublicControlPlane ControlReply) : Prop where
  inStep : r.1.InStep
  applied : Edits op.2 → ∀ reply, r.2 = .ok reply →
    ∃ s, Renewed op.1.authNow p.live s ∧ p.Writes c op reply s r.1.live
  moved : SameAccess op.1.authNow p r.1 ∨
    ∃ s next reply, Renewed op.1.authNow p.live s ∧ p.Writes c op reply s next ∧
      (Mints op.2 → r.2 = .ok reply) ∧ Holds p next r.1

variable {c : Crypto} {op : Env × ControlOp}

theorem not_edits {o : ControlOp} {bearer : String × Option String}
    (h : o.deviceBearer? = some bearer) : ¬ Edits o := by
  cases o <;> first | exact id | exact absurd h (by simp [ControlOp.deviceBearer?])

theorem performs_of_sameAccess {r : Outcome PublicControlPlane ControlReply} (hin : r.1.InStep)
    (hidle : ¬ Edits op.2) (h : SameAccess op.1.authNow p r.1) : Performs c p op r :=
  ⟨hin, fun hedits => absurd hedits hidle, Or.inl h⟩

theorem performs_of_error {r : Outcome PublicControlPlane ControlReply} {e : String}
    (hin : r.1.InStep) (he : r.2 = .error e) (h : SameAccess op.1.authNow p r.1) :
    Performs c p op r :=
  ⟨hin, fun _ reply hok => absurd (he.symm.trans hok) (by simp), Or.inl h⟩

theorem SameAccess.refl (p : PublicControlPlane) : SameAccess now p p :=
  (Unmoved.refl p).alike.sameAccess

variable {env : Env}

theorem InStep.kept (h : p.InStep) : Kept (fun _ => True) (fun _ => True) p :=
  { h with
    agree := fun hp hready => sameHolders_of_durable (h.agree (isPostgres_ne_inMemory hp) hready)
    state := trivial, database := fun _ => trivial, stored := trivial }

theorem InStep.withClaims (h : p.InStep) (claims : Table PendingClientClaim) :
    InStep { p with pendingClientClaims := claims } where
  keyed := h.keyed
  keyedPersisted := h.keyedPersisted
  snapshot := h.snapshot
  settled := h.settled
  agree := h.agree
  marker := h.marker

theorem sameAccess_withClaims (p : PublicControlPlane) (claims : Table PendingClientClaim) :
    SameAccess now p { p with pendingClientClaims := claims } :=
  ⟨rfl, rfl, renewed_of_durable rfl, renewed_of_durable rfl⟩

theorem InStep.performs {α β : Type} {p₁ : PublicControlPlane} (h : p₁.InStep)
    (hsame : SameAccess op.1.authNow p p₁) (hd : p.Dependable op.1)
    (hcareful : p.Careful c op.2)
    (hlive : Edits op.2 → op.2.clientBearer? = none → p₁.live.durable = p.live.durable)
    {edit : StoreEdit α}
    {tell : α → ControlReply} {answer : PublicControlPlane → α → Outcome PublicControlPlane β}
    {g : β → ControlReply} (hedit : Inscribes c p op edit tell p₁.live)
    (htells : Tells op.2 tell answer g) :
    Performs c p op (reply ((p₁.transact op.1 edit).andThen answer) g) := by
  have ht := h.transact (hd.of_persistence hsame.persistence) edit fun next changed a he =>
    (hedit next changed a he).edit hcareful
      (hlive (hedit next changed a he).writes.edits)
  rcases hr : p₁.transact op.1 edit with ⟨p', e | a⟩
  · rw [hr] at ht
    rcases ht.settled with ⟨hun, -⟩ | ⟨next, a, -, ha, -⟩
    · exact performs_of_error ht.inStep rfl (hsame.trans hun.alike.sameAccess)
    · exact absurd ha (by simp)
  · rw [hr] at ht
    have hafter : (reply ((Outcome.andThen (p', .ok a) answer)) g).1 = p' := htells.plane p' a
    have htold : ∀ told, (reply ((Outcome.andThen (p', .ok a) answer)) g).2 = .ok told →
        told = tell a := by
      intro told htold
      simp only [reply, Outcome.andThen] at htold
      cases hb : (answer p' a).2 with
      | error e =>
        rw [hb] at htold
        exact absurd htold (by simp [Except.map])
      | ok b =>
        rw [hb] at htold
        rw [← Except.ok.inj htold]
        exact htells.told p' a b hb
    rcases ht.settled with ⟨hun, hsettled⟩ | ⟨next, a', he, ha, hholds⟩
    · obtain ⟨hsame', he⟩ := hsettled a rfl
      refine ⟨by rw [hafter]; exact ht.inStep, fun _ told hok => ?_, Or.inl ?_⟩
      · rw [hafter, hsame', htold told hok]
        exact ⟨p₁.live, hsame.live, (hedit _ _ _ he).writes⟩
      · rw [hafter]
        exact hsame.trans hun.alike.sameAccess
    · obtain rfl : a = a' := Except.ok.inj ha
      have hwrites := (hedit next true a he).writes
      refine ⟨by rw [hafter]; exact ht.inStep, fun _ told hok => ?_,
        Or.inr ⟨p₁.live, next, tell a, hsame.live, hwrites, fun hmints => ?_, ?_⟩⟩
      · rw [hafter, hholds.live, htold told hok]
        exact ⟨p₁.live, hsame.live, hwrites⟩
      · obtain ⟨b, hb⟩ := htells.answered hmints p' a
        rw [← htells.told p' a b hb]
        simp only [reply, Outcome.andThen, hb]
        rfl
      · rw [hafter]
        exact hholds.of_eq hsame.persistence hsame.graceSecs

theorem MarkerAhead.touch {state snapshot row row' : Option PersistedDeviceGrant} {authNow : Nat}
    (h : MarkerAhead state snapshot row)
    (hlater : ∀ v, state = some v → v.seen < authNow + 1)
    (hrow : row' = row ∨ row' = state.map fun v => { v with lastSeen := some authNow }) :
    MarkerAhead (state.map fun v => { v with lastSeen := some authNow }) snapshot row' := by
  cases state with
  | none =>
    rcases hrow with rfl | rfl
    · exact ⟨h.same, fun v v' _ hv' => absurd hv' (by simp), fun v v' _ hv' => absurd hv' (by simp)⟩
    · exact ⟨fun _ => rfl, fun v v' _ hv' => absurd hv' (by simp),
        fun v v' hv _ => absurd hv (by simp)⟩
  | some v =>
    have hlt := hlater v rfl
    have hseen : PersistedDeviceGrant.seen { v with lastSeen := some authNow } = authNow + 1 := rfl
    refine ⟨fun hsame => ?_, fun u v' hu hv' => ?_, fun u v' hu hv' => ?_⟩
    · -- The snapshot was no later than memory, so it is not what memory is now.
      have hle := h.snapshot _ v hsame.symm rfl
      rw [hseen] at hle
      omega
    · have hle := h.snapshot u v hu rfl
      rw [← Option.some.inj hv', hseen]
      omega
    · rw [← Option.some.inj hv', hseen]
      rcases hrow with rfl | rfl
      · have hle := h.row u v hu rfl
        omega
      · rw [← Option.some.inj hu, hseen]

theorem live_durable_congr (hreload : p'.reloadBeforeUse = p.reloadBeforeUse)
    (hstate : p'.state.durable = p.state.durable)
    (hpersisted : p'.persisted.durable = p.persisted.durable) :
    p'.live.durable = p.live.durable := by
  unfold PublicControlPlane.live
  rw [hreload]
  split_ifs
  · exact hpersisted
  · exact hstate

theorem InStep.touchDeviceLastSeen (h : p.InStep) (env : Env) (primaryHash : String)
    (hlater : ∀ v, p.state.grantsByHash[primaryHash]? = some v → v.seen < env.authNow + 1) :
    (p.touchDeviceLastSeen env primaryHash).InStep ∧
      SameAccess now p (p.touchDeviceLastSeen env primaryHash) := by
  obtain ⟨rows, heq, hrows, hpersisted, hkeyed⟩ := touchDeviceLastSeen_eq p env primaryHash
  have hstate := durable_touched p.state primaryHash env.authNow
  have hmarker : p.isPostgres → p.needsReload = false → ∀ k : String,
      MarkerAhead (touched primaryHash env.authNow p.state.grantsByHash)[k]?
        p.lastSaved.grantsByHash[k]? rows[k]? := by
    intro hp hready k
    have hm := h.marker hp hready k
    by_cases hk : k = primaryHash
    · subst hk
      have hself : (touched k env.authNow p.state.grantsByHash)[k]? =
          p.state.grantsByHash[k]?.map fun v => { v with lastSeen := some env.authNow } := by
        rw [touched, Table.getElem?_modify_of, if_pos rfl]
      rw [hself]
      refine hm.touch hlater (hrows.imp (fun hr => by rw [hr]) fun hr => ?_)
      -- The row differs from memory in its marker alone, and both get the same one.
      have hagree := (durable_eq.mp (h.agree (isPostgres_ne_inMemory hp) hready)).2.2.1 k
      rw [hr, touched, Table.getElem?_modify_of, if_pos rfl]
      have hmark := congrArg (Option.map fun v : PersistedDeviceGrant =>
        { v with lastSeen := some env.authNow }) hagree
      rw [Option.map_map, Option.map_map] at hmark
      exact hmark.symm
    · have hother : ∀ grants : Table PersistedDeviceGrant,
          (touched primaryHash env.authNow grants)[k]? = grants[k]? := fun grants => by
        rw [touched, Table.getElem?_modify_of, if_neg hk]
      have hrow : rows[k]? = p.persisted.grantsByHash[k]? := by
        rcases hrows with rfl | rfl
        · rfl
        · exact hother _
      rw [hother, hrow]
      exact hm
  rw [heq]
  refine ⟨?_, rfl, rfl, renewed_of_durable hpersisted, renewed_of_durable ?_⟩
  · exact
      { keyed := touched_keyed_store h.keyed primaryHash env.authNow
        keyedPersisted := hkeyed h.keyedPersisted
        snapshot := fun hp hready => (h.snapshot hp hready).trans hpersisted.symm
        settled := h.settled
        agree := fun hne hready => (hstate.trans (h.agree hne hready)).trans hpersisted.symm
        marker := hmarker }
  · exact live_durable_congr rfl hstate hpersisted

theorem InStep.deviceGrantFromRefreshTokenScoped_ok (h : p.InStep) {bearerToken : String}
    {expectedRoom : Option String}
    (hjson : p.persistence = .json → env.authWrite.error = none) {p' : PublicControlPlane}
    {primaryHash : String} {grant : PersistedDeviceGrant}
    (hr : p.deviceGrantFromRefreshTokenScoped c.sha256Hex env bearerToken expectedRoom =
      (p', .ok (primaryHash, grant))) :
    ∀ v, p'.state.grantsByHash[primaryHash]? = some v → v.seen ≤ grant.seen := by
  have hlock := h.lockState env.authLoadError
  obtain ⟨p₁, _, hr₁, hrest⟩ := Outcome.andThen_eq_ok hr
  rw [hr₁] at hlock
  obtain ⟨hready₁, -⟩ := hlock.ready () rfl
  have hlookup := hlock.inStep.lookup hready₁ env.missLoadError
    (findDeviceGrantForToken · (c.sha256Hex (trim bearerToken)) env.authNow)
  obtain ⟨p₂, found, hr₂, hrest⟩ := Outcome.andThen_eq_ok hrest
  rw [hr₂] at hlookup
  obtain ⟨hready₂, hfound⟩ := hlookup.ready found rfl
  cases found with
  | none => exact absurd (congrArg Prod.snd hrest) (by simp)
  | some found =>
    obtain ⟨k, identity⟩ := found
    have hfiled := findForToken_filed hfound
    dsimp only at hrest
    split_ifs at hrest with hroom hprimary
    · exact absurd (congrArg Prod.snd hrest) (by simp)
    · simp only [Prod.mk.injEq, Except.ok.injEq] at hrest
      obtain ⟨rfl, rfl, rfl⟩ := hrest
      intro v hv
      refine hlookup.inStep.renewDeviceGrace_seen hready₂.known (fun hb => ?_) hfiled hv
      exact hjson (hlock.unmoved.persistence ▸ hlookup.unmoved.persistence ▸ hb)
    · simp only [Prod.mk.injEq, Except.ok.injEq] at hrest
      obtain ⟨rfl, rfl, rfl⟩ := hrest
      intro v hv
      rw [Option.some.inj (hv.symm.trans hfiled)]

theorem shouldTouchLastSeen_later {grant : PersistedDeviceGrant} {authNow : Nat}
    (h : shouldTouchLastSeen grant.lastSeen authNow) : grant.seen < authNow + 1 := by
  unfold shouldTouchLastSeen at h
  unfold PersistedDeviceGrant.seen
  cases hl : grant.lastSeen with
  | none => exact Nat.succ_pos _
  | some previous =>
    rw [hl] at h
    have hthrottle : 3600 ≤ authNow - previous := of_decide_eq_true h
    change previous + 1 < authNow + 1
    omega

/-- What every operation but a restart needs of a plane in step, and does to it. -/
theorem InStep.calls (h : p.InStep) (hd : p.Dependable op.1) (hcareful : p.Careful c op.2) :
    CallRule c p op
      (fun p₁ => p₁.InStep ∧ SameAccess op.1.authNow p p₁ ∧
        (Edits op.2 → op.2.clientBearer? = none → p₁.live.durable = p.live.durable))
      (Performs c p op) where
  kept := h.kept
  start := ⟨h, SameAccess.refl p, fun _ _ => rfl⟩
  relay bearerToken relayId brokerRoomId := by
    have hreads := h.authenticateRelay c.sha256Hex op.1 bearerToken relayId brokerRoomId
    exact ⟨hreads.inStep, hreads.unmoved.alike.sameAccess, fun _ _ => hreads.unmoved.live⟩
  client bearerToken hop := by
    have hadm := h.authenticateClient c.sha256Hex op.1 bearerToken hd.auth
    exact ⟨hadm.inStep, hadm.alike.sameAccess, fun _ hnone => by simp [hop] at hnone⟩
  device bearerToken expectedRoom hop := by
    have hadm := h.deviceGrantFromRefreshTokenScoped c.sha256Hex op.1 bearerToken expectedRoom
      hd.auth
    exact ⟨hadm.inStep, hadm.alike.sameAccess, fun hedits => absurd hedits (not_edits hop)⟩
  touch bearerToken expectedRoom p₁ primaryHash grant hop hr hseen := by
    have hadm := h.deviceGrantFromRefreshTokenScoped c.sha256Hex op.1 bearerToken expectedRoom
      hd.auth
    have hfound := h.deviceGrantFromRefreshTokenScoped_ok hd.auth hr
    rw [hr] at hadm
    obtain ⟨hin, htouched⟩ := hadm.inStep.touchDeviceLastSeen op.1 primaryHash
      fun v hv => Nat.lt_of_le_of_lt (hfound v hv) (shouldTouchLastSeen_later hseen)
    exact ⟨hin, hadm.alike.sameAccess.trans htouched,
      fun hedits => absurd hedits (not_edits hop)⟩
  withClaims p₁ claims hp₁ :=
    ⟨hp₁.1.withClaims claims, hp₁.2.1.trans (sameAccess_withClaims p₁ claims), hp₁.2.2⟩
  idle hidle _ hp₁ := performs_of_sameAccess hp₁.1 hidle hp₁.2.1
  failed _ _ hp₁ := performs_of_error hp₁.1 rfl hp₁.2.1
  transacts _ _ _ _ _ hp₁ _ hedit htells :=
    hp₁.1.performs hp₁.2.1 hd hcareful hp₁.2.2 hedit htells

theorem InStep.reopened (h : p.InStep) : p.reopened.InStep ∧ p.reopened.Ready := by
  have hloaded : p.persistence ≠ .inMemory → p.reopened.state = p.persisted := fun hne =>
    if_neg hne
  have hkept : Kept (fun _ => True) (fun _ => True) p.reopened := h.kept.reopened trivial
  have hready : p.reopened.Ready := ⟨rfl, fun hr => by
    have hp := isPostgres_of_reload hr
    exact hloaded (isPostgres_ne_inMemory (p := p) hp)⟩
  refine ⟨?_, hready⟩
  exact
    { hkept with
      agree := fun hne _ => congrArg _ (hloaded hne)
      marker := fun hp _ k => by
        have hstate := hloaded (isPostgres_ne_inMemory hp)
        have hsaved : p.reopened.lastSaved = p.reopened.persisted := hstate
        rw [hsaved]
        exact markerAhead_of_eq _ _ (by rw [hstate]; rfl) }

theorem InStep.reopened_sameAccess (h : p.InStep) (hne : p.persistence ≠ .inMemory) :
    SameAccess now p p.reopened := by
  refine ⟨rfl, rfl, renewed_of_durable rfl, renewed_of_durable ?_⟩
  have hlive : p.reopened.live = p.persisted := by
    rw [h.reopened.2.live]
    exact if_neg hne
  rw [hlive]
  exact h.live_persisted hne

theorem InStep.perform_restart (h : p.InStep) (hd : p.Dependable env)
    (registrations : List RelayRegistrationConfig) :
    Performs c p (env, .restart registrations)
      (p.perform c (env, .restart registrations)) := by
  obtain ⟨hin, hready⟩ := h.reopened
  obtain ⟨s, hs, hopened⟩ : ∃ s, Renewed env.authNow p.live s ∧
      p.reopened.state = if p.persistence = .inMemory then {} else s := by
    by_cases hne : p.persistence = .inMemory
    · exact ⟨p.live, renewed_of_durable rfl, by simp [PublicControlPlane.reopened, hne]⟩
    · have hsame : Renewed env.authNow p.live p.reopened.live :=
        (h.reopened_sameAccess hne).live
      rw [hready.live] at hsame
      exact ⟨p.reopened.state, hsame, (if_neg hne).symm⟩
  have hwrites : p.Writes c (env, .restart registrations) .done s
      (p.reopened.state.seedRelayRegistrations c.sha256Hex registrations).1 := by
    rw [hopened]
    exact .restart
  have hedit := (seedRelayRegistrations_edit c.sha256Hex p.reopened.state registrations).1
  rcases p.restart_cases c env registrations with ⟨hne, e, hr⟩ | ⟨hnext, hr⟩ | hr
  · rw [hr]
    exact performs_of_error hin rfl (h.reopened_sameAccess hne)
  · have hholds : Holds p p.reopened.state p.reopened :=
      ⟨rfl, rfl, rfl, rfl, fun hne => (if_neg hne).symm⟩
    rw [hr]
    rw [hnext] at hwrites
    refine ⟨hin, fun _ told htold => ?_, Or.inr ⟨s, _, .done, hs, hwrites, fun _ => rfl, hholds⟩⟩
    rw [← Except.ok.inj htold]
    exact ⟨s, hs, hholds.live ▸ hwrites⟩
  · have hd' : p.reopened.Dependable env := hd.of_persistence rfl
    have hsaved := hin.saved hready.known hedit hd'.file
    have hin' := hsaved.inStep hin hready.known hedit
    have hsettled := hsaved.settled hin hready hd'.database
    rw [hr]
    generalize PublicControlPlane.save _ _ = r at hin' hsettled
    rcases hsettled with ⟨hok, hholds⟩ | ⟨hp, ⟨e, he⟩, hun⟩
    · have hdone : (reply r fun _ => ControlReply.done).2 = .ok .done := by
        simp only [reply, hok]
        rfl
      refine ⟨hin', fun _ told htold => ?_,
        Or.inr ⟨s, _, .done, hs, hwrites, fun _ => hdone, hholds.of_eq rfl rfl⟩⟩
      rw [← Except.ok.inj (hdone.symm.trans htold)]
      have hlive : (reply r fun _ => ControlReply.done).1.live = _ := hholds.live
      exact ⟨s, hs, hlive ▸ hwrites⟩
    · have he' : (reply r fun _ => ControlReply.done).2 = .error e := by
        simp only [reply, he]
        rfl
      exact performs_of_error hin' he'
        ((h.reopened_sameAccess (isPostgres_ne_inMemory hp)).trans hun.alike.sameAccess)

theorem InStep.perform (h : p.InStep) (hd : p.Dependable op.1) (hcareful : p.Careful c op.2) :
    Performs c p op (p.perform c op) := by
  by_cases hrestart : ∃ registrations, op.2 = .restart registrations
  · obtain ⟨env, op⟩ := op
    obtain ⟨registrations, rfl⟩ := hrestart
    exact h.perform_restart hd registrations
  · exact (h.calls hd hcareful).perform fun registrations hop => hrestart ⟨registrations, hop⟩

end PublicControlPlane

end AgentRelay.Control
