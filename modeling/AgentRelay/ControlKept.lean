import AgentRelay.ControlEdits

/-! Properties of the control plane's records that reads, saves and critical sections keep,
however the reads and writes of the backend go. -/
namespace AgentRelay.Control
open Text RecordTables Std

namespace PublicControlPlane
open PublicControlStateStore

variable {P P' Q : PublicControlStateStore → Prop} {p p' : PublicControlPlane}
  {next : PublicControlStateStore} {env : Env} {c : Crypto}

theorem lockState_state {error : Option String} (h : (p.lockState error).2 = .ok ()) :
    (p.lockState error).1.state = p.live := by
  unfold PublicControlPlane.lockState PublicControlPlane.live at *
  split_ifs at * with hr
  · cases error with
    | some e => exact absurd h (by simp [PublicControlPlane.loadState])
    | none => rfl
  · rfl

/-- A critical section leaves the records alone, or it comes to its edit of what is read next. -/
theorem transact_cases {α : Type} (p : PublicControlPlane) (env : Env) (edit : StoreEdit α) :
    (∃ e, p.transact env edit = ((p.lockState env.loadError).1, .error e)) ∨
      (p.lockState env.loadError).2 = .ok () ∧ ∃ next changed a,
        edit p.live = .ok (next, changed, a) ∧
        p.transact env edit =
          if changed then
            (PublicControlPlane.save { (p.lockState env.loadError).1 with state := next }
              env.write).andThen fun p _ => (p, .ok a)
          else ({ (p.lockState env.loadError).1 with state := next }, .ok a) := by
  have hstate : (p.lockState env.loadError).2 = .ok () →
      (p.lockState env.loadError).1.state = p.live := lockState_state
  unfold PublicControlPlane.transact
  rcases hr : p.lockState env.loadError with ⟨p₁, e | _⟩
  · exact Or.inl ⟨e, rfl⟩
  · rw [hr] at hstate
    have hlive : p₁.state = p.live := hstate rfl
    rw [Outcome.andThen_ok, hlive]
    cases edit p.live with
    | error e => exact Or.inl ⟨e, rfl⟩
    | ok edited => exact Or.inr ⟨rfl, _, _, _, rfl, rfl⟩

structure Fixed (p p' : PublicControlPlane) : Prop where
  persistence : p'.persistence = p.persistence
  graceSecs : p'.rotationGraceSecs = p.rotationGraceSecs
  claims : p'.pendingClientClaims = p.pendingClientClaims

theorem Fixed.refl (p : PublicControlPlane) : Fixed p p := ⟨rfl, rfl, rfl⟩

theorem Fixed.trans {p₁ p₂ p₃ : PublicControlPlane} (h : Fixed p₁ p₂) (h' : Fixed p₂ p₃) :
    Fixed p₁ p₃ :=
  ⟨h'.persistence.trans h.persistence, h'.graceSecs.trans h.graceSecs, h'.claims.trans h.claims⟩

theorem Fixed.andThen {α β : Type} {r : Outcome PublicControlPlane α}
    {f : PublicControlPlane → α → Outcome PublicControlPlane β} (h : Fixed p r.1)
    (hf : ∀ p' a, Fixed p' (f p' a).1) : Fixed p (r.andThen f).1 := by
  obtain ⟨p₁, e | a⟩ := r
  · exact h
  · exact h.trans (hf p₁ a)

/-- A read: the records may be read back in, and nothing else moves. -/
structure Loads (p p' : PublicControlPlane) : Prop extends Fixed p p' where
  persisted : p'.persisted = p.persisted

theorem Loads.refl (p : PublicControlPlane) : Loads p p := ⟨Fixed.refl p, rfl⟩

theorem Loads.andThen {α β : Type} {r : Outcome PublicControlPlane α}
    {f : PublicControlPlane → α → Outcome PublicControlPlane β} (h : Loads p r.1)
    (hf : ∀ p' a, Loads p' (f p' a).1) : Loads p (r.andThen f).1 := by
  obtain ⟨p₁, e | a⟩ := r
  · exact h
  · exact ⟨h.toFixed.trans (hf p₁ a).toFixed, (hf p₁ a).persisted.trans h.persisted⟩

theorem loads_loadState (p : PublicControlPlane) (error : Option String) :
    Loads p (p.loadState error).1 := by
  unfold PublicControlPlane.loadState
  cases error <;> exact ⟨⟨rfl, rfl, rfl⟩, rfl⟩

theorem loads_lockState (p : PublicControlPlane) (error : Option String) :
    Loads p (p.lockState error).1 := by
  unfold PublicControlPlane.lockState
  split_ifs
  · exact loads_loadState p error
  · exact Loads.refl p

theorem loads_lookup {α : Type} (p : PublicControlPlane) (error : Option String)
    (look : PublicControlStateStore → Option α) : Loads p (p.lookup error look).1 := by
  unfold PublicControlPlane.lookup
  split
  · exact Loads.refl p
  · split_ifs
    · exact (loads_loadState p error).andThen fun p' _ => Loads.refl p'
    · exact Loads.refl p

theorem loads_authenticateRelay (p : PublicControlPlane) (sha256Hex : String → String)
    (env : Env) (bearerToken relayId brokerRoomId : String) :
    Loads p (p.authenticateRelay sha256Hex env bearerToken relayId brokerRoomId).1 := by
  refine (loads_lockState p _).andThen fun p₁ _ => (loads_lookup p₁ _ _).andThen fun p₂ found => ?_
  split
  · exact Loads.refl p₂
  · split_ifs <;> exact Loads.refl p₂

theorem fixed_save (p : PublicControlPlane) (w : WriteOutcome) : Fixed p (p.save w).1 := by
  unfold PublicControlPlane.save
  split
  · exact Fixed.refl p
  · unfold savePublicControlJson
    split
    · exact Fixed.refl p
    · split <;> exact ⟨rfl, rfl, rfl⟩
  · unfold savePublicControlPostgres
    dsimp only
    split
    · exact ⟨rfl, rfl, rfl⟩
    · split_ifs <;> first | exact ⟨rfl, rfl, rfl⟩ | (split <;> exact ⟨rfl, rfl, rfl⟩)

theorem fixed_transact {α : Type} (p : PublicControlPlane) (env : Env) (edit : StoreEdit α) :
    Fixed p (p.transact env edit).1 := by
  refine (loads_lockState p env.loadError).toFixed.andThen fun p₁ _ => ?_
  split
  · exact Fixed.refl p₁
  · dsimp only
    have hstate : ∀ next, Fixed p₁ { p₁ with state := next } := fun next => ⟨rfl, rfl, rfl⟩
    split_ifs
    · exact ((hstate _).trans (fixed_save _ _)).andThen fun p₂ _ => Fixed.refl p₂
    · exact hstate _

theorem fixed_renewClientGrace (p : PublicControlPlane) (env : Env)
    (primaryHash tokenHash : String) : Fixed p (p.renewClientGrace env primaryHash tokenHash) := by
  unfold PublicControlPlane.renewClientGrace
  split
  · exact Fixed.refl p
  · dsimp only
    split_ifs
    · refine Fixed.trans ?_ (fixed_save _ _)
      exact ⟨rfl, rfl, rfl⟩
    · exact ⟨rfl, rfl, rfl⟩

theorem fixed_authenticateClient (p : PublicControlPlane) (sha256Hex : String → String)
    (env : Env) (bearerToken : String) :
    Fixed p (p.authenticateClient sha256Hex env bearerToken).1 := by
  refine (loads_lockState p _).toFixed.andThen fun p₁ _ =>
    (loads_lookup p₁ _ _).toFixed.andThen fun p₂ found => ?_
  split
  · exact Fixed.refl p₂
  · dsimp only
    split_ifs
    · exact fixed_renewClientGrace p₂ env _ _
    · exact Fixed.refl p₂

/-- The property neither looks at markers nor at which old tokens a row still honours. -/
structure Stable (P : PublicControlStateStore → Prop) : Prop where
  durable : ∀ s t : PublicControlStateStore, s.durable = t.durable → P s → P t
  client : ∀ (s : PublicControlStateStore) (k : String) row superseded,
    s.clientRegistrationsByHash[k]? = some row → P s →
      P { s with
        clientRegistrationsByHash := s.clientRegistrationsByHash.insert k
          { row with superseded := superseded } }
  grant : ∀ (s : PublicControlStateStore) (k : String) row superseded,
    s.grantsByHash[k]? = some row → P s →
      P { s with
        grantsByHash := s.grantsByHash.insert k { row with superseded := superseded } }

theorem Stable.and (h : Stable P) (h' : Stable P') : Stable fun s => P s ∧ P' s where
  durable s t hst hs := ⟨h.durable s t hst hs.1, h'.durable s t hst hs.2⟩
  client s k row superseded hrow hs :=
    ⟨h.client s k row superseded hrow hs.1, h'.client s k row superseded hrow hs.2⟩
  grant s k row superseded hrow hs :=
    ⟨h.grant s k row superseded hrow hs.1, h'.grant s k row superseded hrow hs.2⟩

theorem stable_true : Stable fun _ => True :=
  ⟨fun _ _ _ _ => trivial, fun _ _ _ _ _ _ => trivial, fun _ _ _ _ _ _ => trivial⟩

def SameHolders (s t : PublicControlStateStore) : Prop :=
  s.relayRegistrationsByHash = t.relayRegistrationsByHash ∧
    s.clientRegistrationsByHash = t.clientRegistrationsByHash

theorem sameHolders_of_durable {s t : PublicControlStateStore} (h : s.durable = t.durable) :
    SameHolders s t := ⟨(durable_eq.mp h).1, (durable_eq.mp h).2.1⟩

/-- Memory has the property, a database that memory is read back from has it too, and what is
stored for the next process has a weaker one. -/
structure Kept (P Q : PublicControlStateStore → Prop) (p : PublicControlPlane) : Prop
    extends Based p where
  settled : p.isPostgres = false → p.needsReload = false
  agree : p.isPostgres → p.needsReload = false → SameHolders p.state p.persisted
  state : P p.state
  database : p.isPostgres → P p.persisted
  stored : Q p.persisted

theorem Kept.mono (h : Kept P Q p) (hP : ∀ s, P s → P' s) : Kept P' Q p :=
  { h with state := hP _ h.state, database := fun hp => hP _ (h.database hp) }

theorem Kept.live (h : Kept P Q p) : P p.live ∧ p.live.Keyed := by
  unfold PublicControlPlane.live
  split_ifs with hr
  · exact ⟨h.database (isPostgres_of_reload hr), h.keyedPersisted⟩
  · exact ⟨h.state, h.keyed⟩

theorem Kept.live_holders (h : Kept P Q p) (hready : p.needsReload = false) :
    SameHolders p.live p.state := by
  unfold PublicControlPlane.live
  split_ifs with hr
  · have hagree := h.agree (isPostgres_of_reload hr) hready
    exact ⟨hagree.1.symm, hagree.2.symm⟩
  · exact ⟨rfl, rfl⟩

theorem Kept.and_holders (P' : PublicControlStateStore → Prop) (h : Kept P Q p)
    (hready : p.needsReload = false) (hR : ∀ s t, SameHolders s t → P' s → P' t) (hs : P' p.state) :
    Kept (fun s => P s ∧ P' s) Q p :=
  { h with
    state := ⟨h.state, hs⟩
    database := fun hp => ⟨h.database hp, hR _ _ (h.agree hp hready) hs⟩ }

theorem Kept.withRows (h : Kept P Q p) {rows : PublicControlStateStore} (hk : rows.Keyed)
    (hrows : P rows) (hstored : Q rows) :
    Kept P Q { p with state := rows, persisted := rows, lastSaved := rows } :=
  { keyed := hk, keyedPersisted := hk, snapshot := fun _ _ => rfl, settled := h.settled
    agree := fun _ _ => ⟨rfl, rfl⟩, state := hrows, database := fun _ => hrows
    stored := hstored }

/-- However a save ends, what it leaves has the property; a save that is reported leaves the
records it was to write. -/
theorem Kept.save (hP : Stable P) (hPQ : ∀ s, P s → Q s) (h : Kept P Q p)
    (hready : p.needsReload = false) (hk : next.Keyed) (hn : P next) (w : WriteOutcome) :
    Kept P Q (({ p with state := next } : PublicControlPlane).save w).1 ∧
      ((({ p with state := next } : PublicControlPlane).save w).2 = .ok () →
        (({ p with state := next } : PublicControlPlane).save w).1.state = next ∧
        (({ p with state := next } : PublicControlPlane).save w).1.needsReload = false) := by
  have hmemory : p.isPostgres = false → Kept P Q { p with state := next } := fun hp =>
    { keyed := hk, keyedPersisted := h.keyedPersisted
      snapshot := fun hp' => absurd (hp.symm.trans hp') (by simp), settled := h.settled
      agree := fun hp' => absurd (hp.symm.trans hp') (by simp), state := hn
      database := fun hp' => absurd (hp.symm.trans hp') (by simp), stored := h.stored }
  -- Rows of the database have the property, whether the write landed or not.
  have hwritten : p.isPostgres → ∀ rows, rows = applySave p.lastSaved next p.persisted →
      rows.durable = next.durable ∧ rows.Keyed ∧ P rows := by
    rintro hp rows rfl
    have hdurable : (applySave p.lastSaved next p.persisted).durable = next.durable :=
      durable_applySave (h.snapshot hp hready)
    exact ⟨hdurable, hk.applySave h.keyedPersisted, hP.durable _ _ hdurable.symm hn⟩
  have hrows : p.isPostgres → ∀ rows, p.MayHold next w rows → rows.Keyed ∧ P rows := by
    rintro hp rows (rfl | ⟨-, -, hrows⟩)
    · exact ⟨h.keyedPersisted, h.database hp⟩
    · exact (hwritten hp rows hrows).2
  have hwrote := p.wrote hk w
  generalize PublicControlPlane.save _ _ = r at hwrote
  cases hwrote with
  | memory hb => exact ⟨hmemory (by simp [isPostgres, hb]), fun _ => ⟨rfl, hready⟩⟩
  | failed e hb => exact ⟨hmemory (by simp [isPostgres, hb]), fun hok => absurd hok (by simp)⟩
  | file hb =>
    have hp : p.isPostgres = false := by simp [isPostgres, hb]
    refine ⟨?_, fun _ => ⟨rfl, hready⟩⟩
    exact
      { keyed := hk, keyedPersisted := hk
        snapshot := fun hp' => absurd (hp.symm.trans hp') (by simp)
        settled := h.settled, agree := fun _ _ => ⟨rfl, rfl⟩, state := hn
        database := fun _ => hn, stored := hPQ _ hn }
  | stored rows hp hrow =>
    obtain ⟨hdurable, hkeyed, hprop⟩ := hwritten hp rows hrow
    refine ⟨?_, fun _ => ⟨rfl, hready⟩⟩
    exact
      { keyed := hk, keyedPersisted := hkeyed, snapshot := fun _ _ => hdurable.symm
        settled := h.settled, agree := fun _ _ => sameHolders_of_durable hdurable.symm
        state := hn, database := fun _ => hprop, stored := hPQ _ hprop }
  | reread rows told hp hrow hok =>
    obtain ⟨hkeyed, hprop⟩ := hrows hp rows hrow
    exact ⟨h.withRows hkeyed hprop (hPQ _ hprop), fun htold => ⟨hok.mp htold, hready⟩⟩
  | unknown e rows hp hrow =>
    obtain ⟨hkeyed, hprop⟩ := hrows hp rows hrow
    refine ⟨?_, fun hok => absurd hok (by simp)⟩
    exact
      { keyed := hk, keyedPersisted := hkeyed, snapshot := fun _ hr => absurd hr (by simp)
        settled := fun hp' => absurd (hp'.symm.trans hp) (by simp)
        agree := fun _ hr => absurd hr (by simp), state := hn, database := fun _ => hprop
        stored := hPQ _ hprop }

theorem Kept.loadState (h : Kept P Q p) (hp : p.isPostgres) (error : Option String) :
    Kept P Q (p.loadState error).1 ∧
      ∀ a, (p.loadState error).2 = .ok a →
        (p.loadState error).1.state = p.persisted ∧ (p.loadState error).1.needsReload = false := by
  unfold PublicControlPlane.loadState
  cases error with
  | some e => exact ⟨h, fun a ha => absurd ha (by simp)⟩
  | none =>
    have hrows := h.withRows h.keyedPersisted (h.database hp) h.stored
    exact ⟨{ hrows with settled := fun _ => rfl, snapshot := fun _ _ => rfl
                        agree := fun _ _ => ⟨rfl, rfl⟩ }, fun _ _ => ⟨rfl, rfl⟩⟩

theorem Kept.lockState (h : Kept P Q p) (error : Option String) :
    Kept P Q (p.lockState error).1 ∧
      ∀ a, (p.lockState error).2 = .ok a →
        (p.lockState error).1.state = p.live ∧ (p.lockState error).1.needsReload = false := by
  unfold PublicControlPlane.lockState PublicControlPlane.live
  split_ifs with hr
  · exact h.loadState (isPostgres_of_reload hr) error
  · exact ⟨h, fun _ _ => ⟨rfl, known_of_not_reload h.settled hr⟩⟩

theorem Kept.lookup {α : Type} (h : Kept P Q p) (hready : p.needsReload = false)
    (error : Option String) (look : PublicControlStateStore → Option α) :
    Kept P Q (p.lookup error look).1 ∧
      ∀ found, (p.lookup error look).2 = .ok found →
        (p.lookup error look).1.needsReload = false ∧ look (p.lookup error look).1.state = found := by
  unfold PublicControlPlane.lookup
  cases hl : look p.state with
  | some a => exact ⟨h, fun found hfound => ⟨hready, hl.trans (Except.ok.inj hfound)⟩⟩
  | none =>
    dsimp only
    split_ifs with hp
    · have hload := h.loadState hp error
      rcases hr : p.loadState error with ⟨p₁, e | a⟩
      · rw [hr] at hload
        exact ⟨hload.1, fun found hfound => absurd hfound (by simp [Outcome.andThen])⟩
      · rw [hr] at hload
        exact ⟨hload.1, fun found hfound => ⟨(hload.2 a rfl).2, Except.ok.inj hfound⟩⟩
    · exact ⟨h, fun found hfound => ⟨hready, hl.trans (Except.ok.inj hfound)⟩⟩

/-- An edit of what is read next, and the records it was made of when it is reported. -/
theorem Kept.transact {α : Type} (env : Env) (hP' : Stable P') (hPQ : ∀ s, P' s → Q s)
    (hmono : ∀ s, P s → P' s) (h : Kept P Q p) {edit : StoreEdit α}
    (hedit : ∀ next changed a, edit p.live = .ok (next, changed, a) →
      next.Keyed ∧ P' next ∧ (changed = false → SameHolders next p.live)) :
    Kept P' Q (p.transact env edit).1 ∧ ∀ a, (p.transact env edit).2 = .ok a →
      (p.transact env edit).1.needsReload = false ∧
      ∃ changed, edit p.live = .ok ((p.transact env edit).1.state, changed, a) := by
  obtain ⟨hlocked, hready⟩ := h.lockState env.loadError
  have hkept := hlocked.mono hmono
  rcases p.transact_cases env edit with ⟨e, hr⟩ | ⟨hok, next, changed, a, he, hr⟩
  · rw [hr]
    exact ⟨hkept, fun a ha => absurd ha (by simp)⟩
  · obtain ⟨hlive, hready⟩ := hready () hok
    obtain ⟨hk, hn, hsame⟩ := hedit _ _ _ he
    rw [hr]
    generalize (p.lockState env.loadError).1 = p₁ at hkept hlive hready
    cases changed with
    | false =>
      refine ⟨?_, fun b hb => ⟨hready, false, by rw [he, Except.ok.inj hb]; rfl⟩⟩
      have hholders := hsame rfl
      exact
        { keyed := hk, keyedPersisted := hkept.keyedPersisted, snapshot := hkept.snapshot
          settled := hkept.settled
          agree := fun hp hr => by
            have hagree := hkept.agree hp hr
            rw [hlive] at hagree
            exact ⟨hholders.1.trans hagree.1, hholders.2.trans hagree.2⟩
          state := hn, database := hkept.database, stored := hkept.stored }
    | true =>
      have hsaved := hkept.save hP' hPQ hready hk hn env.write
      simp only [if_true]
      rcases hr₂ : ({ p₁ with state := next } : PublicControlPlane).save env.write with
        ⟨p₂, e | _⟩
      · rw [hr₂] at hsaved
        exact ⟨hsaved.1, fun b hb => absurd hb (by simp)⟩
      · rw [hr₂] at hsaved
        obtain ⟨hstate, hready₂⟩ := hsaved.2 rfl
        refine ⟨hsaved.1, fun b hb => ⟨hready₂, true, ?_⟩⟩
        rw [he, Except.ok.inj hb]
        exact congrArg (fun state => Except.ok (state, true, b)) hstate.symm

theorem Kept.renewClientGrace (hP : Stable P) (hPQ : ∀ s, P s → Q s) (h : Kept P Q p)
    (hready : p.needsReload = false) (primaryHash tokenHash : String) :
    Kept P Q (p.renewClientGrace env primaryHash tokenHash) := by
  rcases p.renewClientGrace_cases env primaryHash tokenHash with heq | ⟨row, hrow, heq⟩
  · rw [heq]
    exact h
  · have hkeyed := h.keyed.renewClient primaryHash tokenHash env.authNow p.rotationGraceSecs
    rw [heq]
    rw [renewClient_eq hrow] at hkeyed ⊢
    exact (h.save hP hPQ hready hkeyed (hP.client _ _ row _ hrow h.state) env.authWrite).1

theorem Kept.renewDeviceGrace (hP : Stable P) (hPQ : ∀ s, P s → Q s) (h : Kept P Q p)
    (hready : p.needsReload = false) (primaryHash tokenHash : String) :
    Kept P Q (p.renewDeviceGrace env primaryHash tokenHash) := by
  rcases p.renewDeviceGrace_cases env primaryHash tokenHash with heq | ⟨row, hrow, heq⟩
  · rw [heq]
    exact h
  · have hkeyed := h.keyed.renewGrant primaryHash tokenHash env.authNow p.rotationGraceSecs
    rw [heq]
    rw [renewGrant_eq hrow] at hkeyed ⊢
    exact (h.save hP hPQ hready hkeyed (hP.grant _ _ row _ hrow h.state) env.authWrite).1

structure Lets {α : Type} (P Q : PublicControlStateStore → Prop)
    (r : Outcome PublicControlPlane α) (R : PublicControlPlane → α → Prop) : Prop where
  kept : Kept P Q r.1
  ok : ∀ a, r.2 = .ok a → R r.1 a

theorem Lets.andThen {α β : Type} {r : Outcome PublicControlPlane α}
    {f : PublicControlPlane → α → Outcome PublicControlPlane β}
    {R : PublicControlPlane → α → Prop} {R' : PublicControlPlane → β → Prop} (h : Lets P Q r R)
    (hf : ∀ p' a, Kept P Q p' → R p' a → Lets P Q (f p' a) R') : Lets P Q (r.andThen f) R' := by
  obtain ⟨p', e | a⟩ := r
  · exact ⟨h.kept, fun b hb => absurd hb (by simp [Outcome.andThen])⟩
  · exact hf p' a h.kept (h.ok a rfl)

theorem Lets.keptAndThen {α β : Type} {r : Outcome PublicControlPlane α}
    {f : PublicControlPlane → α → Outcome PublicControlPlane β}
    {R : PublicControlPlane → α → Prop} (h : Lets P Q r R)
    (hf : ∀ p' a, Kept P Q p' → Kept P Q (f p' a).1) : Kept P Q (r.andThen f).1 := by
  obtain ⟨p', e | a⟩ := r
  · exact h.kept
  · exact hf p' a h.kept

theorem Kept.lockLookup {α : Type} (h : Kept P Q p) (lockError missError : Option String)
    (look : PublicControlStateStore → Option α) :
    Lets P Q ((p.lockState lockError).andThen fun p _ => p.lookup missError look)
      fun p' found => p'.needsReload = false ∧ look p'.state = found := by
  have hlock := h.lockState lockError
  refine Lets.andThen (R := fun p' _ => p'.needsReload = false)
    ⟨hlock.1, fun a ha => (hlock.2 a ha).2⟩ fun p₁ _ hp₁ hready => ?_
  have hlookup := hp₁.lookup hready missError look
  exact ⟨hlookup.1, hlookup.2⟩

theorem andThen_assoc {α β γ : Type} (r : Outcome PublicControlPlane α)
    (f : PublicControlPlane → α → Outcome PublicControlPlane β)
    (g : PublicControlPlane → β → Outcome PublicControlPlane γ) :
    (r.andThen fun p a => (f p a).andThen g) = (r.andThen f).andThen g := by
  obtain ⟨p, e | a⟩ := r <;> rfl

section
variable (sha256Hex : String → String)

theorem Kept.authenticateRelay (h : Kept P Q p) (env : Env)
    (bearerToken relayId brokerRoomId : String) :
    Lets P Q (p.authenticateRelay sha256Hex env bearerToken relayId brokerRoomId)
      fun p' registration =>
        p'.needsReload = false ∧ registration.relayId = relayId ∧
        registration.brokerRoomId = brokerRoomId ∧
        p'.live.relayRegistrationsByHash[sha256Hex (trim bearerToken)]? = some registration := by
  unfold PublicControlPlane.authenticateRelay
  dsimp only
  rw [andThen_assoc]
  refine (h.lockLookup _ _ _).andThen fun p₁ found hp₁ hfound => ?_
  cases found with
  | none => exact ⟨hp₁, fun a ha => absurd ha (by simp)⟩
  | some registration =>
    dsimp only
    split_ifs with hid hroom
    · exact ⟨hp₁, fun a ha => absurd ha (by simp)⟩
    · exact ⟨hp₁, fun a ha => absurd ha (by simp)⟩
    · refine ⟨hp₁, fun a ha => ?_⟩
      have hra : registration = a := Except.ok.inj ha
      subst hra
      refine ⟨hfound.1, not_not.mp hid, not_not.mp hroom, ?_⟩
      rw [(hp₁.live_holders hfound.1).1]
      exact hfound.2

def Files (k : String) (client : PersistedClientIdentity) (s : PublicControlStateStore) : Prop :=
  ∃ row, s.clientRegistrationsByHash[k]? = some row ∧ row.clientId = client.clientId ∧
    row.clientVerifyKey = client.clientVerifyKey

theorem stable_files (k : String) (client : PersistedClientIdentity) : Stable (Files k client) where
  durable s t hst hs := by
    unfold Files at hs ⊢
    rwa [(durable_eq.mp hst).2.1] at hs
  client s l row superseded hrow hs := by
    obtain ⟨row', hrow', hid, hkey⟩ := hs
    unfold Files
    simp only [Table.getElem?_insert_of]
    by_cases hkl : k = l
    · subst hkl
      have hrr : row = row' := Option.some.inj (hrow.symm.trans hrow')
      rw [if_pos rfl, hrr]
      exact ⟨_, rfl, hid, hkey⟩
    · rw [if_neg hkl]
      exact ⟨row', hrow', hid, hkey⟩
  grant s l row superseded hrow hs := hs

theorem Kept.authenticateClient (hP : Stable P) (hPQ : ∀ s, P s → Q s) (h : Kept P Q p)
    (env : Env) (bearerToken : String) :
    Lets P Q (p.authenticateClient sha256Hex env bearerToken) fun p' client =>
      ∃ k, Kept (fun s => P s ∧ Files k client s) Q p' := by
  unfold PublicControlPlane.authenticateClient
  dsimp only
  rw [andThen_assoc]
  refine (h.lockLookup _ _ _).andThen fun p₁ found hp₁ hfound => ?_
  cases found with
  | none => exact ⟨hp₁, fun a ha => absurd ha (by simp)⟩
  | some found =>
    obtain ⟨primaryHash, identity⟩ := found
    have hfiled : Files primaryHash identity p₁.state :=
      ⟨identity, findForToken_filed hfound.2, rfl, rfl⟩
    have hboth := hp₁.and_holders (Files primaryHash identity) hfound.1
      (fun s t hst hs => by unfold Files at hs ⊢; rwa [hst.2] at hs) hfiled
    have hafter : Kept (fun s => P s ∧ Files primaryHash identity s) Q
        (if primaryHash ≠ sha256Hex (trim bearerToken) then
          p₁.renewClientGrace env primaryHash (sha256Hex (trim bearerToken)) else p₁) := by
      split_ifs
      · exact hboth.renewClientGrace (hP.and (stable_files _ _)) (fun s hs => hPQ s hs.1)
          hfound.1 _ _
      · exact hboth
    refine ⟨hafter.mono fun s hs => hs.1, fun client hclient => ⟨primaryHash, ?_⟩⟩
    rw [← Except.ok.inj hclient]
    exact hafter

theorem Kept.deviceGrantFromRefreshTokenScoped (hP : Stable P) (hPQ : ∀ s, P s → Q s)
    (h : Kept P Q p) (env : Env) (bearerToken : String) (expectedRoom : Option String) :
    Lets P Q (p.deviceGrantFromRefreshTokenScoped sha256Hex env bearerToken expectedRoom)
      fun _ _ => True := by
  unfold PublicControlPlane.deviceGrantFromRefreshTokenScoped
  dsimp only
  rw [andThen_assoc]
  refine (h.lockLookup _ _ _).andThen fun p₁ found hp₁ hfound => ?_
  cases found with
  | none => exact ⟨hp₁, fun a ha => trivial⟩
  | some found =>
    dsimp only
    split_ifs
    · exact ⟨hp₁, fun a ha => trivial⟩
    · exact ⟨hp₁.renewDeviceGrace hP hPQ hfound.1 _ _, fun a ha => trivial⟩
    · exact ⟨hp₁, fun a ha => trivial⟩

end

theorem Kept.touchDeviceLastSeen (hP : Stable P) (hQ : Stable Q) (h : Kept P Q p) (env : Env)
    (primaryHash : String) : Kept P Q (p.touchDeviceLastSeen env primaryHash) := by
  obtain ⟨rows, heq, -, hpersisted, hkeyed⟩ := touchDeviceLastSeen_eq p env primaryHash
  have hstate := durable_touched p.state primaryHash env.authNow
  rw [heq]
  exact
    { keyed := touched_keyed_store h.keyed primaryHash env.authNow
      keyedPersisted := hkeyed h.keyedPersisted
      snapshot := fun hp hready => (h.snapshot hp hready).trans hpersisted.symm
      settled := h.settled, agree := h.agree, state := hP.durable _ _ hstate.symm h.state
      database := fun hp => hP.durable _ _ hpersisted.symm (h.database hp)
      stored := hQ.durable _ _ hpersisted.symm h.stored }

theorem Kept.withClaims (h : Kept P Q p) (claims : Table PendingClientClaim) :
    Kept P Q { p with pendingClientClaims := claims } :=
  { keyed := h.keyed, keyedPersisted := h.keyedPersisted, snapshot := h.snapshot
    settled := h.settled, agree := h.agree, state := h.state, database := h.database
    stored := h.stored }

end PublicControlPlane

end AgentRelay.Control
