import AgentRelay.ControlAtomic

/-! The rows of memory and of the backend agree, and a read, a save or a critical section leaves
what is read next as it was or as the edit makes it, however the backend's reads and writes go.
What a client holds for a relay is left out: a bulk revocation may take it from memory alone. -/
namespace AgentRelay.Control
open Text RecordTables Std

theorem findForToken_map {V W : Type} (f : V → W) (superseded : W → List SupersededToken)
    (m : Table V) (tokenHash : String) (now : Nat) :
    findForToken superseded (m.map fun _ v => f v) tokenHash now =
      (findForToken (fun v => superseded (f v)) m tokenHash now).map (Prod.map id f) := by
  unfold findForToken
  rw [ExtTreeMap.getElem?_map]
  cases m[tokenHash]? with
  | some v => rfl
  | none =>
    simp only [Option.map_none, ExtTreeMap.toList_map, List.find?_map]
    rfl

namespace PublicControlStateStore

variable {s t u : PublicControlStateStore}

theorem SameRows.renewClient (h : SameRows s t) (primaryHash tokenHash : String)
    (now graceSecs : Nat) : SameRows (s.renewClient primaryHash tokenHash now graceSecs)
      (t.renewClient primaryHash tokenHash now graceSecs) := by
  unfold PublicControlStateStore.renewClient
  rw [h.clients]
  split
  · exact h
  · exact ⟨h.relays, rfl, h.grants⟩

theorem SameRows.renewGrant (h : SameRows s t) (primaryHash tokenHash : String)
    (now graceSecs : Nat) : SameRows (s.renewGrant primaryHash tokenHash now graceSecs)
      (t.renewGrant primaryHash tokenHash now graceSecs) := by
  unfold PublicControlStateStore.renewGrant
  cases ht : t.grantsByHash[primaryHash]? with
  | none =>
    have hs := h.grants primaryHash
    rw [ht, Option.map_none, eq_comm, Option.map_eq_none_iff] at hs
    rw [hs]
    exact h
  | some v =>
    obtain ⟨w, hw, hunseen⟩ := h.grant ht
    rw [hw]
    refine ⟨h.relays, h.clients, fun k => ?_⟩
    simp only [Table.getElem?_insert_of]
    split_ifs
    · have hsuperseded : w.superseded = v.superseded := congrArg (·.superseded) hunseen
      have hrow := congrArg (fun g : PersistedDeviceGrant => { g with superseded :=
        (bumpSupersededExpiry tokenHash now graceSecs v.superseded).1 }) hunseen
      rw [Option.map_some, Option.map_some, hsuperseded]
      exact congrArg some hrow.symm
    · exact h.grants k

theorem SameRows.findDeviceGrantForToken (h : SameRows s t) {tokenHash k : String} {now : Nat}
    {row : PersistedDeviceGrant} (hfind : findDeviceGrantForToken t tokenHash now = some (k, row)) :
    ∃ row', Control.findDeviceGrantForToken s tokenHash now = some (k, row') ∧
      row'.unseen = row.unseen := by
  have hrows : (s.grantsByHash.map fun _ g => g.unseen) =
      t.grantsByHash.map fun _ g => g.unseen := by
    apply ExtTreeMap.ext_getElem?
    intro l
    rw [ExtTreeMap.getElem?_map, ExtTreeMap.getElem?_map]
    exact (h.grants l).symm
  have hs := findForToken_map PersistedDeviceGrant.unseen (·.superseded) s.grantsByHash
    tokenHash now
  have ht := findForToken_map PersistedDeviceGrant.unseen (·.superseded) t.grantsByHash
    tokenHash now
  have hfound := hs.symm.trans (hrows ▸ ht)
  unfold Control.findDeviceGrantForToken at hfind ⊢
  rw [show (findForToken (fun g => g.unseen.superseded) t.grantsByHash tokenHash now) =
    some (k, row) from hfind] at hfound
  obtain ⟨⟨l, row'⟩, hrow', heq⟩ := Option.map_eq_some_iff.mp hfound
  obtain ⟨rfl, hunseen⟩ := Prod.mk.inj heq
  exact ⟨row', hrow', hunseen⟩

end PublicControlStateStore

namespace PublicControlPlane
open PublicControlStateStore

variable {p p' : PublicControlPlane} {next : PublicControlStateStore} {env : Env} {c : Crypto}
  {op : Env × ControlOp}

structure Aligned (p : PublicControlPlane) : Prop where
  kept : Kept (fun _ => True) (fun _ => True) p
  agree : p.isPostgres → p.needsReload = false → SameRows p.state p.persisted

theorem lockState_frame (p : PublicControlPlane) (error : Option String) :
    (p.lockState error).1.live = p.live ∧ (p.lockState error).1.persisted = p.persisted := by
  unfold PublicControlPlane.lockState
  split_ifs with hr
  · cases error with
    | some e => exact ⟨rfl, rfl⟩
    | none =>
      have hlive : p.live = p.persisted := if_pos hr
      have hloaded : (p.loadState none).1.live = p.persisted := live_of_same rfl
      exact ⟨hloaded.trans hlive.symm, rfl⟩
  · exact ⟨rfl, rfl⟩

theorem lockState_none (p : PublicControlPlane) :
    p.lockState none = ((p.lockState none).1, .ok ()) ∧
      (p.lockState none).1.lockState none = p.lockState none := by
  unfold PublicControlPlane.lockState
  split_ifs with hr hr'
  · exact ⟨rfl, rfl⟩
  · exact ⟨rfl, rfl⟩
  · exact ⟨rfl, rfl⟩

theorem lockLookup_hit {α : Type} {look : PublicControlStateStore → Option α} {a : α}
    (h : look p.live = some a) (lockError missError : Option String) :
    ((p.lockState lockError).andThen fun p _ => p.lookup missError look) =
      (p.lockState lockError).andThen fun p _ => (p, .ok (some a)) := by
  rcases hr : p.lockState lockError with ⟨p₁, e | _⟩
  · rfl
  · have hstate := lockState_state (congrArg Prod.snd hr)
    rw [hr] at hstate
    have hfound : look p₁.state = some a := (congrArg look hstate).trans h
    simp only [Outcome.andThen_ok, PublicControlPlane.lookup, hfound]

theorem andThen_of_ok {α β : Type} {r : Outcome PublicControlPlane α} {a : α} (h : r.2 = .ok a)
    (f : PublicControlPlane → α → Outcome PublicControlPlane β) : r.andThen f = f r.1 a := by
  obtain ⟨p', e | b⟩ := r
  · exact absurd h (by simp)
  · rw [Except.ok.inj h, Outcome.andThen_ok]

theorem Aligned.live (h : Aligned p) (hready : p.needsReload = false) :
    SameRows p.live p.state := by
  unfold PublicControlPlane.live
  split_ifs with hr
  · exact (h.agree (isPostgres_of_reload hr) hready).symm
  · exact SameRows.refl _

theorem Aligned.loadState (h : Aligned p) (hp : p.isPostgres) (error : Option String) :
    Aligned (p.loadState error).1 := by
  refine ⟨(h.kept.loadState hp error).1, ?_⟩
  cases error with
  | some e => exact h.agree
  | none => exact fun _ _ => SameRows.refl _

structure Looks {α : Type} (p : PublicControlPlane) (r : Outcome PublicControlPlane α)
    (Q : PublicControlPlane → α → Prop) : Prop where
  aligned : Aligned r.1
  rows : SameRows p.live r.1.live
  ok : ∀ a, r.2 = .ok a → r.1.needsReload = false ∧ Q r.1 a

theorem Looks.andThen {α β : Type} {r : Outcome PublicControlPlane α}
    {f : PublicControlPlane → α → Outcome PublicControlPlane β}
    {Q : PublicControlPlane → α → Prop} {R : PublicControlPlane → β → Prop} (h : Looks p r Q)
    (hf : ∀ p' a, Aligned p' → p'.needsReload = false → Q p' a → Looks p' (f p' a) R) :
    Looks p (r.andThen f) R := by
  obtain ⟨p', e | a⟩ := r
  · exact ⟨h.aligned, h.rows, fun _ hb => absurd hb (by simp [Outcome.andThen])⟩
  · obtain ⟨hready, hq⟩ := h.ok a rfl
    have hrest := hf p' a h.aligned hready hq
    exact ⟨hrest.aligned, h.rows.trans hrest.rows, hrest.ok⟩

theorem Aligned.lockState (h : Aligned p) (error : Option String) :
    Looks p (p.lockState error) fun p' _ => p'.state = p.live := by
  have hlock := h.kept.lockState error
  unfold PublicControlPlane.lockState at hlock ⊢
  split_ifs at hlock ⊢ with hr
  · have hload := h.loadState (isPostgres_of_reload hr) error
    refine ⟨hload, ?_, fun a ha => ⟨(hlock.2 a ha).2, (hlock.2 a ha).1⟩⟩
    cases error with
    | some e => exact SameRows.refl _
    | none =>
      have hlive : p.live = p.persisted := if_pos hr
      have hloaded : (p.loadState none).1.live = p.persisted := live_of_same rfl
      rw [hlive, hloaded]
      exact SameRows.refl _
  · exact ⟨h, SameRows.refl _, fun a ha => ⟨(hlock.2 a ha).2, (hlock.2 a ha).1⟩⟩

theorem Aligned.lookup {α : Type} (h : Aligned p) (hready : p.needsReload = false)
    (error : Option String) (look : PublicControlStateStore → Option α) :
    Looks p (p.lookup error look) fun p' found => look p'.state = found := by
  have hlookup := (h.kept.lookup hready error look).2
  unfold PublicControlPlane.lookup at hlookup ⊢
  split at hlookup
  · exact ⟨h, SameRows.refl _, hlookup⟩
  · split_ifs at hlookup ⊢ with hp
    · have hload := h.loadState hp error
      cases error with
      | some e => exact ⟨hload, SameRows.refl _, hlookup⟩
      | none =>
        refine ⟨hload, ?_, hlookup⟩
        have hloaded : (p.loadState none).1.live = p.persisted := live_of_same rfl
        exact hloaded ▸ (h.live hready).trans (h.agree hp hready)
    · exact ⟨h, SameRows.refl _, hlookup⟩

/-- What looking a token up does: it may fail, and else it finds what the records say. -/
theorem Aligned.lockLookup {α : Type} (h : Aligned p) (lockError missError : Option String)
    (look : PublicControlStateStore → Option α) :
    ∃ p₁, Aligned p₁ ∧ SameRows p.live p₁.live ∧ p₁.rotationGraceSecs = p.rotationGraceSecs ∧
      ((∃ e, ((p.lockState lockError).andThen fun p _ => p.lookup missError look) =
          (p₁, .error e)) ∨
        SameRows p.live p₁.state ∧ p₁.needsReload = false ∧
          ((p.lockState lockError).andThen fun p _ => p.lookup missError look) =
            (p₁, .ok (look p₁.state))) := by
  obtain ⟨haligned, hrows, hok⟩ :=
    (h.lockState lockError).andThen fun _ _ hp' hready _ => hp'.lookup hready missError look
  have hloads := (loads_lockState p lockError).andThen fun p _ => loads_lookup p missError look
  generalize (p.lockState lockError).andThen _ = r at haligned hrows hok hloads ⊢
  obtain ⟨p₁, e | found⟩ := r
  · exact ⟨p₁, haligned, hrows, hloads.graceSecs, Or.inl ⟨e, rfl⟩⟩
  · obtain ⟨hready, hfound⟩ := hok found rfl
    refine ⟨p₁, haligned, hrows, hloads.graceSecs,
      Or.inr ⟨hrows.trans (haligned.live hready), hready, ?_⟩⟩
    rw [hfound]

theorem live_of_memory (h : p.isPostgres = false) : p.live = p.state := by
  unfold PublicControlPlane.live
  split_ifs with hr
  · exact absurd (h.symm.trans (isPostgres_of_reload hr)) (by simp)
  · rfl

/-- The records read next are those a write was to leave or those before it, and a database
in known state agrees with memory. -/
structure Lands {α : Type} (p : PublicControlPlane) (next : PublicControlStateStore)
    (r : Outcome PublicControlPlane α) : Prop where
  agree : r.1.isPostgres → r.1.needsReload = false → SameRows r.1.state r.1.persisted
  rows : SameRows p.live r.1.live ∨ SameRows next r.1.live

theorem Lands.memory {α : Type} {r : Outcome PublicControlPlane α} (h : r.1.isPostgres = false)
    (hstate : r.1.state = next) : Lands p next r := by
  refine ⟨fun hp => absurd (h.symm.trans hp) (by simp), Or.inr ?_⟩
  rw [live_of_memory h, hstate]
  exact SameRows.refl _

theorem Lands.same {α : Type} {r : Outcome PublicControlPlane α} (h : r.1.state = r.1.persisted)
    (hrows : SameRows p.live r.1.persisted ∨ SameRows next r.1.persisted) : Lands p next r := by
  refine ⟨fun _ _ => h ▸ SameRows.refl _, ?_⟩
  rwa [live_of_same h]

theorem Lands.unknown {rows : PublicControlStateStore} (hp : p.isPostgres)
    (hrows : SameRows p.live rows ∨ SameRows next rows) (e : String) :
    Lands (α := Unit) p next
      ({ p with state := next, persisted := rows, needsReload := true }, .error e) := by
  refine ⟨fun _ hready => absurd hready (by simp), ?_⟩
  obtain ⟨reload, hb⟩ := persistence_of_isPostgres hp
  have hlive : PublicControlPlane.live
      { p with state := next, persisted := rows, needsReload := true } = rows := by
    simp [PublicControlPlane.live, reloadBeforeUse, hb]
  rwa [hlive]

theorem Aligned.lands (h : Aligned p) (hready : p.needsReload = false) (hk : next.Keyed)
    (w : WriteOutcome) :
    Lands p next (({ p with state := next } : PublicControlPlane).save w) := by
  -- Rows of the database agree with those read next or with those that were to be written.
  have hwritten : p.isPostgres → ∀ rows, rows = applySave p.lastSaved next p.persisted →
      SameRows next rows := by
    rintro hp rows rfl
    exact sameRows_of_durable (durable_applySave (h.kept.snapshot hp hready)).symm
  have hrows : p.isPostgres → ∀ rows, p.MayHold next w rows →
      SameRows p.live rows ∨ SameRows next rows := by
    rintro hp rows (rfl | ⟨-, -, hrow⟩)
    · exact Or.inl ((h.live hready).trans (h.agree hp hready))
    · exact Or.inr (hwritten hp rows hrow)
  have hwrote := p.wrote hk w
  generalize PublicControlPlane.save _ _ = r at hwrote
  cases hwrote with
  | memory hb => exact Lands.memory (by simp [isPostgres, hb]) rfl
  | failed e hb => exact Lands.memory (by simp [isPostgres, hb]) rfl
  | file hb => exact Lands.memory (by simp [isPostgres, hb]) rfl
  | stored rows hp hrow =>
    have hsame := hwritten hp rows hrow
    refine ⟨fun _ _ => hsame, Or.inr ?_⟩
    unfold PublicControlPlane.live
    split_ifs
    · exact hsame
    · exact SameRows.refl _
  | reread rows told hp hrow => exact Lands.same rfl (hrows hp rows hrow)
  | unknown e rows hp hrow => exact Lands.unknown hp (hrows hp rows hrow) e

theorem Aligned.save (h : Aligned p) (hready : p.needsReload = false) (hk : next.Keyed)
    (w : WriteOutcome) :
    Aligned (({ p with state := next } : PublicControlPlane).save w).1 ∧
      (SameRows p.live (({ p with state := next } : PublicControlPlane).save w).1.live ∨
        SameRows next (({ p with state := next } : PublicControlPlane).save w).1.live) := by
  have hlands := h.lands hready hk w
  exact ⟨⟨(h.kept.save stable_true (fun _ _ => trivial) hready hk trivial w).1, hlands.agree⟩,
    hlands.rows⟩

theorem Aligned.unsaved (h : Aligned p) (hready : p.needsReload = false) (hk : next.Keyed)
    (hsame : SameRows p.state next) :
    Aligned { p with state := next } ∧
      SameRows p.live (PublicControlPlane.live { p with state := next }) := by
  have hholders : SameHolders next p.state := ⟨hsame.relays, hsame.clients⟩
  constructor
  · exact
      { kept :=
          { keyed := hk, keyedPersisted := h.kept.keyedPersisted, snapshot := h.kept.snapshot
            settled := h.kept.settled
            agree := fun hp hr => by
              have hagree := h.kept.agree hp hr
              exact ⟨hholders.1.trans hagree.1, hholders.2.trans hagree.2⟩
            state := trivial, database := fun _ => trivial, stored := trivial }
        agree := fun hp hr => hsame.symm.trans (h.agree hp hr) }
  · have hlive := h.live hready
    unfold PublicControlPlane.live at hlive ⊢
    split_ifs at hlive ⊢ with hr hr'
    · exact SameRows.refl _
    · exact absurd hr hr'
    · rename_i hr'
      exact absurd hr' hr
    · exact hsame

theorem Aligned.transact {α : Type} (h : Aligned p) (env : Env) {edit : StoreEdit α}
    (hedit : ∀ next changed a, edit p.live = .ok (next, changed, a) →
      next.Keyed ∧ (changed = false → SameRows p.live next)) :
    Aligned (p.transact env edit).1 ∧ (SameRows p.live (p.transact env edit).1.live ∨
      ∃ next changed a, edit p.live = .ok (next, changed, a) ∧
        SameRows next (p.transact env edit).1.live) := by
  obtain ⟨haligned, hrows, hready⟩ := h.lockState env.loadError
  rcases p.transact_cases env edit with ⟨e, hr⟩ | ⟨hok, next, changed, a, he, hr⟩
  · rw [hr]
    exact ⟨haligned, Or.inl hrows⟩
  · obtain ⟨hready, hstate⟩ := hready () hok
    obtain ⟨hk, hsame⟩ := hedit _ _ _ he
    rw [hr]
    generalize (p.lockState env.loadError).1 = p₁ at haligned hrows hready hstate
    cases changed with
    | false =>
      have hunsaved := haligned.unsaved hready hk (hstate ▸ hsame rfl)
      exact ⟨hunsaved.1, Or.inl (hrows.trans hunsaved.2)⟩
    | true =>
      have hsaved := haligned.save hready hk env.write
      rw [if_pos rfl, answer_fst _ fun _ _ => rfl]
      exact ⟨hsaved.1, hsaved.2.imp hrows.trans fun hnext => ⟨next, true, a, he, hnext⟩⟩

theorem Aligned.renewClientGrace (h : Aligned p) (hready : p.needsReload = false) (env : Env)
    (primaryHash tokenHash : String) :
    Aligned (p.renewClientGrace env primaryHash tokenHash) ∧
      (SameRows p.live (p.renewClientGrace env primaryHash tokenHash).live ∨
        SameRows (p.state.renewClient primaryHash tokenHash env.authNow p.rotationGraceSecs)
          (p.renewClientGrace env primaryHash tokenHash).live) := by
  rcases p.renewClientGrace_cases env primaryHash tokenHash with heq | ⟨row, -, heq⟩
  · rw [heq]
    exact ⟨h, Or.inl (SameRows.refl _)⟩
  · rw [heq]
    exact h.save hready (h.kept.keyed.renewClient _ _ _ _) env.authWrite

theorem Aligned.renewDeviceGrace (h : Aligned p) (hready : p.needsReload = false) (env : Env)
    (primaryHash tokenHash : String) :
    Aligned (p.renewDeviceGrace env primaryHash tokenHash) ∧
      (SameRows p.live (p.renewDeviceGrace env primaryHash tokenHash).live ∨
        SameRows (p.state.renewGrant primaryHash tokenHash env.authNow p.rotationGraceSecs)
          (p.renewDeviceGrace env primaryHash tokenHash).live) := by
  rcases p.renewDeviceGrace_cases env primaryHash tokenHash with heq | ⟨row, -, heq⟩
  · rw [heq]
    exact ⟨h, Or.inl (SameRows.refl _)⟩
  · rw [heq]
    exact h.save hready (h.kept.keyed.renewGrant _ _ _ _) env.authWrite

theorem Aligned.touchDeviceLastSeen (h : Aligned p) (env : Env) (primaryHash : String) :
    Aligned (p.touchDeviceLastSeen env primaryHash) ∧
      SameRows p.live (p.touchDeviceLastSeen env primaryHash).live := by
  have hkept := h.kept.touchDeviceLastSeen stable_true stable_true env primaryHash
  obtain ⟨rows, heq, -, hrows, -⟩ := touchDeviceLastSeen_eq p env primaryHash
  have hstate := sameRows_of_durable (durable_touched p.state primaryHash env.authNow).symm
  have hpersisted := sameRows_of_durable hrows.symm
  rw [heq] at hkept ⊢
  refine ⟨⟨hkept, fun hp hr => (hstate.symm.trans (h.agree hp hr)).trans hpersisted⟩, ?_⟩
  change SameRows (if p.reloadBeforeUse then p.persisted else p.state)
    (if p.reloadBeforeUse then _ else _)
  split_ifs
  · exact hpersisted
  · exact hstate

end PublicControlPlane

end AgentRelay.Control
