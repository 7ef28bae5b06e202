import AgentRelay.ControlDurable

/-! Who the control plane lets in: at any one moment reads, reloads and the renewal of a grace
window leave every holder the access it had, in memory and after a restart. -/
namespace AgentRelay.Control
open Text RecordTables Std
open AgentRelay.Relay (saturatingAdd)

section grace
variable {tokenHash : String} {now graceSecs : Nat} {superseded : List SupersededToken}

theorem honours_cons (token : SupersededToken) (hash : String) :
    honours (token :: superseded) hash now =
      (decide (token.refreshTokenHash = hash ∧ now < token.expiresAt) ||
        honours superseded hash now) := by
  simp [honours]

theorem honours_bump (hash : String) :
    honours (bumpSupersededExpiry tokenHash now graceSecs superseded).1 hash now =
      honours superseded hash now := by
  induction superseded with
  | nil => rfl
  | cons token rest ih =>
    unfold bumpSupersededExpiry
    dsimp only
    split_ifs with hmatch hrenew
    · have hvalid : now < saturatingAdd now graceSecs := hmatch.2.trans hrenew.2
      simp only [honours_cons, hmatch.2, hvalid]
    · rfl
    · simp only [honours_cons, ih]

theorem bump_unchanged
    (h : (bumpSupersededExpiry tokenHash now graceSecs superseded).2 = false) :
    (bumpSupersededExpiry tokenHash now graceSecs superseded).1 = superseded := by
  induction superseded with
  | nil => rfl
  | cons token rest ih =>
    unfold bumpSupersededExpiry at h ⊢
    dsimp only at h ⊢
    split_ifs at h ⊢ with hmatch hrenew
    · rfl
    · rw [ih h]

theorem bump_changed
    (h : (bumpSupersededExpiry tokenHash now graceSecs superseded).2 = true) :
    (bumpSupersededExpiry tokenHash now graceSecs superseded).1 ≠ superseded := by
  induction superseded with
  | nil => exact absurd h (by simp [bumpSupersededExpiry])
  | cons token rest ih =>
    unfold bumpSupersededExpiry at h ⊢
    dsimp only at h ⊢
    split_ifs at h ⊢ with hmatch hrenew
    · intro heq
      have htoken := congrArg SupersededToken.expiresAt (List.cons.inj heq).1
      have := hrenew.2
      simp only at htoken
      omega
    · intro heq
      exact ih h (List.cons.inj heq).2

end grace

/-- What matters of a client's row at a moment: who it is, and which old tokens let it in. -/
def PersistedClientIdentity.view (now : Nat) (v : PersistedClientIdentity) :
    String × String × (String → Bool) :=
  (v.clientId, v.clientVerifyKey, fun hash => honours v.superseded hash now)

def PersistedDeviceGrant.view (now : Nat) (v : PersistedDeviceGrant) :
    String × String × String × (String → Bool) :=
  (v.relayId, v.brokerRoomId, v.deviceId, fun hash => honours v.superseded hash now)

namespace PublicControlStateStore

structure Renewed (now : Nat) (s t : PublicControlStateStore) : Prop where
  relays : t.relayRegistrationsByHash = s.relayRegistrationsByHash
  clients : ∀ k : String, (t.clientRegistrationsByHash[k]?).map (·.view now) =
    (s.clientRegistrationsByHash[k]?).map (·.view now)
  grants : ∀ k : String, (t.grantsByHash[k]?).map (·.view now) =
    (s.grantsByHash[k]?).map (·.view now)
  relayGrants : t.clientRelayGrantsByKey = s.clientRelayGrantsByKey

theorem Renewed.trans {now : Nat} {s t u : PublicControlStateStore} (h : Renewed now s t)
    (h' : Renewed now t u) : Renewed now s u :=
  ⟨h'.relays.trans h.relays, fun k => (h'.clients k).trans (h.clients k),
    fun k => (h'.grants k).trans (h.grants k), h'.relayGrants.trans h.relayGrants⟩

theorem renewed_of_durable {now : Nat} {s t : PublicControlStateStore}
    (h : t.durable = s.durable) : Renewed now s t := by
  obtain ⟨hrelays, hclients, hgrants, hrelayGrants⟩ := durable_eq.mp h
  refine ⟨hrelays, fun k => by rw [hclients], fun k => ?_, hrelayGrants⟩
  -- The view of a grant does not show its marker.
  have hk := congrArg (Option.map (PersistedDeviceGrant.view now)) (hgrants k)
  rw [Option.map_map, Option.map_map] at hk
  exact hk

def renewClient (s : PublicControlStateStore) (primaryHash tokenHash : String)
    (now graceSecs : Nat) : PublicControlStateStore :=
  match s.clientRegistrationsByHash[primaryHash]? with
  | none => s
  | some row =>
    { s with
      clientRegistrationsByHash := s.clientRegistrationsByHash.insert primaryHash
        { row with superseded :=
            (bumpSupersededExpiry tokenHash now graceSecs row.superseded).1 } }

def renewGrant (s : PublicControlStateStore) (primaryHash tokenHash : String)
    (now graceSecs : Nat) : PublicControlStateStore :=
  match s.grantsByHash[primaryHash]? with
  | none => s
  | some row =>
    { s with
      grantsByHash := s.grantsByHash.insert primaryHash
        { row with superseded :=
            (bumpSupersededExpiry tokenHash now graceSecs row.superseded).1 } }

variable {s : PublicControlStateStore} {primaryHash : String}

theorem renewClient_eq {row : PersistedClientIdentity}
    (h : s.clientRegistrationsByHash[primaryHash]? = some row) (tokenHash : String)
    (now graceSecs : Nat) :
    s.renewClient primaryHash tokenHash now graceSecs =
      { s with
        clientRegistrationsByHash := s.clientRegistrationsByHash.insert primaryHash
          { row with superseded :=
              (bumpSupersededExpiry tokenHash now graceSecs row.superseded).1 } } := by
  rw [renewClient, h]

theorem renewGrant_eq {row : PersistedDeviceGrant}
    (h : s.grantsByHash[primaryHash]? = some row) (tokenHash : String) (now graceSecs : Nat) :
    s.renewGrant primaryHash tokenHash now graceSecs =
      { s with
        grantsByHash := s.grantsByHash.insert primaryHash
          { row with superseded :=
              (bumpSupersededExpiry tokenHash now graceSecs row.superseded).1 } } := by
  rw [renewGrant, h]

theorem Keyed.renewClient (h : s.Keyed) (primaryHash tokenHash : String) (now graceSecs : Nat) :
    (s.renewClient primaryHash tokenHash now graceSecs).Keyed := by
  unfold PublicControlStateStore.renewClient
  split
  · exact h
  · rename_i row hrow
    exact ⟨h.relays, h.clients.insert (h.clients primaryHash row hrow), h.grants, h.relayGrants⟩

theorem Keyed.renewGrant (h : s.Keyed) (primaryHash tokenHash : String) (now graceSecs : Nat) :
    (s.renewGrant primaryHash tokenHash now graceSecs).Keyed := by
  unfold PublicControlStateStore.renewGrant
  split
  · exact h
  · rename_i row hrow
    exact ⟨h.relays, h.clients, h.grants.insert (h.grants primaryHash row hrow), h.relayGrants⟩

end PublicControlStateStore

namespace PublicControlPlane
open PublicControlStateStore

variable {p : PublicControlPlane} {next : PublicControlStateStore} {w : WriteOutcome} {now : Nat}

structure Alike (now : Nat) (p p' : PublicControlPlane) : Prop where
  persistence : p'.persistence = p.persistence
  graceSecs : p'.rotationGraceSecs = p.rotationGraceSecs
  claims : p'.pendingClientClaims = p.pendingClientClaims
  persisted : Renewed now p.persisted p'.persisted
  live : Renewed now p.live p'.live

theorem Alike.trans {p p' p'' : PublicControlPlane} (h : Alike now p p') (h' : Alike now p' p'') :
    Alike now p p'' :=
  ⟨h'.persistence.trans h.persistence, h'.graceSecs.trans h.graceSecs, h'.claims.trans h.claims,
    h.persisted.trans h'.persisted, h.live.trans h'.live⟩

theorem Unmoved.alike {p p' : PublicControlPlane} (h : Unmoved p p') : Alike now p p' :=
  ⟨h.persistence, h.graceSecs, h.claims, renewed_of_durable (by rw [h.persisted]),
    renewed_of_durable h.live⟩

theorem InStep.persisted_renewed (h : p.InStep) (hready : p.needsReload = false)
    (hb : p.persistence ≠ .inMemory) (hren : Renewed now p.state next) :
    Renewed now p.persisted next :=
  (renewed_of_durable (h.agree hb hready)).trans hren

theorem Saved.alike {r : Outcome PublicControlPlane Unit} (hs : Saved p next w r) (h : p.InStep)
    (hready : p.Ready) (hren : Renewed now p.state next) : Alike now p r.1 := by
  have hlive := hready.live
  have hself : ∀ s, Renewed now s s := fun s => renewed_of_durable rfl
  cases hs with
  | memory hb =>
    refine ⟨rfl, rfl, rfl, hself _, ?_⟩
    have hlive' : PublicControlPlane.live { p with state := next } = next := by
      simp [PublicControlPlane.live, reloadBeforeUse, hb]
    rw [hlive, hlive']
    exact hren
  | done saved hb hsaved =>
    refine ⟨rfl, rfl, rfl, h.persisted_renewed hready.known hb hren, ?_⟩
    have hlive' : PublicControlPlane.live
        { p with state := next, persisted := next, lastSaved := saved } = next :=
      live_of_same rfl
    rw [hlive, hlive']
    exact hren
  | undone e hp =>
    refine ⟨rfl, rfl, rfl, hself _, ?_⟩
    have hlive' : PublicControlPlane.live
        { p with state := p.persisted, lastSaved := p.persisted } = p.persisted :=
      live_of_same rfl
    rw [hlive, hlive']
    exact renewed_of_durable (h.agree (isPostgres_ne_inMemory hp) hready.known).symm
  | unknown e rows hp hrows hreloads =>
    obtain ⟨reload, hb⟩ := persistence_of_isPostgres hp
    have hne := isPostgres_ne_inMemory hp
    have hrowsren : Renewed now p.persisted rows := by
      rcases hrows with rfl | ⟨-, -, rfl⟩
      · exact hself _
      · exact h.persisted_renewed hready.known hne hren
    refine ⟨rfl, rfl, rfl, hrowsren, ?_⟩
    have hlive' : PublicControlPlane.live
        { p with state := next, persisted := rows, needsReload := true } = rows := by
      simp [PublicControlPlane.live, reloadBeforeUse, hb]
    rw [hlive, hlive']
    exact (renewed_of_durable (h.agree hne hready.known).symm).trans hrowsren

structure Admits (now : Nat) (p p' : PublicControlPlane) : Prop where
  inStep : p'.InStep
  alike : Alike now p p'

theorem Reads.andThenAdmits {α β : Type} {r : Outcome PublicControlPlane α}
    {f : PublicControlPlane → α → Outcome PublicControlPlane β}
    {Q : PublicControlPlane → α → Prop} (h : Reads p r Q)
    (hf : ∀ p' a, p'.InStep → p'.Ready → Q p' a → p'.persistence = p.persistence →
      Admits now p' (f p' a).1) : Admits now p (r.andThen f).1 := by
  obtain ⟨p', e | a⟩ := r
  · exact ⟨h.inStep, h.unmoved.alike⟩
  · obtain ⟨hready, hq⟩ := h.ready a rfl
    have hrest := hf p' a h.inStep hready hq h.unmoved.persistence
    exact ⟨hrest.inStep, h.unmoved.alike.trans hrest.alike⟩

theorem Edit.of_grants {s : PublicControlStateStore} (hkeyed : s.Keyed → next.Keyed)
    (h : next.grantsByHash = s.grantsByHash) : Edit s next where
  keyed := hkeyed
  grants _ _ _ hv hv' := Or.inl (Option.some.inj ((h ▸ hv').symm.trans hv))

theorem insert_self {V : Type} {m : Table V} {k : String} {v : V} (h : m[k]? = some v) :
    m.insert k v = m := by
  apply ExtTreeMap.ext_getElem?
  intro l
  rw [Table.getElem?_insert_of]
  split_ifs with hl
  · rw [hl, h]
  · rfl

theorem InStep.renewed (h : p.InStep) (hready : p.Ready) (he : Edit p.state next)
    (hren : Renewed now p.state next) (hjson : p.persistence = .json → w.error = none) :
    Admits now p (({ p with state := next } : PublicControlPlane).save w).1 := by
  have hs := h.saved hready.known he hjson
  exact ⟨hs.inStep h hready.known he, hs.alike h hready hren⟩

variable {env : Env} {primaryHash tokenHash : String}

theorem renewClientGrace_cases (p : PublicControlPlane) (env : Env)
    (primaryHash tokenHash : String) :
    p.renewClientGrace env primaryHash tokenHash = p ∨
      ∃ row, p.state.clientRegistrationsByHash[primaryHash]? = some row ∧
        p.renewClientGrace env primaryHash tokenHash =
          (PublicControlPlane.save
            { p with
              state := p.state.renewClient primaryHash tokenHash env.authNow p.rotationGraceSecs }
            env.authWrite).1 := by
  unfold PublicControlPlane.renewClientGrace
  cases hrow : p.state.clientRegistrationsByHash[primaryHash]? with
  | none => exact Or.inl rfl
  | some row =>
    dsimp only
    split_ifs with hbumped
    · exact Or.inr ⟨row, rfl, by rw [renewClient_eq hrow]⟩
    · rw [bump_unchanged (Bool.not_eq_true _ ▸ hbumped), insert_self hrow]
      exact Or.inl rfl

theorem renewDeviceGrace_cases (p : PublicControlPlane) (env : Env)
    (primaryHash tokenHash : String) :
    p.renewDeviceGrace env primaryHash tokenHash = p ∨
      ∃ row, p.state.grantsByHash[primaryHash]? = some row ∧
        p.renewDeviceGrace env primaryHash tokenHash =
          (PublicControlPlane.save
            { p with
              state := p.state.renewGrant primaryHash tokenHash env.authNow p.rotationGraceSecs }
            env.authWrite).1 := by
  unfold PublicControlPlane.renewDeviceGrace
  cases hrow : p.state.grantsByHash[primaryHash]? with
  | none => exact Or.inl rfl
  | some row =>
    dsimp only
    split_ifs with hbumped
    · exact Or.inr ⟨row, rfl, by rw [renewGrant_eq hrow]⟩
    · rw [bump_unchanged (Bool.not_eq_true _ ▸ hbumped), insert_self hrow]
      exact Or.inl rfl

theorem InStep.renewClientGrace (h : p.InStep) (hready : p.Ready)
    (hjson : p.persistence = .json → env.authWrite.error = none) :
    Admits env.authNow p (p.renewClientGrace env primaryHash tokenHash) := by
  rcases p.renewClientGrace_cases env primaryHash tokenHash with heq | ⟨row, hrow, heq⟩
  · rw [heq]
    exact ⟨h, (Unmoved.refl p).alike⟩
  · have hkeyed := fun hk : p.state.Keyed =>
      hk.renewClient primaryHash tokenHash env.authNow p.rotationGraceSecs
    rw [heq]
    rw [renewClient_eq hrow] at hkeyed ⊢
    refine h.renewed hready (Edit.of_grants hkeyed rfl) ⟨rfl, fun k => ?_, fun _ => rfl, rfl⟩ hjson
    rw [Table.getElem?_insert_of]
    split_ifs with hk
    · rw [hk, hrow]
      simp only [Option.map_some, PersistedClientIdentity.view, honours_bump]
    · rfl

theorem renewedGrant_edit {s : PublicControlStateStore} {grant : PersistedDeviceGrant}
    (hfiled : s.grantsByHash[primaryHash]? = some grant) (tokenHash : String)
    (authNow graceSecs : Nat) :
    Edit s
      { s with
        grantsByHash := s.grantsByHash.insert primaryHash
          { grant with
            superseded := (bumpSupersededExpiry tokenHash authNow graceSecs
              grant.superseded).1 } } where
  keyed hs := ⟨hs.relays, hs.clients, hs.grants.insert (hs.grants primaryHash grant hfiled),
    hs.relayGrants⟩
  grants k v v' hv hv' := by
    rw [Table.getElem?_insert_of] at hv'
    split_ifs at hv' with hk
    · rw [hk, hfiled] at hv
      have hgv : grant = v := Option.some.inj hv
      rw [← Option.some.inj hv', ← hgv]
      cases hbumped : (bumpSupersededExpiry tokenHash authNow graceSecs grant.superseded).2 with
      | false => exact Or.inl (by rw [bump_unchanged hbumped])
      | true => exact Or.inr (bump_changed hbumped)
    · exact Or.inl (Option.some.inj (hv'.symm.trans hv))

theorem InStep.renewDeviceGrace (h : p.InStep) (hready : p.Ready)
    (hjson : p.persistence = .json → env.authWrite.error = none) :
    Admits env.authNow p (p.renewDeviceGrace env primaryHash tokenHash) := by
  rcases p.renewDeviceGrace_cases env primaryHash tokenHash with heq | ⟨row, hrow, heq⟩
  · rw [heq]
    exact ⟨h, (Unmoved.refl p).alike⟩
  · rw [heq, renewGrant_eq hrow]
    refine h.renewed hready (renewedGrant_edit hrow tokenHash env.authNow p.rotationGraceSecs)
      ⟨rfl, fun _ => rfl, fun k => ?_, rfl⟩ hjson
    rw [Table.getElem?_insert_of]
    split_ifs with hk
    · rw [hk, hrow]
      simp only [Option.map_some, PersistedDeviceGrant.view, honours_bump]
    · rfl

theorem InStep.renewDeviceGrace_seen (h : p.InStep) (hready : p.needsReload = false)
    (hjson : p.persistence = .json → env.authWrite.error = none) {grant v : PersistedDeviceGrant}
    (hfiled : p.state.grantsByHash[primaryHash]? = some grant)
    (hv : (p.renewDeviceGrace env primaryHash tokenHash).state.grantsByHash[primaryHash]? =
      some v) :
    v.seen ≤ grant.seen := by
  rcases p.renewDeviceGrace_cases env primaryHash tokenHash with heq | ⟨row, hrow, heq⟩
  · rw [heq, hfiled] at hv
    rw [Option.some.inj hv]
  · obtain rfl : row = grant := Option.some.inj (hrow.symm.trans hfiled)
    have hnext : ∀ w : PersistedDeviceGrant,
        (p.state.grantsByHash.insert primaryHash
          { row with superseded := (bumpSupersededExpiry tokenHash env.authNow p.rotationGraceSecs
              row.superseded).1 })[primaryHash]? = some w → w.seen ≤ row.seen := by
      intro w hw
      rw [Table.getElem?_insert_of, if_pos rfl] at hw
      rw [← Option.some.inj hw]
      exact Nat.le_refl _
    rw [heq, renewGrant_eq hrow] at hv
    have hsaved := h.saved hready
      (renewedGrant_edit hrow tokenHash env.authNow p.rotationGraceSecs) hjson
    generalize PublicControlPlane.save _ _ = r at hsaved hv
    cases hsaved with
    | memory => exact hnext v hv
    | done => exact hnext v hv
    | undone e hp => exact (h.marker hp hready primaryHash).row v row hv hfiled
    | unknown => exact hnext v hv

section
variable (sha256Hex : String → String)

theorem InStep.authenticateRelay (h : p.InStep) (env : Env)
    (bearerToken relayId brokerRoomId : String) :
    Reads p (p.authenticateRelay sha256Hex env bearerToken relayId brokerRoomId)
      fun p' registration => p'.state.relayRegistrationsByHash[sha256Hex (trim bearerToken)]? =
        some registration ∧ registration.relayId = relayId ∧
        registration.brokerRoomId = brokerRoomId := by
  unfold PublicControlPlane.authenticateRelay
  refine (h.lockState env.authLoadError).andThen fun p₁ _ h₁ hready₁ _ => ?_
  refine (h₁.lookup hready₁ _ _).andThen fun p₂ found h₂ hready₂ hfound => ?_
  cases found with
  | none => exact ⟨h₂, .refl p₂, fun _ ha => absurd ha (by simp)⟩
  | some registration =>
    dsimp only
    split_ifs with hid hroom
    · exact ⟨h₂, .refl p₂, fun _ ha => absurd ha (by simp)⟩
    · exact ⟨h₂, .refl p₂, fun _ ha => absurd ha (by simp)⟩
    · refine ⟨h₂, .refl p₂, fun a ha => ⟨hready₂, ?_⟩⟩
      have hra : registration = a := Except.ok.inj ha
      subst hra
      exact ⟨hfound, not_not.mp hid, not_not.mp hroom⟩

theorem InStep.authenticateClient (h : p.InStep) (env : Env) (bearerToken : String)
    (hjson : p.persistence = .json → env.authWrite.error = none) :
    Admits env.authNow p (p.authenticateClient sha256Hex env bearerToken).1 := by
  unfold PublicControlPlane.authenticateClient
  refine (h.lockState env.authLoadError).andThenAdmits fun p₁ _ h₁ hready₁ _ hb₁ => ?_
  refine (h₁.lookup hready₁ _ _).andThenAdmits fun p₂ found h₂ hready₂ _ hb₂ => ?_
  cases found with
  | none => exact ⟨h₂, (Unmoved.refl p₂).alike⟩
  | some found =>
    dsimp only
    split_ifs with hprimary
    · exact h₂.renewClientGrace hready₂ fun hb => hjson (hb₁ ▸ hb₂ ▸ hb)
    · exact ⟨h₂, (Unmoved.refl p₂).alike⟩

theorem InStep.deviceGrantFromRefreshTokenScoped (h : p.InStep) (env : Env)
    (bearerToken : String) (expectedRoom : Option String)
    (hjson : p.persistence = .json → env.authWrite.error = none) :
    Admits env.authNow p
      (p.deviceGrantFromRefreshTokenScoped sha256Hex env bearerToken expectedRoom).1 := by
  unfold PublicControlPlane.deviceGrantFromRefreshTokenScoped
  refine (h.lockState env.authLoadError).andThenAdmits fun p₁ _ h₁ hready₁ _ hb₁ => ?_
  refine (h₁.lookup hready₁ _ _).andThenAdmits fun p₂ found h₂ hready₂ _ hb₂ => ?_
  cases found with
  | none => exact ⟨h₂, (Unmoved.refl p₂).alike⟩
  | some found =>
    dsimp only
    split_ifs with hroom hprimary
    · exact ⟨h₂, (Unmoved.refl p₂).alike⟩
    · exact h₂.renewDeviceGrace hready₂ fun hb => hjson (hb₁ ▸ hb₂ ▸ hb)
    · exact ⟨h₂, (Unmoved.refl p₂).alike⟩

end

end PublicControlPlane

end AgentRelay.Control
