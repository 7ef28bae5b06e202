import AgentRelay.ControlPlane

/-! What memory, the last snapshot and the backend have in common while the control plane
runs. The activity marker of a device grant is advisory, so it is left out of comparisons. -/
namespace AgentRelay.Control
open Text RecordTables Std
open AgentRelay.Relay (StringSet.ofList)

section remove
variable {V : Type}

theorem getElem?_removeMatchingEntries (m : Table V) (f : V → Bool) (k : String) :
    (removeMatchingEntries m f).1[k]? = m[k]?.filter fun v => !f v :=
  Table.getElem?_filter m _ k

theorem removeMatchingEntries_snd {m : Table V} {f : V → Bool} :
    (removeMatchingEntries m f).2 = 0 ↔ ∀ (k : String) v, m[k]? = some v → f v = false := by
  simp only [removeMatchingEntries, List.length_eq_zero_iff, List.filter_eq_nil_iff,
    Bool.not_eq_true]
  constructor
  · intro h k v hv
    exact h v (Table.mem_values.mpr ⟨k, hv⟩)
  · intro h v hv
    obtain ⟨k, hk⟩ := Table.mem_values.mp hv
    exact h k v hk

theorem filter_of_forall {m : Table V} {f : String → V → Bool}
    (h : ∀ (k : String) v, m[k]? = some v → f k v = true) : m.filter f = m := by
  apply ExtTreeMap.ext_getElem?
  intro k
  rw [Table.getElem?_filter]
  cases hk : m[k]? with
  | none => rfl
  | some v => simp [h k v hk]

theorem removeMatchingEntries_fst {m : Table V} {f : V → Bool}
    (h : (removeMatchingEntries m f).2 = 0) : (removeMatchingEntries m f).1 = m := by
  apply filter_of_forall
  intro k v hv
  simp [removeMatchingEntries_snd.mp h k v hv]

theorem getElem?_collectRemovedDeviceIds (m : Table V) (f : V → Option String) (k : String) :
    (collectRemovedDeviceIds m f).1[k]? = m[k]?.filter fun v => (f v).isNone :=
  Table.getElem?_filter m _ k

theorem keys_ofList_eq_nil {ids : List String} :
    (StringSet.ofList ids).keys = [] ↔ ids = [] := by
  constructor
  · intro h
    rw [List.eq_nil_iff_forall_not_mem]
    intro id hid
    have hmem : id ∈ (StringSet.ofList ids).keys := by
      rw [ExtTreeMap.mem_keys]
      simp [StringSet.ofList, hid]
    rw [h] at hmem
    exact absurd hmem List.not_mem_nil
  · rintro rfl
    rfl

theorem collectRemovedDeviceIds_snd {m : Table V} {f : V → Option String} :
    (collectRemovedDeviceIds m f).2 = [] ↔
      ∀ (k : String) v, m[k]? = some v → f v = none := by
  simp only [collectRemovedDeviceIds, keys_ofList_eq_nil, List.filterMap_eq_nil_iff]
  constructor
  · intro h k v hv
    exact h v (Table.mem_values.mpr ⟨k, hv⟩)
  · intro h v hv
    obtain ⟨k, hk⟩ := Table.mem_values.mp hv
    exact h k v hk

theorem collectRemovedDeviceIds_fst {m : Table V} {f : V → Option String}
    (h : (collectRemovedDeviceIds m f).2 = []) : (collectRemovedDeviceIds m f).1 = m := by
  apply filter_of_forall
  intro k v hv
  simp [collectRemovedDeviceIds_snd.mp h k v hv]

end remove

def PersistedDeviceGrant.unseen (grant : PersistedDeviceGrant) : PersistedDeviceGrant :=
  { grant with lastSeen := none }

/-- How recent the marker of a grant is; no marker comes before any. -/
def PersistedDeviceGrant.seen (grant : PersistedDeviceGrant) : Nat :=
  grant.lastSeen.elim 0 (· + 1)

namespace PublicControlStateStore

/-- The records without the activity markers, which no save has to carry. -/
def durable (s : PublicControlStateStore) : PublicControlStateStore :=
  { s with grantsByHash := s.grantsByHash.map fun _ grant => grant.unseen }

theorem durable_eq {s t : PublicControlStateStore} :
    s.durable = t.durable ↔
      s.relayRegistrationsByHash = t.relayRegistrationsByHash ∧
      s.clientRegistrationsByHash = t.clientRegistrationsByHash ∧
      (∀ k : String, (s.grantsByHash[k]?).map PersistedDeviceGrant.unseen =
        (t.grantsByHash[k]?).map PersistedDeviceGrant.unseen) ∧
      s.clientRelayGrantsByKey = t.clientRelayGrantsByKey := by
  simp only [durable, PublicControlStateStore.mk.injEq]
  refine and_congr Iff.rfl (and_congr Iff.rfl (and_congr ?_ Iff.rfl))
  constructor
  · intro h k
    have hk := congrArg (fun m : Table PersistedDeviceGrant => m[k]?) h
    simpa [ExtTreeMap.getElem?_map] using hk
  · intro h
    apply ExtTreeMap.ext_getElem?
    intro k
    simpa [ExtTreeMap.getElem?_map] using h k

structure Keyed (s : PublicControlStateStore) : Prop where
  relays : RecordTables.Keyed (·.refreshTokenHash) s.relayRegistrationsByHash
  clients : RecordTables.Keyed (·.refreshTokenHash) s.clientRegistrationsByHash
  grants : RecordTables.Keyed (·.refreshTokenHash) s.grantsByHash
  relayGrants : RecordTables.Keyed (·.key) s.clientRelayGrantsByKey

theorem keyed_empty : Keyed {} := by
  constructor <;> intro k v hv <;> simp at hv

theorem fromPersisted_toPersisted {s : PublicControlStateStore} (h : s.Keyed) :
    fromPersisted s.toPersisted = .ok s := by
  simp only [fromPersisted, toPersisted, ofRecords_values h.relays, ofRecords_values h.clients,
    ofRecords_values h.grants, ofRecords_values h.relayGrants]
  rfl

theorem applyDiff_keyed {V : Type} [DecidableEq V] {key : V → String} {prev next rows : Table V}
    (hn : RecordTables.Keyed key next) (hr : RecordTables.Keyed key rows) :
    RecordTables.Keyed key (applyDiff prev next rows) := by
  intro k v hv
  rw [getElem?_applyDiff] at hv
  cases hk : next[k]? with
  | some w =>
    rw [hk] at hv
    dsimp only at hv
    split_ifs at hv with hw
    · exact hr k v hv
    · exact hn k v (by rw [hk, hv])
  | none =>
    rw [hk] at hv
    dsimp only at hv
    split_ifs at hv with hw
    exact hr k v hv

theorem Keyed.applySave {prev next rows : PublicControlStateStore} (hn : next.Keyed)
    (hr : rows.Keyed) : (applySave prev next rows).Keyed where
  relays := applyDiff_keyed hn.relays hr.relays
  clients := applyDiff_keyed hn.clients hr.clients
  grants := applyDiff_keyed hn.grants hr.grants
  relayGrants := applyDiff_keyed hn.relayGrants hr.relayGrants

theorem durable_applySave {prev next rows : PublicControlStateStore}
    (h : prev.durable = rows.durable) : (applySave prev next rows).durable = next.durable := by
  obtain ⟨hrelays, hclients, hgrants, hrelayGrants⟩ := durable_eq.mp h
  rw [durable_eq]
  refine ⟨?_, ?_, fun k => ?_, ?_⟩
  · simp only [applySave, hrelays, applyDiff_self]
  · simp only [applySave, hclients, applyDiff_self]
  · simp only [applySave, getElem?_applyDiff]
    have hk := hgrants k
    cases hn : next.grantsByHash[k]? with
    | some v =>
      dsimp only
      split_ifs with hp
      · rw [← hk, hp]
      · rfl
    | none =>
      dsimp only
      split_ifs with hp
      · rfl
      · rw [← hk, Option.not_isSome_iff_eq_none.mp hp]
  · simp only [applySave, hrelayGrants, applyDiff_self]

end PublicControlStateStore

namespace PublicControlPlane

/-- The records a token is looked up in next: a plane that reloads first reads the backend. -/
def live (p : PublicControlPlane) : PublicControlStateStore :=
  if p.reloadBeforeUse then p.persisted else p.state

/-- What holds of every plane: records are filed under their keys, and as long as the
outcome of every write is known, the snapshot is what the database holds. -/
structure Based (p : PublicControlPlane) : Prop where
  keyed : p.state.Keyed
  keyedPersisted : p.persisted.Keyed
  snapshot : p.isPostgres → p.needsReload = false → p.lastSaved.durable = p.persisted.durable

/-- A marker is written by itself, so the snapshot and the row may lag behind memory; where
memory has not moved since the snapshot, neither has the row. -/
structure MarkerAhead (state snapshot row : Option PersistedDeviceGrant) : Prop where
  same : state = snapshot → row = state
  snapshot : ∀ v v', snapshot = some v → state = some v' → v.seen ≤ v'.seen
  row : ∀ v v', row = some v → state = some v' → v.seen ≤ v'.seen

theorem markerAhead_of_eq (state row : Option PersistedDeviceGrant) (h : row = state) :
    MarkerAhead state row row where
  same := fun _ => h
  snapshot v v' hv hv' := by rw [Option.some.inj (hv.symm.trans (h.trans hv'))]
  row v v' hv hv' := by rw [Option.some.inj (hv.symm.trans (h.trans hv'))]

structure InStep (p : PublicControlPlane) : Prop extends Based p where
  settled : p.isPostgres = false → p.needsReload = false
  agree : p.persistence ≠ .inMemory → p.needsReload = false →
    p.state.durable = p.persisted.durable
  marker : p.isPostgres → p.needsReload = false → ∀ k : String,
    MarkerAhead p.state.grantsByHash[k]? p.lastSaved.grantsByHash[k]? p.persisted.grantsByHash[k]?

/-- What an edit of the records may do: a grant that stays keeps its marker, or it is told
from the one before by its superseded tokens. -/
structure Edit (s next : PublicControlStateStore) : Prop where
  keyed : s.Keyed → next.Keyed
  grants : ∀ (k : String) v v', s.grantsByHash[k]? = some v → next.grantsByHash[k]? = some v' →
    v' = v ∨ v'.superseded ≠ v.superseded

theorem Edit.refl (s : PublicControlStateStore) : Edit s s where
  keyed := id
  grants _ _ _ hv hv' := Or.inl (Option.some.inj (hv'.symm.trans hv))

variable {p : PublicControlPlane} {next : PublicControlStateStore} {w : WriteOutcome}

theorem persistence_of_isPostgres (h : p.isPostgres = true) :
    ∃ reload, p.persistence = .postgres reload := by
  unfold isPostgres at h
  split at h
  · exact ⟨_, by assumption⟩
  · exact absurd h (by simp)

theorem isPostgres_ne_inMemory (h : p.isPostgres) : p.persistence ≠ .inMemory := by
  obtain ⟨reload, hb⟩ := persistence_of_isPostgres h
  rw [hb]
  exact Backend.noConfusion

theorem isPostgres_of_reload (h : p.reloadBeforeUse) : p.isPostgres := by
  unfold reloadBeforeUse at h
  unfold isPostgres
  split at h
  · rfl
  · exact absurd h (by simp)

theorem known_of_not_reload (hsettled : p.isPostgres = false → p.needsReload = false)
    (h : ¬ p.reloadBeforeUse) : p.needsReload = false := by
  cases hp : p.isPostgres with
  | false => exact hsettled hp
  | true =>
    obtain ⟨reload, hb⟩ := persistence_of_isPostgres hp
    simp only [reloadBeforeUse, hb, Bool.or_eq_true, not_or, Bool.not_eq_true] at h
    exact h.2

/-- The rows before a write, or those that a write which landed was to leave. -/
def MayHold (p : PublicControlPlane) (next : PublicControlStateStore) (w : WriteOutcome)
    (rows : PublicControlStateStore) : Prop :=
  rows = p.persisted ∨
    w.error.isSome ∧ w.landed ∧ rows = .applySave p.lastSaved next p.persisted

/-- How a save ends: the rows of a database are those before the write or those it was to
leave, and they are read again unless that fails. -/
inductive Wrote (p : PublicControlPlane) (next : PublicControlStateStore) (w : WriteOutcome) :
    Outcome PublicControlPlane Unit → Prop
  | memory (h : p.persistence = .inMemory) : Wrote p next w ({ p with state := next }, .ok ())
  | failed (e : String) (h : p.persistence = .json) (he : w.error = some e) :
      Wrote p next w ({ p with state := next }, .error e)
  | file (h : p.persistence = .json) :
      Wrote p next w ({ p with state := next, persisted := next }, .ok ())
  | stored (rows : PublicControlStateStore) (h : p.isPostgres)
      (hrows : rows = .applySave p.lastSaved next p.persisted) :
      Wrote p next w ({ p with state := next, persisted := rows, lastSaved := next }, .ok ())
  | reread (rows : PublicControlStateStore) (told : Except String Unit) (h : p.isPostgres)
      (hrows : p.MayHold next w rows) (hok : told = .ok () ↔ rows = next) :
      Wrote p next w ({ p with state := rows, persisted := rows, lastSaved := rows }, told)
  | unknown (e : String) (rows : PublicControlStateStore) (h : p.isPostgres)
      (hrows : p.MayHold next w rows) (hreloads : w.reloads = false) :
      Wrote p next w ({ p with state := next, persisted := rows, needsReload := true }, .error e)

theorem Wrote.reconcile {rows : PublicControlStateStore} (hp : p.isPostgres)
    (hrows : p.MayHold next w rows) (e : String) :
    Wrote p next w
      (match classifySaveReconciliation rows p.lastSaved next with
        | .committed => ({ p with state := next, persisted := rows, lastSaved := rows }, .ok ())
        | .rolledBack => ({ p with state := rows, persisted := rows }, .error e)
        | .indeterminate =>
          ({ p with state := rows, persisted := rows, lastSaved := rows }, .error e)) := by
  unfold classifySaveReconciliation
  split_ifs with hnext hprev
  · have hread := Wrote.reread rows (.ok ()) hp hrows ⟨fun _ => hnext, fun _ => rfl⟩
    rw [hnext] at hread ⊢
    exact hread
  · have hread := Wrote.reread rows (.error e) hp hrows (by simp [hnext])
    dsimp only
    have hself : ({ p with state := rows, persisted := rows, lastSaved := rows } :
        PublicControlPlane) = { p with state := rows, persisted := rows } := by rw [hprev]
    rwa [hself] at hread
  · exact .reread rows (.error e) hp hrows (by simp [hnext])

theorem wrote (p : PublicControlPlane) (hk : next.Keyed) (w : WriteOutcome) :
    Wrote p next w (({ p with state := next } : PublicControlPlane).save w) := by
  obtain ⟨backend, hb⟩ : ∃ backend, p.persistence = backend := ⟨_, rfl⟩
  cases backend with
  | inMemory =>
    simp only [save, hb]
    exact hb ▸ Wrote.memory hb
  | json =>
    simp only [save, hb, savePublicControlJson]
    cases he : w.error with
    | some e => exact hb ▸ Wrote.failed e hb he
    | none =>
      simp only [PublicControlStateStore.fromPersisted_toPersisted hk]
      exact hb ▸ Wrote.file hb
  | postgres reload =>
    have hp : p.isPostgres := by simp [isPostgres, hb]
    have hsave : ({ p with state := next } : PublicControlPlane).save w =
        ({ p with state := next } : PublicControlPlane).savePublicControlPostgres w := by
      simp only [save, hb]
    rw [hsave]
    simp only [savePublicControlPostgres]
    split
    · exact .stored _ hp rfl
    · rename_i e he
      by_cases hland : w.landed = true ∧
          (PublicControlStateStore.applySave p.lastSaved next p.persisted).MeetsConstraints
      · rw [if_pos hland.2] at he
        have hrows : p.MayHold next w (.applySave p.lastSaved next p.persisted) :=
          Or.inr ⟨by simp [he], hland.1, rfl⟩
        simp only [if_pos hland]
        split_ifs with hreloads
        · exact Wrote.reconcile hp hrows e
        · exact .unknown e _ hp hrows (Bool.not_eq_true _ ▸ hreloads)
      · simp only [if_neg hland]
        split_ifs with hreloads
        · exact Wrote.reconcile hp (Or.inl rfl) e
        · exact .unknown e _ hp (Or.inl rfl) (Bool.not_eq_true _ ▸ hreloads)

theorem InStep.applySave_eq (h : p.InStep) (hp : p.isPostgres) (hready : p.needsReload = false)
    (he : Edit p.state next) :
    PublicControlStateStore.applySave p.lastSaved next p.persisted = next := by
  have hagree := h.agree (isPostgres_ne_inMemory hp) hready
  have hsnapshot := h.snapshot hp hready
  have hsaved := PublicControlStateStore.durable_eq.mp hsnapshot
  have hstate := PublicControlStateStore.durable_eq.mp hagree
  have hdurable := PublicControlStateStore.durable_eq.mp
    (@PublicControlStateStore.durable_applySave _ next _ hsnapshot)
  have hgrants : (PublicControlStateStore.applySave p.lastSaved next p.persisted).grantsByHash =
      next.grantsByHash := by
    apply ExtTreeMap.ext_getElem?
    intro k
    simp only [PublicControlStateStore.applySave, getElem?_applyDiff]
    have hsavedk := hsaved.2.2.1 k
    cases hn : next.grantsByHash[k]? with
    | none =>
      dsimp only
      split_ifs with hk
      · rfl
      · rw [Option.not_isSome_iff_eq_none.mp hk] at hsavedk
        exact Option.map_eq_none_iff.mp hsavedk.symm
    | some v' =>
      dsimp only
      split_ifs with hk
      · -- The edit left this grant as the snapshot has it, so memory had not moved either.
        have hstatek := hstate.2.2.1 k
        rw [← hsavedk, hk] at hstatek
        obtain ⟨v, hv, hunseen⟩ := Option.map_eq_some_iff.mp hstatek
        rcases he.grants k v v' hv hn with heq | hne
        · rw [(h.marker hp hready k).same (by rw [hv, hk, heq]), hv, heq]
        · exact absurd (congrArg PersistedDeviceGrant.superseded hunseen).symm hne
      · rfl
  have happly : PublicControlStateStore.applySave p.lastSaved next p.persisted =
      { next with grantsByHash := (PublicControlStateStore.applySave p.lastSaved next
          p.persisted).grantsByHash } := by
    rw [PublicControlStateStore.mk.injEq]
    exact ⟨hdurable.1, hdurable.2.1, rfl, hdurable.2.2.2⟩
  rw [happly, hgrants]

inductive Saved (p : PublicControlPlane) (next : PublicControlStateStore) (w : WriteOutcome) :
    Outcome PublicControlPlane Unit → Prop
  | memory (h : p.persistence = .inMemory) : Saved p next w ({ p with state := next }, .ok ())
  | done (saved : PublicControlStateStore) (h : p.persistence ≠ .inMemory)
      (hsaved : p.isPostgres → saved = next) :
      Saved p next w ({ p with state := next, persisted := next, lastSaved := saved }, .ok ())
  | undone (e : String) (h : p.isPostgres) :
      Saved p next w ({ p with state := p.persisted, lastSaved := p.persisted }, .error e)
  | unknown (e : String) (rows : PublicControlStateStore) (h : p.isPostgres)
      (hrows : rows = p.persisted ∨ w.error.isSome ∧ w.landed ∧ rows = next)
      (hreloads : w.reloads = false) :
      Saved p next w ({ p with state := next, persisted := rows, needsReload := true }, .error e)

theorem InStep.saved (h : p.InStep) (hready : p.needsReload = false) (he : Edit p.state next)
    (hjson : p.persistence = .json → w.error = none) :
    Saved p next w (({ p with state := next } : PublicControlPlane).save w) := by
  have hholds : ∀ rows, p.isPostgres → p.MayHold next w rows →
      rows = p.persisted ∨ w.error.isSome ∧ w.landed ∧ rows = next := by
    intro rows hp hrows
    rwa [MayHold, h.applySave_eq hp hready he] at hrows
  have hwrote := p.wrote (he.keyed h.keyed) w
  generalize save _ _ = r at hwrote
  cases hwrote with
  | memory hb => exact .memory hb
  | failed e hb herror => exact absurd ((hjson hb).symm.trans herror) (by simp)
  | file hb =>
    exact .done p.lastSaved (by rw [hb]; exact Backend.noConfusion) (by simp [isPostgres, hb])
  | stored rows hp hrows =>
    rw [h.applySave_eq hp hready he] at hrows
    exact hrows ▸ .done next (isPostgres_ne_inMemory hp) fun _ => rfl
  | reread rows told hp hrows hok =>
    by_cases hnext : rows = next
    · rw [hok.mpr hnext, hnext]
      exact .done next (isPostgres_ne_inMemory hp) fun _ => rfl
    · obtain rfl : rows = p.persisted :=
        (hholds rows hp hrows).resolve_right fun hwritten => hnext hwritten.2.2
      cases told with
      | ok => exact absurd (hok.mp rfl) hnext
      | error e => exact .undone e hp
  | unknown e rows hp hrows hreloads => exact .unknown e rows hp (hholds rows hp hrows) hreloads

theorem live_of_same (h : p.state = p.persisted) : p.live = p.persisted := by
  unfold PublicControlPlane.live
  split_ifs
  · rfl
  · exact h

structure Ready (p : PublicControlPlane) : Prop where
  known : p.needsReload = false
  reloaded : p.reloadBeforeUse → p.state = p.persisted

theorem Ready.live (h : p.Ready) : p.live = p.state := by
  unfold PublicControlPlane.live
  split_ifs with hr
  · exact (h.reloaded hr).symm
  · rfl

theorem InStep.live_persisted (h : p.InStep) (hne : p.persistence ≠ .inMemory) :
    p.persisted.durable = p.live.durable := by
  unfold PublicControlPlane.live
  split_ifs with hr
  · rfl
  · exact (h.agree hne (known_of_not_reload h.settled hr)).symm

theorem Saved.inStep {r : Outcome PublicControlPlane Unit} (hs : Saved p next w r) (h : p.InStep)
    (hready : p.needsReload = false) (he : Edit p.state next) : r.1.InStep := by
  cases hs with
  | memory hb =>
    have hp : p.isPostgres = false := by simp [isPostgres, hb]
    exact
      { keyed := he.keyed h.keyed, keyedPersisted := h.keyedPersisted
        snapshot := fun hp' => absurd (hp.symm.trans hp') Bool.false_ne_true
        settled := fun _ => hready, agree := fun hne => absurd hb hne
        marker := fun hp' => absurd (hp.symm.trans hp') Bool.false_ne_true }
  | done saved hb hsaved =>
    exact
      { keyed := he.keyed h.keyed, keyedPersisted := he.keyed h.keyed
        snapshot := fun hp _ => congrArg PublicControlStateStore.durable (hsaved hp)
        settled := fun _ => hready, agree := fun _ _ => rfl
        marker := fun hp _ _ => by
          rw [hsaved hp]
          exact markerAhead_of_eq _ _ rfl }
  | undone e hp =>
    exact
      { keyed := h.keyedPersisted, keyedPersisted := h.keyedPersisted
        snapshot := fun _ _ => rfl, settled := fun _ => hready
        agree := fun _ _ => rfl, marker := fun _ _ _ => markerAhead_of_eq _ _ rfl }
  | unknown e rows hp hrows hreloads =>
    have hkeyed : rows.Keyed := by
      rcases hrows with rfl | ⟨-, -, rfl⟩
      · exact h.keyedPersisted
      · exact he.keyed h.keyed
    exact
      { keyed := he.keyed h.keyed, keyedPersisted := hkeyed
        snapshot := fun _ hk => absurd hk (by simp)
        settled := fun hp' => absurd (hp.symm.trans hp') (by simp)
        agree := fun _ hk => absurd hk (by simp), marker := fun _ hk => absurd hk (by simp) }

structure Unmoved (p p' : PublicControlPlane) : Prop where
  persistence : p'.persistence = p.persistence
  graceSecs : p'.rotationGraceSecs = p.rotationGraceSecs
  claims : p'.pendingClientClaims = p.pendingClientClaims
  persisted : p'.persisted = p.persisted
  live : p'.live.durable = p.live.durable

theorem Unmoved.refl (p : PublicControlPlane) : Unmoved p p := ⟨rfl, rfl, rfl, rfl, rfl⟩

theorem Unmoved.trans {p p' p'' : PublicControlPlane} (h : Unmoved p p') (h' : Unmoved p' p'') :
    Unmoved p p'' :=
  ⟨h'.persistence.trans h.persistence, h'.graceSecs.trans h.graceSecs, h'.claims.trans h.claims,
    h'.persisted.trans h.persisted, h'.live.trans h.live⟩

structure Reads {α : Type} (p : PublicControlPlane) (r : Outcome PublicControlPlane α)
    (Q : PublicControlPlane → α → Prop) : Prop where
  inStep : r.1.InStep
  unmoved : Unmoved p r.1
  ready : ∀ a, r.2 = .ok a → r.1.Ready ∧ Q r.1 a

theorem Reads.andThen {α β : Type} {r : Outcome PublicControlPlane α}
    {f : PublicControlPlane → α → Outcome PublicControlPlane β}
    {Q : PublicControlPlane → α → Prop} {R : PublicControlPlane → β → Prop} (h : Reads p r Q)
    (hf : ∀ p' a, p'.InStep → p'.Ready → Q p' a → Reads p' (f p' a) R) :
    Reads p (r.andThen f) R := by
  obtain ⟨p', e | a⟩ := r
  · exact ⟨h.inStep, h.unmoved, fun _ hb => absurd hb (by simp [Outcome.andThen])⟩
  · obtain ⟨hready, hq⟩ := h.ready a rfl
    have hrest := hf p' a h.inStep hready hq
    exact ⟨hrest.inStep, h.unmoved.trans hrest.unmoved, hrest.ready⟩

theorem InStep.loadState (h : p.InStep) (hlive : p.live.durable = p.persisted.durable)
    (error : Option String) :
    Reads p (p.loadState error) fun p' _ => p'.state = p'.persisted := by
  unfold PublicControlPlane.loadState
  cases error with
  | some e => exact ⟨h, .refl p, fun _ ha => absurd ha (by simp)⟩
  | none =>
    have hloaded : PublicControlPlane.live
        { p with state := p.persisted, lastSaved := p.persisted, needsReload := false } =
          p.persisted := live_of_same rfl
    refine ⟨?_, ⟨rfl, rfl, rfl, rfl, ?_⟩, fun _ _ => ⟨⟨rfl, fun _ => rfl⟩, rfl⟩⟩
    · exact
        { keyed := h.keyedPersisted, keyedPersisted := h.keyedPersisted
          snapshot := fun _ _ => rfl, settled := fun _ => rfl, agree := fun _ _ => rfl
          marker := fun _ _ _ => markerAhead_of_eq _ _ rfl }
    · rw [hloaded, hlive]

theorem InStep.lockState (h : p.InStep) (error : Option String) :
    Reads p (p.lockState error) fun _ _ => True := by
  unfold PublicControlPlane.lockState
  split_ifs with hr
  · have hlive : p.live = p.persisted := if_pos hr
    have hload := h.loadState (congrArg _ hlive) error
    exact ⟨hload.inStep, hload.unmoved, fun a ha => ⟨(hload.ready a ha).1, trivial⟩⟩
  · exact ⟨h, .refl p, fun _ _ =>
      ⟨⟨known_of_not_reload h.settled hr, fun hr' => absurd hr' hr⟩, trivial⟩⟩

theorem InStep.lookup {α : Type} (h : p.InStep) (hready : p.Ready) (error : Option String)
    (look : PublicControlStateStore → Option α) :
    Reads p (p.lookup error look) fun p' found => look p'.state = found := by
  unfold PublicControlPlane.lookup
  cases hl : look p.state with
  | some a =>
    refine ⟨h, .refl p, fun found hfound => ⟨hready, ?_⟩⟩
    rw [hl]
    exact Except.ok.inj hfound
  | none =>
    dsimp only
    split_ifs with hp
    · have hlive : p.live.durable = p.persisted.durable :=
        (h.live_persisted (isPostgres_ne_inMemory hp)).symm
      refine (h.loadState hlive error).andThen ?_
      intro p' _ hin hready' _
      exact ⟨hin, .refl p', fun found hfound => ⟨hready', Except.ok.inj hfound⟩⟩
    · refine ⟨h, .refl p, fun found hfound => ⟨hready, ?_⟩⟩
      rw [hl]
      exact Except.ok.inj hfound

end PublicControlPlane

end AgentRelay.Control
