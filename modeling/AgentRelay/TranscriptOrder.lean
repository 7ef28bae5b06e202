import AgentRelay.TranscriptCore

/-! Every move of the transcripts leads to a later view: the clock does not fall, and a
thread shows what it showed or something drawn since. A promotion that moves a runtime is
the one step that can show an older revision, or two contents under one. -/
namespace AgentRelay.Relay

namespace Transcripts

/-- The selected thread has its runtime. -/
def Anchored (c : Transcripts) : Prop :=
  ∀ threadId, c.active = some threadId → (c.runtime threadId).isSome

structure Sound (c : Transcripts) : Prop where
  issued_sorted : c.issued.Pairwise (· < ·)
  issued_le : ∀ r ∈ c.issued, r ≤ c.clock
  runtime_le : ∀ threadId entry, c.runtime threadId = some entry → entry.1 ≤ c.clock
  mirror_le : c.mirror.1 ≤ c.clock

/-- A revision shown by two threads names one entry. -/
def Named (c : Transcripts) : Prop :=
  ∀ t u e e', c.shown t = some e → c.shown u = some e' → e.1 = e'.1 → e = e'

/-- What a move may do: while the clock is not exhausted, a thread shows the entry it
showed or one that is newer than the old clock. Only a selected thread without a runtime
may be shown at the old clock itself. -/
structure Later (c d : Transcripts) : Prop where
  clock_le : d.clock < u64Max → c.clock ≤ d.clock
  anchored : c.Anchored → d.Anchored
  sound : d.clock < u64Max → c.Sound → d.Sound
  shown : d.clock < u64Max → ∀ threadId entry, d.shown threadId = some entry →
    c.shown threadId = some entry ∨ c.clock < entry.1 ∨ (¬c.Anchored ∧ c.clock ≤ entry.1)
  named : d.clock < u64Max → c.Anchored → c.Sound → c.Named → d.Named

theorem Later.refl (c : Transcripts) : c.Later c where
  clock_le := fun _ => le_rfl
  anchored := id
  sound := fun _ h => h
  shown := fun _ _ _ h => Or.inl h
  named := fun _ _ _ h => h

theorem Later.trans {c d e : Transcripts} (hcd : c.Later d) (hde : d.Later e) : c.Later e where
  clock_le := fun hlt => by
    have hle := hde.clock_le hlt
    exact (hcd.clock_le (hle.trans_lt hlt)).trans hle
  anchored := fun h => hde.anchored (hcd.anchored h)
  sound := fun hlt h => hde.sound hlt (hcd.sound ((hde.clock_le hlt).trans_lt hlt) h)
  shown := by
    intro hlt threadId entry hentry
    have hlt' : d.clock < u64Max := (hde.clock_le hlt).trans_lt hlt
    have hclock := hcd.clock_le hlt'
    rcases hde.shown hlt threadId entry hentry with hd | hd | ⟨hd, hle⟩
    · exact hcd.shown hlt' threadId entry hd
    · exact Or.inr (Or.inl (hclock.trans_lt hd))
    · exact Or.inr (Or.inr ⟨fun hc => hd (hcd.anchored hc), hclock.trans hle⟩)
  named := by
    intro hlt ha hs hn
    have hlt' : d.clock < u64Max := (hde.clock_le hlt).trans_lt hlt
    exact hde.named hlt (hcd.anchored ha) (hcd.sound hlt' hs) (hcd.named hlt' ha hs hn)

theorem Named.of_shown {c d : Transcripts} (h : c.Named)
    (hsub : ∀ t e, d.shown t = some e → ∃ u, c.shown u = some e) : d.Named := by
  intro t u e e' he he' heq
  obtain ⟨t', ht'⟩ := hsub t e he
  obtain ⟨u', hu'⟩ := hsub u e' he'
  exact h t' u' e e' ht' hu' heq

theorem mint_clock_of_lt {c : Transcripts} (h : c.mint.clock < u64Max) :
    c.mint.clock = c.clock + 1 := by
  unfold mint saturatingAdd at *
  dsimp only at *
  omega

theorem shown_of_runtime {c : Transcripts} {threadId : String} {entry : Nat × Content}
    (h : c.runtime threadId = some entry) : c.shown threadId = some entry := by
  simp [shown, h]

theorem Anchored.shown_eq {c : Transcripts} (h : c.Anchored) (threadId : String) :
    c.shown threadId = c.runtime threadId := by
  unfold shown
  cases hr : c.runtime threadId with
  | some entry => rfl
  | none =>
    refine if_neg fun ha => ?_
    have hsome := h threadId ha
    simp [hr] at hsome

theorem runtime_of_clear {c : Transcripts} {threadId : String} {entry : Nat × Content}
    (h : c.clear.runtime threadId = some entry) : c.runtime threadId = some entry := by
  unfold clear at h
  cases ha : c.active with
  | none => simpa only [ha] using h
  | some active =>
    simp only [ha] at h
    by_cases ht : threadId = active
    · subst ht
      simp at h
    · rwa [Function.update_of_ne ht] at h

theorem shown_of_clear {c : Transcripts} {threadId : String} {entry : Nat × Content}
    (h : c.clear.shown threadId = some entry) : c.shown threadId = some entry := by
  have hanchored : c.clear.Anchored := by
    intro t ht
    simp [clear] at ht
  rw [hanchored.shown_eq] at h
  exact shown_of_runtime (runtime_of_clear h)

theorem shown_congr {c d : Transcripts} {threadId : String} (hactive : c.active = d.active)
    (hmirror : c.mirror = d.mirror) (hruntime : c.runtime threadId = d.runtime threadId) :
    c.shown threadId = d.shown threadId := by
  simp only [shown, hactive, hmirror, hruntime]

theorem Sound.shown_le {c : Transcripts} (h : c.Sound) {threadId : String}
    {entry : Nat × Content} (hentry : c.shown threadId = some entry) : entry.1 ≤ c.clock := by
  unfold shown at hentry
  split at hentry
  case h_1 e he =>
    cases hentry
    exact h.runtime_le threadId _ he
  case h_2 he =>
    split_ifs at hentry with ha
    cases hentry
    exact h.mirror_le

theorem later_mint (c : Transcripts) : c.Later c.mint where
  clock_le := fun h => by
    rw [mint_clock_of_lt h]
    exact Nat.le_succ _
  anchored := fun h => h
  sound := fun hlt h => by
    have hclock := mint_clock_of_lt hlt
    have hissued : c.mint.issued = c.issued ++ [c.mint.clock] := rfl
    refine ⟨?_, ?_, ?_, ?_⟩
    · rw [hissued, List.pairwise_append]
      refine ⟨h.issued_sorted, List.pairwise_singleton _ _, ?_⟩
      intro r hr x hx
      have hle := h.issued_le r hr
      rw [List.mem_singleton] at hx
      omega
    · intro r hr
      rw [hissued, List.mem_append, List.mem_singleton] at hr
      rcases hr with hr | hr
      · have hle := h.issued_le r hr
        omega
      · exact hr.le
    · intro threadId entry hentry
      have hle := h.runtime_le threadId entry hentry
      omega
    · have hle := h.mirror_le
      have hmirror : c.mint.mirror = c.mirror := rfl
      rw [hmirror]
      omega
  shown := fun _ _ _ h => Or.inl h
  named := fun _ _ _ h => h

theorem anchored_put {c : Transcripts} (h : c.Anchored) (threadId : String)
    (entry : Nat × Content) : (c.put threadId entry).Anchored := by
  intro t ht
  by_cases he : t = threadId
  · subst he
    simp [put]
  · simpa [put, Function.update_of_ne he] using h t ht

theorem sound_put {c : Transcripts} (h : c.Sound) (threadId : String) {entry : Nat × Content}
    (hle : entry.1 ≤ c.clock) : (c.put threadId entry).Sound where
  issued_sorted := h.issued_sorted
  issued_le := h.issued_le
  runtime_le := by
    intro t e he
    by_cases ht : t = threadId
    · subst ht
      have heq : entry = e := by simpa [put] using he
      exact heq ▸ hle
    · have he' : c.runtime t = some e := by simpa [put, Function.update_of_ne ht] using he
      exact h.runtime_le t e he'
  mirror_le := h.mirror_le

theorem shown_put_self (c : Transcripts) (threadId : String) (entry : Nat × Content) :
    (c.put threadId entry).shown threadId = some entry := by
  simp [shown, put]

theorem shown_put_of_ne (c : Transcripts) {threadId t : String} (entry : Nat × Content)
    (h : t ≠ threadId) : (c.put threadId entry).shown t = c.shown t :=
  shown_congr rfl rfl (Function.update_of_ne h _ _)

structure Fresh (c d : Transcripts) (entry : Nat × Content) : Prop where
  lt : c.clock < entry.1
  le : entry.1 ≤ d.clock
  unseen : c.Sound → ∀ u e, d.shown u = some e → e.1 < entry.1

theorem Later.fresh_mint {c d : Transcripts} (h : c.Later d) (hlt : d.mint.clock < u64Max)
    {entry : Nat × Content} (hentry : entry.1 = d.mint.clock) : c.Fresh d.mint entry := by
  have hclock := mint_clock_of_lt hlt
  have hlt' : d.clock < u64Max := by omega
  have hle := h.clock_le hlt'
  refine ⟨by omega, hentry.le, ?_⟩
  intro hc u e he
  have hbound := (h.sound hlt' hc).shown_le (he : d.shown u = some e)
  omega

theorem Named.put {d : Transcripts} (h : d.Named) (threadId : String) {entry : Nat × Content}
    (hentry : ∀ u e, d.shown u = some e → e.1 < entry.1) : (d.put threadId entry).Named := by
  intro t u e e' he he' heq
  by_cases ht : t = threadId
  · subst ht
    rw [shown_put_self] at he
    cases he
    by_cases hu : u = t
    · subst hu
      rw [shown_put_self] at he'
      exact Option.some.inj he'
    · rw [shown_put_of_ne d entry hu] at he'
      have hlt := hentry u e' he'
      omega
  · rw [shown_put_of_ne d entry ht] at he
    have hlt := hentry t e he
    by_cases hu : u = threadId
    · subst hu
      rw [shown_put_self] at he'
      cases he'
      omega
    · rw [shown_put_of_ne d entry hu] at he'
      exact h t u e e' he he' heq

theorem Later.put {c d : Transcripts} (h : c.Later d) (threadId : String) {entry : Nat × Content}
    (hentry : d.clock < u64Max → c.Fresh d entry) : c.Later (d.put threadId entry) where
  clock_le := h.clock_le
  anchored := fun hc => anchored_put (h.anchored hc) threadId entry
  sound := fun hlt hc => sound_put (h.sound hlt hc) threadId (hentry hlt).le
  shown := by
    intro hlt t e he
    by_cases ht : t = threadId
    · subst ht
      rw [shown_put_self] at he
      cases he
      exact Or.inr (Or.inl (hentry hlt).lt)
    · rw [shown_put_of_ne d entry ht] at he
      exact h.shown hlt t e he
  named := fun hlt ha hs hn =>
    (h.named hlt ha hs hn).put threadId ((hentry hlt).unseen hs)

theorem later_putFresh (c : Transcripts) (threadId : String) (content : Content) :
    c.Later (c.putFresh threadId content) :=
  (later_mint c).put threadId fun hlt => (Later.refl c).fresh_mint hlt rfl

theorem later_ensure (c : Transcripts) (threadId : String) : c.Later (c.ensure threadId) := by
  unfold ensure
  split_ifs
  · exact .refl c
  · exact later_putFresh c threadId _
  · exact later_putFresh c threadId _

theorem later_materialize (c : Transcripts) : c.Later c.materialize := by
  unfold materialize
  split
  · exact .refl c
  · split_ifs
    · exact .refl c
    · exact later_putFresh c _ _

theorem sound_sync {c : Transcripts} (h : c.Sound) : c.sync.Sound where
  issued_sorted := h.issued_sorted
  issued_le := h.issued_le
  runtime_le := h.runtime_le
  mirror_le := by
    unfold sync
    cases he : c.active.bind c.runtime with
    | none => exact le_rfl
    | some entry =>
      obtain ⟨threadId, -, hr⟩ := Option.bind_eq_some_iff.mp he
      exact h.runtime_le threadId entry hr

theorem later_sync (c : Transcripts) : c.Later c.sync where
  clock_le := fun _ => le_rfl
  anchored := fun h => h
  sound := fun _ h => sound_sync h
  shown := by
    intro _ threadId entry hentry
    have hruntime : c.sync.runtime = c.runtime := rfl
    cases hr : c.runtime threadId with
    | some e =>
      rw [shown_of_runtime (hruntime ▸ hr)] at hentry
      rw [shown_of_runtime hr]
      exact Or.inl hentry
    | none =>
      unfold shown at hentry
      rw [hruntime, hr] at hentry
      simp only [Option.ite_none_right_eq_some, Option.some.injEq] at hentry
      obtain ⟨ha, hm⟩ := hentry
      have ha' : c.active = some threadId := ha
      have hmirror : c.sync.mirror = (c.clock, emptyContent) := by
        simp [sync, ha', hr]
      refine Or.inr (Or.inr ⟨?_, ?_⟩)
      · intro hanchored
        have hsome := hanchored threadId ha'
        simp [hr] at hsome
      · rw [← hm, hmirror]
  named := by
    intro _ ha _ hn
    have ha' : c.sync.Anchored := ha
    refine hn.of_shown fun t e he => ⟨t, ?_⟩
    rw [ha'.shown_eq] at he
    rw [ha.shown_eq]
    exact he

theorem later_syncIf (c : Transcripts) (threadId : String) : c.Later (c.syncIf threadId) := by
  unfold syncIf
  split_ifs
  · exact later_sync c
  · exact .refl c

theorem later_mirror {c : Transcripts} {entry : Nat × Content} (hle : entry.1 ≤ c.clock)
    (hanchored : c.Anchored) : c.Later { c with mirror := entry } := by
  have hanchored' : ({ c with mirror := entry } : Transcripts).Anchored := hanchored
  have hshown : ∀ t, ({ c with mirror := entry } : Transcripts).shown t = c.shown t := by
    intro t
    rw [hanchored'.shown_eq, hanchored.shown_eq]
  refine ⟨fun _ => le_rfl, fun h => h, ?_, ?_, ?_⟩
  · exact fun _ h => ⟨h.issued_sorted, h.issued_le, h.runtime_le, hle⟩
  · exact fun _ t e he => Or.inl (hshown t ▸ he)
  · exact fun _ _ _ hn => hn.of_shown fun t e he => ⟨t, hshown t ▸ he⟩

theorem later_write (c : Transcripts) (threadId : String) (content : Content) :
    c.Later (c.write threadId content) :=
  ((later_ensure c threadId).trans (later_putFresh _ threadId content)).trans
    (later_syncIf _ threadId)

theorem later_bump (c : Transcripts) (threadId : String) : c.Later (c.bump threadId) := by
  unfold bump
  dsimp only
  generalize Option.getD _ _ = content
  refine ((later_ensure c threadId).trans (later_putFresh _ threadId content)).trans ?_
  generalize hd : (c.ensure threadId).putFresh threadId content = d
  unfold stampMirror
  split_ifs with ha
  · refine later_mirror le_rfl fun t ht => ?_
    obtain rfl : threadId = t := Option.some.inj (ha.symm.trans ht)
    rw [← hd]
    simp [putFresh, put]
  · exact .refl d

theorem later_writeMirror (c : Transcripts) (content : Content) (h : c.active = none) :
    c.Later (c.writeMirror content) := by
  refine (later_mint c).trans (later_mirror le_rfl fun threadId ha => ?_)
  have ha' : c.active = some threadId := ha
  simp [h] at ha'

theorem later_resumeClock (c : Transcripts) (saved : Nat) : c.Later (c.resumeClock saved) where
  clock_le := fun _ => le_max_left _ _
  anchored := fun h => h
  sound := fun _ h =>
    have hle : c.clock ≤ (c.resumeClock saved).clock := le_max_left _ _
    ⟨h.issued_sorted, fun r hr => (h.issued_le r hr).trans hle,
      fun t e he => (h.runtime_le t e he).trans hle, h.mirror_le.trans hle⟩
  shown := fun _ _ _ h => Or.inl h
  named := fun _ _ _ h => h

theorem later_clear (c : Transcripts) : c.Later c.clear where
  clock_le := fun _ => le_rfl
  anchored := by
    intro _ threadId ha
    simp [clear] at ha
  sound := by
    intro _ h
    refine ⟨h.issued_sorted, h.issued_le, ?_, le_rfl⟩
    intro threadId entry hentry
    exact h.runtime_le threadId entry (runtime_of_clear hentry)
  shown := fun _ _ _ h => Or.inl (shown_of_clear h)
  named := fun _ _ _ h => h.of_shown fun t _ he => ⟨t, shown_of_clear he⟩

theorem select_anchored (d : Transcripts) (threadId : String) (entry : Nat × Content) :
    (d.select threadId entry).Anchored := by
  intro t ht
  obtain rfl : threadId = t := Option.some.inj ht
  simp [select, sync, put]

theorem select_shown (d : Transcripts) (threadId t : String) (entry : Nat × Content) :
    (d.select threadId entry).shown t = (d.put threadId entry).runtime t :=
  (select_anchored d threadId entry).shown_eq t

/-- Selecting a thread whose entry is the one it has, or one drawn since `c`. -/
theorem Later.select {c d : Transcripts} (h : c.Later d) (threadId : String)
    {entry : Nat × Content}
    (hentry : d.clock < u64Max → d.runtime threadId = some entry ∨ c.Fresh d entry) :
    c.Later (d.select threadId entry) := by
  -- Only the entry that is put in place can be new; an entry already there puts nothing.
  have hput : c.Later (d.put threadId entry) := by
    by_cases hr : d.runtime threadId = some entry
    · rwa [Transcripts.put, ← hr, Function.update_eq_self]
    · exact h.put threadId fun hlt => (hentry hlt).resolve_left hr
  have hsub : ∀ t e, (d.select threadId entry).shown t = some e →
      (d.put threadId entry).shown t = some e := by
    intro t e he
    rw [select_shown] at he
    exact shown_of_runtime he
  refine ⟨h.clock_le, fun _ => select_anchored d threadId entry, ?_, ?_, ?_⟩
  · intro hlt hc
    have hs := hput.sound hlt hc
    exact sound_sync ⟨hs.issued_sorted, hs.issued_le, hs.runtime_le, hs.mirror_le⟩
  · exact fun hlt t e he => hput.shown hlt t e (hsub t e he)
  · exact fun hlt ha hs hn =>
      (hput.named hlt ha hs hn).of_shown fun t e he => ⟨t, hsub t e he⟩

theorem Moves.later {c d : Transcripts} (h : c.Moves d) : c.Later d := by
  cases h with
  | stay => exact .refl c
  | ensure threadId => exact later_ensure c threadId
  | touch threadId => exact (later_ensure c threadId).trans (later_syncIf _ threadId)
  | materialize => exact later_materialize c
  | sync => exact later_sync c
  | write threadId content => exact later_write c threadId content
  | bump threadId => exact later_bump c threadId
  | writeMirror content h => exact later_writeMirror c content h
  | load threadId entry h =>
    have hm := later_materialize c
    exact (hm.trans (later_mint _)).select threadId fun hlt => h.imp_right (hm.fresh_mint hlt)
  | hydrate threadId content h => exact later_putFresh c threadId content
  | clear => exact later_clear c
  | restore saved threadId content =>
    have hm := later_resumeClock c saved
    refine ((hm.trans (later_mint _)).trans (later_resumeClock _ saved)).select threadId
      fun hlt => Or.inr ?_
    have hle : (c.resumeClock saved).mint.clock ≤
        ((c.resumeClock saved).mint.resumeClock saved).clock := le_max_left _ _
    have hfresh := hm.fresh_mint (hle.trans_lt hlt)
      (rfl : ((c.resumeClock saved).mint.clock, content).1 = _)
    exact ⟨hfresh.lt, hfresh.le.trans hle, hfresh.unseen⟩

structure Promotes (c : Transcripts) (pendingId realId : String) (pending : Nat × Content) :
    Prop where
  ne : pendingId ≠ realId
  pending_ne : pendingId ≠ ""
  real_ne : realId ≠ ""
  runtime : c.runtime pendingId = some pending

theorem Promotes.promote_eq {c : Transcripts} {pendingId realId : String}
    {pending : Nat × Content} (h : c.Promotes pendingId realId pending) :
    c.promote pendingId realId = (c.promoteRuntime pendingId realId).syncIf realId := by
  have hguard : ¬(pendingId = realId ∨ pendingId = "" ∨ realId = "") := by
    rintro (h1 | h1 | h1)
    · exact h.ne h1
    · exact h.pending_ne h1
    · exact h.real_ne h1
  have hsome : ((c.promoteRuntime pendingId realId).runtime realId).isSome := by
    simp [promoteRuntime, h.runtime]
  rw [promote, if_neg hguard, ensure, if_pos hsome]

theorem promote_cases (c : Transcripts) (pendingId realId : String) :
    c.Moves (c.promote pendingId realId) ∨ ∃ pending, c.Promotes pendingId realId pending := by
  by_cases hguard : pendingId = realId ∨ pendingId = "" ∨ realId = ""
  · rw [promote, if_pos hguard]
    exact Or.inl .stay
  · cases hp : c.runtime pendingId with
    | none =>
      rw [promote, if_neg hguard, promoteRuntime, hp]
      exact Or.inl (.touch realId)
    | some pending =>
      simp only [not_or] at hguard
      exact Or.inr ⟨pending, hguard.1, hguard.2.1, hguard.2.2, hp⟩

theorem le_promotedEntry (pending existing : Nat × Content) :
    existing.1 ≤ (promotedEntry pending (some existing)).1 := by
  unfold promotedEntry
  dsimp only
  split_ifs
  · exact le_rfl
  · exact le_max_right _ _

theorem promotedEntry_le {bound : Nat} {pending : Nat × Content}
    {existing : Option (Nat × Content)} (hp : pending.1 ≤ bound)
    (he : ∀ entry, existing = some entry → entry.1 ≤ bound) :
    (promotedEntry pending existing).1 ≤ bound := by
  cases existing with
  | none => exact hp
  | some entry =>
    have hle := he entry rfl
    unfold promotedEntry
    dsimp only
    split_ifs
    · exact hle
    · exact max_le hp hle

namespace Promotes

variable {c : Transcripts} {pendingId realId : String} {pending : Nat × Content}

theorem runtime_eq (h : c.Promotes pendingId realId pending) :
    (c.promote pendingId realId).runtime =
      Function.update (Function.update c.runtime pendingId none) realId
        (some (promotedEntry pending (c.runtime realId))) := by
  rw [h.promote_eq]
  unfold syncIf sync
  split_ifs
  · simp [promoteRuntime, h.runtime]
  · simp [promoteRuntime, h.runtime]

theorem frame (h : c.Promotes pendingId realId pending) :
    (c.promote pendingId realId).clock = c.clock ∧
      (c.promote pendingId realId).issued = c.issued ∧
      (c.promote pendingId realId).active = c.active := by
  rw [h.promote_eq]
  unfold syncIf sync
  split_ifs
  · simp [promoteRuntime, h.runtime]
  · simp [promoteRuntime, h.runtime]

theorem mirror_eq (h : c.Promotes pendingId realId pending) (ha : c.active ≠ some realId) :
    (c.promote pendingId realId).mirror = c.mirror := by
  have hact : (c.promoteRuntime pendingId realId).active = c.active := by
    simp [promoteRuntime, h.runtime]
  rw [h.promote_eq, syncIf, hact, if_neg ha]
  simp [promoteRuntime, h.runtime]

theorem shown_real (h : c.Promotes pendingId realId pending) :
    (c.promote pendingId realId).shown realId =
      some (promotedEntry pending (c.runtime realId)) :=
  shown_of_runtime (by rw [h.runtime_eq, Function.update_self])

/-- The pending id loses its runtime; still selected, it shows the mirror. -/
theorem shown_pending (h : c.Promotes pendingId realId pending) :
    (c.promote pendingId realId).shown pendingId =
      if c.active = some pendingId then some c.mirror else none := by
  have hr : (c.promote pendingId realId).runtime pendingId = none := by
    rw [h.runtime_eq, Function.update_of_ne h.ne, Function.update_self]
  unfold shown
  rw [hr, h.frame.2.2]
  by_cases ha : c.active = some pendingId
  · have hne : c.active ≠ some realId := by
      rw [ha]
      exact fun heq => h.ne (Option.some.inj heq)
    simp only [if_pos ha, h.mirror_eq hne]
  · simp only [if_neg ha]

theorem shown_other (h : c.Promotes pendingId realId pending) {threadId : String}
    (hp : threadId ≠ pendingId) (hr : threadId ≠ realId) :
    (c.promote pendingId realId).shown threadId = c.shown threadId := by
  have hruntime : (c.promote pendingId realId).runtime threadId = c.runtime threadId := by
    rw [h.runtime_eq, Function.update_of_ne hr, Function.update_of_ne hp]
  unfold shown
  rw [hruntime, h.frame.2.2]
  by_cases ha : c.active = some threadId
  · have hne : c.active ≠ some realId := by
      rw [ha]
      exact fun heq => hr (Option.some.inj heq)
    simp only [if_pos ha, h.mirror_eq hne]
  · simp only [if_neg ha]

theorem sound (h : c.Promotes pendingId realId pending) (hc : c.Sound) :
    (c.promote pendingId realId).Sound := by
  have hmove : (c.promoteRuntime pendingId realId).Sound := by
    rw [promoteRuntime, h.runtime]
    refine ⟨hc.issued_sorted, hc.issued_le, ?_, hc.mirror_le⟩
    intro threadId entry hentry
    dsimp only at hentry
    by_cases hr : threadId = realId
    · subst hr
      rw [Function.update_self, Option.some.injEq] at hentry
      rw [← hentry]
      exact promotedEntry_le (hc.runtime_le pendingId pending h.runtime)
        fun existing he => hc.runtime_le threadId existing he
    · rw [Function.update_of_ne hr] at hentry
      by_cases hp : threadId = pendingId
      · rw [hp, Function.update_self] at hentry
        cases hentry
      · rw [Function.update_of_ne hp] at hentry
        exact hc.runtime_le threadId entry hentry
  rw [h.promote_eq]
  unfold syncIf
  split_ifs
  · exact sound_sync hmove
  · exact hmove

end Promotes

structure Floor (c : Transcripts) (threadId : String) (a : Nat) : Prop where
  clock : a ≤ c.clock
  shown : ∀ entry, c.shown threadId = some entry → a ≤ entry.1

theorem Later.floor {c d : Transcripts} (h : c.Later d) (hlt : d.clock < u64Max)
    {threadId : String} {a : Nat} (hf : c.Floor threadId a) : d.Floor threadId a where
  clock := hf.clock.trans (h.clock_le hlt)
  shown := by
    intro entry hentry
    have hclock := hf.clock
    rcases h.shown hlt threadId entry hentry with hc | hc | ⟨-, hc⟩
    · exact hf.shown entry hc
    · omega
    · omega

/-- A promotion keeps the floor when the runtime it moves is not behind what the real id
has shown, and the mirror is not behind a selected pending id. -/
theorem Promotes.floor {c : Transcripts} {pendingId realId : String} {pending : Nat × Content}
    (h : c.Promotes pendingId realId pending) {threadId : String} {a : Nat}
    (hf : c.Floor threadId a)
    (hreal : threadId = realId → c.runtime realId = none → a ≤ pending.1)
    (hmirror : c.active = some pendingId → pending.1 ≤ c.mirror.1) :
    (c.promote pendingId realId).Floor threadId a where
  clock := hf.clock.trans_eq h.frame.1.symm
  shown := by
    intro entry hentry
    by_cases hr : threadId = realId
    · subst hr
      rw [h.shown_real, Option.some.injEq] at hentry
      rw [← hentry]
      cases he : c.runtime threadId with
      | none => exact hreal rfl he
      | some existing =>
        exact (hf.shown existing (shown_of_runtime he)).trans (le_promotedEntry pending existing)
    · by_cases hp : threadId = pendingId
      · subst hp
        rw [h.shown_pending, Option.ite_none_right_eq_some, Option.some.injEq] at hentry
        obtain ⟨ha, rfl⟩ := hentry
        exact (hf.shown pending (shown_of_runtime h.runtime)).trans (hmirror ha)
      · rw [h.shown_other hp hr] at hentry
        exact hf.shown entry hentry

structure Names (c : Transcripts) (entry : Nat × Content) : Prop where
  clock : entry.1 ≤ c.clock
  shown : ∀ t e, c.shown t = some e → e.1 = entry.1 → e = entry

theorem Later.names {c d : Transcripts} (h : c.Later d) (hlt : d.clock < u64Max)
    (ha : c.Anchored) {entry : Nat × Content} (hn : c.Names entry) : d.Names entry where
  clock := hn.clock.trans (h.clock_le hlt)
  shown := by
    intro t e he heq
    have hclock := hn.clock
    rcases h.shown hlt t e he with hc | hc | ⟨hc, -⟩
    · exact hn.shown t e hc heq
    · omega
    · exact absurd ha hc

structure Promotes.Apart (c : Transcripts) (pendingId realId : String)
    (pending : Nat × Content) : Prop where
  unselected : c.active ≠ some pendingId
  newer : ∀ existing, c.runtime realId = some existing →
    existing.2.1.length < pending.2.1.length → existing.1 < pending.1

section Apart

variable {c : Transcripts} {pendingId realId : String} {pending : Nat × Content}

theorem Promotes.Apart.promotedEntry_eq (h : Promotes.Apart c pendingId realId pending) :
    promotedEntry pending (c.runtime realId) = pending ∨
      c.runtime realId = some (promotedEntry pending (c.runtime realId)) := by
  cases hr : c.runtime realId with
  | none => exact Or.inl rfl
  | some existing =>
    unfold promotedEntry
    dsimp only
    split_ifs with hlen
    · exact Or.inr rfl
    · have hlt := h.newer existing hr (by omega)
      rw [max_eq_left hlt.le]
      exact Or.inl rfl

theorem Promotes.shown_apart (h : c.Promotes pendingId realId pending)
    (hapart : Promotes.Apart c pendingId realId pending) {t : String} {e : Nat × Content}
    (he : (c.promote pendingId realId).shown t = some e) : ∃ u, c.shown u = some e := by
  by_cases hr : t = realId
  · subst hr
    rw [h.shown_real, Option.some.injEq] at he
    rcases hapart.promotedEntry_eq with hp | hx
    · exact ⟨pendingId, shown_of_runtime (by rw [h.runtime, ← he, hp])⟩
    · exact ⟨t, shown_of_runtime (by rw [hx, he])⟩
  · by_cases hp : t = pendingId
    · subst hp
      rw [h.shown_pending, if_neg hapart.unselected] at he
      cases he
    · rw [h.shown_other hp hr] at he
      exact ⟨t, he⟩

theorem Promotes.anchored (h : c.Promotes pendingId realId pending)
    (hapart : Promotes.Apart c pendingId realId pending) (ha : c.Anchored) :
    (c.promote pendingId realId).Anchored := by
  intro t ht
  rw [h.frame.2.2] at ht
  rw [h.runtime_eq]
  by_cases hr : t = realId
  · subst hr
    simp
  · have hp : t ≠ pendingId := fun hp => hapart.unselected (hp ▸ ht)
    rw [Function.update_of_ne hr, Function.update_of_ne hp]
    exact ha t ht

theorem Promotes.names (h : c.Promotes pendingId realId pending)
    (hapart : Promotes.Apart c pendingId realId pending) {entry : Nat × Content}
    (hn : c.Names entry) : (c.promote pendingId realId).Names entry where
  clock := hn.clock.trans_eq h.frame.1.symm
  shown := by
    intro t e he heq
    obtain ⟨u, hu⟩ := h.shown_apart hapart he
    exact hn.shown u e hu heq

end Apart

theorem sound_promote {c : Transcripts} (hc : c.Sound) (pendingId realId : String)
    (hlt : (c.promote pendingId realId).clock < u64Max) : (c.promote pendingId realId).Sound := by
  rcases promote_cases c pendingId realId with hmove | ⟨pending, h⟩
  · exact hmove.later.sound hlt hc
  · exact h.sound hc

end Transcripts

end AgentRelay.Relay
