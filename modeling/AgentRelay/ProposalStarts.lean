import AgentRelay.CardLedger

/-! A card starts at most once and not after its dismissal. A claimed card is in two places
at once, so the invariant is about where an id may be while it can still lead to a start. -/
namespace AgentRelay.Relay
open StepRun

namespace CardLedger
variable {l l' : CardLedger} {m : CardMove}

def takenIds (l : CardLedger) : List String := l.taken.map (·.1)

structure Unique (l : CardLedger) : Prop where
  openNodup : (l.pending ++ l.takenIds).Nodup
  parkedNodup : l.parked.Nodup
  parkedQueued : ∀ id ∈ l.parked, id ∈ l.queue
  savedNodup : l.savedPending.Nodup
  issued : ∀ id, id ∈ l.pending ∨ id ∈ l.takenIds ∨ id ∈ l.parked ∨ id ∈ l.savedPending →
    id ∈ l.issued

theorem mem_takenIds {i : Nat} {id : String} {run : Option String}
    (hi : l.taken[i]? = some (id, run)) : id ∈ l.takenIds :=
  List.mem_map_of_mem (f := Prod.fst) (List.mem_of_getElem? hi)

theorem toSave_nodup (hpending : l.pending.Nodup) (hparked : l.parked.Nodup) :
    l.toSave.Nodup := by
  rw [toSave, List.nodup_append]
  refine ⟨hpending.filter _, hparked, ?_⟩
  intro a ha b hb hab
  subst hab
  simp [hb] at ha

theorem mem_toSave {id : String} (h : id ∈ l.toSave) : id ∈ l.pending ∨ id ∈ l.parked := by
  rw [toSave, List.mem_append, List.mem_filter] at h
  rcases h with h | h
  · exact .inl h.1
  · exact .inr h

theorem takenIds_eraseIdx (hopen : (l.pending ++ l.takenIds).Nodup) {i : Nat} {id : String}
    {run : Option String} (hi : l.taken[i]? = some (id, run)) :
    (l.pending ++ (l.taken.eraseIdx i).map (·.1)).Nodup ∧
      id ∉ l.pending ∧ id ∉ (l.taken.eraseIdx i).map (·.1) := by
  rw [List.nodup_append] at hopen
  obtain ⟨hpending, htaken, hdisjoint⟩ := hopen
  have hsub : ((l.taken.eraseIdx i).map (·.1)).Sublist l.takenIds := (List.eraseIdx_sublist ..).map _
  have hmem := mem_takenIds hi
  refine ⟨?_, fun h => hdisjoint id h id hmem rfl, ?_⟩
  · rw [List.nodup_append]
    exact ⟨hpending, htaken.sublist hsub, fun a ha b hb => hdisjoint a ha b (hsub.subset hb)⟩
  · obtain ⟨hlt, hget⟩ := List.getElem?_eq_some_iff.mp hi
    have hlt' : i < l.takenIds.length := by simpa [takenIds] using hlt
    have hat : l.takenIds[i] = id := by simp [takenIds, hget]
    rw [← List.eraseIdx_map]
    change id ∉ l.takenIds.eraseIdx i
    rw [← hat, ← List.Nodup.erase_getElem htaken i hlt']
    exact htaken.not_mem_erase

theorem Unique.of_subset (h : l.Unique) (hopen : (l'.pending ++ l'.takenIds).Nodup)
    (hsub : ∀ id ∈ l'.pending ++ l'.takenIds, id ∈ l.pending ++ l.takenIds)
    (hparked : l'.parked.Sublist l.parked) (hqueue : ∀ id ∈ l'.parked, id ∈ l'.queue)
    (hsaved : l'.savedPending = l.savedPending) (hissued : l'.issued = l.issued) :
    l'.Unique := by
  refine ⟨hopen, h.parkedNodup.sublist hparked, hqueue, hsaved ▸ h.savedNodup, ?_⟩
  intro id hid
  rw [hissued]
  rw [hsaved] at hid
  have hopen' : id ∈ l'.pending ++ l'.takenIds → id ∈ l.issued := by
    intro hmem
    rcases List.mem_append.mp (hsub id hmem) with hp | ht
    · exact h.issued id (.inl hp)
    · exact h.issued id (.inr (.inl ht))
  rcases hid with hp | ht | hk | hs
  · exact hopen' (List.mem_append_left _ hp)
  · exact hopen' (List.mem_append_right _ ht)
  · exact h.issued id (.inr (.inr (.inl (hparked.subset hk))))
  · exact h.issued id (.inr (.inr (.inr hs)))

theorem Unique.erase (h : l.Unique) {i : Nat} {id : String} {run : Option String}
    (hi : l.taken[i]? = some (id, run)) (started : List String) :
    Unique { l with taken := l.taken.eraseIdx i, started := started } := by
  refine h.of_subset ?_ ?_ (List.Sublist.refl _) h.parkedQueued rfl rfl
  · exact (takenIds_eraseIdx h.openNodup hi).1
  intro a ha
  rcases List.mem_append.mp ha with hp | ht
  · exact List.mem_append_left _ hp
  · exact List.mem_append_right _ (((List.eraseIdx_sublist ..).map _).subset ht)

def Fresh (l : CardLedger) : CardMove → Prop
  | .drawn id => id ∉ l.issued
  | _ => True

theorem Unique.step (h : l.Unique) (hstep : l.Step m l') (hfresh : l.Fresh m) : l'.Unique := by
  cases hstep with
  | idle => exact h
  | stage id =>
    have hid : id ∉ l.issued := hfresh
    refine { h with openNodup := ?_, issued := ?_ }
    · have hpending : id ∉ l.pending := fun hp => hid (h.issued id (.inl hp))
      have htaken : id ∉ l.takenIds := fun ht => hid (h.issued id (.inr (.inl ht)))
      have hperm : (l.pending ++ [id] ++ l.takenIds).Perm (id :: (l.pending ++ l.takenIds)) := by
        simp [List.perm_middle]
      refine hperm.nodup_iff.mpr (List.nodup_cons.mpr ⟨?_, h.openNodup⟩)
      simp [hpending, htaken]
    · intro a ha
      simp only [List.mem_append, List.mem_singleton] at ha ⊢
      rcases ha with (ha | ha) | ha
      · exact .inl (h.issued a (.inl ha))
      · exact .inr ha
      · exact .inl (h.issued a (.inr ha))
  | take n id hn =>
    obtain ⟨hlt, rfl⟩ := List.getElem?_eq_some_iff.mp hn
    have hperm : (l.pending.eraseIdx n ++
        (l.taken ++ [(l.pending[n], (none : Option String))]).map (·.1)).Perm
          (l.pending ++ l.takenIds) := by
      have hfront := List.getElem_cons_eraseIdx_perm hlt
      rw [List.map_append, List.map_singleton, ← List.append_assoc]
      refine (List.perm_append_singleton _ _).trans ?_
      exact (hfront.append_right l.takenIds)
    exact h.of_subset (hperm.nodup_iff.mpr h.openNodup) (fun a ha => hperm.subset ha)
      (List.Sublist.refl _) h.parkedQueued rfl rfl
  | record i id runId hi =>
    have hids : (l.taken.set i (id, some runId)).map (·.1) = l.takenIds := by
      obtain ⟨hlt, hget⟩ := List.getElem?_eq_some_iff.mp hi
      rw [List.map_set]
      change l.takenIds.set i id = l.takenIds
      have hlt' : i < l.takenIds.length := by simpa [takenIds] using hlt
      have hat : l.takenIds[i] = id := by simp [takenIds, hget]
      rw [← hat, List.set_getElem_self]
    refine h.of_subset ?_ ?_ List.filter_sublist ?_ rfl rfl
    · change (l.pending ++ (l.taken.set i (id, some runId)).map (·.1)).Nodup
      rw [hids]
      exact h.openNodup
    · change ∀ a ∈ l.pending ++ (l.taken.set i (id, some runId)).map (·.1), _
      rw [hids]
      exact fun a ha => ha
    · intro a ha
      exact h.parkedQueued a (List.mem_filter.mp ha).1
  | drop i id run hi => exact h.erase hi l.started
  | lose i card hi => exact h.erase hi l.started
  | reopen i id hi => exact h.erase hi (l.started ++ [id])
  | restore i card run hi =>
    obtain ⟨hopen, hpending, htaken⟩ := takenIds_eraseIdx h.openNodup hi
    simp only [if_neg hpending]
    have hperm : (l.pending ++ [card.id] ++ (l.taken.eraseIdx i).map (·.1)).Perm
        (card.id :: (l.pending ++ (l.taken.eraseIdx i).map (·.1))) := by
      simp [List.perm_middle]
    refine h.of_subset ?_ ?_ (List.Sublist.refl _) h.parkedQueued rfl rfl
    · refine hperm.nodup_iff.mpr (List.nodup_cons.mpr ⟨?_, hopen⟩)
      rw [List.mem_append]
      exact not_or.mpr ⟨hpending, htaken⟩
    · intro a ha
      rcases List.mem_cons.mp (hperm.subset ha) with rfl | hrest
      · exact List.mem_append_right _ (mem_takenIds hi)
      · rcases List.mem_append.mp hrest with hp | ht
        · exact List.mem_append_left _ hp
        · exact List.mem_append_right _ (((List.eraseIdx_sublist ..).map _).subset ht)
  | claim due hqueue hdue =>
    have hempty : l.parked = [] := by
      rw [List.eq_nil_iff_forall_not_mem]
      intro id hid
      have := h.parkedQueued id hid
      simp [hqueue] at this
    refine { h with parkedNodup := ?_, parkedQueued := ?_, issued := ?_ }
    · rw [hempty, List.nil_append]
      exact (List.nodup_append.mp h.openNodup).1.sublist hdue
    · simp [hempty]
    · intro id hid
      simp only [hempty, List.nil_append] at hid
      rcases hid with hp | ht | hd | hs
      · exact h.issued id (.inl hp)
      · exact h.issued id (.inr (.inl ht))
      · exact h.issued id (.inl (hdue.subset hd))
      · exact h.issued id (.inr (.inr (.inr hs)))
  | settle id rest hqueue =>
    refine h.of_subset h.openNodup (fun a ha => ha) List.filter_sublist ?_ rfl rfl
    intro a ha
    obtain ⟨hmem, hne⟩ := List.mem_filter.mp ha
    have hin := h.parkedQueued a hmem
    rw [hqueue] at hin
    exact (List.mem_cons.mp hin).resolve_left (of_decide_eq_true hne)
  | dismiss id hid =>
    have hsub : (l.pending.filter (· ≠ id) ++ l.takenIds).Sublist (l.pending ++ l.takenIds) :=
      List.filter_sublist.append (List.Sublist.refl _)
    exact h.of_subset (h.openNodup.sublist hsub) (fun a ha => hsub.subset ha)
      (List.Sublist.refl _) h.parkedQueued rfl rfl
  | save =>
    refine { h with savedNodup := ?_, issued := ?_ }
    · exact toSave_nodup (List.nodup_append.mp h.openNodup).1 h.parkedNodup
    · intro id hid
      rcases hid with hp | ht | hk | hs
      · exact h.issued id (.inl hp)
      · exact h.issued id (.inr (.inl ht))
      · exact h.issued id (.inr (.inr (.inl hk)))
      · rcases mem_toSave hs with hp | hk
        · exact h.issued id (.inl hp)
        · exact h.issued id (.inr (.inr (.inl hk)))
  | restart =>
    refine ⟨?_, List.nodup_nil, by simp, h.savedNodup, ?_⟩
    · simpa [takenIds] using h.savedNodup
    · intro id hid
      simp only [takenIds, List.map_nil, List.not_mem_nil, false_or, or_self] at hid
      exact h.issued id (.inr (.inr (.inr hid)))

/-- A card that may still lead to a start has not started, and nothing that may still be
saved or started was dismissed or is on record. -/
structure Settled (l : CardLedger) : Prop where
  startedNodup : l.started.Nodup
  known : ∀ id, id ∈ l.started ∨ id ∈ l.runs ∨ id ∈ l.dismissed → id ∈ l.issued
  waiting : ∀ id, id ∈ l.pending ∨ (id, none) ∈ l.taken →
    id ∉ l.started ∧ id ∉ l.runs ∧ id ∉ l.dismissed
  parked : ∀ id ∈ l.parked, id ∉ l.runs ∧ id ∉ l.dismissed
  saved : ∀ id ∈ l.savedPending, id ∉ l.savedRuns ∧ id ∉ l.savedDismissed
  savedKnown : ∀ id, id ∈ l.savedRuns ∨ id ∈ l.savedDismissed → id ∈ l.issued

/-- What the ledger has to be spared for its cards to start once: no dismissal of a parked
card, and no card given back with its run on record. -/
def Spares (l : CardLedger) : CardMove → Prop
  | .dismissed id => id ∉ l.parked
  | .restored _ run => run = none
  | _ => True

theorem Settled.erase (h : l.Settled) {i : Nat} :
    Settled { l with taken := l.taken.eraseIdx i } := by
  refine { h with waiting := ?_ }
  intro a ha
  exact h.waiting a (ha.imp_right fun ht => (List.eraseIdx_sublist ..).subset ht)

theorem ne_of_waiting (hunique : l.Unique) {i : Nat} {id a : String} {run : Option String}
    (hi : l.taken[i]? = some (id, run))
    (ha : a ∈ l.pending ∨ (a, none) ∈ l.taken.eraseIdx i) : a ≠ id := by
  obtain ⟨-, hpending, htaken⟩ := takenIds_eraseIdx hunique.openNodup hi
  rintro rfl
  rcases ha with hp | ht
  · exact hpending hp
  · exact htaken (List.mem_map_of_mem (f := Prod.fst) ht)

theorem started_new (h : l.Settled) {id : String} (hstep : l.Step (.started id) l') :
    id ∉ l.started ∧ id ∉ l.runs ∧ id ∉ l.dismissed := by
  cases hstep with
  | record i _ runId hi => exact h.waiting id (.inr (List.mem_of_getElem? hi))
  | reopen i _ hi => exact h.waiting id (.inr (List.mem_of_getElem? hi))

theorem Settled.nodup_started (h : l.Settled) {id : String} (hid : id ∉ l.started) :
    (l.started ++ [id]).Nodup := by
  rw [← List.concat_eq_append]
  exact h.startedNodup.concat hid

theorem Settled.step (hunique : l.Unique) (h : l.Settled) (hstep : l.Step m l')
    (hfresh : l.Fresh m) (hspares : l.Spares m) : l'.Settled := by
  cases hstep with
  | idle => exact h
  | stage id =>
    have hid : id ∉ l.issued := hfresh
    refine { h with known := ?_, waiting := ?_, savedKnown := ?_ }
    · intro a ha
      exact List.mem_append_left _ (h.known a ha)
    · intro a ha
      by_cases haid : a = id
      · subst haid
        exact ⟨fun hs => hid (h.known a (.inl hs)), fun hr => hid (h.known a (.inr (.inl hr))),
          fun hd => hid (h.known a (.inr (.inr hd)))⟩
      · apply h.waiting a
        simpa [haid] using ha
    · intro a ha
      exact List.mem_append_left _ (h.savedKnown a ha)
  | take n id hn =>
    refine { h with waiting := ?_ }
    intro a ha
    apply h.waiting a
    rcases ha with hp | ht
    · exact .inl ((List.eraseIdx_sublist ..).subset hp)
    · rcases List.mem_append.mp ht with hold | hnew
      · exact .inr hold
      · simp only [List.mem_singleton, Prod.mk.injEq, and_true] at hnew
        exact .inl (hnew ▸ List.mem_of_getElem? hn)
  | record i id runId hi =>
    obtain ⟨hstarted, hruns, hdismissed⟩ := started_new h (.record i id runId hi)
    have hissued : id ∈ l.issued := hunique.issued id (.inr (.inl (mem_takenIds hi)))
    -- the entry at `i` no longer waits, the others have other ids
    have hothers : ∀ a, a ∈ l.pending ∨ (a, none) ∈ l.taken.set i (id, some runId) →
        a ≠ id ∧ (a ∈ l.pending ∨ (a, none) ∈ l.taken) := by
      intro a ha
      have hout : a ∈ l.pending ∨ (a, none) ∈ l.taken.eraseIdx i := by
        refine ha.imp_right fun ht => ?_
        obtain ⟨j, hj⟩ := List.mem_iff_getElem?.mp ht
        rw [List.mem_eraseIdx_iff_getElem?]
        rw [List.getElem?_set] at hj
        split_ifs at hj with hij hlt
        · simp at hj
        · exact ⟨j, Ne.symm hij, hj⟩
      exact ⟨ne_of_waiting hunique hi hout,
        hout.imp_right fun ht => (List.eraseIdx_sublist ..).subset ht⟩
    refine ⟨?_, ?_, ?_, ?_, h.saved, h.savedKnown⟩
    · exact h.nodup_started hstarted
    · intro a ha
      simp only [List.mem_append, List.mem_singleton] at ha
      rcases ha with (ha | rfl) | (ha | rfl) | ha
      · exact h.known a (.inl ha)
      · exact hissued
      · exact h.known a (.inr (.inl ha))
      · exact hissued
      · exact h.known a (.inr (.inr ha))
    · intro a ha
      obtain ⟨hne, hwaits⟩ := hothers a ha
      have := h.waiting a hwaits
      simp [hne, this.1, this.2.1, this.2.2]
    · intro a ha
      obtain ⟨hmem, hne⟩ := List.mem_filter.mp ha
      have := h.parked a hmem
      simp [of_decide_eq_true hne, this.1, this.2]
  | drop i id run hi => exact h.erase
  | lose i card hi => exact h.erase
  | reopen i id hi =>
    obtain ⟨hstarted, hruns, hdismissed⟩ := started_new h (.reopen i id hi)
    refine ⟨?_, ?_, ?_, h.parked, h.saved, h.savedKnown⟩
    · exact h.nodup_started hstarted
    · intro a ha
      simp only [List.mem_append, List.mem_singleton] at ha
      rcases ha with (ha | rfl) | ha
      · exact h.known a (.inl ha)
      · exact hunique.issued a (.inr (.inl (mem_takenIds hi)))
      · exact h.known a (.inr ha)
    · intro a ha
      have hne := ne_of_waiting hunique hi ha
      have := h.waiting a (ha.imp_right fun ht => (List.eraseIdx_sublist ..).subset ht)
      simp [hne, this.1, this.2.1, this.2.2]
  | restore i card run hi =>
    obtain rfl : run = none := hspares
    refine { h with waiting := ?_ }
    intro a ha
    apply h.waiting a
    rcases ha with hp | ht
    · split_ifs at hp
      · exact .inl hp
      · rcases List.mem_append.mp hp with hold | hnew
        · exact .inl hold
        · rw [List.mem_singleton] at hnew
          exact .inr (hnew ▸ List.mem_of_getElem? hi)
    · exact .inr ((List.eraseIdx_sublist ..).subset ht)
  | claim due hqueue hdue =>
    refine { h with parked := ?_ }
    intro a ha
    rcases List.mem_append.mp ha with hold | hnew
    · exact h.parked a hold
    · exact (h.waiting a (.inl (hdue.subset hnew))).2
  | settle id rest hqueue =>
    refine { h with parked := ?_ }
    intro a ha
    exact h.parked a (List.mem_filter.mp ha).1
  | dismiss id hid =>
    have hparked : id ∉ l.parked := hspares
    have htaken : id ∉ l.takenIds := by
      intro ht
      exact (List.nodup_append.mp hunique.openNodup).2.2 id hid id ht rfl
    refine { h with known := ?_, waiting := ?_, parked := ?_ }
    · intro a ha
      simp only [List.mem_append, List.mem_singleton] at ha
      rcases ha with ha | ha | ha | rfl
      · exact h.known a (.inl ha)
      · exact h.known a (.inr (.inl ha))
      · exact h.known a (.inr (.inr ha))
      · exact hunique.issued a (.inl hid)
    · intro a ha
      have hne : a ≠ id := by
        rintro rfl
        rcases ha with hp | ht
        · simp at hp
        · exact htaken (List.mem_map_of_mem (f := Prod.fst) ht)
      have := h.waiting a (ha.imp_left fun hp => (List.mem_filter.mp hp).1)
      simp [hne, this.1, this.2.1, this.2.2]
    · intro a ha
      have hne : a ≠ id := by
        rintro rfl
        exact hparked ha
      have := h.parked a ha
      simp [hne, this.1, this.2]
  | save =>
    refine { h with saved := ?_, savedKnown := ?_ }
    · intro a ha
      rcases mem_toSave ha with hp | hk
      · exact (h.waiting a (.inl hp)).2
      · exact h.parked a hk
    · intro a ha
      exact h.known a (.inr ha)
  | restart =>
    refine ⟨List.nodup_nil, ?_, ?_, by simp, h.saved, h.savedKnown⟩
    · intro a ha
      simp only [List.not_mem_nil, false_or] at ha
      exact h.savedKnown a ha
    · intro a ha
      simp only [List.not_mem_nil, or_false] at ha
      exact ⟨by simp, h.saved a ha⟩

end CardLedger

namespace ProposalBoard
variable {b : ProposalBoard}

theorem starts_restoreCard (b : ProposalBoard) (card : OrchestratorProposal) :
    (b.restoreCard card).starts = b.starts := by
  unfold restoreCard
  split <;> rfl

/-- What an operation does to the list and to the starts under way: it adds to neither, stages
a card, takes one off with its start, or is the record, the end or the loss of what is under
way. -/
inductive Moved (b : ProposalBoard) : ProposalOp → ProposalBoard → Prop
  | kept (op : ProposalOp) (b' : ProposalBoard)
      (hlength : b'.orchestratorProposals.length ≤ b.orchestratorProposals.length)
      (hstarts : b'.starts = b.starts) : Moved b op b'
  | staged (op : ProposalOp) (card : OrchestratorProposal) : Moved b op (b.stage card).1
  | taken (op : ProposalOp) (b' : ProposalBoard) (start : CardStart) (hrun : start.run = none)
      (hlength : b'.orchestratorProposals.length ≤ b.orchestratorProposals.length)
      (hstarts : b'.starts = b.starts ++ [start]) : Moved b op b'
  | recorded (i : Nat) (runId : String) : Moved b (.record i runId) (b.recordRun i runId)
  | finished (i : Nat) (error : Option String) : Moved b (.finish i error) (b.finishStart i error)
  | restarted : Moved b .restart b.restart

theorem length_modifyFirst (cards : List OrchestratorProposal) (proposalId : String)
    {f : OrchestratorProposal → OrchestratorProposal} (hf : ∀ card, (f card).id = card.id) :
    (modifyFirst cards proposalId f).length = cards.length := by
  simpa [ids] using congrArg List.length (ids_modifyFirst cards proposalId f hf)

theorem moved (b : ProposalBoard) (op : ProposalOp) : Moved b op (b.step op) := by
  have hkept : Moved b op b := .kept op b le_rfl rfl
  cases op with
  | configure beta driver => exact .kept _ _ le_rfl rfl
  | propose now suffix team input =>
    simp only [step]
    obtain ⟨error, heq⟩ | ⟨card, heq⟩ := propose_cases (b := b) now suffix team input
    · rw [heq]
      exact hkept
    · rw [heq]
      exact .staged _ card
  | proposeReopen now suffix target instruction updates deviceId =>
    simp only [step]
    obtain ⟨error, heq⟩ | ⟨card, heq⟩ :=
      proposeReopen_cases (b := b) now suffix target instruction updates deviceId
    · rw [heq]
      exact hkept
    · rw [heq]
      exact .staged _ card
  | revise now proposalId team input =>
    simp only [step]
    obtain heq | ⟨f, hf, heq⟩ := revise_cases (b := b) now proposalId team input
    · rw [heq]
      exact hkept
    · rw [heq]
      exact .kept _ _ (length_modifyFirst _ _ hf).le rfl
  | confirm proposalId deviceId =>
    simp only [step]
    obtain ⟨error, heq⟩ | ⟨n, card, -, -, heq⟩ := take_cases (b := b) proposalId deviceId false
    · rw [heq]
      exact hkept
    · rw [heq]
      exact .taken _ _ _ rfl (List.eraseIdx_sublist ..).length_le rfl
  | record i runId => exact .recorded i runId
  | finish i error => exact .finished i error
  | tick now =>
    simp only [step, startDueScheduledProposalsAt]
    split_ifs
    · exact hkept
    · exact hkept
    · exact .kept _ _ (List.length_map ..).le rfl
  | sweepConfirm =>
    simp only [step, sweepConfirm]
    split
    · next proposalId deviceId rest hsweep =>
      obtain ⟨error, heq⟩ | ⟨n, card, -, -, heq⟩ :=
        take_cases (b := b) proposalId (some deviceId) true
      · rw [heq]
        exact .kept _ _ le_rfl rfl
      · rw [heq]
        exact .taken _ _ _ rfl (List.eraseIdx_sublist ..).length_le rfl
    · exact hkept
  | sweepSettle =>
    simp only [step, sweepSettle]
    split
    · next error hsweep =>
      refine .kept _ _ ?_ rfl
      cases error with
      | none => exact le_rfl
      | some error =>
        dsimp only
        exact Nat.le_of_eq (length_modifyFirst _ _ fun _ => rfl)
    · exact hkept
  | dismiss proposalId deviceId =>
    simp only [step, dismissOrchestratorProposal]
    split
    · exact hkept
    · split
      · exact hkept
      · split
        · exact hkept
        · exact .kept _ _ (List.length_filter_le ..) rfl
  | save => exact .kept _ _ le_rfl rfl
  | restart => exact .restarted

/-- Runs are recorded for the cards of new tasks only. -/
theorem reopens_step (h : b.ReopensUnrecorded) (op : ProposalOp) :
    (b.step op).ReopensUnrecorded := by
  have hmoved := b.moved op
  generalize b.step op = b' at hmoved ⊢
  cases hmoved with
  | kept _ _ hlength hstarts =>
    rw [ReopensUnrecorded, hstarts]
    exact h
  | staged _ card =>
    unfold stage
    split_ifs
    · exact h
    · exact h
  | taken _ _ start hrun hlength hstarts =>
    rw [ReopensUnrecorded, hstarts]
    intro other hother hkind
    rcases List.mem_append.mp hother with hold | hnew
    · exact h other hold hkind
    · rw [List.mem_singleton.mp hnew]
      exact hrun
  | recorded i runId =>
    unfold recordRun
    split
    · exact h
    · split_ifs with hkind
      · intro start hstart hreopen
        rcases List.mem_or_eq_of_mem_set hstart with hold | hnew
        · exact h start hold hreopen
        · rw [hnew, hkind.1] at hreopen
          cases hreopen
      · exact h
  | finished i error =>
    have herase : ∀ start ∈ b.starts.eraseIdx i, start.card.kind = .reopenTask →
        start.run = none :=
      fun start hstart => h start (List.mem_of_mem_eraseIdx hstart)
    simp only [finishStart]
    split
    · exact h
    · split
      · exact h
      · split
        · exact herase
        · intro start hstart
          rw [starts_restoreCard] at hstart
          exact herase start hstart
        · exact herase
        · exact herase
  | restarted => simp [restart, ReopensUnrecorded]

/-- Card ids are drawn at random and never twice. -/
def DrawsFresh (b : ProposalBoard) (op : ProposalOp) : Prop := b.ledger.Fresh (b.move op)

/-- No card is dismissed while its armed copy is parked, and no start reports an error once
its run is on record. -/
def SparesClaimed (b : ProposalBoard) (op : ProposalOp) : Prop := b.ledger.Spares (b.move op)

/-- What a snapshot taken now would hold: no armed card beside the run it started. -/
def SnapshotSound (b : ProposalBoard) : Prop :=
  ∀ card ∈ b.savedProposals, card.autoStart → ∀ run ∈ b.runs, run.cardId ≠ card.id

def NotAfterDismissal (b : ProposalBoard) (op : ProposalOp) : Prop :=
  ∀ id, b.move op = .started id → id ∉ b.dismissed

instance (l : CardLedger) : (m : CardMove) → Decidable (l.Fresh m)
  | .drawn id => inferInstanceAs (Decidable (id ∉ l.issued))
  | .none => isTrue trivial
  | .started _ => isTrue trivial
  | .restored _ _ => isTrue trivial
  | .lost _ => isTrue trivial
  | .dismissed _ => isTrue trivial

instance (l : CardLedger) : (m : CardMove) → Decidable (l.Spares m)
  | .dismissed id => inferInstanceAs (Decidable (id ∉ l.parked))
  | .restored _ run => inferInstanceAs (Decidable (run = none))
  | .none => isTrue trivial
  | .drawn _ => isTrue trivial
  | .started _ => isTrue trivial
  | .lost _ => isTrue trivial

instance (b : ProposalBoard) (op : ProposalOp) : Decidable (b.DrawsFresh op) :=
  inferInstanceAs (Decidable (b.ledger.Fresh (b.move op)))

instance (b : ProposalBoard) (op : ProposalOp) : Decidable (b.SparesClaimed op) :=
  inferInstanceAs (Decidable (b.ledger.Spares (b.move op)))

structure Kept (b : ProposalBoard) : Prop where
  reopens : b.ReopensUnrecorded
  unique : b.ledger.Unique
  settled : b.ledger.Settled

theorem kept_new : Kept {} := by
  refine ⟨by simp [ReopensUnrecorded], ?_, ?_⟩
  · constructor <;> simp [ledger, ids, CardLedger.takenIds]
  · constructor <;> simp [ledger, ids]

theorem Kept.step (h : b.Kept) {op : ProposalOp} (hfresh : b.DrawsFresh op)
    (hspares : b.SparesClaimed op) : (b.step op).Kept := by
  have hstep := step_ledger h.reopens op
  exact ⟨reopens_step h.reopens op, h.unique.step hstep hfresh,
    h.settled.step h.unique hstep hfresh hspares⟩

theorem Kept.snapshotSound (h : b.Kept) : b.SnapshotSound := by
  intro card hcard _ run hrun hid
  have hruns : card.id ∈ b.ledger.runs := by
    rw [← hid]
    exact List.mem_map_of_mem hrun
  rcases List.mem_append.mp hcard with hlisted | hparked
  · exact (h.settled.waiting card.id (.inl (List.mem_map_of_mem
      (List.mem_filter.mp hlisted).1))).2.1 hruns
  · exact (h.settled.parked card.id (List.mem_map_of_mem hparked)).1 hruns

/-- In every run from an empty board in which no parked card is dismissed and no start fails
after its run is on record, a card starts once per process, never after its dismissal, and
no snapshot holds it armed beside its run. -/
theorem proposals_start_once (ops : List ProposalOp)
    (hfresh : Along step DrawsFresh {} ops) (hspares : Along step SparesClaimed {} ops) :
    Always step (fun b => b.started.Nodup ∧ b.SnapshotSound) {} ops ∧
      Along step NotAfterDismissal {} ops := by
  have hboth := along_and hfresh hspares
  constructor
  · have hkept := always_of_step (fun b op (h : Kept b) hop => h.step hop.1 hop.2) kept_new hboth
    exact hkept.mono fun b h => ⟨h.settled.startedNodup, h.snapshotSound⟩
  · refine along_of_step ?_ kept_new hboth
    intro b op h hop
    refine ⟨h.step hop.1 hop.2, ?_⟩
    intro id hstarted
    have hstep := step_ledger h.reopens op
    rw [hstarted] at hstep
    exact (CardLedger.started_new h.settled hstep).2.2

def stagesTwo : List ProposalOp :=
  [.propose 100 "a" {} { title := "Parser", deviceId := some "phone", autoStart := some true
                         startInMinutes := some 1 },
    .propose 100 "b" {} { title := "Docs", deviceId := some "phone", autoStart := some true
                          startInMinutes := some 1 }]

/-- The watchdog starts the first card and fails with the second, which is revised and
dismissed; a restart in between finds both. -/
theorem proposals_start_once_sweep :
    Along step NotAfterDismissal {} (stagesTwo ++
      [.tick 160, .sweepConfirm, .save, .restart, .tick 175, .sweepConfirm, .record 0 "team_1",
        .save, .finish 0 none, .sweepSettle, .sweepConfirm, .finish 0 (some "no worktree"),
        .sweepSettle,
        .revise 180 "orch_prop_b" none { deviceId := some "phone", autoStart := some true },
        .dismiss "orch_prop_b" (some "phone"), .save, .restart, .tick 200]) :=
  (proposals_start_once _ (by decide +kernel) (by decide +kernel)).2

/-- A card dismissed while the watchdog is busy with another one is still parked, so the next
snapshot holds it and the process that starts from it starts the card. -/
theorem proposals_start_dismissed :
    ¬∀ ops : List ProposalOp, Along step DrawsFresh {} ops →
      Always step (fun b => b.started.Nodup ∧ b.SnapshotSound) {} ops ∧
        Along step NotAfterDismissal {} ops := by
  intro h
  have hrun := (h (stagesTwo ++
    [.tick 160, .sweepConfirm, .dismiss "orch_prop_b" (some "phone"), .save, .restart, .tick 175,
      .sweepConfirm, .record 0 "team_1", .finish 0 none, .sweepSettle, .sweepConfirm] ++
    [.record 0 "team_2"]) (by decide +kernel)).2
  have hlast := (along_append.mp hrun).2.1
  refine hlast "orch_prop_b" ?_ ?_
  · decide +kernel
  · decide +kernel

end ProposalBoard

end AgentRelay.Relay
