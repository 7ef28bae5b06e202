import AgentRelay.HistoryMerge

/-! Which messages of a fresh history a merge keeps: counted by their words, the messages of the
history against the entries that show them afterwards. -/
namespace AgentRelay.Relay

def ownShows (transcript : List TranscriptRecord) (text : String) (record : TranscriptRecord) :
    Bool :=
  (transcript.find? (·.itemId = record.itemId)).any fun entry => pairShows text (entry, some record)

/-- The messages of these words whose own entries do not say them. -/
def unmatched (transcript records : List TranscriptRecord) (text : String) : Nat :=
  records.countP fun record => record.isMessage text && !ownShows transcript text record

/-- The entries that say these words though no record of theirs does. -/
def standIns (transcript records : List TranscriptRecord) (text : String) : Nat :=
  (paired transcript records).countP fun pair =>
    pairShows text pair && !pair.2.any (·.isMessage text)

section counting
variable {transcript records : List TranscriptRecord} {record entry : TranscriptRecord}
  {index : Nat} {text : String}

theorem countP_split {α : Type*} (p q : α → Bool) (xs : List α) :
    xs.countP p = xs.countP (fun x => p x && q x) + xs.countP (fun x => p x && !q x) := by
  rw [xs.countP_eq_countP_filter_add p q, List.countP_filter, List.countP_filter]

/-- Messages that their own entries say and entries that say their own record's are the same
pairs. -/
theorem countP_matched (hdistinct : (records.map (·.itemId)).Nodup) :
    (records.countP fun record => record.isMessage text && ownShows transcript text record) =
      (paired transcript records).countP fun pair =>
        pairShows text pair && pair.2.any (·.isMessage text) := by
  induction records using List.reverseRecOn with
  | nil =>
    symm
    rw [List.countP_nil, List.countP_eq_zero]
    intro pair hpair
    obtain ⟨index, hlt, rfl⟩ := List.mem_mapIdx.mp hpair
    simp [historyRecord]
  | append_singleton records record ih =>
    rw [List.map_append, List.nodup_append] at hdistinct
    obtain ⟨hrecords, -, hfresh⟩ := hdistinct
    have hunused : ∀ other ∈ records, other.itemId ≠ record.itemId := fun other hother =>
      hfresh other.itemId (List.mem_map_of_mem hother) record.itemId (by simp)
    rw [List.countP_append, ih hrecords, List.countP_singleton]
    cases hfind : transcript.find? (·.itemId = record.itemId) with
    | none =>
      have hnew : IsNew transcript record := by
        simpa [IsNew] using List.find?_eq_none.mp hfind
      rw [paired_concat_new hnew]
      simp [ownShows, hfind]
    | some entry =>
      obtain ⟨index, hindex, hentry, -⟩ := find_eq_some hfind
      obtain ⟨hfree, hpaired⟩ := paired_concat hunused hindex hentry
      obtain ⟨hlt, hfree⟩ := List.getElem?_eq_some_iff.mp hfree
      rw [hpaired, List.countP_set hlt, hfree]
      simp [ownShows, hfind, Bool.and_comm]

theorem Merges.countP_message {pushed : List TranscriptRecord}
    (h : Merges transcript records pushed) :
    (mergeTranscriptRecords transcript records).1.countP (·.isMessage text) =
      (paired transcript records).countP (pairShows text) +
        pushed.countP (·.isMessage text) := by
  rw [h.merged, List.countP_append, List.countP_map]
  congr 2
  exact funext fun pair => isMessage_settlePair pair

theorem countP_le_iff (hdistinct : (records.map (·.itemId)).Nodup) :
    records.countP (·.isMessage text) ≤
        (mergeTranscriptRecords transcript records).1.countP (·.isMessage text) ↔
      unmatched transcript records text ≤ standIns transcript records text ∨
        ComesUnseen transcript records text ∧
          unmatched transcript records text = standIns transcript records text + 1 := by
  obtain ⟨pushed, h⟩ := @exists_merges transcript records hdistinct
  have hrecords := countP_split (·.isMessage text) (ownShows transcript text) records
  have hentries := countP_split (pairShows text) (fun pair => pair.2.any (·.isMessage text))
    (paired transcript records)
  rw [h.countP_message, hrecords, hentries, countP_matched hdistinct]
  rw [← unmatched, ← standIns]
  by_cases hunseen : ComesUnseen transcript records text
  · rw [h.unseen text hunseen]
    simp only [hunseen, true_and]
    omega
  · rw [h.seen text hunseen]
    simp only [hunseen, false_and, or_false]
    omega

end counting

/-- Hydration keeps the messages of a fresh history, exactly when for each text the messages that
their own entries do not say are no more than the entries that say it for no record of their own,
or one more, when a new one comes while nothing shows it. -/
theorem mergeFreshHistory_keepsMessages_iff (rt fresh : ThreadRuntime)
    (hdistinct : (fresh.transcript.map (·.itemId)).Nodup) :
    (∀ text, fresh.transcript.countP (·.isMessage text) ≤
        (rt.mergeFreshHistory fresh).1.transcript.countP (·.isMessage text)) ↔
      ∀ text,
        unmatched rt.transcript fresh.transcript text ≤
            standIns rt.transcript fresh.transcript text ∨
          ComesUnseen rt.transcript fresh.transcript text ∧
            unmatched rt.transcript fresh.transcript text =
              standIns rt.transcript fresh.transcript text + 1 :=
  forall_congr' fun _ => countP_le_iff hdistinct

def idleRuntime (transcript : List TranscriptRecord) : ThreadRuntime :=
  { summary := none, currentStatus := "idle", transcriptRevision := 0, transcript := transcript
    lastUpdateAt := 0 }

/-- The second of two messages of the same words is dropped. -/
theorem mergeFreshHistory_dropsRepeat :
    let fresh := idleRuntime [settledMessage "m-1" "yes", settledMessage "m-2" "yes"]
    (fresh.transcript.map (·.itemId)).Nodup ∧
      fresh.transcript.countP (·.isMessage "yes") = 2 ∧
      ((idleRuntime []).mergeFreshHistory fresh).1.transcript.countP (·.isMessage "yes") = 1 := by
  decide +kernel

/-- One echo stands for one message. -/
theorem mergeFreshHistory_keepsMessages_iff_echo :
    let rt := idleRuntime [settledMessage "echo-1" "yes"]
    let fresh := idleRuntime [settledMessage "m-1" "yes", settledMessage "m-2" "no"]
    ∀ text, fresh.transcript.countP (·.isMessage text) ≤
      (rt.mergeFreshHistory fresh).1.transcript.countP (·.isMessage text) := by
  refine (mergeFreshHistory_keepsMessages_iff _ _ (by decide)).mpr fun text => ?_
  by_cases hyes : text = "yes"
  · subst hyes
    exact Or.inl (by decide +kernel)
  · by_cases hno : text = "no"
    · subst hno
      refine Or.inr ⟨⟨[settledMessage "m-1" "yes"], settledMessage "m-2" "no", ?_, ?_, ?_, ?_⟩, ?_⟩
      · exact List.prefix_rfl
      · simp [IsNew, idleRuntime, settledMessage]
      · decide
      · decide +kernel
      · decide +kernel
    · refine Or.inl (le_of_eq_of_le ?_ (Nat.zero_le _))
      simp [unmatched, idleRuntime, settledMessage, TranscriptRecord.isMessage, Ne.symm hyes,
        Ne.symm hno]

end AgentRelay.Relay
