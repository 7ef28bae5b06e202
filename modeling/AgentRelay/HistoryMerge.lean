import AgentRelay.ThreadRuntime
import Mathlib.Data.List.Nodup

/-! What a history merge leaves: each entry merged with the record of its id, then the new
records; and when merging the same records again changes nothing. -/
namespace AgentRelay.Relay

def TranscriptRecord.replacesText (record entry : TranscriptRecord) : Bool :=
  (entry.kind = record.kind ∧ textIsLonger record.text entry.text) ∨
    (¬(entry.kind = record.kind ∧ textIsLonger entry.text record.text) ∧
      (isCompletedStatus entry.status → isCompletedStatus record.status))

def TranscriptRecord.bringsLateTool (record entry : TranscriptRecord) : Bool :=
  isCompletedStatus entry.status ∧ ¬isCompletedStatus record.status ∧
    entry.kind = record.kind ∧ textIsLonger record.text entry.text ∧
    entry.tool = none ∧ record.tool ≠ none

def TranscriptRecord.isMessage (text : String) (record : TranscriptRecord) : Bool :=
  record.kind = .userText ∧ record.text = some text

section entries
variable {existing incoming : TranscriptRecord} {text : String}

theorem textIsLonger_irrefl (text : Option String) : textIsLonger text text = false := by
  cases text <;> simp [textIsLonger]

theorem textIsLonger_asymm {left right : Option String} (h : textIsLonger left right) :
    textIsLonger right left = false := by
  cases left <;> cases right <;> simp_all [textIsLonger]
  omega

theorem toolCallsEqual_self (tool : Option ToolCallView) : toolCallsEqual tool tool := by
  cases tool <;> simp [toolCallsEqual]

theorem mergeRuntimeEntry_itemId (h : existing.itemId = incoming.itemId) :
    (mergeRuntimeEntry existing incoming).1.itemId = existing.itemId := by
  unfold mergeRuntimeEntry
  split_ifs <;> simp [h]

theorem mergeRuntimeEntry_alike (hkind : existing.kind = incoming.kind)
    (htext : existing.text = incoming.text) (hstatus : existing.status = incoming.status)
    (hturn : existing.turnId = incoming.turnId)
    (htool : toolCallsEqual existing.tool incoming.tool) :
    mergeRuntimeEntry existing incoming = (existing, false) := by
  simp [mergeRuntimeEntry, hkind, htext, hstatus, hturn, htool, textIsLonger_irrefl]

theorem mergeRuntimeEntry_self (record : TranscriptRecord) :
    mergeRuntimeEntry record record = (record, false) :=
  mergeRuntimeEntry_alike rfl rfl rfl rfl (toolCallsEqual_self _)

section regimes

theorem mergeRuntimeEntry_ahead
    (hahead : existing.kind = incoming.kind ∧ textIsLonger existing.text incoming.text) :
    (mergeRuntimeEntry existing incoming).1 = { existing with
      status := if isCompletedStatus incoming.status then incoming.status else existing.status
      turnId := existing.turnId.or incoming.turnId
      tool := existing.tool.or incoming.tool } := by
  have hstatus : (if isCompletedStatus incoming.status ∧ existing.status ≠ incoming.status then
      incoming.status else existing.status) =
      if isCompletedStatus incoming.status then incoming.status else existing.status := by
    by_cases heq : existing.status = incoming.status <;> simp [heq]
  unfold mergeRuntimeEntry
  rw [if_pos hahead]
  simp only [hstatus]
  cases existing.turnId <;> cases incoming.turnId <;> cases existing.tool <;>
    cases incoming.tool <;> simp

theorem mergeRuntimeEntry_finished
    (hnot : ¬(existing.kind = incoming.kind ∧ textIsLonger existing.text incoming.text))
    (hdone : isCompletedStatus existing.status ∧ ¬isCompletedStatus incoming.status) :
    (mergeRuntimeEntry existing incoming).1 =
      if existing.kind = incoming.kind ∧ textIsLonger incoming.text existing.text then
        { existing with text := incoming.text }
      else { existing with tool := existing.tool.or incoming.tool } := by
  unfold mergeRuntimeEntry
  rw [if_neg hnot, if_pos hdone]
  split_ifs with hgrows htool
  · rfl
  · simp [htool.1]
  · have hsame : existing.tool.or incoming.tool = existing.tool := by
      cases hhas : existing.tool with
      | none => simpa [hhas] using htool
      | some tool => rfl
    rw [hsame]

theorem mergeRuntimeEntry_replaced
    (hnot : ¬(existing.kind = incoming.kind ∧ textIsLonger existing.text incoming.text))
    (hopen : ¬(isCompletedStatus existing.status ∧ ¬isCompletedStatus incoming.status)) :
    (mergeRuntimeEntry existing incoming).1.kind = incoming.kind ∧
      (mergeRuntimeEntry existing incoming).1.text = incoming.text ∧
      (mergeRuntimeEntry existing incoming).1.status = incoming.status ∧
      (mergeRuntimeEntry existing incoming).1.turnId = incoming.turnId ∧
      toolCallsEqual (mergeRuntimeEntry existing incoming).1.tool incoming.tool := by
  unfold mergeRuntimeEntry
  rw [if_neg hnot, if_neg hopen]
  split_ifs with hdiffers
  · exact ⟨rfl, rfl, rfl, rfl, toolCallsEqual_self _⟩
  · simpa [not_or] using hdiffers

end regimes

theorem mergeRuntimeEntry_text :
    (mergeRuntimeEntry existing incoming).1.kind =
        (if incoming.replacesText existing then incoming.kind else existing.kind) ∧
      (mergeRuntimeEntry existing incoming).1.text =
        (if incoming.replacesText existing then incoming.text else existing.text) := by
  by_cases hahead : existing.kind = incoming.kind ∧ textIsLonger existing.text incoming.text
  · have hstays : incoming.replacesText existing = false := by
      simp [TranscriptRecord.replacesText, hahead, textIsLonger_asymm hahead.2]
    rw [mergeRuntimeEntry_ahead hahead, hstays]
    exact ⟨rfl, rfl⟩
  · by_cases hdone : isCompletedStatus existing.status ∧ ¬isCompletedStatus incoming.status
    · rw [mergeRuntimeEntry_finished hahead hdone]
      by_cases hgrows : existing.kind = incoming.kind ∧ textIsLonger incoming.text existing.text
      · have hreplaces : incoming.replacesText existing := by
          simp [TranscriptRecord.replacesText, hgrows]
        rw [if_pos hgrows, hreplaces]
        exact ⟨hgrows.1, rfl⟩
      · have hstays : incoming.replacesText existing = false := by
          simp [TranscriptRecord.replacesText, hgrows, hdone]
        rw [if_neg hgrows, hstays]
        exact ⟨rfl, rfl⟩
    · have hreplaces : incoming.replacesText existing := by
        rw [TranscriptRecord.replacesText, decide_eq_true_eq]
        refine Or.inr ⟨hahead, fun h => ?_⟩
        by_contra hrunning
        exact hdone ⟨h, hrunning⟩
      obtain ⟨hkind, htext, -⟩ := mergeRuntimeEntry_replaced hahead hdone
      rw [hreplaces]
      exact ⟨hkind, htext⟩

theorem isMessage_mergeRuntimeEntry :
    (mergeRuntimeEntry existing incoming).1.isMessage text =
      if incoming.replacesText existing then incoming.isMessage text
      else existing.isMessage text := by
  rw [TranscriptRecord.isMessage, mergeRuntimeEntry_text.1, mergeRuntimeEntry_text.2]
  split_ifs <;> rfl

structure TranscriptRecord.Keeps (before after : TranscriptRecord) : Prop where
  itemId : after.itemId = before.itemId
  text : after.kind = before.kind → ∀ old, before.text = some old →
    ∃ new, after.text = some new ∧ old.length ≤ new.length
  completed : isCompletedStatus before.status → isCompletedStatus after.status

theorem TranscriptRecord.Keeps.refl (record : TranscriptRecord) : record.Keeps record :=
  ⟨rfl, fun _ old h => ⟨old, h, le_rfl⟩, fun h => h⟩

theorem keeps_mergeRuntimeEntry (h : existing.itemId = incoming.itemId) :
    existing.Keeps (mergeRuntimeEntry existing incoming).1 := by
  refine ⟨mergeRuntimeEntry_itemId h, fun hkind old hold => ?_, fun hdone => ?_⟩
  · rw [mergeRuntimeEntry_text.1] at hkind
    rw [mergeRuntimeEntry_text.2]
    split_ifs at hkind ⊢ with hreplaces
    · -- The text was replaced by one that is not shorter.
      have hshorter : textIsLonger existing.text incoming.text = false := by
        rw [TranscriptRecord.replacesText, decide_eq_true_eq] at hreplaces
        rcases hreplaces with ⟨-, hgrows⟩ | ⟨hnot, -⟩
        · exact textIsLonger_asymm hgrows
        · simpa [hkind] using hnot
      rw [hold] at hshorter
      cases hnew : incoming.text with
      | none => simp [hnew, textIsLonger] at hshorter
      | some new => exact ⟨new, rfl, by simpa [hnew, textIsLonger] using hshorter⟩
    · exact ⟨old, hold, le_rfl⟩
  · by_cases hahead : existing.kind = incoming.kind ∧ textIsLonger existing.text incoming.text
    · rw [mergeRuntimeEntry_ahead hahead]
      split_ifs with hrecord <;> assumption
    · by_cases hfinished :
          isCompletedStatus existing.status ∧ ¬isCompletedStatus incoming.status
      · rw [mergeRuntimeEntry_finished hahead hfinished]
        split_ifs <;> exact hdone
      · rw [(mergeRuntimeEntry_replaced hahead hfinished).2.2.1]
        by_contra hrunning
        exact hfinished ⟨hdone, hrunning⟩

theorem mergeRuntimeEntry_again :
    (mergeRuntimeEntry (mergeRuntimeEntry existing incoming).1 incoming).2 =
      incoming.bringsLateTool existing := by
  by_cases hahead : existing.kind = incoming.kind ∧ textIsLonger existing.text incoming.text
  · have hnone : incoming.bringsLateTool existing = false := by
      simp [TranscriptRecord.bringsLateTool, textIsLonger_asymm hahead.2]
    rw [mergeRuntimeEntry_ahead hahead, hnone]
    unfold mergeRuntimeEntry
    rw [if_pos hahead]
    cases existing.turnId <;> cases incoming.turnId <;> cases existing.tool <;>
      cases incoming.tool <;> simp +contextual
  · by_cases hdone : isCompletedStatus existing.status ∧ ¬isCompletedStatus incoming.status
    · rw [mergeRuntimeEntry_finished hahead hdone]
      by_cases hgrows : existing.kind = incoming.kind ∧ textIsLonger incoming.text existing.text
      · simp only [mergeRuntimeEntry, TranscriptRecord.bringsLateTool, hgrows, hdone,
          textIsLonger_irrefl, and_self, if_true, Bool.false_eq_true, and_false, if_false,
          not_false_eq_true, true_and]
        split_ifs <;> simp_all
      · have hnone : incoming.bringsLateTool existing = false := by
          simp only [TranscriptRecord.bringsLateTool, decide_eq_false_iff_not]
          exact fun h => hgrows ⟨h.2.2.1, h.2.2.2.1⟩
        have htaken : ¬(existing.tool.or incoming.tool = none ∧ incoming.tool ≠ none) := by
          cases existing.tool <;> simp
        rw [if_neg hgrows, hnone]
        unfold mergeRuntimeEntry
        rw [if_neg hahead, if_pos hdone, if_neg hgrows, if_neg htaken]
    · obtain ⟨hkind, htext, hstatus, hturn, htool⟩ := mergeRuntimeEntry_replaced hahead hdone
      have hnone : incoming.bringsLateTool existing = false := by
        simp only [TranscriptRecord.bringsLateTool, decide_eq_false_iff_not]
        exact fun h => hdone ⟨h.1, h.2.1⟩
      rw [mergeRuntimeEntry_alike hkind htext hstatus hturn htool, hnone]

end entries

/-- The entry at `index` and the record it is merged with: that of its id, for the first entry
of the id. -/
def historyRecord (transcript records : List TranscriptRecord) (index : Nat)
    (entry : TranscriptRecord) : Option TranscriptRecord :=
  if transcript.findIdx? (·.itemId = entry.itemId) = some index then
    records.find? (·.itemId = entry.itemId)
  else none

def paired (transcript records : List TranscriptRecord) :
    List (TranscriptRecord × Option TranscriptRecord) :=
  transcript.mapIdx fun index entry => (entry, historyRecord transcript records index entry)

def settlePair : TranscriptRecord × Option TranscriptRecord → TranscriptRecord
  | (entry, none) => entry
  | (entry, some record) => (mergeRuntimeEntry entry record).1

/-- Whether an entry says the message once its record has come. -/
def pairShows (text : String) : TranscriptRecord × Option TranscriptRecord → Bool
  | (entry, none) => entry.isMessage text
  | (entry, some record) =>
    if record.replacesText entry then record.isMessage text else entry.isMessage text

def IsNew (transcript : List TranscriptRecord) (record : TranscriptRecord) : Prop :=
  ∀ entry ∈ transcript, entry.itemId ≠ record.itemId

/-- Some entry says the message after the records. -/
def Shows (transcript records : List TranscriptRecord) (text : String) : Prop :=
  ∃ pair ∈ paired transcript records, pairShows text pair

/-- A new record says the message, and no entry does after the records before it. -/
def ComesUnseen (transcript records : List TranscriptRecord) (text : String) : Prop :=
  ∃ before record, before ++ [record] <+: records ∧ IsNew transcript record ∧
    record.isMessage text ∧ ¬Shows transcript before text

instance {transcript records text} : Decidable (Shows transcript records text) :=
  inferInstanceAs (Decidable (∃ pair ∈ paired transcript records, pairShows text pair))

section merging
variable {transcript records : List TranscriptRecord} {record entry : TranscriptRecord}
  {index : Nat} {text : String}

theorem isMessage_settlePair (pair : TranscriptRecord × Option TranscriptRecord) :
    (settlePair pair).isMessage text = pairShows text pair := by
  obtain ⟨entry, _ | record⟩ := pair
  · rfl
  · exact isMessage_mergeRuntimeEntry

theorem any_settlePair : ((paired transcript records).map settlePair).any (·.isMessage text) =
    decide (Shows transcript records text) := by
  rw [Bool.eq_iff_iff, decide_eq_true_eq, List.any_map, List.any_eq_true]
  simp only [Function.comp_apply, isMessage_settlePair]
  rfl

theorem findIdx_eq_none : transcript.findIdx? (·.itemId = record.itemId) = none ↔
    IsNew transcript record := by
  simp [List.findIdx?_eq_none_iff, IsNew]

theorem find_eq_some (h : transcript.find? (·.itemId = record.itemId) = some entry) :
    ∃ index, transcript.findIdx? (·.itemId = record.itemId) = some index ∧
      transcript[index]? = some entry ∧ entry.itemId = record.itemId := by
  obtain ⟨hmatch, index, hlt, hentry, hfirst⟩ := List.find?_eq_some_iff_getElem.mp h
  refine ⟨index, List.findIdx?_eq_some_iff_getElem.mpr ⟨hlt, ?_, fun j hj => ?_⟩, ?_, ?_⟩
  · rw [hentry]
    exact hmatch
  · simpa using hfirst j hj
  · rw [List.getElem?_eq_getElem hlt, hentry]
  · simpa using hmatch

theorem getElem_paired : (paired transcript records)[index]? =
    transcript[index]?.map fun entry => (entry, historyRecord transcript records index entry) := by
  rw [paired, List.getElem?_mapIdx]

theorem paired_concat (hunused : ∀ other ∈ records, other.itemId ≠ record.itemId)
    (hindex : transcript.findIdx? (·.itemId = record.itemId) = some index)
    (hentry : transcript[index]? = some entry) :
    (paired transcript records)[index]? = some (entry, none) ∧
      paired transcript (records ++ [record]) =
        (paired transcript records).set index (entry, some record) := by
  have hid : entry.itemId = record.itemId := by
    obtain ⟨hlt, hmatch, -⟩ := List.findIdx?_eq_some_iff_getElem.mp hindex
    rw [List.getElem?_eq_getElem hlt, Option.some.injEq] at hentry
    simpa [hentry] using hmatch
  have hnone : records.find? (·.itemId = record.itemId) = none := by
    simpa [List.find?_eq_none] using hunused
  refine ⟨?_, List.ext_getElem? fun other => ?_⟩
  · rw [getElem_paired, hentry, Option.map_some, historyRecord, hid, if_pos hindex, hnone]
  · by_cases hother : index = other
    · subst hother
      have hlt : index < (paired transcript records).length := by
        rw [paired, List.length_mapIdx]
        exact (List.getElem?_eq_some_iff.mp hentry).1
      rw [getElem_paired, hentry, List.getElem?_set_self hlt, Option.map_some, historyRecord,
        hid, if_pos hindex, List.find?_append, hnone]
      simp
    · rw [List.getElem?_set_ne hother, getElem_paired, getElem_paired]
      cases transcript[other]? with
      | none => rfl
      | some candidate =>
        simp only [Option.map_some, historyRecord]
        by_cases hsame : candidate.itemId = record.itemId
        · -- A later entry of the same id is paired with nothing.
          simp [hsame, hindex, hother]
        · simp [List.find?_append, Ne.symm hsame]

theorem paired_concat_new (hnew : IsNew transcript record) :
    paired transcript (records ++ [record]) = paired transcript records := by
  refine List.ext_getElem? fun index => ?_
  rw [getElem_paired, getElem_paired]
  cases hentry : transcript[index]? with
  | none => rfl
  | some entry =>
    have hne : record.itemId ≠ entry.itemId := (hnew entry (List.mem_of_getElem? hentry)).symm
    simp [historyRecord, hne]

theorem comesUnseen_concat : ComesUnseen transcript (records ++ [record]) text ↔
    ComesUnseen transcript records text ∨
      IsNew transcript record ∧ record.isMessage text ∧ ¬Shows transcript records text := by
  constructor
  · rintro ⟨before, other, hprefix, hother⟩
    rcases List.prefix_concat_iff.mp hprefix with heq | hprefix
    · obtain ⟨rfl, hlast⟩ := List.append_inj' heq rfl
      cases hlast
      exact Or.inr hother
    · exact Or.inl ⟨before, other, hprefix, hother⟩
  · rintro (⟨before, other, hprefix, hother⟩ | hrecord)
    · exact ⟨before, other, hprefix.trans (List.prefix_append ..), hother⟩
    · exact ⟨records, record, List.prefix_rfl, hrecord⟩

theorem historyRecord_itemId (h : historyRecord transcript records index entry = some record) :
    record.itemId = entry.itemId := by
  unfold historyRecord at h
  split_ifs at h
  simpa using List.find?_some h

theorem map_itemId_settlePair :
    ((paired transcript records).map settlePair).map (·.itemId) = transcript.map (·.itemId) := by
  refine List.ext_getElem? fun index => ?_
  rw [List.map_map, List.getElem?_map, List.getElem?_map, getElem_paired]
  cases transcript[index]? with
  | none => rfl
  | some entry =>
    simp only [Option.map_some, Function.comp_apply]
    cases hrecord : historyRecord transcript records index entry with
    | none => rfl
    | some record =>
      exact congrArg some (mergeRuntimeEntry_itemId (historyRecord_itemId hrecord).symm)

theorem findIdx_settlePair (id : String) :
    ((paired transcript records).map settlePair).findIdx? (·.itemId = id) =
      transcript.findIdx? (·.itemId = id) := by
  have hmap (entries : List TranscriptRecord) : entries.findIdx? (·.itemId = id) =
      (entries.map (·.itemId)).findIdx? (· = id) := by
    rw [List.findIdx?_map]
    rfl
  rw [hmap, hmap transcript, map_itemId_settlePair]

/-- The merge leaves the paired entries merged and `pushed` after them: the new records, of the
messages only those that nothing showed. -/
structure Merges (transcript records pushed : List TranscriptRecord) : Prop where
  merged : (mergeTranscriptRecords transcript records).1 =
    (paired transcript records).map settlePair ++ pushed
  isNew : ∀ record ∈ pushed, record ∈ records ∧ IsNew transcript record
  kept : ∀ record ∈ records, IsNew transcript record →
    record ∈ pushed ∨ ∃ text, record.isMessage text
  unseen : ∀ text, ComesUnseen transcript records text →
    pushed.countP (·.isMessage text) = 1
  seen : ∀ text, ¬ComesUnseen transcript records text →
    pushed.countP (·.isMessage text) = 0

theorem mergeTranscriptRecords_concat : mergeTranscriptRecords transcript (records ++ [record]) =
    mergeTranscriptRecord (mergeTranscriptRecords transcript records) record := by
  simp [mergeTranscriptRecords]

theorem comesUnseen_nil : ¬ComesUnseen transcript [] text := by
  rintro ⟨before, record, hprefix, -⟩
  simpa using List.prefix_nil.mp hprefix

theorem hasEquivalentUserMessage_eq {entries : List TranscriptRecord} :
    hasEquivalentUserMessage entries record = true ↔
      ∃ text, record.isMessage text ∧ entries.any (·.isMessage text) := by
  cases htext : record.text <;>
    simp [hasEquivalentUserMessage, TranscriptRecord.isMessage, htext]

theorem isMessage_unique {left right : String} (hleft : record.isMessage left)
    (hright : record.isMessage right) : left = right := by
  simp only [TranscriptRecord.isMessage, decide_eq_true_eq] at hleft hright
  exact Option.some.inj (hleft.2.symm.trans hright.2)

theorem Merges.shown_iff {pushed : List TranscriptRecord} (h : Merges transcript records pushed) :
    ((paired transcript records).map settlePair ++ pushed).any (·.isMessage text) ↔
      Shows transcript records text ∨ ComesUnseen transcript records text := by
  rw [List.any_append, any_settlePair, Bool.or_eq_true, decide_eq_true_eq, List.any_eq_true]
  have hpushed : (∃ record ∈ pushed, record.isMessage text) ↔
      ComesUnseen transcript records text := by
    rw [← List.countP_pos_iff]
    by_cases hunseen : ComesUnseen transcript records text
    · simp [h.unseen text hunseen, hunseen]
    · simp [h.seen text hunseen, hunseen]
  rw [hpushed]

theorem Merges.concat_known {pushed : List TranscriptRecord} (h : Merges transcript records pushed)
    (hunused : ∀ other ∈ records, other.itemId ≠ record.itemId)
    (hindex : transcript.findIdx? (·.itemId = record.itemId) = some index)
    (hentry : transcript[index]? = some entry) :
    Merges transcript (records ++ [record]) pushed := by
  obtain ⟨hfree, hpaired⟩ := paired_concat hunused hindex hentry
  have hold : ¬IsNew transcript record := by
    rw [← findIdx_eq_none, hindex]
    simp
  have hsame (text : String) : ComesUnseen transcript (records ++ [record]) text ↔
      ComesUnseen transcript records text := by
    simp [comesUnseen_concat, hold]
  have hlt : index < ((paired transcript records).map settlePair).length := by
    rw [List.length_map, paired, List.length_mapIdx]
    exact (List.getElem?_eq_some_iff.mp hentry).1
  refine ⟨?_, fun other hother => ?_, fun other hother hnew => ?_, fun text hunseen => ?_,
    fun text hseen => ?_⟩
  · have hfind : ((paired transcript records).map settlePair ++ pushed).findIdx?
        (·.itemId = record.itemId) = some index := by
      rw [List.findIdx?_append, findIdx_settlePair, hindex, Option.some_or]
    have hget : ((paired transcript records).map settlePair ++ pushed)[index]? = some entry := by
      rw [List.getElem?_append_left hlt, List.getElem?_map, hfree]
      rfl
    rw [mergeTranscriptRecords_concat, mergeTranscriptRecord, h.merged, hfind]
    simp only [hget]
    rw [List.set_append_left _ _ hlt, hpaired, List.map_set]
    rfl
  · obtain ⟨hmem, hnew⟩ := h.isNew other hother
    exact ⟨List.mem_append_left _ hmem, hnew⟩
  · rcases List.mem_append.mp hother with hmem | hmem
    · exact h.kept other hmem hnew
    · rw [List.mem_singleton.mp hmem] at hnew
      exact absurd hnew hold
  · exact h.unseen text ((hsame text).mp hunseen)
  · exact h.seen text (mt (hsame text).mpr hseen)

/-- A new record is added, unless it is a message that some entry shows. -/
theorem Merges.concat_new {pushed : List TranscriptRecord} (h : Merges transcript records pushed)
    (hunused : ∀ other ∈ records, other.itemId ≠ record.itemId)
    (hnew : IsNew transcript record) :
    ∃ pushed, Merges transcript (records ++ [record]) pushed := by
  have hfind : ((paired transcript records).map settlePair ++ pushed).findIdx?
      (·.itemId = record.itemId) = none := by
    have hpushed : pushed.findIdx? (·.itemId = record.itemId) = none :=
      findIdx_eq_none.mpr fun other hother => hunused other (h.isNew other hother).1
    rw [List.findIdx?_append, findIdx_settlePair, findIdx_eq_none.mpr hnew, hpushed]
    rfl
  have hstep : (mergeTranscriptRecords transcript (records ++ [record])).1 =
      if hasEquivalentUserMessage ((paired transcript records).map settlePair ++ pushed) record
      then (paired transcript records).map settlePair ++ pushed
      else (paired transcript records).map settlePair ++ (pushed ++ [record]) := by
    rw [mergeTranscriptRecords_concat, mergeTranscriptRecord, h.merged, hfind]
    split_ifs <;> simp [h.merged]
  by_cases hshown : hasEquivalentUserMessage
      ((paired transcript records).map settlePair ++ pushed) record
  · obtain ⟨said, hsaid, hany⟩ := hasEquivalentUserMessage_eq.mp hshown
    rw [h.shown_iff] at hany
    have hsame (text : String) : ComesUnseen transcript (records ++ [record]) text ↔
        ComesUnseen transcript records text := by
      rw [comesUnseen_concat]
      refine ⟨fun hcomes => hcomes.elim id fun ⟨_, hmessage, hnone⟩ => ?_, Or.inl⟩
      obtain rfl := isMessage_unique hsaid hmessage
      exact hany.resolve_left hnone
    refine ⟨pushed, ?_, fun other hother => ?_, fun other hother hnew' => ?_,
      fun text hunseen => h.unseen text ((hsame text).mp hunseen),
      fun text hseen => h.seen text (mt (hsame text).mpr hseen)⟩
    · rw [hstep, if_pos hshown, paired_concat_new hnew]
    · exact ⟨List.mem_append_left _ (h.isNew other hother).1, (h.isNew other hother).2⟩
    · rcases List.mem_append.mp hother with hmem | hmem
      · exact h.kept other hmem hnew'
      · rw [List.mem_singleton.mp hmem]
        exact Or.inr ⟨said, hsaid⟩
  · have hnothing (text : String) (hmessage : record.isMessage text) :
        ¬Shows transcript records text ∧ ¬ComesUnseen transcript records text := by
      rw [← not_or, ← h.shown_iff]
      exact fun hany => hshown (hasEquivalentUserMessage_eq.mpr ⟨text, hmessage, hany⟩)
    refine ⟨pushed ++ [record], ?_, fun other hother => ?_, fun other hother hnew' => ?_,
      fun text hunseen => ?_, fun text hseen => ?_⟩
    · rw [hstep, if_neg hshown, paired_concat_new hnew]
    · rcases List.mem_append.mp hother with hmem | hmem
      · exact ⟨List.mem_append_left _ (h.isNew other hmem).1, (h.isNew other hmem).2⟩
      · rw [List.mem_singleton.mp hmem]
        exact ⟨by simp, hnew⟩
    · rcases List.mem_append.mp hother with hmem | hmem
      · exact (h.kept other hmem hnew').imp_left (List.mem_append_left _)
      · exact Or.inl (List.mem_append_right _ hmem)
    · rw [List.countP_append, List.countP_singleton]
      by_cases hmessage : record.isMessage text
      · rw [h.seen text (hnothing text hmessage).2, if_pos hmessage]
      · rw [comesUnseen_concat] at hunseen
        have hbefore := hunseen.resolve_right fun hlast => hmessage hlast.2.1
        rw [h.unseen text hbefore, if_neg hmessage]
    · rw [comesUnseen_concat, not_or] at hseen
      have hmessage : ¬record.isMessage text := fun hmessage =>
        hseen.2 ⟨hnew, hmessage, (hnothing text hmessage).1⟩
      rw [List.countP_append, List.countP_singleton, h.seen text hseen.1, if_neg hmessage]

theorem settlePair_paired_nil : (paired transcript []).map settlePair = transcript := by
  refine List.ext_getElem? fun index => ?_
  rw [List.getElem?_map, getElem_paired]
  cases transcript[index]? with
  | none => rfl
  | some entry => simp [historyRecord, settlePair]

theorem exists_merges (hdistinct : (records.map (·.itemId)).Nodup) :
    ∃ pushed, Merges transcript records pushed := by
  induction records using List.reverseRecOn with
  | nil =>
    refine ⟨[], ?_, by simp, by simp, fun text h => absurd h comesUnseen_nil, by simp⟩
    rw [List.append_nil, settlePair_paired_nil]
    rfl
  | append_singleton records record ih =>
    rw [List.map_append, List.nodup_append] at hdistinct
    obtain ⟨hrecords, -, hfresh⟩ := hdistinct
    obtain ⟨pushed, h⟩ := ih hrecords
    have hunused : ∀ other ∈ records, other.itemId ≠ record.itemId := fun other hother =>
      hfresh other.itemId (List.mem_map_of_mem hother) record.itemId (by simp)
    cases hindex : transcript.findIdx? (·.itemId = record.itemId) with
    | none => exact h.concat_new hunused (findIdx_eq_none.mp hindex)
    | some index =>
      obtain ⟨hlt, -⟩ := List.findIdx?_eq_some_iff_getElem.mp hindex
      exact ⟨pushed, h.concat_known hunused hindex (List.getElem?_eq_getElem hlt)⟩

theorem mergeTranscriptRecords_flag_iff : (mergeTranscriptRecords transcript records).2 = false ↔
    ∀ record ∈ records, (mergeTranscriptRecord (transcript, false) record).2 = false := by
  unfold mergeTranscriptRecords
  induction records with
  | nil => simp
  | cons record records ih =>
    rw [List.foldl_cons, List.forall_mem_cons, ← ih]
    have hkept (h : (mergeTranscriptRecord (transcript, false) record).2 = false) :
        mergeTranscriptRecord (transcript, false) record = (transcript, false) :=
      Prod.ext (mergeTranscriptRecord_flag h).2 h
    constructor
    · intro h
      have hfirst := (foldl_mergeTranscriptRecord_flag h).1
      rw [hkept hfirst] at h
      exact ⟨hfirst, h⟩
    · rintro ⟨hfirst, h⟩
      rw [hkept hfirst]
      exact h

theorem historyRecord_of_mem (hdistinct : (records.map (·.itemId)).Nodup)
    (hrecord : record ∈ records) (hid : entry.itemId = record.itemId)
    (hindex : transcript.findIdx? (·.itemId = record.itemId) = some index) :
    historyRecord transcript records index entry = some record := by
  rw [historyRecord, hid, if_pos hindex]
  cases hfind : records.find? (·.itemId = record.itemId) with
  | none => simpa using List.find?_eq_none.mp hfind record hrecord
  | some found =>
    have hsame : found.itemId = record.itemId := by simpa using List.find?_some hfind
    rw [List.inj_on_of_nodup_map hdistinct (List.mem_of_find?_eq_some hfind) hrecord hsame]

theorem Merges.again_known {pushed : List TranscriptRecord} (h : Merges transcript records pushed)
    (hdistinct : (records.map (·.itemId)).Nodup) (hrecord : record ∈ records)
    (hindex : transcript.findIdx? (·.itemId = record.itemId) = some index)
    (hentry : transcript[index]? = some entry) (hid : entry.itemId = record.itemId) :
    (mergeTranscriptRecord ((mergeTranscriptRecords transcript records).1, false) record).2 =
      record.bringsLateTool entry := by
  have hlt : index < ((paired transcript records).map settlePair).length := by
    rw [List.length_map, paired, List.length_mapIdx]
    exact (List.getElem?_eq_some_iff.mp hentry).1
  have hget : ((paired transcript records).map settlePair ++ pushed)[index]? =
      some (mergeRuntimeEntry entry record).1 := by
    rw [List.getElem?_append_left hlt, List.getElem?_map, getElem_paired, hentry, Option.map_some,
      historyRecord_of_mem hdistinct hrecord hid hindex]
    rfl
  rw [mergeTranscriptRecord, h.merged, List.findIdx?_append, findIdx_settlePair, hindex,
    Option.some_or]
  simp only [hget]
  rw [Bool.false_or, mergeRuntimeEntry_again]

/-- Merged again, a new record changes nothing unless it is a message that nothing shows. -/
theorem Merges.again_new {pushed : List TranscriptRecord} (h : Merges transcript records pushed)
    (hdistinct : (records.map (·.itemId)).Nodup) (hrecord : record ∈ records)
    (hnew : IsNew transcript record) :
    (mergeTranscriptRecord ((mergeTranscriptRecords transcript records).1, false) record).2 =
        false ↔
      ∀ text, record.isMessage text →
        Shows transcript records text ∨ ComesUnseen transcript records text := by
  rw [mergeTranscriptRecord, h.merged, List.findIdx?_append, findIdx_settlePair,
    findIdx_eq_none.mpr hnew, Option.none_or]
  cases hindex : pushed.findIdx? (·.itemId = record.itemId) with
  | some index =>
    -- The record was added, and is merged with itself.
    obtain ⟨hlt, hsame, -⟩ := List.findIdx?_eq_some_iff_getElem.mp hindex
    have hself : pushed[index] = record :=
      List.inj_on_of_nodup_map hdistinct (h.isNew _ (List.getElem_mem hlt)).1 hrecord
        (by simpa using hsame)
    have hget : ((paired transcript records).map settlePair ++ pushed)[
        index + ((paired transcript records).map settlePair).length]? = some record := by
      rw [List.getElem?_append_right (by omega), Nat.add_sub_cancel, List.getElem?_eq_getElem hlt,
        hself]
    simp only [Option.map_some, hget, mergeRuntimeEntry_self, Bool.or_false, true_iff]
    intro text hmessage
    by_contra hnone
    have hzero := h.seen text (fun hcomes => hnone (Or.inr hcomes))
    rw [List.countP_eq_zero] at hzero
    exact hzero record (hself ▸ List.getElem_mem hlt) hmessage
  | none =>
    simp only [Option.map_none]
    have hskipped : record ∉ pushed := fun hmem =>
      findIdx_eq_none.mp hindex record hmem rfl
    obtain ⟨said, hsaid⟩ := (h.kept record hrecord hnew).resolve_left hskipped
    have hshown : hasEquivalentUserMessage
        ((paired transcript records).map settlePair ++ pushed) record = true ↔
        ∀ text, record.isMessage text →
          Shows transcript records text ∨ ComesUnseen transcript records text := by
      rw [hasEquivalentUserMessage_eq]
      constructor
      · rintro ⟨text, hmessage, hany⟩ other hother
        rw [isMessage_unique hother hmessage]
        exact h.shown_iff.mp hany
      · exact fun hall => ⟨said, hsaid, h.shown_iff.mpr (hall said hsaid)⟩
    rw [← hshown]
    split_ifs with hequivalent <;> simp [hequivalent]

theorem Merges.keeps {pushed : List TranscriptRecord} (h : Merges transcript records pushed)
    (hentry : transcript[index]? = some entry) :
    ∃ after, (mergeTranscriptRecords transcript records).1[index]? = some after ∧
      entry.Keeps after := by
  have hget : ((paired transcript records).map settlePair)[index]? =
      some (settlePair (entry, historyRecord transcript records index entry)) := by
    rw [List.getElem?_map, getElem_paired, hentry]
    rfl
  obtain ⟨hlt, -⟩ := List.getElem?_eq_some_iff.mp hget
  refine ⟨_, by rw [h.merged, List.getElem?_append_left hlt, hget], ?_⟩
  cases hrecord : historyRecord transcript records index entry with
  | none => exact .refl entry
  | some record => exact keeps_mergeRuntimeEntry (historyRecord_itemId hrecord).symm

end merging

/-- A history merge is settled at once and takes nothing back, exactly when no record brings a
completed entry its tool together with more text, and every new message either found nothing that
shows it or is shown by an entry in the end. -/
theorem mergeTranscriptRecords_again_iff (transcript records : List TranscriptRecord)
    (hdistinct : (records.map (·.itemId)).Nodup) :
    (mergeTranscriptRecords (mergeTranscriptRecords transcript records).1 records =
        ((mergeTranscriptRecords transcript records).1, false) ∧
      ∀ (index : Nat) entry, transcript[index]? = some entry →
        ∃ after, (mergeTranscriptRecords transcript records).1[index]? = some after ∧
          entry.Keeps after) ↔
      ∀ record ∈ records,
        (∀ entry, transcript.find? (·.itemId = record.itemId) = some entry →
          ¬record.bringsLateTool entry) ∧
        (IsNew transcript record → ∀ text, record.isMessage text →
          Shows transcript records text ∨ ComesUnseen transcript records text) := by
  obtain ⟨pushed, h⟩ := @exists_merges transcript records hdistinct
  have hsecond : mergeTranscriptRecords (mergeTranscriptRecords transcript records).1 records =
        ((mergeTranscriptRecords transcript records).1, false) ↔
      (mergeTranscriptRecords (mergeTranscriptRecords transcript records).1 records).2 = false :=
    ⟨fun heq => by rw [heq], fun hflag => Prod.ext (mergeTranscriptRecords_unchanged hflag) hflag⟩
  rw [and_iff_left fun index entry hentry => h.keeps hentry, hsecond,
    mergeTranscriptRecords_flag_iff]
  refine forall₂_congr fun record hrecord => ?_
  cases hfind : transcript.find? (·.itemId = record.itemId) with
  | none =>
    have hnew : IsNew transcript record := by
      simpa [IsNew] using List.find?_eq_none.mp hfind
    rw [h.again_new hdistinct hrecord hnew]
    simp [hnew]
  | some entry =>
    obtain ⟨index, hindex, hentry, hid⟩ := find_eq_some hfind
    have hold : ¬IsNew transcript record := fun hnew =>
      hnew entry (List.mem_of_getElem? hentry) hid
    rw [h.again_known hdistinct hrecord hindex hentry hid]
    simp [hold]

/-- A running read of a tool call that is already completed here. -/
def lateToolRecord : TranscriptRecord :=
  { itemId := "call-1", kind := .toolCall, text := some "Reading src/main.rs"
    status := "in_progress", turnId := some "turn-1"
    tool := some { itemType := "tool_call", name := "Read", title := "Reading src/main.rs" } }

def settledMessage (itemId text : String) : TranscriptRecord :=
  { itemId := itemId, kind := .userText, text := some text, status := "completed"
    turnId := none, tool := none }

/-- The text is taken by the first merge and the tool by the second; and a message that found its
words in an entry is added by the second merge, when the first has replaced the entry's words. -/
theorem mergeTranscriptRecords_changesTwice :
    let done := { lateToolRecord with text := some "Reading", status := "completed", tool := none }
    (mergeTranscriptRecords (mergeTranscriptRecords [done] [lateToolRecord]).1
        [lateToolRecord]).2 = true ∧
      let records := [settledMessage "m-1" "yes", settledMessage "u-1" "yes please"]
      (records.map (·.itemId)).Nodup ∧
        mergeTranscriptRecords (mergeTranscriptRecords [settledMessage "u-1" "yes"] records).1
            records =
          ([settledMessage "u-1" "yes please", settledMessage "m-1" "yes"], true) := by
  decide +kernel

theorem mergeTranscriptRecords_again_iff_longerText :
    let records := [{ lateToolRecord with status := "completed" }]
    let transcript := [{ lateToolRecord with text := some "Reading", status := "completed" }]
    mergeTranscriptRecords (mergeTranscriptRecords transcript records).1 records =
        ((mergeTranscriptRecords transcript records).1, false) ∧
      ∀ (index : Nat) entry, transcript[index]? = some entry →
        ∃ after, (mergeTranscriptRecords transcript records).1[index]? = some after ∧
          entry.Keeps after := by
  refine (mergeTranscriptRecords_again_iff _ _ (by decide)).mpr fun record hrecord => ?_
  obtain rfl := List.mem_singleton.mp hrecord
  exact ⟨fun entry _ => by simp [TranscriptRecord.bringsLateTool, isCompletedStatus,
    lateToolRecord, AgentRelay.Text.eqIgnoreAsciiCase], fun hnew => by simp [IsNew] at hnew⟩

end AgentRelay.Relay
