import AgentRelay.TranscriptPaging

/-! Provider history that is put before a transcript. Records the transcript has are not repeated,
and lend their tool call to the record it has; a page may be asked for again. -/
namespace AgentRelay.Relay
open Text

def mergeAll (existing : Option ToolCallView) (incoming : List (Option ToolCallView)) :
    Option ToolCallView := incoming.foldl mergeToolCallView existing

def toolsOf (records : List TranscriptRecord) (itemId : String) : List (Option ToolCallView) :=
  (records.filter (·.itemId = itemId)).map (·.tool)

/-- Merging these tool views a second time changes nothing. A single one must not bring a verdict
to a record without a tool call: the merge keeps no verdict. -/
def mergesOnce (existing : Option ToolCallView) : List (Option ToolCallView) → Bool
  | [] => true
  | [tool] => existing.isSome || (tool.bind (·.canApply)).isNone
  | tools => mergeAll (mergeAll existing tools) tools = mergeAll existing tools

def newRecords (records transcript : List TranscriptRecord) : List TranscriptRecord :=
  records.filter fun record => record.itemId ∉ transcript.map (·.itemId)

/-- A page that can be put before a transcript twice: its new ids are different, and its tool views
merge once. -/
structure Prependable (records transcript : List TranscriptRecord) : Prop where
  fresh : ((newRecords records transcript).map (·.itemId)).Nodup
  existing : ∀ record ∈ transcript, mergesOnce record.tool (toolsOf records record.itemId)
  new : ∀ record ∈ newRecords records transcript, mergesOnce none [record.tool]

/-- What putting a page before a transcript comes to: the new records first, then the records that
were there, as they were but for their tool calls. -/
structure Prepended (records transcript transcript' : List TranscriptRecord) : Prop where
  distinct : (transcript'.map (·.itemId)).Nodup
  split : ∃ old, transcript' = newRecords records transcript ++ old ∧
    old.map ({ · with tool := none }) = transcript.map ({ · with tool := none })

section merging

theorem selectToolTitle_twice (existing incoming name : String) :
    selectToolTitle (selectToolTitle existing incoming name) incoming name =
      selectToolTitle existing incoming name := by
  unfold selectToolTitle
  split_ifs <;> simp_all

theorem selectToolTitle_self (title name : String) : selectToolTitle title title name = title := by
  unfold selectToolTitle
  split_ifs <;> rfl

theorem or_or_self {α : Type} (a b : Option α) : a.or (a.or b) = a.or b := by
  cases a <;> rfl

theorem mergeToolCallView_twice (existing incoming : ToolCallView) :
    mergeToolCallView (mergeToolCallView (some existing) (some incoming)) (some incoming) =
      mergeToolCallView (some existing) (some incoming) := by
  simp only [mergeToolCallView, or_or_self]
  by_cases hname : trim incoming.name = ""
  · simp only [hname, if_true, selectToolTitle_twice, Option.some.injEq,
      ToolCallView.mk.injEq, true_and, and_true]
    refine ⟨?_, ?_, ?_⟩
    · split_ifs <;> rfl
    · split_ifs <;> rfl
    · cases incoming.fileChangesOmitted <;> simp
  · simp only [hname, if_false, selectToolTitle_twice, Option.some.injEq,
      ToolCallView.mk.injEq, true_and, and_true]
    refine ⟨?_, ?_, ?_⟩
    · split_ifs <;> rfl
    · split_ifs <;> rfl
    · cases incoming.fileChangesOmitted <;> simp

theorem mergeToolCallView_self (tool : ToolCallView) :
    mergeToolCallView (some tool) (some tool) = some { tool with canApply := none } := by
  simp [mergeToolCallView, selectToolTitle_self]

theorem mergesOnce_iff (existing : Option ToolCallView) (tools : List (Option ToolCallView)) :
    mergesOnce existing tools = true ↔
      mergeAll (mergeAll existing tools) tools = mergeAll existing tools := by
  match tools with
  | [] => simp [mergesOnce, mergeAll]
  | [tool] =>
    unfold mergesOnce mergeAll
    simp only [List.foldl_cons, List.foldl_nil]
    cases tool with
    | none => cases existing <;> simp [mergeToolCallView]
    | some incoming =>
      cases existing with
      | some existing =>
        rw [mergeToolCallView_twice]
        simp
      | none =>
        have hfirst : mergeToolCallView none (some incoming) = some incoming := rfl
        rw [hfirst, mergeToolCallView_self]
        have hsame : ({ incoming with canApply := none } : ToolCallView) = incoming ↔
            incoming.canApply = none := by
          constructor
          · intro hsame
            rw [← hsame]
          · intro hnone
            rw [← hnone]
        simpa using hsame.symm
  | _ :: _ :: _ => simp [mergesOnce]

end merging

section retaining

/-- The tool views of the page, merged into a record. -/
def absorb (records : List TranscriptRecord) (record : TranscriptRecord) : TranscriptRecord :=
  { record with tool := mergeAll record.tool (toolsOf records record.itemId) }

theorem lastIndexOf_eq_none {transcript : List TranscriptRecord} {itemId : String} :
    lastIndexOf transcript itemId = none ↔ itemId ∉ transcript.map (·.itemId) := by
  unfold lastIndexOf
  rw [Option.map_eq_none_iff, List.idxOf?_eq_none_iff, List.mem_reverse]

theorem modify_eq_map {α β : Type} [DecidableEq β] {key : α → β} {l : List α}
    (hdistinct : (l.map key).Nodup) {index : Nat} {a : α} (hget : l[index]? = some a) (f : α → α) :
    l.modify index f = l.map fun x => if key x = key a then f x else x := by
  induction l generalizing index with
  | nil => simp at hget
  | cons x xs ih =>
    rw [List.map_cons, List.nodup_cons] at hdistinct
    cases index with
    | zero =>
      obtain rfl : x = a := by simpa using hget
      have hothers : xs.map (fun y => if key y = key x then f y else y) = xs := by
        conv_rhs => rw [← List.map_id xs]
        apply List.map_congr_left
        intro y hy
        have hne : key y ≠ key x := by
          intro hsame
          rw [← hsame] at hdistinct
          exact hdistinct.1 (List.mem_map_of_mem hy)
        exact if_neg hne
      rw [List.modify_zero_cons, List.map_cons, if_pos rfl, hothers]
    | succ index =>
      have hget' : xs[index]? = some a := by simpa using hget
      have hne : key x ≠ key a := by
        intro hsame
        rw [hsame] at hdistinct
        exact hdistinct.1 (List.mem_map_of_mem (List.mem_of_getElem? hget'))
      rw [List.modify_succ_cons, List.map_cons, if_neg hne, ih hdistinct.2 hget']

theorem map_modify_of {α β : Type} {key : α → β} {f : α → α} (hkey : ∀ x, key (f x) = key x)
    (l : List α) (index : Nat) : (l.modify index f).map key = l.map key := by
  induction l generalizing index with
  | nil => cases index <;> rfl
  | cons x xs ih =>
    cases index with
    | zero => rw [List.modify_zero_cons, List.map_cons, List.map_cons, hkey]
    | succ index => rw [List.modify_succ_cons, List.map_cons, List.map_cons, ih]

theorem lastIndexOf_get {transcript : List TranscriptRecord} {itemId : String} {index : Nat}
    (hindex : lastIndexOf transcript itemId = some index) :
    ∃ record, transcript[index]? = some record ∧ record.itemId = itemId := by
  unfold lastIndexOf at hindex
  obtain ⟨place, hplace, rfl⟩ := Option.map_eq_some_iff.mp hindex
  obtain ⟨hlt, hget, -⟩ := List.idxOf?_eq_some_iff.mp hplace
  have hplace' : (transcript.map (·.itemId)).reverse[place]? = some itemId := by
    rw [List.getElem?_eq_getElem hlt, hget]
  rw [List.length_reverse] at hlt
  rw [List.getElem?_reverse hlt, List.length_map, List.getElem?_map] at hplace'
  exact Option.map_eq_some_iff.mp hplace'

theorem modify_lastIndexOf {transcript : List TranscriptRecord} {itemId : String} {index : Nat}
    (hdistinct : (transcript.map (·.itemId)).Nodup)
    (hindex : lastIndexOf transcript itemId = some index)
    (f : TranscriptRecord → TranscriptRecord) :
    transcript.modify index f =
      transcript.map fun record => if record.itemId = itemId then f record else record := by
  obtain ⟨record, hget, rfl⟩ := lastIndexOf_get hindex
  exact modify_eq_map hdistinct hget f

theorem toolsOf_cons (record : TranscriptRecord) (records : List TranscriptRecord)
    (itemId : String) : toolsOf (record :: records) itemId =
      if record.itemId = itemId then record.tool :: toolsOf records itemId
      else toolsOf records itemId := by
  unfold toolsOf
  rw [List.filter_cons]
  by_cases hsame : record.itemId = itemId
  · simp [hsame]
  · simp [hsame]

/-- A record of an item that is there adds nothing, and its tool call goes to that item. -/
theorem newRecords_known {record : TranscriptRecord} {transcript : List TranscriptRecord}
    {index : Nat} (hindex : lastIndexOf transcript record.itemId = some index)
    (records : List TranscriptRecord) {f : TranscriptRecord → TranscriptRecord}
    (hf : ∀ x, (f x).itemId = x.itemId) :
    newRecords (record :: records) transcript = newRecords records transcript ∧
      newRecords records (transcript.modify index f) = newRecords records transcript := by
  obtain ⟨existing, hget, hown⟩ := lastIndexOf_get hindex
  have hmem : record.itemId ∈ transcript.map (·.itemId) :=
    hown ▸ List.mem_map_of_mem (List.mem_of_getElem? hget)
  refine ⟨List.filter_cons_of_neg (by simpa using hmem), ?_⟩
  unfold newRecords
  rw [map_modify_of hf]

/-- Without a repeated new id the new records are kept, and the others merged. -/
theorem retainNew_eq (records transcript kept : List TranscriptRecord)
    (hdistinct : (transcript.map (·.itemId)).Nodup)
    (hfresh : ((kept.reverse ++ newRecords records transcript).map (·.itemId)).Nodup) :
    retainNew records transcript kept =
      some (kept.reverse ++ newRecords records transcript, transcript.map (absorb records)) := by
  induction records generalizing transcript kept with
  | nil =>
    have habsorb : transcript.map (absorb []) = transcript := by
      conv_rhs => rw [← List.map_id transcript]
      rfl
    simp [retainNew, newRecords, habsorb]
  | cons record records ih =>
    unfold retainNew
    cases hindex : lastIndexOf transcript record.itemId with
    | some index =>
      obtain ⟨hskip, hsame⟩ := newRecords_known hindex records
        (f := fun x => { x with tool := mergeToolCallView x.tool record.tool }) fun _ => rfl
      have hmodify := modify_lastIndexOf hdistinct hindex fun existing =>
        { existing with tool := mergeToolCallView existing.tool record.tool }
      have hids : (transcript.modify index fun existing =>
          { existing with tool := mergeToolCallView existing.tool record.tool }).map (·.itemId) =
            transcript.map (·.itemId) := by
        apply map_modify_of
        intro x
        rfl
      dsimp only
      rw [hskip] at hfresh
      rw [ih _ _ (hids ▸ hdistinct) (by rw [hsame]; exact hfresh), hsame, hskip, hmodify,
        List.map_map]
      congr 2
      apply List.map_congr_left
      intro existing _
      simp only [Function.comp_apply, absorb]
      by_cases hown : existing.itemId = record.itemId
      · rw [if_pos hown, toolsOf_cons, if_pos hown.symm]
        rfl
      · rw [if_neg hown, toolsOf_cons, if_neg (Ne.symm hown)]
    | none =>
      have hnew := lastIndexOf_eq_none.mp hindex
      have htake : newRecords (record :: records) transcript =
          record :: newRecords records transcript :=
        List.filter_cons_of_pos (by simpa using hnew)
      rw [htake] at hfresh ⊢
      have hnot : record.itemId ∉ kept.map (·.itemId) := by
        intro hmem
        rw [List.map_append, List.map_cons, List.nodup_append] at hfresh
        have hmem' : record.itemId ∈ kept.reverse.map (·.itemId) := by
          rwa [List.map_reverse, List.mem_reverse]
        exact hfresh.2.2 _ hmem' _ List.mem_cons_self rfl
      have hshift : (record :: kept).reverse ++ newRecords records transcript =
          kept.reverse ++ record :: newRecords records transcript := by simp
      dsimp only
      rw [if_neg hnot, ih transcript (record :: kept) hdistinct (hshift ▸ hfresh), hshift]
      congr 2
      apply List.map_congr_left
      intro existing hexisting
      have hother : record.itemId ≠ existing.itemId := fun hsame =>
        hnew (hsame ▸ List.mem_map_of_mem hexisting)
      simp only [absorb]
      rw [toolsOf_cons, if_neg hother]

theorem retainNew_fresh {records transcript kept : List TranscriptRecord}
    (hkept : (kept.map (·.itemId)).Nodup) (h : (retainNew records transcript kept).isSome) :
    ((kept.reverse ++ newRecords records transcript).map (·.itemId)).Nodup := by
  induction records generalizing transcript kept with
  | nil => simpa [newRecords, List.map_reverse, List.nodup_reverse] using hkept
  | cons record records ih =>
    unfold retainNew at h
    cases hindex : lastIndexOf transcript record.itemId with
    | some index =>
      rw [hindex] at h
      obtain ⟨hskip, hsame⟩ := newRecords_known hindex records
        (f := fun x => { x with tool := mergeToolCallView x.tool record.tool }) fun _ => rfl
      have hrest := ih hkept h
      rw [hsame] at hrest
      rw [hskip]
      exact hrest
    | none =>
      rw [hindex] at h
      dsimp only at h
      split_ifs at h with hrepeated
      · cases h
      · have hnew := lastIndexOf_eq_none.mp hindex
        have htake : newRecords (record :: records) transcript =
            record :: newRecords records transcript :=
          List.filter_cons_of_pos (by simpa using hnew)
        have hkept' : ((record :: kept).map (·.itemId)).Nodup :=
          List.nodup_cons.mpr ⟨hrepeated, hkept⟩
        have hrest := ih hkept' h
        rw [htake]
        simpa using hrest

end retaining

section prepending

variable {records transcript : List TranscriptRecord}

@[simp] theorem absorb_itemId (records : List TranscriptRecord) (record : TranscriptRecord) :
    (absorb records record).itemId = record.itemId := rfl

def prepended (records transcript : List TranscriptRecord) : List TranscriptRecord :=
  newRecords records transcript ++ transcript.map (absorb records)

theorem prepended_ids (records transcript : List TranscriptRecord) :
    (prepended records transcript).map (·.itemId) =
      (newRecords records transcript).map (·.itemId) ++ transcript.map (·.itemId) := by
  simp [prepended]

theorem prepended_distinct (hdistinct : (transcript.map (·.itemId)).Nodup)
    (hfresh : ((newRecords records transcript).map (·.itemId)).Nodup) :
    ((prepended records transcript).map (·.itemId)).Nodup := by
  rw [prepended_ids, List.nodup_append]
  refine ⟨hfresh, hdistinct, ?_⟩
  rintro itemId hnew other hold rfl
  obtain ⟨record, hrecord, rfl⟩ := List.mem_map.mp hnew
  have hnot := (List.mem_filter.mp hrecord).2
  simp only [decide_eq_true_eq] at hnot
  exact hnot hold

theorem newRecords_prepended (records transcript : List TranscriptRecord) :
    newRecords records (prepended records transcript) = [] := by
  unfold newRecords
  rw [List.filter_eq_nil_iff]
  intro record hrecord
  rw [decide_eq_true_eq, not_not, prepended_ids, List.mem_append]
  by_cases hold : record.itemId ∈ transcript.map (·.itemId)
  · exact Or.inr hold
  · refine Or.inl (List.mem_map_of_mem ?_)
    exact List.mem_filter.mpr ⟨hrecord, by simpa using hold⟩

theorem prepended_again (records transcript : List TranscriptRecord) :
    prepended records (prepended records transcript) =
      (prepended records transcript).map (absorb records) := by
  have hnone := newRecords_prepended records transcript
  generalize prepended records transcript = transcript' at hnone ⊢
  rw [prepended, hnone, List.nil_append]

theorem toolsOf_new (hfresh : ((newRecords records transcript).map (·.itemId)).Nodup)
    {record : TranscriptRecord} (hrecord : record ∈ newRecords records transcript) :
    toolsOf records record.itemId = [record.tool] := by
  have hnew : record.itemId ∉ transcript.map (·.itemId) := by
    simpa using (List.mem_filter.mp hrecord).2
  have hfilter : records.filter (·.itemId = record.itemId) =
      (newRecords records transcript).filter (·.itemId = record.itemId) := by
    unfold newRecords
    rw [List.filter_filter]
    apply List.filter_congr
    intro other _
    by_cases hsame : other.itemId = record.itemId
    · rw [hsame]
      simpa using hnew
    · simp [hsame]
  have honly : (newRecords records transcript).filter (·.itemId = record.itemId) = [record] := by
    generalize newRecords records transcript = new at hfresh hrecord
    induction new with
    | nil => cases hrecord
    | cons first rest ih =>
      rw [List.map_cons, List.nodup_cons] at hfresh
      rcases List.mem_cons.mp hrecord with rfl | hrest
      · rw [List.filter_cons_of_pos (by simp), List.cons.injEq, List.filter_eq_nil_iff]
        refine ⟨rfl, ?_⟩
        intro other hother hsame
        rw [decide_eq_true_eq] at hsame
        exact hfresh.1 (hsame ▸ List.mem_map_of_mem hother)
      · have hne : ¬ first.itemId = record.itemId := fun hsame =>
          hfresh.1 (hsame ▸ List.mem_map_of_mem hrest)
        rw [List.filter_cons_of_neg (by simpa using hne), ih hfresh.2 hrest]
  rw [toolsOf, hfilter, honly]
  rfl

theorem absorb_eq_iff (record : TranscriptRecord) : absorb records record = record ↔
    mergeAll record.tool (toolsOf records record.itemId) = record.tool := by
  constructor
  · intro h
    exact congrArg TranscriptRecord.tool h
  · intro h
    unfold absorb
    rw [h]

theorem absorb_prepended_iff (hfresh : ((newRecords records transcript).map (·.itemId)).Nodup) :
    (prepended records transcript).map (absorb records) = prepended records transcript ↔
      (∀ record ∈ transcript, mergesOnce record.tool (toolsOf records record.itemId)) ∧
        ∀ record ∈ newRecords records transcript, mergesOnce none [record.tool] := by
  have hmap : (prepended records transcript).map (absorb records) = prepended records transcript ↔
      ∀ record ∈ prepended records transcript, absorb records record = record := by
    conv_lhs => rw [← List.map_id (prepended records transcript), List.map_map]
    exact List.map_inj_left
  rw [hmap, prepended, List.forall_mem_append, and_comm, List.forall_mem_map]
  apply and_congr
  · apply forall₂_congr
    intro record _
    rw [mergesOnce_iff, absorb_eq_iff]
    rfl
  · apply forall₂_congr
    intro record hrecord
    rw [mergesOnce_iff, absorb_eq_iff, toolsOf_new hfresh hrecord]
    cases record.tool <;> rfl

theorem prepend_eq {runtime : ThreadRuntime} {entries : List TranscriptEntryView}
    {requestedCursor : Option Nat} (prevCursor : Option Nat)
    (hdistinct : (runtime.transcript.map (·.itemId)).Nodup)
    (hfresh : ((newRecords (providerHistoryRecords entries requestedCursor)
      runtime.transcript).map (·.itemId)).Nodup) :
    runtime.prependProviderHistory entries requestedCursor prevCursor =
      some { runtime with
        transcript := prepended (providerHistoryRecords entries requestedCursor) runtime.transcript
        providerHistoryCursor := prevCursor } := by
  have hretain := retainNew_eq (providerHistoryRecords entries requestedCursor) runtime.transcript []
    hdistinct hfresh
  unfold ThreadRuntime.prependProviderHistory
  rw [hretain]
  rfl

/-- Putting a page of provider history before a transcript of different items does not panic,
keeps what is there in its order, puts what is new before it, and changes nothing the second time,
if and only if no new id is repeated in the page and its tool views merge once. -/
theorem prepend_iff (runtime : ThreadRuntime)
    (hdistinct : (runtime.transcript.map (·.itemId)).Nodup) (entries : List TranscriptEntryView)
    (requestedCursor prevCursor : Option Nat) :
    (∃ runtime', runtime.prependProviderHistory entries requestedCursor prevCursor =
        some runtime' ∧
      Prepended (providerHistoryRecords entries requestedCursor) runtime.transcript
        runtime'.transcript ∧
      runtime'.prependProviderHistory entries requestedCursor prevCursor = some runtime') ↔
      Prependable (providerHistoryRecords entries requestedCursor) runtime.transcript := by
  generalize hrecords : providerHistoryRecords entries requestedCursor = records
  have hagain : ∀ hfresh : ((newRecords records runtime.transcript).map (·.itemId)).Nodup,
      ({ runtime with
        transcript := prepended records runtime.transcript
        providerHistoryCursor := prevCursor } : ThreadRuntime).prependProviderHistory entries
          requestedCursor prevCursor =
        some { runtime with
          transcript := (prepended records runtime.transcript).map (absorb records)
          providerHistoryCursor := prevCursor } := by
    intro hfresh
    have hnone : ((newRecords (providerHistoryRecords entries requestedCursor)
        (prepended records runtime.transcript)).map (·.itemId)).Nodup := by
      rw [hrecords, newRecords_prepended]
      exact List.nodup_nil
    refine (prepend_eq prevCursor (prepended_distinct hdistinct hfresh) hnone).trans ?_
    rw [hrecords]
    dsimp only
    rw [prepended_again]
  constructor
  · rintro ⟨runtime', hfirst, -, hsecond⟩
    have hsome : (retainNew records runtime.transcript []).isSome := by
      unfold ThreadRuntime.prependProviderHistory at hfirst
      rw [hrecords] at hfirst
      cases hretain : retainNew records runtime.transcript [] with
      | some _ => rfl
      | none =>
        rw [hretain] at hfirst
        cases hfirst
    have hnil : (([] : List TranscriptRecord).map (·.itemId)).Nodup := List.nodup_nil
    have hfresh : ((newRecords records runtime.transcript).map (·.itemId)).Nodup :=
      retainNew_fresh hnil hsome
    rw [prepend_eq prevCursor hdistinct (hrecords.symm ▸ hfresh), hrecords] at hfirst
    obtain rfl := Option.some.inj hfirst
    rw [hagain hfresh] at hsecond
    have hsame := congrArg ThreadRuntime.transcript (Option.some.inj hsecond)
    obtain ⟨hexisting, hnew⟩ := (absorb_prepended_iff hfresh).mp hsame
    exact ⟨hfresh, hexisting, hnew⟩
  · intro h
    refine ⟨_, by rw [prepend_eq prevCursor hdistinct (hrecords.symm ▸ h.fresh), hrecords], ?_, ?_⟩
    · refine ⟨prepended_distinct hdistinct h.fresh, _, rfl, ?_⟩
      rw [List.map_map]
      rfl
    · rw [hagain h.fresh, (absorb_prepended_iff h.fresh).mpr ⟨h.existing, h.new⟩]

def tailRuntime : ThreadRuntime :=
  { ThreadRuntime.placeholder "t1" 0 1 with
    transcript := [{ itemId := "tail", kind := .agentText, text := some "tail"
                     status := "completed", turnId := none, tool := none }] }

def olderMessage : TranscriptEntryView :=
  { itemId := some "older", kind := .userText, text := some "older", status := "completed"
    turnId := none, tool := none }

theorem prepend_iff_retried_page :
    ∃ runtime', tailRuntime.prependProviderHistory [olderMessage] (some 4096) (some 2048) =
        some runtime' ∧
      runtime'.prependProviderHistory [olderMessage] (some 4096) (some 2048) = some runtime' := by
  have hpage : Prependable (providerHistoryRecords [olderMessage] (some 4096))
      tailRuntime.transcript := by
    refine ⟨?_, ?_, ?_⟩
    · decide
    · decide
    · decide
  obtain ⟨runtime', hfirst, -, hsecond⟩ :=
    (prepend_iff tailRuntime (by decide) [olderMessage] (some 4096) (some 2048)).mpr hpage
  exact ⟨runtime', hfirst, hsecond⟩

/-- A page that holds a new message twice makes the relay panic. -/
theorem repeated_new_id_panics :
    (tailRuntime.transcript.map (·.itemId)).Nodup ∧
      tailRuntime.prependProviderHistory [olderMessage, olderMessage] (some 4096) (some 2048) =
        none := by
  decide

end prepending

end AgentRelay.Relay
