import AgentRelay.FileChangePatch

/-! The detail of one entry. A long field is answered with its beginning and fetched on in chunks;
the diffs of the files of a tool call travel joined, as one field. -/
namespace AgentRelay.Relay
open Text

structure ThreadEntryDetailPendingField where
  field : String
  nextCursor : Nat
  totalChars : Nat
  deriving DecidableEq, Repr

structure ThreadEntryDetailChunk where
  field : String
  text : String
  nextCursor : Option Nat
  totalChars : Nat
  deriving DecidableEq, Repr

structure ThreadEntryDetailResponse where
  threadId : String
  itemId : String
  entry : Option TranscriptEntryView
  pendingFields : List ThreadEntryDetailPendingField
  chunk : Option ThreadEntryDetailChunk
  deriving DecidableEq, Repr

def threadEntryDetailInlineChars : Nat := 12000

def threadEntryDetailInitialChunkChars : Nat := 4000

def threadEntryDetailChunkChars : Nat := 12000

def detailFieldNames (entry : TranscriptEntryView) : List String :=
  match entry.kind with
  | .toolCall => ["tool.detail", "tool.input_preview", "tool.result_preview", "tool.diff"]
  | _ => ["text"]

def combinedDiff (tool : ToolCallView) : Option String :=
  let combined := String.intercalate "\n" ((tool.fileChanges.map (·.diff)).filter (· ≠ ""))
  if combined = "" then none else some combined

def detailFieldValue (entry : TranscriptEntryView) (field : String) : Option String :=
  if field = "text" then entry.text
  else if field = "tool.detail" then entry.tool.bind (·.detail)
  else if field = "tool.input_preview" then entry.tool.bind (·.inputPreview)
  else if field = "tool.result_preview" then entry.tool.bind (·.resultPreview)
  else if field = "tool.diff" then entry.tool.bind fun tool => tool.diff.or (combinedDiff tool)
  else none

/-- The field of an entry as it came over, where the client reads it. -/
def receivedFieldValue (entry : TranscriptEntryView) (field : String) : Option String :=
  if field = "text" then entry.text
  else if field = "tool.detail" then entry.tool.bind (·.detail)
  else if field = "tool.input_preview" then entry.tool.bind (·.inputPreview)
  else if field = "tool.result_preview" then entry.tool.bind (·.resultPreview)
  else if field = "tool.diff" then entry.tool.bind (·.diff)
  else none

def externalizeToolDiffs (tool : ToolCallView) : ToolCallView :=
  if tool.fileChanges.any (·.diff ≠ "") then
    { tool with
      diff := tool.diff.or (combinedDiff tool)
      fileChanges := tool.fileChanges.map fun change => { change with diff := "" } }
  else tool

def externalizeNestedFileChangeDiffs (entry : TranscriptEntryView) : TranscriptEntryView :=
  { entry with tool := entry.tool.map externalizeToolDiffs }

def onTool (entry : TranscriptEntryView) (field : String) (write : ToolCallView → ToolCallView) :
    Except String TranscriptEntryView :=
  match entry.tool with
  | some tool => .ok { entry with tool := some (write tool) }
  | none => .error (field ++ " is unavailable for this entry")

def setDetailFieldValue (entry : TranscriptEntryView) (field value : String) :
    Except String TranscriptEntryView :=
  if field = "text" then .ok { entry with text := some value }
  else if field = "tool.detail" then
    onTool entry field fun tool => { tool with detail := some value }
  else if field = "tool.input_preview" then
    onTool entry field fun tool => { tool with inputPreview := some value }
  else if field = "tool.result_preview" then
    onTool entry field fun tool => { tool with resultPreview := some value }
  else if field = "tool.diff" then
    onTool entry field fun tool => { tool with diff := some value }
  else .error ("unsupported thread entry detail field `" ++ field ++ "`")

def sliceChars (value : String) (start len : Nat) : String :=
  String.ofList ((value.toList.drop start).take len)

def shortenField (entry : TranscriptEntryView)
    (answer : TranscriptEntryView × List ThreadEntryDetailPendingField) (field : String) :
    Except String (TranscriptEntryView × List ThreadEntryDetailPendingField) :=
  match detailFieldValue entry field with
  | none => .ok answer
  | some value =>
    if value.length ≤ threadEntryDetailInlineChars then .ok answer
    else
      let chunk := sliceChars value 0 threadEntryDetailInitialChunkChars
      (setDetailFieldValue answer.1 field chunk).map fun shown =>
        (shown, answer.2 ++ [⟨field, chunk.length, value.length⟩])

namespace ThreadEntryDetailResponse

def fromEntry (threadId : String) (entry : TranscriptEntryView) :
    Except String ThreadEntryDetailResponse :=
  match entry.itemId with
  | none => .error "thread entry detail is missing item_id"
  | some itemId =>
    ((detailFieldNames entry).foldlM (shortenField entry)
      (externalizeNestedFileChangeDiffs entry, [])).map fun answer =>
        ⟨threadId, itemId, some answer.1, answer.2, none⟩

/-- `None` where the sum of the cursor and the length overflows. -/
def fromEntryChunk (threadId : String) (entry : TranscriptEntryView) (field : String)
    (cursor : Nat) : Option (Except String ThreadEntryDetailResponse) :=
  match entry.itemId with
  | none => some (.error "thread entry detail is missing item_id")
  | some itemId =>
    match detailFieldValue entry field with
    | none => some (.error ("thread entry detail field `" ++ field ++ "` is unavailable"))
    | some value =>
      let text := sliceChars value cursor threadEntryDetailChunkChars
      let next := cursor + text.length
      if usizeMax < next then none
      else
        let nextCursor := if next < value.length then some next else none
        some (.ok
          { threadId, itemId
            entry := none
            pendingFields := (nextCursor.map fun next => ⟨field, next, value.length⟩).toList
            chunk := some ⟨field, text, nextCursor, value.length⟩ })

inductive Fetches (threadId : String) (entry : TranscriptEntryView) (field : String) :
    Option Nat → List ThreadEntryDetailChunk → Prop
  | done : Fetches threadId entry field none []
  | more {cursor : Nat} {response : ThreadEntryDetailResponse} {chunk : ThreadEntryDetailChunk}
      {chunks : List ThreadEntryDetailChunk}
      (hanswer : fromEntryChunk threadId entry field cursor = some (.ok response))
      (hchunk : response.chunk = some chunk)
      (hrest : Fetches threadId entry field chunk.nextCursor chunks) :
      Fetches threadId entry field (some cursor) (chunk :: chunks)

end ThreadEntryDetailResponse

section slices

theorem toList_sliceChars (value : String) (start len : Nat) :
    (sliceChars value start len).toList = (value.toList.drop start).take len := by
  simp [sliceChars]

theorem length_sliceChars (value : String) (start len : Nat) :
    (sliceChars value start len).length = min len (value.length - start) := by
  simp [sliceChars, String.length_ofList, String.length_toList]

theorem sliceChars_append (value : String) (start len : Nat) :
    (sliceChars value start len).toList ++
      value.toList.drop (start + (sliceChars value start len).length) =
        value.toList.drop start := by
  rw [toList_sliceChars, length_sliceChars, ← List.drop_drop]
  have hlength : (value.toList.drop start).length = value.length - start := by
    rw [List.length_drop, String.length_toList]
  have hwhole : value.toList.length = value.length := String.length_toList
  by_cases hle : len ≤ value.length - start
  · rw [min_eq_left hle, List.take_append_drop]
  · rw [min_eq_right (by omega), List.take_of_length_le (by omega),
      List.drop_of_length_le hlength.le, List.append_nil]

end slices

section fields

variable {entry shown : TranscriptEntryView} {field value : String}

theorem length_intercalate (parts : List String) :
    (String.intercalate "\n" parts).length =
      (parts.map String.length).sum + (parts.length - 1) := by
  induction parts with
  | nil => simp
  | cons part rest ih =>
    cases rest with
    | nil => simp
    | cons next rest =>
      rw [String.intercalate_cons_cons, String.length_append, String.length_append, ih]
      simp only [List.map_cons, List.sum_cons, List.length_cons]
      have hnewline : "\n".length = 1 := by decide
      omega

theorem combinedDiff_isSome (tool : ToolCallView) :
    (combinedDiff tool).isSome = tool.fileChanges.any (·.diff ≠ "") := by
  unfold combinedDiff
  dsimp only
  generalize hparts : (tool.fileChanges.map (·.diff)).filter (· ≠ "") = parts
  have hany : (tool.fileChanges.any (·.diff ≠ "")) = true ↔ parts ≠ [] := by
    rw [← hparts]
    simp [List.filter_eq_nil_iff]
  have hjoined : String.intercalate "\n" parts = "" ↔ parts = [] := by
    constructor
    · intro hempty
      by_contra hne
      obtain ⟨part, rest, rfl⟩ := List.exists_cons_of_ne_nil hne
      have hpart : part ≠ "" := by
        have hmem : part ∈ (tool.fileChanges.map (·.diff)).filter (· ≠ "") := by
          rw [hparts]
          exact List.mem_cons_self
        simpa using (List.mem_filter.mp hmem).2
      have hlength := length_intercalate (part :: rest)
      rw [hempty] at hlength
      simp only [List.map_cons, List.sum_cons, String.length_empty] at hlength
      exact hpart (String.length_eq_zero_iff.mp (by omega))
    · rintro rfl
      rfl
  rw [Bool.eq_iff_iff, hany]
  split_ifs with hempty
  · simp [hjoined.mp hempty]
  · simpa using fun hnil => hempty (hjoined.mpr hnil)

/-- The joined diffs are put where the client reads the diff. -/
theorem receivedFieldValue_externalize (entry : TranscriptEntryView) (field : String) :
    receivedFieldValue (externalizeNestedFileChangeDiffs entry) field =
      detailFieldValue entry field := by
  have hdiff : ∀ tool : ToolCallView, (externalizeToolDiffs tool).diff =
      tool.diff.or (combinedDiff tool) := by
    intro tool
    have hcombined := combinedDiff_isSome tool
    unfold externalizeToolDiffs
    split_ifs with hany
    · rfl
    · rw [Bool.not_eq_true] at hany
      rw [hany, Option.isSome_eq_false_iff, Option.isNone_iff_eq_none] at hcombined
      rw [hcombined, Option.or_none]
  have hrest : ∀ tool : ToolCallView, (externalizeToolDiffs tool).detail = tool.detail ∧
      (externalizeToolDiffs tool).inputPreview = tool.inputPreview ∧
      (externalizeToolDiffs tool).resultPreview = tool.resultPreview := by
    intro tool
    unfold externalizeToolDiffs
    split_ifs <;> simp
  unfold receivedFieldValue detailFieldValue externalizeNestedFileChangeDiffs
  cases entry.tool with
  | none => rfl
  | some tool =>
    obtain ⟨hdetail, hinput, hresult⟩ := hrest tool
    simp only [Option.map_some, Option.bind_some, hdiff, hdetail, hinput, hresult]

theorem setDetailFieldValue_spec (hfield : (receivedFieldValue shown field).isSome) (value : String) :
    ∃ shown', setDetailFieldValue shown field value = .ok shown' ∧
      ∀ other, receivedFieldValue shown' other =
        if other = field then some value else receivedFieldValue shown other := by
  unfold receivedFieldValue at hfield
  unfold setDetailFieldValue
  split_ifs at hfield ⊢ with htext hdetail hinput hresult hdiff
  · refine ⟨_, rfl, fun other => ?_⟩
    subst htext
    split_ifs with hother
    · rw [hother]
      rfl
    · simp only [receivedFieldValue, hother, if_false]
  on_goal 5 => cases hfield
  all_goals
    obtain ⟨tool, htool⟩ : ∃ tool, shown.tool = some tool := by
      cases htool : shown.tool with
      | none =>
        rw [htool] at hfield
        cases hfield
      | some tool => exact ⟨tool, rfl⟩
    unfold onTool
    rw [htool]
    refine ⟨_, rfl, fun other => ?_⟩
    subst field
    split_ifs with hother
    · rw [hother]
      simp [receivedFieldValue]
    · simp only [receivedFieldValue, hother, if_false, htool, Option.bind_some]

/-- A field as the answer shows it. -/
def shortened (value : String) : String :=
  if value.length ≤ threadEntryDetailInlineChars then value
  else sliceChars value 0 threadEntryDetailInitialChunkChars

def pendingOf (entry : TranscriptEntryView) (field : String) :
    Option ThreadEntryDetailPendingField :=
  (detailFieldValue entry field).bind fun value =>
    if value.length ≤ threadEntryDetailInlineChars then none
    else some ⟨field, (sliceChars value 0 threadEntryDetailInitialChunkChars).length, value.length⟩

theorem shortenField_spec (pending : List ThreadEntryDetailPendingField)
    (hsame : receivedFieldValue shown field = detailFieldValue entry field) :
    ∃ shown', shortenField entry (shown, pending) field =
        .ok (shown', pending ++ (pendingOf entry field).toList) ∧
      ∀ other, receivedFieldValue shown' other =
        if other = field then (detailFieldValue entry field).map shortened
        else receivedFieldValue shown other := by
  unfold shortenField pendingOf
  cases hvalue : detailFieldValue entry field with
  | none =>
    refine ⟨shown, by simp, ?_⟩
    intro other
    split_ifs with hother
    · rw [hother, hsame, hvalue]
      rfl
    · rfl
  | some value =>
    dsimp only
    rw [Option.bind_some]
    by_cases hshort : value.length ≤ threadEntryDetailInlineChars
    · rw [if_pos hshort, if_pos hshort]
      refine ⟨shown, by simp, ?_⟩
      intro other
      split_ifs with hother
      · rw [hother, hsame, hvalue, Option.map_some, shortened, if_pos hshort]
      · rfl
    · rw [if_neg hshort, if_neg hshort]
      have hsome : (receivedFieldValue shown field).isSome := by rw [hsame, hvalue]; rfl
      obtain ⟨shown', hset, hfields⟩ := setDetailFieldValue_spec hsome
        (sliceChars value 0 threadEntryDetailInitialChunkChars)
      rw [hset]
      refine ⟨shown', rfl, ?_⟩
      intro other
      rw [hfields, Option.map_some, shortened, if_neg hshort]

theorem shortenFields_spec (fields : List String) (pending : List ThreadEntryDetailPendingField)
    (hnodup : fields.Nodup)
    (hsame : ∀ field ∈ fields, receivedFieldValue shown field = detailFieldValue entry field) :
    ∃ shown', fields.foldlM (shortenField entry) (shown, pending) =
        .ok (shown', pending ++ fields.filterMap (pendingOf entry)) ∧
      ∀ field, receivedFieldValue shown' field =
        if field ∈ fields then (detailFieldValue entry field).map shortened
        else receivedFieldValue shown field := by
  induction fields generalizing shown pending with
  | nil => exact ⟨shown, by simp [pure, Except.pure], by simp⟩
  | cons first rest ih =>
    rw [List.nodup_cons] at hnodup
    obtain ⟨middle, hfirst, hmiddle⟩ :=
      shortenField_spec pending (hsame first List.mem_cons_self)
    have hsame' : ∀ field ∈ rest,
        receivedFieldValue middle field = detailFieldValue entry field := by
      intro field hmem
      have hne : field ≠ first := fun heq => hnodup.1 (heq ▸ hmem)
      rw [hmiddle, if_neg hne]
      exact hsame field (List.mem_cons_of_mem _ hmem)
    obtain ⟨shown', hrest, hfields⟩ := ih (pending ++ (pendingOf entry first).toList) hnodup.2 hsame'
    refine ⟨shown', ?_, ?_⟩
    · rw [List.foldlM_cons, hfirst]
      refine hrest.trans ?_
      rw [List.append_assoc]
      congr 3
      cases hpending : pendingOf entry first with
      | none => rw [List.filterMap_cons_none hpending, Option.toList_none, List.nil_append]
      | some field => rw [List.filterMap_cons_some hpending]; rfl
    · intro field
      rw [hfields, hmiddle]
      by_cases hmem : field ∈ rest
      · rw [if_pos hmem, if_pos (List.mem_cons_of_mem _ hmem)]
      · rw [if_neg hmem]
        by_cases hfirst : field = first
        · rw [if_pos hfirst, if_pos (hfirst ▸ List.mem_cons_self), hfirst]
        · rw [if_neg hfirst, if_neg (by simp [hmem, hfirst])]

end fields

section chunks

open ThreadEntryDetailResponse

variable {threadId field value itemId : String} {entry : TranscriptEntryView}

def cursorsFrom (cursor : Nat) (chunks : List ThreadEntryDetailChunk) : List Nat :=
  cursor :: chunks.filterMap (·.nextCursor)

theorem cursorsFrom_cons {cursor next : Nat} {chunk : ThreadEntryDetailChunk}
    {chunks : List ThreadEntryDetailChunk} (h : chunk.nextCursor = some next) :
    cursorsFrom cursor (chunk :: chunks) = cursor :: cursorsFrom next chunks := by
  simp [cursorsFrom, h]

theorem fromEntryChunk_eq (threadId : String) (hid : entry.itemId = some itemId)
    (hvalue : detailFieldValue entry field = some value) {cursor : Nat}
    (hcursor : cursor ≤ usizeMax) (hlength : value.length ≤ usizeMax) :
    let text := sliceChars value cursor threadEntryDetailChunkChars
    let next := cursor + text.length
    let nextCursor := if next < value.length then some next else none
    ∃ response, fromEntryChunk threadId entry field cursor = some (.ok response) ∧
      response.chunk = some ⟨field, text, nextCursor, value.length⟩ := by
  have hsmall : ¬ usizeMax <
      cursor + (sliceChars value cursor threadEntryDetailChunkChars).length := by
    rw [length_sliceChars]
    omega
  unfold fromEntryChunk
  rw [hid, hvalue]
  dsimp only
  rw [if_neg hsmall]
  exact ⟨_, rfl, rfl⟩

theorem fetches_rest (threadId : String) (hid : entry.itemId = some itemId)
    (hvalue : detailFieldValue entry field = some value) (hlength : value.length ≤ usizeMax)
    {cursor : Nat} (hcursor : cursor ≤ value.length) :
    ∃ chunks, Fetches threadId entry field (some cursor) chunks ∧
      (chunks.flatMap fun chunk => chunk.text.toList) = value.toList.drop cursor ∧
      (cursorsFrom cursor chunks).IsChain (· < ·) ∧
      ∀ chunk ∈ chunks, chunk.totalChars = value.length := by
  induction hleft : value.length - cursor using Nat.strongRecOn generalizing cursor with
  | _ left ih =>
    obtain ⟨response, hanswer, hchunk⟩ := fromEntryChunk_eq threadId hid hvalue
      (hcursor.trans hlength) hlength
    have happend := sliceChars_append value cursor threadEntryDetailChunkChars
    have hslice := length_sliceChars value cursor threadEntryDetailChunkChars
    have hchunkChars : threadEntryDetailChunkChars = 12000 := rfl
    generalize sliceChars value cursor threadEntryDetailChunkChars = text at hchunk happend hslice
    by_cases hmore : cursor + text.length < value.length
    · rw [if_pos hmore] at hchunk
      obtain ⟨chunks, hfetches, htexts, hchain, htotal⟩ :=
        ih (value.length - (cursor + text.length)) (by omega) hmore.le rfl
      refine ⟨_ :: chunks, Fetches.more hanswer hchunk hfetches, ?_, ?_, ?_⟩
      · rw [List.flatMap_cons, htexts]
        exact happend
      · rw [cursorsFrom_cons rfl]
        exact List.IsChain.cons_cons (by omega) hchain
      · rw [List.forall_mem_cons]
        exact ⟨rfl, htotal⟩
    · rw [if_neg hmore] at hchunk
      refine ⟨[_], Fetches.more hanswer hchunk Fetches.done, ?_, ?_, ?_⟩
      · have hnone : value.toList.drop (cursor + text.length) = [] := by
          apply List.drop_of_length_le
          rw [String.length_toList]
          omega
        rw [hnone, List.append_nil] at happend
        simpa using happend
      · simp [cursorsFrom]
      · simp

theorem fetches_unique {cursor : Option Nat} {chunks chunks' : List ThreadEntryDetailChunk}
    (h : Fetches threadId entry field cursor chunks)
    (h' : Fetches threadId entry field cursor chunks') : chunks = chunks' := by
  induction h generalizing chunks' with
  | done =>
    cases h'
    rfl
  | more hanswer hchunk _ ih =>
    cases h' with
    | more hanswer' hchunk' hrest' =>
      rw [hanswer] at hanswer'
      cases hanswer'
      rw [hchunk] at hchunk'
      cases hchunk'
      rw [ih hrest']

structure Assembled (threadId : String) (entry : TranscriptEntryView) (field : String)
    (response : ThreadEntryDetailResponse) (inline : String)
    (chunks : List ThreadEntryDetailChunk) : Prop where
  inline : (response.entry.bind (receivedFieldValue · field)) = some inline
  fetched : Fetches threadId entry field
    ((response.pendingFields.find? (·.field = field)).map (·.nextCursor)) chunks

def assembledText (inline : String) (chunks : List ThreadEntryDetailChunk) : List Char :=
  inline.toList ++ chunks.flatMap fun chunk => chunk.text.toList

theorem pendingOf_field {pending : ThreadEntryDetailPendingField}
    (h : pendingOf entry field = some pending) : pending.field = field := by
  obtain ⟨value, -, hpending⟩ := Option.bind_eq_some_iff.mp h
  split_ifs at hpending
  rw [← Option.some.inj hpending]

theorem find_pending (entry : TranscriptEntryView) {fields : List String} (hmem : field ∈ fields) :
    (fields.filterMap (pendingOf entry)).find? (·.field = field) = pendingOf entry field := by
  induction fields with
  | nil => cases hmem
  | cons first rest ih =>
    have hfirst : ∀ pending, pendingOf entry first = some pending → pending.field = first :=
      fun pending h => pendingOf_field h
    by_cases heq : first = field
    · subst heq
      cases hpending : pendingOf entry first with
      | some pending =>
        rw [List.filterMap_cons_some hpending, List.find?_cons_of_pos]
        simpa using hfirst pending hpending
      | none =>
        rw [List.filterMap_cons_none hpending, List.find?_eq_none]
        intro other hother
        obtain ⟨name, -, hname⟩ := List.mem_filterMap.mp hother
        intro hsame
        have hname' := pendingOf_field hname
        rw [decide_eq_true_eq, hname'] at hsame
        rw [hsame, hpending] at hname
        cases hname
    · have hrest := ih ((List.mem_cons.mp hmem).resolve_left fun h => heq h.symm)
      cases hpending : pendingOf entry first with
      | some pending =>
        rw [List.filterMap_cons_some hpending, List.find?_cons_of_neg, hrest]
        simpa [hfirst pending hpending] using heq
      | none => rw [List.filterMap_cons_none hpending, hrest]

theorem detailFieldNames_nodup (entry : TranscriptEntryView) : (detailFieldNames entry).Nodup := by
  unfold detailFieldNames
  cases entry.kind <;> decide

theorem fromEntry_eq (threadId : String) (hid : entry.itemId = some itemId) :
    ∃ shown, fromEntry threadId entry = .ok
        ⟨threadId, itemId, some shown, (detailFieldNames entry).filterMap (pendingOf entry), none⟩ ∧
      ∀ field ∈ detailFieldNames entry,
        receivedFieldValue shown field = (detailFieldValue entry field).map shortened := by
  obtain ⟨shown, hfold, hfields⟩ := shortenFields_spec (detailFieldNames entry) []
    (detailFieldNames_nodup entry) (fun field _ => receivedFieldValue_externalize entry field)
  refine ⟨shown, ?_, ?_⟩
  · unfold fromEntry
    rw [hid]
    dsimp only
    rw [hfold]
    rfl
  · intro field hmem
    rw [hfields, if_pos hmem]

/-- A field that has a value can be put together, to the whole of it. -/
theorem assembled_whole (threadId : String) (hid : entry.itemId = some itemId)
    (hfield : field ∈ detailFieldNames entry) (hvalue : detailFieldValue entry field = some value)
    (hlength : value.length ≤ usizeMax) {response : ThreadEntryDetailResponse}
    (hresponse : fromEntry threadId entry = .ok response) :
    ∃ inline chunks, Assembled threadId entry field response inline chunks ∧
      assembledText inline chunks = value.toList ∧
      (∀ pending ∈ response.pendingFields.find? (·.field = field),
        pending.totalChars = value.length ∧
          (cursorsFrom pending.nextCursor chunks).IsChain (· < ·)) ∧
      (∀ chunk ∈ chunks, chunk.totalChars = value.length) ∧
      ((response.pendingFields.find? (·.field = field)).isSome ↔ inline.length < value.length) := by
  obtain ⟨shown, hok, hfields⟩ := fromEntry_eq threadId hid
  rw [hok] at hresponse
  cases hresponse
  have hinline := hfields field hfield
  rw [hvalue, Option.map_some] at hinline
  have hfind := find_pending entry hfield
  have hpending : pendingOf entry field = if value.length ≤ threadEntryDetailInlineChars then none
      else some ⟨field, (sliceChars value 0 threadEntryDetailInitialChunkChars).length,
        value.length⟩ := by
    unfold pendingOf
    rw [hvalue]
    rfl
  have hconstants : threadEntryDetailInitialChunkChars < threadEntryDetailInlineChars := by decide
  by_cases hshort : value.length ≤ threadEntryDetailInlineChars
  · rw [if_pos hshort] at hpending
    rw [shortened, if_pos hshort] at hinline
    rw [hpending] at hfind
    refine ⟨value, [], ⟨hinline, ?_⟩, ?_, ?_, by simp, ?_⟩
    · rw [hfind]
      exact Fetches.done
    · simp [assembledText]
    · rw [hfind]
      simp
    · rw [hfind]
      simp
  · rw [if_neg hshort] at hpending
    rw [shortened, if_neg hshort] at hinline
    rw [hpending] at hfind
    have hslice := length_sliceChars value 0 threadEntryDetailInitialChunkChars
    have happend := sliceChars_append value 0 threadEntryDetailInitialChunkChars
    generalize sliceChars value 0 threadEntryDetailInitialChunkChars = chunk
      at hfind hinline hslice happend
    have hless : chunk.length < value.length := by omega
    obtain ⟨chunks, hfetches, htexts, hchain, htotal⟩ :=
      fetches_rest threadId hid hvalue hlength hless.le
    refine ⟨chunk, chunks, ⟨hinline, ?_⟩, ?_, ?_, htotal, ?_⟩
    · rw [hfind]
      exact hfetches
    · unfold assembledText
      rw [htexts]
      simpa using happend
    · rw [hfind]
      intro pending hsome
      rw [← Option.some.inj hsome]
      exact ⟨rfl, hchain⟩
    · rw [hfind]
      simpa using hless

theorem assembled_eq (hid : entry.itemId = some itemId) (hfield : field ∈ detailFieldNames entry)
    (hlength : ∀ value, detailFieldValue entry field = some value → value.length ≤ usizeMax)
    {response : ThreadEntryDetailResponse} (hresponse : fromEntry threadId entry = .ok response)
    {inline : String} {chunks : List ThreadEntryDetailChunk}
    (h : Assembled threadId entry field response inline chunks) :
    (detailFieldValue entry field).map String.toList = some (assembledText inline chunks) := by
  obtain ⟨shown, hok, hfields⟩ := fromEntry_eq threadId hid
  have hshown : response.entry = some shown := by
    rw [hok] at hresponse
    cases hresponse
    rfl
  have hinline := h.inline
  rw [hshown, Option.bind_some, hfields field hfield] at hinline
  obtain ⟨value, hvalue, -⟩ := Option.map_eq_some_iff.mp hinline
  obtain ⟨inline', chunks', h', htext, -⟩ :=
    assembled_whole threadId hid hfield hvalue (hlength value hvalue) hresponse
  obtain rfl : inline = inline' := Option.some.inj (h.inline.symm.trans h'.inline)
  obtain rfl : chunks = chunks' := fetches_unique h.fetched h'.fetched
  rw [hvalue, Option.map_some, htext]

theorem no_value_not_pending (threadId : String) (hid : entry.itemId = some itemId)
    (hfield : field ∈ detailFieldNames entry) (hvalue : detailFieldValue entry field = none)
    {response : ThreadEntryDetailResponse} (hresponse : fromEntry threadId entry = .ok response) :
    response.entry.bind (receivedFieldValue · field) = none ∧
      response.pendingFields.find? (·.field = field) = none := by
  obtain ⟨shown, hok, hfields⟩ := fromEntry_eq threadId hid
  rw [hok] at hresponse
  cases hresponse
  have hshown := hfields field hfield
  have hfind := find_pending entry hfield
  rw [hvalue] at hshown
  refine ⟨hshown, ?_⟩
  rw [hfind, pendingOf, hvalue]
  rfl

/-- At any cursor a chunk is answered; there is a next one only within the text, and it is further
on. -/
theorem chunk_at_cursor (threadId : String) (hid : entry.itemId = some itemId)
    (hvalue : detailFieldValue entry field = some value) (hlength : value.length ≤ usizeMax)
    {cursor : Nat} (hcursor : cursor ≤ usizeMax) :
    ∃ response chunk, fromEntryChunk threadId entry field cursor = some (.ok response) ∧
      response.chunk = some chunk ∧ chunk.totalChars = value.length ∧
      (value.length ≤ cursor → chunk.nextCursor = none) ∧
      ∀ next ∈ chunk.nextCursor, cursor < next ∧ next < value.length := by
  obtain ⟨response, hanswer, hchunk⟩ :=
    fromEntryChunk_eq threadId hid hvalue hcursor hlength
  have hslice := length_sliceChars value cursor threadEntryDetailChunkChars
  have hchunkChars : threadEntryDetailChunkChars = 12000 := rfl
  refine ⟨response, _, hanswer, hchunk, rfl, ?_, ?_⟩
  · intro hpast
    have hlast : ¬ cursor + (sliceChars value cursor threadEntryDetailChunkChars).length <
        value.length := by omega
    exact if_neg hlast
  · intro next hnext
    dsimp only at hnext
    split_ifs at hnext with hmore
    · rw [← Option.some.inj hnext]
      omega
    · cases hnext

theorem fromEntryChunk_no_overflow (threadId : String)
    (hlengths : ∀ field value, detailFieldValue entry field = some value → value.length ≤ usizeMax)
    (field : String) {cursor : Nat} (hcursor : cursor ≤ usizeMax) :
    fromEntryChunk threadId entry field cursor ≠ none := by
  cases hid : entry.itemId with
  | none =>
    unfold fromEntryChunk
    rw [hid]
    simp
  | some itemId =>
    cases hvalue : detailFieldValue entry field with
    | none =>
      unfold fromEntryChunk
      rw [hid, hvalue]
      simp
    | some value =>
      obtain ⟨response, hanswer, -⟩ := fromEntryChunk_eq threadId hid hvalue hcursor
        (hlengths field value hvalue)
      rw [hanswer]
      simp

/-- Every field of an entry is shown or fetched whole, along cursors that advance to its end. -/
theorem entry_detail_round_trip (threadId : String) (hid : entry.itemId = some itemId)
    (hlengths : ∀ field value, detailFieldValue entry field = some value →
      value.length ≤ usizeMax) :
    ∃ response, fromEntry threadId entry = .ok response ∧
      (∀ field ∈ detailFieldNames entry, detailFieldValue entry field = none →
        response.entry.bind (receivedFieldValue · field) = none ∧
        response.pendingFields.find? (·.field = field) = none) ∧
      (∀ field ∈ detailFieldNames entry, ∀ value, detailFieldValue entry field = some value →
        ∃ inline chunks, Assembled threadId entry field response inline chunks ∧
          assembledText inline chunks = value.toList ∧
          (∀ pending ∈ response.pendingFields.find? (·.field = field),
            pending.totalChars = value.length ∧
              (cursorsFrom pending.nextCursor chunks).IsChain (· < ·)) ∧
          (∀ chunk ∈ chunks, chunk.totalChars = value.length) ∧
          ((response.pendingFields.find? (·.field = field)).isSome ↔
            inline.length < value.length)) ∧
      (∀ field value cursor, detailFieldValue entry field = some value → cursor ≤ usizeMax →
        ∃ response chunk, fromEntryChunk threadId entry field cursor = some (.ok response) ∧
          response.chunk = some chunk ∧ chunk.totalChars = value.length ∧
          (value.length ≤ cursor → chunk.nextCursor = none) ∧
          ∀ next ∈ chunk.nextCursor, cursor < next ∧ next < value.length) ∧
      ∀ field cursor, cursor ≤ usizeMax → fromEntryChunk threadId entry field cursor ≠ none := by
  obtain ⟨shown, hresponse, -⟩ := fromEntry_eq threadId hid
  refine ⟨_, hresponse, ?_, ?_, ?_, ?_⟩
  · intro field hfield hvalue
    exact no_value_not_pending threadId hid hfield hvalue hresponse
  · intro field hfield value hvalue
    exact assembled_whole threadId hid hfield hvalue (hlengths field value hvalue) hresponse
  · intro field value cursor hvalue hcursor
    exact chunk_at_cursor threadId hid hvalue (hlengths field value hvalue) hcursor
  · intro field cursor hcursor
    exact fromEntryChunk_no_overflow threadId hlengths field hcursor

def longMessage : TranscriptEntryView :=
  { itemId := some "item-1", kind := .agentText
    text := some (String.ofList (List.replicate 20000 'a'))
    status := "completed", turnId := none, tool := none }

theorem entry_detail_round_trip_long_message :
    ∃ response, fromEntry "thread-1" longMessage = .ok response ∧
      ∃ inline chunks, Assembled "thread-1" longMessage "text" response inline chunks ∧
        assembledText inline chunks = List.replicate 20000 'a' := by
  have hvalue : detailFieldValue longMessage "text" =
      some (String.ofList (List.replicate 20000 'a')) := rfl
  have hlengths : ∀ field value, detailFieldValue longMessage field = some value →
      value.length ≤ usizeMax := by
    intro field value h
    unfold detailFieldValue at h
    split_ifs at h
    · rw [← Option.some.inj h, String.length_ofList, List.length_replicate]
      decide
    all_goals cases h
  obtain ⟨response, hresponse, -, hfields, -⟩ :=
    entry_detail_round_trip "thread-1" (rfl : longMessage.itemId = some "item-1") hlengths
  obtain ⟨inline, chunks, hassembled, htext, -⟩ := hfields "text" (by decide) _ hvalue
  refine ⟨response, hresponse, inline, chunks, hassembled, ?_⟩
  rw [htext, String.toList_ofList]

end chunks

section shown

open ThreadEntryDetailResponse

variable {threadId itemId : String} {entry : TranscriptEntryView} {tool : ToolCallView}

theorem infix_intercalate {part : String} {parts : List String} (h : part ∈ parts) :
    part.toList <:+: (String.intercalate "\n" parts).toList := by
  induction parts with
  | nil => cases h
  | cons first rest ih =>
    cases rest with
    | nil =>
      obtain rfl : part = first := by simpa using h
      simp
    | cons next rest =>
      rw [String.intercalate_cons_cons, String.toList_append, String.toList_append]
      rcases List.mem_cons.mp h with rfl | h
      · rw [List.append_assoc]
        exact (List.prefix_append _ _).isInfix
      · exact (ih h).trans (List.suffix_append _ _).isInfix

theorem detailFieldValue_diff (htool : entry.tool = some tool) :
    detailFieldValue entry "tool.diff" = tool.diff.or (combinedDiff tool) := by
  simp [detailFieldValue, htool]

theorem diff_mem_detailFieldNames (hkind : entry.kind = .toolCall) :
    "tool.diff" ∈ detailFieldNames entry := by
  simp [detailFieldNames, hkind]

theorem combinedDiff_eq {change : FileChangeDiffView} (hmem : change ∈ tool.fileChanges)
    (hdiff : change.diff ≠ "") :
    combinedDiff tool =
      some (String.intercalate "\n" ((tool.fileChanges.map (·.diff)).filter (· ≠ ""))) := by
  have hsome : (combinedDiff tool).isSome := by
    rw [combinedDiff_isSome, List.any_eq_true]
    exact ⟨change, hmem, by simpa using hdiff⟩
  unfold combinedDiff at hsome ⊢
  dsimp only at hsome ⊢
  split_ifs at hsome ⊢ with hempty
  · cases hsome
  · rfl

theorem combinedDiff_eq_patch
    (hplain : ∀ change ∈ tool.fileChanges, change.diff ≠ "" → trim change.diff ≠ "")
    (hdiff : tool.diff = none) : combinedDiff tool = patchForApply tool := by
  have hsame : (tool.fileChanges.map (·.diff)).filter (fun diff => trim diff ≠ "") =
      (tool.fileChanges.map (·.diff)).filter (· ≠ "") := by
    apply List.filter_congr
    intro diff hmem
    obtain ⟨change, hchange, rfl⟩ := List.mem_map.mp hmem
    rw [decide_eq_decide]
    constructor
    · intro htrim hempty
      rw [hempty] at htrim
      exact htrim (by decide)
    · exact hplain change hchange
  have hcombined := combinedDiff_isSome tool
  have hany : tool.fileChanges.any (·.diff ≠ "") = true ↔
      (tool.fileChanges.map (·.diff)).filter (· ≠ "") ≠ [] := by
    simp [List.filter_eq_nil_iff]
  unfold patchForApply
  rw [hdiff]
  dsimp only [Option.filter_none]
  rw [hsame]
  unfold combinedDiff at hcombined ⊢
  dsimp only at hcombined ⊢
  split_ifs at hcombined ⊢ with hempty hnone hnone
  · rfl
  · rw [hany.mpr hnone] at hcombined
    cases hcombined
  · exact absurd hnone (hany.mp hcombined.symm)
  · rfl

/-- The diff shown is the entry's own, the one that is applied; an entry without one shows the
diffs of its files, none left out, and applies them. -/
theorem shown_diff_is_applied (threadId : String) (hid : entry.itemId = some itemId)
    (hkind : entry.kind = .toolCall) (htool : entry.tool = some tool)
    (hlength : ∀ value, detailFieldValue entry "tool.diff" = some value →
      value.length ≤ usizeMax) :
    ∃ response, fromEntry threadId entry = .ok response ∧
      ((patchForApply tool).isSome ∨ (∃ change ∈ tool.fileChanges, change.diff ≠ "") →
        ∃ inline chunks, Assembled threadId entry "tool.diff" response inline chunks) ∧
      ∀ inline chunks, Assembled threadId entry "tool.diff" response inline chunks →
        (∀ diff, tool.diff = some diff → trim diff ≠ "" →
          assembledText inline chunks = diff.toList ∧ patchForApply tool = some diff) ∧
        (tool.diff = none →
          (∀ change ∈ tool.fileChanges, change.diff ≠ "" →
            change.diff.toList <:+: assembledText inline chunks) ∧
          ((∀ change ∈ tool.fileChanges, change.diff ≠ "" → trim change.diff ≠ "") →
            (patchForApply tool).map String.toList = some (assembledText inline chunks))) := by
  have hfield := diff_mem_detailFieldNames hkind
  have hvalue := detailFieldValue_diff htool
  obtain ⟨shown, hresponse, -⟩ := fromEntry_eq threadId hid
  refine ⟨_, hresponse, ?_, ?_⟩
  · intro hthere
    have hsome : (tool.diff.or (combinedDiff tool)).isSome := by
      cases hdiff : tool.diff with
      | some diff => rfl
      | none =>
        rw [Option.none_or, combinedDiff_isSome, List.any_eq_true]
        rcases hthere with hpatch | ⟨change, hmem, hne⟩
        · unfold patchForApply at hpatch
          rw [hdiff] at hpatch
          dsimp only [Option.filter_none] at hpatch
          split_ifs at hpatch with hnone
          · cases hpatch
          · obtain ⟨diff, hdiffmem⟩ := List.exists_mem_of_ne_nil _ hnone
            obtain ⟨hmem, htrim⟩ := List.mem_filter.mp hdiffmem
            obtain ⟨change, hchange, rfl⟩ := List.mem_map.mp hmem
            refine ⟨change, hchange, ?_⟩
            rw [decide_eq_true_eq] at htrim ⊢
            intro hempty
            rw [hempty] at htrim
            exact htrim (by decide)
        · exact ⟨change, hmem, by simpa using hne⟩
    obtain ⟨value, hsome⟩ := Option.isSome_iff_exists.mp hsome
    rw [← hvalue] at hsome
    obtain ⟨inline, chunks, h, -⟩ :=
      assembled_whole threadId hid hfield hsome (hlength value hsome) hresponse
    exact ⟨inline, chunks, h⟩
  · intro inline chunks h
    have hwhole := assembled_eq hid hfield hlength hresponse h
    rw [hvalue] at hwhole
    constructor
    · intro diff hdiff htrim
      rw [hdiff, Option.some_or, Option.map_some] at hwhole
      have hfilter : (some diff).filter (fun value => trim value ≠ "") = some diff := by
        rw [Option.filter_some, if_pos (by simpa using htrim)]
      refine ⟨(Option.some.inj hwhole).symm, ?_⟩
      unfold patchForApply
      rw [hdiff, hfilter]
    · intro hdiff
      rw [hdiff, Option.none_or] at hwhole
      constructor
      · intro change hmem hne
        rw [combinedDiff_eq hmem hne, Option.map_some] at hwhole
        rw [← Option.some.inj hwhole]
        apply infix_intercalate
        rw [List.mem_filter]
        exact ⟨List.mem_map_of_mem hmem, by simpa using hne⟩
      · intro hplain
        rw [← combinedDiff_eq_patch hplain hdiff, hwhole]

def turnDiff : TranscriptEntryView :=
  { itemId := some "turn-diff:turn-1", kind := .toolCall, text := some "Edited files"
    status := "completed", turnId := some "turn-1"
    tool := some
      { itemType := "turnDiff", name := "turn_diff", title := "Changed files"
        diff := some "@@ big joined diff @@"
        fileChanges := [⟨"src/a.rs", "modify", "-old\n+new"⟩] } }

theorem shown_diff_is_applied_turn_diff :
    ∃ response, fromEntry "thread-1" turnDiff = .ok response ∧
      ∃ inline chunks, Assembled "thread-1" turnDiff "tool.diff" response inline chunks ∧
        assembledText inline chunks = "@@ big joined diff @@".toList := by
  obtain ⟨response, hresponse, hthere, hshown⟩ :=
    shown_diff_is_applied "thread-1" (rfl : turnDiff.itemId = some "turn-diff:turn-1") rfl rfl
      (by
        intro value h
        rw [← Option.some.inj h]
        decide)
  obtain ⟨inline, chunks, hassembled⟩ := hthere (Or.inl (by decide))
  obtain ⟨hentry, -⟩ := hshown inline chunks hassembled
  exact ⟨response, hresponse, inline, chunks, hassembled, (hentry _ rfl (by decide)).1⟩

/-- The diff of a file that the diff of the turn does not hold is not shown. -/
theorem file_diff_not_shown :
    ∃ response inline chunks, fromEntry "thread-1" turnDiff = .ok response ∧
      Assembled "thread-1" turnDiff "tool.diff" response inline chunks ∧
      ∃ tool change, turnDiff.tool = some tool ∧ change ∈ tool.fileChanges ∧
        trim change.diff ≠ "" ∧ ¬ change.diff.toList <:+: assembledText inline chunks := by
  refine ⟨_, "@@ big joined diff @@", [], rfl, ⟨rfl, Fetches.done⟩, _,
    ⟨"src/a.rs", "modify", "-old\n+new"⟩, rfl, by simp, by decide, ?_⟩
  have htext : assembledText "@@ big joined diff @@" [] = "@@ big joined diff @@".toList := rfl
  rw [htext]
  decide

end shown

end AgentRelay.Relay
