import AgentRelay.ClaudeLive
import AgentRelay.PrependedHistory

/-! A session that is read in pages, from its end. A page boundary between the request of a tool call
and its result leaves a stub on the newer page, which the older page completes. -/
namespace AgentRelay.Session
open Text Wire Relay

section pages

structure HistoryPage where
  messages : List SdkMessage
  requestedCursor : Option ℕ
  prevCursor : Option ℕ

def prependPages (library : Library) (cwd : Option String) (runtime : ThreadRuntime) :
    List HistoryPage → Option ThreadRuntime
  | [] => some runtime
  | page :: pages => do
    let runtime ← prependPages library cwd runtime pages
    runtime.prependProviderHistory (mapSessionMessages library page.messages cwd)
      page.requestedCursor page.prevCursor

def requestIds (message : SdkMessage) : List String :=
  if message.type = .assistant then toolUseIds message.content.blockList else []

def resultIds (message : SdkMessage) : List String :=
  if message.type = .user then message.content.blockList.filterMap fun
    | .toolResult (some id) _ _ => if id = "" then none else some id
    | _ => none
  else []

/-- The messages of a session: different uuids, different tool calls, and for each of them one
result at most, which comes later. -/
structure History (messages : List SdkMessage) : Prop where
  named : ∀ message ∈ messages, message.uuid ≠ ""
  distinct : (messages.map (·.uuid)).Nodup
  requests : (messages.flatMap requestIds).Nodup
  results : (messages.flatMap resultIds).Nodup
  ordered : messages.Pairwise fun earlier later => ∀ id ∈ requestIds later, id ∉ resultIds earlier

def shown (tool : ToolCallView) : String × String × String × Option String × Option String ×
    List FileChangeDiffView × Option String :=
  (tool.itemType, tool.name, tool.title, tool.path, tool.diff, tool.fileChanges,
    tool.resultPreview)

structure Unsplit (whole : List TranscriptEntryView) (transcript : List TranscriptRecord) :
    Prop where
  ids : (transcript.map fun record => some record.itemId).Perm (whole.map (·.itemId))
  once : (transcript.map (·.itemId)).Nodup
  same : ∀ record ∈ transcript, ∀ entry ∈ whole, entry.itemId = some record.itemId →
    record.kind = entry.kind ∧ record.text = entry.text ∧ record.status = entry.status ∧
      record.tool.map shown = entry.tool.map shown

/-- The heading of a request outlives the merge into the stub that its result left: a name, and a
title that is not the bare name where "Tool" is not either. -/
def KeepsHeading (tool : ToolCallView) : Prop :=
  trim tool.name ≠ "" ∧ trim tool.title ≠ "" ∧
    (isGenericToolTitle tool.title tool.name → isGenericToolTitle "Tool" tool.name)

end pages

section changes
variable (library : Library) (cwd : Option String)

/-- The changes of a message with a uuid; its place does not matter. -/
def messageOps (message : SdkMessage) : List Op := opsOf library cwd (message, 0)

theorem opsOf_index {message : SdkMessage} (h : message.uuid ≠ "") (index : ℕ) :
    opsOf library cwd (message, index) = messageOps library cwd message := by
  simp only [messageOps, opsOf, orElse, h, if_false]

theorem opsOf_messages {messages : List SdkMessage} (h : ∀ message ∈ messages, message.uuid ≠ "") :
    messages.zipIdx.flatMap (opsOf library cwd) = messages.flatMap (messageOps library cwd) := by
  have hitems : messages.zipIdx.flatMap (opsOf library cwd) =
      messages.zipIdx.flatMap fun item => messageOps library cwd item.1 := by
    rw [List.flatMap_def, List.flatMap_def]
    congr 1
    exact List.map_congr_left fun item hitem =>
      opsOf_index library cwd (h item.1 (List.fst_mem_of_mem_zipIdx hitem)) item.2
  rw [hitems, ← List.flatMap_map, List.zipIdx_map_fst]

def itemOps (key : ItemKey) (messages : List SdkMessage) : List Op :=
  (messages.flatMap (messageOps library cwd)).filter fun op => op.key = key

theorem itemOps_append (key : ItemKey) (messages more : List SdkMessage) :
    itemOps library cwd key (messages ++ more) =
      itemOps library cwd key messages ++ itemOps library cwd key more := by
  simp [itemOps]

theorem itemEntries_ops {messages : List SdkMessage}
    (h : ∀ message ∈ messages, message.uuid ≠ "") (key : ItemKey) :
    itemEntries (mapSessionMessages library messages cwd) key =
      (itemOps library cwd key messages).foldl Op.onItem [] := by
  rw [itemEntries_messages, opsOf_messages library cwd h, itemOps]

theorem mem_messageOps_put {message : SdkMessage} {id : String} {entry : TranscriptEntryView} :
    .put (.tool id) entry ∈ messageOps library cwd message → message.type = .assistant ∧
      ∃ name input turnId, .toolUse id name input ∈ message.content.blockList ∧
        entry = requestEntry id turnId (mapToolCall library name input false cwd) := by
  have htext : ∀ text key entry', (∀ other, key ≠ ItemKey.tool other) →
      .put (.tool id) entry ∉ textOp text (.put key entry') := by
    intro text key entry' hkey hmem
    unfold textOp at hmem
    split_ifs at hmem
    · cases hmem
    · exact hkey id (Op.put.inj (List.mem_singleton.mp hmem)).1.symm
  intro hmem
  obtain ⟨type, uuid, content, isReplay, error⟩ := message
  cases type with
  | user =>
    rcases List.mem_append.mp hmem with hblock | hput
    · obtain ⟨block, -, hblock⟩ := List.mem_filterMap.mp hblock
      unfold userBlockOp at hblock
      split at hblock
      · split_ifs at hblock
        cases hblock
      · cases hblock
    · exact absurd hput (htext _ _ _ fun _ => ItemKey.noConfusion)
  | assistant =>
    refine ⟨rfl, ?_⟩
    rcases List.mem_append.mp hmem with hput | hblock
    · exact absurd hput (htext _ _ _ fun _ => ItemKey.noConfusion)
    · obtain ⟨block, hrequest, hblock⟩ := List.mem_filterMap.mp hblock
      unfold assistantBlockOp at hblock
      split at hblock
      · cases hblock
        exact ⟨_, _, _, hrequest, rfl⟩
      · cases hblock
  | other => cases hmem

theorem mem_messageOps_request {message : SdkMessage} (h : message.type = .assistant) {id : String}
    {name : Option String} {input : Json}
    (hblock : .toolUse id name input ∈ message.content.blockList) :
    ∃ turnId, .put (.tool id) (requestEntry id turnId (mapToolCall library name input false cwd)) ∈
      messageOps library cwd message := by
  obtain ⟨type, uuid, content, isReplay, error⟩ := message
  cases h
  exact ⟨_, List.mem_append_right _ (List.mem_filterMap.mpr ⟨_, hblock, rfl⟩)⟩

theorem mem_messageOps_result {message : SdkMessage} {id : String} :
    (∃ preview isError, .result id preview isError ∈ messageOps library cwd message) ↔
      id ∈ resultIds message := by
  have htext : ∀ text key entry' preview isError,
      .result id preview isError ∉ textOp text (.put key entry') := by
    intro text key entry' preview isError hmem
    unfold textOp at hmem
    split_ifs at hmem
    · cases hmem
    · cases List.mem_singleton.mp hmem
  obtain ⟨type, uuid, content, isReplay, error⟩ := message
  cases type with
  | user =>
    constructor
    · rintro ⟨preview, isError, hmem⟩
      rcases List.mem_append.mp hmem with hblock | hput
      · obtain ⟨block, hmem, hblock⟩ := List.mem_filterMap.mp hblock
        refine List.mem_filterMap.mpr ⟨block, hmem, ?_⟩
        unfold userBlockOp at hblock
        split at hblock
        · split_ifs at hblock with hid
          cases hblock
          exact if_neg hid
        · cases hblock
      · exact absurd hput (htext _ _ _ _ _)
    · intro hmem
      obtain ⟨block, hmem, hblock⟩ := List.mem_filterMap.mp (show id ∈ List.filterMap _ _ from hmem)
      split at hblock
      · split_ifs at hblock with hid
        cases hblock
        exact ⟨_, _, List.mem_append_left _ (List.mem_filterMap.mpr ⟨_, hmem, if_neg hid⟩)⟩
      · cases hblock
  | assistant =>
    refine iff_of_false ?_ (by simp [resultIds])
    rintro ⟨preview, isError, hmem⟩
    rcases List.mem_append.mp hmem with hput | hblock
    · exact htext _ _ _ _ _ hput
    · obtain ⟨block, -, hblock⟩ := List.mem_filterMap.mp hblock
      unfold assistantBlockOp at hblock
      split at hblock <;> cases hblock
  | other =>
    refine iff_of_false ?_ (by simp [resultIds])
    rintro ⟨preview, isError, hmem⟩
    cases hmem

def isResult : Op → Bool
  | .put .. => false
  | .result .. => true

/-- Of two changes of one item, the first is its request and the second its result. -/
def Follows (earlier later : Op) : Prop :=
  earlier.key = later.key → isResult earlier = false ∧ isResult later = true

/-- What a message may name: itself, its requests and its results. -/
def Names (message : SdkMessage) : Op → Prop
  | .put (.tool id) _ => id ∈ requestIds message
  | .put (.user id) _ | .put (.assistant id) _ => id = message.uuid
  | .result id _ _ => id ∈ resultIds message

theorem messageOps_user {message : SdkMessage} (h : message.type = .user)
    (huuid : message.uuid ≠ "") :
    ∃ own : List Op, (own = [] ∨ ∃ entry, own = [.put (.user message.uuid) entry]) ∧
      messageOps library cwd message =
        message.content.blockList.filterMap (userBlockOp library) ++ own := by
  obtain ⟨type, uuid, content, isReplay, error⟩ := message
  cases h
  refine ⟨_, ?_, rfl⟩
  dsimp only [orElse]
  rw [if_neg huuid, textOp]
  split_ifs
  · exact Or.inl rfl
  · exact Or.inr ⟨_, rfl⟩

theorem messageOps_assistant {message : SdkMessage} (h : message.type = .assistant)
    (huuid : message.uuid ≠ "") :
    ∃ own : List Op, (own = [] ∨ ∃ entry, own = [.put (.assistant message.uuid) entry]) ∧
      messageOps library cwd message = own ++
        message.content.blockList.filterMap (assistantBlockOp library cwd message.uuid) := by
  obtain ⟨type, uuid, content, isReplay, error⟩ := message
  cases h
  refine ⟨textOp (textFromContent library content) (.put (.assistant uuid)
    (textEntry ("assistant:" ++ uuid) .agentText (textFromContent library content) uuid)),
    ?_, ?_⟩
  · unfold textOp
    split_ifs
    · exact Or.inl rfl
    · exact Or.inr ⟨_, rfl⟩
  · simp only [messageOps, opsOf, orElse, show uuid ≠ "" from huuid, if_false]

theorem userBlocks_keys (message : SdkMessage) (h : message.type = .user) :
    (message.content.blockList.filterMap (userBlockOp library)).map Op.key =
      (resultIds message).map ItemKey.tool := by
  rw [resultIds, if_pos h, List.map_filterMap, List.map_filterMap]
  refine List.filterMap_congr fun block _ => ?_
  cases block with
  | toolResult id content isError =>
    cases id with
    | none => rfl
    | some id => by_cases hid : id = "" <;> simp [userBlockOp, hid, Op.key]
  | _ => rfl

theorem assistantBlocks_keys (message : SdkMessage) (h : message.type = .assistant) :
    (message.content.blockList.filterMap (assistantBlockOp library cwd message.uuid)).map Op.key =
      (requestIds message).map ItemKey.tool := by
  rw [requestIds, if_pos h, toolUseIds, List.map_filterMap, List.map_filterMap]
  refine List.filterMap_congr fun block _ => ?_
  cases block <;> rfl

theorem key_of_mem {message : SdkMessage} (huuid : message.uuid ≠ "") {op : Op}
    (hop : op ∈ messageOps library cwd message) :
    (∃ id, op.key = .tool id) ∨ op.key = .user message.uuid ∨ op.key = .assistant message.uuid := by
  cases htype : message.type with
  | user =>
    obtain ⟨own, hown, hops⟩ := messageOps_user library cwd htype huuid
    rw [hops] at hop
    rcases List.mem_append.mp hop with hblock | hput
    · have hkey := List.mem_map_of_mem (f := Op.key) hblock
      rw [userBlocks_keys library message htype] at hkey
      obtain ⟨id, -, hid⟩ := List.mem_map.mp hkey
      exact Or.inl ⟨id, hid.symm⟩
    · rcases hown with rfl | ⟨entry, rfl⟩
      · cases hput
      · rw [List.mem_singleton.mp hput]
        exact Or.inr (Or.inl rfl)
  | assistant =>
    obtain ⟨own, hown, hops⟩ := messageOps_assistant library cwd htype huuid
    rw [hops] at hop
    rcases List.mem_append.mp hop with hput | hblock
    · rcases hown with rfl | ⟨entry, rfl⟩
      · cases hput
      · rw [List.mem_singleton.mp hput]
        exact Or.inr (Or.inr rfl)
    · have hkey := List.mem_map_of_mem (f := Op.key) hblock
      rw [assistantBlocks_keys library cwd message htype] at hkey
      obtain ⟨id, -, hid⟩ := List.mem_map.mp hkey
      exact Or.inl ⟨id, hid.symm⟩
  | other =>
    obtain ⟨type, uuid, content, isReplay, error⟩ := message
    cases htype
    cases hop

theorem names_of_mem {message : SdkMessage} (huuid : message.uuid ≠ "") {op : Op}
    (hop : op ∈ messageOps library cwd message) : Names message op := by
  cases op with
  | result id preview isError => exact (mem_messageOps_result library cwd).mp ⟨_, _, hop⟩
  | put key entry =>
    cases key with
    | tool id =>
      obtain ⟨htype, name, input, turnId, hblock, -⟩ := mem_messageOps_put library cwd hop
      rw [Names, requestIds, if_pos htype]
      exact List.mem_filterMap.mpr ⟨_, hblock, rfl⟩
    | user id => simpa [Op.key, Names] using key_of_mem library cwd huuid hop
    | assistant id => simpa [Op.key, Names] using key_of_mem library cwd huuid hop

theorem keys_nodup {message : SdkMessage} (huuid : message.uuid ≠ "")
    (hrequests : (requestIds message).Nodup) (hresults : (resultIds message).Nodup) :
    ((messageOps library cwd message).map Op.key).Nodup := by
  have htool : Function.Injective ItemKey.tool := fun _ _ h => ItemKey.tool.inj h
  cases htype : message.type with
  | user =>
    obtain ⟨own, hown, hops⟩ := messageOps_user library cwd htype huuid
    rw [hops, List.map_append, userBlocks_keys library message htype]
    rcases hown with rfl | ⟨entry, rfl⟩
    · simpa using hresults.map htool
    · simp [Op.key, List.nodup_append, hresults.map htool]
  | assistant =>
    obtain ⟨own, hown, hops⟩ := messageOps_assistant library cwd htype huuid
    rw [hops, List.map_append, assistantBlocks_keys library cwd message htype]
    rcases hown with rfl | ⟨entry, rfl⟩
    · simpa using hrequests.map htool
    · simp [Op.key, hrequests.map htool]
  | other =>
    obtain ⟨type, uuid, content, isReplay, error⟩ := message
    cases htype
    exact List.nodup_nil

theorem ops_follow {messages : List SdkMessage} (h : History messages) :
    (messages.flatMap (messageOps library cwd)).Pairwise Follows := by
  obtain ⟨hrequest, hrequests⟩ := List.nodup_flatMap.mp h.requests
  obtain ⟨hresult, hresults⟩ := List.nodup_flatMap.mp h.results
  have hdistinct := List.pairwise_map.mp h.distinct
  rw [List.pairwise_flatMap]
  constructor
  · intro message hmessage
    have hkeys := keys_nodup library cwd (h.named message hmessage) (hrequest message hmessage)
      (hresult message hmessage)
    exact (List.pairwise_map.mp hkeys).imp fun hne heq => absurd heq hne
  · refine (((hdistinct.and hrequests).and hresults).and h.ordered).imp_of_mem ?_
    rintro first second hfirst hsecond ⟨⟨⟨huuid, hrequests⟩, hresults⟩, hordered⟩ x hx y hy hkey
    have hx := names_of_mem library cwd (h.named first hfirst) hx
    have hy := names_of_mem library cwd (h.named second hsecond) hy
    cases x with
    | put key entry =>
      cases y with
      | result id preview isError => exact ⟨rfl, rfl⟩
      | put other entry' =>
        cases (show key = other from hkey)
        cases key with
        | tool id => exact absurd hy (hrequests hx)
        | user id => exact absurd ((show id = _ from hx).symm.trans hy) huuid
        | assistant id => exact absurd ((show id = _ from hx).symm.trans hy) huuid
    | result id preview isError =>
      cases y with
      | result other preview' isError' =>
        cases ItemKey.tool.inj hkey
        exact absurd hy (hresults hx)
      | put key entry =>
        cases (show ItemKey.tool id = key from hkey)
        exact absurd hx (hordered id hy)

theorem itemOps_cases {messages : List SdkMessage}
    (h : (messages.flatMap (messageOps library cwd)).Pairwise Follows) (key : ItemKey) :
    itemOps library cwd key messages = [] ∨ (∃ op, itemOps library cwd key messages = [op]) ∨
      ∃ request result, itemOps library cwd key messages = [request, result] ∧
        isResult request = false ∧ isResult result = true := by
  have hkeys : ∀ op ∈ itemOps library cwd key messages, op.key = key := fun op hop =>
    of_decide_eq_true (List.mem_filter.mp hop).2
  have hpairs : (itemOps library cwd key messages).Pairwise fun earlier later =>
      isResult earlier = false ∧ isResult later = true :=
    (h.filter _).imp_of_mem fun hx hy hfollows =>
      hfollows ((hkeys _ hx).trans (hkeys _ hy).symm)
  match itemOps library cwd key messages, hpairs with
  | [], _ => exact Or.inl rfl
  | [op], _ => exact Or.inr (Or.inl ⟨op, rfl⟩)
  | [request, result], hpairs =>
    obtain ⟨hfirst, -⟩ := List.pairwise_cons.mp hpairs
    exact Or.inr (Or.inr ⟨request, result, rfl, hfirst result List.mem_cons_self⟩)
  | first :: second :: third :: rest, hpairs =>
    obtain ⟨hfirst, hrest⟩ := List.pairwise_cons.mp hpairs
    have hsecond := (hfirst second (by simp)).2
    have hput := ((List.pairwise_cons.mp hrest).1 third (by simp)).1
    rw [hsecond] at hput
    cases hput

end changes

section items

def recordOf (entry : TranscriptEntryView) : TranscriptRecord :=
  { itemId := entry.itemId.getD "", kind := entry.kind, text := entry.text, status := entry.status
    turnId := entry.turnId, tool := entry.tool }

def itemRecords (records : List TranscriptRecord) (key : ItemKey) : List TranscriptRecord :=
  records.filter (·.itemId = key.itemId)

def Keyed (ids : List (Option String)) : Prop := ∀ id ∈ ids, ∃ key : ItemKey, id = some key.itemId

theorem keyed_foldl (ops : List Op) (hops : ∀ op ∈ ops, op.Proper) {replay : Replay}
    (h : Keyed (replay.entries.map (·.itemId))) :
    Keyed ((ops.foldl Op.apply replay).entries.map (·.itemId)) := by
  have hconcat : ∀ (replay : Replay) (entry : TranscriptEntryView) (key : ItemKey),
      Keyed (replay.entries.map (·.itemId)) → entry.itemId = some key.itemId →
        Keyed ((replay.entries ++ [entry]).map (·.itemId)) := by
    intro replay entry key h hentry id hid
    rw [List.map_append, List.mem_append] at hid
    rcases hid with hid | hid
    · exact h id hid
    · exact ⟨key, (List.mem_singleton.mp hid).trans hentry⟩
  induction ops generalizing replay with
  | nil => exact h
  | cons op ops ih =>
    refine ih (fun other hother => hops other (List.mem_cons_of_mem _ hother)) ?_
    have hop := hops op List.mem_cons_self
    cases op with
    | put key entry => cases key <;> exact hconcat replay entry _ h hop
    | result id preview isError =>
      rw [Op.apply]
      unfold Replay.upsertToolResult
      split
      · exact h
      · exact h
      · split
        · have hids := map_itemId_modify replay.entries ‹ℕ› (f := settle preview isError) fun _ => rfl
          dsimp only
          rw [hids]
          exact h
        · exact hconcat replay _ (.tool _) h rfl

variable (library : Library) (cwd : Option String)

theorem keyed_messages (messages : List SdkMessage) :
    Keyed ((mapSessionMessages library messages cwd).map (·.itemId)) := by
  rw [mapSessionMessages_eq]
  refine keyed_foldl _ (fun op hop => ?_) fun id hid => by cases hid
  obtain ⟨item, -, hop⟩ := List.mem_flatMap.mp hop
  exact properOps library cwd item op hop

theorem providerHistoryRecords_eq {entries : List TranscriptEntryView}
    (h : Keyed (entries.map (·.itemId))) (requestedCursor : Option ℕ) :
    providerHistoryRecords entries requestedCursor = entries.map recordOf := by
  have hzip : entries.map recordOf = entries.zipIdx.map fun item => recordOf item.1 := by
    conv_lhs => rw [← List.zipIdx_map_fst 0 entries, List.map_map]
    rfl
  rw [hzip, providerHistoryRecords]
  refine List.map_congr_left fun item hitem => ?_
  obtain ⟨key, hkey⟩ := h item.1.itemId
    (List.mem_map_of_mem (List.fst_mem_of_mem_zipIdx hitem))
  simp [recordOf, hkey]

theorem itemRecords_map {entries : List TranscriptEntryView}
    (h : Keyed (entries.map (·.itemId))) (key : ItemKey) :
    itemRecords (entries.map recordOf) key = (itemEntries entries key).map recordOf := by
  rw [itemRecords, itemEntries, List.filter_map]
  congr 1
  refine List.filter_congr fun entry hentry => ?_
  obtain ⟨other, hother⟩ := h entry.itemId (List.mem_map_of_mem hentry)
  simp [recordOf, hother]

theorem nodup_of_items {entries : List TranscriptEntryView} (h : Keyed (entries.map (·.itemId)))
    (hone : ∀ key, (itemEntries entries key).length ≤ 1) : (entries.map (·.itemId)).Nodup := by
  rw [List.nodup_iff_count_le_one]
  intro id
  by_cases hid : id ∈ entries.map (·.itemId)
  · obtain ⟨key, rfl⟩ := h id hid
    refine le_trans (le_of_eq ?_) (hone key)
    rw [itemEntries, List.count, List.countP_map, List.countP_eq_length_filter]
    congr 1
    exact List.filter_congr fun entry _ => by simp [beq_eq_decide]
  · rw [List.count_eq_zero_of_not_mem hid]
    exact Nat.zero_le 1

theorem itemRecords_eq_nil {records : List TranscriptRecord} {key : ItemKey} :
    itemRecords records key = [] ↔ key.itemId ∉ records.map (·.itemId) := by
  rw [itemRecords, List.filter_eq_nil_iff]
  simp only [decide_eq_true_eq, List.mem_map, not_exists, not_and]

theorem itemRecords_prepended (records transcript : List TranscriptRecord) (key : ItemKey) :
    itemRecords (prepended records transcript) key =
      if itemRecords transcript key = [] then itemRecords records key
      else (itemRecords transcript key).map fun record =>
        { record with tool := mergeAll record.tool ((itemRecords records key).map (·.tool)) } := by
  have hold : itemRecords (transcript.map (absorb records)) key =
      (itemRecords transcript key).map fun record =>
        { record with tool := mergeAll record.tool ((itemRecords records key).map (·.tool)) } := by
    rw [itemRecords, List.filter_map]
    refine List.map_congr_left fun record hrecord => ?_
    have hid : record.itemId = key.itemId := of_decide_eq_true (List.mem_filter.mp hrecord).2
    rw [absorb, toolsOf, hid]
    rfl
  have hnew : itemRecords (newRecords records transcript) key =
      if itemRecords transcript key = [] then itemRecords records key else [] := by
    have hiff : itemRecords transcript key = [] ↔ key.itemId ∉ transcript.map (·.itemId) :=
      itemRecords_eq_nil
    rw [itemRecords, newRecords, List.filter_filter]
    split_ifs with habsent
    · rw [hiff] at habsent
      refine List.filter_congr fun record _ => ?_
      by_cases hid : record.itemId = key.itemId
      · simpa [hid] using habsent
      · simp [hid]
    · rw [hiff, not_not] at habsent
      rw [List.filter_eq_nil_iff]
      intro record _ hboth
      simp only [Bool.and_eq_true, decide_eq_true_eq] at hboth
      exact hboth.2 (hboth.1 ▸ habsent)
  rw [prepended, itemRecords, List.filter_append]
  refine (congrArg₂ _ hnew hold).trans ?_
  split_ifs with habsent
  · rw [habsent, List.map_nil, List.append_nil]
  · rw [List.nil_append]

end items

section folding
variable (library : Library) (cwd : Option String) (key : ItemKey)

def pageRecords : List HistoryPage → List TranscriptRecord
  | [] => []
  | page :: pages =>
    let entries := (itemOps library cwd key page.messages).foldl Op.onItem []
    if pageRecords pages = [] then entries.map recordOf
    else (pageRecords pages).map fun record =>
      { record with tool := mergeAll record.tool (entries.map (·.tool)) }

theorem onItem_length {messages : List SdkMessage}
    (h : (messages.flatMap (messageOps library cwd)).Pairwise Follows) :
    ((itemOps library cwd key messages).foldl Op.onItem []).length =
      if itemOps library cwd key messages = [] then 0 else 1 := by
  rcases itemOps_cases library cwd h key with hops | ⟨op, hops⟩ |
    ⟨request, result, hops, hrequest, hresult⟩
  · rw [hops]
    rfl
  · rw [hops]
    cases op <;> rfl
  · rw [hops]
    cases request with
    | result id preview isError => cases hrequest
    | put other entry =>
      cases result with
      | put other entry => cases hresult
      | result id preview isError => rfl

/-- What reading the pages comes to, for each item. -/
theorem prependPages_spec {runtime : ThreadRuntime} (hempty : runtime.transcript = [])
    (pages : List HistoryPage)
    (hnamed : ∀ message ∈ pages.flatMap (·.messages), message.uuid ≠ "")
    (h : ((pages.flatMap (·.messages)).flatMap (messageOps library cwd)).Pairwise Follows) :
    ∃ runtime', prependPages library cwd runtime pages = some runtime' ∧
      (runtime'.transcript.map (·.itemId)).Nodup ∧
      Keyed (runtime'.transcript.map fun record => some record.itemId) ∧
      ∀ key, itemRecords runtime'.transcript key = pageRecords library cwd key pages := by
  induction pages with
  | nil => exact ⟨runtime, rfl, by simp [hempty], by simp [hempty, Keyed],
      fun key => by rw [hempty]; rfl⟩
  | cons page pages ih =>
    rw [List.flatMap_cons, List.flatMap_append, List.pairwise_append] at h
    rw [List.flatMap_cons, List.forall_mem_append] at hnamed
    obtain ⟨runtime', hrun, hnodup, hkeyed, hrecords⟩ := ih hnamed.2 h.2.1
    have hentries := keyed_messages library cwd page.messages
    have hpage := providerHistoryRecords_eq hentries page.requestedCursor
    have hone : ∀ key,
        (itemEntries (mapSessionMessages library page.messages cwd) key).length ≤ 1 := by
      intro key
      rw [itemEntries_ops library cwd hnamed.1, onItem_length library cwd key h.1]
      split_ifs <;> omega
    have hids : (((mapSessionMessages library page.messages cwd).map recordOf).map
        (·.itemId)).Nodup := by
      have hall := nodup_of_items hentries hone
      rw [List.map_map]
      refine (List.pairwise_map.mp hall).imp_of_mem (fun hx hy hne => ?_) |> List.pairwise_map.mpr
      obtain ⟨left, hleft⟩ := hentries _ (List.mem_map_of_mem hx)
      obtain ⟨right, hright⟩ := hentries _ (List.mem_map_of_mem hy)
      rw [hleft, hright] at hne
      simpa [recordOf, hleft, hright] using hne
    have hfresh : ((newRecords ((mapSessionMessages library page.messages cwd).map recordOf)
        runtime'.transcript).map (·.itemId)).Nodup :=
      hids.sublist (List.filter_sublist.map _)
    have hprepend := prepend_eq page.prevCursor hnodup (hpage.symm ▸ hfresh)
    rw [hpage] at hprepend
    refine ⟨_, by rw [prependPages, hrun]; exact hprepend, prepended_distinct hnodup hfresh, ?_, ?_⟩
    · intro id hid
      obtain ⟨record, hrecord, rfl⟩ := List.mem_map.mp hid
      rcases List.mem_append.mp hrecord with hnew | hold
      · obtain ⟨entry, hentry, rfl⟩ := List.mem_map.mp (List.mem_of_mem_filter hnew)
        obtain ⟨key, hkey⟩ := hentries _ (List.mem_map_of_mem hentry)
        exact ⟨key, by simp [recordOf, hkey]⟩
      · obtain ⟨old, hmem, rfl⟩ := List.mem_map.mp hold
        exact hkeyed _ (List.mem_map.mpr ⟨old, hmem, rfl⟩)
    · intro key
      dsimp only
      rw [itemRecords_prepended, hrecords, itemRecords_map hentries,
        itemEntries_ops library cwd hnamed.1, pageRecords, List.map_map]
      rfl

end folding

section merging

/-- Merging a request into the stub of its result gives what the request says, if and only if the
heading of the request outlives it. -/
theorem merge_shown_iff {stub tool : ToolCallView} {preview : String}
    (hstub : shown stub = ("toolCall", "tool", "Tool", none, none, [], some preview))
    (htype : trim tool.itemType ≠ "") (hresult : tool.resultPreview = none) :
    (mergeToolCallView (some stub) (some tool)).map shown =
      some (shown { tool with resultPreview := some preview }) ↔ KeepsHeading tool := by
  simp only [shown, Prod.mk.injEq] at hstub
  obtain ⟨-, hname, htitle, hpath, hdiff, hchanges, hpreview⟩ := hstub
  have hchanges' : (if tool.fileChanges.isEmpty = true then [] else tool.fileChanges) =
      tool.fileChanges := by
    cases tool.fileChanges <;> rfl
  have htool : trim "tool" ≠ "" := by decide
  have hTool : trim "Tool" ≠ "" := by decide
  simp only [mergeToolCallView, Option.map_some, shown, hname, htitle, hpath, hdiff, hchanges,
    hpreview, htype, hresult, if_false, Option.or_none, Option.none_or, hchanges',
    Option.some.injEq, Prod.mk.injEq, true_and, and_true]
  unfold KeepsHeading
  by_cases hblank : trim tool.name = ""
  · simp only [hblank, if_true, ne_eq, not_true_eq_false, false_and, iff_false, not_and]
    rintro heq
    rw [← heq] at hblank
    exact absurd hblank htool
  · simp only [hblank, if_false, true_and, ne_eq, not_false_eq_true]
    unfold selectToolTitle
    rw [if_neg hTool]
    by_cases hempty : trim tool.title = ""
    · simp only [hempty, if_true, not_true_eq_false, false_and, iff_false]
      intro heq
      rw [← heq] at hempty
      exact hTool hempty
    · simp only [hempty, if_false, not_false_eq_true, true_and]
      by_cases hgeneric : isGenericToolTitle tool.title tool.name
      · by_cases hkept : isGenericToolTitle "Tool" tool.name
        · simp [hgeneric, hkept]
        · rw [if_pos (by simp [hgeneric, hkept])]
          constructor
          · intro heq
            rw [heq] at hkept
            exact absurd hgeneric hkept
          · exact fun himp => absurd (himp hgeneric) hkept
      · simp [hgeneric]

end merging

section splitting
variable (library : Library) (cwd : Option String) (key : ItemKey)

def recordShown (record : TranscriptRecord) :=
  (record.kind, record.text, record.status, record.tool.map shown)

def entryShown (entry : TranscriptEntryView) :=
  (entry.kind, entry.text, entry.status, entry.tool.map shown)

def SplitKeeps (messages later : List SdkMessage) : Prop :=
  ∀ entry tool, .put key entry ∈ itemOps library cwd key messages → entry.tool = some tool →
    (∃ result ∈ itemOps library cwd key later, isResult result = true) → KeepsHeading tool

theorem forall_split_cons {α : Type} {C : α → List α → Prop} (page : α) (pages : List α) :
    (∀ earlier middle later, page :: pages = earlier ++ middle :: later → C middle later) ↔
      C page pages ∧
        ∀ earlier middle later, pages = earlier ++ middle :: later → C middle later := by
  constructor
  · intro h
    exact ⟨h [] page pages rfl, fun earlier middle later heq =>
      h (page :: earlier) middle later (by rw [heq]; rfl)⟩
  · rintro ⟨hfirst, hrest⟩ earlier middle later heq
    cases earlier with
    | nil =>
      cases heq
      exact hfirst
    | cons first earlier =>
      cases heq
      exact hrest earlier middle later rfl

theorem splitKeeps_of_nil {messages later : List SdkMessage}
    (h : itemOps library cwd key messages = [] ∨ itemOps library cwd key later = []) :
    SplitKeeps library cwd key messages later := by
  rintro entry tool hput - ⟨result, hresult, -⟩
  rcases h with h | h
  · rw [h] at hput
    cases hput
  · rw [h] at hresult
    cases hresult

theorem mem_itemOps_put {messages : List SdkMessage} {id : String} {entry : TranscriptEntryView}
    (h : .put (.tool id) entry ∈ itemOps library cwd (.tool id) messages) :
    ∃ name input turnId,
      entry = requestEntry id turnId (mapToolCall library name input false cwd) := by
  obtain ⟨message, -, hop⟩ := List.mem_flatMap.mp (List.mem_of_mem_filter h)
  obtain ⟨-, name, input, turnId, -, hentry⟩ := mem_messageOps_put library cwd hop
  exact ⟨name, input, turnId, hentry⟩

theorem key_of_itemOps {messages : List SdkMessage} {op : Op}
    (h : op ∈ itemOps library cwd key messages) : op.key = key :=
  of_decide_eq_true (List.mem_filter.mp h).2

theorem mapToolCall_itemType (name : Option String) (input : Json) (provisional : Bool) :
    trim (mapToolCall library name input provisional cwd).itemType ≠ "" := by
  have hcall : trim "toolCall" ≠ "" := by decide
  have hchange : trim "fileChange" ≠ "" := by decide
  unfold mapToolCall
  split
  · exact hchange
  · exact hcall

theorem completed_iff (turnId : String) {id preview : String} {isError : Bool} {tool : ToolCallView}
    {record : TranscriptRecord} (htype : trim tool.itemType ≠ "") (hnone : tool.resultPreview = none)
    (hrecord : recordShown record = entryShown (stubEntry id preview isError)) :
    recordShown { record with tool := mergeToolCallView record.tool (some tool) } =
      entryShown (settle preview isError (requestEntry id turnId tool)) ↔ KeepsHeading tool := by
  simp only [recordShown, entryShown, stubEntry, Prod.mk.injEq, Option.map_some] at hrecord
  obtain ⟨hkind, htext, hstatus, htool⟩ := hrecord
  obtain ⟨stub, hstub, hshown⟩ := Option.map_eq_some_iff.mp htool
  have hmerge : (mergeToolCallView (some stub) (some tool)).map shown =
      some (shown { tool with resultPreview := some preview }) ↔ KeepsHeading tool :=
    merge_shown_iff hshown htype hnone
  rw [← hmerge]
  simp [recordShown, entryShown, settle, requestEntry, hkind, htext, hstatus, hstub]

theorem request_result {first later : List Op}
    (h : first ++ later = [] ∨ (∃ op, first ++ later = [op]) ∨
      ∃ request result, first ++ later = [request, result] ∧
        isResult request = false ∧ isResult result = true)
    (hfirst : first ≠ []) (hlater : later ≠ []) :
    ∃ request result, first = [request] ∧ later = [result] ∧
      isResult request = false ∧ isResult result = true := by
  obtain ⟨request, rest, rfl⟩ := List.exists_cons_of_ne_nil hfirst
  obtain ⟨result, more, rfl⟩ := List.exists_cons_of_ne_nil hlater
  rcases h with hnil | ⟨op, hone⟩ | ⟨before, after, htwo, hboth⟩
  · cases hnil
  · simp at hone
  · cases rest with
    | nil =>
      simp only [List.cons_append, List.nil_append, List.cons.injEq] at htwo
      obtain ⟨rfl, rfl, rfl⟩ := htwo
      exact ⟨request, result, rfl, rfl, hboth⟩
    | cons other rest => simp at htwo

/-- The records of an item show what the whole session has for it, if and only if its request keeps
its heading across the pages. -/
theorem pageRecords_iff (pages : List HistoryPage)
    (h : ((pages.flatMap (·.messages)).flatMap (messageOps library cwd)).Pairwise Follows) :
    (pageRecords library cwd key pages).length =
        ((itemOps library cwd key (pages.flatMap (·.messages))).foldl Op.onItem []).length ∧
      ((pageRecords library cwd key pages).map recordShown =
        ((itemOps library cwd key (pages.flatMap (·.messages))).foldl Op.onItem []).map entryShown ↔
        ∀ earlier page later, pages = earlier ++ page :: later →
          SplitKeeps library cwd key page.messages (later.flatMap (·.messages))) := by
  induction pages with
  | nil => exact ⟨rfl, by simp [pageRecords, itemOps]⟩
  | cons page pages ih =>
    have hcases := itemOps_cases library cwd h key
    have hpairs := h
    rw [List.flatMap_cons, List.flatMap_append, List.pairwise_append] at hpairs
    obtain ⟨hlength, hsame⟩ := ih hpairs.2.1
    have hsplit := forall_split_cons page pages (C := fun page later =>
      SplitKeeps library cwd key page.messages (later.flatMap (·.messages)))
    rw [hsplit, ← hsame, List.flatMap_cons, itemOps_append, pageRecords]
    rw [List.flatMap_cons, itemOps_append] at hcases
    by_cases hlater : itemOps library cwd key (pages.flatMap (·.messages)) = []
    · have hnone : pageRecords library cwd key pages = [] :=
        List.length_eq_zero_iff.mp (by rw [hlength, hlater]; rfl)
      have hkeeps : SplitKeeps library cwd key page.messages (pages.flatMap (·.messages)) :=
        splitKeeps_of_nil library cwd key (Or.inr hlater)
      rw [hnone, hlater, List.append_nil, if_pos rfl, List.length_map, List.map_map]
      exact ⟨rfl, iff_of_true rfl ⟨hkeeps, rfl⟩⟩
    by_cases hfirst : itemOps library cwd key page.messages = []
    · have hkeeps : SplitKeeps library cwd key page.messages (pages.flatMap (·.messages)) :=
        splitKeeps_of_nil library cwd key (Or.inl hfirst)
      have hrecords : (if pageRecords library cwd key pages = [] then []
          else (pageRecords library cwd key pages).map fun record =>
            { record with tool := mergeAll record.tool [] }) = pageRecords library cwd key pages := by
        split_ifs with hnone
        · exact hnone.symm
        · exact List.map_id _
      rw [hfirst, List.nil_append, List.foldl_nil, List.map_nil, List.map_nil, hrecords]
      exact ⟨hlength, ⟨fun heq => ⟨hkeeps, heq⟩, fun hboth => hboth.2⟩⟩
    · obtain ⟨request, result, hrequest, hresult, hput, hres⟩ :=
        request_result hcases hfirst hlater
      have hinner : ∀ earlier page' later, pages = earlier ++ page' :: later →
          SplitKeeps library cwd key page'.messages (later.flatMap (·.messages)) := by
        rintro earlier page' later heq entry tool hmem - -
        have hall : Op.put key entry ∈ itemOps library cwd key (pages.flatMap (·.messages)) := by
          rw [heq, List.flatMap_append, List.flatMap_cons, itemOps_append, itemOps_append]
          exact List.mem_append_right _ (List.mem_append_left _ hmem)
        rw [hresult, List.mem_singleton] at hall
        rw [← hall] at hres
        cases hres
      have hstub := hsame.mpr hinner
      rw [hresult] at hlength hstub
      cases result with
      | put _ _ => cases hres
      | result id preview isError =>
        cases request with
        | result _ _ _ => cases hput
        | put key' entry =>
          have hmem : Op.put key' entry ∈ itemOps library cwd key page.messages := by
            rw [hrequest]
            exact List.mem_singleton_self _
          have hmem' : Op.result id preview isError ∈
              itemOps library cwd key (pages.flatMap (·.messages)) := by
            rw [hresult]
            exact List.mem_singleton_self _
          cases (show ItemKey.tool id = key from key_of_itemOps library cwd key hmem')
          cases (show key' = .tool id from key_of_itemOps library cwd _ hmem)
          obtain ⟨name, input, turnId, rfl⟩ := mem_itemOps_put library cwd hmem
          obtain ⟨record, hrecord⟩ := List.length_eq_one_iff.mp hlength
          rw [hrecord] at hstub
          have hiff := completed_iff turnId
            (mapToolCall_itemType library cwd name input false)
            (mapToolCall_resultPreview library name input false cwd) (List.cons.inj hstub).1
          have hkeeps : SplitKeeps library cwd (.tool id) page.messages
              (pages.flatMap (·.messages)) ↔
              KeepsHeading (mapToolCall library name input false cwd) := by
            constructor
            · intro hkeeps
              exact hkeeps _ _ hmem rfl ⟨_, hresult.symm ▸ List.mem_singleton_self _, rfl⟩
            · rintro hheading entry tool hput' htool -
              rw [hrequest, List.mem_singleton] at hput'
              cases hput'
              cases htool
              exact hheading
          rw [hrequest, hrecord, hresult, if_neg (List.cons_ne_nil _ _), hkeeps, ← hiff]
          refine ⟨rfl, ⟨fun heq => ⟨(List.cons.inj heq).1, hstub⟩, fun hboth => ?_⟩⟩
          exact congrArg (fun face => [face]) hboth.1

end splitting

section same
variable {whole : List TranscriptEntryView} {transcript : List TranscriptRecord}
  (hwhole : Keyed (whole.map (·.itemId)))
  (htranscript : Keyed (transcript.map fun record => some record.itemId))
  (hone : ∀ key, (itemEntries whole key).length ≤ 1)
  (hnodup : (transcript.map (·.itemId)).Nodup)
  (hlength : ∀ key, (itemRecords transcript key).length = (itemEntries whole key).length)
include hwhole htranscript hone hnodup hlength

theorem itemRecords_perm :
    (transcript.map fun record => some record.itemId).Perm (whole.map (·.itemId)) := by
  have hkeys : ∀ key : ItemKey, some key.itemId ∈ transcript.map (fun record => some record.itemId) ↔
      some key.itemId ∈ whole.map (·.itemId) := by
    intro key
    have habsent : itemRecords transcript key = [] ↔ itemEntries whole key = [] := by
      rw [← List.length_eq_zero_iff, hlength, List.length_eq_zero_iff]
    rw [itemRecords_eq_nil, itemEntries_eq_nil, not_iff_not] at habsent
    rw [← habsent]
    simp
  have hrecords : (transcript.map fun record => some record.itemId).Nodup := by
    have hsome := hnodup.map (Option.some_injective String)
    rwa [List.map_map] at hsome
  refine (List.perm_ext_iff_of_nodup hrecords (nodup_of_items hwhole hone)).mpr fun id => ?_
  constructor
  · intro hid
    obtain ⟨key, rfl⟩ := htranscript id hid
    exact (hkeys key).mp hid
  · intro hid
    obtain ⟨key, rfl⟩ := hwhole id hid
    exact (hkeys key).mpr hid

/-- Item by item, the transcript shows what the whole session has. -/
theorem unsplit_iff :
    Unsplit whole transcript ↔ ∀ key,
      (itemRecords transcript key).map recordShown = (itemEntries whole key).map entryShown := by
  constructor
  · intro hunsplit key
    have hkey := hlength key
    have hle := hone key
    match hentries : itemEntries whole key, hrecords : itemRecords transcript key with
    | [], [] => rfl
    | [entry], [record] =>
      have hrecord : record ∈ itemRecords transcript key := by simp [hrecords]
      have hentry : entry ∈ itemEntries whole key := by simp [hentries]
      obtain ⟨hrecord, hrecordId⟩ := List.mem_filter.mp hrecord
      obtain ⟨hentry, hentryId⟩ := List.mem_filter.mp hentry
      have hid : entry.itemId = some record.itemId := by
        rw [of_decide_eq_true hentryId, of_decide_eq_true hrecordId]
      obtain ⟨hkind, htext, hstatus, htool⟩ := hunsplit.same record hrecord entry hentry hid
      simp [recordShown, entryShown, hkind, htext, hstatus, htool]
    | [], _ :: _ => simp [hentries, hrecords] at hkey
    | _ :: _, [] => simp [hentries, hrecords] at hkey
    | _ :: _ :: _, _ => simp [hentries] at hle
    | _, _ :: _ :: _ =>
      rw [hrecords] at hkey
      simp at hkey
      omega
  · intro hshown
    refine ⟨itemRecords_perm hwhole htranscript hone hnodup hlength, hnodup, ?_⟩
    intro record hrecord entry hentry hid
    obtain ⟨key, hkey⟩ := htranscript _ (List.mem_map_of_mem hrecord)
    have hrecord' : record ∈ itemRecords transcript key :=
      List.mem_filter.mpr ⟨hrecord, decide_eq_true (Option.some.inj hkey)⟩
    have hentry' : entry ∈ itemEntries whole key :=
      List.mem_filter.mpr ⟨hentry, decide_eq_true (hid.trans hkey)⟩
    have hsame := hshown key
    have hone' := hone key
    obtain ⟨first, hfirst⟩ : ∃ first, itemEntries whole key = [first] :=
      List.length_eq_one_iff.mp (le_antisymm hone' (List.length_pos_of_mem hentry'))
    have hlength' := hlength key
    rw [hfirst] at hentry' hsame hlength'
    obtain ⟨only, honly⟩ := List.length_eq_one_iff.mp hlength'
    rw [honly] at hrecord' hsame
    cases List.mem_singleton.mp hrecord'
    cases List.mem_singleton.mp hentry'
    have hfaces := (List.cons.inj hsame).1
    simpa [recordShown, entryShown] using hfaces

end same

section agreement
variable (library : Library) (cwd : Option String) {pages : List HistoryPage}

theorem splits_iff : (∀ key earlier page later, pages = earlier ++ page :: later →
      SplitKeeps library cwd key page.messages (later.flatMap (·.messages))) ↔
    ∀ earlier page later, pages = earlier ++ page :: later →
      ∀ message ∈ page.messages, message.type = .assistant →
        ∀ id name input, .toolUse id name input ∈ message.content.blockList →
          id ∈ (later.flatMap (·.messages)).flatMap resultIds →
            KeepsHeading (mapToolCall library name input false cwd) := by
  constructor
  · intro hall earlier page later heq message hmessage htype id name input hblock hresult
    obtain ⟨turnId, hput⟩ := mem_messageOps_request library cwd htype hblock
    obtain ⟨answer, hanswer, hid⟩ := List.mem_flatMap.mp hresult
    obtain ⟨preview, isError, hop⟩ := (mem_messageOps_result library cwd).mpr hid
    have hmem : Op.put (.tool id) (requestEntry id turnId
        (mapToolCall library name input false cwd)) ∈
          itemOps library cwd (.tool id) page.messages :=
      List.mem_filter.mpr ⟨List.mem_flatMap.mpr ⟨message, hmessage, hput⟩, decide_eq_true rfl⟩
    have hres : Op.result id preview isError ∈
        itemOps library cwd (.tool id) (later.flatMap (·.messages)) :=
      List.mem_filter.mpr ⟨List.mem_flatMap.mpr ⟨answer, hanswer, hop⟩, decide_eq_true rfl⟩
    exact hall (.tool id) earlier page later heq _ _ hmem rfl ⟨_, hres, rfl⟩
  · rintro hall key earlier page later heq entry tool hput htool ⟨result, hresult, hisResult⟩
    cases result with
    | put _ _ => cases hisResult
    | result id preview isError =>
      cases (show ItemKey.tool id = key from key_of_itemOps library cwd key hresult)
      obtain ⟨message, hmessage, hop⟩ := List.mem_flatMap.mp (List.mem_of_mem_filter hput)
      obtain ⟨htype, name, input, turnId, hblock, rfl⟩ := mem_messageOps_put library cwd hop
      obtain ⟨answer, hanswer, hres⟩ := List.mem_flatMap.mp (List.mem_of_mem_filter hresult)
      have hid := (mem_messageOps_result library cwd).mp ⟨preview, isError, hres⟩
      cases htool
      exact hall earlier page later heq message hmessage htype id name input hblock
        (List.mem_flatMap.mpr ⟨answer, hanswer, hid⟩)

/-- Reading a session in pages gives what reading it whole gives, if and only if each tool call
whose result is on a later page than its request has a heading that outlives the stub. -/
theorem pages_unsplit_iff (h : History (pages.flatMap (·.messages))) {runtime : ThreadRuntime}
    (hempty : runtime.transcript = []) :
    (∃ runtime', prependPages library cwd runtime pages = some runtime' ∧
      Unsplit (mapSessionMessages library (pages.flatMap (·.messages)) cwd) runtime'.transcript) ↔
    ∀ earlier page later, pages = earlier ++ page :: later →
      ∀ message ∈ page.messages, message.type = .assistant →
        ∀ id name input, .toolUse id name input ∈ message.content.blockList →
          id ∈ (later.flatMap (·.messages)).flatMap resultIds →
            KeepsHeading (mapToolCall library name input false cwd) := by
  have hfollows := ops_follow library cwd h
  obtain ⟨runtime', hrun, hnodup, hkeyed, hrecords⟩ :=
    prependPages_spec library cwd hempty pages h.named hfollows
  have hwhole := keyed_messages library cwd (pages.flatMap (·.messages))
  have hentries := itemEntries_ops library cwd h.named
  have hone : ∀ key, (itemEntries (mapSessionMessages library (pages.flatMap (·.messages)) cwd)
      key).length ≤ 1 := by
    intro key
    rw [hentries, onItem_length library cwd key hfollows]
    split_ifs <;> omega
  have hitems := unsplit_iff hwhole hkeyed hone hnodup fun key => by
    rw [hrecords, hentries]
    exact (pageRecords_iff library cwd key pages hfollows).1
  have hkeeps : Unsplit (mapSessionMessages library (pages.flatMap (·.messages)) cwd)
      runtime'.transcript ↔ ∀ key earlier page later, pages = earlier ++ page :: later →
        SplitKeeps library cwd key page.messages (later.flatMap (·.messages)) := by
    rw [hitems]
    refine forall_congr' fun key => ?_
    rw [hrecords, hentries]
    exact (pageRecords_iff library cwd key pages hfollows).2
  rw [hrun]
  simp only [Option.some.injEq, exists_eq_left']
  rw [hkeeps]
  exact splits_iff library cwd

def splitCall (name : String) : List HistoryPage :=
  [{ messages := [{ type := .assistant, uuid := "m1"
                    content := .blocks [.toolUse "t1" (some name) (.object [])] }]
     requestedCursor := some 1, prevCursor := none },
   { messages := [{ type := .user, uuid := "m2"
                    content := .blocks [.toolResult (some "t1") (some (.string "ok")) false] }]
     requestedCursor := none, prevCursor := some 1 }]

/-- A command keeps the title of its stub: the title of its request is only its name. -/
theorem split_command_loses_title :
    (mapSessionMessages emptyInputs ((splitCall "Bash").flatMap (·.messages)) none).map
        (fun entry => (entry.itemId, entry.tool.map (·.title))) =
          [(some "tool:t1", some "Bash")] ∧
      (prependPages emptyInputs none (.placeholder "s1" 0 1) (splitCall "Bash")).map
        (·.transcript.map fun record => (record.itemId, record.tool.map (·.title))) =
          some [("tool:t1", some "Tool")] ∧
      ¬∃ runtime, prependPages emptyInputs none (.placeholder "s1" 0 1) (splitCall "Bash") =
        some runtime ∧ Unsplit (mapSessionMessages emptyInputs
          ((splitCall "Bash").flatMap (·.messages)) none) runtime.transcript := by
  have hwhole : (mapSessionMessages emptyInputs ((splitCall "Bash").flatMap (·.messages)) none).map
      (fun entry => (entry.itemId, entry.tool.map (·.title))) =
        [(some "tool:t1", some "Bash")] := by
    decide +kernel
  have hpaged : (prependPages emptyInputs none (.placeholder "s1" 0 1) (splitCall "Bash")).map
      (·.transcript.map fun record => (record.itemId, record.tool.map (·.title))) =
        some [("tool:t1", some "Tool")] := by
    decide +kernel
  refine ⟨hwhole, hpaged, ?_⟩
  rintro ⟨runtime, hrun, hunsplit⟩
  rw [hrun, Option.map_some, Option.some.injEq] at hpaged
  obtain ⟨record, hrecord, hpair⟩ := List.map_eq_singleton_iff.mp hpaged
  obtain ⟨entry, hentry, hpair'⟩ := List.map_eq_singleton_iff.mp hwhole
  obtain ⟨hid, hkept⟩ := Prod.mk.inj hpair
  obtain ⟨hid', htitle⟩ := Prod.mk.inj hpair'
  obtain ⟨-, -, -, hsame⟩ := hunsplit.same record (by simp [hrecord]) entry (by simp [hentry])
    (hid'.trans (congrArg some hid.symm))
  have htitles := congrArg (Option.map fun face => face.2.2.1) hsame
  rw [Option.map_map, Option.map_map] at htitles
  have heq := hkept.symm.trans (htitles.trans htitle)
  exact absurd heq (by decide)

/-- The title of a call of two words is not its name. -/
theorem split_words_keep_title :
    ∃ runtime, prependPages emptyInputs none (.placeholder "s1" 0 1) (splitCall "get_weather") =
        some runtime ∧
      Unsplit (mapSessionMessages emptyInputs ((splitCall "get_weather").flatMap (·.messages)) none)
        runtime.transcript := by
  refine (pages_unsplit_iff emptyInputs none ⟨?_, ?_, ?_, ?_, ?_⟩ rfl).mpr ?_
  · decide
  · decide
  · decide
  · decide
  · decide
  · have hwords : trim "get_weather" ≠ "" ∧ trim (toolTitle (some "get_weather")) ≠ "" ∧
        (isGenericToolTitle (toolTitle (some "get_weather")) "get_weather" →
          isGenericToolTitle "Tool" "get_weather") := by
      decide +kernel
    intro earlier page later heq message hmessage htype id name input hblock _
    have hpage : page ∈ splitCall "get_weather" := heq ▸ by simp
    simp only [splitCall, List.mem_cons, List.not_mem_nil, or_false] at hpage
    rcases hpage with rfl | rfl
    · cases List.mem_singleton.mp hmessage
      cases List.mem_singleton.mp hblock
      exact hwords
    · cases List.mem_singleton.mp hmessage
      cases htype

end agreement

end AgentRelay.Session
