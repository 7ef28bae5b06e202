import AgentRelay.SessionEntries
import AgentRelay.EntryDetail

/-! A Claude message as it is shown live and as it is read back from its session. The live reading
runs the texts of a message together, the stored one puts each on a line of its own. -/
namespace AgentRelay.Session
open Wire Relay

section readings

@[ext]
structure ToolState where
  status : String
  result : Option String
  deriving DecidableEq, Repr

def ToolState.running : ToolState := ⟨"running", none⟩

def liveStep (itemId : String) (tool : Option ToolState) : SdkEvent → Option ToolState
  | .toolCallRequested _ _ _ eventItemId _ status view =>
    if eventItemId = itemId then some ⟨status, view.resultPreview.or (tool.bind (·.result))⟩
    else tool
  | .toolCallResult id _ content isError =>
    if id.map ("tool:" ++ ·) = some itemId then
      some ⟨settledStatus isError, content.or (tool.bind (·.result))⟩
    else tool
  | .assistantMessage .. => tool

def entryState (entry : TranscriptEntryView) : ToolState :=
  ⟨entry.status, entry.tool.bind (·.resultPreview)⟩

def liveTexts (events : List SdkEvent) : List (Option String × Option String) :=
  events.filterMap fun
    | .assistantMessage itemId _ text _ => some (some itemId, some text)
    | _ => none

def storedTexts (entries : List TranscriptEntryView) : List (Option String × Option String) :=
  (entries.filter (·.kind = .agentText)).map fun entry => (entry.itemId, entry.text)

def toolUseIds (blocks : List Block) : List String :=
  blocks.filterMap fun
    | .toolUse id _ _ => some id
    | _ => none

/-- The live and the stored reading of a message and of the results that follow it agree: the
same assistant entry, and each tool call of the message under the same id in the same state. -/
structure Agree (library : Library) (cwd : Option String) (message : SdkMessage)
    (following : List SdkMessage) : Prop where
  texts : liveTexts ((message :: following).flatMap (mapSdkMessage library)) =
    storedTexts (mapSessionMessages library (message :: following) cwd)
  tools : ∀ id ∈ toolUseIds message.content.blockList,
    (∃ entry ∈ mapSessionMessages library (message :: following) cwd,
      entry.itemId = some ("tool:" ++ id)) ∧
    ∀ entry ∈ mapSessionMessages library (message :: following) cwd,
      entry.itemId = some ("tool:" ++ id) →
        ((message :: following).flatMap (mapSdkMessage library)).foldl
          (liveStep ("tool:" ++ id)) none = some (entryState entry)

def OneText (library : Library) (blocks : List Block) : Prop :=
  (blocks.filter fun block => blockText library block ≠ "").length ≤ 1 ∧
    ∀ block ∈ blocks, blockText library block ≠ "" → isText block

def concerns (id : String) : Block → Bool
  | .toolUse other _ _ => other = id
  | .toolResult other _ _ => other = some id
  | _ => false

def isToolUse : Block → Bool
  | .toolUse .. => true
  | _ => false

def Answered (id : String) (following : List SdkMessage) : Prop :=
  ∃ message ∈ following, ∃ content isError,
    Block.toolResult (some id) content isError ∈ message.content.blockList

/-- The message itself leaves the tool call without a result: what it says of one has no content,
and the call is asked for again after it. -/
structure LeftOpen (id : String) (blocks : List Block) : Prop where
  content : ∀ content isError, Block.toolResult (some id) content isError ∈ blocks → content = none
  asked : ∀ last ∈ (blocks.filter (concerns id)).getLast?, isToolUse last

end readings

section texts
variable (library : Library)

theorem join_filter (parts : List String) :
    String.join (parts.filter (· ≠ "")) = String.join parts := by
  induction parts with
  | nil => rfl
  | cons part parts ih =>
    by_cases hempty : part = ""
    · simpa [List.filter_cons, hempty, String.join_cons] using ih
    · simpa [List.filter_cons, hempty, String.join_cons] using ih

theorem liveText_length_le (block : Block) :
    (liveText block).length ≤ (blockText library block).length := by
  cases block <;> simp [liveText, blockText]

theorem liveText_of_isText {block : Block} (h : blockText library block ≠ "" → isText block) :
    liveText block = blockText library block := by
  by_cases hempty : blockText library block = ""
  · have hzero := liveText_length_le library block
    rw [hempty, String.length_empty] at hzero
    rw [hempty]
    exact String.length_eq_zero_iff.mp (Nat.le_zero.mp hzero)
  · have htext := h hempty
    cases block <;> simp_all [isText, liveText, blockText]

theorem liveText_of_not_isText {block : Block} (h : ¬isText block) : liveText block = "" := by
  cases block <;> simp_all [isText, liveText]

theorem join_parts_iff (blocks : List Block) :
    String.join (blocks.map liveText) = textFromContent library (.blocks blocks) ↔
      OneText library blocks := by
  have hparts : (blocks.filter fun block => blockText library block ≠ "").length =
      ((blocks.map (blockText library)).filter (· ≠ "")).length := by
    rw [List.filter_map, List.length_map]
    rfl
  have hstored : (textFromContent library (.blocks blocks)).length =
      (blocks.map fun block => (blockText library block).length).sum +
        (((blocks.map (blockText library)).filter (· ≠ "")).length - 1) := by
    have hsum := congrArg String.length (join_filter (blocks.map (blockText library)))
    rw [String.length_join, String.length_join, List.map_map] at hsum
    rw [textFromContent, length_intercalate, hsum]
    rfl
  have hlive : (String.join (blocks.map liveText)).length =
      (blocks.map fun block => (liveText block).length).sum := by
    rw [String.length_join, List.map_map]
    rfl
  have hbound : (blocks.map fun block => (liveText block).length).sum ≤
      (blocks.map fun block => (blockText library block).length).sum :=
    List.sum_le_sum fun block _ => liveText_length_le library block
  unfold OneText
  rw [hparts]
  constructor
  · intro heq
    have hlength := congrArg String.length heq
    rw [hlive, hstored] at hlength
    refine ⟨by omega, fun block hblock hne => ?_⟩
    by_contra htext
    have hpos : 0 < (blockText library block).length := by
      rw [Nat.pos_iff_ne_zero]
      exact fun hzero => hne (String.length_eq_zero_iff.mp hzero)
    have hstrict : (blocks.map fun block => (liveText block).length).sum <
        (blocks.map fun block => (blockText library block).length).sum := by
      refine List.sum_lt_sum _ _ (fun block _ => liveText_length_le library block)
        ⟨block, hblock, ?_⟩
      rwa [liveText_of_not_isText htext]
    omega
  · rintro ⟨hone, htexts⟩
    have hsame : blocks.map liveText = blocks.map (blockText library) :=
      List.map_congr_left fun block hblock => liveText_of_isText library (htexts block hblock)
    rw [hsame, ← join_filter, textFromContent]
    generalize (blocks.map (blockText library)).filter (· ≠ "") = parts at hone
    match parts, hone with
    | [], _ => rfl
    | [part], _ => simp [String.join_cons]

theorem storedTexts_append (entries more : List TranscriptEntryView) :
    storedTexts (entries ++ more) = storedTexts entries ++ storedTexts more := by
  simp [storedTexts]

theorem storedTexts_modify (entries : List TranscriptEntryView) (index : ℕ)
    {f : TranscriptEntryView → TranscriptEntryView}
    (hf : ∀ entry, (f entry).kind = entry.kind ∧ (f entry).itemId = entry.itemId ∧
      (f entry).text = entry.text) :
    storedTexts (entries.modify index f) = storedTexts entries := by
  induction entries generalizing index with
  | nil => rw [List.modify_nil]
  | cons entry entries ih =>
    cases index with
    | zero =>
      obtain ⟨hkind, hid, htext⟩ := hf entry
      rw [List.modify_zero_cons]
      by_cases hagent : entry.kind = .agentText
      · simp [storedTexts, hkind, hid, htext, hagent]
      · simp [storedTexts, hkind, hagent]
    | succ index =>
      have hrest := ih index
      rw [List.modify_succ_cons]
      by_cases hagent : entry.kind = .agentText
      · simpa [storedTexts, hagent] using hrest
      · simpa [storedTexts, hagent] using hrest

def opTexts : Op → List (Option String × Option String)
  | .put _ entry => storedTexts [entry]
  | .result .. => []

theorem storedTexts_apply (op : Op) (replay : Replay) :
    storedTexts (op.apply replay).entries = storedTexts replay.entries ++ opTexts op := by
  cases op with
  | put key entry =>
    cases key <;> exact storedTexts_append _ _
  | result id preview isError =>
    rw [opTexts, List.append_nil, Op.apply]
    unfold Replay.upsertToolResult
    split
    · rfl
    · rfl
    · split
      · exact storedTexts_modify _ _ fun _ => ⟨rfl, rfl, rfl⟩
      · refine (storedTexts_append _ _).trans ?_
        simp [storedTexts, stubEntry]

theorem storedTexts_foldl (ops : List Op) (replay : Replay) :
    storedTexts (ops.foldl Op.apply replay).entries =
      storedTexts replay.entries ++ ops.flatMap opTexts := by
  induction ops generalizing replay with
  | nil => simp
  | cons op ops ih => rw [List.foldl_cons, ih, storedTexts_apply, List.flatMap_cons,
      List.append_assoc]

/-- The stored text of an assistant message, as its only agent text. -/
def textPair (uuid text : String) : List (Option String × Option String) :=
  if text = "" then [] else [(some ("assistant:" ++ uuid), some text)]

theorem textPair_inj {uuid text other : String} :
    textPair uuid text = textPair uuid other ↔ text = other := by
  constructor
  · intro h
    unfold textPair at h
    split_ifs at h with hleft hright
    · exact hleft.trans hright.symm
    · simpa using h
  · exact congrArg _

theorem liveTexts_events (uuid : String) (blocks : List Block) :
    liveTexts (blocks.filterMap (liveAssistantEvent library uuid)) = [] ∧
      liveTexts (blocks.filterMap (liveUserEvent library uuid)) = [] := by
  induction blocks with
  | nil => exact ⟨rfl, rfl⟩
  | cons block blocks ih =>
    cases block <;> simpa [liveAssistantEvent, liveUserEvent, liveTexts] using ih

theorem opTexts_blocks (cwd : Option String) (itemId : String) (blocks : List Block) :
    (blocks.filterMap (assistantBlockOp library cwd itemId)).flatMap opTexts = [] ∧
      (blocks.filterMap (userBlockOp library)).flatMap opTexts = [] := by
  simp only [List.flatMap_eq_nil_iff, List.mem_filterMap]
  constructor
  · rintro op ⟨block, -, hop⟩
    unfold assistantBlockOp at hop
    split at hop
    · cases hop
      rfl
    · cases hop
  · rintro op ⟨block, -, hop⟩
    unfold userBlockOp at hop
    split at hop
    · split_ifs at hop
      cases hop
      rfl
    · cases hop

theorem opTexts_textOp (text : String) (key : ItemKey) (itemId turnId : String)
    (kind : TranscriptEntryKind) :
    (textOp text (.put key (textEntry itemId kind text turnId))).flatMap opTexts =
      if text = "" ∨ kind ≠ .agentText then [] else [(some itemId, some text)] := by
  by_cases htext : text = ""
  · simp [textOp, htext]
  · by_cases hkind : kind = .agentText
    · simp [textOp, htext, hkind, opTexts, storedTexts, textEntry]
    · simp [textOp, htext, hkind, opTexts, storedTexts, textEntry]

variable {message : SdkMessage}

theorem userTexts (h : message.type = .user) (cwd : Option String) (index : ℕ) :
    liveTexts (mapSdkMessage library message) = [] ∧
      (opsOf library cwd (message, index)).flatMap opTexts = [] := by
  constructor
  · rw [mapSdkMessage, h]
    dsimp only
    split_ifs
    · rfl
    · exact (liveTexts_events library _ _).2
  · rw [opsOf]
    dsimp only
    rw [h]
    dsimp only
    rw [List.flatMap_append, (opTexts_blocks library none "" _).2, List.nil_append, opTexts_textOp]
    simp

theorem assistantTexts (h : message.type = .assistant) (huuid : message.uuid ≠ "")
    (cwd : Option String) (index : ℕ) :
    liveTexts (mapSdkMessage library message) =
      textPair message.uuid (String.join (message.content.blockList.map liveText)) ∧
    (opsOf library cwd (message, index)).flatMap opTexts =
      textPair message.uuid (textFromContent library message.content) := by
  constructor
  · rw [mapSdkMessage, h, textPair]
    dsimp only
    have hevents := (liveTexts_events library message.uuid message.content.blockList).1
    by_cases htext : String.join (message.content.blockList.map liveText) = ""
    · rw [if_pos htext, if_pos htext]
      exact hevents
    · rw [if_neg htext, if_neg htext]
      simpa [liveTexts] using hevents
  · rw [opsOf]
    dsimp only
    rw [h]
    dsimp only
    rw [List.flatMap_append, (opTexts_blocks library _ _ _).1, List.append_nil, opTexts_textOp,
      textPair, orElse, if_neg huuid]
    simp

theorem texts_iff {blocks : List Block} (h : message.type = .assistant) (huuid : message.uuid ≠ "")
    (hcontent : message.content = .blocks blocks) (cwd : Option String)
    {following : List SdkMessage} (hfollowing : ∀ other ∈ following, other.type = .user) :
    liveTexts ((message :: following).flatMap (mapSdkMessage library)) =
        storedTexts (mapSessionMessages library (message :: following) cwd) ↔
      OneText library blocks := by
  have hlive : liveTexts ((message :: following).flatMap (mapSdkMessage library)) =
      textPair message.uuid (String.join (blocks.map liveText)) := by
    have hrest : liveTexts (following.flatMap (mapSdkMessage library)) = [] := by
      rw [liveTexts, List.filterMap_flatMap, List.flatMap_eq_nil_iff]
      exact fun other hother => (userTexts library (hfollowing other hother) cwd 0).1
    rw [List.flatMap_cons, liveTexts, List.filterMap_append]
    refine (congrArg₂ _ (assistantTexts library h huuid cwd 0).1 hrest).trans ?_
    rw [List.append_nil, hcontent, MessageContent.blockList]
  have hstored : storedTexts (mapSessionMessages library (message :: following) cwd) =
      textPair message.uuid (textFromContent library (.blocks blocks)) := by
    have hrest : ((following.zipIdx 1).flatMap (opsOf library cwd)).flatMap opTexts = [] := by
      rw [List.flatMap_assoc, List.flatMap_eq_nil_iff]
      rintro ⟨other, index⟩ hother
      exact (userTexts library (hfollowing other (List.fst_mem_of_mem_zipIdx hother)) cwd index).2
    rw [mapSessionMessages_eq, storedTexts_foldl, List.zipIdx_cons, List.flatMap_cons,
      List.flatMap_append, hrest, (assistantTexts library h huuid cwd 0).2, hcontent,
      List.append_nil]
    rfl
  rw [hlive, hstored, textPair_inj]
  exact join_parts_iff library blocks

end texts

section calls
variable (library : Library) (id : String)

def resultState : Block → Option ToolState
  | .toolResult other content isError =>
    if other = some id then some ⟨settledStatus isError, some (resultText library content)⟩
    else none
  | _ => none

def resultStates (messages : List SdkMessage) : List ToolState :=
  messages.flatMap fun message => message.content.blockList.filterMap (resultState library id)

theorem answered_iff {messages : List SdkMessage} :
    Answered id messages ↔ resultStates library id messages ≠ [] := by
  rw [Ne, resultStates, List.flatMap_eq_nil_iff]
  simp only [List.filterMap_eq_nil_iff, not_forall]
  constructor
  · rintro ⟨message, hmessage, content, isError, hblock⟩
    exact ⟨message, hmessage, _, hblock, by simp [resultState]⟩
  · rintro ⟨message, hmessage, block, hblock, hstate⟩
    cases block with
    | toolResult other content isError =>
      by_cases hother : other = some id
      · exact ⟨message, hmessage, content, isError, hother ▸ hblock⟩
      · exact absurd (if_neg hother) hstate
    | _ => exact absurd rfl hstate

theorem result_ne_running {messages : List SdkMessage} {state : ToolState}
    (h : state ∈ resultStates library id messages) : state ≠ .running := by
  obtain ⟨message, -, hblock⟩ := List.mem_flatMap.mp h
  obtain ⟨block, -, hstate⟩ := List.mem_filterMap.mp hblock
  unfold resultState at hstate
  split at hstate
  · split_ifs at hstate
    cases hstate
    exact fun heq => Option.some_ne_none _ (congrArg ToolState.result heq)
  · cases hstate

theorem live_blocks (uuid : String) (blocks : List Block) (tool : Option ToolState) :
    (blocks.filterMap (liveUserEvent library uuid)).foldl (liveStep ("tool:" ++ id)) tool =
      (blocks.filterMap (resultState library id)).getLast?.or tool := by
  induction blocks generalizing tool with
  | nil => rfl
  | cons block blocks ih =>
    cases block with
    | toolResult other content isError =>
      rw [List.filterMap_cons_some (show liveUserEvent _ _ _ = some _ from rfl), List.foldl_cons,
        ih, List.filterMap_cons]
      by_cases hother : other = some id
      · simp [liveStep, resultState, hother, List.getLast?_cons]
      · simp [liveStep, resultState, hother]
    | _ => exact ih tool

theorem live_results (messages : List SdkMessage)
    (h : ∀ message ∈ messages, message.type = .user ∧ message.isReplay = false)
    (tool : Option ToolState) :
    (messages.flatMap (mapSdkMessage library)).foldl (liveStep ("tool:" ++ id)) tool =
      (resultStates library id messages).getLast?.or tool := by
  induction messages generalizing tool with
  | nil => rfl
  | cons message messages ih =>
    obtain ⟨htype, hreplay⟩ := h message List.mem_cons_self
    have hevents : mapSdkMessage library message =
        message.content.blockList.filterMap (liveUserEvent library message.uuid) := by
      simp only [mapSdkMessage, htype, hreplay, Bool.false_eq_true, if_false]
    have hstates : resultStates library id (message :: messages) =
        message.content.blockList.filterMap (resultState library id) ++
          resultStates library id messages := List.flatMap_cons
    rw [List.flatMap_cons, List.foldl_append, hevents, live_blocks,
      ih fun other hother => h other (List.mem_cons_of_mem _ hother), hstates,
      List.getLast?_append, Option.or_assoc]

def opState : Op → ToolState
  | .put _ entry => entryState entry
  | .result _ preview isError => ⟨settledStatus isError, some preview⟩

theorem onItem_result {entries : List TranscriptEntryView}
    (hlast : ∃ entry ∈ entries.getLast?, entry.tool.isSome) (preview : String) (isError : Bool) :
    (Op.onItem entries (.result id preview isError)).map entryState =
      (entries.map entryState).dropLast ++ [opState (.result id preview isError)] ∧
    ∃ entry ∈ (Op.onItem entries (.result id preview isError)).getLast?, entry.tool.isSome := by
  obtain ⟨entry, hentry, htool⟩ := hlast
  obtain ⟨tool, htool⟩ := Option.isSome_iff_exists.mp htool
  rw [Option.mem_def] at hentry
  have hitem : Op.onItem entries (.result id preview isError) =
      entries.dropLast ++ [settle preview isError entry] := by
    rw [Op.onItem, hentry]
  rw [hitem]
  constructor
  · simp [entryState, settle, htool, opState, List.map_dropLast]
  · exact ⟨settle preview isError entry, by simp, by simp [settle, htool]⟩

theorem foldl_results (ops : List Op)
    (hops : ∀ op ∈ ops, ∃ preview isError, op = .result id preview isError)
    {entries : List TranscriptEntryView}
    (hlast : ∃ entry ∈ entries.getLast?, entry.tool.isSome) :
    (ops.foldl Op.onItem entries).map entryState =
      match (ops.map opState).getLast? with
      | none => entries.map entryState
      | some state => (entries.map entryState).dropLast ++ [state] := by
  induction ops generalizing entries with
  | nil => rfl
  | cons op ops ih =>
    obtain ⟨preview, isError, rfl⟩ := hops op List.mem_cons_self
    obtain ⟨hstates, hnext⟩ := onItem_result id hlast preview isError
    rw [List.foldl_cons, ih (fun other hother => hops other (List.mem_cons_of_mem _ hother)) hnext,
      hstates, List.map_cons, List.getLast?_cons]
    cases (ops.map opState).getLast? with
    | none => rfl
    | some state => simp

theorem userBlockOp_key (block : Block) :
    ((userBlockOp library block).filter fun op => op.key = .tool id).map opState =
      if id = "" then none else resultState library id block := by
  cases block with
  | toolResult other content isError =>
    cases other with
    | none => simp [userBlockOp, resultState]
    | some other =>
      by_cases hother : other = id
      · subst hother
        by_cases hid : other = ""
        · simp [userBlockOp, hid]
        · simp [userBlockOp, hid, Op.key, Option.filter_some, resultState, opState]
      · by_cases hid : other = ""
        · simp [userBlockOp, hid, resultState]
        · simp [userBlockOp, hid, Op.key, Option.filter_some, resultState, hother]
  | _ => simp [userBlockOp, resultState]

theorem user_ops {message : SdkMessage} (h : message.type = .user) (cwd : Option String)
    (index : ℕ) :
    (((opsOf library cwd (message, index)).filter fun op => op.key = .tool id).map opState =
      if id = "" then [] else message.content.blockList.filterMap (resultState library id)) ∧
    ∀ op ∈ (opsOf library cwd (message, index)).filter fun op => op.key = .tool id,
      ∃ preview isError, op = .result id preview isError := by
  have hops : (opsOf library cwd (message, index)).filter (fun op => op.key = .tool id) =
      message.content.blockList.filterMap fun block =>
        (userBlockOp library block).filter fun op => op.key = .tool id := by
    have htext : (textOp (userText library message.content)
        (.put (.user (orElse message.uuid ("user:" ++ toString index)))
          (textEntry ("user:" ++ orElse message.uuid ("user:" ++ toString index)) .userText
            (userText library message.content)
            (orElse message.uuid ("user:" ++ toString index))))).filter
          (fun op => op.key = .tool id) = [] := by
      unfold textOp
      split_ifs <;> simp [Op.key]
    rw [opsOf]
    dsimp only
    rw [h]
    dsimp only
    rw [List.filter_append, htext, List.append_nil, List.filter_filterMap]
  rw [hops]
  constructor
  · rw [List.map_filterMap]
    simp only [userBlockOp_key]
    by_cases hid : id = ""
    · simp [hid]
    · simp only [hid, if_false]
  · intro op hop
    obtain ⟨block, -, hblock⟩ := List.mem_filterMap.mp hop
    obtain ⟨hblock, hkey⟩ := Option.filter_eq_some_iff.mp hblock
    unfold userBlockOp at hblock
    split at hblock
    · split_ifs at hblock
      cases hblock
      have hid := ItemKey.tool.inj (of_decide_eq_true hkey)
      exact ⟨_, _, by rw [← hid]⟩
    · cases hblock

theorem following_ops (cwd : Option String) (items : List (SdkMessage × ℕ))
    (h : ∀ item ∈ items, item.1.type = .user) :
    (((items.flatMap (opsOf library cwd)).filter fun op => op.key = .tool id).map opState =
      if id = "" then [] else resultStates library id (items.map (·.1))) ∧
    ∀ op ∈ (items.flatMap (opsOf library cwd)).filter fun op => op.key = .tool id,
      ∃ preview isError, op = .result id preview isError := by
  induction items with
  | nil => simp [resultStates]
  | cons item items ih =>
    obtain ⟨hstates, hops⟩ := user_ops library id (h item List.mem_cons_self) cwd item.2
    obtain ⟨hrest, hothers⟩ := ih fun other hother => h other (List.mem_cons_of_mem _ hother)
    rw [List.flatMap_cons, List.filter_append]
    constructor
    · rw [List.map_append, hstates, hrest]
      by_cases hid : id = ""
      · simp [hid]
      · simp [hid, resultStates]
    · intro op hop
      rcases List.mem_append.mp hop with hop | hop
      · exact hops op hop
      · exact hothers op hop

theorem mapToolCall_resultPreview (name : Option String) (input : Json) (provisional : Bool)
    (cwd : Option String) :
    (mapToolCall library name input provisional cwd).resultPreview = none := by
  unfold mapToolCall
  split <;> rfl

theorem request_entries (cwd : Option String) (itemId : String) (blocks : List Block)
    (entries : List TranscriptEntryView) :
    ∃ more, ((blocks.filterMap (assistantBlockOp library cwd itemId)).filter fun op =>
        op.key = .tool id).foldl Op.onItem entries = entries ++ more ∧
      more.map entryState = List.replicate ((toolUseIds blocks).count id) .running ∧
      ∀ entry ∈ more, entry.tool.isSome := by
  induction blocks generalizing entries with
  | nil => exact ⟨[], by simp, rfl, by simp⟩
  | cons block blocks ih =>
    cases block with
    | toolUse other name input =>
      by_cases hother : other = id
      · subst hother
        obtain ⟨more, hmore, hstates, htools⟩ := ih (entries ++
          [requestEntry other itemId (mapToolCall library name input false cwd)])
        refine ⟨requestEntry other itemId (mapToolCall library name input false cwd) :: more,
          ?_, ?_, ?_⟩
        · rw [List.filterMap_cons_some (show assistantBlockOp _ _ _ _ = some _ from rfl),
            List.filter_cons_of_pos (by simp [Op.key]), List.foldl_cons]
          exact hmore.trans (by simp)
        · have hcount : (toolUseIds (.toolUse other name input :: blocks)).count other =
              (toolUseIds blocks).count other + 1 := by simp [toolUseIds]
          rw [List.map_cons, hstates, hcount, List.replicate_succ]
          simp [entryState, requestEntry, mapToolCall_resultPreview, ToolState.running]
        · intro entry hentry
          rcases List.mem_cons.mp hentry with rfl | hentry
          · rfl
          · exact htools entry hentry
      · obtain ⟨more, hmore, hstates, htools⟩ := ih entries
        refine ⟨more, ?_, ?_, htools⟩
        · rw [List.filterMap_cons_some (show assistantBlockOp _ _ _ _ = some _ from rfl),
            List.filter_cons_of_neg (by simpa [Op.key] using hother)]
          exact hmore
        · rw [hstates]
          simp [toolUseIds, hother]
    | _ => exact ih entries

/-- Where the message itself leaves a tool call, read live. -/
theorem live_message (uuid : String) (blocks : List Block) :
    let tool := (blocks.filterMap (liveAssistantEvent library uuid)).foldl
      (liveStep ("tool:" ++ id)) none
    (tool.bind (·.result) = none ↔
      ∀ content isError, Block.toolResult (some id) content isError ∈ blocks → content = none) ∧
    (tool.map (·.status) = some "running" ↔
      ∃ last ∈ (blocks.filter (concerns id)).getLast?, isToolUse last) := by
  induction blocks using List.reverseRecOn with
  | nil => simp
  | append_singleton blocks block ih =>
    dsimp only at ih ⊢
    obtain ⟨hresult, hstatus⟩ := ih
    rw [List.filterMap_append, List.foldl_append, List.filter_append]
    generalize (blocks.filterMap (liveAssistantEvent library uuid)).foldl
      (liveStep ("tool:" ++ id)) none = tool at hresult hstatus
    cases block with
    | toolUse other name input =>
      by_cases hother : other = id
      · subst hother
        simp [liveAssistantEvent, liveStep, mapToolCall_resultPreview, concerns, isToolUse, hresult]
      · simp [liveAssistantEvent, liveStep, concerns, hother, hresult, hstatus]
    | toolResult other content isError =>
      have hsettled : settledStatus isError ≠ "running" := by
        cases isError <;> decide
      have hcontent : assistantResultText library content = none ↔ content = none := by
        unfold assistantResultText
        split <;> simp
      by_cases hother : other = some id
      · subst hother
        constructor
        · have hboth : ((assistantResultText library content).or (tool.bind (·.result)) = none) ↔
              content = none ∧ ∀ content isError,
                Block.toolResult (some id) content isError ∈ blocks → content = none := by
            rw [Option.or_eq_none_iff, hcontent, hresult]
          refine Iff.trans (by simp [liveAssistantEvent, liveStep]) (hboth.trans ?_)
          constructor
          · rintro ⟨hlast, hbefore⟩ given failed hmem
            rcases List.mem_append.mp hmem with hmem | hmem
            · exact hbefore given failed hmem
            · cases List.mem_singleton.mp hmem
              exact hlast
          · intro hall
            exact ⟨hall content isError (by simp), fun given failed hmem =>
              hall given failed (List.mem_append_left _ hmem)⟩
        · simp [liveAssistantEvent, liveStep, concerns, isToolUse, hsettled]
      · simpa [List.filterMap_cons, liveAssistantEvent, liveStep, concerns, hother, Ne.symm hother]
          using And.intro hresult hstatus
    | _ =>
      simpa [List.filterMap_cons, liveAssistantEvent, concerns] using And.intro hresult hstatus

theorem leftOpen_iff (uuid : String) {blocks : List Block} (h : id ∈ toolUseIds blocks) :
    (blocks.filterMap (liveAssistantEvent library uuid)).foldl (liveStep ("tool:" ++ id)) none =
      some .running ↔ LeftOpen id blocks := by
  obtain ⟨hresult, hstatus⟩ := live_message library id uuid blocks
  have hsome : ∃ last, (blocks.filter (concerns id)).getLast? = some last := by
    rw [← Option.isSome_iff_exists, List.getLast?_isSome, Ne, List.filter_eq_nil_iff]
    obtain ⟨block, hblock, hid⟩ := List.mem_filterMap.mp h
    intro hnone
    have hthis := hnone block hblock
    split at hid
    · cases hid
      simp [concerns] at hthis
    · cases hid
  constructor
  · intro hlive
    rw [hlive] at hresult hstatus
    obtain ⟨last, hlast, huse⟩ := hstatus.mp rfl
    refine ⟨hresult.mp rfl, fun final hfinal => ?_⟩
    rwa [Option.mem_unique hfinal hlast]
  · intro hopen
    have hnone := hresult.mpr hopen.content
    obtain ⟨last, hlast⟩ := hsome
    have hrunning := hstatus.mpr ⟨last, hlast, hopen.asked last hlast⟩
    obtain ⟨tool, htool, hrunning⟩ := Option.map_eq_some_iff.mp hrunning
    rw [htool] at hnone ⊢
    exact congrArg some (ToolState.ext hrunning hnone)

variable {message : SdkMessage}

theorem live_call {blocks : List Block} (h : message.type = .assistant)
    (hcontent : message.content = .blocks blocks) {following : List SdkMessage}
    (hfollowing : ∀ other ∈ following, other.type = .user ∧ other.isReplay = false) :
    ((message :: following).flatMap (mapSdkMessage library)).foldl (liveStep ("tool:" ++ id)) none =
      (resultStates library id following).getLast?.or
        ((blocks.filterMap (liveAssistantEvent library message.uuid)).foldl
          (liveStep ("tool:" ++ id)) none) := by
  have hmessage : (mapSdkMessage library message).foldl (liveStep ("tool:" ++ id)) none =
      (blocks.filterMap (liveAssistantEvent library message.uuid)).foldl
        (liveStep ("tool:" ++ id)) none := by
    rw [mapSdkMessage, h, hcontent]
    dsimp only [MessageContent.blockList]
    split_ifs <;> rfl
  rw [List.flatMap_cons, List.foldl_append, hmessage, live_results library id following hfollowing]

theorem stored_call {blocks : List Block} (h : message.type = .assistant)
    (hcontent : message.content = .blocks blocks) (cwd : Option String)
    (hid : id ∈ toolUseIds blocks) {following : List SdkMessage}
    (hfollowing : ∀ other ∈ following, other.type = .user) :
    (itemEntries (mapSessionMessages library (message :: following) cwd) (.tool id)).map
        entryState =
      match (if id = "" then [] else resultStates library id following).getLast? with
      | none => List.replicate ((toolUseIds blocks).count id) .running
      | some state => List.replicate ((toolUseIds blocks).count id - 1) .running ++ [state] := by
  have hfirst : (opsOf library cwd (message, 0)).filter (fun op => op.key = .tool id) =
      (blocks.filterMap (assistantBlockOp library cwd
        (orElse message.uuid ("assistant:" ++ toString 0)))).filter fun op =>
          op.key = .tool id := by
    rw [opsOf]
    dsimp only
    rw [h, hcontent]
    dsimp only
    rw [List.filter_append, textOp]
    split_ifs <;> simp [Op.key, MessageContent.blockList]
  obtain ⟨more, hmore, hstates, htools⟩ := request_entries library id cwd
    (orElse message.uuid ("assistant:" ++ toString 0)) blocks []
  obtain ⟨hresults, hops⟩ := following_ops library id cwd (following.zipIdx 1) fun item hitem =>
    hfollowing item.1 (List.fst_mem_of_mem_zipIdx hitem)
  have hlast : ∃ entry ∈ more.getLast?, entry.tool.isSome := by
    have hne : more ≠ [] := by
      rintro rfl
      have hlength := congrArg List.length hstates
      rw [List.length_map, List.length_nil, List.length_replicate] at hlength
      exact absurd (List.count_pos_iff.mpr hid) (by omega)
    exact ⟨more.getLast hne, List.getLast?_eq_some_getLast hne, htools _ (List.getLast_mem hne)⟩
  rw [itemEntries_messages, List.zipIdx_cons, List.flatMap_cons, List.filter_append,
    List.foldl_append, hfirst, hmore, List.nil_append, foldl_results id _ hops hlast, hresults,
    hstates, List.zipIdx_map_fst, List.dropLast_replicate]

end calls

section agreement
variable (library : Library) {message : SdkMessage} {blocks : List Block}
  {following : List SdkMessage}

theorem call_agrees_iff (h : message.type = .assistant) (hcontent : message.content = .blocks blocks)
    (cwd : Option String)
    (hfollowing : ∀ other ∈ following, other.type = .user ∧ other.isReplay = false)
    {id : String} (hid : id ∈ toolUseIds blocks) :
    (∀ entry ∈ itemEntries (mapSessionMessages library (message :: following) cwd) (.tool id),
      ((message :: following).flatMap (mapSdkMessage library)).foldl
        (liveStep ("tool:" ++ id)) none = some (entryState entry)) ↔
      (Answered id following → id ≠ "" ∧ (toolUseIds blocks).count id = 1) ∧
      (¬Answered id following → LeftOpen id blocks) := by
  have hcount : 0 < (toolUseIds blocks).count id := List.count_pos_iff.mpr hid
  have hlive := live_call library id h hcontent hfollowing
  have hstored := stored_call library id h hcontent cwd hid fun other hother =>
    (hfollowing other hother).1
  have hstates : (∀ entry ∈ itemEntries (mapSessionMessages library (message :: following) cwd)
      (.tool id), ((message :: following).flatMap (mapSdkMessage library)).foldl
        (liveStep ("tool:" ++ id)) none = some (entryState entry)) ↔
      ∀ state ∈ (itemEntries (mapSessionMessages library (message :: following) cwd)
        (.tool id)).map entryState, ((message :: following).flatMap
          (mapSdkMessage library)).foldl (liveStep ("tool:" ++ id)) none = some state := by
    rw [List.forall_mem_map]
  rw [hstates, hstored, hlive, answered_iff library id]
  cases hlast : (resultStates library id following).getLast? with
  | none =>
    have hnone : resultStates library id following = [] := List.getLast?_eq_none_iff.mp hlast
    simp only [hnone, ite_self, List.getLast?_nil, List.mem_replicate, Option.none_or, ne_eq,
      not_true_eq_false, false_implies, not_false_eq_true, true_implies, true_and]
    rw [← leftOpen_iff library id message.uuid hid]
    constructor
    · exact fun hall => hall _ ⟨hcount.ne', rfl⟩
    · rintro hopen state ⟨-, rfl⟩
      exact hopen
  | some last =>
    have hne : resultStates library id following ≠ [] := by
      rintro hnil
      rw [hnil] at hlast
      cases hlast
    have hsettled := result_ne_running library id (List.mem_of_getLast? hlast)
    simp only [ne_eq, hne, not_false_eq_true, true_implies, not_true_eq_false, false_implies,
      and_true, Option.some_or]
    by_cases hempty : id = ""
    · simp only [hempty, if_true, List.getLast?_nil, not_true_eq_false, false_and, iff_false]
      intro hall
      rw [hempty] at hcount
      exact hsettled (Option.some.inj (hall .running (List.mem_replicate.mpr ⟨hcount.ne', rfl⟩)))
    · simp only [hempty, if_false, hlast, not_false_eq_true, true_and]
      constructor
      · intro hall
        by_contra hmany
        have hrunning : ToolState.running ∈
            List.replicate ((toolUseIds blocks).count id - 1) ToolState.running :=
          List.mem_replicate.mpr ⟨by omega, rfl⟩
        exact hsettled (Option.some.inj (hall .running (List.mem_append_left _ hrunning)))
      · intro hone state hstate
        rw [hone] at hstate
        rw [List.mem_singleton.mp hstate]

/-- The two readings of a message and of its results agree exactly if one part of it has a text at
most, as a text block, and each of its tool calls is either asked for once, under an id, and
answered afterwards, or answered nowhere. -/
theorem readings_agree_iff (h : message.type = .assistant)
    (huuid : message.uuid ≠ "") (hcontent : message.content = .blocks blocks)
    (cwd : Option String)
    (hfollowing : ∀ other ∈ following, other.type = .user ∧ other.isReplay = false) :
    Agree library cwd message following ↔ OneText library blocks ∧
      ∀ id ∈ toolUseIds blocks,
        (Answered id following → id ≠ "" ∧ (toolUseIds blocks).count id = 1) ∧
        (¬Answered id following → LeftOpen id blocks) := by
  have hentries : ∀ (id : String) (entry : TranscriptEntryView),
      entry ∈ itemEntries (mapSessionMessages library (message :: following) cwd) (.tool id) ↔
        entry ∈ mapSessionMessages library (message :: following) cwd ∧
          entry.itemId = some ("tool:" ++ id) := by
    intro id entry
    rw [itemEntries, List.mem_filter, decide_eq_true_eq]
    rfl
  have htexts := texts_iff library h huuid hcontent cwd fun other hother =>
    (hfollowing other hother).1
  have hblocks : message.content.blockList = blocks := by rw [hcontent]; rfl
  constructor
  · intro hagree
    refine ⟨htexts.mp hagree.texts, fun id hid => ?_⟩
    obtain ⟨-, hcalls⟩ := hagree.tools id (hblocks ▸ hid)
    exact (call_agrees_iff library h hcontent cwd hfollowing hid).mp fun entry hentry =>
      hcalls entry ((hentries id entry).mp hentry).1 ((hentries id entry).mp hentry).2
  · rintro ⟨hone, hcalls⟩
    refine ⟨htexts.mpr hone, fun id hid => ?_⟩
    rw [hblocks] at hid
    have hall := (call_agrees_iff library h hcontent cwd hfollowing hid).mpr (hcalls id hid)
    refine ⟨?_, fun entry hentry hitem => hall entry ((hentries id entry).mpr ⟨hentry, hitem⟩)⟩
    have hstored := stored_call library id h hcontent cwd hid fun other hother =>
      (hfollowing other hother).1
    have hcount : 0 < (toolUseIds blocks).count id := List.count_pos_iff.mpr hid
    have hne : itemEntries (mapSessionMessages library (message :: following) cwd) (.tool id) ≠
        [] := by
      intro hnil
      rw [hnil] at hstored
      split at hstored
      · have hlength := congrArg List.length hstored
        rw [List.length_replicate] at hlength
        simp at hlength
        omega
      · simp at hstored
    obtain ⟨entry, hentry⟩ := List.exists_mem_of_ne_nil _ hne
    exact ⟨entry, (hentries id entry).mp hentry⟩

def emptyInputs : Library where
  stringify
    | .string text => "\"" ++ text ++ "\""
    | _ => "{}"
  previewToolInput _ _ := "{}"
  fileChangeFromToolInput _ _ _ := none

/-- A message with two paragraphs is shown as one word and read back as two lines. -/
theorem two_texts_disagree :
    let message : SdkMessage :=
      { type := .assistant, uuid := "m1", content := .blocks [.text "Hello", .text "world"] }
    liveTexts ([message].flatMap (mapSdkMessage emptyInputs)) =
        [(some "assistant:m1", some "Helloworld")] ∧
      storedTexts (mapSessionMessages emptyInputs [message] none) =
        [(some "assistant:m1", some "Hello\nworld")] ∧
      ¬Agree emptyInputs none message [] := by
  refine ⟨by decide +kernel, by decide +kernel, fun hagree => ?_⟩
  exact absurd hagree.texts (by decide +kernel)

theorem answered_call_agrees :
    Agree emptyInputs none
      { type := .assistant, uuid := "m1"
        content := .blocks [.text "Looking.", .toolUse "t1" (some "Bash") (.object [])] }
      [{ type := .user, uuid := "m2"
         content := .blocks [.toolResult (some "t1") (some (.string "ok")) false] }] := by
  refine (readings_agree_iff emptyInputs rfl (by decide) rfl none ?_).mpr ⟨⟨?_, ?_⟩, ?_⟩
  · simp
  · decide
  · intro block hblock
    simp only [List.mem_cons, List.not_mem_nil, or_false] at hblock
    rcases hblock with rfl | rfl
    · exact fun _ => rfl
    · exact fun hne => absurd rfl hne
  · intro id hid
    cases List.mem_singleton.mp (hid : id ∈ ["t1"])
    refine ⟨fun _ => ⟨by decide, by decide⟩, fun hnone => absurd ?_ hnone⟩
    exact ⟨_, List.mem_singleton_self _, some (.string "ok"), false, List.mem_singleton_self _⟩

end agreement

end AgentRelay.Session
