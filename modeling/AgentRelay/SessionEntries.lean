import AgentRelay.ThreadRuntime
import AgentRelay.UsageTracker

/-! The worker's two readings of a session: the events of a live message, and the entries of the
stored messages. A stored tool call is an entry of its own, which its result settles. -/
namespace AgentRelay.Session
open Text Wire Relay

/-- A part of a message. `raw` is a string in place of a block. -/
inductive Block
  | text (text : String)
  | image
  | toolUse (id : String) (name : Option String) (input : Json)
  | toolResult (toolUseId : Option String) (content : Option Json) (isError : Bool)
  | raw (text : String)
  | other

inductive MessageContent
  | text (text : String)
  | blocks (blocks : List Block)

def MessageContent.blockList : MessageContent → List Block
  | .text _ => []
  | .blocks list => list

inductive MessageType
  | user
  | assistant
  | other
  deriving DecidableEq, Repr

structure SdkMessage where
  type : MessageType
  uuid : String
  content : MessageContent
  isReplay : Bool := false
  error : Bool := false

/-- What the mappings call and this model does not: `JSON.stringify`, its cut version, and the diff
library behind the file changes. -/
structure Library where
  stringify : Json → String
  previewToolInput : Option String → Json → String
  fileChangeFromToolInput : Option String → Json → Option String → Option FileChangeDiffView

/-- `a || b` on strings. -/
def orElse (text fallback : String) : String := if text = "" then fallback else text

section tools

/-- Upper case for each character that starts a word; underscores have become spaces. -/
def capitalize : Bool → List Char → List Char
  | _, [] => []
  | inWord, c :: rest =>
    (if inWord then c else c.toUpper) :: capitalize c.isAlphanum rest

def toolTitle (name : Option String) : String :=
  match name with
  | none | some "" => "Tool call"
  | some name =>
    String.ofList (capitalize false (name.toList.map fun c => if c = '_' then ' ' else c))

def normalizeToolName (name : Option String) : String :=
  String.ofList (((name.getD "").toList.filter Char.isAlphanum).map Char.toLower)

/-- `path.basename`. -/
def basename (path : String) : String :=
  String.ofList (((path.toList.splitOn '/').filter (· ≠ [])).getLast?.getD [])

def summarizeFileChange (name : Option String) (path : String) : String :=
  if normalizeToolName name = "write" then "Wrote " ++ basename (orElse path "file")
  else "Edited " ++ basename (orElse path "file")

def fileChangeTool (name : Option String) (change : FileChangeDiffView) : ToolCallView :=
  let title := summarizeFileChange name change.path
  { itemType := "fileChange"
    name := orElse (name.getD "") "Edit"
    title
    detail := some title
    path := some change.path
    diff := if change.diff = "" then none else some change.diff
    fileChanges := [change] }

/-- The view of a tool call. A live one keeps its diff back until the result is there. -/
def mapToolCall (library : Library) (name : Option String) (input : Json)
    (provisionalFileChange : Bool) (cwd : Option String) : ToolCallView :=
  match library.fileChangeFromToolInput name input cwd with
  | some change => fileChangeTool name
      (if provisionalFileChange then { change with diff := "" } else change)
  | none =>
    { itemType := "toolCall"
      name := orElse (name.getD "") "unknown"
      title := toolTitle name
      path := (input.get "file_path").bind Json.asStr
      url := (input.get "url").bind Json.asStr
      command := (input.get "command").bind Json.asStr
      inputPreview := some (library.previewToolInput name input) }

end tools

section texts
variable (library : Library)

/-- A result as text; `content ?? ""` stands for what is missing. -/
def resultText (content : Option Json) : String :=
  match content with
  | some (.string text) => text
  | none | some .null => library.stringify (.string "")
  | some value => library.stringify value

def blockText : Block → String
  | .raw text | .text text => text
  | .toolResult _ content _ => resultText library content
  | .image | .toolUse .. | .other => ""

/-- The texts that are not empty, one on each line. -/
def textFromContent : MessageContent → String
  | .text text => text
  | .blocks blocks => "\n".intercalate ((blocks.map (blockText library)).filter (· ≠ ""))

def userMessageTranscriptText (text : String) (imageCount : ℕ) : String :=
  let imageLabel :=
    if imageCount = 1 then "[Attached image]"
    else if 1 < imageCount then "[Attached " ++ toString imageCount ++ " images]" else ""
  if imageLabel = "" then text
  else if text = "" then imageLabel else text ++ "\n\n" ++ imageLabel

def isToolResult : Block → Bool
  | .toolResult .. => true
  | _ => false

def isText : Block → Bool
  | .text _ => true
  | _ => false

def isImage : Block → Bool
  | .image => true
  | _ => false

def userText (content : MessageContent) : String :=
  let blocks := content.blockList
  if blocks.any isToolResult then "\n".intercalate ((blocks.filter isText).map (blockText library))
  else userMessageTranscriptText (textFromContent library content)
    (blocks.filter isImage).length

end texts

section stored

structure Replay where
  entries : List TranscriptEntryView := []
  toolEntryById : Table ℕ := ∅

def textEntry (itemId : String) (kind : TranscriptEntryKind) (text turnId : String) :
    TranscriptEntryView :=
  { itemId := some itemId, kind, text := some text, status := "completed", turnId := some turnId
    tool := none }

def requestEntry (id turnId : String) (tool : ToolCallView) : TranscriptEntryView :=
  { itemId := some ("tool:" ++ id), kind := .toolCall, text := none, status := "running"
    turnId := some turnId, tool := some tool }

def settledStatus (isError : Bool) : String := if isError then "failed" else "completed"

/-- A result whose request is not among the messages. -/
def stubEntry (id preview : String) (isError : Bool) : TranscriptEntryView :=
  { itemId := some ("tool:" ++ id), kind := .toolCall, text := none
    status := settledStatus isError, turnId := some id
    tool := some
      { itemType := "toolCall", name := "tool", title := "Tool", resultPreview := some preview } }

def settle (preview : String) (isError : Bool) (entry : TranscriptEntryView) :
    TranscriptEntryView :=
  { entry with
    status := settledStatus isError
    tool := entry.tool.map fun tool => { tool with resultPreview := some preview } }

namespace Replay

def push (replay : Replay) (entry : TranscriptEntryView) : Replay :=
  { replay with entries := replay.entries ++ [entry] }

def pushTool (replay : Replay) (itemId : String) (entry : TranscriptEntryView) : Replay :=
  { entries := replay.entries ++ [entry]
    toolEntryById := replay.toolEntryById.insert itemId replay.entries.length }

def upsertToolResult (replay : Replay) (toolUseId : Option String) (preview : String)
    (isError : Bool) : Replay :=
  match toolUseId with
  | none | some "" => replay
  | some id =>
    match replay.toolEntryById["tool:" ++ id]? with
    | some index => { replay with entries := replay.entries.modify index (settle preview isError) }
    | none => replay.pushTool ("tool:" ++ id) (stubEntry id preview isError)

end Replay

variable (library : Library)

def readUserBlock (replay : Replay) : Block → Replay
  | .toolResult id content isError =>
    replay.upsertToolResult id (resultText library content) isError
  | _ => replay

def readAssistantBlock (cwd : Option String) (itemId : String) (replay : Replay) :
    Block → Replay
  | .toolUse id name input => replay.pushTool ("tool:" ++ id)
      (requestEntry id itemId (mapToolCall library name input false cwd))
  | _ => replay

/-- One stored message; one without a uuid is named by its place. -/
def readMessage (cwd : Option String) (replay : Replay) (item : SdkMessage × ℕ) : Replay :=
  let message := item.1
  match message.type with
  | .user =>
    let itemId := orElse message.uuid ("user:" ++ toString item.2)
    let replay := message.content.blockList.foldl (readUserBlock library) replay
    let text := userText library message.content
    if text = "" then replay else replay.push (textEntry ("user:" ++ itemId) .userText text itemId)
  | .assistant =>
    let itemId := orElse message.uuid ("assistant:" ++ toString item.2)
    let text := textFromContent library message.content
    let replay := if text = "" then replay
      else replay.push (textEntry ("assistant:" ++ itemId) .agentText text itemId)
    message.content.blockList.foldl (readAssistantBlock library cwd itemId) replay
  | .other => replay

def mapSessionMessages (messages : List SdkMessage) (cwd : Option String) :
    List TranscriptEntryView :=
  (messages.zipIdx.foldl (readMessage library cwd) {}).entries

end stored

section live
variable (library : Library)

inductive SdkEvent
  | assistantMessage (itemId turnId text status : String)
  | toolCallRequested (id : String) (name : Option String) (input : Json)
      (itemId turnId status : String) (tool : ToolCallView)
  | toolCallResult (id : Option String) (turnId : Option String) (content : Option String)
      (isError : Bool)

/-- A result in an assistant message: nothing stands for what is missing. -/
def assistantResultText : Option Json → Option String
  | none => none
  | some (.string text) => some text
  | some value => some (library.stringify value)

def liveAssistantEvent (uuid : String) : Block → Option SdkEvent
  | .toolUse id name input => some (.toolCallRequested id name input ("tool:" ++ id)
      (orElse uuid id) "running" (mapToolCall library name input true none))
  | .toolResult id content isError =>
    some (.toolCallResult id none (assistantResultText library content) isError)
  | _ => none

def liveUserEvent (uuid : String) : Block → Option SdkEvent
  | .toolResult id content isError =>
    some (.toolCallResult id (if uuid = "" then id else some uuid)
      (some (resultText library content)) isError)
  | _ => none

def liveText : Block → String
  | .text text => text
  | _ => ""

/-- The assistant and the user case of `mapSdkMessage`. -/
def mapSdkMessage (message : SdkMessage) : List SdkEvent :=
  let blocks := message.content.blockList
  match message.type with
  | .assistant =>
    let events := blocks.filterMap (liveAssistantEvent library message.uuid)
    let text := String.join (blocks.map liveText)
    if text = "" then events
    else .assistantMessage ("assistant:" ++ message.uuid) message.uuid text
      (if message.error then "failed" else "completed") :: events
  | .user =>
    if message.isReplay then [] else blocks.filterMap (liveUserEvent library message.uuid)
  | .other => []

end live

section keys

inductive ItemKey
  | user (id : String)
  | assistant (id : String)
  | tool (id : String)
  deriving DecidableEq, Repr

def ItemKey.itemId : ItemKey → String
  | user id => "user:" ++ id
  | assistant id => "assistant:" ++ id
  | tool id => "tool:" ++ id

theorem ItemKey.itemId_injective : Function.Injective ItemKey.itemId := by
  have hchars : ∀ key : ItemKey, key.itemId.toList = match key with
      | user id => 'u' :: 's' :: 'e' :: 'r' :: ':' :: id.toList
      | assistant id => "assistant:".toList ++ id.toList
      | tool id => 't' :: 'o' :: 'o' :: 'l' :: ':' :: id.toList := by
    intro key
    cases key <;> simp [ItemKey.itemId]
  intro left right h
  have hlist := congrArg String.toList h
  rw [hchars, hchars] at hlist
  cases left <;> cases right <;> simp_all [String.toList_inj]

inductive Op
  | put (key : ItemKey) (entry : TranscriptEntryView)
  | result (id preview : String) (isError : Bool)

namespace Op

def key : Op → ItemKey
  | put key _ => key
  | result id _ _ => .tool id

/-- An entry is put under its own id. -/
def Proper : Op → Prop
  | put key entry => entry.itemId = some key.itemId
  | result id _ _ => id ≠ ""

def apply (replay : Replay) : Op → Replay
  | put (.tool id) entry => replay.pushTool ("tool:" ++ id) entry
  | put _ entry => replay.push entry
  | result id preview isError => replay.upsertToolResult (some id) preview isError

def onItem (entries : List TranscriptEntryView) : Op → List TranscriptEntryView
  | put _ entry => entries ++ [entry]
  | result id preview isError =>
    match entries.getLast? with
    | none => [stubEntry id preview isError]
    | some entry => entries.dropLast ++ [settle preview isError entry]

end Op

def userBlockOp (library : Library) : Block → Option Op
  | .toolResult (some id) content isError =>
    if id = "" then none else some (.result id (resultText library content) isError)
  | _ => none

def assistantBlockOp (library : Library) (cwd : Option String) (itemId : String) :
    Block → Option Op
  | .toolUse id name input => some (.put (.tool id)
      (requestEntry id itemId (mapToolCall library name input false cwd)))
  | _ => none

def textOp (text : String) (op : Op) : List Op := if text = "" then [] else [op]

def opsOf (library : Library) (cwd : Option String) (item : SdkMessage × ℕ) : List Op :=
  let message := item.1
  match message.type with
  | .user =>
    let itemId := orElse message.uuid ("user:" ++ toString item.2)
    message.content.blockList.filterMap (userBlockOp library) ++
      textOp (userText library message.content) (.put (.user itemId)
        (textEntry ("user:" ++ itemId) .userText (userText library message.content) itemId))
  | .assistant =>
    let itemId := orElse message.uuid ("assistant:" ++ toString item.2)
    textOp (textFromContent library message.content) (.put (.assistant itemId)
      (textEntry ("assistant:" ++ itemId) .agentText
        (textFromContent library message.content) itemId)) ++
      message.content.blockList.filterMap (assistantBlockOp library cwd itemId)
  | .other => []

theorem foldl_userBlocks (library : Library) (blocks : List Block) (replay : Replay) :
    blocks.foldl (readUserBlock library) replay =
      (blocks.filterMap (userBlockOp library)).foldl Op.apply replay := by
  induction blocks generalizing replay with
  | nil => rfl
  | cons block blocks ih =>
    have hstep : readUserBlock library replay block =
        (userBlockOp library block).toList.foldl Op.apply replay := by
      cases block with
      | toolResult id content isError =>
        cases id with
        | none => rfl
        | some id =>
          by_cases hid : id = ""
          · subst hid
            simp [readUserBlock, userBlockOp, Replay.upsertToolResult]
          · simp [readUserBlock, userBlockOp, hid, Op.apply]
      | _ => rfl
    rw [List.foldl_cons, hstep, ih, List.filterMap_cons]
    cases userBlockOp library block <;> rfl

theorem foldl_assistantBlocks (library : Library) (cwd : Option String) (itemId : String)
    (blocks : List Block) (replay : Replay) :
    blocks.foldl (readAssistantBlock library cwd itemId) replay =
      (blocks.filterMap (assistantBlockOp library cwd itemId)).foldl Op.apply replay := by
  induction blocks generalizing replay with
  | nil => rfl
  | cons block blocks ih =>
    rw [List.foldl_cons, ih, List.filterMap_cons]
    cases block <;> rfl

theorem readMessage_eq (library : Library) (cwd : Option String) (replay : Replay)
    (item : SdkMessage × ℕ) :
    readMessage library cwd replay item = (opsOf library cwd item).foldl Op.apply replay := by
  obtain ⟨⟨type, uuid, content, isReplay, error⟩, index⟩ := item
  unfold readMessage opsOf
  cases type with
  | user =>
    simp only [foldl_userBlocks, List.foldl_append, textOp]
    split_ifs <;> rfl
  | assistant =>
    simp only [foldl_assistantBlocks, List.foldl_append, textOp]
    split_ifs <;> rfl
  | other => rfl

theorem mapSessionMessages_eq (library : Library) (messages : List SdkMessage)
    (cwd : Option String) : mapSessionMessages library messages cwd =
      ((messages.zipIdx.flatMap (opsOf library cwd)).foldl Op.apply {}).entries := by
  unfold mapSessionMessages
  generalize messages.zipIdx = items
  have hitems : ∀ replay : Replay, items.foldl (readMessage library cwd) replay =
      (items.flatMap (opsOf library cwd)).foldl Op.apply replay := by
    induction items with
    | nil => exact fun _ => rfl
    | cons item items ih =>
      intro replay
      rw [List.foldl_cons, readMessage_eq, ih, List.flatMap_cons, List.foldl_append]
  rw [hitems]

theorem properOps (library : Library) (cwd : Option String) (item : SdkMessage × ℕ) :
    ∀ op ∈ opsOf library cwd item, op.Proper := by
  have htext : ∀ (text : String) (key : ItemKey) (entry : TranscriptEntryView),
      entry.itemId = some key.itemId → ∀ op ∈ textOp text (.put key entry), op.Proper := by
    intro text key entry hkey op hop
    unfold textOp at hop
    split_ifs at hop
    · cases hop
    · rw [List.mem_singleton.mp hop]
      exact hkey
  obtain ⟨⟨type, uuid, content, isReplay, error⟩, index⟩ := item
  intro op hop
  cases type with
  | user =>
    rcases List.mem_append.mp hop with hblock | hput
    · obtain ⟨block, -, hblock⟩ := List.mem_filterMap.mp hblock
      unfold userBlockOp at hblock
      split at hblock
      · split_ifs at hblock with hid
        cases hblock
        exact hid
      · cases hblock
    · exact htext _ _ _ rfl op hput
  | assistant =>
    rcases List.mem_append.mp hop with hput | hblock
    · exact htext _ _ _ rfl op hput
    · obtain ⟨block, -, hblock⟩ := List.mem_filterMap.mp hblock
      unfold assistantBlockOp at hblock
      split at hblock
      · cases hblock
        rfl
      · cases hblock
  | other => cases hop

end keys

section items

def itemEntries (entries : List TranscriptEntryView) (key : ItemKey) : List TranscriptEntryView :=
  entries.filter fun entry => entry.itemId = some key.itemId

structure Indexed (replay : Replay) : Prop where
  found : ∀ id index, replay.toolEntryById[(ItemKey.tool id).itemId]? = some index →
    (replay.entries.map (·.itemId))[index]? = some (some (ItemKey.tool id).itemId) ∧
      ∀ later, index < later →
        (replay.entries.map (·.itemId))[later]? ≠ some (some (ItemKey.tool id).itemId)
  missing : ∀ id, replay.toolEntryById[(ItemKey.tool id).itemId]? = none →
    some (ItemKey.tool id).itemId ∉ replay.entries.map (·.itemId)

theorem Indexed.nil : Indexed {} where
  found id index h := by simp at h
  missing id h := by simp

theorem itemEntries_append (entries more : List TranscriptEntryView) (key : ItemKey) :
    itemEntries (entries ++ more) key = itemEntries entries key ++ itemEntries more key := by
  simp [itemEntries]

theorem itemEntries_singleton {entry : TranscriptEntryView} {key : ItemKey}
    (h : entry.itemId = some key.itemId) (other : ItemKey) :
    itemEntries [entry] other = if key = other then [entry] else [] := by
  by_cases hsame : key = other
  · simp [itemEntries, h, hsame]
  · have hne : key.itemId ≠ other.itemId := fun heq => hsame (ItemKey.itemId_injective heq)
    simp [itemEntries, h, hsame, hne]

theorem itemEntries_eq_nil {entries : List TranscriptEntryView} {key : ItemKey} :
    itemEntries entries key = [] ↔ some key.itemId ∉ entries.map (·.itemId) := by
  rw [itemEntries, List.filter_eq_nil_iff]
  simp only [decide_eq_true_eq, List.mem_map, not_exists, not_and]

/-- A change that keeps the id of an entry, at the last place of that id. -/
theorem itemEntries_modify {entries : List TranscriptEntryView} {index : ℕ} {key : ItemKey}
    (hid : (entries.map (·.itemId))[index]? = some (some key.itemId))
    (hlast : ∀ later, index < later →
      (entries.map (·.itemId))[later]? ≠ some (some key.itemId))
    {f : TranscriptEntryView → TranscriptEntryView} (hf : ∀ entry, (f entry).itemId = entry.itemId) :
    (∃ entry, (itemEntries entries key).getLast? = some entry ∧
      itemEntries (entries.modify index f) key = (itemEntries entries key).dropLast ++ [f entry]) ∧
      ∀ other, other ≠ key →
        itemEntries (entries.modify index f) other = itemEntries entries other := by
  have hlt : index < entries.length := by
    by_contra hnot
    rw [List.getElem?_eq_none (by simpa using hnot)] at hid
    cases hid
  have hentry : entries[index].itemId = some key.itemId := by
    simpa [List.getElem?_eq_getElem hlt] using hid
  have hafter : itemEntries (entries.drop (index + 1)) key = [] := by
    rw [itemEntries_eq_nil]
    intro hmem
    obtain ⟨place, hplace⟩ := List.mem_iff_getElem?.mp hmem
    rw [List.map_drop, List.getElem?_drop] at hplace
    exact hlast _ (by omega) hplace
  have hsplit : entries = entries.take index ++ [entries[index]] ++ entries.drop (index + 1) := by
    simp
  have hmodify : entries.modify index f =
      entries.take index ++ [f entries[index]] ++ entries.drop (index + 1) := by
    rw [List.modify_eq_take_cons_drop hlt]
    simp
  have hold : ∀ other, itemEntries entries other = itemEntries (entries.take index) other ++
      itemEntries [entries[index]] other ++ itemEntries (entries.drop (index + 1)) other := by
    intro other
    conv_lhs => rw [hsplit]
    rw [itemEntries_append, itemEntries_append]
  constructor
  · refine ⟨entries[index], ?_, ?_⟩
    · rw [hold, hafter, itemEntries_singleton hentry, if_pos rfl, List.append_nil,
        List.getLast?_concat]
    · rw [hmodify, hold, itemEntries_append, itemEntries_append, hafter,
        itemEntries_singleton hentry, itemEntries_singleton ((hf _).trans hentry), if_pos rfl,
        if_pos rfl, List.append_nil, List.append_nil, List.dropLast_concat]
  · intro other hother
    rw [hmodify, hold, itemEntries_append, itemEntries_append, itemEntries_singleton hentry,
      itemEntries_singleton ((hf _).trans hentry), if_neg (Ne.symm hother),
      if_neg (Ne.symm hother)]

theorem map_itemId_modify (entries : List TranscriptEntryView) (index : ℕ)
    {f : TranscriptEntryView → TranscriptEntryView} (hf : ∀ entry, (f entry).itemId = entry.itemId) :
    (entries.modify index f).map (·.itemId) = entries.map (·.itemId) := by
  apply List.ext_getElem?
  intro place
  simp only [List.getElem?_map, List.getElem?_modify]
  by_cases hplace : index = place
  · cases entries[place]? <;> simp [hplace, hf]
  · cases entries[place]? <;> simp [hplace]

theorem last_append {α : Type} {ids : List α} {x y : α} {index : ℕ} (hid : ids[index]? = some x)
    (hlast : ∀ later, index < later → ids[later]? ≠ some x) (hne : y ≠ x) :
    (ids ++ [y])[index]? = some x ∧ ∀ later, index < later → (ids ++ [y])[later]? ≠ some x := by
  have hlt : index < ids.length := by
    by_contra hnot
    rw [List.getElem?_eq_none (Nat.not_lt.mp hnot)] at hid
    cases hid
  refine ⟨by rw [List.getElem?_append_left hlt, hid], fun later hlater => ?_⟩
  rcases Nat.lt_or_ge later ids.length with hin | hout
  · rw [List.getElem?_append_left hin]
    exact hlast later hlater
  · rw [List.getElem?_append_right hout]
    cases hplace : later - ids.length with
    | zero => simpa using hne
    | succ place => simp

variable {replay : Replay} {key : ItemKey} {entry : TranscriptEntryView}

theorem Indexed.push (h : Indexed replay) (hentry : entry.itemId = some key.itemId)
    (hkey : ∀ id, key ≠ .tool id) : Indexed (replay.push entry) where
  found id index hindex := by
    obtain ⟨hid, hlast⟩ := h.found id index hindex
    simp only [Replay.push, List.map_append, List.map_cons, List.map_nil, hentry]
    refine last_append hid hlast fun heq => hkey id (ItemKey.itemId_injective ?_)
    exact Option.some.inj heq
  missing id hnone := by
    have hold := h.missing id hnone
    simp only [Replay.push, List.map_append, List.map_cons, List.map_nil, hentry, List.mem_append,
      List.mem_singleton, not_or]
    exact ⟨hold, fun heq => hkey id (ItemKey.itemId_injective (Option.some.inj heq)).symm⟩

theorem Indexed.pushTool (h : Indexed replay) {id : String}
    (hentry : entry.itemId = some (ItemKey.tool id).itemId) :
    Indexed (replay.pushTool ("tool:" ++ id) entry) where
  found other index hindex := by
    simp only [Replay.pushTool, Table.getElem?_insert_of] at hindex
    simp only [Replay.pushTool, List.map_append, List.map_cons, List.map_nil, hentry]
    by_cases hsame : other = id
    · subst hsame
      have hnew : some replay.entries.length = some index :=
        (if_pos (rfl : (ItemKey.tool other).itemId = "tool:" ++ other)).symm.trans hindex
      cases hnew
      refine ⟨?_, fun later hlater => ?_⟩
      · rw [List.getElem?_append_right (by simp)]
        simp
      · rw [List.getElem?_eq_none (by simp; omega)]
        exact (Option.some_ne_none _).symm
    · have hne : (ItemKey.tool other).itemId ≠ "tool:" ++ id := fun heq =>
        hsame (ItemKey.tool.inj (ItemKey.itemId_injective heq))
      rw [if_neg hne] at hindex
      obtain ⟨hid, hlast⟩ := h.found other index hindex
      exact last_append hid hlast fun heq => hne (Option.some.inj heq).symm
  missing other hnone := by
    simp only [Replay.pushTool, Table.getElem?_insert_of] at hnone
    split_ifs at hnone with hsame
    have hold := h.missing other hnone
    simp only [Replay.pushTool, List.map_append, List.map_cons, List.map_nil, hentry,
      List.mem_append, List.mem_singleton, not_or]
    exact ⟨hold, fun heq => hsame (Option.some.inj heq)⟩

theorem Indexed.modify (h : Indexed replay) (index : ℕ)
    {f : TranscriptEntryView → TranscriptEntryView} (hf : ∀ entry, (f entry).itemId = entry.itemId) :
    Indexed { replay with entries := replay.entries.modify index f } where
  found id place hplace := by
    rw [map_itemId_modify _ _ hf]
    exact h.found id place hplace
  missing id hnone := by
    rw [map_itemId_modify _ _ hf]
    exact h.missing id hnone

theorem itemEntries_concat (entries : List TranscriptEntryView)
    (hentry : entry.itemId = some key.itemId) (other : ItemKey) :
    itemEntries (entries ++ [entry]) other =
      if key = other then itemEntries entries other ++ [entry] else itemEntries entries other := by
  rw [itemEntries_append, itemEntries_singleton hentry]
  split_ifs
  · rfl
  · rw [List.append_nil]

theorem apply_spec (h : Indexed replay) {op : Op} (hop : op.Proper) :
    Indexed (op.apply replay) ∧ ∀ other, itemEntries (op.apply replay).entries other =
      if op.key = other then op.onItem (itemEntries replay.entries other)
      else itemEntries replay.entries other := by
  cases op with
  | put key entry =>
    have hitems := fun other => itemEntries_concat replay.entries (hop : entry.itemId = _) other
    cases key with
    | tool id => exact ⟨h.pushTool hop, hitems⟩
    | user id => exact ⟨h.push hop fun _ => ItemKey.noConfusion, hitems⟩
    | assistant id => exact ⟨h.push hop fun _ => ItemKey.noConfusion, hitems⟩
  | result id preview isError =>
    have happly : Op.apply replay (.result id preview isError) =
        match replay.toolEntryById[(ItemKey.tool id).itemId]? with
        | some index =>
          { replay with entries := replay.entries.modify index (settle preview isError) }
        | none => replay.pushTool ("tool:" ++ id) (stubEntry id preview isError) := by
      rw [Op.apply, Replay.upsertToolResult]
      · rfl
      · exact hop
    rw [happly]
    cases hindex : replay.toolEntryById[(ItemKey.tool id).itemId]? with
    | none =>
      have hstub : (stubEntry id preview isError).itemId = some (ItemKey.tool id).itemId := rfl
      refine ⟨h.pushTool hstub, fun other => ?_⟩
      have hnone := itemEntries_eq_nil.mpr (h.missing id hindex)
      have hconcat := itemEntries_concat replay.entries hstub other
      refine hconcat.trans ?_
      by_cases hkey : (Op.result id preview isError).key = other
      · subst hkey
        simp only [Op.key, Op.onItem, hnone, if_true, List.nil_append, List.getLast?_nil]
      · rw [if_neg hkey]
        exact if_neg hkey
    | some index =>
      obtain ⟨hid, hlast⟩ := h.found id index hindex
      obtain ⟨⟨entry, hentry, hsame⟩, hothers⟩ := itemEntries_modify hid hlast
        (fun entry => (rfl : (settle preview isError entry).itemId = entry.itemId))
      refine ⟨h.modify index fun _ => rfl, fun other => ?_⟩
      by_cases hkey : (Op.result id preview isError).key = other
      · subst hkey
        simp only [Op.key, Op.onItem, hentry, if_true]
        exact hsame
      · rw [if_neg hkey]
        exact hothers other (Ne.symm hkey)

theorem foldl_apply (ops : List Op) (hproper : ∀ op ∈ ops, op.Proper) (h : Indexed replay)
    (key : ItemKey) : itemEntries (ops.foldl Op.apply replay).entries key =
      (ops.filter fun op => op.key = key).foldl Op.onItem (itemEntries replay.entries key) := by
  induction ops generalizing replay with
  | nil => rfl
  | cons op ops ih =>
    obtain ⟨hindexed, hitems⟩ := apply_spec h (hproper op List.mem_cons_self)
    rw [List.foldl_cons, ih (fun other hother => hproper other (List.mem_cons_of_mem _ hother))
      hindexed, hitems, List.filter_cons]
    by_cases hkey : op.key = key
    · simp [hkey]
    · simp [hkey]

theorem itemEntries_messages (library : Library) (messages : List SdkMessage)
    (cwd : Option String) (key : ItemKey) :
    itemEntries (mapSessionMessages library messages cwd) key =
      ((messages.zipIdx.flatMap (opsOf library cwd)).filter fun op => op.key = key).foldl
        Op.onItem [] := by
  rw [mapSessionMessages_eq]
  refine foldl_apply _ (fun op hop => ?_) .nil key
  obtain ⟨item, -, hop⟩ := List.mem_flatMap.mp hop
  exact properOps library cwd item op hop

end items

end AgentRelay.Session
