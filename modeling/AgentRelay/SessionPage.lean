import AgentRelay.SessionLines
import AgentRelay.SessionView
import AgentRelay.ThreadAttention

/-! Paging a session file from its newest message to its root: each record names its parent, which
may stand before or after it, and is searched in both directions by the text of the lines. -/
namespace AgentRelay.SessionPage
open Tabs (Js)
open Attention.Client (isJsWhitespace)

/-- `===`, between what separate parses give: no two arrays or objects are the same. -/
def strictEq : Js → Js → Bool
  | .undefined, .undefined => true
  | .null, .null => true
  | .bool left, .bool right => left = right
  | .number left, .number right => left = right ∧ left ≠ .nan
  | .string left, .string right => left = right
  | _, _ => false

def isJsString : Js → Bool
  | .string _ => true
  | _ => false

structure SessionMessage where
  type : Js
  uuid : Js
  sessionId : Js
  message : Js
  parentToolUseId : Js
  timestamp : Js

def isConversationMessage (record : Js) : Bool :=
  ((record.get "type").isString "user" || (record.get "type").isString "assistant") &&
    !(record.get "isSidechain").isBool true && isJsString (record.get "uuid")

def toSessionMessage (record : Js) : SessionMessage where
  type := record.get "type"
  uuid := record.get "uuid"
  sessionId := if (record.get "sessionId").isTruthy then record.get "sessionId" else .string ""
  message := record.get "message"
  parentToolUseId :=
    match record.get "parent_tool_use_id" with
    | .undefined | .null => .null
    | value => value
  timestamp := record.get "timestamp"

section text

/-- After the key: a colon and a string that is not empty, as the text has it. -/
def quotedValue (text : List Char) : Option (List Char) :=
  match text.dropWhile isJsWhitespace with
  | ':' :: rest =>
    match rest.dropWhile isJsWhitespace with
    | '"' :: value =>
      let uuid := value.takeWhile (· ≠ '"')
      if uuid ≠ [] ∧ uuid.length < value.length then some uuid else none
    | _ => none
  | _ => none

/-- The first place of the text where a uuid is written, at whatever depth. -/
def matchUuid : List Char → Option (List Char)
  | [] => none
  | c :: rest =>
    let here := if "\"uuid\"".toList <+: c :: rest then quotedValue ((c :: rest).drop 6) else none
    here.or (matchUuid rest)

def jsTrim (text : List Char) : List Char :=
  (text.dropWhile isJsWhitespace).rdropWhile isJsWhitespace

end text

/-- Where lines with a uuid were seen, the latest first. -/
abbrev Offsets := List (Js × Nat)

def Offsets.get (offsets : Offsets) (uuid : Js) : Option Nat :=
  (offsets.find? fun entry => strictEq entry.1 uuid).map (·.2)

structure Limits where
  rawMessageLimit : Nat
  targetBytes : Nat

structure Page where
  messages : List SessionMessage
  nextCursor : Option Nat
  nextExpectedUuid : Js
  parsedLineCount : Nat

def emptyPage : Page := ⟨[], none, .null, 0⟩

inductive PageError
  | cursorGone (offset : Nat)
  | parentCycle (uuid : Js)
  | notRecordBoundary (offset : Nat)
  | noLongerMatches (offset : Nat)
  | parentNotFound (uuid : Js)

structure Scan where
  lines : List Line
  done : Bool

structure PageState where
  nextOffset : Nat
  nextExpectedUuid : Js
  selectedNewestFirst : List SessionMessage
  visited : List Js
  parsedLineCount : Nat
  offsets : Offsets

inductive Progress
  | more (s : PageState)
  | finished (page : Page)

section code

variable (decode : Bytes → List Char) (jsonParse : List Char → Option Js)
  (messageBytes : SessionMessage → Nat) (limits : Limits) (file : Bytes)

def parseRecord (bytes : Bytes) : Js :=
  let line := jsTrim (decode bytes)
  if line = [] then .null else (jsonParse line).getD .null

def rawUuid (line : Line) : Option String := (matchUuid (decode line.bytes)).map String.ofList

def cacheUuidOffset (line : Line) (offsets : Offsets) : Option String × Offsets :=
  match rawUuid decode line with
  | some uuid => (some uuid, (.string uuid, line.start) :: offsets)
  | none => (none, offsets)

def findLatestConversationRecord : List Line → Offsets → Option Line × Offsets
  | [], offsets => (none, offsets)
  | line :: rest, offsets =>
    let cached := (cacheUuidOffset decode line offsets).2
    if isConversationMessage (parseRecord decode jsonParse line.bytes) then (some line, cached)
    else findLatestConversationRecord rest cached

def scanWindow (targetUuid : Js) (leaves : Line → Bool) :
    List Line → Offsets → Option Nat × Scan × Offsets
  | [], offsets => (none, ⟨[], true⟩, offsets)
  | line :: rest, offsets =>
    let cached := cacheUuidOffset decode line offsets
    if (cached.1.map fun uuid => strictEq (.string uuid) targetUuid).getD false then
      (some line.start, ⟨rest, false⟩, cached.2)
    else if leaves line then (none, ⟨rest, false⟩, cached.2)
    else scanWindow targetUuid leaves rest cached.2

/-- A window of one direction; a direction that has ended is left alone. -/
def scanTurn (targetUuid : Js) (leaves : Line → Bool) (scan : Scan) (offsets : Offsets) :
    Option Nat × Scan × Offsets :=
  if scan.done then (none, scan, offsets)
  else scanWindow decode targetUuid leaves scan.lines offsets

def nextFloor (backward : Scan) (backwardFloor : Nat) : Nat :=
  if backward.done then backwardFloor else backwardFloor - parentSearchChunkBytes

def nextCeiling (forward : Scan) (forwardCeiling : Nat) : Nat :=
  if forward.done then forwardCeiling
  else min file.length (forwardCeiling + parentSearchChunkBytes)

/-- The windows of both directions in turn. A round takes a line or ends a direction, so there are
no more rounds than lines and directions. -/
def searchLoop (targetUuid : Js) : Nat → Scan → Nat → Scan → Nat → Offsets → Option Nat × Offsets
  | 0, _, _, _, _, offsets => (none, offsets)
  | rounds + 1, backward, backwardFloor, forward, forwardCeiling, offsets =>
    if backward.done ∧ forward.done then (none, offsets)
    else
      let floor := nextFloor backward backwardFloor
      let ceiling := nextCeiling file forward forwardCeiling
      match scanTurn decode targetUuid (fun line => line.start ≤ floor) backward offsets with
      | (some start, _, offsets) => (some start, offsets)
      | (none, backward, offsets) =>
        match scanTurn decode targetUuid (fun line => ceiling ≤ line.stop) forward offsets with
        | (some start, _, offsets) => (some start, offsets)
        | (none, forward, offsets) =>
          searchLoop targetUuid rounds backward floor forward ceiling offsets

def findRecordOffsetByUuid (targetUuid : Js) (currentStart currentEnd : Nat) (offsets : Offsets) :
    Option Nat × Offsets :=
  match offsets.get targetUuid with
  | some cached => (some cached, offsets)
  | none =>
    let backward := linesBackward file currentStart parentSearchChunkBytes
    let forward := linesForward file (min (currentEnd + 1) file.length) parentSearchChunkBytes
    searchLoop decode file targetUuid (backward.length + forward.length + 2)
      ⟨backward, currentStart ≤ 0⟩ currentStart ⟨forward, file.length ≤ currentEnd + 1⟩
      (currentEnd + 1) offsets

/-- The bytes of `JSON.stringify` of the messages, given those of each. -/
def pageBytes (messages : List SessionMessage) : Nat :=
  2 + (messages.map messageBytes).sum + (messages.length - 1)

def pageIsFull (selected : List SessionMessage) : Bool :=
  limits.rawMessageLimit ≤ selected.length ||
    8 ≤ selected.length && limits.targetBytes ≤ pageBytes messageBytes selected

def pageStep (s : PageState) : Except PageError Progress :=
  if s.visited.any (strictEq s.nextExpectedUuid) then
    .error (.parentCycle s.nextExpectedUuid)
  else
    match readLineAtStart file s.nextOffset with
    | none => .error (.notRecordBoundary s.nextOffset)
    | some line =>
      let record := parseRecord decode jsonParse line.bytes
      if ¬ strictEq (record.get "uuid") s.nextExpectedUuid then
        .error (.noLongerMatches s.nextOffset)
      else
        let selected := if isConversationMessage record
          then s.selectedNewestFirst ++ [toSessionMessage record] else s.selectedNewestFirst
        let parent := record.get "parentUuid"
        if ¬ parent.isTruthy then
          .ok (.finished ⟨selected.reverse, none, .null, s.parsedLineCount + 1⟩)
        else
          let found := findRecordOffsetByUuid decode file parent line.start line.stop
            ((record.get "uuid", line.start) :: s.offsets)
          match found.1 with
          | none => .error (.parentNotFound parent)
          | some nextOffset =>
            if pageIsFull messageBytes limits selected then
              .ok (.finished ⟨selected.reverse, some nextOffset, parent, s.parsedLineCount + 1⟩)
            else
              .ok (.more ⟨nextOffset, parent, selected, s.nextExpectedUuid :: s.visited,
                s.parsedLineCount + 1, found.2⟩)

/-- The page's loop; `none` when the rounds run out. -/
def pageLoop : Nat → PageState → Option (Except PageError Page)
  | 0, _ => none
  | rounds + 1, s =>
    match pageStep decode jsonParse messageBytes limits file s with
    | .error error => some (.error error)
    | .ok (.finished page) => some (.ok page)
    | .ok (.more next) => pageLoop rounds next

/-- Begin a page at a record; every round visits another line of the file. -/
def pageFrom (nextOffset : Nat) (nextExpectedUuid : Js) (offsets : Offsets) :
    Option (Except PageError Page) :=
  if nextExpectedUuid.isTruthy then
    pageLoop decode jsonParse messageBytes limits file (file.length + 2)
      ⟨nextOffset, nextExpectedUuid, [], [], 0, offsets⟩
  else some (.ok ⟨[], some nextOffset, nextExpectedUuid, 0⟩)

def readSessionMessagePage (beforeByte : Option Nat) : Option (Except PageError Page) :=
  match beforeByte with
  | none =>
    let latest := findLatestConversationRecord decode jsonParse
      (linesBackward file file.length readChunkBytes) []
    match latest.1 with
    | none => some (.ok emptyPage)
    | some line =>
      pageFrom decode jsonParse messageBytes limits file line.start
        ((parseRecord decode jsonParse line.bytes).get "uuid") latest.2
  | some cursor =>
    match readLineAtStart file cursor with
    | none => some (.error (.cursorGone cursor))
    | some line =>
      let uuid := (parseRecord decode jsonParse line.bytes).get "uuid"
      if ¬ uuid.isTruthy then some (.error (.cursorGone cursor))
      else pageFrom decode jsonParse messageBytes limits file cursor uuid []

inductive Ending
  | complete
  | failed

inductive Pages : Option Nat → List Page → Ending → Prop
  | error {cursor : Option Nat} {error : PageError}
      (h : readSessionMessagePage decode jsonParse messageBytes limits file cursor =
        some (.error error)) : Pages cursor [] .failed
  | last {cursor : Option Nat} {page : Page}
      (h : readSessionMessagePage decode jsonParse messageBytes limits file cursor =
        some (.ok page)) (hlast : page.nextCursor = none) : Pages cursor [page] .complete
  | more {cursor : Option Nat} {page : Page} {next : Nat} {pages : List Page} {ending : Ending}
      (h : readSessionMessagePage decode jsonParse messageBytes limits file cursor =
        some (.ok page)) (hnext : page.nextCursor = some next)
      (hrest : Pages (some next) pages ending) : Pages cursor (page :: pages) ending

end code

end AgentRelay.SessionPage
