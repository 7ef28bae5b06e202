import AgentRelay.TabLayout

/-! What a surface has on screen and which tabs it keeps: one location, the tab strips of all
workspaces, and the commands that move between them. Payloads and facts come from outside, so
they are JavaScript values of any shape. -/
namespace AgentRelay.Tabs
open Text

/-- A JavaScript value; the fields of an object have distinct names. -/
inductive Js
  | undefined
  | null
  | bool (value : Bool)
  | number (value : JsNumber)
  | string (text : String)
  | array (items : List Js)
  | set (items : List Js)
  | object (fields : List (String × Js))

namespace Js

/-- `value?.key`. -/
def get (value : Js) (key : String) : Js :=
  match value with
  | .object fields => (fields.lookup key).getD .undefined
  | _ => .undefined

def isTruthy : Js → Bool
  | .undefined | .null => false
  | .bool value => value
  | .number value => value ≠ .nan ∧ value ≠ .finite 0
  | .string text => text ≠ ""
  | _ => true

/-- `value === text`. -/
def isString (value : Js) (text : String) : Bool :=
  match value with
  | .string other => other = text
  | _ => false

/-- `value === flag`. -/
def isBool (value : Js) (flag : Bool) : Bool :=
  match value with
  | .bool other => other = flag
  | _ => false

def isNumber (value : Js) (number : JsNumber) : Bool :=
  match value with
  | .number other => other = number
  | _ => false

end Js

def stringId : Js → Option String
  | .string text => if text = "" then none else some text
  | _ => none

/-- The ids among the members of an array or a set, each once. -/
def stringSet (values : Js) : List String :=
  match values with
  | .set items => (items.filterMap stringId).eraseDups
  | .array items => (items.filterMap stringId).eraseDups
  | _ => []

inductive SessionContext
  | sessions
  | project (projectId : String)
  | tasks (teamRunId : Option String)
  | teams (teamId : Option String)
  | usage
  | review (teamRunId : String)
  deriving DecidableEq, Repr

def normalizeSessionViewContext (context : Js) : SessionContext :=
  let kind := context.get "kind"
  if kind.isString "project" then
    match stringId (context.get "projectId") with
    | some projectId => .project projectId
    | none => .sessions
  else if kind.isString "tasks" then .tasks (stringId (context.get "teamRunId"))
  else if kind.isString "teams" then .teams (stringId (context.get "teamId"))
  else if kind.isString "usage" then .usage
  else if kind.isString "review" then
    match stringId (context.get "teamRunId") with
    | some teamRunId => .review teamRunId
    | none => .tasks none
  else .sessions

def sessionsKey : String := "__sessions__"

def tasksKey : String := "__tasks__"

def teamsKey : String := "__teams__"

def usageKey : String := "__usage__"

def reviewKey : String := "__review__"

def isFullAreaContext : SessionContext → Bool
  | .tasks _ | .teams _ | .usage | .review _ => true
  | _ => false

def isScreenKey (screen key : String) : Bool := key = screen || startsWith key (screen ++ ":")

def isTasksWorkspaceKey (key : String) : Bool := isScreenKey tasksKey key

def isTeamsWorkspaceKey (key : String) : Bool := isScreenKey teamsKey key

def isReviewWorkspaceKey (key : String) : Bool := isScreenKey reviewKey key

def isFullAreaWorkspaceKey (key : String) : Bool :=
  isTasksWorkspaceKey key || isTeamsWorkspaceKey key || isReviewWorkspaceKey key ||
    key = usageKey

def sessionViewContextKey : SessionContext → String
  | .sessions => sessionsKey
  | .tasks teamRunId => teamRunId.elim tasksKey (tasksKey ++ ":" ++ ·)
  | .teams teamId => teamId.elim teamsKey (teamsKey ++ ":" ++ ·)
  | .usage => usageKey
  | .review teamRunId => reviewKey ++ ":" ++ teamRunId
  | .project projectId => projectId

def contextThatCanHoldTabs (context : SessionContext) : SessionContext :=
  if isFullAreaContext context then .sessions else context

/-- A context worth returning to; a full-area screen is not one. -/
def returnableContext (context : Option SessionContext) : Option SessionContext :=
  context.filter fun context => !isFullAreaContext context

structure Facts where
  projectIds : Js := .undefined
  projectIdsComplete : Js := .undefined
  unavailableThreadIds : Js := .undefined

/-- The remembered context, or the default workspace if its project is known to be gone. -/
def availableReturnContext (context : SessionContext) (facts : Facts) : SessionContext :=
  match context with
  | .project projectId =>
    if facts.projectIdsComplete.isBool false then context
    else
      match facts.projectIds with
      | .array items => if items.any (·.isString projectId) then context else .sessions
      | _ => context
  | _ => context

structure SessionLocation where
  context : SessionContext
  threadId : Option String
  deriving DecidableEq, Repr

structure SessionViewState where
  location : SessionLocation
  returnContext : SessionContext
  workspaces : Table TabWorkspace

def normalizeWorkspaces (workspaces : Table TabWorkspace) : Table TabWorkspace :=
  workspaces.map fun _ workspace => createTabWorkspace workspace

def workspaceFor (workspaces : Table TabWorkspace) (context : SessionContext) : TabWorkspace :=
  createTabWorkspace (workspaces[sessionViewContextKey context]?.getD {})

def withWorkspace (workspaces : Table TabWorkspace) (context : SessionContext)
    (workspace : TabWorkspace) : Table TabWorkspace :=
  workspaces.insert (sessionViewContextKey context) (createTabWorkspace workspace)

def focusedThreadId (workspace : TabWorkspace) : Option String :=
  (focusedTab workspace).bind fun tab => (layoutThreadIds tab.layout).head?

/-- Repair a snapshot: a routed session is open and in focus in its own context. The contexts
of a snapshot are normalized when they come in. -/
def createSessionViewState (location : SessionLocation) (returnContext : Option SessionContext)
    (workspaces : Table TabWorkspace) : SessionViewState :=
  let threadId := location.threadId.filter (· ≠ "")
  let workspaces := normalizeWorkspaces workspaces
  let current := workspaceFor workspaces location.context
  { location := { location with threadId := threadId }
    returnContext :=
      (returnableContext returnContext).getD (contextThatCanHoldTabs location.context)
    workspaces := withWorkspace workspaces location.context
      (match threadId with
      | some threadId => openThreadTab current threadId none false
      | none => current) }

/-- The state of a surface that has nothing to restore: `createSessionViewState({})`. -/
def initialSessionView : SessionViewState :=
  createSessionViewState { context := .sessions, threadId := none } none ∅

def removeThread (state : SessionViewState) (threadId : Js) : SessionViewState :=
  match stringId threadId with
  | none => state
  | some target =>
    let workspaces := state.workspaces.map fun _ workspace =>
      let normalized := createTabWorkspace workspace
      match findTabByThread normalized target with
      | some owning => closeTab normalized owning.id
      | none => normalized
    let location :=
      if state.location.threadId = some target then
        { state.location with
          threadId := focusedThreadId (workspaceFor workspaces state.location.context) }
      else state.location
    createSessionViewState location (some state.returnContext) workspaces

def sweepUnavailableThreads (state : SessionViewState) (unavailableThreadIds : Js) :
    SessionViewState :=
  (stringSet unavailableThreadIds).foldl (fun next threadId => removeThread next (.string threadId))
    state

def historyVersion : JsNumber := .finite 1

def contextFromHistory (entry : Js) (currentContext : SessionContext) (projectIds : Js)
    (projectIdsComplete : Bool) : SessionContext :=
  let knownProjects := stringSet projectIds
  if (entry.get "version").isNumber historyVersion && (entry.get "context").isTruthy then
    let context := normalizeSessionViewContext (entry.get "context")
    match context with
    | .project projectId =>
      if projectIdsComplete && !knownProjects.contains projectId then .sessions else context
    | _ => context
  else if (entry.get "viewMode").isString "sessions" then .sessions
  else if (entry.get "viewMode").isString "projects" then
    match stringId (entry.get "projectId") with
    | some projectId =>
      if !projectIdsComplete || knownProjects.contains projectId then .project projectId
      else .sessions
    | none => .sessions
  else currentContext

/-- The commands; `other` stands for every command that is not one of them. `toIndex` is the
payload as `Number` reads it. -/
inductive SessionAction
  | openThread (threadId context preview : Js)
  | promoteTab (context tabId threadId : Js)
  | returnToSessions
  | switchContext (context : Js)
  | showOverview (context : Js)
  | closeTab (tabId context : Js)
  | pinTab (tabId context pinned : Js)
  | moveTab (tabId context : Js) (toIndex : JsNumber)
  | removeThread (threadId : Js)
  | retargetThread (fromThreadId toThreadId : Js)
  | restoreHistory (entry urlThreadId preview : Js)
  | other

/-- `action.context ? normalizeSessionViewContext(action.context) : state.location.context`. -/
def contextOr (context : Js) (current : SessionContext) : SessionContext :=
  if context.isTruthy then normalizeSessionViewContext context else current

/-- The state after one tab strip was replaced; the location stays as given. -/
def rebuild (state : SessionViewState) (location : SessionLocation) (context : SessionContext)
    (workspace : TabWorkspace) : SessionViewState :=
  createSessionViewState location none (withWorkspace state.workspaces context workspace)

def reduceSessionViewCases (snapshot : SessionViewState) (action : SessionAction)
    (facts : Facts) : SessionViewState :=
  let state := sweepUnavailableThreads
    (createSessionViewState snapshot.location (some snapshot.returnContext) snapshot.workspaces)
    facts.unavailableThreadIds
  let unavailable := stringSet facts.unavailableThreadIds
  match action with
  | .openThread threadId context preview =>
    match stringId threadId with
    | none => state
    | some threadId =>
      if unavailable.contains threadId then removeThread state (.string threadId)
      else
        let context := contextThatCanHoldTabs (contextOr context state.location.context)
        let opened := openThreadTab (workspaceFor state.workspaces context) threadId none
          (preview.isBool true)
        let owning := if preview.isBool false then findTabByThread opened threadId else none
        rebuild state { context := context, threadId := some threadId } context
          (match owning with
          | some owning => promoteTab opened owning.id
          | none => opened)
  | .promoteTab context tabId threadId =>
    let context := contextOr context state.location.context
    let current := workspaceFor state.workspaces context
    let tabId := (stringId tabId).or
      (((stringId threadId).bind (findTabByThread current)).map (·.id))
    match tabId with
    | none => state
    | some tabId => rebuild state state.location context (promoteTab current tabId)
  | .returnToSessions =>
    let context := availableReturnContext
      ((returnableContext (some state.returnContext)).getD .sessions) facts
    createSessionViewState
      { context := context, threadId := focusedThreadId (workspaceFor state.workspaces context) }
      none state.workspaces
  | .switchContext context =>
    let context := normalizeSessionViewContext context
    createSessionViewState
      { context := context, threadId := focusedThreadId (workspaceFor state.workspaces context) }
      none state.workspaces
  | .showOverview context =>
    createSessionViewState
      { context := contextOr context state.location.context, threadId := none } none
      state.workspaces
  | .closeTab tabId context =>
    match stringId tabId with
    | none => state
    | some tabId =>
      let context := contextOr context state.location.context
      let current := workspaceFor state.workspaces context
      let closing := findTab current tabId
      let closesVisibleThread :=
        match closing, state.location.threadId with
        | some closing, some threadId =>
          sessionViewContextKey context = sessionViewContextKey state.location.context &&
            layoutHasThread closing.layout threadId
        | _, _ => false
      let closed := closeTab current tabId
      rebuild state
        (if closesVisibleThread then
          { state.location with threadId := focusedThreadId closed }
        else state.location) context closed
  | .pinTab tabId context pinned =>
    match stringId tabId with
    | none => state
    | some tabId =>
      let context := contextOr context state.location.context
      rebuild state state.location context
        (setTabPinned (workspaceFor state.workspaces context) tabId pinned.isTruthy)
  | .moveTab tabId context toIndex =>
    match stringId tabId with
    | none => state
    | some tabId =>
      let context := contextOr context state.location.context
      rebuild state state.location context
        (moveTab (workspaceFor state.workspaces context) tabId toIndex)
  | .removeThread threadId => removeThread state threadId
  | .retargetThread fromThreadId toThreadId =>
    match stringId fromThreadId, stringId toThreadId with
    | some fromThreadId, some toThreadId =>
      if fromThreadId = toThreadId then state
      else if unavailable.contains toThreadId then
        removeThread (removeThread state (.string fromThreadId)) (.string toThreadId)
      else
        createSessionViewState
          { state.location with
            threadId :=
              if state.location.threadId = some fromThreadId then some toThreadId
              else state.location.threadId } none
          (state.workspaces.map fun _ workspace =>
            Tabs.retargetThread workspace fromThreadId toThreadId)
    | _, _ => state
  | .restoreHistory entry urlThreadId preview =>
    let context := contextFromHistory entry state.location.context facts.projectIds
      (!facts.projectIdsComplete.isBool false)
    match stringId urlThreadId with
    | none =>
      createSessionViewState { context := context, threadId := none } none state.workspaces
    | some urlThreadId =>
      if unavailable.contains urlThreadId then
        createSessionViewState
          { context := context
            threadId := focusedThreadId (workspaceFor state.workspaces context) } none
          state.workspaces
      else
        let tabContext := contextThatCanHoldTabs context
        rebuild state { context := tabContext, threadId := some urlThreadId } tabContext
          (openThreadTab (workspaceFor state.workspaces tabContext) urlThreadId none
            (preview.isBool true))
  | .other => state

/-- One command, with the memory of where the Sessions button goes carried over. -/
def reduceSessionView (snapshot : SessionViewState) (action : SessionAction) (facts : Facts) :
    SessionViewState :=
  let carried := returnableContext (some snapshot.returnContext)
  let next := reduceSessionViewCases snapshot action facts
  let landed := returnableContext (some next.location.context)
  { next with returnContext := (landed.or carried).getD .sessions }

/-- What is wrong with a state, in the words of the surface's own check. -/
def sessionViewInvariantErrors (snapshot : SessionViewState) : List String :=
  let context := snapshot.location.context
  let key := sessionViewContextKey context
  let workspaces := normalizeWorkspaces snapshot.workspaces
  let current := createTabWorkspace (workspaces[key]?.getD {})
  let routed :=
    match snapshot.location.threadId.filter (· ≠ "") with
    | none => []
    | some threadId =>
      if isFullAreaContext context then ["context " ++ key ++ " cannot hold a thread tab"]
      else
        match findTabByThread current threadId with
        | none => ["visible thread " ++ threadId ++ " is not open in " ++ key]
        | some owning =>
          if current.focusedTabId ≠ some owning.id then
            ["visible thread " ++ threadId ++ " is not the remembered focus in " ++ key]
          else []
  let returning :=
    if isFullAreaContext snapshot.returnContext then
      ["returnContext cannot be a full-area context"]
    else []
  let focused := workspaces.toList.filterMap fun (key, workspace) =>
    let normalized := createTabWorkspace workspace
    match normalized.focusedTabId with
    | some focus =>
      if (findTab normalized focus).isNone then
        some ("workspace " ++ key ++ " focuses a missing tab")
      else none
    | none => none
  routed ++ returning ++ focused

end AgentRelay.Tabs
