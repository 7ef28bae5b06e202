import AgentRelay.Text

/-! A surface's strip of tabs: an ordered list of tabs, each showing a tree of sessions, with
the tab that is remembered as focused. Every operation first repairs the strip it is given. -/
namespace AgentRelay.Tabs

/-- A JavaScript number; the finite ones are rationals. -/
inductive JsNumber
  | nan
  | infinite (negative : Bool)
  | finite (value : ℚ)
  deriving DecidableEq, Repr

inductive Layout
  | leaf (threadId : String)
  | split (children : List Layout)

structure Tab where
  id : String
  pinned : Bool
  preview : Bool
  layout : Layout

structure TabWorkspace where
  tabs : List Tab := []
  focusedTabId : Option String := none

def createLeaf (threadId : String) : Layout := .leaf threadId

mutual

def layoutThreadIds : Layout → List String
  | .leaf threadId => if threadId = "" then [] else [threadId]
  | .split children => childrenThreadIds children

def childrenThreadIds : List Layout → List String
  | [] => []
  | child :: children => layoutThreadIds child ++ childrenThreadIds children

end

def layoutHasThread (layout : Layout) (threadId : String) : Bool :=
  threadId ≠ "" && (layoutThreadIds layout).contains threadId

def normalizeTab (tab : Tab) : Tab := { tab with preview := !tab.pinned && tab.preview }

/-- Pinned tabs before unpinned ones, in their order otherwise. -/
def partitionPinned (tabs : List Tab) : List Tab :=
  tabs.filter (·.pinned) ++ tabs.filter (!·.pinned)

def createTabWorkspace (workspace : TabWorkspace) : TabWorkspace :=
  let normalized := partitionPinned ((workspace.tabs.map normalizeTab).filter (·.id ≠ ""))
  let focusExists := normalized.any fun tab => some tab.id = workspace.focusedTabId
  { tabs := normalized
    focusedTabId :=
      if focusExists then workspace.focusedTabId else normalized.head?.map (·.id) }

def findTabByThread (workspace : TabWorkspace) (threadId : String) : Option Tab :=
  if threadId = "" then none
  else workspace.tabs.find? fun tab => layoutHasThread tab.layout threadId

def findTab (workspace : TabWorkspace) (tabId : String) : Option Tab :=
  workspace.tabs.find? fun tab => tab.id = tabId

def tabIdForThread (threadId : String) : String := "tab-" ++ threadId

/-- Open a session, or focus the tab that shows it already; a preview takes the place of the
tab that was previewed before. -/
def openThreadTab (workspace : TabWorkspace) (threadId : String) (tabId : Option String)
    (preview : Bool) : TabWorkspace :=
  let base := createTabWorkspace workspace
  if threadId = "" then base
  else
    match findTabByThread base threadId with
    | some existing => { base with focusedTabId := some existing.id }
    | none =>
      let tab := normalizeTab
        { id := (tabId.filter (· ≠ "")).getD (tabIdForThread threadId), pinned := false
          preview := preview, layout := createLeaf threadId }
      match (if preview then base.tabs.findIdx? (·.preview) else none) with
      | some replacing =>
        { tabs := partitionPinned (base.tabs.set replacing tab), focusedTabId := some tab.id }
      | none => { tabs := partitionPinned (base.tabs ++ [tab]), focusedTabId := some tab.id }

def promoteTab (workspace : TabWorkspace) (tabId : String) : TabWorkspace :=
  let base := createTabWorkspace workspace
  match findTab base tabId with
  | none => base
  | some target =>
    if !target.preview then base
    else
      { base with
        tabs := base.tabs.map fun tab =>
          if tab.id = tabId then { tab with preview := false } else tab }

/-- Focus moves to the right-hand neighbour, or to the left one of the last tab. -/
def closeTab (workspace : TabWorkspace) (tabId : String) : TabWorkspace :=
  let base := createTabWorkspace workspace
  match base.tabs.findIdx? (·.id = tabId) with
  | none => base
  | some index =>
    let tabs := base.tabs.filter (·.id ≠ tabId)
    if base.focusedTabId ≠ some tabId then { base with tabs := tabs }
    else
      let nextFocus := tabs[index]?.or (if index = 0 then none else tabs[index - 1]?)
      { tabs := tabs, focusedTabId := nextFocus.map (·.id) }

def setTabPinned (workspace : TabWorkspace) (tabId : String) (pinned : Bool) : TabWorkspace :=
  let base := createTabWorkspace workspace
  match findTab base tabId with
  | none => base
  | some _ =>
    { base with
      tabs := partitionPinned (base.tabs.map fun tab =>
        if tab.id = tabId then normalizeTab { tab with pinned := pinned } else tab) }

/-- `Math.min(Math.max(toIndex, lower), upper)`, nothing where that is not finite. -/
def clampIndex (toIndex : JsNumber) (lower upper : ℚ) : Option ℚ :=
  match toIndex with
  | .nan => none
  | .infinite negative => some (min (if negative then lower else upper) upper)
  | .finite value => some (min (max value lower) upper)

def moveTab (workspace : TabWorkspace) (tabId : String) (toIndex : JsNumber) : TabWorkspace :=
  let base := createTabWorkspace workspace
  match base.tabs.findIdx? (·.id = tabId) with
  | none => base
  | some fromIndex =>
    match base.tabs[fromIndex]? with
    | none => base
    | some tab =>
      let moving := normalizeTab { tab with preview := false }
      let pinnedCount := (base.tabs.filter (·.pinned)).length
      let lowerBound : ℚ := if moving.pinned then 0 else pinnedCount
      let upperBound : ℚ := if moving.pinned then pinnedCount - 1 else base.tabs.length - 1
      match clampIndex toIndex lowerBound upperBound with
      | none => base
      | some target =>
        if target = fromIndex then base
        else
          { base with
            tabs := (base.tabs.eraseIdx fromIndex).insertIdx target.floor.toNat moving }

def focusedTab (workspace : TabWorkspace) : Option Tab :=
  workspace.tabs.find? fun tab => some tab.id = workspace.focusedTabId

def openThreadIds (workspace : TabWorkspace) : List String :=
  workspace.tabs.flatMap fun tab => layoutThreadIds tab.layout

mutual

def rewriteLayoutThread (fromThreadId toThreadId : String) : Layout → Layout
  | .leaf threadId => if threadId = fromThreadId then createLeaf toThreadId else .leaf threadId
  | .split children => .split (rewriteChildren fromThreadId toThreadId children)

def rewriteChildren (fromThreadId toThreadId : String) : List Layout → List Layout
  | [] => []
  | child :: children =>
    rewriteLayoutThread fromThreadId toThreadId child ::
      rewriteChildren fromThreadId toThreadId children

end

/-- Rekey a session in place; if the other session is open in another tab, drop this tab. -/
def retargetThread (workspace : TabWorkspace) (fromThreadId toThreadId : String) :
    TabWorkspace :=
  let base := createTabWorkspace workspace
  if fromThreadId = "" ∨ toThreadId = "" ∨ fromThreadId = toThreadId then base
  else
    match findTabByThread base fromThreadId with
    | none => base
    | some owning =>
      if (findTabByThread base toThreadId).any (·.id ≠ owning.id) then closeTab base owning.id
      else
        let renamedId :=
          if owning.id = tabIdForThread fromThreadId then tabIdForThread toThreadId
          else owning.id
        { tabs := base.tabs.map fun tab =>
            if tab.id = owning.id then
              { tab with
                id := renamedId
                layout := rewriteLayoutThread fromThreadId toThreadId tab.layout }
            else tab
          focusedTabId :=
            if base.focusedTabId = some owning.id then some renamedId else base.focusedTabId }

end AgentRelay.Tabs
