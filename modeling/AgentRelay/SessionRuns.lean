import AgentRelay.SessionRules
import AgentRelay.StepRun

/-! Runs of a surface's session view. Whatever the commands and the facts, the routed session is
open and in focus, the strips stay in order and no unavailable session is open, as long as no
project bears the name of a full-area screen. -/
namespace AgentRelay.Tabs
open Text

variable {s next : SessionViewState} {context : SessionContext} {key : String}
  {w : TabWorkspace} {threadId : String} {unavailable : List String}

/-- The contexts a command names; a falsy payload names none, and reads as the default one. -/
def SessionAction.contexts : SessionAction → List SessionContext
  | .openThread _ context _ | .promoteTab context _ _ | .switchContext context
  | .showOverview context | .closeTab _ context | .pinTab _ context _ | .moveTab _ context _ =>
    [normalizeSessionViewContext context]
  | .restoreHistory entry _ _ =>
    normalizeSessionViewContext (entry.get "context") ::
      ((stringId (entry.get "projectId")).map SessionContext.project).toList
  | .returnToSessions | .removeThread _ | .retargetThread _ _ | .other => []

/-- The keys of the strips that a command may change. Removing or renaming a session may change
every strip; all other commands are addressed to one at most. -/
def SessionAction.touches (action : SessionAction) (current : SessionContext) (facts : Facts)
    (key : String) : Prop :=
  match action with
  | .openThread _ context _ =>
    key = sessionViewContextKey (contextThatCanHoldTabs (contextOr context current))
  | .promoteTab context _ _ | .closeTab _ context | .pinTab _ context _ | .moveTab _ context _ =>
    key = sessionViewContextKey (contextOr context current)
  | .restoreHistory entry _ _ =>
    key = sessionViewContextKey (contextThatCanHoldTabs (contextFromHistory entry current
      facts.projectIds (!facts.projectIdsComplete.isBool false)))
  | .removeThread _ | .retargetThread _ _ => True
  | .returnToSessions | .switchContext _ | .showOverview _ | .other => False

theorem plain_contextOr {payload : Js} (h : Plain (normalizeSessionViewContext payload))
    (hp : Plain context) : Plain (contextOr payload context) := by
  unfold contextOr
  split_ifs
  · exact h
  · exact hp

theorem plain_sessions : Plain .sessions := fun _ heq => absurd heq (by simp)

theorem plain_available {facts : Facts} (h : Plain context) :
    Plain (availableReturnContext context facts) := by
  unfold availableReturnContext
  cases context with
  | project projectId =>
    dsimp only
    split_ifs
    · exact h
    · split
      · split_ifs
        · exact h
        · exact plain_sessions
      · exact h
  | _ => exact h

theorem plain_contextFromHistory {entry projectIds : Js} {complete : Bool}
    (hentry : Plain (normalizeSessionViewContext (entry.get "context")))
    (hproject : ∀ projectId, stringId (entry.get "projectId") = some projectId →
      Plain (.project projectId)) (hp : Plain context) :
    Plain (contextFromHistory entry context projectIds complete) := by
  unfold contextFromHistory
  dsimp only
  split_ifs
  · split
    · split_ifs
      · exact plain_sessions
      · exact hentry
    · exact hentry
  · exact plain_sessions
  · cases hid : stringId (entry.get "projectId") with
    | none => exact plain_sessions
    | some projectId =>
      dsimp only
      split_ifs
      · exact hproject projectId hid
      · exact plain_sessions
  · exact hp

theorem stringId_eq {payload : Js} (h : stringId payload = some threadId) : threadId ≠ "" := by
  cases payload with
  | string text =>
    simp only [stringId] at h
    split_ifs at h with hne
    exact Option.some.inj h ▸ hne
  | _ => exact absurd h (by simp [stringId])

theorem Neat.eq_empty (h : Neat w) (hnil : w.tabs = []) : w = {} := by
  have hfocus := h.unfocused hnil
  cases w
  simp_all

theorem Consistent.removed_moved (h : Consistent s) (hfree : Free unavailable s) (payload : Js) :
    Consistent (Tabs.removeThread s payload) ∧
      Free unavailable (Tabs.removeThread s payload) := by
  cases hid : stringId payload with
  | none =>
    unfold Tabs.removeThread
    rw [hid]
    exact ⟨h, hfree⟩
  | some target =>
    have hsame : Tabs.removeThread s payload = Tabs.removeThread s (.string target) := by
      unfold Tabs.removeThread
      rw [hid, stringId, if_neg (stringId_eq hid)]
    rw [hsame]
    have hremoved := h.removeThread (stringId_eq hid)
    exact ⟨hremoved.consistent,
      fun threadId hmem => hfree.removed hremoved threadId (List.mem_cons_of_mem _ hmem)⟩

/-- A renamed session keeps its tab under the new name, unless that one is open already. -/
theorem Consistent.retargetThread (h : Consistent s) (hfree : Free unavailable s)
    {fromThreadId toThreadId : String} (hfrom : fromThreadId ≠ "") (hto : toThreadId ≠ "")
    (hne : fromThreadId ≠ toThreadId) (havailable : toThreadId ∉ unavailable)
    (touched : String → Prop) (htouched : ∀ key, touched key) :
    Moved unavailable touched s (createSessionViewState
      { s.location with
        threadId :=
          if s.location.threadId = some fromThreadId then some toThreadId
          else s.location.threadId } none
      (s.workspaces.map fun _ w => Tabs.retargetThread w fromThreadId toThreadId)) := by
  have hstrip : ∀ w, Neat w → Neat (Tabs.retargetThread w fromThreadId toThreadId) :=
    fun w hw => (hw.retargetThread hfrom hto hne).1
  have hnil : ∀ w, Neat w → w.tabs = [] →
      (Tabs.retargetThread w fromThreadId toThreadId).tabs = [] := by
    intro w hw hnil
    refine tabs_nil_of_ids (fun id hin => ?_) hnil
    rcases ((hw.retargetThread hfrom hto hne).2 id hin).2 with hold | ⟨-, hold⟩
    · exact hold
    · rw [hnil] at hold
      exact absurd hold (by simp)
  have hempty : Tabs.retargetThread {} fromThreadId toThreadId = {} :=
    (hstrip _ neat_empty).eq_empty (hnil _ neat_empty rfl)
  apply moved_create h (h.strips.map hstrip hempty hnil)
  · exact h.plain
  · intro threadId hsome _
    dsimp only at hsome
    split_ifs at hsome with hrouted
    · exact (h.routed _ hrouted).2.1
    · exact (h.routed _ hsome).2.1
  · intro threadId hmem
    constructor
    · dsimp only
      split_ifs
      · intro hsome
        exact havailable (Option.some.inj hsome ▸ hmem)
      · exact (hfree threadId hmem).1
    · intro key hin
      unfold idsAt at hin
      rw [stripAt_map hempty] at hin
      rcases (((h.strips.at key).retargetThread hfrom hto hne).2 _ hin).2 with hold | ⟨hnew, -⟩
      · exact (hfree threadId hmem).2 key hold
      · exact havailable (tabIdForThread_inj hnew ▸ hmem)
  · exact fun key hno => absurd (htouched key) hno
  · exact Or.inr (htouched _)

theorem Consistent.swept (h : Consistent s) (values : Js) :
    Swept (stringSet values) s (sweepUnavailableThreads
      (createSessionViewState s.location (some s.returnContext) s.workspaces) values) := by
  have hsame : ∀ key, stripAt
      (createSessionViewState s.location (some s.returnContext) s.workspaces).workspaces key =
        stripAt s.workspaces key := fun key => h.stripAt_create h.strips rfl
  have hconsistent :
      Consistent (createSessionViewState s.location (some s.returnContext) s.workspaces) := by
    apply consistent_create h.strips h.plain
    · intro threadId hsome _
      exact (h.routed threadId hsome).2.1
    · rintro context heq
      rw [← Option.some.inj heq]
      exact h.returning.1
  have hne : ∀ threadId ∈ stringSet values, threadId ≠ "" :=
    fun threadId hmem => stringSet_ne_empty hmem
  have hswept := hconsistent.sweep hne
  refine ⟨hswept.consistent, hswept.context, hswept.free, fun key hclosed => ?_⟩
  rw [show stripAt (sweepUnavailableThreads _ values).workspaces key = _ from
    hswept.others key ?_, hsame]
  intro threadId hmem
  unfold idsAt
  rw [hsame]
  exact hclosed threadId hmem

/-- Every command, case by case, from the state that was swept. -/
theorem Consistent.cases_moved (h : Consistent s) {action : SessionAction} (facts : Facts)
    (hnamed : ∀ context ∈ action.contexts, Plain context) :
    Moved (stringSet facts.unavailableThreadIds) (action.touches s.location.context facts)
      (sweepUnavailableThreads
        (createSessionViewState s.location (some s.returnContext) s.workspaces)
        facts.unavailableThreadIds)
      (reduceSessionViewCases s action facts) := by
  unfold reduceSessionViewCases
  have hswept := h.swept facts.unavailableThreadIds
  rw [← hswept.context]
  have hmid := hswept.consistent
  have hfree := hswept.free
  generalize sweepUnavailableThreads
    (createSessionViewState s.location (some s.returnContext) s.workspaces)
    facts.unavailableThreadIds = mid at hmid hfree ⊢
  clear hswept
  have hstay : ∀ touched, Moved (stringSet facts.unavailableThreadIds) touched mid mid :=
    fun touched => Moved.refl hmid hfree touched
  cases action with
  | openThread payload named preview =>
    dsimp only
    cases hid : stringId payload with
    | none => exact hstay _
    | some threadId =>
      dsimp only
      by_cases hgone : (stringSet facts.unavailableThreadIds).contains threadId = true
      · -- The session is unavailable, so the sweep has closed it and nothing is left to do.
        rw [if_pos hgone]
        have hremoved := hmid.removeThread (stringId_eq hid)
        have hclosed := (hfree threadId (by simpa using hgone)).2
        exact ⟨hremoved.consistent, (hmid.removed_moved hfree _).2,
          fun key _ => hremoved.others key (hclosed key)⟩
      · rw [if_neg hgone]
        obtain ⟨hholds, hplain⟩ := contextThatCanHoldTabs_spec
          (plain_contextOr (hnamed _ (List.mem_singleton.mpr rfl)) hmid.plain)
        obtain ⟨hopened, -, -, hids⟩ := (hmid.strips.at (sessionViewContextKey
          (contextThatCanHoldTabs (contextOr named mid.location.context)))).openThreadTab
            (stringId_eq hid) (preview.isBool true)
        rw [hmid.strips.workspaceFor]
        apply moved_open hmid hfree (by simpa using hgone) hholds hplain
        · split
          · exact (hopened.promoteTab _).1
          · exact hopened
        · split
          · exact fun id hin => hids id (((hopened.promoteTab _).2 id).mp hin)
          · exact hids
  | promoteTab named tabId threadId =>
    dsimp only
    rw [hmid.strips.workspaceFor]
    split
    · exact hstay _
    · obtain ⟨hneat, hids⟩ := (hmid.strips.at _).promoteTab _
      exact moved_strip hmid hfree hneat fun id hin => (hids id).mp hin
  | returnToSessions =>
    apply moved_focus hmid hfree (plain_available _)
    have hreturn : returnableContext (some mid.returnContext) = some mid.returnContext := by
      simp [returnableContext, Option.filter, hmid.returning.2]
    rw [hreturn]
    exact hmid.returning.1
  | switchContext named =>
    exact moved_focus hmid hfree (hnamed _ (List.mem_singleton.mpr rfl)) _
  | showOverview named =>
    exact moved_overview hmid hfree
      (plain_contextOr (hnamed _ (List.mem_singleton.mpr rfl)) hmid.plain) _
  | closeTab payload named =>
    dsimp only
    rw [hmid.strips.workspaceFor]
    cases stringId payload with
    | none => exact hstay _
    | some tabId =>
      dsimp only
      split_ifs with hvisible
      · apply moved_close hmid hfree tabId
        split at hvisible
        · exact of_decide_eq_true (Bool.and_eq_true_iff.mp hvisible).1
        · exact absurd hvisible (by simp)
      · obtain ⟨hneat, hids⟩ := (hmid.strips.at (sessionViewContextKey
          (contextOr named mid.location.context))).closeTab tabId
        exact moved_strip hmid hfree hneat fun id hin => ((hids id).mp hin).1
  | pinTab payload named pinned =>
    dsimp only
    rw [hmid.strips.workspaceFor]
    cases stringId payload with
    | none => exact hstay _
    | some tabId =>
      obtain ⟨hneat, hids⟩ := (hmid.strips.at (sessionViewContextKey
        (contextOr named mid.location.context))).setTabPinned tabId pinned.isTruthy
      exact moved_strip hmid hfree hneat fun id hin => (hids id).mp hin
  | moveTab payload named toIndex =>
    dsimp only
    rw [hmid.strips.workspaceFor]
    cases stringId payload with
    | none => exact hstay _
    | some tabId =>
      obtain ⟨hneat, hids⟩ := (hmid.strips.at (sessionViewContextKey
        (contextOr named mid.location.context))).moveTab tabId toIndex
      exact moved_strip hmid hfree hneat fun id hin => (hids id).mp hin
  | removeThread payload =>
    obtain ⟨hconsistent, hclosed⟩ := hmid.removed_moved hfree payload
    exact ⟨hconsistent, hclosed, fun key hno => absurd trivial hno⟩
  | retargetThread fromPayload toPayload =>
    dsimp only
    split
    · rename_i fromThreadId toThreadId hfrom hto
      by_cases hsame : fromThreadId = toThreadId
      · rw [if_pos hsame]
        exact hstay _
      rw [if_neg hsame]
      by_cases hgone : (stringSet facts.unavailableThreadIds).contains toThreadId = true
      · rw [if_pos hgone]
        obtain ⟨hconsistent, hclosed⟩ := hmid.removed_moved hfree (.string fromThreadId)
        obtain ⟨hconsistent, hclosed⟩ := hconsistent.removed_moved hclosed (.string toThreadId)
        exact ⟨hconsistent, hclosed, fun key hno => absurd trivial hno⟩
      · rw [if_neg hgone]
        exact hmid.retargetThread hfree (stringId_eq hfrom) (stringId_eq hto) hsame
          (by simpa using hgone) _ fun _ => trivial
    · exact hstay _
  | restoreHistory entry payload preview =>
    have hplain : Plain (contextFromHistory entry mid.location.context facts.projectIds
        (!facts.projectIdsComplete.isBool false)) := by
      apply plain_contextFromHistory (hnamed _ (by simp [SessionAction.contexts])) ?_ hmid.plain
      intro projectId hid
      exact hnamed _ (by simp [SessionAction.contexts, hid])
    dsimp only
    cases hid : stringId payload with
    | none => exact moved_overview hmid hfree hplain _
    | some threadId =>
      dsimp only
      by_cases hgone : (stringSet facts.unavailableThreadIds).contains threadId = true
      · rw [if_pos hgone]
        exact moved_focus hmid hfree hplain _
      · rw [if_neg hgone, hmid.strips.workspaceFor]
        obtain ⟨hholds, htabs⟩ := contextThatCanHoldTabs_spec hplain
        obtain ⟨hopened, -, -, hids⟩ := (hmid.strips.at (sessionViewContextKey
          (contextThatCanHoldTabs (contextFromHistory entry mid.location.context facts.projectIds
            (!facts.projectIdsComplete.isBool false))))).openThreadTab
              (stringId_eq hid) (preview.isBool true)
        exact moved_open hmid hfree (by simpa using hgone) hholds htabs hopened hids
  | other => exact hstay _

theorem Consistent.reduce (h : Consistent s) {action : SessionAction} {facts : Facts}
    (hnamed : ∀ context ∈ action.contexts, Plain context) :
    Consistent (reduceSessionView s action facts) := by
  have hnext := (h.cases_moved facts hnamed).consistent
  refine ⟨hnext.strips, hnext.plain, ?_, hnext.routed⟩
  unfold reduceSessionView
  dsimp only
  cases hlanded : returnableContext
      (some (reduceSessionViewCases s action facts).location.context) with
  | some landed =>
    obtain ⟨hsome, hholds⟩ := returnableContext_spec hlanded
    rw [Option.some_or, Option.getD_some, ← Option.some.inj hsome]
    exact ⟨hnext.plain, by rw [Option.some.inj hsome]; exact hholds⟩
  | none =>
    rw [Option.none_or]
    cases hcarried : returnableContext (some s.returnContext) with
    | some carried =>
      obtain ⟨hsome, hholds⟩ := returnableContext_spec hcarried
      rw [Option.getD_some, ← Option.some.inj hsome]
      exact h.returning
    | none => exact ⟨plain_sessions, rfl⟩

theorem Consistent.no_errors (h : Consistent s) : sessionViewInvariantErrors s = [] := by
  unfold sessionViewInvariantErrors
  dsimp only
  have hat : ∀ key, createTabWorkspace ((s.workspaces[key]?).getD {}) = stripAt s.workspaces key :=
    fun key => (h.strips.at key).create
  rw [h.strips.normalize, hat, List.append_eq_nil_iff, List.append_eq_nil_iff]
  refine ⟨⟨?_, ?_⟩, ?_⟩
  · cases hthread : s.location.threadId.filter (· ≠ "") with
    | none => rfl
    | some threadId =>
      obtain ⟨hne, hholds, hmem, hfocus⟩ := h.routed threadId (Option.filter_eq_some_iff.mp hthread).1
      dsimp only
      rw [if_neg (by simp [hholds]), (h.strips.at _).tidy.find_thread hne]
      cases hfind : (stripAt s.workspaces (sessionViewContextKey s.location.context)).tabs.find?
          (fun tab => decide (tab.id = tabIdForThread threadId)) with
      | none =>
        obtain ⟨tab, hin, hid⟩ := List.mem_map.mp hmem
        exact absurd hid (by simpa using List.find?_eq_none.mp hfind tab hin)
      | some owning =>
        have hid : owning.id = tabIdForThread threadId := by simpa using List.find?_some hfind
        dsimp only
        rw [hid, hfocus, if_neg (by simp)]
  · rw [if_neg (by simp [h.returning.2])]
  · rw [List.filterMap_eq_nil_iff]
    rintro ⟨key, w⟩ hmem
    have hneat := h.strips.neat key w (Std.ExtTreeMap.mem_toList_iff_getElem?_eq_some.mp hmem)
    dsimp only
    rw [hneat.create]
    cases hfocus : w.focusedTabId with
    | none => rfl
    | some focus =>
      have hne : w.tabs ≠ [] := fun hnil => by simp [hneat.unfocused hnil] at hfocus
      obtain ⟨tab, hin, hid⟩ := hneat.focused hne
      have hfound : (findTab w focus).isNone = false := by
        rw [hfocus] at hid
        unfold findTab
        rw [Option.isNone_eq_false_iff, List.find?_isSome]
        exact ⟨tab, hin, by simpa using (Option.some.inj hid).symm⟩
      dsimp only
      rw [hfound, if_neg (by simp)]

structure InOrder (w : TabWorkspace) : Prop where
  tabs : (w.tabs.map (·.id)).Nodup
  threads : (openThreadIds w).Nodup
  onePreview : (w.tabs.filter (·.preview)).length ≤ 1
  pinnedFirst : PinnedFirst w.tabs
  focused : w.tabs ≠ [] → ∃ tab ∈ w.tabs, w.focusedTabId = some tab.id

structure Orderly (s : SessionViewState) : Prop where
  noErrors : sessionViewInvariantErrors s = []
  strips : ∀ key, InOrder (stripAt s.workspaces key)

theorem Consistent.orderly (h : Consistent s) : Orderly s where
  noErrors := h.no_errors
  strips key :=
    have hneat := h.strips.at key
    { tabs := hneat.tidy.distinct
      threads := hneat.tidy.nodup_open
      onePreview := hneat.tidy.onePreview
      pinnedFirst := hneat.pinnedFirst
      focused := hneat.focused }

def Unopened (threadIds : List String) (s : SessionViewState) : Prop :=
  ∀ threadId ∈ threadIds, s.location.threadId ≠ some threadId ∧
    ∀ key, threadId ∉ openThreadIds (stripAt s.workspaces key)

def viewStep (s : SessionViewState) (command : SessionAction × Facts) : SessionViewState :=
  reduceSessionView s command.1 command.2

/-- The strips that the command does not touch and that show nothing unavailable stay as they
are. -/
def KeepsOthers (s : SessionViewState) (command : SessionAction × Facts) : Prop :=
  ∀ key, ¬ command.1.touches s.location.context command.2 key →
    (∀ threadId ∈ stringSet command.2.unavailableThreadIds,
      threadId ∉ openThreadIds (stripAt s.workspaces key)) →
    stripAt (viewStep s command).workspaces key = stripAt s.workspaces key

theorem Consistent.unopened (h : Consistent s) (hfree : Free unavailable s) :
    Unopened unavailable s := by
  intro threadId hmem
  obtain ⟨hrouted, hclosed⟩ := hfree threadId hmem
  refine ⟨hrouted, fun key hin => hclosed key ?_⟩
  exact ((h.strips.at key).tidy.mem_open.mp hin).2

theorem Consistent.keepsOthers (h : Consistent s) {command : SessionAction × Facts}
    (hnamed : ∀ context ∈ command.1.contexts, Plain context) : KeepsOthers s command := by
  intro key hkey hclosed
  have hswept := (h.swept command.2.unavailableThreadIds).others key fun threadId hmem hin =>
    hclosed threadId hmem ((h.strips.at key).tidy.mem_open.mpr ⟨stringSet_ne_empty hmem, hin⟩)
  exact ((h.cases_moved command.2 hnamed).others key hkey).trans hswept

theorem consistent_initial : Consistent initialSessionView := by
  have hempty : Strips ∅ :=
    { neat := fun key w hw => absurd hw (by simp)
      screens := fun key _ => by simp [stripAt] }
  exact consistent_create hempty plain_sessions (fun _ heq => absurd heq (by simp))
    fun _ heq => absurd heq (by simp)

/-- In every run of commands that name no project by a full-area screen's key. -/
theorem session_view_stays_consistent (commands : List (SessionAction × Facts))
    (hnamed : ∀ command ∈ commands, ∀ context ∈ command.1.contexts, Plain context) :
    StepRun.Always viewStep Orderly initialSessionView commands ∧
      StepRun.Along viewStep
        (fun s command =>
          Unopened (stringSet command.2.unavailableThreadIds) (viewStep s command) ∧
            KeepsOthers s command)
        initialSessionView commands := by
  have hcommands : StepRun.Along viewStep
      (fun _ command => ∀ context ∈ command.1.contexts, Plain context)
      initialSessionView commands := by
    have htrue : StepRun.Along viewStep (fun _ _ => True) initialSessionView commands :=
      StepRun.along_of_forall (fun _ _ => trivial) initialSessionView commands
    exact (htrue.and_mem hnamed).mono fun _ _ h => h.2
  constructor
  · have hconsistent : StepRun.Always viewStep Consistent initialSessionView commands :=
      StepRun.always_of_step (fun s command h hnamed => h.reduce hnamed) consistent_initial
        hcommands
    exact hconsistent.mono fun _ h => h.orderly
  · refine StepRun.along_of_step (I := Consistent) (fun s command h hnamed => ?_)
      consistent_initial hcommands
    have hmoved := h.cases_moved command.2 hnamed
    exact ⟨h.reduce hnamed, hmoved.consistent.unopened hmoved.free, h.keepsOthers hnamed⟩

def projectPayload (projectId : String) : Js :=
  .object [("kind", .string "project"), ("projectId", .string projectId)]

/-- A previewed session is renamed, and then the new name becomes unavailable. -/
theorem session_view_stays_consistent_renamed :
    StepRun.Always viewStep Orderly initialSessionView
        [(.openThread (.string "a") (projectPayload "p") (.bool true), {}),
          (.retargetThread (.string "a") (.string "b"), {}),
          (.switchContext .undefined, { unavailableThreadIds := .array [.string "b"] })] ∧
      StepRun.Along viewStep
        (fun s command =>
          Unopened (stringSet command.2.unavailableThreadIds) (viewStep s command) ∧
            KeepsOthers s command)
        initialSessionView
        [(.openThread (.string "a") (projectPayload "p") (.bool true), {}),
          (.retargetThread (.string "a") (.string "b"), {}),
          (.switchContext .undefined, { unavailableThreadIds := .array [.string "b"] })] := by
  apply session_view_stays_consistent
  have hplain : Plain (.project "p") := by
    intro projectId heq
    rw [← SessionContext.project.inj heq]
    decide +kernel
  have hnamed : normalizeSessionViewContext (projectPayload "p") = .project "p" := by
    decide +kernel
  have hdefault : normalizeSessionViewContext .undefined = .sessions := by decide +kernel
  simp [SessionAction.contexts, hnamed, hdefault, hplain, plain_sessions]

/-- A project may be called like a screen; its open session then shows on that screen. -/
theorem screen_shows_thread_of_namesake :
    ¬ StepRun.Always viewStep Orderly initialSessionView
      [(.openThread (.string "a") (projectPayload "__tasks__") .undefined, {}),
        (.switchContext (.object [("kind", .string "tasks")]), {})] := by
  intro h
  have herrors := h.last.noErrors
  exact absurd herrors (by decide +kernel)

end AgentRelay.Tabs
