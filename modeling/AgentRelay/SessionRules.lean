import AgentRelay.SessionView
import AgentRelay.TabOrder

/-! A consistent session view, and what keeps it so: rebuilding a state around a location, taking
a session out, and replacing one strip. -/
namespace AgentRelay.Tabs
open Text

/-- The strip filed under a key; an absent one is empty. -/
def stripAt (workspaces : Table TabWorkspace) (key : String) : TabWorkspace :=
  workspaces[key]?.getD {}

def idsAt (workspaces : Table TabWorkspace) (key : String) : List String :=
  (stripAt workspaces key).tabs.map (·.id)

/-- The context is not a project under the key of a full-area screen. -/
def Plain (context : SessionContext) : Prop :=
  ∀ projectId, context = .project projectId → isFullAreaWorkspaceKey projectId = false

structure Strips (workspaces : Table TabWorkspace) : Prop where
  neat : ∀ (key : String) w, workspaces[key]? = some w → Neat w
  screens : ∀ key, isFullAreaWorkspaceKey key = true → (stripAt workspaces key).tabs = []

structure Consistent (s : SessionViewState) : Prop where
  strips : Strips s.workspaces
  plain : Plain s.location.context
  returning : Plain s.returnContext ∧ isFullAreaContext s.returnContext = false
  routed : ∀ threadId, s.location.threadId = some threadId →
    threadId ≠ "" ∧ isFullAreaContext s.location.context = false ∧
    tabIdForThread threadId ∈ idsAt s.workspaces (sessionViewContextKey s.location.context) ∧
    (stripAt s.workspaces (sessionViewContextKey s.location.context)).focusedTabId =
      some (tabIdForThread threadId)

variable {s next : SessionViewState} {workspaces : Table TabWorkspace} {context : SessionContext}
  {location : SessionLocation} {returnContext : Option SessionContext} {key : String}
  {w : TabWorkspace} {threadId : String} {unavailable : List String}

theorem isScreenKey_append (screen suffix : String) :
    isScreenKey screen (screen ++ ":" ++ suffix) = true := by
  simp [isScreenKey, startsWith, String.toList_append]

theorem key_of_fullArea (h : isFullAreaContext context = true) :
    isFullAreaWorkspaceKey (sessionViewContextKey context) = true := by
  unfold isFullAreaWorkspaceKey isTasksWorkspaceKey isTeamsWorkspaceKey isReviewWorkspaceKey
  cases context with
  | sessions => exact absurd h (by simp [isFullAreaContext])
  | project projectId => exact absurd h (by simp [isFullAreaContext])
  | tasks teamRunId =>
    cases teamRunId with
    | none => simp [sessionViewContextKey, isScreenKey]
    | some id => simp [sessionViewContextKey, isScreenKey_append]
  | teams teamId =>
    cases teamId with
    | none => simp [sessionViewContextKey, isScreenKey]
    | some id => simp [sessionViewContextKey, isScreenKey_append]
  | usage => simp [sessionViewContextKey]
  | review teamRunId => simp [sessionViewContextKey, isScreenKey_append]

theorem key_of_holdsTabs (h : isFullAreaContext context = false) (hp : Plain context) :
    isFullAreaWorkspaceKey (sessionViewContextKey context) = false := by
  cases context with
  | sessions => decide +kernel
  | project projectId => exact hp projectId rfl
  | tasks => exact absurd h (by simp [isFullAreaContext])
  | teams => exact absurd h (by simp [isFullAreaContext])
  | usage => exact absurd h (by simp [isFullAreaContext])
  | review => exact absurd h (by simp [isFullAreaContext])

theorem Strips.at (h : Strips workspaces) (key : String) : Neat (stripAt workspaces key) := by
  unfold stripAt
  cases hw : workspaces[key]? with
  | none => exact neat_empty
  | some w => exact h.neat key w hw

theorem Strips.workspaceFor (h : Strips workspaces) (context : SessionContext) :
    workspaceFor workspaces context = stripAt workspaces (sessionViewContextKey context) :=
  (h.at _).create

theorem Strips.normalize (h : Strips workspaces) : normalizeWorkspaces workspaces = workspaces := by
  apply Std.ExtTreeMap.ext_getElem?
  intro key
  unfold normalizeWorkspaces
  rw [Std.ExtTreeMap.getElem?_map]
  cases hw : workspaces[key]? with
  | none => rfl
  | some w => rw [Option.map_some, (h.neat key w hw).create]

theorem stripAt_withWorkspace (hw : Neat w) (key : String) :
    stripAt (withWorkspace workspaces context w) key =
      if key = sessionViewContextKey context then w else stripAt workspaces key := by
  unfold stripAt withWorkspace
  rw [Table.getElem?_insert_of, hw.create]
  split_ifs <;> rfl

theorem Strips.withWorkspace (h : Strips workspaces) (hw : Neat w)
    (hscreen : isFullAreaWorkspaceKey (sessionViewContextKey context) = true → w.tabs = []) :
    Strips (withWorkspace workspaces context w) where
  neat key' w' hw' := by
    unfold Tabs.withWorkspace at hw'
    rw [Table.getElem?_insert_of, hw.create] at hw'
    split_ifs at hw'
    · rw [← Option.some.inj hw']
      exact hw
    · exact h.neat key' w' hw'
  screens key' hkey := by
    rw [stripAt_withWorkspace hw]
    split_ifs with heq
    · exact hscreen (heq ▸ hkey)
    · exact h.screens key' hkey

theorem Neat.focusedThreadId (h : Neat w) (hfocus : focusedThreadId w = some threadId) :
    threadId ≠ "" ∧ tabIdForThread threadId ∈ w.tabs.map (·.id) ∧
      w.focusedTabId = some (tabIdForThread threadId) := by
  obtain ⟨tab, hfind, hhead⟩ := Option.bind_eq_some_iff.mp hfocus
  have hmem := List.mem_of_find?_eq_some hfind
  have hid : some tab.id = w.focusedTabId := by simpa using List.find?_some hfind
  obtain ⟨shown, hne, hleaf, hname⟩ := h.tidy.shows tab hmem
  rw [hleaf, layoutThreadIds, if_neg hne, List.head?_cons] at hhead
  obtain rfl := Option.some.inj hhead
  exact ⟨hne, hname ▸ List.mem_map_of_mem hmem, by rw [← hid, hname]⟩

theorem focusedThreadId_empty (h : w.tabs = []) : Tabs.focusedThreadId w = none := by
  simp [Tabs.focusedThreadId, focusedTab, h]

theorem returnableContext_spec {returned : SessionContext}
    (h : returnableContext returnContext = some returned) :
    returnContext = some returned ∧ isFullAreaContext returned = false := by
  obtain ⟨hsome, hkept⟩ := Option.filter_eq_some_iff.mp h
  exact ⟨hsome, by simpa using hkept⟩

theorem contextThatCanHoldTabs_spec (hp : Plain context) :
    isFullAreaContext (contextThatCanHoldTabs context) = false ∧
      Plain (contextThatCanHoldTabs context) := by
  unfold contextThatCanHoldTabs
  split_ifs with h
  · exact ⟨rfl, fun projectId heq => absurd heq (by simp)⟩
  · exact ⟨by simpa using h, hp⟩

@[simp] theorem create_context : (createSessionViewState location returnContext
    workspaces).location.context = location.context := rfl

theorem stripAt_create (location : SessionLocation) (returnContext : Option SessionContext)
    (h : Strips workspaces) (key : String) :
    stripAt (createSessionViewState location returnContext workspaces).workspaces key =
      if key = sessionViewContextKey location.context then
        (match location.threadId.filter (· ≠ "") with
        | some threadId => openThreadTab (stripAt workspaces key) threadId none false
        | none => stripAt workspaces key)
      else stripAt workspaces key := by
  unfold createSessionViewState
  dsimp only
  rw [h.normalize, h.workspaceFor]
  cases hthread : location.threadId.filter (· ≠ "") with
  | none =>
    rw [stripAt_withWorkspace (h.at _)]
    split_ifs with hkey
    · rw [hkey]
    · rfl
  | some threadId =>
    have hne : threadId ≠ "" := by simpa using (Option.filter_eq_some_iff.mp hthread).2
    rw [stripAt_withWorkspace ((h.at _).openThreadTab hne false).1]
    split_ifs with hkey
    · rw [hkey]
    · rfl

theorem neat_opened (hw : Neat w) (routed : Option String) :
    Neat (match routed.filter (· ≠ "") with
      | some threadId => openThreadTab w threadId none false
      | none => w) := by
  cases hthread : routed.filter (· ≠ "") with
  | none => exact hw
  | some threadId =>
    have hne : threadId ≠ "" := by simpa using (Option.filter_eq_some_iff.mp hthread).2
    exact (hw.openThreadTab hne false).1

theorem consistent_create (h : Strips workspaces) (hp : Plain location.context)
    (hthread : ∀ threadId, location.threadId = some threadId → threadId ≠ "" →
      isFullAreaContext location.context = false)
    (hreturn : ∀ context, returnContext = some context → Plain context) :
    Consistent (createSessionViewState location returnContext workspaces) where
  strips := by
    unfold createSessionViewState
    dsimp only
    rw [h.normalize, h.workspaceFor]
    apply h.withWorkspace (neat_opened (h.at _) location.threadId)
    intro hscreen
    have hfull : isFullAreaContext location.context = true := by
      by_contra hno
      have hkey := key_of_holdsTabs (Bool.not_eq_true _ ▸ hno) hp
      rw [hkey] at hscreen
      exact absurd hscreen (by simp)
    cases hrouted : location.threadId.filter (· ≠ "") with
    | none => exact h.screens _ hscreen
    | some threadId =>
      obtain ⟨hsome, hne⟩ := Option.filter_eq_some_iff.mp hrouted
      have hholds := hthread threadId hsome (by simpa using hne)
      rw [hfull] at hholds
      exact absurd hholds (by simp)
  plain := hp
  returning := by
    unfold createSessionViewState
    dsimp only
    cases hret : returnableContext returnContext with
    | none =>
      obtain ⟨hholds, hplain⟩ := contextThatCanHoldTabs_spec hp
      exact ⟨hplain, hholds⟩
    | some returned =>
      obtain ⟨hsome, hholds⟩ := returnableContext_spec hret
      exact ⟨hreturn returned hsome, hholds⟩
  routed threadId hrouted := by
    obtain ⟨hsome, hne⟩ := Option.filter_eq_some_iff.mp hrouted
    have hne' : threadId ≠ "" := by simpa using hne
    have hstrip := stripAt_create location returnContext h
      (sessionViewContextKey location.context)
    rw [if_pos rfl, show location.threadId.filter (· ≠ "") = some threadId from hrouted] at hstrip
    obtain ⟨-, hfocus, hmem, -⟩ :=
      (h.at (sessionViewContextKey location.context)).openThreadTab hne' false
    refine ⟨hne', hthread threadId hsome hne', ?_, ?_⟩
    · unfold idsAt
      rw [create_context, hstrip]
      exact hmem
    · rw [create_context, hstrip]
      exact hfocus

def Free (unavailable : List String) (s : SessionViewState) : Prop :=
  ∀ threadId ∈ unavailable, s.location.threadId ≠ some threadId ∧
    ∀ key, tabIdForThread threadId ∉ idsAt s.workspaces key

theorem ids_create (h : Strips workspaces) {id : String}
    (hin : id ∈ idsAt (createSessionViewState location returnContext workspaces).workspaces key) :
    id ∈ idsAt workspaces key ∨ key = sessionViewContextKey location.context ∧
      ∃ threadId, location.threadId = some threadId ∧ id = tabIdForThread threadId := by
  unfold idsAt at hin
  rw [stripAt_create _ _ h] at hin
  split_ifs at hin with hkey
  · cases hthread : location.threadId.filter (· ≠ "") with
    | none =>
      rw [hthread] at hin
      exact Or.inl hin
    | some threadId =>
      rw [hthread] at hin
      obtain ⟨hsome, hne⟩ := Option.filter_eq_some_iff.mp hthread
      obtain ⟨-, -, -, hfew⟩ := (h.at key).openThreadTab (by simpa using hne) false
      exact (hfew _ hin).imp_right fun hnew => ⟨hkey, threadId, hsome, hnew⟩
  · exact Or.inl hin

theorem free_create (h : Strips workspaces)
    (hopen : ∀ threadId ∈ unavailable, location.threadId ≠ some threadId ∧
      ∀ key, tabIdForThread threadId ∉ idsAt workspaces key) :
    Free unavailable (createSessionViewState location returnContext workspaces) := by
  intro threadId hmem
  obtain ⟨hrouted, hclosed⟩ := hopen threadId hmem
  refine ⟨fun hsome => hrouted (Option.filter_eq_some_iff.mp hsome).1, fun key hin => ?_⟩
  rcases ids_create h hin with hold | ⟨-, opened, hsome, hnew⟩
  · exact hclosed key hold
  · rw [tabIdForThread_inj hnew] at hrouted
    exact hrouted hsome

theorem Consistent.stripAt_create (h : Consistent s) (hstrips : Strips workspaces)
    (hsame : stripAt workspaces key = stripAt s.workspaces key) :
    stripAt (createSessionViewState s.location returnContext workspaces).workspaces key =
      stripAt s.workspaces key := by
  rw [Tabs.stripAt_create _ _ hstrips, hsame]
  split_ifs with hkey
  · cases hthread : s.location.threadId.filter (· ≠ "") with
    | none => rfl
    | some threadId =>
      obtain ⟨hsome, -⟩ := Option.filter_eq_some_iff.mp hthread
      obtain ⟨hne, -, hmem, hfocus⟩ := h.routed threadId hsome
      rw [hkey]
      exact (h.strips.at _).openThreadTab_self hne hfocus hmem false
  · rfl

structure Moved (unavailable : List String) (touched : String → Prop)
    (s next : SessionViewState) : Prop where
  consistent : Consistent next
  free : Free unavailable next
  others : ∀ key, ¬ touched key → stripAt next.workspaces key = stripAt s.workspaces key

theorem Moved.refl (h : Consistent s) (hfree : Free unavailable s) (touched : String → Prop) :
    Moved unavailable touched s s := ⟨h, hfree, fun _ _ => rfl⟩

theorem moved_create (h : Consistent s) (hstrips : Strips workspaces)
    (hp : Plain location.context)
    (hthread : ∀ threadId, location.threadId = some threadId → threadId ≠ "" →
      isFullAreaContext location.context = false)
    (hopen : ∀ threadId ∈ unavailable, location.threadId ≠ some threadId ∧
      ∀ key, tabIdForThread threadId ∉ idsAt workspaces key) {touched : String → Prop}
    (hothers : ∀ key, ¬ touched key → stripAt workspaces key = stripAt s.workspaces key)
    (hlocation : location = s.location ∨ touched (sessionViewContextKey location.context)) :
    Moved unavailable touched s (createSessionViewState location none workspaces) where
  consistent := consistent_create hstrips hp hthread fun _ heq => absurd heq (by simp)
  free := free_create hstrips hopen
  others key hkey := by
    rcases hlocation with rfl | haddress
    · exact h.stripAt_create hstrips (hothers key hkey)
    · have hne : key ≠ sessionViewContextKey location.context := fun heq => hkey (heq ▸ haddress)
      rw [Tabs.stripAt_create _ _ hstrips, if_neg hne, hothers key hkey]

theorem moved_focus (h : Consistent s) (hfree : Free unavailable s) (hp : Plain context)
    (touched : String → Prop) :
    Moved unavailable touched s (createSessionViewState
      { context := context, threadId := focusedThreadId (workspaceFor s.workspaces context) } none
      s.workspaces) := by
  rw [h.strips.workspaceFor]
  have hfocus : ∀ threadId,
      focusedThreadId (stripAt s.workspaces (sessionViewContextKey context)) = some threadId →
      threadId ≠ "" ∧ tabIdForThread threadId ∈ idsAt s.workspaces (sessionViewContextKey context) ∧
      (stripAt s.workspaces (sessionViewContextKey context)).focusedTabId =
        some (tabIdForThread threadId) :=
    fun threadId hsome => (h.strips.at _).focusedThreadId hsome
  refine ⟨consistent_create h.strips hp ?_ fun _ heq => absurd heq (by simp),
    free_create h.strips fun threadId hmem => ⟨?_, (hfree threadId hmem).2⟩, fun key _ => ?_⟩
  · intro threadId hsome _
    by_contra hfull
    have hkey := key_of_fullArea (Bool.not_eq_false _ ▸ hfull)
    rw [focusedThreadId_empty (h.strips.screens _ hkey)] at hsome
    exact absurd hsome (by simp)
  · intro hsome
    exact (hfree threadId hmem).2 _ (hfocus threadId hsome).2.1
  · rw [Tabs.stripAt_create _ _ h.strips]
    split_ifs with hkey
    · cases hthread : Option.filter (· ≠ "")
          (focusedThreadId (stripAt s.workspaces (sessionViewContextKey context))) with
      | none => rfl
      | some threadId =>
        obtain ⟨hne, hmem, hfocused⟩ := hfocus threadId (Option.filter_eq_some_iff.mp hthread).1
        rw [hkey]
        exact (h.strips.at _).openThreadTab_self hne hfocused hmem false
    · rfl

theorem moved_overview (h : Consistent s) (hfree : Free unavailable s) (hp : Plain context)
    (touched : String → Prop) :
    Moved unavailable touched s
      (createSessionViewState { context := context, threadId := none } none s.workspaces) where
  consistent := consistent_create h.strips hp (fun _ heq => absurd heq (by simp))
    fun _ heq => absurd heq (by simp)
  free := free_create h.strips fun threadId hmem => ⟨by simp, (hfree threadId hmem).2⟩
  others key _ := by
    rw [Tabs.stripAt_create _ _ h.strips]
    split_ifs <;> rfl

/-- The step rule for a command that replaces one strip. -/
theorem moved_rebuild (h : Consistent s) (hfree : Free unavailable s) (hw : Neat w)
    (hscreen : isFullAreaWorkspaceKey (sessionViewContextKey context) = true → w.tabs = [])
    (hclosed : ∀ threadId ∈ unavailable, tabIdForThread threadId ∉ w.tabs.map (·.id))
    (hp : Plain location.context)
    (hthread : ∀ threadId, location.threadId = some threadId → threadId ≠ "" →
      isFullAreaContext location.context = false)
    (hopen : ∀ threadId ∈ unavailable, location.threadId ≠ some threadId)
    (hlocation : location = s.location ∨
      sessionViewContextKey location.context = sessionViewContextKey context) :
    Moved unavailable (· = sessionViewContextKey context) s (rebuild s location context w) := by
  unfold rebuild
  apply moved_create h (h.strips.withWorkspace hw hscreen) hp hthread ?_ ?_ hlocation
  · intro threadId hmem
    refine ⟨hopen threadId hmem, fun key hin => ?_⟩
    unfold idsAt at hin
    rw [stripAt_withWorkspace hw] at hin
    split_ifs at hin
    · exact hclosed threadId hmem hin
    · exact (hfree threadId hmem).2 key hin
  · intro key hkey
    rw [stripAt_withWorkspace hw, if_neg hkey]

def stripWithout (target : String) (w : TabWorkspace) : TabWorkspace :=
  let normalized := createTabWorkspace w
  match findTabByThread normalized target with
  | some owning => closeTab normalized owning.id
  | none => normalized

theorem Neat.stripWithout (h : Neat w) {target : String} (hne : target ≠ "") :
    Neat (stripWithout target w) ∧
    (∀ id, id ∈ (Tabs.stripWithout target w).tabs.map (·.id) ↔
      id ∈ w.tabs.map (·.id) ∧ id ≠ tabIdForThread target) ∧
    (tabIdForThread target ∉ w.tabs.map (·.id) → Tabs.stripWithout target w = w) := by
  unfold Tabs.stripWithout
  rw [h.create]
  dsimp only
  rw [h.tidy.find_thread hne]
  cases hfind : w.tabs.find? (fun tab => decide (tab.id = tabIdForThread target)) with
  | some owning =>
    have hid : owning.id = tabIdForThread target := by simpa using List.find?_some hfind
    have hmem := List.mem_map_of_mem (f := fun tab : Tab => tab.id)
      (List.mem_of_find?_eq_some hfind)
    obtain ⟨hneat, hids⟩ := h.closeTab owning.id
    rw [hid] at hids hneat hmem
    dsimp only
    rw [hid]
    exact ⟨hneat, hids, fun hnot => absurd hmem hnot⟩
  | none =>
    refine ⟨h, fun id => ⟨fun hin => ⟨hin, ?_⟩, fun hin => hin.1⟩, fun _ => rfl⟩
    rintro rfl
    obtain ⟨tab, hmem, hid⟩ := List.mem_map.mp hin
    exact absurd hid (by simpa using List.find?_eq_none.mp hfind tab hmem)

theorem stripAt_map {f : TabWorkspace → TabWorkspace} (hf : f {} = {}) (key : String) :
    stripAt (workspaces.map fun _ w => f w) key = f (stripAt workspaces key) := by
  unfold stripAt
  rw [Std.ExtTreeMap.getElem?_map]
  cases workspaces[key]? with
  | none => exact hf.symm
  | some w => rfl

theorem Strips.map (h : Strips workspaces) {f : TabWorkspace → TabWorkspace}
    (hneat : ∀ w, Neat w → Neat (f w)) (hempty : f {} = {})
    (hnil : ∀ w, Neat w → w.tabs = [] → (f w).tabs = []) :
    Strips (workspaces.map fun _ w => f w) where
  neat key w hw := by
    rw [Std.ExtTreeMap.getElem?_map] at hw
    obtain ⟨w', hw', rfl⟩ := Option.map_eq_some_iff.mp hw
    exact hneat w' (h.neat key w' hw')
  screens key hkey := by
    rw [stripAt_map hempty]
    exact hnil _ (h.at key) (h.screens key hkey)

theorem tabs_nil_of_ids {w' : TabWorkspace}
    (h : ∀ id ∈ w'.tabs.map (·.id), id ∈ w.tabs.map (·.id)) (hw : w.tabs = []) :
    w'.tabs = [] := by
  by_contra hne
  obtain ⟨tab, hmem⟩ := List.exists_mem_of_ne_nil _ hne
  have hold := h tab.id (List.mem_map_of_mem hmem)
  rw [hw] at hold
  exact absurd hold (by simp)

structure Removed (target : String) (s next : SessionViewState) : Prop where
  consistent : Consistent next
  context : next.location.context = s.location.context
  routed : ∀ threadId, next.location.threadId = some threadId → threadId ≠ target ∧
    (s.location.threadId = some threadId ∨ ∃ key, tabIdForThread threadId ∈ idsAt s.workspaces key)
  ids : ∀ key, ∀ id ∈ idsAt next.workspaces key,
    id ∈ idsAt s.workspaces key ∧ id ≠ tabIdForThread target
  others : ∀ key, tabIdForThread target ∉ idsAt s.workspaces key →
    stripAt next.workspaces key = stripAt s.workspaces key

theorem removeThread_eq {target : String} (hne : target ≠ "") :
    removeThread s (.string target) =
      createSessionViewState
        (if s.location.threadId = some target then
          { s.location with
            threadId := focusedThreadId (workspaceFor
              (s.workspaces.map fun _ w => stripWithout target w) s.location.context) }
        else s.location) (some s.returnContext)
        (s.workspaces.map fun _ w => stripWithout target w) := by
  simp only [removeThread, stringId, if_neg hne]
  rfl

theorem Consistent.removeThread (h : Consistent s) {target : String} (hne : target ≠ "") :
    Removed target s (removeThread s (.string target)) := by
  rw [removeThread_eq hne]
  have hempty : stripWithout target {} = {} := ((neat_empty.stripWithout hne).2.2 (by simp))
  have hstrips : Strips (s.workspaces.map fun _ w => stripWithout target w) := by
    apply h.strips.map (fun w hw => (hw.stripWithout hne).1) hempty
    intro w hw hnil
    exact tabs_nil_of_ids (fun id hin => (((hw.stripWithout hne).2.1 id).mp hin).1) hnil
  have hids : ∀ key, ∀ id ∈ idsAt (s.workspaces.map fun _ w => stripWithout target w) key,
      id ∈ idsAt s.workspaces key ∧ id ≠ tabIdForThread target := by
    intro key id hin
    unfold idsAt at hin
    rw [stripAt_map hempty] at hin
    exact (((h.strips.at key).stripWithout hne).2.1 id).mp hin
  have hkeep : ∀ key, tabIdForThread target ∉ idsAt s.workspaces key →
      stripAt (s.workspaces.map fun _ w => stripWithout target w) key =
        stripAt s.workspaces key := by
    intro key hnot
    rw [stripAt_map hempty]
    exact ((h.strips.at key).stripWithout hne).2.2 hnot
  generalize s.workspaces.map (fun _ w => stripWithout target w) = rest at hstrips hids hkeep
  have hreturn : ∀ context, some s.returnContext = some context → Plain context := by
    rintro context heq
    rw [← Option.some.inj heq]
    exact h.returning.1
  by_cases hrouted : s.location.threadId = some target
  · -- The routed session goes: the one that the strip then has in focus is routed.
    rw [if_pos hrouted, hstrips.workspaceFor]
    obtain ⟨-, hholds, hrouted', -⟩ := h.routed target hrouted
    have hfocus : ∀ threadId,
        focusedThreadId (stripAt rest (sessionViewContextKey s.location.context)) = some threadId →
        threadId ≠ "" ∧
        tabIdForThread threadId ∈ idsAt rest (sessionViewContextKey s.location.context) ∧
        (stripAt rest (sessionViewContextKey s.location.context)).focusedTabId =
          some (tabIdForThread threadId) :=
      fun threadId hfocus => (hstrips.at _).focusedThreadId hfocus
    exact
      { consistent := consistent_create hstrips h.plain (fun _ _ _ => hholds) hreturn
        context := rfl
        routed := fun threadId hsome => by
          obtain ⟨-, hmem, -⟩ := hfocus threadId (Option.filter_eq_some_iff.mp hsome).1
          obtain ⟨hold, hother⟩ := hids _ _ hmem
          exact ⟨fun heq => hother (heq ▸ rfl), Or.inr ⟨_, hold⟩⟩
        ids := fun key id hin => by
          rcases ids_create hstrips hin with hold | ⟨hkey, threadId, hsome, rfl⟩
          · exact hids key id hold
          · obtain ⟨-, hmem, -⟩ := hfocus threadId hsome
            rw [hkey]
            exact hids _ _ hmem
        others := fun key hnot => by
          have hother : key ≠ sessionViewContextKey s.location.context :=
            fun hkey => hnot (hkey ▸ hrouted')
          rw [Tabs.stripAt_create _ _ hstrips, if_neg hother, hkeep key hnot] }
  · rw [if_neg hrouted]
    exact
      { consistent := consistent_create hstrips h.plain
          (fun threadId hsome _ => (h.routed threadId hsome).2.1) hreturn
        context := rfl
        routed := fun threadId hsome => by
          have hold := (Option.filter_eq_some_iff.mp hsome).1
          exact ⟨fun heq => hrouted (heq ▸ hold), Or.inl hold⟩
        ids := fun key id hin => by
          rcases ids_create hstrips hin with hold | ⟨hkey, threadId, hsome, rfl⟩
          · exact hids key id hold
          · obtain ⟨-, -, hmem, -⟩ := h.routed threadId hsome
            rw [hkey]
            refine ⟨hmem, fun heq => hrouted ?_⟩
            rw [hsome, tabIdForThread_inj heq]
        others := fun key hnot => h.stripAt_create hstrips (hkeep key hnot) }

theorem Free.removed (hfree : Free unavailable s) {target : String}
    (h : Removed target s next) : Free (target :: unavailable) next := by
  intro threadId hmem
  rcases List.mem_cons.mp hmem with rfl | hmem
  · exact ⟨fun hsome => (h.routed threadId hsome).1 rfl, fun key hin => (h.ids key _ hin).2 rfl⟩
  · obtain ⟨hrouted, hclosed⟩ := hfree threadId hmem
    refine ⟨fun hsome => ?_, fun key hin => hclosed key (h.ids key _ hin).1⟩
    rcases (h.routed threadId hsome).2 with hold | ⟨key, hold⟩
    · exact hrouted hold
    · exact hclosed key hold

theorem stringSet_ne_empty {values : Js} (h : threadId ∈ stringSet values) : threadId ≠ "" := by
  have hid : ∀ items : List Js, threadId ∈ (items.filterMap stringId).eraseDups →
      threadId ≠ "" := by
    intro items hmem
    rw [List.mem_eraseDups, List.mem_filterMap] at hmem
    obtain ⟨value, -, hvalue⟩ := hmem
    cases value with
    | string text =>
      simp only [stringId] at hvalue
      split_ifs at hvalue with hne
      rw [← Option.some.inj hvalue]
      exact hne
    | _ => exact absurd hvalue (by simp [stringId])
  cases values with
  | array items => exact hid items h
  | set items => exact hid items h
  | _ => exact absurd h (by simp [stringSet])

structure Swept (unavailable : List String) (s next : SessionViewState) : Prop where
  consistent : Consistent next
  context : next.location.context = s.location.context
  free : Free unavailable next
  others : ∀ key, (∀ threadId ∈ unavailable, tabIdForThread threadId ∉ idsAt s.workspaces key) →
    stripAt next.workspaces key = stripAt s.workspaces key

theorem Consistent.sweep (h : Consistent s) {threadIds : List String}
    (hne : ∀ threadId ∈ threadIds, threadId ≠ "") :
    Swept threadIds s
      (threadIds.foldl (fun next threadId => Tabs.removeThread next (.string threadId)) s) := by
  induction threadIds using List.reverseRecOn with
  | nil => exact ⟨h, rfl, fun _ hmem => absurd hmem (by simp), fun _ _ => rfl⟩
  | append_singleton threadIds target ih =>
    have hswept := ih fun threadId hmem => hne threadId (List.mem_append_left _ hmem)
    rw [List.foldl_append, List.foldl_cons, List.foldl_nil]
    generalize threadIds.foldl (fun next threadId => Tabs.removeThread next (.string threadId)) s =
      mid at hswept
    have hremoved := hswept.consistent.removeThread (hne target (by simp))
    refine ⟨hremoved.consistent, hremoved.context.trans hswept.context, ?_, ?_⟩
    · intro threadId hmem
      apply hswept.free.removed hremoved threadId
      simp only [List.mem_append, List.mem_cons, List.not_mem_nil, or_false] at hmem ⊢
      exact hmem.symm
    · intro key hclosed
      have hmid := hswept.others key fun threadId hmem =>
        hclosed threadId (List.mem_append_left _ hmem)
      rw [hremoved.others key ?_, hmid]
      unfold idsAt
      rw [hmid]
      exact hclosed target (by simp)

theorem moved_strip (h : Consistent s) (hfree : Free unavailable s) (hw : Neat w)
    (hids : ∀ id ∈ w.tabs.map (·.id), id ∈ idsAt s.workspaces (sessionViewContextKey context)) :
    Moved unavailable (· = sessionViewContextKey context) s
      (rebuild s s.location context w) := by
  apply moved_rebuild h hfree hw
  · intro hscreen
    exact tabs_nil_of_ids hids (h.strips.screens _ hscreen)
  · intro threadId hmem hin
    exact (hfree threadId hmem).2 _ (hids _ hin)
  · exact h.plain
  · intro threadId hsome _
    exact (h.routed threadId hsome).2.1
  · intro threadId hmem
    exact (hfree threadId hmem).1
  · exact Or.inl rfl

theorem moved_open (h : Consistent s) (hfree : Free unavailable s)
    (havailable : threadId ∉ unavailable) (hholds : isFullAreaContext context = false)
    (hp : Plain context) (hw : Neat w)
    (hids : ∀ id ∈ w.tabs.map (·.id),
      id ∈ idsAt s.workspaces (sessionViewContextKey context) ∨ id = tabIdForThread threadId) :
    Moved unavailable (· = sessionViewContextKey context) s
      (rebuild s { context := context, threadId := some threadId } context w) := by
  apply moved_rebuild h hfree hw
  · intro hscreen
    rw [key_of_holdsTabs hholds hp] at hscreen
    exact absurd hscreen (by simp)
  · intro other hmem hin
    rcases hids _ hin with hold | hnew
    · exact (hfree other hmem).2 _ hold
    · exact havailable (tabIdForThread_inj hnew ▸ hmem)
  · exact hp
  · intro _ _ _
    exact hholds
  · intro other hmem hsome
    exact havailable (Option.some.inj hsome ▸ hmem)
  · exact Or.inr rfl

theorem moved_close (h : Consistent s) (hfree : Free unavailable s) (tabId : String)
    (hkey : sessionViewContextKey context = sessionViewContextKey s.location.context) :
    Moved unavailable (· = sessionViewContextKey context) s
      (rebuild s
        { s.location with
          threadId := focusedThreadId
            (closeTab (stripAt s.workspaces (sessionViewContextKey context)) tabId) }
        context (closeTab (stripAt s.workspaces (sessionViewContextKey context)) tabId)) := by
  obtain ⟨hneat, hids⟩ := (h.strips.at (sessionViewContextKey context)).closeTab tabId
  apply moved_rebuild h hfree hneat
  · intro hscreen
    exact tabs_nil_of_ids (fun id hin => ((hids id).mp hin).1) (h.strips.screens _ hscreen)
  · intro threadId hmem hin
    exact (hfree threadId hmem).2 _ ((hids _).mp hin).1
  · exact h.plain
  · intro threadId hsome _
    by_contra hfull
    have hscreen := key_of_fullArea (Bool.not_eq_false _ ▸ hfull)
    rw [← hkey] at hscreen
    have hnil := tabs_nil_of_ids (fun id hin => ((hids id).mp hin).1)
      (h.strips.screens _ hscreen)
    rw [focusedThreadId_empty hnil] at hsome
    exact absurd hsome (by simp)
  · intro threadId hmem hsome
    obtain ⟨-, hin, -⟩ := hneat.focusedThreadId hsome
    exact (hfree threadId hmem).2 _ ((hids _).mp hin).1
  · exact Or.inr hkey.symm

end AgentRelay.Tabs
