import AgentRelay.TabLayout

/-! The order of a strip of tabs that was built from nothing: each tab shows one session and is
named after it, pinned tabs come first, at most one tab is a preview and the focused one is
there. Every operation keeps this, and what it does to the set of open sessions. -/
namespace AgentRelay.Tabs

theorem tabIdForThread_inj {s t : String} (h : tabIdForThread s = tabIdForThread t) : s = t := by
  have hlist := congrArg String.toList h
  simp only [tabIdForThread, String.toList_append] at hlist
  exact String.toList_injective (List.append_cancel_left hlist)

theorem tabIdForThread_ne_empty (t : String) : tabIdForThread t ≠ "" := by
  intro h
  have hlist := congrArg String.toList h
  simp [tabIdForThread] at hlist

def Tab.Shows (tab : Tab) (threadId : String) : Prop :=
  threadId ≠ "" ∧ tab.layout = .leaf threadId ∧ tab.id = tabIdForThread threadId

structure Tidy (tabs : List Tab) : Prop where
  shows : ∀ tab ∈ tabs, ∃ threadId, tab.Shows threadId
  distinct : (tabs.map (·.id)).Nodup
  onePreview : (tabs.filter (·.preview)).length ≤ 1
  kept : ∀ tab ∈ tabs, tab.pinned = true → tab.preview = false

def PinnedFirst (tabs : List Tab) : Prop :=
  tabs.Pairwise fun a b => b.pinned = true → a.pinned = true

structure Neat (w : TabWorkspace) : Prop where
  tidy : Tidy w.tabs
  pinnedFirst : PinnedFirst w.tabs
  focused : w.tabs ≠ [] → ∃ tab ∈ w.tabs, w.focusedTabId = some tab.id
  unfocused : w.tabs = [] → w.focusedTabId = none

theorem neat_empty : Neat {} where
  tidy := ⟨by simp, by simp, by simp, by simp⟩
  pinnedFirst := List.Pairwise.nil
  focused h := absurd rfl h
  unfocused _ := rfl

variable {tabs tabs' : List Tab} {tab : Tab} {w : TabWorkspace} {threadId tabId : String}

theorem Tab.Shows.has (h : tab.Shows threadId) (other : String) :
    layoutHasThread tab.layout other = true ↔ other = threadId := by
  obtain ⟨hne, hlayout, -⟩ := h
  simp only [layoutHasThread, hlayout, layoutThreadIds, if_neg hne]
  constructor
  · intro hother
    simp at hother
    exact hother.2
  · rintro rfl
    simp [hne]

theorem Tidy.perm (h : Tidy tabs) (hp : tabs.Perm tabs') : Tidy tabs' where
  shows tab ht := h.shows tab (hp.mem_iff.mpr ht)
  distinct := (hp.map _).nodup_iff.mp h.distinct
  onePreview := by
    rw [← (hp.filter _).length_eq]
    exact h.onePreview
  kept tab ht := h.kept tab (hp.mem_iff.mpr ht)

theorem Tidy.sublist (h : Tidy tabs) (hs : tabs'.Sublist tabs) : Tidy tabs' where
  shows tab ht := h.shows tab (hs.subset ht)
  distinct := h.distinct.sublist (hs.map _)
  onePreview := (hs.filter _).length_le.trans h.onePreview
  kept tab ht := h.kept tab (hs.subset ht)

theorem Tidy.cons (h : Tidy tabs) (hshows : ∃ threadId, tab.Shows threadId)
    (hnew : tab.id ∉ tabs.map (·.id)) (hkept : tab.pinned = true → tab.preview = false)
    (hpreview : tab.preview = true → tabs.filter (·.preview) = []) : Tidy (tab :: tabs) where
  shows := List.forall_mem_cons.mpr ⟨hshows, h.shows⟩
  distinct := by
    rw [List.map_cons, List.nodup_cons]
    exact ⟨hnew, h.distinct⟩
  onePreview := by
    rw [List.filter_cons]
    split_ifs with hp
    · rw [hpreview hp]
      simp
    · exact h.onePreview
  kept := List.forall_mem_cons.mpr ⟨hkept, h.kept⟩

theorem Tidy.mark (h : Tidy tabs) {f : Tab → Tab} (hid : ∀ tab, (f tab).id = tab.id)
    (hlayout : ∀ tab, (f tab).layout = tab.layout)
    (hpreview : ∀ tab, (f tab).preview = true → tab.preview = true)
    (hkept : ∀ tab ∈ tabs, (f tab).pinned = true → (f tab).preview = false) :
    Tidy (tabs.map f) where
  shows tab ht := by
    obtain ⟨tab, hmem, rfl⟩ := List.mem_map.mp ht
    obtain ⟨threadId, hne, hleaf, hname⟩ := h.shows tab hmem
    exact ⟨threadId, hne, (hlayout tab).trans hleaf, (hid tab).trans hname⟩
  distinct := by
    rw [List.map_map]
    have hids : (fun tab : Tab => tab.id) ∘ f = fun tab : Tab => tab.id := funext hid
    rw [hids]
    exact h.distinct
  onePreview := by
    rw [List.filter_map, List.length_map]
    have hfewer : (tabs.filter ((fun tab => tab.preview) ∘ f)).Sublist
        (tabs.filter (·.preview)) := List.monotone_filter_right tabs hpreview
    exact hfewer.length_le.trans h.onePreview
  kept tab ht := by
    obtain ⟨tab, hmem, rfl⟩ := List.mem_map.mp ht
    exact hkept tab hmem

theorem partitionPinned_perm (tabs : List Tab) : (partitionPinned tabs).Perm tabs := by
  unfold partitionPinned
  exact List.filter_append_perm _ tabs

theorem pinnedFirst_append {pinned rest : List Tab} (hp : ∀ tab ∈ pinned, tab.pinned = true)
    (hr : ∀ tab ∈ rest, tab.pinned = false) : PinnedFirst (pinned ++ rest) := by
  unfold PinnedFirst
  rw [List.pairwise_append]
  refine ⟨?_, ?_, ?_⟩
  · exact List.pairwise_of_forall_mem_list fun a ha b _ _ => hp a ha
  · refine List.pairwise_of_forall_mem_list fun a _ b hb hpin => ?_
    rw [hr b hb] at hpin
    exact absurd hpin (by simp)
  · exact fun a ha b _ _ => hp a ha

theorem pinnedFirst_partition (tabs : List Tab) : PinnedFirst (partitionPinned tabs) := by
  apply pinnedFirst_append
  · intro tab ht
    exact (List.mem_filter.mp ht).2
  · intro tab ht
    simpa using (List.mem_filter.mp ht).2

theorem PinnedFirst.partition (h : PinnedFirst tabs) : partitionPinned tabs = tabs := by
  induction tabs with
  | nil => rfl
  | cons tab tabs ih =>
    obtain ⟨hhead, htail⟩ := List.pairwise_cons.mp h
    have hrest := ih htail
    unfold partitionPinned at hrest ⊢
    cases hpin : tab.pinned with
    | true => simpa [List.filter_cons, hpin] using hrest
    | false =>
      have hnone : tabs.filter (·.pinned) = [] := by
        rw [List.filter_eq_nil_iff]
        intro other hother hpinned
        have hcontra := hhead other hother hpinned
        rw [hpin] at hcontra
        exact absurd hcontra (by simp)
      rw [hnone] at hrest
      simp only [List.nil_append] at hrest
      simp [hpin, hnone, hrest]

theorem Tidy.normalize (h : Tidy tabs) : (tabs.map normalizeTab).filter (·.id ≠ "") = tabs := by
  have hself : tabs.map normalizeTab = tabs := by
    apply List.map_congr_left (g := id) ?_ |>.trans (List.map_id tabs)
    intro tab ht
    have hkept := h.kept tab ht
    obtain ⟨id, pinned, preview, layout⟩ := tab
    cases pinned with
    | true =>
      have hpreview : preview = false := hkept rfl
      rw [hpreview]
      rfl
    | false => simp [normalizeTab]
  rw [hself, List.filter_eq_self]
  intro tab ht
  obtain ⟨threadId, -, -, hname⟩ := h.shows tab ht
  simp [hname, tabIdForThread_ne_empty]

theorem Neat.create (h : Neat w) : createTabWorkspace w = w := by
  have htabs : partitionPinned ((w.tabs.map normalizeTab).filter (·.id ≠ "")) = w.tabs := by
    rw [h.tidy.normalize, h.pinnedFirst.partition]
  unfold createTabWorkspace
  simp only [htabs]
  by_cases hempty : w.tabs = []
  · have hnone := h.unfocused hempty
    rw [hempty, hnone]
    obtain ⟨tabs, focus⟩ := w
    simp only at hempty hnone
    simp [hempty, hnone]
  · obtain ⟨tab, hmem, hfocus⟩ := h.focused hempty
    have hexists : w.tabs.any (fun tab => some tab.id = w.focusedTabId) = true := by
      rw [List.any_eq_true]
      exact ⟨tab, hmem, by simp [hfocus]⟩
    rw [if_pos hexists]

theorem Tidy.mem_open (h : Tidy w.tabs) :
    threadId ∈ openThreadIds w ↔
      threadId ≠ "" ∧ tabIdForThread threadId ∈ w.tabs.map (·.id) := by
  simp only [openThreadIds, List.mem_flatMap, List.mem_map]
  constructor
  · rintro ⟨tab, hmem, hin⟩
    obtain ⟨shown, hne, hleaf, hname⟩ := h.shows tab hmem
    rw [hleaf, layoutThreadIds, if_neg hne, List.mem_singleton] at hin
    rw [hin]
    exact ⟨hne, tab, hmem, hname⟩
  · rintro ⟨-, tab, hmem, hid⟩
    obtain ⟨shown, hne, hleaf, hname⟩ := h.shows tab hmem
    have heq : shown = threadId := tabIdForThread_inj (hname.symm.trans hid)
    refine ⟨tab, hmem, ?_⟩
    rw [hleaf, layoutThreadIds, if_neg hne, heq, List.mem_singleton]

theorem Tidy.nodup_open (h : Tidy w.tabs) : (openThreadIds w).Nodup := by
  unfold openThreadIds
  have hshows := h.shows
  have hdistinct := h.distinct
  clear h
  generalize w.tabs = tabs at hshows hdistinct
  induction tabs with
  | nil => simp
  | cons tab tabs ih =>
    obtain ⟨shown, hne, hleaf, hname⟩ := hshows tab List.mem_cons_self
    rw [List.map_cons, List.nodup_cons] at hdistinct
    have hrest := ih (fun other hother => hshows other (List.mem_cons_of_mem tab hother))
      hdistinct.2
    rw [List.flatMap_cons, hleaf, layoutThreadIds, if_neg hne]
    refine List.nodup_cons.mpr ⟨fun hin => hdistinct.1 ?_, hrest⟩
    obtain ⟨other, hother, hmem⟩ := List.mem_flatMap.mp hin
    obtain ⟨shown', hne', hleaf', hname'⟩ := hshows other (List.mem_cons_of_mem tab hother)
    rw [hleaf', layoutThreadIds, if_neg hne', List.mem_singleton] at hmem
    exact List.mem_map.mpr ⟨other, hother, by rw [hname', hname, hmem]⟩

theorem Tidy.find_thread (h : Tidy w.tabs) (hne : threadId ≠ "") :
    findTabByThread w threadId = w.tabs.find? fun tab => tab.id = tabIdForThread threadId := by
  unfold findTabByThread
  rw [if_neg hne]
  apply List.find?_congr
  intro tab hmem
  obtain ⟨shown, hshows⟩ := h.shows tab hmem
  have hhas := hshows.has threadId
  obtain ⟨-, -, hname⟩ := hshows
  by_cases heq : threadId = shown
  · rw [hhas.mpr heq, hname, heq]
    simp
  · have hno : layoutHasThread tab.layout threadId = false := by
      rw [Bool.eq_false_iff]
      exact fun hyes => heq (hhas.mp hyes)
    rw [hno, hname]
    simp only [false_eq_decide_iff]
    exact fun hid => heq (tabIdForThread_inj hid).symm

theorem neat_focused (htidy : Tidy tabs) (hpinned : PinnedFirst tabs)
    (hmem : tabId ∈ tabs.map (·.id)) : Neat { tabs := tabs, focusedTabId := some tabId } where
  tidy := htidy
  pinnedFirst := hpinned
  focused _ := by
    obtain ⟨tab, hin, hid⟩ := List.mem_map.mp hmem
    exact ⟨tab, hin, by rw [hid]⟩
  unfocused hempty := by
    rw [show tabs = [] from hempty] at hmem
    exact absurd hmem (by simp)

theorem Neat.focus_mem (h : Neat w) (hopen : tabId ∈ w.tabs.map (·.id)) :
    Neat { w with focusedTabId := some tabId } :=
  neat_focused h.tidy h.pinnedFirst hopen

theorem Neat.sameIds (h : Neat w) (htidy : Tidy tabs) (hpinned : PinnedFirst tabs)
    (hids : ∀ tabId, tabId ∈ tabs.map (·.id) ↔ tabId ∈ w.tabs.map (·.id)) :
    Neat { w with tabs := tabs } where
  tidy := htidy
  pinnedFirst := hpinned
  focused hne := by
    obtain ⟨tab, htab⟩ := List.exists_mem_of_ne_nil tabs hne
    have hold := (hids tab.id).mp (List.mem_map_of_mem htab)
    have hwne : w.tabs ≠ [] := by
      rintro hempty
      rw [hempty] at hold
      exact absurd hold (by simp)
    obtain ⟨focus, hfocus, hid⟩ := h.focused hwne
    obtain ⟨tab', hmem', hid'⟩ := List.mem_map.mp
      ((hids focus.id).mpr (List.mem_map_of_mem hfocus))
    exact ⟨tab', hmem', by rw [hid, hid']⟩
  unfocused hempty := by
    apply h.unfocused
    by_contra hne
    obtain ⟨tab, htab⟩ := List.exists_mem_of_ne_nil w.tabs hne
    have hnew := (hids tab.id).mpr (List.mem_map_of_mem htab)
    rw [show tabs = [] from hempty] at hnew
    exact absurd hnew (by simp)

theorem neat_joined {rest : List Tab} (htidy : Tidy (tab :: rest))
    (hperm : tabs.Perm (tab :: rest)) :
    Neat { tabs := partitionPinned tabs, focusedTabId := some tab.id } ∧
    tab.id ∈ (partitionPinned tabs).map (·.id) ∧
    ∀ id ∈ (partitionPinned tabs).map (·.id), id ∈ rest.map (·.id) ∨ id = tab.id := by
  have hall : (partitionPinned tabs).Perm (tab :: rest) := (partitionPinned_perm tabs).trans hperm
  have hids := hall.map (·.id)
  have hmem : tab.id ∈ (partitionPinned tabs).map (·.id) := by
    rw [hids.mem_iff]
    exact List.mem_cons_self
  refine ⟨neat_focused (htidy.perm hall.symm) (pinnedFirst_partition tabs) hmem, hmem, ?_⟩
  intro id hid
  rw [hids.mem_iff, List.map_cons, List.mem_cons] at hid
  exact hid.symm

/-- Opening a session leaves its tab in focus, and opens no other. -/
theorem Neat.openThreadTab (h : Neat w) (hne : threadId ≠ "") (preview : Bool) :
    Neat (openThreadTab w threadId none preview) ∧
    (Tabs.openThreadTab w threadId none preview).focusedTabId = some (tabIdForThread threadId) ∧
    tabIdForThread threadId ∈
      (Tabs.openThreadTab w threadId none preview).tabs.map (·.id) ∧
    ∀ id ∈ (Tabs.openThreadTab w threadId none preview).tabs.map (·.id),
      id ∈ w.tabs.map (·.id) ∨ id = tabIdForThread threadId := by
  unfold Tabs.openThreadTab
  rw [h.create]
  simp only [if_neg hne, Option.filter_none, Option.getD_none]
  rw [h.tidy.find_thread hne]
  cases hfind : w.tabs.find? (fun tab => decide (tab.id = tabIdForThread threadId)) with
  | some existing =>
    have hid : existing.id = tabIdForThread threadId := by simpa using List.find?_some hfind
    have hmem : existing.id ∈ w.tabs.map (·.id) :=
      List.mem_map_of_mem (List.mem_of_find?_eq_some hfind)
    dsimp only
    rw [hid] at hmem ⊢
    exact ⟨h.focus_mem hmem, rfl, hmem, fun id hin => Or.inl hin⟩
  | none =>
    have hnew : tabIdForThread threadId ∉ w.tabs.map (·.id) := by
      intro hin
      obtain ⟨tab, hmem, hid⟩ := List.mem_map.mp hin
      exact absurd hid (by simpa using List.find?_eq_none.mp hfind tab hmem)
    dsimp only
    generalize htab : normalizeTab
      { id := tabIdForThread threadId, pinned := false, preview := preview
        layout := createLeaf threadId } = tab
    have hid : tab.id = tabIdForThread threadId := by rw [← htab]; rfl
    have hshows : ∃ shown, tab.Shows shown := ⟨threadId, hne, by rw [← htab]; rfl, hid⟩
    have hkept : tab.pinned = true → tab.preview = false := by
      rw [← htab]
      exact fun hpin => absurd hpin (by simp [normalizeTab])
    have hflag : tab.preview = preview := by
      rw [← htab]
      simp [normalizeTab]
    rw [← hid] at hnew ⊢
    cases hpreview : (if preview then w.tabs.findIdx? (·.preview) else none) with
    | some replacing =>
      split_ifs at hpreview with hpeek
      obtain ⟨hlt, hat, -⟩ := List.findIdx?_eq_some_iff_getElem.mp hpreview
      have hrest := List.eraseIdx_sublist w.tabs replacing
      have hids : ∀ id ∈ (w.tabs.eraseIdx replacing).map (·.id), id ∈ w.tabs.map (·.id) :=
        fun id hin => (hrest.map _).subset hin
      -- The tab that gives way was the only preview.
      have hnone : (w.tabs.eraseIdx replacing).filter (·.preview) = [] := by
        have hcount := ((List.getElem_cons_eraseIdx_perm hlt).filter (·.preview)).length_eq
        rw [List.filter_cons, if_pos hat, List.length_cons] at hcount
        have hone := h.tidy.onePreview
        exact List.eq_nil_of_length_eq_zero (by omega)
      have htidy := (h.tidy.sublist hrest).cons hshows (fun hin => hnew (hids _ hin)) hkept
        fun _ => hnone
      obtain ⟨hneat, hmem, hfew⟩ := neat_joined htidy (List.set_perm_cons_eraseIdx hlt tab)
      exact ⟨hneat, rfl, hmem, fun id hin => (hfew id hin).imp_left (hids id)⟩
    | none =>
      have hnone : tab.preview = true → w.tabs.filter (·.preview) = [] := by
        intro hpeek
        rw [hflag] at hpeek
        rw [if_pos hpeek, List.findIdx?_eq_none_iff] at hpreview
        rw [List.filter_eq_nil_iff]
        intro other hother
        simp [hpreview other hother]
      have htidy := h.tidy.cons hshows hnew hkept hnone
      obtain ⟨hneat, hmem, hfew⟩ := neat_joined htidy (List.perm_append_singleton tab w.tabs)
      exact ⟨hneat, rfl, hmem, hfew⟩

theorem Neat.openThreadTab_self (h : Neat w) (hne : threadId ≠ "")
    (hfocus : w.focusedTabId = some (tabIdForThread threadId))
    (hmem : tabIdForThread threadId ∈ w.tabs.map (·.id)) (preview : Bool) :
    Tabs.openThreadTab w threadId none preview = w := by
  unfold Tabs.openThreadTab
  rw [h.create]
  simp only [if_neg hne]
  rw [h.tidy.find_thread hne]
  cases hfind : w.tabs.find? (fun tab => decide (tab.id = tabIdForThread threadId)) with
  | some existing =>
    have hid : existing.id = tabIdForThread threadId := by simpa using List.find?_some hfind
    dsimp only
    rw [hid, ← hfocus]
  | none =>
    obtain ⟨tab, hin, hid⟩ := List.mem_map.mp hmem
    exact absurd hid (by simpa using List.find?_eq_none.mp hfind tab hin)

theorem Neat.mark (h : Neat w) {f : Tab → Tab} (hid : ∀ tab, (f tab).id = tab.id)
    (hlayout : ∀ tab, (f tab).layout = tab.layout)
    (hpreview : ∀ tab, (f tab).preview = true → tab.preview = true)
    (hkept : ∀ tab ∈ w.tabs, (f tab).pinned = true → (f tab).preview = false)
    (hperm : tabs.Perm (w.tabs.map f)) (hpinned : PinnedFirst tabs) :
    Neat { w with tabs := tabs } ∧
      ∀ id, id ∈ tabs.map (·.id) ↔ id ∈ w.tabs.map (·.id) := by
  have hids : ∀ id, id ∈ tabs.map (·.id) ↔ id ∈ w.tabs.map (·.id) := by
    intro id
    rw [(hperm.map _).mem_iff, List.map_map]
    have hsame : (fun tab : Tab => tab.id) ∘ f = fun tab : Tab => tab.id := funext hid
    rw [hsame]
  have htidy := (h.tidy.mark hid hlayout hpreview hkept).perm hperm.symm
  exact ⟨h.sameIds htidy hpinned hids, hids⟩

theorem Neat.promoteTab (h : Neat w) (tabId : String) :
    Neat (promoteTab w tabId) ∧
      ∀ id, id ∈ (Tabs.promoteTab w tabId).tabs.map (·.id) ↔ id ∈ w.tabs.map (·.id) := by
  unfold Tabs.promoteTab
  rw [h.create]
  dsimp only
  split
  · exact ⟨h, fun id => Iff.rfl⟩
  · split_ifs
    · exact ⟨h, fun id => Iff.rfl⟩
    · refine h.mark (f := fun tab => if tab.id = tabId then { tab with preview := false } else tab)
        (fun tab => ?_) (fun tab => ?_) (fun tab => ?_) (fun tab hmem => ?_) (List.Perm.refl _) ?_
      · split_ifs <;> rfl
      · split_ifs <;> rfl
      · split_ifs <;> simp
      · split_ifs
        · simp
        · exact h.tidy.kept tab hmem
      · unfold PinnedFirst
        rw [List.pairwise_map]
        refine h.pinnedFirst.imp fun {a b} hab => ?_
        split_ifs <;> exact hab

theorem Neat.setTabPinned (h : Neat w) (tabId : String) (pinned : Bool) :
    Neat (setTabPinned w tabId pinned) ∧
      ∀ id, id ∈ (Tabs.setTabPinned w tabId pinned).tabs.map (·.id) ↔
        id ∈ w.tabs.map (·.id) := by
  unfold Tabs.setTabPinned
  rw [h.create]
  dsimp only
  split
  · exact ⟨h, fun id => Iff.rfl⟩
  · refine h.mark (f := fun tab =>
        if tab.id = tabId then normalizeTab { tab with pinned := pinned } else tab)
      (fun tab => ?_) (fun tab => ?_) (fun tab => ?_) (fun tab hmem => ?_)
      (partitionPinned_perm _) (pinnedFirst_partition _)
    · split_ifs <;> rfl
    · split_ifs <;> rfl
    · split_ifs <;> simp [normalizeTab]
    · split_ifs
      · intro hpin
        have hkeep : pinned = true := hpin
        simp [normalizeTab, hkeep]
      · exact h.tidy.kept tab hmem

theorem index_le_of_findIdx? {index : Nat}
    (h : tabs.findIdx? (fun tab => decide (tab.id = tabId)) = some index) :
    index ≤ (tabs.filter (·.id ≠ tabId)).length := by
  obtain ⟨hlt, -, hbefore⟩ := List.findIdx?_eq_some_iff_getElem.mp h
  have hall : (tabs.take index).filter (·.id ≠ tabId) = tabs.take index := by
    rw [List.filter_eq_self]
    intro tab hmem
    obtain ⟨i, hi, rfl⟩ := List.mem_take_iff_getElem.mp hmem
    simpa using hbefore i (by omega)
  have hfewer := ((List.take_sublist index tabs).filter (·.id ≠ tabId)).length_le
  rw [hall, List.length_take] at hfewer
  omega

theorem exists_neighbour {index : Nat} (hlen : index ≤ tabs.length) (hne : tabs ≠ []) :
    ∃ tab ∈ tabs, tabs[index]?.or (if index = 0 then none else tabs[index - 1]?) = some tab := by
  have hpos : 0 < tabs.length := List.length_pos_iff.mpr hne
  by_cases hlt : index < tabs.length
  · exact ⟨tabs[index], List.getElem_mem hlt, by simp [List.getElem?_eq_getElem hlt]⟩
  · have heq : index = tabs.length := by omega
    have hlast : index - 1 < tabs.length := by omega
    refine ⟨tabs[index - 1], List.getElem_mem hlast, ?_⟩
    rw [List.getElem?_eq_none (by omega), if_neg (by omega), List.getElem?_eq_getElem hlast]
    rfl

/-- Closing a tab takes out this tab, and focuses one that stays. -/
theorem Neat.closeTab (h : Neat w) (tabId : String) :
    Neat (closeTab w tabId) ∧
      ∀ id, id ∈ (Tabs.closeTab w tabId).tabs.map (·.id) ↔
        id ∈ w.tabs.map (·.id) ∧ id ≠ tabId := by
  unfold Tabs.closeTab
  rw [h.create]
  dsimp only
  have hids : ∀ id, id ∈ (w.tabs.filter (·.id ≠ tabId)).map (·.id) ↔
      id ∈ w.tabs.map (·.id) ∧ id ≠ tabId := by
    intro id
    simp only [List.mem_map, List.mem_filter, decide_eq_true_eq]
    constructor
    · rintro ⟨tab, ⟨hmem, hne⟩, rfl⟩
      exact ⟨⟨tab, hmem, rfl⟩, hne⟩
    · rintro ⟨⟨tab, hmem, rfl⟩, hne⟩
      exact ⟨tab, ⟨hmem, hne⟩, rfl⟩
  have htidy : Tidy (w.tabs.filter (·.id ≠ tabId)) := h.tidy.sublist List.filter_sublist
  have hpinned : PinnedFirst (w.tabs.filter (·.id ≠ tabId)) :=
    h.pinnedFirst.sublist List.filter_sublist
  cases hindex : w.tabs.findIdx? (fun tab => decide (tab.id = tabId)) with
  | none =>
    refine ⟨h, fun id => ⟨fun hmem => ⟨hmem, ?_⟩, fun hmem => hmem.1⟩⟩
    rintro rfl
    obtain ⟨tab, hin, hid⟩ := List.mem_map.mp hmem
    have hno := List.findIdx?_eq_none_iff.mp hindex tab hin
    exact absurd hid (by simpa using hno)
  | some index =>
    dsimp only
    by_cases hfocus : w.focusedTabId ≠ some tabId
    · rw [if_pos hfocus]
      -- The focus is on another tab, which stays.
      refine ⟨⟨htidy, hpinned, fun hne => ?_, fun hempty => ?_⟩, hids⟩
      · obtain ⟨tab, hmem⟩ := List.exists_mem_of_ne_nil _ hne
        have hwne : w.tabs ≠ [] := List.ne_nil_of_mem (List.mem_of_mem_filter hmem)
        obtain ⟨focus, hin, hid⟩ := h.focused hwne
        refine ⟨focus, List.mem_filter.mpr ⟨hin, ?_⟩, hid⟩
        rw [hid] at hfocus
        simpa using fun heq => hfocus (congrArg some heq)
      · by_contra hsome
        have hwne : w.tabs ≠ [] := fun hnil => hsome (h.unfocused hnil)
        obtain ⟨focus, hin, hid⟩ := h.focused hwne
        have hstays : focus ∈ w.tabs.filter (·.id ≠ tabId) := by
          refine List.mem_filter.mpr ⟨hin, ?_⟩
          rw [hid] at hfocus
          simpa using fun heq => hfocus (congrArg some heq)
        rw [show w.tabs.filter (·.id ≠ tabId) = [] from hempty] at hstays
        exact absurd hstays (by simp)
    · rw [if_neg hfocus]
      have hlen := index_le_of_findIdx? hindex
      generalize w.tabs.filter (·.id ≠ tabId) = rest at hids htidy hpinned hlen
      refine ⟨⟨htidy, hpinned, fun hne => ?_, fun hempty => ?_⟩, hids⟩
      · obtain ⟨tab, hmem, hnext⟩ := exists_neighbour hlen hne
        refine ⟨tab, hmem, ?_⟩
        dsimp only
        rw [hnext]
        rfl
      · have hnil : rest = [] := hempty
        subst hnil
        have hzero : index = 0 := by simpa using hlen
        simp [hzero]

theorem insertIdx_append_left {pinned rest : List Tab} {k : ℕ} (h : k ≤ pinned.length) :
    (pinned ++ rest).insertIdx k tab = pinned.insertIdx k tab ++ rest := by
  induction pinned generalizing k with
  | nil =>
    have hk : k = 0 := by simpa using h
    simp [hk]
  | cons head pinned ih =>
    cases k with
    | zero => simp
    | succ k =>
      have hrest := ih (k := k) (by simpa using h)
      simp [hrest]

theorem insertIdx_append_right {pinned rest : List Tab} {k : ℕ} (h : pinned.length ≤ k) :
    (pinned ++ rest).insertIdx k tab = pinned ++ rest.insertIdx (k - pinned.length) tab := by
  induction pinned generalizing k with
  | nil => simp
  | cons head pinned ih =>
    cases k with
    | zero => simp at h
    | succ k =>
      have hrest := ih (k := k) (by simpa using h)
      simp [hrest]

theorem clampIndex_bounds {toIndex : JsNumber} (lower upper : ℕ) {target : ℚ}
    (h : clampIndex toIndex lower upper = some target) (hle : lower ≤ upper) :
    lower ≤ target.floor.toNat ∧ target.floor.toNat ≤ upper := by
  have hcast : (lower : ℚ) ≤ upper := by exact_mod_cast hle
  have hbounds : (lower : ℚ) ≤ target ∧ target ≤ upper := by
    cases toIndex with
    | nan => simp [clampIndex] at h
    | infinite negative =>
      obtain rfl : _ = target := Option.some.inj h
      cases negative <;> simp [hcast]
    | finite value =>
      obtain rfl : _ = target := Option.some.inj h
      exact ⟨le_min (le_max_right _ _) hcast, min_le_right _ _⟩
  have hlow : (lower : ℤ) ≤ target.floor := Rat.le_floor_iff.mpr (by exact_mod_cast hbounds.1)
  have hhigh : target.floor ≤ upper := by
    have hfloor : (target.floor : ℚ) ≤ upper := (Rat.floor_le target).trans hbounds.2
    exact_mod_cast hfloor
  omega

theorem pinnedFirst_reinsert {pinned rest : List Tab} (tab : Tab) (index k : ℕ)
    (hp : ∀ tab ∈ pinned, tab.pinned = true) (hr : ∀ tab ∈ rest, tab.pinned = false)
    (hindex : if tab.pinned then index < pinned.length ∧ k ≤ pinned.length - 1
      else pinned.length ≤ index ∧ index < (pinned ++ rest).length ∧ pinned.length ≤ k) :
    PinnedFirst (((pinned ++ rest).eraseIdx index).insertIdx k tab) := by
  cases hpin : tab.pinned with
  | true =>
    rw [if_pos hpin] at hindex
    obtain ⟨hlt, hk⟩ := hindex
    have hlen : (pinned.eraseIdx index).length = pinned.length - 1 :=
      List.length_eraseIdx_of_lt hlt
    rw [List.eraseIdx_append_of_lt_length hlt, insertIdx_append_left (by omega)]
    apply pinnedFirst_append
    · intro other hother
      rcases (List.mem_insertIdx (by omega)).mp hother with rfl | hin
      · exact hpin
      · exact hp other ((List.eraseIdx_sublist pinned index).subset hin)
    · exact hr
  | false =>
    rw [if_neg (by simp [hpin])] at hindex
    obtain ⟨hle, hlt, hk⟩ := hindex
    rw [List.eraseIdx_append_of_length_le hle, insertIdx_append_right hk]
    apply pinnedFirst_append
    · exact hp
    · intro other hother
      rcases List.mem_cons.mp (List.insertIdx_subset_cons _ _ _ hother) with rfl | hin
      · exact hpin
      · exact hr other ((List.eraseIdx_sublist rest _).subset hin)

/-- The strip after one of its tabs was taken out and put in again, no longer a preview, at a
place of its own partition. -/
theorem Neat.reinsert (h : Neat w) {index k : ℕ} (hlt : index < w.tabs.length)
    (hk : if w.tabs[index].pinned then k ≤ (w.tabs.filter (·.pinned)).length - 1
      else (w.tabs.filter (·.pinned)).length ≤ k ∧ k ≤ w.tabs.length - 1) :
    Neat { w with
      tabs := (w.tabs.eraseIdx index).insertIdx k
        (normalizeTab { w.tabs[index] with preview := false }) } ∧
    ∀ id, id ∈ ((w.tabs.eraseIdx index).insertIdx k
        (normalizeTab { w.tabs[index] with preview := false })).map (·.id) ↔
      id ∈ w.tabs.map (·.id) := by
  have hold := List.getElem_cons_eraseIdx_perm hlt
  generalize hmoving : normalizeTab { w.tabs[index] with preview := false } = moving
  have hid : moving.id = w.tabs[index].id := by rw [← hmoving]; rfl
  have hpin : moving.pinned = w.tabs[index].pinned := by rw [← hmoving]; rfl
  have hpreview : moving.preview = false := by
    rw [← hmoving]
    simp [normalizeTab]
  have hlayout : moving.layout = w.tabs[index].layout := by rw [← hmoving]; rfl
  have hsplit : w.tabs.filter (·.pinned) ++ w.tabs.filter (!·.pinned) = w.tabs :=
    h.pinnedFirst.partition
  have hfilter : (w.tabs.filter (·.pinned)).length ≤ w.tabs.length :=
    List.length_filter_le _ _
  have hpos : w.tabs[index].pinned = true → 0 < (w.tabs.filter (·.pinned)).length := by
    intro hpinned
    exact List.length_pos_of_mem (List.mem_filter.mpr ⟨List.getElem_mem hlt, hpinned⟩)
  have hklen : k ≤ (w.tabs.eraseIdx index).length := by
    rw [List.length_eraseIdx_of_lt hlt]
    split_ifs at hk <;> omega
  have hperm := (List.perm_insertIdx moving (w.tabs.eraseIdx index) hklen)
  have hdistinct := h.tidy.distinct
  rw [← (hold.map (·.id)).nodup_iff, List.map_cons, List.nodup_cons] at hdistinct
  have htidy : Tidy (moving :: w.tabs.eraseIdx index) := by
    obtain ⟨shown, hne, hleaf, hname⟩ := h.tidy.shows w.tabs[index] (List.getElem_mem hlt)
    apply (h.tidy.sublist (List.eraseIdx_sublist w.tabs index)).cons
    · exact ⟨shown, hne, hlayout.trans hleaf, hid.trans hname⟩
    · rw [hid]
      exact hdistinct.1
    · exact fun _ => hpreview
    · intro hpeek
      rw [hpreview] at hpeek
      exact absurd hpeek (by simp)
  have hids : ∀ id, id ∈ ((w.tabs.eraseIdx index).insertIdx k moving).map (·.id) ↔
      id ∈ w.tabs.map (·.id) := by
    intro id
    rw [(hperm.map _).mem_iff, ← (hold.map (·.id)).mem_iff, List.map_cons, List.map_cons, hid]
  refine ⟨h.sameIds (htidy.perm hperm.symm) ?_ hids, hids⟩
  have hfirst : ∀ tab ∈ w.tabs.filter (·.pinned), tab.pinned = true :=
    fun tab hmem => (List.mem_filter.mp hmem).2
  have hrest : ∀ tab ∈ w.tabs.filter (!·.pinned), tab.pinned = false := by
    intro tab hmem
    simpa using (List.mem_filter.mp hmem).2
  have hplace := pinnedFirst_reinsert moving index k hfirst hrest
  rw [hsplit] at hplace
  apply hplace
  have hat : (w.tabs.filter (·.pinned) ++ w.tabs.filter (!·.pinned))[index]? =
      some w.tabs[index] := by
    rw [hsplit]
    exact List.getElem?_eq_getElem hlt
  rw [hpin]
  by_cases hlow : index < (w.tabs.filter (·.pinned)).length
  · rw [List.getElem?_append_left hlow] at hat
    have hpinned := hfirst _ (List.mem_of_getElem? hat)
    rw [if_pos hpinned] at hk ⊢
    exact ⟨hlow, hk⟩
  · have hle := Nat.le_of_not_lt hlow
    rw [List.getElem?_append_right hle] at hat
    have hunpinned := hrest _ (List.mem_of_getElem? hat)
    rw [if_neg (by simp [hunpinned])] at hk ⊢
    exact ⟨hle, hlt, hk.1⟩

theorem Neat.moveTab (h : Neat w) (tabId : String) (toIndex : JsNumber) :
    Neat (moveTab w tabId toIndex) ∧
      ∀ id, id ∈ (Tabs.moveTab w tabId toIndex).tabs.map (·.id) ↔ id ∈ w.tabs.map (·.id) := by
  unfold Tabs.moveTab
  rw [h.create]
  dsimp only
  cases hindex : w.tabs.findIdx? (fun tab => decide (tab.id = tabId)) with
  | none => exact ⟨h, fun id => Iff.rfl⟩
  | some index =>
    obtain ⟨hlt, -, -⟩ := List.findIdx?_eq_some_iff_getElem.mp hindex
    dsimp only
    rw [List.getElem?_eq_getElem hlt]
    dsimp only
    split
    · exact ⟨h, fun id => Iff.rfl⟩
    · rename_i target htarget
      split_ifs
      · exact ⟨h, fun id => Iff.rfl⟩
      · apply h.reinsert hlt
        have hpin : (normalizeTab { w.tabs[index] with preview := false }).pinned =
            w.tabs[index].pinned := rfl
        rw [hpin] at htarget
        split_ifs with hpinned
        · have hpos : 0 < (w.tabs.filter (·.pinned)).length :=
            List.length_pos_of_mem (List.mem_filter.mpr ⟨List.getElem_mem hlt, hpinned⟩)
          rw [if_pos hpinned, if_pos hpinned] at htarget
          have hcast : ((w.tabs.filter (·.pinned)).length : ℚ) - 1 =
              (((w.tabs.filter (·.pinned)).length - 1 : ℕ) : ℚ) := by
            rw [Nat.cast_sub hpos, Nat.cast_one]
          rw [hcast] at htarget
          exact (clampIndex_bounds 0 _ (by exact_mod_cast htarget) (Nat.zero_le _)).2
        · rw [if_neg hpinned, if_neg hpinned] at htarget
          have hcast : (w.tabs.length : ℚ) - 1 = ((w.tabs.length - 1 : ℕ) : ℚ) := by
            rw [Nat.cast_sub (by omega), Nat.cast_one]
          rw [hcast] at htarget
          apply clampIndex_bounds _ _ htarget
          -- An unpinned tab leaves room behind the pinned ones.
          have hone : 0 < (w.tabs.filter (!·.pinned)).length := by
            apply List.length_pos_of_mem (a := w.tabs[index])
            exact List.mem_filter.mpr ⟨List.getElem_mem hlt, by simp [hpinned]⟩
          have hboth := (partitionPinned_perm w.tabs).length_eq
          unfold partitionPinned at hboth
          rw [List.length_append] at hboth
          omega

/-- One tab of the strip shows another session, which none of them shows yet. -/
theorem Neat.rename (h : Neat w) {owning : Tab} {fromThreadId toThreadId : String}
    (hid : owning.id = tabIdForThread fromThreadId) (hmem : owning ∈ w.tabs)
    (hto : toThreadId ≠ "") (hnew : tabIdForThread toThreadId ∉ w.tabs.map (·.id)) :
    let rename := fun tab : Tab =>
      if tab.id = owning.id then
        { tab with
          id := tabIdForThread toThreadId
          layout := rewriteLayoutThread fromThreadId toThreadId tab.layout }
      else tab
    Neat
      { tabs := w.tabs.map rename
        focusedTabId :=
          if w.focusedTabId = some owning.id then some (tabIdForThread toThreadId)
          else w.focusedTabId } ∧
    ∀ id ∈ (w.tabs.map rename).map (·.id), id ≠ tabIdForThread fromThreadId ∧
      (id ∈ w.tabs.map (·.id) ∨
        id = tabIdForThread toThreadId ∧ tabIdForThread fromThreadId ∈ w.tabs.map (·.id)) := by
  intro rename
  have hname : ∀ tab, (rename tab).id =
      if tab.id = owning.id then tabIdForThread toThreadId else tab.id := by
    intro tab
    unfold rename
    split_ifs <;> rfl
  have hin : tabIdForThread fromThreadId ∈ w.tabs.map (·.id) := hid ▸ List.mem_map_of_mem hmem
  have hmarks : ∀ tab, (rename tab).pinned = tab.pinned ∧ (rename tab).preview = tab.preview := by
    intro tab
    unfold rename
    split_ifs <;> exact ⟨rfl, rfl⟩
  refine ⟨⟨⟨?_, ?_, ?_, ?_⟩, ?_, ?_, ?_⟩, ?_⟩
  · intro tab htab
    obtain ⟨tab, hold, rfl⟩ := List.mem_map.mp htab
    obtain ⟨shown, hne, hleaf, hshown⟩ := h.tidy.shows tab hold
    unfold rename
    split_ifs with heq
    · -- The tab shows the session it is named after, so the whole of it is rewritten.
      have hfrom : shown = fromThreadId :=
        tabIdForThread_inj (hshown.symm.trans (heq.trans hid))
      refine ⟨toThreadId, hto, ?_, rfl⟩
      simp [hleaf, hfrom, rewriteLayoutThread, createLeaf]
    · exact ⟨shown, hne, hleaf, hshown⟩
  · have hnodup := h.tidy.distinct
    unfold List.Nodup at hnodup ⊢
    rw [List.pairwise_map] at hnodup
    rw [List.map_map, List.pairwise_map]
    refine hnodup.imp_of_mem fun {a b} ha hb hab => ?_
    have hother : ∀ tab ∈ w.tabs, tab.id ≠ tabIdForThread toThreadId := by
      rintro tab htab heq
      exact hnew (heq ▸ List.mem_map_of_mem htab)
    simp only [Function.comp_apply, hname]
    split_ifs with ha' hb' hb'
    · exact absurd (ha'.trans hb'.symm) hab
    · exact (hother b hb).symm
    · exact hother a ha
    · exact hab
  · rw [List.filter_map, List.length_map]
    have hsame : (fun tab : Tab => tab.preview) ∘ rename = fun tab => tab.preview :=
      funext fun tab => (hmarks tab).2
    rw [hsame]
    exact h.tidy.onePreview
  · intro tab htab hpin
    obtain ⟨tab, hold, rfl⟩ := List.mem_map.mp htab
    rw [(hmarks tab).1] at hpin
    rw [(hmarks tab).2]
    exact h.tidy.kept tab hold hpin
  · unfold PinnedFirst
    rw [List.pairwise_map]
    refine h.pinnedFirst.imp fun {a b} hab => ?_
    rw [(hmarks a).1, (hmarks b).1]
    exact hab
  · intro _
    dsimp only
    split_ifs with hfocus
    · exact ⟨rename owning, List.mem_map_of_mem hmem, by rw [hname, if_pos rfl]⟩
    · obtain ⟨focus, hfocused, hid'⟩ := h.focused (List.ne_nil_of_mem hmem)
      have hne : focus.id ≠ owning.id := by
        rintro heq
        exact hfocus (hid'.trans (congrArg some heq))
      exact ⟨rename focus, List.mem_map_of_mem hfocused, by rw [hname, if_neg hne, hid']⟩
  · intro hempty
    have hnil : w.tabs = [] := List.map_eq_nil_iff.mp hempty
    rw [hnil] at hmem
    exact absurd hmem (by simp)
  · intro id hid'
    obtain ⟨tab, htab, rfl⟩ := List.mem_map.mp hid'
    obtain ⟨tab, hold, rfl⟩ := List.mem_map.mp htab
    rw [hname]
    split_ifs with heq
    · refine ⟨?_, Or.inr ⟨rfl, hin⟩⟩
      rintro hsame
      exact hnew (hsame ▸ hin)
    · exact ⟨hid ▸ heq, Or.inl (List.mem_map_of_mem hold)⟩

/-- Rekeying a session lets its tab show the other, or closes it where that one is open. -/
theorem Neat.retargetThread (h : Neat w) {fromThreadId toThreadId : String}
    (hfrom : fromThreadId ≠ "") (hto : toThreadId ≠ "") (hne : fromThreadId ≠ toThreadId) :
    Neat (retargetThread w fromThreadId toThreadId) ∧
      ∀ id ∈ (Tabs.retargetThread w fromThreadId toThreadId).tabs.map (·.id),
        id ≠ tabIdForThread fromThreadId ∧
          (id ∈ w.tabs.map (·.id) ∨
            id = tabIdForThread toThreadId ∧ tabIdForThread fromThreadId ∈ w.tabs.map (·.id)) := by
  unfold Tabs.retargetThread
  rw [h.create]
  dsimp only
  rw [if_neg (by simp [hfrom, hto, hne]), h.tidy.find_thread hfrom, h.tidy.find_thread hto]
  cases hfind : w.tabs.find? (fun tab => decide (tab.id = tabIdForThread fromThreadId)) with
  | none =>
    refine ⟨h, fun id hin => ⟨?_, Or.inl hin⟩⟩
    rintro rfl
    obtain ⟨tab, hmem, hid⟩ := List.mem_map.mp hin
    exact absurd hid (by simpa using List.find?_eq_none.mp hfind tab hmem)
  | some owning =>
    have hid : owning.id = tabIdForThread fromThreadId := by simpa using List.find?_some hfind
    have hmem := List.mem_of_find?_eq_some hfind
    have hin : tabIdForThread fromThreadId ∈ w.tabs.map (·.id) := hid ▸ List.mem_map_of_mem hmem
    dsimp only
    by_cases hopen : (w.tabs.find? fun tab => decide (tab.id = tabIdForThread toThreadId)).any
        (fun tab => decide (tab.id ≠ owning.id)) = true
    · rw [if_pos hopen]
      obtain ⟨hneat, hids⟩ := h.closeTab owning.id
      refine ⟨hneat, fun id hid' => ?_⟩
      obtain ⟨hold, hother⟩ := (hids id).mp hid'
      rw [hid] at hother
      exact ⟨hother, Or.inl hold⟩
    · rw [if_neg hopen, if_pos hid]
      have hids : tabIdForThread fromThreadId ≠ tabIdForThread toThreadId :=
        fun heq => hne (tabIdForThread_inj heq)
      have hnew : tabIdForThread toThreadId ∉ w.tabs.map (·.id) := by
        intro hold
        obtain ⟨tab, hmem', hid'⟩ := List.mem_map.mp hold
        cases hto' : w.tabs.find? (fun tab => decide (tab.id = tabIdForThread toThreadId)) with
        | none => exact absurd hid' (by simpa using List.find?_eq_none.mp hto' tab hmem')
        | some other =>
          have hother : other.id = tabIdForThread toThreadId := by
            simpa using List.find?_some hto'
          rw [hto', Option.any_some, hother, hid] at hopen
          exact hopen (decide_eq_true hids.symm)
      exact h.rename hid hmem hto hnew

end AgentRelay.Tabs
