import AgentRelay.TabOrder

/-! Where the user is after a session was rekeyed, on any strip in which no session is open twice. A
tab may show several sessions, and its id need not be named after one of them. -/
namespace AgentRelay.Tabs

def Tab.Has (tab : Tab) (threadId : String) : Prop := layoutHasThread tab.layout threadId = true

instance (tab : Tab) (threadId : String) : Decidable (tab.Has threadId) :=
  inferInstanceAs (Decidable (_ = true))

structure Separate (tabs : List Tab) : Prop where
  ids : (tabs.map (·.id)).Nodup
  threads : ∀ a ∈ tabs, ∀ b ∈ tabs, ∀ threadId, a.Has threadId → b.Has threadId → a.id = b.id

structure Retargeted (base result : TabWorkspace) (fromThreadId toThreadId : String) : Prop where
  gone : ∀ tab ∈ result.tabs, ¬tab.Has fromThreadId
  one : (∃ tab ∈ base.tabs, tab.Has fromThreadId ∨ tab.Has toThreadId) →
    (result.tabs.filter (·.Has toThreadId)).length = 1
  others : result.tabs.filter (¬·.Has toThreadId) =
    base.tabs.filter fun tab => ¬tab.Has fromThreadId ∧ ¬tab.Has toThreadId
  focus : ∀ tab ∈ focusedTab base, tab.Has fromThreadId ∨ tab.Has toThreadId →
    ∃ next ∈ focusedTab result, next.Has toThreadId

/-- What has to hold of the tab that shows the session: the other session is another one and has an
id, and if the tab has the focus, a tab that shows the other session already is the neighbour that
takes over the focus, and no tab before it has the id that it is renamed to. -/
def KeepsPlace (base : TabWorkspace) (fromThreadId toThreadId : String) : Prop :=
  ∀ before owning after, base.tabs = before ++ owning :: after → owning.Has fromThreadId →
    toThreadId ≠ "" ∧ fromThreadId ≠ toThreadId ∧
      (base.focusedTabId = some owning.id →
        (∀ target ∈ before ++ after, target.Has toThreadId →
          after.head? = some target ∨ after = [] ∧ before.getLast? = some target) ∧
        ((∀ tab ∈ before ++ after, ¬tab.Has toThreadId) →
          owning.id = tabIdForThread fromThreadId →
            ∀ tab ∈ before, tab.id ≠ tabIdForThread toThreadId))

variable {tabs before after : List Tab} {tab owning : Tab} {w base : TabWorkspace}
  {fromThreadId toThreadId threadId : String}

theorem has_iff : tab.Has threadId ↔ threadId ≠ "" ∧ threadId ∈ layoutThreadIds tab.layout := by
  simp [Tab.Has, layoutHasThread]

mutual

theorem layoutThreadIds_rewrite (hfrom : fromThreadId ≠ "") (hto : toThreadId ≠ "") :
    ∀ layout, layoutThreadIds (rewriteLayoutThread fromThreadId toThreadId layout) =
      (layoutThreadIds layout).map fun id => if id = fromThreadId then toThreadId else id
  | .leaf threadId => by
    rw [rewriteLayoutThread]
    by_cases heq : threadId = fromThreadId
    · simp [heq, createLeaf, layoutThreadIds, hfrom, hto]
    · rw [if_neg heq, layoutThreadIds]
      split_ifs
      · rfl
      · simp [heq]
  | .split children => by
    rw [rewriteLayoutThread, layoutThreadIds, layoutThreadIds]
    exact childrenThreadIds_rewrite hfrom hto children

theorem childrenThreadIds_rewrite (hfrom : fromThreadId ≠ "") (hto : toThreadId ≠ "") :
    ∀ children, childrenThreadIds (rewriteChildren fromThreadId toThreadId children) =
      (childrenThreadIds children).map fun id => if id = fromThreadId then toThreadId else id
  | [] => rfl
  | child :: children => by
    rw [rewriteChildren, childrenThreadIds, childrenThreadIds, List.map_append,
      layoutThreadIds_rewrite hfrom hto child, childrenThreadIds_rewrite hfrom hto children]

end

theorem normalizeTab_idem (tab : Tab) : normalizeTab (normalizeTab tab) = normalizeTab tab := by
  simp [normalizeTab]

theorem createTabWorkspace_idem (w : TabWorkspace) :
    createTabWorkspace (createTabWorkspace w) = createTabWorkspace w := by
  have hsound : ∀ tab ∈ (createTabWorkspace w).tabs, normalizeTab tab = tab ∧ tab.id ≠ "" := by
    intro tab htab
    have hmem := (partitionPinned_perm _).mem_iff.mp htab
    obtain ⟨hmem, hid⟩ := List.mem_filter.mp hmem
    obtain ⟨raw, -, rfl⟩ := List.mem_map.mp hmem
    exact ⟨normalizeTab_idem raw, of_decide_eq_true hid⟩
  have hmap : (createTabWorkspace w).tabs.map normalizeTab = (createTabWorkspace w).tabs :=
    (List.map_congr_left fun tab htab => (hsound tab htab).1).trans (List.map_id _)
  have hfilter : (createTabWorkspace w).tabs.filter (·.id ≠ "") = (createTabWorkspace w).tabs :=
    List.filter_eq_self.mpr fun tab htab => decide_eq_true (hsound tab htab).2
  have hpartition : partitionPinned (createTabWorkspace w).tabs = (createTabWorkspace w).tabs :=
    (pinnedFirst_partition _).partition
  have hfocus : (createTabWorkspace w).tabs.any
      (fun tab => some tab.id = (createTabWorkspace w).focusedTabId) = true ∨
        (createTabWorkspace w).focusedTabId = (createTabWorkspace w).tabs.head?.map (·.id) := by
    by_cases hexists : (createTabWorkspace w).tabs.any (fun tab => some tab.id = w.focusedTabId)
    · have hkept : (createTabWorkspace w).focusedTabId = w.focusedTabId := if_pos hexists
      rw [hkept]
      exact Or.inl hexists
    · exact Or.inr (if_neg hexists)
  generalize createTabWorkspace w = base at hmap hfilter hpartition hfocus
  rw [createTabWorkspace, hmap, hfilter, hpartition]
  obtain ⟨tabs, focus⟩ := base
  dsimp only at hfocus ⊢
  split_ifs with hexists
  · rfl
  · rw [hfocus.resolve_left hexists]

theorem Separate.create (h : Separate w.tabs) : Separate (createTabWorkspace w).tabs := by
  have hperm := partitionPinned_perm ((w.tabs.map normalizeTab).filter (·.id ≠ ""))
  have hids : ((w.tabs.map normalizeTab).map (·.id)) = w.tabs.map (·.id) := by
    rw [List.map_map]
    rfl
  constructor
  · refine ((hperm.map _).nodup_iff).mpr (List.Nodup.sublist (List.filter_sublist.map _) ?_)
    rw [hids]
    exact h.ids
  · have hraw : ∀ tab ∈ (createTabWorkspace w).tabs,
        ∃ raw ∈ w.tabs, raw.id = tab.id ∧ raw.layout = tab.layout := by
      intro tab htab
      obtain ⟨raw, hmem, rfl⟩ := List.mem_map.mp (List.mem_of_mem_filter (hperm.mem_iff.mp htab))
      exact ⟨raw, hmem, rfl, rfl⟩
    intro a ha b hb threadId hathread hbthread
    obtain ⟨a', ha', haid, halayout⟩ := hraw a ha
    obtain ⟨b', hb', hbid, hblayout⟩ := hraw b hb
    rw [← haid, ← hbid]
    apply h.threads a' ha' b' hb' threadId
    · rw [Tab.Has, halayout]
      exact hathread
    · rw [Tab.Has, hblayout]
      exact hbthread

theorem Separate.around (h : Separate tabs) (htabs : tabs = before ++ owning :: after) :
    ∀ tab ∈ before ++ after, tab.id ≠ owning.id := by
  have hids := h.ids
  rw [htabs, List.map_append, List.map_cons, List.nodup_append, List.nodup_cons] at hids
  obtain ⟨-, ⟨howning, -⟩, hdisjoint⟩ := hids
  intro tab htab heq
  rcases List.mem_append.mp htab with hmem | hmem
  · exact hdisjoint _ (List.mem_map_of_mem hmem) _ List.mem_cons_self heq
  · exact howning (List.mem_map.mpr ⟨tab, hmem, heq⟩)

theorem Separate.eq_of_has (h : Separate tabs) {a b : Tab} (ha : a ∈ tabs) (hb : b ∈ tabs)
    (hathread : a.Has threadId) (hbthread : b.Has threadId) : a = b :=
  List.inj_on_of_nodup_map h.ids ha hb (h.threads a ha b hb threadId hathread hbthread)

theorem Separate.mem_around (htabs : tabs = before ++ owning :: after) (htab : tab ∈ tabs) :
    tab = owning ∨ tab ∈ before ++ after := by
  rw [htabs, List.mem_append, List.mem_cons] at htab
  rw [List.mem_append]
  tauto

theorem filter_alone {p : Tab → Prop} [DecidablePred p] (hp : p owning)
    (hothers : ∀ tab ∈ before ++ after, ¬p tab) :
    (before ++ owning :: after).filter (fun tab => p tab) = [owning] := by
  have hbefore : before.filter (fun tab => p tab) = [] :=
    List.filter_eq_nil_iff.mpr fun tab htab => by simpa using hothers tab (by simp [htab])
  have hafter : after.filter (fun tab => p tab) = [] :=
    List.filter_eq_nil_iff.mpr fun tab htab => by simpa using hothers tab (by simp [htab])
  have howning : decide (p owning) = true := decide_eq_true hp
  rw [List.filter_append, List.filter_cons, if_pos howning, hbefore, hafter]
  rfl

theorem Separate.filter_has (h : Separate tabs) (htab : tab ∈ tabs) (hthread : tab.Has threadId) :
    tabs.filter (·.Has threadId) = [tab] := by
  obtain ⟨before, after, rfl⟩ := List.append_of_mem htab
  apply filter_alone hthread
  intro other hother hhas
  apply h.around rfl other hother
  exact h.threads other (by simp only [List.mem_append, List.mem_cons] at hother ⊢; tauto) tab htab
    threadId hhas hthread

theorem findTabByThread_of_has (h : Separate base.tabs) (htab : tab ∈ base.tabs)
    (hthread : tab.Has threadId) : findTabByThread base threadId = some tab := by
  have hhas : (fun other : Tab => layoutHasThread other.layout threadId) =
      fun other => decide (other.Has threadId) := by
    funext other
    exact Bool.decide_eq_true.symm
  rw [findTabByThread, if_neg (has_iff.mp hthread).1, ← List.head?_filter, hhas,
    h.filter_has htab hthread]
  rfl

theorem findTabByThread_eq_none (h : ∀ tab ∈ base.tabs, ¬tab.Has threadId) :
    findTabByThread base threadId = none := by
  rw [findTabByThread]
  split_ifs
  · rfl
  · exact List.find?_eq_none.mpr h

theorem closeTab_around (hcreate : createTabWorkspace base = base) (h : Separate base.tabs)
    (htabs : base.tabs = before ++ owning :: after) :
    closeTab base owning.id =
      { tabs := before ++ after
        focusedTabId :=
          if base.focusedTabId = some owning.id then (after.head?.or before.getLast?).map (·.id)
          else base.focusedTabId } := by
  have haround := h.around htabs
  have hindex : base.tabs.findIdx? (fun tab => decide (tab.id = owning.id)) =
      some before.length := by
    have hbefore : before.findIdx? (fun tab => decide (tab.id = owning.id)) = none :=
      List.findIdx?_eq_none_iff.mpr fun tab htab =>
        decide_eq_false (haround tab (List.mem_append_left _ htab))
    rw [htabs, List.findIdx?_append, hbefore, List.findIdx?_cons, decide_eq_true rfl]
    simp
  have hfilter : base.tabs.filter (·.id ≠ owning.id) = before ++ after := by
    have hkeep : ∀ part : List Tab, (∀ tab ∈ part, tab ∈ before ++ after) →
        part.filter (·.id ≠ owning.id) = part := fun part hpart =>
      List.filter_eq_self.mpr fun tab htab => decide_eq_true (haround tab (hpart tab htab))
    rw [htabs, List.filter_append, List.filter_cons_of_neg (by simp),
      hkeep before fun tab htab => List.mem_append_left _ htab,
      hkeep after fun tab htab => List.mem_append_right _ htab]
  have hnext : (before ++ after)[before.length]?.or
      (if before.length = 0 then none else (before ++ after)[before.length - 1]?) =
        after.head?.or before.getLast? := by
    rw [List.getElem?_append_right le_rfl, Nat.sub_self, ← List.head?_eq_getElem?]
    cases after with
    | cons tab after => rfl
    | nil =>
      rw [List.append_nil, List.getLast?_eq_getElem?]
      split_ifs with hzero
      · rw [List.eq_nil_of_length_eq_zero hzero]
        rfl
      · rfl
  rw [closeTab, hcreate, hindex]
  dsimp only
  rw [hfilter, hnext]
  by_cases hfocus : base.focusedTabId = some owning.id
  · rw [if_neg (not_not.mpr hfocus), if_pos hfocus]
  · rw [if_pos hfocus, if_neg hfocus]

theorem retarget_close (hcreate : createTabWorkspace base = base) (h : Separate base.tabs)
    (htabs : base.tabs = before ++ owning :: after) (howning : owning.Has fromThreadId)
    (hto : toThreadId ≠ "") (hne : fromThreadId ≠ toThreadId) (htab : tab ∈ before ++ after)
    (hthread : tab.Has toThreadId) :
    retargetThread base fromThreadId toThreadId =
      { tabs := before ++ after
        focusedTabId :=
          if base.focusedTabId = some owning.id then (after.head?.or before.getLast?).map (·.id)
          else base.focusedTabId } := by
  have hmem : owning ∈ base.tabs := by rw [htabs]; simp
  have htarget : tab ∈ base.tabs := by
    rw [htabs]
    simp only [List.mem_append, List.mem_cons] at htab ⊢
    tauto
  have hother : (some tab).any (fun other => decide (other.id ≠ owning.id)) = true :=
    decide_eq_true (h.around htabs tab htab)
  rw [retargetThread, hcreate]
  dsimp only
  rw [if_neg (not_or.mpr ⟨(has_iff.mp howning).1, not_or.mpr ⟨hto, hne⟩⟩),
    findTabByThread_of_has h hmem howning, findTabByThread_of_has h htarget hthread]
  dsimp only
  rw [if_pos hother, closeTab_around hcreate h htabs]

def renamedTab (owning : Tab) (fromThreadId toThreadId : String) : Tab :=
  { owning with
    id := if owning.id = tabIdForThread fromThreadId then tabIdForThread toThreadId else owning.id
    layout := rewriteLayoutThread fromThreadId toThreadId owning.layout }

theorem retarget_rename (hcreate : createTabWorkspace base = base) (h : Separate base.tabs)
    (htabs : base.tabs = before ++ owning :: after) (howning : owning.Has fromThreadId)
    (hto : toThreadId ≠ "") (hne : fromThreadId ≠ toThreadId)
    (hothers : ∀ tab ∈ before ++ after, ¬tab.Has toThreadId) :
    retargetThread base fromThreadId toThreadId =
      { tabs := before ++ renamedTab owning fromThreadId toThreadId :: after
        focusedTabId :=
          if base.focusedTabId = some owning.id then
            some (renamedTab owning fromThreadId toThreadId).id
          else base.focusedTabId } := by
  have hmem : owning ∈ base.tabs := by rw [htabs]; simp
  have hsame : ¬(findTabByThread base toThreadId).any
      (fun other => decide (other.id ≠ owning.id)) := by
    cases hfind : findTabByThread base toThreadId with
    | none => simp
    | some other =>
      rw [findTabByThread, if_neg hto] at hfind
      rcases Separate.mem_around htabs (List.mem_of_find?_eq_some hfind) with rfl | haround
      · simp
      · exact absurd (List.find?_some hfind) (hothers other haround)
  have hmap : ∀ f : Tab → Tab, base.tabs.map (fun tab => if tab.id = owning.id then f tab else tab) =
      before ++ f owning :: after := by
    intro f
    have hkeep : ∀ part : List Tab, (∀ tab ∈ part, tab ∈ before ++ after) →
        part.map (fun tab => if tab.id = owning.id then f tab else tab) = part := fun part hpart =>
      (List.map_congr_left fun tab htab => if_neg (h.around htabs tab (hpart tab htab))).trans
        (List.map_id' part)
    rw [htabs, List.map_append, List.map_cons, if_pos rfl,
      hkeep before fun tab htab => List.mem_append_left _ htab,
      hkeep after fun tab htab => List.mem_append_right _ htab]
  rw [retargetThread, hcreate]
  dsimp only
  rw [if_neg (not_or.mpr ⟨(has_iff.mp howning).1, not_or.mpr ⟨hto, hne⟩⟩),
    findTabByThread_of_has h hmem howning]
  dsimp only
  rw [if_neg hsame, hmap]
  rfl

theorem has_renamedTab (hne : fromThreadId ≠ toThreadId) (hto : toThreadId ≠ "")
    (howning : owning.Has fromThreadId) :
    (renamedTab owning fromThreadId toThreadId).Has toThreadId ∧
      ¬(renamedTab owning fromThreadId toThreadId).Has fromThreadId := by
  obtain ⟨hfrom, hmem⟩ := has_iff.mp howning
  have hids := layoutThreadIds_rewrite hfrom hto owning.layout
  rw [has_iff, has_iff, renamedTab, hids]
  refine ⟨⟨hto, List.mem_map.mpr ⟨fromThreadId, hmem, if_pos rfl⟩⟩, ?_⟩
  rintro ⟨-, hleft⟩
  obtain ⟨id, -, hid⟩ := List.mem_map.mp hleft
  split_ifs at hid with hfromId
  · exact hne hid.symm
  · exact hfromId hid

theorem Separate.not_around (h : Separate base.tabs)
    (htabs : base.tabs = before ++ owning :: after) (howning : owning.Has threadId) :
    ∀ tab ∈ before ++ after, ¬tab.Has threadId := by
  intro tab htab hthread
  apply h.around htabs tab htab
  have hmem : tab ∈ base.tabs ∧ owning ∈ base.tabs := by
    rw [htabs]
    simp only [List.mem_append, List.mem_cons] at htab ⊢
    tauto
  exact h.threads tab hmem.1 owning hmem.2 threadId hthread howning

theorem filter_others (hfrom : ∀ tab ∈ before ++ after, ¬tab.Has fromThreadId)
    (howning : owning.Has fromThreadId) :
    (before ++ owning :: after).filter
        (fun tab => ¬tab.Has fromThreadId ∧ ¬tab.Has toThreadId) =
      before.filter (¬·.Has toThreadId) ++ after.filter (¬·.Has toThreadId) := by
  have hpart : ∀ part : List Tab, (∀ tab ∈ part, tab ∈ before ++ after) →
      part.filter (fun tab => ¬tab.Has fromThreadId ∧ ¬tab.Has toThreadId) =
        part.filter (¬·.Has toThreadId) := fun part hpart =>
    List.filter_congr fun tab htab => by simp [hfrom tab (hpart tab htab)]
  rw [List.filter_append, List.filter_cons_of_neg (by simp [howning]),
    hpart before fun tab htab => List.mem_append_left _ htab,
    hpart after fun tab htab => List.mem_append_right _ htab]

theorem mem_focusedTab (hids : (w.tabs.map (·.id)).Nodup) (htab : tab ∈ w.tabs) :
    tab ∈ focusedTab w ↔ w.focusedTabId = some tab.id := by
  constructor
  · intro hfocus
    have hfound : w.tabs.find? (fun tab => decide (some tab.id = w.focusedTabId)) = some tab := hfocus
    have hid : some tab.id = w.focusedTabId := by simpa using List.find?_some hfound
    exact hid.symm
  · intro hfocus
    rw [Option.mem_def, focusedTab]
    cases hfind : w.tabs.find? fun tab => decide (some tab.id = w.focusedTabId) with
    | none => exact absurd hfocus.symm (by simpa using List.find?_eq_none.mp hfind tab htab)
    | some other =>
      have hother : other.id = tab.id := by simpa [hfocus] using List.find?_some hfind
      rw [List.inj_on_of_nodup_map hids (List.mem_of_find?_eq_some hfind) htab hother]

theorem neighbour_eq_some :
    after.head?.or before.getLast? = some tab ↔
      after.head? = some tab ∨ after = [] ∧ before.getLast? = some tab := by
  cases after <;> simp

theorem retargeted_close_iff (hcreate : createTabWorkspace base = base) (h : Separate base.tabs)
    (htabs : base.tabs = before ++ owning :: after) (howning : owning.Has fromThreadId)
    (hto : toThreadId ≠ "") (hne : fromThreadId ≠ toThreadId) {target : Tab}
    (htarget : target ∈ before ++ after) (hthread : target.Has toThreadId) :
    Retargeted base (retargetThread base fromThreadId toThreadId) fromThreadId toThreadId ↔
      (base.focusedTabId = some owning.id →
        after.head? = some target ∨ after = [] ∧ before.getLast? = some target) := by
  have hfrom := h.not_around htabs howning
  have hrest : Separate (before ++ after) := by
    have hsub : (before ++ after).Sublist base.tabs := by
      rw [htabs]
      exact (List.Sublist.refl before).append (List.sublist_cons_self owning after)
    exact ⟨h.ids.sublist (hsub.map _), fun a ha b hb => h.threads a (hsub.mem ha) b (hsub.mem hb)⟩
  have howningMem : owning ∈ base.tabs := by rw [htabs]; simp
  rw [retarget_close hcreate h htabs howning hto hne htarget hthread]
  constructor
  · intro hkept hfocus
    obtain ⟨next, hnext, hnextHas⟩ :=
      hkept.focus owning ((mem_focusedTab h.ids howningMem).mpr hfocus) (.inl howning)
    have hmem : next ∈ before ++ after := List.mem_of_find?_eq_some hnext
    have hid := (mem_focusedTab hrest.ids hmem).mp hnext
    rw [if_pos hfocus] at hid
    obtain ⟨neighbour, hneighbour, hsame⟩ := Option.map_eq_some_iff.mp hid
    have hneighbourMem : neighbour ∈ before ++ after := by
      rcases neighbour_eq_some.mp hneighbour with hhead | ⟨-, hlast⟩
      · exact List.mem_append_right _ (List.mem_of_head? hhead)
      · exact List.mem_append_left _ (List.mem_of_getLast? hlast)
    have hnextNeighbour : neighbour = next :=
      List.inj_on_of_nodup_map hrest.ids hneighbourMem hmem hsame
    rw [hnextNeighbour, hrest.eq_of_has hmem htarget hnextHas hthread] at hneighbour
    exact neighbour_eq_some.mp hneighbour
  · intro hneighbour
    refine ⟨hfrom, fun _ => ?_, ?_, ?_⟩
    · rw [hrest.filter_has htarget hthread]
      rfl
    · rw [htabs, filter_others hfrom howning, List.filter_append]
    · intro tab htab hhas
      have hbase : tab ∈ base.tabs := List.mem_of_find?_eq_some htab
      have hid := (mem_focusedTab h.ids hbase).mp htab
      by_cases hfocus : base.focusedTabId = some owning.id
      · refine ⟨target, (mem_focusedTab hrest.ids htarget).mpr ?_, hthread⟩
        rw [if_pos hfocus, neighbour_eq_some.mpr (hneighbour hfocus)]
        rfl
      · have hrestMem : tab ∈ before ++ after := by
          rcases Separate.mem_around htabs hbase with rfl | hmem
          · exact absurd hid hfocus
          · exact hmem
        refine ⟨tab, (mem_focusedTab hrest.ids hrestMem).mpr ?_,
          hhas.resolve_left (hfrom tab hrestMem)⟩
        rw [if_neg hfocus]
        exact hid

theorem retargeted_rename_iff (hcreate : createTabWorkspace base = base) (h : Separate base.tabs)
    (htabs : base.tabs = before ++ owning :: after) (howning : owning.Has fromThreadId)
    (hto : toThreadId ≠ "") (hne : fromThreadId ≠ toThreadId)
    (hothers : ∀ tab ∈ before ++ after, ¬tab.Has toThreadId) :
    Retargeted base (retargetThread base fromThreadId toThreadId) fromThreadId toThreadId ↔
      (base.focusedTabId = some owning.id → owning.id = tabIdForThread fromThreadId →
        ∀ tab ∈ before, tab.id ≠ tabIdForThread toThreadId) := by
  have hfrom := h.not_around htabs howning
  have howningMem : owning ∈ base.tabs := by rw [htabs]; simp
  obtain ⟨hhas, hgone⟩ := has_renamedTab hne hto howning
  rw [retarget_rename hcreate h htabs howning hto hne hothers]
  generalize hrenamed : renamedTab owning fromThreadId toThreadId = renamed at hhas hgone ⊢
  have hid : renamed.id =
      if owning.id = tabIdForThread fromThreadId then tabIdForThread toThreadId else owning.id := by
    rw [← hrenamed]
    rfl
  constructor
  · intro hkept hfocus hname tab htab htaken
    rw [if_pos hname] at hid
    obtain ⟨next, hnext, hnextHas⟩ :=
      hkept.focus owning ((mem_focusedTab h.ids howningMem).mpr hfocus) (.inl howning)
    -- The tab before it that has the new id takes the focus.
    rw [Option.mem_def, focusedTab, if_pos hfocus, List.find?_append] at hnext
    cases hfind : before.find? fun tab => decide (some tab.id = some renamed.id) with
    | none =>
      exact absurd (htaken.trans hid.symm) (by simpa using List.find?_eq_none.mp hfind tab htab)
    | some first =>
      rw [hfind, Option.some_or, Option.some.injEq] at hnext
      exact hothers next (List.mem_append_left _ (hnext ▸ List.mem_of_find?_eq_some hfind)) hnextHas
  · intro hfree
    refine ⟨?_, fun _ => ?_, ?_, ?_⟩
    · intro tab htab
      rcases Separate.mem_around rfl htab with rfl | hmem
      · exact hgone
      · exact hfrom tab hmem
    · rw [filter_alone hhas hothers]
      rfl
    · rw [htabs, filter_others hfrom howning, List.filter_append,
        List.filter_cons_of_neg (by simp [hhas])]
    · intro tab htab hthread
      have hbase : tab ∈ base.tabs := List.mem_of_find?_eq_some htab
      have hfocused := (mem_focusedTab h.ids hbase).mp htab
      rcases Separate.mem_around htabs hbase with rfl | hmem
      · refine ⟨renamed, ?_, hhas⟩
        have hbefore : before.find? (fun tab => decide (some tab.id = some renamed.id)) = none := by
          refine List.find?_eq_none.mpr fun other hother => ?_
          suffices other.id ≠ renamed.id by simpa using this
          rw [hid]
          split_ifs with hname
          · exact hfree hfocused hname other hother
          · exact h.around htabs other (List.mem_append_left _ hother)
        rw [Option.mem_def, focusedTab, if_pos hfocused, List.find?_append, hbefore]
        simp
      · exact absurd hthread (not_or.mpr ⟨hfrom tab hmem, hothers tab hmem⟩)

theorem retargetThread_create (w : TabWorkspace) (fromThreadId toThreadId : String) :
    retargetThread w fromThreadId toThreadId =
      retargetThread (createTabWorkspace w) fromThreadId toThreadId := by
  rw [retargetThread, retargetThread, createTabWorkspace_idem]

theorem retargeted_same (h : Separate base.tabs) (hcreate : createTabWorkspace base = base)
    (hclosed : ∀ tab ∈ base.tabs, ¬tab.Has fromThreadId) :
    Retargeted base (retargetThread base fromThreadId toThreadId) fromThreadId toThreadId := by
  have hsame : retargetThread base fromThreadId toThreadId = base := by
    rw [retargetThread, hcreate]
    dsimp only
    split_ifs
    · rfl
    · rw [findTabByThread_eq_none hclosed]
  rw [hsame]
  refine ⟨hclosed, ?_, ?_, ?_⟩
  · rintro ⟨tab, htab, hthread⟩
    rw [h.filter_has htab (hthread.resolve_left (hclosed tab htab))]
    rfl
  · exact List.filter_congr fun tab htab => by simp [hclosed tab htab]
  · intro tab htab hthread
    exact ⟨tab, htab, hthread.resolve_left (hclosed tab (List.mem_of_find?_eq_some htab))⟩

/-- Rekeying a session keeps the user's place if and only if the strip lets it. -/
theorem retarget_keeps_place_iff (w : TabWorkspace) (fromThreadId toThreadId : String)
    (hseparate : Separate w.tabs) :
    Retargeted (createTabWorkspace w) (retargetThread w fromThreadId toThreadId) fromThreadId
        toThreadId ↔
      KeepsPlace (createTabWorkspace w) fromThreadId toThreadId := by
  have h := hseparate.create
  have hcreate := createTabWorkspace_idem w
  rw [retargetThread_create]
  generalize createTabWorkspace w = base at h hcreate ⊢
  by_cases hopen : ∀ tab ∈ base.tabs, ¬tab.Has fromThreadId
  · refine iff_of_true (retargeted_same h hcreate hopen) ?_
    intro before owning after htabs howning
    exact absurd howning (hopen owning (by rw [htabs]; simp))
  · simp only [not_forall, not_not] at hopen
    obtain ⟨owning, hmem, howning⟩ := hopen
    obtain ⟨before, after, htabs⟩ := List.append_of_mem hmem
    have honly : KeepsPlace base fromThreadId toThreadId ↔
        toThreadId ≠ "" ∧ fromThreadId ≠ toThreadId ∧
          (base.focusedTabId = some owning.id →
            (∀ target ∈ before ++ after, target.Has toThreadId →
              after.head? = some target ∨ after = [] ∧ before.getLast? = some target) ∧
            ((∀ tab ∈ before ++ after, ¬tab.Has toThreadId) →
              owning.id = tabIdForThread fromThreadId →
                ∀ tab ∈ before, tab.id ≠ tabIdForThread toThreadId)) := by
      refine ⟨fun hkeeps => hkeeps before owning after htabs howning, fun hkeeps => ?_⟩
      intro before' owning' after' htabs' howning'
      have hsame : owning' = owning :=
        h.eq_of_has (by rw [htabs']; simp) hmem howning' howning
      have hbefore : owning ∉ before := fun hin =>
        h.around htabs owning (List.mem_append_left _ hin) rfl
      have hafter : owning ∉ after := fun hin =>
        h.around htabs owning (List.mem_append_right _ hin) rfl
      rw [htabs, hsame, List.append_cons_inj_of_notMem hbefore hafter] at htabs'
      obtain ⟨rfl, -, rfl⟩ := htabs'
      rw [hsame]
      exact hkeeps
    rw [honly]
    by_cases hmoves : toThreadId ≠ "" ∧ fromThreadId ≠ toThreadId
    · obtain ⟨hto, hne⟩ := hmoves
      by_cases htarget : ∃ target ∈ before ++ after, target.Has toThreadId
      · obtain ⟨target, htarget, hthread⟩ := htarget
        rw [retargeted_close_iff hcreate h htabs howning hto hne htarget hthread]
        constructor
        · intro hneighbour
          refine ⟨hto, hne, fun hfocus => ⟨fun other hother hhas => ?_, fun hnone => ?_⟩⟩
          · have hmemOf : ∀ tab ∈ before ++ after, tab ∈ base.tabs := by
              intro tab htab
              rw [htabs]
              simp only [List.mem_append, List.mem_cons] at htab ⊢
              tauto
            rw [h.eq_of_has (hmemOf other hother) (hmemOf target htarget) hhas hthread]
            exact hneighbour hfocus
          · exact absurd hthread (hnone target htarget)
        · intro hkeeps hfocus
          exact (hkeeps.2.2 hfocus).1 target htarget hthread
      · simp only [not_exists, not_and] at htarget
        rw [retargeted_rename_iff hcreate h htabs howning hto hne htarget]
        constructor
        · intro hfree
          exact ⟨hto, hne, fun hfocus =>
            ⟨fun other hother hhas => absurd hhas (htarget other hother), fun _ => hfree hfocus⟩⟩
        · intro hkeeps hfocus
          exact (hkeeps.2.2 hfocus).2 htarget
    · -- Nothing is rekeyed, so the session is still there.
      refine iff_of_false (fun hkept => ?_) fun hkeeps => hmoves ⟨hkeeps.1, hkeeps.2.1⟩
      have hsame : retargetThread base fromThreadId toThreadId = base := by
        rw [retargetThread, hcreate]
        refine if_pos (Or.inr ?_)
        rw [← not_and_or.trans (or_congr not_not not_not)]
        exact hmoves
      rw [hsame] at hkept
      exact hkept.gone owning hmem howning

def stripOf (threadIds : List String) : TabWorkspace where
  tabs := threadIds.map fun threadId => ⟨tabIdForThread threadId, false, false, .leaf threadId⟩
  focusedTabId := threadIds.head?.map tabIdForThread

theorem separate_stripOf {threadIds : List String} (h : threadIds.Nodup) :
    Separate (stripOf threadIds).tabs := by
  constructor
  · rw [stripOf, List.map_map]
    exact h.map fun a b heq => tabIdForThread_inj heq
  · intro a ha b hb threadId hathread hbthread
    obtain ⟨s, -, rfl⟩ := List.mem_map.mp ha
    obtain ⟨t, -, rfl⟩ := List.mem_map.mp hb
    obtain ⟨hne, hs⟩ := has_iff.mp hathread
    obtain ⟨-, ht⟩ := has_iff.mp hbthread
    have hleaf : ∀ leaf, threadId ∈ layoutThreadIds (.leaf leaf) → threadId = leaf := by
      intro leaf hmem
      rw [layoutThreadIds] at hmem
      split_ifs at hmem
      · cases hmem
      · exact List.mem_singleton.mp hmem
    rw [← hleaf s hs, ← hleaf t ht]

/-- A session that is promoted to one that no tab shows. -/
theorem promoted_keeps_place :
    Retargeted (createTabWorkspace (stripOf ["claude-pending-1", "other"]))
        (retargetThread (stripOf ["claude-pending-1", "other"]) "claude-pending-1" "real")
        "claude-pending-1" "real" ↔
      KeepsPlace (createTabWorkspace (stripOf ["claude-pending-1", "other"])) "claude-pending-1"
        "real" :=
  retarget_keeps_place_iff _ _ _ (separate_stripOf (by decide))

/-- Between the tab of the promoted session and the one that shows its new id is another tab,
and the focus goes there. -/
theorem promoted_loses_focus :
    ¬∀ (w : TabWorkspace) (fromThreadId toThreadId : String), Separate w.tabs →
      fromThreadId ≠ "" → toThreadId ≠ "" → fromThreadId ≠ toThreadId →
        Retargeted (createTabWorkspace w) (retargetThread w fromThreadId toThreadId) fromThreadId
          toThreadId := by
  intro h
  have hkept := h (stripOf ["claude-pending-1", "other", "real"]) "claude-pending-1" "real"
    (separate_stripOf (by decide)) (by decide) (by decide) (by decide)
  have hshows : (focusedTab (createTabWorkspace (stripOf ["claude-pending-1", "other", "real"]))).any
      (·.Has "claude-pending-1") = true := by decide +kernel
  have hlost : (focusedTab (retargetThread (stripOf ["claude-pending-1", "other", "real"])
      "claude-pending-1" "real")).any (·.Has "real") = false := by decide +kernel
  obtain ⟨tab, htab, hthread⟩ := (Option.any_eq_true _ _).mp hshows
  obtain ⟨next, hnext, hnextHas⟩ := hkept.focus tab htab (.inl (of_decide_eq_true hthread))
  rw [Option.mem_def.mp hnext, Option.any_some, decide_eq_false_iff_not] at hlost
  exact hlost hnextHas

end AgentRelay.Tabs
