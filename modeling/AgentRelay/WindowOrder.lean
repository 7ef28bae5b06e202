import AgentRelay.HonestWindow

/-! The order of the hydration window beside its entries: two structures that every operation
writes together. The order names each entry once, so no entry is left out of what is rendered. -/
namespace AgentRelay.Hydration
open Text Relay Std StepRun

structure Stash where
  entries : Table Entry
  order : List String
  olderCursor : Option String
  signature : Option String
  tailReady : Bool

def maxRetainedHydrationThreads : Nat := 10

structure Store where
  window : Window
  threadCache : List (String × Stash) := []

structure Session where
  activeThreadId : Option String
  transcript : List Entry

namespace Window

def transcriptWindowIsLoaded (w : Window) (threadId : String) : Bool :=
  threadId ≠ "" && w.threadId = some threadId && w.order ≠ []

/-- A patch blanks the cached body, so that hydration fetches it again. -/
def invalidateTranscriptWindowEntryForPatch (w : Window) (threadId itemId : String) : Window :=
  if itemId = "" ∨ ¬ w.transcriptWindowIsLoaded threadId then w
  else
    match w.entries[itemId]? with
    | none => w
    | some existing =>
      if existing.text.getD [] = [] ∧ existing.contentState ≠ .full then w
      else
        { w with
          entries := w.entries.insert itemId
            { existing with text := some [], contentState := .preview } }

def arrayOnlyIds (w : Window) (session : Session) : List String :=
  (session.transcript.map (·.itemId)).filter fun id => id ≠ "" && !w.entries.contains id

/-- The window laid over the session's transcript: a full entry of the window, else what the
transcript shows for the item. -/
def renderedTranscriptFromWindow (w : Window) (session : Session) : List Entry :=
  if w.threadId ≠ session.activeThreadId ∨ w.order = [] then session.transcript
  else
    let arrayEntries := session.transcript.filter fun entry => entry.itemId ≠ ""
    let arrayByItemId : Table Entry :=
      arrayEntries.foldl (fun byItemId entry => byItemId.insert entry.itemId entry) ∅
    let arrayOnly := w.arrayOnlyIds session
    let order := if arrayOnly = [] then w.order
      else placeOrderedTailIds (fun id => id ∈ arrayOnly) w.order none arrayOnly
    order.filterMap fun id =>
      match w.entries[id]? with
      | some windowEntry =>
        if windowEntry.contentState = .full then some windowEntry
        else (arrayByItemId[id]?).or (some windowEntry)
      | none => arrayByItemId[id]?

end Window

inductive StoreOp
  | window (op : WindowOp)
  | invalidate (threadId itemId : String)
  | stash
  | restore (threadId : Option String)

namespace Store

def stashTranscriptHydrationForThread (store : Store) : Store :=
  match truthy store.window.threadId with
  | none => store
  | some threadId =>
    if store.window.order = [] then store
    else
      let w := store.window
      let cache := store.threadCache.filter (·.1 ≠ threadId) ++
        [(threadId, ⟨w.entries, w.order, w.olderCursor, w.signature, w.tailReady⟩)]
      { store with threadCache := cache.drop (cache.length - maxRetainedHydrationThreads) }

def restoreTranscriptHydrationForThread (store : Store) (threadId : Option String) : Store :=
  match (truthy threadId).bind fun id => (store.threadCache.lookup id).map (id, ·) with
  | none => { store with window := { threadId := threadId } }
  | some (id, stash) =>
    { window := {
        threadId := threadId
        entries := stash.entries
        order := stash.order
        olderCursor := stash.olderCursor
        signature := stash.signature
        tailReady := stash.tailReady }
      threadCache := store.threadCache.filter (·.1 ≠ id) ++ [(id, stash)] }

def step (store : Store) : StoreOp → Store
  | .window op => { store with window := store.window.step op }
  | .invalidate threadId itemId =>
    { store with
      window := store.window.invalidateTranscriptWindowEntryForPatch threadId itemId }
  | .stash => store.stashTranscriptHydrationForThread
  | .restore threadId => store.restoreTranscriptHydrationForThread threadId

end Store

def Keyed (entries : Table Entry) : Prop :=
  ∀ (id : String) (entry : Entry), entries[id]? = some entry → entry.itemId = id

structure Synced (entries : Table Entry) (order : List String) : Prop where
  nodup : order.Nodup
  solid : "" ∉ order
  keys : ∀ id, id ∈ order ↔ entries.contains id
  keyed : Keyed entries

def DistinctIds (entries : List WireEntry) : Prop := ((addressable entries).map (·.1)).Nodup

/-- What snapshots and pages have to satisfy. -/
def StoreOp.Distinct : StoreOp → Prop
  | .window (.snapshotTail snapshot _) | .window (.hydratedSnapshot snapshot) =>
    DistinctIds snapshot.transcript
  | .window (.page _ page _) => DistinctIds page.entries
  | _ => True

/-- The transcript a session shows names its items, each once. -/
def Session.Distinct (session : Session) : Prop :=
  (session.transcript.map (·.itemId)).Nodup ∧ "" ∉ session.transcript.map (·.itemId)

section orders

theorem uniqueItemIds_foldl (ids unique : List String) (hunique : unique.Nodup)
    (hsolid : "" ∉ unique) :
    (ids.foldl (fun unique id => if id = "" ∨ id ∈ unique then unique else unique ++ [id])
      unique).Nodup ∧
    ∀ id, id ∈ ids.foldl (fun unique id => if id = "" ∨ id ∈ unique then unique
      else unique ++ [id]) unique ↔ id ∈ unique ∨ id ∈ ids ∧ id ≠ "" := by
  induction ids generalizing unique with
  | nil => simp [hunique]
  | cons head ids ih =>
    rw [List.foldl_cons]
    by_cases hskip : head = "" ∨ head ∈ unique
    · rw [if_pos hskip]
      obtain ⟨hnodup, hmem⟩ := ih unique hunique hsolid
      refine ⟨hnodup, ?_⟩
      intro id
      rw [hmem id, List.mem_cons]
      constructor
      · rintro (hold | ⟨hid, hne⟩)
        · exact Or.inl hold
        · exact Or.inr ⟨Or.inr hid, hne⟩
      · rintro (hold | ⟨rfl | hid, hne⟩)
        · exact Or.inl hold
        · exact Or.inl (hskip.resolve_left hne)
        · exact Or.inr ⟨hid, hne⟩
    · rw [if_neg hskip]
      rw [not_or] at hskip
      have hnew : (unique ++ [head]).Nodup := by
        rw [List.nodup_append]
        refine ⟨hunique, by simp, ?_⟩
        intro a ha b hb heq
        rw [List.mem_singleton] at hb
        exact hskip.2 (hb ▸ heq ▸ ha)
      have hsolid' : "" ∉ unique ++ [head] := by
        simp [hsolid, Ne.symm hskip.1]
      obtain ⟨hnodup, hmem⟩ := ih (unique ++ [head]) hnew hsolid'
      refine ⟨hnodup, ?_⟩
      intro id
      rw [hmem id, List.mem_append, List.mem_singleton, List.mem_cons]
      constructor
      · rintro ((hold | rfl) | ⟨hid, hne⟩)
        · exact Or.inl hold
        · exact Or.inr ⟨Or.inl rfl, hskip.1⟩
        · exact Or.inr ⟨Or.inr hid, hne⟩
      · rintro (hold | ⟨rfl | hid, hne⟩)
        · exact Or.inl (Or.inl hold)
        · exact Or.inl (Or.inr rfl)
        · exact Or.inr ⟨hid, hne⟩

theorem uniqueItemIds_nodup (ids : List String) : (uniqueItemIds ids).Nodup :=
  (uniqueItemIds_foldl ids [] List.nodup_nil (by simp)).1

theorem mem_uniqueItemIds {ids : List String} {id : String} :
    id ∈ uniqueItemIds ids ↔ id ∈ ids ∧ id ≠ "" := by
  have hmem := (uniqueItemIds_foldl ids [] List.nodup_nil (by simp)).2 id
  simpa [uniqueItemIds] using hmem

theorem uniqueItemIds_self {ids : List String} (hnodup : ids.Nodup) (hsolid : "" ∉ ids) :
    uniqueItemIds ids = ids := by
  have hgeneral : ∀ (ids unique : List String), (unique ++ ids).Nodup → "" ∉ ids →
      ids.foldl (fun unique id => if id = "" ∨ id ∈ unique then unique else unique ++ [id])
        unique = unique ++ ids := by
    intro ids
    induction ids with
    | nil =>
      intro unique _ _
      simp
    | cons head ids ih =>
      intro unique hnodup hsolid
      have hfresh : head ∉ unique := by
        intro hmem
        exact (List.nodup_append.mp hnodup).2.2 head hmem head List.mem_cons_self rfl
      have hne : head ≠ "" := fun heq => hsolid (heq ▸ List.mem_cons_self)
      rw [List.foldl_cons, if_neg (not_or.mpr ⟨hne, hfresh⟩), ih]
      · simp
      · simpa using hnodup
      · exact fun hmem => hsolid (List.mem_cons_of_mem _ hmem)
  exact hgeneral ids [] (by simpa using hnodup) hsolid

theorem lastIndexOf_append {before after : List String} {id : String} (h : id ∉ after) :
    lastIndexOf (before ++ id :: after) id = some before.length := by
  unfold lastIndexOf
  have hfind : (before ++ id :: after).reverse.findIdx? (· = id) = some after.length := by
    rw [List.reverse_append, List.reverse_cons, List.append_assoc]
    rw [List.findIdx?_append]
    have hnone : after.reverse.findIdx? (fun other => decide (other = id)) = none := by
      rw [List.findIdx?_eq_none_iff]
      intro other hmem
      rw [List.mem_reverse] at hmem
      have hne : other ≠ id := fun heq => h (heq ▸ hmem)
      simpa using hne
    rw [hnone]
    simp [List.findIdx?_cons]
  rw [hfind]
  simp only [Option.map_some, List.length_append, List.length_cons]
  congr 1
  omega

theorem exists_last {order : List String} {id : String} (h : id ∈ order) :
    ∃ before after, order = before ++ id :: after ∧ id ∉ after := by
  induction order with
  | nil => cases h
  | cons head order ih =>
    by_cases hlater : id ∈ order
    · obtain ⟨before, after, rfl, hafter⟩ := ih hlater
      exact ⟨head :: before, after, rfl, hafter⟩
    · obtain rfl := (List.mem_cons.mp h).resolve_right hlater
      exact ⟨[], order, rfl, hlater⟩

theorem placeOrderedTailIds_new {unordered : String → Bool} {id : String}
    (h : unordered id = true) (working : List String) (anchor : Option Nat) (tail : List String) :
    ∃ index ≤ working.length, placeOrderedTailIds unordered working anchor (id :: tail) =
      placeOrderedTailIds unordered (working.insertIdx index id) (some index) tail := by
  conv =>
    enter [1, index, 2, 1]
    unfold placeOrderedTailIds
  rw [if_pos h]
  refine ⟨_, ?_, rfl⟩
  split
  · exact Nat.min_le_right _ _
  · exact le_rfl

theorem placeOrderedTailIds_held {unordered : String → Bool} {id : String}
    (h : unordered id = false) {before after : List String} (hafter : id ∉ after)
    (anchor : Option Nat) (tail : List String) :
    placeOrderedTailIds unordered (before ++ id :: after) anchor (id :: tail) =
      placeOrderedTailIds unordered (before ++ id :: after) (some before.length) tail := by
  conv_lhs => unfold placeOrderedTailIds
  rw [h, if_neg Bool.false_ne_true, lastIndexOf_append hafter]

theorem placeOrderedTailIds_perm (unordered : String → Bool) (tail working : List String)
    (anchor : Option Nat) (hnodup : tail.Nodup)
    (hold : ∀ id ∈ tail, unordered id = false → id ∈ working) :
    (placeOrderedTailIds unordered working anchor tail).Perm
      (tail.filter unordered ++ working) := by
  induction tail generalizing working anchor with
  | nil => simp [placeOrderedTailIds]
  | cons id tail ih =>
    rw [List.nodup_cons] at hnodup
    cases hnew : unordered id with
    | false =>
      obtain ⟨before, after, rfl, hafter⟩ := exists_last (hold id List.mem_cons_self hnew)
      have hfilter : (id :: tail).filter unordered = tail.filter unordered := by
        simp [hnew]
      rw [hfilter, placeOrderedTailIds_held hnew hafter]
      exact ih _ _ hnodup.2 fun other hmem => hold other (List.mem_cons_of_mem _ hmem)
    | true =>
      have hfilter : (id :: tail).filter unordered = id :: tail.filter unordered := by
        simp [hnew]
      rw [hfilter]
      obtain ⟨index, hle, hstep⟩ := placeOrderedTailIds_new hnew working anchor tail
      rw [hstep]
      have hinserted := List.perm_insertIdx id working hle
      have hrest := ih (working.insertIdx index id) (some index) hnodup.2 (by
        intro other hmem hfalse
        rw [hinserted.mem_iff]
        exact List.mem_cons_of_mem _ (hold other (List.mem_cons_of_mem _ hmem) hfalse))
      exact hrest.trans ((hinserted.append_left _).trans List.perm_middle)

theorem mem_mergeTailPageOrder {existingOrder pageItemIds : List String} {id : String} :
    id ∈ mergeTailPageOrder existingOrder pageItemIds ↔
      (id ∈ existingOrder ∨ id ∈ pageItemIds) ∧ id ≠ "" := by
  unfold mergeTailPageOrder
  dsimp only
  have hsplit := List.takeWhile_append_dropWhile (p := (· ∉ pageItemIds)) (l := existingOrder)
  split_ifs with hempty hrest
  · rw [mem_uniqueItemIds, hempty]
    simp
  · rw [mem_uniqueItemIds, List.mem_append, or_comm]
    rw [hrest, List.append_nil] at hsplit
    rw [hsplit]
  · rw [mem_uniqueItemIds]
    have hmem : id ∈ existingOrder ↔ id ∈ existingOrder.takeWhile (· ∉ pageItemIds) ∨
        id ∈ existingOrder.dropWhile (· ∉ pageItemIds) := by
      conv_lhs => rw [← hsplit]
      exact List.mem_append
    rw [hmem]
    simp only [List.mem_append, List.mem_filter, decide_eq_true_eq]
    tauto

theorem mergeTailPageOrder_nodup (existingOrder pageItemIds : List String) :
    (mergeTailPageOrder existingOrder pageItemIds).Nodup := by
  unfold mergeTailPageOrder
  dsimp only
  split_ifs <;> exact uniqueItemIds_nodup _

end orders

section entries
variable {entries : Table Entry} {order : List String}

theorem Keyed.insert (h : Keyed entries) {id : String} {entry : Entry} (hid : entry.itemId = id) :
    Keyed (entries.insert id entry) := by
  intro other found hget
  rw [Table.getElem?_insert_of] at hget
  split_ifs at hget with hsame
  · obtain rfl := Option.some.inj hget
    rw [hid, hsame]
  · exact h other found hget

theorem contains_insert_iff (id other : String) (entry : Entry) :
    (entries.insert id entry).contains other ↔ entries.contains other ∨ other = id := by
  rw [ExtTreeMap.contains_eq_isSome_getElem?, ExtTreeMap.contains_eq_isSome_getElem?,
    Table.getElem?_insert_of]
  split_ifs with hsame
  · simp [hsame]
  · simp [hsame]

theorem foldl_insert {entries : Table Entry} {β : Type} (key : β → String)
    (value : Table Entry → β → Entry) (items : List β)
    (hvalue : ∀ m, ∀ b ∈ items, (value m b).itemId = key b)
    (h : Keyed entries) :
    Keyed (items.foldl (fun m b => m.insert (key b) (value m b)) entries) ∧
      ∀ id, (items.foldl (fun m b => m.insert (key b) (value m b)) entries).contains id ↔
        entries.contains id ∨ id ∈ items.map key := by
  induction items generalizing entries with
  | nil => simp [h]
  | cons b items ih =>
    have hinserted := h.insert (hvalue entries b List.mem_cons_self)
    obtain ⟨hkeyed, hcontains⟩ :=
      ih (fun m c hc => hvalue m c (List.mem_cons_of_mem _ hc)) hinserted
    refine ⟨hkeyed, ?_⟩
    intro id
    rw [List.foldl_cons, hcontains id, contains_insert_iff, List.map_cons, List.mem_cons, or_assoc]

theorem mergeTranscriptEntry_itemId (existing : Option Entry) (incoming : Entry) :
    (mergeTranscriptEntry existing incoming).itemId = incoming.itemId := by
  cases existing <;> rfl

theorem prepareSnapshotOverlayEntry_itemId (id : String) (entry : WireEntry) :
    (prepareSnapshotOverlayEntry id entry).itemId = id := by
  unfold prepareSnapshotOverlayEntry
  dsimp only
  split_ifs <;> rfl

theorem Synced.grow (h : Synced entries order) (ids : List String) {entries' : Table Entry}
    {order' : List String}
    (hkeyed : Keyed entries') (hcontains : ∀ id, entries'.contains id ↔
      entries.contains id ∨ id ∈ ids) (hsolid : "" ∉ ids) (hnodup : order'.Nodup)
    (hmem : ∀ id, id ∈ order' ↔ id ∈ order ∨ id ∈ ids) : Synced entries' order' where
  nodup := hnodup
  solid := by
    rw [hmem]
    exact not_or.mpr ⟨h.solid, hsolid⟩
  keys := by
    intro id
    rw [hmem, hcontains, h.keys]
  keyed := hkeyed

theorem addressable_solid (wire : List WireEntry) : "" ∉ (addressable wire).map (·.1) := by
  intro hmem
  obtain ⟨e, he, hid⟩ := List.mem_map.mp hmem
  obtain ⟨entry, -, hentry⟩ := List.mem_filterMap.mp he
  obtain ⟨id, htruthy, rfl⟩ := Option.map_eq_some_iff.mp hentry
  have hne := (Option.filter_eq_some_iff.mp htruthy).2
  exact absurd hid (by simpa using hne)

theorem Synced.placed (h : Synced entries order) {tail : List String} (hnodup : tail.Nodup) :
    (placeOrderedTailIds (fun id => !entries.contains id) order none tail).Nodup ∧
      ∀ id, id ∈ placeOrderedTailIds (fun id => !entries.contains id) order none tail ↔
        id ∈ order ∨ id ∈ tail := by
  have hperm := placeOrderedTailIds_perm (fun id => !entries.contains id) tail order none hnodup (by
    intro id _ hheld
    rw [h.keys]
    simpa using hheld)
  constructor
  · rw [hperm.nodup_iff, List.nodup_append]
    refine ⟨hnodup.filter _, h.nodup, ?_⟩
    rintro id hid other hother rfl
    have hnew := (List.mem_filter.mp hid).2
    rw [h.keys] at hother
    simp [hother] at hnew
  · intro id
    rw [hperm.mem_iff, List.mem_append, List.mem_filter, h.keys]
    by_cases hheld : entries.contains id
    · simp [hheld]
    · simp [hheld]

end entries

namespace Window

def Synced (w : Window) : Prop := Hydration.Synced w.entries w.order

theorem synced_cleared (threadId : Option String) : Synced { threadId := threadId } where
  nodup := List.nodup_nil
  solid := by simp
  keys := by simp
  keyed := by
    intro id entry hget
    simp at hget

variable {w : Window}

theorem Synced.snapshotTail (h : w.Synced) {snapshot : Snapshot} (signature : String)
    (hdistinct : DistinctIds snapshot.transcript) :
    (w.createMergedSnapshotTailPatch snapshot signature).Synced := by
  obtain ⟨hkeyed, hcontains⟩ := foldl_insert (·.1) (fun entries e =>
    mergeTranscriptEntry entries[e.1]? (prepareSnapshotOverlayEntry e.1 e.2))
    (addressable snapshot.transcript) (by
      intro m e _
      rw [mergeTranscriptEntry_itemId, prepareSnapshotOverlayEntry_itemId]) h.keyed
  obtain ⟨hnodup, hmem⟩ := h.placed hdistinct
  exact h.grow _ hkeyed hcontains (addressable_solid _) hnodup hmem

theorem Synced.hydratedSnapshot (h : w.Synced) {snapshot : Snapshot}
    (hdistinct : DistinctIds snapshot.transcript) :
    (w.buildHydratedTranscriptSnapshot snapshot).1.Synced := by
  have hempty : Keyed ∅ := by
    intro id entry hget
    simp at hget
  obtain ⟨hoverlay, hoverlayIds⟩ := foldl_insert (·.1) (fun _ e =>
    mergeTranscriptEntry w.entries[e.1]? (prepareSnapshotOverlayEntry e.1 e.2))
    (addressable snapshot.transcript) (by
      intro m e _
      rw [mergeTranscriptEntry_itemId, prepareSnapshotOverlayEntry_itemId]) hempty
  unfold buildHydratedTranscriptSnapshot
  dsimp only
  split_ifs
  · exact h
  · generalize (addressable snapshot.transcript).foldl (fun overlay e => overlay.insert e.1
      (mergeTranscriptEntry w.entries[e.1]? (prepareSnapshotOverlayEntry e.1 e.2)))
      (∅ : Table Entry) = overlay at hoverlay hoverlayIds ⊢
    obtain ⟨hkeyed, hcontains⟩ := foldl_insert (·.1) (fun _ e => e.2) overlay.toList (by
      intro m e he
      exact hoverlay e.1 e.2 (ExtTreeMap.mem_toList_iff_getElem?_eq_some.mp he)) h.keyed
    obtain ⟨hnodup, hmem⟩ := h.placed hdistinct
    have hids : ∀ id, id ∈ overlay.toList.map (·.1) ↔
        id ∈ (addressable snapshot.transcript).map (·.1) := by
      intro id
      rw [ExtTreeMap.map_fst_toList_eq_keys, ExtTreeMap.mem_keys, ← ExtTreeMap.contains_iff_mem,
        hoverlayIds]
      simp
    rw [← ExtTreeMap.foldl_eq_foldl_toList] at hkeyed hcontains
    refine h.grow _ hkeyed ?_ (addressable_solid _) hnodup hmem
    intro id
    rw [hcontains id, hids]

theorem Synced.page (h : w.Synced) (now : Nat) (page : Page) (prepend : Bool) :
    (w.createMergedTranscriptHydrationPagePatch now page prepend).Synced := by
  obtain ⟨hkeyed, hcontains⟩ := foldl_insert (·.1) (fun entries e =>
    mergeTranscriptEntry entries[e.1]? (toTranscriptEntry e.1 e.2)) (addressable page.entries) (by
      intro m e _
      rw [mergeTranscriptEntry_itemId]
      rfl) h.keyed
  have hsolid := addressable_solid page.entries
  have hne : ∀ id, id ∈ w.order ∨ id ∈ (addressable page.entries).map (·.1) → id ≠ "" := by
    rintro id (hold | hnew) rfl
    · exact h.solid hold
    · exact hsolid hnew
  refine h.grow _ hkeyed hcontains hsolid ?_ ?_
  · unfold createMergedTranscriptHydrationPagePatch
    dsimp only
    split_ifs
    · exact uniqueItemIds_nodup _
    · exact mergeTailPageOrder_nodup _ _
  · intro id
    unfold createMergedTranscriptHydrationPagePatch
    dsimp only
    split_ifs
    · rw [mem_uniqueItemIds, List.mem_append, or_comm]
      exact ⟨fun hboth => hboth.1, fun hid => ⟨hid, hne id hid⟩⟩
    · rw [mem_mergeTailPageOrder]
      exact ⟨fun hboth => hboth.1, fun hid => ⟨hid, hne id hid⟩⟩

theorem applyDeltaToEntry_itemId (existing : Entry) (d : Delta) :
    (applyDeltaToEntry existing d).1.itemId = existing.itemId := by
  unfold applyDeltaToEntry
  dsimp only
  split <;> rfl

theorem Synced.overwrite (h : w.Synced) {id : String} {existing entry : Entry}
    (hget : w.entries[id]? = some existing) (hid : entry.itemId = existing.itemId) :
    Hydration.Synced (w.entries.insert id entry) w.order where
  nodup := h.nodup
  solid := h.solid
  keys := by
    intro other
    rw [contains_insert_iff, h.keys]
    constructor
    · exact Or.inl
    · rintro (hold | rfl)
      · exact hold
      · rw [ExtTreeMap.contains_eq_isSome_getElem?, hget]
        rfl
  keyed := h.keyed.insert (hid.trans (h.keyed id existing hget))

theorem Synced.delta (h : w.Synced) (d : Delta) : (w.deliver d).Synced := by
  unfold deliver applyTranscriptDeltaToWindow
  split
  · rename_i itemId threadId hitem hthread
    split_ifs
    · exact h
    · split
      · rename_i existing hget
        exact h.overwrite hget (applyDeltaToEntry_itemId existing d)
      · rename_i hget
        have hne : itemId ≠ "" := by
          have := (Option.filter_eq_some_iff.mp hitem).2
          simpa using this
        have hfresh : itemId ∉ w.order := by
          rw [h.keys, ExtTreeMap.contains_eq_isSome_getElem?, hget]
          simp
        have hkeyed : Keyed (w.entries.insert itemId (firstDeltaEntry itemId d)) :=
          h.keyed.insert rfl
        refine h.grow [itemId] hkeyed ?_ (by simpa using hne.symm) ?_ ?_
        · intro id
          rw [contains_insert_iff, List.mem_singleton]
        · rw [List.nodup_append]
          refine ⟨h.nodup, by simp, ?_⟩
          intro a ha b hb heq
          rw [List.mem_singleton] at hb
          exact hfresh (hb ▸ heq ▸ ha)
        · intro id
          rw [List.mem_append, List.mem_singleton]
  · exact h

theorem Synced.invalidate (h : w.Synced) (threadId itemId : String) :
    (w.invalidateTranscriptWindowEntryForPatch threadId itemId).Synced := by
  unfold invalidateTranscriptWindowEntryForPatch
  split_ifs
  · exact h
  · split
    · exact h
    · rename_i existing hget
      split_ifs
      · exact h
      · exact h.overwrite hget rfl

theorem Synced.step (h : w.Synced) {op : WindowOp} (hdistinct : (StoreOp.window op).Distinct) :
    (w.step op).Synced := by
  cases op with
  | snapshotTail snapshot signature => exact h.snapshotTail signature hdistinct
  | hydratedSnapshot snapshot => exact h.hydratedSnapshot hdistinct
  | page now page prepend => exact h.page now page prepend
  | delta d => exact h.delta d

theorem map_filterMap_ids {ids : List String} {shown : String → Option Entry}
    (h : ∀ id ∈ ids, ∃ entry, shown id = some entry ∧ entry.itemId = id) :
    (ids.filterMap shown).map (·.itemId) = ids := by
  induction ids with
  | nil => rfl
  | cons id ids ih =>
    obtain ⟨entry, hshown, hid⟩ := h id List.mem_cons_self
    rw [List.filterMap_cons_some hshown, List.map_cons, hid,
      ih fun other hmem => h other (List.mem_cons_of_mem _ hmem)]

/-- What is rendered lists every item of the window and of the session's transcript once. -/
theorem Synced.rendered (h : w.Synced) {session : Session}
    (hdistinct : session.Distinct) (hthread : w.threadId = session.activeThreadId) :
    ((w.renderedTranscriptFromWindow session).map (·.itemId)).Nodup ∧
      ∀ id, id ∈ (w.renderedTranscriptFromWindow session).map (·.itemId) ↔
        w.entries.contains id ∨ id ∈ session.transcript.map (·.itemId) := by
  obtain ⟨hnodup, hsolid⟩ := hdistinct
  unfold renderedTranscriptFromWindow
  by_cases hempty : w.order = []
  · rw [if_pos (Or.inr hempty)]
    refine ⟨hnodup, ?_⟩
    intro id
    have hnone : ¬ w.entries.contains id := by
      rw [← h.keys, hempty]
      exact List.not_mem_nil
    simp [hnone]
  · rw [if_neg (not_or.mpr ⟨not_not.mpr hthread, hempty⟩)]
    dsimp only
    have hall : session.transcript.filter (fun entry => entry.itemId ≠ "") = session.transcript := by
      rw [List.filter_eq_self]
      intro entry hmem
      have hne : entry.itemId ≠ "" := fun heq => hsolid (List.mem_map.mpr ⟨entry, hmem, heq⟩)
      simpa using hne
    have hnew : Keyed ∅ := by
      intro id entry hget
      simp at hget
    obtain ⟨hkeyed, hshown⟩ := foldl_insert (·.itemId) (fun _ (entry : Entry) => entry)
      session.transcript (fun _ _ _ => rfl) hnew
    rw [hall]
    generalize session.transcript.foldl (fun (byItemId : Table Entry) entry =>
      byItemId.insert entry.itemId entry) ∅ = arrayByItemId at hkeyed hshown ⊢
    have honly : ∀ id, id ∈ w.arrayOnlyIds session ↔
        id ∈ session.transcript.map (·.itemId) ∧ ¬ w.entries.contains id := by
      intro id
      unfold arrayOnlyIds
      rw [List.mem_filter]
      constructor
      · rintro ⟨hmem, hcond⟩
        have hnot := (Bool.and_eq_true_iff.mp hcond).2
        rw [Bool.not_eq_true'] at hnot
        exact ⟨hmem, Bool.not_eq_true _ ▸ hnot⟩
      · rintro ⟨hmem, hcond⟩
        have hne : id ≠ "" := fun heq => hsolid (heq ▸ hmem)
        simp [hmem, hne, hcond]
    have hplaced := placeOrderedTailIds_perm (fun id => decide (id ∈ w.arrayOnlyIds session))
      (w.arrayOnlyIds session) w.order none (hnodup.filter _) (by
        intro id hmem hfalse
        exact absurd hmem (by simpa using hfalse))
    have hfilter : (w.arrayOnlyIds session).filter
        (fun id => decide (id ∈ w.arrayOnlyIds session)) = w.arrayOnlyIds session := by
      rw [List.filter_eq_self]
      intro id hmem
      simpa using hmem
    rw [hfilter] at hplaced
    have hperm : (if w.arrayOnlyIds session = [] then w.order
        else placeOrderedTailIds (fun id => decide (id ∈ w.arrayOnlyIds session)) w.order none
          (w.arrayOnlyIds session)).Perm (w.arrayOnlyIds session ++ w.order) := by
      split_ifs with hnone
      · rw [hnone, List.nil_append]
      · exact hplaced
    generalize (if w.arrayOnlyIds session = [] then w.order
      else placeOrderedTailIds (fun id => decide (id ∈ w.arrayOnlyIds session)) w.order none
        (w.arrayOnlyIds session)) = order at hperm ⊢
    rw [map_filterMap_ids]
    · constructor
      · rw [hperm.nodup_iff, List.nodup_append]
        refine ⟨hnodup.filter _, h.nodup, ?_⟩
        rintro id hid other hother rfl
        exact ((honly id).mp hid).2 ((h.keys id).mp hother)
      · intro id
        rw [hperm.mem_iff, List.mem_append, honly, h.keys]
        by_cases hheld : w.entries.contains id
        · simp [hheld]
        · simp [hheld]
    · intro id hmem
      rw [hperm.mem_iff, List.mem_append] at hmem
      cases hget : w.entries[id]? with
      | some windowEntry =>
        have hid := h.keyed id windowEntry hget
        dsimp only
        split_ifs
        · exact ⟨windowEntry, rfl, hid⟩
        · cases harray : arrayByItemId[id]? with
          | none => exact ⟨windowEntry, rfl, hid⟩
          | some entry => exact ⟨entry, rfl, hkeyed id entry harray⟩
      | none =>
        have hnone : ¬ w.entries.contains id := by
          rw [ExtTreeMap.contains_eq_isSome_getElem?, hget]
          simp
        have hlisted : id ∈ session.transcript.map (·.itemId) := by
          rcases hmem with hnew | hold
          · exact ((honly id).mp hnew).1
          · exact absurd ((h.keys id).mp hold) hnone
        have hcontains := (hshown id).mpr (Or.inr hlisted)
        rw [ExtTreeMap.contains_eq_isSome_getElem?] at hcontains
        obtain ⟨entry, harray⟩ := Option.isSome_iff_exists.mp hcontains
        exact ⟨entry, harray, hkeyed id entry harray⟩

end Window

namespace Store

structure Synced (store : Store) : Prop where
  window : store.window.Synced
  retained : ∀ kept ∈ store.threadCache, Hydration.Synced kept.2.entries kept.2.order

variable {store : Store}

theorem Synced.stash (h : store.Synced) : store.stashTranscriptHydrationForThread.Synced := by
  unfold stashTranscriptHydrationForThread
  split
  · exact h
  · rename_i threadId _
    split_ifs
    · exact h
    · refine ⟨h.window, ?_⟩
      intro kept hkept
      rcases List.mem_append.mp (List.mem_of_mem_drop hkept) with hold | hnew
      · exact h.retained kept (List.mem_of_mem_filter hold)
      · obtain rfl := List.mem_singleton.mp hnew
        exact h.window

theorem Synced.restore (h : store.Synced) (threadId : Option String) :
    (store.restoreTranscriptHydrationForThread threadId).Synced := by
  unfold restoreTranscriptHydrationForThread
  split
  · exact ⟨Window.synced_cleared threadId, h.retained⟩
  · rename_i id stash hfound
    obtain ⟨key, -, hlookup⟩ := Option.bind_eq_some_iff.mp hfound
    obtain ⟨found, hget, hpair⟩ := Option.map_eq_some_iff.mp hlookup
    obtain ⟨rfl, rfl⟩ := Prod.mk.inj hpair
    have hstash : Hydration.Synced found.entries found.order := by
      obtain ⟨before, after, hcache, -⟩ := List.lookup_eq_some_iff.mp hget
      exact h.retained (key, found) (hcache ▸ List.mem_append_right _ List.mem_cons_self)
    refine ⟨hstash, ?_⟩
    intro kept hkept
    rcases List.mem_append.mp hkept with hold | hnew
    · exact h.retained kept (List.mem_of_mem_filter hold)
    · obtain rfl := List.mem_singleton.mp hnew
      exact hstash

theorem Synced.step (h : store.Synced) {op : StoreOp} (hdistinct : op.Distinct) :
    (store.step op).Synced := by
  cases op with
  | window op => exact ⟨h.window.step hdistinct, h.retained⟩
  | invalidate threadId itemId => exact ⟨h.window.invalidate threadId itemId, h.retained⟩
  | stash => exact h.stash
  | restore threadId => exact h.restore threadId

end Store

/-- After any operations on the store, the order of the window names each of its entries once and
nothing else, and what is rendered lists every entry of the window and of the session once. -/
theorem window_order_agrees (threadId : Option String) (ops : List StoreOp)
    (hdistinct : ∀ op ∈ ops, op.Distinct) :
    let store := run Store.step { window := { threadId := threadId } } ops
    store.window.order.Nodup ∧
    (∀ id, id ∈ store.window.order ↔ store.window.entries.contains id) ∧
    ∀ session : Session, session.Distinct → store.window.threadId = session.activeThreadId →
      ((store.window.renderedTranscriptFromWindow session).map (·.itemId)).Nodup ∧
      ∀ id, id ∈ (store.window.renderedTranscriptFromWindow session).map (·.itemId) ↔
        store.window.entries.contains id ∨ id ∈ session.transcript.map (·.itemId) := by
  have hstart : Store.Synced { window := { threadId := threadId } } :=
    ⟨Window.synced_cleared threadId, by simp⟩
  have hall : Along Store.step (fun _ op => op.Distinct)
      { window := { threadId := threadId } } ops := by
    have htrue : Along Store.step (fun _ _ => True) { window := { threadId := threadId } } ops :=
      along_of_forall (fun _ _ => trivial) _ _
    exact (htrue.and_mem hdistinct).mono fun _ _ hboth => hboth.2
  have hstep : ∀ (store : Store) (op : StoreOp), store.Synced → op.Distinct →
      (store.step op).Synced := fun _ _ h hop => h.step hop
  have hlast := (always_of_step hstep hstart hall).last
  refine ⟨hlast.window.nodup, hlast.window.keys, ?_⟩
  intro session hsession hthread
  exact hlast.window.rendered hsession hthread

/-- A reply that streams in before the snapshot with the message it answers. -/
theorem window_order_agrees_reply :
    let said : WireEntry :=
      { itemId := some "u", kind := "user_text", text := none, status := "completed" }
    let reply : WireEntry := { said with itemId := some "a", kind := "agent_text" }
    let store := run Store.step { window := { threadId := some "t" } }
      [.window (.delta
          { threadId := some "t", itemId := some "a", delta := [], textOffset := none }),
        .window (.snapshotTail { activeThreadId := some "t", transcript := [said, reply] } "s"),
        .stash, .restore (some "t")]
    store.window.order.Nodup ∧
      ∀ id, id ∈ store.window.order ↔ store.window.entries.contains id := by
  have hdistinct : DistinctIds [
      { itemId := some "u", kind := "user_text", text := none, status := "completed" },
      { itemId := some "a", kind := "agent_text", text := none, status := "completed" }] := by
    unfold DistinctIds
    decide
  obtain ⟨hnodup, hkeys, -⟩ := window_order_agrees (some "t")
    [.window (.delta
        { threadId := some "t", itemId := some "a", delta := [], textOffset := none }),
      .window (.snapshotTail { activeThreadId := some "t", transcript := [
        { itemId := some "u", kind := "user_text", text := none, status := "completed" },
        { itemId := some "a", kind := "agent_text", text := none, status := "completed" }] } "s"),
      .stash, .restore (some "t")] (by simp [StoreOp.Distinct, hdistinct])
  exact ⟨hnodup, hkeys⟩

end AgentRelay.Hydration
