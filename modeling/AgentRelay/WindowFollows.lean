import AgentRelay.WindowOrder

/-! The order of the hydration window beside the relay's: when what the client merges keeps the
window a subsequence of the relay's transcript. -/
namespace AgentRelay.Hydration
open Text Relay Std StepRun

section before
variable {α : Type} {S L : List α} {a b : α}

/-- In the list `S` the one stands before the other. -/
def Before (S : List α) (a b : α) : Prop := [a, b].Sublist S

theorem Before.asymm (hS : S.Nodup) (hab : Before S a b) : ¬ Before S b a := by
  intro hba
  unfold Before at hab hba
  induction S with
  | nil => cases hab
  | cons head S ih =>
    rw [List.nodup_cons] at hS
    rw [List.sublist_cons_iff] at hab hba
    rcases hab with hab | ⟨rest, hrest, hb⟩
    · rcases hba with hba | ⟨rest, hrest, -⟩
      · exact ih hS.2 hab hba
      · obtain ⟨rfl, -⟩ := List.cons.inj hrest
        exact hS.1 (hab.subset (by simp))
    · obtain ⟨rfl, rfl⟩ := List.cons.inj hrest
      have hmem : b ∈ S := List.singleton_sublist.mp hb
      rcases hba with hba | ⟨rest, hrest, -⟩
      · exact hS.1 (hba.subset (by simp))
      · obtain ⟨rfl, -⟩ := List.cons.inj hrest
        exact hS.1 hmem

theorem sublist_iff_before (hS : S.Nodup) :
    L.Sublist S ↔ L ⊆ S ∧ L.Pairwise (Before S) := by
  constructor
  · intro hL
    refine ⟨hL.subset, ?_⟩
    rw [List.pairwise_iff_forall_sublist]
    intro a b hab
    exact hab.trans hL
  · rintro ⟨hsubset, hpairs⟩
    have hantisymm : Std.Antisymm (Before S) :=
      ⟨fun a b hab hba => absurd hba (hab.asymm hS)⟩
    have hL : L.Nodup := hpairs.imp fun hab heq => by
      subst heq
      exact hab.asymm hS hab
    have hself : S.Pairwise (Before S) := List.pairwise_iff_forall_sublist.mpr fun hab => hab
    exact List.sublist_of_subperm_of_pairwise (List.subperm_of_subset hL hsubset) hpairs hself

/-- Two lists that follow `S` follow it one after the other when all of the first stands before
all of the second. -/
theorem append_sublist_iff_before (hS : S.Nodup) {M : List α} (hL : L.Sublist S)
    (hM : M.Sublist S) : (L ++ M).Sublist S ↔ ∀ a ∈ L, ∀ b ∈ M, Before S a b := by
  rw [sublist_iff_before hS, List.pairwise_append]
  obtain ⟨hLsub, hLpairs⟩ := (sublist_iff_before hS).mp hL
  obtain ⟨hMsub, hMpairs⟩ := (sublist_iff_before hS).mp hM
  constructor
  · intro h
    exact h.2.2.2
  · intro h
    exact ⟨List.append_subset.mpr ⟨hLsub, hMsub⟩, hLpairs, hMpairs, h⟩

theorem sublist_parts {A T B : List α} (h : L.Sublist (A ++ T ++ B)) :
    ∃ above within below, L = above ++ within ++ below ∧
      above.Sublist A ∧ within.Sublist T ∧ below.Sublist B := by
  obtain ⟨front, below, rfl, hfront, hbelow⟩ := List.sublist_append_iff.mp h
  obtain ⟨above, within, rfl, habove, hwithin⟩ := List.sublist_append_iff.mp hfront
  exact ⟨above, within, below, rfl, habove, hwithin, hbelow⟩

end before

section placing
variable {unordered : String → Bool}

theorem insertIdx_append (before after : List String) (id : String) :
    (before ++ after).insertIdx before.length id = before ++ id :: after := by
  induction before with
  | nil => rfl
  | cons head before ih => simp [ih]

/-- After an anchor the rest of the tail replaces the ids of it that are ordered. -/
theorem placeOrderedTailIds_anchored (tail front within below : List String) (anchor : String)
    (hnew : ∀ id ∈ tail, unordered id = true ↔ id ∉ within) (hwithin : within.Sublist tail)
    (htail : tail.Nodup) (hbelow : ∀ id ∈ tail, id ∉ below) :
    placeOrderedTailIds unordered (front ++ anchor :: (within ++ below)) (some front.length) tail =
      front ++ anchor :: (tail ++ below) := by
  induction tail generalizing front within anchor with
  | nil =>
    rw [List.sublist_nil.mp hwithin]
    rfl
  | cons id tail ih =>
    have hfresh := (List.nodup_cons.mp htail).1
    have hlonger : (front ++ [anchor]).length = front.length + 1 := by simp
    cases hcase : unordered id with
    | true =>
      have hout : id ∉ within := (hnew id List.mem_cons_self).mp hcase
      have hrest : within.Sublist tail := by
        rcases List.sublist_cons_iff.mp hwithin with hrest | ⟨rest, rfl, -⟩
        · exact hrest
        · exact absurd List.mem_cons_self hout
      conv_lhs => unfold placeOrderedTailIds
      rw [hcase, if_pos rfl]
      dsimp only
      have hle : min (front.length + 1) (front ++ anchor :: (within ++ below)).length =
          front.length + 1 := by
        simp
      have hsplit : front ++ anchor :: (within ++ below) =
          (front ++ [anchor]) ++ (within ++ below) := by simp
      rw [hle, hsplit, ← hlonger, insertIdx_append]
      have hnext := ih (front ++ [anchor]) within id
        (fun other hmem => hnew other (List.mem_cons_of_mem _ hmem)) hrest
        (List.nodup_cons.mp htail).2 (fun other hmem => hbelow other (List.mem_cons_of_mem _ hmem))
      rw [hnext]
      simp
    | false =>
      have hin : id ∈ within := by
        by_contra hout
        rw [(hnew id List.mem_cons_self).mpr hout] at hcase
        cases hcase
      obtain ⟨rest, rfl, hrest⟩ : ∃ rest, within = id :: rest ∧ rest.Sublist tail := by
        rcases List.sublist_cons_iff.mp hwithin with hlater | hhead
        · exact absurd (hlater.subset hin) hfresh
        · exact hhead
      have hafter : id ∉ rest ++ below := by
        rw [List.mem_append, not_or]
        exact ⟨fun hmem => hfresh (hrest.subset hmem), hbelow id List.mem_cons_self⟩
      have hsplit : front ++ anchor :: (id :: rest ++ below) =
          (front ++ [anchor]) ++ id :: (rest ++ below) := by simp
      rw [hsplit, placeOrderedTailIds_held hcase hafter]
      have hnext := ih (front ++ [anchor]) rest id (by
          intro other hmem
          rw [hnew other (List.mem_cons_of_mem _ hmem), List.mem_cons, not_or]
          constructor
          · exact fun h => h.2
          · intro h
            exact ⟨fun heq => hfresh (heq ▸ hmem), h⟩) hrest
        (List.nodup_cons.mp htail).2 (fun other hmem => hbelow other (List.mem_cons_of_mem _ hmem))
      rw [hnext]
      simp

theorem locateLaterTailId_new (order tail : List String)
    (hnew : ∀ id ∈ tail, unordered id = true) : locateLaterTailId unordered order tail = none := by
  induction tail with
  | nil => rfl
  | cons id tail ih =>
    unfold locateLaterTailId
    rw [hnew id List.mem_cons_self, if_pos rfl]
    exact ih fun other hmem => hnew other (List.mem_cons_of_mem _ hmem)

theorem locateLaterTailId_held (above below tail : List String) {within : List String}
    {first : String} (hnew : ∀ id ∈ tail, unordered id = true ↔ id ∉ first :: within)
    (hwithin : (first :: within).Sublist tail) (htail : tail.Nodup)
    (hbelow : first ∉ below) :
    locateLaterTailId unordered (above ++ first :: (within ++ below)) tail =
      some above.length := by
  induction tail with
  | nil => cases hwithin
  | cons id tail ih =>
    have hfresh := (List.nodup_cons.mp htail).1
    unfold locateLaterTailId
    rcases List.sublist_cons_iff.mp hwithin with hlater | ⟨rest, hhead, hrest⟩
    · have hout : id ∉ first :: within := fun hmem => hfresh (hlater.subset hmem)
      rw [(hnew id List.mem_cons_self).mpr hout, if_pos rfl]
      exact ih (fun other hmem => hnew other (List.mem_cons_of_mem _ hmem)) hlater
        (List.nodup_cons.mp htail).2
    · obtain ⟨rfl, rfl⟩ := List.cons.inj hhead
      have hheld : unordered first = false := by
        rw [← Bool.not_eq_true, hnew first List.mem_cons_self]
        simp
      have hafter : first ∉ within ++ below := by
        rw [List.mem_append, not_or]
        exact ⟨fun hmem => hfresh (hrest.subset hmem), hbelow⟩
      rw [hheld, if_neg Bool.false_ne_true, lastIndexOf_append hafter]

theorem placeOrderedTailIds_apart (order tail : List String) (htail : tail.Nodup)
    (hnew : ∀ id ∈ tail, unordered id = true) :
    placeOrderedTailIds unordered order none tail = order ++ tail := by
  cases tail with
  | nil => simp [placeOrderedTailIds]
  | cons id tail =>
    unfold placeOrderedTailIds
    rw [hnew id List.mem_cons_self, if_pos rfl]
    dsimp only
    have hrest : ∀ other ∈ tail, unordered other = true :=
      fun other hmem => hnew other (List.mem_cons_of_mem _ hmem)
    rw [locateLaterTailId_new order tail hrest]
    dsimp only
    have hend : order.insertIdx order.length id = order ++ [id] := by
      rw [← insertIdx_append order [] id, List.append_nil]
    have hnone : ∀ other ∈ tail, unordered other = true ↔ other ∉ ([] : List String) :=
      fun other hmem => ⟨fun _ => List.not_mem_nil, fun _ => hrest other hmem⟩
    have hplaced := placeOrderedTailIds_anchored tail order [] [] id hnone (List.nil_sublist _)
      (List.nodup_cons.mp htail).2 (fun _ _ => List.not_mem_nil)
    simp only [List.append_nil] at hplaced
    rw [hend, hplaced]

theorem placeOrderedTailIds_shared (above within below tail : List String) (hne : within ≠ [])
    (hnew : ∀ id ∈ tail, unordered id = true ↔ id ∉ within) (hwithin : within.Sublist tail)
    (htail : tail.Nodup) (hbelow : ∀ id ∈ tail, id ∉ below) :
    placeOrderedTailIds unordered (above ++ within ++ below) none tail = above ++ tail ++ below := by
  rw [List.append_assoc, List.append_assoc]
  cases tail with
  | nil => exact absurd (List.sublist_nil.mp hwithin) hne
  | cons id tail =>
    have hfresh := (List.nodup_cons.mp htail).1
    have hbelow' : ∀ other ∈ tail, other ∉ below :=
      fun other hmem => hbelow other (List.mem_cons_of_mem _ hmem)
    rcases List.sublist_cons_iff.mp hwithin with hlater | ⟨rest, rfl, hrest⟩
    · have hout : id ∉ within := fun hmem => hfresh (hlater.subset hmem)
      obtain ⟨first, more, rfl⟩ := List.exists_cons_of_ne_nil hne
      unfold placeOrderedTailIds
      rw [(hnew id List.mem_cons_self).mpr hout, if_pos rfl]
      dsimp only
      have hnew' : ∀ other ∈ tail, unordered other = true ↔ other ∉ first :: more :=
        fun other hmem => hnew other (List.mem_cons_of_mem _ hmem)
      rw [List.cons_append, locateLaterTailId_held above below tail hnew' hlater
        (List.nodup_cons.mp htail).2 (hbelow' first (hlater.subset List.mem_cons_self))]
      dsimp only
      have hle : min above.length (above ++ first :: (more ++ below)).length = above.length := by
        simp
      rw [hle, insertIdx_append]
      exact placeOrderedTailIds_anchored tail above (first :: more) below id hnew' hlater
        (List.nodup_cons.mp htail).2 hbelow'
    · have hheld : unordered id = false := by
        rw [← Bool.not_eq_true, hnew id List.mem_cons_self]
        simp
      have hafter : id ∉ rest ++ below := by
        rw [List.mem_append, not_or]
        exact ⟨fun hmem => hfresh (hrest.subset hmem), hbelow id List.mem_cons_self⟩
      rw [List.cons_append, placeOrderedTailIds_held hheld hafter]
      refine placeOrderedTailIds_anchored tail above rest below id ?_ hrest
        (List.nodup_cons.mp htail).2 hbelow'
      intro other hmem
      rw [hnew other (List.mem_cons_of_mem _ hmem), List.mem_cons, not_or]
      constructor
      · exact fun h => h.2
      · intro h
        exact ⟨fun heq => hfresh (heq ▸ hmem), h⟩

theorem mergeTailPageOrder_apart {order page : List String} (horder : order.Nodup)
    (hpage : page.Nodup) (hsolid : "" ∉ page ++ order) (hapart : ∀ id ∈ order, id ∉ page) :
    mergeTailPageOrder order page = page ++ order := by
  unfold mergeTailPageOrder
  have habove : order.takeWhile (· ∉ page) = order := by
    rw [List.takeWhile_eq_self_iff]
    intro id hmem
    simpa using hapart id hmem
  have hrest : order.dropWhile (· ∉ page) = [] := by
    rw [List.dropWhile_eq_nil_iff]
    intro id hmem
    simpa using hapart id hmem
  have hnodup : (page ++ order).Nodup := by
    rw [List.nodup_append]
    refine ⟨hpage, horder, ?_⟩
    rintro id hid other hother rfl
    exact hapart id hother hid
  dsimp only
  rw [habove, hrest, if_pos rfl, uniqueItemIds_self hnodup hsolid]
  split_ifs with hempty
  · rw [hempty, List.append_nil] at hnodup hsolid ⊢
    exact uniqueItemIds_self hnodup hsolid
  · rfl

theorem mergeTailPageOrder_shared {above within below page : List String} (hne : within ≠ [])
    (hwithin : within ⊆ page) (habove : ∀ id ∈ above, id ∉ page)
    (hbelow : ∀ id ∈ below, id ∉ page) (hnodup : (above ++ page ++ below).Nodup)
    (hsolid : "" ∉ above ++ page ++ below) :
    mergeTailPageOrder (above ++ within ++ below) page = above ++ page ++ below := by
  unfold mergeTailPageOrder
  obtain ⟨first, rest, rfl⟩ := List.exists_cons_of_ne_nil hne
  have hfirst : first ∈ page := hwithin List.mem_cons_self
  have hcond : ∀ id ∈ above, decide (id ∉ page) = true := by
    intro id hmem
    simpa using habove id hmem
  have htake : (above ++ first :: rest ++ below).takeWhile (· ∉ page) = above := by
    rw [List.append_assoc, List.takeWhile_append_of_pos hcond, List.cons_append,
      List.takeWhile_cons_of_neg (by simpa using hfirst), List.append_nil]
  have hdrop : (above ++ first :: rest ++ below).dropWhile (· ∉ page) = first :: rest ++ below := by
    rw [List.append_assoc, List.dropWhile_append_of_pos hcond, List.cons_append,
      List.dropWhile_cons_of_neg (by simpa using hfirst)]
  have hfilter : (first :: rest ++ below).filter (· ∉ page) = below := by
    rw [List.filter_append]
    have hnone : (first :: rest).filter (· ∉ page) = [] := by
      rw [List.filter_eq_nil_iff]
      intro id hmem
      simpa using hwithin hmem
    have hall : below.filter (· ∉ page) = below := by
      rw [List.filter_eq_self]
      intro id hmem
      simpa using hbelow id hmem
    rw [hnone, hall, List.nil_append]
  dsimp only
  rw [htake, hdrop, hfilter, if_neg (by simp), if_neg (by simp)]
  exact uniqueItemIds_self hnodup hsolid

end placing

/-- A tail of the relay's transcript as it was when the relay answered; the transcript grows
into `S`. -/
def TailOf (S tail : List String) : Prop := ∃ seen, seen <+: S ∧ tail <:+ seen

/-- What the relay sends about the thread with the transcript `S`: live deltas, snapshot tails
and tail pages. -/
def FromRelay (S : List String) : WindowOp → Prop
  | .delta d => ∀ itemId, truthy d.itemId = some itemId → itemId ∈ S
  | .snapshotTail snapshot _ | .hydratedSnapshot snapshot =>
    TailOf S ((addressable snapshot.transcript).map (·.1))
  | .page _ page prepend => prepend = false ∧ TailOf S ((addressable page.entries).map (·.1))

namespace Window

def Opens (w : Window) (d : Delta) (itemId : String) : Prop :=
  truthy d.itemId = some itemId ∧ itemId ∉ w.order ∧
    ∃ threadId, truthy w.threadId = some threadId ∧
      (truthy d.threadId).getD threadId = threadId

/-- The place the window gives by default is the relay's: the item of a first delta comes after
all the window holds, so does a snapshot's tail the window knows no id of, and all the window
holds comes after a page it knows no id of. -/
def InPlace (S : List String) (w : Window) : WindowOp → Prop
  | .delta d => ∀ itemId, w.Opens d itemId → ∀ id ∈ w.order, Before S id itemId
  | .snapshotTail snapshot _ | .hydratedSnapshot snapshot =>
    let tail := (addressable snapshot.transcript).map (·.1)
    (∃ id ∈ w.order, id ∈ tail) ∨ ∀ id ∈ w.order, ∀ other ∈ tail, Before S id other
  | .page _ page _ =>
    let ids := (addressable page.entries).map (·.1)
    (∃ id ∈ w.order, id ∈ ids) ∨ ∀ id ∈ w.order, ∀ other ∈ ids, Before S other id

def Follows (S : List String) (w : Window) : Prop := w.order.Sublist S

end Window

section follows
variable {S order tail : List String}

/-- The order is apart from the tail, or it splits at it: what it holds of the transcript before
the tail, of the tail, and of the transcript after it. -/
theorem TailOf.parts (hS : S.Nodup) (htail : TailOf S tail) (horder : order.Sublist S) :
    (∀ id ∈ order, id ∉ tail) ∨
    (∃ id ∈ order, id ∈ tail) ∧ ∃ above within below, order = above ++ within ++ below ∧
      within ≠ [] ∧ within.Sublist tail ∧ (above ++ tail ++ below).Sublist S ∧
      (∀ id ∈ above, id ∉ tail) ∧ ∀ id ∈ below, id ∉ tail := by
  obtain ⟨seen, ⟨later, rfl⟩, ⟨earlier, rfl⟩⟩ := htail
  obtain ⟨above, within, below, rfl, habove, hwithin, hbelow⟩ := sublist_parts horder
  obtain ⟨hseen, -, hlater⟩ := List.nodup_append.mp hS
  obtain ⟨-, -, hearlier⟩ := List.nodup_append.mp hseen
  have hout : ∀ id ∈ above, id ∉ tail := fun id hid hmem =>
    hearlier id (habove.subset hid) id hmem rfl
  have hout' : ∀ id ∈ below, id ∉ tail := fun id hid hmem =>
    hlater id (List.mem_append_right _ hmem) id (hbelow.subset hid) rfl
  by_cases hnone : within = []
  · subst hnone
    refine Or.inl fun id hmem => ?_
    rw [List.append_nil, List.mem_append] at hmem
    exact hmem.elim (hout id) (hout' id)
  · obtain ⟨first, hfirst⟩ := List.exists_mem_of_ne_nil within hnone
    exact Or.inr ⟨⟨first, by simp [hfirst], hwithin.subset hfirst⟩, above, within, below, rfl, hnone,
      hwithin, (habove.append (List.Sublist.refl tail)).append hbelow, hout, hout'⟩

theorem TailOf.sublist (htail : TailOf S tail) : tail.Sublist S := by
  obtain ⟨seen, hseen, hsuffix⟩ := htail
  exact hsuffix.sublist.trans hseen.sublist

theorem Synced.placed_follows {entries : Table Entry} (h : Synced entries order) (hS : S.Nodup)
    (horder : order.Sublist S) (htail : TailOf S tail) :
    (placeOrderedTailIds (fun id => !entries.contains id) order none tail).Sublist S ↔
      (∃ id ∈ order, id ∈ tail) ∨ ∀ id ∈ order, ∀ other ∈ tail, Before S id other := by
  have hnodup : tail.Nodup := htail.sublist.nodup hS
  have hnew : ∀ id, (!entries.contains id) = true ↔ id ∉ order := by
    intro id
    rw [h.keys, Bool.not_eq_true', Bool.not_eq_true]
  obtain hapart | ⟨hshared, above, within, below, rfl, hsome, hwithin, hmerged, habove, hbelow⟩ :=
    htail.parts hS horder
  · have hall : ∀ id ∈ tail, (!entries.contains id) = true := by
      intro id hmem
      rw [hnew]
      exact fun hold => hapart id hold hmem
    rw [placeOrderedTailIds_apart _ tail hnodup hall,
      append_sublist_iff_before hS horder htail.sublist]
    constructor
    · exact Or.inr
    · rintro (⟨id, hid, hmem⟩ | hbefore)
      · exact absurd hmem (hapart id hid)
      · exact hbefore
  · have hheld : ∀ id ∈ tail, (!entries.contains id) = true ↔ id ∉ within := by
      intro id hmem
      rw [hnew, List.mem_append, List.mem_append, not_or, not_or]
      constructor
      · exact fun hout => hout.1.2
      · intro hout
        exact ⟨⟨fun hold => habove id hold hmem, hout⟩, fun hold => hbelow id hold hmem⟩
    rw [placeOrderedTailIds_shared above within below tail hsome hheld hwithin hnodup
      fun id hmem hold => hbelow id hold hmem]
    exact ⟨fun _ => Or.inl hshared, fun _ => hmerged⟩

theorem mergeTailPageOrder_follows (hS : S.Nodup) (hsolid : "" ∉ S) (horder : order.Sublist S)
    (htail : TailOf S tail) :
    (mergeTailPageOrder order tail).Sublist S ↔
      (∃ id ∈ order, id ∈ tail) ∨ ∀ id ∈ order, ∀ other ∈ tail, Before S other id := by
  have hnodup : tail.Nodup := htail.sublist.nodup hS
  obtain hapart | ⟨hshared, above, within, below, rfl, hsome, hwithin, hmerged, habove, hbelow⟩ :=
    htail.parts hS horder
  · have hempty : "" ∉ tail ++ order := by
      rw [List.mem_append, not_or]
      exact ⟨fun hmem => hsolid (htail.sublist.subset hmem),
        fun hmem => hsolid (horder.subset hmem)⟩
    rw [mergeTailPageOrder_apart (horder.nodup hS) hnodup hempty hapart,
      append_sublist_iff_before hS htail.sublist horder]
    constructor
    · intro hbefore
      exact Or.inr fun id hid other hother => hbefore other hother id hid
    · rintro (⟨id, hid, hmem⟩ | hbefore)
      · exact absurd hmem (hapart id hid)
      · exact fun other hother id hid => hbefore id hid other hother
  · rw [mergeTailPageOrder_shared hsome hwithin.subset habove hbelow (hmerged.nodup hS)
      fun hmem => hsolid (hmerged.subset hmem)]
    exact ⟨fun _ => Or.inl hshared, fun _ => hmerged⟩

end follows

namespace Window
variable {S : List String} {w : Window}

theorem Synced.hydratedSnapshot_order (h : w.Synced) {snapshot : Snapshot}
    (hdistinct : DistinctIds snapshot.transcript) :
    (w.buildHydratedTranscriptSnapshot snapshot).1.order =
      placeOrderedTailIds (fun id => !w.entries.contains id) w.order none
        ((addressable snapshot.transcript).map (·.1)) := by
  have hempty : Keyed ∅ := by
    intro id entry hget
    simp at hget
  obtain ⟨-, hoverlayIds⟩ := foldl_insert (·.1) (fun _ e =>
    mergeTranscriptEntry w.entries[e.1]? (prepareSnapshotOverlayEntry e.1 e.2))
    (addressable snapshot.transcript) (by
      intro m e _
      rw [mergeTranscriptEntry_itemId, prepareSnapshotOverlayEntry_itemId]) hempty
  obtain ⟨-, hmem⟩ := h.placed hdistinct
  unfold buildHydratedTranscriptSnapshot
  dsimp only
  generalize (addressable snapshot.transcript).foldl (fun overlay e => overlay.insert e.1
    (mergeTranscriptEntry w.entries[e.1]? (prepareSnapshotOverlayEntry e.1 e.2)))
    (∅ : Table Entry) = overlay at hoverlayIds ⊢
  generalize placeOrderedTailIds (fun id => !w.entries.contains id) w.order none
    ((addressable snapshot.transcript).map (·.1)) = placed at hmem ⊢
  split_ifs with hnothing
  · have hnone : placed = [] := by
      rw [List.eq_nil_iff_forall_not_mem]
      intro id hid
      have hhidden := List.filterMap_eq_nil_iff.mp hnothing id hid
      rw [Option.or_eq_none_iff] at hhidden
      rcases (hmem id).mp hid with hold | htail
      · have hheld := (h.keys id).mp hold
        rw [ExtTreeMap.contains_eq_isSome_getElem?, hhidden.2] at hheld
        cases hheld
      · have hheld := (hoverlayIds id).mpr (Or.inr htail)
        rw [ExtTreeMap.contains_eq_isSome_getElem?, hhidden.1] at hheld
        cases hheld
    have hall : w.order = [] := by
      rw [List.eq_nil_iff_forall_not_mem]
      intro id hid
      have hplaced := (hmem id).mpr (Or.inl hid)
      rw [hnone] at hplaced
      cases hplaced
    rw [hnone, hall]
  · rfl

theorem deliver_order_of_opens {d : Delta} {itemId : String} (h : w.Synced)
    (hopens : w.Opens d itemId) : (w.deliver d).order = w.order ++ [itemId] := by
  obtain ⟨hitem, hnew, threadId, hthread, hsame⟩ := hopens
  have hget : w.entries[itemId]? = none := by
    rw [h.keys, ExtTreeMap.contains_eq_isSome_getElem?] at hnew
    simpa using hnew
  unfold deliver applyTranscriptDeltaToWindow
  rw [hitem, hthread]
  dsimp only
  rw [if_neg (not_not.mpr hsame), hget]

theorem deliver_order_of_not_opens {d : Delta} (h : w.Synced)
    (hopens : ∀ itemId, ¬ w.Opens d itemId) : (w.deliver d).order = w.order := by
  unfold deliver applyTranscriptDeltaToWindow
  split
  · rename_i itemId threadId hitem hthread
    split_ifs with hother
    · rfl
    · split
      · rfl
      · rename_i hget
        rw [not_not] at hother
        have hnew : itemId ∉ w.order := by
          rw [h.keys, ExtTreeMap.contains_eq_isSome_getElem?, hget]
          simp
        exact absurd ⟨hitem, hnew, threadId, hthread, hother⟩ (hopens itemId)
  · rfl

theorem FromRelay.distinct {op : WindowOp} (hS : S.Nodup) (h : FromRelay S op) :
    (StoreOp.window op).Distinct := by
  cases op with
  | snapshotTail snapshot signature => exact h.sublist.nodup hS
  | hydratedSnapshot snapshot => exact h.sublist.nodup hS
  | page now page prepend => exact h.2.sublist.nodup hS
  | delta d => trivial

/-- One merge keeps the window in the relay's order exactly if it puts in its place what it
merges. -/
theorem Synced.follows_step (h : w.Synced) (hS : S.Nodup) (hsolid : "" ∉ S) (hw : w.Follows S)
    {op : WindowOp} (hop : FromRelay S op) : (w.step op).Follows S ↔ InPlace S w op := by
  have hdistinct := FromRelay.distinct hS hop
  cases op with
  | snapshotTail snapshot signature => exact h.placed_follows hS hw hop
  | hydratedSnapshot snapshot =>
    unfold Follows Window.step
    dsimp only
    rw [h.hydratedSnapshot_order hdistinct]
    exact h.placed_follows hS hw hop
  | page now page prepend =>
    obtain ⟨rfl, htail⟩ := hop
    exact mergeTailPageOrder_follows hS hsolid hw htail
  | delta d =>
    unfold Follows InPlace Window.step
    dsimp only
    by_cases hopens : ∃ itemId, w.Opens d itemId
    · obtain ⟨itemId, hopens⟩ := hopens
      have hmem : itemId ∈ S := hop itemId hopens.1
      rw [deliver_order_of_opens h hopens,
        append_sublist_iff_before hS hw (List.singleton_sublist.mpr hmem)]
      constructor
      · intro hbefore other hother id hid
        obtain rfl := Option.some.inj (hopens.1.symm.trans hother.1)
        exact hbefore id hid itemId List.mem_cons_self
      · intro hplace id hid other hother
        obtain rfl := List.mem_singleton.mp hother
        exact hplace other hopens id hid
    · have hnone := not_exists.mp hopens
      rw [deliver_order_of_not_opens h hnone]
      exact ⟨fun _ itemId hthis => absurd hthis (hnone itemId), fun _ => hw⟩

end Window

/-- Of all interleavings of deltas, snapshot tails and tail pages, exactly those keep the window
in the relay's order in which every merge finds its default place to be the right one. -/
theorem window_follows_iff (S : List String) (hS : S.Nodup) (hsolid : "" ∉ S)
    (threadId : Option String) (ops : List WindowOp) (hops : ∀ op ∈ ops, FromRelay S op) :
    Always Window.step (Window.Follows S) { threadId := threadId } ops ↔
      Along Window.step (Window.InPlace S) { threadId := threadId } ops := by
  have hstep : ∀ (w : Window) op, w.Synced → FromRelay S op → (w.step op).Synced :=
    fun _ _ h hop => h.step (Window.FromRelay.distinct hS hop)
  have hkeeps : ∀ (w : Window) op, w.Synced → FromRelay S op → w.Follows S →
      ((w.step op).Follows S ↔ w.InPlace S op) :=
    fun _ _ h hop hw => h.follows_step hS hsolid hw hop
  exact always_iff_along hstep hkeeps (Window.synced_cleared threadId) (List.nil_sublist S) hops

namespace Turn

def message : WireEntry :=
  { itemId := some "u", kind := "user_text", text := none, status := "completed" }

def reply : WireEntry :=
  { itemId := some "a", kind := "agent_text", text := none, status := "running" }

/-- The reply's first words. -/
def spoken : WindowOp :=
  .delta { threadId := some "t", itemId := some "a", delta := [], textOffset := none }

def shown (entries : List WireEntry) : WindowOp :=
  .snapshotTail { activeThreadId := some "t", transcript := entries } "s"

theorem fromRelay_spoken : FromRelay ["u", "a"] spoken := by
  intro itemId hitem
  obtain ⟨rfl, -⟩ : "a" = itemId ∧ ¬ itemId = "" := by simpa [truthy] using hitem
  decide

/-- A reply streams in before the snapshot that lists it under its message. -/
theorem window_follows_iff_turn :
    Always Window.step (Window.Follows ["u", "a"]) { threadId := some "t" }
      [spoken, shown [message, reply]] := by
  have hops : ∀ op ∈ [spoken, shown [message, reply]], FromRelay ["u", "a"] op := by
    intro op hmem
    rcases List.mem_cons.mp hmem with rfl | hmem
    · exact fromRelay_spoken
    · obtain rfl := List.mem_singleton.mp hmem
      exact ⟨["u", "a"], List.prefix_rfl, List.suffix_rfl⟩
  rw [window_follows_iff ["u", "a"] (by decide) (by decide) (some "t") _ hops]
  refine ⟨?_, ?_, trivial⟩
  · intro itemId _ id hid
    cases hid
  · exact Or.inl ⟨"a", by decide +kernel, by decide⟩

/-- A snapshot from before the reply, merged after the reply's first words, knows no id of the
window, so the message lands below the reply. -/
theorem reply_above_message :
    let ops := [spoken, shown [message]]
    (∀ op ∈ ops, FromRelay ["u", "a"] op) ∧
      (run Window.step { threadId := some "t" } ops).order = ["a", "u"] ∧
      ¬ Always Window.step (Window.Follows ["u", "a"]) { threadId := some "t" } ops := by
  have horder : (run Window.step { threadId := some "t" } [spoken, shown [message]]).order =
      ["a", "u"] := by decide +kernel
  refine ⟨?_, horder, ?_⟩
  · intro op hmem
    rcases List.mem_cons.mp hmem with rfl | hmem
    · exact fromRelay_spoken
    · obtain rfl := List.mem_singleton.mp hmem
      exact ⟨["u"], ⟨["a"], rfl⟩, List.suffix_rfl⟩
  · intro halways
    have hlast := halways.last
    unfold Window.Follows at hlast
    rw [horder] at hlast
    revert hlast
    decide

end Turn

end AgentRelay.Hydration
