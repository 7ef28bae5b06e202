import AgentRelay.WindowOrder

/-! Splicing a tail page into the order of the window: the page's ids stand together in their own
order, what stood before the first id both share stays above them, the rest below. An empty id
names no item and is left out. -/
namespace AgentRelay.Hydration

def firstOccurrences {α : Type*} [DecidableEq α] : List α → List α
  | [] => []
  | a :: rest => a :: (firstOccurrences rest).filter (· ≠ a)

section firstOccurrences

variable {α : Type*} [DecidableEq α]

theorem mem_firstOccurrences {l : List α} {a : α} : a ∈ firstOccurrences l ↔ a ∈ l := by
  induction l with
  | nil => simp [firstOccurrences]
  | cons b rest ih =>
    rw [firstOccurrences, List.mem_cons, List.mem_cons, List.mem_filter, ih]
    by_cases hab : a = b <;> simp [hab]

theorem firstOccurrences_append (xs ys : List α) :
    firstOccurrences (xs ++ ys) =
      firstOccurrences xs ++ (firstOccurrences ys).filter (· ∉ xs) := by
  induction xs with
  | nil => simp [firstOccurrences]
  | cons x xs ih =>
    rw [List.cons_append, firstOccurrences, ih, firstOccurrences, List.filter_append,
      List.cons_append, List.filter_filter]
    congr 2
    apply List.filter_congr
    intro y _
    simp [List.mem_cons, not_or]

theorem firstOccurrences_self {l : List α} (h : l.Nodup) : firstOccurrences l = l := by
  induction l with
  | nil => rfl
  | cons a rest ih =>
    rw [List.nodup_cons] at h
    rw [firstOccurrences, ih h.2]
    congr 1
    rw [List.filter_eq_self]
    intro b hb
    have hne : b ≠ a := fun hba => h.1 (hba ▸ hb)
    simpa using hne

end firstOccurrences

def items (ids : List String) : List String := ids.filter (· ≠ "")

theorem mem_items {ids : List String} {id : String} : id ∈ items ids ↔ id ∈ ids ∧ id ≠ "" := by
  simp [items]

theorem items_append (xs ys : List String) : items (xs ++ ys) = items xs ++ items ys :=
  List.filter_append ..

theorem items_self {ids : List String} (hsolid : "" ∉ ids) : items ids = ids := by
  unfold items
  rw [List.filter_eq_self]
  intro id hid
  have hne : id ≠ "" := fun hempty => hsolid (hempty ▸ hid)
  simpa using hne

theorem uniqueItemIds_from (ids unique : List String) :
    ids.foldl (fun unique id => if id = "" ∨ id ∈ unique then unique else unique ++ [id]) unique =
      unique ++ (firstOccurrences (items ids)).filter (· ∉ unique) := by
  induction ids generalizing unique with
  | nil => simp [items, firstOccurrences]
  | cons id ids ih =>
    rw [List.foldl_cons, ih]
    by_cases hempty : id = ""
    · have hitems : items (id :: ids) = items ids := by simp [items, hempty]
      rw [if_pos (Or.inl hempty), hitems]
    · have hitems : items (id :: ids) = id :: items ids := by simp [items, hempty]
      rw [hitems, firstOccurrences, List.filter_cons, List.filter_filter]
      by_cases hmem : id ∈ unique
      · rw [if_pos (Or.inr hmem), if_neg (by simpa using hmem)]
        congr 1
        apply List.filter_congr
        intro other _
        by_cases hother : other = id <;> simp [hother, hmem]
      · rw [if_neg (not_or.mpr ⟨hempty, hmem⟩), if_pos (by simpa using hmem), List.append_assoc,
          List.singleton_append]
        congr 2
        apply List.filter_congr
        intro other _
        simp [List.mem_append, not_or]

theorem uniqueItemIds_eq (ids : List String) :
    uniqueItemIds ids = firstOccurrences (items ids) := by
  have hfrom := uniqueItemIds_from ids []
  rw [List.nil_append] at hfrom
  unfold uniqueItemIds
  rw [hfrom, List.filter_eq_self]
  simp

def aboveTail (order page : List String) : List String :=
  if ∃ id ∈ order, id ∈ page then items (order.takeWhile (· ∉ page)) else []

def belowTail (order page : List String) : List String :=
  if ∃ id ∈ order, id ∈ page then items ((order.dropWhile (· ∉ page)).filter (· ∉ page))
  else items order

section splice

variable {order page : List String}

theorem not_mem_of_takeWhile {id : String} (h : id ∈ order.takeWhile (· ∉ page)) : id ∉ page := by
  simpa using List.mem_takeWhile_imp h

theorem takeWhile_of_apart (h : ¬ ∃ id ∈ order, id ∈ page) : order.takeWhile (· ∉ page) = order := by
  rw [List.takeWhile_eq_self_iff]
  intro id hid
  have hapart : id ∉ page := fun hpage => h ⟨id, hid, hpage⟩
  simpa using hapart

theorem firstOccurrences_three {above page below : List String} (habove : above.Nodup)
    (hbelow : below.Nodup) (hpage : ∀ id ∈ page, id ∉ above)
    (hlast : ∀ id ∈ below, id ∉ above ∧ id ∉ page) :
    firstOccurrences (above ++ page ++ below) = above ++ firstOccurrences page ++ below := by
  rw [firstOccurrences_append, firstOccurrences_append, firstOccurrences_self habove,
    firstOccurrences_self hbelow]
  congr 1
  · congr 1
    rw [List.filter_eq_self]
    intro id hid
    simpa using hpage id (mem_firstOccurrences.mp hid)
  · rw [List.filter_eq_self]
    intro id hid
    simpa using hlast id hid

theorem mergeTailPageOrder_eq (horder : order.Nodup) :
    mergeTailPageOrder order page =
      aboveTail order page ++ firstOccurrences (items page) ++ belowTail order page := by
  unfold mergeTailPageOrder aboveTail belowTail
  have hsplit := List.takeWhile_append_dropWhile (p := (· ∉ page)) (l := order)
  by_cases hnil : order = []
  · rw [if_pos hnil, uniqueItemIds_eq, hnil]
    simp [items]
  · rw [if_neg hnil]
    dsimp only
    by_cases hshared : ∃ id ∈ order, id ∈ page
    · have hrest : order.dropWhile (· ∉ page) ≠ [] := by
        intro hempty
        obtain ⟨id, hid, hpage⟩ := hshared
        rw [hempty, List.append_nil] at hsplit
        rw [← hsplit] at hid
        exact not_mem_of_takeWhile hid hpage
      rw [if_neg hrest, if_pos hshared, if_pos hshared, uniqueItemIds_eq, items_append,
        items_append]
      have hnodup : (order.takeWhile (· ∉ page) ++ order.dropWhile (· ∉ page)).Nodup := by
        rw [hsplit]
        exact horder
      rw [List.nodup_append] at hnodup
      apply firstOccurrences_three
      · exact hnodup.1.filter _
      · exact (hnodup.2.1.filter _).filter _
      · intro id hid habove
        exact not_mem_of_takeWhile (mem_items.mp habove).1 (mem_items.mp hid).1
      · intro id hid
        obtain ⟨hmem, -⟩ := mem_items.mp hid
        rw [List.mem_filter] at hmem
        constructor
        · intro habove
          exact hnodup.2.2 id (mem_items.mp habove).1 id hmem.1 rfl
        · intro hpage
          simpa [(mem_items.mp hpage).1] using hmem.2
    · have hall := takeWhile_of_apart hshared
      rw [hall] at hsplit
      have hrest : order.dropWhile (· ∉ page) = [] := List.append_right_eq_self.mp hsplit
      rw [if_pos hrest, if_neg hshared, if_neg hshared, hall, uniqueItemIds_eq, items_append]
      have hthree : firstOccurrences ([] ++ items page ++ items order) =
          [] ++ firstOccurrences (items page) ++ items order := by
        refine firstOccurrences_three List.nodup_nil (horder.filter _) (by simp) ?_
        intro id hid
        refine ⟨by simp, ?_⟩
        intro hpage
        exact hshared ⟨id, (mem_items.mp hid).1, (mem_items.mp hpage).1⟩
      simpa using hthree

theorem above_append_below (order page : List String) :
    aboveTail order page ++ belowTail order page = (items order).filter (· ∉ page) := by
  unfold aboveTail belowTail
  have hsplit := List.takeWhile_append_dropWhile (p := (· ∉ page)) (l := order)
  split_ifs with hshared
  · have habove : items (order.takeWhile (· ∉ page)) =
        (items (order.takeWhile (· ∉ page))).filter (· ∉ page) := by
      symm
      rw [List.filter_eq_self]
      intro id hid
      simpa using not_mem_of_takeWhile (mem_items.mp hid).1
    have hbelow : items ((order.dropWhile (· ∉ page)).filter (· ∉ page)) =
        (items (order.dropWhile (· ∉ page))).filter (· ∉ page) := List.filter_comm ..
    rw [habove, hbelow, ← List.filter_append, ← items_append, hsplit]
  · rw [List.nil_append]
    symm
    rw [List.filter_eq_self]
    intro id hid
    have hapart : id ∉ page := fun hpage => hshared ⟨id, (mem_items.mp hid).1, hpage⟩
    simpa using hapart

theorem not_mem_of_above {id : String} (h : id ∈ aboveTail order page) : id ∉ page ∧ id ≠ "" := by
  have hmem : id ∈ (items order).filter (· ∉ page) := by
    rw [← above_append_below]
    exact List.mem_append_left _ h
  rw [List.mem_filter, mem_items] at hmem
  exact ⟨by simpa using hmem.2, hmem.1.2⟩

theorem not_mem_of_below {id : String} (h : id ∈ belowTail order page) : id ∉ page ∧ id ≠ "" := by
  have hmem : id ∈ (items order).filter (· ∉ page) := by
    rw [← above_append_below]
    exact List.mem_append_right _ h
  rw [List.mem_filter, mem_items] at hmem
  exact ⟨by simpa using hmem.2, hmem.1.2⟩

/-- The page once more: nothing above it, in it or below it moves. -/
theorem mergeTailPageOrder_again (horder : order.Nodup) :
    mergeTailPageOrder (mergeTailPageOrder order page) page = mergeTailPageOrder order page := by
  have hmerged := mergeTailPageOrder_nodup order page
  have hsolid : "" ∉ mergeTailPageOrder order page := by
    intro hmem
    exact (mem_mergeTailPageOrder.mp hmem).2 rfl
  rw [mergeTailPageOrder_eq hmerged]
  generalize hm : mergeTailPageOrder order page = merged at hmerged hsolid
  rw [mergeTailPageOrder_eq horder] at hm
  by_cases hpage : items page = []
  · have hapart : ¬ ∃ id ∈ merged, id ∈ page := by
      rintro ⟨id, hid, hin⟩
      have hmem : id ∈ items page := mem_items.mpr ⟨hin, fun hempty => hsolid (hempty ▸ hid)⟩
      rw [hpage] at hmem
      cases hmem
    unfold aboveTail belowTail
    rw [if_neg hapart, if_neg hapart, hpage, items_self hsolid]
    rfl
  · obtain ⟨first, rest, hfirst⟩ := List.exists_cons_of_ne_nil hpage
    have hin : first ∈ page := by
      have hmem : first ∈ items page := by
        rw [hfirst]
        exact List.mem_cons_self
      exact (mem_items.mp hmem).1
    have hcons : firstOccurrences (items page) =
        first :: (firstOccurrences rest).filter (· ≠ first) := by
      rw [hfirst, firstOccurrences]
    have hshared : ∃ id ∈ merged, id ∈ page := by
      refine ⟨first, ?_, hin⟩
      rw [← hm, hcons]
      simp
    have htake : merged.takeWhile (· ∉ page) = aboveTail order page := by
      rw [← hm, hcons, List.append_assoc, List.takeWhile_append_of_pos]
      · simp [hin]
      · intro id hid
        simpa using (not_mem_of_above hid).1
    have hdrop : merged.dropWhile (· ∉ page) =
        firstOccurrences (items page) ++ belowTail order page := by
      rw [← hm, hcons, List.append_assoc, List.dropWhile_append_of_pos]
      · simp [hin]
      · intro id hid
        simpa using (not_mem_of_above hid).1
    have hbelow : (merged.dropWhile (· ∉ page)).filter (· ∉ page) = belowTail order page := by
      have hnone : (firstOccurrences (items page)).filter (· ∉ page) = [] := by
        rw [List.filter_eq_nil_iff]
        intro id hid
        simpa using (mem_items.mp (mem_firstOccurrences.mp hid)).1
      have hself : (belowTail order page).filter (· ∉ page) = belowTail order page := by
        rw [List.filter_eq_self]
        intro id hid
        simpa using (not_mem_of_below hid).1
      rw [hdrop, List.filter_append, hnone, hself, List.nil_append]
    have habove : aboveTail merged page = aboveTail order page := by
      conv_lhs => unfold aboveTail
      rw [if_pos hshared, htake]
      apply items_self
      intro hmem
      exact (not_mem_of_above hmem).2 rfl
    have hlast : belowTail merged page = belowTail order page := by
      conv_lhs => unfold belowTail
      rw [if_pos hshared, hbelow]
      apply items_self
      intro hmem
      exact (not_mem_of_below hmem).2 rfl
    rw [habove, hlast, hm]

end splice

structure Spliced (order page merged : List String) : Prop where
  nodup : merged.Nodup
  union : ∀ id, id ∈ merged ↔ (id ∈ order ∨ id ∈ page) ∧ id ≠ ""
  placed : merged = aboveTail order page ++ firstOccurrences (items page) ++ belowTail order page
  others : aboveTail order page ++ belowTail order page = (items order).filter (· ∉ page)
  again : mergeTailPageOrder merged page = merged

/-- A tail page is spliced into an order without duplicates. -/
theorem tail_page_spliced (order page : List String) (horder : order.Nodup) :
    Spliced order page (mergeTailPageOrder order page) where
  nodup := mergeTailPageOrder_nodup order page
  union _ := mem_mergeTailPageOrder
  placed := mergeTailPageOrder_eq horder
  others := above_append_below order page
  again := mergeTailPageOrder_again horder

theorem tail_page_spliced_interleaved : Spliced ["x", "b", "y", "a", "z"] ["a", "b", "a", "c"]
    (mergeTailPageOrder ["x", "b", "y", "a", "z"] ["a", "b", "a", "c"]) :=
  tail_page_spliced _ _ (by decide)

end AgentRelay.Hydration
