import AgentRelay.PathScope
import AgentRelay.FilePaths

/-! Paths as texts, compared without a look at the file system. A path is collapsed component by
component; what an allowed root contains, and which of the enumerated roots is nearest, is decided
on components. -/
namespace AgentRelay.Relay
open Text

def pathFileName (components : List String) : Option String :=
  components.getLast?.filter fun part => part ≠ "/" ∧ part ≠ "." ∧ part ≠ ".."

def collapseComponent (acc : List String × Bool) (component : String) : List String × Bool :=
  if component = "/" then (["/"], true)
  else if component = "." then acc
  else if component = ".." then
    let lastIsParent := acc.1.getLast? = some ".."
    if (pathFileName acc.1).isSome ∧ ¬lastIsParent then (acc.1.dropLast, acc.2)
    else if ¬acc.2 then (acc.1 ++ [".."], acc.2)
    else acc
  else (acc.1 ++ [component], acc.2)

def collapseComponents (components : List String) : List String :=
  (components.foldl collapseComponent ([], false)).1

def pathOfComponents : List String → String
  | "/" :: names => FilePaths.pathText names
  | [] => ""
  | name :: names => name ++ FilePaths.slashed names

def collapseLexicalComponents (path : String) : String :=
  pathOfComponents (collapseComponents (pathComponents path))

section
variable {α : Type*} (key : α → ℕ)

/-- `Iterator::max_by_key`: of several greatest elements the last. -/
def maxByKey : List α → Option α
  | [] => none
  | x :: xs => match maxByKey xs with
    | none => some x
    | some best => if key best < key x then some x else some best

end

def nearestEnumeratedRoot (path : String) (roots : List String) : Option String :=
  if path = "" ∨ roots = [] then none
  else
    let path := collapseLexicalComponents path
    maxByKey String.utf8ByteSize
      (roots.filter fun root => pathStartsWith path (collapseLexicalComponents root))

section
variable {α : Type*} {key : α → ℕ} {xs : List α} {best : α}

theorem maxByKey_eq_none : maxByKey key xs = none ↔ xs = [] := by
  cases xs with
  | nil => exact iff_of_true rfl rfl
  | cons x xs =>
    refine iff_of_false ?_ (List.cons_ne_nil x xs)
    intro h
    rw [maxByKey] at h
    split at h
    · cases h
    · split_ifs at h

theorem maxByKey_spec (h : maxByKey key xs = some best) :
    best ∈ xs ∧ ∀ x ∈ xs, key x ≤ key best := by
  induction xs generalizing best with
  | nil => cases h
  | cons x xs ih =>
    rw [maxByKey] at h
    split at h
    · next hrest =>
      obtain rfl := Option.some.inj h
      rw [maxByKey_eq_none] at hrest
      subst hrest
      exact ⟨List.mem_singleton_self x, fun y hy => (List.mem_singleton.mp hy) ▸ Nat.le_refl _⟩
    · next rest hrest =>
      obtain ⟨hmem, hmax⟩ := ih hrest
      split_ifs at h with hgreater
      · obtain rfl := Option.some.inj h
        refine ⟨List.mem_cons_self, ?_⟩
        intro y hy
        obtain rfl | hy := List.mem_cons.mp hy
        · exact Nat.le_refl _
        · exact (hmax y hy).trans hgreater.le
      · obtain rfl := Option.some.inj h
        refine ⟨List.mem_cons_of_mem x hmem, ?_⟩
        intro y hy
        obtain rfl | hy := List.mem_cons.mp hy
        · exact Nat.not_lt.mp hgreater
        · exact hmax y hy

end

inductive IsCollapsed : List String → Prop
  | rooted (names : List String) (hnames : ∀ name ∈ names, FilePaths.Name name) :
    IsCollapsed ("/" :: names)
  | relative (ups : ℕ) (names : List String) (hnames : ∀ name ∈ names, FilePaths.Name name) :
    IsCollapsed (List.replicate ups ".." ++ names)

section components
open FilePaths
variable {names parts : List String}

theorem ne_slash_of_name {name : String} (h : Name name) : name ≠ "/" := by
  rintro rfl
  exact h.whole (by decide)

theorem ne_dot_of_name {name : String} (h : Name name) : name ≠ "." :=
  fun hdot => h.solid (.inr hdot)

theorem collapseComponent_name {name : String} (h : Name name) (acc : List String × Bool) :
    collapseComponent acc name = (acc.1 ++ [name], acc.2) := by
  rw [collapseComponent, if_neg (ne_slash_of_name h), if_neg (ne_dot_of_name h), if_neg h.down]

theorem collapseComponent_pop {name : String} (h : Name name) (before : List String)
    (hasRoot : Bool) :
    collapseComponent (before ++ [name], hasRoot) ".." = (before, hasRoot) := by
  have hname : pathFileName (before ++ [name]) = some name := by
    rw [pathFileName, List.getLast?_concat]
    simp [ne_slash_of_name h, ne_dot_of_name h, h.down]
  rw [collapseComponent, if_neg (by decide), if_neg (by decide), if_pos rfl]
  dsimp only
  rw [hname, if_pos ⟨rfl, by simpa using h.down⟩, List.dropLast_concat]

theorem collapseComponent_root : collapseComponent (["/"], true) ".." = (["/"], true) := by
  decide

theorem collapseComponent_up (ups : ℕ) :
    collapseComponent (List.replicate ups "..", false) ".." =
      (List.replicate (ups + 1) "..", false) := by
  have hname : pathFileName (List.replicate ups "..") = none := by
    rw [pathFileName, List.getLast?_replicate]
    split_ifs
    · rfl
    · rfl
  rw [collapseComponent, if_neg (by decide), if_neg (by decide), if_pos rfl]
  dsimp only
  rw [hname, if_neg (by simp), if_pos Bool.false_ne_true, List.replicate_succ']

theorem foldl_names (hnames : ∀ name ∈ names, Name name) (acc : List String × Bool) :
    names.foldl collapseComponent acc = (acc.1 ++ names, acc.2) := by
  induction names generalizing acc with
  | nil => rw [List.foldl_nil, List.append_nil]
  | cons name names ih =>
    rw [List.foldl_cons, collapseComponent_name (hnames name List.mem_cons_self),
      ih fun n hn => hnames n (List.mem_cons_of_mem name hn), List.append_assoc]
    rfl

theorem foldl_rooted (hparts : ∀ part ∈ parts, Name part ∨ part = "..")
    (hnames : ∀ name ∈ names, Name name) :
    ∃ names', parts.foldl collapseComponent ("/" :: names, true) = ("/" :: names', true) ∧
      ∀ name ∈ names', Name name := by
  induction parts generalizing names with
  | nil => exact ⟨names, rfl, hnames⟩
  | cons part parts ih =>
    have hrest := fun p hp => hparts p (List.mem_cons_of_mem part hp)
    rw [List.foldl_cons]
    obtain hname | rfl := hparts part List.mem_cons_self
    · rw [collapseComponent_name hname, List.cons_append]
      exact ih hrest (List.forall_mem_append.mpr ⟨hnames, by simpa using hname⟩)
    · obtain rfl | ⟨before, name, rfl⟩ := names.eq_nil_or_concat'
      · rw [collapseComponent_root]
        exact ih hrest hnames
      · rw [← List.cons_append, collapseComponent_pop (hnames name (by simp))]
        exact ih hrest fun n hn => hnames n (List.mem_append_left [name] hn)

theorem foldl_relative (hparts : ∀ part ∈ parts, Name part ∨ part = "..") (ups : ℕ)
    (hnames : ∀ name ∈ names, Name name) :
    ∃ ups' names', parts.foldl collapseComponent (List.replicate ups ".." ++ names, false) =
      (List.replicate ups' ".." ++ names', false) ∧ ∀ name ∈ names', Name name := by
  induction parts generalizing ups names with
  | nil => exact ⟨ups, names, rfl, hnames⟩
  | cons part parts ih =>
    have hrest := fun p hp => hparts p (List.mem_cons_of_mem part hp)
    rw [List.foldl_cons]
    obtain hname | rfl := hparts part List.mem_cons_self
    · rw [collapseComponent_name hname, List.append_assoc]
      exact ih hrest ups (List.forall_mem_append.mpr ⟨hnames, by simpa using hname⟩)
    · obtain rfl | ⟨before, name, rfl⟩ := names.eq_nil_or_concat'
      · rw [List.append_nil, collapseComponent_up, ← List.append_nil (List.replicate _ _)]
        exact ih hrest (ups + 1) hnames
      · rw [← List.append_assoc, collapseComponent_pop (hnames name (by simp))]
        exact ih hrest ups fun n hn => hnames n (List.mem_append_left [name] hn)

theorem foldl_ups (count ups : ℕ) :
    (List.replicate count "..").foldl collapseComponent (List.replicate ups "..", false) =
      (List.replicate (ups + count) "..", false) := by
  induction count generalizing ups with
  | zero => rfl
  | succ count ih =>
    rw [List.replicate_succ, List.foldl_cons, collapseComponent_up, ih, Nat.add_right_comm]
    rfl

theorem IsCollapsed.collapse {components : List String} (h : IsCollapsed components) :
    collapseComponents components = components := by
  cases h with
  | rooted names hnames =>
    rw [collapseComponents, List.foldl_cons, show collapseComponent ([], false) "/" = (["/"], true)
      from rfl, foldl_names hnames]
    rfl
  | relative ups names hnames =>
    rw [collapseComponents, List.foldl_append, ← List.replicate_zero, foldl_ups, foldl_names hnames,
      Nat.zero_add]

theorem pathComponents_shape (path : String) :
    ∃ parts, (∀ part ∈ parts, Name part ∨ part = "..") ∧
      if Text.startsWith path "/" then pathComponents path = "/" :: parts
      else pathComponents path = parts ∨ pathComponents path = "." :: parts := by
  refine ⟨(segmentsOf path).filter fun part => part ≠ "" ∧ part ≠ ".", ?_, ?_⟩
  · intro part hpart
    obtain ⟨hsegment, hsolid⟩ := List.mem_filter.mp hpart
    obtain ⟨hempty, hdot⟩ := of_decide_eq_true hsolid
    by_cases hup : part = ".."
    · exact .inr hup
    · exact .inl ⟨not_or.mpr ⟨hempty, hdot⟩, hup, segmentsOf_whole hsegment⟩
  · split_ifs with hrooted
    · rw [pathComponents, if_pos hrooted]
      rfl
    · rw [pathComponents, if_neg hrooted]
      split_ifs
      · exact .inr rfl
      · exact .inl rfl

theorem collapseComponents_shape (path : String) :
    if Text.startsWith path "/" then
      ∃ names, collapseComponents (pathComponents path) = "/" :: names ∧ ∀ name ∈ names, Name name
    else ∃ ups names, collapseComponents (pathComponents path) =
      List.replicate ups ".." ++ names ∧ ∀ name ∈ names, Name name := by
  obtain ⟨parts, hparts, hpath⟩ := pathComponents_shape path
  have hnone : ∀ name ∈ ([] : List String), Name name := fun _ h => nomatch h
  split_ifs at hpath ⊢
  · obtain ⟨names, hfold, hnames⟩ := foldl_rooted hparts hnone
    refine ⟨names, ?_, hnames⟩
    rw [hpath, collapseComponents, List.foldl_cons,
      show collapseComponent ([], false) "/" = (["/"], true) from rfl, hfold]
  · obtain ⟨ups, names, hfold, hnames⟩ := foldl_relative hparts 0 hnone
    rw [show (List.replicate 0 ".." ++ [], false) = (([] : List String), false) from rfl] at hfold
    refine ⟨ups, names, ?_, hnames⟩
    obtain hpath | hpath := hpath
    · rw [hpath, collapseComponents, hfold]
    · rw [hpath, collapseComponents, List.foldl_cons,
        show collapseComponent ([], false) "." = ([], false) from rfl, hfold]

theorem isCollapsed_collapse (path : String) :
    IsCollapsed (collapseComponents (pathComponents path)) := by
  have hshape := collapseComponents_shape path
  split_ifs at hshape
  · obtain ⟨names, heq, hnames⟩ := hshape
    rw [heq]
    exact .rooted names hnames
  · obtain ⟨ups, names, heq, hnames⟩ := hshape
    rw [heq]
    exact .relative ups names hnames

theorem segmentsOf_relative {first : String} {rest : List String}
    (hwhole : ∀ part ∈ first :: rest, '/' ∉ part.toList) :
    segmentsOf (first ++ slashed rest) = first :: rest := by
  have hfirst := hwhole first List.mem_cons_self
  cases rest with
  | nil =>
    rw [slashed, String.append_empty, segmentsOf, List.splitOn_eq_singleton hfirst]
    simp
  | cons next rest =>
    have hrest := slashed_segments (List.cons_ne_nil next rest)
      fun part hpart => hwhole part (List.mem_cons_of_mem first hpart)
    rw [segmentsOf, toList_slashed, List.flatMap_cons, List.cons_append,
      List.splitOn_cons_eq_if_modifyHead, if_pos (by rfl), List.map_cons] at hrest
    rw [segmentsOf, String.toList_append, toList_slashed, List.flatMap_cons, List.cons_append,
      List.splitOn_append_cons_self_of_not_mem hfirst, List.map_cons, String.ofList_toList]
    exact congrArg _ (List.cons.inj hrest).2

theorem filter_solid (hparts : ∀ part ∈ parts, Name part ∨ part = "..") :
    (parts.filter fun part => part ≠ "" ∧ part ≠ ".") = parts := by
  rw [List.filter_eq_self]
  intro part hpart
  obtain hname | rfl := hparts part hpart
  · exact decide_eq_true ⟨fun h => hname.solid (.inl h), fun h => hname.solid (.inr h)⟩
  · decide

theorem pathComponents_rooted (hnames : ∀ name ∈ names, Name name) :
    pathComponents (pathText names) = "/" :: names := by
  have hrooted : Text.startsWith (pathText names) "/" := isAbsolute_pathText names
  rw [pathComponents, if_pos hrooted]
  change "/" :: (segmentsOf (pathText names)).filter _ = _
  rw [pathText]
  split_ifs with hempty
  · rw [hempty]
    decide +kernel
  · rw [slashed_segments hempty fun name hname => (hnames name hname).whole,
      List.filter_cons_of_neg (by decide), filter_solid fun name hname => .inl (hnames name hname)]

theorem pathComponents_relative {first : String} {rest : List String}
    (hparts : ∀ part ∈ first :: rest, Name part ∨ part = "..") :
    pathComponents (first ++ slashed rest) = first :: rest := by
  have hsolid : first ≠ "" ∧ first ≠ "." ∧ '/' ∉ first.toList := by
    obtain hname | rfl := hparts first List.mem_cons_self
    · exact ⟨fun h => hname.solid (.inl h), fun h => hname.solid (.inr h), hname.whole⟩
    · decide
  have hwhole : ∀ part ∈ first :: rest, '/' ∉ part.toList := by
    intro part hpart
    obtain hname | rfl := hparts part hpart
    · exact hname.whole
    · decide
  have hrelative : ¬Text.startsWith (first ++ slashed rest) "/" := by
    intro hstarts
    obtain ⟨tail, htail⟩ := isAbsolute_iff.mp hstarts
    rw [String.toList_append] at htail
    cases hlist : first.toList with
    | nil => exact hsolid.1 (String.toList_inj.mp hlist)
    | cons c cs =>
      rw [hlist, List.cons_append] at htail
      refine hsolid.2.2 ?_
      rw [hlist, (List.cons.inj htail).1]
      exact List.mem_cons_self
  rw [pathComponents, if_neg hrelative]
  change (if (segmentsOf (first ++ slashed rest)).head? = some "." then ["."] else []) ++
    (segmentsOf (first ++ slashed rest)).filter _ = _
  rw [segmentsOf_relative hwhole, if_neg (by simpa using hsolid.2.1), filter_solid hparts]
  rfl

theorem IsCollapsed.read {components : List String} (h : IsCollapsed components) :
    pathComponents (pathOfComponents components) = components := by
  cases h with
  | rooted names hnames => exact pathComponents_rooted hnames
  | relative ups names hnames =>
    have hparts : ∀ part ∈ List.replicate ups ".." ++ names, Name part ∨ part = ".." := by
      intro part hpart
      obtain hup | hname := List.mem_append.mp hpart
      · exact .inr (List.eq_of_mem_replicate hup)
      · exact .inl (hnames part hname)
    generalize List.replicate ups ".." ++ names = parts at hparts
    cases parts with
    | nil => decide +kernel
    | cons first rest =>
      have hfirst : first ≠ "/" := by
        obtain hname | rfl := hparts first List.mem_cons_self
        · exact ne_slash_of_name hname
        · decide
      rw [pathOfComponents]
      · exact pathComponents_relative hparts
      · exact hfirst

theorem slashed_append (names rest : List String) :
    slashed (names ++ rest) = slashed names ++ slashed rest := by
  induction names with
  | nil => rw [List.nil_append, slashed, String.empty_append]
  | cons name names ih => simp only [List.cons_append, slashed, ih, String.append_assoc]

theorem size_slashed (name : String) (names : List String) :
    1 + name.utf8ByteSize ≤ (slashed (name :: names)).utf8ByteSize := by
  rw [slashed, String.utf8ByteSize_append, String.utf8ByteSize_append]
  exact Nat.le_add_right _ _

theorem size_pos_of_part {part : String} (h : Name part ∨ part = "..") :
    0 < part.utf8ByteSize := by
  refine Nat.pos_of_ne_zero fun hzero => ?_
  rw [String.utf8ByteSize_eq_zero_iff] at hzero
  subst hzero
  obtain hname | hup := h
  · exact hname.solid (.inl rfl)
  · exact absurd hup (by decide)

theorem size_lt {first : List String} {part : String} {rest : List String}
    (hpart : 0 < part.utf8ByteSize) :
    (pathOfComponents first).utf8ByteSize <
      (pathOfComponents (first ++ part :: rest)).utf8ByteSize := by
  have hrest := size_slashed part rest
  have hslash : "/".utf8ByteSize = 1 := by decide +kernel
  have hlong : ∀ names, names ++ part :: rest ≠ [] := fun names => by simp
  cases first with
  | nil =>
    rw [pathOfComponents, String.utf8ByteSize_empty, List.nil_append]
    by_cases hroot : part = "/"
    · rw [hroot, pathOfComponents, pathText]
      cases rest with
      | nil =>
        rw [if_pos rfl]
        omega
      | cons next rest =>
        have hnext := size_slashed next rest
        rw [if_neg (List.cons_ne_nil next rest)]
        omega
    · rw [pathOfComponents, String.utf8ByteSize_append]
      · omega
      · exact hroot
  | cons head names =>
    by_cases hroot : head = "/"
    · rw [hroot, List.cons_append, pathOfComponents, pathOfComponents, pathText, pathText,
        if_neg (hlong names), slashed_append, String.utf8ByteSize_append]
      split_ifs with hempty
      · omega
      · omega
    · have hsplit : pathOfComponents (head :: names ++ part :: rest) =
          (head ++ slashed names) ++ slashed (part :: rest) := by
        rw [List.cons_append, pathOfComponents, slashed_append, String.append_assoc]
        exact hroot
      rw [hsplit, String.utf8ByteSize_append, pathOfComponents]
      · omega
      · exact hroot

end components

def PathContains (root path : String) : Prop :=
  pathComponents root <+: pathComponents (collapseLexicalComponents path)

def HasRoot (path : String) (roots : List String) : Prop :=
  ∃ root ∈ roots, pathComponents root <+: pathComponents path

theorem collapseLexicalComponents_components (path : String) :
    pathComponents (collapseLexicalComponents path) = collapseComponents (pathComponents path) :=
  (isCollapsed_collapse path).read

theorem collapseLexicalComponents_idem (path : String) :
    collapseLexicalComponents (collapseLexicalComponents path) =
      collapseLexicalComponents path := by
  rw [collapseLexicalComponents, collapseLexicalComponents_components,
    (isCollapsed_collapse path).collapse]
  rfl

theorem collapsed_components {root : String} (h : collapseLexicalComponents root = root) :
    IsCollapsed (pathComponents root) ∧ pathOfComponents (pathComponents root) = root := by
  have hread := collapseLexicalComponents_components root
  rw [h] at hread
  rw [hread]
  exact ⟨isCollapsed_collapse root, h⟩

theorem IsCollapsed.parts {components : List String} (h : IsCollapsed components) :
    ∀ part ∈ components, 0 < part.utf8ByteSize := by
  intro part hpart
  cases h with
  | rooted names hnames =>
    obtain rfl | hname := List.mem_cons.mp hpart
    · decide +kernel
    · exact size_pos_of_part (.inl (hnames part hname))
  | relative ups names hnames =>
    obtain hup | hname := List.mem_append.mp hpart
    · exact size_pos_of_part (.inr (List.eq_of_mem_replicate hup))
    · exact size_pos_of_part (.inl (hnames part hname))

/-- Of two collapsed paths that contain the same path the one with the longer text has more
components. -/
theorem components_lt_of_size {root best path : String}
    (hroot : collapseLexicalComponents root = root) (hbest : collapseLexicalComponents best = best)
    (hcontains : PathContains root path) (hcontains' : PathContains best path)
    (hsize : root.utf8ByteSize ≤ best.utf8ByteSize) (hne : root ≠ best) :
    (pathComponents root).length < (pathComponents best).length := by
  obtain ⟨hcollapsed, htext⟩ := collapsed_components hroot
  obtain ⟨-, htext'⟩ := collapsed_components hbest
  by_contra hlong
  -- The components of the one begin those of the other, since both begin those of the path.
  obtain ⟨rest, hrest⟩ := List.prefix_of_prefix_length_le hcontains' hcontains (Nat.not_lt.mp hlong)
  cases rest with
  | nil =>
    rw [List.append_nil] at hrest
    exact hne (by rw [← htext, ← htext', hrest])
  | cons part rest =>
    have hlt : (pathOfComponents (pathComponents best)).utf8ByteSize <
        (pathOfComponents (pathComponents best ++ part :: rest)).utf8ByteSize :=
      size_lt (hcollapsed.parts part (by rw [← hrest]; simp))
    rw [hrest, htext, htext'] at hlt
    exact absurd hsize (Nat.not_le.mpr hlt)

theorem nearestEnumeratedRoot_eq_none {path : String} {roots : List String}
    (hroots : ∀ root ∈ roots, collapseLexicalComponents root = root) :
    nearestEnumeratedRoot path roots = none ↔
      path = "" ∨ ∀ root ∈ roots, ¬PathContains root path := by
  rw [nearestEnumeratedRoot]
  split_ifs with hempty
  · refine iff_of_true rfl (hempty.imp_right ?_)
    rintro rfl root hroot
    cases hroot
  · rw [not_or] at hempty
    rw [maxByKey_eq_none, List.filter_eq_nil_iff, or_iff_right hempty.1]
    refine forall₂_congr fun root hroot => ?_
    rw [pathStartsWith, decide_eq_true_eq, hroots root hroot]
    rfl

theorem nearestEnumeratedRoot_spec {path best : String} {roots : List String}
    (hroots : ∀ root ∈ roots, collapseLexicalComponents root = root)
    (h : nearestEnumeratedRoot path roots = some best) :
    best ∈ roots ∧ PathContains best path ∧ ∀ root ∈ roots, PathContains root path →
      root ≠ best → (pathComponents root).length < (pathComponents best).length := by
  rw [nearestEnumeratedRoot] at h
  split_ifs at h
  have hmem : ∀ root, root ∈ roots.filter (fun root => pathStartsWith
      (collapseLexicalComponents path) (collapseLexicalComponents root)) ↔
      root ∈ roots ∧ PathContains root path := by
    intro root
    rw [List.mem_filter, pathStartsWith, decide_eq_true_eq]
    refine and_congr_right fun hroot => ?_
    rw [hroots root hroot]
    rfl
  obtain ⟨hbest, hmax⟩ := maxByKey_spec h
  obtain ⟨hin, hcontains⟩ := (hmem best).mp hbest
  refine ⟨hin, hcontains, ?_⟩
  intro root hroot hcontains' hne
  have hsize := hmax root ((hmem root).mpr ⟨hroot, hcontains'⟩)
  exact components_lt_of_size (hroots root hroot) (hroots best hin) hcontains' hcontains hsize hne

section scope
variable (canonicalize : String → String)

theorem pathWithinAllowedRoots_iff (path : String) (roots : List String) :
    pathWithinAllowedRoots canonicalize path roots = true ↔
      roots = [] ∨ HasRoot (normalizeCwd canonicalize path) roots := by
  rw [pathWithinAllowedRoots, Bool.or_eq_true, List.isEmpty_iff, List.any_eq_true]
  simp only [pathStartsWith, decide_eq_true_eq]
  rfl

theorem not_hasRoot_sibling {path root name other : String} {parent rest : List String}
    (hroot : pathComponents root = parent ++ [name])
    (hpath : pathComponents path = parent ++ other :: rest) (hne : other ≠ name) :
    ¬HasRoot path [root] := by
  rintro ⟨found, hfound, hprefix⟩
  rw [List.mem_singleton.mp hfound, hroot, hpath, List.prefix_append_right_inj,
    List.cons_prefix_cons] at hprefix
  exact hne hprefix.1.symm

end scope

/-- Collapsing is idempotent and leaves a path of names, below the root or below some `..`. A path
is in scope if it lies under an allowed root, or none is set, and under the paths of a scoped
device; a sibling of a root does not. Of collapsed roots the nearest is the one with the most
components among those that contain the path. -/
theorem lexical_scope :
    (∀ path : String,
      collapseLexicalComponents (collapseLexicalComponents path) = collapseLexicalComponents path ∧
      if Text.startsWith path "/" then
        ∃ names, pathComponents (collapseLexicalComponents path) = "/" :: names ∧
          ∀ name ∈ names, FilePaths.Name name
      else ∃ ups names, pathComponents (collapseLexicalComponents path) =
        List.replicate ups ".." ++ names ∧ ∀ name ∈ names, FilePaths.Name name) ∧
    (∀ (canonicalize : String → String) (path : String) (scope roots : List String),
      (pathWithinAllowedRoots canonicalize path roots = true ↔
        roots = [] ∨ HasRoot (normalizeCwd canonicalize path) roots) ∧
      (ensurePathWithinDeviceScope canonicalize path scope roots = .ok () ↔
        (roots = [] ∨ HasRoot (normalizeCwd canonicalize path) roots) ∧
          (scope = [] ∨ HasRoot (normalizeCwd canonicalize path) scope))) ∧
    (∀ (path root name other : String) (parent rest : List String),
      pathComponents root = parent ++ [name] → pathComponents path = parent ++ other :: rest →
        other ≠ name → ¬HasRoot path [root]) ∧
    ∀ (path : String) (roots : List String),
      (∀ root ∈ roots, collapseLexicalComponents root = root) →
        (nearestEnumeratedRoot path roots = none ↔
          path = "" ∨ ∀ root ∈ roots, ¬PathContains root path) ∧
        ∀ best, nearestEnumeratedRoot path roots = some best →
          best ∈ roots ∧ PathContains best path ∧ ∀ root ∈ roots, PathContains root path →
            root ≠ best → (pathComponents root).length < (pathComponents best).length := by
  refine ⟨fun path => ⟨collapseLexicalComponents_idem path, ?_⟩, ?_, ?_, ?_⟩
  · rw [collapseLexicalComponents_components]
    exact collapseComponents_shape path
  · intro canonicalize path scope roots
    have hscope : (scope = [] ∨ pathWithinAllowedRoots canonicalize path scope = true) ↔
        (scope = [] ∨ HasRoot (normalizeCwd canonicalize path) scope) := by
      rw [pathWithinAllowedRoots_iff, ← or_assoc, or_self]
    refine ⟨pathWithinAllowedRoots_iff canonicalize path roots, ?_⟩
    rw [ensurePathWithinDeviceScope_ok_iff, pathWithinAllowedRoots_iff, hscope]
  · intro path root name other parent rest hroot hpath hne
    exact not_hasRoot_sibling hroot hpath hne
  · intro path roots hroots
    exact ⟨nearestEnumeratedRoot_eq_none hroots, fun best h => nearestEnumeratedRoot_spec hroots h⟩

theorem lexical_scope_nested :
    ¬HasRoot "/work/app-old/x" ["/work/app"] ∧
      (nearestEnumeratedRoot "/work/app/.wt/../.wt/a" ["/", "/work/app/.wt/a", "/work/app"] = none ↔
        "/work/app/.wt/../.wt/a" = "" ∨ ∀ root ∈ ["/", "/work/app/.wt/a", "/work/app"],
          ¬PathContains root "/work/app/.wt/../.wt/a") := by
  have hroots : ∀ root ∈ ["/", "/work/app/.wt/a", "/work/app"],
      collapseLexicalComponents root = root := by
    decide +kernel
  exact ⟨lexical_scope.2.2.1 _ _ "app" "app-old" ["/", "work"] ["x"] (by decide +kernel)
    (by decide +kernel) (by decide), (lexical_scope.2.2.2 _ _ hroots).1⟩

instance (path : String) (roots : List String) : Decidable (HasRoot path roots) :=
  inferInstanceAs (Decidable (∃ root ∈ roots, _))

instance (root path : String) : Decidable (PathContains root path) :=
  inferInstanceAs (Decidable (_ <+: _))

/-- Without allowed roots every path is within them, and the empty path has no nearest root. -/
theorem lexical_scope_open :
    ¬((∀ canonicalize : String → String, (∀ path, Text.startsWith (canonicalize path) "/" ∧
          collapseLexicalComponents (canonicalize path) = canonicalize path) →
        ∀ (path : String) (roots : List String),
          pathWithinAllowedRoots canonicalize path roots = true ↔
            HasRoot (normalizeCwd canonicalize path) roots) ∧
      ∀ (path : String) (roots : List String),
        (∀ root ∈ roots, collapseLexicalComponents root = root) →
          (nearestEnumeratedRoot path roots = none ↔ ∀ root ∈ roots, ¬PathContains root path)) ∧
    (pathWithinAllowedRoots (fun _ => "/etc") "/etc" [] = true ∧
      ¬HasRoot (normalizeCwd (fun _ => "/etc") "/etc") []) ∧
    (collapseLexicalComponents "" = "" ∧ nearestEnumeratedRoot "" [""] = none ∧
      PathContains "" "") := by
  have hopen : pathWithinAllowedRoots (fun _ => "/etc") "/etc" [] = true := rfl
  have hnone : ¬HasRoot (normalizeCwd (fun _ => "/etc") "/etc") [] := by decide +kernel
  refine ⟨?_, ⟨hopen, hnone⟩, by decide +kernel⟩
  intro h
  exact hnone ((h.1 (fun _ => "/etc") (fun _ => by decide +kernel) _ _).mp hopen)

end AgentRelay.Relay
