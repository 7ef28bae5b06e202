import AgentRelay.Text

/-! Absolute Unix paths as the texts between their slashes, and file trees. A segment may be
empty or a dot, which say nothing, or two dots, which go up; the others are names. A file tree
maps canonical paths, lists of names, to what is there. -/
namespace AgentRelay.FilePaths
open Text

def Blank (segment : String) : Prop := segment = "" ∨ segment = "."

instance (segment : String) : Decidable (Blank segment) :=
  inferInstanceAs (Decidable (_ ∨ _))

structure Name (segment : String) : Prop where
  solid : ¬ Blank segment
  down : segment ≠ ".."
  whole : '/' ∉ segment.toList

def slashed : List String → String
  | [] => ""
  | segment :: path => "/" ++ segment ++ slashed path

def pathText (path : List String) : String := if path = [] then "/" else slashed path

def segmentsOf (text : String) : List String :=
  (text.toList.splitOn '/').map String.ofList

def isAbsolute (text : String) : Bool := Text.startsWith text "/"

/-- `Path::join`: an absolute text replaces the base. -/
def join (base : List String) (text : String) : List String :=
  if isAbsolute text then (segmentsOf text).tail else base ++ segmentsOf text

def components (path : List String) : List String := path.filter fun segment => ¬ Blank segment

def rtrim (path : List String) : List String := path.rdropWhile fun segment => Blank segment

def parent (path : List String) : Option (List String) :=
  if rtrim path = [] then none else some (rtrim (rtrim path).dropLast)

/-- The last segment, unless it goes up. -/
def fileName (path : List String) : Option String :=
  (rtrim path).getLast?.filter (· ≠ "..")

def collapseStep (normalized : List String) (segment : String) : List String :=
  if Blank segment then normalized
  else if segment = ".." then normalized.dropLast
  else normalized ++ [segment]

def collapseLexicalComponents (path : List String) : List String :=
  path.foldl collapseStep []

inductive Node
  | dir
  | file (size : Nat) (text : Option String)
  | other
  deriving DecidableEq, Repr

structure FileSystem where
  node : List String → Option Node
  root : node [] = some .dir
  inside : ∀ path name, (node (path ++ [name])).isSome → node path = some .dir
  named : ∀ path name, (node (path ++ [name])).isSome → Name name

namespace FileSystem
variable (fs : FileSystem)

/-- Follow segments from a canonical path; every step has to start in a directory. -/
def resolve (current : List String) : List String → Option (List String)
  | [] => some current
  | segment :: rest =>
    if fs.node current ≠ some .dir then none
    else if Blank segment then resolve current rest
    else if segment = ".." then resolve current.dropLast rest
    else if (fs.node (current ++ [segment])).isNone then none
    else resolve (current ++ [segment]) rest

def canonicalize (path : List String) : Option (List String) := fs.resolve [] path

def symlinkMetadata (path : List String) : Option Node := (fs.canonicalize path).bind fs.node

def isDir (path : List String) : Bool := fs.symlinkMetadata path = some .dir

end FileSystem

section texts

def weight (path : List String) : Nat := (path.map fun segment => segment.length + 1).sum

theorem segmentsOf_whole {text segment : String} (h : segment ∈ segmentsOf text) :
    '/' ∉ segment.toList := by
  obtain ⟨chars, hmem, rfl⟩ := List.mem_map.mp h
  rw [String.toList_ofList]
  exact not_mem_of_mem_splitOn hmem

theorem join_whole {base : List String} (text : String) (h : ∀ s ∈ base, '/' ∉ s.toList) :
    ∀ s ∈ join base text, '/' ∉ s.toList := by
  intro s hs
  unfold join at hs
  split_ifs at hs
  · exact segmentsOf_whole (List.mem_of_mem_tail hs)
  · rcases List.mem_append.mp hs with hold | hnew
    · exact h s hold
    · exact segmentsOf_whole hnew

theorem weight_segmentsOf (text : String) : weight (segmentsOf text) = text.length + 1 := by
  unfold segmentsOf weight
  rw [← String.length_toList]
  generalize text.toList = input
  induction input with
  | nil => simp [List.splitOn_nil]
  | cons c input ih =>
    rw [List.splitOn_cons_eq_if_modifyHead]
    split_ifs
    · simp only [List.map_cons, List.sum_cons, ih, List.length_cons]
      simp
      omega
    · cases hsplit : input.splitOn '/' with
      | nil => exact absurd hsplit (List.splitOn_ne_nil '/' input)
      | cons head rest =>
        rw [hsplit] at ih
        simp only [List.modifyHead_cons, List.map_cons, List.sum_cons, List.length_cons] at ih ⊢
        simp at ih ⊢
        omega

theorem isAbsolute_iff {text : String} : isAbsolute text ↔ ∃ rest, text.toList = '/' :: rest := by
  unfold isAbsolute Text.startsWith
  rw [decide_eq_true_eq]
  constructor
  · rintro ⟨rest, hrest⟩
    exact ⟨rest, hrest.symm⟩
  · rintro ⟨rest, hrest⟩
    exact ⟨rest, hrest.symm⟩

theorem weight_join_absolute {text : String} (base : List String) (h : isAbsolute text) :
    weight (join base text) = text.length := by
  have hweight := weight_segmentsOf text
  obtain ⟨rest, hrest⟩ := isAbsolute_iff.mp h
  have hsegments : segmentsOf text = "" :: (segmentsOf text).tail := by
    unfold segmentsOf
    rw [hrest, List.splitOn_cons_eq_if_modifyHead]
    rfl
  rw [hsegments] at hweight
  simp only [weight, List.map_cons, List.sum_cons, String.length_empty] at hweight
  rw [join, if_pos h, weight]
  omega

theorem toList_slashed (path : List String) :
    (slashed path).toList = path.flatMap fun segment => '/' :: segment.toList := by
  induction path with
  | nil => rfl
  | cons segment path ih => simp [slashed, ih, String.toList_append]

theorem slashed_segments {path : List String} (hne : path ≠ []) (h : ∀ s ∈ path, '/' ∉ s.toList) :
    segmentsOf (slashed path) = "" :: path := by
  unfold segmentsOf
  rw [toList_slashed]
  induction path with
  | nil => exact absurd rfl hne
  | cons segment path ih =>
    have hsegment := h segment List.mem_cons_self
    rw [List.flatMap_cons, List.cons_append, List.splitOn_cons_eq_if_modifyHead, if_pos (by rfl),
      List.map_cons]
    cases path with
    | nil =>
      rw [List.flatMap_nil, List.append_nil, List.splitOn_eq_singleton hsegment]
      simp
    | cons next path =>
      have hrest := ih (by simp) fun s hs => h s (List.mem_cons_of_mem _ hs)
      rw [List.flatMap_cons, List.cons_append, List.splitOn_cons_eq_if_modifyHead,
        if_pos (by rfl), List.map_cons] at hrest
      rw [List.flatMap_cons, List.cons_append,
        List.splitOn_append_cons_self_of_not_mem hsegment, List.map_cons]
      simp only [String.ofList_toList, List.cons.injEq] at hrest ⊢
      exact ⟨trivial, trivial, hrest.2⟩

theorem isAbsolute_pathText (path : List String) : isAbsolute (pathText path) := by
  rw [isAbsolute_iff]
  unfold pathText
  split_ifs with hempty
  · exact ⟨[], rfl⟩
  · cases path with
    | nil => exact absurd rfl hempty
    | cons segment path =>
      rw [toList_slashed, List.flatMap_cons, List.cons_append]
      exact ⟨_, rfl⟩

theorem join_pathText (base : List String) {path : List String} (h : ∀ s ∈ path, '/' ∉ s.toList) :
    join base (pathText path) = if path = [] then [""] else path := by
  rw [join, if_pos (isAbsolute_pathText path)]
  unfold pathText
  split_ifs with hempty
  · rfl
  · rw [slashed_segments hempty h]
    rfl

theorem length_pathText {path : List String} (hne : path ≠ []) :
    (pathText path).length = weight path := by
  rw [pathText, if_neg hne, ← String.length_toList, toList_slashed]
  unfold weight
  rw [List.length_flatMap]
  simp [String.length_toList]

theorem pathText_injective {path other : List String} (h : ∀ s ∈ path, '/' ∉ s.toList)
    (h' : ∀ s ∈ other, '/' ∉ s.toList) (hblank : path ≠ [""]) (hblank' : other ≠ [""])
    (heq : pathText path = pathText other) : path = other := by
  have hsegments := join_pathText [] h
  rw [heq, join_pathText [] h'] at hsegments
  split_ifs at hsegments with hother hpath hpath
  · rw [hother, hpath]
  · exact absurd hsegments.symm hblank
  · exact absurd hsegments hblank'
  · exact hsegments.symm

end texts

section lexical

theorem components_append (path other : List String) :
    components (path ++ other) = components path ++ components other :=
  List.filter_append path other

theorem components_blank {path : List String} (h : ∀ s ∈ path, Blank s) : components path = [] := by
  rw [components, List.filter_eq_nil_iff]
  intro s hs
  simp [h s hs]

theorem rtrim_append_blank (path : List String) :
    ∃ blanks, path = rtrim path ++ blanks ∧ ∀ s ∈ blanks, Blank s := by
  refine ⟨path.rtakeWhile fun segment => Blank segment, ?_, ?_⟩
  · unfold rtrim
    rw [List.rdropWhile, List.rtakeWhile, ← List.reverse_append, List.takeWhile_append_dropWhile,
      List.reverse_reverse]
  · intro s hs
    simpa using List.mem_rtakeWhile_imp hs

theorem rtrim_blank {path blanks : List String} (h : ∀ s ∈ blanks, Blank s) :
    rtrim (path ++ blanks) = rtrim path := by
  unfold rtrim
  rw [List.rdropWhile, List.rdropWhile, List.reverse_append, List.dropWhile_append_of_pos]
  intro s hs
  simpa using h s (List.mem_reverse.mp hs)

theorem rtrim_solid {segment : String} (path : List String) (h : ¬ Blank segment) :
    rtrim (path ++ [segment]) = path ++ [segment] := by
  unfold rtrim
  rw [List.rdropWhile_concat_neg]
  simpa using h

theorem rtrim_rtrim (path : List String) : rtrim (rtrim path) = rtrim path := by
  obtain ⟨blanks, heq, hblank⟩ := rtrim_append_blank path
  conv_rhs => rw [heq]
  rw [rtrim_blank hblank]

theorem components_singleton {path : List String} {segment : String}
    (h : components path = [segment]) :
    ∃ before after, path = before ++ segment :: after ∧ (∀ s ∈ before, Blank s) ∧
      ¬ Blank segment ∧ ∀ s ∈ after, Blank s := by
  obtain ⟨before, after, heq, hbefore, hsegment, hafter⟩ := List.filter_eq_cons_iff.mp h
  refine ⟨before, after, heq, ?_, by simpa using hsegment, ?_⟩
  · intro s hs
    simpa using hbefore s hs
  · intro s hs
    simpa using List.filter_eq_nil_iff.mp hafter s hs

theorem parent_append (path : List String) {tail : List String} {segment : String}
    (h : components tail = [segment]) : parent (path ++ tail) = some (rtrim path) := by
  obtain ⟨before, after, rfl, hbefore, hsegment, hafter⟩ := components_singleton h
  have htrim : rtrim (path ++ (before ++ segment :: after)) = path ++ before ++ [segment] := by
    have heq : path ++ (before ++ segment :: after) = path ++ before ++ [segment] ++ after := by
      simp
    rw [heq, rtrim_blank hafter, rtrim_solid _ hsegment]
  rw [parent, htrim, if_neg (by simp), List.dropLast_concat, rtrim_blank hbefore]

theorem fileName_append (path : List String) {tail : List String} {segment : String}
    (h : components tail = [segment]) :
    fileName (path ++ tail) = if segment = ".." then none else some segment := by
  obtain ⟨before, after, rfl, hbefore, hsegment, hafter⟩ := components_singleton h
  have heq : path ++ (before ++ segment :: after) = path ++ before ++ [segment] ++ after := by
    simp
  rw [fileName, heq, rtrim_blank hafter, rtrim_solid _ hsegment, List.getLast?_concat]
  by_cases hup : segment = ".."
  · simp [hup]
  · simp [hup]

theorem parent_eq_some {path up : List String} (h : parent path = some up) :
    rtrim up = up ∧ ∃ tail segment, path = up ++ tail ∧ components tail = [segment] := by
  unfold parent at h
  split_ifs at h with hempty
  obtain rfl := Option.some.inj h
  refine ⟨rtrim_rtrim _, ?_⟩
  obtain ⟨after, hpath, hafter⟩ := rtrim_append_blank path
  obtain ⟨before, hup, hbefore⟩ := rtrim_append_blank (rtrim path).dropLast
  have hlast := List.dropLast_concat_getLast hempty
  have hsolid : ¬ Blank ((rtrim path).getLast hempty) := by
    have hnot := List.rdropWhile_last_not (fun segment => decide (Blank segment)) path hempty
    rw [decide_eq_true_eq] at hnot
    exact hnot
  refine ⟨before ++ [(rtrim path).getLast hempty] ++ after, (rtrim path).getLast hempty, ?_, ?_⟩
  · rw [← List.append_assoc, ← List.append_assoc, ← hup, hlast]
    exact hpath
  · rw [components_append, components_append, components_blank hbefore, components_blank hafter]
    simp [components, hsolid]

theorem parent_length {path up : List String} (h : parent path = some up) :
    up.length < path.length := by
  obtain ⟨-, tail, segment, rfl, htail⟩ := parent_eq_some h
  have hne : tail ≠ [] := by
    rintro rfl
    cases htail
  have := List.length_pos_iff.mpr hne
  rw [List.length_append]
  omega

theorem collapse_append (path other : List String) :
    collapseLexicalComponents (path ++ other) =
      other.foldl collapseStep (collapseLexicalComponents path) :=
  List.foldl_append

theorem foldl_collapse_names {path names : List String}
    (h : ∀ s ∈ names, ¬ Blank s ∧ s ≠ "..") : names.foldl collapseStep path = path ++ names := by
  induction names generalizing path with
  | nil => simp
  | cons name names ih =>
    obtain ⟨hsolid, hdown⟩ := h name List.mem_cons_self
    rw [List.foldl_cons, ih fun s hs => h s (List.mem_cons_of_mem _ hs), collapseStep,
      if_neg hsolid, if_neg hdown]
    simp

theorem collapse_names {names : List String} (h : ∀ s ∈ names, ¬ Blank s ∧ s ≠ "..") :
    collapseLexicalComponents names = names := by
  rw [collapseLexicalComponents, foldl_collapse_names h, List.nil_append]

theorem foldl_collapse_components (normalized path : List String) :
    path.foldl collapseStep normalized = (components path).foldl collapseStep normalized := by
  induction path generalizing normalized with
  | nil => rfl
  | cons segment path ih =>
    by_cases hblank : Blank segment
    · have hcomponents : components (segment :: path) = components path := by
        simp [components, hblank]
      rw [hcomponents, List.foldl_cons, ← ih, collapseStep, if_pos hblank]
    · have hcomponents : components (segment :: path) = segment :: components path := by
        simp [components, hblank]
      rw [hcomponents, List.foldl_cons, List.foldl_cons, ih]

theorem collapse_mem {path : List String} {s : String}
    (h : s ∈ collapseLexicalComponents path) : s ∈ path ∧ ¬ Blank s ∧ s ≠ ".." := by
  induction path using List.reverseRecOn with
  | nil => cases h
  | append_singleton path segment ih =>
    rw [collapse_append, List.foldl_cons, List.foldl_nil, collapseStep] at h
    split_ifs at h with hblank hup
    · exact ⟨List.mem_append_left _ (ih h).1, (ih h).2⟩
    · have hold := ih (List.mem_of_mem_dropLast h)
      exact ⟨List.mem_append_left _ hold.1, hold.2⟩
    · rcases List.mem_append.mp h with hold | hnew
      · exact ⟨List.mem_append_left _ (ih hold).1, (ih hold).2⟩
      · obtain rfl := List.mem_singleton.mp hnew
        exact ⟨by simp, hblank, hup⟩

theorem collapse_weight (path : List String) :
    weight (collapseLexicalComponents path) ≤ weight path := by
  induction path using List.reverseRecOn with
  | nil => exact le_rfl
  | append_singleton path segment ih =>
    have hsplit : weight (path ++ [segment]) = weight path + (segment.length + 1) := by
      simp [weight]
    rw [collapse_append, List.foldl_cons, List.foldl_nil, collapseStep, hsplit]
    split_ifs
    · omega
    · have hdrop : weight (collapseLexicalComponents path).dropLast ≤
          weight (collapseLexicalComponents path) := by
        apply List.Sublist.sum_le_sum
        · exact (List.dropLast_sublist _).map _
        · intro n _
          exact Nat.zero_le n
      omega
    · simp only [weight, List.map_append, List.sum_append, List.map_cons, List.map_nil,
        List.sum_cons, List.sum_nil] at ih ⊢
      omega

end lexical

instance (segment : String) : Decidable (Name segment) :=
  decidable_of_iff (¬ Blank segment ∧ segment ≠ ".." ∧ '/' ∉ segment.toList)
    ⟨fun h => ⟨h.1, h.2.1, h.2.2⟩, fun h => ⟨h.solid, h.down, h.whole⟩⟩

def entryAt (entries : List (List String × Node)) (path : List String) : Option Node :=
  if path = [] then some .dir else (entries.find? (·.1 = path)).map (·.2)

theorem mem_of_entryAt {entries : List (List String × Node)} {path : List String} {node : Node}
    (hne : path ≠ []) (h : entryAt entries path = some node) : (path, node) ∈ entries := by
  rw [entryAt, if_neg hne] at h
  obtain ⟨⟨found, _⟩, hfound, rfl⟩ := Option.map_eq_some_iff.mp h
  have hpath : found = path := by simpa using List.find?_some hfound
  subst hpath
  exact List.mem_of_find?_eq_some hfound

def FileSystem.ofEntries (entries : List (List String × Node))
    (h : ∀ e ∈ entries, entryAt entries e.1.dropLast = some .dir ∧ ∀ s ∈ e.1.getLast?, Name s) :
    FileSystem where
  node := entryAt entries
  root := rfl
  inside := by
    intro path name hsome
    obtain ⟨node, hnode⟩ := Option.isSome_iff_exists.mp hsome
    have hentry := (h _ (mem_of_entryAt (by simp) hnode)).1
    rw [List.dropLast_concat] at hentry
    exact hentry
  named := by
    intro path name hsome
    obtain ⟨node, hnode⟩ := Option.isSome_iff_exists.mp hsome
    exact (h _ (mem_of_entryAt (by simp) hnode)).2 name (by simp)

namespace FileSystem
variable {fs : FileSystem}

theorem node_above {path rest : List String} (h : (fs.node (path ++ rest)).isSome)
    (hne : rest ≠ []) : fs.node path = some .dir := by
  induction rest using List.reverseRecOn with
  | nil => exact absurd rfl hne
  | append_singleton rest name ih =>
    rw [← List.append_assoc] at h
    have hdir := fs.inside _ _ h
    by_cases hempty : rest = []
    · rw [hempty, List.append_nil] at hdir
      exact hdir
    · exact ih (by rw [hdir]; rfl) hempty

theorem node_names {path : List String} (h : (fs.node path).isSome) : ∀ s ∈ path, Name s := by
  induction path using List.reverseRecOn with
  | nil =>
    intro s hs
    cases hs
  | append_singleton path name ih =>
    intro s hs
    have hdir := fs.inside _ _ h
    rcases List.mem_append.mp hs with hold | hnew
    · exact ih (by rw [hdir]; rfl) s hold
    · obtain rfl := List.mem_singleton.mp hnew
      exact fs.named _ _ h

theorem resolve_names {current path : List String} (h : (fs.node (current ++ path)).isSome) :
    fs.resolve current path = some (current ++ path) := by
  induction path generalizing current with
  | nil => simp [resolve]
  | cons name path ih =>
    have hsplit : current ++ name :: path = current ++ [name] ++ path := by simp
    have hname := node_names h name (by simp)
    have hdir := node_above h (by simp)
    have hnext : (fs.node (current ++ [name])).isSome := by
      rw [hsplit] at h
      by_cases hempty : path = []
      · rw [hempty, List.append_nil] at h
        exact h
      · rw [node_above h hempty]
        rfl
    rw [hsplit] at h ⊢
    unfold resolve
    rw [if_neg (not_not.mpr hdir), if_neg hname.solid, if_neg hname.down,
      if_neg (by simpa [Option.isSome_iff_ne_none] using hnext), ih h]

theorem canonicalize_self {path : List String} (h : (fs.node path).isSome) :
    fs.canonicalize path = some path := by
  have hself : fs.resolve [] path = some ([] ++ path) := resolve_names h
  exact hself

theorem symlinkMetadata_self {path : List String} {node : Node} (h : fs.node path = some node) :
    fs.symlinkMetadata path = some node := by
  rw [symlinkMetadata, canonicalize_self (by rw [h]; rfl)]
  exact h

theorem resolve_append (current path rest : List String) :
    fs.resolve current (path ++ rest) =
      (fs.resolve current path).bind fun reached => fs.resolve reached rest := by
  induction path generalizing current with
  | nil => rfl
  | cons segment path ih =>
    simp only [List.cons_append, resolve]
    split_ifs
    · rfl
    · exact ih current
    · exact ih current.dropLast
    · rfl
    · exact ih (current ++ [segment])

theorem resolve_collapse {current path reached : List String}
    (h : fs.resolve current path = some reached) : reached = path.foldl collapseStep current := by
  induction path generalizing current with
  | nil => exact (Option.some.inj h).symm
  | cons segment path ih =>
    rw [List.foldl_cons]
    unfold resolve at h
    split_ifs at h with hdir hblank hup hnone
    · rw [collapseStep, if_pos hblank]
      exact ih h
    · rw [collapseStep, if_neg hblank, if_pos hup]
      exact ih h
    · rw [collapseStep, if_neg hblank, if_neg hup]
      exact ih h

theorem canonicalize_collapse {path reached : List String}
    (h : fs.canonicalize path = some reached) : reached = collapseLexicalComponents path :=
  resolve_collapse h

theorem resolve_isSome {current path reached : List String} (hcurrent : (fs.node current).isSome)
    (h : fs.resolve current path = some reached) : (fs.node reached).isSome := by
  induction path generalizing current with
  | nil =>
    obtain rfl := Option.some.inj h
    exact hcurrent
  | cons segment path ih =>
    unfold resolve at h
    split_ifs at h with hdir hblank hup hnone
    · exact ih hcurrent h
    · have hup' : (fs.node current.dropLast).isSome := by
        by_cases hempty : current = []
        · rw [hempty, List.dropLast_nil, fs.root]
          rfl
        · rw [← List.dropLast_append_getLast hempty] at hcurrent
          rw [fs.inside _ _ hcurrent]
          rfl
      exact ih hup' h
    · exact ih (by simpa [Option.isSome_iff_ne_none] using hnone) h

theorem canonicalize_isSome {path reached : List String}
    (h : fs.canonicalize path = some reached) : (fs.node reached).isSome :=
  resolve_isSome (by rw [fs.root]; rfl) h

theorem canonicalize_prefix {path rest reached : List String}
    (h : fs.canonicalize (path ++ rest) = some reached) :
    ∃ middle, fs.canonicalize path = some middle ∧ fs.resolve middle rest = some reached := by
  unfold canonicalize at h ⊢
  rw [resolve_append] at h
  exact Option.bind_eq_some_iff.mp h

theorem symlinkMetadata_names {path : List String} (h : ∀ s ∈ path, ¬ Blank s ∧ s ≠ "..") :
    fs.symlinkMetadata path = fs.node path := by
  cases hnode : fs.node path with
  | some node => exact symlinkMetadata_self hnode
  | none =>
    unfold symlinkMetadata
    cases hcanonical : fs.canonicalize path with
    | none => rfl
    | some reached =>
      have hsame := canonicalize_collapse hcanonical
      rw [collapse_names h] at hsame
      rw [hsame]
      exact hnode

end FileSystem

end AgentRelay.FilePaths
