import AgentRelay.FilePaths

/-! Who may run git. A directory is trusted for its repository: the nearest `.git` above it is a
directory of the repository itself, or the pointer file of a linked worktree, which counts only
when the main worktree registers it. A grant is recorded under the repository too. -/
namespace AgentRelay.WorkspaceTrust
open FilePaths Text

def maxGitMetadataBytes : Nat := 64 * 1024
def maxRepoDiscoveryDepth : Nat := 64

structure Environment where
  home : Option String
  currentDir : String

namespace Environment
variable (env : Environment)

def expandHomeDir (path : String) : Option (List String) :=
  if path = "~" then env.home.map (join [])
  else if Text.startsWith path "~/" then
    env.home.map fun home => join (join [] home) (String.ofList (path.toList.drop 2))
  else none

def makeAbsolute (path : String) : List String := join (join [] env.currentDir) path

end Environment

section
variable (fs : FileSystem)

/-- Go up from a path that is not there, keeping the names passed. -/
def splitExisting (current unresolved : List String) : List String × List String :=
  if (fs.canonicalize current).isSome then (current, unresolved)
  else
    match fileName current with
    | none => (current, unresolved)
    | some component =>
      match _hup : parent current with
      | none => (current, component :: unresolved)
      | some up => splitExisting up (component :: unresolved)
termination_by current.length
decreasing_by exact parent_length _hup

def normalizePathLossy (path : List String) : List String :=
  match fs.canonicalize path with
  | some canonical => canonical
  | none =>
    let (current, unresolved) := splitExisting fs path []
    collapseLexicalComponents ((fs.canonicalize current).getD current ++ unresolved)

/-- The path a text stands for; a blank text stands for none. -/
def normalizeCwd (env : Environment) (cwd : String) : Option (List String) :=
  let trimmed := trim cwd
  if trimmed = "" then none
  else some (normalizePathLossy fs
    ((env.expandHomeDir trimmed).getD (env.makeAbsolute trimmed)))

/-- Regular files only, up to a size, and only as text. -/
def readSmallRegularFile (path : List String) : Option String :=
  match fs.symlinkMetadata path with
  | some (.file size text) => if size > maxGitMetadataBytes then none else text
  | _ => none

end

def gitdirTarget (pointer : String) : Option String :=
  if Text.startsWith (trim pointer) "gitdir:" then
    some (trim (String.ofList ((trim pointer).toList.drop 7)))
  else none

/-- The main worktree of a path that ends like an entry of `.git/worktrees`. -/
def pointedMain (target : List String) : Option (List String) :=
  (parent target).bind fun worktrees =>
    if fileName worktrees ≠ some "worktrees" then none
    else (parent worktrees).bind fun gitDir =>
      if fileName gitDir ≠ some ".git" then none else parent gitDir

/-- `Path::new(text) == path`, for a canonical path. -/
def NamesPath (text : String) (path : List String) : Prop :=
  isAbsolute text ∧ components (segmentsOf text).tail = path

instance (text : String) (path : List String) : Decidable (NamesPath text path) :=
  inferInstanceAs (Decidable (_ ∧ _))

section
variable (fs : FileSystem)

def mainWorktreeOf (dir : List String) : Option (List String) := do
  let pointer ← readSmallRegularFile fs (dir ++ [".git"])
  let text ← gitdirTarget pointer
  let main ← pointedMain (join dir text)
  let back ← readSmallRegularFile fs (join dir text ++ ["gitdir"])
  if NamesPath (trim back) (dir ++ [".git"]) then some main else none

/-- The walk over the ancestors, so many of them at most. -/
def rootFrom : Nat → List String → Option (List String)
  | 0, _ => none
  | depth + 1, dir =>
    match fs.symlinkMetadata (dir ++ [".git"]) with
    | some .dir => some dir
    | some (.file ..) => mainWorktreeOf fs dir
    | _ => if dir = [] then none else rootFrom depth dir.dropLast

def repositoryRoot (start : List String) : Option (List String) :=
  rootFrom fs maxRepoDiscoveryDepth start

def grantKey (cwd : List String) : String := pathText ((repositoryRoot fs cwd).getD cwd)

end

structure TrustGrants where
  granted : List String

inductive Admission
  | trusted (path : String)
  | restricted (path : String)
  | gone
  deriving DecidableEq, Repr

namespace TrustGrants

/-- Normalised on the way in. -/
def new (env : Environment) (fs : FileSystem) (granted : List String) : TrustGrants :=
  ⟨granted.map fun path => ((normalizeCwd fs env path).map pathText).getD ""⟩

def Holds (grants : TrustGrants) (path : List String) : Prop := pathText path ∈ grants.granted

instance (grants : TrustGrants) (path : List String) : Decidable (grants.Holds path) :=
  inferInstanceAs (Decidable (_ ∈ _))

end TrustGrants

def TrustGrants.admit (env : Environment) (fs : FileSystem) (grants : TrustGrants)
    (path : String) : Admission :=
  match normalizeCwd fs env path with
  | none => .gone
  | some normalized =>
    if ¬ fs.isDir normalized then .gone
    else if grants.Holds normalized then .trusted (pathText normalized)
    else
      match repositoryRoot fs normalized with
      | some root =>
        if grants.Holds root then .trusted (pathText normalized)
        else .restricted (pathText normalized)
      | none => .restricted (pathText normalized)

structure Nearest (fs : FileSystem) (depth : Nat) (path dir : List String) (node : Node) :
    Prop where
  above : dir <+: path
  close : path.length < dir.length + depth
  found : fs.node (dir ++ [".git"]) = some node
  solid : node ≠ .other
  first : ∀ lower, lower <+: path → dir.length < lower.length →
    fs.node (lower ++ [".git"]) = none ∨ fs.node (lower ++ [".git"]) = some .other

/-- As the texts stand: the pointer file of a directory gives the path of a main worktree and an
entry of its `.git/worktrees`, and the entry gives the path of the pointer file. -/
def LinkedTo (fs : FileSystem) (dir main : List String) : Prop :=
  ∃ pointer text tail name back, readSmallRegularFile fs (dir ++ [".git"]) = some pointer ∧
    gitdirTarget pointer = some text ∧ join dir text = main ++ tail ∧
    components tail = [".git", "worktrees", name] ∧
    readSmallRegularFile fs (main ++ tail ++ ["gitdir"]) = some back ∧
    NamesPath (trim back) (dir ++ [".git"])

/-- However they spell it: the pointer file leads to an entry of the `.git/worktrees` of a main
worktree, and the entry leads back to the pointer file. -/
def Registered (fs : FileSystem) (dir main : List String) : Prop :=
  ∃ pointer text head entry back, readSmallRegularFile fs (dir ++ [".git"]) = some pointer ∧
    gitdirTarget pointer = some text ∧ parent (join dir text) = some head ∧
    fs.canonicalize head = some (main ++ [".git", "worktrees"]) ∧
    fs.canonicalize (join dir text) = some entry ∧
    readSmallRegularFile fs (join dir text ++ ["gitdir"]) = some back ∧
    collapseLexicalComponents (join entry (trim back)) = dir ++ [".git"]

def RepositoryOf (fs : FileSystem) (path root : List String) : Prop :=
  ∃ dir node, Nearest fs maxRepoDiscoveryDepth path dir node ∧
    (node = .dir ∧ root = dir ∨ node ≠ .dir ∧ Registered fs dir root)

section normalisation
variable (fs : FileSystem)

theorem collapse_canonicalize (current unresolved : List String) :
    collapseLexicalComponents ((fs.canonicalize current).getD current ++ unresolved) =
      collapseLexicalComponents (current ++ unresolved) := by
  cases hcanonical : fs.canonicalize current with
  | none => rfl
  | some canonical =>
    have hsame : collapseLexicalComponents canonical = collapseLexicalComponents current := by
      rw [FileSystem.canonicalize_collapse hcanonical]
      exact collapse_names fun s hs => (collapse_mem hs).2
    rw [Option.getD_some, collapse_append, hsame, ← collapse_append]

theorem splitExisting_collapse (current unresolved : List String)
    (h : ∀ s ∈ unresolved, ¬ Blank s ∧ s ≠ "..") :
    collapseLexicalComponents
        ((fs.canonicalize (splitExisting fs current unresolved).1).getD
          (splitExisting fs current unresolved).1 ++ (splitExisting fs current unresolved).2) =
      collapseLexicalComponents (current ++ unresolved) := by
  induction current, unresolved using splitExisting.induct fs with
  | case1 current unresolved hexists =>
    unfold splitExisting
    rw [if_pos hexists]
    exact collapse_canonicalize fs current unresolved
  | case2 current unresolved hexists hname =>
    unfold splitExisting
    rw [if_neg hexists]
    simp only [hname]
    exact collapse_canonicalize fs current unresolved
  | case3 current unresolved hexists component hname hparent =>
    have hempty : rtrim current = [] := by
      unfold parent at hparent
      split_ifs at hparent with hempty
      exact hempty
    simp [fileName, hempty] at hname
  | case4 current unresolved hexists component hname up hparent ih =>
    obtain ⟨-, tail, segment, hcurrent, htail⟩ := parent_eq_some hparent
    have hsegment := fileName_append up htail
    rw [← hcurrent, hname] at hsegment
    split_ifs at hsegment with hup
    obtain rfl := Option.some.inj hsegment
    have hsolid : ¬ Blank component := (components_singleton htail).choose_spec.choose_spec.2.2.1
    have hnames : ∀ s ∈ component :: unresolved, ¬ Blank s ∧ s ≠ ".." := by
      intro s hs
      rcases List.mem_cons.mp hs with rfl | hrest
      · exact ⟨hsolid, hup⟩
      · exact h s hrest
    have hnext := ih hnames
    have hjoined : collapseLexicalComponents (current ++ unresolved) =
        collapseLexicalComponents (up ++ component :: unresolved) := by
      rw [hcurrent, List.append_assoc, collapse_append, collapse_append, List.foldl_append,
        foldl_collapse_components _ tail, htail]
      rfl
    have hstep : splitExisting fs current unresolved =
        splitExisting fs up (component :: unresolved) := by
      rw [splitExisting, if_neg hexists]
      simp only [hname]
      split
      · rename_i hnone
        rw [hparent] at hnone
        cases hnone
      · rename_i other hother
        rw [hparent] at hother
        rw [Option.some.inj hother]
    rw [hstep, hjoined]
    exact hnext

theorem normalizePathLossy_eq (path : List String) :
    normalizePathLossy fs path = collapseLexicalComponents path := by
  unfold normalizePathLossy
  cases hcanonical : fs.canonicalize path with
  | some canonical => exact FileSystem.canonicalize_collapse hcanonical
  | none =>
    have hsplit := splitExisting_collapse fs path [] (by simp)
    rw [List.append_nil] at hsplit
    exact hsplit

variable {fs} {env : Environment}

theorem normalizeCwd_names {cwd : String} {path : List String}
    (h : normalizeCwd fs env cwd = some path) : ∀ s ∈ path, Name s := by
  have hroot : ∀ text, ∀ s ∈ join [] text, '/' ∉ s.toList :=
    fun text => join_whole text (by simp)
  have hwhole : ∀ s ∈ (env.expandHomeDir (trim cwd)).getD (env.makeAbsolute (trim cwd)),
      '/' ∉ s.toList := by
    cases hexpand : env.expandHomeDir (trim cwd) with
    | none =>
      rw [Option.getD_none]
      exact join_whole _ (hroot env.currentDir)
    | some expanded =>
      rw [Option.getD_some]
      unfold Environment.expandHomeDir at hexpand
      split_ifs at hexpand
      · obtain ⟨home, -, rfl⟩ := Option.map_eq_some_iff.mp hexpand
        exact hroot home
      · obtain ⟨home, -, rfl⟩ := Option.map_eq_some_iff.mp hexpand
        exact join_whole _ (hroot home)
  unfold normalizeCwd at h
  dsimp only at h
  split_ifs at h with hblank
  obtain rfl := Option.some.inj h
  rw [normalizePathLossy_eq]
  intro s hs
  obtain ⟨hmem, hsolid, hdown⟩ := collapse_mem hs
  exact ⟨hsolid, hdown, hwhole s hmem⟩

theorem trim_sublist (text : String) : (trim text).toList.Sublist text.toList := by
  unfold trim
  rw [String.toList_ofList]
  exact (List.rdropWhile_prefix _ _).sublist.trans (List.dropWhile_sublist _)

theorem trim_pathText_absolute (path : List String) : isAbsolute (trim (pathText path)) := by
  obtain ⟨rest, hrest⟩ := isAbsolute_iff.mp (isAbsolute_pathText path)
  rw [isAbsolute_iff]
  unfold trim
  rw [String.toList_ofList, hrest, List.dropWhile_cons_of_neg (by decide)]
  have hslash := List.rdropWhile_prefix isWhitespace ('/' :: rest)
  cases hdrop : ('/' :: rest).rdropWhile isWhitespace with
  | nil =>
    rw [List.rdropWhile_eq_nil_iff] at hdrop
    exact absurd (hdrop '/' List.mem_cons_self) (by decide)
  | cons c tail =>
    rw [hdrop, List.cons_prefix_cons] at hslash
    exact ⟨tail, by rw [hslash.1]⟩

theorem normalizeCwd_absolute {cwd : String} (h : isAbsolute (trim cwd)) :
    normalizeCwd fs env cwd = some (collapseLexicalComponents (join [] (trim cwd))) := by
  obtain ⟨rest, hrest⟩ := isAbsolute_iff.mp h
  have hblank : trim cwd ≠ "" := by
    intro heq
    rw [heq] at hrest
    cases hrest
  have hhome : env.expandHomeDir (trim cwd) = none := by
    unfold Environment.expandHomeDir
    rw [if_neg, if_neg]
    · unfold Text.startsWith
      rw [decide_eq_true_eq, hrest]
      intro hslash
      have hhead : '~' = '/' := (List.cons_prefix_cons.mp hslash).1
      exact absurd hhead (by decide)
    · intro heq
      rw [heq] at hrest
      have hhead : '~' = '/' := (List.cons.inj hrest).1
      exact absurd hhead (by decide)
  unfold normalizeCwd
  rw [if_neg hblank, hhome, Option.getD_none, normalizePathLossy_eq]
  unfold Environment.makeAbsolute join
  rw [if_pos h, if_pos h]

theorem normalizeCwd_pathText {path : List String} (hnames : ∀ s ∈ path, Name s) :
    normalizeCwd fs env (pathText path) = some path ↔ trim (pathText path) = pathText path := by
  have hwhole : ∀ s ∈ path, '/' ∉ s.toList := fun s hs => (hnames s hs).whole
  have habsolute := trim_pathText_absolute path
  rw [normalizeCwd_absolute habsolute]
  constructor
  · intro h
    have hsame := Option.some.inj h
    by_cases hempty : path = []
    · rw [hempty]
      decide
    · -- a shorter text has no room for the path
      have hweight := collapse_weight (join [] (trim (pathText path)))
      rw [hsame, weight_join_absolute [] habsolute, ← length_pathText hempty] at hweight
      have hsublist := trim_sublist (pathText path)
      have hlength := hsublist.length_le
      rw [String.length_toList, String.length_toList] at hlength
      apply String.toList_inj.mp
      apply hsublist.eq_of_length
      rw [String.length_toList, String.length_toList]
      omega
  · intro h
    rw [h, join_pathText [] hwhole]
    split_ifs with hempty
    · rw [hempty]
      rfl
    · rw [collapse_names fun s hs => ⟨(hnames s hs).solid, (hnames s hs).down⟩]

end normalisation

section discovery
variable {fs : FileSystem} {path dir : List String} {node : Node} {depth : Nat}

theorem name_dotGit : Name ".git" := ⟨by decide, by decide, by decide⟩

theorem dotGit_names (h : ∀ s ∈ path, Name s) : ∀ s ∈ path ++ [".git"], Name s := by
  intro s hs
  rcases List.mem_append.mp hs with hold | hnew
  · exact h s hold
  · obtain rfl := List.mem_singleton.mp hnew
    exact name_dotGit

theorem Nearest.unique {dir' : List String} {node' : Node} (h : Nearest fs depth path dir node)
    (h' : Nearest fs depth path dir' node') : dir = dir' ∧ node = node' := by
  have hle : ¬ dir.length < dir'.length := by
    intro hlt
    have hsolid := h'.solid
    rcases h.first dir' h'.above hlt with hnone | hother
    · rw [h'.found] at hnone
      cases hnone
    · rw [h'.found] at hother
      exact hsolid (Option.some.inj hother)
  have hge : ¬ dir'.length < dir.length := by
    intro hlt
    have hsolid := h.solid
    rcases h'.first dir h.above hlt with hnone | hother
    · rw [h.found] at hnone
      cases hnone
    · rw [h.found] at hother
      exact hsolid (Option.some.inj hother)
  have hlength : dir.length = dir'.length := by omega
  have hdir : dir = dir' :=
    (List.prefix_of_prefix_length_le h.above h'.above hlength.le).eq_of_length hlength
  subst hdir
  have hfound := h.found
  rw [h'.found] at hfound
  exact ⟨rfl, (Option.some.inj hfound).symm⟩

theorem nearest_self (hfound : fs.node (path ++ [".git"]) = some node) (hsolid : node ≠ .other) :
    Nearest fs (depth + 1) path path node where
  above := List.prefix_rfl
  close := by omega
  found := hfound
  solid := hsolid
  first := by
    intro lower hlower hlt
    have := hlower.length_le
    omega

theorem nearest_up (hempty : path ≠ [])
    (hown : fs.node (path ++ [".git"]) = none ∨ fs.node (path ++ [".git"]) = some .other) :
    Nearest fs (depth + 1) path dir node ↔ Nearest fs depth path.dropLast dir node := by
  have hlength : path.dropLast.length + 1 = path.length := by
    have := List.length_pos_iff.mpr hempty
    rw [List.length_dropLast]
    omega
  have hdrop : path.dropLast <+: path := List.dropLast_prefix path
  constructor
  · intro h
    have hne : dir.length ≠ path.length := by
      intro heq
      have hsame := h.above.eq_of_length heq
      have hfound := h.found
      rw [hsame] at hfound
      rcases hown with hnone | hother
      · rw [hfound] at hnone
        cases hnone
      · rw [hfound] at hother
        exact h.solid (Option.some.inj hother)
    have hle := h.above.length_le
    have hclose := h.close
    constructor
    · exact List.prefix_of_prefix_length_le h.above hdrop (by omega)
    · omega
    · exact h.found
    · exact h.solid
    · exact fun lower hlower hlt => h.first lower (hlower.trans hdrop) hlt
  · intro h
    have hclose := h.close
    constructor
    · exact h.above.trans hdrop
    · omega
    · exact h.found
    · exact h.solid
    · intro lower hlower hlt
      have hle := hlower.length_le
      by_cases hfull : lower.length = path.length
      · rw [hlower.eq_of_length hfull]
        exact hown
      · exact h.first lower (List.prefix_of_prefix_length_le hlower hdrop (by omega)) hlt

/-- The walk finds the nearest `.git` and asks a pointer file for its main worktree. -/
theorem rootFrom_iff (hnames : ∀ s ∈ path, Name s) {root : List String} :
    rootFrom fs depth path = some root ↔ ∃ dir node, Nearest fs depth path dir node ∧
      (node = .dir ∧ root = dir ∨ node ≠ .dir ∧ mainWorktreeOf fs dir = some root) := by
  induction depth generalizing path with
  | zero =>
    constructor
    · intro h
      cases h
    · rintro ⟨dir, node, hnearest, -⟩
      have hle := hnearest.above.length_le
      have hclose := hnearest.close
      omega
  | succ depth ih =>
    have hmetadata : fs.symlinkMetadata (path ++ [".git"]) = fs.node (path ++ [".git"]) := by
      apply FileSystem.symlinkMetadata_names
      intro s hs
      have hname := dotGit_names hnames s hs
      exact ⟨hname.solid, hname.down⟩
    have hwalk : (fs.node (path ++ [".git"]) = none ∨ fs.node (path ++ [".git"]) = some .other) →
        ((if path = [] then none else rootFrom fs depth path.dropLast) = some root ↔
          ∃ dir node, Nearest fs (depth + 1) path dir node ∧
            (node = .dir ∧ root = dir ∨ node ≠ .dir ∧ mainWorktreeOf fs dir = some root)) := by
      intro hown
      by_cases hempty : path = []
      · rw [if_pos hempty]
        constructor
        · intro h
          cases h
        · rintro ⟨dir, node, hnearest, -⟩
          have habove := hnearest.above
          rw [hempty, List.prefix_nil] at habove
          have hfound := hnearest.found
          rw [habove.trans hempty.symm] at hfound
          rcases hown with hnone | hother
          · rw [hfound] at hnone
            cases hnone
          · rw [hfound] at hother
            exact absurd (Option.some.inj hother) hnearest.solid
      · rw [if_neg hempty, ih fun s hs => hnames s (List.mem_of_mem_dropLast hs)]
        simp only [nearest_up hempty hown]
    unfold rootFrom
    rw [hmetadata]
    cases hnode : fs.node (path ++ [".git"]) with
    | none => exact hwalk (Or.inl hnode)
    | some node =>
      cases node with
      | other => exact hwalk (Or.inr hnode)
      | dir =>
        have hself : Nearest fs (depth + 1) path path .dir := nearest_self hnode (by simp)
        constructor
        · intro h
          exact ⟨path, .dir, hself, Or.inl ⟨rfl, (Option.some.inj h).symm⟩⟩
        · rintro ⟨dir, node, hnearest, hroot⟩
          obtain ⟨rfl, rfl⟩ := hself.unique hnearest
          rcases hroot with ⟨-, rfl⟩ | ⟨hne, -⟩
          · rfl
          · exact absurd rfl hne
      | file size text =>
        have hself : Nearest fs (depth + 1) path path (.file size text) :=
          nearest_self hnode (by simp)
        constructor
        · intro h
          exact ⟨path, .file size text, hself, Or.inr ⟨by simp, h⟩⟩
        · rintro ⟨dir, node, hnearest, hroot⟩
          obtain ⟨rfl, rfl⟩ := hself.unique hnearest
          rcases hroot with ⟨hdir, -⟩ | ⟨-, hmain⟩
          · cases hdir
          · exact hmain

end discovery

section pointers
variable {fs : FileSystem} {dir main : List String}

theorem components_cons (main : List String) {path : List String} {segment : String}
    {rest : List String}
    (h : components path = segment :: rest) :
    ∃ first later, path = first ++ later ∧ components first = [segment] ∧
      components later = rest ∧ rtrim (main ++ first) = main ++ first := by
  obtain ⟨before, after, rfl, hbefore, hsegment, hafter⟩ := List.filter_eq_cons_iff.mp h
  have hsolid : ¬ Blank segment := by simpa using hsegment
  have hblank : ∀ s ∈ before, Blank s := fun s hs => by simpa using hbefore s hs
  refine ⟨before ++ [segment], after, by simp, ?_, hafter, ?_⟩
  · rw [components_append, components_blank hblank]
    simp [components, hsolid]
  · rw [← List.append_assoc]
    exact rtrim_solid _ hsolid

theorem pointedMain_iff {target : List String} :
    pointedMain target = some main ↔ rtrim main = main ∧ ∃ tail name, target = main ++ tail ∧
      components tail = [".git", "worktrees", name] := by
  constructor
  · intro h
    unfold pointedMain at h
    obtain ⟨worktrees, hworktrees, hrest⟩ := Option.bind_eq_some_iff.mp h
    split_ifs at hrest with hfile
    obtain ⟨gitDir, hgitDir, hlast⟩ := Option.bind_eq_some_iff.mp hrest
    split_ifs at hlast with hgit
    obtain ⟨-, entry, name, rfl, hentry⟩ := parent_eq_some hworktrees
    obtain ⟨-, second, middle, rfl, hsecond⟩ := parent_eq_some hgitDir
    obtain ⟨htrim, first, top, rfl, hfirst⟩ := parent_eq_some hlast
    rw [fileName_append _ hsecond] at hfile
    rw [fileName_append _ hfirst] at hgit
    have hmiddle : middle = "worktrees" := by
      split_ifs at hfile with hup
      · simp at hfile
      · simpa using hfile
    have htop : top = ".git" := by
      split_ifs at hgit with hup
      · simp at hgit
      · simpa using hgit
    refine ⟨htrim, first ++ second ++ entry, name, by simp, ?_⟩
    rw [components_append, components_append, hfirst, hsecond, hentry, hmiddle, htop]
    rfl
  · rintro ⟨htrim, tail, name, rfl, htail⟩
    obtain ⟨first, later, rfl, hfirst, hlater, hfull⟩ := components_cons main htail
    obtain ⟨second, entry, rfl, hsecond, hentry, hfull'⟩ :=
      components_cons (main ++ first) hlater
    have hparent := parent_append (main ++ first ++ second) hentry
    have hmiddle := parent_append (main ++ first) hsecond
    have htop := parent_append main hfirst
    have hfile := fileName_append (main ++ first) hsecond
    have hgit := fileName_append main hfirst
    rw [if_neg (by decide)] at hfile hgit
    unfold pointedMain
    rw [← List.append_assoc, ← List.append_assoc, hparent, hfull', Option.bind_some, hfile,
      if_neg (by simp), hmiddle, hfull, Option.bind_some, hgit, if_neg (by simp), htop, htrim]

theorem mainWorktreeOf_iff :
    mainWorktreeOf fs dir = some main ↔ rtrim main = main ∧ LinkedTo fs dir main := by
  constructor
  · intro h
    unfold mainWorktreeOf at h
    obtain ⟨pointer, hpointer, h⟩ := Option.bind_eq_some_iff.mp h
    obtain ⟨text, htext, h⟩ := Option.bind_eq_some_iff.mp h
    obtain ⟨named, hnamed, h⟩ := Option.bind_eq_some_iff.mp h
    obtain ⟨back, hback, h⟩ := Option.bind_eq_some_iff.mp h
    split_ifs at h with hnames
    obtain rfl := Option.some.inj h
    obtain ⟨htrim, tail, name, htarget, htail⟩ := pointedMain_iff.mp hnamed
    rw [htarget] at hback
    exact ⟨htrim, pointer, text, tail, name, back, hpointer, htext, htarget, htail, hback, hnames⟩
  · rintro ⟨htrim, pointer, text, tail, name, back, hpointer, htext, htarget, htail, hback, hnames⟩
    have hnamed := pointedMain_iff.mpr ⟨htrim, tail, name, htarget, htail⟩
    rw [htarget] at hnamed
    unfold mainWorktreeOf
    simp only [hpointer, htext, htarget, hnamed, hback, hnames, Option.bind_eq_bind,
      Option.bind_some, if_true]

theorem rtrim_names {path : List String} (h : ∀ s ∈ path, Name s) : rtrim path = path := by
  unfold rtrim
  rw [List.rdropWhile_eq_self_iff]
  intro hne
  simpa using (h _ (List.getLast_mem hne)).solid

/-- What the texts say the files bear out: the main worktree they name is there, and it is the
one the pointer file leads to. -/
theorem LinkedTo.registered (h : LinkedTo fs dir main) (hdir : ∀ s ∈ dir, Name s) :
    ∃ root, fs.canonicalize main = some root ∧ Registered fs dir root := by
  obtain ⟨pointer, text, tail, name, back, hpointer, htext, htarget, htail, hback, hnames⟩ := h
  obtain ⟨first, later, rfl, hfirst, hlater, -⟩ := components_cons main htail
  obtain ⟨second, last, rfl, hsecond, hlast, hfull⟩ :=
    components_cons (main ++ first) hlater
  have htarget' : join dir text = main ++ first ++ second ++ last := by
    rw [htarget]
    simp
  rw [← htarget] at hback
  obtain ⟨reached, hreached⟩ : ∃ reached,
      fs.canonicalize (join dir text ++ ["gitdir"]) = some reached := by
    cases hcanonical : fs.canonicalize (join dir text ++ ["gitdir"]) with
    | some reached => exact ⟨reached, rfl⟩
    | none => simp [readSmallRegularFile, FileSystem.symlinkMetadata, hcanonical] at hback
  obtain ⟨entry, hentry, -⟩ := FileSystem.canonicalize_prefix hreached
  have hentry' := hentry
  rw [htarget'] at hentry'
  obtain ⟨head, hhead, -⟩ := FileSystem.canonicalize_prefix hentry'
  have hhead' := hhead
  rw [List.append_assoc] at hhead'
  obtain ⟨root, hroot, hwalk⟩ := FileSystem.canonicalize_prefix hhead'
  have hworktrees : head = root ++ [".git", "worktrees"] := by
    rw [FileSystem.resolve_collapse hwalk, foldl_collapse_components, components_append, hfirst,
      hsecond]
    exact foldl_collapse_names (by decide)
  have hcounts : collapseLexicalComponents (join entry (trim back)) = dir ++ [".git"] := by
    rw [join, if_pos hnames.1, collapseLexicalComponents, foldl_collapse_components, hnames.2]
    apply collapse_names
    intro s hs
    have hname := dotGit_names hdir s hs
    exact ⟨hname.solid, hname.down⟩
  refine ⟨root, hroot, pointer, text, main ++ first ++ second, entry, back, hpointer, htext, ?_, ?_,
    hentry, hback, hcounts⟩
  · rw [htarget', parent_append _ hlast, hfull]
  · rw [hhead, hworktrees]

theorem LinkedTo.whole (h : LinkedTo fs dir main)
    (hdir : ∀ s ∈ dir, Name s) : ∀ s ∈ main, '/' ∉ s.toList := by
  obtain ⟨pointer, text, tail, name, back, -, -, htarget, -⟩ := h
  intro s hs
  apply join_whole text (fun s hs => (hdir s hs).whole) s
  rw [htarget]
  exact List.mem_append_left _ hs

theorem Registered.unique {main' : List String} (h : Registered fs dir main)
    (h' : Registered fs dir main') : main = main' := by
  obtain ⟨pointer, text, head, entry, back, hpointer, htext, hhead, hmain, -⟩ := h
  obtain ⟨pointer', text', head', entry', back', hpointer', htext', hhead', hmain', -⟩ := h'
  obtain rfl := Option.some.inj (hpointer.symm.trans hpointer')
  obtain rfl := Option.some.inj (htext.symm.trans htext')
  obtain rfl := Option.some.inj (hhead.symm.trans hhead')
  exact List.append_cancel_right (Option.some.inj (hmain.symm.trans hmain'))

theorem Registered.main_dir (h : Registered fs dir main) :
    fs.node main = some .dir ∧ fs.node (main ++ [".git"]) = some .dir := by
  obtain ⟨pointer, text, head, entry, back, -, -, -, hmain, -⟩ := h
  have hnode := FileSystem.canonicalize_isSome hmain
  constructor
  · exact FileSystem.node_above hnode (by simp)
  · have hsplit : main ++ [".git", "worktrees"] = main ++ [".git"] ++ ["worktrees"] := by simp
    rw [hsplit] at hnode
    exact FileSystem.node_above hnode (by simp)

end pointers

section repositories
variable {fs : FileSystem} {path root : List String}

theorem repositoryRoot_iff (hnames : ∀ s ∈ path, Name s) :
    repositoryRoot fs path = some root ↔
      ∃ dir node, Nearest fs maxRepoDiscoveryDepth path dir node ∧
        (node = .dir ∧ root = dir ∨
          node ≠ .dir ∧ rtrim root = root ∧ LinkedTo fs dir root) := by
  unfold repositoryRoot
  rw [rootFrom_iff hnames]
  simp only [mainWorktreeOf_iff]

theorem RepositoryOf.unique {root' : List String} (h : RepositoryOf fs path root)
    (h' : RepositoryOf fs path root') : root = root' := by
  obtain ⟨dir, node, hnearest, hroot⟩ := h
  obtain ⟨dir', node', hnearest', hroot'⟩ := h'
  obtain ⟨rfl, rfl⟩ := hnearest.unique hnearest'
  rcases hroot with ⟨hdir, rfl⟩ | ⟨hfile, hregistered⟩
  · rcases hroot' with ⟨-, rfl⟩ | ⟨hfile, -⟩
    · rfl
    · exact absurd hdir hfile
  · rcases hroot' with ⟨hdir, -⟩ | ⟨-, hregistered'⟩
    · exact absurd hdir hfile
    · exact hregistered.unique hregistered'

theorem RepositoryOf.main (h : RepositoryOf fs path root) :
    fs.node root = some .dir ∧ Nearest fs maxRepoDiscoveryDepth root root .dir ∧
      RepositoryOf fs root root := by
  have hdirs : fs.node root = some .dir ∧ fs.node (root ++ [".git"]) = some .dir := by
    obtain ⟨dir, node, hnearest, ⟨rfl, rfl⟩ | ⟨-, hregistered⟩⟩ := h
    · refine ⟨?_, hnearest.found⟩
      have hfound : (fs.node (root ++ [".git"])).isSome := by
        rw [hnearest.found]
        rfl
      exact FileSystem.node_above hfound (by simp)
    · exact hregistered.main_dir
  have hnearest : Nearest fs maxRepoDiscoveryDepth root root .dir :=
    nearest_self hdirs.2 (by simp)
  exact ⟨hdirs.1, hnearest, root, .dir, hnearest, Or.inl ⟨rfl, rfl⟩⟩

theorem repositoryOf_of_root (hnames : ∀ s ∈ path, Name s)
    (h : repositoryRoot fs path = some root) : ∃ main, RepositoryOf fs path main := by
  obtain ⟨dir, node, hnearest, hroot⟩ := (repositoryRoot_iff hnames).mp h
  rcases hroot with ⟨hdir, rfl⟩ | ⟨hfile, -, hlinked⟩
  · exact ⟨root, root, node, hnearest, Or.inl ⟨hdir, rfl⟩⟩
  · have hdirNames : ∀ s ∈ dir, Name s := fun s hs => hnames s (hnearest.above.subset hs)
    obtain ⟨main, -, hregistered⟩ := hlinked.registered hdirNames
    exact ⟨main, dir, node, hnearest, Or.inr ⟨hfile, hregistered⟩⟩

end repositories

/-- What makes a directory trusted: a grant on it, on the repository whose `.git` directory is
the nearest, or on the main worktree that its nearest pointer file and an entry there agree on. -/
def Vouched (fs : FileSystem) (grants : TrustGrants) (path : List String) : Prop :=
  grants.Holds path ∨
    (∃ dir, Nearest fs maxRepoDiscoveryDepth path dir .dir ∧ grants.Holds dir) ∨
    ∃ dir node main, Nearest fs maxRepoDiscoveryDepth path dir node ∧ node ≠ .dir ∧
      rtrim main = main ∧ LinkedTo fs dir main ∧ grants.Holds main

/-- Some entry under a main worktree's `.git/worktrees` names the pointer file of a directory. -/
def RegisteredAt (fs : FileSystem) (main dir : List String) : Prop :=
  ∃ name size back,
    fs.node (collapseLexicalComponents (main ++ [".git", "worktrees", name, "gitdir"])) =
      some (.file size (some back)) ∧ NamesPath (trim back) (dir ++ [".git"])

/-- Granting agrees with admission: a list with the key of a directory admits the directory and
every other one of its repository. -/
def GrantAgrees (env : Environment) (fs : FileSystem) (path : List String) : Prop :=
  ∀ granted, grantKey fs path ∈ granted →
    TrustGrants.admit env fs (TrustGrants.new env fs granted) (pathText path) =
      .trusted (pathText path) ∧
    ∀ root other, fs.node other = some .dir → RepositoryOf fs path root →
      RepositoryOf fs other root →
      TrustGrants.admit env fs (TrustGrants.new env fs granted) (pathText other) =
        .trusted (pathText other)

/-- The paths of the repository end in no whitespace, and its pointer files and their entries
give each other's absolute paths, without blank segments or steps up. -/
def PlainlySpelled (fs : FileSystem) (path : List String) : Prop :=
  trim (pathText path) = pathText path ∧
    ∀ root other, fs.node other = some .dir → RepositoryOf fs path root →
      RepositoryOf fs other root → trim (pathText other) = pathText other ∧
        ∀ dir node, Nearest fs maxRepoDiscoveryDepth other dir node → node ≠ .dir →
          LinkedTo fs dir root

section admission
variable {env : Environment} {fs : FileSystem} {grants : TrustGrants}

theorem isDir_iff {path : List String} (hnames : ∀ s ∈ path, Name s) :
    fs.isDir path ↔ fs.node path = some .dir := by
  unfold FileSystem.isDir
  rw [decide_eq_true_eq, FileSystem.symlinkMetadata_names]
  intro s hs
  exact ⟨(hnames s hs).solid, (hnames s hs).down⟩

theorem vouched_iff_root {path : List String} (hnames : ∀ s ∈ path, Name s) :
    Vouched fs grants path ↔
      grants.Holds path ∨ ∃ root, repositoryRoot fs path = some root ∧ grants.Holds root := by
  have hroot : ∀ root, repositoryRoot fs path = some root ↔ _ :=
    fun root => repositoryRoot_iff hnames
  constructor
  · rintro (hown | ⟨dir, hnearest, hholds⟩ | ⟨dir, node, main, hnearest, hfile, htrim, hlinked,
      hholds⟩)
    · exact Or.inl hown
    · exact Or.inr ⟨dir, (hroot dir).mpr ⟨dir, .dir, hnearest, Or.inl ⟨rfl, rfl⟩⟩, hholds⟩
    · exact Or.inr ⟨main, (hroot main).mpr
        ⟨dir, node, hnearest, Or.inr ⟨hfile, htrim, hlinked⟩⟩, hholds⟩
  · rintro (hown | ⟨root, hfound, hholds⟩)
    · exact Or.inl hown
    · obtain ⟨dir, node, hnearest, ⟨rfl, rfl⟩ | ⟨hfile, htrim, hlinked⟩⟩ := (hroot root).mp hfound
      · exact Or.inr (Or.inl ⟨root, hnearest, hholds⟩)
      · exact Or.inr (Or.inr ⟨dir, node, root, hnearest, hfile, htrim, hlinked, hholds⟩)

theorem admit_trusted_iff {text result : String} :
    grants.admit env fs text = .trusted result ↔ ∃ path, normalizeCwd fs env text = some path ∧
      fs.node path = some .dir ∧ result = pathText path ∧ Vouched fs grants path := by
  unfold TrustGrants.admit
  cases hnormalized : normalizeCwd fs env text with
  | none => simp
  | some path =>
    have hnames := normalizeCwd_names hnormalized
    simp only [isDir_iff hnames, Option.some.injEq, exists_eq_left']
    by_cases hdir : fs.node path = some .dir
    · rw [if_neg (not_not.mpr hdir)]
      rw [vouched_iff_root hnames]
      by_cases hown : grants.Holds path
      · simp [hown, hdir, eq_comm]
      · rw [if_neg hown]
        cases hfound : repositoryRoot fs path with
        | none => simp [hown]
        | some root =>
          by_cases hholds : grants.Holds root
          · simp [hholds, hdir, eq_comm]
          · simp [hholds, hown]
    · simp [hdir]

theorem read_node {path : List String} {text : String}
    (h : readSmallRegularFile fs path = some text) :
    ∃ size, fs.node (collapseLexicalComponents path) = some (.file size (some text)) := by
  unfold readSmallRegularFile at h
  split at h
  · rename_i size found hmetadata
    split_ifs at h
    rw [h] at hmetadata
    obtain ⟨reached, hreached, hnode⟩ := Option.bind_eq_some_iff.mp hmetadata
    rw [← FileSystem.canonicalize_collapse hreached]
    exact ⟨size, hnode⟩
  · cases h

theorem collapse_entry {main : List String} (hmain : ∀ s ∈ main, Name s) (name : String) :
    ∃ below, collapseLexicalComponents (main ++ [".git", "worktrees", name, "gitdir"]) =
      main ++ ".git" :: below := by
  have hclean : ∀ s ∈ main ++ [".git", "worktrees"], ¬ Blank s ∧ s ≠ ".." := by
    intro s hs
    rcases List.mem_append.mp hs with hold | hnew
    · exact ⟨(hmain s hold).solid, (hmain s hold).down⟩
    · simp only [List.mem_cons, List.not_mem_nil, or_false] at hnew
      rcases hnew with rfl | rfl
      · exact ⟨by decide, by decide⟩
      · exact ⟨by decide, by decide⟩
  have hsplit : main ++ [".git", "worktrees", name, "gitdir"] =
      main ++ [".git", "worktrees"] ++ [name, "gitdir"] := by simp
  rw [hsplit, collapse_append, collapse_names hclean, List.foldl_cons, List.foldl_cons,
    List.foldl_nil]
  have hlast : ∀ path : List String, collapseStep path "gitdir" = path ++ ["gitdir"] := by
    intro path
    rw [collapseStep, if_neg (by decide), if_neg (by decide)]
  rw [hlast, collapseStep]
  split_ifs
  · exact ⟨["worktrees", "gitdir"], by simp⟩
  · exact ⟨["gitdir"], by simp⟩
  · exact ⟨["worktrees", name, "gitdir"], by simp⟩

theorem holds_names {granted : List String} {path : List String}
    (h : (TrustGrants.new env fs granted).Holds path) (hwhole : ∀ s ∈ path, '/' ∉ s.toList)
    (htrim : rtrim path = path) : ∀ s ∈ path, Name s := by
  obtain ⟨text, -, heq⟩ := List.mem_map.mp h
  cases hnormalized : normalizeCwd fs env text with
  | none =>
    rw [hnormalized] at heq
    have habsolute := isAbsolute_pathText path
    rw [← heq] at habsolute
    exact absurd habsolute (by decide)
  | some normalized =>
    rw [hnormalized] at heq
    have hnames := normalizeCwd_names hnormalized
    have hsame : normalized = path := by
      refine pathText_injective (fun s hs => (hnames s hs).whole) hwhole ?_ ?_ heq
      · rintro rfl
        exact (hnames "" (by simp)).solid (Or.inl rfl)
      · rintro rfl
        exact absurd htrim (by decide)
    rw [← hsame]
    exact hnames

theorem admit_unchanged {before after : FileSystem} {granted : List String} {text result : String}
    (hsame : ∀ main, (TrustGrants.new env after granted).Holds main → ∀ below,
      after.node (main ++ ".git" :: below) = before.node (main ++ ".git" :: below))
    (h : TrustGrants.admit env after (TrustGrants.new env after granted) text = .trusted result) :
    ∃ path, result = pathText path ∧ ((TrustGrants.new env after granted).Holds path ∨
      ∃ main, (TrustGrants.new env after granted).Holds main ∧
        (Nearest after maxRepoDiscoveryDepth path main .dir ∨
          ∃ dir node, Nearest after maxRepoDiscoveryDepth path dir node ∧
            RegisteredAt before main dir)) := by
  obtain ⟨path, hnormalized, -, hresult, hvouched⟩ := admit_trusted_iff.mp h
  refine ⟨path, hresult, ?_⟩
  rcases hvouched with hown | ⟨dir, hnearest, hholds⟩ |
    ⟨dir, node, main, hnearest, -, htrim, hlinked, hholds⟩
  · exact Or.inl hown
  · exact Or.inr ⟨dir, hholds, Or.inl hnearest⟩
  · refine Or.inr ⟨main, hholds, Or.inr ⟨dir, node, hnearest, ?_⟩⟩
    have hdir : ∀ s ∈ dir, Name s :=
      fun s hs => normalizeCwd_names hnormalized s (hnearest.above.subset hs)
    have hwhole := hlinked.whole hdir
    obtain ⟨pointer, text, tail, name, back, -, -, htarget, htail, hback, hnames⟩ := hlinked
    have hmain := holds_names hholds hwhole htrim
    have hnode : ∃ size, after.node (collapseLexicalComponents
        (main ++ [".git", "worktrees", name, "gitdir"])) = some (.file size (some back)) := by
      obtain ⟨size, hfile⟩ := read_node hback
      refine ⟨size, ?_⟩
      rw [← hfile, List.append_assoc, collapse_append, collapse_append,
        foldl_collapse_components _ (tail ++ ["gitdir"]), components_append, htail]
      rfl
    obtain ⟨size, hfile⟩ := hnode
    obtain ⟨below, hbelow⟩ := collapse_entry hmain name
    refine ⟨name, size, back, ?_, hnames⟩
    rw [← hfile, hbelow, hsame main hholds]

theorem holds_key (env : Environment) (fs : FileSystem)
    {path : List String} (hnames : ∀ s ∈ path, Name s)
    (htrim : trim (pathText path) = pathText path) {granted : List String}
    (hmem : pathText path ∈ granted) : (TrustGrants.new env fs granted).Holds path := by
  refine List.mem_map.mpr ⟨pathText path, hmem, ?_⟩
  rw [(normalizeCwd_pathText hnames).mpr htrim]
  rfl

theorem pathText_names_injective {path other : List String} (h : ∀ s ∈ path, Name s)
    (hother : ∀ s ∈ other, Name s) (heq : pathText path = pathText other) : path = other := by
  refine pathText_injective (fun s hs => (h s hs).whole) (fun s hs => (hother s hs).whole) ?_ ?_ heq
  · rintro rfl
    exact (h "" (by simp)).solid (Or.inl rfl)
  · rintro rfl
    exact (hother "" (by simp)).solid (Or.inl rfl)

/-- A path is admitted under its own text when trimming leaves the text alone and something
vouches for the path. -/
theorem admit_pathText {path : List String} (hdir : fs.node path = some .dir) :
    grants.admit env fs (pathText path) = .trusted (pathText path) ↔
      trim (pathText path) = pathText path ∧ Vouched fs grants path := by
  have hnames : ∀ s ∈ path, Name s := FileSystem.node_names (by rw [hdir]; rfl)
  rw [admit_trusted_iff]
  constructor
  · rintro ⟨normalized, hnormalized, -, heq, hvouched⟩
    have hsame := pathText_names_injective hnames (normalizeCwd_names hnormalized) heq
    rw [← hsame] at hnormalized hvouched
    exact ⟨(normalizeCwd_pathText hnames).mp hnormalized, hvouched⟩
  · rintro ⟨htrim, hvouched⟩
    exact ⟨path, (normalizeCwd_pathText hnames).mpr htrim, hdir, rfl, hvouched⟩

theorem repositoryRoot_of_plain {path root : List String} (hnames : ∀ s ∈ path, Name s)
    (hrepository : RepositoryOf fs path root) (hroot : ∀ s ∈ root, Name s)
    (hplain : ∀ dir node, Nearest fs maxRepoDiscoveryDepth path dir node → node ≠ .dir →
      LinkedTo fs dir root) : repositoryRoot fs path = some root := by
  rw [repositoryRoot_iff hnames]
  obtain ⟨dir, node, hnearest, hcase⟩ := hrepository
  refine ⟨dir, node, hnearest, ?_⟩
  rcases hcase with hown | ⟨hfile, -⟩
  · exact Or.inl hown
  · exact Or.inr ⟨hfile, rtrim_names hroot, hplain dir node hnearest hfile⟩

theorem holds_one {key : String} {path other : List String}
    (h : (TrustGrants.new env fs [key]).Holds path)
    (h' : (TrustGrants.new env fs [key]).Holds other) : pathText path = pathText other := by
  have hpath := List.mem_singleton.mp h
  have hother := List.mem_singleton.mp h'
  rw [hpath, hother]

/-- Granting agrees with admission exactly in a plainly spelled repository. -/
theorem grantAgrees_iff {path : List String} (hdir : fs.node path = some .dir) :
    GrantAgrees env fs path ↔ PlainlySpelled fs path := by
  have hnames : ∀ {other}, fs.node other = some .dir → ∀ s ∈ other, Name s := by
    intro other hother
    exact FileSystem.node_names (by rw [hother]; rfl)
  constructor
  · intro h
    have hagrees := h [grantKey fs path] (by simp)
    refine ⟨((admit_pathText hdir).mp hagrees.1).1, ?_⟩
    intro root other hother hpath hrepository
    obtain ⟨htrim, hvouched⟩ :=
      (admit_pathText hother).mp (hagrees.2 root other hother hpath hrepository)
    refine ⟨htrim, ?_⟩
    intro dir node hnearest hfile
    obtain ⟨hrootDir, hrootNearest, hrootOf⟩ := hpath.main
    -- the main worktree itself is admitted, so the key is read as its path
    have hheld : (TrustGrants.new env fs [grantKey fs path]).Holds root := by
      obtain ⟨-, hvouched⟩ :=
        (admit_pathText hrootDir).mp (hagrees.2 root root hrootDir hpath hrootOf)
      rcases (vouched_iff_root (hnames hrootDir)).mp hvouched with hown | ⟨found, hfound, hholds⟩
      · exact hown
      · obtain ⟨dir', node', hnearest', hcase⟩ := (repositoryRoot_iff (hnames hrootDir)).mp hfound
        obtain ⟨rfl, rfl⟩ := hrootNearest.unique hnearest'
        rcases hcase with ⟨-, rfl⟩ | ⟨hne, -⟩
        · exact hholds
        · exact absurd rfl hne
    rcases (vouched_iff_root (hnames hother)).mp hvouched with hown | ⟨found, hfound, hholds⟩
    · have hsame := pathText_names_injective (hnames hother) (hnames hrootDir)
        (holds_one hown hheld)
      subst hsame
      exact absurd (hrootNearest.unique hnearest).2.symm hfile
    · obtain ⟨dir', node', hnearest', hcase⟩ := (repositoryRoot_iff (hnames hother)).mp hfound
      obtain ⟨rfl, rfl⟩ := hnearest.unique hnearest'
      rcases hcase with ⟨hdir', -⟩ | ⟨-, hfoundTrim, hlinked⟩
      · exact absurd hdir' hfile
      · have hdirNames : ∀ s ∈ dir, Name s :=
          fun s hs => hnames hother s (hnearest.above.subset hs)
        have hfoundNames := holds_names hholds (hlinked.whole hdirNames) hfoundTrim
        have hsame := pathText_names_injective hfoundNames (hnames hrootDir)
          (holds_one hholds hheld)
        rw [← hsame]
        exact hlinked
  · rintro ⟨htrim, hplain⟩ granted hmem
    by_cases hrepository : ∃ root, RepositoryOf fs path root
    · obtain ⟨root, hroot⟩ := hrepository
      obtain ⟨hrootDir, -, hrootOf⟩ := hroot.main
      have hfound := repositoryRoot_of_plain (hnames hdir) hroot (hnames hrootDir)
        (hplain root path hdir hroot hroot).2
      have hkey : grantKey fs path = pathText root := by
        rw [grantKey, hfound, Option.getD_some]
      rw [hkey] at hmem
      have hheld := holds_key env fs (hnames hrootDir)
        (hplain root root hrootDir hroot hrootOf).1 hmem
      constructor
      · rw [admit_pathText hdir, vouched_iff_root (hnames hdir)]
        exact ⟨htrim, Or.inr ⟨root, hfound, hheld⟩⟩
      · intro root' other hother hpath hotherOf
        obtain rfl := hroot.unique hpath
        obtain ⟨htrimOther, hspelled⟩ := hplain root other hother hroot hotherOf
        have hfoundOther := repositoryRoot_of_plain (hnames hother) hotherOf (hnames hrootDir)
          hspelled
        rw [admit_pathText hother, vouched_iff_root (hnames hother)]
        exact ⟨htrimOther, Or.inr ⟨root, hfoundOther, hheld⟩⟩
    · have hfound : repositoryRoot fs path = none := by
        cases hfound : repositoryRoot fs path with
        | none => rfl
        | some root => exact absurd (repositoryOf_of_root (hnames hdir) hfound) hrepository
      have hkey : grantKey fs path = pathText path := by
        rw [grantKey, hfound, Option.getD_none]
      rw [hkey] at hmem
      constructor
      · rw [admit_pathText hdir]
        exact ⟨htrim, Or.inl (holds_key env fs (hnames hdir) htrim hmem)⟩
      · intro root other _ hpath
        exact absurd ⟨root, hpath⟩ hrepository

end admission

/-- For every file tree: what is admitted is vouched for; a change outside the `.git` of granted
repositories admits only trees of theirs or trees they had registered; and granting agrees with
admission for a directory exactly where its repository is plainly spelled. -/
theorem trust_per_repository (env : Environment) (fs : FileSystem) :
    (∀ granted text result,
      TrustGrants.admit env fs (TrustGrants.new env fs granted) text = .trusted result →
      ∃ path, normalizeCwd fs env text = some path ∧ fs.node path = some .dir ∧
        result = pathText path ∧ Vouched fs (TrustGrants.new env fs granted) path) ∧
    (∀ after granted text result,
      (∀ main, (TrustGrants.new env after granted).Holds main → ∀ below,
        after.node (main ++ ".git" :: below) = fs.node (main ++ ".git" :: below)) →
      TrustGrants.admit env after (TrustGrants.new env after granted) text = .trusted result →
      ∃ path, result = pathText path ∧ ((TrustGrants.new env after granted).Holds path ∨
        ∃ main, (TrustGrants.new env after granted).Holds main ∧
          (Nearest after maxRepoDiscoveryDepth path main .dir ∨
            ∃ dir node, Nearest after maxRepoDiscoveryDepth path dir node ∧
              RegisteredAt fs main dir))) ∧
    ∀ path, fs.node path = some .dir → (GrantAgrees env fs path ↔ PlainlySpelled fs path) := by
  refine ⟨?_, ?_, ?_⟩
  · intro granted text result h
    exact admit_trusted_iff.mp h
  · intro after granted text result hsame h
    exact admit_unchanged hsame h
  · intro path hdir
    exact grantAgrees_iff hdir

def linkedEntries (pointer : String) : List (List String × Node) :=
  [(["main"], .dir), (["main", ".git"], .dir), (["main", ".git", "worktrees"], .dir),
    (["main", ".git", "worktrees", "side"], .dir),
    (["main", ".git", "worktrees", "side", "gitdir"], .file 11 (some "/side/.git\n")),
    (["side"], .dir), (["side", ".git"], .file pointer.utf8ByteSize (some pointer))]

theorem linkedEntries_inside (pointer : String) : ∀ e ∈ linkedEntries pointer,
    entryAt (linkedEntries pointer) e.1.dropLast = some .dir ∧ ∀ s ∈ e.1.getLast?, Name s := by
  simp only [linkedEntries, List.forall_mem_cons, List.not_mem_nil, false_implies, implies_true,
    and_true]
  refine ⟨⟨rfl, ?_⟩, ⟨rfl, ?_⟩, ⟨rfl, ?_⟩, ⟨rfl, ?_⟩, ⟨rfl, ?_⟩, ⟨rfl, ?_⟩, ⟨rfl, ?_⟩⟩ <;> decide

/-- The worktree as `git worktree add` leaves it. -/
def absoluteTree : FileSystem :=
  .ofEntries _ (linkedEntries_inside "gitdir: /main/.git/worktrees/side\n")

def rootEnvironment : Environment := ⟨some "/root", "/"⟩

theorem absoluteTree_nearest : Nearest absoluteTree maxRepoDiscoveryDepth ["side"] ["side"]
    (.file 34 (some "gitdir: /main/.git/worktrees/side\n")) :=
  nearest_self (by decide +kernel) (by simp)

theorem absoluteTree_linked : LinkedTo absoluteTree ["side"] ["main"] :=
  ⟨"gitdir: /main/.git/worktrees/side\n", "/main/.git/worktrees/side",
    [".git", "worktrees", "side"], "side", "/side/.git\n", by decide +kernel, by decide +kernel,
    by decide +kernel, by decide +kernel, by decide +kernel, by decide +kernel⟩

theorem absoluteTree_plain : PlainlySpelled absoluteTree ["side"] := by
  have hside : RepositoryOf absoluteTree ["side"] ["main"] := by
    obtain ⟨root, hroot, hregistered⟩ := absoluteTree_linked.registered (by decide)
    have hmain : absoluteTree.canonicalize ["main"] = some ["main"] := by decide +kernel
    obtain rfl := Option.some.inj (hmain.symm.trans hroot)
    exact ⟨["side"], _, absoluteTree_nearest, Or.inr ⟨by simp, hregistered⟩⟩
  refine ⟨by decide +kernel, ?_⟩
  intro root other hother hpath _
  obtain rfl := hside.unique hpath
  constructor
  · by_cases hempty : other = []
    · rw [hempty]
      decide +kernel
    · have hmem := mem_of_entryAt hempty hother
      simp only [linkedEntries, List.mem_cons, Prod.mk.injEq, reduceCtorEq, and_true, and_false,
        or_false, false_or, List.not_mem_nil] at hmem
      rcases hmem with rfl | rfl | rfl | rfl | rfl <;> decide +kernel
  · intro dir node hnearest hfile
    have hmem := mem_of_entryAt (by simp) hnearest.found
    have hdir : dir = ["side"] := by
      simp only [linkedEntries, List.mem_cons, List.not_mem_nil, or_false, Prod.mk.injEq] at hmem
      rcases hmem with ⟨-, rfl⟩ | ⟨-, rfl⟩ | ⟨-, rfl⟩ | ⟨-, rfl⟩ | ⟨hpath, -⟩ | ⟨-, rfl⟩ | ⟨hpath, -⟩
      · exact absurd rfl hfile
      · exact absurd rfl hfile
      · exact absurd rfl hfile
      · exact absurd rfl hfile
      · have hlast := congrArg List.getLast? hpath
        simp at hlast
      · exact absurd rfl hfile
      · have hfront := congrArg List.dropLast hpath
        simpa using hfront
    rw [hdir]
    exact absoluteTree_linked

/-- Granted from its main worktree, or by its own key, the worktree is trusted. -/
theorem trust_per_repository_linked :
    (∃ path, normalizeCwd absoluteTree rootEnvironment "/side" = some path ∧
      Vouched absoluteTree (.new rootEnvironment absoluteTree ["/main"]) path) ∧
    (∃ path main, (TrustGrants.new rootEnvironment absoluteTree ["/main"]).Holds main ∧
      (Nearest absoluteTree maxRepoDiscoveryDepth path main .dir ∨
        ∃ dir, RegisteredAt absoluteTree main dir)) ∧
    GrantAgrees rootEnvironment absoluteTree ["side"] := by
  have hadmitted : TrustGrants.admit rootEnvironment absoluteTree
      (TrustGrants.new rootEnvironment absoluteTree ["/main"]) "/side" = .trusted "/side" := by
    decide +kernel
  obtain ⟨hvouched, hunchanged, hagrees⟩ := trust_per_repository rootEnvironment absoluteTree
  refine ⟨?_, ?_, (hagrees ["side"] rfl).mpr absoluteTree_plain⟩
  · obtain ⟨path, hnormalized, -, -, hgranted⟩ := hvouched ["/main"] "/side" "/side" hadmitted
    exact ⟨path, hnormalized, hgranted⟩
  · obtain ⟨path, hresult, hcase⟩ :=
      hunchanged absoluteTree ["/main"] "/side" "/side" (fun _ _ _ => rfl) hadmitted
    rcases hcase with hown | ⟨main, hholds, hnearest | ⟨dir, node, -, hregistered⟩⟩
    · unfold TrustGrants.Holds at hown
      rw [← hresult] at hown
      exact absurd hown (by decide +kernel)
    · exact ⟨path, main, hholds, Or.inl hnearest⟩
    · exact ⟨path, main, hholds, Or.inr ⟨dir, hregistered⟩⟩

def relativeTree : FileSystem :=
  .ofEntries _ (linkedEntries_inside "gitdir: ../main/.git/worktrees/side\n")

/-- The grant made from the worktree is recorded as `/side/../main`, which admits it no more. -/
theorem relative_pointer_ignored : relativeTree.node ["side"] = some .dir ∧
    ¬ GrantAgrees rootEnvironment relativeTree ["side"] := by
  refine ⟨rfl, ?_⟩
  intro h
  have hadmitted := (h ["/side/../main"] (by decide +kernel)).1
  exact absurd hadmitted (by decide +kernel)

end AgentRelay.WorkspaceTrust
