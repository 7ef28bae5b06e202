import AgentRelay.Text

/-! Path scopes: the relay's allowed roots and the narrower grant of a device.
Canonicalisation reads the file system and is a function parameter here. -/
namespace AgentRelay.Relay
open Text

/-- The components of a Unix path: separators collapse, and `.` is kept only as the
first component of a relative path. -/
def pathComponents (path : String) : List String :=
  let parts := (path.toList.splitOn '/').map String.ofList
  let rooted := Text.startsWith path "/"
  let head := if rooted then ["/"] else if parts.head? = some "." then ["."] else []
  head ++ parts.filter fun part => part ≠ "" ∧ part ≠ "."

/-- `Path::starts_with`, which compares whole components; equality is a special case. -/
def pathStartsWith (path root : String) : Bool :=
  decide (pathComponents root <+: pathComponents path)

section
variable (canonicalize : String → String)

def normalizeCwd (cwd : String) : String :=
  let trimmed := trim cwd
  if trimmed = "" then "" else canonicalize trimmed

def pathWithinAllowedRoots (path : String) (allowedRoots : List String) : Bool :=
  allowedRoots.isEmpty ||
    allowedRoots.any fun root => pathStartsWith (normalizeCwd canonicalize path) root

def ensurePathWithinAllowedRoots (path : String) (allowedRoots : List String) :
    Except String Unit :=
  if pathWithinAllowedRoots canonicalize path allowedRoots then .ok ()
  else
    let rootHint := match allowedRoots with
      | [] => "this relay is unrestricted"
      | [root] => "choose a directory under " ++ root
      | _ => "choose a directory under one of this relay's allowed roots"
    .error ("workspace " ++ normalizeCwd canonicalize path ++
      " is outside this relay's allowed roots; " ++ rootHint)

def ensurePathWithinDeviceScope (path : String) (deviceScope relayAllowedRoots : List String) :
    Except String Unit :=
  match ensurePathWithinAllowedRoots canonicalize path relayAllowedRoots with
  | .error message => .error message
  | .ok () =>
    if !deviceScope.isEmpty && !pathWithinAllowedRoots canonicalize path deviceScope then
      let hint := match deviceScope with
        | [one] => "choose a directory under " ++ one
        | _ => "choose a directory under one of this device's allowed paths"
      .error ("workspace " ++ normalizeCwd canonicalize path ++
        " is outside this device's allowed paths; " ++ hint)
    else .ok ()

theorem ensurePathWithinDeviceScope_ok_iff (path : String) (scope roots : List String) :
    ensurePathWithinDeviceScope canonicalize path scope roots = .ok () ↔
      pathWithinAllowedRoots canonicalize path roots ∧
        (scope = [] ∨ pathWithinAllowedRoots canonicalize path scope) := by
  unfold ensurePathWithinDeviceScope ensurePathWithinAllowedRoots
  by_cases hr : pathWithinAllowedRoots canonicalize path roots
  · by_cases hs : pathWithinAllowedRoots canonicalize path scope <;> simp [hr, hs]
  · simp [hr]

theorem normalizeCwd_trim (path : String) :
    normalizeCwd canonicalize (trim path) = normalizeCwd canonicalize path := by
  unfold normalizeCwd
  rw [trim_trim]

theorem pathWithinAllowedRoots_trim (path : String) (roots : List String) :
    pathWithinAllowedRoots canonicalize (trim path) roots =
      pathWithinAllowedRoots canonicalize path roots := by
  unfold pathWithinAllowedRoots
  rw [normalizeCwd_trim]

end

end AgentRelay.Relay
