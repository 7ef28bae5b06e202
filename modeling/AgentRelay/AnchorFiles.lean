import AgentRelay.Grouping
import Mathlib.Data.List.Perm.Basic
import Mathlib.Data.Nat.Basic
import Mathlib.Tactic.Common

/-! The files behind line comments. Both sides of a review are read up to a byte cap, and the
comments of a file are handed to the relocator together with what was read of it. -/
namespace AgentRelay.ReviewComments

def teamFileMaxBytes : ℕ := 64 * 1024

inductive ReadError
  | readFailed (relPath : String)
  | invalidUtf8 (relPath : String)
  deriving DecidableEq, Repr

structure RepoFile where
  content : String
  truncated : Bool
  missing : Bool
  deriving DecidableEq, Repr

/-- What stands in the worktree; `none` is a path without a file. -/
def readRepoFileFromWorktree (file : Option ByteArray) (relPath : String) :
    Except ReadError RepoFile :=
  match file with
  | none => .ok ⟨"", false, true⟩
  | some bytes =>
    let buf := bytes.extract 0 teamFileMaxBytes
    let truncated := decide (buf.size < bytes.size)
    if 0 ∈ buf.data then .ok ⟨"", truncated, false⟩
    else match String.fromUTF8? buf with
      | some content => .ok ⟨content, truncated, false⟩
      | none => .error (.readFailed relPath)

/-- The loop that takes bytes off the end until the first `n` are whole characters. -/
def popInvalid (bytes : ByteArray) : ℕ → ByteArray
  | 0 => bytes.extract 0 0
  | n + 1 =>
    if (bytes.extract 0 (n + 1)).IsValidUTF8 then bytes.extract 0 (n + 1) else popInvalid bytes n

/-- What the commit holds; `none` is a path that `git show` does not find. -/
def readRepoFileAtBase (blob : Option ByteArray) (relPath : String) : Except ReadError RepoFile :=
  match blob with
  | none => .ok ⟨"", false, true⟩
  | some bytes =>
    let truncated := decide (teamFileMaxBytes < bytes.size)
    let buf := if truncated then popInvalid bytes teamFileMaxBytes else bytes
    if 0 ∈ buf.data then .ok ⟨"", truncated, false⟩
    else match String.fromUTF8? buf with
      | some content => .ok ⟨content, truncated, false⟩
      | none => .error (.invalidUtf8 relPath)

inductive CommentSide
  | old
  | new
  deriving DecidableEq, Repr

structure AnchorFileContent where
  content : String
  truncated : Bool
  deriving DecidableEq, Repr

def readAnchorFileFromWorktree (side : CommentSide) (file : Option ByteArray) (relPath : String) :
    Except ReadError (Option AnchorFileContent) := do
  let read ← match side with
    | .new => readRepoFileFromWorktree file relPath
    | .old => readRepoFileAtBase file relPath
  return if read.missing then none else some ⟨read.content, read.truncated⟩

/-- The line feeds of a text. -/
def newlines (content : String) : ℕ := content.toList.count '\n'

def AnchorFileContent.lineCount (file : AnchorFileContent) : ℕ :=
  if file.content = "" then 0 else newlines file.content + 1

def anchorReadable (file : AnchorFileContent) (line : ℕ) : Bool :=
  !file.truncated || decide (line ≤ file.lineCount)

structure LineAnchor where
  path : String
  side : CommentSide
  line : ℕ
  exact : String
  before : String
  after : String
  lineHash : String
  windowHash : String
  baseCommit : Option String
  line_pos : 0 < line
  deriving DecidableEq

structure ReviewComment where
  id : String
  scope : String
  body : String
  anchor : LineAnchor
  deriving DecidableEq

structure AnchorFileKey where
  path : String
  side : CommentSide
  baseCommit : Option String
  deriving DecidableEq

def anchorFileKey (comment : ReviewComment) : AnchorFileKey :=
  ⟨comment.anchor.path, comment.anchor.side, comment.anchor.baseCommit⟩

inductive AnchorStatus
  | anchored | moved | contextChanged | ambiguous | orphaned | unavailable
  deriving DecidableEq, Repr

structure RelocateOutcome where
  status : AnchorStatus
  line : Option ℕ
  deriving DecidableEq, Repr

def RelocateOutcome.unavailable : RelocateOutcome := ⟨.unavailable, none⟩

structure ReviewCommentView where
  comment : ReviewComment
  relocation : RelocateOutcome
  deriving DecidableEq

structure ReviewAnchors where
  relocate : String → List LineAnchor → List RelocateOutcome
  length_relocate : ∀ content anchors, (relocate content anchors).length = anchors.length

structure RelocateCall where
  key : AnchorFileKey
  content : String
  comments : List ReviewComment

structure KeyOrder (comments : List ReviewComment) where
  keys : List AnchorFileKey
  nodup : keys.Nodup
  mem_keys : ∀ key, key ∈ keys ↔ ∃ comment ∈ comments, anchorFileKey comment = key

def groupsOf (comments : List ReviewComment) : AnchorFileKey → List ReviewComment :=
  comments.foldl (fun groups comment =>
    Function.update groups (anchorFileKey comment) (groups (anchorFileKey comment) ++ [comment]))
    fun _ => []

abbrev AnchorFiles := AnchorFileKey → Option (Option AnchorFileContent)

def unavailableView (comment : ReviewComment) : ReviewCommentView := ⟨comment, .unavailable⟩

def relocateGroup (contents : AnchorFiles) (relocator : ReviewAnchors) (key : AnchorFileKey)
    (group : List ReviewComment) : List ReviewCommentView × List RelocateCall :=
  match contents key with
  | none | some none => (group.map unavailableView, [])
  | some (some file) =>
    let readable := group.filter fun comment => anchorReadable file comment.anchor.line
    let unreadable := group.filter fun comment => !anchorReadable file comment.anchor.line
    if readable = [] then (unreadable.map unavailableView, [])
    else
      let outcomes := relocator.relocate file.content (readable.map (·.anchor))
      (unreadable.map unavailableView ++ List.zipWith ReviewCommentView.mk readable outcomes,
        [⟨key, file.content, readable⟩])

def viewOrder (left right : ReviewCommentView) : Bool :=
  ((compare left.comment.anchor.path right.comment.anchor.path).then
    ((compare left.comment.anchor.line right.comment.anchor.line).then
      (compare left.comment.id right.comment.id))) != .gt

/-- The views, and the calls that were made for them. -/
def relocateCommentsGrouped (comments : List ReviewComment) (order : KeyOrder comments)
    (contents : AnchorFiles) (relocator : ReviewAnchors) :
    List ReviewCommentView × List RelocateCall :=
  let results := order.keys.map fun key =>
    relocateGroup contents relocator key (groupsOf comments key)
  ((results.flatMap (·.1)).mergeSort viewOrder, results.flatMap (·.2))

section reading

def SameReading : Except ReadError RepoFile → Except ReadError RepoFile → Prop
  | .ok left, .ok right => left = right
  | .error _, .error _ => True
  | _, _ => False

structure IsLongestStart (text content : String) : Prop where
  start : content.toList <+: text.toList
  fits : content.utf8ByteSize ≤ teamFileMaxBytes
  longest : ∀ other : String, other.toList <+: text.toList →
    other.utf8ByteSize ≤ teamFileMaxBytes → other.toList <+: content.toList

structure ReadAlike (bytes : ByteArray) : Prop where
  same : ∀ relPath, SameReading (readRepoFileFromWorktree (some bytes) relPath)
    (readRepoFileAtBase (some bytes) relPath)
  whole : ∀ (text : String) (relPath : String), text.toByteArray = bytes → 0 ∉ bytes.data →
    ∃ content, IsLongestStart text content ∧
      readRepoFileFromWorktree (some bytes) relPath =
        .ok ⟨content, decide (teamFileMaxBytes < bytes.size), false⟩ ∧
      readRepoFileAtBase (some bytes) relPath =
        .ok ⟨content, decide (teamFileMaxBytes < bytes.size), false⟩

/-- The cap does not cut a character, or what stands before the cut is a binary file to both. -/
def CutAlike (bytes : ByteArray) : Prop :=
  bytes.size ≤ teamFileMaxBytes ∨ (bytes.extract 0 teamFileMaxBytes).IsValidUTF8 ∨
    (∃ n ≤ teamFileMaxBytes, (bytes.extract 0 n).IsValidUTF8 ∧ 0 ∈ (bytes.extract 0 n).data) ∨
    (0 ∈ (bytes.extract 0 teamFileMaxBytes).data ∧
      ∀ n ≤ teamFileMaxBytes, (bytes.extract 0 n).IsValidUTF8 → n = 0)

variable {bytes : ByteArray}

theorem mem_extract {n : ℕ} {byte : UInt8} :
    byte ∈ (bytes.extract 0 n).data ↔ byte ∈ bytes.data.toList.take n := by
  rw [ByteArray.data_extract, ← Array.mem_toList_iff]
  simp

theorem mem_of_mem_extract {n : ℕ} {byte : UInt8} (h : byte ∈ (bytes.extract 0 n).data) :
    byte ∈ bytes.data := by
  rw [mem_extract] at h
  exact Array.mem_toList_iff.mp (List.mem_of_mem_take h)

theorem mem_extract_mono {n m : ℕ} {byte : UInt8} (h : n ≤ m)
    (hmem : byte ∈ (bytes.extract 0 n).data) : byte ∈ (bytes.extract 0 m).data := by
  rw [mem_extract] at hmem ⊢
  exact (List.take_prefix_take_left h).subset hmem

theorem extract_all {n : ℕ} (h : bytes.size ≤ n) : bytes.extract 0 n = bytes := by
  rw [← Nat.max_eq_left h, ByteArray.extract_zero_max_size]

theorem extract_append (n : ℕ) : bytes.extract 0 n ++ bytes.extract n bytes.size = bytes := by
  rcases Nat.le_total n bytes.size with hn | hn
  · rw [← ByteArray.extract_eq_extract_append_extract n (Nat.zero_le n) hn,
      ByteArray.extract_zero_size]
  · have hnone : bytes.extract n bytes.size = ByteArray.empty := by
      rw [ByteArray.extract_eq_empty_iff]
      omega
    rw [hnone, ByteArray.append_empty, extract_all hn]

theorem popInvalid_spec (bytes : ByteArray) (m : ℕ) :
    ∃ n ≤ m, popInvalid bytes m = bytes.extract 0 n ∧ (bytes.extract 0 n).IsValidUTF8 ∧
      ∀ k ≤ m, (bytes.extract 0 k).IsValidUTF8 → k ≤ n := by
  induction m with
  | zero =>
    refine ⟨0, le_rfl, rfl, ?_, fun k hk _ => hk⟩
    rw [ByteArray.extract_same]
    exact ByteArray.isValidUTF8_empty
  | succ m ih =>
    by_cases hvalid : (bytes.extract 0 (m + 1)).IsValidUTF8
    · exact ⟨m + 1, le_rfl, by rw [popInvalid, if_pos hvalid], hvalid, fun k hk _ => hk⟩
    · obtain ⟨n, hn, hpop, hok, hmax⟩ := ih
      refine ⟨n, by omega, by rw [popInvalid, if_neg hvalid, hpop], hok, fun k hk hkvalid => ?_⟩
      have hne : k ≠ m + 1 := by
        rintro rfl
        exact hvalid hkvalid
      exact hmax k (by omega) hkvalid

theorem fromUTF8_eq {buf : ByteArray} (h : buf.IsValidUTF8) :
    String.fromUTF8? buf = some (String.fromUTF8 buf h) := by
  rw [String.fromUTF8?, dif_pos h]

theorem fromUTF8_eq_none {buf : ByteArray} (h : ¬buf.IsValidUTF8) :
    String.fromUTF8? buf = none := by
  rw [String.fromUTF8?, dif_neg h]

theorem sameReading_short (h : bytes.size ≤ teamFileMaxBytes) (relPath : String) :
    SameReading (readRepoFileFromWorktree (some bytes) relPath)
      (readRepoFileAtBase (some bytes) relPath) := by
  simp only [readRepoFileFromWorktree, readRepoFileAtBase, extract_all h, Nat.not_lt.mpr h,
    lt_irrefl, decide_false, Bool.false_eq_true, if_false]
  by_cases hzero : 0 ∈ bytes.data
  · simp [hzero, SameReading]
  · by_cases hvalid : bytes.IsValidUTF8
    · simp [hzero, fromUTF8_eq hvalid, SameReading]
    · simp [hzero, fromUTF8_eq_none hvalid, SameReading]

theorem baseReading_long (h : teamFileMaxBytes < bytes.size) {n : ℕ}
    (hpop : popInvalid bytes teamFileMaxBytes = bytes.extract 0 n)
    (hvalid : (bytes.extract 0 n).IsValidUTF8) (relPath : String) :
    readRepoFileAtBase (some bytes) relPath = .ok ⟨if 0 ∈ (bytes.extract 0 n).data then ""
      else String.fromUTF8 (bytes.extract 0 n) hvalid, true, false⟩ := by
  simp only [readRepoFileAtBase, h, decide_true, if_true, hpop, fromUTF8_eq hvalid]
  split_ifs <;> rfl

theorem size_cut (h : teamFileMaxBytes < bytes.size) :
    (bytes.extract 0 teamFileMaxBytes).size = teamFileMaxBytes := by
  rw [ByteArray.size_extract]
  omega

theorem worktreeReading_long (h : teamFileMaxBytes < bytes.size) (relPath : String) :
    readRepoFileFromWorktree (some bytes) relPath =
      if 0 ∈ (bytes.extract 0 teamFileMaxBytes).data then .ok ⟨"", true, false⟩
      else if hvalid : (bytes.extract 0 teamFileMaxBytes).IsValidUTF8 then
        .ok ⟨String.fromUTF8 _ hvalid, true, false⟩
      else .error (.readFailed relPath) := by
  simp only [readRepoFileFromWorktree, size_cut h, h, decide_true]
  by_cases hvalid : (bytes.extract 0 teamFileMaxBytes).IsValidUTF8
  · rw [fromUTF8_eq hvalid, dif_pos hvalid]
  · rw [fromUTF8_eq_none hvalid, dif_neg hvalid]

theorem fromUTF8_eq_empty {buf : ByteArray} (h : buf.IsValidUTF8) :
    String.fromUTF8 buf h = "" ↔ buf.size = 0 := by
  rw [← String.toByteArray_inj, ByteArray.size_eq_zero_iff]
  rfl

theorem sameReading_long (h : teamFileMaxBytes < bytes.size) (relPath : String) :
    SameReading (readRepoFileFromWorktree (some bytes) relPath)
      (readRepoFileAtBase (some bytes) relPath) ↔ CutAlike bytes := by
  obtain ⟨n, hn, hpop, hvalid, hmax⟩ := popInvalid_spec bytes teamFileMaxBytes
  have hsize : (bytes.extract 0 n).size = n := by
    rw [ByteArray.size_extract]
    omega
  rw [worktreeReading_long h, baseReading_long h hpop hvalid]
  by_cases hcut : (bytes.extract 0 teamFileMaxBytes).IsValidUTF8
  · -- the loop pops nothing, and both read the cut
    have hall : n = teamFileMaxBytes := le_antisymm hn (hmax _ le_rfl hcut)
    subst hall
    refine iff_of_true ?_ (Or.inr (Or.inl hcut))
    split_ifs <;> exact rfl
  · by_cases hzero : 0 ∈ (bytes.extract 0 teamFileMaxBytes).data
    · have hempty := fromUTF8_eq_empty hvalid
      rw [hsize] at hempty
      have hsame : SameReading (.ok ⟨"", true, false⟩) (.ok ⟨if 0 ∈ (bytes.extract 0 n).data then ""
          else String.fromUTF8 (bytes.extract 0 n) hvalid, true, false⟩) ↔
          0 ∈ (bytes.extract 0 n).data ∨ n = 0 := by
        rw [SameReading, RepoFile.mk.injEq]
        by_cases hbinary : 0 ∈ (bytes.extract 0 n).data
        · rw [if_pos hbinary]
          exact iff_of_true ⟨rfl, rfl, rfl⟩ (Or.inl hbinary)
        · rw [if_neg hbinary, eq_comm, hempty]
          simp only [and_true, hbinary, false_or]
      rw [if_pos hzero, hsame]
      constructor
      · rintro (hbinary | rfl)
        · exact Or.inr (Or.inr (Or.inl ⟨n, hn, hvalid, hbinary⟩))
        · exact Or.inr (Or.inr (Or.inr ⟨hzero,
            fun k hk hkvalid => Nat.le_zero.mp (hmax k hk hkvalid)⟩))
      · rintro (hshort | hwhole | ⟨k, hk, hkvalid, hbinary⟩ | ⟨-, hnone⟩)
        · omega
        · exact absurd hwhole hcut
        · exact Or.inl (mem_extract_mono (hmax k hk hkvalid) hbinary)
        · exact Or.inr (hnone n hn hvalid)
    · rw [if_neg hzero, dif_neg hcut]
      refine iff_of_false id ?_
      rintro (hshort | hwhole | ⟨k, hk, -, hbinary⟩ | ⟨hbinary, -⟩)
      · omega
      · exact hcut hwhole
      · exact hzero (mem_extract_mono hk hbinary)
      · exact hzero hbinary

theorem start_of_size_le {text left right : String} (hleft : left.toList <+: text.toList)
    (hright : right.toList <+: text.toList) (h : left.utf8ByteSize ≤ right.utf8ByteSize) :
    left.toList <+: right.toList := by
  rcases List.prefix_or_prefix_of_prefix hleft hright with hpre | ⟨rest, hrest⟩
  · exact hpre
  · have hsum : right.utf8ByteSize + (String.ofList rest).utf8ByteSize = left.utf8ByteSize := by
      rw [← String.utf8ByteSize_append]
      congr 1
      rw [← String.toList_inj]
      simpa using hrest
    have hnil : String.ofList rest = "" := by
      rw [← String.utf8ByteSize_eq_zero_iff]
      omega
    have hrest' : rest = [] := by simpa using congrArg String.toList hnil
    have hsame : right.toList = left.toList := by simpa [hrest'] using hrest
    exact hsame ▸ List.prefix_rfl

theorem append_of_start {text content : String} (h : content.toList <+: text.toList) :
    ∃ rest : String, content ++ rest = text := by
  obtain ⟨rest, hrest⟩ := h
  refine ⟨String.ofList rest, ?_⟩
  rw [← String.toList_inj]
  simpa using hrest

theorem start_valid {text content : String} (htext : text.toByteArray = bytes)
    (h : content.toList <+: text.toList) :
    (bytes.extract 0 content.utf8ByteSize).IsValidUTF8 := by
  obtain ⟨rest, rfl⟩ := append_of_start h
  have hbytes : bytes.extract 0 content.utf8ByteSize = content.toByteArray := by
    rw [← htext, String.toByteArray_append]
    exact ByteArray.extract_append_eq_left rfl
  rw [hbytes]
  exact content.isValidUTF8

theorem valid_start {text : String} (htext : text.toByteArray = bytes) {n : ℕ}
    (hvalid : (bytes.extract 0 n).IsValidUTF8) :
    (String.fromUTF8 (bytes.extract 0 n) hvalid).toList <+: text.toList := by
  refine List.isPrefix_of_utf8Encode_append_eq_utf8Encode (bytes.extract n bytes.size) ?_
  rw [String.utf8Encode_toList, String.utf8Encode_toList, htext]
  exact extract_append n

theorem baseReading_longest {text : String} (htext : text.toByteArray = bytes)
    (hplain : 0 ∉ bytes.data) (relPath : String) :
    ∃ content, IsLongestStart text content ∧ readRepoFileAtBase (some bytes) relPath =
      .ok ⟨content, decide (teamFileMaxBytes < bytes.size), false⟩ := by
  by_cases hlong : teamFileMaxBytes < bytes.size
  · obtain ⟨n, hn, hpop, hvalid, hmax⟩ := popInvalid_spec bytes teamFileMaxBytes
    have hzero : 0 ∉ (bytes.extract 0 n).data := fun hmem => hplain (mem_of_mem_extract hmem)
    have hsize : (String.fromUTF8 (bytes.extract 0 n) hvalid).utf8ByteSize = n := by
      change (bytes.extract 0 n).size = n
      rw [ByteArray.size_extract]
      omega
    refine ⟨String.fromUTF8 (bytes.extract 0 n) hvalid, ⟨valid_start htext hvalid, ?_, ?_⟩, ?_⟩
    · rw [hsize]
      exact hn
    · intro other hother hfits
      refine start_of_size_le hother (valid_start htext hvalid) ?_
      rw [hsize]
      exact hmax _ hfits (start_valid htext hother)
    · rw [baseReading_long hlong hpop hvalid, if_neg hzero, decide_eq_true hlong]
  · have hshort : text.utf8ByteSize ≤ teamFileMaxBytes := by
      have hsize : text.utf8ByteSize = bytes.size := congrArg ByteArray.size htext
      omega
    refine ⟨text, ⟨List.prefix_rfl, hshort, fun other hother _ => hother⟩, ?_⟩
    have hvalid : bytes.IsValidUTF8 := htext ▸ text.isValidUTF8
    have hcontent : String.fromUTF8 bytes hvalid = text := String.toByteArray_inj.mp htext.symm
    simp only [readRepoFileAtBase, hlong, decide_false, Bool.false_eq_true, if_false, hplain,
      fromUTF8_eq hvalid, hcontent]

theorem readAlike_iff (bytes : ByteArray) : ReadAlike bytes ↔ CutAlike bytes := by
  have hsame : (∀ relPath, SameReading (readRepoFileFromWorktree (some bytes) relPath)
      (readRepoFileAtBase (some bytes) relPath)) ↔ CutAlike bytes := by
    by_cases hlong : teamFileMaxBytes < bytes.size
    · exact ⟨fun h => (sameReading_long hlong "").mp (h ""),
        fun h relPath => (sameReading_long hlong relPath).mpr h⟩
    · have hshort := Nat.not_lt.mp hlong
      exact iff_of_true (sameReading_short hshort) (Or.inl hshort)
  constructor
  · intro hread
    exact hsame.mp hread.same
  · intro hcut
    refine ⟨hsame.mpr hcut, fun text relPath htext hplain => ?_⟩
    obtain ⟨content, hlongest, hbase⟩ := baseReading_longest htext hplain relPath
    refine ⟨content, hlongest, ?_, hbase⟩
    have hworktree := hsame.mpr hcut relPath
    rw [hbase] at hworktree
    cases hread : readRepoFileFromWorktree (some bytes) relPath with
    | error e =>
      rw [hread] at hworktree
      exact hworktree.elim
    | ok left =>
      rw [hread] at hworktree
      rw [show left = _ from hworktree]

def IsStartOf (bytes : ByteArray) (read : RepoFile) : Prop :=
  read.missing = false ∧ ∃ n, read.content.toByteArray = bytes.extract 0 n ∧
    (read.truncated = true → n < bytes.size)

theorem binary_start {truncated : Bool} (h : truncated = true → 0 < bytes.size) :
    IsStartOf bytes ⟨"", truncated, false⟩ :=
  ⟨rfl, 0, ByteArray.extract_same.symm, h⟩

theorem worktreeReading_start {relPath : String} {read : RepoFile}
    (h : readRepoFileFromWorktree (some bytes) relPath = .ok read) : IsStartOf bytes read := by
  have hcut : (bytes.extract 0 teamFileMaxBytes).size < bytes.size →
      teamFileMaxBytes < bytes.size := by
    rw [ByteArray.size_extract]
    omega
  simp only [readRepoFileFromWorktree] at h
  split_ifs at h with hbinary
  · cases h
    exact binary_start fun hlong => Nat.zero_lt_of_lt (of_decide_eq_true hlong)
  · by_cases hvalid : (bytes.extract 0 teamFileMaxBytes).IsValidUTF8
    · rw [fromUTF8_eq hvalid] at h
      cases h
      exact ⟨rfl, teamFileMaxBytes, rfl, fun hlong => hcut (of_decide_eq_true hlong)⟩
    · rw [fromUTF8_eq_none hvalid] at h
      cases h

theorem baseReading_start {relPath : String} {read : RepoFile}
    (h : readRepoFileAtBase (some bytes) relPath = .ok read) : IsStartOf bytes read := by
  by_cases hlong : teamFileMaxBytes < bytes.size
  · obtain ⟨n, hn, hpop, hvalid, -⟩ := popInvalid_spec bytes teamFileMaxBytes
    rw [baseReading_long hlong hpop hvalid] at h
    cases h
    split_ifs
    · exact binary_start fun _ => Nat.zero_lt_of_lt hlong
    · exact ⟨rfl, n, rfl, fun _ => lt_of_le_of_lt hn hlong⟩
  · simp only [readRepoFileAtBase, hlong, decide_false, Bool.false_eq_true, if_false] at h
    split_ifs at h with hbinary
    · cases h
      exact binary_start fun htruncated => absurd htruncated Bool.false_ne_true
    · by_cases hvalid : bytes.IsValidUTF8
      · rw [fromUTF8_eq hvalid] at h
        cases h
        exact ⟨rfl, bytes.size, ByteArray.extract_zero_size.symm,
          fun htruncated => absurd htruncated Bool.false_ne_true⟩
      · rw [fromUTF8_eq_none hvalid] at h
        cases h

end reading

section relocation

/-- A character of two bytes after `n` of one. -/
def charAfter (n : ℕ) : String := String.ofList (List.replicate n 'a' ++ ['é'])

theorem utf8ByteSize_eq (text : String) :
    text.utf8ByteSize = (text.toList.map Char.utf8Size).sum := by
  conv_lhs => rw [← String.ofList_toList (s := text)]
  change (String.ofList text.toList).toByteArray.size = _
  rw [String.toByteArray_ofList, List.utf8Encode, List.size_toByteArray, List.length_flatMap]
  simp

theorem charAfter_size (n : ℕ) : (charAfter n).utf8ByteSize = n + 2 := by
  have hone : 'a'.utf8Size = 1 := by decide
  have htwo : 'é'.utf8Size = 2 := by decide
  rw [utf8ByteSize_eq]
  simp [charAfter, hone, htwo]

theorem charAfter_cut (n : ℕ) : ¬((charAfter n).toByteArray.extract 0 (n + 1)).IsValidUTF8 := by
  intro hvalid
  have hstart : (String.fromUTF8 _ hvalid).toList <+: (charAfter n).toList :=
    valid_start rfl hvalid
  have htotal := charAfter_size n
  have hsize : (String.fromUTF8 _ hvalid).utf8ByteSize = n + 1 := by
    change ((charAfter n).toByteArray.extract 0 (n + 1)).size = n + 1
    have hbytes : (charAfter n).toByteArray.size = n + 2 := htotal
    rw [ByteArray.size_extract]
    omega
  generalize String.fromUTF8 _ hvalid = content at hstart hsize
  have hchars : (charAfter n).toList = List.replicate n 'a' ++ ['é'] := String.toList_ofList
  rw [hchars] at hstart
  rcases List.prefix_concat_iff.mp hstart with hall | hpre
  · have hsame : content = charAfter n := String.toList_inj.mp (hall.trans hchars.symm)
    rw [hsame] at hsize
    omega
  · obtain ⟨hshort, hletters⟩ := List.prefix_replicate_iff.mp hpre
    have hone : 'a'.utf8Size = 1 := by decide
    have hfew : content.utf8ByteSize = content.toList.length := by
      rw [utf8ByteSize_eq, hletters]
      simp [hone]
    omega

theorem charAfter_plain (n : ℕ) : 0 ∉ (charAfter n).toByteArray.data := by
  rw [charAfter, String.toByteArray_ofList, List.utf8Encode, ← Array.mem_toList_iff,
    List.data_toByteArray]
  simp +decide

structure PartRead where
  file : AnchorFileContent
  unread : ByteArray
  more : file.truncated = true → unread.size ≠ 0

theorem readAnchorFile_part {side : CommentSide} {bytes : ByteArray} {relPath : String}
    {file : AnchorFileContent}
    (h : readAnchorFileFromWorktree side (some bytes) relPath = .ok (some file)) :
    ∃ part : PartRead, part.file = file ∧ part.file.content.toByteArray ++ part.unread = bytes := by
  have hpart : ∀ read : RepoFile, IsStartOf bytes read →
      (if read.missing then none else some ⟨read.content, read.truncated⟩) = some file →
      ∃ part : PartRead, part.file = file ∧
        part.file.content.toByteArray ++ part.unread = bytes := by
    rintro read ⟨hmissing, n, hcontent, hmore⟩ hfile
    simp only [hmissing, Bool.false_eq_true, if_false, Option.some.injEq] at hfile
    subst hfile
    refine ⟨⟨⟨read.content, read.truncated⟩, bytes.extract n bytes.size, fun htruncated => ?_⟩,
      rfl, ?_⟩
    · have hlong := hmore htruncated
      rw [ByteArray.size_extract]
      omega
    · rw [hcontent]
      exact extract_append n
  cases side with
  | new =>
    cases hread : readRepoFileFromWorktree (some bytes) relPath with
    | error e => simp [readAnchorFileFromWorktree, hread] at h
    | ok read =>
      exact hpart read (worktreeReading_start hread)
        (by simpa [readAnchorFileFromWorktree, hread] using h)
  | old =>
    cases hread : readRepoFileAtBase (some bytes) relPath with
    | error e => simp [readAnchorFileFromWorktree, hread] at h
    | ok read =>
      exact hpart read (baseReading_start hread)
        (by simpa [readAnchorFileFromWorktree, hread] using h)

/-- The cap leaves the first byte of a character, which the commit's side drops. -/
theorem readAnchorFile_part_cut : ∃ content, IsLongestStart (charAfter 65535) content ∧
    ∃ part : PartRead, part.file = ⟨content, true⟩ ∧
      part.file.content.toByteArray ++ part.unread = (charAfter 65535).toByteArray := by
  have hbytes : (charAfter 65535).toByteArray = (charAfter 65535).toByteArray := rfl
  obtain ⟨content, hlongest, hread⟩ :=
    baseReading_longest hbytes (charAfter_plain 65535) "a.txt"
  have hlong : teamFileMaxBytes < (charAfter 65535).toByteArray.size := by
    have hsize : (charAfter 65535).toByteArray.size = 65535 + 2 := charAfter_size 65535
    rw [hsize]
    decide
  rw [decide_eq_true hlong] at hread
  have hside : readAnchorFileFromWorktree .old (some (charAfter 65535).toByteArray) "a.txt" =
      .ok (some ⟨content, true⟩) := by
    simp [readAnchorFileFromWorktree, hread]
  exact ⟨content, hlongest, readAnchorFile_part hside⟩

def PartRead.WholeLine (part : PartRead) (line : ℕ) : Prop :=
  line ≤ newlines part.file.content ∨
    (line = newlines part.file.content + 1 ∧ part.unread.data[0]? = some 10)

def PartRead.CutLine (part : PartRead) (line : ℕ) : Prop :=
  part.file.content ≠ "" ∧ line = newlines part.file.content + 1 ∧
    part.unread.data[0]? ≠ some 10

abbrev PartsRead := AnchorFileKey → Option (Option PartRead)

def filesOf (parts : PartsRead) : AnchorFiles := fun key => (parts key).map (·.map PartRead.file)

/-- Each comment comes back once, an anchor of a cut file is handed on only if its whole line was
read, and what is not handed on is unavailable. -/
structure RelocatedWhole (comments : List ReviewComment) (order : KeyOrder comments)
    (parts : PartsRead) (relocator : ReviewAnchors) : Prop where
  once : ((relocateCommentsGrouped comments order (filesOf parts) relocator).1.map
    (·.comment)).Perm comments
  whole : ∀ call ∈ (relocateCommentsGrouped comments order (filesOf parts) relocator).2,
    ∀ comment ∈ call.comments, ∀ part, parts (anchorFileKey comment) = some (some part) →
      part.file.truncated = true → part.WholeLine comment.anchor.line
  others : ∀ view ∈ (relocateCommentsGrouped comments order (filesOf parts) relocator).1,
    (∀ call ∈ (relocateCommentsGrouped comments order (filesOf parts) relocator).2,
      view.comment ∉ call.comments) → view.relocation = .unavailable

section groups

theorem groupsOf_eq (comments : List ReviewComment) (key : AnchorFileKey) :
    groupsOf comments key = comments.filter fun comment => anchorFileKey comment = key := by
  have hfold : ∀ groups : AnchorFileKey → List ReviewComment,
      comments.foldl (fun groups comment => Function.update groups (anchorFileKey comment)
        (groups (anchorFileKey comment) ++ [comment])) groups key =
      groups key ++ comments.filter fun comment => anchorFileKey comment = key := by
    induction comments with
    | nil => simp
    | cons comment comments ih =>
      intro groups
      rw [List.foldl_cons, ih, List.filter_cons]
      by_cases hkey : anchorFileKey comment = key
      · subst hkey
        simp
      · simp [hkey, Function.update_of_ne (Ne.symm hkey)]
  simpa [groupsOf] using hfold fun _ => []

theorem KeyOrder.flatMap_groups {comments : List ReviewComment} (order : KeyOrder comments) :
    (order.keys.flatMap (groupsOf comments)).Perm comments := by
  rw [List.flatMap_congr fun key _ => groupsOf_eq comments key]
  exact Grouping.flatMap_filter_perm_of_mem anchorFileKey order.nodup fun comment hcomment =>
    (order.mem_keys _).mpr ⟨comment, hcomment, rfl⟩

end groups

section calls
variable (contents : AnchorFiles) (relocator : ReviewAnchors)

theorem map_zipWith_view (comments : List ReviewComment) (outcomes : List RelocateOutcome)
    (h : outcomes.length = comments.length) :
    (List.zipWith ReviewCommentView.mk comments outcomes).map (·.comment) = comments := by
  induction comments generalizing outcomes with
  | nil => simp
  | cons comment comments ih =>
    cases outcomes with
    | nil => simp at h
    | cons outcome outcomes => simpa using ih outcomes (by simpa using h)

theorem mem_of_mem_zipWith {comments : List ReviewComment} {outcomes : List RelocateOutcome}
    {view : ReviewCommentView} (h : view ∈ List.zipWith ReviewCommentView.mk comments outcomes) :
    view.comment ∈ comments := by
  induction comments generalizing outcomes with
  | nil => simp at h
  | cons comment comments ih =>
    cases outcomes with
    | nil => simp at h
    | cons outcome outcomes =>
      rcases List.mem_cons.mp h with rfl | hrest
      · exact List.mem_cons_self
      · exact List.mem_cons_of_mem _ (ih hrest)

theorem relocateGroup_read {key : AnchorFileKey} {file : AnchorFileContent}
    (hfile : contents key = some (some file)) (group : List ReviewComment) :
    relocateGroup contents relocator key group =
      if (group.filter fun comment => anchorReadable file comment.anchor.line) = [] then
        ((group.filter fun comment => !anchorReadable file comment.anchor.line).map
          unavailableView, [])
      else
        ((group.filter fun comment => !anchorReadable file comment.anchor.line).map unavailableView
          ++ List.zipWith ReviewCommentView.mk
            (group.filter fun comment => anchorReadable file comment.anchor.line)
            (relocator.relocate file.content ((group.filter fun comment =>
              anchorReadable file comment.anchor.line).map (·.anchor))),
          [⟨key, file.content, group.filter fun comment =>
            anchorReadable file comment.anchor.line⟩]) := by
  simp only [relocateGroup, hfile]

theorem relocateGroup_unread {key : AnchorFileKey} (hfile : (contents key).join = none)
    (group : List ReviewComment) :
    relocateGroup contents relocator key group = (group.map unavailableView, []) := by
  unfold relocateGroup
  split
  · rfl
  · rfl
  · rename_i file hread
    simp [hread] at hfile

theorem relocateGroup_once (key : AnchorFileKey) (group : List ReviewComment) :
    ((relocateGroup contents relocator key group).1.map (·.comment)).Perm group := by
  have hmap : ∀ comments : List ReviewComment,
      (comments.map unavailableView).map (·.comment) = comments := by
    intro comments
    simp [unavailableView, Function.comp_def]
  cases hfile : (contents key).join with
  | none => rw [relocateGroup_unread contents relocator hfile, hmap]
  | some file =>
    rw [relocateGroup_read contents relocator (Option.join_eq_some_iff.mp hfile)]
    have hsplit := List.filter_append_perm
      (fun comment : ReviewComment => anchorReadable file comment.anchor.line) group
    split_ifs with hnone
    · rw [hnone, List.nil_append] at hsplit
      rw [hmap]
      exact hsplit
    · rw [List.map_append, hmap, map_zipWith_view]
      · exact List.perm_append_comm.trans hsplit
      · rw [relocator.length_relocate, List.length_map]

theorem handed_iff (key : AnchorFileKey) (group : List ReviewComment) (comment : ReviewComment) :
    (∃ call ∈ (relocateGroup contents relocator key group).2, comment ∈ call.comments) ↔
      comment ∈ group ∧ ∃ file, contents key = some (some file) ∧
        anchorReadable file comment.anchor.line = true := by
  cases hfile : (contents key).join with
  | none =>
    have hread : ∀ file, contents key ≠ some (some file) := by
      intro file hsome
      simp [hsome] at hfile
    simp [relocateGroup_unread contents relocator hfile, hread]
  | some file =>
    have hread := Option.join_eq_some_iff.mp hfile
    rw [relocateGroup_read contents relocator hread]
    simp only [hread, Option.some.injEq, exists_eq_left']
    split_ifs with hnone
    · rw [List.filter_eq_nil_iff] at hnone
      simp only [List.not_mem_nil, false_and, exists_false, false_iff, not_and]
      exact hnone comment
    · simp

theorem relocateGroup_others (key : AnchorFileKey) (group : List ReviewComment)
    (view : ReviewCommentView) (hview : view ∈ (relocateGroup contents relocator key group).1)
    (hcalls : ∀ call ∈ (relocateGroup contents relocator key group).2,
      view.comment ∉ call.comments) : view.relocation = .unavailable := by
  have hmap : ∀ comments : List ReviewComment, view ∈ comments.map unavailableView →
      view.relocation = .unavailable := by
    intro comments hmem
    obtain ⟨comment, -, rfl⟩ := List.mem_map.mp hmem
    rfl
  cases hfile : (contents key).join with
  | none =>
    rw [relocateGroup_unread contents relocator hfile] at hview
    exact hmap _ hview
  | some file =>
    rw [relocateGroup_read contents relocator (Option.join_eq_some_iff.mp hfile)] at hview hcalls
    split_ifs at hview hcalls with hnone
    · exact hmap _ hview
    · rcases List.mem_append.mp hview with hleft | hright
      · exact hmap _ hleft
      · have hcomment : view.comment ∈ group.filter fun comment =>
            anchorReadable file comment.anchor.line := by
          exact mem_of_mem_zipWith hright
        exact absurd hcomment (hcalls _ List.mem_cons_self)

end calls

variable {comments : List ReviewComment} {order : KeyOrder comments} {parts : PartsRead}
  {relocator : ReviewAnchors}

theorem cutLine_iff {part : PartRead} {line : ℕ} (hline : 0 < line) :
    line ≤ part.file.lineCount ∧ ¬part.WholeLine line ↔ part.CutLine line := by
  unfold AnchorFileContent.lineCount PartRead.WholeLine PartRead.CutLine
  by_cases hempty : part.file.content = ""
  · simp only [hempty, if_true, ne_eq, not_true_eq_false, false_and, iff_false, not_and]
    omega
  · simp only [hempty, if_false, ne_eq, not_false_eq_true, true_and, not_or, not_and]
    constructor
    · rintro ⟨hle, hmore, hnext⟩
      have hlast : line = newlines part.file.content + 1 := by omega
      exact ⟨hlast, hnext hlast⟩
    · rintro ⟨hlast, hnext⟩
      exact ⟨by omega, by omega, fun _ => hnext⟩

theorem handed_grouped_iff (order : KeyOrder comments) (contents : AnchorFiles)
    (relocator : ReviewAnchors) (comment : ReviewComment) :
    (∃ call ∈ (relocateCommentsGrouped comments order contents relocator).2,
      comment ∈ call.comments) ↔ comment ∈ comments ∧ ∃ file,
        contents (anchorFileKey comment) = some (some file) ∧
          anchorReadable file comment.anchor.line = true := by
  have hgroup : ∀ key, comment ∈ groupsOf comments key ↔
      comment ∈ comments ∧ anchorFileKey comment = key := by
    intro key
    simp [groupsOf_eq]
  simp only [relocateCommentsGrouped, List.flatMap_map, List.mem_flatMap]
  constructor
  · rintro ⟨call, ⟨key, hkey, hcall⟩, hmem⟩
    obtain ⟨hin, hfile⟩ := (handed_iff contents relocator key _ comment).mp ⟨call, hcall, hmem⟩
    obtain ⟨hcomment, rfl⟩ := (hgroup key).mp hin
    exact ⟨hcomment, hfile⟩
  · rintro ⟨hcomment, hfile⟩
    obtain ⟨call, hcall, hmem⟩ := (handed_iff contents relocator (anchorFileKey comment) _
      comment).mpr ⟨(hgroup _).mpr ⟨hcomment, rfl⟩, hfile⟩
    exact ⟨call, ⟨_, (order.mem_keys _).mpr ⟨comment, hcomment, rfl⟩, hcall⟩, hmem⟩

/-- Anchors are handed on whole exactly if none stands on the line at which a cut file breaks
off. -/
theorem relocatedWhole_iff : RelocatedWhole comments order parts relocator ↔
    ∀ comment ∈ comments, ∀ part, parts (anchorFileKey comment) = some (some part) →
      part.file.truncated = true → ¬part.CutLine comment.anchor.line := by
  constructor
  · intro hwhole comment hcomment part hpart htruncated hcut
    obtain ⟨hline, hpartial⟩ := (cutLine_iff comment.anchor.line_pos).mpr hcut
    have hreadable : anchorReadable part.file comment.anchor.line = true := by
      simp [anchorReadable, hline]
    obtain ⟨call, hcall, hmem⟩ := (handed_grouped_iff order (filesOf parts) relocator comment).mpr
      ⟨hcomment, part.file, by simp [filesOf, hpart], hreadable⟩
    exact hpartial (hwhole.whole call hcall comment hmem part hpart htruncated)
  · intro hcut
    refine ⟨?_, ?_, ?_⟩
    · have hperm : ((order.keys.flatMap fun key => (relocateGroup (filesOf parts) relocator key
          (groupsOf comments key)).1).map (·.comment)).Perm comments := by
        rw [List.map_flatMap]
        exact (List.Perm.flatMap_left _ fun key _ => relocateGroup_once _ _ key _).trans
          order.flatMap_groups
      refine List.Perm.trans ?_ hperm
      simp only [relocateCommentsGrouped, List.flatMap_map]
      exact (List.mergeSort_perm _ _).map _
    · intro call hcall comment hmem part hpart htruncated
      obtain ⟨hcomment, file, hfile, hreadable⟩ :=
        (handed_grouped_iff order (filesOf parts) relocator comment).mp ⟨call, hcall, hmem⟩
      obtain rfl : part.file = file := by simpa [filesOf, hpart] using hfile
      have hline : comment.anchor.line ≤ part.file.lineCount := by
        simpa [anchorReadable, htruncated] using hreadable
      by_contra hpartial
      exact hcut comment hcomment part hpart htruncated
        ((cutLine_iff comment.anchor.line_pos).mp ⟨hline, hpartial⟩)
    · intro view hview hcalls
      simp only [relocateCommentsGrouped, List.flatMap_map, List.mem_mergeSort,
        List.mem_flatMap] at hview hcalls
      obtain ⟨key, hkey, hview⟩ := hview
      exact relocateGroup_others _ _ key _ view hview fun call hcall =>
        hcalls call ⟨key, hkey, hcall⟩

end relocation

section sides

/-- Both sides of a review read a file alike and hand on whole lines only, exactly if the cap does
not cut a character of it and no comment stands on a line that the cap cuts. -/
theorem sidesAgree_iff (bytes : ByteArray) {comments : List ReviewComment}
    (order : KeyOrder comments) (parts : PartsRead) (relocator : ReviewAnchors) :
    ReadAlike bytes ∧ RelocatedWhole comments order parts relocator ↔
      CutAlike bytes ∧ ∀ comment ∈ comments, ∀ part,
        parts (anchorFileKey comment) = some (some part) → part.file.truncated = true →
          ¬part.CutLine comment.anchor.line :=
  and_congr (readAlike_iff bytes) relocatedWhole_iff

def sampleComment : ReviewComment where
  id := "rcmt_1"
  scope := "thread:t"
  body := "half"
  anchor :=
    { path := "a.txt", side := .new, line := 1, exact := "ab", before := "", after := ""
      lineHash := "", windowHash := "", baseCommit := none, line_pos := by decide }

def sampleOrder : KeyOrder [sampleComment] where
  keys := [anchorFileKey sampleComment]
  nodup := by simp
  mem_keys key := by simp [eq_comm]

def sampleRelocator : ReviewAnchors where
  relocate _ anchors := anchors.map fun anchor => ⟨.anchored, some anchor.line⟩
  length_relocate _ _ := List.length_map _

/-- Two bytes of a file that goes on with another letter. -/
def samplePart : PartRead where
  file := ⟨"ab", true⟩
  unread := [99].toByteArray
  more _ := by decide

/-- A cap inside a character fails the worktree side, and the last line that was read of a cut file
is handed on though half of it is missing. -/
theorem cut_character_and_line :
    ¬ReadAlike (charAfter 65535).toByteArray ∧
      ¬RelocatedWhole [sampleComment] sampleOrder (fun _ => some (some samplePart))
        sampleRelocator := by
  constructor
  · rw [readAlike_iff]
    have hcut := charAfter_cut 65535
    rintro (hshort | hwhole | ⟨n, -, -, hbinary⟩ | ⟨hbinary, -⟩)
    · have hsize : (charAfter 65535).toByteArray.size = 65535 + 2 := charAfter_size 65535
      rw [hsize] at hshort
      exact absurd hshort (by decide)
    · exact hcut hwhole
    · exact charAfter_plain 65535 (mem_of_mem_extract hbinary)
    · exact charAfter_plain 65535 (mem_of_mem_extract hbinary)
  · rw [relocatedWhole_iff]
    intro hcut
    exact hcut sampleComment List.mem_cons_self samplePart rfl rfl ⟨by decide, by decide, by decide⟩

end sides

end AgentRelay.ReviewComments
