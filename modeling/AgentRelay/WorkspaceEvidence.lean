import AgentRelay.StepRun
import AgentRelay.Text
import Mathlib.Data.List.MinMax

/-! The working trees that the relay remembers of its threads: a pin that a user set, and the tree
that the latest evidence names. The rows are compared with a ledger of all evidence that came. -/
namespace AgentRelay.WorkspaceEvidence

open StepRun

structure ThreadWorkspace where
  pinned : Option String := none
  proven : Option String := none
  provenAt : Option ℕ := none
  deriving DecidableEq

def ThreadWorkspace.isEmpty (w : ThreadWorkspace) : Bool := w.pinned.isNone && w.proven.isNone

def maxU64 : ℕ := 2 ^ 64 - 1

def transcriptClockPersistHeadroom : ℕ := 10000

structure Workspaces where
  threadWorkspace : Table ThreadWorkspace := ∅
  threadWorkspacesRevision : ℕ := 0
  revision : ℕ := 0
  transcriptClock : ℕ := 0

namespace Workspaces

def nextTranscriptRevision (s : Workspaces) : Workspaces × ℕ :=
  let clock := min (s.transcriptClock + 1) maxU64
  ({ s with transcriptClock := clock }, clock)

def row (s : Workspaces) (threadId : String) : ThreadWorkspace :=
  s.threadWorkspace[threadId]?.getD {}

/-- The rows with this one written back; an empty row is not kept. -/
def store (s : Workspaces) (threadId : String) (entry : ThreadWorkspace) : Table ThreadWorkspace :=
  if entry.isEmpty then s.threadWorkspace.erase threadId
  else s.threadWorkspace.insert threadId entry

def setThreadWorkspace (s : Workspaces) (threadId : String) (cwd : Option String) :
    Workspaces × Bool :=
  let entry := s.row threadId
  if entry.pinned = cwd then ({ s with threadWorkspace := s.store threadId entry }, false)
  else
    ({ s with
        threadWorkspace := s.store threadId { entry with pinned := cwd }
        threadWorkspacesRevision := (s.threadWorkspacesRevision + 1) % 2 ^ 64 }, true)

def recordProvenThreadWorkspaceAt (s : Workspaces) (threadId tree : String) (at_ : ℕ) :
    Workspaces :=
  let entry := s.row threadId
  let opened := { s with threadWorkspace := s.threadWorkspace.insert threadId entry }
  if entry.provenAt.any (at_ < ·) then opened
  else if entry.proven = some tree ∧ entry.provenAt = some at_ then opened
  else
    { s with
      threadWorkspace :=
        s.threadWorkspace.insert threadId { entry with proven := tree, provenAt := at_ }
      threadWorkspacesRevision :=
        if entry.proven ≠ some tree then (s.threadWorkspacesRevision + 1) % 2 ^ 64
        else s.threadWorkspacesRevision
      revision := (s.revision + 1) % 2 ^ 64 }

def observeThreadCwd (s : Workspaces) (threadId cwd : String) : Workspaces :=
  if threadId = "" ∨ cwd = "" then s
  else
    let (s, at_) := s.nextTranscriptRevision
    s.recordProvenThreadWorkspaceAt threadId cwd at_

def recordProvenThreadWorkspace (s : Workspaces) (threadId tree : String) : Workspaces :=
  if (s.row threadId).proven = some tree then s
  else
    let (s, at_) := s.nextTranscriptRevision
    s.recordProvenThreadWorkspaceAt threadId tree at_

def recordInferredThreadWorkspace (s : Workspaces) (threadId tree : String) (at_ : Option ℕ) :
    Workspaces :=
  s.recordProvenThreadWorkspaceAt threadId tree (at_.getD 0)

/-- What a promotion does here: the real id takes the row over unless it has one. -/
def promote (s : Workspaces) (pendingId realId : String) : Workspaces :=
  match s.threadWorkspace[pendingId]? with
  | none => s
  | some pending =>
    { s with threadWorkspace := (s.threadWorkspace.erase pendingId).insertIfNew realId pending }

def removeThread (s : Workspaces) (threadId : String) : Workspaces :=
  { s with threadWorkspace := s.threadWorkspace.erase threadId }

/-- What a save and the next start leave: pending ids are not written. -/
def restart (s : Workspaces) : Workspaces :=
  { threadWorkspace :=
      s.threadWorkspace.filter fun threadId _ => !Text.startsWith threadId "claude-pending-"
    transcriptClock := min (s.transcriptClock + transcriptClockPersistHeadroom) maxU64 }

/-- `transcriptChange` is any change that takes a revision of its own off the clock. -/
inductive Op
  | pin (threadId : String) (cwd : Option String)
  | observe (threadId cwd : String)
  | prove (threadId tree : String)
  | infer (threadId tree : String) (at_ : Option ℕ)
  | promote (pendingId realId : String)
  | remove (threadId : String)
  | transcriptChange
  | restart

def step (s : Workspaces) : Op → Workspaces
  | .pin threadId cwd => (s.setThreadWorkspace threadId cwd).1
  | .observe threadId cwd => s.observeThreadCwd threadId cwd
  | .prove threadId tree => s.recordProvenThreadWorkspace threadId tree
  | .infer threadId tree at_ => s.recordInferredThreadWorkspace threadId tree at_
  | .promote pendingId realId => s.promote pendingId realId
  | .remove threadId => s.removeThread threadId
  | .transcriptChange => s.nextTranscriptRevision.1
  | .restart => s.restart

end Workspaces

section evidence

/-- A tree, and the clock at which it was seen to be a thread's. -/
abbrev Evidence := String × ℕ

/-- The evidence with the greatest clock, the last that came where clocks are equal. -/
def latest (evidence : List Evidence) : Option Evidence := evidence.reverse.argmax (·.2)

theorem latest_concat (evidence : List Evidence) (new : Evidence) :
    latest (evidence ++ [new]) =
      match latest evidence with
      | none => some new
      | some held => if new.2 < held.2 then some held else some new := by
  rw [latest, List.reverse_concat, List.argmax_cons, latest]
  cases evidence.reverse.argmax (·.2) <;> rfl

theorem latest_eq_none {evidence : List Evidence} : latest evidence = none ↔ evidence = [] := by
  simp [latest]

end evidence

structure Account where
  pinned : Option String := none
  evidence : List Evidence := []

abbrev Ledger := String → Account

def Account.row (account : Account) : Option ThreadWorkspace :=
  if account.pinned = none ∧ account.evidence = [] then none
  else
    some ⟨account.pinned, (latest account.evidence).map (·.1), (latest account.evidence).map (·.2)⟩

def Account.add (account : Account) (tree : String) (at_ : ℕ) : Account :=
  { account with evidence := account.evidence ++ [(tree, at_)] }

namespace Workspaces

def brings (s : Workspaces) : Op → Option (String × Evidence)
  | .observe threadId cwd =>
    if threadId = "" ∨ cwd = "" then none
    else some (threadId, cwd, s.nextTranscriptRevision.2)
  | .prove threadId tree =>
    if (s.row threadId).proven = some tree then none
    else some (threadId, tree, s.nextTranscriptRevision.2)
  | .infer threadId tree at_ => some (threadId, tree, at_.getD 0)
  | _ => none

def ledgerStep (s : Workspaces) (ledger : Ledger) (op : Op) : Ledger :=
  match op with
  | .pin threadId cwd => Function.update ledger threadId { ledger threadId with pinned := cwd }
  | .promote pendingId realId =>
    if (ledger pendingId).row = none then ledger
    else
      let moved := Function.update ledger pendingId {}
      if (moved realId).row = none then Function.update moved realId (ledger pendingId) else moved
  | .remove threadId => Function.update ledger threadId {}
  | .restart => fun threadId =>
      if Text.startsWith threadId "claude-pending-" then {} else ledger threadId
  | _ =>
    match s.brings op with
    | none => ledger
    | some (threadId, tree, at_) =>
      Function.update ledger threadId ((ledger threadId).add tree at_)

def pairStep (pair : Workspaces × Ledger) (op : Op) : Workspaces × Ledger :=
  (pair.1.step op, pair.1.ledgerStep pair.2 op)

theorem getD_row (account : Account) : account.row.getD {} =
    ⟨account.pinned, (latest account.evidence).map (·.1), (latest account.evidence).map (·.2)⟩ := by
  unfold Account.row
  split_ifs with hempty
  · simp [hempty, latest]
  · rfl

theorem row_add (account : Account) (tree : String) (at_ : ℕ) :
    (account.add tree at_).row = some ⟨account.pinned,
      (latest (account.evidence ++ [(tree, at_)])).map (·.1),
      (latest (account.evidence ++ [(tree, at_)])).map (·.2)⟩ := by
  simp [Account.row, Account.add]

def Agrees (s : Workspaces) (ledger : Ledger) : Prop :=
  ∀ threadId, s.threadWorkspace[threadId]? = (ledger threadId).row

variable {s : Workspaces} {ledger : Ledger}

theorem Agrees.row (h : s.Agrees ledger) (threadId : String) : s.row threadId =
    ⟨(ledger threadId).pinned, (latest (ledger threadId).evidence).map (·.1),
      (latest (ledger threadId).evidence).map (·.2)⟩ := by
  rw [Workspaces.row, h threadId, getD_row]

theorem Agrees.record (h : s.Agrees ledger) (threadId tree : String) (at_ : ℕ) :
    (s.recordProvenThreadWorkspaceAt threadId tree at_).Agrees
      (Function.update ledger threadId ((ledger threadId).add tree at_)) := by
  intro other
  by_cases hother : other = threadId
  · subst hother
    rw [Function.update_self, row_add, latest_concat]
    simp only [recordProvenThreadWorkspaceAt, h.row]
    cases latest (ledger other).evidence with
    | none => simp
    | some held =>
      obtain ⟨tree', at'⟩ := held
      by_cases hlt : at_ < at'
      · simp [hlt]
      · by_cases hsame : tree' = tree ∧ at' = at_
        · simp [hsame]
        · simp [hlt, hsame]
  · rw [Function.update_of_ne hother, ← h other]
    unfold recordProvenThreadWorkspaceAt
    dsimp only
    split_ifs <;> simp [Table.getElem?_insert_of, hother]

theorem Agrees.clock (h : s.Agrees ledger) : s.nextTranscriptRevision.1.Agrees ledger := h

theorem Agrees.getElem?_store (h : s.Agrees ledger) (threadId : String) {account : Account}
    {entry : ThreadWorkspace} (hentry : account.row.getD {} = entry) (other : String) :
    (s.store threadId entry)[other]? = (Function.update ledger threadId account other).row := by
  subst hentry
  unfold Workspaces.store
  by_cases hother : other = threadId
  · subst hother
    rw [Function.update_self, getD_row, Account.row]
    cases hlatest : latest account.evidence with
    | none =>
      rw [latest_eq_none.mp hlatest]
      cases account.pinned <;> simp [ThreadWorkspace.isEmpty]
    | some held =>
      have : account.evidence ≠ [] := by
        rw [Ne, ← latest_eq_none, hlatest]
        simp
      simp [ThreadWorkspace.isEmpty, this]
  · rw [Function.update_of_ne hother, ← h other]
    split_ifs <;> simp [Table.getElem?_erase_of, Table.getElem?_insert_of, hother]

theorem Agrees.step (h : s.Agrees ledger) (op : Op) :
    (s.step op).Agrees (s.ledgerStep ledger op) := by
  cases op with
  | pin threadId cwd =>
    intro other
    simp only [Workspaces.step, setThreadWorkspace, ledgerStep]
    split_ifs with hsame
    · refine h.getElem?_store threadId ?_ other
      rw [getD_row, ← hsame, h.row]
    · refine h.getElem?_store threadId ?_ other
      rw [getD_row, h.row]
  | observe threadId cwd =>
    simp only [Workspaces.step, observeThreadCwd, ledgerStep, brings]
    split_ifs with hempty
    · exact h
    · exact h.clock.record threadId cwd _
  | prove threadId tree =>
    simp only [Workspaces.step, recordProvenThreadWorkspace, ledgerStep, brings]
    split_ifs with hsame
    · exact h
    · exact h.clock.record threadId tree _
  | infer threadId tree at_ => exact h.record threadId tree _
  | promote pendingId realId =>
    simp only [Workspaces.step, promote, ledgerStep, h pendingId]
    cases hpending : (ledger pendingId).row with
    | none => exact h
    | some pending =>
      intro other
      have hgone : ∀ threadId, (s.threadWorkspace.erase pendingId)[threadId]? =
          (Function.update ledger pendingId {} threadId).row := by
        intro threadId
        rw [Table.getElem?_erase_of]
        by_cases hid : threadId = pendingId
        · subst hid
          simp [Account.row]
        · simp [hid, h threadId]
      simp only [reduceCtorEq, if_false, Table.getElem?_insertIfNew_of, hgone]
      by_cases hreal : other = realId
      · subst hreal
        cases hheld : (Function.update ledger pendingId {} other).row <;> simp [hheld, hpending]
      · split_ifs <;> simp [hreal]
  | remove threadId =>
    intro other
    simp only [Workspaces.step, removeThread, ledgerStep, Table.getElem?_erase_of]
    by_cases hid : other = threadId
    · subst hid
      simp [Account.row]
    · simp [hid, h other]
  | transcriptChange => exact h.clock
  | restart =>
    intro other
    simp only [Workspaces.step, restart, ledgerStep, Table.getElem?_filter, h other]
    cases hpending : Text.startsWith other "claude-pending-" with
    | true => cases (ledger other).row <;> simp [Option.filter, Account.row]
    | false => cases hrow : (ledger other).row <;> simp [Option.filter, hrow]

/-- Whatever comes in whatever order, a thread has the pin that was set last, and the tree and the
clock of its latest evidence. A thread of which nothing is known has no row. -/
theorem workspaces_run (ops : List Op) (threadId : String) :
    let (s, ledger) := run pairStep ({}, fun _ => {}) ops
    let found := (ledger threadId).evidence.reverse.argmax (·.2)
    (s.row threadId).pinned = (ledger threadId).pinned ∧
      (s.row threadId).proven = found.map (·.1) ∧ (s.row threadId).provenAt = found.map (·.2) ∧
      (s.threadWorkspace[threadId]? = none ↔ ledger threadId = {}) := by
  have hrun : (run pairStep ({}, fun _ => {}) ops).1.Agrees
      (run pairStep ({}, fun _ => {}) ops).2 := by
    refine run_of_step (I := fun pair : Workspaces × Ledger => pair.1.Agrees pair.2)
      (fun pair op h => h.step op) ?_ ops
    intro threadId
    simp [Account.row]
  dsimp only
  refine ⟨by rw [hrun.row], by rw [hrun.row]; rfl, by rw [hrun.row]; rfl, ?_⟩
  rw [hrun threadId]
  obtain ⟨pinned, evidence⟩ := (run pairStep ({}, fun _ => {}) ops).2 threadId
  simp [Account.row]

end Workspaces

end AgentRelay.WorkspaceEvidence
