import AgentRelay.BoundedTables
import AgentRelay.StableSort
import AgentRelay.StepRun

/-! The workflow runs of the relay and the locks they hold. A run that is not settled locks its
threads and its workspace; a blocked one keeps its lock until somebody resolves it. -/
namespace AgentRelay.WorkflowLocks

open StepRun BoundedTables StableSort

inductive RunStatus
  | queued | running | done | escalated | failed | blocked | resolving | interrupted | cancelled
  deriving DecidableEq

def RunStatus.isTerminal : RunStatus → Bool
  | done | escalated | failed | interrupted | cancelled => true
  | queued | running | blocked | resolving => false

structure WorkflowRun where
  id : String
  parentThreadId : String
  status : RunStatus := .queued
  currentStep : String := ""
  stepThreads : Table String := ∅
  cwd : String
  updatedAt : ℕ
  error : Option String := none

namespace WorkflowRun

/-- Neither settled nor held for a recovery: the states in which the driver may move the run. -/
def driven (run : WorkflowRun) : Bool :=
  !(run.status.isTerminal || run.status = .blocked || run.status = .resolving)

def setStatus (now : ℕ) (status : RunStatus) (run : WorkflowRun) : WorkflowRun :=
  if run.driven then { run with status, updatedAt := now } else run

def setCurrentStep (now : ℕ) (stepId : String) (run : WorkflowRun) : WorkflowRun :=
  { run with currentStep := stepId, updatedAt := now }

def fail (now : ℕ) (error : String) (run : WorkflowRun) : WorkflowRun :=
  if run.driven then setStatus now .failed { run with error := some error } else run

def block (now : ℕ) (error : String) (run : WorkflowRun) : WorkflowRun :=
  if run.status.isTerminal then run
  else { run with error := some error, status := .blocked, updatedAt := now }

def beginResolvingBlocked (now : ℕ) (run : WorkflowRun) : WorkflowRun × Bool :=
  if run.status = .blocked then ({ run with status := .resolving, updatedAt := now }, true)
  else (run, false)

def resolveBlockedAsFailed (now : ℕ) (error : String) (run : WorkflowRun) : WorkflowRun :=
  if run.status = .resolving then
    { run with error := some error, status := .failed, updatedAt := now }
  else run

def restoreResolvingAsBlocked (now : ℕ) (error : String) (run : WorkflowRun) :
    WorkflowRun × Bool :=
  if run.status = .resolving then (run.block now error, true) else (run, false)

def markInterruptedIfStranded (now : ℕ) (run : WorkflowRun) : WorkflowRun × Bool :=
  if run.status.isTerminal then (run, false)
  else
    ({ run with
        error := run.error.or
          (some "the workflow run's orchestrator was lost; re-run to continue")
        status := .interrupted, updatedAt := now }, true)

def taskExited (now : ℕ) (run : WorkflowRun) : WorkflowRun :=
  if run.driven then
    (markInterruptedIfStranded now
      { run with error := some "the workflow task ended unexpectedly" }).1
  else run

def ownedThreads (run : WorkflowRun) : List String :=
  run.stepThreads.values.foldl
    (fun owned threadId => if threadId ∈ owned then owned else owned ++ [threadId])
    [run.parentThreadId]

/-- The promotion of a thread, in the places where the run names it. -/
def rekey (pendingId realId : String) (run : WorkflowRun) : WorkflowRun :=
  let renamed (threadId : String) := if threadId = pendingId then realId else threadId
  { run with
    stepThreads := run.stepThreads.map fun _ threadId => renamed threadId
    parentThreadId := renamed run.parentThreadId }

def ownsThread (run : WorkflowRun) (threadId : String) : Bool :=
  run.parentThreadId = threadId || run.stepThreads.values.any (· = threadId)

end WorkflowRun

inductive RunWrite
  | setStatus (status : RunStatus)
  | setCurrentStep (stepId : String)
  | bindThread (stepId threadId : String)
  | fail (error : String)
  | block (error : String)
  | resolveAsFailed (error : String)
  | restoreAsBlocked (error : String)
  | taskExited

def RunWrite.apply (now : ℕ) (run : WorkflowRun) : RunWrite → WorkflowRun
  | setStatus status => run.setStatus now status
  | setCurrentStep stepId => run.setCurrentStep now stepId
  | bindThread stepId threadId =>
    { run with stepThreads := run.stepThreads.insert stepId threadId }
  | fail error => run.fail now error
  | block error => run.block now error
  | resolveAsFailed error => run.resolveBlockedAsFailed now error
  | restoreAsBlocked error => (run.restoreResolvingAsBlocked now error).1
  | taskExited => run.taskExited now

def maxWorkflowRuns : ℕ := 64

section relay
variable (iter : Table WorkflowRun → List (String × WorkflowRun))
  (ensureInScope : String → String → Except String Unit)

/-- Settled runs make room for a new one, the least recently written first. -/
def pruneWorkflowRuns (jobs : Table WorkflowRun) : Table WorkflowRun :=
  if jobs.size < maxWorkflowRuns then jobs
  else
    let terminal := (iter jobs).filter (·.2.status.isTerminal)
    evictUntil (fun jobs => jobs.size < maxWorkflowRuns)
      ((byAge (·.2.updatedAt) terminal).map (·.1)) jobs

def insertWorkflowRun (run : WorkflowRun) (jobs : Table WorkflowRun) : Table WorkflowRun :=
  (pruneWorkflowRuns iter jobs).insert run.id run

def isThreadWorkflowLocked (jobs : Table WorkflowRun) (threadId : String) : Bool :=
  jobs.values.any fun run => !run.status.isTerminal && run.ownsThread threadId

def isCwdWorkflowLocked (jobs : Table WorkflowRun) (cwd : String) : Bool :=
  jobs.values.any fun run => !run.status.isTerminal && run.cwd = cwd

def dropWorkflowRunsForReviewer (reviewerId : String) (jobs : Table WorkflowRun) :
    Table WorkflowRun :=
  jobs.filter fun _ run =>
    !run.status.isTerminal || !run.stepThreads.values.any (· = reviewerId)

def restoredWorkflowJobs (now : ℕ) (jobs : Table WorkflowRun) : Table WorkflowRun :=
  jobs.map fun _ run => (run.markInterruptedIfStranded now).1

def blockedWorkflowRunIds (jobs : Table WorkflowRun) : Option String → Except String String
  | some runId =>
    match jobs[runId]? with
    | some run =>
      if run.status = .blocked then .ok run.id
      else if run.status = .resolving then .error "workflow is already resolving"
      else .error "workflow is not blocked"
    | none => .error "there is no blocked workflow with that id"
  | none =>
    match jobs.values.filter (·.status = .blocked) with
    | [] => .error "there is no blocked workflow to resolve"
    | [run] => .ok run.id
    | _ => .error "workflow_run_id is required when more than one workflow is blocked"

def beginResolvingWorkflowRun (now : ℕ) (runId : Option String) (deviceId : String)
    (jobs : Table WorkflowRun) :
    Table WorkflowRun × Except String (String × String × String × List String) :=
  match blockedWorkflowRunIds jobs runId with
  | .error e => (jobs, .error e)
  | .ok blocked =>
    match jobs[blocked]? with
    | none => (jobs, .error "blocked workflow was not found")
    | some run =>
      match ensureInScope deviceId run.cwd with
      | .error e => (jobs, .error e)
      | .ok () =>
        let (next, began) := run.beginResolvingBlocked now
        if began then
          (jobs.insert blocked next,
            .ok (blocked, run.parentThreadId, run.cwd, run.ownedThreads))
        else (jobs, .error "workflow is already resolving or no longer blocked")

inductive Op
  | insert (run : WorkflowRun)
  | write (now : ℕ) (runId : String) (op : RunWrite)
  | beginResolving (now : ℕ) (runId : Option String) (deviceId : String)
  | dropForReviewer (reviewerId : String)
  | promote (pendingId realId : String)
  | restart (now : ℕ)

def step (jobs : Table WorkflowRun) : Op → Table WorkflowRun
  | .insert run => insertWorkflowRun iter run jobs
  | .write now runId op => jobs.modify runId (op.apply now)
  | .beginResolving now runId deviceId =>
    (beginResolvingWorkflowRun ensureInScope now runId deviceId jobs).1
  | .dropForReviewer reviewerId => dropWorkflowRunsForReviewer reviewerId jobs
  | .promote pendingId realId => jobs.map fun _ run => run.rekey pendingId realId
  | .restart now => restoredWorkflowJobs now jobs

variable {iter ensureInScope} {jobs : Table WorkflowRun} {id cwd : String} {run : WorkflowRun}

theorem evicted_pruneWorkflowRuns (hiter : (iter jobs).Perm jobs.toList) :
    Evicted (fun _ run => run.status.isTerminal = true) (·.updatedAt)
      (fun jobs => jobs.size < maxWorkflowRuns) jobs (pruneWorkflowRuns iter jobs) := by
  unfold pruneWorkflowRuns
  split_ifs with hroom
  · exact evicted_self (by simpa using hroom)
  · refine evicted_evictUntil (fun id run => ?_) (pairwise_byAge _ _)
    rw [mem_byAge, List.mem_filter, hiter.mem_iff, Std.ExtTreeMap.mem_toList_iff_getElem?_eq_some]

theorem apply_place (now : ℕ) (run : WorkflowRun) (op : RunWrite) :
    (op.apply now run).cwd = run.cwd ∧ (op.apply now run).parentThreadId = run.parentThreadId := by
  cases op <;>
    grind [RunWrite.apply, WorkflowRun.setStatus, WorkflowRun.setCurrentStep, WorkflowRun.fail,
      WorkflowRun.block, WorkflowRun.resolveBlockedAsFailed, WorkflowRun.restoreResolvingAsBlocked,
      WorkflowRun.taskExited, WorkflowRun.markInterruptedIfStranded]

/-- Only the recovery gets a blocked run out of its state. -/
theorem apply_blocked (now : ℕ) (op : RunWrite) (h : run.status = .blocked) :
    (op.apply now run).status = .blocked := by
  cases op <;>
    simp [RunWrite.apply, WorkflowRun.setStatus, WorkflowRun.setCurrentStep, WorkflowRun.fail,
      WorkflowRun.block, WorkflowRun.resolveBlockedAsFailed, WorkflowRun.restoreResolvingAsBlocked,
      WorkflowRun.taskExited, WorkflowRun.driven, RunStatus.isTerminal, h]

/-- The operation settles the run, or puts another record in its place. -/
def Ends (id : String) (jobs : Table WorkflowRun) : Op → Prop
  | .insert run => run.id = id
  | .write now runId op =>
    runId = id ∧ ∃ run, jobs[id]? = some run ∧ (op.apply now run).status.isTerminal = true
  | .restart _ => True
  | .beginResolving _ _ _ | .dropForReviewer _ | .promote _ _ => False

/-- What gets a blocked run out of its state: a recovery that begins, a restart, another record. -/
def Releases (ensureInScope : String → String → Except String Unit) (id : String)
    (jobs : Table WorkflowRun) : Op → Prop
  | .insert run => run.id = id
  | .beginResolving now runId deviceId =>
    ∃ place, (beginResolvingWorkflowRun ensureInScope now runId deviceId jobs).2 = .ok (id, place)
  | .restart _ => True
  | .write _ _ _ | .dropForReviewer _ | .promote _ _ => False

/-- The id under which a thread goes on. -/
def Op.follow (threadId : String) : Op → String
  | .promote pendingId realId => if threadId = pendingId then realId else threadId
  | _ => threadId

structure Continues (op : Op) (run next : WorkflowRun) : Prop where
  live : next.status.isTerminal = false
  cwd : next.cwd = run.cwd
  parent : next.parentThreadId = op.follow run.parentThreadId

theorem beginResolving_spec (now : ℕ) (runId : Option String) (deviceId : String)
    (h : jobs[id]? = some run) :
    let (next, answer) := beginResolvingWorkflowRun ensureInScope now runId deviceId jobs
    next[id]? = some run ∨ (run.status = .blocked ∧ (∃ place, answer = .ok (id, place)) ∧
      next[id]? = some { run with status := .resolving, updatedAt := now }) := by
  unfold beginResolvingWorkflowRun
  cases hblocked : blockedWorkflowRunIds jobs runId with
  | error e => exact Or.inl h
  | ok blocked =>
    dsimp only
    cases hfound : jobs[blocked]? with
    | none => exact Or.inl h
    | some found =>
      dsimp only
      cases ensureInScope deviceId found.cwd with
      | error e => exact Or.inl h
      | ok =>
        by_cases hstatus : found.status = .blocked
        · by_cases hid : id = blocked
          · subst hid
            obtain rfl := Option.some.inj (hfound.symm.trans h)
            exact Or.inr (by simp [WorkflowRun.beginResolvingBlocked, hstatus])
          · exact Or.inl (by
              simp [WorkflowRun.beginResolvingBlocked, hstatus, Table.getElem?_insert_of, hid, h])
        · exact Or.inl (by simp [WorkflowRun.beginResolvingBlocked, hstatus, h])

theorem step_live (hiter : ∀ jobs, (iter jobs).Perm jobs.toList) (op : Op)
    (h : jobs[id]? = some run) (hlive : run.status.isTerminal = false) (hends : ¬Ends id jobs op) :
    ∃ next, (step iter ensureInScope jobs op)[id]? = some next ∧ Continues op run next ∧
      (run.status = .blocked → next.status = .blocked ∨ Releases ensureInScope id jobs op) := by
  cases op with
  | insert new =>
    refine ⟨run, ?_, ⟨hlive, rfl, rfl⟩, Or.inl⟩
    have hkept := (evicted_pruneWorkflowRuns (hiter jobs)).getElem? h (by simp [hlive])
    simp [step, insertWorkflowRun, Table.getElem?_insert_of, Ne.symm hends, hkept]
  | write now runId op =>
    by_cases hid : id = runId
    · subst hid
      have hstill : (op.apply now run).status.isTerminal = false := by
        by_contra hterminal
        exact hends ⟨rfl, run, h, by simpa using hterminal⟩
      obtain ⟨hcwd, hparent⟩ := apply_place now run op
      exact ⟨op.apply now run, by simp [step, h], ⟨hstill, hcwd, hparent⟩,
        fun hblocked => Or.inl (apply_blocked now op hblocked)⟩
    · exact ⟨run, by simp [step, Table.getElem?_modify_of, hid, h], ⟨hlive, rfl, rfl⟩, Or.inl⟩
  | beginResolving now runId deviceId =>
    rcases @beginResolving_spec ensureInScope _ _ _ now runId deviceId h with
      hsame | ⟨hblocked, hanswer, hnext⟩
    · exact ⟨run, hsame, ⟨hlive, rfl, rfl⟩, Or.inl⟩
    · exact ⟨_, hnext, ⟨rfl, rfl, rfl⟩, fun _ => Or.inr hanswer⟩
  | dropForReviewer reviewerId =>
    refine ⟨run, ?_, ⟨hlive, rfl, rfl⟩, Or.inl⟩
    simp [step, dropWorkflowRunsForReviewer, h, Option.filter, hlive]
  | promote pendingId realId =>
    exact ⟨run.rekey pendingId realId, by simp [step, h], ⟨hlive, rfl, rfl⟩, Or.inl⟩
  | restart now => exact absurd trivial hends

theorem cwd_locked_iff : isCwdWorkflowLocked jobs cwd = true ↔
    ∃ (id : String) (run : WorkflowRun), jobs[id]? = some run ∧
      run.status.isTerminal = false ∧ run.cwd = cwd := by
  simp only [isCwdWorkflowLocked, List.any_eq_true, Table.mem_values, Bool.and_eq_true,
    Bool.not_eq_true', decide_eq_true_eq]
  constructor
  · rintro ⟨run, ⟨id, h⟩, hlive, hcwd⟩
    exact ⟨id, run, h, hlive, hcwd⟩
  · rintro ⟨id, run, h, hlive, hcwd⟩
    exact ⟨run, ⟨id, h⟩, hlive, hcwd⟩

/-- A workspace that is locked and later is not was released by the end of a run that held it. No
pruning, no other run and no deleted reviewer releases it. -/
theorem workspace_released (hiter : ∀ jobs, (iter jobs).Perm jobs.toList) (ops : List Op)
    (hlocked : isCwdWorkflowLocked jobs cwd = true)
    (hfree : isCwdWorkflowLocked (StepRun.run (step iter ensureInScope) jobs ops) cwd = false) :
    ∃ before op after id run, ops = before ++ op :: after ∧
      (StepRun.run (step iter ensureInScope) jobs before)[id]? = some run ∧
      run.status.isTerminal = false ∧ run.cwd = cwd ∧
      Ends id (StepRun.run (step iter ensureInScope) jobs before) op := by
  induction ops generalizing jobs with
  | nil => simp [hlocked] at hfree
  | cons op ops ih =>
    obtain ⟨id, run, h, hlive, hcwd⟩ := cwd_locked_iff.mp hlocked
    by_cases hends : Ends id jobs op
    · exact ⟨[], op, ops, id, run, rfl, h, hlive, hcwd, hends⟩
    · obtain ⟨next, hnext, hcontinues, -⟩ :=
        @step_live iter ensureInScope _ _ _ hiter op h hlive hends
      obtain ⟨before, later, after, id', run', rfl, hrest⟩ := ih
        (cwd_locked_iff.mpr ⟨id, next, hnext, hcontinues.live, hcontinues.cwd.trans hcwd⟩) hfree
      exact ⟨op :: before, later, after, id', run', rfl, hrest⟩

def sampleRun (status : RunStatus) : WorkflowRun :=
  { id := "w", parentThreadId := "p", status := status, cwd := "/work", updatedAt := 1 }

def oneRun (status : RunStatus) : Table WorkflowRun :=
  (∅ : Table WorkflowRun).insert "w" (sampleRun status)

theorem workspace_released_done :
    let step := step (·.toList) fun _ _ => .ok ()
    let ops : List Op := [.dropForReviewer "p", .write 2 "w" (.setStatus .done)]
    ∃ before op after id run, ops = before ++ op :: after ∧
      (StepRun.run step (oneRun .running) before)[id]? = some run ∧
      run.status.isTerminal = false ∧ run.cwd = "/work" ∧
      Ends id (StepRun.run step (oneRun .running) before) op :=
  workspace_released (fun _ => .refl _) _ (by decide +kernel) (by decide +kernel)

/-- A blocked run stays blocked, and its workspace and its parent thread, under whatever id that
goes on, stay locked until a recovery of it begins, the relay restarts or another run takes its
id. -/
theorem blocked_run_holds (hiter : ∀ jobs, (iter jobs).Perm jobs.toList) (ops : List Op)
    (h : jobs[id]? = some run) (hblocked : run.status = .blocked)
    (halong : Along (step iter ensureInScope) (fun jobs op => ¬Releases ensureInScope id jobs op)
      jobs ops) :
    let jobs' := StepRun.run (step iter ensureInScope) jobs ops
    jobs'[id]?.map (·.status) = some .blocked ∧ isCwdWorkflowLocked jobs' run.cwd = true ∧
      isThreadWorkflowLocked jobs' (ops.foldl Op.follow run.parentThreadId) = true := by
  have hlive : run.status.isTerminal = false := by simp [hblocked, RunStatus.isTerminal]
  induction ops generalizing jobs run with
  | nil =>
    refine ⟨by simp [h, hblocked], cwd_locked_iff.mpr ⟨id, run, h, hlive, rfl⟩,
      List.any_eq_true.mpr ⟨run, Table.mem_values.mpr ⟨id, h⟩, ?_⟩⟩
    simp [hlive, WorkflowRun.ownsThread]
  | cons op ops ih =>
    have hends : ¬Ends id jobs op := by
      intro hends
      cases op with
      | write now runId op =>
        obtain ⟨-, found, hfound, hterminal⟩ := hends
        obtain rfl := Option.some.inj (hfound.symm.trans h)
        simp [apply_blocked now op hblocked, RunStatus.isTerminal] at hterminal
      | insert new => exact halong.1 hends
      | restart now => exact halong.1 trivial
      | beginResolving now runId deviceId => exact hends
      | dropForReviewer reviewerId => exact hends
      | promote pendingId realId => exact hends
    obtain ⟨next, hnext, hcontinues, hstays⟩ := step_live hiter op h hlive hends
    have := ih hnext ((hstays hblocked).resolve_right halong.1) halong.2 hcontinues.live
    rwa [hcontinues.cwd, hcontinues.parent] at this

theorem blocked_run_holds_parked :
    let jobs := StepRun.run (step (·.toList) fun _ _ => .ok ()) (oneRun .blocked)
      [.write 2 "w" .taskExited, .promote "p" "q"]
    jobs["w"]?.map (·.status) = some .blocked ∧ isCwdWorkflowLocked jobs "/work" = true ∧
      isThreadWorkflowLocked jobs "q" = true := by
  have h : (oneRun .blocked)["w"]? = some (sampleRun .blocked) := by simp [oneRun]
  refine blocked_run_holds (fun _ => .refl _) _ h rfl ?_
  exact ⟨fun h => h, fun h => h, trivial⟩

end relay

end AgentRelay.WorkflowLocks
