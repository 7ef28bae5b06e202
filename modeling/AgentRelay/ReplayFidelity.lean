import AgentRelay.SealedActions

/-! How a remote action is answered. Its first execution reserves the action id and stores a result
under it, and a repeated request gets that result. A request that comes under the same id with
another kind is refused, and its refusal is stored too, under the same id. -/
namespace AgentRelay.Relay
open Std StepRun

structure HandledAction where
  id : Nat
  deviceId : String
  actionId : String
  actionKind : RemoteActionKind
  refusal : Option String
  deriving DecidableEq, Repr

namespace HandledAction

def key (action : HandledAction) : String := remoteActionCacheKey action.deviceId action.actionId

/-- `cached_remote_action_result`: a refused request has no outcome but its error. -/
def result (action : HandledAction) (error : Option String) : CachedRemoteActionResult :=
  let error := action.refusal.or error
  ⟨action.actionKind.asStr, error.isNone, error⟩

end HandledAction

structure RemoteActionAnswer where
  deviceId : String
  actionId : String
  actionKind : RemoteActionKind
  result : CachedRemoteActionResult
  deriving DecidableEq, Repr

structure RemoteActionHandling where
  recentRemoteActions : RemoteActionCache := ∅
  nextId : Nat := 0
  storing : List HandledAction := []
  answers : List RemoteActionAnswer := []

/-- A request whose device has been resolved, or a request at work that stores its result: that of
its execution, which failed if there is an error. -/
inductive HandlingOp
  | request (deviceId actionId : String) (actionKind : RemoteActionKind)
  | store (id : Nat) (error : Option String) (rank : String → Nat)

namespace RemoteActionHandling

/-- `handle_remote_action` and `handle_encrypted_remote_action` up to the execution. -/
def handleRemoteAction (s : RemoteActionHandling) (deviceId actionId : String)
    (actionKind : RemoteActionKind) (now : Nat) : RemoteActionHandling :=
  if actionKind.isFireAndForgetAction then s
  else
    let reserved :=
      s.recentRemoteActions.reserveRemoteAction deviceId actionId actionKind.asStr now
    let s := { s with recentRemoteActions := reserved.1, nextId := s.nextId + 1 }
    match reserved.2 with
    | .ok .execute =>
      { s with storing := s.storing ++ [⟨s.nextId - 1, deviceId, actionId, actionKind, none⟩] }
    | .ok (.replay cached) =>
      { s with answers := s.answers ++ [⟨deviceId, actionId, actionKind, cached⟩] }
    | .ok .inFlight => s
    | .error error =>
      { s with
        storing := s.storing ++ [⟨s.nextId - 1, deviceId, actionId, actionKind, some error⟩] }

def storeResult (s : RemoteActionHandling) (action : HandledAction) (error : Option String)
    (rank : String → Nat) (now : Nat) : RemoteActionHandling :=
  { s with
    recentRemoteActions := s.recentRemoteActions.storeRemoteActionResult rank action.deviceId
      action.actionId (action.result error) now
    storing := s.storing.filter (·.id ≠ action.id)
    answers := s.answers ++
      [⟨action.deviceId, action.actionId, action.actionKind, action.result error⟩] }

def step (s : RemoteActionHandling) : Nat × HandlingOp → RemoteActionHandling
  | (now, .request deviceId actionId actionKind) =>
    s.handleRemoteAction deviceId actionId actionKind now
  | (now, .store id error rank) =>
    match s.storing.find? (·.id = id) with
    | some action => s.storeResult action error rank now
    | none => s

/-- The request at work that an operation lets store its result. -/
def storer (s : RemoteActionHandling) : Nat × HandlingOp → Option HandledAction
  | (_, .store id _ _) => s.storing.find? (·.id = id)
  | _ => none

/-- A request under an action id that the cache holds for another kind. -/
def conflicts (s : RemoteActionHandling) : Nat × HandlingOp → Bool
  | (now, .request deviceId actionId actionKind) =>
    !actionKind.isFireAndForgetAction &&
      match (s.recentRemoteActions.pruneRemoteActionReplays now)[remoteActionCacheKey deviceId
        actionId]? with
      | some (.inFlight existingKind _) => existingKind ≠ actionKind.asStr
      | some (.completed result _) => result.actionKind ≠ actionKind.asStr
      | none => false
  | _ => false

/-- A store that makes room in a full cache by giving up the entry of this key. -/
def evicts (s : RemoteActionHandling) (key : String) : Nat × HandlingOp → Bool
  | (now, .store id error rank) =>
    (s.storing.find? (·.id = id)).any fun action =>
      (s.recentRemoteActions.withResult action.deviceId action.actionId (action.result error)
        now).contains key &&
      !(s.recentRemoteActions.storeRemoteActionResult rank action.deviceId action.actionId
        (action.result error) now).contains key
  | _ => false

/-- Within the time to live of an entry of this age, and within the capacity for its key. -/
def Keeps (key : String) (since : Nat) (s : RemoteActionHandling) (op : Nat × HandlingOp) : Prop :=
  op.1 < saturatingAdd since remoteActionReplayTtlSecs ∧ ¬ s.evicts key op

instance (key : String) (since : Nat) (s : RemoteActionHandling) (op : Nat × HandlingOp) :
    Decidable (s.Keeps key since op) := inferInstanceAs (Decidable (_ ∧ _))

/-- The request is let execute, and no other is at work under its action id. -/
def FirstExecution (s : RemoteActionHandling) (deviceId actionId : String)
    (actionKind : RemoteActionKind) (now : Nat) : Prop :=
  actionKind.isFireAndForgetAction = false ∧
    (s.recentRemoteActions.reserveRemoteAction deviceId actionId actionKind.asStr now).2 =
      .ok .execute ∧
    ∀ action ∈ s.storing, action.key ≠ remoteActionCacheKey deviceId actionId

instance (s : RemoteActionHandling) (deviceId actionId : String) (actionKind : RemoteActionKind)
    (now : Nat) : Decidable (s.FirstExecution deviceId actionId actionKind now) :=
  inferInstanceAs (Decidable (_ ∧ _ ∧ _))

end RemoteActionHandling

open RemoteActionHandling in
/-- Within the time to live and the capacity: while a first execution is at work nothing is stored
under its action id, and the result it stores then stays there, and is the answer to the same
request. -/
def ReplayFidelity (ops : List (Nat × HandlingOp)) : Prop :=
  ∀ before rest deviceId actionId actionKind now,
    ops = before ++ (now, .request deviceId actionId actionKind) :: rest →
    (run step {} before).FirstExecution deviceId actionId actionKind now →
    let id := (run step {} before).nextId
    let key := remoteActionCacheKey deviceId actionId
    let s := step (run step {} before) (now, .request deviceId actionId actionKind)
    ∀ during after, rest = during ++ after → Along step (Keeps key now) s during →
      (∀ op ∈ during, ∀ error rank, op.2 ≠ .store id error rank) →
      Along step (fun s op => ∀ action ∈ s.storer op, action.key ≠ key) s during ∧
      ∀ later error rank kept last, after = (later, .store id error rank) :: (kept ++ last) →
        ¬ (run step s during).evicts key (later, .store id error rank) →
        let stored := step (run step s during) (later, .store id error rank)
        Along step (Keeps key later) stored kept →
        ∃ result,
          stored.answers =
            (run step s during).answers ++ [⟨deviceId, actionId, actionKind, result⟩] ∧
          (run step stored kept).recentRemoteActions[key]? = some (.completed result later) ∧
          ∀ again end_, last = (again, .request deviceId actionId actionKind) :: end_ →
            again < saturatingAdd later remoteActionReplayTtlSecs →
            (step (run step stored kept) (again, .request deviceId actionId actionKind)).answers =
              (run step stored kept).answers ++ [⟨deviceId, actionId, actionKind, result⟩]

namespace RemoteActionCache

theorem getElem?_prune_of_lt {cache : RemoteActionCache} {now : Nat} {key : String}
    {entry : CachedRemoteActionState} (hget : cache[key]? = some entry)
    (hlt : now < saturatingAdd entry.seenAt remoteActionReplayTtlSecs) :
    (cache.pruneRemoteActionReplays now)[key]? = some entry := by
  simp [getElem?_prune, hget, hlt]

theorem getElem?_store_other {cache : RemoteActionCache} {now : Nat} {key : String}
    {entry : CachedRemoteActionState} {deviceId actionId : String}
    {result : CachedRemoteActionResult} {rank : String → Nat} (hget : cache[key]? = some entry)
    (hlt : now < saturatingAdd entry.seenAt remoteActionReplayTtlSecs)
    (hkey : key ≠ remoteActionCacheKey deviceId actionId)
    (hkept : (cache.withResult deviceId actionId result now).contains key →
      (cache.storeRemoteActionResult rank deviceId actionId result now).contains key) :
    (cache.storeRemoteActionResult rank deviceId actionId result now)[key]? = some entry := by
  have hwith : (cache.withResult deviceId actionId result now)[key]? = some entry := by
    rw [withResult, Table.getElem?_insert_of, if_neg hkey]
    exact getElem?_prune_of_lt hget hlt
  have hcontains : (cache.withResult deviceId actionId result now).contains key := by
    rw [ExtTreeMap.contains_eq_isSome_getElem?, hwith]
    rfl
  rw [← hwith]
  exact trim_keeps rank _ (hkept hcontains)

theorem getElem?_store_own {cache : RemoteActionCache} {now : Nat} {deviceId actionId : String}
    {result : CachedRemoteActionResult} {rank : String → Nat}
    (hkept : (cache.withResult deviceId actionId result now).contains
        (remoteActionCacheKey deviceId actionId) →
      (cache.storeRemoteActionResult rank deviceId actionId result now).contains
        (remoteActionCacheKey deviceId actionId)) :
    (cache.storeRemoteActionResult rank deviceId actionId result now)[remoteActionCacheKey deviceId
      actionId]? = some (.completed result now) := by
  have hwith : (cache.withResult deviceId actionId result now)[remoteActionCacheKey deviceId
      actionId]? = some (.completed result now) := by
    rw [withResult, Table.getElem?_insert_of, if_pos rfl]
  have hcontains : (cache.withResult deviceId actionId result now).contains
      (remoteActionCacheKey deviceId actionId) := by
    rw [ExtTreeMap.contains_eq_isSome_getElem?, hwith]
    rfl
  rw [← hwith]
  exact trim_keeps rank _ (hkept hcontains)

end RemoteActionCache

namespace RemoteActionHandling

variable {s : RemoteActionHandling} {deviceId actionId : String} {actionKind : RemoteActionKind}
  {now since later : Nat} {op : Nat × HandlingOp}

theorem step_store {id : Nat} {action : HandledAction} {error : Option String}
    {rank : String → Nat} (hfind : s.storing.find? (·.id = id) = some action) :
    s.step (now, .store id error rank) = s.storeResult action error rank now := by
  unfold step
  dsimp only
  rw [hfind]

theorem step_store_none {id : Nat} {error : Option String} {rank : String → Nat}
    (hfind : s.storing.find? (·.id = id) = none) : s.step (now, .store id error rank) = s := by
  unfold step
  dsimp only
  rw [hfind]

theorem conflicts_of_error {error : String} (hkind : actionKind.isFireAndForgetAction = false)
    (h : (s.recentRemoteActions.reserveRemoteAction deviceId actionId actionKind.asStr now).2 =
      .error error) : s.conflicts (now, .request deviceId actionId actionKind) := by
  unfold RemoteActionCache.reserveRemoteAction at h
  dsimp only at h
  unfold conflicts
  dsimp only
  rw [hkind]
  split at h
  · cases h
  · rename_i existingKind seenAt hget
    rw [hget]
    split_ifs at h with hne
    simpa using hne
  · rename_i result seenAt hget
    rw [hget]
    split_ifs at h with hne
    simpa using hne

theorem handleRemoteAction_spec
    (hconflict : ¬ s.conflicts (now, .request deviceId actionId actionKind)) :
    let s' := s.handleRemoteAction deviceId actionId actionKind now
    let reserved :=
      s.recentRemoteActions.reserveRemoteAction deviceId actionId actionKind.asStr now
    s' = s ∨ s'.recentRemoteActions = reserved.1 ∧ s'.nextId = s.nextId + 1 ∧
      (s'.storing = s.storing ∨ reserved.2 = .ok .execute ∧
        s'.storing = s.storing ++ [⟨s.nextId, deviceId, actionId, actionKind, none⟩]) := by
  unfold handleRemoteAction
  dsimp only
  by_cases hkind : actionKind.isFireAndForgetAction = true
  · exact Or.inl (if_pos hkind)
  · rw [if_neg hkind]
    right
    rw [Bool.not_eq_true] at hkind
    cases hreserved :
        (s.recentRemoteActions.reserveRemoteAction deviceId actionId actionKind.asStr now).2 with
    | error error => exact absurd (conflicts_of_error hkind hreserved) hconflict
    | ok decision =>
      cases decision with
      | execute => exact ⟨rfl, rfl, Or.inr ⟨rfl, rfl⟩⟩
      | replay cached => exact ⟨rfl, rfl, Or.inl rfl⟩
      | inFlight => exact ⟨rfl, rfl, Or.inl rfl⟩

theorem entry_handleRemoteAction {key : String} {entry : CachedRemoteActionState}
    (hconflict : ¬ s.conflicts (now, .request deviceId actionId actionKind))
    (hget : s.recentRemoteActions[key]? = some entry)
    (hlt : now < saturatingAdd entry.seenAt remoteActionReplayTtlSecs) :
    (s.handleRemoteAction deviceId actionId actionKind now).recentRemoteActions[key]? =
      some entry := by
  rcases handleRemoteAction_spec hconflict with hsame | ⟨hcache, -⟩
  · rw [hsame, hget]
  · have hpruned := RemoteActionCache.getElem?_prune_of_lt hget hlt
    rw [hcache, RemoteActionCache.getElem?_reserve, hpruned]
    split_ifs <;> rfl

theorem not_execute_of_entry {entry : CachedRemoteActionState}
    (hget : s.recentRemoteActions[remoteActionCacheKey deviceId actionId]? = some entry)
    (hlt : now < saturatingAdd entry.seenAt remoteActionReplayTtlSecs) :
    (s.recentRemoteActions.reserveRemoteAction deviceId actionId actionKind.asStr now).2 ≠
      .ok .execute := by
  intro hexecute
  rw [RemoteActionCache.execute_iff, RemoteActionCache.getElem?_prune_of_lt hget hlt] at hexecute
  cases hexecute

theorem storing_handleRemoteAction {key : String} {entry : CachedRemoteActionState}
    (hconflict : ¬ s.conflicts (now, .request deviceId actionId actionKind))
    (hget : s.recentRemoteActions[key]? = some entry)
    (hlt : now < saturatingAdd entry.seenAt remoteActionReplayTtlSecs) :
    let s' := s.handleRemoteAction deviceId actionId actionKind now
    s.nextId ≤ s'.nextId ∧ (∀ action ∈ s.storing, action ∈ s'.storing) ∧
      ∀ action ∈ s'.storing, action ∈ s.storing ∨
        action.id = s.nextId ∧ action.id < s'.nextId ∧ action.key ≠ key := by
  intro s'
  rcases handleRemoteAction_spec hconflict with hsame | ⟨-, hid, hstoring⟩
  · have hs' : s' = s := hsame
    rw [hs']
    exact ⟨le_rfl, fun action hmem => hmem, fun action hmem => Or.inl hmem⟩
  · have hid' : s'.nextId = s.nextId + 1 := hid
    refine ⟨by omega, ?_, ?_⟩
    · intro action hmem
      rcases hstoring with hstoring | ⟨-, hstoring⟩
      · exact hstoring ▸ hmem
      · exact hstoring ▸ List.mem_append_left _ hmem
    · intro action hmem
      have hmem' : action ∈ (s.handleRemoteAction deviceId actionId actionKind now).storing := hmem
      rcases hstoring with hstoring | ⟨hexecute, hstoring⟩
      · exact Or.inl (hstoring ▸ hmem')
      · rw [hstoring, List.mem_append, List.mem_singleton] at hmem'
        rcases hmem' with hmem' | rfl
        · exact Or.inl hmem'
        · refine Or.inr ⟨rfl, ?_, ?_⟩
          · rw [hid']
            exact Nat.lt_succ_self _
          intro hkey
          rw [← hkey] at hget
          exact not_execute_of_entry hget hlt hexecute

/-- A first execution is at work: the cache has its reservation, and no other request under its
action id will store a result. -/
structure AtWork (own : HandledAction) (since : Nat) (s : RemoteActionHandling) : Prop where
  entry : s.recentRemoteActions[own.key]? = some (.inFlight own.actionKind.asStr since)
  mem : own ∈ s.storing
  alone : ∀ action ∈ s.storing, action.id = own.id ∨ action.key = own.key → action = own
  fresh : ∀ action ∈ s.storing, action.id < s.nextId

structure Settled (key : String) (result : CachedRemoteActionResult) (since : Nat)
    (s : RemoteActionHandling) : Prop where
  entry : s.recentRemoteActions[key]? = some (.completed result since)
  idle : ∀ action ∈ s.storing, action.key ≠ key

theorem entry_storeResult {key : String} {entry : CachedRemoteActionState} {id : Nat}
    {action : HandledAction} {error : Option String} {rank : String → Nat}
    (hkeeps : s.Keeps key entry.seenAt (now, .store id error rank))
    (hfind : s.storing.find? (·.id = id) = some action) (hkey : action.key ≠ key)
    (hget : s.recentRemoteActions[key]? = some entry) :
    (s.storeResult action error rank now).recentRemoteActions[key]? = some entry := by
  refine RemoteActionCache.getElem?_store_other hget hkeeps.1 (Ne.symm hkey) ?_
  intro hwith
  have hevicts := hkeeps.2
  unfold evicts at hevicts
  dsimp only at hevicts
  rw [hfind, Option.any_some, hwith, Bool.true_and] at hevicts
  simpa using hevicts

theorem atWork_step {own : HandledAction} (h : s.AtWork own since) (hconflict : ¬ s.conflicts op)
    (hkeeps : s.Keeps own.key since op) (hother : ∀ error rank, op.2 ≠ .store own.id error rank) :
    (s.step op).AtWork own since := by
  obtain ⟨now, op⟩ := op
  cases op with
  | request deviceId actionId actionKind =>
    obtain ⟨hid, hkeep, hnew⟩ := storing_handleRemoteAction hconflict h.entry hkeeps.1
    refine ⟨entry_handleRemoteAction hconflict h.entry hkeeps.1, hkeep own h.mem, ?_, ?_⟩
    · intro action hmem hown
      rcases hnew action hmem with hold | ⟨hsame, -, hkey⟩
      · exact h.alone action hold hown
      · rcases hown with hown | hown
        · have hfresh := h.fresh own h.mem
          omega
        · exact absurd hown hkey
    · intro action hmem
      rcases hnew action hmem with hold | ⟨-, hlt, -⟩
      · have hfresh := h.fresh action hold
        exact hfresh.trans_le hid
      · exact hlt
  | store id error rank =>
    cases hfind : s.storing.find? (·.id = id) with
    | none =>
      rw [step_store_none hfind]
      exact h
    | some action =>
      have hid : action.id = id := by simpa using List.find?_some hfind
      have hmem := List.mem_of_find?_eq_some hfind
      have hne : action ≠ own := by
        rintro rfl
        exact hother error rank (by rw [hid])
      have hkey : action.key ≠ own.key := fun hkey => hne (h.alone action hmem (Or.inr hkey))
      have hids : own.id ≠ action.id := fun heq => hne (h.alone action hmem (Or.inl heq.symm))
      rw [step_store hfind]
      refine ⟨entry_storeResult hkeeps hfind hkey h.entry, ?_, ?_, ?_⟩
      · exact List.mem_filter.mpr ⟨h.mem, by simpa using hids⟩
      · intro other hother
        exact h.alone other (List.mem_filter.mp hother).1
      · intro other hother
        exact h.fresh other (List.mem_filter.mp hother).1

theorem atWork_run {own : HandledAction} {ops : List (Nat × HandlingOp)} (h : s.AtWork own since)
    (hconflict : Along step (fun s op => ¬ s.conflicts op) s ops)
    (hkeeps : Along step (Keeps own.key since) s ops)
    (hother : ∀ op ∈ ops, ∀ error rank, op.2 ≠ .store own.id error rank) :
    (run step s ops).AtWork own since ∧
      Along step (fun s op => ∀ action ∈ s.storer op, action.key ≠ own.key) s ops := by
  have hops := ((along_and hconflict hkeeps).and_mem hother)
  have hstep : ∀ (s : RemoteActionHandling) (op : Nat × HandlingOp), s.AtWork own since →
      ((¬ s.conflicts op ∧ s.Keeps own.key since op) ∧
        ∀ error rank, op.2 ≠ .store own.id error rank) →
      (s.step op).AtWork own since ∧ ∀ action ∈ s.storer op, action.key ≠ own.key := by
    intro s op h hop
    refine ⟨atWork_step h hop.1.1 hop.1.2 hop.2, ?_⟩
    obtain ⟨now, op⟩ := op
    cases op with
    | request deviceId actionId actionKind =>
      intro action hmem
      cases hmem
    | store id error rank =>
      intro action hfind hkey
      have hid : action.id = id := by simpa using List.find?_some hfind
      have hown := h.alone action (List.mem_of_find?_eq_some hfind) (Or.inr hkey)
      rw [← hid, hown] at hop
      exact hop.2 error rank rfl
  refine ⟨?_, along_of_step hstep h hops⟩
  exact (always_of_step (fun s op hs hop => (hstep s op hs hop).1) h hops).last

theorem firstExecution_atWork (h : s.FirstExecution deviceId actionId actionKind now)
    (hfresh : ∀ action ∈ s.storing, action.id < s.nextId) :
    (s.step (now, .request deviceId actionId actionKind)).AtWork
      ⟨s.nextId, deviceId, actionId, actionKind, none⟩ now := by
  obtain ⟨hkind, hexecute, halone⟩ := h
  have hstep : s.step (now, .request deviceId actionId actionKind) =
      { s with
        recentRemoteActions := (s.recentRemoteActions.reserveRemoteAction deviceId actionId
          actionKind.asStr now).1
        nextId := s.nextId + 1
        storing := s.storing ++ [⟨s.nextId, deviceId, actionId, actionKind, none⟩] } := by
    unfold step handleRemoteAction
    dsimp only
    rw [if_neg (by simp [hkind])]
    rw [hexecute]
    rfl
  rw [hstep]
  refine ⟨?_, by simp, ?_, ?_⟩
  · rw [RemoteActionCache.execute_iff] at hexecute
    have hreserve := RemoteActionCache.getElem?_reserve s.recentRemoteActions deviceId actionId
      actionKind.asStr now (remoteActionCacheKey deviceId actionId)
    rw [if_pos rfl, hexecute] at hreserve
    exact hreserve
  · intro action hmem hown
    rcases List.mem_append.mp hmem with hmem | hmem
    · rcases hown with hown | hown
      · have hlt := hfresh action hmem
        exact absurd hown (by simpa using hlt.ne)
      · exact absurd hown (halone action hmem)
    · exact List.mem_singleton.mp hmem
  · intro action hmem
    rcases List.mem_append.mp hmem with hmem | hmem
    · exact (hfresh action hmem).trans (Nat.lt_succ_self _)
    · rw [List.mem_singleton.mp hmem]
      exact Nat.lt_succ_self _

theorem atWork_settled {own : HandledAction} {error : Option String} {rank : String → Nat}
    (h : s.AtWork own since) (hkept : ¬ s.evicts own.key (later, .store own.id error rank)) :
    s.step (later, .store own.id error rank) = s.storeResult own error rank later ∧
      (s.storeResult own error rank later).Settled own.key (own.result error) later := by
  have hfind : s.storing.find? (·.id = own.id) = some own := by
    cases hfind : s.storing.find? (·.id = own.id) with
    | none => simpa using List.find?_eq_none.mp hfind own h.mem
    | some action =>
      have hid : action.id = own.id := by simpa using List.find?_some hfind
      rw [h.alone action (List.mem_of_find?_eq_some hfind) (Or.inl hid)]
  refine ⟨?_, ?_, ?_⟩
  · exact step_store hfind
  · apply RemoteActionCache.getElem?_store_own
    intro hwith
    unfold evicts at hkept
    dsimp only at hkept
    rw [hfind, Option.any_some] at hkept
    have hkey : remoteActionCacheKey own.deviceId own.actionId = own.key := rfl
    rw [hkey] at hwith ⊢
    rw [hwith, Bool.true_and] at hkept
    simpa using hkept
  · intro action hmem hkey
    obtain ⟨hold, hne⟩ := List.mem_filter.mp hmem
    rw [h.alone action hold (Or.inr hkey)] at hne
    simp at hne

theorem settled_step {key : String} {result : CachedRemoteActionResult}
    (h : s.Settled key result since) (hconflict : ¬ s.conflicts op)
    (hkeeps : s.Keeps key since op) : (s.step op).Settled key result since := by
  obtain ⟨now, op⟩ := op
  cases op with
  | request deviceId actionId actionKind =>
    obtain ⟨-, -, hnew⟩ := storing_handleRemoteAction hconflict h.entry hkeeps.1
    refine ⟨entry_handleRemoteAction hconflict h.entry hkeeps.1, ?_⟩
    intro action hmem
    rcases hnew action hmem with hold | ⟨-, -, hkey⟩
    · exact h.idle action hold
    · exact hkey
  | store id error rank =>
    cases hfind : s.storing.find? (·.id = id) with
    | none =>
      rw [step_store_none hfind]
      exact h
    | some action =>
      have hkey := h.idle action (List.mem_of_find?_eq_some hfind)
      rw [step_store hfind]
      refine ⟨entry_storeResult hkeeps hfind hkey h.entry, ?_⟩
      intro other hother
      exact h.idle other (List.mem_filter.mp hother).1

theorem settled_run {key : String} {result : CachedRemoteActionResult}
    {ops : List (Nat × HandlingOp)} (h : s.Settled key result since)
    (hconflict : Along step (fun s op => ¬ s.conflicts op) s ops)
    (hkeeps : Along step (Keeps key since) s ops) :
    (run step s ops).Settled key result since := by
  have hstep : ∀ (s : RemoteActionHandling) (op : Nat × HandlingOp), s.Settled key result since →
      (¬ s.conflicts op ∧ s.Keeps key since op) → (s.step op).Settled key result since :=
    fun s op hs hop => settled_step hs hop.1 hop.2
  exact (always_of_step hstep h (along_and hconflict hkeeps)).last

theorem settled_answer {result : CachedRemoteActionResult}
    (h : s.Settled (remoteActionCacheKey deviceId actionId) result since)
    (hkind : actionKind.isFireAndForgetAction = false)
    (hsame : result.actionKind = actionKind.asStr)
    (hlt : now < saturatingAdd since remoteActionReplayTtlSecs) :
    (s.step (now, .request deviceId actionId actionKind)).answers =
      s.answers ++ [⟨deviceId, actionId, actionKind, result⟩] := by
  have hpruned := RemoteActionCache.getElem?_prune_of_lt h.entry hlt
  have hreplay : (s.recentRemoteActions.reserveRemoteAction deviceId actionId actionKind.asStr
      now).2 = .ok (.replay result) := by
    unfold RemoteActionCache.reserveRemoteAction
    dsimp only
    rw [hpruned]
    simp [hsame]
  unfold step handleRemoteAction
  dsimp only
  rw [if_neg (by simp [hkind])]
  rw [hreplay]

theorem fresh_step (h : ∀ action ∈ s.storing, action.id < s.nextId) (op : Nat × HandlingOp) :
    ∀ action ∈ (s.step op).storing, action.id < (s.step op).nextId := by
  obtain ⟨now, op⟩ := op
  cases op with
  | request deviceId actionId actionKind =>
    have hnew : ∀ refusal, ∀ action ∈ s.storing ++
        [(⟨s.nextId + 1 - 1, deviceId, actionId, actionKind, refusal⟩ : HandledAction)],
        action.id < s.nextId + 1 := by
      intro refusal action hmem
      rcases List.mem_append.mp hmem with hmem | hmem
      · exact (h action hmem).trans (Nat.lt_succ_self _)
      · rw [List.mem_singleton.mp hmem]
        exact Nat.lt_succ_self _
    have hold : ∀ action ∈ s.storing, action.id < s.nextId + 1 :=
      fun action hmem => (h action hmem).trans (Nat.lt_succ_self _)
    unfold step handleRemoteAction
    dsimp only
    split_ifs
    · exact h
    · split
      · exact hnew none
      · exact hold
      · exact hold
      · rename_i error _
        exact hnew (some error)
  | store id error rank =>
    unfold step
    dsimp only
    split
    · intro action hmem
      exact h action (List.mem_filter.mp hmem).1
    · exact h

/-- In a run without a request that conflicts with what the cache holds, results are replayed as
they were stored, and nothing is stored under an action id at work but its own result. -/
theorem replay_fidelity (ops : List (Nat × HandlingOp))
    (hops : Along step (fun s op => ¬ s.conflicts op) {} ops) : ReplayFidelity ops := by
  rintro before rest deviceId actionId actionKind now rfl hfirst
  intro id key s during after hrest hduring hother
  subst hrest
  rw [along_append] at hops
  obtain ⟨-, -, hops⟩ := hops
  rw [along_append] at hops
  obtain ⟨hconflict, hafter⟩ := hops
  have hfresh : ∀ action ∈ (run step {} before).storing,
      action.id < (run step {} before).nextId :=
    run_of_step (I := fun (s : RemoteActionHandling) => ∀ action ∈ s.storing, action.id < s.nextId)
      (fun s op hs => fresh_step hs op) (by simp) before
  have hwork := firstExecution_atWork hfirst hfresh
  obtain ⟨hstill, hnone⟩ := atWork_run hwork hconflict hduring hother
  refine ⟨hnone, ?_⟩
  rintro later error rank kept last rfl hevicts stored hkept
  obtain ⟨-, hafter⟩ := hafter
  rw [along_append] at hafter
  obtain ⟨hstored, hsettled⟩ := atWork_settled hstill hevicts
  have hstored' : stored = (run step s during).storeResult
      ⟨id, deviceId, actionId, actionKind, none⟩ error rank later := hstored
  have hlast : (run step stored kept).Settled key
      ((⟨id, deviceId, actionId, actionKind, none⟩ : HandledAction).result error) later := by
    have hbegin : stored.Settled key
        ((⟨id, deviceId, actionId, actionKind, none⟩ : HandledAction).result error) later := by
      rw [hstored']
      exact hsettled
    exact settled_run hbegin hafter.1 hkept
  refine ⟨_, ?_, hlast.entry, ?_⟩
  · rw [hstored']
    rfl
  · rintro again end_ rfl hagain
    exact settled_answer hlast hfirst.1 rfl hagain

def repeatedRequest : List (Nat × HandlingOp) :=
  [(100, .request "device-a" "act-1" .sendMessage), (101, .request "device-a" "act-1" .sendMessage),
    (102, .store 0 none String.length), (103, .request "device-a" "act-1" .sendMessage)]

theorem replay_fidelity_repeated_request :
    Along step (fun s op => ¬ s.conflicts op) {} repeatedRequest ∧
      ReplayFidelity repeatedRequest := by
  have hops : Along step (fun s op => ¬ s.conflicts op) {} repeatedRequest := by decide +kernel
  exact ⟨hops, replay_fidelity repeatedRequest hops⟩

/-- While a message is being sent its action id comes again, for a list of threads. -/
def conflictingRequest : List (Nat × HandlingOp) :=
  [(100, .request "device-a" "act-1" .sendMessage), (101, .request "device-a" "act-1" .listThreads),
    (102, .store 1 none String.length), (103, .request "device-a" "act-1" .sendMessage)]

/-- The refusal is stored under the action id that is still at work. -/
theorem refusal_stored_under_other_action : ¬ ReplayFidelity conflictingRequest := by
  intro h
  have hfirst : FirstExecution (run step {} []) "device-a" "act-1" .sendMessage 100 := by
    decide +kernel
  obtain ⟨hnone, -⟩ := h [] _ "device-a" "act-1" .sendMessage 100 rfl hfirst
    [(101, .request "device-a" "act-1" .listThreads), (102, .store 1 none String.length)]
    [(103, .request "device-a" "act-1" .sendMessage)] rfl (by decide +kernel) (by simp)
  revert hnone
  decide +kernel

end RemoteActionHandling

end AgentRelay.Relay
