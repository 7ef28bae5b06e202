import AgentRelay.RemoteActions

/-! Sealed remote actions. The broker carries envelopes only a paired device can seal, with
routing fields in the clear: the action id, the session claim, the device and the peer it says
the frame is from. What keeps a repeated envelope from running twice is the replay cache. -/
namespace AgentRelay.Relay
open Std StepRun

inductive RemoteActionKind
  | claimChallenge | claimDevice | startSession | forkSession | resumeSession
  | updateSessionSettings | sendMessage | stopTurn | takeOver | heartbeat | watchThreads
  | listProviders | listThreads | listProviderModels | fetchThreadEntries
  | fetchThreadEntryDetail | fetchThreadTranscript | decideApproval | applyFileChange
  | projectAction | renameThread | repairWorkspace | fetchWorkspaceDiff
  | fetchWorkspaceGitContext | fetchThreadWorkspace | setThreadWorkspace
  | fetchThreadSettings | fetchReviews | fetchWorkflows | fetchDevices | fetchProjects
  | fetchAskUserQuestionDetail | submitAskUserAnswer | requestReview | startWorkflow
  | resolveReview | resolveWorkflow | deleteReview | registerPushSubscription
  | unregisterPushSubscription
  deriving DecidableEq, Repr

namespace RemoteActionKind

def asStr : RemoteActionKind → String
  | claimChallenge => "claim_challenge"
  | claimDevice => "claim_device"
  | startSession => "start_session"
  | forkSession => "fork_session"
  | resumeSession => "resume_session"
  | updateSessionSettings => "update_session_settings"
  | sendMessage => "send_message"
  | stopTurn => "stop_turn"
  | takeOver => "take_over"
  | heartbeat => "heartbeat"
  | watchThreads => "watch_threads"
  | listProviders => "list_providers"
  | listThreads => "list_threads"
  | listProviderModels => "list_provider_models"
  | fetchThreadEntries => "fetch_thread_entries"
  | fetchThreadEntryDetail => "fetch_thread_entry_detail"
  | fetchThreadTranscript => "fetch_thread_transcript"
  | decideApproval => "decide_approval"
  | applyFileChange => "apply_file_change"
  | projectAction => "project_action"
  | renameThread => "rename_thread"
  | repairWorkspace => "repair_workspace"
  | fetchWorkspaceDiff => "fetch_workspace_diff"
  | fetchWorkspaceGitContext => "fetch_workspace_git_context"
  | fetchThreadWorkspace => "fetch_thread_workspace"
  | setThreadWorkspace => "set_thread_workspace"
  | fetchThreadSettings => "fetch_thread_settings"
  | fetchReviews => "fetch_reviews"
  | fetchWorkflows => "fetch_workflows"
  | fetchDevices => "fetch_devices"
  | fetchProjects => "fetch_projects"
  | fetchAskUserQuestionDetail => "fetch_ask_user_question_detail"
  | submitAskUserAnswer => "submit_ask_user_answer"
  | requestReview => "request_review"
  | startWorkflow => "start_workflow"
  | resolveReview => "resolve_review"
  | resolveWorkflow => "resolve_workflow"
  | deleteReview => "delete_review"
  | registerPushSubscription => "register_push_subscription"
  | unregisterPushSubscription => "unregister_push_subscription"

def requiresSessionClaim : RemoteActionKind → Bool
  | sendMessage | applyFileChange | requestReview | startWorkflow | resolveReview
  | resolveWorkflow | deleteReview => true
  | _ => false

def isFireAndForgetAction : RemoteActionKind → Bool
  | heartbeat | watchThreads => true
  | _ => false

end RemoteActionKind

structure EncryptedEnvelope where
  nonce : String
  ciphertext : String
  deriving DecidableEq, Repr

structure SessionClaimPayload where
  version : Nat
  deviceId : String
  peerId : String
  expiresAt : Nat
  deriving DecidableEq, Repr

structure EncryptedRemoteAction where
  fromPeerId : String
  actionId : String
  sessionClaim : Option String
  deviceId : Option String
  envelope : EncryptedEnvelope
  deriving DecidableEq, Repr

structure ResolvedEncryptedAction (R : Type) where
  deviceId : String
  actionKind : RemoteActionKind
  request : R
  responseSecret : String

structure Execution (R : Type) where
  envelope : EncryptedEnvelope
  deviceId : String
  actionId : String
  actionKind : RemoteActionKind
  request : R
  executedAt : Nat

/-- What the relay keeps between frames: the payload secrets of the paired devices, the
frames resolved but not yet reserved, the replay cache, and a record of what was executed. -/
structure SealedRelay (R : Type) where
  pairedDevices : Table String
  resolved : List (EncryptedRemoteAction × ResolvedEncryptedAction R) := []
  recentRemoteActions : RemoteActionCache := ∅
  executed : List (Execution R) := []

/-- What the relay or its surroundings do next. A handler gives the lock back between
resolving a frame and reserving its action, and stores its result when it ends. -/
inductive SealedOp
  | resolve (frame : EncryptedRemoteAction)
  | dispatch (index : Nat)
  | reservePlain (deviceId actionId : String) (actionKind : RemoteActionKind)
  | store (deviceId actionId : String) (result : CachedRemoteActionResult) (rank : String → Nat)
  | pair (deviceId payloadSecret : String)
  | unpair (deviceId : String)

def sessionControlRequiredError : String :=
  "broker transport auth only grants room access; session claim is missing or expired"

namespace SealedRelay
variable {R : Type}

def pairedDevicePayloadSecret (relay : SealedRelay R) (deviceId : String) :
    Except String String :=
  match relay.pairedDevices[deviceId]? with
  | some payloadSecret => .ok payloadSecret
  | none => .error "device is not paired"

section
/- The parameters are the decoding and signature check of a claim, the authenticated
decryption of an envelope, and the kind of a request. -/
variable (openClaim : String → Except String SessionClaimPayload)
  (decryptJson : String → EncryptedEnvelope → Except String R) (kind : R → RemoteActionKind)

def decodeAndVerifySessionClaim (token peerId : String) (now : Nat) :
    Except String SessionClaimPayload := do
  let payload ← openClaim token
  if payload.version ≠ 1 then throw "session claim version is unsupported"
  if payload.peerId ≠ peerId then throw "session claim is bound to a different broker peer"
  if payload.expiresAt ≤ now then throw "session claim has expired"
  return payload

def verifySessionClaim (relay : SealedRelay R) (token peerId : String) (now : Nat) :
    Except String String := do
  let payload ← decodeAndVerifySessionClaim openClaim token peerId now
  let _ ← relay.pairedDevicePayloadSecret payload.deviceId
  return payload.deviceId

def resolveEncryptedActionContext (relay : SealedRelay R) (frame : EncryptedRemoteAction)
    (now : Nat) : Except String (ResolvedEncryptedAction R) :=
  match frame.sessionClaim with
  | some claim => do
    let deviceId ← relay.verifySessionClaim openClaim claim frame.fromPeerId now
    let responseSecret ← relay.pairedDevicePayloadSecret deviceId
    let request ← decryptJson responseSecret frame.envelope
    return ⟨deviceId, kind request, request, responseSecret⟩
  | none =>
    match frame.deviceId with
    | none => .error "encrypted remote action is missing device_id"
    | some deviceId => do
      let responseSecret ← relay.pairedDevicePayloadSecret deviceId
      let request ← decryptJson responseSecret frame.envelope
      if (kind request).requiresSessionClaim then throw sessionControlRequiredError
      return ⟨deviceId, kind request, request, responseSecret⟩

/-- Note that the request goes to its handler. -/
def execute (relay : SealedRelay R) (frame : EncryptedRemoteAction)
    (context : ResolvedEncryptedAction R) (now : Nat) : SealedRelay R :=
  { relay with
    executed := relay.executed ++ [{
      envelope := frame.envelope
      deviceId := context.deviceId
      actionId := frame.actionId
      actionKind := context.actionKind
      request := context.request
      executedAt := now }] }

/-- The second half of `handle_encrypted_remote_action`, from the resolved context on. -/
def dispatchResolved (relay : SealedRelay R) (frame : EncryptedRemoteAction)
    (context : ResolvedEncryptedAction R) (now : Nat) : SealedRelay R :=
  -- a watch declaration and a heartbeat need no reply and skip the replay cache
  if context.actionKind.isFireAndForgetAction then relay.execute frame context now
  else
    match relay.recentRemoteActions.reserveRemoteAction context.deviceId frame.actionId
        context.actionKind.asStr now with
    | (cache, .ok .execute) =>
      { relay with recentRemoteActions := cache }.execute frame context now
    | (cache, _) => { relay with recentRemoteActions := cache }

def step (relay : SealedRelay R) : Nat × SealedOp → SealedRelay R
  | (now, .resolve frame) =>
    match relay.resolveEncryptedActionContext openClaim decryptJson kind frame now with
    | .ok context => { relay with resolved := relay.resolved ++ [(frame, context)] }
    | .error _ => relay
  | (now, .dispatch index) =>
    match relay.resolved[index]? with
    | some (frame, context) =>
      { relay with resolved := relay.resolved.eraseIdx index }.dispatchResolved frame context now
    | none => relay
  | (now, .reservePlain deviceId actionId actionKind) =>
    { relay with
      recentRemoteActions := (relay.recentRemoteActions.reserveRemoteAction deviceId actionId
        actionKind.asStr now).1 }
  | (now, .store deviceId actionId result rank) =>
    { relay with
      recentRemoteActions :=
        relay.recentRemoteActions.storeRemoteActionResult rank deviceId actionId result now }
  | (_, .pair deviceId payloadSecret) =>
    { relay with pairedDevices := relay.pairedDevices.insert deviceId payloadSecret }
  | (_, .unpair deviceId) => { relay with pairedDevices := relay.pairedDevices.erase deviceId }

end

def OncePerWindow (executions : List (Execution R)) : Prop :=
  executions.Pairwise fun first second =>
    first.executedAt + remoteActionReplayTtlSecs ≤ second.executedAt

instance (executions : List (Execution R)) : Decidable (OncePerWindow executions) :=
  inferInstanceAs (Decidable (executions.Pairwise _))

/-- A store that makes room in a full cache by giving up the entry of this key. -/
def Evicts (relay : SealedRelay R) (key : String) : Nat × SealedOp → Prop
  | (now, .store deviceId actionId result rank) =>
    (relay.recentRemoteActions.withResult deviceId actionId result now).contains key ∧
      ¬ (relay.recentRemoteActions.storeRemoteActionResult rank deviceId actionId result
        now).contains key
  | _ => False

/-- A context names the device that was asked for under the secret it has, and the request
that secret opens. -/
theorem resolve_cases {openClaim : String → Except String SessionClaimPayload}
    {decryptJson : String → EncryptedEnvelope → Except String R} {kind : R → RemoteActionKind}
    {relay : SealedRelay R} {frame : EncryptedRemoteAction} {now : Nat}
    {context : ResolvedEncryptedAction R}
    (h : relay.resolveEncryptedActionContext openClaim decryptJson kind frame now = .ok context) :
    relay.pairedDevices[context.deviceId]? = some context.responseSecret ∧
      decryptJson context.responseSecret frame.envelope = .ok context.request ∧
      context.actionKind = kind context.request := by
  have hsecret : ∀ {deviceId payloadSecret : String},
      relay.pairedDevicePayloadSecret deviceId = .ok payloadSecret →
        relay.pairedDevices[deviceId]? = some payloadSecret := by
    intro deviceId payloadSecret hok
    unfold pairedDevicePayloadSecret at hok
    split at hok
    · rename_i found hfound
      rw [hfound, Except.ok.inj hok]
    · cases hok
  unfold resolveEncryptedActionContext at h
  split at h
  · rename_i claim _
    cases hclaim : relay.verifySessionClaim openClaim claim frame.fromPeerId now with
    | error error => simp [hclaim, bind, Except.bind] at h
    | ok deviceId =>
      cases hpaired : relay.pairedDevicePayloadSecret deviceId with
      | error error => simp [hclaim, hpaired, bind, Except.bind] at h
      | ok payloadSecret =>
        cases hopen : decryptJson payloadSecret frame.envelope with
        | error error => simp [hclaim, hpaired, hopen, bind, Except.bind] at h
        | ok request =>
          simp only [hclaim, hpaired, hopen, bind, Except.bind, pure, Except.pure] at h
          obtain rfl := Except.ok.inj h
          exact ⟨hsecret hpaired, hopen, rfl⟩
  · split at h
    · cases h
    · rename_i deviceId _
      cases hpaired : relay.pairedDevicePayloadSecret deviceId with
      | error error => simp [hpaired, bind, Except.bind] at h
      | ok payloadSecret =>
        cases hopen : decryptJson payloadSecret frame.envelope with
        | error error => simp [hpaired, hopen, bind, Except.bind] at h
        | ok request =>
          by_cases hclaim : (kind request).requiresSessionClaim
          · simp [hpaired, hopen, hclaim, bind, Except.bind, throw, throwThe,
              MonadExceptOf.throw] at h
          · simp only [hpaired, hopen, hclaim, bind, Except.bind, pure, Except.pure] at h
            obtain rfl := Except.ok.inj h
            exact ⟨hsecret hpaired, hopen, rfl⟩

end SealedRelay

namespace RemoteActionCache

theorem removeOverflow_keeps (entries : List (String × Nat)) (overflow : Nat)
    (cache : RemoteActionCache) {key : String}
    (h : (removeOverflow entries overflow cache).contains key) :
    (removeOverflow entries overflow cache)[key]? = cache[key]? := by
  induction entries generalizing overflow cache with
  | nil => rfl
  | cons e rest ih =>
    unfold removeOverflow at h ⊢
    by_cases hzero : overflow = 0
    · rw [if_pos hzero]
    · rw [if_neg hzero] at h ⊢
      by_cases hmem : cache.contains e.1
      · rw [if_pos hmem] at h ⊢
        have hrest := ih (overflow - 1) (cache.erase e.1) h
        have hkey : key ≠ e.1 := by
          rintro rfl
          rw [ExtTreeMap.contains_eq_isSome_getElem?, hrest] at h
          simp at h
        rw [hrest, Table.getElem?_erase_of, if_neg hkey]
      · rw [if_neg hmem] at h ⊢
        exact ih overflow cache h

theorem trim_keeps (rank : String → Nat) (cache : RemoteActionCache) {key : String}
    (h : (cache.trimRemoteActionReplays rank).contains key) :
    (cache.trimRemoteActionReplays rank)[key]? = cache[key]? := by
  unfold trimRemoteActionReplays at h ⊢
  split_ifs at h ⊢
  · rfl
  · exact removeOverflow_keeps _ _ _ h

/-- The cache still answers for an action executed at this time: its window is over, or an
entry at least that young is there. -/
def Answers (cache : RemoteActionCache) (key : String) (executedAt now : Nat) : Prop :=
  executedAt + remoteActionReplayTtlSecs ≤ now ∨
    ∃ entry, cache[key]? = some entry ∧ executedAt ≤ entry.seenAt

variable {cache : RemoteActionCache} {key : String} {executedAt now later : Nat}

theorem Answers.mono (h : cache.Answers key executedAt now) (hle : now ≤ later) :
    cache.Answers key executedAt later := by
  rcases h with hover | hentry
  · exact Or.inl (by omega)
  · exact Or.inr hentry

theorem Answers.prune (h : cache.Answers key executedAt now) (hmax : now < u64Max) :
    (cache.pruneRemoteActionReplays now).Answers key executedAt now := by
  rcases h with hover | ⟨entry, hget, hle⟩
  · exact Or.inl hover
  · by_cases hover : executedAt + remoteActionReplayTtlSecs ≤ now
    · exact Or.inl hover
    · have hkept := getElem?_prune_of_recent hget hmax (by omega)
      exact Or.inr ⟨entry, hkept, hle⟩

theorem Answers.reserve (h : cache.Answers key executedAt now) (hmax : now < u64Max)
    (deviceId actionId actionKind : String) :
    ((cache.reserveRemoteAction deviceId actionId actionKind now).1).Answers key executedAt now := by
  rcases h.prune hmax with hover | ⟨entry, hget, hle⟩
  · exact Or.inl hover
  · refine Or.inr ⟨entry, ?_, hle⟩
    rw [getElem?_reserve, hget]
    split_ifs <;> rfl

theorem Answers.store (h : cache.Answers key executedAt now) (hmax : now < u64Max)
    (hstart : executedAt ≤ now) {deviceId actionId : String} {result : CachedRemoteActionResult}
    {rank : String → Nat}
    (hkept : ¬ ((cache.withResult deviceId actionId result now).contains key ∧
      ¬ (cache.storeRemoteActionResult rank deviceId actionId result now).contains key)) :
    (cache.storeRemoteActionResult rank deviceId actionId result now).Answers key executedAt
      now := by
  have hstored : (cache.withResult deviceId actionId result now).Answers key executedAt now := by
    rcases h.prune hmax with hover | ⟨entry, hget, hle⟩
    · exact Or.inl hover
    · unfold withResult Answers
      rw [Table.getElem?_insert_of]
      by_cases hkey : key = remoteActionCacheKey deviceId actionId
      · rw [if_pos hkey]
        exact Or.inr ⟨_, rfl, hstart⟩
      · rw [if_neg hkey]
        exact Or.inr ⟨entry, hget, hle⟩
  rcases hstored with hover | ⟨entry, hget, hle⟩
  · exact Or.inl hover
  · have hbefore : (cache.withResult deviceId actionId result now).contains key := by
      rw [ExtTreeMap.contains_eq_isSome_getElem?, hget]
      rfl
    have hafter : (cache.storeRemoteActionResult rank deviceId actionId result now).contains key := by
      by_contra hgone
      exact hkept ⟨hbefore, hgone⟩
    refine Or.inr ⟨entry, ?_, hle⟩
    rw [← hget]
    exact trim_keeps rank _ hafter

theorem Answers.execute (h : cache.Answers key executedAt now) (hmax : now < u64Max)
    {deviceId actionId actionKind : String} (hkey : key = remoteActionCacheKey deviceId actionId)
    (hexecute : (cache.reserveRemoteAction deviceId actionId actionKind now).2 = .ok .execute) :
    executedAt + remoteActionReplayTtlSecs ≤ now := by
  rcases h.prune hmax with hover | ⟨entry, hget, -⟩
  · exact hover
  · rw [execute_iff, ← hkey, hget] at hexecute
    cases hexecute

theorem answers_reserved {deviceId actionId actionKind : String} (now : Nat)
    (hexecute : (cache.reserveRemoteAction deviceId actionId actionKind now).2 = .ok .execute) :
    ((cache.reserveRemoteAction deviceId actionId actionKind now).1).Answers
      (remoteActionCacheKey deviceId actionId) now now := by
  rw [execute_iff] at hexecute
  refine Or.inr ⟨.inFlight actionKind now, ?_, le_rfl⟩
  rw [getElem?_reserve, if_pos rfl, hexecute]
  rfl

end RemoteActionCache

namespace SealedRelay
variable {R : Type}

/-- What holds at a time of every execution of one envelope, and of every frame in hand with
it: the device and request it was sealed by and for, and for those under one action id, that the
cache answers for them and that they lie a whole window apart. -/
structure OnceFor (kind : R → RemoteActionKind) (envelope : EncryptedEnvelope)
    (payloadSecret deviceId actionId : String) (request : R) (clock : Nat)
    (relay : SealedRelay R) : Prop where
  paired : ∀ other, relay.pairedDevices[other]? = some payloadSecret → other = deviceId
  resolved : ∀ held ∈ relay.resolved, held.1.envelope = envelope →
    held.2.deviceId = deviceId ∧ held.2.request = request ∧ held.2.actionKind = kind request
  executed : ∀ x ∈ relay.executed, x.envelope = envelope →
    x.deviceId = deviceId ∧ x.request = request
  started : ∀ x ∈ relay.executed, x.executedAt ≤ clock
  answers : ∀ x ∈ relay.executed, x.envelope = envelope → x.actionId = actionId →
    relay.recentRemoteActions.Answers (remoteActionCacheKey deviceId actionId) x.executedAt clock
  apart : OncePerWindow
    (relay.executed.filter fun x => x.envelope = envelope ∧ x.actionId = actionId)

section
variable {openClaim : String → Except String SessionClaimPayload}
  {decryptJson : String → EncryptedEnvelope → Except String R} {kind : R → RemoteActionKind}
  {envelope : EncryptedEnvelope} {payloadSecret deviceId actionId : String} {request : R}
  {relay : SealedRelay R} {clock now : Nat}

theorem OnceFor.of_cache (h : OnceFor kind envelope payloadSecret deviceId actionId request clock
    relay) (hle : clock ≤ now) {cache : RemoteActionCache}
    (hcache : ∀ x ∈ relay.executed, relay.recentRemoteActions.Answers
      (remoteActionCacheKey deviceId actionId) x.executedAt clock →
        cache.Answers (remoteActionCacheKey deviceId actionId) x.executedAt now) :
    OnceFor kind envelope payloadSecret deviceId actionId request now
      { relay with recentRemoteActions := cache } where
  paired := h.paired
  resolved := h.resolved
  executed := h.executed
  started := fun x hx => (h.started x hx).trans hle
  answers := fun x hx henvelope haction => hcache x hx (h.answers x hx henvelope haction)
  apart := h.apart

theorem OnceFor.execute_other (h : OnceFor kind envelope payloadSecret deviceId actionId request
    now relay) {frame : EncryptedRemoteAction} {context : ResolvedEncryptedAction R}
    (hcontext : frame.envelope = envelope → context.deviceId = deviceId ∧
      context.request = request ∧ context.actionKind = kind request)
    (hother : ¬ (frame.envelope = envelope ∧ frame.actionId = actionId)) :
    OnceFor kind envelope payloadSecret deviceId actionId request now
      (relay.execute frame context now) where
  paired := h.paired
  resolved := h.resolved
  executed := by
    intro x hx henvelope
    rcases List.mem_append.mp hx with hold | hnew
    · exact h.executed x hold henvelope
    · obtain rfl := List.mem_singleton.mp hnew
      exact ⟨(hcontext henvelope).1, (hcontext henvelope).2.1⟩
  started := by
    intro x hx
    rcases List.mem_append.mp hx with hold | hnew
    · exact h.started x hold
    · obtain rfl := List.mem_singleton.mp hnew
      exact le_rfl
  answers := by
    intro x hx henvelope haction
    rcases List.mem_append.mp hx with hold | hnew
    · exact h.answers x hold henvelope haction
    · obtain rfl := List.mem_singleton.mp hnew
      exact absurd ⟨henvelope, haction⟩ hother
  apart := by
    have hfilter : ∀ x : Execution R, x.envelope = frame.envelope → x.actionId = frame.actionId →
        [x].filter (fun x => x.envelope = envelope ∧ x.actionId = actionId) = [] := by
      intro x henvelope haction
      simp [henvelope, haction, hother]
    unfold execute OncePerWindow
    dsimp only
    rw [List.filter_append, hfilter _ rfl rfl, List.append_nil]
    exact h.apart

/-- An execution of the envelope under this action id, after a reservation that let it. -/
theorem OnceFor.execute_own (h : OnceFor kind envelope payloadSecret deviceId actionId request
    clock relay) (hle : clock ≤ now) (hmax : now < u64Max) {frame : EncryptedRemoteAction}
    {context : ResolvedEncryptedAction R}
    (hcontext : frame.envelope = envelope → context.deviceId = deviceId ∧
      context.request = request ∧ context.actionKind = kind request)
    (hown : frame.envelope = envelope ∧ frame.actionId = actionId)
    (hexecute : (relay.recentRemoteActions.reserveRemoteAction context.deviceId frame.actionId
      context.actionKind.asStr now).2 = .ok .execute) :
    OnceFor kind envelope payloadSecret deviceId actionId request now
      ({ relay with
          recentRemoteActions := (relay.recentRemoteActions.reserveRemoteAction context.deviceId
            frame.actionId context.actionKind.asStr now).1 }.execute frame context now) where
  paired := h.paired
  resolved := h.resolved
  executed := by
    intro x hx henvelope
    rcases List.mem_append.mp hx with hold | hnew
    · exact h.executed x hold henvelope
    · obtain rfl := List.mem_singleton.mp hnew
      exact ⟨(hcontext henvelope).1, (hcontext henvelope).2.1⟩
  started := by
    intro x hx
    rcases List.mem_append.mp hx with hold | hnew
    · exact (h.started x hold).trans hle
    · obtain rfl := List.mem_singleton.mp hnew
      exact le_rfl
  answers := by
    intro x hx henvelope haction
    rcases List.mem_append.mp hx with hold | hnew
    · exact ((h.answers x hold henvelope haction).mono hle).reserve hmax _ _ _
    · obtain rfl := List.mem_singleton.mp hnew
      have hanswers := RemoteActionCache.answers_reserved now hexecute
      rw [(hcontext hown.1).1, hown.2] at hanswers ⊢
      exact hanswers
  apart := by
    have hfilter : ∀ x : Execution R, x.envelope = frame.envelope → x.actionId = frame.actionId →
        [x].filter (fun x => x.envelope = envelope ∧ x.actionId = actionId) = [x] := by
      intro x henvelope haction
      simp [henvelope, haction, hown]
    unfold execute OncePerWindow
    dsimp only
    rw [List.filter_append, hfilter _ rfl rfl, List.pairwise_append]
    refine ⟨h.apart, List.pairwise_singleton _ _, ?_⟩
    intro first hfirst second hsecond
    obtain rfl := List.mem_singleton.mp hsecond
    have hmem := (List.mem_filter.mp hfirst).1
    have hsame : first.envelope = envelope ∧ first.actionId = actionId := by
      simpa using (List.mem_filter.mp hfirst).2
    have hanswers := (h.answers first hmem hsame.1 hsame.2).mono hle
    apply hanswers.execute hmax _ hexecute
    rw [(hcontext hown.1).1, hown.2]

theorem OnceFor.dispatchResolved (h : OnceFor kind envelope payloadSecret deviceId actionId request
    clock relay) (hle : clock ≤ now) (hmax : now < u64Max)
    (hkind : ¬ (kind request).isFireAndForgetAction) {frame : EncryptedRemoteAction}
    {context : ResolvedEncryptedAction R}
    (hcontext : frame.envelope = envelope → context.deviceId = deviceId ∧
      context.request = request ∧ context.actionKind = kind request) :
    OnceFor kind envelope payloadSecret deviceId actionId request now
      (relay.dispatchResolved frame context now) := by
  have hreserved := h.of_cache hle fun x _ hanswers =>
    (hanswers.mono hle).reserve hmax context.deviceId frame.actionId context.actionKind.asStr
  unfold SealedRelay.dispatchResolved
  by_cases hfire : context.actionKind.isFireAndForgetAction
  · rw [if_pos hfire]
    have hlater := h.of_cache hle fun x _ hanswers => hanswers.mono hle
    apply hlater.execute_other hcontext
    rintro ⟨henvelope, -⟩
    rw [(hcontext henvelope).2.2] at hfire
    exact hkind hfire
  · rw [if_neg hfire]
    split
    · rename_i cache heq
      have hcache : cache = (relay.recentRemoteActions.reserveRemoteAction context.deviceId
          frame.actionId context.actionKind.asStr now).1 := by rw [heq]
      have hexecute : (relay.recentRemoteActions.reserveRemoteAction context.deviceId
          frame.actionId context.actionKind.asStr now).2 = .ok .execute := by rw [heq]
      subst hcache
      by_cases hown : frame.envelope = envelope ∧ frame.actionId = actionId
      · exact h.execute_own hle hmax hcontext hown hexecute
      · exact hreserved.execute_other hcontext hown
    · rename_i cache _ _ heq
      have hcache : cache = (relay.recentRemoteActions.reserveRemoteAction context.deviceId
          frame.actionId context.actionKind.asStr now).1 := by rw [heq]
      subst hcache
      exact hreserved

theorem OnceFor.context (h : OnceFor kind envelope payloadSecret deviceId actionId request clock
    relay) (hrequest : decryptJson payloadSecret envelope = .ok request)
    (hsealed : ∀ other, other ≠ payloadSecret → ∃ error, decryptJson other envelope = .error error)
    {frame : EncryptedRemoteAction} {context : ResolvedEncryptedAction R}
    (hresolved : relay.resolveEncryptedActionContext openClaim decryptJson kind frame now =
      .ok context) (henvelope : frame.envelope = envelope) :
    context.deviceId = deviceId ∧ context.request = request ∧ context.actionKind = kind request := by
  obtain ⟨hpaired, hopen, hkind⟩ := resolve_cases hresolved
  rw [henvelope] at hopen
  have hsecret : context.responseSecret = payloadSecret := by
    by_contra hne
    obtain ⟨error, hfails⟩ := hsealed _ hne
    rw [hfails] at hopen
    cases hopen
  rw [hsecret] at hpaired hopen
  rw [hrequest] at hopen
  have hsame := Except.ok.inj hopen
  exact ⟨h.paired _ hpaired, hsame.symm, by rw [hkind, hsame]⟩

theorem OnceFor.step (h : OnceFor kind envelope payloadSecret deviceId actionId request clock
    relay) (hrequest : decryptJson payloadSecret envelope = .ok request)
    (hsealed : ∀ other, other ≠ payloadSecret → ∃ error, decryptJson other envelope = .error error)
    (hkind : ¬ (kind request).isFireAndForgetAction) {op : SealedOp}
    (hpair : ∀ other, op = .pair other payloadSecret → other = deviceId)
    (hle : clock ≤ now) (hmax : now < u64Max)
    (hkept : ¬ relay.Evicts (remoteActionCacheKey deviceId actionId) (now, op)) :
    OnceFor kind envelope payloadSecret deviceId actionId request now
      (relay.step openClaim decryptJson kind (now, op)) := by
  have hlater := h.of_cache hle fun x _ hanswers => hanswers.mono hle
  cases op with
  | resolve frame =>
    unfold SealedRelay.step
    dsimp only
    split
    · rename_i context hresolved
      refine { hlater with resolved := ?_ }
      intro held hheld henvelope
      rcases List.mem_append.mp hheld with hold | hnew
      · exact h.resolved held hold henvelope
      · obtain rfl := List.mem_singleton.mp hnew
        exact h.context hrequest hsealed hresolved henvelope
    · exact hlater
  | dispatch index =>
    unfold SealedRelay.step
    dsimp only
    split
    · rename_i frame context hget
      have hheld := h.resolved (frame, context) (List.mem_of_getElem? hget)
      have hrest : OnceFor kind envelope payloadSecret deviceId actionId request clock
          { relay with resolved := relay.resolved.eraseIdx index } :=
        { h with
          resolved := fun held hmem => h.resolved held (List.mem_of_mem_eraseIdx hmem) }
      exact hrest.dispatchResolved hle hmax hkind hheld
    · exact hlater
  | reservePlain d a k =>
    exact h.of_cache hle fun x _ hanswers => (hanswers.mono hle).reserve hmax d a k.asStr
  | store d a result rank =>
    exact h.of_cache hle fun x hx hanswers =>
      (hanswers.mono hle).store hmax ((h.started x hx).trans hle) hkept
  | pair d s =>
    refine { hlater with paired := ?_ }
    intro other hget
    change (relay.pairedDevices.insert d s)[other]? = some payloadSecret at hget
    rw [Table.getElem?_insert_of] at hget
    split_ifs at hget with hsame
    · obtain rfl := Option.some.inj hget
      rw [hsame]
      exact hpair d rfl
    · exact h.paired other hget
  | unpair d =>
    refine { hlater with paired := ?_ }
    intro other hget
    change (relay.pairedDevices.erase d)[other]? = some payloadSecret at hget
    rw [Table.getElem?_erase_of] at hget
    split_ifs at hget
    exact h.paired other hget

theorem OnceFor.run (ops : List (Nat × SealedOp)) (h : OnceFor kind envelope payloadSecret deviceId
      actionId request clock relay)
    (hrequest : decryptJson payloadSecret envelope = .ok request)
    (hsealed : ∀ other, other ≠ payloadSecret → ∃ error, decryptJson other envelope = .error error)
    (hkind : ¬ (kind request).isFireAndForgetAction)
    (hpair : ∀ op ∈ ops, ∀ other, op.2 = .pair other payloadSecret → other = deviceId)
    (hclock : ((clock :: ops.map (·.1))).Pairwise (· ≤ ·)) (hmax : ∀ op ∈ ops, op.1 < u64Max)
    (hkept : Along (SealedRelay.step openClaim decryptJson kind)
      (fun relay op => ¬ relay.Evicts (remoteActionCacheKey deviceId actionId) op) relay ops) :
    ∃ last, OnceFor kind envelope payloadSecret deviceId actionId request last
      (StepRun.run (SealedRelay.step openClaim decryptJson kind) relay ops) := by
  induction ops generalizing relay clock with
  | nil => exact ⟨clock, h⟩
  | cons op ops ih =>
    obtain ⟨now, op⟩ := op
    simp only [List.map_cons, List.pairwise_cons] at hclock
    have hle := hclock.1 now List.mem_cons_self
    have hnext : OnceFor kind envelope payloadSecret deviceId actionId request now
        (relay.step openClaim decryptJson kind (now, op)) :=
      h.step hrequest hsealed hkind (hpair _ List.mem_cons_self) hle (hmax _ List.mem_cons_self)
        hkept.1
    apply ih hnext
    · exact fun op hmem => hpair op (List.mem_cons_of_mem _ hmem)
    · exact List.pairwise_cons.mpr hclock.2
    · exact fun op hmem => hmax op (List.mem_cons_of_mem _ hmem)
    · exact hkept.2

end

section
/-! A phone that sealed one envelope and holds one session claim. -/

def phoneEnvelope : EncryptedEnvelope := ⟨"bm9uY2U=", "c2VhbGVk"⟩

def openPhoneClaim (token : String) : Except String SessionClaimPayload :=
  if token = "claim.sig" then .ok ⟨1, "phone", "peer", 3600⟩ else .error "session claim is invalid"

def openPhoneEnvelope (request : RemoteActionKind) (payloadSecret : String)
    (envelope : EncryptedEnvelope) : Except String RemoteActionKind :=
  if payloadSecret = "phone secret" ∧ envelope = phoneEnvelope then .ok request
  else .error "decryption failed"

def phoneFrame (actionId : String) : EncryptedRemoteAction where
  fromPeerId := "peer"
  actionId := actionId
  sessionClaim := some "claim.sig"
  deviceId := none
  envelope := phoneEnvelope

def phoneRelay : SealedRelay RemoteActionKind :=
  { pairedDevices := (∅ : Table String).insert "phone" "phone secret" }

/-- The broker delivers the frame under this action id and the relay takes it up at once. -/
def deliver (now : Nat) (actionId : String) : List (Nat × SealedOp) :=
  [(now, .resolve (phoneFrame actionId)), (now, .dispatch 0)]

def phoneExecutions (request : RemoteActionKind) (ops : List (Nat × SealedOp)) :
    List (Execution RemoteActionKind) :=
  (run (step openPhoneClaim (openPhoneEnvelope request) id) phoneRelay ops).executed.filter
    fun x => x.envelope = phoneEnvelope

end

theorem run_deliver (relay : SealedRelay RemoteActionKind) {now : Nat} (actionId : String)
    (hpaired : relay.pairedDevices["phone"]? = some "phone secret") (hresolved : relay.resolved = [])
    (hnow : now < 3600)
    (hexecute : (relay.recentRemoteActions.reserveRemoteAction "phone" actionId "send_message"
      now).2 = .ok .execute) :
    run (step openPhoneClaim (openPhoneEnvelope .sendMessage) id) relay (deliver now actionId) =
      { relay with
        recentRemoteActions := (relay.recentRemoteActions.reserveRemoteAction "phone" actionId
          "send_message" now).1 }.execute (phoneFrame actionId)
            ⟨"phone", .sendMessage, .sendMessage, "phone secret"⟩ now := by
  have hcontext : relay.resolveEncryptedActionContext openPhoneClaim
      (openPhoneEnvelope .sendMessage) id (phoneFrame actionId) now =
        .ok ⟨"phone", .sendMessage, .sendMessage, "phone secret"⟩ := by
    have hexpired : ¬ 3600 ≤ now := by omega
    simp [resolveEncryptedActionContext, phoneFrame, verifySessionClaim,
      decodeAndVerifySessionClaim, openPhoneClaim, pairedDevicePayloadSecret, hpaired,
      openPhoneEnvelope, hexpired, bind, Except.bind, pure, Except.pure]
  unfold deliver
  rw [run_cons, run_cons, run_nil]
  have hfirst : step openPhoneClaim (openPhoneEnvelope .sendMessage) id relay
      (now, .resolve (phoneFrame actionId)) =
        { relay with resolved := [(phoneFrame actionId,
          ⟨"phone", .sendMessage, .sendMessage, "phone secret"⟩)] } := by
    unfold step
    dsimp only
    rw [hcontext, hresolved]
    rfl
  rw [hfirst]
  unfold step dispatchResolved
  dsimp only [List.getElem?_cons_zero, List.eraseIdx_cons_zero]
  rw [if_neg (by decide), hresolved]
  split
  · rename_i cache heq
    have hcache : cache = (relay.recentRemoteActions.reserveRemoteAction "phone" actionId
        "send_message" now).1 := (congrArg Prod.fst heq).symm
    rw [hcache]
  · rename_i cache result hnot heq
    exact absurd ((congrArg Prod.snd heq).symm.trans hexecute) hnot

theorem run_busyStores (relay : SealedRelay RemoteActionKind) (indices : List Nat) :
    run (step openPhoneClaim (openPhoneEnvelope .sendMessage) id) relay
        (indices.map fun n => (1, .store "laptop" (String.ofList (List.replicate n 'b'))
          ⟨"send_message", true, none⟩ (fun _ => 0))) =
      { relay with
        recentRemoteActions := run RemoteActionCache.step relay.recentRemoteActions
          (indices.map RemoteActionCache.busyStore) } := by
  induction indices generalizing relay with
  | nil => rfl
  | cons n indices ih =>
    rw [List.map_cons, run_cons, ih]
    rfl

theorem run_deliver_again {cache : RemoteActionCache} {first : Execution RemoteActionKind}
    (hgone : cache["phone:send"]? = none) (henvelope : first.envelope = phoneEnvelope)
    (hstart : first.executedAt = 0) :
    ¬ OncePerWindow ((run (step openPhoneClaim (openPhoneEnvelope .sendMessage) id)
      ⟨phoneRelay.pairedDevices, [], cache, [first]⟩ (deliver 2 "send")).executed.filter
        fun x => x.envelope = phoneEnvelope) := by
  have hpaired : phoneRelay.pairedDevices["phone"]? = some "phone secret" := by decide +kernel
  have hexecute : (cache.reserveRemoteAction "phone" "send" "send_message" 2).2 = .ok .execute := by
    rw [RemoteActionCache.execute_iff, RemoteActionCache.getElem?_prune]
    exact congrArg (Option.filter _) hgone
  rw [run_deliver ⟨phoneRelay.pairedDevices, [], cache, [first]⟩ "send" hpaired rfl (by decide)
    hexecute]
  simp [OncePerWindow, execute, phoneFrame, henvelope, hstart, remoteActionReplayTtlSecs]

end SealedRelay

end AgentRelay.Relay
