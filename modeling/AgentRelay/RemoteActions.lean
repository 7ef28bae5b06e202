import AgentRelay.DevicePairing
import AgentRelay.StepRun

/-! The replay cache of remote actions. A reservation keeps a retried command from running
twice; old entries expire, and a full cache gives up its oldest ones. The hash map's
iteration order, which decides between entries of one second, is a ranking of the keys. -/
namespace AgentRelay.Relay
open Std StepRun

def remoteActionReplayTtlSecs : Nat := 600
def maxRemoteActionReplayEntries : Nat := 512

structure CachedRemoteActionResult where
  actionKind : String
  ok : Bool
  error : Option String
  deriving DecidableEq, Repr

inductive RemoteActionReplayDecision
  | execute
  | replay (result : CachedRemoteActionResult)
  | inFlight
  deriving DecidableEq, Repr

inductive CachedRemoteActionState
  | inFlight (actionKind : String) (seenAt : Nat)
  | completed (result : CachedRemoteActionResult) (seenAt : Nat)
  deriving DecidableEq, Repr

namespace CachedRemoteActionState

def seenAt : CachedRemoteActionState → Nat
  | inFlight _ seenAt => seenAt
  | completed _ seenAt => seenAt

def isInFlight : CachedRemoteActionState → Bool
  | inFlight .. => true
  | completed .. => false

end CachedRemoteActionState

abbrev RemoteActionCache := Table CachedRemoteActionState

def remoteActionCacheKey (deviceId actionId : String) : String := deviceId ++ ":" ++ actionId

namespace RemoteActionCache

def pruneRemoteActionReplays (cache : RemoteActionCache) (now : Nat) : RemoteActionCache :=
  cache.filter fun _ entry => now < saturatingAdd entry.seenAt remoteActionReplayTtlSecs

/-- Take keys out in this order until the overflow is gone. -/
def removeOverflow : List (String × Nat) → Nat → RemoteActionCache → RemoteActionCache
  | [], _, cache => cache
  | (key, _) :: rest, overflow, cache =>
    if overflow = 0 then cache
    else if cache.contains key then removeOverflow rest (overflow - 1) (cache.erase key)
    else removeOverflow rest overflow cache

section
variable (rank : String → Nat)

/-- Keys and times, the oldest first; within a second in iteration order. -/
def entriesByAge (cache : RemoteActionCache) : List (String × Nat) :=
  ((cache.toList.mergeSort fun a b => rank a.1 ≤ rank b.1).map fun e => (e.1, e.2.seenAt)).mergeSort
    fun a b => a.2 ≤ b.2

def trimRemoteActionReplays (cache : RemoteActionCache) : RemoteActionCache :=
  if cache.size ≤ maxRemoteActionReplayEntries then cache
  else removeOverflow (cache.entriesByAge rank) (cache.size - maxRemoteActionReplayEntries) cache

end

def reserveRemoteAction (cache : RemoteActionCache) (deviceId actionId actionKind : String)
    (now : Nat) : RemoteActionCache × Except String RemoteActionReplayDecision :=
  let cache := cache.pruneRemoteActionReplays now
  let key := remoteActionCacheKey deviceId actionId
  match cache[key]? with
  | none => (cache.insert key (.inFlight actionKind now), .ok .execute)
  | some (.inFlight existingKind _) =>
    if existingKind ≠ actionKind then
      (cache, .error "action_id is already in use for a different remote action")
    else (cache, .ok .inFlight)
  | some (.completed result _) =>
    if result.actionKind ≠ actionKind then
      (cache, .error "action_id has already been used for a different remote action")
    else (cache, .ok (.replay result))

def withResult (cache : RemoteActionCache) (deviceId actionId : String)
    (result : CachedRemoteActionResult) (now : Nat) : RemoteActionCache :=
  (cache.pruneRemoteActionReplays now).insert (remoteActionCacheKey deviceId actionId)
    (.completed result now)

def storeRemoteActionResult (cache : RemoteActionCache) (rank : String → Nat)
    (deviceId actionId : String) (result : CachedRemoteActionResult) (now : Nat) :
    RemoteActionCache :=
  (cache.withResult deviceId actionId result now).trimRemoteActionReplays rank

end RemoteActionCache

inductive RemoteActionOp
  | reserve (deviceId actionId actionKind : String) (now : Nat)
  | store (deviceId actionId : String) (result : CachedRemoteActionResult) (now : Nat)
      (rank : String → Nat)

namespace RemoteActionOp

def now : RemoteActionOp → Nat
  | reserve _ _ _ now => now
  | store _ _ _ now _ => now

def pair : RemoteActionOp → String × String
  | reserve deviceId actionId _ _ => (deviceId, actionId)
  | store deviceId actionId _ _ _ => (deviceId, actionId)

def isStore : RemoteActionOp → Bool
  | reserve .. => false
  | store .. => true

end RemoteActionOp

namespace RemoteActionCache

def step (cache : RemoteActionCache) : RemoteActionOp → RemoteActionCache
  | .reserve deviceId actionId actionKind now =>
    (cache.reserveRemoteAction deviceId actionId actionKind now).1
  | .store deviceId actionId result now rank =>
    cache.storeRemoteActionResult rank deviceId actionId result now

/-- Nothing in flight is among the entries a store makes room with, and the clock is not
at the end of its range, where every entry counts as expired. -/
def KeepsInFlight (cache : RemoteActionCache) (op : RemoteActionOp) : Prop :=
  op.now < u64Max ∧
    match op with
    | .reserve .. => True
    | .store deviceId actionId result now rank =>
      let cache := cache.withResult deviceId actionId result now
      ∀ e ∈ (cache.entriesByAge rank).take (cache.size - maxRemoteActionReplayEntries),
        ∀ entry ∈ cache[e.1]?, entry.isInFlight = false

/-- No reservation of a pair is answered with `execute` while an earlier one that was has
neither stored its result nor outlived the replay window. -/
def AtMostOnce (ops : List RemoteActionOp) : Prop :=
  ∀ (before between after : List RemoteActionOp) (deviceId actionId kind kind' : String)
    (now later : Nat),
    ops = before ++ .reserve deviceId actionId kind now :: between ++
        .reserve deviceId actionId kind' later :: after →
    ((run step ∅ before).reserveRemoteAction deviceId actionId kind now).2 = .ok .execute →
    (∀ op ∈ between, op.isStore → op.pair ≠ (deviceId, actionId)) →
    later < now + remoteActionReplayTtlSecs →
      ((run step ∅ (before ++ .reserve deviceId actionId kind now :: between)).reserveRemoteAction
        deviceId actionId kind' later).2 ≠ .ok .execute

/-- Calls about different pairs go to different entries. -/
def SeparateEntries (ops : List RemoteActionOp) : Prop :=
  ∀ op ∈ ops, ∀ op' ∈ ops,
    remoteActionCacheKey op.pair.1 op.pair.2 = remoteActionCacheKey op'.pair.1 op'.pair.2 →
      op.pair = op'.pair

theorem takeWhile_key (deviceId actionId : String) (h : ':' ∉ deviceId.toList) :
    (remoteActionCacheKey deviceId actionId).toList.takeWhile (· ≠ ':') = deviceId.toList := by
  have hall : ∀ c ∈ deviceId.toList, (fun c => decide (c ≠ ':')) c = true := by
    intro c hc
    have : c ≠ ':' := fun he => h (he ▸ hc)
    simpa using this
  simp only [remoteActionCacheKey, String.toList_append, List.append_assoc]
  rw [List.takeWhile_append_of_pos hall]
  simp

theorem remoteActionCacheKey_injective {d d' a a' : String} (h : ':' ∉ d.toList)
    (h' : ':' ∉ d'.toList) (he : remoteActionCacheKey d a = remoteActionCacheKey d' a') :
    d = d' ∧ a = a' := by
  have hd : d = d' := by
    apply String.toList_inj.mp
    rw [← takeWhile_key d a h, ← takeWhile_key d' a' h', he]
  subst hd
  refine ⟨rfl, ?_⟩
  simpa [remoteActionCacheKey, String.append_assoc] using he

theorem colon_not_mem_foldl (input : List Char) (acc : List Char × Bool) (hacc : ':' ∉ acc.1) :
    ':' ∉ (input.foldl normalizeIdChar acc).1 := by
  induction input generalizing acc with
  | nil => exact hacc
  | cons c input ih =>
    apply ih
    unfold normalizeIdChar
    split_ifs with halnum hsep
    · have hc : c ≠ ':' := by
        rintro rfl
        exact absurd halnum (by decide)
      simpa [hacc] using hc.symm
    · simpa using hacc
    · exact hacc

theorem colon_not_mem_normalized {value : Option String} {deviceId : String}
    (h : normalizeRemoteDeviceId value = some deviceId) : ':' ∉ deviceId.toList := by
  obtain ⟨raw, -, hraw⟩ := Option.bind_eq_some_iff.mp h
  dsimp only at hraw
  split_ifs at hraw with hempty
  obtain rfl := Option.some.inj hraw
  rw [String.toList_ofList]
  intro hmem
  have hpre := List.rdropWhile_prefix (· = '-')
    ((Text.toAsciiLowercase (Text.trim raw)).toList.foldl normalizeIdChar ([], false)).1
  exact colon_not_mem_foldl _ ([], false) (by simp)
    (hpre.subset (List.mem_of_mem_take hmem))

section age
variable (rank : String → Nat) (cache : RemoteActionCache)

theorem entriesByAge_perm :
    (cache.entriesByAge rank).Perm (cache.toList.map fun e => (e.1, e.2.seenAt)) :=
  (List.mergeSort_perm _ _).trans ((List.mergeSort_perm _ _).map _)

theorem entriesByAge_keys_nodup : ((cache.entriesByAge rank).map (·.1)).Nodup := by
  have hperm := (cache.entriesByAge_perm rank).map (·.1)
  rw [hperm.nodup_iff, List.map_map]
  have hkeys := ExtTreeMap.map_fst_toList_eq_keys (t := cache)
  have hcomp : (fun e : String × Nat => e.1) ∘
      (fun e : String × CachedRemoteActionState => (e.1, e.2.seenAt)) = Prod.fst := rfl
  rw [hcomp, hkeys]
  exact ExtTreeMap.nodup_keys

theorem mem_entriesByAge {e : String × Nat} :
    e ∈ cache.entriesByAge rank ↔ ∃ entry, cache[e.1]? = some entry ∧ entry.seenAt = e.2 := by
  rw [(cache.entriesByAge_perm rank).mem_iff, List.mem_map]
  constructor
  · rintro ⟨⟨key, entry⟩, hmem, rfl⟩
    exact ⟨entry, ExtTreeMap.mem_toList_iff_getElem?_eq_some.mp hmem, rfl⟩
  · rintro ⟨entry, hget, hseen⟩
    exact ⟨(e.1, entry), ExtTreeMap.mem_toList_iff_getElem?_eq_some.mpr hget, by rw [hseen]⟩

theorem entriesByAge_sorted :
    (cache.entriesByAge rank).Pairwise fun a b => a.2 ≤ b.2 := by
  have htrans : ∀ a b c : String × Nat, decide (a.2 ≤ b.2) → decide (b.2 ≤ c.2) →
      decide (a.2 ≤ c.2) := by
    simp only [decide_eq_true_eq]
    omega
  have htotal : ∀ a b : String × Nat, decide (a.2 ≤ b.2) || decide (b.2 ≤ a.2) := by
    simp only [Bool.or_eq_true, decide_eq_true_eq]
    omega
  exact (List.pairwise_mergeSort htrans htotal _).imp of_decide_eq_true

end age

theorem getElem?_removeOverflow (entries : List (String × Nat)) (overflow : Nat)
    (cache : RemoteActionCache) (hnodup : (entries.map (·.1)).Nodup)
    (hmem : ∀ e ∈ entries, cache.contains e.1) {key : String}
    (hkey : key ∉ (entries.take overflow).map (·.1)) :
    (removeOverflow entries overflow cache)[key]? = cache[key]? := by
  induction entries generalizing overflow cache with
  | nil => rfl
  | cons e rest ih =>
    unfold removeOverflow
    by_cases hzero : overflow = 0
    · rw [if_pos hzero]
    · rw [if_neg hzero, if_pos (hmem e List.mem_cons_self)]
      obtain ⟨n, rfl⟩ := Nat.exists_eq_succ_of_ne_zero hzero
      simp only [List.map_cons, List.nodup_cons] at hnodup
      simp only [List.take_succ_cons, List.map_cons, List.mem_cons, not_or] at hkey
      rw [ih (n + 1 - 1) (cache.erase e.1) hnodup.2 ?_ hkey.2, Table.getElem?_erase_of,
        if_neg hkey.1]
      intro e' he'
      have hne : e'.1 ≠ e.1 := by
        intro heq
        exact hnodup.1 (List.mem_map.mpr ⟨e', he', heq⟩)
      have hold := hmem e' (List.mem_cons_of_mem e he')
      rw [ExtTreeMap.contains_eq_isSome_getElem?] at hold ⊢
      rw [Table.getElem?_erase_of, if_neg hne]
      exact hold

theorem getElem?_trim (rank : String → Nat) (cache : RemoteActionCache) {key : String}
    (hkey : key ∉ ((cache.entriesByAge rank).take
      (cache.size - maxRemoteActionReplayEntries)).map (·.1)) :
    (cache.trimRemoteActionReplays rank)[key]? = cache[key]? := by
  unfold trimRemoteActionReplays
  split_ifs
  · rfl
  · refine getElem?_removeOverflow _ _ cache (cache.entriesByAge_keys_nodup rank) ?_ hkey
    intro e he
    obtain ⟨entry, hget, -⟩ := (cache.mem_entriesByAge rank).mp he
    simp [ExtTreeMap.contains_eq_isSome_getElem?, hget]

theorem getElem?_prune (cache : RemoteActionCache) (now : Nat) (key : String) :
    (cache.pruneRemoteActionReplays now)[key]? =
      cache[key]?.filter fun entry =>
        now < saturatingAdd entry.seenAt remoteActionReplayTtlSecs := by
  rw [pruneRemoteActionReplays, Table.getElem?_filter]

theorem getElem?_prune_of_recent {cache : RemoteActionCache} {now : Nat} {key : String}
    {entry : CachedRemoteActionState} (hget : cache[key]? = some entry) (hmax : now < u64Max)
    (hrecent : now < entry.seenAt + remoteActionReplayTtlSecs) :
    (cache.pruneRemoteActionReplays now)[key]? = some entry := by
  have hkeep : now < saturatingAdd entry.seenAt remoteActionReplayTtlSecs := by
    rw [saturatingAdd, lt_min_iff]
    exact ⟨hrecent, hmax⟩
  simp [getElem?_prune, hget, hkeep]

theorem execute_iff (cache : RemoteActionCache) (deviceId actionId kind : String) (now : Nat) :
    (cache.reserveRemoteAction deviceId actionId kind now).2 = .ok .execute ↔
      (cache.pruneRemoteActionReplays now)[remoteActionCacheKey deviceId actionId]? = none := by
  unfold reserveRemoteAction
  dsimp only
  split
  · simp [*]
  · split_ifs <;> simp [*]
  · split_ifs <;> simp [*]

theorem getElem?_reserve (cache : RemoteActionCache) (deviceId actionId kind : String)
    (now : Nat) (key : String) :
    (cache.reserveRemoteAction deviceId actionId kind now).1[key]? =
      if key = remoteActionCacheKey deviceId actionId then
        (cache.pruneRemoteActionReplays now)[key]?.or (some (.inFlight kind now))
      else (cache.pruneRemoteActionReplays now)[key]? := by
  unfold reserveRemoteAction
  dsimp only
  by_cases hkey : key = remoteActionCacheKey deviceId actionId
  · subst hkey
    rw [if_pos rfl]
    split
    · simp [*]
    · split_ifs <;> simp [*]
    · split_ifs <;> simp [*]
  · rw [if_neg hkey]
    split
    · rw [Table.getElem?_insert_of, if_neg hkey]
    · split_ifs <;> rfl
    · split_ifs <;> rfl

/-- A call that meets the cache inside the window, and is not the pair's own store, leaves
a reservation in place. -/
theorem step_keeps_reservation {cache : RemoteActionCache} {op : RemoteActionOp}
    {deviceId actionId kind : String} {since : Nat} (hdevice : ':' ∉ deviceId.toList)
    (hop : ':' ∉ op.pair.1.toList) (hkeeps : cache.KeepsInFlight op)
    (hother : op.isStore → op.pair ≠ (deviceId, actionId))
    (hrecent : op.now < since + remoteActionReplayTtlSecs)
    (hget : cache[remoteActionCacheKey deviceId actionId]? = some (.inFlight kind since)) :
    (cache.step op)[remoteActionCacheKey deviceId actionId]? = some (.inFlight kind since) := by
  have hpruned := getElem?_prune_of_recent hget hkeeps.1 hrecent
  cases op with
  | reserve d a k now =>
    change ((cache.reserveRemoteAction d a k now).1)[remoteActionCacheKey deviceId actionId]? = _
    rw [getElem?_reserve]
    split_ifs
    · rw [show (cache.pruneRemoteActionReplays now)[remoteActionCacheKey deviceId actionId]? = _
        from hpruned]
      rfl
    · exact hpruned
  | store d a result now rank =>
    have hne : remoteActionCacheKey deviceId actionId ≠ remoteActionCacheKey d a := by
      intro he
      obtain ⟨rfl, rfl⟩ := remoteActionCacheKey_injective hdevice hop he
      exact hother rfl rfl
    have hstored : (cache.withResult d a result now)[remoteActionCacheKey deviceId actionId]? =
        some (.inFlight kind since) := by
      rw [withResult, Table.getElem?_insert_of, if_neg hne]
      exact hpruned
    change ((cache.withResult d a result now).trimRemoteActionReplays rank)[_]? = _
    rw [getElem?_trim, hstored]
    intro hvictim
    obtain ⟨e, he, hkey⟩ := List.mem_map.mp hvictim
    have hflag := hkeeps.2 e he (.inFlight kind since) (by rw [hkey]; exact hstored)
    cases hflag

theorem run_keeps_reservation {between : List RemoteActionOp} {cache : RemoteActionCache}
    {deviceId actionId kind : String} {since : Nat} (hdevice : ':' ∉ deviceId.toList)
    (hops : ∀ op ∈ between, ':' ∉ op.pair.1.toList)
    (hkeeps : Along step KeepsInFlight cache between)
    (hother : ∀ op ∈ between, op.isStore → op.pair ≠ (deviceId, actionId))
    (hrecent : ∀ op ∈ between, op.now < since + remoteActionReplayTtlSecs)
    (hget : cache[remoteActionCacheKey deviceId actionId]? = some (.inFlight kind since)) :
    (run step cache between)[remoteActionCacheKey deviceId actionId]? =
      some (.inFlight kind since) := by
  induction between generalizing cache with
  | nil => exact hget
  | cons op rest ih =>
    have hstep := step_keeps_reservation hdevice (hops op List.mem_cons_self) hkeeps.1
      (hother op List.mem_cons_self) (hrecent op List.mem_cons_self) hget
    rw [run_cons]
    exact ih (fun o ho => hops o (List.mem_cons_of_mem op ho)) hkeeps.2
      (fun o ho => hother o (List.mem_cons_of_mem op ho))
      (fun o ho => hrecent o (List.mem_cons_of_mem op ho)) hstep

/-- In a run whose stores never make room with something in flight, a pair is executed at
most once per window, and no two pairs share an entry. -/
theorem remoteActions_at_most_once (ops : List RemoteActionOp)
    (hdevices : ∀ op ∈ ops, ':' ∉ op.pair.1.toList)
    (hclock : (ops.map RemoteActionOp.now).Pairwise (· ≤ ·))
    (hkeeps : Along step KeepsInFlight ∅ ops) : AtMostOnce ops ∧ SeparateEntries ops := by
  constructor
  · rintro before between after deviceId actionId kind kind' now later rfl hexec hother httl
    have hdevice : ':' ∉ deviceId.toList :=
      hdevices (.reserve deviceId actionId kind now) (by simp)
    rw [execute_iff] at hexec
    rw [List.append_assoc, List.cons_append] at hkeeps
    obtain ⟨-, hfirst, hrest⟩ := along_append.mp hkeeps
    obtain ⟨hbetween, hsecond, -⟩ := along_append.mp hrest
    have hlater : ∀ op ∈ between, op.now < now + remoteActionReplayTtlSecs := by
      intro op hop
      have hle : op.now ≤ later := by
        simp only [List.append_assoc, List.cons_append, List.map_append, List.map_cons,
          List.pairwise_append, List.pairwise_cons] at hclock
        exact hclock.2.1.2.2.2 op.now (List.mem_map_of_mem hop) later (by simp [RemoteActionOp.now])
      omega
    have hreserved : (run step ∅ before |>.step (.reserve deviceId actionId kind now))[
        remoteActionCacheKey deviceId actionId]? = some (.inFlight kind now) := by
      change ((run step ∅ before).reserveRemoteAction deviceId actionId kind now).1[_]? = _
      rw [getElem?_reserve, if_pos rfl, hexec]
      rfl
    have hkept := run_keeps_reservation hdevice
      (fun op hop => hdevices op (by simp [hop])) hbetween hother hlater hreserved
    rw [← run_cons, ← run_append] at hkept
    have hmax : later < u64Max := hsecond.1
    rw [Ne, execute_iff, getElem?_prune_of_recent hkept hmax httl]
    exact Option.some_ne_none _
  · intro op hop op' hop' he
    obtain ⟨hd, ha⟩ := remoteActionCacheKey_injective (hdevices op hop) (hdevices op' hop') he
    exact Prod.ext hd ha

/-- A retry of a command that still runs, with another device's result stored meanwhile. -/
theorem remoteActions_at_most_once_retry :
    AtMostOnce [.reserve "my-phone" "a:1" "send_message" 10,
      .store "laptop" "a:1" ⟨"list_threads", true, none⟩ 11 (fun _ => 0),
      .reserve "my-phone" "a:1" "send_message" 12] := by
  have hphone : ':' ∉ "my-phone".toList :=
    colon_not_mem_normalized (show normalizeRemoteDeviceId (some " My_Phone ") = _ by decide +kernel)
  refine (remoteActions_at_most_once _ ?_ (by decide) ?_).1
  · intro op hop
    simp only [List.mem_cons, List.not_mem_nil, or_false] at hop
    rcases hop with rfl | rfl | rfl
    · exact hphone
    · exact (by decide : ':' ∉ "laptop".toList)
    · exact hphone
  · exact ⟨⟨by decide, trivial⟩, ⟨by decide, by decide +kernel⟩, ⟨by decide, trivial⟩, trivial⟩

theorem trim_evicts_oldest (rank : String → Nat) (cache : RemoteActionCache) {key : String}
    {entry : CachedRemoteActionState} (hsize : cache.size = maxRemoteActionReplayEntries + 1)
    (hget : cache[key]? = some entry)
    (holdest : ∀ other e, other ≠ key → cache[other]? = some e → entry.seenAt < e.seenAt) :
    (cache.trimRemoteActionReplays rank)[key]? = none := by
  have hmem : (key, entry.seenAt) ∈ cache.entriesByAge rank :=
    (cache.mem_entriesByAge rank).mpr ⟨entry, hget, rfl⟩
  have hsorted := cache.entriesByAge_sorted rank
  unfold trimRemoteActionReplays
  rw [if_neg (by omega), hsize, Nat.add_sub_cancel_left]
  cases hlist : cache.entriesByAge rank with
  | nil =>
    rw [hlist] at hmem
    cases hmem
  | cons head rest =>
    have hhead : head.1 = key := by
      by_contra hne
      obtain ⟨e, he, hseen⟩ := (cache.mem_entriesByAge rank).mp
        (show head ∈ cache.entriesByAge rank by rw [hlist]; exact List.mem_cons_self)
      have hlt := holdest head.1 e hne he
      rw [hlist] at hmem hsorted
      rcases List.mem_cons.mp hmem with heq | hrest
      · exact hne (by rw [← heq])
      · have hle := (List.pairwise_cons.mp hsorted).1 _ hrest
        simp only at hle
        omega
    have hcontains : cache.contains head.1 := by
      rw [hhead, ExtTreeMap.contains_eq_isSome_getElem?, hget]
      rfl
    unfold removeOverflow
    rw [if_neg (by omega), if_pos hcontains]
    cases rest with
    | nil => simp [removeOverflow, hhead]
    | cons next rest => simp [removeOverflow, hhead]

/-- The completions of another device that fill the cache: one longer action id each. -/
def busyStore (n : Nat) : RemoteActionOp :=
  .store "laptop" (String.ofList (List.replicate n 'b')) ⟨"send_message", true, none⟩ 1 (fun _ => 0)

structure FilledBy (n : Nat) (cache : RemoteActionCache) : Prop where
  size : cache.size = n + 1
  reserved : cache["phone:send"]? = some (.inFlight "send_message" 0)
  other : ∀ (key : String) e, key ≠ "phone:send" → cache[key]? = some e →
    e.seenAt = 1 ∧ key.length < n + 7

theorem busyKey_length (n : Nat) :
    (remoteActionCacheKey "laptop" (String.ofList (List.replicate n 'b'))).length = n + 7 := by
  simp [remoteActionCacheKey, ← String.length_toList]

theorem busyKey_ne (n : Nat) :
    remoteActionCacheKey "laptop" (String.ofList (List.replicate n 'b')) ≠ "phone:send" := by
  intro h
  have := congrArg (fun s : String => s.toList.head?) h
  simp [remoteActionCacheKey] at this

theorem FilledBy.withResult {n : Nat} {cache : RemoteActionCache} (h : FilledBy n cache)
    (result : CachedRemoteActionResult) :
    FilledBy (n + 1)
      (cache.withResult "laptop" (String.ofList (List.replicate n 'b')) result 1) := by
  have hpruned : cache.pruneRemoteActionReplays 1 = cache := by
    apply ExtTreeMap.ext_getElem?
    intro key
    rw [getElem?_prune]
    cases hget : cache[key]? with
    | none => rfl
    | some e => simp [saturatingAdd, remoteActionReplayTtlSecs, u64Max]
  have hnew : remoteActionCacheKey "laptop" (String.ofList (List.replicate n 'b')) ∉ cache := by
    intro hmem
    rw [ExtTreeMap.mem_iff_isSome_getElem?, Option.isSome_iff_exists] at hmem
    obtain ⟨e, he⟩ := hmem
    have hlt := (h.other _ e (busyKey_ne n) he).2
    rw [busyKey_length] at hlt
    omega
  rw [RemoteActionCache.withResult, hpruned]
  constructor
  · rw [ExtTreeMap.size_insert, if_neg (by rwa [ExtTreeMap.contains_iff_mem]), h.size]
  · rw [Table.getElem?_insert_of, if_neg (busyKey_ne n).symm]
    exact h.reserved
  · intro key e hne hget
    rw [Table.getElem?_insert_of] at hget
    split_ifs at hget with hkey
    · obtain rfl := Option.some.inj hget
      refine ⟨rfl, ?_⟩
      rw [hkey, busyKey_length]
      omega
    · have hold := h.other key e hne hget
      exact ⟨hold.1, by omega⟩

theorem filledBy_run (n : Nat) (hn : n < maxRemoteActionReplayEntries) :
    FilledBy n (run step ∅
      (.reserve "phone" "send" "send_message" 0 :: (List.range n).map busyStore)) := by
  induction n with
  | zero =>
    have hempty : (∅ : RemoteActionCache).pruneRemoteActionReplays 0 = ∅ := by
      apply ExtTreeMap.ext_getElem?
      intro key
      simp [getElem?_prune]
    have hfirst : run step ∅ [.reserve "phone" "send" "send_message" 0] =
        (∅ : RemoteActionCache).insert "phone:send" (.inFlight "send_message" 0) := by
      simp only [run_cons, run_nil, step, reserveRemoteAction, hempty,
        ExtTreeMap.getElem?_empty]
      rfl
    rw [List.range_zero, List.map_nil, hfirst]
    constructor
    · simp [ExtTreeMap.size_insert]
    · simp
    · intro key e hne hget
      simp [Table.getElem?_insert_of, hne] at hget
  | succ n ih =>
    have hfilled := (ih (by omega)).withResult ⟨"send_message", true, none⟩
    rw [List.range_succ, List.map_append, List.map_singleton, ← List.cons_append, run_concat]
    change FilledBy (n + 1) (RemoteActionCache.trimRemoteActionReplays _ _)
    rw [trimRemoteActionReplays, if_pos]
    · exact hfilled
    · have := hfilled.size
      omega

theorem reservation_evicted :
    (run step ∅ (.reserve "phone" "send" "send_message" 0 ::
      (List.range maxRemoteActionReplayEntries).map busyStore))["phone:send"]? = none := by
  have hfilled := (filledBy_run (maxRemoteActionReplayEntries - 1) (by decide)).withResult
    ⟨"send_message", true, none⟩
  have hgone := trim_evicts_oldest (fun _ => 0) _ hfilled.size hfilled.reserved (by
    intro other e hne hget
    rw [(hfilled.other other e hne hget).1]
    exact Nat.zero_lt_one)
  rw [show maxRemoteActionReplayEntries = maxRemoteActionReplayEntries - 1 + 1 from rfl,
    List.range_succ, List.map_append, List.map_singleton, ← List.cons_append, run_concat]
  exact hgone

/-- Enough completions of other actions push a reservation out of the cache while its
command still runs, and the retry of that command runs a second time. -/
theorem remoteActions_execute_twice :
    ¬∀ ops : List RemoteActionOp, (∀ op ∈ ops, ':' ∉ op.pair.1.toList) →
      (ops.map RemoteActionOp.now).Pairwise (· ≤ ·) → (∀ op ∈ ops, op.now < u64Max) →
        AtMostOnce ops ∧ SeparateEntries ops := by
  intro h
  have hcalls : ∀ op ∈ [] ++ RemoteActionOp.reserve "phone" "send" "send_message" 0 ::
      (List.range maxRemoteActionReplayEntries).map busyStore ++
        [.reserve "phone" "send" "send_message" 2],
      ':' ∉ op.pair.1.toList ∧ op.now < u64Max := by
    intro op hop
    simp only [List.nil_append, List.cons_append, List.mem_cons, List.mem_append, List.mem_map,
      List.not_mem_nil, or_false] at hop
    rcases hop with rfl | ⟨n, -, rfl⟩ | rfl
    · decide
    · exact (by decide : ':' ∉ "laptop".toList ∧ 1 < u64Max)
    · decide
  have honce := (h _ (fun op hop => (hcalls op hop).1) ?_ fun op hop => (hcalls op hop).2).1
  · refine honce [] _ [] "phone" "send" "send_message" "send_message" 0 2 rfl ?_ ?_ (by decide) ?_
    · decide +kernel
    · intro op hop _
      obtain ⟨n, -, rfl⟩ := List.mem_map.mp hop
      simp [busyStore, RemoteActionOp.pair]
    · rw [execute_iff, getElem?_prune]
      exact congrArg (Option.filter _) reservation_evicted
  · simp [List.pairwise_append, RemoteActionOp.now, busyStore, Function.comp_def]

end RemoteActionCache

end AgentRelay.Relay
