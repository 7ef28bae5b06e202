import AgentRelay.DeviceRecords
import AgentRelay.PushEndpoint

/-! The push subscriptions of the paired devices. They come in with a device that is paired; they go
with it, one by one, or when the push service has lost them. -/
namespace AgentRelay.Relay
open Std StepRun

namespace PairingDesk

def prunePushSubscriptions (desk : PairingDesk) (goneEndpoints : List String) : PairingDesk :=
  if goneEndpoints = [] then desk
  else
    { desk with pushSubscriptions :=
        (desk.pushSubscriptions.map fun _ subs =>
          subs.filter (·.endpoint ∉ goneEndpoints)).filter fun _ subs => subs ≠ [] }

def pruneOrphanedPushSubscriptions (desk : PairingDesk) : PairingDesk :=
  { desk with pushSubscriptions :=
      desk.pushSubscriptions.filter fun deviceId _ => desk.surfaces.pairedDevices.contains deviceId }

inductive SubscriptionOp
  | register (now : Nat) (input : PushSubscriptionInput)
  | unregister (deviceId endpoint : String)
  | gone (endpoints : List String)
  | pruneOrphaned
  | pairing (op : PairingOp)

def subscriptionStep (parse : String → Option Url) (sha256Hex : String → String)
    (desk : PairingDesk) : SubscriptionOp → PairingDesk
  | .register now input => (desk.registerPushSubscription parse now input).1
  | .unregister deviceId endpoint => desk.unregisterPushSubscription deviceId endpoint
  | .gone endpoints => desk.prunePushSubscriptions endpoints
  | .pruneOrphaned => desk.pruneOrphanedPushSubscriptions
  | .pairing op => desk.step sha256Hex op

/-- Each subscription belongs to a paired device and was checked; a device has one at most for an
endpoint, and no device has an empty list. -/
structure SubscriptionsKept (parse : String → Option Url) (desk : PairingDesk) : Prop where
  paired : ∀ (id : String) (subs : List PushSubscription), desk.pushSubscriptions[id]? = some subs →
    desk.surfaces.pairedDevices.contains id = true
  listed : ∀ (id : String) (subs : List PushSubscription), desk.pushSubscriptions[id]? = some subs →
    subs ≠ [] ∧ (subs.map (·.endpoint)).Nodup ∧
      ∀ s ∈ subs, s.deviceId = id ∧ isAcceptablePushEndpoint parse s.endpoint = true

def Subscribed (desk : PairingDesk) (s : PushSubscription) : Prop :=
  ∃ subs, desk.pushSubscriptions[s.deviceId]? = some subs ∧ s ∈ subs

/-- What takes a subscription away: its own device, the push service, or the end of the pairing. -/
def Takes (s : PushSubscription) (desk : PairingDesk) : SubscriptionOp → Prop
  | .register _ input => input.deviceId = some s.deviceId ∧ input.endpoint = s.endpoint
  | .unregister deviceId endpoint => deviceId = s.deviceId ∧ endpoint = s.endpoint
  | .gone endpoints => s.endpoint ∈ endpoints
  | .pruneOrphaned => False
  | .pairing op => s.deviceId ∈ desk.revoked op

variable {parse : String → Option Url} {sha256Hex : String → String} {desk next : PairingDesk}

/-- An operation on the pairings takes subscriptions away with their device, or leaves both. -/
theorem Moves.pushSubscriptions {ids : List String} (h : Moves ids desk next) (id : String) :
    (id ∈ ids ∧ next.pushSubscriptions[id]? = none) ∨
      (next.pushSubscriptions[id]? = desk.pushSubscriptions[id]? ∧
        (desk.surfaces.pairedDevices.contains id = true →
          next.surfaces.pairedDevices.contains id = true)) := by
  induction h with
  | same hpaired _ hpush => exact Or.inr ⟨by rw [hpush], fun hdevice => by rwa [hpaired]⟩
  | write _ _ hpaired _ hpush =>
    exact Or.inr ⟨by rw [hpush], fun hdevice => by
      rw [hpaired, ExtTreeMap.contains_insert, hdevice, Bool.or_true]⟩
  | revoke now hmem _ hpaired _ hpush =>
    rw [hpush, hpaired, ExtTreeMap.contains_eq_isSome_getElem?,
      ExtTreeMap.contains_eq_isSome_getElem?, Table.getElem?_erase_of, Table.getElem?_erase_of]
    split_ifs with hid
    · exact Or.inl ⟨hid ▸ hmem, rfl⟩
    · exact Or.inr ⟨rfl, fun hdevice => hdevice⟩
  | trans _ _ ih ih' =>
    rcases ih' with hgone | ⟨hsame, hpaired⟩
    · exact Or.inl hgone
    · rcases ih with ⟨hmem, hnone⟩ | ⟨hsame', hpaired'⟩
      · exact Or.inl ⟨hmem, hsame.trans hnone⟩
      · exact Or.inr ⟨hsame.trans hsame', hpaired ∘ hpaired'⟩

/-- Rejections included: they change nothing here. -/
theorem pushSubscriptions_step (hfiled : desk.book.Filed sha256Hex) (op : PairingOp) (id : String) :
    let next := desk.step sha256Hex op
    (id ∈ desk.revoked op ∧ next.pushSubscriptions[id]? = none) ∨
      (next.pushSubscriptions[id]? = desk.pushSubscriptions[id]? ∧
        (desk.surfaces.pairedDevices.contains id = true →
          next.surfaces.pairedDevices.contains id = true)) := by
  cases op with
  | reject now pairingId =>
    refine Or.inr ⟨?_, fun hdevice => ?_⟩
    · rw [step, pushSubscriptions_decide]
    · rw [step]
      rwa [pairedDevices_reject]
  | _ => exact (moves_step hfiled _ rfl).pushSubscriptions id

theorem getElem?_unregister (deviceId endpoint id : String) :
    (desk.unregisterPushSubscription deviceId endpoint).pushSubscriptions[id]? =
      if id = deviceId then
        (desk.pushSubscriptions[id]?.map (List.filter (·.endpoint ≠ endpoint))).filter (· ≠ [])
      else desk.pushSubscriptions[id]? := by
  unfold unregisterPushSubscription
  by_cases hid : id = deviceId
  · subst hid
    cases hstored : desk.pushSubscriptions[id]? with
    | none => simp [hstored]
    | some stored =>
      simp only [if_true, Option.map_some, Option.filter_some, decide_eq_true_eq]
      by_cases hlast : stored.filter (·.endpoint ≠ endpoint) = []
      · rw [if_pos hlast, if_neg (not_not.mpr hlast), Table.getElem?_erase_of, if_pos rfl]
      · rw [if_neg hlast, if_pos hlast, Table.getElem?_insert_of, if_pos rfl]
  · cases desk.pushSubscriptions[deviceId]? with
    | none => simp [hid]
    | some stored =>
      dsimp only
      split_ifs <;> simp [hid, Table.getElem?_erase_of, Table.getElem?_insert_of]

theorem getElem?_gone {endpoints : List String} (hgone : endpoints ≠ []) (id : String) :
    (desk.prunePushSubscriptions endpoints).pushSubscriptions[id]? =
      if True then
        (desk.pushSubscriptions[id]?.map (List.filter (·.endpoint ∉ endpoints))).filter (· ≠ [])
      else desk.pushSubscriptions[id]? := by
  rw [prunePushSubscriptions, if_neg hgone, Table.getElem?_filter, ExtTreeMap.getElem?_map,
    if_pos trivial]

/-- A registration changes nothing, or it puts the subscription last, in the place of the one that
was stored under its endpoint. -/
theorem registerPush_cases (parse : String → Option Url) (desk : PairingDesk) (now : Nat)
    (input : PushSubscriptionInput) :
    (desk.registerPushSubscription parse now input).1 = desk ∨
      ∃ own, input.deviceId = some own ∧ desk.surfaces.pairedDevices.contains own = true ∧
        isAcceptablePushEndpoint parse input.endpoint = true ∧
        (desk.registerPushSubscription parse now input).1 =
          { desk with
            pushSubscriptions := desk.pushSubscriptions.insert own
              ((desk.pushSubscriptions[own]?.getD []).filter (·.endpoint ≠ input.endpoint) ++
                [⟨input.endpoint, input.p256dh, input.auth, own, now⟩]) } := by
  unfold registerPushSubscription
  cases input.deviceId with
  | none => exact Or.inl rfl
  | some own =>
    dsimp only
    split_ifs with hpaired hempty haccepts hsame
    case neg => exact Or.inr ⟨own, rfl, hpaired, haccepts, rfl⟩
    all_goals exact Or.inl rfl

theorem SubscriptionsKept.shrink (h : desk.SubscriptionsKept parse)
    (hnext : ∀ (id : String) (subs : List PushSubscription),
      next.pushSubscriptions[id]? = some subs → subs ≠ [] ∧
        (∃ old, desk.pushSubscriptions[id]? = some old ∧ subs.Sublist old) ∧
        (desk.surfaces.pairedDevices.contains id = true →
          next.surfaces.pairedDevices.contains id = true)) : next.SubscriptionsKept parse := by
  constructor
  · intro id subs hsubs
    obtain ⟨-, ⟨old, hold, -⟩, hpaired⟩ := hnext id subs hsubs
    exact hpaired (h.paired id old hold)
  · intro id subs hsubs
    obtain ⟨hne, ⟨old, hold, hsub⟩, -⟩ := hnext id subs hsubs
    obtain ⟨-, hnodup, hall⟩ := h.listed id old hold
    exact ⟨hne, hnodup.sublist (hsub.map _), fun s hs => hall s (hsub.subset hs)⟩

theorem SubscriptionsKept.register (h : desk.SubscriptionsKept parse) (now : Nat)
    (input : PushSubscriptionInput) :
    (desk.registerPushSubscription parse now input).1.SubscriptionsKept parse := by
  rcases registerPush_cases parse desk now input with hsame | ⟨own, -, hpaired, haccepts, hnext⟩
  · rwa [hsame]
  · obtain ⟨stored, hstored, hnodup, hall⟩ : ∃ stored : List PushSubscription,
        stored = desk.pushSubscriptions[own]?.getD [] ∧ (stored.map (·.endpoint)).Nodup ∧
          ∀ s ∈ stored, s.deviceId = own ∧ isAcceptablePushEndpoint parse s.endpoint = true := by
      cases hfound : desk.pushSubscriptions[own]? with
      | none => exact ⟨[], rfl, by simp, by simp⟩
      | some stored => exact ⟨stored, rfl, (h.listed own stored hfound).2⟩
    rw [hnext, ← hstored]
    constructor
    · intro id subs hsubs
      by_cases hid : id = own
      · rwa [hid]
      · exact h.paired id subs (by simpa [Table.getElem?_insert_of, hid] using hsubs)
    · intro id subs hsubs
      by_cases hid : id = own
      · subst hid
        simp only [Table.getElem?_insert_of, if_true, Option.some.injEq] at hsubs
        subst hsubs
        refine ⟨by simp, ?_, fun s hs => ?_⟩
        · rw [List.map_append, List.nodup_append]
          refine ⟨hnodup.sublist (List.filter_sublist.map _), by simp, ?_⟩
          intro a ha b hb
          obtain ⟨s, hs, rfl⟩ := List.mem_map.mp ha
          simpa [List.mem_singleton.mp hb] using (List.mem_filter.mp hs).2
        · rcases List.mem_append.mp hs with hkept | hnew
          · exact hall s (List.mem_filter.mp hkept).1
          · obtain rfl := List.mem_singleton.mp hnew
            exact ⟨rfl, haccepts⟩
      · exact h.listed id subs (by simpa [Table.getElem?_insert_of, hid] using hsubs)

/-- One device, or all of them, lose the subscriptions that `p` does not keep. -/
theorem SubscriptionsKept.filter (h : desk.SubscriptionsKept parse)
    (hrelay : next.relay = desk.relay) {p : PushSubscription → Bool} {ids : String → Prop}
    [DecidablePred ids] (hnext : ∀ id : String, next.pushSubscriptions[id]? =
      if ids id then (desk.pushSubscriptions[id]?.map (List.filter p)).filter (· ≠ [])
      else desk.pushSubscriptions[id]?) : next.SubscriptionsKept parse := by
  refine h.shrink fun id subs hsubs => ?_
  have hpaired : desk.surfaces.pairedDevices.contains id = true →
      next.surfaces.pairedDevices.contains id = true := by
    rw [surfaces, surfaces, hrelay]
    exact fun hdevice => hdevice
  rw [hnext] at hsubs
  split_ifs at hsubs
  · simp only [Option.filter_eq_some_iff, Option.map_eq_some_iff, decide_eq_true_eq] at hsubs
    obtain ⟨⟨old, hold, rfl⟩, hne⟩ := hsubs
    exact ⟨hne, ⟨old, hold, List.filter_sublist⟩, hpaired⟩
  · exact ⟨(h.listed id subs hsubs).1, ⟨subs, hsubs, List.Sublist.refl subs⟩, hpaired⟩

theorem filter_of_mem {stored : Option (List PushSubscription)} {subs : List PushSubscription}
    {s : PushSubscription} {p : PushSubscription → Bool} (hsubs : stored = some subs)
    (hmem : s ∈ subs) (hp : p s = true) :
    ∃ kept, (stored.map (List.filter p)).filter (· ≠ []) = some kept ∧ s ∈ kept := by
  have hkept : s ∈ subs.filter p := List.mem_filter.mpr ⟨hmem, hp⟩
  refine ⟨subs.filter p, ?_, hkept⟩
  rw [hsubs, Option.map_some, Option.filter_some, if_pos]
  simpa using List.ne_nil_of_mem hkept

theorem subscriptionsKept_step (hfiled : desk.book.Filed sha256Hex)
    (h : desk.SubscriptionsKept parse) (op : SubscriptionOp) :
    (desk.subscriptionStep parse sha256Hex op).SubscriptionsKept parse := by
  cases op with
  | register now input => exact h.register now input
  | unregister deviceId endpoint =>
    refine h.filter ?_ (getElem?_unregister deviceId endpoint)
    unfold subscriptionStep unregisterPushSubscription
    dsimp only
    split <;> rfl
  | gone endpoints =>
    by_cases hnone : endpoints = []
    · rwa [subscriptionStep, prunePushSubscriptions, if_pos hnone]
    · refine h.filter ?_ (getElem?_gone hnone)
      rw [subscriptionStep, prunePushSubscriptions, if_neg hnone]
  | pruneOrphaned =>
    refine h.shrink fun id subs hsubs => ?_
    simp only [subscriptionStep, pruneOrphanedPushSubscriptions, Table.getElem?_filter,
      Option.filter_eq_some_iff] at hsubs
    exact ⟨(h.listed id subs hsubs.1).1, ⟨subs, hsubs.1, List.Sublist.refl subs⟩, fun h => h⟩
  | pairing op =>
    refine h.shrink fun id subs hsubs => ?_
    rcases pushSubscriptions_step hfiled op id with ⟨-, hnone⟩ | ⟨hsame, hpaired⟩
    · rw [subscriptionStep, hnone] at hsubs
      cases hsubs
    · rw [subscriptionStep, hsame] at hsubs
      exact ⟨(h.listed id subs hsubs).1, ⟨subs, hsubs, List.Sublist.refl subs⟩, hpaired⟩

theorem subscribed_step (hfiled : desk.book.Filed sha256Hex) (h : desk.SubscriptionsKept parse)
    {s : PushSubscription} (hs : desk.Subscribed s) (op : SubscriptionOp)
    (hop : ¬Takes s desk op) : (desk.subscriptionStep parse sha256Hex op).Subscribed s := by
  obtain ⟨subs, hsubs, hmem⟩ := hs
  cases op with
  | register now input =>
    rcases registerPush_cases parse desk now input with hsame | ⟨own, hown, -, -, hnext⟩
    · exact ⟨subs, by rw [subscriptionStep, hsame, hsubs], hmem⟩
    · simp only [Subscribed, subscriptionStep, hnext, Table.getElem?_insert_of]
      split_ifs with hid
      · refine ⟨_, rfl, List.mem_append_left _ (List.mem_filter.mpr ⟨?_, ?_⟩)⟩
        · rwa [← hid, hsubs]
        · have hne : input.endpoint ≠ s.endpoint := fun heq => hop ⟨hid ▸ hown, heq⟩
          simpa using hne.symm
      · exact ⟨subs, hsubs, hmem⟩
  | unregister deviceId endpoint =>
    simp only [Subscribed, subscriptionStep, getElem?_unregister]
    split_ifs with hid
    · have hne : endpoint ≠ s.endpoint := fun heq => hop ⟨hid.symm, heq⟩
      exact filter_of_mem hsubs hmem (by simpa using hne.symm)
    · exact ⟨subs, hsubs, hmem⟩
  | gone endpoints =>
    by_cases hnone : endpoints = []
    · exact ⟨subs, by rwa [subscriptionStep, prunePushSubscriptions, if_pos hnone], hmem⟩
    · simp only [Subscribed, subscriptionStep, getElem?_gone hnone, if_true]
      exact filter_of_mem hsubs hmem (decide_eq_true hop)
  | pruneOrphaned =>
    refine ⟨subs, ?_, hmem⟩
    simp [subscriptionStep, pruneOrphanedPushSubscriptions, hsubs, Option.filter,
      h.paired s.deviceId subs hsubs]
  | pairing op =>
    rcases pushSubscriptions_step hfiled op s.deviceId with ⟨hrevoked, -⟩ | ⟨hsame, -⟩
    · exact absurd hrevoked hop
    · exact ⟨subs, hsame.trans hsubs, hmem⟩

theorem subscriptionsKept_opened (relay : RelayState) : (opened relay).SubscriptionsKept parse :=
  ⟨fun id subs h => by simp [opened] at h, fun id subs h => by simp [opened] at h⟩

theorem filed_subscriptionStep (hfiled : desk.book.Filed sha256Hex) (op : SubscriptionOp) :
    (desk.subscriptionStep parse sha256Hex op).book.Filed sha256Hex := by
  cases op with
  | register now input =>
    rcases registerPush_cases parse desk now input with hsame | ⟨own, -, -, -, hnext⟩
    · rwa [subscriptionStep, hsame]
    · rw [subscriptionStep, hnext]
      exact hfiled
  | unregister deviceId endpoint =>
    simp only [subscriptionStep, unregisterPushSubscription]
    split <;> exact hfiled
  | gone endpoints =>
    simp only [subscriptionStep, prunePushSubscriptions]
    split_ifs <;> exact hfiled
  | pruneOrphaned => exact hfiled
  | pairing op => exact hfiled.step (step_book hfiled op)

theorem filed_kept_run (hfiled : desk.book.Filed sha256Hex) (h : desk.SubscriptionsKept parse)
    (ops : List SubscriptionOp) :
    let next := StepRun.run (subscriptionStep parse sha256Hex) desk ops
    next.book.Filed sha256Hex ∧ next.SubscriptionsKept parse :=
  run_of_step (I := fun desk : PairingDesk =>
      desk.book.Filed sha256Hex ∧ desk.SubscriptionsKept parse)
    (fun _ op hdesk => ⟨filed_subscriptionStep hdesk.1 op,
      subscriptionsKept_step hdesk.1 hdesk.2 op⟩) ⟨hfiled, h⟩ ops

/-- Over every run of pairings, revocations, registrations and prunings only paired devices have
subscriptions, and those passed the check. -/
theorem subscriptionsKept_run (hfiled : desk.book.Filed sha256Hex)
    (h : desk.SubscriptionsKept parse) (ops : List SubscriptionOp) :
    (StepRun.run (subscriptionStep parse sha256Hex) desk ops).SubscriptionsKept parse :=
  (filed_kept_run hfiled h ops).2

def subscribesPhone : List SubscriptionOp :=
  pairsPhone.map .pairing ++
    [.register 103 ⟨some "phone", "https://localhost./push", "key", "auth"⟩]

theorem subscriptionsKept_run_phone :
    (StepRun.run (subscriptionStep sampleUrl id) (opened {}) subscribesPhone).SubscriptionsKept
      sampleUrl :=
  subscriptionsKept_run (filed_opened {}) (subscriptionsKept_opened {}) subscribesPhone

/-- A subscription stays until its own device, the push service or the end of its pairing takes
it. No other device can. -/
theorem subscribed_run (hfiled : desk.book.Filed sha256Hex) (h : desk.SubscriptionsKept parse)
    {s : PushSubscription} (hs : desk.Subscribed s) (ops : List SubscriptionOp)
    (hops : Along (subscriptionStep parse sha256Hex) (fun desk op => ¬Takes s desk op) desk ops) :
    (StepRun.run (subscriptionStep parse sha256Hex) desk ops).Subscribed s := by
  induction ops generalizing desk with
  | nil => exact hs
  | cons op ops ih =>
    exact ih (filed_subscriptionStep hfiled op) (subscriptionsKept_step hfiled h op)
      (subscribed_step hfiled h hs op hops.1) hops.2

/-- Another device cannot take the phone's subscription back. -/
theorem subscribed_run_phone :
    let desk := StepRun.run (subscriptionStep sampleUrl id) (opened {}) subscribesPhone
    let s : PushSubscription := ⟨"https://localhost./push", "key", "auth", "phone", 103⟩
    (StepRun.run (subscriptionStep sampleUrl id) desk
      [.unregister "tablet" s.endpoint, .gone ["https://[::127.0.0.1]/push"]]).Subscribed s := by
  intro desk s
  have hopened : (opened {}).SubscriptionsKept sampleUrl := subscriptionsKept_opened {}
  obtain ⟨hfiled, hkept⟩ := filed_kept_run (filed_opened {}) hopened subscribesPhone
  have hs : desk.Subscribed s := ⟨[s], by decide +kernel, List.mem_singleton.mpr rfl⟩
  exact subscribed_run hfiled hkept hs _ ⟨fun h => absurd h.1 (by decide), by simp [Takes, s],
    trivial⟩

end PairingDesk

end AgentRelay.Relay
