import AgentRelay.PairingTicket

/-! Which keys a ticket has seen: in the waiting request, in the claims that are out and in
the kept result. An accepted registration while a claim is out is the one way a second key
gets in. -/
namespace AgentRelay.Relay
open Std StepRun

namespace PairingEvent

def registeredKey (pairingId : String) : PairingEvent → Option String
  | registered id key => if id = pairingId then some key else none
  | _ => none

/-- The key a step approved under the ticket, or handed the payload secret to. -/
def grantedKey (pairingId : String) : PairingEvent → Option String
  | approved id key _ => if id = pairingId then some key else none
  | delivered id key _ => if id = pairingId then some key else none
  | _ => none

theorem mem_registeredKey {pairingId key : String} {e : PairingEvent} :
    key ∈ e.registeredKey pairingId ↔ e = registered pairingId key := by
  cases e with
  | registered id key' =>
    simp only [registeredKey, Option.mem_def, registered.injEq]
    split_ifs with hid
    · simp [hid]
    · simp [hid]
  | _ => simp [registeredKey]

def approves (pairingId : String) : PairingEvent → Bool
  | approved id _ _ => id = pairingId
  | _ => false

end PairingEvent

namespace TicketBook
variable {sha256Hex : String → String} {b b' : TicketBook} {pairingId : String}
  {e : Option PairingEvent}

theorem getElem?_prune_pending (b : TicketBook) (now : Nat) (k : String) :
    (b.prune now).pending[k]? = b.pending[k]?.filter fun pairing => now < pairing.expiresAt := by
  simp [prune]

theorem getElem?_prune_requests (b : TicketBook) (now : Nat) (k : String) :
    (b.prune now).requests[k]? =
      b.requests[k]?.filter fun _ => (b.prune now).pending.contains k := by
  simp [prune]

theorem getElem?_prune_completed (b : TicketBook) (now : Nat) (k : String) :
    (b.prune now).completed[k]? =
      b.completed[k]?.filter fun pairing => now < pairing.expiresAt := by
  simp [prune]

theorem Filed.prune (h : b.Filed sha256Hex) (now : Nat) : (b.prune now).Filed sha256Hex := by
  constructor
  · intro k r hr
    rw [getElem?_prune_requests] at hr
    exact h.requests k r (Option.filter_eq_some_iff.mp hr).1
  · exact h.flows
  · intro k p hp
    rw [getElem?_prune_pending] at hp
    exact h.sealed k p (Option.filter_eq_some_iff.mp hp).1

theorem Filed.file (h : b.Filed sha256Hex) (r : PendingPairingRequest) :
    (b.file r).Filed sha256Hex := by
  refine ⟨?_, h.flows, h.sealed⟩
  intro k r' hr
  simp only [TicketBook.file, Table.getElem?_insert_of] at hr
  split_ifs at hr with hk
  · rw [hk, ← Option.some.inj hr]
  · exact h.requests k r' hr

theorem Filed.settle (h : b.Filed sha256Hex) (completed : CompletedPairing) :
    (b.settle pairingId completed).Filed sha256Hex := by
  refine ⟨?_, h.flows, ?_⟩
  · intro k r hr
    simp only [TicketBook.settle, Table.getElem?_erase_of] at hr
    split_ifs at hr
    exact h.requests k r hr
  · intro k p hp
    simp only [TicketBook.settle, Table.getElem?_erase_of] at hp
    split_ifs at hp
    exact h.sealed k p hp

theorem Filed.step (h : b.Filed sha256Hex) (hstep : b.Step sha256Hex e b') :
    b'.Filed sha256Hex := by
  cases hstep with
  | idle => exact h
  | prune now => exact h.prune now
  | prepare now p hsealed =>
    refine ⟨(h.prune now).requests, h.flows, ?_⟩
    intro k p' hp
    rw [Table.getElem?_insert_of] at hp
    split_ifs at hp
    · rw [← Option.some.inj hp, hsealed]
    · exact (h.prune now).sealed k p' hp
  | register now r hticket hkey => exact (h.prune now).file r
  | claim now id r hr =>
    refine ⟨?_, ?_, (h.prune now).sealed⟩
    · intro k r' hr'
      rw [Table.getElem?_erase_of] at hr'
      split_ifs at hr'
      exact (h.prune now).requests k r' hr'
    · intro flow hflow
      rcases List.mem_append.mp hflow with hold | hnew
      · exact h.flows flow hold
      · rw [List.mem_singleton.mp hnew]
        exact (h.prune now).requests id r hr
  | restore i flow hflow => exact h.handBack
  | late i flow hflow hr => exact h.handBack.prune flow.now
  | approve i flow r completed deviceId hflow hr hkey =>
    exact (h.handBack.prune flow.now).settle completed
  | reject now id r completed hr hkey => exact (h.prune now).settle completed
  | deliver now id completed secret hc => exact h.prune now

structure KeysOn (b : TicketBook) (pairingId : String) (P : String → Prop) : Prop where
  request : ∀ r ∈ b.requests[pairingId]?, P r.deviceVerifyKey
  claimed : ∀ flow ∈ b.flows, flow.pairingId = pairingId → P flow.request.deviceVerifyKey
  completed : ∀ c ∈ b.completed[pairingId]?, P c.deviceVerifyKey

section keys
variable {P : String → Prop}

theorem KeysOn.prune (h : b.KeysOn pairingId P) (now : Nat) : (b.prune now).KeysOn pairingId P := by
  refine ⟨?_, h.claimed, ?_⟩
  · intro r hr
    rw [Option.mem_def, getElem?_prune_requests] at hr
    exact h.request r (Option.filter_eq_some_iff.mp hr).1
  · intro c hc
    rw [Option.mem_def, getElem?_prune_completed] at hc
    exact h.completed c (Option.filter_eq_some_iff.mp hc).1

theorem KeysOn.file (h : b.KeysOn pairingId P) {r : PendingPairingRequest}
    (hr : r.pairingId = pairingId → P r.deviceVerifyKey) : (b.file r).KeysOn pairingId P := by
  refine ⟨?_, h.claimed, h.completed⟩
  intro r' hr'
  simp only [TicketBook.file, Option.mem_def, Table.getElem?_insert_of] at hr'
  split_ifs at hr' with hid
  · rw [← Option.some.inj hr']
    exact hr hid.symm
  · exact h.request r' hr'

theorem KeysOn.settle (h : b.KeysOn pairingId P) {id : String} {completed : CompletedPairing}
    (hc : id = pairingId → P completed.deviceVerifyKey) :
    (b.settle id completed).KeysOn pairingId P := by
  refine ⟨?_, h.claimed, ?_⟩
  · intro r hr
    simp only [TicketBook.settle, Option.mem_def, Table.getElem?_erase_of] at hr
    split_ifs at hr
    exact h.request r hr
  · intro c hc'
    simp only [TicketBook.settle, Option.mem_def, Table.getElem?_insert_of] at hc'
    split_ifs at hc' with hid
    · rw [← Option.some.inj hc']
      exact hc hid.symm
    · exact h.completed c hc'

theorem KeysOn.handBack (hfiled : b.Filed sha256Hex) (h : b.KeysOn pairingId P) {i : Nat}
    {flow : ApprovalFlow} (hflow : b.flows[i]? = some flow) :
    (b.handBack i flow).KeysOn pairingId P := by
  have hmem := List.mem_of_getElem? hflow
  apply KeysOn.file
  · exact ⟨h.request, fun f hf => h.claimed f (List.mem_of_mem_eraseIdx hf), h.completed⟩
  · intro hid
    exact h.claimed flow hmem (by rw [← hfiled.flows flow hmem, hid])

/-- Only a registration brings a key the ticket has not seen, and only keys the ticket has
seen are approved or get the secret. -/
theorem KeysOn.step (hfiled : b.Filed sha256Hex) (h : b.KeysOn pairingId P)
    (hstep : b.Step sha256Hex e b')
    (hregister : ∀ key, e = some (.registered pairingId key) → P key) :
    b'.KeysOn pairingId P ∧ ∀ event ∈ e, ∀ key ∈ event.grantedKey pairingId, P key := by
  cases hstep with
  | idle => exact ⟨h, by simp⟩
  | prune now => exact ⟨h.prune now, by simp⟩
  | prepare now p hsealed =>
    exact ⟨⟨(h.prune now).request, h.claimed, (h.prune now).completed⟩,
      by simp [PairingEvent.grantedKey]⟩
  | register now r hticket hkey =>
    refine ⟨(h.prune now).file ?_, by simp [PairingEvent.grantedKey]⟩
    intro hid
    exact hregister r.deviceVerifyKey (by rw [hid])
  | claim now id r hr =>
    refine ⟨⟨?_, ?_, (h.prune now).completed⟩, by simp⟩
    · intro r' hr'
      rw [Option.mem_def, Table.getElem?_erase_of] at hr'
      split_ifs at hr'
      exact (h.prune now).request r' hr'
    · intro flow hflow hid
      rcases List.mem_append.mp hflow with hold | hnew
      · exact h.claimed flow hold hid
      · rw [List.mem_singleton] at hnew
        subst hnew hid
        exact (h.prune now).request r hr
  | restore i flow hflow => exact ⟨h.handBack hfiled hflow, by simp⟩
  | late i flow hflow hr => exact ⟨(h.handBack hfiled hflow).prune flow.now, by simp⟩
  | approve i flow r completed deviceId hflow hr hkey =>
    have hback := (h.handBack hfiled hflow).prune flow.now
    have hr' : flow.pairingId = pairingId → P r.deviceVerifyKey := by
      rintro rfl
      exact hback.request r hr
    refine ⟨hback.settle fun hid => hkey ▸ hr' hid, ?_⟩
    intro event hevent key hk
    obtain rfl := Option.some.inj hevent
    simp only [PairingEvent.grantedKey, Option.mem_def] at hk
    split_ifs at hk with hid
    rw [← Option.some.inj hk]
    exact hr' hid
  | reject now id r completed hr hkey =>
    refine ⟨(h.prune now).settle ?_, by simp⟩
    rintro rfl
    rw [hkey]
    exact (h.prune now).request r hr
  | deliver now id completed secret hc =>
    refine ⟨h.prune now, ?_⟩
    intro event hevent key hk
    obtain rfl := Option.some.inj hevent
    simp only [PairingEvent.grantedKey, Option.mem_def] at hk
    split_ifs at hk with hid
    subst hid
    rw [← Option.some.inj hk]
    exact (h.prune now).completed completed hc

theorem KeysOn.mono {Q : String → Prop} (h : b.KeysOn pairingId P) (hpq : ∀ key, P key → Q key) :
    b.KeysOn pairingId Q :=
  ⟨fun r hr => hpq _ (h.request r hr), fun flow hf hid => hpq _ (h.claimed flow hf hid),
    fun c hc => hpq _ (h.completed c hc)⟩

end keys

/-- A ticket that has seen a key still holds a request for it or has lent one out. -/
def Waiting (b : TicketBook) (pairingId : String) : Prop :=
  b.pending[pairingId]?.isSome →
    b.requests[pairingId]?.isSome ∨ ∃ flow ∈ b.flows, flow.pairingId = pairingId

theorem pending_of_prune {now : Nat} (h : (b.prune now).pending[pairingId]?.isSome) :
    b.pending[pairingId]?.isSome := by
  rw [getElem?_prune_pending] at h
  exact Option.isSome_of_isSome_filter _ _ h

theorem requests_prune {now : Nat} (h : (b.prune now).pending[pairingId]?.isSome) :
    (b.prune now).requests[pairingId]? = b.requests[pairingId]? := by
  rw [getElem?_prune_requests, ExtTreeMap.contains_eq_isSome_getElem?, h]
  cases b.requests[pairingId]? <;> rfl

theorem Waiting.prune (h : b.Waiting pairingId) (now : Nat) : (b.prune now).Waiting pairingId := by
  intro hp
  rw [requests_prune hp]
  exact h (pending_of_prune hp)

theorem Waiting.handBack (hfiled : b.Filed sha256Hex) (h : b.Waiting pairingId) {i : Nat}
    {flow : ApprovalFlow} (hflow : b.flows[i]? = some flow) :
    (b.handBack i flow).Waiting pairingId := by
  intro hp
  have hmem := List.mem_of_getElem? hflow
  simp only [TicketBook.handBack, file, Table.getElem?_insert_of]
  split_ifs with hid
  · exact .inl rfl
  · rcases h hp with hr | ⟨other, hother, hotherId⟩
    · exact .inl hr
    · refine .inr ⟨other, ?_, hotherId⟩
      rw [List.mem_eraseIdx_iff_getElem?]
      obtain ⟨j, hj⟩ := List.mem_iff_getElem?.mp hother
      refine ⟨j, ?_, hj⟩
      -- the flow that ended is filed under another ticket
      rintro rfl
      rw [hflow] at hj
      obtain rfl := Option.some.inj hj
      exact hid (by rw [hfiled.flows flow hmem, hotherId])

theorem Waiting.settle (h : b.Waiting pairingId) {id : String} (completed : CompletedPairing) :
    (b.settle id completed).Waiting pairingId := by
  intro hp
  simp only [TicketBook.settle, Table.getElem?_erase_of] at hp ⊢
  by_cases hid : pairingId = id
  · simp [hid] at hp
  · rw [if_neg hid] at hp ⊢
    exact h hp

theorem Waiting.step (hfiled : b.Filed sha256Hex) (h : b.Waiting pairingId)
    (hstep : b.Step sha256Hex e b') (hnew : e ≠ some (.prepared pairingId)) :
    b'.Waiting pairingId := by
  cases hstep with
  | idle => exact h
  | prune now => exact h.prune now
  | prepare now p hsealed =>
    intro hp
    rw [Table.getElem?_insert_of, if_neg (fun hid => hnew (by rw [hid]))] at hp
    exact h.prune now hp
  | register now r hticket hkey =>
    intro hp
    simp only [file, Table.getElem?_insert_of]
    split_ifs
    · exact .inl rfl
    · exact h.prune now hp
  | claim now id r hr =>
    intro hp
    by_cases hid : id = pairingId
    · exact .inr ⟨⟨id, r, now⟩, by simp, hid⟩
    · rw [Table.getElem?_erase_of, if_neg (Ne.symm hid)]
      rcases h.prune now hp with hreq | ⟨flow, hflow, hfid⟩
      · exact .inl hreq
      · exact .inr ⟨flow, List.mem_append_left _ hflow, hfid⟩
  | restore i flow hflow => exact h.handBack hfiled hflow
  | late i flow hflow hr => exact (h.handBack hfiled hflow).prune flow.now
  | approve i flow r completed deviceId hflow hr hkey =>
    exact ((h.handBack hfiled hflow).prune flow.now).settle completed
  | reject now id r completed hr hkey => exact (h.prune now).settle completed
  | deliver now id completed secret hc => exact h.prune now

/-- An accepted registration meets a pending ticket, agrees with the request that waits on
it and waits on it afterwards. -/
theorem registered_facts {key : String}
    (hstep : b.Step sha256Hex (some (.registered pairingId key)) b') :
    b.pending[pairingId]?.isSome ∧ (∀ old ∈ b.requests[pairingId]?, old.deviceVerifyKey = key) ∧
      b'.requests[pairingId]?.isSome := by
  cases hstep with
  | register now r hticket hkey =>
    refine ⟨pending_of_prune hticket, ?_, by simp [file]⟩
    rw [← requests_prune hticket]
    exact hkey

theorem gone_step (hgone : b.pending[pairingId]? = none)
    (hstep : b.Step sha256Hex e b') (hnew : e ≠ some (.prepared pairingId)) :
    b'.pending[pairingId]? = none ∧ ∀ event ∈ e, event.approves pairingId = false := by
  have hprune : ∀ (c : TicketBook) (now : Nat), c.pending[pairingId]? = none →
      (c.prune now).pending[pairingId]? = none := by
    intro c now hc
    simp [getElem?_prune_pending, hc]
  have hsettle : ∀ (c : TicketBook) (id : String) (completed : CompletedPairing),
      c.pending[pairingId]? = none → (c.settle id completed).pending[pairingId]? = none := by
    intro c id completed hc
    simp [settle, Table.getElem?_erase_of, hc]
  cases hstep with
  | idle => exact ⟨hgone, by simp⟩
  | prune now => exact ⟨hprune _ now hgone, by simp⟩
  | prepare now p hsealed =>
    refine ⟨?_, by simp [PairingEvent.approves]⟩
    rw [Table.getElem?_insert_of, if_neg (fun hid => hnew (by rw [hid]))]
    exact hprune _ now hgone
  | register now r hticket hkey => exact ⟨hprune _ now hgone, by simp [PairingEvent.approves]⟩
  | claim now id r hr => exact ⟨hprune _ now hgone, by simp⟩
  | restore i flow hflow => exact ⟨hgone, by simp⟩
  | late i flow hflow hr => exact ⟨hprune (b.handBack i flow) _ hgone, by simp⟩
  | approve i flow r completed deviceId hflow hr hkey =>
    refine ⟨hsettle _ _ _ (hprune (b.handBack i flow) _ hgone), ?_⟩
    intro event hevent
    obtain rfl := Option.some.inj hevent
    have hid : flow.pairingId ≠ pairingId := by
      rintro rfl
      rw [getElem?_prune_requests, Option.filter_eq_some_iff] at hr
      have hnone := hprune (b.handBack i flow) flow.now hgone
      simp [ExtTreeMap.contains_eq_isSome_getElem?, hnone] at hr
    simpa [PairingEvent.approves] using hid
  | reject now id r completed hr hkey => exact ⟨hsettle _ _ _ (hprune _ now hgone), by simp⟩
  | deliver now id completed secret hc =>
    exact ⟨hprune _ now hgone, by simp [PairingEvent.approves]⟩

theorem approved_gone {event : PairingEvent} (hstep : b.Step sha256Hex (some event) b')
    (happroves : event.approves pairingId = true) : b'.pending[pairingId]? = none := by
  cases hstep with
  | approve i flow r completed deviceId hflow hr hkey =>
    have hid : flow.pairingId = pairingId := by simpa [PairingEvent.approves] using happroves
    simp [settle, hid]
  | prepare now p hsealed => cases happroves
  | register now r hticket hkey => cases happroves
  | deliver now id completed secret hc => cases happroves

end TicketBook

/-- Once a key was registered on the ticket only that key is approved under it or gets the
payload secret, and one device at most is approved. -/
def OneKeyPerTicket (pairingId : String) (events : List PairingEvent) : Prop :=
  (events.Pairwise fun earlier later => ∀ key ∈ earlier.registeredKey pairingId,
    ∀ key' ∈ later.grantedKey pairingId, key' = key) ∧
  (events.filter (·.approves pairingId)).length ≤ 1

def PairingOp.registration : PairingOp → Option (Nat × String × String)
  | .register now pairingId _ _ _ deviceVerifyKey _ => some (now, pairingId, deviceVerifyKey)
  | _ => none

namespace PairingDesk

/-- A registration on the pending ticket, while its request is lent to an approval, comes
from the key of that request. -/
def RegistersClaimedKey (pairingId : String) (desk : PairingDesk) (op : PairingOp) : Prop :=
  ∀ reg ∈ op.registration, reg.2.1 = pairingId →
    (desk.surfaces.pruneExpiredPairings reg.1).pendingPairings.contains pairingId →
    desk.surfaces.pendingPairingRequests[pairingId]? = none →
      ∀ flow ∈ desk.flows, flow.pairingId = pairingId → flow.request.deviceVerifyKey = reg.2.2

variable {sha256Hex : String → String} {desk : PairingDesk} {pairingId : String}

theorem filed_opened (relay : RelayState) : (opened relay).book.Filed sha256Hex := by
  constructor
  · intro k r hr
    simp [book, opened] at hr
  · intro flow hflow
    cases hflow
  · intro k p hp
    simp [book, opened] at hp

theorem registration_of_event (hfiled : desk.book.Filed sha256Hex) {op : PairingOp} {key : String}
    (h : desk.event sha256Hex op = some (.registered pairingId key)) :
    ∃ now, op.registration = some (now, pairingId, key) ∧
      (desk.surfaces.pruneExpiredPairings now).pendingPairings.contains pairingId := by
  cases op with
  | register now id requestedDeviceId deviceLabel peerId deviceVerifyKey idToken =>
    simp only [event, registerPairingRequest] at h
    obtain ⟨error, heq⟩ | ⟨r, rfl, hticket, hold, hnew, -, heq⟩ :=
      desk.surfaces.register_cases now id requestedDeviceId deviceLabel peerId deviceVerifyKey
        idToken
    · rw [heq] at h
      cases h
    · rw [heq] at h
      simp only [Option.some.injEq, PairingEvent.registered.injEq] at h
      obtain ⟨rfl, rfl⟩ := h
      have hid : r.pairingId = id := by
        cases hr : (desk.surfaces.pruneExpiredPairings now).pendingPairingRequests[id]? with
        | none => exact hnew hr
        | some old => rw [(hold old hr).2, (hfiled.prune now).requests id old hr]
      subst hid
      exact ⟨now, rfl, by rwa [ExtTreeMap.contains_eq_isSome_getElem?]⟩
  | issued i credential grant idToken payloadSecret =>
    simp only [event, Option.bind_eq_some_iff] at h
    obtain ⟨flow, -, h⟩ := h
    split at h
    · simp at h
    · cases h
  | result now id deviceVerifyKey peerId =>
    simp only [event] at h
    split at h
    · simp at h
    · cases h
  | _ => cases h

theorem registered_key (hfiled : desk.book.Filed sha256Hex) {op : PairingOp} {key key' : String}
    (hkeys : desk.book.KeysOn pairingId (· = key)) (hwaiting : desk.book.Waiting pairingId)
    (hclaims : RegistersClaimedKey pairingId desk op)
    (h : desk.event sha256Hex op = some (.registered pairingId key')) : key' = key := by
  have hstep := step_book hfiled op
  rw [h] at hstep
  obtain ⟨hticket, hagrees, -⟩ := TicketBook.registered_facts hstep
  cases hr : desk.book.requests[pairingId]? with
  | some old => rw [← hagrees old hr, hkeys.request old hr]
  | none =>
    obtain ⟨now, hreg, hpending⟩ := registration_of_event hfiled h
    obtain hsome | ⟨flow, hflow, hid⟩ := hwaiting hticket
    · simp [hr] at hsome
    · rw [← hkeys.claimed flow hflow hid]
      exact (hclaims _ hreg rfl hpending hr flow hflow hid).symm

theorem events_of_bound (hfiled : desk.book.Filed sha256Hex) {key : String}
    (hkeys : desk.book.KeysOn pairingId (· = key)) (hwaiting : desk.book.Waiting pairingId)
    {ops : List PairingOp} (hnew : .prepared pairingId ∉ desk.events sha256Hex ops)
    (hclaims : Along (step sha256Hex) (RegistersClaimedKey pairingId) desk ops) :
    ∀ e ∈ desk.events sha256Hex ops, (∀ k ∈ e.registeredKey pairingId, k = key) ∧
      ∀ k ∈ e.grantedKey pairingId, k = key := by
  induction ops generalizing desk with
  | nil => simp [events]
  | cons op ops ih =>
    have hstep := step_book hfiled op
    have hregistered : ∀ k, desk.event sha256Hex op = some (.registered pairingId k) → k = key :=
      fun k hk => registered_key hfiled hkeys hwaiting hclaims.1 hk
    obtain ⟨hkeys', hgranted⟩ := hkeys.step hfiled hstep hregistered
    have hprepared : desk.event sha256Hex op ≠ some (.prepared pairingId) := by
      intro he
      exact hnew (by simp [events, he])
    intro e he
    rcases List.mem_append.mp he with hfirst | hrest
    · rw [Option.mem_toList] at hfirst
      refine ⟨?_, hgranted e hfirst⟩
      intro k hk
      exact hregistered k (by rw [hfirst, PairingEvent.mem_registeredKey.mp hk])
    · exact ih (hfiled.step hstep) hkeys' (hwaiting.step hfiled hstep hprepared)
        (fun h => hnew (List.mem_append_right _ h)) hclaims.2 e hrest

def SingleKey (pairingId : String) (events : List PairingEvent) : Prop :=
  ∃ key, ∀ e ∈ events, (∀ k ∈ e.registeredKey pairingId, k = key) ∧
    ∀ k ∈ e.grantedKey pairingId, k = key

theorem singleKey_of_fresh (hfiled : desk.book.Filed sha256Hex)
    (hfresh : desk.book.KeysOn pairingId fun _ => False) {ops : List PairingOp}
    (hnew : .prepared pairingId ∉ desk.events sha256Hex ops)
    (hclaims : Along (step sha256Hex) (RegistersClaimedKey pairingId) desk ops) :
    SingleKey pairingId (desk.events sha256Hex ops) := by
  induction ops generalizing desk with
  | nil => exact ⟨"", by simp [events]⟩
  | cons op ops ih =>
    have hstep := step_book hfiled op
    have hrest : .prepared pairingId ∉ (desk.step sha256Hex op).events sha256Hex ops :=
      fun h => hnew (List.mem_append_right _ h)
    by_cases hreg : ∃ key, desk.event sha256Hex op = some (.registered pairingId key)
    · obtain ⟨key, hkey⟩ := hreg
      refine ⟨key, ?_⟩
      have hbound : desk.book.KeysOn pairingId (· = key) := hfresh.mono fun _ h => h.elim
      obtain ⟨hkeys, -⟩ := hbound.step hfiled hstep fun k hk => by
        rw [hkey] at hk
        exact ((PairingEvent.registered.injEq ..).mp (Option.some.inj hk)).2.symm
      have hwaiting : (desk.step sha256Hex op).book.Waiting pairingId := by
        rw [hkey] at hstep
        exact fun _ => .inl (TicketBook.registered_facts hstep).2.2
      intro e he
      rcases List.mem_append.mp he with hfirst | hlater
      · rw [Option.mem_toList, hkey] at hfirst
        obtain rfl := Option.some.inj hfirst
        simp [PairingEvent.registeredKey, PairingEvent.grantedKey, eq_comm]
      · exact events_of_bound (hfiled.step hstep) hkeys hwaiting hrest hclaims.2 e hlater
    · obtain ⟨hkeys, hgranted⟩ := hfresh.step hfiled hstep fun key hkey => hreg ⟨key, hkey⟩
      obtain ⟨key, hkey⟩ := ih (hfiled.step hstep) hkeys hrest hclaims.2
      refine ⟨key, ?_⟩
      intro e he
      rcases List.mem_append.mp he with hfirst | hlater
      · rw [Option.mem_toList] at hfirst
        refine ⟨?_, fun k hk => (hgranted e hfirst k hk).elim⟩
        intro k hk
        exact (hreg ⟨k, by rw [hfirst, PairingEvent.mem_registeredKey.mp hk]⟩).elim
      · exact hkey e hlater

theorem no_approval_of_gone (hfiled : desk.book.Filed sha256Hex)
    (hgone : desk.book.pending[pairingId]? = none) {ops : List PairingOp}
    (hnew : .prepared pairingId ∉ desk.events sha256Hex ops) :
    ∀ e ∈ desk.events sha256Hex ops, e.approves pairingId = false := by
  induction ops generalizing desk with
  | nil => simp [events]
  | cons op ops ih =>
    have hstep := step_book hfiled op
    have hprepared : desk.event sha256Hex op ≠ some (.prepared pairingId) := by
      intro he
      exact hnew (by simp [events, he])
    obtain ⟨hgone', hnone⟩ := TicketBook.gone_step hgone hstep hprepared
    intro e he
    rcases List.mem_append.mp he with hfirst | hlater
    · exact hnone e (Option.mem_toList.mp hfirst)
    · exact ih (hfiled.step hstep) hgone' (fun h => hnew (List.mem_append_right _ h)) e hlater

theorem approvals_le_one (hfiled : desk.book.Filed sha256Hex) {ops : List PairingOp}
    (hnew : .prepared pairingId ∉ desk.events sha256Hex ops) :
    ((desk.events sha256Hex ops).filter (·.approves pairingId)).length ≤ 1 := by
  induction ops generalizing desk with
  | nil => simp [events]
  | cons op ops ih =>
    have hstep := step_book hfiled op
    have hrest : .prepared pairingId ∉ (desk.step sha256Hex op).events sha256Hex ops :=
      fun h => hnew (List.mem_append_right _ h)
    cases he : desk.event sha256Hex op with
    | none =>
      simp only [events, he, Option.toList_none, List.nil_append]
      exact ih (hfiled.step hstep) hrest
    | some e =>
      simp only [events, he, Option.toList_some, List.singleton_append]
      by_cases happroves : e.approves pairingId
      · rw [he] at hstep
        have hgone := TicketBook.approved_gone hstep happroves
        have hnone := no_approval_of_gone (hfiled.step hstep) hgone hrest
        rw [List.filter_cons_of_pos happroves, List.filter_eq_nil_iff.mpr]
        · simp
        · intro e' he'
          simp [hnone e' he']
      · rw [List.filter_cons_of_neg happroves]
        exact ih (hfiled.step hstep) hrest

/-- The same from before the ticket exists. -/
theorem singleKey_of_unprepared (hfiled : desk.book.Filed sha256Hex)
    (hfresh : desk.book.KeysOn pairingId fun _ => False)
    (hgone : desk.book.pending[pairingId]? = none) {ops : List PairingOp}
    (hunique : (desk.events sha256Hex ops).count (.prepared pairingId) ≤ 1)
    (hclaims : Along (step sha256Hex) (RegistersClaimedKey pairingId) desk ops) :
    SingleKey pairingId (desk.events sha256Hex ops) ∧
      ((desk.events sha256Hex ops).filter (·.approves pairingId)).length ≤ 1 := by
  induction ops generalizing desk with
  | nil => exact ⟨⟨"", by simp [events]⟩, by simp [events]⟩
  | cons op ops ih =>
    have hstep := step_book hfiled op
    have hunregistered : ∀ key, desk.event sha256Hex op ≠ some (.registered pairingId key) := by
      intro key hkey
      rw [hkey] at hstep
      have := (TicketBook.registered_facts hstep).1
      simp [hgone] at this
    obtain ⟨hkeys, hgranted⟩ := hfresh.step hfiled hstep fun key hkey => hunregistered key hkey
    by_cases hprepared : desk.event sha256Hex op = some (.prepared pairingId)
    · have hrest : .prepared pairingId ∉ (desk.step sha256Hex op).events sha256Hex ops := by
        rw [← List.count_pos_iff]
        simp only [events, hprepared, Option.toList_some, List.singleton_append,
          List.count_cons_self] at hunique
        omega
      obtain ⟨key, hkey⟩ := singleKey_of_fresh (hfiled.step hstep) hkeys hrest hclaims.2
      have happrovals := approvals_le_one (hfiled.step hstep) hrest
      simp only [events, hprepared, Option.toList_some, List.singleton_append]
      refine ⟨⟨key, ?_⟩, by simpa [PairingEvent.approves] using happrovals⟩
      intro e he
      rcases List.mem_cons.mp he with rfl | hlater
      · simp [PairingEvent.registeredKey, PairingEvent.grantedKey]
      · exact hkey e hlater
    · obtain ⟨hgone', hnone⟩ := TicketBook.gone_step hgone hstep hprepared
      have hcount : ((desk.step sha256Hex op).events sha256Hex ops).count (.prepared pairingId) ≤
          1 := by
        simp only [events, List.count_append] at hunique
        omega
      obtain ⟨⟨key, hkey⟩, happrovals⟩ := ih (hfiled.step hstep) hkeys hgone' hcount hclaims.2
      refine ⟨⟨key, ?_⟩, ?_⟩
      · intro e he
        rcases List.mem_append.mp he with hfirst | hlater
        · rw [Option.mem_toList] at hfirst
          refine ⟨?_, fun k hk => (hgranted e hfirst k hk).elim⟩
          intro k hk
          exact (hunregistered k (by rw [hfirst, PairingEvent.mem_registeredKey.mp hk])).elim
        · exact hkey e hlater
      · simp only [events, List.filter_append, List.length_append]
        have hfirst : (desk.event sha256Hex op).toList.filter (·.approves pairingId) = [] := by
          rw [List.filter_eq_nil_iff]
          intro e he
          simp [hnone e (Option.mem_toList.mp he)]
        rw [hfirst]
        simpa using happrovals

instance (pairingId : String) (events : List PairingEvent) :
    Decidable (OneKeyPerTicket pairingId events) := inferInstanceAs (Decidable (_ ∧ _))

instance (pairingId : String) (desk : PairingDesk) (op : PairingOp) :
    Decidable (RegistersClaimedKey pairingId desk op) :=
  inferInstanceAs (Decidable (∀ reg ∈ op.registration, _ → _ → _ → ∀ flow ∈ desk.flows, _))

/-- In every run of the desk in which a ticket's id is drawn once and no other key registers
on it while its request is lent to an approval, the ticket serves one key and one device. -/
theorem pairing_one_key_per_ticket (sha256Hex : String → String) (relay : RelayState)
    (pairingId : String) (ops : List PairingOp)
    (hunique : ((opened relay).events sha256Hex ops).count (.prepared pairingId) ≤ 1)
    (hclaims : Along (step sha256Hex) (RegistersClaimedKey pairingId) (opened relay) ops) :
    OneKeyPerTicket pairingId ((opened relay).events sha256Hex ops) := by
  have hfiled : (opened relay).book.Filed sha256Hex := filed_opened relay
  have hfresh : (opened relay).book.KeysOn pairingId fun _ => False := by
    constructor
    · intro r hr
      simp [book, opened] at hr
    · intro flow hflow
      cases hflow
    · intro c hc
      simp [book, opened] at hc
  obtain ⟨⟨key, hkey⟩, happrovals⟩ :=
    singleKey_of_unprepared hfiled hfresh (by simp [book, opened]) hunique hclaims
  refine ⟨?_, happrovals⟩
  apply List.pairwise_of_forall_mem_list
  intro earlier hearlier later hlater k hk k' hk'
  rw [(hkey earlier hearlier).1 k hk, (hkey later hlater).2 k' hk']

/-- One device retries over a second peer while the broker is asked, and comes back for the
result. -/
theorem pairing_one_key_per_ticket_retry :
    OneKeyPerTicket "pair-q" ((opened {}).events
      (fun _ => "08ccec45e2bd6dbda20a984af4d48f83dbf86b9994ca9fd45514e5be516110f9")
      [.prepare 100 none [] "q" "qr-secret",
        .register 101 "pair-q" (some "phone") none "peer-1" "key-1" "x",
        .approve 102 "pair-q",
        .register 103 "pair-q" (some "phone") none "peer-2" "key-1" "x",
        .issued 0 ⟨none, "join", none⟩ none "y" "payload",
        .result 104 "pair-q" "key-1" "peer-2"]) :=
  pairing_one_key_per_ticket _ _ _ _ (by decide +kernel) (by decide +kernel)

/-- While the first request is lent to an approval another device registers, is approved
by a second flow and gets the secret of the ticket. -/
theorem pairing_second_key_approved :
    ¬∀ (sha256Hex : String → String) (relay : RelayState) (pairingId : String)
      (ops : List PairingOp),
      ((opened relay).events sha256Hex ops).count (.prepared pairingId) ≤ 1 →
        OneKeyPerTicket pairingId ((opened relay).events sha256Hex ops) := by
  intro h
  refine absurd (h (fun _ => "08ccec45e2bd6dbda20a984af4d48f83dbf86b9994ca9fd45514e5be516110f9") {}
    "pair-q"
    [.prepare 100 none [] "q" "qr-secret",
      .register 101 "pair-q" (some "phone") none "peer-1" "key-1" "x",
      .approve 102 "pair-q",
      .register 103 "pair-q" (some "phone") none "peer-2" "key-2" "x",
      .approve 104 "pair-q",
      .issued 1 ⟨none, "join", none⟩ none "y" "payload"] ?_) ?_
  · decide +kernel
  · decide +kernel

end PairingDesk

end AgentRelay.Relay
