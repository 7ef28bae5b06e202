import AgentRelay.BrokerWriter
import Mathlib.Data.List.Chain
import Mathlib.Data.List.Infix

/-! Chunk trains on a socket: the order they are taken and written in, and what one action
on them keeps. The loop and its queues of other frames play no part here. -/
namespace AgentRelay.Broker

variable {α : Type}

def chunkTrain (e : Nat × Sent α) : Option Nat :=
  match e.2 with
  | .chunk train _ => some train
  | _ => none

def chunkOf (train : Nat) (e : Nat × Sent α) : Option (Nat × α) :=
  match e.2 with
  | .chunk i message => if i = train then some (e.1, message) else none
  | _ => none

def nowFrame (e : Nat × Sent α) : Option α :=
  match e.2 with
  | .now message => some message
  | _ => none

def trainIds (socket : List (Nat × Sent α)) : List Nat := socket.filterMap chunkTrain

def trackOf (socket : List (Nat × Sent α)) (train : Nat) : List (Nat × α) :=
  socket.filterMap (chunkOf train)

def nowLog (socket : List (Nat × Sent α)) : List α := socket.filterMap nowFrame

structure Trains (α : Type) where
  submitted : List (TrainFrame α)
  taken : List (TrainFrame α)
  queued : List (TrainFrame α)
  socket : List (Nat × Sent α)
  departed : List (Nat × String)
  clock : Nat
  interval : Nat
  watchTarget : Option String
  /-- What is left of the train in hand, the chunk being written included. -/
  pending : List α
  outcome : Option Outcome

namespace Trains

def current (c : Trains α) : Nat := c.taken.length - 1

def track (c : Trains α) (i : Nat) : List (Nat × α) := trackOf c.socket i

/-- The task ended before its queues did: a write failed, or the session went away. -/
def CutShort (c : Trains α) : Prop :=
  c.outcome = some .aborted ∨ ∃ error, c.outcome = some (.failed error)

def SeenOffline (c : Trains α) (i : Nat) (frame : TrainFrame α) : Prop :=
  ∃ peerId, frame.watchTarget = some peerId ∧ (i, peerId) ∈ c.departed

structure Resident (c : Trains α) (frame : TrainFrame α) : Prop where
  last : c.taken.getLast? = some frame
  rest : (c.track c.current).map (·.2) ++ c.pending = frame.chunks
  interval : c.interval = frame.interval
  watch : c.watchTarget = frame.watchTarget

def LastBefore (c : Trains α) (time : Nat) : Prop :=
  ∀ e, (c.track c.current).getLast? = some e → e.1 + c.interval ≤ time

structure Inv (c : Trains α) : Prop where
  submitted_eq : c.submitted = c.taken ++ c.queued
  nonempty : ∀ frame ∈ c.submitted, frame.chunks ≠ []
  ids_lt : ∀ i ∈ trainIds c.socket, i < c.taken.length
  ids_ordered : (trainIds c.socket).Pairwise (· ≤ ·)
  times : ∀ i, ∀ e ∈ c.track i, e.1 ≤ c.clock
  paced : ∀ i frame, c.taken[i]? = some frame →
    ((c.track i).map (·.1)).IsChain (fun a b => a + frame.interval ≤ b)
  sent : ∀ i frame, c.taken[i]? = some frame →
    (c.track i).map (·.2) <+: frame.chunks ∧
      ((c.track i).map (·.2) = frame.chunks ∨ c.SeenOffline i frame ∨ c.CutShort ∨
        (i + 1 = c.taken.length ∧ c.pending ≠ [] ∧ c.outcome = none))
  resident : c.outcome = none → c.pending ≠ [] → ∃ frame, c.Resident frame

theorem trackOf_eq_nil {socket : List (Nat × Sent α)} {i : Nat} (h : i ∉ trainIds socket) :
    trackOf socket i = [] := by
  rw [trackOf, List.filterMap_eq_nil_iff]
  intro e he
  rw [trainIds, List.mem_filterMap] at h
  unfold chunkOf
  split
  case h_1 j message hj =>
    refine if_neg fun hji => h ⟨e, he, ?_⟩
    simp [chunkTrain, hj, hji]
  case h_2 => rfl

theorem Inv.tick {c : Trains α} (h : c.Inv) (n : Nat) : Inv { c with clock := c.clock + n } where
  submitted_eq := h.submitted_eq
  nonempty := h.nonempty
  ids_lt := h.ids_lt
  ids_ordered := h.ids_ordered
  times := fun i e he => (h.times i e he).trans (Nat.le_add_right _ _)
  paced := h.paced
  sent := h.sent
  resident := fun hrun hp => by
    obtain ⟨frame, hr⟩ := h.resident hrun hp
    exact ⟨frame, hr.last, hr.rest, hr.interval, hr.watch⟩

theorem Inv.submit {c : Trains α} (h : c.Inv) {frame : TrainFrame α} (hne : frame.chunks ≠ []) :
    Inv { c with submitted := c.submitted ++ [frame], queued := c.queued ++ [frame] } where
  submitted_eq := by
    dsimp only
    rw [h.submitted_eq, List.append_assoc]
  nonempty := by
    intro f hf
    rcases List.mem_append.mp hf with hf | hf
    · exact h.nonempty f hf
    · rw [List.mem_singleton.mp hf]
      exact hne
  ids_lt := h.ids_lt
  ids_ordered := h.ids_ordered
  times := h.times
  paced := h.paced
  sent := h.sent
  resident := fun hrun hp => by
    obtain ⟨frame, hr⟩ := h.resident hrun hp
    exact ⟨frame, hr.last, hr.rest, hr.interval, hr.watch⟩

theorem getElem?_concat_cases {β : Type} {l : List β} {x y : β} {i : Nat}
    (h : (l ++ [x])[i]? = some y) : l[i]? = some y ∨ (i = l.length ∧ y = x) := by
  rw [List.getElem?_append] at h
  split_ifs at h with hi
  · exact Or.inl h
  · rw [List.getElem?_singleton] at h
    split_ifs at h with h0
    exact Or.inr ⟨by omega, (Option.some.inj h).symm⟩

theorem Inv.accept {c : Trains α} (h : c.Inv) {frame : TrainFrame α} {rest : List (TrainFrame α)}
    (hqueued : c.queued = frame :: rest) (hpending : c.pending = []) (hrun : c.outcome = none) :
    Inv { c with
      taken := c.taken ++ [frame], queued := rest, interval := frame.interval
      watchTarget := frame.watchTarget, pending := frame.chunks } := by
  have hnew : c.track c.taken.length = [] :=
    trackOf_eq_nil fun hmem => (h.ids_lt _ hmem).false
  have hne : frame.chunks ≠ [] := by
    refine h.nonempty frame ?_
    rw [h.submitted_eq, hqueued]
    simp
  refine ⟨?_, h.nonempty, ?_, h.ids_ordered, h.times, ?_, ?_, ?_⟩
  · dsimp only
    rw [h.submitted_eq, hqueued]
    simp
  · intro i hi
    dsimp only
    rw [List.length_append]
    exact (h.ids_lt i hi).trans (Nat.lt_succ_self _)
  · intro i f hf
    rcases getElem?_concat_cases hf with hf | ⟨rfl, rfl⟩
    · exact h.paced i f hf
    · change ((c.track c.taken.length).map (·.1)).IsChain _
      rw [hnew]
      exact List.isChain_nil
  · intro i f hf
    rcases getElem?_concat_cases hf with hf | ⟨rfl, rfl⟩
    · obtain ⟨hpre, hwhy⟩ := h.sent i f hf
      refine ⟨hpre, ?_⟩
      rcases hwhy with hall | hoff | hcut | ⟨-, hp, -⟩
      · exact Or.inl hall
      · exact Or.inr (Or.inl hoff)
      · exact Or.inr (Or.inr (Or.inl hcut))
      · exact absurd hpending hp
    · change (c.track c.taken.length).map (·.2) <+: _ ∧ _
      rw [hnew]
      refine ⟨List.nil_prefix, Or.inr (Or.inr (Or.inr ⟨?_, hne, hrun⟩))⟩
      simp
  · intro _ _
    refine ⟨frame, by simp, ?_, rfl, rfl⟩
    have hcur : Trains.current { c with
      taken := c.taken ++ [frame], queued := rest, interval := frame.interval
      watchTarget := frame.watchTarget, pending := frame.chunks } = c.taken.length := by
      simp [current]
    rw [hcur]
    change (c.track c.taken.length).map (·.2) ++ frame.chunks = frame.chunks
    rw [hnew]
    rfl

theorem current_lt {c : Trains α} {frame : TrainFrame α} (h : c.taken.getLast? = some frame) :
    c.current < c.taken.length ∧ c.taken[c.current]? = some frame := by
  have hne : c.taken ≠ [] := by
    intro hnil
    simp [hnil] at h
  have hpos := List.length_pos_of_ne_nil hne
  refine ⟨by unfold current; omega, ?_⟩
  rw [current, ← List.getLast?_eq_getElem?]
  exact h

/-- Dropping the train in hand because its surface was seen offline. -/
theorem Inv.depart {c : Trains α} (h : c.Inv) (hrun : c.outcome = none) (hpending : c.pending ≠ [])
    {peerId : String} (hwatch : c.watchTarget = some peerId) :
    Inv { c with
      departed := c.departed ++ [(c.current, peerId)], watchTarget := none, pending := [] } := by
  obtain ⟨frame, hr⟩ := h.resident hrun hpending
  obtain ⟨hlt, hget⟩ := current_lt hr.last
  refine ⟨h.submitted_eq, h.nonempty, h.ids_lt, h.ids_ordered, h.times, h.paced, ?_, ?_⟩
  · intro i f hf
    obtain ⟨hpre, hwhy⟩ := h.sent i f hf
    refine ⟨hpre, ?_⟩
    rcases hwhy with hall | ⟨p, hp, hmem⟩ | hcut | ⟨hi, -, -⟩
    · exact Or.inl hall
    · exact Or.inr (Or.inl ⟨p, hp, List.mem_append_left _ hmem⟩)
    · exact Or.inr (Or.inr (Or.inl hcut))
    · obtain rfl : i = c.current := by unfold current; omega
      obtain rfl : frame = f := Option.some.inj (hget.symm.trans hf)
      refine Or.inr (Or.inl ⟨peerId, hr.watch.symm.trans hwatch, ?_⟩)
      exact List.mem_append_right _ (List.mem_singleton.mpr rfl)
  · intro _ hp
    exact absurd rfl hp

theorem trackOf_write_other (socket : List (Nat × Sent α)) (time : Nat) {frame : Sent α}
    (hframe : ∀ i message, frame ≠ .chunk i message) (i : Nat) :
    trackOf (socket ++ [(time, frame)]) i = trackOf socket i := by
  cases frame with
  | chunk j m => exact absurd rfl (hframe j m)
  | ping m => simp [trackOf, chunkOf]
  | now m => simp [trackOf, chunkOf]

theorem Inv.write_other {c : Trains α} (h : c.Inv) {frame : Sent α}
    (hframe : ∀ i message, frame ≠ .chunk i message) :
    Inv { c with socket := c.socket ++ [(c.clock, frame)] } := by
  have htrack : ∀ i, trackOf (c.socket ++ [(c.clock, frame)]) i = c.track i :=
    trackOf_write_other c.socket c.clock hframe
  have hids : trainIds (c.socket ++ [(c.clock, frame)]) = trainIds c.socket := by
    cases frame with
    | chunk j m => exact absurd rfl (hframe j m)
    | ping m => simp [trainIds, chunkTrain]
    | now m => simp [trainIds, chunkTrain]
  refine ⟨h.submitted_eq, h.nonempty, ?_, ?_, ?_, ?_, ?_, ?_⟩
  · exact hids ▸ h.ids_lt
  · exact hids ▸ h.ids_ordered
  · intro i e he
    exact h.times i e (htrack i ▸ he)
  · intro i f hf
    rw [track, htrack]
    exact h.paced i f hf
  · intro i f hf
    change (trackOf _ i).map (·.2) <+: _ ∧ ((trackOf _ i).map (·.2) = _ ∨ _)
    rw [htrack]
    exact h.sent i f hf
  · intro hrun hp
    obtain ⟨f, hr⟩ := h.resident hrun hp
    refine ⟨f, hr.last, ?_, hr.interval, hr.watch⟩
    change (trackOf _ _).map (·.2) ++ _ = _
    rw [htrack]
    exact hr.rest

/-- Writing the next chunk of the train in hand, once it is due. -/
theorem Inv.emit {c : Trains α} (h : c.Inv) (hrun : c.outcome = none) {message : α}
    {rest : List α} (hpending : c.pending = message :: rest) (hdue : c.LastBefore c.clock) :
    Inv { c with socket := c.socket ++ [(c.clock, .chunk c.current message)], pending := rest } := by
  obtain ⟨frame, hr⟩ := h.resident hrun (by simp [hpending])
  obtain ⟨hlt, hget⟩ := current_lt hr.last
  have hself : trackOf (c.socket ++ [(c.clock, .chunk c.current message)]) c.current =
      c.track c.current ++ [(c.clock, message)] := by
    simp [trackOf, track, chunkOf]
  have hother : ∀ i, i ≠ c.current →
      trackOf (c.socket ++ [(c.clock, .chunk c.current message)]) i = c.track i := by
    intro i hi
    simp [trackOf, track, chunkOf, Ne.symm hi]
  have hids : trainIds (c.socket ++ [(c.clock, .chunk c.current message)]) =
      trainIds c.socket ++ [c.current] := by
    simp [trainIds, chunkTrain]
  have hjoin : (c.track c.current).map (·.2) ++ [message] ++ rest = frame.chunks := by
    rw [List.append_assoc, List.singleton_append, ← hpending]
    exact hr.rest
  refine ⟨h.submitted_eq, h.nonempty, ?_, ?_, ?_, ?_, ?_, ?_⟩
  · intro i hi
    rw [hids, List.mem_append, List.mem_singleton] at hi
    rcases hi with hi | rfl
    · exact h.ids_lt i hi
    · exact hlt
  · rw [hids, List.pairwise_append]
    refine ⟨h.ids_ordered, List.pairwise_singleton _ _, ?_⟩
    intro i hi j hj
    rw [List.mem_singleton.mp hj]
    have hi' := h.ids_lt i hi
    unfold current
    omega
  · intro i e he
    by_cases hi : i = c.current
    · subst hi
      rw [track, hself, List.mem_append, List.mem_singleton] at he
      rcases he with he | rfl
      · exact h.times _ e he
      · exact le_rfl
    · rw [track, hother i hi] at he
      exact h.times i e he
  · intro i f hf
    by_cases hi : i = c.current
    · subst hi
      obtain rfl : frame = f := Option.some.inj (hget.symm.trans hf)
      rw [track, hself, List.map_append, List.isChain_append]
      refine ⟨h.paced _ frame hf, List.isChain_singleton _, ?_⟩
      intro a ha b hb
      rw [List.getLast?_map, Option.mem_def, Option.map_eq_some_iff] at ha
      obtain ⟨e, he, rfl⟩ := ha
      obtain rfl : c.clock = b := by simpa using hb
      exact hr.interval ▸ hdue e he
    · rw [track, hother i hi]
      exact h.paced i f hf
  · intro i f hf
    by_cases hi : i = c.current
    · subst hi
      obtain rfl : frame = f := Option.some.inj (hget.symm.trans hf)
      rw [track, hself, List.map_append]
      refine ⟨⟨rest, hjoin⟩, ?_⟩
      by_cases hrest : rest = []
      · rw [hrest, List.append_nil] at hjoin
        exact Or.inl hjoin
      · refine Or.inr (Or.inr (Or.inr ⟨?_, hrest, hrun⟩))
        dsimp only
        unfold current
        omega
    · rw [track, hother i hi]
      obtain ⟨hpre, hwhy⟩ := h.sent i f hf
      refine ⟨hpre, ?_⟩
      rcases hwhy with hall | hoff | hcut | ⟨hi', -, -⟩
      · exact Or.inl hall
      · exact Or.inr (Or.inl hoff)
      · exact Or.inr (Or.inr (Or.inl hcut))
      · exact absurd (by unfold current; omega) hi
  · intro _ _
    refine ⟨frame, hr.last, ?_, hr.interval, hr.watch⟩
    change (trackOf _ c.current).map (·.2) ++ rest = _
    rw [hself, List.map_append]
    exact hjoin

/-- The task ends early; what was in hand is lost. -/
theorem Inv.halt {c : Trains α} (h : c.Inv) (pending : List α) {outcome : Outcome}
    (hcut : CutShort { c with pending := pending, outcome := some outcome }) :
    Inv { c with pending := pending, outcome := some outcome } where
  submitted_eq := h.submitted_eq
  nonempty := h.nonempty
  ids_lt := h.ids_lt
  ids_ordered := h.ids_ordered
  times := h.times
  paced := h.paced
  sent := fun i f hf => ⟨(h.sent i f hf).1, Or.inr (Or.inr (Or.inl hcut))⟩
  resident := fun hrun => by cases hrun

theorem Inv.finish {c : Trains α} (h : c.Inv) (hrun : c.outcome = none) (hpending : c.pending = []) :
    Inv { c with outcome := some .ok } where
  submitted_eq := h.submitted_eq
  nonempty := h.nonempty
  ids_lt := h.ids_lt
  ids_ordered := h.ids_ordered
  times := h.times
  paced := h.paced
  sent := by
    intro i f hf
    obtain ⟨hpre, hwhy⟩ := h.sent i f hf
    refine ⟨hpre, ?_⟩
    rcases hwhy with hall | hoff | hcut | ⟨-, hp, -⟩
    · exact Or.inl hall
    · exact Or.inr (Or.inl hoff)
    · simp [CutShort, hrun] at hcut
    · exact absurd hpending hp
  resident := fun hrun => by cases hrun

end Trains

end AgentRelay.Broker
