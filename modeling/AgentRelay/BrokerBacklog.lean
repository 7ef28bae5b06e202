import AgentRelay.StepRun
import Mathlib.Data.List.Basic
import Mathlib.Tactic
import Mathlib.Data.List.DropRight

/-! The messages that the relay queues for its broker publisher. The backlog of transcript deltas is
cut at every push; this is compared with a queue that is never cut. -/
namespace AgentRelay.BrokerBacklog

open StepRun

section dropping
variable {α : Type} (p : α → Bool)

/-- Drop so many of the elements with `p`, from the front. -/
def dropFirst : ℕ → List α → List α
  | _, [] => []
  | n, a :: as => if 0 < n ∧ p a then dropFirst (n - 1) as else a :: dropFirst n as

/-- Keep the last `n` elements with `p`, and all others. -/
def keepLast (n : ℕ) (l : List α) : List α := dropFirst p (l.countP p - n) l

variable {p}

@[simp] theorem dropFirst_zero (l : List α) : dropFirst p 0 l = l := by
  induction l with
  | nil => rfl
  | cons a as ih => simp [dropFirst, ih]

theorem dropFirst_sublist (n : ℕ) (l : List α) : (dropFirst p n l).Sublist l := by
  induction l generalizing n with
  | nil => exact List.Sublist.refl _
  | cons a as ih =>
    rw [dropFirst]
    split_ifs
    · exact (ih _).cons a
    · exact (ih _).cons_cons a

theorem filter_dropFirst (n : ℕ) (l : List α) :
    (dropFirst p n l).filter p = (l.filter p).drop n := by
  induction l generalizing n with
  | nil => simp [dropFirst]
  | cons a as ih =>
    rw [dropFirst]
    by_cases ha : p a
    · cases n with
      | zero => simp [ha]
      | succ n => simp [ha, ih]
    · simp [ha, ih]

theorem filter_not_dropFirst (n : ℕ) (l : List α) :
    (dropFirst p n l).filter (!p ·) = l.filter (!p ·) := by
  induction l generalizing n with
  | nil => rfl
  | cons a as ih =>
    rw [dropFirst]
    split_ifs with h
    · simp [h.2, ih]
    · simp only [List.filter_cons, ih]

theorem countP_dropFirst (n : ℕ) (l : List α) :
    (dropFirst p n l).countP p = l.countP p - n := by
  rw [List.countP_eq_length_filter, List.countP_eq_length_filter, filter_dropFirst,
    List.length_drop]

theorem dropFirst_append {n : ℕ} {l : List α} (h : n ≤ l.countP p) (more : List α) :
    dropFirst p n (l ++ more) = dropFirst p n l ++ more := by
  induction l generalizing n with
  | nil =>
    obtain rfl : n = 0 := by simpa using h
    simp [dropFirst]
  | cons a as ih =>
    rw [List.cons_append, dropFirst, dropFirst]
    by_cases ha : p a
    · rw [List.countP_cons_of_pos ha] at h
      split_ifs with hn
      · exact ih (by omega)
      · rw [ih (by simp only [ha, and_true] at hn; omega), List.cons_append]
    · rw [List.countP_cons_of_neg ha] at h
      simp only [ha, and_false, Bool.false_eq_true, if_false, ih h, List.cons_append]

theorem dropFirst_dropFirst (m n : ℕ) (l : List α) :
    dropFirst p m (dropFirst p n l) = dropFirst p (n + m) l := by
  induction l generalizing n with
  | nil => rfl
  | cons a as ih =>
    by_cases ha : p a
    · cases n with
      | zero => simp
      | succ n =>
        have hleft : dropFirst p (n + 1) (a :: as) = dropFirst p n as := by simp [dropFirst, ha]
        have hright : dropFirst p (n + 1 + m) (a :: as) = dropFirst p (n + m) as := by
          rw [dropFirst, if_pos ⟨by omega, ha⟩]
          congr 1
          omega
        rw [hleft, hright, ih]
    · have hskip : ∀ k l, dropFirst p k (a :: l) = a :: dropFirst p k l := by
        simp [dropFirst, ha]
      rw [hskip, hskip, hskip, ih]

/-- What was cut before more is added need not be kept for the next cut. -/
theorem keepLast_append (n : ℕ) (l more : List α) :
    keepLast p n (keepLast p n l ++ more) = keepLast p n (l ++ more) := by
  have hcut : keepLast p n l ++ more = dropFirst p (l.countP p - n) (l ++ more) :=
    (dropFirst_append (Nat.sub_le _ _) more).symm
  rw [keepLast, hcut, dropFirst_dropFirst, countP_dropFirst, List.countP_append, keepLast,
    List.countP_append]
  congr 1
  omega

end dropping

section queue
variable {Delta Result : Type}

inductive BrokerPendingMessage (Delta Result : Type)
  | pairingResult (result : Result)
  | transcriptDelta (delta : Delta)

def BrokerPendingMessage.isTranscriptDelta : BrokerPendingMessage Delta Result → Bool
  | transcriptDelta _ => true
  | pairingResult _ => false

def maxPendingDeltas : ℕ := 4096

structure Queues (Delta Result : Type) where
  brokerConfigured : Bool := false
  pendingBrokerMessages : List (BrokerPendingMessage Delta Result) := []
  localDeltas : List Delta := []

namespace Queues

def boundPendingTranscriptDeltas (q : Queues Delta Result) : Queues Delta Result :=
  let deltaCount := q.pendingBrokerMessages.countP (·.isTranscriptDelta)
  if deltaCount < maxPendingDeltas then q
  else
    let toDrop := deltaCount - maxPendingDeltas
    if toDrop = 0 then q
    else
      { q with pendingBrokerMessages :=
          dropFirst (·.isTranscriptDelta) toDrop q.pendingBrokerMessages }

def emitLocalTranscriptDelta (q : Queues Delta Result) (delta : Delta) : Queues Delta Result :=
  { q with localDeltas := q.localDeltas ++ [delta] }

/-- The queueing of a message, with the cut at its end as a parameter. -/
def queueWith (bound : Queues Delta Result → Queues Delta Result) (q : Queues Delta Result)
    (message : BrokerPendingMessage Delta Result) : Queues Delta Result :=
  let push (q : Queues Delta Result) :=
    bound { q with pendingBrokerMessages := q.pendingBrokerMessages ++ [message] }
  match message with
  | .transcriptDelta delta =>
    let q := q.emitLocalTranscriptDelta delta
    if !q.brokerConfigured then q else push q
  | .pairingResult _ => push q

def queueBrokerMessage : Queues Delta Result → BrokerPendingMessage Delta Result →
    Queues Delta Result :=
  queueWith boundPendingTranscriptDeltas

def drainPendingBrokerMessages (q : Queues Delta Result) :
    Queues Delta Result × List (BrokerPendingMessage Delta Result) :=
  ({ q with pendingBrokerMessages := [] }, q.pendingBrokerMessages)

inductive Op (Delta Result : Type)
  | queue (message : BrokerPendingMessage Delta Result)
  | drain
  | markBrokerConfigured

def step (bound : Queues Delta Result → Queues Delta Result) (q : Queues Delta Result) :
    Op Delta Result → Queues Delta Result
  | .queue message => q.queueWith bound message
  | .drain => q.drainPendingBrokerMessages.1
  | .markBrokerConfigured => { q with brokerConfigured := true }

/-- What the queue keeps of one that was never cut. -/
def cut (q : Queues Delta Result) : Queues Delta Result :=
  { q with pendingBrokerMessages :=
      keepLast (·.isTranscriptDelta) maxPendingDeltas q.pendingBrokerMessages }

theorem boundPendingTranscriptDeltas_eq (q : Queues Delta Result) :
    q.boundPendingTranscriptDeltas = q.cut := by
  unfold boundPendingTranscriptDeltas cut keepLast
  dsimp only
  split_ifs with hroom hzero
  · rw [Nat.sub_eq_zero_of_le hroom.le, dropFirst_zero]
  · rw [hzero, dropFirst_zero]
  · rfl

theorem step_cut (q : Queues Delta Result) (op : Op Delta Result) :
    step boundPendingTranscriptDeltas q.cut op = (step id q op).cut := by
  have hpush : ∀ q : Queues Delta Result, ∀ message,
      (⟨q.brokerConfigured, q.cut.pendingBrokerMessages ++ [message], q.localDeltas⟩ :
        Queues Delta Result).boundPendingTranscriptDeltas =
      (⟨q.brokerConfigured, q.pendingBrokerMessages ++ [message], q.localDeltas⟩ :
        Queues Delta Result).cut := by
    intro q message
    rw [boundPendingTranscriptDeltas_eq]
    simp only [cut, keepLast_append]
  cases op with
  | queue message =>
    cases message with
    | pairingResult result => exact hpush q _
    | transcriptDelta delta =>
      cases hconfigured : q.brokerConfigured with
      | false => simp [step, queueWith, emitLocalTranscriptDelta, cut, hconfigured]
      | true =>
        have := hpush (q.emitLocalTranscriptDelta delta) (.transcriptDelta delta)
        simpa [step, queueWith, emitLocalTranscriptDelta, cut, hconfigured] using this
  | drain => rfl
  | markBrokerConfigured => rfl

/-- The queue of every run is the cut of the queue that is never cut: all pairing results, and the
last deltas of those that came since it was drained. The local subscribers get the same deltas. -/
theorem backlog_run (ops : List (Op Delta Result)) :
    let q := run (step boundPendingTranscriptDeltas) {} ops
    let whole := run (step id) {} ops
    q.localDeltas = whole.localDeltas ∧ q.pendingBrokerMessages.Sublist whole.pendingBrokerMessages ∧
      q.pendingBrokerMessages.filter (!·.isTranscriptDelta) =
        whole.pendingBrokerMessages.filter (!·.isTranscriptDelta) ∧
      q.pendingBrokerMessages.filter (·.isTranscriptDelta) =
        (whole.pendingBrokerMessages.filter (·.isTranscriptDelta)).rtake maxPendingDeltas := by
  have hcut : ∀ ops : List (Op Delta Result), ∀ q : Queues Delta Result,
      run (step boundPendingTranscriptDeltas) q.cut ops = (run (step id) q ops).cut := by
    intro ops
    induction ops with
    | nil => exact fun q => rfl
    | cons op ops ih => exact fun q => by rw [run_cons, run_cons, step_cut, ih]
  have := hcut ops {}
  rw [show cut {} = ({} : Queues Delta Result) from rfl] at this
  dsimp only
  rw [this]
  refine ⟨rfl, dropFirst_sublist _ _, filter_not_dropFirst _ _, ?_⟩
  simp only [cut, keepLast, filter_dropFirst, List.rtake, List.countP_eq_length_filter]

end Queues

end queue

end AgentRelay.BrokerBacklog
