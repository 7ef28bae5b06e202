import Mathlib.Tactic
import AgentRelay.StepRun
import AgentRelay.WriterInvariant

/-! What reaches the broker socket: trains one after another, each in order and paced,
cut short only for a surface seen offline, and ordinary frames in the order they were
queued. -/
namespace AgentRelay.Broker.Writer
open StepRun

variable {α : Type}

/-- A writer with nothing queued, in a room of which it knows this much. -/
def new (online : String → Bool) : Writer α := { online := online }

theorem reached_new (online : String → Bool) : (new online : Writer α).Reached where
  view :=
    { submitted_eq := rfl
      nonempty := nofun
      ids_lt := nofun
      ids_ordered := List.Pairwise.nil
      times := nofun
      paced := nofun
      sent := nofun
      resident := fun _ hne => absurd rfl hne }
  pc := ⟨by simp [new], nofun⟩
  now := ⟨nofun, nofun, fun _ => rfl, List.prefix_rfl, nofun⟩
  failed := nofun

def after (online : String → Bool) (events : List (WriterEvent α)) : Writer α :=
  run step (new online) events

theorem reached_after (online : String → Bool) (events : List (WriterEvent α)) :
    (after online events).Reached :=
  run_of_step (I := Reached) (fun _ e h => reached_step h e) (reached_new online) events

/-- A chunk of train `i` was due and its surface was found offline. -/
def SeenOffline (online : String → Bool) (events : List (WriterEvent α)) (i : Nat)
    (peerId : String) : Prop :=
  ∃ earlier later, events = earlier ++ .drive :: later ∧
    (after online earlier).pc = .presence peerId ∧
    (after online earlier).online peerId = false ∧
    (after online earlier).taken.length = i + 1

theorem Drives.departed {s t : Writer α} (hd : Drives s t) :
    t.departed = s.departed ∨
    ∃ peerId, s.pc = .presence peerId ∧ s.online peerId = false ∧
      t.departed = s.departed ++ [(s.taken.length - 1, peerId)] := by
  cases hd with
  | @depart peerId hp hoff => exact Or.inr ⟨peerId, hp, hoff, rfl⟩
  | _ => exact Or.inl rfl

theorem step_logs {s : Writer α} {e : WriterEvent α} (he : e ≠ .drive) :
    (s.step e).departed = s.departed ∧ (s.step e).socket = s.socket := by
  cases e with
  | drive => exact absurd rfl he
  | _ =>
    constructor
    all_goals
      simp only [step, sendPing, sendNow, sendTrain]
      repeat' split
      all_goals rfl

theorem step_pc {s : Writer α} {e : WriterEvent α} (he : e ≠ .drive) (ha : e ≠ .abort) :
    (s.step e).pc = s.pc := by
  cases e with
  | drive => exact absurd rfl he
  | abort => exact absurd rfl ha
  | _ =>
    simp only [step, sendPing, sendNow, sendTrain]
    repeat' split
    all_goals rfl

theorem departed_step {s : Writer α} {e : WriterEvent α} {entry : Nat × String}
    (hbefore : entry ∉ s.departed) (hafter : entry ∈ (s.step e).departed) :
    e = .drive ∧ s.pc = .presence entry.2 ∧ s.online entry.2 = false ∧
      entry.1 = s.taken.length - 1 := by
  cases e with
  | drive =>
    change entry ∈ s.drive.departed at hafter
    rcases s.drives.departed with hsame | ⟨peerId, hpc, hoff, hnew⟩
    · rw [hsame] at hafter
      exact absurd hafter hbefore
    · rw [hnew, List.mem_append, List.mem_singleton] at hafter
      rcases hafter with hold | rfl
      · exact absurd hold hbefore
      · exact ⟨rfl, hpc, hoff, rfl⟩
  | _ =>
    rw [(step_logs (by simp)).1] at hafter
    exact absurd hafter hbefore

theorem aborted_step {s : Writer α} {e : WriterEvent α}
    (hbefore : outcomeOf s.pc ≠ some .aborted) (hafter : outcomeOf (s.step e).pc = some .aborted) :
    e = .abort := by
  cases e with
  | abort => rfl
  | drive =>
    change outcomeOf s.drive.pc = _ at hafter
    rcases s.drives.outcome with hnone | hsame | hok | ⟨cause, -, hfailed⟩
    · rw [hnone] at hafter
      cases hafter
    · exact absurd (hsame ▸ hafter) hbefore
    · rw [hok] at hafter
      cases hafter
    · rw [hfailed] at hafter
      cases hafter
  | _ =>
    rw [step_pc (by simp) (by simp)] at hafter
    exact absurd hafter hbefore

theorem abort_mem {online : String → Bool} {events : List (WriterEvent α)}
    (h : outcomeOf (after online events).pc = some .aborted) : .abort ∈ events := by
  obtain ⟨xs, e, ys, rfl, hbefore, hafter⟩ :=
    exists_step_of_run (Q := fun s : Writer α => outcomeOf s.pc = some .aborted)
      (by simp [new, outcomeOf]) h
  rw [aborted_step hbefore hafter]
  simp

theorem seenOffline_of_departed {online : String → Bool} {events : List (WriterEvent α)} {i : Nat}
    {peerId : String} (h : (i, peerId) ∈ (after online events).departed) :
    SeenOffline online events i peerId := by
  obtain ⟨earlier, e, later, rfl, hbefore, hafter⟩ :=
    exists_step_of_run (Q := fun s : Writer α => (i, peerId) ∈ s.departed) (by simp [new]) h
  obtain ⟨rfl, hpc, hoff, hi⟩ := departed_step hbefore hafter
  refine ⟨earlier, later, rfl, hpc, hoff, ?_⟩
  -- The check is made with a train in hand, so one was taken.
  have hinv := reached_after online earlier
  have htrain : (after online earlier).train ≠ [] := by
    have hpcInv := hinv.pc
    unfold PcInv at hpcInv
    rw [show (after online earlier).pc = _ from hpc] at hpcInv
    exact hpcInv.1
  have hrun : (after online earlier).view.outcome = none := by
    simp only [view, show (after online earlier).pc = _ from hpc]
    rfl
  obtain ⟨frame, hr⟩ := hinv.view.resident hrun (by simp [view, htrain])
  have hlt := (Trains.current_lt hr.last).1
  change i = (after online earlier).taken.length - 1 at hi
  simp only [Trains.current, view] at hlt
  omega

/-- How far the loop is from its next frame, once the chunk in hand is due. A chunk is found
on the way down from the top, an ordinary frame at the end of that way, and a waiting train
before it. -/
def rank (s : Writer α) : Nat :=
  match s.pc with
  | .writing _ => 12
  | .advance => 11
  | .wait => if s.train ≠ [] then 8 else if s.nows = [] then 9 else 10
  | .top => if s.train ≠ [] then 7 else if s.nows = [] then 8 else 9
  | .due => if s.train ≠ [] then 6 else if s.nows = [] then 7 else 8
  | .accept => if s.train ≠ [] then 10 else if s.nows = [] then 6 else 7
  | .now => if s.train ≠ [] then 9 else if s.nows = [] then 10 else 6
  | .presence _ => 5
  | .pop => 4
  | .done _ => 0

/-- The frames still to be written; a waiting train counts once more, for taking it. -/
def items (s : Writer α) : Nat :=
  s.pings.length + s.nows.length + s.train.length +
    (s.trains.map fun frame => frame.chunks.length + 1).sum

def workload (s : Writer α) : Nat := 20 * s.items + s.rank

/-- Every frame handed over has gone out, those of trains stopped on the way apart. -/
def Drained (s : Writer α) : Prop :=
  nowInFlight s.pc = [] ∧ s.nows = [] ∧ chunkInFlight s.pc = [] ∧ s.train = [] ∧ s.trains = []

def ChunkDue (s : Writer α) : Prop := ∀ deadline, s.nextChunkAt = some deadline → deadline ≤ s.clock

theorem rank_le (s : Writer α) : s.rank ≤ 12 := by
  unfold rank
  split
  all_goals
    first
    | omega
    | (split_ifs <;> omega)

theorem workload_lt {s t : Writer α} (h : t.items < s.items) : t.workload < s.workload := by
  have hrank := t.rank_le
  unfold workload
  omega

theorem workload_acceptTrain {s : Writer α} {frame : TrainFrame α} {rest : List (TrainFrame α)}
    (htrains : s.trains = frame :: rest) :
    ({ s with trains := rest }.acceptTrain frame).workload < s.workload := by
  refine workload_lt ?_
  simp only [acceptTrain, items, htrains, List.length_append, List.map_cons, List.sum_cons]
  omega

theorem workload_popPing {s : Writer α} {m : α} {rest : List α} (hpings : s.pings = m :: rest)
    (pc : WriterPc α) : ({ s with pings := rest, pc := pc } : Writer α).workload < s.workload := by
  refine workload_lt ?_
  simp only [items, hpings, List.length_cons]
  omega

theorem workload_popNow {s : Writer α} {m : α} {rest : List α} (hnows : s.nows = m :: rest)
    (pc : WriterPc α) : ({ s with nows := rest, pc := pc } : Writer α).workload < s.workload := by
  refine workload_lt ?_
  simp only [items, hnows, List.length_cons]
  omega

/-- Over a working socket every action of a loop with something left to write, once the chunk
in hand is due, brings it closer to its end. -/
theorem Drives.workload_lt {s t : Writer α} (hd : Drives s t) (h : s.Reached)
    (hrun : outcomeOf s.pc = none) (hsocket : s.socketError = none) (hdue : s.ChunkDue)
    (hleft : ¬ s.Drained) : t.workload < s.workload ∧ outcomeOf t.pc = none := by
  have hat := h.pc
  unfold PcInv at hat
  cases hd with
  | sendPing _ hpings => exact ⟨workload_popPing hpings _, rfl⟩
  | sendNow _ hnows => exact ⟨workload_popNow hnows _, rfl⟩
  | take _ _ htrains => exact ⟨workload_acceptTrain htrains, rfl⟩
  | noPing hp | advance hp | noNow hp | wake hp | wrotePing hp | wroteNow hp =>
    simp only [workload, items, rank, hp]
    refine ⟨?_, rfl⟩
    split_ifs <;> omega
  | wroteChunk hp =>
    simp only [workload, items, rank, hp]
    exact ⟨by omega, rfl⟩
  | chunkDue hp hn hdue =>
    have htrain := (view_due hp h.pc hn hdue).1
    simp only [workload, items, rank, hp, htrain, ne_eq, not_false_eq_true, if_true]
    exact ⟨by omega, rfl⟩
  | check hp hn hdue hw =>
    have htrain := (view_due hp h.pc hn hdue).1
    simp only [workload, items, rank, hp, htrain, ne_eq, not_false_eq_true, if_true]
    exact ⟨by omega, rfl⟩
  | notDue hp hn =>
    -- The chunk in hand is due, so there is none.
    have hnone : s.nextChunkAt = none := by
      rw [Option.eq_none_iff_forall_ne_some]
      intro deadline hd
      exact absurd (hdue deadline hd) (Nat.not_le.mpr (hn deadline hd))
    rw [hp] at hat
    have htrain : s.train = [] := hat.1.mp hnone
    simp only [workload, items, rank, hp, htrain, ne_eq, not_true_eq_false, if_false]
    refine ⟨?_, rfl⟩
    split_ifs <;> omega
  | stillOnline hp =>
    simp only [workload, items, rank, hp]
    exact ⟨by omega, rfl⟩
  | depart hp _ =>
    rw [hp] at hat
    have hpos := List.length_pos_of_ne_nil hat.1
    refine ⟨Writer.workload_lt ?_, rfl⟩
    simp only [items, List.length_nil]
    omega
  | sendChunk hp htrain =>
    refine ⟨Writer.workload_lt ?_, rfl⟩
    simp only [items, htrain, List.length_cons]
    omega
  | popNothing hp htrain =>
    rw [hp] at hat
    exact absurd htrain hat.1
  | noTrain hp htrain htrains =>
    have hnows : s.nows ≠ [] := fun hnil =>
      hleft ⟨by rw [hp]; rfl, hnil, by rw [hp]; rfl, htrain, htrains⟩
    simp only [workload, items, rank, hp, htrain, ne_eq, not_true_eq_false, if_false, hnows]
    exact ⟨by omega, rfl⟩
  | busy hp htrain =>
    simp only [workload, items, rank, hp, htrain, ne_eq, not_false_eq_true, if_true]
    exact ⟨by omega, rfl⟩
  | sleep hp hn hlater => exact absurd (hdue _ hn) (Nat.not_le.mpr hlater)
  | idle hp hn hnows htrains =>
    rw [hp] at hat
    exact absurd ⟨by rw [hp]; rfl, hnows, by rw [hp]; rfl, hat.1.mp hn, htrains⟩ hleft
  | finish hp hn hnow htrain =>
    rw [hp] at hat
    refine absurd ?_ hleft
    exact ⟨by rw [hp]; rfl, (h.now.nowClosed hnow).2, by rw [hp]; rfl, hat.1.mp hn,
      (h.now.trainClosed htrain).2⟩
  | fail _ herror =>
    rw [hsocket] at herror
    cases herror
  | ended hp =>
    rw [hp] at hrun
    cases hrun

/-- Letting time pass and the loop act, and nothing else. -/
def Unattended (events : List (WriterEvent α)) : Prop :=
  ∀ e ∈ events, e = .drive ∨ ∃ elapsed, e = .tick elapsed

/-- Waiting for the chunk in hand and acting once. -/
def nextAction (s : Writer α) : List (WriterEvent α) :=
  [.tick (s.nextChunkAt.getD s.clock - s.clock), .drive]

theorem exists_drained {s : Writer α} (h : s.Reached) (hrun : outcomeOf s.pc = none)
    (hsocket : s.socketError = none) :
    ∃ events, Unattended events ∧ (run step s events).Drained ∧
      outcomeOf (run step s events).pc = none := by
  induction hn : s.workload using Nat.strong_induction_on generalizing s with
  | _ n ih =>
    by_cases hleft : s.Drained
    · exact ⟨[], nofun, hleft, hrun⟩
    · let t := s.step (.tick (s.nextChunkAt.getD s.clock - s.clock))
      have ht : t.Reached := reached_step h _
      have hdue : t.ChunkDue := by
        intro deadline hd
        have hd' : s.nextChunkAt = some deadline := hd
        change deadline ≤ s.clock + (s.nextChunkAt.getD s.clock - s.clock)
        rw [hd', Option.getD_some]
        omega
      obtain ⟨hless, hrun'⟩ := t.drives.workload_lt ht hrun hsocket hdue hleft
      obtain ⟨events, hun, hdrained, hend⟩ := ih t.drive.workload (hn ▸ hless)
        (reached_step ht .drive) hrun' (t.drives.frame.1.trans hsocket) rfl
      refine ⟨s.nextAction ++ events, ?_, hdrained, hend⟩
      intro e he
      rcases List.mem_append.mp he with he | he
      · rcases List.mem_cons.mp he with rfl | he
        · exact Or.inr ⟨_, rfl⟩
        · exact Or.inl (List.mem_singleton.mp he)
      · exact hun e he

/-- What has gone out of a train. -/
def sentOf (s : Writer α) (i : Nat) : List α := (trackOf s.socket i).map (·.2)

/-- The task stopped before its queues did: a write met a failed socket, or the session that
owns the task went away. -/
def Stopped (events : List (WriterEvent α)) (s : Writer α) : Prop :=
  (∃ cause, s.socketError = some cause ∧
    s.pc = .done (.failed ("broker publish failed: " ++ cause))) ∨
  (.abort ∈ events ∧ s.pc = .done .aborted)

/-- The surface this train is for was found offline when one of its chunks was due. -/
def Departed (online : String → Bool) (events : List (WriterEvent α)) (i : Nat)
    (frame : TrainFrame α) : Prop :=
  ∃ peerId, frame.watchTarget = some peerId ∧ SeenOffline online events i peerId

/-- The train waits in the queue, or is the one in hand, and the loop runs. -/
def ToCome (s : Writer α) (i : Nat) : Prop :=
  outcomeOf s.pc = none ∧
    (s.taken.length ≤ i ∨ (i + 1 = s.taken.length ∧ chunkInFlight s.pc ++ s.train ≠ []))

structure Disciplined (online : String → Bool) (events : List (WriterEvent α))
    (s : Writer α) : Prop where
  /-- Trains are taken in the order they were handed over, none twice. -/
  in_order : s.submitted = s.taken ++ s.trains
  /-- The chunks of one train all come before those of the next. -/
  apart : (trainIds s.socket).Pairwise (· ≤ ·)
  known : ∀ i ∈ trainIds s.socket, i < s.submitted.length
  sent : ∀ i frame, s.submitted[i]? = some frame →
    s.sentOf i <+: frame.chunks ∧
      (s.sentOf i = frame.chunks ∨ Departed online events i frame ∨ Stopped events s ∨ s.ToCome i)
  paced : ∀ i frame, s.submitted[i]? = some frame →
    ((trackOf s.socket i).map (·.1)).IsChain (fun a b => a + frame.interval ≤ b)
  /-- What the loop holds, the chunk being written included, is the rest of the one train
  taken last. -/
  resident : outcomeOf s.pc = none → chunkInFlight s.pc ++ s.train ≠ [] →
    ∃ frame, s.taken.getLast? = some frame ∧
      s.sentOf (s.taken.length - 1) ++ (chunkInFlight s.pc ++ s.train) = frame.chunks
  /-- Ordinary frames go out in the order they were queued, none twice. -/
  now_order : nowLog s.socket <+: s.queuedNow
  /-- Until the task stops, those not yet out are being written or still queued. -/
  now_kept : outcomeOf s.pc = none → s.queuedNow = nowLog s.socket ++ nowInFlight s.pc ++ s.nows
  now_done : s.pc = .done .ok → nowLog s.socket = s.queuedNow

theorem stopped_of_cutShort {online : String → Bool} {events : List (WriterEvent α)}
    (h : (after online events).view.CutShort) : Stopped events (after online events) := by
  rcases h with haborted | ⟨error, hfailed⟩
  · exact Or.inr ⟨abort_mem haborted, outcomeOf_eq_some.mp haborted⟩
  · have hpc := outcomeOf_eq_some.mp hfailed
    obtain ⟨cause, hcause, rfl⟩ := (reached_after online events).failed error hpc
    exact Or.inl ⟨cause, hcause, hpc⟩

theorem sent_of_queued {online : String → Bool} {events : List (WriterEvent α)} {i : Nat}
    (hi : (after online events).taken.length ≤ i)
    (hlt : i < (after online events).submitted.length) :
    Stopped events (after online events) ∨ (after online events).ToCome i := by
  have h := reached_after online events
  cases hout : outcomeOf (after online events).pc with
  | none => exact Or.inr ⟨hout, Or.inl hi⟩
  | some outcome =>
    cases outcome with
    | aborted => exact Or.inl (stopped_of_cutShort (Or.inl hout))
    | failed error => exact Or.inl (stopped_of_cutShort (Or.inr ⟨error, hout⟩))
    | ok =>
      have htrains := (h.now.ended (outcomeOf_eq_some.mp hout)).2
      have hsub : (after online events).submitted = (after online events).taken ++ [] := by
        rw [← htrains]
        exact h.view.submitted_eq
      rw [hsub, List.append_nil] at hlt
      omega

theorem disciplined_after (online : String → Bool) (events : List (WriterEvent α)) :
    Disciplined online events (after online events) := by
  have h := reached_after online events
  generalize hs : after online events = s at h
  have hsub : s.submitted = s.taken ++ s.trains := h.view.submitted_eq
  have hnew : ∀ i, s.taken.length ≤ i → trackOf s.socket i = [] := by
    intro i hi
    refine Trains.trackOf_eq_nil fun hmem => ?_
    exact absurd (h.view.ids_lt i hmem) (Nat.not_lt.mpr hi)
  refine ⟨hsub, h.view.ids_ordered, ?_, ?_, ?_, ?_, h.now.log, h.now.queue, ?_⟩
  · intro i hi
    have hlt : i < s.taken.length := h.view.ids_lt i hi
    rw [hsub, List.length_append]
    omega
  · intro i frame hframe
    rcases Nat.lt_or_ge i s.taken.length with hi | hi
    · have htaken : s.taken[i]? = some frame := by
        rw [hsub, List.getElem?_append_left hi] at hframe
        exact hframe
      obtain ⟨hpre, hwhy⟩ := h.view.sent i frame htaken
      refine ⟨hpre, ?_⟩
      rcases hwhy with hall | ⟨peerId, hwatch, hmem⟩ | hcut | ⟨hlast, hpending, hrun⟩
      · exact Or.inl hall
      · refine Or.inr (Or.inl ⟨peerId, hwatch, seenOffline_of_departed ?_⟩)
        rw [hs]
        exact hmem
      · refine Or.inr (Or.inr (Or.inl ?_))
        rw [← hs] at hcut ⊢
        exact stopped_of_cutShort hcut
      · exact Or.inr (Or.inr (Or.inr ⟨hrun, Or.inr ⟨hlast, hpending⟩⟩))
    · have hnil : s.sentOf i = [] := by rw [sentOf, hnew i hi, List.map_nil]
      refine ⟨hnil ▸ List.nil_prefix, Or.inr (Or.inr ?_)⟩
      have hlt : i < s.submitted.length := (List.getElem?_eq_some_iff.mp hframe).1
      rw [← hs] at hi hlt ⊢
      exact sent_of_queued hi hlt
  · intro i frame hframe
    rcases Nat.lt_or_ge i s.taken.length with hi | hi
    · rw [hsub, List.getElem?_append_left hi] at hframe
      exact h.view.paced i frame hframe
    · rw [hnew i hi]
      exact List.isChain_nil
  · intro hrun hne
    obtain ⟨frame, hr⟩ := h.view.resident hrun hne
    exact ⟨frame, hr.last, hr.rest⟩
  · exact fun hok => (h.now.ended hok).1

theorem run_unattended {s : Writer α} {events : List (WriterEvent α)} (h : Unattended events) :
    (run step s events).queuedNow = s.queuedNow ∧ (run step s events).submitted = s.submitted := by
  induction events generalizing s with
  | nil => exact ⟨rfl, rfl⟩
  | cons e es ih =>
    obtain ⟨hnow, hsub⟩ := ih (s := s.step e) fun e' he' => h e' (List.mem_cons_of_mem e he')
    rw [run_cons, hnow, hsub]
    rcases h e List.mem_cons_self with rfl | ⟨elapsed, rfl⟩
    · exact s.drives.frame.2
    · exact ⟨rfl, rfl⟩

/-- After any events the socket has seen what it should have, and while the task runs over a
working socket everything handed over still goes out. -/
theorem writer_disciplined (online : String → Bool) (events : List (WriterEvent α)) :
    Disciplined online events (after online events) ∧
    (outcomeOf (after online events).pc = none → (after online events).socketError = none →
      ∃ later, Unattended later ∧
        nowLog (after online (events ++ later)).socket = (after online events).queuedNow ∧
        ∀ i frame, (after online events).submitted[i]? = some frame →
          (after online (events ++ later)).sentOf i = frame.chunks ∨
            Departed online (events ++ later) i frame) := by
  refine ⟨disciplined_after online events, fun hrun hsocket => ?_⟩
  obtain ⟨later, hun, hdrained, hend⟩ := exists_drained (reached_after online events) hrun hsocket
  have happend : run step (after online events) later = after online (events ++ later) :=
    (run_append _ events later).symm
  obtain ⟨hnow, hsub⟩ := run_unattended (s := after online events) hun
  rw [happend] at hdrained hend hnow hsub
  obtain ⟨hnowFlight, hnows, hflight, htrain, htrains⟩ := hdrained
  have hd := disciplined_after online (events ++ later)
  refine ⟨later, hun, ?_, ?_⟩
  · have hkept := hd.now_kept hend
    rw [hnowFlight, hnows, List.append_nil, List.append_nil, hnow] at hkept
    exact hkept.symm
  · intro i frame hframe
    rw [← hsub] at hframe
    rcases (hd.sent i frame hframe).2 with hall | hoff | hstopped | ⟨-, hqueued | ⟨-, hpending⟩⟩
    · exact Or.inl hall
    · exact Or.inr hoff
    · rcases hstopped with ⟨cause, -, hpc⟩ | ⟨-, hpc⟩
      all_goals
        rw [hpc] at hend
        cases hend
    · have hlt := (List.getElem?_eq_some_iff.mp hframe).1
      rw [hd.in_order, htrains, List.append_nil] at hlt
      exact absurd hlt (Nat.not_lt.mpr hqueued)
    · exact absurd (by rw [hflight, htrain]; rfl) hpending

theorem run_done {s : Writer α} {outcome : Outcome} (h : s.pc = .done outcome)
    (events : List (WriterEvent α)) : (run step s events).socket = s.socket := by
  suffices hkeep : (run step s events).pc = .done outcome ∧
      (run step s events).socket = s.socket from hkeep.2
  refine run_of_step (I := fun t : Writer α => t.pc = .done outcome ∧ t.socket = s.socket) ?_
    ⟨h, rfl⟩ events
  · rintro t e ⟨hpc, hsocket⟩
    rw [← hsocket]
    cases e with
    | drive =>
      have hd : t.drive = t := by simp only [drive, hpc]
      exact ⟨(congrArg pc hd).trans hpc, congrArg socket hd⟩
    | abort =>
      have hd : t.step .abort = t := by simp [step, isDone, hpc]
      exact ⟨(congrArg pc hd).trans hpc, congrArg socket hd⟩
    | _ =>
      refine ⟨(step_pc (by simp) (by simp)).trans hpc, (step_logs (by simp)).2⟩

/-- A frame queued while the socket works is lost when the socket fails before the loop has
come to it. -/
theorem queued_frame_lost :
    (after (fun _ => true) [.sendNow 7]).socketError = none ∧
    (after (fun _ => true) [.sendNow 7]).queuedNow = [7] ∧
    ∀ later, nowLog (after (fun _ => true) ([.sendNow 7, .closeSocket "reset", .drive, .drive,
      .drive, .drive, .drive] ++ later)).socket = [] := by
  refine ⟨rfl, rfl, fun later => ?_⟩
  rw [after, run_append]
  have hfailed : (run step (new fun _ => true) [.sendNow 7, .closeSocket "reset", .drive, .drive,
      .drive, .drive, .drive]).pc = .done (.failed ("broker publish failed: " ++ "reset")) := rfl
  rw [run_done hfailed]
  rfl

end AgentRelay.Broker.Writer
