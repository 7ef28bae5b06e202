import AgentRelay.ChunkTrains

/-! What holds at each point of the writer's loop, and that every action of the loop and
every event around it keeps it. -/
namespace AgentRelay.Broker

variable {α : Type}

namespace Writer

def chunkInFlight (pc : WriterPc α) : List α :=
  match pc with
  | .writing (.chunk message) => [message]
  | _ => []

def nowInFlight (pc : WriterPc α) : List α :=
  match pc with
  | .writing (.now message) => [message]
  | _ => []

def outcomeOf (pc : WriterPc α) : Option Outcome :=
  match pc with
  | .done outcome => some outcome
  | _ => none

def view (s : Writer α) : Trains α :=
  { submitted := s.submitted, taken := s.taken, queued := s.trains, socket := s.socket
    departed := s.departed, clock := s.clock, interval := s.trainInterval
    watchTarget := s.trainWatchTarget, pending := chunkInFlight s.pc ++ s.train
    outcome := outcomeOf s.pc }

/-- Between two chunks: a deadline stands exactly while a train does, an interval after the
last chunk of that train. -/
def Settled (s : Writer α) : Prop :=
  (s.nextChunkAt = none ↔ s.train = []) ∧ ∀ d, s.nextChunkAt = some d → s.view.LastBefore d

/-- What holds at each point of the loop. -/
def PcInv (s : Writer α) : Prop :=
  match s.pc with
  | .presence peerId =>
    s.train ≠ [] ∧ s.trainWatchTarget = some peerId ∧ s.view.LastBefore s.clock
  | .pop => s.train ≠ [] ∧ s.view.LastBefore s.clock
  | .writing (.chunk _) => s.view.LastBefore s.clock
  | .advance | .done _ => True
  | _ => s.Settled

structure NowInv (s : Writer α) : Prop where
  nowClosed : s.nowClosed = true → s.handleOpen = false ∧ s.nows = []
  trainClosed : s.trainClosed = true → s.handleOpen = false ∧ s.trains = []
  queue : outcomeOf s.pc = none → s.queuedNow = nowLog s.socket ++ nowInFlight s.pc ++ s.nows
  log : nowLog s.socket <+: s.queuedNow
  ended : s.pc = .done .ok → nowLog s.socket = s.queuedNow ∧ s.trains = []

structure Inv (s : Writer α) : Prop where
  view : s.view.Inv
  pc : s.PcInv
  now : s.NowInv

/-- What one action of the loop can do, one case for each of its branches. -/
inductive Drives (s : Writer α) : Writer α → Prop
  | sendPing {m : α} {rest : List α} (hp : s.pc = .top ∨ s.pc = .wait)
      (hpings : s.pings = m :: rest) : Drives s { s with pings := rest, pc := .writing (.ping m) }
  | sendNow {m : α} {rest : List α} (hp : s.pc = .now ∨ s.pc = .wait)
      (hnows : s.nows = m :: rest) : Drives s { s with nows := rest, pc := .writing (.now m) }
  | sendChunk {m : α} {rest : List α} (hp : s.pc = .pop) (htrain : s.train = m :: rest) :
      Drives s { s with train := rest, pc := .writing (.chunk m) }
  | popNothing (hp : s.pc = .pop) (htrain : s.train = []) : Drives s { s with pc := .advance }
  | noPing (hp : s.pc = .top) : Drives s { s with pc := .due }
  | chunkDue {deadline : Nat} (hp : s.pc = .due) (hn : s.nextChunkAt = some deadline)
      (hdue : deadline ≤ s.clock) : Drives s { s with pc := .pop }
  | check {deadline : Nat} {peerId : String} (hp : s.pc = .due)
      (hn : s.nextChunkAt = some deadline) (hdue : deadline ≤ s.clock)
      (hw : s.trainWatchTarget = some peerId) : Drives s { s with pc := .presence peerId }
  | notDue (hp : s.pc = .due) (hn : ∀ deadline, s.nextChunkAt = some deadline → s.clock < deadline) :
      Drives s { s with pc := .accept }
  | stillOnline {peerId : String} (hp : s.pc = .presence peerId) : Drives s { s with pc := .pop }
  | depart {peerId : String} (hp : s.pc = .presence peerId) (hoff : s.online peerId = false) :
      Drives s
        { s with
          train := [], trainWatchTarget := none, nextChunkAt := none
          departed := s.departed ++ [(s.taken.length - 1, peerId)], pc := .top }
  | advance (hp : s.pc = .advance) :
      Drives s { s with nextChunkAt := advanceTrain s.train s.clock s.trainInterval, pc := .top }
  | take {frame : TrainFrame α} {rest : List (TrainFrame α)} (hp : s.pc = .accept ∨ s.pc = .wait)
      (hfree : s.train = [] ∨ s.nextChunkAt = none) (htrains : s.trains = frame :: rest) :
      Drives s ({ s with trains := rest }.acceptTrain frame)
  | noTrain (hp : s.pc = .accept) (htrain : s.train = []) (htrains : s.trains = []) :
      Drives s { s with trainClosed := s.trainClosed || !s.handleOpen, pc := .now }
  | busy (hp : s.pc = .accept) (htrain : s.train ≠ []) : Drives s { s with pc := .now }
  | noNow (hp : s.pc = .now) (hnows : s.nows = []) :
      Drives s { s with nowClosed := s.nowClosed || !s.handleOpen, pc := .wait }
  | wake (hp : s.pc = .wait) : Drives s { s with pc := .top }
  | sleep {deadline : Nat} (hp : s.pc = .wait) (hn : s.nextChunkAt = some deadline)
      (hlater : s.clock < deadline) : Drives s s
  | idle (hp : s.pc = .wait) (hn : s.nextChunkAt = none) (hnows : s.nows = [])
      (htrains : s.trains = []) : Drives s s
  | finish (hp : s.pc = .wait) (hn : s.nextChunkAt = none) (hnow : s.nowClosed = true)
      (htrain : s.trainClosed = true) : Drives s { s with pc := .done .ok }
  | fail {out : Outgoing α} {error : String} (hp : s.pc = .writing out)
      (herror : s.socketError = some error) :
      Drives s { s with pc := .done (.failed ("broker publish failed: " ++ error)) }
  | wrotePing {m : α} (hp : s.pc = .writing (.ping m)) :
      Drives s { s with socket := s.socket ++ [(s.clock, .ping m)], pc := .top }
  | wroteNow {m : α} (hp : s.pc = .writing (.now m)) :
      Drives s { s with socket := s.socket ++ [(s.clock, .now m)], pc := .top }
  | wroteChunk {m : α} (hp : s.pc = .writing (.chunk m)) :
      Drives s
        { s with
          socket := s.socket ++ [(s.clock, .chunk (s.taken.length - 1) m)]
          lastChunkAt := some s.clock, pc := .advance }
  | ended {outcome : Outcome} (hp : s.pc = .done outcome) : Drives s s

theorem drives_due {s : Writer α} (hp : s.pc = .due) : Drives s s.drive := by
  simp only [drive, hp]
  split
  · rename_i deadline hn
    split_ifs with hdue
    · split
      · exact .check hp hn hdue ‹_›
      · exact .chunkDue hp hn hdue
    · refine .notDue hp fun d hd => ?_
      obtain rfl := Option.some.inj (hn.symm.trans hd)
      omega
  · rename_i hn
    exact .notDue hp (by simp [hn])

theorem drives_waitForChunk {s : Writer α} {deadline : Nat} (hp : s.pc = .wait)
    (hn : s.nextChunkAt = some deadline) : Drives s (s.waitForChunk deadline) := by
  unfold waitForChunk
  split
  · split_ifs with hdue
    · exact .wake hp
    · exact .sleep hp hn (by omega)
  · split
    · exact .sendPing (Or.inr hp) ‹_›
    · split_ifs
      · exact .sendNow (Or.inr hp) ‹_›
      · exact .wake hp
    · split_ifs with hwait
      · exact .sleep hp hn hwait.2
      · exact .wake hp

theorem drives_waitIdle {s : Writer α} (hp : s.pc = .wait) (hn : s.nextChunkAt = none) :
    Drives s s.waitIdle := by
  unfold waitIdle
  split
  · rename_i hclosed
    obtain ⟨hnow, htrain⟩ := Bool.and_eq_true_iff.mp hclosed
    exact .finish hp hn hnow htrain
  · split
    · exact .sendPing (Or.inr hp) ‹_›
    · split
      · exact .wake hp
      · split
        · exact .sendNow (Or.inr hp) ‹_›
        · exact .take (Or.inr hp) (Or.inr hn) ‹_›
        · exact .idle hp hn ‹_› ‹_›

theorem drives_finishWrite {s : Writer α} {out : Outgoing α} (hp : s.pc = .writing out) :
    Drives s (s.finishWrite out) := by
  unfold finishWrite
  split
  · exact .fail hp ‹_›
  · split
    · exact .wrotePing hp
    · exact .wroteNow hp
    · exact .wroteChunk hp

theorem drives (s : Writer α) : Drives s s.drive := by
  cases hp : s.pc with
  | due => exact drives_due hp
  | top =>
    simp only [drive, hp]
    split
    · exact .sendPing (Or.inl hp) ‹_›
    · exact .noPing hp
  | presence peerId =>
    simp only [drive, hp]
    split_ifs with hon
    · exact .stillOnline hp
    · exact .depart hp (by simpa using hon)
  | pop =>
    simp only [drive, hp]
    split
    · exact .sendChunk hp ‹_›
    · exact .popNothing hp ‹_›
  | advance =>
    simp only [drive, hp]
    exact .advance hp
  | accept =>
    simp only [drive, hp]
    split_ifs with htrain
    · split
      · exact .take (Or.inl hp) (Or.inl htrain) ‹_›
      · exact .noTrain hp htrain ‹_›
    · exact .busy hp htrain
  | now =>
    simp only [drive, hp]
    split
    · exact .sendNow (Or.inl hp) ‹_›
    · exact .noNow hp ‹_›
  | wait =>
    simp only [drive, hp]
    split
    · exact drives_waitForChunk hp ‹_›
    · exact drives_waitIdle hp ‹_›
  | writing out =>
    simp only [drive, hp]
    exact drives_finishWrite hp
  | done outcome =>
    simp only [drive, hp]
    exact .ended hp

theorem view_acceptTrain {s : Writer α} (h : s.view.Inv) {frame : TrainFrame α}
    {rest : List (TrainFrame α)} (htrains : s.trains = frame :: rest) (htrain : s.train = [])
    (hflight : chunkInFlight s.pc = []) (hrun : outcomeOf s.pc = none) :
    ({ s with trains := rest }.acceptTrain frame).view.Inv ∧
      ({ s with trains := rest }.acceptTrain frame).PcInv := by
  have hpending : s.view.pending = [] := by simp [view, hflight, htrain]
  have hqueued : s.view.queued = frame :: rest := htrains
  have haccept := h.accept hqueued hpending hrun
  have hview : ({ s with trains := rest }.acceptTrain frame).view =
      { s.view with
        taken := s.view.taken ++ [frame], queued := rest, interval := frame.interval
        watchTarget := frame.watchTarget, pending := frame.chunks } := by
    simp only [view, acceptTrain, htrain, hrun, List.nil_append]
    rfl
  refine ⟨hview ▸ haccept, ?_⟩
  have hne : frame.chunks ≠ [] := by
    refine h.nonempty frame ?_
    rw [h.submitted_eq]
    exact List.mem_append_right _ (by simp [view, htrains])
  refine ⟨?_, ?_⟩
  · simp [acceptTrain, htrain, hne]
  · -- The new train has sent nothing yet.
    intro d _ e he
    rw [hview] at he
    have hnew : trackOf s.socket s.taken.length = [] :=
      Trains.trackOf_eq_nil fun hmem => (h.ids_lt _ hmem).false
    simp [Trains.track, Trains.current, view, hnew] at he

/-- The points of the loop between two chunks. -/
def Quiet : WriterPc α → Prop
  | .presence _ | .pop | .writing (.chunk _) | .advance | .done _ => False
  | _ => True

theorem Quiet.nothing {pc : WriterPc α} (h : Quiet pc) :
    chunkInFlight pc = [] ∧ outcomeOf pc = none := by
  cases pc with
  | writing out => cases out <;> first | exact ⟨rfl, rfl⟩ | exact h.elim
  | _ => first | exact ⟨rfl, rfl⟩ | exact h.elim

theorem pcInv_iff_settled {s : Writer α} (h : Quiet s.pc) : s.PcInv ↔ s.Settled := by
  unfold PcInv
  split
  all_goals first
    | exact Iff.rfl
    | (rename_i heq; simp [heq, Quiet] at h)

theorem quiet_move {s t : Writer α} (hs : Quiet s.pc) (ht : Quiet t.pc) (h : s.view.Inv)
    (hpc : s.PcInv) (hview : t.view = ({ s with pc := t.pc } : Writer α).view)
    (hnext : t.nextChunkAt = s.nextChunkAt) (htrain : t.train = s.train) :
    t.view.Inv ∧ t.PcInv := by
  have hsame : t.view = s.view := by
    rw [hview]
    simp only [view, hs.nothing.1, hs.nothing.2, ht.nothing.1, ht.nothing.2]
  refine ⟨hsame ▸ h, (pcInv_iff_settled ht).mpr ?_⟩
  unfold Settled
  rw [hnext, htrain, hsame]
  exact (pcInv_iff_settled hs).mp hpc

theorem view_due {s : Writer α} {deadline : Nat} (hp : s.pc = .due) (hpc : s.PcInv)
    (hn : s.nextChunkAt = some deadline) (hdue : deadline ≤ s.clock) :
    s.train ≠ [] ∧ s.view.LastBefore s.clock := by
  have hset : s.Settled := (pcInv_iff_settled (by rw [hp]; trivial)).mp hpc
  refine ⟨?_, fun e he => (hset.2 deadline hn e he).trans hdue⟩
  intro hnil
  rw [hset.1.mpr hnil] at hn
  cases hn

theorem view_depart {s : Writer α} {peerId : String} (hp : s.pc = .presence peerId)
    (h : s.view.Inv) (htrain : s.train ≠ []) (hwatch : s.trainWatchTarget = some peerId) :
    ({ s with
        train := [], trainWatchTarget := none, nextChunkAt := none
        departed := s.departed ++ [(s.taken.length - 1, peerId)], pc := .top } :
      Writer α).view.Inv := by
  have hpending : s.view.pending ≠ [] := by
    simpa [view, hp, chunkInFlight] using htrain
  have hrun : s.view.outcome = none := by
    simp only [view, hp]
    rfl
  have hdepart := h.depart hrun hpending hwatch
  rw [hrun] at hdepart
  exact hdepart

theorem view_advance {s : Writer α} (hp : s.pc = .advance) (h : s.view.Inv) :
    ({ s with nextChunkAt := advanceTrain s.train s.clock s.trainInterval, pc := .top } :
        Writer α).view.Inv ∧
      ({ s with nextChunkAt := advanceTrain s.train s.clock s.trainInterval, pc := .top } :
        Writer α).PcInv := by
  have hview : ({ s with nextChunkAt := advanceTrain s.train s.clock s.trainInterval, pc := .top } :
      Writer α).view = s.view := by
    simp only [view, hp]
    rfl
  refine ⟨hview ▸ h, ?_, ?_⟩
  · simp only [advanceTrain]
    split_ifs with hnil
    · simp [hnil]
    · simp [hnil]
  · intro d hd e he
    rw [hview] at he
    have htime := h.times s.view.current e (List.mem_of_getLast? he)
    have hclock : d = s.clock + s.trainInterval := by
      simp only [advanceTrain] at hd
      split_ifs at hd
      exact (Option.some.inj hd).symm
    rw [hclock]
    exact Nat.add_le_add_right htime _

theorem write_other {s : Writer α} (h : s.view.Inv) (hset : s.Settled) {frame : Sent α}
    (hframe : ∀ i message, frame ≠ .chunk i message) (hflight : chunkInFlight s.pc = [])
    (hrun : outcomeOf s.pc = none) :
    ({ s with socket := s.socket ++ [(s.clock, frame)], pc := .top } : Writer α).view.Inv ∧
      ({ s with socket := s.socket ++ [(s.clock, frame)], pc := .top } : Writer α).PcInv := by
  have hview : ({ s with socket := s.socket ++ [(s.clock, frame)], pc := .top } : Writer α).view =
      { s.view with socket := s.view.socket ++ [(s.view.clock, frame)] } := by
    simp only [view, hflight, hrun]
    rfl
  refine ⟨hview ▸ h.write_other hframe, hset.1, ?_⟩
  intro d hd
  rw [hview]
  intro e he
  have htrack := Trains.trackOf_write_other s.view.socket s.view.clock hframe s.view.current
  refine hset.2 d hd e ?_
  rw [Trains.track, ← htrack]
  exact he

theorem view_wroteChunk {s : Writer α} {m : α} (hp : s.pc = .writing (.chunk m)) (h : s.view.Inv)
    (hpc : s.PcInv) :
    ({ s with
        socket := s.socket ++ [(s.clock, .chunk (s.taken.length - 1) m)]
        lastChunkAt := some s.clock, pc := .advance } : Writer α).view.Inv := by
  have hlast : s.view.LastBefore s.view.clock := by
    unfold PcInv at hpc
    rw [hp] at hpc
    exact hpc
  have hrun : s.view.outcome = none := by
    simp only [view, hp]
    rfl
  have hpending : s.view.pending = m :: s.train := by
    simp only [view, hp]
    rfl
  have hemit := h.emit hrun hpending hlast
  simp only [view, hp] at hemit
  exact hemit

/-- One action of the loop keeps the trains in order. -/
theorem Drives.view {s t : Writer α} (hd : Drives s t) (h : s.view.Inv) (hpc : s.PcInv) :
    t.view.Inv ∧ t.PcInv := by
  have hsettled (hquiet : Quiet s.pc) : s.Settled := (pcInv_iff_settled hquiet).mp hpc
  have hsame (hflight : chunkInFlight s.pc = []) (hrun : outcomeOf s.pc = none) (pc : WriterPc α)
      (hflight' : chunkInFlight pc = []) (hrun' : outcomeOf pc = none) :
      ({ s with pc := pc } : Writer α).view = s.view := by
    simp only [Writer.view, hflight, hrun, hflight', hrun']
  have hat := hpc
  unfold PcInv at hat
  cases hd with
  | sendPing hp _ =>
    have hs : Quiet s.pc := by rcases hp with hp | hp <;> rw [hp] <;> trivial
    exact quiet_move hs trivial h hpc rfl rfl rfl
  | sendNow hp _ =>
    have hs : Quiet s.pc := by rcases hp with hp | hp <;> rw [hp] <;> trivial
    exact quiet_move hs trivial h hpc rfl rfl rfl
  | noPing hp | notDue hp _ | noTrain hp _ _ | busy hp _ | noNow hp _ | wake hp =>
    exact quiet_move (by rw [hp]; trivial) trivial h hpc rfl rfl rfl
  | chunkDue hp hn hdue =>
    obtain ⟨htrain, hlast⟩ := view_due hp hpc hn hdue
    have hv := hsame (by rw [hp]; rfl) (by rw [hp]; rfl) .pop rfl rfl
    exact ⟨hv ▸ h, htrain, hv ▸ hlast⟩
  | @check _ peerId hp hn hdue hw =>
    obtain ⟨htrain, hlast⟩ := view_due hp hpc hn hdue
    have hv := hsame (by rw [hp]; rfl) (by rw [hp]; rfl) (.presence peerId) rfl rfl
    exact ⟨hv ▸ h, htrain, hw, hv ▸ hlast⟩
  | stillOnline hp =>
    rw [hp] at hat
    have hv := hsame (by rw [hp]; rfl) (by rw [hp]; rfl) .pop rfl rfl
    exact ⟨hv ▸ h, hat.1, hv ▸ hat.2.2⟩
  | depart hp _ =>
    rw [hp] at hat
    refine ⟨view_depart hp h hat.1 hat.2.1, ?_, nofun⟩
    simp
  | @sendChunk m rest hp htrain =>
    rw [hp] at hat
    have hv : ({ s with train := rest, pc := .writing (.chunk m) } : Writer α).view = s.view := by
      simp only [Writer.view, hp, htrain]
      rfl
    refine ⟨hv ▸ h, ?_⟩
    change Trains.LastBefore (Writer.view _) _
    rw [hv]
    exact hat.2
  | popNothing hp htrain =>
    rw [hp] at hat
    exact absurd htrain hat.1
  | advance hp => exact view_advance hp h
  | take hp hfree htrains =>
    have hs : Quiet s.pc := by rcases hp with hp | hp <;> rw [hp] <;> trivial
    have htrain : s.train = [] := hfree.elim id (hsettled hs).1.mp
    exact view_acceptTrain h htrains htrain hs.nothing.1 hs.nothing.2
  | sleep hp _ _ => exact ⟨h, hpc⟩
  | idle hp _ _ _ => exact ⟨h, hpc⟩
  | finish hp hn _ _ =>
    have htrain : s.train = [] := (hsettled (by rw [hp]; trivial)).1.mp hn
    have hfinish := h.finish (by simp only [Writer.view, hp]; rfl)
      (by simp [Writer.view, hp, chunkInFlight, htrain])
    have hv : ({ s with pc := .done .ok } : Writer α).view =
        { s.view with outcome := some .ok } := by
      simp only [Writer.view, hp]
      rfl
    exact ⟨hv ▸ hfinish, trivial⟩
  | fail hp _ => exact ⟨h.halt s.train (Or.inr ⟨_, rfl⟩), trivial⟩
  | wrotePing hp =>
    have hs : Quiet s.pc := by rw [hp]; trivial
    exact write_other h (hsettled hs) (by simp) hs.nothing.1 hs.nothing.2
  | wroteNow hp =>
    have hs : Quiet s.pc := by rw [hp]; trivial
    exact write_other h (hsettled hs) (by simp) hs.nothing.1 hs.nothing.2
  | wroteChunk hp => exact ⟨view_wroteChunk hp h hpc, trivial⟩
  | ended hp => exact ⟨h, hpc⟩

/-- An action of the running loop keeps the queue of ordinary frames when it only moves a
frame from one place to the next. -/
theorem NowInv.move {s t : Writer α} (h : s.NowInv) (hrun : outcomeOf s.pc = none)
    (hrun' : outcomeOf t.pc = none) (hqueued : t.queuedNow = s.queuedNow)
    (hplace : nowLog t.socket ++ nowInFlight t.pc ++ t.nows =
      nowLog s.socket ++ nowInFlight s.pc ++ s.nows)
    (hnow : t.nowClosed = true → t.handleOpen = false ∧ t.nows = [])
    (htrain : t.trainClosed = true → t.handleOpen = false ∧ t.trains = []) : t.NowInv := by
  have hqueue : t.queuedNow = nowLog t.socket ++ nowInFlight t.pc ++ t.nows := by
    rw [hqueued, hplace]
    exact h.queue hrun
  refine ⟨hnow, htrain, fun _ => hqueue, ?_, ?_⟩
  · rw [hqueue, List.append_assoc]
    exact List.prefix_append _ _
  · intro hdone
    rw [hdone] at hrun'
    cases hrun'

theorem NowInv.halt {s : Writer α} (h : s.NowInv) {outcome : Outcome} (hne : outcome ≠ .ok) :
    NowInv { s with pc := .done outcome } where
  nowClosed := h.nowClosed
  trainClosed := h.trainClosed
  queue := fun hrun => by cases hrun
  log := h.log
  ended := fun hok => absurd (WriterPc.done.inj hok) hne

theorem nowInv_popNow {s : Writer α} (h : s.NowInv) {m : α} {rest : List α}
    (hnows : s.nows = m :: rest) (hrun : outcomeOf s.pc = none) (hflight : nowInFlight s.pc = []) :
    NowInv { s with nows := rest, pc := .writing (.now m) } := by
  refine h.move hrun rfl rfl ?_ ?_ h.trainClosed
  · rw [hflight, hnows, List.append_nil, List.append_assoc]
    rfl
  · intro hclosed
    have hnil := (h.nowClosed hclosed).2
    rw [hnows] at hnil
    cases hnil

theorem nowInv_acceptTrain {s : Writer α} (h : s.NowInv) {frame : TrainFrame α}
    {rest : List (TrainFrame α)} (htrains : s.trains = frame :: rest)
    (hrun : outcomeOf s.pc = none) (hflight : nowInFlight s.pc = []) :
    ({ s with trains := rest }.acceptTrain frame).NowInv := by
  refine h.move hrun rfl rfl ?_ h.nowClosed ?_
  · rw [hflight]
    rfl
  · intro hclosed
    have hnil := (h.trainClosed hclosed).2
    rw [htrains] at hnil
    cases hnil

theorem Drives.nowInv {s t : Writer α} (hd : Drives s t) (h : s.NowInv) : t.NowInv := by
  cases hd with
  | sendPing hp _ =>
    rcases hp with hp | hp <;>
      exact h.move (by rw [hp]; rfl) rfl rfl (by rw [hp]; rfl) h.nowClosed h.trainClosed
  | sendNow hp hnows =>
    rcases hp with hp | hp <;> exact nowInv_popNow h hnows (by rw [hp]; rfl) (by rw [hp]; rfl)
  | take hp _ htrains =>
    rcases hp with hp | hp <;>
      exact nowInv_acceptTrain h htrains (by rw [hp]; rfl) (by rw [hp]; rfl)
  | noTrain hp _ htrains =>
    refine h.move (by rw [hp]; rfl) rfl rfl (by rw [hp]; rfl) h.nowClosed ?_
    intro hclosed
    rcases Bool.or_eq_true_iff.mp hclosed with hclosed | hclosed
    · exact h.trainClosed hclosed
    · exact ⟨by simpa using hclosed, htrains⟩
  | noNow hp hnows =>
    refine h.move (by rw [hp]; rfl) rfl rfl (by rw [hp]; rfl) ?_ h.trainClosed
    intro hclosed
    rcases Bool.or_eq_true_iff.mp hclosed with hclosed | hclosed
    · exact h.nowClosed hclosed
    · exact ⟨by simpa using hclosed, hnows⟩
  | finish hp _ hnow htrain =>
    -- Both queues are closed and empty, so everything queued has gone out.
    have hqueue := h.queue (by rw [hp]; rfl)
    rw [hp, (h.nowClosed hnow).2, List.append_nil] at hqueue
    have hall : s.queuedNow = nowLog s.socket := hqueue.trans (List.append_nil _)
    exact ⟨h.nowClosed, h.trainClosed, nofun, h.log, fun _ => ⟨hall.symm, (h.trainClosed htrain).2⟩⟩
  | fail _ _ => exact h.halt (by simp)
  | wrotePing hp | wroteNow hp | wroteChunk hp =>
    refine h.move (by rw [hp]; rfl) rfl rfl ?_ h.nowClosed h.trainClosed
    simp [hp, nowLog, nowFrame, nowInFlight]
  | sleep | idle | ended => exact h
  | noPing hp | chunkDue hp | check hp | notDue hp | stillOnline hp | depart hp | sendChunk hp
  | popNothing hp | advance hp | busy hp | wake hp =>
    exact h.move (by rw [hp]; rfl) rfl rfl (by rw [hp]; rfl) h.nowClosed h.trainClosed

theorem PcInv.mono {s t : Writer α} (h : s.PcInv) (hpc : t.pc = s.pc) (htrain : t.train = s.train)
    (hwatch : t.trainWatchTarget = s.trainWatchTarget) (hnext : t.nextChunkAt = s.nextChunkAt)
    (hlast : ∀ d, s.view.LastBefore d → t.view.LastBefore d) (hclock : s.clock ≤ t.clock) :
    t.PcInv := by
  have hlater : s.view.LastBefore s.clock → t.view.LastBefore t.clock :=
    fun hs => hlast _ fun e he => (hs e he).trans hclock
  have hset : s.Settled → t.Settled := by
    rintro ⟨hiff, hd⟩
    refine ⟨?_, fun d hnd => hlast d (hd d ?_)⟩
    · rw [hnext, htrain]
      exact hiff
    · rw [← hnext]
      exact hnd
  unfold PcInv at h ⊢
  rw [hpc, htrain, hwatch]
  split at h
  · exact ⟨h.1, h.2.1, hlater h.2.2⟩
  · exact ⟨h.1, hlater h.2⟩
  · exact hlater h
  · trivial
  · trivial
  · exact hset h

theorem PcInv.of_view {s t : Writer α} (h : s.PcInv) (hpc : t.pc = s.pc)
    (htrain : t.train = s.train) (hnext : t.nextChunkAt = s.nextChunkAt)
    (hview : t.view = s.view) : t.PcInv :=
  h.mono hpc htrain (congrArg Trains.watchTarget hview) hnext (fun d hd => by rw [hview]; exact hd)
    (congrArg Trains.clock hview).ge

theorem not_isDone {s : Writer α} (h : ¬ s.isDone = true) : outcomeOf s.pc = none := by
  unfold isDone at h
  cases hpc : s.pc with
  | done outcome =>
    rw [hpc] at h
    exact absurd rfl h
  | _ => rfl

theorem outcomeOf_eq_some {pc : WriterPc α} {outcome : Outcome} :
    outcomeOf pc = some outcome ↔ pc = .done outcome := by
  cases pc <;> simp [outcomeOf]

def FailedBySocket (s : Writer α) : Prop :=
  ∀ error, s.pc = .done (.failed error) →
    ∃ cause, s.socketError = some cause ∧ error = "broker publish failed: " ++ cause

structure Reached (s : Writer α) : Prop extends Inv s where
  failed : s.FailedBySocket

theorem reached_sendPing {s : Writer α} (h : s.Reached) (message : α) :
    (s.sendPing message).1.Reached := by
  unfold sendPing
  split_ifs
  · exact h
  · exact ⟨⟨h.view, h.pc.of_view rfl rfl rfl rfl,
      ⟨h.now.nowClosed, h.now.trainClosed, h.now.queue, h.now.log, h.now.ended⟩⟩, h.failed⟩
  · exact h

theorem reached_sendNow {s : Writer α} (h : s.Reached) (hopen : s.handleOpen = true) (message : α) :
    (s.sendNow message).1.Reached := by
  unfold sendNow
  split_ifs with hdone
  · exact h
  · have hrun := not_isDone hdone
    refine ⟨⟨h.view, h.pc.of_view rfl rfl rfl rfl, ⟨?_, h.now.trainClosed, ?_, ?_, ?_⟩⟩, h.failed⟩
    · intro hclosed
      have hno := (h.now.nowClosed hclosed).1
      rw [hopen] at hno
      cases hno
    · intro _
      dsimp only
      rw [h.now.queue hrun, List.append_assoc, List.append_assoc]
    · exact h.now.log.trans (List.prefix_append _ _)
    · intro hok
      rw [show s.pc = _ from hok] at hrun
      cases hrun
  · exact h

theorem reached_sendTrain {s : Writer α} (h : s.Reached) (hopen : s.handleOpen = true)
    (chunks : List α) (interval : Nat) (watchTarget : Option String) :
    (s.sendTrain chunks interval watchTarget).1.Reached := by
  unfold sendTrain
  split_ifs with hne hdone hroom
  · exact h
  · exact h
  · have hrun := not_isDone hdone
    refine ⟨⟨h.view.submit hne, ?_, ⟨h.now.nowClosed, ?_, h.now.queue, h.now.log, ?_⟩⟩, h.failed⟩
    · exact h.pc.mono rfl rfl rfl rfl (fun d hd => hd) le_rfl
    · intro hclosed
      have hno := (h.now.trainClosed hclosed).1
      rw [hopen] at hno
      cases hno
    · intro hok
      rw [show s.pc = _ from hok] at hrun
      cases hrun
  · exact h

theorem Drives.frame {s t : Writer α} (hd : Drives s t) :
    t.socketError = s.socketError ∧ t.queuedNow = s.queuedNow ∧ t.submitted = s.submitted := by
  cases hd <;> exact ⟨rfl, rfl, rfl⟩

theorem Drives.outcome {s t : Writer α} (hd : Drives s t) :
    outcomeOf t.pc = none ∨ outcomeOf t.pc = outcomeOf s.pc ∨ outcomeOf t.pc = some .ok ∨
    ∃ cause, s.socketError = some cause ∧
      outcomeOf t.pc = some (.failed ("broker publish failed: " ++ cause)) := by
  cases hd with
  | sleep | idle | ended => exact Or.inr (Or.inl rfl)
  | finish => exact Or.inr (Or.inr (Or.inl rfl))
  | fail _ herror => exact Or.inr (Or.inr (Or.inr ⟨_, herror, rfl⟩))
  | _ => exact Or.inl rfl

theorem Drives.failed {s t : Writer α} (hd : Drives s t) (h : s.FailedBySocket) :
    t.FailedBySocket := by
  intro error herror
  have hout : outcomeOf t.pc = some (.failed error) := by rw [herror]; rfl
  rw [hd.frame.1]
  rcases hd.outcome with hnone | hsame | hok | ⟨cause, hcause, hfailed⟩
  · rw [hnone] at hout
    cases hout
  · exact h error (outcomeOf_eq_some.mp (hsame ▸ hout))
  · rw [hok] at hout
    cases hout
  · rw [hfailed] at hout
    exact ⟨cause, hcause, (Outcome.failed.inj (Option.some.inj hout)).symm⟩

theorem reached_step {s : Writer α} (h : s.Reached) (e : WriterEvent α) : (s.step e).Reached := by
  cases e with
  | sendPing message =>
    simp only [step]
    split_ifs
    · exact reached_sendPing h message
    · exact h
  | sendNow message =>
    simp only [step]
    split_ifs with hopen
    · exact reached_sendNow h hopen message
    · exact h
  | sendTrain chunks interval watchTarget =>
    simp only [step]
    split_ifs with hopen
    · exact reached_sendTrain h hopen chunks interval watchTarget
    · exact h
  | presence peerId online =>
    exact ⟨⟨h.view, h.pc.of_view rfl rfl rfl rfl,
      ⟨h.now.nowClosed, h.now.trainClosed, h.now.queue, h.now.log, h.now.ended⟩⟩, h.failed⟩
  | tick elapsed =>
    exact ⟨⟨h.view.tick elapsed, h.pc.mono rfl rfl rfl rfl (fun d hd => hd) (Nat.le_add_right _ _),
      ⟨h.now.nowClosed, h.now.trainClosed, h.now.queue, h.now.log, h.now.ended⟩⟩, h.failed⟩
  | closeSocket cause =>
    refine ⟨⟨h.view, h.pc.of_view rfl rfl rfl rfl,
      ⟨h.now.nowClosed, h.now.trainClosed, h.now.queue, h.now.log, h.now.ended⟩⟩, ?_⟩
    intro error herror
    obtain ⟨first, hfirst, htext⟩ := h.failed error herror
    exact ⟨first, by simp [step, hfirst], htext⟩
  | dropHandle =>
    exact ⟨⟨h.view, h.pc.of_view rfl rfl rfl rfl,
      ⟨fun hc => ⟨rfl, (h.now.nowClosed hc).2⟩, fun hc => ⟨rfl, (h.now.trainClosed hc).2⟩,
        h.now.queue, h.now.log, h.now.ended⟩⟩, h.failed⟩
  | abort =>
    simp only [step]
    split_ifs
    · exact h
    · refine ⟨⟨h.view.halt s.train (Or.inl rfl), trivial, h.now.halt (by simp)⟩, ?_⟩
      intro error herror
      cases herror
  | drive =>
    have hd := s.drives
    obtain ⟨hview, hpc⟩ := hd.view h.view h.pc
    exact ⟨⟨hview, hpc, hd.nowInv h.now⟩, hd.failed h.failed⟩

end Writer

end AgentRelay.Broker
