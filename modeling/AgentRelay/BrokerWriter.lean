import Mathlib.Data.List.Basic
import Mathlib.Logic.Function.Basic

/-! The task that owns the write half of the broker socket. Three queues feed it: pings,
ordinary frames and chunk trains. The loop is modelled one await point at a time, so that
anything may happen between two of its actions. -/
namespace AgentRelay.Broker

structure TrainFrame (α : Type) where
  chunks : List α
  interval : Nat
  watchTarget : Option String
  deriving DecidableEq, Repr

inductive TrainHandoff
  | queued
  | busy
  deriving DecidableEq, Repr

inductive Outgoing (α : Type)
  | ping (message : α)
  | now (message : α)
  | chunk (message : α)
  deriving DecidableEq, Repr

/-- A frame the socket took; a chunk says which train it belongs to. -/
inductive Sent (α : Type)
  | ping (message : α)
  | now (message : α)
  | chunk (train : Nat) (message : α)
  deriving DecidableEq, Repr

inductive Outcome
  | ok
  | failed (error : String)
  | aborted
  deriving DecidableEq, Repr

inductive WriterPc (α : Type)
  | top
  | due
  | presence (peerId : String)
  | pop
  | advance
  | accept
  | now
  | wait
  | writing (out : Outgoing α)
  | done (outcome : Outcome)
  deriving DecidableEq, Repr

def nowQueueCapacity : Nat := 512
def trainQueueCapacity : Nat := 1
def pingQueueCapacity : Nat := 4

structure Writer (α : Type) where
  pings : List α := []
  nows : List α := []
  trains : List (TrainFrame α) := []
  /-- The session still holds its sending handle. -/
  handleOpen : Bool := true
  train : List α := []
  trainInterval : Nat := 0
  trainWatchTarget : Option String := none
  nextChunkAt : Option Nat := none
  lastChunkAt : Option Nat := none
  nowClosed : Bool := false
  trainClosed : Bool := false
  pc : WriterPc α := .top
  clock : Nat := 0
  socketError : Option String := none
  online : String → Bool := fun _ => true
  /-- What the socket took, each frame with its time. -/
  socket : List (Nat × Sent α) := []
  /-- History: the ordinary frames and the trains handed over. -/
  queuedNow : List α := []
  submitted : List (TrainFrame α) := []
  /-- History: the trains taken from the queue. -/
  taken : List (TrainFrame α) := []
  /-- History: the trains stopped because their surface was seen offline. -/
  departed : List (Nat × String) := []

namespace Writer

variable {α : Type}

def isDone (s : Writer α) : Bool :=
  match s.pc with
  | .done _ => true
  | _ => false

def stopped : String := "broker writer task has stopped"

/-- Enqueue a heartbeat; a full queue drops it. -/
def sendPing (s : Writer α) (message : α) : Writer α × Except String Unit :=
  if s.isDone then (s, .error stopped)
  else if s.pings.length < pingQueueCapacity then ({ s with pings := s.pings ++ [message] }, .ok ())
  else (s, .ok ())

/-- Enqueue an ordinary frame; with a full queue the caller keeps waiting. -/
def sendNow (s : Writer α) (message : α) : Writer α × Option (Except String Unit) :=
  if s.isDone then (s, some (.error stopped))
  else if s.nows.length < nowQueueCapacity then
    ({ s with nows := s.nows ++ [message], queuedNow := s.queuedNow ++ [message] },
      some (.ok ()))
  else (s, none)

def sendTrain (s : Writer α) (chunks : List α) (interval : Nat) (watchTarget : Option String) :
    Writer α × Except String TrainHandoff :=
  if chunks = [] then (s, .ok .queued)
  else if s.isDone then (s, .error stopped)
  else if s.trains.length < trainQueueCapacity then
    let frame : TrainFrame α := ⟨chunks, interval, watchTarget⟩
    ({ s with trains := s.trains ++ [frame], submitted := s.submitted ++ [frame] }, .ok .queued)
  else (s, .ok .busy)

def advanceTrain (train : List α) (now interval : Nat) : Option Nat :=
  if train = [] then none else some (now + interval)

/-- Take a train on: its first chunk is due as soon as pacing allows. -/
def acceptTrain (s : Writer α) (frame : TrainFrame α) : Writer α :=
  { s with
    train := s.train ++ frame.chunks
    trainInterval := frame.interval
    trainWatchTarget := frame.watchTarget
    nextChunkAt := some (match s.lastChunkAt with
      | some last => max (last + frame.interval) s.clock
      | none => s.clock)
    taken := s.taken ++ [frame]
    pc := .top }

/-- Wait for whichever comes first of a ping, an ordinary frame and the due chunk. A closed
ping queue is ready at once, with nothing to send. -/
def waitForChunk (s : Writer α) (deadline : Nat) : Writer α :=
  if s.nowClosed then
    if deadline ≤ s.clock then { s with pc := .top } else s
  else
    match s.pings, s.nows with
    | message :: rest, _ => { s with pings := rest, pc := .writing (.ping message) }
    | [], message :: rest =>
      if s.handleOpen then { s with nows := rest, pc := .writing (.now message) }
      else { s with pc := .top }
    | [], [] => if s.handleOpen ∧ s.clock < deadline then s else { s with pc := .top }

/-- Wait with no train resident. -/
def waitIdle (s : Writer α) : Writer α :=
  if s.nowClosed && s.trainClosed then { s with pc := .done .ok }
  else
    match s.pings with
    | message :: rest => { s with pings := rest, pc := .writing (.ping message) }
    | [] =>
      if !s.handleOpen then { s with pc := .top }
      else
        match s.nows, s.trains with
        | message :: rest, _ => { s with nows := rest, pc := .writing (.now message) }
        | [], frame :: rest => { s with trains := rest }.acceptTrain frame
        | [], [] => s

/-- A write comes back: the socket took the frame, or the task ends with its error. -/
def finishWrite (s : Writer α) (out : Outgoing α) : Writer α :=
  match s.socketError with
  | some error => { s with pc := .done (.failed ("broker publish failed: " ++ error)) }
  | none =>
    match out with
    | .ping message =>
      { s with socket := s.socket ++ [(s.clock, .ping message)], pc := .top }
    | .now message =>
      { s with socket := s.socket ++ [(s.clock, .now message)], pc := .top }
    | .chunk message =>
      { s with
        socket := s.socket ++ [(s.clock, .chunk (s.taken.length - 1) message)]
        lastChunkAt := some s.clock
        pc := .advance }

/-- The next action of `drive_writer`. -/
def drive (s : Writer α) : Writer α :=
  match s.pc with
  | .top =>
    match s.pings with
    | message :: rest => { s with pings := rest, pc := .writing (.ping message) }
    | [] => { s with pc := .due }
  | .due =>
    match s.nextChunkAt with
    | some deadline =>
      if deadline ≤ s.clock then
        match s.trainWatchTarget with
        | some peerId => { s with pc := .presence peerId }
        | none => { s with pc := .pop }
      else { s with pc := .accept }
    | none => { s with pc := .accept }
  | .presence peerId =>
    if s.online peerId then { s with pc := .pop }
    else
      { s with
        train := []
        trainWatchTarget := none
        nextChunkAt := none
        departed := s.departed ++ [(s.taken.length - 1, peerId)]
        pc := .top }
  | .pop =>
    match s.train with
    | message :: rest => { s with train := rest, pc := .writing (.chunk message) }
    | [] => { s with pc := .advance }
  | .advance =>
    { s with nextChunkAt := advanceTrain s.train s.clock s.trainInterval, pc := .top }
  | .accept =>
    if s.train = [] then
      match s.trains with
      | frame :: rest => { s with trains := rest }.acceptTrain frame
      | [] => { s with trainClosed := s.trainClosed || !s.handleOpen, pc := .now }
    else { s with pc := .now }
  | .now =>
    match s.nows with
    | message :: rest => { s with nows := rest, pc := .writing (.now message) }
    | [] => { s with nowClosed := s.nowClosed || !s.handleOpen, pc := .wait }
  | .wait =>
    match s.nextChunkAt with
    | some deadline => s.waitForChunk deadline
    | none => s.waitIdle
  | .writing out => s.finishWrite out
  | .done _ => s

end Writer

inductive WriterEvent (α : Type)
  | sendPing (message : α)
  | sendNow (message : α)
  | sendTrain (chunks : List α) (interval : Nat) (watchTarget : Option String)
  | presence (peerId : String) (online : Bool)
  | tick (elapsed : Nat)
  | closeSocket (error : String)
  | dropHandle
  | abort
  | drive

/-- Sends need the handle; an aborted or finished task acts no more. -/
def Writer.step {α : Type} (s : Writer α) : WriterEvent α → Writer α
  | .sendPing message => if s.handleOpen then (s.sendPing message).1 else s
  | .sendNow message => if s.handleOpen then (s.sendNow message).1 else s
  | .sendTrain chunks interval watchTarget =>
    if s.handleOpen then (s.sendTrain chunks interval watchTarget).1 else s
  | .presence peerId online => { s with online := Function.update s.online peerId online }
  | .tick elapsed => { s with clock := s.clock + elapsed }
  | .closeSocket error => { s with socketError := some (s.socketError.getD error) }
  | .dropHandle => { s with handleOpen := false }
  | .abort => if s.isDone then s else { s with pc := .done .aborted }
  | .drive => s.drive

end AgentRelay.Broker
