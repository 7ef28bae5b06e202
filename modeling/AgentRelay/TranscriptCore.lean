import AgentRelay.RelayTranscript

/-! What the relay's state says about transcripts, with everything else forgotten: the
clock, the selected thread, its mirror, and the revision and content of every runtime.
The relay's operations act on this view as a handful of primitive moves. -/
namespace AgentRelay.Relay
open Std

abbrev Content := List TranscriptRecord × Table FileChangeApplyState

def Content.views (c : Content) : List TranscriptEntryView := transcriptViewsOf c.1 c.2

def emptyContent : Content := ([], ∅)

structure Transcripts where
  clock : Nat
  issued : List Nat
  active : Option String
  mirror : Nat × Content
  runtime : String → Option (Nat × Content)

namespace Transcripts

/-- What a reader of a thread gets: its runtime, or the mirror of the selected thread. -/
def shown (c : Transcripts) (threadId : String) : Option (Nat × Content) :=
  match c.runtime threadId with
  | some entry => some entry
  | none => if c.active = some threadId then some c.mirror else none

def mint (c : Transcripts) : Transcripts :=
  let revision := saturatingAdd c.clock 1
  { c with clock := revision, issued := c.issued ++ [revision] }

def put (c : Transcripts) (threadId : String) (entry : Nat × Content) : Transcripts :=
  { c with runtime := Function.update c.runtime threadId (some entry) }

def putFresh (c : Transcripts) (threadId : String) (content : Content) : Transcripts :=
  c.mint.put threadId (c.mint.clock, content)

def materialize (c : Transcripts) : Transcripts :=
  match c.active with
  | none => c
  | some threadId =>
    if (c.runtime threadId).isSome then c else c.putFresh threadId c.mirror.2

def ensure (c : Transcripts) (threadId : String) : Transcripts :=
  if (c.runtime threadId).isSome then c
  else if c.active = some threadId then c.putFresh threadId c.mirror.2
  else c.putFresh threadId emptyContent

def sync (c : Transcripts) : Transcripts :=
  { c with mirror := (c.active.bind c.runtime).getD (c.clock, emptyContent) }

def syncIf (c : Transcripts) (threadId : String) : Transcripts :=
  if c.active = some threadId then c.sync else c

/-- A write to a thread: its runtime, then the new content under a fresh revision. -/
def write (c : Transcripts) (threadId : String) (content : Content) : Transcripts :=
  ((c.ensure threadId).putFresh threadId content).syncIf threadId

def stampMirror (c : Transcripts) (threadId : String) : Transcripts :=
  if c.active = some threadId then { c with mirror := (c.clock, c.mirror.2) } else c

/-- A bare bump: the content stays, and so does the mirror's. -/
def bump (c : Transcripts) (threadId : String) : Transcripts :=
  let c := c.ensure threadId
  (c.putFresh threadId (((c.runtime threadId).map (·.2)).getD emptyContent)).stampMirror threadId

/-- A write with no thread selected: the mirror alone takes it, under a fresh revision. -/
def writeMirror (c : Transcripts) (content : Content) : Transcripts :=
  { c.mint with mirror := (c.mint.clock, content) }

def select (c : Transcripts) (threadId : String) (entry : Nat × Content) : Transcripts :=
  ({ c with active := some threadId }.put threadId entry).sync

/-- Drop the selected thread with its runtime; the mirror parks at the clock. -/
def clear (c : Transcripts) : Transcripts :=
  { c with
    active := none
    mirror := (c.clock, emptyContent)
    runtime := match c.active with
      | some threadId => Function.update c.runtime threadId none
      | none => c.runtime }

def promotedEntry (pending : Nat × Content) : Option (Nat × Content) → Nat × Content
  | none => pending
  | some existing =>
    if pending.2.1.length ≤ existing.2.1.length then existing
    else (max pending.1 existing.1, pending.2)

def promoteRuntime (c : Transcripts) (pendingId realId : String) : Transcripts :=
  match c.runtime pendingId with
  | none => c
  | some pending =>
    { c with
      runtime := Function.update (Function.update c.runtime pendingId none) realId
        (some (promotedEntry pending (c.runtime realId))) }

def promote (c : Transcripts) (pendingId realId : String) : Transcripts :=
  if pendingId = realId ∨ pendingId = "" ∨ realId = "" then c
  else ((c.promoteRuntime pendingId realId).ensure realId).syncIf realId

def resumeClock (c : Transcripts) (saved : Nat) : Transcripts :=
  { c with clock := max c.clock saved }

@[simp] theorem put_put (c : Transcripts) (threadId : String) (e e' : Nat × Content) :
    (c.put threadId e).put threadId e' = c.put threadId e' := by
  simp [put]

theorem putFresh_put (c : Transcripts) (threadId : String) (e : Nat × Content)
    (content : Content) : (c.put threadId e).putFresh threadId content =
      c.putFresh threadId content := by
  simp [putFresh, put, mint]

theorem put_putFresh (c : Transcripts) (threadId : String) (content content' : Content) :
    (c.putFresh threadId content).put threadId (c.mint.clock, content') =
      c.putFresh threadId content' := by
  simp [putFresh]

@[simp] theorem stampMirror_runtime (c : Transcripts) (threadId : String) :
    (c.stampMirror threadId).runtime = c.runtime := by
  unfold stampMirror
  split_ifs <;> rfl

theorem stampMirror_put (c : Transcripts) (threadId : String) (e : Nat × Content) :
    (c.stampMirror threadId).put threadId e = (c.put threadId e).stampMirror threadId := by
  unfold stampMirror
  split_ifs with h h' h'
  · rfl
  · exact absurd h h'
  · exact absurd h' h
  · rfl

theorem syncIf_stampMirror (c : Transcripts) (threadId : String) :
    (c.stampMirror threadId).syncIf threadId = c.syncIf threadId := by
  unfold stampMirror syncIf sync
  by_cases h : c.active = some threadId
  · simp only [h, if_true]
  · simp only [h, if_false]

theorem sync_congr {c d : Transcripts} (hclock : c.clock = d.clock)
    (hissued : c.issued = d.issued) (hactive : c.active = d.active)
    (hruntime : c.runtime = d.runtime) : c.sync = d.sync := by
  simp only [sync, hclock, hissued, hactive, hruntime]

inductive Moves (c : Transcripts) : Transcripts → Prop
  | stay : Moves c c
  | ensure (threadId : String) : Moves c (c.ensure threadId)
  | touch (threadId : String) : Moves c ((c.ensure threadId).syncIf threadId)
  | materialize : Moves c c.materialize
  | sync : Moves c c.sync
  | write (threadId : String) (content : Content) : Moves c (c.write threadId content)
  | bump (threadId : String) : Moves c (c.bump threadId)
  | writeMirror (content : Content) (h : c.active = none) : Moves c (c.writeMirror content)
  | load (threadId : String) (entry : Nat × Content)
      (h : c.materialize.mint.runtime threadId = some entry ∨
        entry.1 = c.materialize.mint.clock) :
      Moves c (c.materialize.mint.select threadId entry)
  | hydrate (threadId : String) (content : Content) (h : c.runtime threadId = none) :
      Moves c (c.putFresh threadId content)
  | clear : Moves c c.clear
  | restore (saved : Nat) (threadId : String) (content : Content) :
      Moves c (((c.resumeClock saved).mint.resumeClock saved).select threadId
        ((c.resumeClock saved).mint.clock, content))

end Transcripts

end AgentRelay.Relay
