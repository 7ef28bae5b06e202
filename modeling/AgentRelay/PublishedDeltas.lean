import AgentRelay.DeltaStream
import AgentRelay.TranscriptClock

/-! Deltas as they are published. Agent text and command output are appended to items of the active
thread, of a thread in the background, or with no thread active to the legacy transcript; a replica
that follows appends the wire text of each mutation. -/
namespace AgentRelay.Relay
open Text StepRun

namespace Transcripts

def recordsOf (c : Transcripts) : Option String → List TranscriptRecord
  | some threadId => (c.contentOf threadId).1
  | none => c.mirror.2.1

def tip (c : Transcripts) : Option String → Option Nat
  | some threadId => (c.runtime threadId).map (·.1)
  | none => some c.mirror.1

/-- Records written to a thread, or to the legacy transcript with no thread active; the revisions
are those before and after. -/
def Writes (c : Transcripts) (scope : Option String) (records : List TranscriptRecord)
    (revisions : Nat × Nat) (d : Transcripts) : Prop :=
  revisions.2 = d.clock ∧
    match scope with
    | some threadId =>
      (c.ensure threadId).tip scope = some revisions.1 ∧
        ∃ states, d = c.write threadId (records, states)
    | none =>
      c.active = none ∧ c.mirror.1 = revisions.1 ∧ ∃ states, d = c.writeMirror (records, states)

variable {c d : Transcripts} {scope other : Option String} {records : List TranscriptRecord}
  {revisions : Nat × Nat}

theorem active_ensure (c : Transcripts) (threadId : String) :
    (c.ensure threadId).active = c.active := by
  unfold ensure
  split_ifs <;> rfl

theorem active_syncIf (c : Transcripts) (threadId : String) :
    (c.syncIf threadId).active = c.active := by
  unfold syncIf
  split_ifs <;> rfl

theorem active_write (c : Transcripts) (threadId : String) (content : Content) :
    (c.write threadId content).active = c.active := by
  unfold write
  rw [active_syncIf]
  exact active_ensure c threadId

theorem runtime_syncIf (c : Transcripts) (threadId : String) :
    (c.syncIf threadId).runtime = c.runtime := by
  unfold syncIf
  split_ifs <;> rfl

theorem clock_syncIf (c : Transcripts) (threadId : String) :
    (c.syncIf threadId).clock = c.clock := by
  unfold syncIf
  split_ifs <;> rfl

theorem runtime_ensure_of_ne (c : Transcripts) {threadId t : String} (h : t ≠ threadId) :
    (c.ensure threadId).runtime t = c.runtime t := by
  unfold ensure
  split_ifs
  · rfl
  · exact Function.update_of_ne h _ _
  · exact Function.update_of_ne h _ _

theorem runtime_write_self (c : Transcripts) (threadId : String) (content : Content) :
    (c.write threadId content).runtime threadId =
      some ((c.write threadId content).clock, content) := by
  unfold write
  rw [runtime_syncIf, clock_syncIf]
  exact Function.update_self ..

theorem runtime_write_of_ne (c : Transcripts) {threadId t : String} (content : Content)
    (h : t ≠ threadId) : (c.write threadId content).runtime t = c.runtime t := by
  unfold write
  rw [runtime_syncIf]
  exact (Function.update_of_ne h _ _).trans (runtime_ensure_of_ne c h)

theorem mirror_write (c : Transcripts) (threadId : String) (content : Content)
    (h : c.active = none) : (c.write threadId content).mirror = c.mirror := by
  have hensure : (c.ensure threadId).mirror = c.mirror := by
    unfold ensure
    split_ifs <;> rfl
  have hactive : ((c.ensure threadId).putFresh threadId content).active = none :=
    (active_ensure c threadId).trans h
  unfold write syncIf
  rw [hactive, if_neg (by simp)]
  exact hensure

theorem Writes.active (h : c.Writes scope records revisions d) : d.active = c.active := by
  obtain ⟨-, hscope⟩ := h
  cases scope with
  | some threadId =>
    obtain ⟨-, states, rfl⟩ := hscope
    exact active_write c threadId _
  | none =>
    obtain ⟨-, -, states, rfl⟩ := hscope
    rfl

theorem Writes.later (h : c.Writes scope records revisions d) : c.Later d := by
  obtain ⟨-, hscope⟩ := h
  cases scope with
  | some threadId =>
    obtain ⟨-, states, rfl⟩ := hscope
    exact later_write c threadId _
  | none =>
    obtain ⟨hactive, -, states, rfl⟩ := hscope
    exact later_writeMirror c _ hactive

theorem Writes.recordsOf (h : c.Writes scope records revisions d)
    (hother : other = none → c.active = none) :
    d.recordsOf other = if other = scope then records else c.recordsOf other := by
  obtain ⟨-, hscope⟩ := h
  cases scope with
  | some threadId =>
    obtain ⟨-, states, rfl⟩ := hscope
    cases other with
    | some t =>
      by_cases ht : t = threadId
      · subst ht
        rw [if_pos rfl]
        exact congrArg Prod.fst (contentOf_write_self c t _)
      · rw [if_neg (by simpa using ht)]
        exact congrArg Prod.fst (contentOf_write_of_ne c _ ht)
    | none =>
      rw [if_neg (by simp)]
      exact congrArg (fun mirror => mirror.2.1) (mirror_write c threadId _ (hother rfl))
  | none =>
    obtain ⟨hactive, -, states, rfl⟩ := hscope
    cases other with
    | some t =>
      have hshown : (c.writeMirror (records, states)).shown t = c.shown t := by
        have hactive' : (c.writeMirror (records, states)).active = none := hactive
        have hruntime : (c.writeMirror (records, states)).runtime = c.runtime := rfl
        unfold shown
        rw [hruntime, hactive', hactive]
        rfl
      rw [if_neg (by simp)]
      exact congrArg (fun entry => ((entry.map (·.2)).getD emptyContent).1) hshown
    | none => rfl

theorem Writes.tip (h : c.Writes scope records revisions d)
    (hother : other = none → c.active = none) :
    d.tip other = if other = scope then some revisions.2 else c.tip other := by
  obtain ⟨hrevision, hscope⟩ := h
  cases scope with
  | some threadId =>
    obtain ⟨-, states, rfl⟩ := hscope
    cases other with
    | some t =>
      by_cases ht : t = threadId
      · subst ht
        rw [if_pos rfl, hrevision]
        exact congrArg (Option.map (·.1)) (runtime_write_self c t _)
      · rw [if_neg (by simpa using ht)]
        exact congrArg (Option.map (·.1)) (runtime_write_of_ne c _ ht)
    | none =>
      rw [if_neg (by simp)]
      exact congrArg (fun mirror => some mirror.1) (mirror_write c threadId _ (hother rfl))
  | none =>
    obtain ⟨-, -, states, rfl⟩ := hscope
    cases other with
    | some t =>
      rw [if_neg (by simp)]
      rfl
    | none =>
      rw [if_pos rfl, hrevision]
      rfl

theorem Writes.base (h : c.Writes scope records revisions d) {revision : Nat}
    (htip : c.tip scope = some revision) : revisions.1 = revision := by
  obtain ⟨-, hscope⟩ := h
  cases scope with
  | some threadId =>
    obtain ⟨hbase, -⟩ := hscope
    obtain ⟨entry, hentry, -⟩ := Option.map_eq_some_iff.mp htip
    have hensure : c.ensure threadId = c := if_pos (by rw [hentry]; rfl)
    rw [hensure, htip] at hbase
    exact (Option.some.inj hbase).symm
  | none =>
    obtain ⟨-, hbase, -⟩ := hscope
    rw [← hbase]
    exact Option.some.inj htip

theorem Writes.lt (h : c.Writes scope records revisions d) (hsound : c.Sound)
    (hlt : d.clock < u64Max) : revisions.1 < revisions.2 ∧ c.clock < revisions.2 := by
  obtain ⟨hrevision, hscope⟩ := h
  rw [hrevision]
  cases scope with
  | some threadId =>
    obtain ⟨hbase, states, rfl⟩ := hscope
    have hclock : (c.write threadId (records, states)).clock = (c.ensure threadId).mint.clock :=
      clock_syncIf _ threadId
    rw [hclock] at hlt ⊢
    have hmint := mint_clock_of_lt hlt
    have hlt' : (c.ensure threadId).clock < u64Max := by omega
    have hle := (later_ensure c threadId).clock_le hlt'
    obtain ⟨entry, hentry, hrev⟩ := Option.map_eq_some_iff.mp hbase
    have hbound := ((later_ensure c threadId).sound hlt' hsound).runtime_le threadId entry hentry
    omega
  | none =>
    obtain ⟨-, hbase, states, rfl⟩ := hscope
    have hclock : (c.writeMirror (records, states)).clock = c.mint.clock := rfl
    rw [hclock] at hlt ⊢
    have hmint := mint_clock_of_lt hlt
    have hbound := hsound.mirror_le
    omega

end Transcripts

inductive DeltaCall
  | agent (itemId delta turnId : String)
  | agentForThread (threadId itemId delta turnId : String)
  | command (itemId delta : String)
  | commandForThread (threadId itemId delta : String)
  deriving DecidableEq, Repr

namespace DeltaCall

def itemId : DeltaCall → String
  | agent itemId _ _ => itemId
  | agentForThread _ itemId _ _ => itemId
  | command itemId _ => itemId
  | commandForThread _ itemId _ => itemId

def delta : DeltaCall → String
  | agent _ delta _ => delta
  | agentForThread _ _ delta _ => delta
  | command _ delta => delta
  | commandForThread _ _ delta => delta

/-- The thread a call appends to; none for the legacy transcript. -/
def scope (active : Option String) : DeltaCall → Option String
  | agent .. => active
  | agentForThread threadId .. => some threadId
  | command .. => active
  | commandForThread threadId .. => some threadId

def appendTo (text : String) : DeltaCall → String
  | agent _ delta _ => text ++ delta
  | agentForThread _ _ delta _ => text ++ delta
  | command _ delta => appendCommandText text delta
  | commandForThread _ _ delta => appendCommandText text delta

end DeltaCall

namespace RelayState

def deltaCall (s : RelayState) (now : Nat) : DeltaCall → RelayState × TranscriptMutationMeta
  | .agent itemId delta turnId => s.appendAgentDelta now itemId delta turnId
  | .agentForThread threadId itemId delta turnId =>
    s.appendAgentDeltaForThread now threadId itemId delta turnId
  | .command itemId delta => s.appendCommandDelta now itemId delta
  | .commandForThread threadId itemId delta =>
    s.appendCommandDeltaForThread now threadId itemId delta

def scopedText (s : RelayState) (scope : Option String) (itemId : String) : String :=
  itemText (s.transcripts.recordsOf scope) itemId

/-- An append to the legacy transcript that inserts a separator: its mutation does not say so. -/
def hidesSeparator (s : RelayState) : DeltaCall → Bool
  | .command itemId delta =>
    s.activeThreadId.isNone && needsSeparator (s.scopedText none itemId) delta
  | _ => false

def replica (scope : Option String) (itemId : String) :
    RelayState → String → List (Nat × DeltaCall) → String
  | _, text, [] => text
  | s, text, (now, call) :: calls =>
    let (s', mutation) := s.deltaCall now call
    replica scope itemId s'
      (if scope = call.scope s.activeThreadId ∧ itemId = call.itemId then
        text ++ mutation.wireDelta call.delta else text) calls

def publishedMutations (scope : Option String) :
    RelayState → List (Nat × DeltaCall) → List TranscriptMutationMeta
  | _, [] => []
  | s, (now, call) :: calls =>
    let (s', mutation) := s.deltaCall now call
    if scope = call.scope s.activeThreadId then mutation :: publishedMutations scope s' calls
    else publishedMutations scope s' calls

def callStep (s : RelayState) (call : Nat × DeltaCall) : RelayState :=
  (s.deltaCall call.1 call.2).1

def afterCalls (s : RelayState) (calls : List (Nat × DeltaCall)) : RelayState :=
  run callStep s calls

variable {s : RelayState} {scope : Option String}

theorem bump_of_some (now : Nat) {threadId : String} {rt : ThreadRuntime}
    (h : s.runtimes[threadId]? = some rt) :
    (s.bumpThreadTranscriptRevision now threadId).2 =
      (rt.transcriptRevision, saturatingAdd s.transcriptClock 1) := by
  have hcontains : (s.touchThreadLastActivity now threadId).runtimes.contains threadId := by
    rw [Std.ExtTreeMap.contains_eq_isSome_getElem?]
    exact Option.isSome_iff_exists.mpr ⟨rt, h⟩
  have hget : (s.touchThreadLastActivity now threadId).nextTranscriptRevision.1.runtimes[threadId]? =
      some rt := h
  unfold bumpThreadTranscriptRevision
  dsimp only
  rw [if_pos hcontains, hget]
  rfl

theorem writes_thread (s : RelayState) (now : Nat) (threadId : String)
    (records : List TranscriptRecord) :
    let r := ((s.ensureRuntimeForThread now threadId).setTranscriptOf threadId records)
      |>.bumpThreadTranscriptRevision now threadId
    s.transcripts.Writes (some threadId) records r.2 (r.1.syncIfSelected threadId).transcripts := by
  obtain ⟨rt, hrt⟩ := ensure_isSome s now threadId
  have hwrite := transcripts_write now hrt fun rt => { rt with transcript := records }
  have hset : ((s.ensureRuntimeForThread now threadId).setTranscriptOf threadId
      records).runtimes[threadId]? = some { rt with transcript := records } := by
    simp [setTranscriptOf, modifyRuntime, hrt]
  have hbump := bump_of_some now hset
  rw [transcripts_ensure] at hwrite
  intro r
  have hrevisions : r.2 = (rt.transcriptRevision,
      saturatingAdd (s.ensureRuntimeForThread now threadId).transcriptClock 1) := hbump
  have htranscripts : (r.1.syncIfSelected threadId).transcripts =
      s.transcripts.write threadId (records, rt.applyStates) := hwrite
  have hclock : (s.ensureRuntimeForThread now threadId).transcriptClock =
      (s.transcripts.ensure threadId).clock := by
    rw [← transcripts_ensure s now threadId]
    rfl
  refine ⟨?_, ?_, rt.applyStates, htranscripts⟩
  · rw [hrevisions, htranscripts, hclock]
    have hsync := Transcripts.clock_syncIf
      ((s.transcripts.ensure threadId).putFresh threadId (records, rt.applyStates)) threadId
    exact hsync.symm
  · rw [hrevisions, ← transcripts_ensure s now threadId]
    simp [Transcripts.tip, transcripts, hrt, ThreadRuntime.entry]

theorem writes_legacy (now : Nat) (itemId : String)
    (onto : Nat → TranscriptRecord → TranscriptRecord) (fresh : Nat → TranscriptRecord)
    (ha : s.activeThreadId = none) :
    let r := s.writeLegacyItem now itemId onto fresh
    s.transcripts.Writes none
      (writeItem s.transcript itemId (onto r.2.revision) (fresh r.2.revision)).1
      (r.2.baseRevision, r.2.revision) r.1.transcripts := by
  unfold writeLegacyItem bumpTranscriptRevision
  simp only [ha]
  exact ⟨rfl, ha, rfl, s.applyStates, rfl⟩

theorem recordsOf_ensure (s : RelayState) (now : Nat) (threadId : String) :
    (s.ensureRuntimeForThread now threadId).transcriptOf threadId =
      s.transcripts.recordsOf (some threadId) :=
  (transcriptOf_ensure s now threadId).trans (shownRecords_eq s threadId)

/-- A call writes the text it appends to its item, wherever it goes. -/
theorem writes_deltaCall (s : RelayState) (now : Nat) (call : DeltaCall) :
    ∃ records, s.transcripts.Writes (call.scope s.activeThreadId) records
        ((s.deltaCall now call).2.baseRevision, (s.deltaCall now call).2.revision)
        (s.deltaCall now call).1.transcripts ∧
      ∀ itemId, itemText records itemId =
        if itemId = call.itemId then
          call.appendTo (s.scopedText (call.scope s.activeThreadId) call.itemId)
        else s.scopedText (call.scope s.activeThreadId) itemId := by
  have hagent : ∀ threadId itemId delta turnId,
      ∃ records, s.transcripts.Writes (some threadId) records
          ((s.appendAgentDeltaForThread now threadId itemId delta turnId).2.baseRevision,
            (s.appendAgentDeltaForThread now threadId itemId delta turnId).2.revision)
          (s.appendAgentDeltaForThread now threadId itemId delta turnId).1.transcripts ∧
        ∀ other, itemText records other =
          if other = itemId then s.scopedText (some threadId) itemId ++ delta
          else s.scopedText (some threadId) other := by
    intro threadId itemId delta turnId
    refine ⟨(writeItem ((s.ensureRuntimeForThread now threadId).transcriptOf threadId) itemId
      (agentDeltaOnto delta turnId) (freshAgentDelta itemId delta turnId)).1,
      writes_thread s now threadId _, ?_⟩
    intro other
    rw [recordsOf_ensure]
    refine itemText_writeItem_of (f := (· ++ delta)) ?_ ?_ _ other
    · exact fun x => ⟨rfl, rfl⟩
    · simp [freshAgentDelta]
  have hcommand : ∀ threadId itemId delta,
      ∃ records, s.transcripts.Writes (some threadId) records
          ((s.appendCommandDeltaForThread now threadId itemId delta).2.baseRevision,
            (s.appendCommandDeltaForThread now threadId itemId delta).2.revision)
          (s.appendCommandDeltaForThread now threadId itemId delta).1.transcripts ∧
        ∀ other, itemText records other =
          if other = itemId then appendCommandText (s.scopedText (some threadId) itemId) delta
          else s.scopedText (some threadId) other := by
    intro threadId itemId delta
    refine ⟨(writeItem ((s.ensureRuntimeForThread now threadId).transcriptOf threadId) itemId
      (commandDeltaOnto delta) (freshCommandDelta itemId delta)).1,
      writes_thread s now threadId _, ?_⟩
    intro other
    rw [recordsOf_ensure]
    refine itemText_writeItem_of (f := (appendCommandText · delta)) ?_ ?_ _ other
    · exact fun x => ⟨rfl, rfl⟩
    · simp [freshCommandDelta, appendCommandText, needsSeparator]
  cases call with
  | agent itemId delta turnId =>
    cases ha : s.activeThreadId with
    | none =>
      have hcall : s.deltaCall now (.agent itemId delta turnId) =
          s.appendAgentDeltaLegacy now itemId delta turnId := by
        simp only [deltaCall, appendAgentDelta, ha]
      rw [hcall]
      refine ⟨_, writes_legacy now itemId
        (fun _ entry => { agentDeltaOnto delta turnId entry with turnId := entry.turnId })
        (fun revision => { freshAgentDelta itemId delta turnId with seq := some revision }) ha, ?_⟩
      intro other
      refine itemText_writeItem_of (f := (· ++ delta)) ?_ ?_ _ other
      · exact fun x => ⟨rfl, rfl⟩
      · simp [freshAgentDelta]
    | some threadId =>
      have hcall : s.deltaCall now (.agent itemId delta turnId) =
          s.appendAgentDeltaForThread now threadId itemId delta turnId := by
        simp only [deltaCall, appendAgentDelta, ha]
      rw [hcall]
      exact hagent threadId itemId delta turnId
  | agentForThread threadId itemId delta turnId => exact hagent threadId itemId delta turnId
  | command itemId delta =>
    cases ha : s.activeThreadId with
    | none =>
      have hcall : s.deltaCall now (.command itemId delta) =
          s.appendCommandDeltaLegacy now itemId delta := by
        simp only [deltaCall, appendCommandDelta, ha]
      rw [hcall]
      refine ⟨_, writes_legacy now itemId (fun _ => commandDeltaOnto delta)
        (fun revision => { freshCommandDelta itemId delta with seq := some revision }) ha, ?_⟩
      intro other
      refine itemText_writeItem_of (f := (appendCommandText · delta)) ?_ ?_ _ other
      · exact fun x => ⟨rfl, rfl⟩
      · simp [freshCommandDelta, appendCommandText, needsSeparator]
    | some threadId =>
      have hcall : s.deltaCall now (.command itemId delta) =
          s.appendCommandDeltaForThread now threadId itemId delta := by
        simp only [deltaCall, appendCommandDelta, ha]
      rw [hcall]
      exact hcommand threadId itemId delta
  | commandForThread threadId itemId delta => exact hcommand threadId itemId delta

/-- The wire text is what was appended, unless a separator is hidden. -/
theorem wireDelta_iff (s : RelayState) (now : Nat) (call : DeltaCall) :
    s.scopedText (call.scope s.activeThreadId) call.itemId ++
        (s.deltaCall now call).2.wireDelta call.delta =
      call.appendTo (s.scopedText (call.scope s.activeThreadId) call.itemId) ↔
        s.hidesSeparator call = false := by
  have hthread : ∀ threadId itemId delta,
      s.scopedText (some threadId) itemId ++
          (s.appendCommandDeltaForThread now threadId itemId delta).2.wireDelta delta =
        appendCommandText (s.scopedText (some threadId) itemId) delta := by
    intro threadId itemId delta
    have hseparator : (s.appendCommandDeltaForThread now threadId itemId delta).2.separatorInserted =
        needsSeparator (s.scopedText (some threadId) itemId) delta := by
      unfold scopedText
      rw [← recordsOf_ensure s now threadId]
      rfl
    unfold TranscriptMutationMeta.wireDelta appendCommandText
    rw [hseparator]
    split_ifs
    · rw [String.append_assoc]
    · rfl
  cases call with
  | agent itemId delta turnId =>
    have hwire : (s.deltaCall now (.agent itemId delta turnId)).2.wireDelta delta = delta := by
      simp only [deltaCall, appendAgentDelta]
      split <;> rfl
    exact iff_of_true (congrArg _ hwire) rfl
  | agentForThread threadId itemId delta turnId => exact iff_of_true rfl rfl
  | command itemId delta =>
    cases ha : s.activeThreadId with
    | none =>
      have hwire : (s.deltaCall now (.command itemId delta)).2.wireDelta delta = delta := by
        simp only [deltaCall, appendCommandDelta, ha]
        rfl
      have hhides : s.hidesSeparator (.command itemId delta) =
          needsSeparator (s.scopedText none itemId) delta := by
        simp [hidesSeparator, ha]
      have htext : (DeltaCall.command itemId delta).appendTo (s.scopedText none itemId) =
          appendCommandText (s.scopedText none itemId) delta := rfl
      have hscope : (DeltaCall.command itemId delta).scope none = none := rfl
      have hitem : (DeltaCall.command itemId delta).itemId = itemId := rfl
      have hdelta : (DeltaCall.command itemId delta).delta = delta := rfl
      rw [hscope, hitem, hdelta, hwire, htext, hhides, appendCommandText]
      cases hneeds : needsSeparator (s.scopedText none itemId) delta with
      | false => simp
      | true =>
        rw [if_pos rfl]
        constructor
        · intro heq
          have hlength := congrArg String.length heq
          simp only [String.length_append] at hlength
          have hnewline : "\n".length = 1 := by decide
          omega
        · intro hfalse
          cases hfalse
    | some threadId =>
      have hcall : s.deltaCall now (.command itemId delta) =
          s.appendCommandDeltaForThread now threadId itemId delta := by
        simp only [deltaCall, appendCommandDelta, ha]
      rw [hcall]
      have hhides : s.hidesSeparator (.command itemId delta) = false := by
        simp [hidesSeparator, ha]
      exact iff_of_true (hthread threadId itemId delta) hhides
  | commandForThread threadId itemId delta =>
    exact iff_of_true (hthread threadId itemId delta) rfl

theorem active_callStep (s : RelayState) (call : Nat × DeltaCall) :
    (s.callStep call).activeThreadId = s.activeThreadId := by
  obtain ⟨records, hwrites, -⟩ := writes_deltaCall s call.1 call.2
  exact hwrites.active

theorem scopedText_callStep (s : RelayState) (call : Nat × DeltaCall)
    (hscope : scope = none → s.activeThreadId = none) (itemId : String) :
    (s.callStep call).scopedText scope itemId =
      if scope = call.2.scope s.activeThreadId ∧ itemId = call.2.itemId then
        call.2.appendTo (s.scopedText scope itemId)
      else s.scopedText scope itemId := by
  obtain ⟨records, hwrites, htext⟩ := writes_deltaCall s call.1 call.2
  have hrecords : (s.callStep call).transcripts.recordsOf scope =
      if scope = call.2.scope s.activeThreadId then records
      else s.transcripts.recordsOf scope := hwrites.recordsOf hscope
  unfold scopedText
  rw [hrecords]
  by_cases hsame : scope = call.2.scope s.activeThreadId
  · rw [if_pos hsame, htext]
    by_cases hitem : itemId = call.2.itemId
    · rw [if_pos hitem, if_pos ⟨hsame, hitem⟩, ← hsame, hitem]
      rfl
    · rw [if_neg hitem, if_neg (fun h => hitem h.2), ← hsame]
      rfl
  · rw [if_neg hsame, if_neg (fun h => hsame h.1)]

theorem replica_cons (s : RelayState) (scope : Option String) (itemId text : String)
    (call : Nat × DeltaCall) (calls : List (Nat × DeltaCall)) :
    replica scope itemId s text (call :: calls) =
      replica scope itemId (s.callStep call)
        (if scope = call.2.scope s.activeThreadId ∧ itemId = call.2.itemId then
          text ++ (s.deltaCall call.1 call.2).2.wireDelta call.2.delta else text) calls := rfl

theorem replica_step (s : RelayState) (call : Nat × DeltaCall)
    (hscope : scope = none → s.activeThreadId = none) (itemId : String)
    (hcall : s.hidesSeparator call.2 = false) :
    (if scope = call.2.scope s.activeThreadId ∧ itemId = call.2.itemId then
        s.scopedText scope itemId ++ (s.deltaCall call.1 call.2).2.wireDelta call.2.delta
      else s.scopedText scope itemId) = (s.callStep call).scopedText scope itemId := by
  rw [scopedText_callStep s call hscope]
  by_cases hown : scope = call.2.scope s.activeThreadId ∧ itemId = call.2.itemId
  · rw [if_pos hown, if_pos hown, hown.1, hown.2]
    exact (wireDelta_iff s call.1 call.2).mpr hcall
  · rw [if_neg hown, if_neg hown]

theorem replica_eq (calls : List (Nat × DeltaCall)) (s : RelayState)
    (hscope : scope = none → s.activeThreadId = none) (itemId : String)
    (hcalls : Along callStep (fun s call => s.hidesSeparator call.2 = false) s calls) :
    replica scope itemId s (s.scopedText scope itemId) calls =
      (s.afterCalls calls).scopedText scope itemId := by
  induction calls generalizing s with
  | nil => rfl
  | cons call calls ih =>
    rw [replica_cons, replica_step s call hscope itemId hcalls.1]
    have hscope' : scope = none → (s.callStep call).activeThreadId = none :=
      fun h => (active_callStep s call).trans (hscope h)
    exact ih (s.callStep call) hscope' hcalls.2

theorem clock_afterCalls (calls : List (Nat × DeltaCall)) (s : RelayState)
    (hclock : (s.afterCalls calls).transcriptClock < u64Max) :
    s.transcriptClock ≤ (s.afterCalls calls).transcriptClock := by
  induction calls generalizing s with
  | nil => exact le_rfl
  | cons call calls ih =>
    obtain ⟨records, hwrites, -⟩ := writes_deltaCall s call.1 call.2
    have hrest := ih (s.callStep call) hclock
    have hfirst := hwrites.later.clock_le (hrest.trans_lt hclock)
    exact hfirst.trans hrest

theorem publishedMutations_cons (s : RelayState) (scope : Option String) (call : Nat × DeltaCall)
    (calls : List (Nat × DeltaCall)) :
    publishedMutations scope s (call :: calls) =
      if scope = call.2.scope s.activeThreadId then
        (s.deltaCall call.1 call.2).2 :: publishedMutations scope (s.callStep call) calls
      else publishedMutations scope (s.callStep call) calls := rfl

/-- The mutations published for one place follow each other, from the revision it stands at. -/
theorem published_chain (calls : List (Nat × DeltaCall)) (s : RelayState)
    (hscope : scope = none → s.activeThreadId = none) (hsound : s.transcripts.Sound)
    (hclock : (s.afterCalls calls).transcriptClock < u64Max) :
    (∀ m ∈ publishedMutations scope s calls,
        m.baseRevision < m.revision ∧ s.transcriptClock < m.revision) ∧
      (publishedMutations scope s calls).IsChain
        (fun m m' => m'.baseRevision = m.revision ∧ m.revision < m'.revision) ∧
      ∀ revision, s.transcripts.tip scope = some revision →
        ∀ m ∈ (publishedMutations scope s calls).head?, m.baseRevision = revision := by
  induction calls generalizing s with
  | nil => simp [publishedMutations]
  | cons call calls ih =>
    obtain ⟨records, hwrites, -⟩ := writes_deltaCall s call.1 call.2
    have hscope' : scope = none → (s.callStep call).activeThreadId = none :=
      fun h => (active_callStep s call).trans (hscope h)
    have hclock' : ((s.callStep call).afterCalls calls).transcriptClock < u64Max := hclock
    have hnext : (s.callStep call).transcriptClock < u64Max :=
      (clock_afterCalls calls (s.callStep call) hclock').trans_lt hclock'
    have hsound' : (s.callStep call).transcripts.Sound := hwrites.later.sound hnext hsound
    have hle : s.transcriptClock ≤ (s.callStep call).transcriptClock :=
      hwrites.later.clock_le hnext
    have htip := hwrites.tip hscope
    obtain ⟨hnewer, hchain, hhead⟩ := ih (s.callStep call) hscope' hsound' hclock'
    rw [publishedMutations_cons]
    by_cases hown : scope = call.2.scope s.activeThreadId
    · rw [if_pos hown] at htip ⊢
      have hlt := hwrites.lt hsound hnext
      have hclock_eq : (s.deltaCall call.1 call.2).2.revision =
          (s.callStep call).transcriptClock := hwrites.1
      refine ⟨?_, ?_, ?_⟩
      · intro m hm
        rcases List.mem_cons.mp hm with rfl | hm
        · exact hlt
        · obtain ⟨hbase, hrevision⟩ := hnewer m hm
          exact ⟨hbase, hle.trans_lt hrevision⟩
      · rw [List.isChain_cons]
        refine ⟨?_, hchain⟩
        intro m hm
        obtain ⟨-, hrevision⟩ := hnewer m (List.mem_of_mem_head? hm)
        exact ⟨hhead _ htip m hm, hclock_eq ▸ hrevision⟩
      · intro revision hrevision m hm
        obtain rfl : (s.deltaCall call.1 call.2).2 = m := by simpa using hm
        exact hwrites.base (hown ▸ hrevision)
    · rw [if_neg hown] at htip ⊢
      refine ⟨?_, hchain, ?_⟩
      · intro m hm
        obtain ⟨hbase, hrevision⟩ := hnewer m hm
        exact ⟨hbase, hle.trans_lt hrevision⟩
      · intro revision hrevision m hm
        have htip' : (s.callStep call).transcripts.tip scope = some revision :=
          htip.trans hrevision
        exact hhead revision htip' m hm

/-- A replica of any item has the relay's text after every call, and the published revisions
follow each other, if and only if no append to the legacy transcript hides a separator. -/
theorem published_deltas_iff (s : RelayState) (calls : List (Nat × DeltaCall))
    (hsound : s.transcripts.Sound) (hclock : (s.afterCalls calls).transcriptClock < u64Max) :
    (∀ scope : Option String, (scope = none → s.activeThreadId = none) →
        (∀ itemId xs, xs <+: calls →
          replica scope itemId s (s.scopedText scope itemId) xs =
            (s.afterCalls xs).scopedText scope itemId) ∧
        (∀ m ∈ publishedMutations scope s calls, m.baseRevision < m.revision) ∧
        (publishedMutations scope s calls).IsChain
          (fun m m' => m'.baseRevision = m.revision ∧ m.revision < m'.revision)) ↔
      Along callStep (fun s call => s.hidesSeparator call.2 = false) s calls := by
  constructor
  · intro h
    have htexts : ∀ scope : Option String, (scope = none → s.activeThreadId = none) →
        ∀ itemId xs, xs <+: calls → replica scope itemId s (s.scopedText scope itemId) xs =
          (s.afterCalls xs).scopedText scope itemId := fun scope hscope => (h scope hscope).1
    clear h hsound hclock
    induction calls generalizing s with
    | nil => trivial
    | cons call calls ih =>
      have hown : ∀ scope : Option String, (scope = none → s.activeThreadId = none) → ∀ itemId,
          (if scope = call.2.scope s.activeThreadId ∧ itemId = call.2.itemId then
            s.scopedText scope itemId ++ (s.deltaCall call.1 call.2).2.wireDelta call.2.delta
          else s.scopedText scope itemId) = (s.callStep call).scopedText scope itemId :=
        fun scope hscope itemId => htexts scope hscope itemId [call] (by simp)
      refine ⟨?_, ?_⟩
      · have hscope : call.2.scope s.activeThreadId = none → s.activeThreadId = none := by
          intro hnone
          cases hcall : call.2 <;> simp_all [DeltaCall.scope]
        have hfirst := hown _ hscope call.2.itemId
        rw [scopedText_callStep s call hscope, if_pos ⟨rfl, rfl⟩, if_pos ⟨rfl, rfl⟩] at hfirst
        exact (wireDelta_iff s call.1 call.2).mp hfirst
      · apply ih
        intro scope hscope itemId xs hxs
        have hscope' : scope = none → s.activeThreadId = none :=
          fun h => (active_callStep s call).symm.trans (hscope h)
        have hrest := htexts scope hscope' itemId (call :: xs) (by simpa using hxs)
        rw [replica_cons, hown scope hscope' itemId] at hrest
        exact hrest
  · intro h scope hscope
    obtain ⟨hnewer, hchain, -⟩ := published_chain calls s hscope hsound hclock
    refine ⟨?_, fun m hm => (hnewer m hm).1, hchain⟩
    rintro itemId xs ⟨ys, rfl⟩
    exact replica_eq xs s hscope itemId (along_append.mp h).1

/-- Output in the background, and with no thread active the first of a command. -/
def backgroundOutput : List (Nat × DeltaCall) :=
  [(1, .commandForThread "thread-1" "cmd-1" "npm test"),
    (2, .commandForThread "thread-1" "cmd-1" "line 1"), (3, .command "cmd-2" "ls")]

theorem published_deltas_background_output :
    replica (some "thread-1") "cmd-1" (new "/w") "" backgroundOutput = "npm test\nline 1" := by
  have h := (published_deltas_iff (new "/w") backgroundOutput (sound_new "/w")
    (by decide +kernel)).mpr (by decide +kernel) (some "thread-1") (by simp)
  exact (h.1 "cmd-1" backgroundOutput List.prefix_rfl).trans (by decide +kernel)

/-- A command and its output with no thread active. -/
def legacyOutput : List (Nat × DeltaCall) :=
  [(1, .command "cmd-1" "npm test"), (2, .command "cmd-1" "line 1")]

/-- The replica runs the command and the output together. -/
theorem legacy_output_glued :
    replica none "cmd-1" (new "/w") ((new "/w").scopedText none "cmd-1") legacyOutput =
        "npm testline 1" ∧
      ((new "/w").afterCalls legacyOutput).scopedText none "cmd-1" = "npm test\nline 1" := by
  decide +kernel

end RelayState

end AgentRelay.Relay
