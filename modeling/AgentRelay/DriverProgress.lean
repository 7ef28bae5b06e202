import AgentRelay.Orchestration

/-! The progress that is stored with a run. Its loader takes any document; damage leaves a mark
that is saved again, and a marked run or one of an unknown backend gives a driver no cursor. -/
namespace AgentRelay.Orchestration
open Text Wire Team

/-- `LenientU64`: a number, or nothing. -/
def lenientU64 : Json → Decoded (Option UInt64) :=
  deserializeAny
    { visitU64 := fun value => .ok (some value)
      visitI64 := fun value =>
        .ok (if 0 ≤ value ∧ value < 2 ^ 64 then some (UInt64.ofNat value.toNat) else none)
      visitUnit := .ok none
      visitBool := fun _ => .ok none
      visitStr := fun _ => .ok none
      visitF64 := .ok none
      visitSeq := fun _ => .ok none
      visitMap := fun _ => .ok none }

def lenientBool : Json → Decoded (Option Bool) :=
  deserializeAny
    { visitBool := fun value => .ok (some value)
      visitUnit := .ok none
      visitI64 := fun _ => .ok none
      visitU64 := fun _ => .ok none
      visitF64 := .ok none
      visitStr := fun _ => .ok none
      visitSeq := fun _ => .ok none
      visitMap := fun _ => .ok none }

inductive LenientNullableString
  | null
  | value (raw : String)
  | invalid
  deriving DecidableEq, Repr

def lenientNullableString : Json → Decoded LenientNullableString :=
  deserializeAny
    { visitStr := fun raw => .ok (.value raw)
      visitUnit := .ok .null
      visitBool := fun _ => .ok .invalid
      visitI64 := fun _ => .ok .invalid
      visitU64 := fun _ => .ok .invalid
      visitF64 := .ok .invalid
      visitSeq := fun _ => .ok .invalid
      visitMap := fun _ => .ok .invalid }

structure DriverProgress where
  stateRevision : UInt64 := 0
  lastCommandSeq : UInt64 := 0
  lastEventSeq : UInt64 := 0
  inFlightCommandId : Option CommandId := none
  /-- The stored progress could not be read as it was meant. -/
  malformed : Bool := false
  deriving DecidableEq

inductive DriverProgressField
  | stateRevision
  | lastCommandSeq
  | lastEventSeq
  | inFlightCommandId
  | malformed
  deriving DecidableEq, Repr

def DriverProgressField.ofKey : String → Option DriverProgressField
  | "state_revision" => some .stateRevision
  | "last_command_seq" => some .lastCommandSeq
  | "last_event_seq" => some .lastEventSeq
  | "in_flight_command_id" => some .inFlightCommandId
  | "malformed" => some .malformed
  | _ => none

namespace DriverProgress

/-- The progress of a document that is no object. -/
def ofMalformed : DriverProgress := { malformed := true }

def mark (progress : DriverProgress) : DriverProgress := { progress with malformed := true }

/-- The value of a field that was not seen before. -/
def readField (progress : DriverProgress) (field : DriverProgressField) (json : Json) :
    Decoded DriverProgress :=
  match field with
  | .stateRevision => do
    match ← lenientU64 json with
    | some value => return { progress with stateRevision := value }
    | none => return progress.mark
  | .lastCommandSeq => do
    match ← lenientU64 json with
    | some value => return { progress with lastCommandSeq := value }
    | none => return progress.mark
  | .lastEventSeq => do
    match ← lenientU64 json with
    | some value => return { progress with lastEventSeq := value }
    | none => return progress.mark
  | .inFlightCommandId => do
    match ← lenientNullableString json with
    | .null => return { progress with inFlightCommandId := none }
    | .value raw =>
      match Token.new "command_id" maxOpaqueIdLen raw with
      | .ok commandId => return { progress with inFlightCommandId := some commandId }
      | .error _ => return progress.mark
    | .invalid => return progress.mark
  | .malformed => do
    match ← lenientBool json with
    | some value => return { progress with malformed := progress.malformed || value }
    | none => return progress.mark

structure Scan where
  progress : DriverProgress := {}
  seen : DriverProgressField → Bool := fun _ => false

def Scan.visitEntry (scan : Scan) (entry : String × Json) : Decoded Scan :=
  match DriverProgressField.ofKey entry.1 with
  | none => .ok { scan with progress := scan.progress.mark }
  | some field =>
    if scan.seen field then .ok { scan with progress := scan.progress.mark }
    else do
      let progress ← scan.progress.readField field entry.2
      return { progress, seen := Function.update scan.seen field true }

def visitMap (entries : List (String × Json)) : Decoded DriverProgress := do
  let scan ← entries.foldlM Scan.visitEntry {}
  return scan.progress

def decode : Json → Decoded DriverProgress :=
  deserializeAny
    { visitUnit := .ok ofMalformed
      visitBool := fun _ => .ok ofMalformed
      visitI64 := fun _ => .ok ofMalformed
      visitU64 := fun _ => .ok ofMalformed
      visitF64 := .ok ofMalformed
      visitStr := fun _ => .ok ofMalformed
      visitSeq := fun _ => .ok ofMalformed
      visitMap := visitMap }

def encode (progress : DriverProgress) : Json :=
  .object ([("state_revision", ofU64 progress.stateRevision),
    ("last_command_seq", ofU64 progress.lastCommandSeq),
    ("last_event_seq", ofU64 progress.lastEventSeq),
    ("in_flight_command_id", ofOption Token.encode progress.inFlightCommandId)] ++
    if progress.malformed then [("malformed", .bool true)] else [])

/-- One save and one load; a state that failed to load would leave nothing. -/
def reload (progress : DriverProgress) : Decoded DriverProgress := decode progress.encode

end DriverProgress

structure DrivenRun where
  run : TeamRun
  driverProgress : DriverProgress := {}

def supportedProtocolVersion : OrchestrationBackendRef → Option UInt32
  | .legacyEmbedded => some currentProtocolVersion
  | .cloud protocolVersion _ _ | .localSidecar protocolVersion _ =>
    some (UInt32.ofNat protocolVersion)
  | .unknownNonExecuting .. => none

def backendKind : OrchestrationBackendRef → OrchestrationBackendKind
  | .legacyEmbedded => .legacyEmbedded
  | .cloud .. => .cloud
  | .localSidecar .. => .localSidecar
  | .unknownNonExecuting .. => .unknownNonExecuting

def boundedUsizeToU32 (value : ℕ) : UInt32 :=
  if value < 2 ^ 32 then UInt32.ofNat value else UInt32.ofNat (2 ^ 32 - 1)

def DriverCursor.fromTeamRun (driven : DrivenRun) (artifacts : List ArtifactRef) :
    Except ProtocolValueError DriverCursor := do
  let run := driven.run
  let progress := driven.driverProgress
  if progress.malformed then .error .malformedDriverProgress
  let protocolVersion ← match supportedProtocolVersion run.orchestrationBackend with
    | some version => .ok version
    | none => .error .unknownBackend
  let current := run.currentSubTask
  let currentRoundsUsed := ((current.bind (run.subTasks[·]?)).map (·.roundsUsed)).getD 0
  let bounded ← BoundedVec.new "artifacts" maxCursorArtifacts artifacts
  return {
    protocolVersion
    backend := backendKind run.orchestrationBackend
    status := .fromTeamStatus run.status
    phase := .fromTeamPhase run.phase
    stateRevision := progress.stateRevision
    lastCommandSeq := progress.lastCommandSeq
    lastEventSeq := progress.lastEventSeq
    inFlightCommandId := progress.inFlightCommandId
    currentSubTaskIndex := boundedUsizeToU32 (current.getD run.subTasks.length)
    subTaskCount := boundedUsizeToU32 run.subTasks.length
    currentRoundsUsed := UInt32.ofNat currentRoundsUsed
    maxReviewRounds := UInt32.ofNat run.maxReviewRounds
    designReviewRounds := UInt32.ofNat run.designReviewRounds
    mrRoundsUsed := UInt32.ofNat run.mrRoundsUsed
    tlGeneration := boundedUsizeToU32 (run.tlSuccession.length + 1)
    pauseRequested := run.pauseRequested
    awaitingUser := run.awaiting.isSome
    artifacts := bounded }

namespace DriverProgressField

def name : DriverProgressField → String
  | stateRevision => "state_revision"
  | lastCommandSeq => "last_command_seq"
  | lastEventSeq => "last_event_seq"
  | inFlightCommandId => "in_flight_command_id"
  | malformed => "malformed"

theorem ofKey_eq {key : String} {field : DriverProgressField} :
    ofKey key = some field ↔ field.name = key := by
  constructor
  · intro h
    unfold ofKey at h
    split at h <;> cases h <;> rfl
  · rintro rfl
    cases field <;> rfl

/-- A value that leaves no mark. -/
def Clean : DriverProgressField → Json → Prop
  | stateRevision, json | lastCommandSeq, json | lastEventSeq, json => IsUnsigned (2 ^ 64) json
  | inFlightCommandId, json =>
    json = .null ∨ ∃ raw, json = .string raw ∧ IsToken maxOpaqueIdLen raw
  | malformed, json => json = .bool false

end DriverProgressField

/-- A document of known fields, each said once and with a value of its type; its own mark, if
it has one, is off. -/
def IsCleanProgress : Json → Prop
  | .object entries => (entries.map Prod.fst).Nodup ∧
    ∀ entry ∈ entries, ∃ field : DriverProgressField, field.name = entry.1 ∧ field.Clean entry.2
  | _ => False

theorem lenientU64_spec (json : Json) : ∃ found, lenientU64 json = .ok found ∧
    (found.isSome ↔ IsUnsigned (2 ^ 64) json) := by
  cases json with
  | integer value =>
    have hunsigned : IsUnsigned (2 ^ 64) (.integer value) ↔ 0 ≤ value ∧ value < 2 ^ 64 := by
      simp [IsUnsigned]
    rw [hunsigned]
    simp only [lenientU64, deserializeAny]
    split_ifs with hsign hlarge hfits hboth
    · exact ⟨_, rfl, fun _ => ⟨hsign, hlarge⟩, fun _ => rfl⟩
    · exact ⟨_, rfl, fun h => absurd h (by simp), fun h => absurd h.2 hlarge⟩
    · exact absurd hboth.1 hsign
    · exact ⟨_, rfl, by simp [hsign]⟩
    · exact ⟨_, rfl, by simp [hsign]⟩
  | _ => exact ⟨none, rfl, by simp [IsUnsigned]⟩

theorem lenientBool_spec (json : Json) : ∃ found, lenientBool json = .ok found ∧
    ∀ value, found = some value ↔ json = .bool value := by
  cases json with
  | bool value => exact ⟨some value, rfl, by simp⟩
  | integer value =>
    refine ⟨none, ?_, by simp⟩
    simp only [lenientBool, deserializeAny]
    split_ifs <;> rfl
  | _ => exact ⟨none, rfl, by simp⟩

theorem lenientNullableString_spec (json : Json) : ∃ found, lenientNullableString json = .ok found ∧
    (found = .null ↔ json = .null) ∧ ∀ raw, found = .value raw ↔ json = .string raw := by
  cases json with
  | null => exact ⟨.null, rfl, by simp⟩
  | string raw => exact ⟨.value raw, rfl, by simp⟩
  | integer value =>
    refine ⟨.invalid, ?_, by simp⟩
    simp only [lenientNullableString, deserializeAny]
    split_ifs <;> rfl
  | _ => exact ⟨.invalid, rfl, by simp⟩

namespace DriverProgress

variable {progress : DriverProgress} {json : Json}

@[simp] theorem mark_malformed (progress : DriverProgress) : progress.mark.malformed = true := rfl

/-- Reading a field never fails, and marks the progress unless the value is clean. -/
theorem readField_spec (progress : DriverProgress) (field : DriverProgressField) (json : Json) :
    ∃ next, progress.readField field json = .ok next ∧
      (next.malformed = false ↔ progress.malformed = false ∧ field.Clean json) := by
  cases field with
  | stateRevision | lastCommandSeq | lastEventSeq =>
    obtain ⟨found, hfound, hclean⟩ := lenientU64_spec json
    simp only [readField, hfound, DriverProgressField.Clean, ← hclean]
    cases found with
    | none => exact ⟨_, rfl, by simp⟩
    | some value => exact ⟨_, rfl, by simp⟩
  | inFlightCommandId =>
    obtain ⟨found, hfound, hnull, hvalue⟩ := lenientNullableString_spec json
    simp only [readField, hfound, DriverProgressField.Clean]
    cases found with
    | null => exact ⟨_, rfl, by simp [hnull.mp rfl]⟩
    | invalid =>
      refine ⟨_, rfl, ?_⟩
      have hno : ¬ (json = .null ∨ ∃ raw, json = .string raw ∧ IsToken maxOpaqueIdLen raw) := by
        rintro (h | ⟨raw, h, -⟩)
        · exact absurd (hnull.mpr h) (by simp)
        · exact absurd ((hvalue raw).mpr h) (by simp)
      simp [hno]
    | value raw =>
      obtain rfl := (hvalue raw).mp rfl
      have hiff := Token.new_accepts "command_id" maxOpaqueIdLen raw
      cases hnew : Token.new "command_id" maxOpaqueIdLen raw with
      | ok commandId =>
        refine ⟨{ progress with inFlightCommandId := some commandId },
          by simp [bind, Except.bind, hnew, pure, Except.pure], ?_⟩
        simp [hiff.mp ⟨commandId, hnew⟩]
      | error e =>
        refine ⟨progress.mark, by simp [bind, Except.bind, hnew, pure, Except.pure], ?_⟩
        have hno : ¬ IsToken maxOpaqueIdLen raw := by
          rw [← hiff, hnew]
          simp
        simp [hno]
  | malformed =>
    obtain ⟨found, hfound, hvalue⟩ := lenientBool_spec json
    simp only [readField, hfound, DriverProgressField.Clean, ← hvalue]
    cases found with
    | none => exact ⟨_, rfl, by simp⟩
    | some value => exact ⟨_, rfl, by simp⟩

/-- One entry never fails, and keeps a clean progress clean only if it is clean and says a field
that was not seen. -/
theorem Scan.visitEntry_spec (scan : Scan) (entry : String × Json) :
    ∃ next, scan.visitEntry entry = .ok next ∧
      (∀ field, next.seen field = true ↔ scan.seen field = true ∨ field.name = entry.1) ∧
      (next.progress.malformed = false ↔ scan.progress.malformed = false ∧
        ∃ field : DriverProgressField, field.name = entry.1 ∧ scan.seen field = false ∧
          field.Clean entry.2) := by
  unfold visitEntry
  cases hkey : DriverProgressField.ofKey entry.1 with
  | none =>
    have hno : ∀ field : DriverProgressField, field.name ≠ entry.1 := by
      intro field hname
      rw [DriverProgressField.ofKey_eq.mpr hname] at hkey
      exact absurd hkey (by simp)
    exact ⟨_, rfl, by simp [hno], by simp [hno]⟩
  | some field =>
    have hname := DriverProgressField.ofKey_eq.mp hkey
    have honly : ∀ other : DriverProgressField, other.name = entry.1 ↔ other = field := by
      intro other
      rw [← DriverProgressField.ofKey_eq, hkey, Option.some.injEq, eq_comm]
    simp only [honly, exists_eq_left]
    cases hseen : scan.seen field with
    | true =>
      refine ⟨_, rfl, fun other => ?_, by simp⟩
      constructor
      · exact Or.inl
      · rintro (h | rfl)
        · exact h
        · exact hseen
    | false =>
      obtain ⟨next, hnext, hclean⟩ := readField_spec scan.progress field entry.2
      refine ⟨{ progress := next, seen := Function.update scan.seen field true }, ?_, ?_, ?_⟩
      · simp [hnext, bind, Except.bind, pure, Except.pure]
      · intro other
        by_cases heq : other = field
        · simp [heq]
        · simp [heq]
      · simp [hclean]

/-- The run rule of the loader. -/
theorem foldlM_visitEntry (entries : List (String × Json)) :
    ∃ scan, entries.foldlM Scan.visitEntry {} = .ok scan ∧
      (∀ field, scan.seen field = true ↔ field.name ∈ entries.map Prod.fst) ∧
      (scan.progress.malformed = false ↔ IsCleanProgress (.object entries)) := by
  induction entries using List.reverseRecOn with
  | nil => exact ⟨{}, rfl, by simp, by simp [IsCleanProgress]⟩
  | append_singleton entries entry ih =>
    obtain ⟨scan, hscan, hseen, hclean⟩ := ih
    obtain ⟨next, hnext, hseen', hclean'⟩ := scan.visitEntry_spec entry
    refine ⟨next, ?_, ?_, ?_⟩
    · rw [List.foldlM_append, hscan]
      simp [bind, Except.bind, hnext, pure, Except.pure]
    · intro field
      rw [hseen', hseen]
      simp [eq_comm]
    · rw [hclean', hclean]
      simp only [IsCleanProgress, List.map_append, List.map_cons, List.map_nil, List.nodup_append,
        List.forall_mem_append, List.forall_mem_singleton]
      have hfresh : ∀ field : DriverProgressField, scan.seen field = false ↔
          field.name ∉ entries.map Prod.fst := by
        intro field
        rw [← hseen, Bool.not_eq_true]
      constructor
      · rintro ⟨⟨hdistinct, htypes⟩, field, hname, hnew, hvalue⟩
        have hnot := (hfresh field).mp hnew
        refine ⟨⟨hdistinct, by simp, ?_⟩, htypes, field, hname, hvalue⟩
        intro key hkey hsame
        exact hnot (by rw [hname, ← hsame]; exact hkey)
      · rintro ⟨⟨hdistinct, -, hdisjoint⟩, htypes, field, hname, hvalue⟩
        refine ⟨⟨hdistinct, htypes⟩, field, hname, (hfresh field).mpr ?_, hvalue⟩
        intro hmem
        exact hdisjoint _ hmem hname

theorem decode_spec (json : Json) : ∃ progress, decode json = .ok progress ∧
    (progress.malformed = false ↔ IsCleanProgress json) := by
  cases json with
  | object entries =>
    obtain ⟨scan, hscan, -, hclean⟩ := foldlM_visitEntry entries
    refine ⟨scan.progress, ?_, hclean⟩
    simp only [decode, deserializeAny, visitMap, hscan]
    rfl
  | integer value =>
    refine ⟨ofMalformed, ?_, by simp [ofMalformed, IsCleanProgress]⟩
    simp only [decode, deserializeAny]
    split_ifs <;> rfl
  | _ => exact ⟨ofMalformed, rfl, by simp [ofMalformed, IsCleanProgress]⟩

theorem lenientU64_integer {value : ℤ} (hsign : 0 ≤ value) (hfits : value < 2 ^ 64) :
    lenientU64 (.integer value) = .ok (some (UInt64.ofNat value.toNat)) := by
  simp only [lenientU64, deserializeAny]
  rw [if_pos hsign, if_pos hfits]

theorem toNat_lt_bound (value : UInt64) : (value.toNat : ℤ) < 2 ^ 64 := by
  have hlt := value.toNat_lt
  omega

theorem lenientU64_ofU64 (value : UInt64) : lenientU64 (ofU64 value) = .ok (some value) := by
  rw [ofU64, lenientU64_integer (Int.natCast_nonneg _) (toNat_lt_bound value), Int.toNat_natCast,
    UInt64.ofNat_toNat]

theorem new_raw (commandId : CommandId) :
    Token.new "command_id" maxOpaqueIdLen commandId.raw = .ok commandId :=
  Token.new_eq.mpr rfl

theorem visitMap_saved {a b c d : Json} {x y z : UInt64} {id : Option CommandId}
    (ha : ∀ p : DriverProgress, p.readField .stateRevision a = .ok { p with stateRevision := x })
    (hb : ∀ p : DriverProgress, p.readField .lastCommandSeq b = .ok { p with lastCommandSeq := y })
    (hc : ∀ p : DriverProgress, p.readField .lastEventSeq c = .ok { p with lastEventSeq := z })
    (hd : ∀ p : DriverProgress,
      p.readField .inFlightCommandId d = .ok { p with inFlightCommandId := id })
    (malformed : Bool) :
    visitMap ([("state_revision", a), ("last_command_seq", b), ("last_event_seq", c),
      ("in_flight_command_id", d)] ++ if malformed then [("malformed", .bool true)] else []) =
      .ok { stateRevision := x, lastCommandSeq := y, lastEventSeq := z
            inFlightCommandId := id, malformed := malformed } := by
  have hmark : ∀ p : DriverProgress, p.readField .malformed (.bool true) = .ok p.mark := by
    intro p
    simp [readField, lenientBool, deserializeAny, bind, Except.bind, pure, Except.pure, mark]
  cases malformed with
  | false =>
    simp [visitMap, Scan.visitEntry, DriverProgressField.ofKey, ha, hb, hc, hd, bind, Except.bind,
      pure, Except.pure, Function.update]
  | true =>
    simp [visitMap, Scan.visitEntry, DriverProgressField.ofKey, ha, hb, hc, hd, hmark, bind,
      Except.bind, pure, Except.pure, Function.update, mark]

theorem reload_eq (progress : DriverProgress) : progress.reload = .ok progress := by
  unfold reload decode encode deserializeAny
  dsimp only
  apply visitMap_saved
  · intro p
    simp only [readField, lenientU64_ofU64]
    rfl
  · intro p
    simp only [readField, lenientU64_ofU64]
    rfl
  · intro p
    simp only [readField, lenientU64_ofU64]
    rfl
  · intro p
    cases progress.inFlightCommandId with
    | none => rfl
    | some id =>
      simp [readField, ofOption, Token.encode, lenientNullableString, deserializeAny, new_raw,
        bind, Except.bind, pure, Except.pure]

/-- Any number of saves and loads. -/
def reloads : ℕ → DriverProgress → Decoded DriverProgress
  | 0, progress => .ok progress
  | cycles + 1, progress => do
    let next ← reload progress
    reloads cycles next

theorem reloads_eq (cycles : ℕ) (progress : DriverProgress) :
    reloads cycles progress = .ok progress := by
  induction cycles with
  | zero => rfl
  | succ cycles ih =>
    rw [reloads, reload_eq]
    exact ih

end DriverProgress

theorem fromTeamRun_refuses {driven : DrivenRun} {artifacts : List ArtifactRef}
    (h : driven.driverProgress.malformed = true ∨
      backendKind driven.run.orchestrationBackend = .unknownNonExecuting) (cursor : DriverCursor) :
    DriverCursor.fromTeamRun driven artifacts ≠ .ok cursor := by
  unfold DriverCursor.fromTeamRun
  dsimp only
  cases hmarked : driven.driverProgress.malformed with
  | true => simp [bind, Except.bind]
  | false =>
    have hunknown : supportedProtocolVersion driven.run.orchestrationBackend = none := by
      have hkind := h.resolve_left (by simp [hmarked])
      cases hbackend : driven.run.orchestrationBackend <;> rw [hbackend] at hkind <;>
        first | rfl | exact absurd hkind (by simp [backendKind])
    rw [hunknown]
    simp [bind, Except.bind]

end AgentRelay.Orchestration
