import AgentRelay.DriverCodec
import AgentRelay.DriverProgress

/-! The backend a run is pinned to, as it is stored. Its loader takes any document; what it does
not understand becomes a pin that is kept and never executed. -/
namespace AgentRelay.Orchestration
open Wire

def maxDriverVersionLen : ℕ := 64

abbrev DriverVersion := Token "driver_version" maxDriverVersionLen

abbrev DriverRunId := Token "driver_run_id" maxOpaqueIdLen

abbrev UnknownBackendKind := Token "unknown_backend_kind" maxOpaqueIdLen

structure SupportedProtocolVersion where
  version : UInt32
  supported : minProtocolVersion ≤ version ∧ version ≤ currentProtocolVersion
  deriving DecidableEq

def SupportedProtocolVersion.new (version : UInt32) :
    Except ProtocolValueError SupportedProtocolVersion :=
  if h : minProtocolVersion ≤ version ∧ version ≤ currentProtocolVersion then .ok ⟨version, h⟩
  else .error (.unsupportedProtocolVersion version)

inductive OrchestrationBackendRef
  | legacyEmbedded
  | cloud (protocolVersion : SupportedProtocolVersion) (driverVersion : DriverVersion)
      (cloudRunId : DriverRunId)
  | localSidecar (protocolVersion : SupportedProtocolVersion) (driverVersion : DriverVersion)
  | unknownNonExecuting (originalKind : Option UnknownBackendKind)
      (protocolVersion : Option UInt32) (driverVersion : Option DriverVersion)
      (cloudRunId : Option DriverRunId)
  deriving DecidableEq

inductive BackendField
  | kind
  | originalKind
  | protocolVersion
  | driverVersion
  | cloudRunId
  deriving DecidableEq, Repr

def BackendField.ofKey : String → Option BackendField
  | "kind" => some .kind
  | "original_kind" => some .originalKind
  | "protocol_version" => some .protocolVersion
  | "driver_version" => some .driverVersion
  | "cloud_run_id" => some .cloudRunId
  | _ => none

def lenientString : Json → Decoded (Option String) :=
  deserializeAny
    { visitStr := fun raw => .ok (some raw)
      visitUnit := .ok none
      visitBool := fun _ => .ok none
      visitI64 := fun _ => .ok none
      visitU64 := fun _ => .ok none
      visitF64 := .ok none
      visitSeq := fun _ => .ok none
      visitMap := fun _ => .ok none }

def lenientU32 : Json → Decoded (Option UInt32) :=
  deserializeAny
    { visitU64 := fun value =>
        .ok (if value.toNat < 2 ^ 32 then some (UInt32.ofNat value.toNat) else none)
      visitI64 := fun value =>
        .ok (if 0 ≤ value ∧ value < 2 ^ 32 then some (UInt32.ofNat value.toNat) else none)
      visitUnit := .ok none
      visitBool := fun _ => .ok none
      visitStr := fun _ => .ok none
      visitF64 := .ok none
      visitSeq := fun _ => .ok none
      visitMap := fun _ => .ok none }

namespace OrchestrationBackendRef

abbrev Value : BackendField → Type
  | .protocolVersion => UInt32
  | .kind | .originalKind | .driverVersion | .cloudRunId => String

def lenient : (f : BackendField) → Json → Decoded (Option (Value f))
  | .protocolVersion => lenientU32
  | .kind | .originalKind | .driverVersion | .cloudRunId => lenientString

/-- The variables of the visitor: what each field gave, which fields were seen, and whether the
document is of a shape this build does not write. -/
structure Scan where
  found : Slots Value := fun _ => none
  seen : BackendField → Bool := fun _ => false
  unsupportedShape : Bool := false

def Scan.visitEntry (scan : Scan) (entry : String × Json) : Decoded Scan :=
  match BackendField.ofKey entry.1 with
  | none => .ok { scan with unsupportedShape := true }
  | some field =>
    if scan.seen field then .ok { scan with unsupportedShape := true }
    else do
      let value ← lenient field entry.2
      return {
        found := Function.update scan.found field value
        seen := Function.update scan.seen field true
        unsupportedShape := scan.unsupportedShape || value.isNone }

/-- `unknown_non_executing`: a pin of which nothing is known. -/
def unknownPin : OrchestrationBackendRef := unknownNonExecuting none none none none

def unknownNonExecutingFromParts (originalKind : Option String) (protocolVersion : Option UInt32)
    (driverVersion cloudRunId : Option String) : OrchestrationBackendRef :=
  unknownNonExecuting
    (originalKind.bind fun raw => (Token.new "unknown_backend_kind" maxOpaqueIdLen raw).toOption)
    protocolVersion
    (driverVersion.bind fun raw => (Token.new "driver_version" maxDriverVersionLen raw).toOption)
    (cloudRunId.bind fun raw => (Token.new "driver_run_id" maxOpaqueIdLen raw).toOption)

/-- The pin of an object that was read to its end. -/
def Scan.finish (scan : Scan) : OrchestrationBackendRef :=
  let kind := scan.found .kind
  let originalKind := scan.found .originalKind
  let protocolVersion := scan.found .protocolVersion
  let driverVersion := scan.found .driverVersion
  let cloudRunId := scan.found .cloudRunId
  let unknown := unknownNonExecutingFromParts (originalKind.or kind) protocolVersion driverVersion
    cloudRunId
  match kind with
  | none => unknown
  | some "legacy_embedded" =>
    if scan.unsupportedShape || originalKind.isSome || protocolVersion.isSome ||
      driverVersion.isSome || cloudRunId.isSome then unknown
    else legacyEmbedded
  | some "cloud" =>
    if scan.unsupportedShape || originalKind.isSome then unknown
    else
      match protocolVersion.bind fun version => (SupportedProtocolVersion.new version).toOption with
      | none => unknown
      | some protocolVersion =>
        match driverVersion.bind fun raw =>
          (Token.new "driver_version" maxDriverVersionLen raw).toOption with
        | none => unknown
        | some driverVersion =>
          match cloudRunId.bind fun raw =>
            (Token.new "driver_run_id" maxOpaqueIdLen raw).toOption with
          | none => unknown
          | some cloudRunId => cloud protocolVersion driverVersion cloudRunId
  | some "local_sidecar" =>
    if scan.unsupportedShape || originalKind.isSome || cloudRunId.isSome then unknown
    else
      match protocolVersion.bind fun version => (SupportedProtocolVersion.new version).toOption with
      | none => unknown
      | some protocolVersion =>
        match driverVersion.bind fun raw =>
          (Token.new "driver_version" maxDriverVersionLen raw).toOption with
        | none => unknown
        | some driverVersion => localSidecar protocolVersion driverVersion
  | some "unknown_non_executing" =>
    unknownNonExecutingFromParts originalKind protocolVersion driverVersion cloudRunId
  | some _ => unknown

def visitMap (entries : List (String × Json)) : Decoded OrchestrationBackendRef := do
  let scan ← entries.foldlM Scan.visitEntry {}
  return scan.finish

def decode : Json → Decoded OrchestrationBackendRef :=
  deserializeAny
    { visitUnit := .ok unknownPin
      visitBool := fun _ => .ok unknownPin
      visitI64 := fun _ => .ok unknownPin
      visitU64 := fun _ => .ok unknownPin
      visitF64 := .ok unknownPin
      visitStr := fun raw => .ok (unknownNonExecutingFromParts (some raw) none none none)
      visitSeq := fun _ => .ok unknownPin
      visitMap := visitMap }

def encode : OrchestrationBackendRef → Json
  | legacyEmbedded => .object [("kind", .string "legacy_embedded")]
  | cloud protocolVersion driverVersion cloudRunId =>
    .object [("kind", .string "cloud"), ("protocol_version", ofU32 protocolVersion.version),
      ("driver_version", driverVersion.encode), ("cloud_run_id", cloudRunId.encode)]
  | localSidecar protocolVersion driverVersion =>
    .object [("kind", .string "local_sidecar"),
      ("protocol_version", ofU32 protocolVersion.version),
      ("driver_version", driverVersion.encode)]
  | unknownNonExecuting originalKind protocolVersion driverVersion cloudRunId =>
    .object ([("kind", .string "unknown_non_executing")] ++
      (originalKind.toList.map fun kind => ("original_kind", kind.encode)) ++
      (protocolVersion.toList.map fun version => ("protocol_version", ofU32 version)) ++
      (driverVersion.toList.map fun version => ("driver_version", version.encode)) ++
      (cloudRunId.toList.map fun runId => ("cloud_run_id", runId.encode)))

def kind : OrchestrationBackendRef → OrchestrationBackendKind
  | legacyEmbedded => .legacyEmbedded
  | cloud .. => .cloud
  | localSidecar .. => .localSidecar
  | unknownNonExecuting .. => .unknownNonExecuting

def toRun : OrchestrationBackendRef → Team.OrchestrationBackendRef
  | legacyEmbedded => .legacyEmbedded
  | cloud protocolVersion driverVersion cloudRunId =>
    .cloud protocolVersion.version.toNat driverVersion.raw cloudRunId.raw
  | localSidecar protocolVersion driverVersion =>
    .localSidecar protocolVersion.version.toNat driverVersion.raw
  | unknownNonExecuting originalKind protocolVersion driverVersion cloudRunId =>
    .unknownNonExecuting (originalKind.map (·.raw)) (protocolVersion.map (·.toNat))
      (driverVersion.map (·.raw)) (cloudRunId.map (·.raw))

def readString : Json → Decoded String
  | .string raw => .ok raw
  | _ => .error .invalidType

/-- The fields as a strict decoder would read them. -/
def wire : Record Refusal BackendField Value where
  fields := [.kind, .originalKind, .protocolVersion, .driverVersion, .cloudRunId]
  name
    | .kind => "kind"
    | .originalKind => "original_kind"
    | .protocolVersion => "protocol_version"
    | .driverVersion => "driver_version"
    | .cloudRunId => "cloud_run_id"
  read
    | .protocolVersion => readU32
    | .kind | .originalKind | .driverVersion | .cloudRunId => readString
  complete f := by cases f <;> simp
  distinct := by decide

theorem ofKey_eq {key : String} {f : BackendField} :
    BackendField.ofKey key = some f ↔ wire.name f = key := by
  constructor
  · intro h
    unfold BackendField.ofKey at h
    split at h <;> cases h <;> rfl
  · rintro rfl
    cases f <;> rfl

theorem readString_eq {json : Json} {raw : String} :
    readString json = .ok raw ↔ json = .string raw := by
  cases json <;> simp [readString]

theorem lenientString_spec (json : Json) : ∃ value, lenientString json = .ok value ∧
    ∀ raw, value = some raw ↔ readString json = .ok raw := by
  cases json with
  | string raw => exact ⟨some raw, rfl, by simp [readString]⟩
  | integer value =>
    refine ⟨none, ?_, by simp [readString]⟩
    simp only [lenientString, deserializeAny]
    split_ifs <;> rfl
  | _ => exact ⟨none, rfl, by simp [readString]⟩

theorem lenientU32_spec (json : Json) : ∃ value, lenientU32 json = .ok value ∧
    ∀ version, value = some version ↔ readU32 (ε := Refusal) json = .ok version := by
  cases json with
  | integer value =>
    have hcast : ((2 ^ 32 : ℕ) : ℤ) = 2 ^ 32 := by norm_num
    simp only [lenientU32, deserializeAny, readU32, readUnsigned, hcast]
    by_cases hsign : 0 ≤ value
    · rw [if_pos hsign]
      by_cases hbound : value < 2 ^ 32
      · have hlarge : value < 2 ^ 64 := hbound.trans (by norm_num)
        have hnat : (UInt64.ofNat value.toNat).toNat = value.toNat := by
          rw [UInt64.toNat_ofNat', Nat.mod_eq_of_lt (by omega)]
        have hfits : value.toNat < 2 ^ 32 := by omega
        rw [if_pos hlarge, hnat, if_pos hfits, if_pos ⟨hsign, hbound⟩]
        exact ⟨_, rfl, by simp⟩
      · rw [if_neg (by tauto : ¬ (0 ≤ value ∧ value < 2 ^ 32))]
        by_cases hlarge : value < 2 ^ 64
        · have hnat : (UInt64.ofNat value.toNat).toNat = value.toNat := by
            rw [UInt64.toNat_ofNat', Nat.mod_eq_of_lt (by omega)]
          have hfits : ¬ value.toNat < 2 ^ 32 := by omega
          rw [if_pos hlarge, hnat, if_neg hfits]
          exact ⟨none, rfl, by simp⟩
        · rw [if_neg hlarge]
          exact ⟨none, rfl, by simp⟩
    · have hboth : ¬ (0 ≤ value ∧ value < 2 ^ 32) := fun h => hsign h.1
      rw [if_neg hsign, if_neg hboth, if_neg hboth]
      refine ⟨none, ?_, by simp⟩
      split_ifs <;> rfl
  | _ => exact ⟨none, rfl, by simp [readU32, readUnsigned]⟩

theorem lenient_spec (f : BackendField) (json : Json) : ∃ value, lenient f json = .ok value ∧
    ∀ found, value = some found ↔ wire.read f json = .ok found := by
  cases f with
  | protocolVersion => exact lenientU32_spec json
  | kind | originalKind | driverVersion | cloudRunId => exact lenientString_spec json

/-- As long as the shape is supported, the fields seen are those that gave a value. -/
def Scan.Tracked (scan : Scan) : Prop :=
  scan.unsupportedShape = false → ∀ f, scan.seen f = (scan.found f).isSome

theorem visitEntry_spec {scan : Scan} (h : scan.Tracked) (entry : String × Json) :
    ∃ scan', scan.visitEntry entry = .ok scan' ∧ scan'.Tracked ∧
      ∀ s, scan'.unsupportedShape = false ∧ scan'.found = s ↔
        scan.unsupportedShape = false ∧
          wire.readEntry Record.unguarded scan.found entry = .ok s := by
  unfold Scan.visitEntry
  simp only [Record.readEntry_eq]
  cases hkey : BackendField.ofKey entry.1 with
  | none =>
    refine ⟨_, rfl, fun hshape => absurd hshape (by simp), fun s => ?_⟩
    simp only [reduceCtorEq, false_and, false_iff]
    rintro ⟨-, f, hname, -⟩
    rw [ofKey_eq.mpr hname] at hkey
    exact absurd hkey (by simp)
  | some f =>
    have hname := ofKey_eq.mp hkey
    have hfield : ∀ g, wire.name g = entry.1 ↔ g = f := fun g =>
      ⟨fun hg => wire.name_injective (hg.trans hname.symm), fun hg => hg ▸ hname⟩
    simp only [hfield, exists_eq_left, Record.unguarded, true_and]
    cases hseen : scan.seen f with
    | true =>
      refine ⟨_, rfl, fun hshape => absurd hshape (by simp), fun s => ?_⟩
      simp only [reduceCtorEq, false_and, false_iff]
      rintro ⟨hshape, hslot, -⟩
      have hsome := h hshape f
      rw [hseen, hslot] at hsome
      exact absurd hsome (by simp)
    | false =>
      obtain ⟨value, hvalue, hstrict⟩ := lenient_spec f entry.2
      simp only [Bool.false_eq_true, if_false, hvalue, bind, Except.bind, pure, Except.pure]
      refine ⟨_, rfl, ?_, fun s => ?_⟩
      · intro hshape g
        simp only [Bool.or_eq_false_iff] at hshape
        by_cases hg : g = f
        · subst hg
          simp only [Function.update_self]
          cases value with
          | none => exact absurd hshape.2 (by simp)
          | some found => rfl
        · simp only [Function.update_of_ne hg]
          exact h hshape.1 g
      · simp only [Bool.or_eq_false_iff, ← hstrict, and_assoc]
        refine and_congr_right fun hshape => ?_
        have hnone : scan.found f = none := by
          have hsome := h hshape f
          rw [hseen] at hsome
          simpa using hsome.symm
        simp only [hnone, true_and]
        cases value with
        | none => simp
        | some found => simp [eq_comm]

/-- The run lemma of the visitor: it never fails, and the shape is supported exactly when the
document holds what was found. -/
theorem scan_spec (entries : List (String × Json)) :
    ∃ scan, entries.foldlM Scan.visitEntry {} = .ok scan ∧ scan.Tracked ∧
      ∀ s, scan.unsupportedShape = false ∧ scan.found = s ↔ wire.Holds entries s := by
  simp only [← Record.readEntries_eq]
  induction entries using List.reverseRecOn with
  | nil =>
    refine ⟨{}, rfl, fun _ f => rfl, fun s => ?_⟩
    simp [Record.readEntries, pure, Except.pure]
  | append_singleton entries entry ih =>
    obtain ⟨scan, hscan, htracked, hholds⟩ := ih
    obtain ⟨scan', hscan', htracked', hentry⟩ := visitEntry_spec htracked entry
    refine ⟨scan', ?_, htracked', fun s => ?_⟩
    · rw [List.foldlM_append, hscan]
      simp [hscan', bind, Except.bind, pure, Except.pure]
    · rw [hentry, Record.readEntries_append]
      simp only [← hholds]
      constructor
      · rintro ⟨hshape, hread⟩
        exact ⟨scan.found, ⟨hshape, rfl⟩, hread⟩
      · rintro ⟨_, ⟨hshape, rfl⟩, hread⟩
        exact ⟨hshape, hread⟩

def slots (pin : OrchestrationBackendRef) : Slots Value
  | .kind => some (Literals.text pin.kind)
  | .originalKind =>
    match pin with
    | unknownNonExecuting originalKind _ _ _ => originalKind.map (·.raw)
    | _ => none
  | .protocolVersion =>
    match pin with
    | legacyEmbedded => none
    | cloud protocolVersion _ _ | localSidecar protocolVersion _ => some protocolVersion.version
    | unknownNonExecuting _ protocolVersion _ _ => protocolVersion
  | .driverVersion =>
    match pin with
    | legacyEmbedded => none
    | cloud _ driverVersion _ | localSidecar _ driverVersion => some driverVersion.raw
    | unknownNonExecuting _ _ driverVersion _ => driverVersion.map (·.raw)
  | .cloudRunId =>
    match pin with
    | legacyEmbedded | localSidecar _ _ => none
    | cloud _ _ cloudRunId => some cloudRunId.raw
    | unknownNonExecuting _ _ _ cloudRunId => cloudRunId.map (·.raw)

def encodeField : (f : BackendField) → Value f → Json
  | .protocolVersion, version => ofU32 version
  | .kind, raw | .originalKind, raw | .driverVersion, raw | .cloudRunId, raw => .string raw

def entries (pin : OrchestrationBackendRef) : List (String × Json) :=
  wire.written encodeField wire.fields pin.slots

theorem encode_eq (pin : OrchestrationBackendRef) : pin.encode = .object pin.entries := by
  cases pin with
  | unknownNonExecuting originalKind protocolVersion driverVersion cloudRunId =>
    cases originalKind <;> cases protocolVersion <;> cases driverVersion <;> cases cloudRunId <;>
      rfl
  | _ => rfl

theorem read_field (f : BackendField) (value : Value f) :
    wire.read f (encodeField f value) = .ok value := by
  cases f with
  | protocolVersion =>
    dsimp only [wire, encodeField]
    exact readU32_ofU32 value
  | kind | originalKind | driverVersion | cloudRunId => rfl

theorem read_one (f : BackendField) (json : Json) (value : Value f)
    (h : wire.read f json = .ok value) : json = encodeField f value := by
  cases f with
  | protocolVersion => exact readU32_ok h
  | kind | originalKind | driverVersion | cloudRunId => exact readString_eq.mp h

theorem holds_entries (pin : OrchestrationBackendRef) : wire.Holds pin.entries pin.slots :=
  Record.holds_written (fun f value _ => read_field f value) (by decide) fun f _ => wire.complete f

theorem entries_perm {pin : OrchestrationBackendRef} {written : List (String × Json)} :
    wire.Holds written pin.slots ↔ written.Perm pin.entries := by
  constructor
  · intro h
    exact h.perm_written (by decide) (fun f _ => wire.complete f)
      (fun f value _ => read_field f value) read_one
  · intro h
    exact (holds_entries pin).of_perm h.symm

@[simp] theorem new_raw {field : String} {maxLen : ℕ} (token : Token field maxLen) :
    (Token.new field maxLen token.raw).toOption = some token := by
  rw [Token.new_eq.mpr rfl]
  rfl

@[simp] theorem new_version (supported : SupportedProtocolVersion) :
    (SupportedProtocolVersion.new supported.version).toOption = some supported := by
  unfold SupportedProtocolVersion.new
  rw [dif_pos supported.supported]
  rfl

theorem finish_slots {scan : Scan} {pin : OrchestrationBackendRef}
    (hshape : scan.unsupportedShape = false) (hfound : scan.found = pin.slots) :
    scan.finish = pin := by
  obtain ⟨found, seen, unsupportedShape⟩ := scan
  obtain rfl : unsupportedShape = false := hshape
  obtain rfl : found = pin.slots := hfound
  cases pin with
  | legacyEmbedded => rfl
  | cloud protocolVersion driverVersion cloudRunId =>
    simp [Scan.finish, slots, kind, Literals.text]
  | localSidecar protocolVersion driverVersion =>
    simp [Scan.finish, slots, kind, Literals.text]
  | unknownNonExecuting originalKind protocolVersion driverVersion cloudRunId =>
    simp only [Scan.finish, slots, kind, Literals.text, unknownNonExecutingFromParts]
    cases originalKind <;> cases driverVersion <;> cases cloudRunId <;> simp

theorem new_toOption {field raw : String} {maxLen : ℕ} {token : Token field maxLen} :
    (Token.new field maxLen raw).toOption = some token ↔ raw = token.raw := by
  constructor
  · intro h
    cases hnew : Token.new field maxLen raw with
    | error e => rw [hnew] at h; exact absurd h (by simp [Except.toOption])
    | ok found =>
      rw [hnew] at h
      obtain rfl : found = token := Option.some.inj h
      exact (Token.new_eq.mp hnew).symm
  · rintro rfl
    exact new_raw token

theorem newVersion_toOption {version : UInt32} {supported : SupportedProtocolVersion} :
    (SupportedProtocolVersion.new version).toOption = some supported ↔
      version = supported.version := by
  constructor
  · intro h
    unfold SupportedProtocolVersion.new at h
    split_ifs at h with hrange
    · exact congrArg SupportedProtocolVersion.version (Option.some.inj h)
    · exact absurd h (by simp [Except.toOption])
  · rintro rfl
    exact new_version supported

theorem unknownFromParts_kind {originalKind : Option String} {protocolVersion : Option UInt32}
    {driverVersion cloudRunId : Option String} :
    (unknownNonExecutingFromParts originalKind protocolVersion driverVersion cloudRunId).kind =
      .unknownNonExecuting := rfl

/-- A pin this build understands comes from a supported shape that holds its fields. -/
theorem slots_of_finish {scan : Scan} {pin : OrchestrationBackendRef} (h : scan.finish = pin)
    (hpin : pin.kind ≠ .unknownNonExecuting) :
    scan.unsupportedShape = false ∧ scan.found = pin.slots := by
  have hunknown : ∀ {originalKind protocolVersion driverVersion cloudRunId},
      unknownNonExecutingFromParts originalKind protocolVersion driverVersion cloudRunId ≠ pin := by
    rintro _ _ _ _ rfl
    exact hpin unknownFromParts_kind
  unfold Scan.finish at h
  dsimp only at h
  split at h
  · exact absurd h hunknown
  · rename_i hkind
    split_ifs at h with hall
    · exact absurd h hunknown
    · subst h
      simp only [Bool.or_eq_true, not_or, Bool.not_eq_true, Option.isSome_eq_false_iff,
        Option.isNone_iff_eq_none] at hall
      obtain ⟨⟨⟨⟨hshape, horiginal⟩, hprotocol⟩, hdriver⟩, hrun⟩ := hall
      refine ⟨hshape, funext fun f => ?_⟩
      cases f <;> assumption
  · rename_i hkind
    split_ifs at h with hall
    · exact absurd h hunknown
    · simp only [Bool.or_eq_true, not_or, Bool.not_eq_true, Option.isSome_eq_false_iff,
        Option.isNone_iff_eq_none] at hall
      split at h
      · exact absurd h hunknown
      · rename_i protocolVersion hprotocol
        split at h
        · exact absurd h hunknown
        · rename_i driverVersion hdriver
          split at h
          · exact absurd h hunknown
          · rename_i cloudRunId hrun
            subst h
            simp only [Option.bind_eq_some_iff, new_toOption, newVersion_toOption,
              exists_eq_right] at hprotocol hdriver hrun
            refine ⟨hall.1, funext fun f => ?_⟩
            cases f <;> first | assumption | exact hall.2
  · rename_i hkind
    split_ifs at h with hall
    · exact absurd h hunknown
    · simp only [Bool.or_eq_true, not_or, Bool.not_eq_true, Option.isSome_eq_false_iff,
        Option.isNone_iff_eq_none] at hall
      split at h
      · exact absurd h hunknown
      · rename_i protocolVersion hprotocol
        split at h
        · exact absurd h hunknown
        · rename_i driverVersion hdriver
          subst h
          simp only [Option.bind_eq_some_iff, new_toOption, newVersion_toOption,
            exists_eq_right] at hprotocol hdriver
          refine ⟨hall.1.1, funext fun f => ?_⟩
          cases f <;> first | assumption | exact hall.1.2 | exact hall.2
  · exact absurd h hunknown
  · exact absurd h hunknown

theorem decode_encode (pin : OrchestrationBackendRef) : decode pin.encode = .ok pin := by
  obtain ⟨scan, hscan, -, hholds⟩ := scan_spec pin.entries
  obtain ⟨hshape, hfound⟩ := (hholds _).mpr (holds_entries pin)
  rw [encode_eq]
  change visitMap pin.entries = _
  unfold visitMap
  rw [hscan]
  exact congrArg Except.ok (finish_slots hshape hfound)

theorem decode_total (json : Json) : ∃ pin, decode json = .ok pin := by
  cases json with
  | object written =>
    obtain ⟨scan, hscan, -⟩ := scan_spec written
    refine ⟨scan.finish, ?_⟩
    change visitMap written = _
    unfold visitMap
    rw [hscan]
    rfl
  | integer value =>
    simp only [decode, deserializeAny]
    split_ifs <;> exact ⟨_, rfl⟩
  | _ => exact ⟨_, rfl⟩

theorem decode_other {json : Json} (h : ∀ written, json ≠ .object written) :
    ∃ pin, decode json = .ok pin ∧ pin.kind = .unknownNonExecuting := by
  cases json with
  | object written => exact absurd rfl (h written)
  | integer value =>
    refine ⟨unknownPin, ?_, rfl⟩
    simp only [decode, deserializeAny]
    split_ifs <;> rfl
  | _ => exact ⟨_, rfl, rfl⟩

/-- A backend this build understands is read from its own fields in some order, and from nothing
else. -/
theorem decode_understood {json : Json} {pin : OrchestrationBackendRef}
    (hpin : pin.kind ≠ .unknownNonExecuting) :
    decode json = .ok pin ↔ ∃ written, json = .object written ∧ written.Perm pin.entries := by
  by_cases hobject : ∃ written, json = .object written
  · obtain ⟨written, rfl⟩ := hobject
    obtain ⟨scan, hscan, -, hholds⟩ := scan_spec written
    have hdecode : decode (.object written) = .ok scan.finish := by
      change visitMap written = _
      unfold visitMap
      rw [hscan]
      rfl
    simp only [hdecode, Except.ok.injEq, Json.object.injEq, exists_eq_left', ← entries_perm,
      ← hholds]
    constructor
    · intro h
      exact slots_of_finish h hpin
    · rintro ⟨hshape, hfound⟩
      exact finish_slots hshape hfound
  · have hother : ∀ written, json ≠ .object written := fun written h => hobject ⟨written, h⟩
    obtain ⟨other, hdecode, hkind⟩ := decode_other hother
    constructor
    · intro h
      obtain rfl : other = pin := Except.ok.inj (hdecode.symm.trans h)
      exact absurd hkind hpin
    · rintro ⟨written, rfl, -⟩
      exact absurd rfl (hother written)

theorem executable_iff (pin : OrchestrationBackendRef) :
    pin.toRun.isExecutableByCurrentBuild = true ↔ pin = legacyEmbedded := by
  cases pin <;> simp [toRun, Team.OrchestrationBackendRef.isExecutableByCurrentBuild]

end OrchestrationBackendRef

end AgentRelay.Orchestration
