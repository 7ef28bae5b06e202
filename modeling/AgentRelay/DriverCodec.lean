import AgentRelay.DriverMessages

/-! Which documents the decoders of driver messages take, and that they give back what was
encoded. Every string of a message is a literal of its field or a token. -/
namespace AgentRelay.Orchestration
open Wire

def IsTokenText (maxLen : ℕ) (json : Json) : Prop := ∃ raw, json = .string raw ∧ IsToken maxLen raw

def IsText (literals : List String) (json : Json) : Prop := ∃ text ∈ literals, json = .string text

/-- A list of at most `max` items. -/
def IsBounded (max : ℕ) (Typed : Json → Prop) (json : Json) : Prop :=
  ∃ items, json = .array items ∧ items.length ≤ max ∧ ∀ item ∈ items, Typed item

theorem Token.accepts_read {field : String} {maxLen : ℕ} {json : Json} :
    Accepts (Token.read field maxLen json) ↔ IsTokenText maxLen json := by
  cases json with
  | string raw =>
    have hnew := Token.new_accepts field maxLen raw
    simp only [Token.read, IsTokenText, Json.string.injEq, exists_eq_left', ← hnew]
    cases Token.new field maxLen raw <;> simp [Except.mapError, Accepts]
  | _ => simp [Token.read, IsTokenText]

theorem Token.read_encode {field : String} {maxLen : ℕ} (token : Token field maxLen) :
    Token.read field maxLen token.encode = .ok token := by
  have hnew : Token.new field maxLen token.raw = .ok token := Token.new_eq.mpr rfl
  simp [Token.read, Token.encode, hnew, Except.mapError]

theorem accepts_readText {α : Type} [Literals α] {json : Json} :
    Accepts (readText α json) ↔ IsText (vocabulary α) json := by
  cases json <;> simp [readText, IsText, accepts_readVariant]

theorem readText_text {α : Type} [Literals α] (a : α) :
    readText α (.string (Literals.text a)) = .ok a := readVariant_text a

theorem readText_ok {α : Type} [Literals α] {json : Json} {a : α} (h : readText α json = .ok a) :
    json = .string (Literals.text a) := by
  cases json with
  | string text => rw [readVariant_eq.mp h]
  | _ => exact absurd h (by simp [readText])

theorem accepts_readRole {json : Json} :
    Accepts (readRole json) ↔ IsText (vocabulary DriverRole) json := by
  cases json with
  | string raw =>
    have hvariant : Accepts (readVariant DriverRole raw : Decoded DriverRole) ↔
        raw ∈ vocabulary DriverRole := accepts_readVariant
    simp only [IsText, Json.string.injEq, exists_eq_right', ← hvariant]
    simp only [readRole, readVariant]
    cases hfind : (Literals.values (α := DriverRole)).find? (Literals.text · = raw) with
    | none => simp
    | some role => simp
  | _ => simp [readRole, IsText]

theorem readRole_text (role : DriverRole) : readRole (.string (Literals.text role)) = .ok role := by
  cases role <;> rfl

namespace BoundedVec

variable {α : Type} {max : ℕ} {read : Json → Decoded α}

theorem accepts_visitSeq {Typed : Json → Prop} (htyped : ∀ json, Accepts (read json) ↔ Typed json)
    (items : List Json) (found : BoundedVec α max) :
    Accepts (visitSeq read items found) ↔
      found.items.length + items.length ≤ max ∧ ∀ item ∈ items, Typed item := by
  induction items generalizing found with
  | nil => simp [visitSeq, found.bounded]
  | cons json rest ih =>
    rw [visitSeq]
    split_ifs with hfull
    · simp only [not_accepts_error, List.length_cons, false_iff]
      rintro ⟨hlen, -⟩
      omega
    · rw [accepts_bind, List.forall_mem_cons, List.length_cons]
      simp only [ih, List.length_append, List.length_singleton, exists_and_right]
      rw [show (∃ item, read json = .ok item) ↔ Typed json from htyped json]
      constructor
      · rintro ⟨hjson, hlen, hrest⟩
        exact ⟨by omega, hjson, hrest⟩
      · rintro ⟨hlen, hjson, hrest⟩
        exact ⟨hjson, by omega, hrest⟩

theorem accepts_read {Typed : Json → Prop} (htyped : ∀ json, Accepts (read json) ↔ Typed json)
    {json : Json} : Accepts (BoundedVec.read max read json) ↔ IsBounded max Typed json := by
  cases json with
  | array items =>
    simp [BoundedVec.read, IsBounded, accepts_visitSeq htyped, empty]
  | _ => simp [BoundedVec.read, IsBounded]

theorem visitSeq_encode {encode : α → Json} (hread : ∀ item, read (encode item) = .ok item)
    (items : List α) (found : BoundedVec α max) (h : (found.items ++ items).length ≤ max) :
    visitSeq read (items.map encode) found = .ok ⟨found.items ++ items, h⟩ := by
  induction items generalizing found with
  | nil => simp [visitSeq]
  | cons item rest ih =>
    have hroom : found.items.length ≠ max := by
      rw [List.length_append, List.length_cons] at h
      omega
    rw [List.map_cons, visitSeq, dif_neg hroom, hread]
    have hrest := ih ⟨found.items ++ [item], by
      rw [List.length_append, List.length_cons] at h
      rw [List.length_append, List.length_singleton]
      omega⟩ (by simpa using h)
    simpa [bind, Except.bind] using hrest

theorem read_encode {encode : α → Json} (hread : ∀ item, read (encode item) = .ok item)
    (vec : BoundedVec α max) : BoundedVec.read max read (vec.encode encode) = .ok vec :=
  visitSeq_encode hread vec.items empty vec.bounded

end BoundedVec

namespace ArtifactRef

def Typed : ArtifactRefField → Json → Prop
  | .artifactId => IsTokenText maxOpaqueIdLen
  | .kind => IsLiteral (vocabulary ArtifactKind)
  | .revision => IsUnsigned (2 ^ 64)
  | .sizeBytes => fun json => json = .null ∨ IsUnsigned (2 ^ 64) json

def IsArtifact : Json → Prop := wire.Shape hasDefault Typed

theorem accepts_field (f : ArtifactRefField) (json : Json) :
    Accepts (wire.read f json) ↔ Typed f json := by
  cases f with
  | artifactId => exact Token.accepts_read
  | kind => exact accepts_readEnum
  | revision => exact accepts_readU64
  | sizeBytes => exact accepts_readOption.trans (or_congr_right accepts_readU64)

theorem accepts_finish (s : Slots Value) :
    Accepts (finish s) ↔ ∀ f, hasDefault f = false → (s f).isSome := by
  have hall : (∀ f, hasDefault f = false → (s f).isSome) ↔
      (s .artifactId).isSome ∧ (s .kind).isSome ∧ (s .revision).isSome := by
    constructor
    · intro h
      exact ⟨h _ rfl, h _ rfl, h _ rfl⟩
    · rintro ⟨hid, hkind, hrevision⟩ f hf
      cases f <;> first | assumption | exact absurd hf (by simp [hasDefault])
  rw [hall]
  simp [finish, accepts_bind, accepts_map, Record.required_eq, Record.accepts_required,
    Option.isSome_iff_exists]

theorem accepts_decode {json : Json} : Accepts (decode json) ↔ IsArtifact json :=
  Record.accepts_struct accepts_field accepts_finish

end ArtifactRef

namespace ArtifactBinding

def Typed : ArtifactBindingField → Json → Prop
  | .slot => IsLiteral (vocabulary ArtifactBindingSlot)
  | .artifact => ArtifactRef.IsArtifact

def IsBinding : Json → Prop := wire.Shape hasDefault Typed

theorem accepts_field (f : ArtifactBindingField) (json : Json) :
    Accepts (wire.read f json) ↔ Typed f json := by
  cases f with
  | slot => exact accepts_readEnum
  | artifact => exact ArtifactRef.accepts_decode

theorem accepts_finish (s : Slots Value) :
    Accepts (finish s) ↔ ∀ f, hasDefault f = false → (s f).isSome := by
  have hall : (∀ f, hasDefault f = false → (s f).isSome) ↔
      (s .slot).isSome ∧ (s .artifact).isSome := by
    constructor
    · intro h
      exact ⟨h _ rfl, h _ rfl⟩
    · rintro ⟨hslot, hartifact⟩ f -
      cases f <;> assumption
  rw [hall]
  simp [finish, accepts_bind, accepts_map, Record.required_eq, Record.accepts_required,
    Option.isSome_iff_exists]

theorem accepts_decode {json : Json} : Accepts (decode json) ↔ IsBinding json :=
  Record.accepts_struct accepts_field accepts_finish

end ArtifactBinding

def IsSupportedVersion (json : Json) : Prop :=
  ∃ value : ℤ, json = .integer value ∧ minProtocolVersion.toNat ≤ value ∧
    value ≤ currentProtocolVersion.toNat

theorem readU32_ok {json : Json} {version : UInt32}
    (h : (readU32 json : Decoded UInt32) = .ok version) :
    json = .integer version.toNat := by
  cases json with
  | integer value =>
    simp only [readU32, readUnsigned] at h
    split_ifs at h with hbounds
    obtain rfl := Except.ok.inj h
    have hlt : value.toNat < 2 ^ 32 := by omega
    rw [UInt32.toNat_ofNat', Nat.mod_eq_of_lt hlt, Int.toNat_of_nonneg hbounds.1]
  | _ => exact absurd h (by simp [readU32, readUnsigned])

theorem accepts_supportedVersion {json : Json} :
    Accepts (deserializeSupportedProtocolVersion json) ↔ IsSupportedVersion json := by
  have hchecked : ∀ version : UInt32, Accepts (if minProtocolVersion ≤ version ∧
      version ≤ currentProtocolVersion then .ok version
      else .error (.custom (.value (.unsupportedProtocolVersion version))) : Decoded UInt32) ↔
      minProtocolVersion.toNat ≤ version.toNat ∧
        version.toNat ≤ currentProtocolVersion.toNat := by
    intro version
    simp only [UInt32.le_iff_toNat_le]
    split_ifs with h <;> simp [h]
  unfold deserializeSupportedProtocolVersion IsSupportedVersion
  rw [accepts_bind]
  constructor
  · rintro ⟨version, hversion, haccepts⟩
    obtain ⟨hmin, hmax⟩ := (hchecked version).mp haccepts
    exact ⟨version.toNat, readU32_ok hversion, by exact_mod_cast hmin, by exact_mod_cast hmax⟩
  · rintro ⟨value, rfl, hmin, hmax⟩
    have hbound : currentProtocolVersion.toNat < 2 ^ 32 := by decide
    obtain ⟨version, hversion⟩ := accepts_readU32.mpr
      ⟨value, rfl, by omega, by push_cast; omega⟩
    have hvalue := Json.integer.inj (readU32_ok hversion)
    refine ⟨version, hversion, (hchecked version).mpr ⟨?_, ?_⟩⟩
    · omega
    · omega

namespace DriverCursor

def Typed : DriverCursorField → Json → Prop
  | .protocolVersion => IsSupportedVersion
  | .backend => IsLiteral (vocabulary OrchestrationBackendKind)
  | .status => IsLiteral (vocabulary DriverRunStatus)
  | .phase => IsLiteral (vocabulary DriverPhase)
  | .stateRevision | .lastCommandSeq | .lastEventSeq => IsUnsigned (2 ^ 64)
  | .inFlightCommandId => fun json => json = .null ∨ IsTokenText maxOpaqueIdLen json
  | .currentSubTaskIndex | .subTaskCount | .currentRoundsUsed | .maxReviewRounds
  | .designReviewRounds | .mrRoundsUsed | .tlGeneration => IsUnsigned (2 ^ 32)
  | .pauseRequested | .awaitingUser => IsBool
  | .artifacts => IsBounded maxCursorArtifacts ArtifactRef.IsArtifact

/-- A cursor; it may leave out the command in flight and the artifacts. -/
def IsCursor : Json → Prop := wire.Shape hasDefault Typed

theorem accepts_field (f : DriverCursorField) (json : Json) :
    Accepts (wire.read f json) ↔ Typed f json := by
  cases f with
  | protocolVersion => exact accepts_supportedVersion
  | backend | status | phase => exact accepts_readEnum
  | stateRevision | lastCommandSeq | lastEventSeq => exact accepts_readU64
  | inFlightCommandId => exact accepts_readOption.trans (or_congr_right Token.accepts_read)
  | currentSubTaskIndex | subTaskCount | currentRoundsUsed | maxReviewRounds
  | designReviewRounds | mrRoundsUsed | tlGeneration => exact accepts_readU32
  | pauseRequested | awaitingUser => exact accepts_readBool
  | artifacts => exact BoundedVec.accepts_read fun _ => ArtifactRef.accepts_decode

theorem accepts_finish (s : Slots Value) :
    Accepts (finish s) ↔ ∀ f, hasDefault f = false → (s f).isSome := by
  have hall : (∀ f, hasDefault f = false → (s f).isSome) ↔
      (s .protocolVersion).isSome ∧ (s .backend).isSome ∧ (s .status).isSome ∧
      (s .phase).isSome ∧ (s .stateRevision).isSome ∧ (s .lastCommandSeq).isSome ∧
      (s .lastEventSeq).isSome ∧ (s .currentSubTaskIndex).isSome ∧ (s .subTaskCount).isSome ∧
      (s .currentRoundsUsed).isSome ∧ (s .maxReviewRounds).isSome ∧
      (s .designReviewRounds).isSome ∧ (s .mrRoundsUsed).isSome ∧ (s .tlGeneration).isSome ∧
      (s .pauseRequested).isSome ∧ (s .awaitingUser).isSome := by
    constructor
    · intro h
      refine ⟨?_, ?_, ?_, ?_, ?_, ?_, ?_, ?_, ?_, ?_, ?_, ?_, ?_, ?_, ?_, ?_⟩ <;> exact h _ rfl
    · rintro ⟨_, _, _, _, _, _, _, _, _, _, _, _, _, _, _, _⟩ f hf
      cases f <;> first | assumption | exact absurd hf (by simp [hasDefault])
  rw [hall]
  simp [finish, accepts_bind, accepts_map, Record.required_eq, Record.accepts_required,
    Option.isSome_iff_exists]

theorem accepts_decode {json : Json} : Accepts (decode json) ↔ IsCursor json :=
  Record.accepts_struct accepts_field accepts_finish

end DriverCursor

theorem rejectExtra_eq {F : Type} {T : F → Type} {r : Record Refusal F T} {s : Slots T}
    (kind message : String) (fields : List F) :
    rejectExtra r s kind message fields = .ok () ↔ ∀ f ∈ fields, s f = none := by
  induction fields with
  | nil => simp [rejectExtra]
  | cons f fields ih =>
    rw [rejectExtra, List.forall_mem_cons]
    cases hslot : s f with
    | none => simp [ih]
    | some value => simp [notValid]

theorem accepts_rejectExtra {F α : Type} {T : F → Type} {r : Record Refusal F T} {s : Slots T}
    {kind message : String} {fields : List F} {next : Unit → Decoded α} :
    Accepts (rejectExtra r s kind message fields >>= next) ↔
      (∀ f ∈ fields, s f = none) ∧ Accepts (next ()) := by
  rw [accepts_bind, ← rejectExtra_eq (r := r) kind message]
  constructor
  · rintro ⟨⟨⟩, hextra, hnext⟩
    exact ⟨hextra, hnext⟩
  · rintro ⟨hextra, hnext⟩
    exact ⟨(), hextra, hnext⟩

namespace DriverCommand

def Typed : DriverCommandField → Json → Prop
  | .kind => IsText (vocabulary DriverCommandKind)
  | .role => IsText (vocabulary DriverRole)
  | .candidates => IsBounded maxCandidateThreads (IsTokenText maxOpaqueIdLen)
  | .thread | .templateId | .messageTemplateId => IsTokenText maxOpaqueIdLen
  | .bindings => IsBounded maxCommandBindings ArtifactBinding.IsBinding
  | .scope => IsLiteral (vocabulary DiffScope)
  | .target => IsLiteral (vocabulary MergeBaseTarget)
  | .status => IsLiteral (vocabulary DriverRunStatus)

theorem accepts_field (f : DriverCommandField) (json : Json) :
    Accepts (wire.read f json) ↔ Typed f json := by
  cases f with
  | kind => exact accepts_readText
  | role => exact accepts_readRole
  | candidates => exact BoundedVec.accepts_read fun _ => Token.accepts_read
  | thread | templateId | messageTemplateId => exact Token.accepts_read
  | bindings => exact BoundedVec.accepts_read fun _ => ArtifactBinding.accepts_decode
  | scope | target | status => exact accepts_readEnum

def declared : DriverCommandKind → List String
  | .requireWorkspace | .checkpointCommit | .pauseAtBoundary => []
  | .startThread => ["role"]
  | .resumeOrStartThread => ["role", "candidates"]
  | .runTemplate => ["thread", "role", "template_id", "bindings"]
  | .collectDiff => ["scope"]
  | .mergeBase => ["target"]
  | .commit => ["message_template_id", "bindings"]
  | .settleRun => ["status"]

theorem allowed_iff (kind : DriverCommandKind) (f : DriverCommandField) :
    commandFieldAllowedForKind kind f = true ↔ wire.name f ∈ declared kind := by
  cases kind <;> cases f <;> decide

/-- The spec of the last check: the kind is known and exactly its fields were said. -/
theorem accepts_finish (s : Slots Value) : Accepts (finish s) ↔ ∃ kind, s .kind = some kind ∧
    ∀ f, f ≠ .kind → ((s f).isSome ↔ commandFieldAllowedForKind kind f = true) := by
  have hfields : ∀ P : DriverCommandField → Prop, (∀ f, f ≠ .kind → P f) ↔
      P .role ∧ P .candidates ∧ P .thread ∧ P .templateId ∧ P .bindings ∧ P .scope ∧
        P .target ∧ P .messageTemplateId ∧ P .status := by
    intro P
    constructor
    · intro h
      refine ⟨?_, ?_, ?_, ?_, ?_, ?_, ?_, ?_, ?_⟩ <;> exact h _ (by decide)
    · rintro ⟨_, _, _, _, _, _, _, _, _⟩ f hf
      cases f <;> first | assumption | exact absurd rfl hf
  have hnone : ∀ f, s f = none ↔ ¬ ∃ value, s f = some value := by
    intro f
    cases s f <;> simp
  unfold finish
  rw [Record.accepts_required_bind]
  refine exists_congr fun kind => and_congr_right fun _ => ?_
  rw [hfields]
  cases kind <;>
    simp only [Record.accepts_required_bind, rejectCommandExtra, accepts_rejectExtra,
      accepts_pure, and_true, List.forall_mem_cons, List.not_mem_nil, false_implies, implies_true,
      commandFieldAllowedForKind, Option.isSome_iff_exists, decide_eq_true_eq, Bool.or_eq_true,
      reduceCtorEq, or_false, false_or, iff_false, iff_true, exists_and_right, hnone] <;>
    tauto

theorem guard_passes (s s' : Slots Value) (h : Accepts (finish s))
    (hle : ∀ g value, s' g = some value → s g = some value) (f : DriverCommandField)
    (hsome : (s f).isSome) : guard s' f = .ok () := by
  obtain ⟨kind, hkind, hall⟩ := (accepts_finish s).mp h
  unfold guard
  cases hseen : s' .kind with
  | none => rfl
  | some seen =>
    obtain rfl : seen = kind := Option.some.inj ((hle .kind seen hseen).symm.trans hkind)
    dsimp only
    rw [if_neg]
    rintro ⟨hne, hno⟩
    rw [(hall f hne).mp hsome] at hno
    exact absurd hno (by simp)

/-- A command as a document: it names its kind and, once each and in any order, exactly the
fields of that kind, with values of their types. -/
def IsCommand (entries : List (String × Json)) : Prop :=
  ∃ kind : DriverCommandKind, ("kind", .string (Literals.text kind)) ∈ entries ∧
    wire.Fits Typed entries ∧
    ∀ key, key ∈ entries.map Prod.fst ↔ key = "kind" ∨ key ∈ declared kind

theorem declared_field {kind : DriverCommandKind} {key : String} (h : key ∈ declared kind) :
    ∃ f, f ≠ .kind ∧ wire.name f = key := by
  have hnamed : ∀ key ∈ declared kind, key ∈ (wire.fields.filter (· ≠ .kind)).map wire.name := by
    cases kind <;> decide
  obtain ⟨f, hf, rfl⟩ := List.mem_map.mp (hnamed key h)
  exact ⟨f, of_decide_eq_true (List.mem_filter.mp hf).2, rfl⟩

theorem accepts_decode {entries : List (String × Json)} :
    Accepts (decode (.object entries)) ↔ IsCommand entries := by
  unfold decode
  rw [Record.accepts_guarded guard_passes]
  simp only [accepts_finish]
  constructor
  · rintro ⟨s, hs, kind, hkind, hall⟩
    obtain ⟨json, hentry, hread⟩ := hs.slot_eq.mp hkind
    refine ⟨kind, readText_ok hread ▸ hentry, hs.fits accepts_field, fun key => ?_⟩
    constructor
    · intro hmem
      obtain ⟨entry, hin, rfl⟩ := List.mem_map.mp hmem
      obtain ⟨f, found, hname, -, hslot⟩ := hs.held entry hin
      by_cases hf : f = .kind
      · exact Or.inl (hname.symm.trans (congrArg wire.name hf))
      · have hallowed := (hall f hf).mp (by rw [hslot]; rfl)
        exact Or.inr (hname ▸ (allowed_iff kind f).mp hallowed)
    · rintro (rfl | hdeclared)
      · exact List.mem_map_of_mem hentry
      · obtain ⟨f, hf, rfl⟩ := declared_field hdeclared
        exact hs.said f ((hall f hf).mpr ((allowed_iff kind f).mpr hdeclared))
  · rintro ⟨kind, hentry, hfits, hkeys⟩
    obtain ⟨s, hs⟩ := hfits.holds accepts_field
    refine ⟨s, hs, kind, hs.slot_eq.mpr ⟨_, hentry, readText_text kind⟩, fun f hf => ?_⟩
    rw [hs.isSome_iff, hkeys, allowed_iff]
    have hne : wire.name f ≠ "kind" := fun h => hf (wire.name_injective (h.trans rfl))
    simp [hne]

end DriverCommand

namespace DriverEvent

def Typed : DriverEventField → Json → Prop
  | .kind => IsText (vocabulary DriverEventKind)
  | .reason => IsLiteral (vocabulary CommandRejection)
  | .thread => IsTokenText maxOpaqueIdLen
  | .role => IsText (vocabulary DriverRole)
  | .outcome => IsLiteral (vocabulary TurnOutcomeKind)
  | .artifact => fun json => json = .null ∨ ArtifactRef.IsArtifact json
  | .changed | .available => IsBool
  | .cursor => DriverCursor.IsCursor
  | .status => IsLiteral (vocabulary DriverRunStatus)

theorem accepts_field (f : DriverEventField) (json : Json) :
    Accepts (wire.read f json) ↔ Typed f json := by
  cases f with
  | kind => exact accepts_readText
  | reason | outcome | status => exact accepts_readEnum
  | thread => exact Token.accepts_read
  | role => exact accepts_readRole
  | artifact => exact accepts_readOption.trans (or_congr_right ArtifactRef.accepts_decode)
  | changed | available => exact accepts_readBool
  | cursor => exact DriverCursor.accepts_decode

def declared : DriverEventKind → List String
  | .commandAccepted | .workspaceReady => []
  | .commandRejected => ["reason"]
  | .threadReady => ["thread", "role"]
  | .turnFinished => ["outcome", "artifact"]
  | .diffCollected => ["changed", "artifact"]
  | .mergeBaseResolved => ["available", "artifact"]
  | .commitRecorded => ["changed", "artifact"]
  | .cursorAdvanced => ["cursor"]
  | .runSettled => ["status"]

def mayOmit (kind : DriverEventKind) (key : String) : Bool :=
  key = "artifact" && (kind = .turnFinished || kind = .mergeBaseResolved || kind = .commitRecorded)

theorem allowed_iff (kind : DriverEventKind) (f : DriverEventField) :
    eventFieldAllowedForKind kind f = true ↔ wire.name f ∈ declared kind := by
  cases kind <;> cases f <;> decide

theorem mayOmit_name (kind : DriverEventKind) (f : DriverEventField) :
    mayOmit kind (wire.name f) = true ↔ f = .artifact ∧
      (kind = .turnFinished ∨ kind = .mergeBaseResolved ∨ kind = .commitRecorded) := by
  cases f <;> cases kind <;> decide

theorem accepts_requiredArtifact {s : Slots Value} {α : Type} {next : ArtifactRef → Decoded α} :
    Accepts (requiredArtifact s >>= next) ↔
      ∃ artifact, s .artifact = some (some artifact) ∧ Accepts (next artifact) := by
  unfold requiredArtifact Record.required
  cases s .artifact with
  | none => simp [bind, Except.bind]
  | some artifact => cases artifact <;> simp [bind, Except.bind, pure, Except.pure]

/-- The spec of the last check: the kind is known and its fields were said, but for an artifact
that may be left out; the artifact of a collected diff is there. -/
theorem accepts_finish (s : Slots Value) : Accepts (finish s) ↔ ∃ kind, s .kind = some kind ∧
    (∀ f, f ≠ .kind → ((s f).isSome → eventFieldAllowedForKind kind f = true) ∧
      (eventFieldAllowedForKind kind f = true → (s f).isSome ∨ mayOmit kind (wire.name f) = true)) ∧
    (kind = .diffCollected → s .artifact ≠ some none) := by
  have hfields : ∀ P : DriverEventField → Prop, (∀ f, f ≠ .kind → P f) ↔
      P .reason ∧ P .thread ∧ P .role ∧ P .outcome ∧ P .artifact ∧ P .changed ∧
        P .available ∧ P .cursor ∧ P .status := by
    intro P
    constructor
    · intro h
      refine ⟨?_, ?_, ?_, ?_, ?_, ?_, ?_, ?_, ?_⟩ <;> exact h _ (by decide)
    · rintro ⟨_, _, _, _, _, _, _, _, _⟩ f hf
      cases f <;> first | assumption | exact absurd rfl hf
  have hnone : ∀ f, s f = none ↔ ¬ ∃ value, s f = some value := by
    intro f
    cases s f <;> simp
  have hartifact : (∃ artifact, s .artifact = some (some artifact)) ↔
      (∃ value, s .artifact = some value) ∧ ¬ s .artifact = some none := by
    cases s .artifact with
    | none => simp
    | some artifact => cases artifact <;> simp
  unfold finish
  rw [Record.accepts_required_bind]
  refine exists_congr fun kind => and_congr_right fun _ => ?_
  rw [hfields]
  cases kind <;>
    simp only [Record.accepts_required_bind, rejectEventExtra, accepts_rejectExtra,
      accepts_requiredArtifact, accepts_pure, and_true, List.forall_mem_cons, List.not_mem_nil,
      false_implies, implies_true, eventFieldAllowedForKind, Option.isSome_iff_exists,
      decide_eq_true_eq, Bool.or_eq_true, reduceCtorEq, or_false, false_or,
      exists_and_right, hnone, mayOmit_name, hartifact, ne_eq] <;>
    grind

theorem guard_passes (s s' : Slots Value) (h : Accepts (finish s))
    (hle : ∀ g value, s' g = some value → s g = some value) (f : DriverEventField)
    (hsome : (s f).isSome) : guard s' f = .ok () := by
  obtain ⟨kind, hkind, hall, -⟩ := (accepts_finish s).mp h
  unfold guard
  cases hseen : s' .kind with
  | none => rfl
  | some seen =>
    obtain rfl : seen = kind := Option.some.inj ((hle .kind seen hseen).symm.trans hkind)
    dsimp only
    rw [if_neg]
    rintro ⟨hne, hno⟩
    rw [(hall f hne).1 hsome] at hno
    exact absurd hno (by simp)

/-- An event as a document: it names its kind and, once each and in any order, the fields of that
kind, with values of their types; only an optional artifact may be left out, and the artifact of
a collected diff is not null. -/
def IsEvent (entries : List (String × Json)) : Prop :=
  ∃ kind : DriverEventKind, ("kind", .string (Literals.text kind)) ∈ entries ∧
    wire.Fits Typed entries ∧
    (∀ key ∈ entries.map Prod.fst, key = "kind" ∨ key ∈ declared kind) ∧
    (∀ key ∈ declared kind, key ∈ entries.map Prod.fst ∨ mayOmit kind key = true) ∧
    (kind = .diffCollected → ("artifact", .null) ∉ entries)

theorem declared_field {kind : DriverEventKind} {key : String} (h : key ∈ declared kind) :
    ∃ f, f ≠ .kind ∧ wire.name f = key := by
  have hnamed : ∀ key ∈ declared kind, key ∈ (wire.fields.filter (· ≠ .kind)).map wire.name := by
    cases kind <;> decide
  obtain ⟨f, hf, rfl⟩ := List.mem_map.mp (hnamed key h)
  exact ⟨f, of_decide_eq_true (List.mem_filter.mp hf).2, rfl⟩

theorem artifact_null {entries : List (String × Json)} {s : Slots Value}
    (hs : wire.Holds entries s) : s .artifact = some none ↔ ("artifact", .null) ∈ entries := by
  rw [hs.slot_eq]
  constructor
  · rintro ⟨json, hentry, hread⟩
    have hnull : json = .null := by
      change readOption ArtifactRef.decode json = .ok none at hread
      unfold readOption at hread
      split at hread
      · rfl
      · cases hdecode : ArtifactRef.decode json <;> rw [hdecode] at hread <;>
          exact absurd hread (by simp [Functor.map, Except.map])
    exact hnull ▸ hentry
  · intro hentry
    exact ⟨.null, hentry, rfl⟩

theorem accepts_decode {entries : List (String × Json)} :
    Accepts (decode (.object entries)) ↔ IsEvent entries := by
  unfold decode
  rw [Record.accepts_guarded guard_passes]
  simp only [accepts_finish]
  constructor
  · rintro ⟨s, hs, kind, hkind, hall, hdiff⟩
    obtain ⟨json, hentry, hread⟩ := hs.slot_eq.mp hkind
    refine ⟨kind, readText_ok hread ▸ hentry, hs.fits accepts_field, ?_, ?_, ?_⟩
    · intro key hmem
      obtain ⟨entry, hin, rfl⟩ := List.mem_map.mp hmem
      obtain ⟨f, found, hname, -, hslot⟩ := hs.held entry hin
      by_cases hf : f = .kind
      · exact Or.inl (hname.symm.trans (congrArg wire.name hf))
      · have hallowed := (hall f hf).1 (by rw [hslot]; rfl)
        exact Or.inr (hname ▸ (allowed_iff kind f).mp hallowed)
    · intro key hdeclared
      obtain ⟨f, hf, rfl⟩ := declared_field hdeclared
      exact ((hall f hf).2 ((allowed_iff kind f).mpr hdeclared)).imp_left (hs.said f)
    · intro heq hnull
      exact hdiff heq ((artifact_null hs).mpr hnull)
  · rintro ⟨kind, hentry, hfits, hknown, hall, hdiff⟩
    obtain ⟨s, hs⟩ := hfits.holds accepts_field
    refine ⟨s, hs, kind, hs.slot_eq.mpr ⟨_, hentry, readText_text kind⟩, fun f hf => ⟨?_, ?_⟩, ?_⟩
    · intro hsome
      have hne : wire.name f ≠ "kind" := fun h => hf (wire.name_injective (h.trans rfl))
      exact (allowed_iff kind f).mpr ((hknown _ (hs.said f hsome)).resolve_left hne)
    · intro hallowed
      exact (hall _ ((allowed_iff kind f).mp hallowed)).imp_left (hs.isSome_iff f).mpr
    · intro heq hnull
      exact hdiff heq ((artifact_null hs).mp hnull)

end DriverEvent

namespace ArtifactRef

def slots (artifact : ArtifactRef) : Slots Value
  | .artifactId => some artifact.artifactId
  | .kind => some artifact.kind
  | .revision => some artifact.revision
  | .sizeBytes => artifact.sizeBytes.map some

def encodeField : (f : ArtifactRefField) → Value f → Json
  | .artifactId, artifactId => artifactId.encode
  | .kind, kind => .string (Literals.text kind)
  | .revision, revision => ofU64 revision
  | .sizeBytes, sizeBytes => ofOption ofU64 sizeBytes

theorem encode_eq (artifact : ArtifactRef) :
    artifact.encode = .object (wire.written encodeField wire.fields artifact.slots) := by
  obtain ⟨artifactId, kind, revision, sizeBytes⟩ := artifact
  cases sizeBytes <;> rfl

theorem decode_encode (artifact : ArtifactRef) : decode artifact.encode = .ok artifact := by
  have hread : ∀ f value, artifact.slots f = some value →
      wire.read f (encodeField f value) = .ok value := by
    intro f value _
    cases f with
    | artifactId => exact Token.read_encode value
    | kind => exact readEnum_text value
    | revision =>
      dsimp only [wire, encodeField]
      exact readU64_ofU64 value
    | sizeBytes =>
      have hnull : ∀ size, ofU64 size ≠ .null := fun size => by simp [ofU64]
      dsimp only [wire, encodeField]
      exact readOption_ofOption readU64_ofU64 hnull value
  have hholds := Record.holds_written hread (by decide) fun f _ => wire.complete f
  rw [encode_eq, decode, Record.readStruct, Record.readEntries_eq.mpr hholds]
  obtain ⟨artifactId, kind, revision, sizeBytes⟩ := artifact
  cases sizeBytes <;> rfl

theorem encode_ne_null (artifact : ArtifactRef) : artifact.encode ≠ .null := by simp [encode]

end ArtifactRef

namespace ArtifactBinding

def slots (binding : ArtifactBinding) : Slots Value
  | .slot => some binding.slot
  | .artifact => some binding.artifact

def encodeField : (f : ArtifactBindingField) → Value f → Json
  | .slot, slot => .string (Literals.text slot)
  | .artifact, artifact => artifact.encode

theorem decode_encode (binding : ArtifactBinding) : decode binding.encode = .ok binding := by
  have hread : ∀ f value, binding.slots f = some value →
      wire.read f (encodeField f value) = .ok value := by
    intro f value _
    cases f with
    | slot => exact readEnum_text value
    | artifact => exact ArtifactRef.decode_encode value
  have hencode : binding.encode =
      .object (wire.written encodeField wire.fields binding.slots) := rfl
  have hholds := Record.holds_written hread (by decide) fun f _ => wire.complete f
  rw [hencode, decode, Record.readStruct, Record.readEntries_eq.mpr hholds]
  rfl

end ArtifactBinding

namespace DriverCursor

def Supported (cursor : DriverCursor) : Prop :=
  minProtocolVersion ≤ cursor.protocolVersion ∧ cursor.protocolVersion ≤ currentProtocolVersion

def slots (cursor : DriverCursor) : Slots Value
  | .protocolVersion => some cursor.protocolVersion
  | .backend => some cursor.backend
  | .status => some cursor.status
  | .phase => some cursor.phase
  | .stateRevision => some cursor.stateRevision
  | .lastCommandSeq => some cursor.lastCommandSeq
  | .lastEventSeq => some cursor.lastEventSeq
  | .inFlightCommandId => cursor.inFlightCommandId.map some
  | .currentSubTaskIndex => some cursor.currentSubTaskIndex
  | .subTaskCount => some cursor.subTaskCount
  | .currentRoundsUsed => some cursor.currentRoundsUsed
  | .maxReviewRounds => some cursor.maxReviewRounds
  | .designReviewRounds => some cursor.designReviewRounds
  | .mrRoundsUsed => some cursor.mrRoundsUsed
  | .tlGeneration => some cursor.tlGeneration
  | .pauseRequested => some cursor.pauseRequested
  | .awaitingUser => some cursor.awaitingUser
  | .artifacts => some cursor.artifacts

def encodeField : (f : DriverCursorField) → Value f → Json
  | .protocolVersion, value | .currentSubTaskIndex, value | .subTaskCount, value
  | .currentRoundsUsed, value | .maxReviewRounds, value | .designReviewRounds, value
  | .mrRoundsUsed, value | .tlGeneration, value => ofU32 value
  | .backend, backend => .string (Literals.text backend)
  | .status, status => .string (Literals.text status)
  | .phase, phase => .string (Literals.text phase)
  | .stateRevision, value | .lastCommandSeq, value | .lastEventSeq, value => ofU64 value
  | .inFlightCommandId, commandId => ofOption Token.encode commandId
  | .pauseRequested, flag | .awaitingUser, flag => .bool flag
  | .artifacts, artifacts => artifacts.encode ArtifactRef.encode

theorem encode_eq (cursor : DriverCursor) :
    cursor.encode = .object (wire.written encodeField wire.fields cursor.slots) := by
  obtain ⟨_, _, _, _, _, _, _, commandId, _, _, _, _, _, _, _, _, _, _⟩ := cursor
  cases commandId <;> rfl

theorem read_version {version : UInt32} (hmin : minProtocolVersion ≤ version)
    (hmax : version ≤ currentProtocolVersion) :
    deserializeSupportedProtocolVersion (ofU32 version) = .ok version := by
  unfold deserializeSupportedProtocolVersion
  rw [readU32_ofU32]
  simp [bind, Except.bind, hmin, hmax, pure, Except.pure]

theorem decode_encode {cursor : DriverCursor} (h : cursor.Supported) :
    decode cursor.encode = .ok cursor := by
  have hread : ∀ f value, cursor.slots f = some value →
      wire.read f (encodeField f value) = .ok value := by
    intro f value hslot
    cases f with
    | protocolVersion =>
      rw [← Option.some.inj hslot]
      exact read_version h.1 h.2
    | backend | status | phase => exact readEnum_text value
    | stateRevision | lastCommandSeq | lastEventSeq =>
      dsimp only [wire, encodeField]
      exact readU64_ofU64 value
    | inFlightCommandId =>
      exact readOption_ofOption Token.read_encode (by simp [Token.encode]) value
    | currentSubTaskIndex | subTaskCount | currentRoundsUsed | maxReviewRounds
    | designReviewRounds | mrRoundsUsed | tlGeneration =>
      dsimp only [wire, encodeField]
      exact readU32_ofU32 value
    | pauseRequested | awaitingUser => exact readBool_bool value
    | artifacts => exact BoundedVec.read_encode ArtifactRef.decode_encode value
  have hholds := Record.holds_written hread (by decide) fun f _ => wire.complete f
  rw [encode_eq, decode, Record.readStruct, Record.readEntries_eq.mpr hholds]
  obtain ⟨_, _, _, _, _, _, _, commandId, _, _, _, _, _, _, _, _, _, _⟩ := cursor
  cases commandId <;> rfl

end DriverCursor

namespace DriverCommand

def kindOf : DriverCommand → DriverCommandKind
  | .requireWorkspace => .requireWorkspace
  | .startThread _ => .startThread
  | .resumeOrStartThread _ _ => .resumeOrStartThread
  | .runTemplate _ _ _ _ => .runTemplate
  | .checkpointCommit => .checkpointCommit
  | .collectDiff _ => .collectDiff
  | .mergeBase _ => .mergeBase
  | .commit _ _ => .commit
  | .pauseAtBoundary => .pauseAtBoundary
  | .settleRun _ => .settleRun

def slots (command : DriverCommand) : Slots Value
  | .kind => some command.kindOf
  | .role =>
    match command with
    | .startThread role | .resumeOrStartThread role _ | .runTemplate _ role _ _ => some role
    | _ => none
  | .candidates =>
    match command with
    | .resumeOrStartThread _ candidates => some candidates
    | _ => none
  | .thread =>
    match command with
    | .runTemplate thread _ _ _ => some thread
    | _ => none
  | .templateId =>
    match command with
    | .runTemplate _ _ templateId _ => some templateId
    | _ => none
  | .bindings =>
    match command with
    | .runTemplate _ _ _ bindings | .commit _ bindings => some bindings
    | _ => none
  | .scope =>
    match command with
    | .collectDiff scope => some scope
    | _ => none
  | .target =>
    match command with
    | .mergeBase target => some target
    | _ => none
  | .messageTemplateId =>
    match command with
    | .commit messageTemplateId _ => some messageTemplateId
    | _ => none
  | .status =>
    match command with
    | .settleRun status => some status
    | _ => none

def encodeField : (f : DriverCommandField) → Value f → Json
  | .kind, kind => .string (Literals.text kind)
  | .role, role => .string (Literals.text role)
  | .candidates, candidates => candidates.encode Token.encode
  | .thread, thread => thread.encode
  | .templateId, templateId | .messageTemplateId, templateId => templateId.encode
  | .bindings, bindings => bindings.encode ArtifactBinding.encode
  | .scope, scope => .string (Literals.text scope)
  | .target, target => .string (Literals.text target)
  | .status, status => .string (Literals.text status)

def writeOrder : List DriverCommandField :=
  [.kind, .thread, .role, .candidates, .templateId, .messageTemplateId, .bindings, .scope,
    .target, .status]

theorem encode_eq (command : DriverCommand) :
    command.encode = .object (wire.written encodeField writeOrder command.slots) := by
  cases command <;> rfl

theorem finish_slots (command : DriverCommand) : finish command.slots = .ok command := by
  cases command <;> rfl

theorem read_field (f : DriverCommandField) (value : Value f) :
    wire.read f (encodeField f value) = .ok value := by
  cases f with
  | kind => exact readText_text value
  | role => exact readRole_text value
  | candidates => exact BoundedVec.read_encode Token.read_encode value
  | thread | templateId | messageTemplateId => exact Token.read_encode value
  | bindings => exact BoundedVec.read_encode ArtifactBinding.decode_encode value
  | scope | target | status => exact readEnum_text value

theorem decode_encode (command : DriverCommand) : decode command.encode = .ok command := by
  have hholds : wire.Holds (wire.written encodeField writeOrder command.slots) command.slots := by
    apply Record.holds_written
    · exact fun f value _ => read_field f value
    · decide
    · intro f _
      cases f <;> decide
  have hfinish := finish_slots command
  have hread := Record.readEntries_guarded
    (fun s' => guard_passes command.slots s' ⟨command, hfinish⟩) (Record.readEntries_eq.mpr hholds)
  rw [encode_eq, decode, hread]
  exact hfinish

end DriverCommand

namespace DriverEvent

def kindOf : DriverEvent → DriverEventKind
  | .commandAccepted => .commandAccepted
  | .commandRejected _ => .commandRejected
  | .workspaceReady => .workspaceReady
  | .threadReady _ _ => .threadReady
  | .turnFinished _ _ => .turnFinished
  | .diffCollected _ _ => .diffCollected
  | .mergeBaseResolved _ _ => .mergeBaseResolved
  | .commitRecorded _ _ => .commitRecorded
  | .cursorAdvanced _ => .cursorAdvanced
  | .runSettled _ => .runSettled

/-- The fields an event says; an artifact that is missing is said as null. -/
def slots (event : DriverEvent) : Slots Value
  | .kind => some event.kindOf
  | .reason =>
    match event with
    | .commandRejected reason => some reason
    | _ => none
  | .thread =>
    match event with
    | .threadReady thread _ => some thread
    | _ => none
  | .role =>
    match event with
    | .threadReady _ role => some role
    | _ => none
  | .outcome =>
    match event with
    | .turnFinished outcome _ => some outcome
    | _ => none
  | .artifact =>
    match event with
    | .turnFinished _ artifact | .mergeBaseResolved _ artifact | .commitRecorded _ artifact =>
      some artifact
    | .diffCollected _ artifact => some (some artifact)
    | _ => none
  | .changed =>
    match event with
    | .diffCollected changed _ | .commitRecorded changed _ => some changed
    | _ => none
  | .available =>
    match event with
    | .mergeBaseResolved available _ => some available
    | _ => none
  | .cursor =>
    match event with
    | .cursorAdvanced cursor => some cursor
    | _ => none
  | .status =>
    match event with
    | .runSettled status => some status
    | _ => none

def encodeField : (f : DriverEventField) → Value f → Json
  | .kind, kind => .string (Literals.text kind)
  | .reason, reason => .string (Literals.text reason)
  | .thread, thread => thread.encode
  | .role, role => .string (Literals.text role)
  | .outcome, outcome => .string (Literals.text outcome)
  | .artifact, artifact => ofOption ArtifactRef.encode artifact
  | .changed, flag | .available, flag => .bool flag
  | .cursor, cursor => cursor.encode
  | .status, status => .string (Literals.text status)

def writeOrder : List DriverEventField :=
  [.kind, .reason, .thread, .role, .outcome, .changed, .available, .artifact, .cursor, .status]

theorem encode_eq (event : DriverEvent) :
    event.encode = .object (wire.written encodeField writeOrder event.slots) := by
  cases event <;> rfl

theorem finish_slots (event : DriverEvent) : finish event.slots = .ok event := by
  cases event <;> rfl

def Supported (event : DriverEvent) : Prop :=
  ∀ cursor, event = .cursorAdvanced cursor → cursor.Supported

theorem read_field {event : DriverEvent} (h : event.Supported) (f : DriverEventField)
    (value : Value f) (hslot : event.slots f = some value) :
    wire.read f (encodeField f value) = .ok value := by
  cases f with
  | kind => exact readText_text value
  | reason | outcome | status => exact readEnum_text value
  | thread => exact Token.read_encode value
  | role => exact readRole_text value
  | artifact =>
    exact readOption_ofOption ArtifactRef.decode_encode ArtifactRef.encode_ne_null value
  | changed | available => exact readBool_bool value
  | cursor =>
    have hcursor : event = .cursorAdvanced value := by
      cases event <;> first | exact congrArg _ (Option.some.inj hslot) | exact absurd hslot nofun
    exact DriverCursor.decode_encode (h value hcursor)

theorem decode_encode {event : DriverEvent} (h : event.Supported) :
    decode event.encode = .ok event := by
  have hholds : wire.Holds (wire.written encodeField writeOrder event.slots) event.slots := by
    apply Record.holds_written
    · exact read_field h
    · decide
    · intro f _
      cases f <;> decide
  have hfinish := finish_slots event
  have hread := Record.readEntries_guarded
    (fun s' => guard_passes event.slots s' ⟨event, hfinish⟩) (Record.readEntries_eq.mpr hholds)
  rw [encode_eq, decode, hread]
  exact hfinish

end DriverEvent

end AgentRelay.Orchestration
