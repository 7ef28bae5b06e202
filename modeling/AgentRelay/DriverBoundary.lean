import AgentRelay.DriverCodec

/-! No free text crosses the boundary between a driver and the executor: every string of a
message that is taken, the names of its fields included, is a token. -/
namespace AgentRelay.Orchestration
open Wire

inductive TokensOnly : Json → Prop
  | null : TokensOnly .null
  | bool (value : Bool) : TokensOnly (.bool value)
  | integer (value : ℤ) : TokensOnly (.integer value)
  | string {text : String} (h : IsToken maxOpaqueIdLen text) : TokensOnly (.string text)
  | array {items : List Json} (h : ∀ item ∈ items, TokensOnly item) : TokensOnly (.array items)
  | object {entries : List (String × Json)}
      (hkeys : ∀ entry ∈ entries, IsToken maxOpaqueIdLen entry.1)
      (hvalues : ∀ entry ∈ entries, TokensOnly entry.2) : TokensOnly (.object entries)

def TokenWords (words : List String) : Prop :=
  ∀ word ∈ words, validateToken "" word maxOpaqueIdLen = .ok word

instance (words : List String) : Decidable (TokenWords words) :=
  inferInstanceAs (Decidable (∀ word ∈ words, _))

theorem TokenWords.isToken {words : List String} (h : TokenWords words) {word : String}
    (hmem : word ∈ words) : IsToken maxOpaqueIdLen word := validateToken_iff.mp (h word hmem)

section Values

variable {json : Json} {literals : List String}

theorem IsTokenText.tokensOnly (h : IsTokenText maxOpaqueIdLen json) : TokensOnly json := by
  obtain ⟨raw, rfl, htoken⟩ := h
  exact .string htoken

theorem IsText.tokensOnly (hwords : TokenWords literals) (h : IsText literals json) :
    TokensOnly json := by
  obtain ⟨text, hmem, rfl⟩ := h
  exact .string (hwords.isToken hmem)

theorem tokensOnly_literal (hwords : TokenWords literals) (h : IsLiteral literals json) :
    TokensOnly json := by
  obtain ⟨literal, hmem, rfl | rfl⟩ := h
  · exact .string (hwords.isToken hmem)
  · apply TokensOnly.object
    · intro entry hentry
      rw [List.mem_singleton.mp hentry]
      exact hwords.isToken hmem
    · intro entry hentry
      rw [List.mem_singleton.mp hentry]
      exact .null

theorem tokensOnly_bool (h : IsBool json) : TokensOnly json := by
  obtain ⟨value, rfl⟩ := h
  exact .bool value

theorem tokensOnly_unsigned {bound : ℕ} (h : IsUnsigned bound json) : TokensOnly json := by
  obtain ⟨value, rfl, -⟩ := h
  exact .integer value

theorem IsSupportedVersion.tokensOnly (h : IsSupportedVersion json) : TokensOnly json := by
  obtain ⟨value, rfl, -⟩ := h
  exact .integer value

theorem tokensOnly_option {Typed : Json → Prop} (htyped : ∀ json, Typed json → TokensOnly json)
    (h : json = .null ∨ Typed json) : TokensOnly json := by
  rcases h with rfl | h
  · exact .null
  · exact htyped json h

theorem IsBounded.tokensOnly {max : ℕ} {Typed : Json → Prop}
    (htyped : ∀ json, Typed json → TokensOnly json) (h : IsBounded max Typed json) :
    TokensOnly json := by
  obtain ⟨items, rfl, -, hitems⟩ := h
  exact .array fun item hitem => htyped item (hitems item hitem)

end Values

section Records

variable {F : Type} {T : F → Type} {r : Record Refusal F T} {Typed : F → Json → Prop}

theorem tokensOnly_fits (hnames : TokenWords (r.fields.map r.name))
    (htyped : ∀ f json, Typed f json → TokensOnly json) {entries : List (String × Json)}
    (h : r.Fits Typed entries) : TokensOnly (.object entries) := by
  apply TokensOnly.object
  · intro entry hentry
    obtain ⟨f, hname, -⟩ := h.typed entry hentry
    exact hname ▸ hnames.isToken (List.mem_map_of_mem (r.complete f))
  · intro entry hentry
    obtain ⟨f, -, hvalue⟩ := h.typed entry hentry
    exact htyped f entry.2 hvalue

theorem tokensOnly_shape {hasDefault : F → Bool} (hnames : TokenWords (r.fields.map r.name))
    (htyped : ∀ f json, Typed f json → TokensOnly json) {json : Json}
    (h : r.Shape hasDefault Typed json) : TokensOnly json := by
  cases json with
  | object entries => exact tokensOnly_fits hnames htyped h.1
  | array items =>
    obtain ⟨hlen, -, hzip⟩ := h
    apply TokensOnly.array
    intro item hitem
    obtain ⟨i, hi, rfl⟩ := List.getElem_of_mem hitem
    have hpair : (r.fields[i], items[i]) ∈ r.fields.zip items := by
      rw [List.mem_iff_getElem]
      exact ⟨i, by rw [List.length_zip]; omega, by rw [List.getElem_zip]⟩
    exact htyped _ _ (hzip _ hpair)
  | _ => exact absurd h (by simp [Record.Shape])

end Records

theorem ArtifactRef.tokensOnly {json : Json} (h : IsArtifact json) : TokensOnly json := by
  apply tokensOnly_shape (by decide +kernel) _ h
  intro f json hvalue
  cases f with
  | artifactId => exact hvalue.tokensOnly
  | kind => exact tokensOnly_literal (by decide +kernel) hvalue
  | revision => exact tokensOnly_unsigned hvalue
  | sizeBytes => exact tokensOnly_option (fun _ => tokensOnly_unsigned) hvalue

theorem ArtifactBinding.tokensOnly {json : Json} (h : IsBinding json) : TokensOnly json := by
  apply tokensOnly_shape (by decide +kernel) _ h
  intro f json hvalue
  cases f with
  | slot => exact tokensOnly_literal (by decide +kernel) hvalue
  | artifact => exact ArtifactRef.tokensOnly hvalue

theorem DriverCursor.tokensOnly {json : Json} (h : IsCursor json) : TokensOnly json := by
  apply tokensOnly_shape (by decide +kernel) _ h
  intro f json hvalue
  cases f with
  | protocolVersion => exact hvalue.tokensOnly
  | backend | status | phase => exact tokensOnly_literal (by decide +kernel) hvalue
  | stateRevision | lastCommandSeq | lastEventSeq => exact tokensOnly_unsigned hvalue
  | inFlightCommandId => exact tokensOnly_option (fun _ => IsTokenText.tokensOnly) hvalue
  | currentSubTaskIndex | subTaskCount | currentRoundsUsed | maxReviewRounds
  | designReviewRounds | mrRoundsUsed | tlGeneration => exact tokensOnly_unsigned hvalue
  | pauseRequested | awaitingUser => exact tokensOnly_bool hvalue
  | artifacts => exact IsBounded.tokensOnly (fun _ => ArtifactRef.tokensOnly) hvalue

theorem DriverCommand.tokensOnly {entries : List (String × Json)} (h : IsCommand entries) :
    TokensOnly (.object entries) := by
  obtain ⟨kind, -, hfits, -⟩ := h
  apply tokensOnly_fits (by decide +kernel) _ hfits
  intro f json hvalue
  cases f with
  | kind | role => exact hvalue.tokensOnly (by decide +kernel)
  | candidates => exact hvalue.tokensOnly fun _ => IsTokenText.tokensOnly
  | thread | templateId | messageTemplateId => exact hvalue.tokensOnly
  | bindings => exact hvalue.tokensOnly fun _ => ArtifactBinding.tokensOnly
  | scope | target | status => exact tokensOnly_literal (by decide +kernel) hvalue

theorem DriverEvent.tokensOnly {entries : List (String × Json)} (h : IsEvent entries) :
    TokensOnly (.object entries) := by
  obtain ⟨kind, -, hfits, -⟩ := h
  apply tokensOnly_fits (by decide +kernel) _ hfits
  intro f json hvalue
  cases f with
  | kind | role => exact IsText.tokensOnly (by decide +kernel) hvalue
  | reason | outcome | status => exact tokensOnly_literal (by decide +kernel) hvalue
  | thread => exact hvalue.tokensOnly
  | artifact => exact tokensOnly_option (fun _ => ArtifactRef.tokensOnly) hvalue
  | changed | available => exact tokensOnly_bool hvalue
  | cursor => exact DriverCursor.tokensOnly hvalue

/-- Decoding gives back what was encoded, takes exactly the documents of the declared shapes, and
lets no free text pass. -/
theorem driver_messages_are_closed :
    (∀ command : DriverCommand, DriverCommand.decode command.encode = .ok command) ∧
    (∀ event : DriverEvent, event.Supported → DriverEvent.decode event.encode = .ok event) ∧
    ∀ entries : List (String × Json),
      (Accepts (DriverCommand.decode (.object entries)) ↔ DriverCommand.IsCommand entries) ∧
      (Accepts (DriverEvent.decode (.object entries)) ↔ DriverEvent.IsEvent entries) ∧
      (Accepts (DriverCommand.decode (.object entries)) ∨
        Accepts (DriverEvent.decode (.object entries)) → TokensOnly (.object entries)) := by
  refine ⟨DriverCommand.decode_encode, fun event => DriverEvent.decode_encode, fun entries => ?_⟩
  have hcommand : Accepts (DriverCommand.decode (.object entries)) ↔
      DriverCommand.IsCommand entries := DriverCommand.accepts_decode
  have hevent : Accepts (DriverEvent.decode (.object entries)) ↔
      DriverEvent.IsEvent entries := DriverEvent.accepts_decode
  refine ⟨hcommand, hevent, ?_⟩
  rintro (h | h)
  · exact DriverCommand.tokensOnly (hcommand.mp h)
  · exact DriverEvent.tokensOnly (hevent.mp h)

/-- A turn may end without its artifact being said, and a name of token characters with two dots
in a row is refused. -/
theorem artifact_left_out_and_path_refused :
    ("artifact" ∈ DriverEvent.declared .turnFinished ∧
      DriverEvent.decode (.object [("kind", .string "turn_finished"),
        ("outcome", .string "replied")]) = .ok (.turnFinished .replied none)) ∧
    ((∀ character ∈ "a..b".toList, isTokenChar character = true) ∧
      DriverCommand.decode (.object [("kind", .string "commit"),
        ("message_template_id", .string "a..b"), ("bindings", .array [])]) =
          .error (.custom (.value (.invalidTokenShape "template_id")))) := by
  have hcharacters : ∀ character ∈ "a..b".toList, isTokenChar character = true := by
    have hlist : "a..b".toList = ['a', '.', '.', 'b'] := by simp
    rw [hlist]
    simp only [List.forall_mem_cons, List.not_mem_nil, false_implies, implies_true, and_true]
    decide
  exact ⟨⟨by decide, rfl⟩, hcharacters, by decide +kernel⟩

/-- A cursor of the version that this build speaks. -/
theorem driver_messages_are_closed_cursor :
    let cursor : DriverCursor := {
      protocolVersion := 1, backend := .cloud, status := .running, phase := .design
      stateRevision := 4, lastCommandSeq := 2, lastEventSeq := 2, inFlightCommandId := none
      currentSubTaskIndex := 0, subTaskCount := 1, currentRoundsUsed := 0, maxReviewRounds := 3
      designReviewRounds := 1, mrRoundsUsed := 0, tlGeneration := 0, pauseRequested := false
      awaitingUser := false, artifacts := BoundedVec.empty }
    DriverEvent.decode (DriverEvent.cursorAdvanced cursor).encode = .ok (.cursorAdvanced cursor) := by
  refine driver_messages_are_closed.2.1 _ ?_
  rintro cursor ⟨⟩
  exact ⟨by decide, by decide⟩

end AgentRelay.Orchestration
