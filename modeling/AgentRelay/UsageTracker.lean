import AgentRelay.Text
import AgentRelay.Wire

/-! The token ledger's trackers. Providers report cumulative counters; a tracker keeps the last one
of each thread and hands out what was spent since. -/
namespace AgentRelay.Wire.Json

/-- `Value::as_object`: a key that is repeated holds its last value. -/
def asObject : Json → Option (Table Json)
  | .object entries => some (Std.ExtTreeMap.ofList entries)
  | _ => none

/-- `Value::get` with a string key. -/
def get (value : Json) (key : String) : Option Json := value.asObject.bind (·[key]?)

/-- `Value::as_str`. -/
def asStr : Json → Option String
  | .string text => some text
  | _ => none

/-- `Value::as_u64`. -/
def asU64 : Json → Option Nat
  | .integer value => if 0 ≤ value ∧ value < 2 ^ 64 then some value.toNat else none
  | _ => none

/-- `Value::as_f64`, as the exact number. -/
def asF64 : Json → Option ℚ
  | .integer value => some value
  | .real mantissa exponent => some (mantissa * 10 ^ exponent)
  | _ => none

end AgentRelay.Wire.Json

namespace AgentRelay.Usage
open Wire

/-- `u64::saturating_add`. -/
def satAdd (a b : Nat) : Nat := min (a + b) (2 ^ 64 - 1)

/-- The tokens of one request, or of several; only what was not cached counts as input. -/
@[ext] structure TokenUsage where
  input : Nat := 0
  cachedInput : Nat := 0
  cacheWrite : Nat := 0
  output : Nat := 0
  /-- Already counted in `output`. -/
  reasoningOutput : Nat := 0
  total : Nat := 0
  deriving DecidableEq, Repr

namespace TokenUsage

def sumOfParts (usage : TokenUsage) : Nat :=
  satAdd (satAdd (satAdd usage.input usage.cachedInput) usage.cacheWrite) usage.output

def isEmpty (usage : TokenUsage) : Bool := usage.total = 0 && usage.sumOfParts = 0

theorem isEmpty_iff {usage : TokenUsage} :
    usage.isEmpty ↔ usage.total = 0 ∧ usage.sumOfParts = 0 := by
  simp [isEmpty]

/-- Each component of `usage` less that of `other`, and zero where it would be less. -/
def saturatingSubComponentwise (usage other : TokenUsage) : TokenUsage where
  input := usage.input - other.input
  cachedInput := usage.cachedInput - other.cachedInput
  cacheWrite := usage.cacheWrite - other.cacheWrite
  output := usage.output - other.output
  reasoningOutput := usage.reasoningOutput - other.reasoningOutput
  total := usage.total - other.total

/-- What two usages come to in the ledger. -/
instance : Add TokenUsage where
  add usage other :=
    { input := usage.input + other.input
      cachedInput := usage.cachedInput + other.cachedInput
      cacheWrite := usage.cacheWrite + other.cacheWrite
      output := usage.output + other.output
      reasoningOutput := usage.reasoningOutput + other.reasoningOutput
      total := usage.total + other.total }

instance : Zero TokenUsage where
  zero := {}

section components
variable (usage other : TokenUsage)

@[simp] theorem input_add : (usage + other).input = usage.input + other.input := rfl
@[simp] theorem cachedInput_add :
    (usage + other).cachedInput = usage.cachedInput + other.cachedInput := rfl
@[simp] theorem cacheWrite_add :
    (usage + other).cacheWrite = usage.cacheWrite + other.cacheWrite := rfl
@[simp] theorem output_add : (usage + other).output = usage.output + other.output := rfl
@[simp] theorem reasoningOutput_add :
    (usage + other).reasoningOutput = usage.reasoningOutput + other.reasoningOutput := rfl
@[simp] theorem total_add : (usage + other).total = usage.total + other.total := rfl
@[simp] theorem input_zero : (0 : TokenUsage).input = 0 := rfl
@[simp] theorem cachedInput_zero : (0 : TokenUsage).cachedInput = 0 := rfl
@[simp] theorem cacheWrite_zero : (0 : TokenUsage).cacheWrite = 0 := rfl
@[simp] theorem output_zero : (0 : TokenUsage).output = 0 := rfl
@[simp] theorem reasoningOutput_zero : (0 : TokenUsage).reasoningOutput = 0 := rfl
@[simp] theorem total_zero : (0 : TokenUsage).total = 0 := rfl

end components

instance : AddCommMonoid TokenUsage where
  add_assoc a b c := by ext <;> simp [Nat.add_assoc]
  zero_add a := by ext <;> simp
  add_zero a := by ext <;> simp
  add_comm a b := by ext <;> simp [Nat.add_comm]
  nsmul := nsmulRec

instance : AddCancelCommMonoid TokenUsage where
  add_left_cancel a b c h := by
    obtain ⟨hinput, hcached, hwrite, houtput, hreasoning, htotal⟩ := TokenUsage.ext_iff.mp h
    simp only [input_add, cachedInput_add, cacheWrite_add, output_add, reasoningOutput_add,
      total_add, Nat.add_left_cancel_iff] at *
    exact TokenUsage.ext hinput hcached hwrite houtput hreasoning htotal

theorem add_sub_cancel_left (usage other : TokenUsage) :
    (usage + other).saturatingSubComponentwise usage = other := by
  ext <;> simp [saturatingSubComponentwise]

end TokenUsage

def u64At (value : Json) (key : String) : Nat := ((value.get key).bind Json.asU64).getD 0

/-- One `TokenUsageBreakdown` of Codex, where the cached tokens are part of the input. -/
def codexBreakdown (value : Json) : TokenUsage :=
  let cachedInput := u64At value "cachedInputTokens"
  let usage : TokenUsage :=
    { input := u64At value "inputTokens" - cachedInput
      cachedInput
      output := u64At value "outputTokens"
      reasoningOutput := u64At value "reasoningOutputTokens"
      total := u64At value "totalTokens" }
  if usage.total = 0 then { usage with total := usage.sumOfParts } else usage

structure CodexUsageObservation where
  threadId : String
  turnId : Option String
  /-- The tokens to bill, never the cumulative ones. -/
  usage : TokenUsage
  contextWindow : Option Nat
  threadTotal : Option Nat
  deriving DecidableEq, Repr

structure CodexUsageTracker where
  seenTotal : Table TokenUsage := ∅

/-- Consume one notification. -/
def CodexUsageTracker.observe (tracker : CodexUsageTracker) (params : Json) :
    CodexUsageTracker × Option CodexUsageObservation :=
  match (params.get "threadId").bind Json.asStr, params.get "tokenUsage" with
  | some threadId, some tokenUsage =>
    let last := (tokenUsage.get "last").map codexBreakdown
    let total := (tokenUsage.get "total").map codexBreakdown
    let observation (usage : TokenUsage) : CodexUsageObservation :=
      { threadId
        turnId := (params.get "turnId").bind Json.asStr
        usage
        contextWindow := (tokenUsage.get "modelContextWindow").bind Json.asU64
        threadTotal := total.map (·.total) }
    match total, tracker.seenTotal[threadId]? with
    -- A resumed thread: the total is older than this process.
    | some total, none =>
      (⟨tracker.seenTotal.insert threadId total⟩, some (observation (last.getD total)))
    | some total, some previous =>
      let usage :=
        if total.total < previous.total then last.getD total
        else
          let delta := total.saturatingSubComponentwise previous
          match last with
          | some last => if last.total = delta.total then last else delta
          | none => delta
      (⟨tracker.seenTotal.insert threadId total⟩, some (observation usage))
    | none, _ => (tracker, last.map observation)
  | _, _ => (tracker, none)

/-- One entry of the `modelUsage` map of Claude. -/
def claudeModelUsage (value : Json) : TokenUsage :=
  let usage : TokenUsage :=
    { input := u64At value "inputTokens"
      cachedInput := u64At value "cacheReadInputTokens"
      cacheWrite := u64At value "cacheCreationInputTokens"
      output := u64At value "outputTokens" }
  { usage with total := usage.sumOfParts }

structure ClaudeUsageObservation where
  perModel : List (String × TokenUsage)
  costUsd : Option ℚ
  deriving DecidableEq

structure ClaudeSeenTotals where
  perModel : Table TokenUsage := ∅
  costUsd : ℚ := 0

structure ClaudeUsageTracker where
  seen : Table ClaudeSeenTotals := ∅

/-- The counter of one model; the usages to bill are collected along the way. -/
def observeModel (progress : Table TokenUsage × List (String × TokenUsage))
    (entry : String × Json) : Table TokenUsage × List (String × TokenUsage) :=
  let cumulative := claudeModelUsage entry.2
  let previous := progress.1[entry.1]?.getD 0
  let delta :=
    if cumulative.total < previous.total then cumulative
    else cumulative.saturatingSubComponentwise previous
  (progress.1.insert entry.1 cumulative,
    if delta.isEmpty then progress.2 else progress.2 ++ [(entry.1, delta)])

/-- Consume one `done` payload; nothing comes of one that says no model spent anything new. -/
def ClaudeUsageTracker.observe (tracker : ClaudeUsageTracker) (threadId : String)
    (payload : Json) : ClaudeUsageTracker × Option ClaudeUsageObservation :=
  match (payload.get "model_usage").bind Json.asObject with
  | none => (tracker, none)
  | some models =>
    let seen := tracker.seen[threadId]?.getD {}
    let (counters, perModel) := models.toList.foldl observeModel (seen.perModel, [])
    let cumulativeCost := (payload.get "total_cost_usd").bind Json.asF64
    let costUsd := cumulativeCost.map fun cumulative =>
      if cumulative < seen.costUsd then cumulative else cumulative - seen.costUsd
    let totals : ClaudeSeenTotals :=
      { perModel := counters, costUsd := cumulativeCost.getD seen.costUsd }
    (⟨tracker.seen.insert threadId totals⟩,
      if perModel.isEmpty then none else some { perModel, costUsd })

end AgentRelay.Usage
