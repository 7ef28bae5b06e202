import AgentRelay.StepRun
import AgentRelay.UsageTracker

/-! Claude billing. The counters of the models telescope over any run of payloads; the cost does
exactly as long as it never rises without one of them. -/
namespace AgentRelay.Usage
open Wire StepRun

structure TokenUsage.Within (usage other : TokenUsage) : Prop where
  input : usage.input ≤ other.input
  cachedInput : usage.cachedInput ≤ other.cachedInput
  cacheWrite : usage.cacheWrite ≤ other.cacheWrite
  output : usage.output ≤ other.output

def reportedModels (payload : Json) : Option (Table Json) :=
  (payload.get "model_usage").bind Json.asObject

def reportedUsage (payload : Json) (model : String) : Option TokenUsage :=
  (reportedModels payload).bind fun models => models[model]?.map claudeModelUsage

def reportedCost (payload : Json) : Option ℚ := (payload.get "total_cost_usd").bind Json.asF64

def lastUsage (payloads : List Json) (model : String) : TokenUsage :=
  (payloads.reverse.findSome? (reportedUsage · model)).getD 0

def lastCost (payloads : List Json) : ℚ := (payloads.reverse.findSome? reportedCost).getD 0

/-- The last cost reported beside the usage of models. -/
def countedCost (payloads : List Json) : ℚ :=
  lastCost (payloads.filter fun payload => (reportedModels payload).isSome)

structure NeverLess (before : List Json) (payload : Json) : Prop where
  usage : ∀ model usage, reportedUsage payload model = some usage →
    (lastUsage before model).Within usage
  cost : ∀ cost, reportedCost payload = some cost → lastCost before ≤ cost

def RaisesUsage (before : List Json) (payload : Json) : Prop :=
  ∃ model usage, reportedUsage payload model = some usage ∧ usage ≠ lastUsage before model

def CostWithTokens (before : List Json) (payload : Json) : Prop :=
  (reportedModels payload).isSome → ∀ cost, reportedCost payload = some cost →
    cost ≠ countedCost before → RaisesUsage before payload

def extend (before : List Json) (payload : Json) : List Json := before ++ [payload]

/-- The tracker after a sequence of payloads, and the observations made on the way. -/
def ClaudeUsageTracker.observeAll (tracker : ClaudeUsageTracker) (threadId : String) :
    List Json → ClaudeUsageTracker × List ClaudeUsageObservation
  | [] => (tracker, [])
  | payload :: rest =>
    let (next, observation) := tracker.observe threadId payload
    let (final, observations) := observeAll next threadId rest
    (final, observation.toList ++ observations)

def billedUsage (model : String) (observations : List ClaudeUsageObservation) : TokenUsage :=
  ((observations.flatMap (·.perModel)).filter (·.1 = model) |>.map Prod.snd).sum

def billedCost (observations : List ClaudeUsageObservation) : ℚ :=
  (observations.map fun observation => observation.costUsd.getD 0).sum

section counters
variable {usage previous cumulative : TokenUsage}

/-- The total is that of the billable buckets, and nothing is set apart as reasoning. -/
def TokenUsage.Whole (usage : TokenUsage) : Prop :=
  usage.total = usage.sumOfParts ∧ usage.reasoningOutput = 0

theorem whole_zero : (0 : TokenUsage).Whole := ⟨by decide, rfl⟩

theorem whole_claudeModelUsage (value : Json) : (claudeModelUsage value).Whole := ⟨rfl, rfl⟩

theorem TokenUsage.Whole.ext {other : TokenUsage} (h : usage.Whole) (h' : other.Whole)
    (hinput : usage.input = other.input) (hcached : usage.cachedInput = other.cachedInput)
    (hwrite : usage.cacheWrite = other.cacheWrite) (houtput : usage.output = other.output) :
    usage = other := by
  refine TokenUsage.ext hinput hcached hwrite houtput (h.2.trans h'.2.symm) ?_
  rw [h.1, h'.1, TokenUsage.sumOfParts, TokenUsage.sumOfParts, hinput, hcached, hwrite, houtput]

theorem TokenUsage.Within.total_le (h : previous.Within cumulative) (hp : previous.Whole)
    (hc : cumulative.Whole) : previous.total ≤ cumulative.total := by
  obtain ⟨hinput, hcached, hwrite, houtput⟩ := h
  rw [hp.1, hc.1]
  simp only [TokenUsage.sumOfParts, satAdd]
  omega

/-- What `observeModel` bills of a counter. -/
def claudeDelta (previous cumulative : TokenUsage) : TokenUsage :=
  if cumulative.total < previous.total then cumulative
  else cumulative.saturatingSubComponentwise previous

theorem claudeDelta_add (h : previous.Within cumulative) (hp : previous.Whole)
    (hc : cumulative.Whole) : claudeDelta previous cumulative + previous = cumulative := by
  have htotal := h.total_le hp hc
  obtain ⟨hinput, hcached, hwrite, houtput⟩ := h
  have hreasoning : previous.reasoningOutput ≤ cumulative.reasoningOutput := by rw [hp.2, hc.2]
  rw [claudeDelta, if_neg (by omega)]
  ext <;> exact Nat.sub_add_cancel (by assumption)

theorem claudeDelta_isEmpty (h : previous.Within cumulative) (hp : previous.Whole)
    (hc : cumulative.Whole) :
    (claudeDelta previous cumulative).isEmpty ↔ cumulative = previous := by
  have htotal := h.total_le hp hc
  rw [claudeDelta, if_neg (by omega), TokenUsage.isEmpty_iff]
  simp only [TokenUsage.sumOfParts, satAdd, TokenUsage.saturatingSubComponentwise]
  constructor
  · rintro ⟨-, hparts⟩
    obtain ⟨hinput, hcached, hwrite, houtput⟩ := h
    apply hc.ext hp <;> omega
  · rintro rfl
    simp

end counters

section reports
variable {before : List Json} {payload : Json} {model : String}

theorem lastUsage_extend : lastUsage (extend before payload) model =
    (reportedUsage payload model).getD (lastUsage before model) := by
  cases h : reportedUsage payload model <;> simp [lastUsage, extend, h]

theorem lastCost_extend :
    lastCost (extend before payload) = (reportedCost payload).getD (lastCost before) := by
  cases h : reportedCost payload <;> simp [lastCost, extend, h]

theorem countedCost_extend : countedCost (extend before payload) =
    if (reportedModels payload).isSome then (reportedCost payload).getD (countedCost before)
    else countedCost before := by
  unfold countedCost
  rw [extend, List.filter_append]
  split_ifs with h
  · rw [List.filter_singleton, h, cond_true]
    exact lastCost_extend
  · simp [h]

theorem whole_lastUsage (before : List Json) (model : String) : (lastUsage before model).Whole := by
  unfold lastUsage
  cases h : before.reverse.findSome? (reportedUsage · model) with
  | none => exact whole_zero
  | some usage =>
    obtain ⟨payload, -, hreported⟩ := List.exists_of_findSome?_eq_some h
    obtain ⟨models, -, hmodel⟩ := Option.bind_eq_some_iff.mp hreported
    obtain ⟨value, -, rfl⟩ := Option.map_eq_some_iff.mp hmodel
    exact whole_claudeModelUsage value

theorem countedCost_le_lastCost (hcost : countedCost before ≤ lastCost before)
    (h : NeverLess before payload) :
    countedCost (extend before payload) ≤ lastCost (extend before payload) := by
  rw [countedCost_extend, lastCost_extend]
  cases hreported : reportedCost payload with
  | none => simpa using hcost
  | some cost =>
    have hle := h.cost cost hreported
    split_ifs
    · simp
    · exact hcost.trans hle

end reports

section models

def collected (model : String) (perModel : List (String × TokenUsage)) : TokenUsage :=
  ((perModel.filter (·.1 = model)).map Prod.snd).sum

theorem collected_append (model : String) (xs ys : List (String × TokenUsage)) :
    collected model (xs ++ ys) = collected model xs + collected model ys := by
  simp [collected]

variable {entries : List (String × Json)} {progress : Table TokenUsage × List (String × TokenUsage)}

def counted (counters : Table TokenUsage) (model : String) : TokenUsage := counters[model]?.getD 0

theorem observeModel_spec {model : String} {value : Json}
    (hwhole : (counted progress.1 model).Whole)
    (hwithin : (counted progress.1 model).Within (claudeModelUsage value)) :
    let next := observeModel progress (model, value)
    (∀ other, counted next.1 other =
      if other = model then claudeModelUsage value else counted progress.1 other) ∧
      (∀ other, collected other next.2 + counted progress.1 other =
        collected other progress.2 + counted next.1 other) ∧
      (next.2 = [] ↔ progress.2 = [] ∧ claudeModelUsage value = counted progress.1 model) := by
  let delta := claudeDelta (counted progress.1 model) (claudeModelUsage value)
  have hadd := claudeDelta_add hwithin hwhole (whole_claudeModelUsage value)
  have hempty := claudeDelta_isEmpty hwithin hwhole (whole_claudeModelUsage value)
  have hcounted : ∀ other, counted (progress.1.insert model (claudeModelUsage value)) other =
      if other = model then claudeModelUsage value else counted progress.1 other := by
    intro other
    rw [counted, Table.getElem?_insert_of]
    split_ifs <;> rfl
  have hcollected : ∀ other, collected other
      (if delta.isEmpty then progress.2 else progress.2 ++ [(model, delta)]) =
        collected other progress.2 + if other = model then delta else 0 := by
    intro other
    by_cases hnone : delta.isEmpty
    · -- Nothing is collected, and nothing would have come of it.
      have hzero : delta = 0 := add_eq_right.mp (hadd.trans (hempty.mp hnone))
      rw [if_pos hnone, hzero, ite_self, AddMonoid.add_zero]
    · rw [if_neg hnone, collected_append]
      by_cases heq : other = model
      · simp [collected, heq]
      · simp [collected, heq, Ne.symm heq]
  refine ⟨hcounted, fun other => ?_, ?_⟩
  · change collected other (if delta.isEmpty then progress.2 else progress.2 ++ [(model, delta)]) +
      _ = _ + counted (progress.1.insert model (claudeModelUsage value)) other
    rw [hcollected, hcounted]
    split_ifs with heq
    · rw [heq, AddSemigroup.add_assoc, hadd]
    · rw [AddMonoid.add_zero]
  · change (if delta.isEmpty then progress.2 else progress.2 ++ [(model, delta)]) = [] ↔ _
    rw [← hempty]
    split_ifs with hnone
    · simp [delta, hnone]
    · simp [delta, hnone]

/-- One payload's pass over its models: the counters move to what is reported, the bills make up
the difference, and there are none where nothing has moved. -/
theorem foldl_observeModel (hdistinct : (entries.map Prod.fst).Nodup)
    (hwhole : ∀ model, (counted progress.1 model).Whole)
    (hwithin : ∀ entry ∈ entries,
      (counted progress.1 entry.1).Within (claudeModelUsage entry.2)) :
    let next := entries.foldl observeModel progress
    (∀ model, counted next.1 model =
      ((entries.lookup model).map claudeModelUsage).getD (counted progress.1 model)) ∧
      (∀ model, collected model next.2 + counted progress.1 model =
        collected model progress.2 + counted next.1 model) ∧
      (next.2 = [] ↔ progress.2 = [] ∧
        ∀ entry ∈ entries, claudeModelUsage entry.2 = counted progress.1 entry.1) := by
  induction entries generalizing progress with
  | nil => simp
  | cons entry entries ih =>
    obtain ⟨model, value⟩ := entry
    rw [List.map_cons, List.nodup_cons] at hdistinct
    obtain ⟨hnew, hdistinct⟩ := hdistinct
    obtain ⟨hmoved, hbilled, hnone⟩ :=
      observeModel_spec (hwhole model) (hwithin (model, value) List.mem_cons_self)
    have hother : ∀ entry ∈ entries, counted (observeModel progress (model, value)).1 entry.1 =
        counted progress.1 entry.1 := by
      intro entry hentry
      rw [hmoved, if_neg]
      rintro rfl
      exact hnew (List.mem_map.mpr ⟨entry, hentry, rfl⟩)
    obtain ⟨hmoved', hbilled', hnone'⟩ := @ih (observeModel progress (model, value))
      hdistinct
      (fun other => by
        rw [hmoved]
        split_ifs
        · exact whole_claudeModelUsage value
        · exact hwhole other)
      (fun entry hentry => by
        rw [hother entry hentry]
        exact hwithin entry (List.mem_cons_of_mem _ hentry))
    refine ⟨fun other => ?_, fun other => ?_, ?_⟩
    · refine (hmoved' other).trans ?_
      rw [hmoved, List.lookup_cons]
      by_cases heq : other = model
      · subst heq
        have hlookup : entries.lookup other = none := by
          rw [List.lookup_eq_none_iff]
          intro entry hentry
          simpa using fun h : other = entry.1 => hnew (List.mem_map.mpr ⟨entry, hentry, h.symm⟩)
        simp [hlookup]
      · have hne : (other == model) = false := by simp [heq]
        rw [hne, if_neg heq]
    · have hstep := hbilled other
      have hrest := hbilled' other
      rw [List.foldl_cons]
      generalize counted (observeModel progress (model, value)).1 other = between at hstep hrest
      refine add_right_cancel (b := between + collected other
        (observeModel progress (model, value)).2) ?_
      calc _ = (collected other ((entries.foldl observeModel
              (observeModel progress (model, value))).2) + between) +
              (collected other (observeModel progress (model, value)).2 +
                counted progress.1 other) := by ac_rfl
        _ = _ := by
          rw [hrest, hstep]
          ac_rfl
    · rw [List.foldl_cons, hnone', hnone, List.forall_mem_cons, and_assoc]
      refine and_congr_right fun _ => and_congr_right fun _ => ?_
      exact forall₂_congr fun entry hentry => by rw [hother entry hentry]

end models

section observing
variable {threadId : String} {tracker : ClaudeUsageTracker} {before : List Json} {payload : Json}

def ClaudeUsageTracker.totals (tracker : ClaudeUsageTracker) (threadId : String) :
    ClaudeSeenTotals := tracker.seen[threadId]?.getD {}

structure Follows (threadId : String) (before : List Json) (tracker : ClaudeUsageTracker) :
    Prop where
  usage : ∀ model, counted (tracker.totals threadId).perModel model = lastUsage before model
  cost : (tracker.totals threadId).costUsd = countedCost before

theorem lookup_toList (models : Table Json) (model : String) :
    models.toList.lookup model = models[model]? := by
  cases hlookup : models.toList.lookup model with
  | none =>
    rw [List.lookup_eq_none_iff] at hlookup
    cases hmodel : models[model]? with
    | none => rfl
    | some value =>
      have hmem := Std.ExtTreeMap.mem_toList_iff_getElem?_eq_some.mpr hmodel
      simpa using hlookup _ hmem
  | some value =>
    obtain ⟨front, back, hsplit, -⟩ := List.lookup_eq_some_iff.mp hlookup
    symm
    rw [← Std.ExtTreeMap.mem_toList_iff_getElem?_eq_some, hsplit]
    simp

theorem nodup_keys_toList (models : Table Json) : (models.toList.map Prod.fst).Nodup := by
  rw [List.Nodup, List.pairwise_map]
  refine Std.ExtTreeMap.distinct_keys_toList.imp fun h heq => h ?_
  rw [heq]
  exact Std.ReflCmp.compare_self

theorem reportedUsage_of_models {models : Table Json}
    (hmodels : reportedModels payload = some models) (model : String) :
    reportedUsage payload model = (models.toList.lookup model).map claudeModelUsage := by
  rw [reportedUsage, hmodels, lookup_toList]
  rfl

def ClaudeUsageTracker.passOver (tracker : ClaudeUsageTracker) (threadId : String)
    (models : Table Json) : Table TokenUsage × List (String × TokenUsage) :=
  models.toList.foldl observeModel ((tracker.totals threadId).perModel, [])

def ClaudeUsageTracker.costSince (tracker : ClaudeUsageTracker) (threadId : String)
    (payload : Json) : Option ℚ :=
  (reportedCost payload).map fun cumulative =>
    if cumulative < (tracker.totals threadId).costUsd then cumulative
    else cumulative - (tracker.totals threadId).costUsd

theorem observe_of_no_models (hmodels : reportedModels payload = none) :
    tracker.observe threadId payload = (tracker, none) := by
  unfold reportedModels at hmodels
  rw [ClaudeUsageTracker.observe, hmodels]

theorem observe_of_models {models : Table Json} (hmodels : reportedModels payload = some models) :
    tracker.observe threadId payload =
      (⟨tracker.seen.insert threadId
        { perModel := (tracker.passOver threadId models).1
          costUsd := (reportedCost payload).getD (tracker.totals threadId).costUsd }⟩,
        if (tracker.passOver threadId models).2.isEmpty then none
        else some { perModel := (tracker.passOver threadId models).2
                    costUsd := tracker.costSince threadId payload }) := by
  unfold reportedModels at hmodels
  rw [ClaudeUsageTracker.observe, hmodels]
  rfl

/-- The pass of a tracker that follows: every counter moves to its last report, the bills make up
the difference, and there are none if no counter moves. -/
theorem passOver_spec {models : Table Json} (hmodels : reportedModels payload = some models)
    (hf : Follows threadId before tracker) (hn : NeverLess before payload) :
    let next := tracker.passOver threadId models
    (∀ model, counted next.1 model = lastUsage (extend before payload) model) ∧
      (∀ model, collected model next.2 + lastUsage before model =
        lastUsage (extend before payload) model) ∧
      (next.2 = [] ↔ ¬RaisesUsage before payload) := by
  have hentry : ∀ entry ∈ models.toList,
      reportedUsage payload entry.1 = some (claudeModelUsage entry.2) := by
    intro entry hmem
    rw [reportedUsage, hmodels, Option.bind_some,
      Std.ExtTreeMap.mem_toList_iff_getElem?_eq_some.mp hmem, Option.map_some]
  obtain ⟨hmoved, hbilled, hnone⟩ := @foldl_observeModel _
    ((tracker.totals threadId).perModel, []) (nodup_keys_toList models)
    (fun model => by
      rw [hf.usage]
      exact whole_lastUsage before model)
    (fun entry hmem => by
      rw [hf.usage]
      exact hn.usage _ _ (hentry entry hmem))
  have hfollows : ∀ model, counted (tracker.passOver threadId models).1 model =
      lastUsage (extend before payload) model := by
    intro model
    rw [lastUsage_extend, reportedUsage_of_models hmodels, ← hf.usage]
    exact hmoved model
  refine ⟨hfollows, fun model => ?_, ?_⟩
  · rw [← hfollows, ← hf.usage]
    exact (hbilled model).trans (AddMonoid.zero_add _)
  · refine hnone.trans ⟨fun h => ?_, fun h => ⟨rfl, fun entry hmem => ?_⟩⟩
    · rintro ⟨model, usage, hreported, hmore⟩
      rw [reportedUsage_of_models hmodels] at hreported
      obtain ⟨value, hvalue, rfl⟩ := Option.map_eq_some_iff.mp hreported
      rw [lookup_toList, ← Std.ExtTreeMap.mem_toList_iff_getElem?_eq_some] at hvalue
      exact hmore (by rw [h.2 _ hvalue, hf.usage])
    · by_contra hmore
      rw [hf.usage] at hmore
      exact h ⟨entry.1, _, hentry entry hmem, hmore⟩

/-- What one payload does: the tracker follows, the bills of each model make up for what the
counter moved, and where no counter moved there is no bill at all. -/
theorem observe_spec (hf : Follows threadId before tracker) (hn : NeverLess before payload)
    (hcost : countedCost before ≤ lastCost before) :
    let next := tracker.observe threadId payload
    Follows threadId (extend before payload) next.1 ∧
      (∀ model, billedUsage model next.2.toList + lastUsage before model =
        lastUsage (extend before payload) model) ∧
      (RaisesUsage before payload → billedCost next.2.toList =
        countedCost (extend before payload) - countedCost before) ∧
      (¬RaisesUsage before payload → next.2 = none) := by
  cases hmodels : reportedModels payload with
  | none =>
    have hreported : ∀ model, reportedUsage payload model = none := by
      intro model
      rw [reportedUsage, hmodels]
      rfl
    simp only [observe_of_no_models hmodels]
    refine ⟨⟨fun model => ?_, ?_⟩, fun model => ?_, ?_, fun _ => trivial⟩
    · rw [hf.usage, lastUsage_extend, hreported]
      rfl
    · rw [hf.cost, countedCost_extend, hmodels]
      rfl
    · rw [lastUsage_extend, hreported]
      simp [billedUsage]
    · rintro ⟨model, usage, hsome, -⟩
      simp [hreported] at hsome
  | some models =>
    obtain ⟨hfollows, hbilled, hnone⟩ := passOver_spec hmodels hf hn
    rw [observe_of_models hmodels]
    generalize tracker.passOver threadId models = next at hfollows hbilled hnone
    refine ⟨⟨fun model => ?_, ?_⟩, fun model => ?_, fun hmore => ?_, fun hless => ?_⟩
    · rw [ClaudeUsageTracker.totals, Std.ExtTreeMap.getElem?_insert_self, Option.getD_some]
      exact hfollows model
    · rw [ClaudeUsageTracker.totals, Std.ExtTreeMap.getElem?_insert_self, Option.getD_some]
      rw [countedCost_extend, hmodels, Option.isSome_some, if_pos rfl, hf.cost]
    · rw [← hbilled]
      congr 1
      split_ifs with hempty
      · simp [billedUsage, collected, List.isEmpty_iff.mp hempty]
      · simp [billedUsage, collected]
    · have hsome : next.2.isEmpty = false := by simpa using fun h => hnone.mp h hmore
      rw [hsome, countedCost_extend, hmodels, Option.isSome_some, if_pos rfl]
      simp only [billedCost, ClaudeUsageTracker.costSince, hf.cost]
      cases hreported : reportedCost payload with
      | none => simp
      | some cost =>
        have hle := hcost.trans (hn.cost cost hreported)
        simp [not_lt.mpr hle]
    · simp [hnone.mpr hless]

end observing

theorem run_extend (before payloads : List Json) :
    run extend before payloads = before ++ payloads := by
  induction payloads generalizing before with
  | nil => simp
  | cons payload payloads ih => rw [run_cons, ih, extend, List.append_assoc, List.singleton_append]

section telescoping
variable {threadId : String} {tracker : ClaudeUsageTracker} {before payloads : List Json}

/-- A rise of the cost that no counter goes with is passed over: it moves the counted cost, and
nothing bills it. -/
theorem billedCost_step {payload : Json} (hf : Follows threadId before tracker)
    (hn : NeverLess before payload) (hcost : countedCost before ≤ lastCost before) :
    ∃ missed : ℚ, 0 ≤ missed ∧
      billedCost (tracker.observe threadId payload).2.toList + missed =
        countedCost (extend before payload) - countedCost before ∧
      (missed = 0 ↔ CostWithTokens before payload) := by
  obtain ⟨-, -, hraised, hkept⟩ := observe_spec hf hn hcost
  by_cases hraises : RaisesUsage before payload
  · refine ⟨0, le_rfl, ?_, iff_of_true rfl fun _ _ _ _ => hraises⟩
    rw [hraised hraises, AddMonoid.add_zero]
  · refine ⟨countedCost (extend before payload) - countedCost before, ?_, ?_, ?_⟩
    · rw [countedCost_extend]
      cases hreported : reportedCost payload with
      | none => simp
      | some cost =>
        have hle := hcost.trans (hn.cost cost hreported)
        split_ifs <;> simp [hle]
    · rw [hkept hraises]
      simp [billedCost]
    · rw [countedCost_extend, sub_eq_zero]
      simp only [CostWithTokens, hraises, imp_false]
      cases hreported : reportedCost payload with
      | none => simp
      | some cost => split_ifs with hmodels <;> simp [hmodels]

/-- From one state on: the bills of the models make up the difference of their counters, and those
of the cost do but for what was passed over. -/
theorem observeAll_spec (hf : Follows threadId before tracker)
    (hn : Along extend NeverLess before payloads)
    (hcost : countedCost before ≤ lastCost before) :
    let final := tracker.observeAll threadId payloads
    Follows threadId (before ++ payloads) final.1 ∧
      countedCost (before ++ payloads) ≤ lastCost (before ++ payloads) ∧
      (∀ model, billedUsage model final.2 + lastUsage before model =
        lastUsage (before ++ payloads) model) ∧
      ∃ missed : ℚ, 0 ≤ missed ∧
        billedCost final.2 + missed = countedCost (before ++ payloads) - countedCost before ∧
        (missed = 0 ↔ Along extend CostWithTokens before payloads) := by
  induction payloads generalizing before tracker with
  | nil =>
    simp only [List.append_nil]
    refine ⟨hf, hcost, fun model => ?_, 0, le_rfl, ?_, iff_of_true rfl trivial⟩
    · exact AddMonoid.zero_add _
    · simp [ClaudeUsageTracker.observeAll, billedCost]
  | cons payload payloads ih =>
    obtain ⟨hf', hbilled, -, -⟩ := observe_spec hf hn.1 hcost
    obtain ⟨missed, hmissed, hsum, hnone⟩ := billedCost_step hf hn.1 hcost
    obtain ⟨hfinal, hfinalCost, hrest, missed', hmissed', hsum', hnone'⟩ :=
      ih hf' hn.2 (countedCost_le_lastCost hcost hn.1)
    have hsplit : before ++ payload :: payloads = extend before payload ++ payloads := by
      simp [extend]
    rw [hsplit]
    refine ⟨hfinal, hfinalCost, fun model => ?_, missed + missed', add_nonneg hmissed hmissed',
      ?_, ?_⟩
    · rw [← hrest, ← hbilled]
      simp only [ClaudeUsageTracker.observeAll, billedUsage, List.flatMap_append,
        List.filter_append, List.map_append, List.sum_append]
      ac_rfl
    · have happend : billedCost (tracker.observeAll threadId (payload :: payloads)).2 =
          billedCost (tracker.observe threadId payload).2.toList + billedCost
            ((tracker.observe threadId payload).1.observeAll threadId payloads).2 := by
        simp [ClaudeUsageTracker.observeAll, billedCost]
      rw [happend]
      linarith
    · rw [add_eq_zero_iff_of_nonneg hmissed hmissed', hnone, hnone']
      rfl

end telescoping

/-- Claude billing telescopes over a thread's payloads, however they come: each model's bills come
to its last counter, and a repeated payload bills nothing. The bills of the cost come to the last
cost exactly when the cost never rises without the counter of a model beside it. -/
theorem claudeBilling_telescopes_iff (threadId : String) (tracker : ClaudeUsageTracker)
    (hfresh : tracker.seen[threadId]? = none) (payloads : List Json)
    (hn : Along extend NeverLess [] payloads) :
    ((∀ model, billedUsage model (tracker.observeAll threadId payloads).2 =
          lastUsage payloads model) ∧
        billedCost (tracker.observeAll threadId payloads).2 = lastCost payloads ∧
        ∀ before payload after, payloads = before ++ payload :: payload :: after →
          ((tracker.observeAll threadId (before ++ [payload])).1.observe threadId
            payload).2 = none) ↔
      Along extend CostWithTokens [] payloads ∧ lastCost payloads = countedCost payloads := by
  have htotals : tracker.totals threadId = {} := by
    rw [ClaudeUsageTracker.totals, hfresh]
    rfl
  have hf : Follows threadId [] tracker := by
    refine ⟨fun model => ?_, ?_⟩
    · rw [htotals]
      rfl
    · rw [htotals]
      rfl
  obtain ⟨-, hle, hbilled, missed, hmissed, hsum, hnone⟩ := observeAll_spec hf hn le_rfl
  have hzero : countedCost [] = 0 := rfl
  rw [List.nil_append, hzero, sub_zero] at hsum
  rw [List.nil_append] at hle
  constructor
  · rintro ⟨-, hcost, -⟩
    have hnothing : missed = 0 := by linarith
    exact ⟨hnone.mp hnothing, by linarith⟩
  · rintro ⟨hwith, hcounted⟩
    refine ⟨fun model => ?_, ?_, ?_⟩
    · exact (AddMonoid.add_zero _).symm.trans (hbilled model)
    · rw [hnone.mpr hwith] at hsum
      linarith
    · rintro before payload after rfl
      rw [List.append_cons, along_append] at hn
      obtain ⟨hfirst, hrest⟩ := hn
      rw [run_extend, List.nil_append] at hrest
      obtain ⟨hf', hcost', -, -⟩ := observeAll_spec hf hfirst le_rfl
      refine (observe_spec hf' hrest.1 hcost').2.2.2 ?_
      -- The counters are the ones the payload itself has just reported.
      rintro ⟨model, usage, hreported, hmore⟩
      apply hmore
      rw [List.nil_append]
      exact (lastUsage_extend.trans (by rw [hreported, Option.getD_some])).symm

/-- A `done` payload of one model. -/
def donePayload (tokens cost : ℤ) : Json :=
  .object [("model_usage", .object [("claude-opus", .object [("inputTokens", .integer tokens),
    ("cacheReadInputTokens", .integer 0), ("cacheCreationInputTokens", .integer 0),
    ("outputTokens", .integer 0)])]), ("total_cost_usd", .integer cost)]

theorem reportedUsage_donePayload (tokens cost cost' : ℤ) (model : String) :
    reportedUsage (donePayload tokens cost) model =
      reportedUsage (donePayload tokens cost') model := rfl

theorem reportedCost_donePayload (tokens cost : ℤ) :
    reportedCost (donePayload tokens cost) = some (cost : ℚ) := rfl

theorem neverLess_donePayload {tokens cost cost' : ℤ} (hcost : 0 ≤ cost) (hcost' : cost ≤ cost') :
    Along extend NeverLess [] [donePayload tokens cost, donePayload tokens cost'] := by
  refine ⟨⟨fun model usage _ => ?_, fun paid hpaid => ?_⟩,
    ⟨fun model usage husage => ?_, fun paid hpaid => ?_⟩, trivial⟩
  · exact ⟨Nat.zero_le _, Nat.zero_le _, Nat.zero_le _, Nat.zero_le _⟩
  · rw [reportedCost_donePayload, Option.some.injEq] at hpaid
    rw [← hpaid]
    change (0 : ℚ) ≤ cost
    exact_mod_cast hcost
  · rw [lastUsage_extend, reportedUsage_donePayload tokens cost cost', husage]
    exact ⟨le_rfl, le_rfl, le_rfl, le_rfl⟩
  · rw [reportedCost_donePayload, Option.some.injEq] at hpaid
    rw [lastCost_extend, reportedCost_donePayload, Option.getD_some, ← hpaid]
    exact_mod_cast hcost'

theorem claudeBilling_telescopes_repeatedPayload :
    billedCost (ClaudeUsageTracker.observeAll {} "thread-a"
      [donePayload 1000 1, donePayload 1000 1]).2 =
        lastCost [donePayload 1000 1, donePayload 1000 1] := by
  refine ((claudeBilling_telescopes_iff "thread-a" {} (by decide +kernel) _
    (neverLess_donePayload (by decide) le_rfl)).mpr ⟨⟨fun _ _ _ _ => ?_, ?_, trivial⟩, ?_⟩).2.1
  · exact ⟨"claude-opus", { input := 1000, total := 1000 }, by decide +kernel, by decide +kernel⟩
  · intro _ paid hpaid hmore
    exact absurd (Option.some.inj hpaid).symm (by
      rw [show countedCost (extend [] (donePayload 1000 1)) = 1 from by decide +kernel] at hmore
      simpa using hmore)
  · decide +kernel

/-- A cost that rises with no tokens beside it is billed to nobody. -/
theorem risenCost_unbilled :
    Along extend NeverLess [] [donePayload 1000 1, donePayload 1000 2] ∧
      billedCost (ClaudeUsageTracker.observeAll {} "thread-a"
        [donePayload 1000 1, donePayload 1000 2]).2 = 1 ∧
      lastCost [donePayload 1000 1, donePayload 1000 2] = 2 :=
  ⟨neverLess_donePayload (by decide) (by decide), by decide +kernel, by decide +kernel⟩

end AgentRelay.Usage
