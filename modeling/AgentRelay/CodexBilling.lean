import AgentRelay.UsageTracker

/-! Codex billing telescopes: over lost and repeated notifications and resets of the counter, what
is billed is what the requests spent. -/
namespace AgentRelay.Usage
open Wire

/-- The tokens of a request, or of all requests so far, as Codex counts them. -/
@[ext] structure Breakdown where
  input : Nat := 0
  cached : Nat := 0
  output : Nat := 0
  reasoning : Nat := 0
  cached_le : cached ≤ input := by decide
  reasoning_le : reasoning ≤ output := by decide

namespace Breakdown

def total (b : Breakdown) : Nat := b.input + b.output

def usage (b : Breakdown) : TokenUsage where
  input := b.input - b.cached
  cachedInput := b.cached
  output := b.output
  reasoningOutput := b.reasoning
  total := b.total

instance : Add Breakdown where
  add a b :=
    { input := a.input + b.input
      cached := a.cached + b.cached
      output := a.output + b.output
      reasoning := a.reasoning + b.reasoning
      cached_le := Nat.add_le_add a.cached_le b.cached_le
      reasoning_le := Nat.add_le_add a.reasoning_le b.reasoning_le }

instance : Zero Breakdown where
  zero := {}

theorem total_add (a b : Breakdown) : (a + b).total = a.total + b.total := by
  change a.input + b.input + (a.output + b.output) = a.input + a.output + (b.input + b.output)
  omega

theorem usage_add (a b : Breakdown) : (a + b).usage = a.usage + b.usage := by
  have ha := a.cached_le
  have hb := b.cached_le
  ext
  · change a.input + b.input - (a.cached + b.cached) = a.input - a.cached + (b.input - b.cached)
    omega
  · rfl
  · rfl
  · rfl
  · rfl
  · exact total_add a b

theorem total_usage (b : Breakdown) : b.usage.total = b.total := rfl

theorem usage_zero : (0 : Breakdown).usage = 0 := rfl

theorem zero_add (b : Breakdown) : 0 + b = b := by
  ext <;> exact Nat.zero_add _

theorem add_assoc (a b c : Breakdown) : a + b + c = a + (b + c) := by
  ext <;> exact Nat.add_assoc _ _ _

theorem usage_eq_zero {b : Breakdown} (h : b.total = 0) : b.usage = 0 := by
  have hcached := b.cached_le
  have hreasoning := b.reasoning_le
  unfold total at h
  ext <;> simp only [usage, total, TokenUsage.input_zero, TokenUsage.cachedInput_zero,
    TokenUsage.cacheWrite_zero, TokenUsage.output_zero, TokenUsage.reasoningOutput_zero,
    TokenUsage.total_zero] <;> omega

theorem sumOfParts_usage {b : Breakdown} (h : b.total < 2 ^ 64) : b.usage.sumOfParts = b.total := by
  have hcached := b.cached_le
  unfold total at *
  simp only [TokenUsage.sumOfParts, satAdd, usage]
  omega

end Breakdown

structure Says (value : Json) (b : Breakdown) : Prop where
  input : u64At value "inputTokens" = b.input
  cached : u64At value "cachedInputTokens" = b.cached
  output : u64At value "outputTokens" = b.output
  reasoning : u64At value "reasoningOutputTokens" = b.reasoning
  total : u64At value "totalTokens" = b.total

theorem u64At_lt (value : Json) (key : String) : u64At value key < 2 ^ 64 := by
  unfold u64At
  cases value.get key with
  | none => simp
  | some field =>
    cases field with
    | integer n =>
      simp only [Option.bind_some, Json.asU64]
      split_ifs with hrange
      · simp only [Option.getD_some]
        omega
      · simp
    | _ => simp [Json.asU64]

theorem Says.total_lt {value : Json} {b : Breakdown} (h : Says value b) : b.total < 2 ^ 64 :=
  h.total ▸ u64At_lt value _

theorem Says.codexBreakdown {value : Json} {b : Breakdown} (h : Says value b) :
    codexBreakdown value = b.usage := by
  have hparts := Breakdown.sumOfParts_usage h.total_lt
  simp only [Usage.codexBreakdown, h.input, h.cached, h.output, h.reasoning, h.total]
  split_ifs with hzero
  · exact congrArg (fun total => { b.usage with total := total }) hparts
  · rfl

/-- A notification for the thread, with the request that ran and the counter after it. -/
def Notifies (threadId : String) (params : Json) (counters : Breakdown × Breakdown) : Prop :=
  (params.get "threadId").bind Json.asStr = some threadId ∧
    ∃ tokenUsage, params.get "tokenUsage" = some tokenUsage ∧
      (∃ last, tokenUsage.get "last" = some last ∧ Says last counters.1) ∧
      ∃ total, tokenUsage.get "total" = some total ∧ Says total counters.2

/-- One request: what it spent, how often its notification arrives, and the value the counter was
put to just before, if it was. -/
structure CodexRequest where
  spent : Breakdown
  copies : Nat
  reset : Option Breakdown := none

namespace CodexRequest

def counter (r : CodexRequest) (before : Breakdown) : Breakdown := r.reset.getD before + r.spent

/-- The notifications that arrive: the request and the counter after it, once per copy. -/
def delivered : Breakdown → List CodexRequest → List (Breakdown × Breakdown)
  | _, [] => []
  | before, r :: rest =>
    List.replicate r.copies (r.spent, r.counter before) ++ delivered (r.counter before) rest

def spentThrough : List CodexRequest → TokenUsage
  | [] => 0
  | r :: rest =>
    if (r :: rest).any (0 < ·.copies) then r.spent.usage + spentThrough rest else 0

theorem spentThrough_of_any (rs : List CodexRequest) :
    (if rs.any (0 < ·.copies) then spentThrough rs else 0) = spentThrough rs := by
  cases rs with
  | nil => rfl
  | cons r rest =>
    rw [spentThrough]
    split_ifs <;> rfl

/-- Each reset stands between two notifications that arrive, and the counter of the second is below
that of the first; `arrived` says whether the request before the list was notified. -/
def ResetsShow : Breakdown → Bool → List CodexRequest → Prop
  | _, _, [] => True
  | before, arrived, r :: rest =>
    (r.reset.isSome → arrived ∧ 0 < r.copies ∧ (r.counter before).total < before.total) ∧
      ResetsShow (r.counter before) (0 < r.copies) rest

end CodexRequest

/-- The observations made of a feed of notifications. -/
def CodexUsageTracker.observeAll (tracker : CodexUsageTracker) :
    List Json → List CodexUsageObservation
  | [] => []
  | params :: rest =>
    (tracker.observe params).2.toList ++ observeAll (tracker.observe params).1 rest

def billed (threadId : String) (observations : List CodexUsageObservation) : TokenUsage :=
  ((observations.filter (·.threadId = threadId)).map (·.usage)).sum

def names (threadId : String) (params : Json) : Bool :=
  (params.get "threadId").bind Json.asStr = some threadId

/-- The tokens billed for a notification, given the counter of the one before. -/
def codexDelta (baseline : Option TokenUsage) (last total : Breakdown) : TokenUsage :=
  match baseline with
  | none => last.usage
  | some previous =>
    if total.total < previous.total then last.usage
    else
      let delta := total.usage.saturatingSubComponentwise previous
      if last.total = delta.total then last.usage else delta

section delta
variable (seen unseen last total : Breakdown)

theorem codexDelta_since : codexDelta (some seen.usage) last (seen + unseen + last) =
    (unseen + last).usage := by
  have hsum : (seen + unseen + last).usage = seen.usage + (unseen + last).usage := by
    rw [Breakdown.add_assoc, Breakdown.usage_add]
  have hle : ¬(seen + unseen + last).total < seen.usage.total := by
    rw [← Breakdown.total_usage, hsum, TokenUsage.total_add]
    omega
  simp only [codexDelta, if_neg hle, hsum, TokenUsage.add_sub_cancel_left]
  split_ifs with hlast
  · -- The totals agree only where nothing that was missed counts for anything.
    have hnone : unseen.total = 0 := by
      rw [Breakdown.usage_add, TokenUsage.total_add, Breakdown.total_usage,
        Breakdown.total_usage] at hlast
      omega
    rw [Breakdown.usage_add, Breakdown.usage_eq_zero hnone, AddZeroClass.zero_add]
  · rfl

theorem codexDelta_again : codexDelta (some total.usage) last total = 0 := by
  have hdelta : total.usage.saturatingSubComponentwise total.usage = 0 := by
    simpa using TokenUsage.add_sub_cancel_left total.usage 0
  simp only [codexDelta, Breakdown.total_usage, lt_irrefl, if_false, hdelta, TokenUsage.total_zero]
  split_ifs with hlast
  · exact Breakdown.usage_eq_zero hlast
  · rfl

theorem codexDelta_reset (h : total.total < seen.total) :
    codexDelta (some seen.usage) last total = last.usage := if_pos h

end delta

section observing
variable {threadId : String} {tracker : CodexUsageTracker} {params : Json}

variable (tracker) in
theorem observe_notified {last total : Breakdown} (h : Notifies threadId params (last, total)) :
    ∃ o, tracker.observe params = (⟨tracker.seenTotal.insert threadId total.usage⟩, some o) ∧
      o.threadId = threadId ∧
      o.usage = codexDelta tracker.seenTotal[threadId]? last total := by
  obtain ⟨hthread, tokenUsage, husage, ⟨_, hlast, hsaysLast⟩, _, htotal, hsaysTotal⟩ := h
  simp only [CodexUsageTracker.observe, hthread, husage, hlast, htotal, Option.map_some,
    hsaysLast.codexBreakdown, hsaysTotal.codexBreakdown, Option.getD_some]
  cases tracker.seenTotal[threadId]? with
  | none => exact ⟨_, rfl, rfl, rfl⟩
  | some previous => exact ⟨_, rfl, rfl, rfl⟩

theorem observe_named {other : CodexUsageTracker} (hnames : names threadId params)
    (hseen : tracker.seenTotal[threadId]? = other.seenTotal[threadId]?) :
    (tracker.observe params).2 = (other.observe params).2 ∧
      (tracker.observe params).1.seenTotal[threadId]? =
        (other.observe params).1.seenTotal[threadId]? ∧
      ∀ o ∈ (tracker.observe params).2, o.threadId = threadId := by
  have hthread : (params.get "threadId").bind Json.asStr = some threadId := of_decide_eq_true hnames
  unfold CodexUsageTracker.observe
  rw [hthread]
  cases params.get "tokenUsage" with
  | none => exact ⟨rfl, hseen, by simp⟩
  | some tokenUsage =>
    simp only [hseen]
    cases (tokenUsage.get "total").map codexBreakdown with
    | none =>
      refine ⟨rfl, hseen, fun o ho => ?_⟩
      obtain ⟨usage, -, rfl⟩ := Option.map_eq_some_iff.mp ho
      rfl
    | some total =>
      cases other.seenTotal[threadId]? with
      | none => exact ⟨rfl, by simp, fun o ho => by cases ho; rfl⟩
      | some previous => exact ⟨rfl, by simp, fun o ho => by cases ho; rfl⟩

variable (tracker) in
theorem observe_other (hnames : names threadId params = false) :
    (tracker.observe params).1.seenTotal[threadId]? = tracker.seenTotal[threadId]? ∧
      ∀ o ∈ (tracker.observe params).2, o.threadId ≠ threadId := by
  have hthread : (params.get "threadId").bind Json.asStr ≠ some threadId :=
    of_decide_eq_false hnames
  unfold CodexUsageTracker.observe
  cases hother : (params.get "threadId").bind Json.asStr with
  | none => exact ⟨rfl, by simp⟩
  | some otherId =>
    have hne : threadId ≠ otherId := fun heq => hthread (heq ▸ hother)
    cases params.get "tokenUsage" with
    | none => exact ⟨rfl, by simp⟩
    | some tokenUsage =>
      simp only
      cases (tokenUsage.get "total").map codexBreakdown with
      | none =>
        refine ⟨rfl, fun o ho => ?_⟩
        obtain ⟨usage, -, rfl⟩ := Option.map_eq_some_iff.mp ho
        exact hne.symm
      | some total =>
        cases tracker.seenTotal[otherId]? with
        | none =>
          exact ⟨by simp [Table.getElem?_insert_of, hne], fun o ho => by cases ho; exact hne.symm⟩
        | some previous =>
          exact ⟨by simp [Table.getElem?_insert_of, hne], fun o ho => by cases ho; exact hne.symm⟩

theorem observeAll_filter {other : CodexUsageTracker} (feed : List Json)
    (hseen : tracker.seenTotal[threadId]? = other.seenTotal[threadId]?) :
    (tracker.observeAll feed).filter (·.threadId = threadId) =
      other.observeAll (feed.filter (names threadId)) := by
  induction feed generalizing tracker other with
  | nil => rfl
  | cons params feed ih =>
    rw [CodexUsageTracker.observeAll, List.filter_append]
    cases hnames : names threadId params with
    | true =>
      obtain ⟨hsame, hnext, hthread⟩ := observe_named hnames hseen
      rw [List.filter_cons_of_pos hnames, CodexUsageTracker.observeAll, ih hnext, hsame]
      congr 1
      rw [← hsame, List.filter_eq_self]
      intro o ho
      exact decide_eq_true (hthread o (Option.mem_toList.mp ho))
    | false =>
      obtain ⟨hnext, hthread⟩ := observe_other tracker hnames
      rw [List.filter_cons_of_neg (by simp [hnames]), ih (hnext.trans hseen)]
      have hnil : (tracker.observe params).2.toList.filter (·.threadId = threadId) = [] := by
        rw [List.filter_eq_nil_iff]
        intro o ho
        simpa using hthread o (Option.mem_toList.mp ho)
      rw [hnil, List.nil_append]

end observing

section telescoping
variable {threadId : String} {tracker : CodexUsageTracker} {feed : List Json}

/-- A bill is made of whole requests, in numbers that fit. -/
def OfRequests (usage : TokenUsage) : Prop := ∃ b : Breakdown, b.total < 2 ^ 64 ∧ usage = b.usage

theorem OfRequests.total_eq {usage : TokenUsage} (h : OfRequests usage) :
    usage.total = usage.sumOfParts := by
  obtain ⟨b, hfits, rfl⟩ := h
  exact (Breakdown.sumOfParts_usage hfits).symm

theorem observeAll_copies {last total : Breakdown} {copies : Nat} {counters}
    (hfeed : List.Forall₂ (Notifies threadId) feed
      (List.replicate copies (last, total) ++ counters))
    (hseen : tracker.seenTotal[threadId]? = some total.usage) :
    ∃ next : CodexUsageTracker, ∃ rest, next.seenTotal[threadId]? = some total.usage ∧
      List.Forall₂ (Notifies threadId) rest counters ∧
      ((tracker.observeAll feed).map (·.usage)).sum = ((next.observeAll rest).map (·.usage)).sum ∧
      ((∀ o ∈ next.observeAll rest, OfRequests o.usage) →
        ∀ o ∈ tracker.observeAll feed, OfRequests o.usage) := by
  induction copies generalizing tracker feed with
  | zero => exact ⟨tracker, feed, hseen, by simpa using hfeed, rfl, fun h => h⟩
  | succ copies ih =>
    rw [List.replicate_succ, List.cons_append] at hfeed
    obtain ⟨params, more, hparams, hmore, rfl⟩ := List.forall₂_cons_right_iff.mp hfeed
    obtain ⟨o, hobserve, -, husage⟩ := observe_notified tracker hparams
    rw [hseen, codexDelta_again] at husage
    obtain ⟨next, rest, hnext, hrest, hsum, hwhole⟩ :=
      @ih (tracker.observe params).1 more hmore (by simp [hobserve])
    refine ⟨next, rest, hnext, hrest, ?_, fun h => ?_⟩
    · rw [CodexUsageTracker.observeAll, ← hsum]
      simp [hobserve, husage]
    · rw [CodexUsageTracker.observeAll, hobserve]
      rw [hobserve] at hwhole
      simp only [Option.toList_some, List.singleton_append, List.forall_mem_cons]
      exact ⟨⟨0, by decide, husage⟩, hwhole h⟩

theorem observeAll_received {last total : Breakdown} {copies : Nat} {counters}
    (hcopies : 0 < copies)
    (hfeed : List.Forall₂ (Notifies threadId) feed
      (List.replicate copies (last, total) ++ counters)) :
    last.total < 2 ^ 64 ∧ total.total < 2 ^ 64 ∧
      ∃ next : CodexUsageTracker, ∃ rest, next.seenTotal[threadId]? = some total.usage ∧
        List.Forall₂ (Notifies threadId) rest counters ∧
        ((tracker.observeAll feed).map (·.usage)).sum =
          codexDelta tracker.seenTotal[threadId]? last total +
            ((next.observeAll rest).map (·.usage)).sum ∧
        (OfRequests (codexDelta tracker.seenTotal[threadId]? last total) →
          (∀ o ∈ next.observeAll rest, OfRequests o.usage) →
          ∀ o ∈ tracker.observeAll feed, OfRequests o.usage) := by
  obtain ⟨more, rfl⟩ : ∃ more, copies = more + 1 := ⟨copies - 1, by omega⟩
  rw [List.replicate_succ, List.cons_append] at hfeed
  obtain ⟨params, later, hparams, hlater, rfl⟩ := List.forall₂_cons_right_iff.mp hfeed
  obtain ⟨o, hobserve, -, husage⟩ := observe_notified tracker hparams
  obtain ⟨next, rest, hnext, hrest, hsum, hwhole⟩ :=
    @observeAll_copies threadId (tracker.observe params).1 _ _ _ _ _ hlater (by simp [hobserve])
  obtain ⟨-, _, -, ⟨_, -, hlast⟩, _, -, htotal⟩ := hparams
  refine ⟨hlast.total_lt, htotal.total_lt, next, rest, hnext, hrest, ?_, fun hbill hnexts => ?_⟩
  · rw [CodexUsageTracker.observeAll, ← hsum, ← husage]
    simp [hobserve]
  · rw [CodexUsageTracker.observeAll, hobserve]
    rw [hobserve] at hwhole
    simp only [Option.toList_some, List.singleton_append, List.forall_mem_cons]
    exact ⟨husage ▸ hbill, hwhole hnexts⟩

/-- From one notification on: what was missed before the next is billed with it. -/
theorem observeAll_delivered {rest : List CodexRequest} {seen unseen : Breakdown} {arrived : Bool}
    (hseen : tracker.seenTotal[threadId]? = some seen.usage) (harrived : arrived → unseen = 0)
    (hresets : CodexRequest.ResetsShow (seen + unseen) arrived rest)
    (hfeed : List.Forall₂ (Notifies threadId) feed
      (CodexRequest.delivered (seen + unseen) rest)) :
    ((tracker.observeAll feed).map (·.usage)).sum =
        (if rest.any (0 < ·.copies) then
          unseen.usage + CodexRequest.spentThrough rest else 0) ∧
      ∀ o ∈ tracker.observeAll feed, OfRequests o.usage := by
  induction rest generalizing tracker feed seen unseen arrived with
  | nil =>
    obtain rfl := List.forall₂_nil_right_iff.mp hfeed
    simp [CodexUsageTracker.observeAll]
  | cons r rest ih =>
    obtain ⟨hreset, hresets⟩ := hresets
    rw [CodexRequest.delivered] at hfeed
    cases hcopies : r.copies with
    | zero =>
      -- Lost: the counter goes on without the tracker, and no reset is next to it.
      have hnone : r.reset = none := by
        cases hsome : r.reset with
        | none => rfl
        | some value => simp [hsome, hcopies] at hreset
      have hcounter : r.counter (seen + unseen) = seen + (unseen + r.spent) := by
        rw [CodexRequest.counter, hnone, Option.getD_none, Breakdown.add_assoc]
      rw [hcopies, List.replicate_zero, List.nil_append, hcounter] at hfeed
      rw [hcopies, hcounter] at hresets
      obtain ⟨hsum, hwhole⟩ := ih hseen (by simp) hresets hfeed
      refine ⟨?_, hwhole⟩
      rw [hsum, Breakdown.usage_add]
      simp only [List.any_cons, hcopies, lt_irrefl, decide_false, Bool.false_or,
        CodexRequest.spentThrough]
      split_ifs
      · exact AddSemigroup.add_assoc _ _ _
      · rfl
    | succ copies =>
      have hpos : 0 < r.copies := by omega
      obtain ⟨-, hfits, next, left, hnext, hleft, hreceived, hreceivedWhole⟩ :=
        @observeAll_received threadId tracker feed _ _ _ _ hpos hfeed
      obtain ⟨hsum, hwhole⟩ := @ih _ _ _ 0 _ hnext (fun _ => rfl) hresets hleft
      -- The tokens billed: the request itself at a reset, and what was missed with it elsewhere.
      have hbilled : codexDelta tracker.seenTotal[threadId]? r.spent (r.counter (seen + unseen)) =
            (unseen + r.spent).usage ∧
          (unseen + r.spent).total ≤ (r.counter (seen + unseen)).total := by
        rw [hseen]
        cases hsome : r.reset with
        | none =>
          rw [CodexRequest.counter, hsome, Option.getD_none]
          refine ⟨codexDelta_since seen unseen r.spent, ?_⟩
          rw [Breakdown.add_assoc, Breakdown.total_add seen]
          omega
        | some value =>
          obtain ⟨hshown, -, hbelow⟩ := hreset (by simp [hsome])
          obtain rfl := harrived hshown
          rw [Breakdown.zero_add]
          refine ⟨codexDelta_reset seen r.spent _ hbelow, ?_⟩
          rw [CodexRequest.counter, hsome, Option.getD_some, Breakdown.total_add]
          omega
      have hany : (r :: rest).any (0 < ·.copies) := by simp [hpos]
      rw [if_pos hany, CodexRequest.spentThrough, if_pos hany]
      refine ⟨?_, hreceivedWhole ⟨_, lt_of_le_of_lt hbilled.2 hfits, hbilled.1⟩ hwhole⟩
      rw [hreceived, hbilled.1, hsum, Breakdown.usage_add, Breakdown.usage_zero,
        AddZeroClass.zero_add, CodexRequest.spentThrough_of_any]
      exact AddSemigroup.add_assoc _ _ _

end telescoping

/-- Codex billing telescopes. `first` is the first request of the thread whose notification
arrives, on top of any history `before`; the thread is billed what was spent from it to the last
one that arrives, in whole requests, and notifications of other threads are nothing to it. -/
theorem codexBilling_telescopes (threadId : String) (tracker : CodexUsageTracker)
    (hfresh : tracker.seenTotal[threadId]? = none) (before : Breakdown) (first : CodexRequest)
    (rest : List CodexRequest) (hfirst : 0 < first.copies)
    (hresets : CodexRequest.ResetsShow (first.counter before) true rest) (feed : List Json)
    (hfeed : List.Forall₂ (Notifies threadId) (feed.filter (names threadId))
      (CodexRequest.delivered before (first :: rest))) :
    billed threadId (tracker.observeAll feed) = CodexRequest.spentThrough (first :: rest) ∧
      (∀ o ∈ tracker.observeAll feed, o.threadId = threadId →
        o.usage.total = o.usage.sumOfParts) ∧
      (tracker.observeAll feed).filter (·.threadId = threadId) =
        tracker.observeAll (feed.filter (names threadId)) := by
  have hfilter := @observeAll_filter threadId tracker tracker feed rfl
  have hown : ((tracker.observeAll (feed.filter (names threadId))).map (·.usage)).sum =
        CodexRequest.spentThrough (first :: rest) ∧
      ∀ o ∈ tracker.observeAll (feed.filter (names threadId)), OfRequests o.usage := by
    rw [CodexRequest.delivered] at hfeed
    obtain ⟨hfits, -, next, left, hnext, hleft, hreceived, hreceivedWhole⟩ :=
      @observeAll_received threadId tracker _ _ _ _ _ hfirst hfeed
    obtain ⟨hsum, hwhole⟩ :=
      @observeAll_delivered _ _ _ _ _ 0 _ hnext (fun _ => rfl) hresets hleft
    have hbilled : codexDelta tracker.seenTotal[threadId]? first.spent (first.counter before) =
        first.spent.usage := by rw [hfresh]; rfl
    have hany : (first :: rest).any (0 < ·.copies) := by simp [hfirst]
    refine ⟨?_, hreceivedWhole ⟨first.spent, hfits, hbilled⟩ hwhole⟩
    rw [hreceived, hbilled, hsum, CodexRequest.spentThrough, if_pos hany, Breakdown.usage_zero,
      AddZeroClass.zero_add, CodexRequest.spentThrough_of_any]
  refine ⟨?_, fun o ho hthread => ?_, hfilter⟩
  · rw [billed, hfilter]
    exact hown.1
  · refine (hown.2 o ?_).total_eq
    rw [← hfilter]
    exact List.mem_filter.mpr ⟨ho, decide_eq_true hthread⟩

def prompts (tokens : Nat) : Breakdown where
  input := tokens
  cached_le := Nat.zero_le tokens

def breakdownJson (tokens : Nat) : Json :=
  .object [("inputTokens", .integer tokens), ("cachedInputTokens", .integer 0),
    ("outputTokens", .integer 0), ("reasoningOutputTokens", .integer 0),
    ("totalTokens", .integer tokens)]

def notification (last total : Nat) : Json :=
  .object [("threadId", .string "thread-a"), ("turnId", .string "turn-1"),
    ("tokenUsage", .object [("last", breakdownJson last), ("total", breakdownJson total)])]

theorem u64At_integer {value : Json} {key : String} {n : Nat}
    (hget : value.get key = some (.integer n)) (h : n < 2 ^ 64) : u64At value key = n := by
  rw [u64At, hget, Option.bind_some, Json.asU64, if_pos ⟨by omega, by omega⟩, Option.getD_some,
    Int.toNat_natCast]

theorem says_breakdownJson {tokens : Nat} (h : tokens < 2 ^ 64) :
    Says (breakdownJson tokens) (prompts tokens) :=
  have hzero : 0 < 2 ^ 64 := Nat.two_pow_pos 64
  ⟨u64At_integer (by rfl) h, u64At_integer (by rfl) hzero, u64At_integer (by rfl) hzero,
    u64At_integer (by rfl) hzero, u64At_integer (by rfl) h⟩

theorem notifies_notification {last total : Nat} (hlast : last < 2 ^ 64)
    (htotal : total < 2 ^ 64) :
    Notifies "thread-a" (notification last total) (prompts last, prompts total) := by
  refine ⟨by rfl, .object [("last", breakdownJson last), ("total", breakdownJson total)], ?_, ?_⟩
  · rfl
  · exact ⟨⟨_, by rfl, says_breakdownJson hlast⟩, _, by rfl, says_breakdownJson htotal⟩

theorem names_notification (last total : Nat) :
    names "thread-a" (notification last total) = true := decide_eq_true (by rfl)

/-- A lost notification, and one that comes twice: the bill is that of three requests. -/
theorem codexBilling_telescopes_lostNotification :
    billed "thread-a" (CodexUsageTracker.observeAll {}
      [notification 1000 1000, notification 500 2500, notification 500 2500]) =
        CodexRequest.spentThrough
          [⟨prompts 1000, 1, none⟩, ⟨prompts 1000, 0, none⟩, ⟨prompts 500, 2, none⟩] := by
  have hlater : Notifies "thread-a" (notification 500 2500) (prompts 500, prompts 2500) :=
    notifies_notification (by decide) (by decide)
  refine (codexBilling_telescopes "thread-a" {} (by decide +kernel) 0 ⟨prompts 1000, 1, none⟩
    [⟨prompts 1000, 0, none⟩, ⟨prompts 500, 2, none⟩] (by decide) ⟨nofun, nofun, trivial⟩ _ ?_).1
  simp only [List.filter_cons, names_notification, if_true, List.filter_nil]
  exact .cons (notifies_notification (by decide) (by decide)) (.cons hlater (.cons hlater .nil))

/-- A reset that the next request hides: the counter is above its old value again when it is first
seen, and only the difference is billed. A notification that comes late looks like a reset. -/
theorem hiddenReset_underbills :
    let first : CodexRequest := ⟨prompts 1000, 1, none⟩
    let second : CodexRequest := ⟨prompts 1500, 1, some 0⟩
    List.Forall₂ (Notifies "thread-a") [notification 1000 1000, notification 1500 1500]
        (CodexRequest.delivered 0 [first, second]) ∧
      (0 : Breakdown).total < (first.counter 0).total ∧
      (billed "thread-a" (CodexUsageTracker.observeAll {}
        [notification 1000 1000, notification 1500 1500])).total = 1500 ∧
      (CodexRequest.spentThrough [first, second]).total = 2500 ∧
      (billed "thread-a" (CodexUsageTracker.observeAll {}
        [notification 1000 1000, notification 500 1500, notification 1000 1000])).total = 2500 := by
  refine ⟨.cons ?_ (.cons ?_ .nil), by decide, by decide +kernel, by decide +kernel,
    by decide +kernel⟩
  · exact notifies_notification (by decide) (by decide)
  · exact notifies_notification (by decide) (by decide)

end AgentRelay.Usage
