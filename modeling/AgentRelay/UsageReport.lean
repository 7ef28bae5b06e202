import AgentRelay.Grouping
import AgentRelay.LocalDay
import AgentRelay.UsageTracker

/-! The usage report. Every figure is a sum over rows of the token ledger, and a sum without a
total of its own is shown as the sum of its parts. Costs are left out. -/
namespace AgentRelay.Usage.Report
open Store Grouping

structure TokenRow where
  instant : ℤ
  provider : String
  model : Option String
  teamRunId : Option String
  role : Option String
  phase : Option String
  teamId : Option String
  usage : TokenUsage
  failed : Bool
  deriving DecidableEq, Repr

inductive Bucket
  | none
  | hour
  | day
  | week
  | month
  deriving DecidableEq, Repr

structure Calendar where
  key : Bucket → ℤ → Option String
  days : ℕ → ℕ → List String
  weeks : ℕ → ℕ → List String
  months : ℕ → ℕ → List String
  midnight : ℕ → ℕ

def window (rows : List TokenRow) (since till : ℕ) : List TokenRow :=
  rows.filter fun row => toSqlTime since ≤ row.instant ∧ row.instant < toSqlTime till

def usageOf (rows : List TokenRow) : TokenUsage := (rows.map (·.usage)).sum

/-- `SUM(total)`. -/
def totalOf (rows : List TokenRow) : ℕ := (rows.map (·.usage.total)).sum

structure ProviderModelUsage where
  day : Option String
  provider : String
  model : Option String
  usage : TokenUsage
  turns : ℕ
  deriving DecidableEq, Repr

/-- `ORDER BY SUM(total) DESC`. -/
def byTotal {α : Type} (total : α → ℕ) (rows : List α) : List α :=
  rows.mergeSort fun left right => decide (total right ≤ total left)

def byProviderModel (rows : List TokenRow) : List ProviderModelUsage :=
  byTotal (·.usage.total) ((groups (fun row : TokenRow => (row.provider, row.model)) rows).map
    fun group => ⟨none, group.1.1, group.1.2, usageOf group.2, group.2.length⟩)

/-- `by_hour`, `by_day`, `by_week` and `by_month`, by the key of an instant. -/
def byBucket (key : ℤ → Option String) (rows : List TokenRow) : List ProviderModelUsage :=
  ((groups (fun row : TokenRow => (key row.instant, row.provider, row.model)) rows).map
    fun group => (⟨group.1.1, group.1.2.1, group.1.2.2, usageOf group.2, group.2.length⟩ :
      ProviderModelUsage)).mergeSort
    fun left right => (compare left.day right.day).then
      (compare right.usage.total left.usage.total) != .gt

structure WindowTotals where
  usage : TokenUsage
  turns : ℕ
  failedTotal : ℕ
  deriving DecidableEq, Repr

def windowTotals (rows : List TokenRow) : WindowTotals :=
  ⟨usageOf rows, rows.length, totalOf (rows.filter (·.failed))⟩

def effectiveTotal (usage : TokenUsage) : ℕ :=
  if 0 < usage.total then usage.total else usage.sumOfParts

inductive TokenClass
  | input
  | cachedInput
  | cacheWrite
  | output
  deriving DecidableEq, Repr

def TokenClass.of (usage : TokenUsage) : TokenClass → ℕ
  | input => usage.input
  | cachedInput => usage.cachedInput
  | cacheWrite => usage.cacheWrite
  | output => usage.output

structure ReportTotals where
  tokens : TokenClass → ℕ
  total : ℕ
  turns : ℕ
  failedTotal : ℕ

def totalsView (totals : WindowTotals) : ReportTotals :=
  ⟨TokenClass.of totals.usage, effectiveTotal totals.usage, totals.turns, totals.failedTotal⟩

structure ReportGroup where
  provider : String
  model : Option String
  tokens : TokenClass → ℕ
  total : ℕ
  turns : ℕ

def groupView (row : ProviderModelUsage) : ReportGroup :=
  ⟨row.provider, row.model, TokenClass.of row.usage, effectiveTotal row.usage, row.turns⟩

structure ReportBucket where
  key : String
  groups : List ReportGroup

def expectedBucketKeys (calendar : Calendar) (since till : ℕ) : Bucket → List String
  | .day => calendar.days since till
  | .week => calendar.weeks since till
  | .month => calendar.months since till
  | .hour | .none => []

def bucketOf (row : ProviderModelUsage) : String := row.day.getD "unknown"

def materialiseBuckets (calendar : Calendar) (rows : List TokenRow) (since till : ℕ)
    (bucket : Bucket) : List ReportBucket :=
  if bucket = .none then
    let groups := (byProviderModel (window rows since till)).map groupView
    if groups = [] then [] else [⟨"all", groups⟩]
  else
    let map := collect bucketOf groupView (byBucket (calendar.key bucket)
      (window rows since till)) ∅
    let map := (expectedBucketKeys calendar since till bucket).foldl
      (fun m k => m.insertIfNew k []) map
    map.toList.map fun entry => ⟨entry.1, entry.2⟩

def percent (total denominator : ℕ) : ℕ :=
  if 0 < denominator then total * 100 / denominator else 0

structure ReportShare (κ : Type) where
  key : κ
  total : ℕ
  share : ℕ
  turns : ℕ

/-- `roles_view` and `teams_view`: each line's share of the whole list. -/
def sharesView {κ : Type} (rows : List (κ × List TokenRow)) : List (ReportShare κ) :=
  let denominator := (rows.map fun row => totalOf row.2).sum
  rows.map fun row => ⟨row.1, totalOf row.2, percent (totalOf row.2) denominator, row.2.length⟩

def byRole (rows : List TokenRow) : List (Option String × List TokenRow) :=
  byTotal (totalOf ·.2) (groups TokenRow.role rows)

def byRolePhase (rows : List TokenRow) : List ((Option String × Option String) × List TokenRow) :=
  byTotal (totalOf ·.2) (groups (fun row => (row.role, row.phase))
    (rows.filter (·.role.isSome)))

/-- A column that is neither `NULL` nor empty. -/
def named (column : Option String) : Bool := column.any (· ≠ "")

def byTeam (rows : List TokenRow) : List (String × List TokenRow) :=
  byTotal (totalOf ·.2) (groups (fun row => row.teamId.getD "")
    (rows.filter fun row => named row.teamId))

structure TeamRunUsage where
  teamRunId : String
  provider : String
  usage : TokenUsage
  turns : ℕ

def byTeamRun (rows : List TokenRow) : List TeamRunUsage :=
  byTotal (·.usage.total) ((groups (fun row : TokenRow => (row.teamRunId.getD "", row.provider))
    (rows.filter fun row => named row.teamRunId)).map
      fun group => ⟨group.1.1, group.1.2, usageOf group.2, group.2.length⟩)

def failedByTeamRun (rows : List TokenRow) : List (String × ℕ) :=
  byTotal (·.2) ((groups (fun row : TokenRow => row.teamRunId.getD "")
    (rows.filter fun row => row.failed && named row.teamRunId)).map
      fun group => (group.1, totalOf group.2))

structure TaskSpend where
  total : ℕ := 0
  providers : Table ℕ := ∅

def addSpend (map : Table TaskSpend) (row : TeamRunUsage) : Table TaskSpend :=
  let total := effectiveTotal row.usage
  let entry := map[row.teamRunId]?.getD {}
  map.insert row.teamRunId
    ⟨satAdd entry.total total,
      entry.providers.insert row.provider (entry.providers[row.provider]?.getD 0 + total)⟩

structure ReportTask where
  teamRunId : String
  title : String
  status : String
  total : ℕ
  byProvider : List (String × ℚ)

structure TeamRunMeta where
  title : String
  status : String

structure ReportOptions where
  teamRuns : Table TeamRunMeta
  fallbackTaskTitle : String → String

def taskOf (options : ReportOptions) (run : String) (spend : TaskSpend) : ReportTask :=
  let shareTotal := max 1 (spend.providers.toList.map (·.2)).sum
  let info := options.teamRuns[run]?
  { teamRunId := run
    title := ((info.map (·.title)).filter (· ≠ "")).getD (options.fallbackTaskTitle run)
    status := (info.map (·.status)).getD "unknown"
    total := spend.total
    byProvider := spend.providers.toList.map fun entry => (entry.1, entry.2 / shareTotal) }

def tasks (options : ReportOptions) (rows : List TokenRow) : List ReportTask :=
  ((byTeamRun rows).foldl addSpend ∅).toList.map fun entry => taskOf options entry.1 entry.2

def topTasks (options : ReportOptions) (rows : List TokenRow) : List ReportTask :=
  (byTotal (·.total) (tasks options rows)).take 5

structure ReportWaste where
  failedTotal : ℕ
  share : ℕ
  hotspotTotal : Option ℕ
  hotspotLabel : Option String

def wasteView (options : ReportOptions) (totals : WindowTotals) (rows : List TokenRow) :
    Option ReportWaste :=
  if totals.failedTotal = 0 then none
  else
    let hotspot := (failedByTeamRun rows).head?
    some ⟨totals.failedTotal, totals.failedTotal * 100 / max (effectiveTotal totals.usage) 1,
      hotspot.map (·.2), hotspot.map (options.fallbackTaskTitle ·.1)⟩

structure TodaySlice where
  since : ℕ
  till : ℕ
  totals : ReportTotals
  groups : List ReportGroup
  compareTotals : ReportTotals
  compareGroups : List ReportGroup

def totalsOf (rows : List TokenRow) (since till : ℕ) : ReportTotals :=
  totalsView (windowTotals (window rows since till))

def groupsOf (rows : List TokenRow) (since till : ℕ) : List ReportGroup :=
  (byProviderModel (window rows since till)).map groupView

def todaySlice (calendar : Calendar) (rows : List TokenRow) (till : ℕ) : TodaySlice :=
  let todayStart := calendar.midnight (till - 1)
  let elapsed := max (till - todayStart) 1
  let yesterdayStart := todayStart - 86400
  let yesterdayUntil := min (yesterdayStart + elapsed) (2 ^ 64 - 1)
  { since := todayStart
    till
    totals := totalsOf rows todayStart till
    groups := groupsOf rows todayStart till
    compareTotals := totalsOf rows yesterdayStart yesterdayUntil
    compareGroups := groupsOf rows yesterdayStart yesterdayUntil }

structure CompareWindow where
  since : ℕ
  till : ℕ
  totals : ReportTotals
  buckets : List ReportBucket

structure ReportPrompt where
  role : Option String
  phase : Option String
  total : ℕ
  turns : ℕ

structure UsageReport where
  since : ℕ
  till : ℕ
  bucket : Bucket
  totals : ReportTotals
  buckets : List ReportBucket
  byRole : List (ReportShare (Option String))
  byPrompt : List ReportPrompt
  byTeam : List (ReportShare String)
  topTasks : List ReportTask
  waste : Option ReportWaste
  today : Option TodaySlice
  compare : Option CompareWindow

/-- Where the attribution starts: the day view asks about its last day. -/
def attributionSince (calendar : Calendar) (since till : ℕ) (bucket : Bucket) : ℕ :=
  if bucket = .day then calendar.midnight (till - 1) else since

def buildReport (calendar : Calendar) (options : ReportOptions) (rows : List TokenRow)
    (since till : ℕ) (bucket : Bucket) (comparePrevious : Bool) : Except String UsageReport :=
  if till ≤ since then .error "until must be greater than since"
  else
    let attributed := window rows (attributionSince calendar since till bucket) till
    .ok {
      since, till, bucket
      totals := totalsOf rows since till
      buckets := materialiseBuckets calendar rows since till bucket
      byRole := sharesView (byRole attributed)
      byPrompt := (byRolePhase attributed).map fun row =>
        ⟨row.1.1, row.1.2, totalOf row.2, row.2.length⟩
      byTeam := sharesView (byTeam attributed)
      topTasks := topTasks options attributed
      waste := wasteView options (windowTotals attributed) attributed
      today := if bucket = .day then some (todaySlice calendar rows till) else none
      compare := if comparePrevious then
        let previous := since - (till - since)
        some ⟨previous, since, totalsOf rows previous since,
          materialiseBuckets calendar rows previous since bucket⟩
      else none }

def parts (usage : TokenUsage) : ℕ :=
  usage.input + usage.cachedInput + usage.cacheWrite + usage.output

def partsOf (rows : List TokenRow) : ℕ := (rows.map fun row => parts row.usage).sum

structure Ledger where
  rows : List TokenRow
  totals_lt : totalOf rows < 2 ^ 63
  parts_lt : partsOf rows < 2 ^ 63

structure AddsUp (options : ReportOptions) (ledger : Ledger) (attributedSince : ℕ)
    (report : UsageReport) : Prop where
  groupTotals : report.totals.total =
    ((groupsOf ledger.rows report.since report.till).map (·.total)).sum
  groupTokens : ∀ c, report.totals.tokens c =
    ((groupsOf ledger.rows report.since report.till).map (·.tokens c)).sum
  bucketTotals : report.totals.total =
    ((report.buckets.flatMap (·.groups)).map (·.total)).sum
  bucketTokens : ∀ c, report.totals.tokens c =
    ((report.buckets.flatMap (·.groups)).map (·.tokens c)).sum
  taskTotals : ∀ task ∈ tasks options (window ledger.rows attributedSince report.till),
    task.total = (((window ledger.rows attributedSince report.till).filter fun row =>
      row.teamRunId = some task.teamRunId).map fun row => effectiveTotal row.usage).sum
  topTotals : ∀ task ∈ report.topTasks, task.total =
    (((window ledger.rows attributedSince report.till).filter fun row =>
      row.teamRunId = some task.teamRunId).map fun row => effectiveTotal row.usage).sum
  roleShares : (∀ line ∈ report.byRole, line.share ≤ 100) ∧
    (report.byRole.map (·.share)).sum ≤ 100
  teamShares : (∀ line ∈ report.byTeam, line.share ≤ 100) ∧
    (report.byTeam.map (·.share)).sum ≤ 100
  wasteShare : ∀ waste ∈ report.waste, waste.share ≤ 100

def Covered {κ : Type} (key : TokenRow → κ) (rows : List TokenRow) : Prop :=
  (∀ row ∈ rows, row.usage.total = 0) ∨
    ∀ row ∈ rows, parts row.usage ≠ 0 → ∃ other ∈ rows, key other = key row ∧
      other.usage.total ≠ 0

/-- What a provider spent on a team run has a total in every row with parts, or in none. -/
def Uniform (rows : List TokenRow) : Prop :=
  ∀ row ∈ rows, named row.teamRunId → row.usage.total = 0 → parts row.usage ≠ 0 →
    ∀ other ∈ rows, other.teamRunId = row.teamRunId → other.provider = row.provider →
      other.usage.total = 0

def groupKey (calendar : Calendar) (bucket : Bucket) (row : TokenRow) :
    Option String × String × Option String :=
  (if bucket = .none then none else calendar.key bucket row.instant, row.provider, row.model)

section sums

def effective (pair : ℕ × ℕ) : ℕ := if 0 < pair.1 then pair.1 else pair.2

theorem sum_effective (pairs : List (ℕ × ℕ)) : (pairs.map effective).sum =
    (pairs.map (·.1)).sum + (pairs.map fun pair => if 0 < pair.1 then 0 else pair.2).sum := by
  induction pairs with
  | nil => rfl
  | cons pair pairs ih =>
    simp only [List.map_cons, List.sum_cons, ih, effective]
    split_ifs
    · omega
    · omega

/-- Parts stand in for a sum and for each summand alike only if no summand needs them or no total
is there at all. -/
theorem effective_sum_iff (pairs : List (ℕ × ℕ)) :
    effective ((pairs.map (·.1)).sum, (pairs.map (·.2)).sum) = (pairs.map effective).sum ↔
      (∀ pair ∈ pairs, pair.1 = 0) ∨ ∀ pair ∈ pairs, pair.1 = 0 → pair.2 = 0 := by
  by_cases hnone : ∀ pair ∈ pairs, pair.1 = 0
  · have hzero : (pairs.map (·.1)).sum = 0 := by
      rw [List.sum_eq_zero_iff]
      simpa using hnone
    have hparts : pairs.map effective = pairs.map (·.2) := by
      refine List.map_congr_left fun pair hpair => ?_
      simp [effective, hnone pair hpair]
    exact iff_of_true (by simp [effective, hzero, hparts]) (Or.inl hnone)
  · have hpos : 0 < (pairs.map (·.1)).sum := by
      by_contra hnot
      have hzero := Nat.eq_zero_of_not_pos hnot
      rw [List.sum_eq_zero_iff] at hzero
      exact hnone (by simpa using hzero)
    have hrest : (pairs.map fun pair => if 0 < pair.1 then 0 else pair.2).sum = 0 ↔
        ∀ pair ∈ pairs, pair.1 = 0 → pair.2 = 0 := by
      rw [List.sum_eq_zero_iff, List.forall_mem_map]
      refine forall₂_congr fun pair _ => ?_
      split_ifs
      · omega
      · omega
    rw [sum_effective, effective, if_pos hpos, or_iff_right hnone, ← hrest]
    omega

theorem effective_sum_le (pairs : List (ℕ × ℕ)) :
    effective ((pairs.map (·.1)).sum, (pairs.map (·.2)).sum) ≤ (pairs.map effective).sum := by
  by_cases hpos : 0 < (pairs.map (·.1)).sum
  · rw [sum_effective, effective, if_pos hpos]
    exact Nat.le_add_right _ _
  · have hnone : ∀ pair ∈ pairs, pair.1 = 0 := by
      have hzero := Nat.eq_zero_of_not_pos hpos
      rw [List.sum_eq_zero_iff] at hzero
      simpa using hzero
    exact ((effective_sum_iff pairs).mpr (Or.inl hnone)).le

theorem sum_eq_sum_iff {α : Type} (items : List α) {f g : α → ℕ}
    (hle : ∀ item ∈ items, f item ≤ g item) :
    (items.map f).sum = (items.map g).sum ↔ ∀ item ∈ items, f item = g item := by
  induction items with
  | nil => simp
  | cons item items ih =>
    have hitem := hle item List.mem_cons_self
    have hitems := List.sum_le_sum fun other hother => hle other (List.mem_cons_of_mem item hother)
    have hrest := ih fun other hother => hle other (List.mem_cons_of_mem _ hother)
    simp only [List.map_cons, List.sum_cons, List.forall_mem_cons, ← hrest]
    omega

theorem sum_percent_le (totals : List ℕ) :
    (totals.map fun total => percent total totals.sum).sum ≤ 100 := by
  have hmul : ∀ (items : List ℕ) (denominator : ℕ),
      (items.map fun total => total * 100 / denominator).sum * denominator ≤ items.sum * 100 := by
    intro items denominator
    induction items with
    | nil => simp
    | cons item items ih =>
      have hitem := Nat.div_mul_le_self (item * 100) denominator
      simp only [List.map_cons, List.sum_cons, Nat.add_mul]
      omega
  by_cases hpos : 0 < totals.sum
  · have htotals := hmul totals totals.sum
    simp only [percent, if_pos hpos]
    rw [Nat.mul_comm totals.sum 100] at htotals
    exact Nat.le_of_mul_le_mul_right htotals hpos
  · simp [percent, hpos]

end sums

section rows
variable {rows : List TokenRow}

theorem total_usageOf (rows : List TokenRow) : (usageOf rows).total = totalOf rows := by
  induction rows with
  | nil => rfl
  | cons row rows ih => simp_all [usageOf, totalOf]

theorem tokens_usageOf (rows : List TokenRow) (c : TokenClass) :
    TokenClass.of (usageOf rows) c = (rows.map fun row => TokenClass.of row.usage c).sum := by
  induction rows with
  | nil => cases c <;> rfl
  | cons row rows ih =>
    rw [List.map_cons, List.sum_cons, ← ih]
    cases c <;> rfl

theorem parts_usageOf (rows : List TokenRow) : parts (usageOf rows) = partsOf rows := by
  induction rows with
  | nil => rfl
  | cons row rows ih =>
    have hsum : parts (usageOf (row :: rows)) = parts row.usage + parts (usageOf rows) := by
      simp only [usageOf, List.map_cons, List.sum_cons, parts, TokenUsage.input_add,
        TokenUsage.cachedInput_add, TokenUsage.cacheWrite_add, TokenUsage.output_add]
      omega
    rw [hsum, ih]
    rfl

theorem effectiveTotal_eq {usage : TokenUsage} (h : parts usage < 2 ^ 63) :
    effectiveTotal usage = effective (usage.total, parts usage) := by
  have hsum : usage.sumOfParts = parts usage := by
    unfold parts at h
    unfold TokenUsage.sumOfParts satAdd parts
    omega
  rw [effectiveTotal, effective, hsum]

theorem partsOf_le {few : List TokenRow} (h : few.Sublist rows) : partsOf few ≤ partsOf rows :=
  (h.map _).sum_le_sum fun _ _ => Nat.zero_le _

theorem totalOf_le {few : List TokenRow} (h : few.Sublist rows) : totalOf few ≤ totalOf rows :=
  (h.map _).sum_le_sum fun _ _ => Nat.zero_le _

theorem effectiveTotal_usageOf (h : partsOf rows < 2 ^ 63) :
    effectiveTotal (usageOf rows) = effective (totalOf rows, partsOf rows) := by
  rw [effectiveTotal_eq (by rw [parts_usageOf]; exact h), total_usageOf, parts_usageOf]

theorem effective_groups_iff {κ : Type} [DecidableEq κ] (key : TokenRow → κ) (rows : List TokenRow) :
    effective (totalOf rows, partsOf rows) =
      ((groups key rows).map fun group => effective (totalOf group.2, partsOf group.2)).sum ↔
        Covered key rows := by
  have hpairs := effective_sum_iff
    ((groups key rows).map fun group => (totalOf group.2, partsOf group.2))
  simp only [List.map_map, Function.comp_def] at hpairs
  have htotal : ((groups key rows).map fun group => totalOf group.2).sum = totalOf rows :=
    sum_groups key (fun row => row.usage.total) rows
  have hparts : ((groups key rows).map fun group => partsOf group.2).sum = partsOf rows :=
    sum_groups key (fun row => parts row.usage) rows
  rw [htotal, hparts] at hpairs
  rw [hpairs]
  simp only [List.forall_mem_map, totalOf, partsOf, List.sum_eq_zero_iff]
  refine or_congr ?_ ?_
  · constructor
    · intro hnone row hrow
      exact hnone _ (group_of_row key hrow) row (List.mem_filter.mpr ⟨hrow, by simp⟩)
    · intro hnone group hgroup row hrow
      rw [mem_groups key hgroup] at hrow
      exact hnone row (List.mem_of_mem_filter hrow)
  · constructor
    · intro hcovered row hrow hparts'
      by_contra hnot
      refine hparts' (hcovered _ (group_of_row key hrow) (fun other hother => ?_) row
        (List.mem_filter.mpr ⟨hrow, by simp⟩))
      obtain ⟨hin, hkey⟩ := List.mem_filter.mp hother
      by_contra htotal'
      exact hnot ⟨other, hin, of_decide_eq_true hkey, htotal'⟩
    · intro hcovered group hgroup hnone row hrow
      rw [mem_groups key hgroup] at hnone hrow
      obtain ⟨hin, hkey⟩ := List.mem_filter.mp hrow
      by_contra hparts'
      obtain ⟨other, hother, hsame, htotal'⟩ := hcovered row hin hparts'
      refine htotal' (hnone other (List.mem_filter.mpr ⟨hother, ?_⟩))
      exact decide_eq_true (hsame.trans (of_decide_eq_true hkey))

theorem sublist_of_group {κ : Type} [DecidableEq κ] (key : TokenRow → κ)
    {group : κ × List TokenRow} (h : group ∈ groups key rows) : group.2.Sublist rows := by
  rw [mem_groups key h]
  exact List.filter_sublist

theorem perm_byTotal {α : Type} (total : α → ℕ) (items : List α) :
    (byTotal total items).Perm items := List.mergeSort_perm _ _

end rows

section groups
variable {rows : List TokenRow}

def Grouped {κ : Type} [DecidableEq κ] (key : TokenRow → κ) (rows : List TokenRow)
    (items : List ProviderModelUsage) : Prop :=
  (items.map (·.usage)).Perm ((groups key rows).map fun group => usageOf group.2)

theorem grouped_byProviderModel (rows : List TokenRow) :
    Grouped (fun row => (row.provider, row.model)) rows (byProviderModel rows) := by
  have hperm := (perm_byTotal (·.usage.total) ((groups (fun row : TokenRow =>
    (row.provider, row.model)) rows).map fun group => (⟨none, group.1.1, group.1.2,
      usageOf group.2, group.2.length⟩ : ProviderModelUsage))).map (·.usage)
  rw [List.map_map] at hperm
  exact hperm

theorem grouped_byBucket (key : ℤ → Option String) (rows : List TokenRow) :
    Grouped (fun row => (key row.instant, row.provider, row.model)) rows (byBucket key rows) := by
  have hperm := (List.mergeSort_perm ((groups (fun row : TokenRow =>
    (key row.instant, row.provider, row.model)) rows).map fun group => (⟨group.1.1, group.1.2.1,
      group.1.2.2, usageOf group.2, group.2.length⟩ : ProviderModelUsage))
    fun left right => (compare left.day right.day).then
      (compare right.usage.total left.usage.total) != .gt).map (·.usage)
  rw [List.map_map] at hperm
  exact hperm

variable {κ : Type} [DecidableEq κ] {key : TokenRow → κ} {items : List ProviderModelUsage}

theorem Grouped.tokens (h : Grouped key rows items) (c : TokenClass) :
    TokenClass.of (usageOf rows) c = ((items.map groupView).map (·.tokens c)).sum := by
  have hsum := (h.map fun usage => TokenClass.of usage c).sum_eq
  simp only [List.map_map, Function.comp_def] at hsum ⊢
  have hrows := sum_groups key (fun row => TokenClass.of row.usage c) rows
  rw [tokens_usageOf, ← hrows]
  simp only [tokens_usageOf] at hsum
  exact hsum.symm

theorem Grouped.total_iff (h : Grouped key rows items) (hbound : partsOf rows < 2 ^ 63) :
    effectiveTotal (usageOf rows) = ((items.map groupView).map (·.total)).sum ↔
      Covered key rows := by
  have hsum := (h.map effectiveTotal).sum_eq
  simp only [List.map_map, Function.comp_def] at hsum
  have hgroups : (groups key rows).map (fun group => effectiveTotal (usageOf group.2)) =
      (groups key rows).map fun group => effective (totalOf group.2, partsOf group.2) := by
    refine List.map_congr_left fun group hgroup => effectiveTotal_usageOf ?_
    exact lt_of_le_of_lt (partsOf_le (sublist_of_group key hgroup)) hbound
  rw [← effective_groups_iff, effectiveTotal_usageOf hbound, ← hgroups, ← hsum, List.map_map]
  rfl

end groups

section buckets
variable (calendar : Calendar) (rows : List TokenRow) (since till : ℕ) (bucket : Bucket)

theorem covered_congr {κ κ' : Type} {key : TokenRow → κ} {key' : TokenRow → κ'}
    {rows : List TokenRow} (h : ∀ row other, key row = key other ↔ key' row = key' other) :
    Covered key rows ↔ Covered key' rows := by
  unfold Covered
  simp only [h]

theorem perm_bucketGroups : ((materialiseBuckets calendar rows since till bucket).flatMap
    (·.groups)).Perm ((if bucket = .none then byProviderModel (window rows since till) else
      byBucket (calendar.key bucket) (window rows since till)).map groupView) := by
  unfold materialiseBuckets
  by_cases hnone : bucket = .none
  · simp only [if_pos hnone]
    split_ifs with hempty
    · rw [hempty]
      exact List.Perm.refl _
    · simp
  · simp only [if_neg hnone]
    rw [List.flatMap_map]
    refine toList_perm bucketOf groupView fun k => ?_
    rw [getD_insertIfNew, getD_collect]
    simp

theorem bucketTokens (c : TokenClass) : TokenClass.of (usageOf (window rows since till)) c =
    (((materialiseBuckets calendar rows since till bucket).flatMap (·.groups)).map
      (·.tokens c)).sum := by
  rw [((perm_bucketGroups calendar rows since till bucket).map (·.tokens c)).sum_eq]
  split_ifs
  · exact (grouped_byProviderModel _).tokens c
  · exact (grouped_byBucket _ _).tokens c

theorem bucketTotal_iff (hbound : partsOf (window rows since till) < 2 ^ 63) :
    effectiveTotal (usageOf (window rows since till)) =
      (((materialiseBuckets calendar rows since till bucket).flatMap (·.groups)).map
        (·.total)).sum ↔ Covered (groupKey calendar bucket) (window rows since till) := by
  rw [((perm_bucketGroups calendar rows since till bucket).map (·.total)).sum_eq]
  by_cases hnone : bucket = .none
  · rw [if_pos hnone, (grouped_byProviderModel _).total_iff hbound]
    exact covered_congr fun row other => by simp [groupKey, hnone]
  · rw [if_neg hnone, (grouped_byBucket _ _).total_iff hbound]
    exact covered_congr fun row other => by simp [groupKey, hnone]

theorem covered_coarse (h : Covered (groupKey calendar bucket) rows) :
    Covered (fun row => (row.provider, row.model)) rows := by
  refine h.imp id fun hcovered row hrow hparts => ?_
  obtain ⟨other, hother, hkey, htotal⟩ := hcovered row hrow hparts
  exact ⟨other, hother, (Prod.mk.inj hkey).2, htotal⟩

end buckets

section tasks

theorem total_addSpend (run : String) (items : List TeamRunUsage) (map : Table TaskSpend)
    (hmap : (map[run]?.getD {}).total ≤ 2 ^ 64 - 1) :
    ((items.foldl addSpend map)[run]?.getD {}).total = min ((map[run]?.getD {}).total +
      ((items.filter fun item => item.teamRunId = run).map fun item =>
        effectiveTotal item.usage).sum) (2 ^ 64 - 1) := by
  induction items generalizing map with
  | nil => exact (Nat.min_eq_left hmap).symm
  | cons item items ih =>
    have hstep : ((addSpend map item)[run]?.getD {}).total =
        if item.teamRunId = run then satAdd (map[run]?.getD {}).total (effectiveTotal item.usage)
        else (map[run]?.getD {}).total := by
      rw [addSpend, Table.getElem?_insert_of]
      by_cases hrun : item.teamRunId = run
      · simp [hrun]
      · simp [hrun, Ne.symm hrun]
    have hbound : ((addSpend map item)[run]?.getD {}).total ≤ 2 ^ 64 - 1 := by
      rw [hstep]
      split_ifs
      · exact Nat.min_le_right _ _
      · exact hmap
    rw [List.foldl_cons, ih _ hbound, hstep, List.filter_cons]
    by_cases hrun : item.teamRunId = run
    · simp only [hrun, decide_true, if_true, List.map_cons, List.sum_cons, satAdd]
      omega
    · simp only [hrun, decide_false, Bool.false_eq_true, if_false]

theorem run_mem_addSpend {run : String} (items : List TeamRunUsage) (map : Table TaskSpend) :
    ((items.foldl addSpend map)[run]?).isSome ↔
      map[run]?.isSome ∨ ∃ item ∈ items, item.teamRunId = run := by
  induction items generalizing map with
  | nil => simp
  | cons item items ih =>
    rw [List.foldl_cons, ih, addSpend, Table.getElem?_insert_of]
    by_cases hrun : run = item.teamRunId
    · simp [hrun]
    · simp [hrun, Ne.symm hrun]

theorem sum_filter {α : Type} (items : List α) (p : α → Bool) (f : α → ℕ) :
    ((items.filter p).map f).sum = (items.map fun item => if p item then f item else 0).sum := by
  induction items with
  | nil => rfl
  | cons item items ih =>
    rw [List.filter_cons]
    by_cases hitem : p item
    · simp [hitem, ih]
    · simp [hitem, ih]

def runKey (row : TokenRow) : String × String := (row.teamRunId.getD "", row.provider)

def runRows (rows : List TokenRow) : List TokenRow := rows.filter fun row => named row.teamRunId

variable {rows : List TokenRow}

theorem effective_group_le (group : (String × String) × List TokenRow) :
    effective (totalOf group.2, partsOf group.2) ≤
      (group.2.map fun row => effective (row.usage.total, parts row.usage)).sum := by
  have hle := effective_sum_le (group.2.map fun row => (row.usage.total, parts row.usage))
  simp only [List.map_map, Function.comp_def] at hle
  exact hle

/-- What the groups of a run come to. -/
theorem spend_of_run (hbound : totalOf rows < 2 ^ 63) (hparts : partsOf rows < 2 ^ 63)
    (run : String) : (((byTeamRun rows).foldl addSpend ∅)[run]?.getD {}).total =
      ((groups runKey (runRows rows)).map fun group =>
        if group.1.1 = run then effective (totalOf group.2, partsOf group.2) else 0).sum := by
  have hperm := perm_byTotal (·.usage.total) ((groups runKey (runRows rows)).map
    fun group => (⟨group.1.1, group.1.2, usageOf group.2, group.2.length⟩ : TeamRunUsage))
  have hitems : (((byTeamRun rows).filter fun item => item.teamRunId = run).map fun item =>
      effectiveTotal item.usage).sum = ((groups runKey (runRows rows)).map fun group =>
        if group.1.1 = run then effective (totalOf group.2, partsOf group.2) else 0).sum := by
    have hsum := (hperm.map fun item => if decide (item.teamRunId = run) = true then
      effectiveTotal item.usage else 0).sum_eq
    rw [sum_filter]
    refine hsum.trans ?_
    rw [List.map_map]
    congr 1
    refine List.map_congr_left fun group hgroup => ?_
    have hsmall : partsOf group.2 < 2 ^ 63 := lt_of_le_of_lt
      (partsOf_le ((sublist_of_group runKey hgroup).trans List.filter_sublist)) hparts
    simp only [Function.comp_apply, effectiveTotal_usageOf hsmall, decide_eq_true_eq]
  have hle : ((groups runKey (runRows rows)).map fun group =>
      if group.1.1 = run then effective (totalOf group.2, partsOf group.2) else 0).sum ≤
        totalOf rows + partsOf rows := by
    have heach := List.sum_le_sum (l := groups runKey (runRows rows))
      (f := fun group => if group.1.1 = run then effective (totalOf group.2, partsOf group.2) else 0)
      (g := fun group => totalOf group.2 + partsOf group.2) fun group _ => by
        unfold effective
        split_ifs <;> omega
    have htotal : ((groups runKey (runRows rows)).map fun group => totalOf group.2).sum =
        totalOf (runRows rows) := sum_groups runKey (fun row => row.usage.total) _
    have hrest : ((groups runKey (runRows rows)).map fun group => partsOf group.2).sum =
        partsOf (runRows rows) := sum_groups runKey (fun row => parts row.usage) _
    rw [List.sum_map_add, htotal, hrest] at heach
    have htotal' : totalOf (runRows rows) ≤ totalOf rows := totalOf_le List.filter_sublist
    have hrest' : partsOf (runRows rows) ≤ partsOf rows := partsOf_le List.filter_sublist
    omega
  rw [total_addSpend run _ _ (Nat.zero_le _), hitems]
  simp only [Std.ExtTreeMap.getElem?_empty, Option.getD_none]
  omega

theorem rows_of_run (hparts : partsOf rows < 2 ^ 63) {run : String} (hrun : run ≠ "") :
    ((rows.filter fun row => row.teamRunId = some run).map fun row =>
      effectiveTotal row.usage).sum = ((groups runKey (runRows rows)).map fun group =>
        if group.1.1 = run then
          (group.2.map fun row => effective (row.usage.total, parts row.usage)).sum else 0).sum := by
  have hrows : (rows.filter fun row => row.teamRunId = some run) =
      (runRows rows).filter fun row => (runKey row).1 = run := by
    rw [runRows, List.filter_filter]
    refine List.filter_congr fun row _ => ?_
    cases hcolumn : row.teamRunId with
    | none => simp [runKey, hcolumn, named, Ne.symm hrun]
    | some name =>
      by_cases hname : name = run
      · simp [runKey, hcolumn, named, hname, hrun]
      · simp [runKey, hcolumn, hname]
  have hsingle : ∀ row ∈ rows, effectiveTotal row.usage =
      effective (row.usage.total, parts row.usage) := by
    intro row hrow
    refine effectiveTotal_eq (lt_of_le_of_lt ?_ hparts)
    exact List.single_le_sum (fun _ _ => Nat.zero_le _) _
      (List.mem_map_of_mem (f := fun row : TokenRow => parts row.usage) hrow)
  rw [List.map_congr_left fun row hrow => hsingle row (List.mem_of_mem_filter hrow), hrows,
    sum_filter, ← sum_groups runKey]
  congr 1
  refine List.map_congr_left fun group hgroup => ?_
  have hkey : ∀ row ∈ group.2, runKey row = group.1 := by
    intro row hrow
    rw [mem_groups runKey hgroup] at hrow
    exact of_decide_eq_true (List.mem_filter.mp hrow).2
  by_cases hsame : group.1.1 = run
  · rw [if_pos hsame]
    congr 1
    refine List.map_congr_left fun row hrow => ?_
    simp [hkey row hrow, hsame]
  · rw [if_neg hsame, List.sum_eq_zero_iff, List.forall_mem_map]
    intro row hrow
    simp [hkey row hrow, hsame]

theorem group_named {group : (String × String) × List TokenRow}
    (h : group ∈ groups runKey (runRows rows)) : group.1.1 ≠ "" := by
  obtain ⟨key, hkey, rfl⟩ := List.mem_map.mp h
  obtain ⟨row, hrow, rfl⟩ := List.mem_map.mp (List.mem_dedup.mp hkey)
  have hnamed := (List.mem_filter.mp hrow).2
  intro hempty
  cases hcolumn : row.teamRunId with
  | none => simp [named, hcolumn] at hnamed
  | some name =>
    have hname : name = "" := by simpa [runKey, hcolumn] using hempty
    simp [named, hcolumn, hname] at hnamed

theorem run_iff (rows : List TokenRow) (run : String) :
    (((byTeamRun rows).foldl addSpend ∅)[run]?).isSome ↔
      ∃ group ∈ groups runKey (runRows rows), group.1.1 = run := by
  have hperm := perm_byTotal (·.usage.total) ((groups runKey (runRows rows)).map
    fun group => (⟨group.1.1, group.1.2, usageOf group.2, group.2.length⟩ : TeamRunUsage))
  rw [run_mem_addSpend]
  simp only [Std.ExtTreeMap.getElem?_empty, Option.isSome_none, Bool.false_eq_true, false_or]
  constructor
  · rintro ⟨item, hitem, rfl⟩
    obtain ⟨group, hgroup, rfl⟩ := List.mem_map.mp (hperm.mem_iff.mp hitem)
    exact ⟨group, hgroup, rfl⟩
  · rintro ⟨group, hgroup, rfl⟩
    exact ⟨_, hperm.mem_iff.mpr (List.mem_map_of_mem hgroup), rfl⟩

theorem named_column {left right : Option String} (hleft : named left) (hright : named right)
    (h : left.getD "" = right.getD "") : left = right := by
  cases left with
  | none => simp [named] at hleft
  | some name =>
    cases right with
    | none => simp [named] at hright
    | some other => exact congrArg some h

theorem uniform_groups_iff (rows : List TokenRow) : (∀ group ∈ groups runKey (runRows rows),
    effective (totalOf group.2, partsOf group.2) =
      (group.2.map fun row => effective (row.usage.total, parts row.usage)).sum) ↔
        Uniform rows := by
  have hgroup : ∀ group : (String × String) × List TokenRow,
      effective (totalOf group.2, partsOf group.2) =
        (group.2.map fun row => effective (row.usage.total, parts row.usage)).sum ↔
          (∀ row ∈ group.2, row.usage.total = 0) ∨
            ∀ row ∈ group.2, row.usage.total = 0 → parts row.usage = 0 := by
    intro group
    have hiff := effective_sum_iff (group.2.map fun row => (row.usage.total, parts row.usage))
    simp only [List.map_map, Function.comp_def, List.forall_mem_map] at hiff
    exact hiff
  simp only [hgroup]
  constructor
  · intro hall row hrow hnamed hnone hparts other hother hrun hprovider
    have hin : row ∈ runRows rows := List.mem_filter.mpr ⟨hrow, hnamed⟩
    have hin' : other ∈ runRows rows := List.mem_filter.mpr ⟨hother, hrun ▸ hnamed⟩
    have hkey : runKey other = runKey row := by rw [runKey, runKey, hrun, hprovider]
    rcases hall _ (group_of_row runKey hin) with hzero | hfew
    · exact hzero other (List.mem_filter.mpr ⟨hin', decide_eq_true hkey⟩)
    · exact absurd (hfew row (List.mem_filter.mpr ⟨hin, decide_eq_true rfl⟩) hnone) hparts
  · intro huniform group hgroup'
    by_contra hnot
    simp only [not_or, not_forall] at hnot
    obtain ⟨⟨other, hother, htotal⟩, row, hrow, hnone, hparts⟩ := hnot
    rw [mem_groups runKey hgroup'] at hother hrow
    obtain ⟨hin, hkey⟩ := List.mem_filter.mp hrow
    obtain ⟨hin', hkey'⟩ := List.mem_filter.mp hother
    obtain ⟨hrow', hnamed⟩ := List.mem_filter.mp hin
    obtain ⟨hother', hnamed'⟩ := List.mem_filter.mp hin'
    have hsame := Prod.mk.inj ((of_decide_eq_true hkey').trans (of_decide_eq_true hkey).symm)
    exact htotal (huniform row hrow' hnamed hnone hparts other hother'
      (named_column hnamed' hnamed hsame.1) hsame.2)

/-- A task shows what its rows come to exactly if its groups are uniform. -/
theorem taskTotals_iff (options : ReportOptions) (hbound : totalOf rows < 2 ^ 63)
    (hparts : partsOf rows < 2 ^ 63) : (∀ task ∈ tasks options rows, task.total =
      ((rows.filter fun row => row.teamRunId = some task.teamRunId).map fun row =>
        effectiveTotal row.usage).sum) ↔ Uniform rows := by
  have hgroups : (∀ task ∈ tasks options rows, task.total =
      ((rows.filter fun row => row.teamRunId = some task.teamRunId).map fun row =>
        effectiveTotal row.usage).sum) ↔ ∀ group ∈ groups runKey (runRows rows),
          effective (totalOf group.2, partsOf group.2) =
            (group.2.map fun row => effective (row.usage.total, parts row.usage)).sum := by
    have hrun : ∀ run ≠ "", (((byTeamRun rows).foldl addSpend ∅)[run]?.getD {}).total =
        ((rows.filter fun row => row.teamRunId = some run).map fun row =>
          effectiveTotal row.usage).sum ↔ ∀ group ∈ groups runKey (runRows rows),
            group.1.1 = run → effective (totalOf group.2, partsOf group.2) =
              (group.2.map fun row => effective (row.usage.total, parts row.usage)).sum := by
      intro run hne
      rw [spend_of_run hbound hparts, rows_of_run hparts hne, sum_eq_sum_iff]
      · refine forall₂_congr fun group _ => ?_
        split_ifs with hsame
        · simp [hsame]
        · simp [hsame]
      · intro group _
        split_ifs
        · exact effective_group_le group
        · exact le_rfl
    constructor
    · intro htasks group hgroup
      have hsome := (run_iff rows group.1.1).mpr ⟨group, hgroup, rfl⟩
      obtain ⟨spend, hspend⟩ := Option.isSome_iff_exists.mp hsome
      have htask := htasks (taskOf options group.1.1 spend) (List.mem_map.mpr
        ⟨(group.1.1, spend), Std.ExtTreeMap.mem_toList_iff_getElem?_eq_some.mpr hspend, rfl⟩)
      refine (hrun _ (group_named hgroup)).mp ?_ group hgroup rfl
      rw [hspend]
      exact htask
    · intro hall task htask
      obtain ⟨⟨run, spend⟩, hentry, rfl⟩ := List.mem_map.mp htask
      have hspend := Std.ExtTreeMap.mem_toList_iff_getElem?_eq_some.mp hentry
      obtain ⟨group, hgroup, hsame⟩ :=
        (run_iff rows run).mp (Option.isSome_iff_exists.mpr ⟨spend, hspend⟩)
      have htotal := (hrun run (hsame ▸ group_named hgroup)).mpr
        fun group hgroup _ => hall group hgroup
      rw [hspend] at htotal
      exact htotal
  rw [hgroups]
  exact uniform_groups_iff rows

end tasks

section shares

theorem sharesView_le {κ : Type} (rows : List (κ × List TokenRow)) :
    (∀ line ∈ sharesView rows, line.share ≤ 100) ∧
      ((sharesView rows).map (·.share)).sum ≤ 100 := by
  have hsum := sum_percent_le (rows.map fun row => totalOf row.2)
  have hshares : (sharesView rows).map (·.share) = (rows.map fun row => totalOf row.2).map
      fun total => percent total (rows.map fun row => totalOf row.2).sum := by
    simp [sharesView, Function.comp_def]
  rw [← hshares] at hsum
  refine ⟨fun line hline => ?_, hsum⟩
  exact (List.single_le_sum (fun _ _ => Nat.zero_le _) _ (List.mem_map_of_mem hline)).trans hsum

theorem waste_le {options : ReportOptions} {rows : List TokenRow} {waste : ReportWaste}
    (h : wasteView options (windowTotals rows) rows = some waste) : waste.share ≤ 100 := by
  have hfailed : totalOf (rows.filter (·.failed)) ≤ totalOf rows := totalOf_le List.filter_sublist
  have hsome : (windowTotals rows).failedTotal ≠ 0 := by
    intro hnone
    rw [wasteView, if_pos hnone] at h
    cases h
  rw [wasteView, if_neg hsome] at h
  cases h
  have hpos : 0 < totalOf rows := lt_of_lt_of_le (Nat.pos_of_ne_zero hsome) hfailed
  dsimp only [windowTotals]
  rw [effectiveTotal, total_usageOf, if_pos hpos, Nat.max_eq_left hpos]
  apply Nat.div_le_of_le_mul
  exact Nat.mul_le_mul_right 100 hfailed

end shares

/-- The report adds up exactly if the rows of its window are covered and the rows that its tasks
are made of are uniform. -/
theorem addsUp_iff (calendar : Calendar) (options : ReportOptions) (ledger : Ledger)
    (since till : ℕ) (bucket : Bucket) (comparePrevious : Bool) :
    (∀ report, buildReport calendar options ledger.rows since till bucket comparePrevious =
      .ok report → AddsUp options ledger (attributionSince calendar since till bucket) report) ↔
        (since < till → Covered (groupKey calendar bucket) (window ledger.rows since till) ∧
          Uniform (window ledger.rows (attributionSince calendar since till bucket) till)) := by
  have hbound : ∀ start, partsOf (window ledger.rows start till) < 2 ^ 63 := fun start =>
    lt_of_le_of_lt (partsOf_le List.filter_sublist) ledger.parts_lt
  have htotal : ∀ start, totalOf (window ledger.rows start till) < 2 ^ 63 := fun start =>
    lt_of_le_of_lt (totalOf_le List.filter_sublist) ledger.totals_lt
  constructor
  · intro hreport horder
    have hadds := hreport _ (by rw [buildReport, if_neg (Nat.not_le.mpr horder)])
    exact ⟨(bucketTotal_iff calendar ledger.rows since till bucket (hbound since)).mp
      hadds.bucketTotals, (taskTotals_iff options (htotal _) (hbound _)).mp hadds.taskTotals⟩
  · intro hcovered report hreport
    by_cases horder : till ≤ since
    · rw [buildReport, if_pos horder] at hreport
      cases hreport
    · obtain ⟨hwindow, htasks⟩ := hcovered (Nat.not_le.mp horder)
      rw [buildReport, if_neg horder] at hreport
      cases hreport
      have htotals := (taskTotals_iff options (htotal _) (hbound _)).mpr htasks
      exact
        { groupTotals := ((grouped_byProviderModel _).total_iff (hbound since)).mpr
            (covered_coarse calendar _ bucket hwindow)
          groupTokens := (grouped_byProviderModel _).tokens
          bucketTotals :=
            (bucketTotal_iff calendar ledger.rows since till bucket (hbound since)).mpr hwindow
          bucketTokens := bucketTokens calendar ledger.rows since till bucket
          taskTotals := htotals
          topTotals := fun task htask =>
            htotals task ((perm_byTotal _ _).subset (List.mem_of_mem_take htask))
          roleShares := sharesView_le _
          teamShares := sharesView_le _
          wasteShare := fun waste hwaste => waste_le hwaste }

def plainRow (provider : String) (input total : ℕ) : TokenRow where
  instant := 5
  provider
  model := none
  teamRunId := none
  role := none
  phase := none
  teamId := none
  usage := { input, total }
  failed := false

def mixedLedger : Ledger where
  rows := [plainRow "codex" 10 10, plainRow "claude" 5 0]
  totals_lt := by decide
  parts_lt := by decide

def emptyCalendar : Calendar where
  key _ _ := none
  days _ _ := []
  weeks _ _ := []
  months _ _ := []
  midnight _ := 0

/-- Five tokens without a total are in their group and not in the headline. -/
theorem headline_misses_parts : ¬∀ report,
    buildReport emptyCalendar ⟨∅, id⟩ mixedLedger.rows 0 10 .none false = .ok report →
      AddsUp ⟨∅, id⟩ mixedLedger 0 report := by
  intro hadds
  have htotals := (hadds _ rfl).groupTotals
  have hwindow : window mixedLedger.rows 0 10 = mixedLedger.rows := by decide
  have hcovered := ((grouped_byProviderModel (window mixedLedger.rows 0 10)).total_iff
    (by rw [hwindow]; exact mixedLedger.parts_lt)).mp htotals
  rw [hwindow] at hcovered
  rcases hcovered with hnone | hshared
  · exact absurd (hnone (plainRow "codex" 10 10) (by decide)) (by decide)
  · obtain ⟨other, hother, hkey, htotal⟩ := hshared (plainRow "claude" 5 0) (by decide) (by decide)
    rcases List.mem_pair.mp hother with rfl | rfl
    · exact absurd hkey (by decide)
    · exact htotal rfl

end AgentRelay.Usage.Report
