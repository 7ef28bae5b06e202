import AgentRelay.SnapshotCompaction

/-! The compaction of a thread list: shorter names and previews, then fewer threads and shorter
previews in stages until the list fits. What else a thread says is of the type `Rest`; how long a
list is as JSON is a parameter. -/
namespace AgentRelay.Compaction
open Hydration (truncateWithEllipsis ellipsisLen)

structure ThreadSummaryView (Rest : Type) where
  name : Option String
  preview : String
  rest : Rest

structure ThreadsResponse (Rest : Type) where
  threads : List (ThreadSummaryView Rest)
  unavailableProviders : List String

structure ThreadSummaryCompactBudget where
  maxNameChars : Nat
  maxPreviewChars : Nat

structure ThreadsResponseReductionStage where
  maxThreads : Option Nat := none
  maxPreviewChars : Option Nat := none

structure ThreadsResponseCompactBudget where
  summaryBudget : ThreadSummaryCompactBudget
  maxThreads : Nat
  targetBytes : Nat
  reductionStages : List ThreadsResponseReductionStage

inductive ThreadsResponseCompactProfile
  | localWeb
  | remoteSurface
  | iosSurface

def threadSummaryBrokerBudget : ThreadSummaryCompactBudget where
  maxNameChars := 96
  maxPreviewChars := 160

def threadsResponseRemoteSurfaceBudget : ThreadsResponseCompactBudget where
  summaryBudget := threadSummaryBrokerBudget
  maxThreads := 80
  targetBytes := 20000
  reductionStages :=
    [{ maxThreads := some 40 }, { maxPreviewChars := some 96 }, { maxThreads := some 20 },
      { maxPreviewChars := some 48 }, { maxThreads := some 10 }]

def threadsResponseLocalWebBudget : ThreadsResponseCompactBudget where
  summaryBudget := { maxNameChars := 120, maxPreviewChars := 220 }
  maxThreads := 120
  targetBytes := 36000
  reductionStages :=
    [{ maxThreads := some 80 }, { maxPreviewChars := some 160 }, { maxThreads := some 50 }]

def threadsResponseIosSurfaceBudget : ThreadsResponseCompactBudget :=
  threadsResponseRemoteSurfaceBudget

def ThreadsResponseCompactProfile.budget :
    ThreadsResponseCompactProfile → ThreadsResponseCompactBudget
  | .localWeb => threadsResponseLocalWebBudget
  | .remoteSurface => threadsResponseRemoteSurfaceBudget
  | .iosSurface => threadsResponseIosSurfaceBudget

section model

variable {Rest : Type}

/-- `ThreadSummaryView::compact_for_budget`. -/
def ThreadSummaryView.compactForBudget (budget : ThreadSummaryCompactBudget)
    (thread : ThreadSummaryView Rest) : ThreadSummaryView Rest :=
  { thread with
    name := (clipOption budget.maxNameChars thread.name).1
    preview := (truncateWithEllipsis thread.preview budget.maxPreviewChars).1 }

def ThreadSummaryView.clipPreview (maxChars : Nat) (thread : ThreadSummaryView Rest) :
    ThreadSummaryView Rest :=
  { thread with preview := (truncateWithEllipsis thread.preview maxChars).1 }

def ThreadsResponseReductionStage.apply (stage : ThreadsResponseReductionStage)
    (threads : List (ThreadSummaryView Rest)) : Option (List (ThreadSummaryView Rest)) :=
  (stage.maxThreads.bind fun maxThreads =>
    if maxThreads < threads.length then some (threads.take maxThreads) else none) <|>
  stage.maxPreviewChars.bind fun maxChars =>
    if threads.any fun thread => maxChars < thread.preview.length then
      some (threads.map (·.clipPreview maxChars))
    else none

def reduceThreads (stages : List ThreadsResponseReductionStage)
    (threads : List (ThreadSummaryView Rest)) : Option (List (ThreadSummaryView Rest)) :=
  stages.findSome? (·.apply threads)

/-- What the stages may still take away. -/
def threadsWeight (threads : List (ThreadSummaryView Rest)) : Nat :=
  threads.length + (threads.map (·.preview.length)).sum

end model

section weight

variable {Rest : Type} {threads next : List (ThreadSummaryView Rest)}

theorem truncateWithEllipsis_shortens (value : String) (maxChars : Nat) :
    (truncateWithEllipsis value maxChars).1.length ≤ value.length := by
  by_cases hfits : value.length ≤ maxChars
  · rw [truncateWithEllipsis_of_le hfits]
  · have hlen := truncateWithEllipsis_length_le value maxChars
    omega

theorem ThreadsResponseReductionStage.apply_cases {stage : ThreadsResponseReductionStage}
    (h : stage.apply threads = some next) :
    (∃ maxThreads, maxThreads < threads.length ∧ next = threads.take maxThreads) ∨
      ∃ maxChars, (∃ thread ∈ threads, maxChars < thread.preview.length) ∧
        next = threads.map (·.clipPreview maxChars) := by
  obtain hcount | hpreview := orElse_cases h
  · obtain ⟨maxThreads, -, htaken⟩ := Option.bind_eq_some_iff.mp hcount
    split_ifs at htaken with hmore
    exact .inl ⟨maxThreads, hmore, (Option.some.inj htaken).symm⟩
  · obtain ⟨maxChars, -, hclipped⟩ := Option.bind_eq_some_iff.mp hpreview
    split_ifs at hclipped with hlong
    obtain ⟨thread, hmem, hlonger⟩ := List.any_eq_true.mp hlong
    exact .inr ⟨maxChars, ⟨thread, hmem, by simpa using hlonger⟩, (Option.some.inj hclipped).symm⟩

theorem threadsWeight_take {count : Nat} (h : count < threads.length) :
    threadsWeight (threads.take count) < threadsWeight threads := by
  have hsplit := congrArg threadsWeight (List.take_append_drop count threads)
  simp only [threadsWeight, List.map_append, List.sum_append, List.length_append, List.length_take,
    List.length_drop] at hsplit ⊢
  omega

theorem threadsWeight_clip {maxChars : Nat}
    (h : ∃ thread ∈ threads, maxChars < thread.preview.length) :
    threadsWeight (threads.map (·.clipPreview maxChars)) < threadsWeight threads := by
  obtain ⟨thread, hmem, hlonger⟩ := h
  have hsum : ((threads.map (·.clipPreview maxChars)).map (·.preview.length)).sum <
      (threads.map (·.preview.length)).sum := by
    rw [List.map_map]
    refine List.sum_lt_sum _ _ (fun other _ => truncateWithEllipsis_shortens other.preview maxChars)
      ⟨thread, hmem, ?_⟩
    exact (truncateWithEllipsis_length_le thread.preview maxChars).trans_lt hlonger
  simp only [threadsWeight, List.length_map]
  omega

theorem reduceThreads_weight {stages : List ThreadsResponseReductionStage}
    (h : reduceThreads stages threads = some next) :
    threadsWeight next < threadsWeight threads := by
  obtain ⟨stage, -, happly⟩ := List.exists_of_findSome?_eq_some h
  obtain ⟨maxThreads, hmore, rfl⟩ | ⟨maxChars, hlong, rfl⟩ := stage.apply_cases happly
  · exact threadsWeight_take hmore
  · exact threadsWeight_clip hlong

end weight

section loop

variable {Rest : Type} (threadsLen : ThreadsResponse Rest → Nat)
  (budget : ThreadsResponseCompactBudget)

/-- The reduction loop; where no stage has anything left, the previews go. -/
def compactThreadsLoop (response : ThreadsResponse Rest) : ThreadsResponse Rest :=
  if threadsLen response ≤ budget.targetBytes then response
  else
    match _hround : reduceThreads budget.reductionStages response.threads with
    | some threads => compactThreadsLoop { response with threads }
    | none =>
      { response with threads := response.threads.map ({ · with preview := "" }) }
termination_by threadsWeight response.threads
decreasing_by exact reduceThreads_weight _hround

def capThreads (response : ThreadsResponse Rest) : ThreadsResponse Rest :=
  { response with
    threads := (response.threads.take budget.maxThreads).map
      (·.compactForBudget budget.summaryBudget) }

/-- `ThreadsResponse::compact_for`. -/
def compactThreadsFor (profile : ThreadsResponseCompactProfile) (response : ThreadsResponse Rest) :
    ThreadsResponse Rest :=
  compactThreadsLoop threadsLen profile.budget (capThreads profile.budget response)

end loop

section stable

variable {Rest : Type} {threadsLen : ThreadsResponse Rest → Nat}
  {budget : ThreadsResponseCompactBudget} {response : ThreadsResponse Rest}

structure CappedThreads (budget : ThreadsResponseCompactBudget) (response : ThreadsResponse Rest) :
    Prop where
  count : response.threads.length ≤ budget.maxThreads
  names : ∀ thread ∈ response.threads,
    (clipOption budget.summaryBudget.maxNameChars thread.name).1 = thread.name
  previews : ∀ thread ∈ response.threads,
    thread.preview.length ≤ budget.summaryBudget.maxPreviewChars

theorem CappedThreads.fixed (h : CappedThreads budget response) :
    capThreads budget response = response := by
  have hsame : ∀ thread ∈ response.threads,
      thread.compactForBudget budget.summaryBudget = id thread := by
    intro thread hmem
    have hpreview := truncateWithEllipsis_of_le (h.previews thread hmem)
    unfold ThreadSummaryView.compactForBudget
    rw [h.names thread hmem, hpreview]
    rfl
  unfold capThreads
  rw [List.take_of_length_le h.count, List.map_congr_left hsame, List.map_id]

theorem cappedThreads_start (budget : ThreadsResponseCompactBudget)
    (response : ThreadsResponse Rest) : CappedThreads budget (capThreads budget response) where
  count := by
    simp only [capThreads, List.length_map, List.length_take]
    exact Nat.min_le_left _ _
  names := by
    intro thread hmem
    obtain ⟨source, -, rfl⟩ := List.mem_map.mp hmem
    simp [ThreadSummaryView.compactForBudget]
  previews := by
    intro thread hmem
    obtain ⟨source, -, rfl⟩ := List.mem_map.mp hmem
    exact truncateWithEllipsis_length_le _ _

theorem CappedThreads.previewed (h : CappedThreads budget response) {f : String → String}
    (hf : ∀ preview, (f preview).length ≤ preview.length) :
    CappedThreads budget
      { response with threads := response.threads.map fun t => { t with preview := f t.preview } }
    where
  count := by simpa using h.count
  names thread hmem := by
    obtain ⟨source, hsource, rfl⟩ := List.mem_map.mp hmem
    exact h.names source hsource
  previews thread hmem := by
    obtain ⟨source, hsource, rfl⟩ := List.mem_map.mp hmem
    exact (hf source.preview).trans (h.previews source hsource)

theorem CappedThreads.reduce {stages : List ThreadsResponseReductionStage}
    {next : List (ThreadSummaryView Rest)} (h : CappedThreads budget response)
    (hround : reduceThreads stages response.threads = some next) :
    CappedThreads budget { response with threads := next } := by
  obtain ⟨stage, -, happly⟩ := List.exists_of_findSome?_eq_some hround
  obtain ⟨maxThreads, hmore, rfl⟩ | ⟨maxChars, -, rfl⟩ := stage.apply_cases happly
  · constructor
    · exact (List.length_take_le' _ _).trans h.count
    · exact fun thread hmem => h.names thread (List.mem_of_mem_take hmem)
    · exact fun thread hmem => h.previews thread (List.mem_of_mem_take hmem)
  · exact h.previewed (truncateWithEllipsis_shortens · maxChars)

theorem reduceThreads_cleared {stages : List ThreadsResponseReductionStage}
    {threads : List (ThreadSummaryView Rest)} (h : reduceThreads stages threads = none) :
    reduceThreads stages (threads.map ({ · with preview := "" })) = none := by
  refine List.findSome?_eq_none_iff.mpr fun stage hstage => ?_
  have hnone := List.findSome?_eq_none_iff.mp h stage hstage
  unfold ThreadsResponseReductionStage.apply at hnone ⊢
  cases hcount : stage.maxThreads with
  | none => cases stage.maxPreviewChars <;> simp
  | some maxThreads =>
    have hfew : ¬ maxThreads < threads.length := by
      intro hmore
      simp [hcount, hmore] at hnone
    cases stage.maxPreviewChars <;> simp [hfew]

theorem compactThreadsLoop_settled (h : CappedThreads budget response) :
    let out := compactThreadsLoop threadsLen budget response
    CappedThreads budget out ∧ compactThreadsLoop threadsLen budget out = out := by
  dsimp only
  generalize hweight : threadsWeight response.threads = weight
  induction weight using Nat.strong_induction_on generalizing response with
  | _ weight ih =>
    rw [compactThreadsLoop]
    split_ifs with hfits
    · refine ⟨h, ?_⟩
      rw [compactThreadsLoop, if_pos hfits]
    · split
      · rename_i next hround
        exact ih _ (hweight ▸ reduceThreads_weight hround) (h.reduce hround) rfl
      · rename_i hround
        refine ⟨h.previewed (f := fun _ => "") fun _ => Nat.zero_le _, ?_⟩
        have hagain := reduceThreads_cleared hround
        rw [compactThreadsLoop]
        split_ifs
        · rfl
        · split
          · rename_i next hnext
            rw [hagain] at hnext
            cases hnext
          · rw [List.map_map]
            rfl

theorem compactThreadsFor_idem (profile : ThreadsResponseCompactProfile)
    (response : ThreadsResponse Rest) :
    compactThreadsFor threadsLen profile (compactThreadsFor threadsLen profile response) =
      compactThreadsFor threadsLen profile response := by
  have hloop : let out := compactThreadsFor threadsLen profile response
      CappedThreads profile.budget out ∧
        compactThreadsLoop threadsLen profile.budget out = out :=
    compactThreadsLoop_settled (cappedThreads_start profile.budget response)
  obtain ⟨hcapped, hsettled⟩ := hloop
  rw [compactThreadsFor, hcapped.fixed, hsettled]

end stable

end AgentRelay.Compaction
