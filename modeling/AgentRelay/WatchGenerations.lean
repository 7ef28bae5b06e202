import AgentRelay.StepRun
import AgentRelay.SurfaceState

/-! Successive connections of one surface id: each is handed a generation when it
opens and presents it with every declaration and with its teardown. -/
namespace AgentRelay.Relay
open StepRun SurfaceState

/-- What the connections of a surface do; a connection is named by its turn in the
order in which they opened. -/
inductive WatchEvent
  | opens (surfaceId : String) (claimed : Option Nat)
  | declares (surfaceId : String) (connection : Nat) (deviceId : String) (threadIds : List String)
  | drops (surfaceId : String) (connection : Nat)

/-- The registry together with the generations handed out on each surface, oldest
first, and the connection whose accepted declaration is in place there. -/
structure WatchRun where
  surfaces : SurfaceState := {}
  opened : String → List Nat := fun _ => []
  owner : String → Option Nat := fun _ => none

/-- The surface and the connection a declaration or a teardown comes from. -/
def WatchEvent.source : WatchEvent → Option (String × Nat)
  | opens .. => none
  | declares surfaceId connection _ _ | drops surfaceId connection => some (surfaceId, connection)

namespace WatchRun

section
variable (canonicalize : String → String) (cwdOf : String → Option String)

def step (w : WatchRun) : WatchEvent → WatchRun
  | .opens surfaceId claimed =>
    let r := w.surfaces.openSurfaceGeneration surfaceId claimed
    { w with
      surfaces := r.1
      opened := Function.update w.opened surfaceId (w.opened surfaceId ++ [r.2]) }
  | .declares surfaceId connection deviceId threadIds =>
    match (w.opened surfaceId)[connection]? with
    | none => w
    | some generation =>
      { w with
        surfaces := (w.surfaces.setWatchedThreadsForGeneration canonicalize cwdOf surfaceId
          deviceId threadIds (some generation)).1
        owner :=
          if w.surfaces.isStaleDeclaration surfaceId (some generation) then w.owner
          else Function.update w.owner surfaceId (some connection) }
  | .drops surfaceId connection =>
    match (w.opened surfaceId)[connection]? with
    | none => w
    | some generation =>
      { w with
        surfaces := (w.surfaces.dropWatchedSurfaceGeneration surfaceId generation).1
        owner :=
          if w.surfaces.surfaceGenerations[surfaceId]? = some generation then
            Function.update w.owner surfaceId none
          else w.owner }

/-- An event of a connection that a later one has already replaced on the surface
leaves the later one's watch set as it is. -/
def SupersededIsInert (w : WatchRun) (e : WatchEvent) : Prop :=
  ∀ surfaceId connection owner, e.source = some (surfaceId, connection) →
    w.owner surfaceId = some owner → connection < owner →
    (w.step canonicalize cwdOf e).surfaces.watchedThreads[surfaceId]? =
      w.surfaces.watchedThreads[surfaceId]?

end

/-- Every open gets a generation of its own above the earlier ones of its surface, and
no superseded connection declares on a surface whose generation record was dropped. -/
def KeepsGenerationsApart (w : WatchRun) : WatchEvent → Prop
  | .opens surfaceId (some claimed) => ∀ g ∈ w.opened surfaceId, g < claimed
  | .opens surfaceId none => ∀ g ∈ w.opened surfaceId,
      ∃ record, w.surfaces.surfaceGenerations[surfaceId]? = some record ∧ g ≤ record ∧
        record < u64Max
  | .declares surfaceId connection _ _ => ∀ owner, w.owner surfaceId = some owner →
      connection < owner → w.surfaces.surfaceGenerations[surfaceId]? ≠ none
  | .drops .. => True

structure Ordered (w : WatchRun) (surfaceId : String) : Prop where
  increasing : (w.opened surfaceId).Pairwise (· < ·)
  record_last : ∀ g, w.surfaces.surfaceGenerations[surfaceId]? = some g →
    (w.opened surfaceId).getLast? = some g
  owner_opened : ∀ k, w.owner surfaceId = some k → k < (w.opened surfaceId).length

theorem lt_getLast_of_increasing {gs : List Nat} (hgs : gs.Pairwise (· < ·)) {j k g last : Nat}
    (hj : gs[j]? = some g) (hjk : j < k) (hk : k < gs.length) (hlast : gs.getLast? = some last) :
    g < last := by
  obtain ⟨hjlt, rfl⟩ := List.getElem?_eq_some_iff.mp hj
  rw [List.getLast?_eq_getElem?] at hlast
  obtain ⟨hl, rfl⟩ := List.getElem?_eq_some_iff.mp hlast
  exact List.pairwise_iff_getElem.mp hgs j (gs.length - 1) hjlt hl (by omega)

variable {canonicalize : String → String} {cwdOf : String → Option String}

theorem Ordered.below_record {w : WatchRun} {surfaceId : String} (h : w.Ordered surfaceId)
    {connection owner generation record : Nat}
    (hg : (w.opened surfaceId)[connection]? = some generation)
    (ho : w.owner surfaceId = some owner) (hlt : connection < owner)
    (hr : w.surfaces.surfaceGenerations[surfaceId]? = some record) : generation < record :=
  lt_getLast_of_increasing h.increasing hg hlt (h.owner_opened owner ho) (h.record_last record hr)

theorem Ordered.inert {w : WatchRun} (h : ∀ surfaceId, w.Ordered surfaceId) {e : WatchEvent}
    (hcond : w.KeepsGenerationsApart e) : w.SupersededIsInert canonicalize cwdOf e := by
  intro surfaceId connection owner hsource ho hlt
  cases e with
  | opens => simp [WatchEvent.source] at hsource
  | declares sid conn deviceId threadIds =>
    obtain ⟨rfl, rfl⟩ : sid = surfaceId ∧ conn = connection := by
      simpa [WatchEvent.source] using hsource
    cases hg : (w.opened sid)[conn]? with
    | none => simp [step, hg]
    | some generation =>
      obtain ⟨record, hr⟩ := Option.ne_none_iff_exists'.mp (hcond owner ho hlt)
      have hstale := (h sid).below_record hg ho hlt hr
      simp [step, hg, setWatchedThreadsForGeneration, isStaleDeclaration, surfaceGeneration, hr,
        hstale]
  | drops sid conn =>
    obtain ⟨rfl, rfl⟩ : sid = surfaceId ∧ conn = connection := by
      simpa [WatchEvent.source] using hsource
    cases hg : (w.opened sid)[conn]? with
    | none => simp [step, hg]
    | some generation =>
      have hne : w.surfaces.surfaceGenerations[sid]? ≠ some generation := by
        intro hr
        exact absurd ((h sid).below_record hg ho hlt hr) (lt_irrefl _)
      simp [step, hg, dropWatchedSurfaceGeneration, hne]

theorem open_above {w : WatchRun} {surfaceId : String} (h : w.Ordered surfaceId)
    {claimed : Option Nat} (hcond : w.KeepsGenerationsApart (.opens surfaceId claimed)) :
    ∀ g ∈ w.opened surfaceId, g < (w.surfaces.openSurfaceGeneration surfaceId claimed).2 := by
  intro g hg
  cases claimed with
  | none =>
    obtain ⟨record, hr, hle, hmax⟩ := hcond g hg
    simp only [openSurfaceGeneration, surfaceGeneration, hr, Option.getD_some, saturatingAdd]
    omega
  | some claimed =>
    have hclaim : w.surfaces.surfaceGeneration surfaceId < claimed := by
      cases hr : w.surfaces.surfaceGenerations[surfaceId]? with
      | none =>
        have := hcond g hg
        simp only [surfaceGeneration, hr, Option.getD_none]
        omega
      | some record =>
        simpa [surfaceGeneration, hr] using
          hcond record (List.mem_of_getLast? (h.record_last record hr))
    simp only [openSurfaceGeneration, hclaim, if_true]
    exact hcond g hg

theorem Ordered.step {w : WatchRun} (h : ∀ surfaceId, w.Ordered surfaceId) {e : WatchEvent}
    (hcond : w.KeepsGenerationsApart e) :
    ∀ surfaceId, (w.step canonicalize cwdOf e).Ordered surfaceId := by
  intro surfaceId
  obtain ⟨hinc, hrec, hown⟩ := h surfaceId
  cases e with
  | opens sid claimed =>
    by_cases hs : sid = surfaceId
    · subst hs
      refine ⟨?_, ?_, ?_⟩
      · have habove := open_above (h sid) hcond
        simpa [WatchRun.step, List.pairwise_append] using ⟨hinc, habove⟩
      · intro g hg
        simpa [WatchRun.step, openSurfaceGeneration] using hg
      · intro k hk
        have := hown k hk
        simp only [WatchRun.step, Function.update_self, List.length_append, List.length_singleton]
        omega
    · have hs' : surfaceId ≠ sid := Ne.symm hs
      refine ⟨?_, ?_, ?_⟩
      · simpa [WatchRun.step, hs'] using hinc
      · intro g hg
        have : w.surfaces.surfaceGenerations[surfaceId]? = some g := by
          simpa [WatchRun.step, openSurfaceGeneration, Std.ExtTreeMap.getElem?_insert, hs] using hg
        simpa [WatchRun.step, hs'] using hrec g this
      · intro k hk
        simpa [WatchRun.step, hs'] using hown k hk
  | declares sid conn deviceId threadIds =>
    cases hg : (w.opened sid)[conn]? with
    | none => simpa [WatchRun.step, hg] using h surfaceId
    | some generation =>
      have hgen : (w.surfaces.setWatchedThreadsForGeneration canonicalize cwdOf sid deviceId
          threadIds (some generation)).1.surfaceGenerations = w.surfaces.surfaceGenerations := by
        simp only [setWatchedThreadsForGeneration]
        split_ifs <;> rfl
      have hlt : conn < (w.opened sid).length := (List.getElem?_eq_some_iff.mp hg).1
      refine ⟨?_, ?_, ?_⟩
      · simpa [WatchRun.step, hg] using hinc
      · intro g hr
        simp only [WatchRun.step, hg, hgen] at hr ⊢
        exact hrec g hr
      · intro k hk
        simp only [WatchRun.step, hg] at hk ⊢
        split_ifs at hk
        · exact hown k hk
        · by_cases hs : surfaceId = sid
          · subst hs
            obtain rfl : conn = k := by simpa using hk
            exact hlt
          · exact hown k (by simpa [hs] using hk)
  | drops sid conn =>
    cases hg : (w.opened sid)[conn]? with
    | none => simpa [WatchRun.step, hg] using h surfaceId
    | some generation =>
      refine ⟨?_, ?_, ?_⟩
      · simpa [WatchRun.step, hg] using hinc
      · intro g hr
        simp only [WatchRun.step, hg, dropWatchedSurfaceGeneration, dropWatchedSurface] at hr ⊢
        refine hrec g ?_
        split_ifs at hr
        · simp only [Std.ExtTreeMap.getElem?_erase] at hr
          split_ifs at hr
          exact hr
        · exact hr
      · intro k hk
        simp only [WatchRun.step, hg] at hk ⊢
        split_ifs at hk
        · by_cases hs : surfaceId = sid
          · simp [hs] at hk
          · exact hown k (by simpa [hs] using hk)
        · exact hown k hk

theorem ordered_empty (surfaceId : String) : Ordered {} surfaceId :=
  ⟨List.Pairwise.nil, by simp, by simp⟩

/-- In every run whose opens get generations of their own and whose superseded
connections stay quiet once the record is gone, a superseded connection never touches
the watch set of a later one. -/
theorem superseded_inert_of_apart (canonicalize : String → String)
    (cwdOf : String → Option String) (events : List WatchEvent)
    (h : Along (step canonicalize cwdOf) KeepsGenerationsApart {} events) :
    Along (step canonicalize cwdOf) (SupersededIsInert canonicalize cwdOf) {} events :=
  along_of_step (I := fun w => ∀ surfaceId, w.Ordered surfaceId)
    (fun _ _ hw hcond => ⟨Ordered.step hw hcond, Ordered.inert hw hcond⟩) ordered_empty h

/-- A reload that claims a later time than the page it replaces keeps its set. -/
theorem superseded_inert_of_apart_reload :
    Along (step id fun _ => none) KeepsGenerationsApart {}
        [.opens "tab" (some 5), .opens "tab" (some 9), .declares "tab" 1 "phone" ["t"],
          .declares "tab" 0 "phone" [], .drops "tab" 0] ∧
      Along (step id fun _ => none) (SupersededIsInert id fun _ => none) {}
        [.opens "tab" (some 5), .opens "tab" (some 9), .declares "tab" 1 "phone" ["t"],
          .declares "tab" 0 "phone" [], .drops "tab" 0] := by
  have h : Along (step id fun _ => none) KeepsGenerationsApart {}
      [.opens "tab" (some 5), .opens "tab" (some 9), .declares "tab" 1 "phone" ["t"],
        .declares "tab" 0 "phone" [], .drops "tab" 0] := by
    refine ⟨?_, ?_, ?_, ?_, trivial, trivial⟩
    · intro g hg
      simp at hg
    · intro g hg
      obtain rfl : g = 5 := by simpa [step, openSurfaceGeneration, surfaceGeneration] using hg
      decide
    · intro owner ho
      simp [step] at ho
    · intro owner _ _
      decide
  exact ⟨h, superseded_inert_of_apart id _ _ h⟩

/-- A second connection that claims the generation already in force shares it, and the
first one's teardown removes its watch set. -/
theorem shared_generation_drops_successor :
    ¬Along (step id fun _ => none) (SupersededIsInert id fun _ => none) {}
      [.opens "tab" none, .opens "tab" (some 1), .declares "tab" 1 "phone" ["t"],
        .drops "tab" 0] := by
  rintro ⟨-, -, -, h, -⟩
  have hkept := h "tab" 0 1 rfl (by decide) (by decide)
  revert hkept
  decide

end WatchRun

end AgentRelay.Relay
