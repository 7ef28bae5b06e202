import Mathlib.Data.List.Basic
import Mathlib.Data.List.Infix

/-! Runs of a deterministic machine: a step function folded over a list of
operations, with the step and run forms of an invariant. -/
namespace AgentRelay.StepRun

variable {σ ω : Type*} (step : σ → ω → σ)

/-- The state after a whole list of operations. -/
def run (s : σ) (ops : List ω) : σ := ops.foldl step s

/-- Every step of the run satisfies `P` at the state it starts from. -/
def Along (P : σ → ω → Prop) : σ → List ω → Prop
  | _, [] => True
  | s, o :: os => P s o ∧ Along P (step s o) os

instance decidableAlong (P : σ → ω → Prop) [∀ s o, Decidable (P s o)] :
    (s : σ) → (ops : List ω) → Decidable (Along step P s ops)
  | _, [] => isTrue trivial
  | s, o :: os =>
    have := decidableAlong P (step s o) os
    inferInstanceAs (Decidable (P s o ∧ Along step P (step s o) os))

/-- Every state the run visits, its first and last included, satisfies `Q`. -/
def Always (Q : σ → Prop) : σ → List ω → Prop
  | s, [] => Q s
  | s, o :: os => Q s ∧ Always Q (step s o) os

instance decidableAlways (Q : σ → Prop) [DecidablePred Q] :
    (s : σ) → (ops : List ω) → Decidable (Always step Q s ops)
  | s, [] => inferInstanceAs (Decidable (Q s))
  | s, o :: os =>
    have := decidableAlways Q (step s o) os
    inferInstanceAs (Decidable (Q s ∧ Always step Q (step s o) os))

variable {step}

@[simp] theorem run_nil (s : σ) : run step s [] = s := rfl

@[simp] theorem run_cons (s : σ) (o : ω) (os : List ω) :
    run step s (o :: os) = run step (step s o) os := rfl

theorem run_append (s : σ) (xs ys : List ω) :
    run step s (xs ++ ys) = run step (run step s xs) ys := by
  simp [run]

@[simp] theorem run_concat (s : σ) (xs : List ω) (o : ω) :
    run step s (xs ++ [o]) = step (run step s xs) o := by
  simp [run]

theorem along_append {P : σ → ω → Prop} {s : σ} {xs ys : List ω} :
    Along step P s (xs ++ ys) ↔ Along step P s xs ∧ Along step P (run step s xs) ys := by
  induction xs generalizing s with
  | nil => simp [Along]
  | cons o os ih => simp [Along, ih, and_assoc]

theorem Along.mono {P Q : σ → ω → Prop} {s : σ} {ops : List ω}
    (h : Along step P s ops) (hpq : ∀ s o, P s o → Q s o) : Along step Q s ops := by
  induction ops generalizing s with
  | nil => trivial
  | cons o os ih => exact ⟨hpq _ _ h.1, ih h.2⟩

theorem along_and {P Q : σ → ω → Prop} {s : σ} {ops : List ω} (hp : Along step P s ops)
    (hq : Along step Q s ops) : Along step (fun s o => P s o ∧ Q s o) s ops := by
  induction ops generalizing s with
  | nil => trivial
  | cons o os ih => exact ⟨⟨hp.1, hq.1⟩, ih hp.2 hq.2⟩

theorem along_of_forall {P : σ → ω → Prop} (h : ∀ s o, P s o) (s : σ) (ops : List ω) :
    Along step P s ops := by
  induction ops generalizing s with
  | nil => trivial
  | cons o os ih => exact ⟨h s o, ih (step s o)⟩

theorem Along.and_mem {P : σ → ω → Prop} {Q : ω → Prop} {s : σ} {ops : List ω}
    (h : Along step P s ops) (hq : ∀ o ∈ ops, Q o) :
    Along step (fun s o => P s o ∧ Q o) s ops := by
  induction ops generalizing s with
  | nil => trivial
  | cons o os ih =>
    exact ⟨⟨h.1, hq o List.mem_cons_self⟩, ih h.2 fun o' ho' => hq o' (List.mem_cons_of_mem o ho')⟩

theorem always_iff_prefix {Q : σ → Prop} {s : σ} {ops : List ω} :
    Always step Q s ops ↔ ∀ xs ys, ops = xs ++ ys → Q (run step s xs) := by
  induction ops generalizing s with
  | nil =>
    constructor
    · intro h xs ys he
      obtain ⟨rfl, rfl⟩ := List.append_eq_nil_iff.mp he.symm
      exact h
    · intro h
      exact h [] [] rfl
  | cons o os ih =>
    constructor
    · rintro ⟨hq, hrest⟩ xs ys he
      cases xs with
      | nil => exact hq
      | cons x xs =>
        simp only [List.cons_append, List.cons.injEq] at he
        obtain ⟨rfl, rfl⟩ := he
        exact ih.mp hrest xs ys rfl
    · intro h
      refine ⟨h [] (o :: os) rfl, ih.mpr ?_⟩
      rintro xs ys rfl
      exact h (o :: xs) ys rfl

theorem Always.mono {P Q : σ → Prop} {s : σ} {ops : List ω} (h : Always step P s ops)
    (hpq : ∀ s, P s → Q s) : Always step Q s ops := by
  induction ops generalizing s with
  | nil => exact hpq s h
  | cons o os ih => exact ⟨hpq s h.1, ih h.2⟩

theorem Always.head {Q : σ → Prop} {s : σ} {ops : List ω} (h : Always step Q s ops) : Q s :=
  always_iff_prefix.mp h [] ops rfl

theorem Always.last {Q : σ → Prop} {s : σ} {ops : List ω} (h : Always step Q s ops) :
    Q (run step s ops) :=
  always_iff_prefix.mp h ops [] (by simp)

/-- A property kept by every step that meets `P` holds at every state of a run
whose steps all meet `P`. -/
theorem always_of_step {P : σ → ω → Prop} {I : σ → Prop}
    (hstep : ∀ s o, I s → P s o → I (step s o)) {s : σ} {ops : List ω}
    (hs : I s) (hops : Along step P s ops) : Always step I s ops := by
  induction ops generalizing s with
  | nil => exact hs
  | cons o os ih => exact ⟨hs, ih (hstep s o hs hops.1) hops.2⟩

theorem always_iff_along {P : σ → ω → Prop} {Q I : σ → Prop} {R : ω → Prop}
    (hstep : ∀ s o, I s → R o → I (step s o))
    (hkeeps : ∀ s o, I s → R o → Q s → (Q (step s o) ↔ P s o)) {s : σ} {ops : List ω}
    (hi : I s) (hq : Q s) (hops : ∀ o ∈ ops, R o) :
    Always step Q s ops ↔ Along step P s ops := by
  induction ops generalizing s with
  | nil => exact ⟨fun _ => trivial, fun _ => hq⟩
  | cons o os ih =>
    have ho := hops o List.mem_cons_self
    have hos := fun o' hmem => hops o' (List.mem_cons_of_mem o hmem)
    have hnext := hstep s o hi ho
    constructor
    · intro halways
      have hkept := halways.2.head
      exact ⟨(hkeeps s o hi ho hq).mp hkept, (ih hnext hkept hos).mp halways.2⟩
    · intro halong
      have hkept := (hkeeps s o hi ho hq).mpr halong.1
      exact ⟨hq, (ih hnext hkept hos).mpr halong.2⟩

theorem run_of_step {I : σ → Prop} (hstep : ∀ s o, I s → I (step s o)) {s : σ} (hs : I s)
    (ops : List ω) : I (run step s ops) := by
  induction ops generalizing s with
  | nil => exact hs
  | cons o os ih => exact ih (hstep s o hs)

theorem along_of_step {P R : σ → ω → Prop} {I : σ → Prop}
    (hstep : ∀ s o, I s → P s o → I (step s o) ∧ R s o) {s : σ} {ops : List ω}
    (hs : I s) (hops : Along step P s ops) : Along step R s ops := by
  induction ops generalizing s with
  | nil => trivial
  | cons o os ih =>
    obtain ⟨hi, hr⟩ := hstep s o hs hops.1
    exact ⟨hr, ih hi hops.2⟩

theorem exists_step_of_run {Q : σ → Prop} {s : σ} {ops : List ω} (hs : ¬ Q s)
    (h : Q (run step s ops)) :
    ∃ xs o ys, ops = xs ++ o :: ys ∧ ¬ Q (run step s xs) ∧ Q (step (run step s xs) o) := by
  induction ops generalizing s with
  | nil => exact absurd h hs
  | cons o os ih =>
    by_cases hq : Q (step s o)
    · exact ⟨[], o, os, rfl, hs, hq⟩
    · obtain ⟨xs, o', ys, rfl, hbefore, hafter⟩ := ih hq h
      exact ⟨o :: xs, o', ys, rfl, hbefore, hafter⟩

end AgentRelay.StepRun
