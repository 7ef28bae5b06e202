import Mathlib.Data.List.Nodup
import Mathlib.Data.List.Perm.Basic

/-! Following a link from element to element, where each has at most one: the walk ends, or it runs
into a cycle, and all of its cycles are rotations of one. -/
namespace AgentRelay.ChainWalk

variable {α ε : Type*}

/-- The elements from one up to another, this one left out. -/
inductive Path (next : α → α → Prop) : α → List α → α → Prop
  | nil (a : α) : Path next a [] a
  | cons {a b c : α} {as : List α} (h : next a b) (rest : Path next b as c) :
      Path next a (a :: as) c

/-- The elements from one to the end of the walk, which ends as `e`. -/
inductive Walk (next : α → α → Prop) (stops : ε → α → Prop) (e : ε) : α → List α → Prop
  | stop {a : α} (h : stops e a) : Walk next stops e a [a]
  | step {a b : α} {as : List α} (h : next a b) (rest : Walk next stops e b as) :
      Walk next stops e a (a :: as)

structure Cycle (next : α → α → Prop) (a : α) (cycle : List α) : Prop where
  path : Path next a cycle a
  ne_nil : cycle ≠ []
  nodup : cycle.Nodup

/-- Every element links to at most one. -/
def Functional (next : α → α → Prop) : Prop := ∀ a b c, next a b → next a c → b = c

variable {next : α → α → Prop} {stops : ε → α → Prop} {a b c : α} {xs ys : List α}

theorem Path.append (h : Path next a xs b) (hrest : Path next b ys c) :
    Path next a (xs ++ ys) c := by
  induction h with
  | nil a => exact hrest
  | cons hlink _ ih => exact Path.cons hlink (ih hrest)

theorem Path.split (h : Path next a (xs ++ ys) c) :
    ∃ b, Path next a xs b ∧ Path next b ys c := by
  induction xs generalizing a with
  | nil => exact ⟨a, Path.nil a, h⟩
  | cons x xs ih =>
    cases h with
    | cons hlink rest =>
      obtain ⟨b, hfirst, hsecond⟩ := ih rest
      exact ⟨b, Path.cons hlink hfirst, hsecond⟩

theorem Path.concat (h : Path next a xs b) (hlink : next b c) : Path next a (xs ++ [b]) c :=
  h.append (Path.cons hlink (Path.nil c))

theorem Path.head (h : Path next a (b :: xs) c) : a = b := by
  cases h
  rfl

theorem Cycle.rotate (h : Cycle next a (xs ++ b :: ys)) :
    Path next a xs b ∧ Cycle next b (b :: ys ++ xs) := by
  obtain ⟨m, hfirst, hsecond⟩ := h.path.split
  obtain rfl := hsecond.head
  refine ⟨hfirst, hsecond.append hfirst, by simp, ?_⟩
  have hperm : (m :: ys ++ xs).Perm (xs ++ m :: ys) := List.perm_append_comm
  exact hperm.nodup_iff.mpr h.nodup

theorem Cycle.resume {tail cycle taken left : List α} (hcycle : Cycle next b cycle)
    (hnodup : (tail ++ cycle).Nodup) (hsplit : tail ++ cycle = taken ++ left) (hne : taken ≠ [])
    (hleft : Path next c left b) :
    ∃ tail' b' cycle', Path next c tail' b' ∧ Cycle next b' cycle' ∧ (tail' ++ cycle').Nodup ∧
      cycle'.Perm cycle ∧ (tail' = [] ∨ tail'.length < tail.length) := by
  rcases List.append_eq_append_iff.mp hsplit with ⟨middle, htaken, hcut⟩ | ⟨middle, htail, hcut⟩
  · cases left with
    | nil =>
      cases hleft
      exact ⟨[], _, cycle, Path.nil _, hcycle, hcycle.nodup, List.Perm.refl _, Or.inl rfl⟩
    | cons x left =>
      obtain rfl := hleft.head
      rw [hcut] at hcycle ⊢
      obtain ⟨-, hrotated⟩ := hcycle.rotate
      exact ⟨[], _, _, Path.nil _, hrotated, hrotated.nodup,
        List.perm_append_comm, Or.inl rfl⟩
  · subst hcut
    obtain ⟨m, hmiddle, hback⟩ := hleft.split
    obtain ⟨head, rest, rfl⟩ := List.exists_cons_of_ne_nil hcycle.ne_nil
    obtain rfl := hback.head
    obtain rfl := hcycle.path.head
    have hlength := congrArg List.length htail
    have hpos := List.length_pos_iff.mpr hne
    rw [List.length_append] at hlength
    rw [hsplit] at hnodup
    exact ⟨middle, _, _, hmiddle, hcycle, (List.nodup_append.mp hnodup).2.1,
      List.Perm.refl _, Or.inr (by omega)⟩

section deterministic

variable (hnext : Functional next)
include hnext

theorem Path.compare (h : Path next a xs b) (h' : Path next a ys c) :
    (∃ zs, ys = xs ++ zs ∧ Path next b zs c) ∨ ∃ zs, xs = ys ++ zs ∧ Path next c zs b := by
  induction h generalizing ys with
  | nil a => exact Or.inl ⟨ys, rfl, h'⟩
  | cons hlink rest ih =>
    cases h' with
    | nil => exact Or.inr ⟨_, rfl, Path.cons hlink rest⟩
    | cons hlink' rest' =>
      obtain rfl := hnext _ _ _ hlink hlink'
      rcases ih rest' with ⟨zs, rfl, hzs⟩ | ⟨zs, rfl, hzs⟩
      · exact Or.inl ⟨zs, rfl, hzs⟩
      · exact Or.inr ⟨zs, rfl, hzs⟩

theorem Cycle.mem_of_path (h : Cycle next a xs) (hpath : Path next a ys b) : b ∈ xs := by
  induction hlength : ys.length using Nat.strongRecOn generalizing ys with
  | _ length ih =>
    obtain ⟨head, rest, rfl⟩ := List.exists_cons_of_ne_nil h.ne_nil
    obtain rfl := h.path.head
    rcases h.path.compare hnext hpath with ⟨zs, rfl, hzs⟩ | ⟨zs, hsplit, hzs⟩
    · refine ih zs.length ?_ hzs rfl
      rw [← hlength, List.length_append, List.length_cons]
      omega
    · cases zs with
      | nil =>
        cases hzs
        exact List.mem_cons_self
      | cons z zs =>
        obtain rfl := hzs.head
        rw [hsplit]
        simp

theorem Cycle.eq (h : Cycle next a xs) (h' : Cycle next a ys) : xs = ys := by
  have hone : ∀ {xs ys : List α}, Cycle next a xs → Cycle next a ys →
      ∀ zs, ys = xs ++ zs → Path next a zs a → zs = [] := by
    intro xs ys hxs hys zs hsplit hzs
    cases zs with
    | nil => rfl
    | cons z zs =>
      obtain rfl := hzs.head
      obtain ⟨head, rest, rfl⟩ := List.exists_cons_of_ne_nil hxs.ne_nil
      obtain rfl := hxs.path.head
      have hnodup := hys.nodup
      rw [hsplit, List.nodup_append] at hnodup
      exact absurd rfl (hnodup.2.2 a List.mem_cons_self a List.mem_cons_self)
  rcases h.path.compare hnext h'.path with ⟨zs, hzs, hpath⟩ | ⟨zs, hzs, hpath⟩
  · rw [hzs, hone h h' zs hzs hpath, List.append_nil]
  · rw [hzs, hone h' h zs hzs hpath, List.append_nil]

theorem Cycle.perm {first : α} {as bs : List α} (ha : Path next first as a)
    (hb : Path next first bs b) (h : Cycle next a xs) (h' : Cycle next b ys) : xs.Perm ys := by
  have hone : ∀ {a b : α} {xs ys zs : List α}, Cycle next a xs → Cycle next b ys →
      Path next a zs b → xs.Perm ys := by
    intro a b xs ys zs hxs hys hzs
    obtain ⟨before, after, rfl⟩ := List.append_of_mem (hxs.mem_of_path hnext hzs)
    obtain ⟨-, hrotated⟩ := hxs.rotate
    rw [← hrotated.eq hnext hys]
    exact List.perm_append_comm
  rcases ha.compare hnext hb with ⟨zs, -, hzs⟩ | ⟨zs, -, hzs⟩
  · exact hone h h' hzs
  · exact (hone h' h hzs).symm

end deterministic

theorem Path.walk {e : ε} (h : Path next a xs b) (hrest : Walk next stops e b ys) :
    Walk next stops e a (xs ++ ys) := by
  induction h with
  | nil a => exact hrest
  | cons hlink _ ih => exact Walk.step hlink (ih hrest)

theorem Walk.path {e : ε} (h : Walk next stops e a xs) :
    ∃ before last, xs = before ++ [last] ∧ Path next a before last ∧ stops e last := by
  induction h with
  | @stop a hstop => exact ⟨[], a, rfl, Path.nil a, hstop⟩
  | @step a b as hlink rest ih =>
    obtain ⟨before, last, rfl, hpath, hstop⟩ := ih
    exact ⟨a :: before, last, rfl, Path.cons hlink hpath, hstop⟩

theorem Path.imp {next' : α → α → Prop} (himp : ∀ a b, next a b → next' a b)
    (h : Path next a xs b) : Path next' a xs b := by
  induction h with
  | nil a => exact Path.nil a
  | cons hlink _ ih => exact Path.cons (himp _ _ hlink) ih

theorem Cycle.imp {next' : α → α → Prop} (himp : ∀ a b, next a b → next' a b)
    (h : Cycle next a xs) : Cycle next' a xs := ⟨h.path.imp himp, h.ne_nil, h.nodup⟩

theorem Walk.split {e : ε} (h : Walk next stops e a (xs ++ b :: ys)) :
    Path next a xs b ∧ Walk next stops e b (b :: ys) := by
  induction xs generalizing a with
  | nil =>
    have hhead : a = b := by
      cases h <;> rfl
    subst hhead
    exact ⟨Path.nil a, h⟩
  | cons x xs ih =>
    generalize hlist : x :: xs ++ b :: ys = list at h
    cases h with
    | stop _ =>
      have hlength := congrArg List.length hlist
      simp at hlength
    | step hlink rest =>
      obtain ⟨rfl, rfl⟩ := List.cons.inj hlist
      obtain ⟨hpath, hleft⟩ := ih rest
      exact ⟨Path.cons hlink hpath, hleft⟩

theorem Walk.drop {e : ε} (hnext : Functional next) (hstops : ∀ e a b, stops e a → ¬ next a b)
    (h : Walk next stops e a xs) (hpath : Path next a ys b) :
    ∃ rest, xs = ys ++ rest ∧ Walk next stops e b rest := by
  induction hpath generalizing xs with
  | nil a => exact ⟨xs, rfl, h⟩
  | cons hlink _ ih =>
    cases h with
    | stop hstop => exact absurd hlink (hstops _ _ _ hstop)
    | step hlink' rest =>
      obtain rfl := hnext _ _ _ hlink hlink'
      obtain ⟨left, rfl, hleft⟩ := ih rest
      exact ⟨left, rfl, hleft⟩

theorem Walk.not_cycle {e : ε} (hnext : Functional next)
    (hstops : ∀ e a b, stops e a → ¬ next a b) (h : Walk next stops e a xs)
    (hcycle : Path next a ys a) (hne : ys ≠ []) : False := by
  induction hlength : xs.length using Nat.strongRecOn generalizing xs with
  | _ length ih =>
    obtain ⟨left, rfl, hleft⟩ := h.drop hnext hstops hcycle
    refine ih left.length ?_ hleft rfl
    have hpos := List.length_pos_iff.mpr hne
    rw [← hlength, List.length_append]
    omega

theorem Walk.no_cycle {e : ε} {tail cycle : List α} (hnext : Functional next)
    (hstops : ∀ e a b, stops e a → ¬ next a b) (h : Walk next stops e a xs)
    (htail : Path next a tail b) (hcycle : Cycle next b cycle) : False := by
  obtain ⟨left, -, hleft⟩ := h.drop hnext hstops htail
  exact hleft.not_cycle hnext hstops hcycle.path hcycle.ne_nil

theorem Walk.unique {e e' : ε} (hnext : Functional next) (hstops : ∀ e a b, stops e a → ¬ next a b)
    (h : Walk next stops e a xs) (h' : Walk next stops e' a ys) : xs = ys := by
  induction h generalizing ys with
  | stop hstop =>
    cases h' with
    | stop _ => rfl
    | step hlink _ => exact absurd hlink (hstops _ _ _ hstop)
  | step hlink rest ih =>
    cases h' with
    | stop hstop => exact absurd hlink (hstops _ _ _ hstop)
    | step hlink' rest' =>
      obtain rfl := hnext _ _ _ hlink hlink'
      rw [ih rest']

theorem Walk.nodup {e : ε} (hnext : Functional next) (hstops : ∀ e a b, stops e a → ¬ next a b)
    (h : Walk next stops e a xs) : xs.Nodup := by
  induction h with
  | stop _ => exact List.nodup_singleton _
  | step hlink rest ih =>
    rw [List.nodup_cons]
    refine ⟨?_, ih⟩
    intro hmem
    obtain ⟨before, after, rfl⟩ := List.append_of_mem hmem
    obtain ⟨hpath, hleft⟩ := rest.split
    exact hleft.not_cycle hnext hstops (Path.cons hlink hpath) (by simp)

theorem walk_or_cycle (hmoves : ∀ a, (∃ e, stops e a) ∨ ∃ b, next a b) (bound : Nat) (first : α)
    (hbound : ∀ xs a, Path next first xs a → xs.Nodup → xs.length ≤ bound) :
    (∃ e xs, Walk next stops e first xs) ∨
      ∃ tail a cycle, Path next first tail a ∧ Cycle next a cycle ∧ (tail ++ cycle).Nodup := by
  have hgeneral : ∀ left xs a, Path next first xs a → xs.Nodup → bound < xs.length + left →
      (∃ e xs, Walk next stops e first xs) ∨
        ∃ tail a cycle, Path next first tail a ∧ Cycle next a cycle ∧ (tail ++ cycle).Nodup := by
    intro left
    induction left with
    | zero =>
      intro xs a hpath hnodup hmore
      have hle := hbound xs a hpath hnodup
      omega
    | succ left ih =>
      intro xs a hpath hnodup hmore
      by_cases hmem : a ∈ xs
      · obtain ⟨tail, rest, rfl⟩ := List.append_of_mem hmem
        obtain ⟨m, htail, hcycle⟩ := hpath.split
        obtain rfl := hcycle.head
        exact Or.inr ⟨tail, m, m :: rest, htail,
          ⟨hcycle, by simp, (List.nodup_append.mp hnodup).2.1⟩, hnodup⟩
      · rcases hmoves a with ⟨e, hstop⟩ | ⟨b, hlink⟩
        · exact Or.inl ⟨e, xs ++ [a], hpath.walk (Walk.stop hstop)⟩
        · refine ih (xs ++ [a]) b (hpath.concat hlink) ?_ ?_
          · rw [List.nodup_append]
            refine ⟨hnodup, List.nodup_singleton a, ?_⟩
            intro x hx y hy heq
            rw [List.mem_singleton] at hy
            exact hmem (hy ▸ heq ▸ hx)
          · rw [List.length_append, List.length_singleton]
            omega
  exact hgeneral (bound + 1) [] first (Path.nil first) List.nodup_nil (by simp)

end AgentRelay.ChainWalk
