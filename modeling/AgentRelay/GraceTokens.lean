import AgentRelay.ControlDurable

/-! Tokens in their grace window. A record is filed under its current token's hash and lists the
tokens rotated away from it, the latest last; here it is only known whose it is. -/
namespace AgentRelay.Control
open RecordTables Std
open AgentRelay.Relay (saturatingAdd)

section list
variable {previous : List SupersededToken} {rotatedHash : String} {now graceSecs : Nat}

theorem carrySuperseded_length :
    (carrySuperseded previous rotatedHash now graceSecs).length ≤ maxSupersededTokens := by
  simp only [carrySuperseded, List.length_drop]
  omega

theorem mem_carrySuperseded {token : SupersededToken}
    (h : token ∈ carrySuperseded previous rotatedHash now graceSecs) :
    token ∈ previous ∨ token = ⟨rotatedHash, saturatingAdd now graceSecs⟩ := by
  have hkept := List.mem_of_mem_drop h
  rcases List.mem_append.mp hkept with hold | hnew
  · exact Or.inl (List.mem_of_mem_filter hold)
  · exact Or.inr (List.mem_singleton.mp hnew)

theorem carrySuperseded_last (previous : List SupersededToken) (rotatedHash : String)
    (now graceSecs : Nat) : ∃ before, carrySuperseded previous rotatedHash now graceSecs =
      before ++ [⟨rotatedHash, saturatingAdd now graceSecs⟩] := by
  refine ⟨_, List.drop_append_of_le_length ?_⟩
  simp only [List.length_append, List.length_singleton, maxSupersededTokens]
  omega

theorem carrySuperseded_nodup (h : (previous.map (·.refreshTokenHash)).Nodup) :
    ((carrySuperseded previous rotatedHash now graceSecs).map (·.refreshTokenHash)).Nodup := by
  have hfilter := h.sublist (List.Sublist.map (·.refreshTokenHash)
    (List.filter_sublist (l := previous) (p := fun token =>
      decide (now < token.expiresAt ∧ token.refreshTokenHash ≠ rotatedHash))))
  refine List.Nodup.sublist (List.Sublist.map _ (List.drop_sublist _ _)) ?_
  rw [List.map_append, List.nodup_append]
  refine ⟨hfilter, by simp, ?_⟩
  intro hash hmem hash' hmem' heq
  obtain ⟨token, htoken, rfl⟩ := List.mem_map.mp hmem
  have hne := (of_decide_eq_true (List.mem_filter.mp htoken).2).2
  simp only [List.map_cons, List.map_nil, List.mem_singleton] at hmem'
  exact hne (heq.trans hmem')

/-- A token that is still valid stays over a rotation, unless fifteen later ones stay too. -/
theorem carrySuperseded_split (before later : List SupersededToken) (token : SupersededToken)
    (graceSecs : Nat) (hvalid : now < token.expiresAt)
    (hother : token.refreshTokenHash ≠ rotatedHash)
    (hlater : later.length + 1 < maxSupersededTokens) :
    ∃ before' later',
      carrySuperseded (before ++ token :: later) rotatedHash now graceSecs =
        before' ++ token :: later' ∧ later'.length ≤ later.length + 1 := by
  set keep : SupersededToken → Bool := fun token =>
    decide (now < token.expiresAt ∧ token.refreshTokenHash ≠ rotatedHash) with hkeep
  have htoken : keep token = true := decide_eq_true ⟨hvalid, hother⟩
  have hcarry : carrySuperseded (before ++ token :: later) rotatedHash now graceSecs =
      let kept := before.filter keep ++
        token :: (later.filter keep ++ [⟨rotatedHash, saturatingAdd now graceSecs⟩])
      kept.drop (kept.length - maxSupersededTokens) := by
    simp only [carrySuperseded, List.filter_append, List.filter_cons]
    rw [if_pos htoken, List.append_assoc, List.cons_append]
  have hlength : (later.filter keep).length ≤ later.length := List.length_filter_le _ _
  rw [hcarry]
  -- What is cut off is in front of the token.
  refine ⟨(before.filter keep).drop ((before.filter keep ++ token :: (later.filter keep ++
    [⟨rotatedHash, saturatingAdd now graceSecs⟩])).length - maxSupersededTokens),
    later.filter keep ++ [⟨rotatedHash, saturatingAdd now graceSecs⟩], ?_, ?_⟩
  · dsimp only
    rw [List.drop_append_of_le_length]
    simp only [List.length_append, List.length_cons, List.length_nil]
    omega
  · simp only [List.length_append, List.length_cons, List.length_nil]
    omega

end list

section bump
variable {tokenHash : String} {now graceSecs : Nat} {superseded : List SupersededToken}

theorem bump_hashes (tokenHash : String) (now graceSecs : Nat)
    (superseded : List SupersededToken) :
    (bumpSupersededExpiry tokenHash now graceSecs superseded).1.map (·.refreshTokenHash) =
      superseded.map (·.refreshTokenHash) := by
  induction superseded with
  | nil => rfl
  | cons token rest ih =>
    unfold bumpSupersededExpiry
    dsimp only
    split_ifs
    · rfl
    · rfl
    · rw [List.map_cons, List.map_cons, ih]

theorem bump_split (tokenHash : String) (now graceSecs : Nat)
    (before later : List SupersededToken) (token : SupersededToken) :
    ∃ before' expiresAt later',
      (bumpSupersededExpiry tokenHash now graceSecs (before ++ token :: later)).1 =
        before' ++ ⟨token.refreshTokenHash, expiresAt⟩ :: later' ∧
      later'.length = later.length ∧
      (expiresAt = token.expiresAt ∨
        token.refreshTokenHash = tokenHash ∧ now < token.expiresAt ∧
          token.expiresAt < expiresAt) := by
  induction before with
  | nil =>
    rw [List.nil_append]
    unfold bumpSupersededExpiry
    dsimp only
    split_ifs with hmatch hrenew
    · exact ⟨[], _, later, rfl, rfl, Or.inr ⟨hmatch.1, hmatch.2, hrenew.2⟩⟩
    · exact ⟨[], _, later, rfl, rfl, Or.inl rfl⟩
    · have hlength := congrArg List.length (bump_hashes tokenHash now graceSecs later)
      rw [List.length_map, List.length_map] at hlength
      exact ⟨[], _, _, rfl, hlength, Or.inl rfl⟩
  | cons first before ih =>
    rw [List.cons_append]
    unfold bumpSupersededExpiry
    dsimp only
    split_ifs
    · exact ⟨_ :: before, _, later, rfl, rfl, Or.inl rfl⟩
    · exact ⟨_ :: before, _, later, rfl, rfl, Or.inl rfl⟩
    · obtain ⟨before', expiresAt, later', hbump, hlength, hexpires⟩ := ih
      exact ⟨first :: before', expiresAt, later', by rw [hbump, List.cons_append], hlength,
        hexpires⟩

theorem mem_bump {token : SupersededToken}
    (h : token ∈ (bumpSupersededExpiry tokenHash now graceSecs superseded).1) :
    token ∈ superseded ∨ ∃ old ∈ superseded, old.refreshTokenHash = token.refreshTokenHash ∧
      old.refreshTokenHash = tokenHash ∧ now < old.expiresAt ∧
      old.expiresAt < token.expiresAt := by
  induction superseded with
  | nil => exact Or.inl h
  | cons first rest ih =>
    unfold bumpSupersededExpiry at h
    dsimp only at h
    split_ifs at h with hmatch hrenew
    · rcases List.mem_cons.mp h with rfl | hrest
      · exact Or.inr ⟨first, List.mem_cons_self, rfl, hmatch.1, hmatch.2, hrenew.2⟩
      · exact Or.inl (List.mem_cons_of_mem first hrest)
    · exact Or.inl h
    · rcases List.mem_cons.mp h with rfl | hrest
      · exact Or.inl List.mem_cons_self
      · rcases ih hrest with hold | ⟨old, hold, hfields⟩
        · exact Or.inl (List.mem_cons_of_mem first hold)
        · exact Or.inr ⟨old, List.mem_cons_of_mem first hold, hfields⟩

end bump

/-- Whose each record is and the tokens rotated away from it, by the hash of the current one. -/
abbrev Holdings (K : Type) := Table (K × List SupersededToken)

/-- What an operation is about to do with the tokens: which it draws and which it comes with,
whether it revokes, and its clock when it lets its caller in and when it makes its edit. -/
structure Intent where
  draws : String → Prop
  uses : String → Prop
  revokes : Prop
  authNow : Nat
  now : Nat
  graceSecs : Nat

namespace Holdings
variable {K : Type} {m n u : Holdings K} {owner : K} {tokenHash : String}
  {expiresAt later now graceSecs : Nat}

/-- The token was rotated away from a record of this owner, and is listed with this expiry; so
many were rotated away after it. -/
def Retired (m : Holdings K) (owner : K) (tokenHash : String) (expiresAt later : Nat) : Prop :=
  ∃ (k : String) (before after : List SupersededToken),
    m[k]? = some (owner, before ++ ⟨tokenHash, expiresAt⟩ :: after) ∧ after.length = later

def Listed (m : Holdings K) (tokenHash : String) (expiresAt : Nat) : Prop :=
  ∃ (k : String) (row : K × List SupersededToken),
    m[k]? = some row ∧ ⟨tokenHash, expiresAt⟩ ∈ row.2

/-- The token lets its holder in: it is the current one of a record, or listed and still valid. -/
def Opens (m : Holdings K) (tokenHash : String) (now : Nat) : Prop :=
  (m[tokenHash]?).isSome ∨ ∃ expiresAt, Listed m tokenHash expiresAt ∧ now < expiresAt

/-- The token is an owner's: the current one of its record, or listed there. -/
def Held (m : Holdings K) (owner : K) (tokenHash : String) : Prop :=
  ∃ (k : String) (row : K × List SupersededToken), m[k]? = some row ∧ row.1 = owner ∧
    (k = tokenHash ∨ tokenHash ∈ row.2.map (·.refreshTokenHash))

structure Free (m : Holdings K) (tokenHash : String) : Prop where
  current : m[tokenHash]? = none
  listed : ∀ (k : String) row, m[k]? = some row → ∀ token ∈ row.2,
    token.refreshTokenHash ≠ tokenHash

theorem Retired.opens (h : Retired m owner tokenHash expiresAt later) (hvalid : now < expiresAt) :
    Opens m tokenHash now := by
  obtain ⟨k, before, after, hk, -⟩ := h
  exact Or.inr ⟨expiresAt, ⟨k, _, hk, by simp⟩, hvalid⟩

theorem Opens.earlier {later : Nat} (hle : now ≤ later) (h : Opens m tokenHash later) :
    Opens m tokenHash now :=
  h.imp id fun ⟨expiresAt, hlisted, hvalid⟩ => ⟨expiresAt, hlisted, hle.trans_lt hvalid⟩

theorem Opens.held (h : Opens m tokenHash now) : ∃ owner, Held m owner tokenHash := by
  rcases h with hfiled | ⟨expiresAt, ⟨k, row, hk, hmem⟩, -⟩
  · obtain ⟨row, hrow⟩ := Option.isSome_iff_exists.mp hfiled
    exact ⟨row.1, tokenHash, row, hrow, rfl, Or.inl rfl⟩
  · exact ⟨row.1, k, row, hk, rfl, Or.inr (List.mem_map_of_mem hmem)⟩

theorem Free.not_held (h : Free m tokenHash) : ¬ Held m owner tokenHash := by
  rintro ⟨k, row, hk, -, rfl | hlisted⟩
  · exact absurd (h.current.symm.trans hk) (by simp)
  · obtain ⟨token, htoken, hsame⟩ := List.mem_map.mp hlisted
    exact h.listed k row hk token htoken hsame

theorem free_iff : Free m tokenHash ↔ m[tokenHash]? = none ∧
    ∀ entry ∈ m.toList, ∀ token ∈ entry.2.2, token.refreshTokenHash ≠ tokenHash := by
  constructor
  · rintro ⟨hcurrent, hlisted⟩
    refine ⟨hcurrent, fun ⟨k, row⟩ hmem => ?_⟩
    exact hlisted k row (ExtTreeMap.mem_toList_iff_getElem?_eq_some.mp hmem)
  · rintro ⟨hcurrent, hlisted⟩
    refine ⟨hcurrent, fun k row hk => ?_⟩
    exact hlisted (k, row) (ExtTreeMap.mem_toList_iff_getElem?_eq_some.mpr hk)

instance [DecidableEq K] : Decidable (Free m tokenHash) := decidable_of_iff _ free_iff.symm

/-- Lists are short and repeat nothing, no token is listed that is current, none in two places,
and no owner has two records. -/
structure Tidy (m : Holdings K) : Prop where
  short : ∀ (k : String) row, m[k]? = some row → row.2.length ≤ maxSupersededTokens
  nodup : ∀ (k : String) row, m[k]? = some row → (row.2.map (·.refreshTokenHash)).Nodup
  retired : ∀ (k : String) row, m[k]? = some row → ∀ token ∈ row.2,
    m[token.refreshTokenHash]? = none
  apart : ∀ (k l : String) row row' token token', m[k]? = some row → m[l]? = some row' →
    token ∈ row.2 → token' ∈ row'.2 → token.refreshTokenHash = token'.refreshTokenHash → k = l
  owners : UniqueBy (fun row => some row.1) m

theorem tidy_empty : Tidy (∅ : Holdings K) where
  short k row h := absurd h (by simp)
  nodup k row h := absurd h (by simp)
  retired k row h := absurd h (by simp)
  apart k l row row' token token' h := absurd h (by simp)
  owners := uniqueBy_empty _

theorem Tidy.owner_key (h : Tidy m) {k l : String} {row row' : K × List SupersededToken}
    (hk : m[k]? = some row) (hl : m[l]? = some row') (hsame : row.1 = row'.1) : k = l :=
  h.owners k l row row' row'.1 hk hl (congrArg some hsame) rfl

theorem Tidy.held_owner (h : Tidy m) {other : K} (hheld : Held m owner tokenHash)
    (hother : Held m other tokenHash) : owner = other := by
  obtain ⟨k, row, hk, rfl, hmem⟩ := hheld
  obtain ⟨l, row', hl, rfl, hmem'⟩ := hother
  suffices k = l by
    subst this
    rw [Option.some.inj (hk.symm.trans hl)]
  rcases hmem with rfl | hlisted <;> rcases hmem' with rfl | hlisted'
  · rfl
  · obtain ⟨token, htoken, rfl⟩ := List.mem_map.mp hlisted'
    exact absurd ((h.retired l row' hl token htoken).symm.trans hk) (by simp)
  · obtain ⟨token, htoken, rfl⟩ := List.mem_map.mp hlisted
    exact absurd ((h.retired k row hk token htoken).symm.trans hl) (by simp)
  · obtain ⟨token, htoken, rfl⟩ := List.mem_map.mp hlisted
    obtain ⟨token', htoken', hsame⟩ := List.mem_map.mp hlisted'
    exact h.apart k l row row' token token' hk hl htoken htoken' hsame.symm

theorem Tidy.opens_iff (h : Tidy m) (hretired : Retired m owner tokenHash expiresAt later)
    (now : Nat) : Opens m tokenHash now ↔ now < expiresAt := by
  refine ⟨fun hopens => ?_, hretired.opens⟩
  obtain ⟨k, before, after, hk, -⟩ := hretired
  rcases hopens with hfiled | ⟨other, ⟨l, row, hl, hmem⟩, hvalid⟩
  · rw [h.retired k _ hk ⟨tokenHash, expiresAt⟩ (by simp)] at hfiled
    exact absurd hfiled (by simp)
  · have hkl := h.apart k l _ row ⟨tokenHash, expiresAt⟩ _ hk hl (by simp) hmem rfl
    subst hkl
    rw [hk, Option.some.injEq] at hl
    subst hl
    have hsame := List.inj_on_of_nodup_map (h.nodup k _ hk) hmem
      (by simp : ⟨tokenHash, expiresAt⟩ ∈ before ++ ⟨tokenHash, expiresAt⟩ :: after) rfl
    rw [SupersededToken.mk.injEq] at hsame
    exact hsame.2 ▸ hvalid

theorem Tidy.of_rows (h : Tidy m) (hrows : ∀ (k : String) row, n[k]? = some row →
    ∃ row', m[k]? = some row' ∧ row'.1 = row.1 ∧
      row'.2.map (·.refreshTokenHash) = row.2.map (·.refreshTokenHash)) : Tidy n := by
  have hlisted : ∀ (k : String) row, n[k]? = some row → ∀ token ∈ row.2, ∃ row' token',
      m[k]? = some row' ∧ token' ∈ row'.2 ∧
        token'.refreshTokenHash = token.refreshTokenHash := by
    intro k row hk token htoken
    obtain ⟨row', hk', -, hhashes⟩ := hrows k row hk
    have hmem : token.refreshTokenHash ∈ row'.2.map (·.refreshTokenHash) := by
      rw [hhashes]
      exact List.mem_map_of_mem htoken
    obtain ⟨token', htoken', hsame⟩ := List.mem_map.mp hmem
    exact ⟨row', token', hk', htoken', hsame⟩
  constructor
  · intro k row hk
    obtain ⟨row', hk', -, hhashes⟩ := hrows k row hk
    have hlength := congrArg List.length hhashes
    rw [List.length_map, List.length_map] at hlength
    exact hlength ▸ h.short k row' hk'
  · intro k row hk
    obtain ⟨row', hk', -, hhashes⟩ := hrows k row hk
    exact hhashes ▸ h.nodup k row' hk'
  · intro k row hk token htoken
    obtain ⟨row', token', hk', htoken', hsame⟩ := hlisted k row hk token htoken
    have hnone := h.retired k row' hk' token' htoken'
    rw [hsame] at hnone
    rw [Option.eq_none_iff_forall_ne_some]
    intro other hother
    obtain ⟨other', hother', -⟩ := hrows _ other hother
    exact absurd (hnone.symm.trans hother') (by simp)
  · intro k l row row' token token' hk hl htoken htoken' hsame
    obtain ⟨row₁, token₁, hk₁, htoken₁, hsame₁⟩ := hlisted k row hk token htoken
    obtain ⟨row₂, token₂, hk₂, htoken₂, hsame₂⟩ := hlisted l row' hl token' htoken'
    exact h.apart k l row₁ row₂ token₁ token₂ hk₁ hk₂ htoken₁ htoken₂
      (hsame₁.trans (hsame.trans hsame₂.symm))
  · refine h.owners.of_rows fun k row hk => ?_
    obtain ⟨row', hk', howner, -⟩ := hrows k row hk
    exact ⟨row', hk', congrArg some howner⟩

theorem Tidy.insert (h : Tidy m) {superseded : List SupersededToken} (hnew : Free m tokenHash)
    (hshort : superseded.length ≤ maxSupersededTokens)
    (hnodup : (superseded.map (·.refreshTokenHash)).Nodup)
    (hfree : ∀ token ∈ superseded, token.refreshTokenHash ≠ tokenHash ∧
      Free m token.refreshTokenHash)
    (howner : ∀ (k : String) row, m[k]? = some row → row.1 ≠ owner) :
    Tidy (Std.ExtTreeMap.insert m tokenHash (owner, superseded) : Holdings K) := by
  have hrow : ∀ (k : String) row,
      (Std.ExtTreeMap.insert m tokenHash (owner, superseded) : Holdings K)[k]? = some row →
      k = tokenHash ∧ row = (owner, superseded) ∨ k ≠ tokenHash ∧ m[k]? = some row := by
    intro k row hk
    rw [Table.getElem?_insert_of] at hk
    split_ifs at hk with hkey
    · exact Or.inl ⟨hkey, (Option.some.inj hk).symm⟩
    · exact Or.inr ⟨hkey, hk⟩
  constructor
  · intro k row hk
    rcases hrow k row hk with ⟨-, rfl⟩ | ⟨-, hk⟩
    · exact hshort
    · exact h.short k row hk
  · intro k row hk
    rcases hrow k row hk with ⟨-, rfl⟩ | ⟨-, hk⟩
    · exact hnodup
    · exact h.nodup k row hk
  · intro k row hk token htoken
    rw [Table.getElem?_insert_of]
    rcases hrow k row hk with ⟨-, rfl⟩ | ⟨-, hk⟩
    · rw [if_neg (hfree token htoken).1]
      exact (hfree token htoken).2.current
    · rw [if_neg (hnew.listed k row hk token htoken)]
      exact h.retired k row hk token htoken
  · intro k l row row' token token' hk hl htoken htoken' hsame
    rcases hrow k row hk with ⟨hkey, rfl⟩ | ⟨-, hk'⟩ <;>
      rcases hrow l row' hl with ⟨hkey', rfl⟩ | ⟨-, hl'⟩
    · exact hkey.trans hkey'.symm
    · exact absurd hsame.symm ((hfree token htoken).2.listed l row' hl' token' htoken')
    · exact absurd hsame ((hfree token' htoken').2.listed k row hk' token htoken)
    · exact h.apart k l row row' token token' hk' hl' htoken htoken' hsame
  · refine h.owners.insert fun l row a hl hv hwa => ?_
    exact absurd (Option.some.inj (hwa.trans hv.symm)) (howner l row hl)

def renewed (m : Holdings K) (k tokenHash : String) (now graceSecs : Nat) : Holdings K :=
  match m[k]? with
  | none => m
  | some row =>
    ExtTreeMap.insert m k (row.1, (bumpSupersededExpiry tokenHash now graceSecs row.2).1)

theorem getElem?_renewed (m : Holdings K) (k tokenHash : String) (now graceSecs : Nat)
    (l : String) : (m.renewed k tokenHash now graceSecs)[l]? =
      (m[l]?).map fun row => (row.1,
        if l = k then (bumpSupersededExpiry tokenHash now graceSecs row.2).1 else row.2) := by
  unfold renewed
  cases hk : m[k]? with
  | none =>
    by_cases hl : l = k
    · rw [hl, hk]
      rfl
    · simp [hl]
  | some row =>
    rw [Table.getElem?_insert_of]
    split_ifs with hl
    · rw [hl, hk]
      rfl
    · simp

theorem Tidy.renewed (h : Tidy m) (k tokenHash : String) (now graceSecs : Nat) :
    Tidy (m.renewed k tokenHash now graceSecs) := by
  refine h.of_rows fun l row hl => ?_
  rw [getElem?_renewed, Option.map_eq_some_iff] at hl
  obtain ⟨row', hl', rfl⟩ := hl
  refine ⟨row', hl', rfl, ?_⟩
  dsimp only
  split_ifs
  · exact (bump_hashes tokenHash now graceSecs row'.2).symm
  · rfl

theorem Held.of_renewed {k hash : String}
    (h : Held (m.renewed k hash now graceSecs) owner tokenHash) : Held m owner tokenHash := by
  obtain ⟨l, row, hl, howner, hmem⟩ := h
  rw [getElem?_renewed, Option.map_eq_some_iff] at hl
  obtain ⟨row', hl', rfl⟩ := hl
  refine ⟨l, row', hl', howner, hmem.imp id fun hlisted => ?_⟩
  dsimp only at hlisted
  split_ifs at hlisted
  · rwa [bump_hashes] at hlisted
  · exact hlisted

theorem Held.renewed (h : Held m owner tokenHash) (k hash : String) (now graceSecs : Nat) :
    Held (m.renewed k hash now graceSecs) owner tokenHash := by
  obtain ⟨l, row, hl, howner, hmem⟩ := h
  have hl' := getElem?_renewed m k hash now graceSecs l
  rw [hl, Option.map_some] at hl'
  refine ⟨l, _, hl', howner, hmem.imp id fun hlisted => ?_⟩
  dsimp only
  split_ifs
  · rwa [bump_hashes]
  · exact hlisted

theorem Free.renewed (h : Free m tokenHash) (k hash : String) (now graceSecs : Nat) :
    Free (m.renewed k hash now graceSecs) tokenHash := by
  constructor
  · rw [getElem?_renewed, h.current]
    rfl
  · intro l row hl token htoken
    rw [getElem?_renewed, Option.map_eq_some_iff] at hl
    obtain ⟨row', hl', rfl⟩ := hl
    dsimp only at htoken
    split_ifs at htoken
    · have hmem := List.mem_map_of_mem (f := (·.refreshTokenHash)) htoken
      rw [bump_hashes] at hmem
      obtain ⟨token', htoken', hsame⟩ := List.mem_map.mp hmem
      exact hsame ▸ h.listed l row' hl' token' htoken'
    · exact h.listed l row' hl' token htoken

theorem Free.of_renewed {k hash : String} (h : Free (m.renewed k hash now graceSecs) tokenHash) :
    Free m tokenHash := by
  have hnone : ∀ owner, ¬ Held m owner tokenHash := fun owner hheld =>
    h.not_held (hheld.renewed k hash now graceSecs)
  constructor
  · rw [Option.eq_none_iff_forall_ne_some]
    intro row hrow
    exact hnone row.1 ⟨tokenHash, row, hrow, rfl, Or.inl rfl⟩
  · intro l row hl token htoken hsame
    exact hnone row.1 ⟨l, row, hl, rfl, Or.inr (hsame ▸ List.mem_map_of_mem htoken)⟩

theorem Retired.renewed (h : Retired m owner tokenHash expiresAt later) (k hash : String)
    (now graceSecs : Nat) : ∃ expiresAt',
      Retired (m.renewed k hash now graceSecs) owner tokenHash expiresAt' later ∧
        expiresAt ≤ expiresAt' := by
  obtain ⟨l, before, after, hl, hlater⟩ := h
  by_cases hlk : l = k
  · obtain ⟨before', expiresAt', after', hbump, hlength, hexpires⟩ := bump_split hash now
      graceSecs before after ⟨tokenHash, expiresAt⟩
    refine ⟨expiresAt', ⟨l, before', after', ?_, hlength.trans hlater⟩, ?_⟩
    · rw [getElem?_renewed, hl, Option.map_some, if_pos hlk, hbump]
    · rcases hexpires with heq | ⟨-, -, hlt⟩
      · exact heq.ge
      · exact hlt.le
  · refine ⟨expiresAt, ⟨l, before, after, ?_, hlater⟩, le_rfl⟩
    rw [getElem?_renewed, hl, Option.map_some, if_neg hlk]

theorem Listed.of_renewed {k hash : String}
    (h : Listed (m.renewed k hash now graceSecs) tokenHash expiresAt) :
    Listed m tokenHash expiresAt ∨ ∃ old, Listed m tokenHash old ∧ tokenHash = hash ∧
      now < old ∧ old < expiresAt := by
  obtain ⟨l, row, hl, hmem⟩ := h
  rw [getElem?_renewed, Option.map_eq_some_iff] at hl
  obtain ⟨row', hl', rfl⟩ := hl
  dsimp only at hmem
  split_ifs at hmem
  · rcases mem_bump hmem with hold | ⟨⟨oldHash, old⟩, hold, rfl, hmatch, hvalid, hlt⟩
    · exact Or.inl ⟨l, row', hl', hold⟩
    · exact Or.inr ⟨old, ⟨l, row', hl', hold⟩, hmatch, hvalid, hlt⟩
  · exact Or.inl ⟨l, row', hl', hmem⟩

variable [DecidableEq K]

def current (m : Holdings K) (owner : K) : Option String :=
  (m.toList.find? fun entry => entry.2.1 = owner).map (·.1)

theorem current_eq_none : m.current owner = none ↔
    ∀ (k : String) row, m[k]? = some row → row.1 ≠ owner := by
  simp only [current, Option.map_eq_none_iff, List.find?_eq_none, decide_eq_true_eq]
  constructor
  · intro h k row hk
    exact h (k, row) (ExtTreeMap.mem_toList_iff_getElem?_eq_some.mpr hk)
  · rintro h ⟨k, row⟩ hmem
    exact h k row (ExtTreeMap.mem_toList_iff_getElem?_eq_some.mp hmem)

theorem current_filed {k : String} (h : m.current owner = some k) :
    ∃ superseded, m[k]? = some (owner, superseded) := by
  obtain ⟨⟨l, row⟩, hfind, rfl⟩ := Option.map_eq_some_iff.mp h
  have howner : row.1 = owner := by simpa using List.find?_some hfind
  have hmem := ExtTreeMap.mem_toList_iff_getElem?_eq_some.mp (List.mem_of_find?_eq_some hfind)
  exact ⟨row.2, by rw [hmem, ← howner]⟩

theorem Tidy.current_eq (h : Tidy m) {k : String} {superseded : List SupersededToken}
    (hk : m[k]? = some (owner, superseded)) : m.current owner = some k := by
  cases hcurrent : m.current owner with
  | none => exact absurd rfl (current_eq_none.mp hcurrent k _ hk)
  | some l =>
    obtain ⟨superseded', hl⟩ := current_filed hcurrent
    rw [h.owner_key hl hk rfl]

theorem Retired.current (hm : Tidy m) (h : Retired m owner tokenHash expiresAt later) :
    ∃ k before after, m.current owner = some k ∧
      m[k]? = some (owner, before ++ ⟨tokenHash, expiresAt⟩ :: after) ∧ after.length = later := by
  obtain ⟨k, before, after, hk, hlater⟩ := h
  exact ⟨k, before, after, hm.current_eq hk, hk, hlater⟩

/-- What may become of the retired tokens of each owner: one stays, its expiry no earlier and one
more behind it at each rotation, unless the record is gone or, at a rotation, it had expired or
had as many behind it as a list has room for. -/
def Stays (now : Nat) (m n : Holdings K) : Prop :=
  ∀ owner tokenHash expiresAt later, Retired m owner tokenHash expiresAt later →
    (∃ expiresAt' later', Retired n owner tokenHash expiresAt' later' ∧ expiresAt ≤ expiresAt' ∧
      later' ≤ later + if m.current owner = n.current owner then 0 else 1) ∨
    n.current owner = none ∨
    m.current owner ≠ n.current owner ∧ (expiresAt ≤ now ∨ maxSupersededTokens ≤ later + 1)

/-- An owner keeps its current token, or is revoked, or has a drawn one and the token it had
retired for the whole grace. -/
def Rotates (i : Intent) (m n : Holdings K) : Prop :=
  ∀ owner, n.current owner = m.current owner ∨ n.current owner = none ∧ i.revokes ∨
    (∃ k, n.current owner = some k ∧ i.draws k) ∧
      ∀ k ∈ m.current owner, Retired n owner k (saturatingAdd i.now i.graceSecs) 0

structure Edited (i : Intent) (m n : Holdings K) : Prop where
  tidy : Tidy n
  keys : ∀ k : String, (n[k]?).isSome → (m[k]?).isSome ∨ i.draws k
  listed : ∀ tokenHash expiresAt, Listed n tokenHash expiresAt →
    Listed m tokenHash expiresAt ∨
      (m[tokenHash]?).isSome ∧ expiresAt = saturatingAdd i.now i.graceSecs
  held : ∀ owner tokenHash, Held n owner tokenHash → Held m owner tokenHash ∨ Free m tokenHash
  rotates : Rotates i m n
  stays : Stays i.now m n

variable {i : Intent}

theorem Edited.refl (h : Tidy m) : Edited i m m where
  tidy := h
  keys k hk := Or.inl hk
  listed tokenHash expiresAt hlisted := Or.inl hlisted
  held owner tokenHash hheld := Or.inl hheld
  rotates owner := Or.inl rfl
  stays owner tokenHash expiresAt later hretired :=
    Or.inl ⟨expiresAt, later, hretired, le_rfl, by simp⟩

theorem Edited.drop (h : Tidy m) (hrevokes : i.revokes)
    (hrows : ∀ (k : String) row, n[k]? = some row → m[k]? = some row) : Edited i m n where
  tidy := h.of_rows fun k row hk => ⟨row, hrows k row hk, rfl, rfl⟩
  keys k hk := by
    obtain ⟨row, hrow⟩ := Option.isSome_iff_exists.mp hk
    exact Or.inl (hrows k row hrow ▸ rfl)
  listed tokenHash expiresAt hlisted := by
    obtain ⟨k, row, hk, hmem⟩ := hlisted
    exact Or.inl ⟨k, row, hrows k row hk, hmem⟩
  held owner tokenHash hheld := by
    obtain ⟨k, row, hk, hrest⟩ := hheld
    exact Or.inl ⟨k, row, hrows k row hk, hrest⟩
  rotates owner := by
    cases hcurrent : n.current owner with
    | none => exact Or.inr (Or.inl ⟨rfl, hrevokes⟩)
    | some k =>
      obtain ⟨superseded, hk⟩ := current_filed hcurrent
      exact Or.inl (h.current_eq (hrows k _ hk)).symm
  stays owner tokenHash expiresAt later hretired := by
    cases hcurrent : n.current owner with
    | none => exact Or.inr (Or.inl rfl)
    | some l =>
      obtain ⟨superseded, hl⟩ := current_filed hcurrent
      obtain ⟨k, before, after, hk, hlater⟩ := hretired
      have hm := hrows l _ hl
      have hkl : k = l := h.owner_key hk hm rfl
      subst hkl
      have hsame := Option.some.inj (hk.symm.trans hm)
      refine Or.inl ⟨expiresAt, later, ⟨k, before, after, hl.trans ?_, hlater⟩, le_rfl, by simp⟩
      rw [hsame]

section replace
variable {rest : Holdings K} {newHash : String} {superseded : List SupersededToken}

/-- An owner's record is replaced, or made, under a hash that stood nowhere. -/
theorem Edited.insert (h : Tidy m)
    (hrest : ∀ (k : String) row, rest[k]? = some row ↔ m[k]? = some row ∧ row.1 ≠ owner)
    (hnew : Free m newHash) (hdraws : i.draws newHash)
    (htidy : Tidy (ExtTreeMap.insert rest newHash (owner, superseded) : Holdings K))
    (hlisted : ∀ token ∈ superseded, Listed m token.refreshTokenHash token.expiresAt ∨
      (m[token.refreshTokenHash]?).isSome ∧
        token.expiresAt = saturatingAdd i.now i.graceSecs)
    (hheld : ∀ token ∈ superseded, Held m owner token.refreshTokenHash)
    (hlast : ∀ k ∈ m.current owner, ∃ before,
      superseded = before ++ [⟨k, saturatingAdd i.now i.graceSecs⟩])
    (hstays : ∀ tokenHash expiresAt later, Retired m owner tokenHash expiresAt later →
      (∃ before after, superseded = before ++ ⟨tokenHash, expiresAt⟩ :: after ∧
        after.length ≤ later + 1) ∨ expiresAt ≤ i.now ∨ maxSupersededTokens ≤ later + 1) :
    Edited i m (ExtTreeMap.insert rest newHash (owner, superseded)) := by
  have hrow : ∀ (k : String) row,
      (ExtTreeMap.insert rest newHash (owner, superseded) : Holdings K)[k]? = some row →
      k = newHash ∧ row = (owner, superseded) ∨ k ≠ newHash ∧ m[k]? = some row := by
    intro k row hk
    rw [Table.getElem?_insert_of] at hk
    split_ifs at hk with hkey
    · exact Or.inl ⟨hkey, (Option.some.inj hk).symm⟩
    · exact Or.inr ⟨hkey, ((hrest k row).mp hk).1⟩
  have hfiled : (ExtTreeMap.insert rest newHash (owner, superseded) : Holdings K)[newHash]? =
      some (owner, superseded) := by simp
  have hkept : ∀ (k : String) row, m[k]? = some row → row.1 ≠ owner →
      (ExtTreeMap.insert rest newHash (owner, superseded) : Holdings K)[k]? = some row := by
    intro k row hk howner
    have hne : k ≠ newHash := by
      rintro rfl
      exact absurd (hnew.current.symm.trans hk) (by simp)
    rw [Table.getElem?_insert_of, if_neg hne, hrest]
    exact ⟨hk, howner⟩
  have hother : ∀ o, o ≠ owner →
      current (ExtTreeMap.insert rest newHash (owner, superseded) : Holdings K) o =
        m.current o := by
    intro o howner
    cases hcurrent : m.current o with
    | some k =>
      obtain ⟨listed, hk⟩ := current_filed hcurrent
      exact htidy.current_eq (hkept k _ hk howner)
    | none =>
      rw [current_eq_none] at hcurrent ⊢
      intro k row hk
      rcases hrow k row hk with ⟨-, rfl⟩ | ⟨-, hk⟩
      · exact Ne.symm howner
      · exact hcurrent k row hk
  refine ⟨htidy, ?_, ?_, ?_, ?_, ?_⟩
  · intro k hk
    obtain ⟨row, hk⟩ := Option.isSome_iff_exists.mp hk
    rcases hrow k row hk with ⟨rfl, -⟩ | ⟨-, hk⟩
    · exact Or.inr hdraws
    · exact Or.inl (hk ▸ rfl)
  · rintro tokenHash expiresAt ⟨k, row, hk, hmem⟩
    rcases hrow k row hk with ⟨-, rfl⟩ | ⟨-, hk⟩
    · exact hlisted _ hmem
    · exact Or.inl ⟨k, row, hk, hmem⟩
  · rintro o tokenHash ⟨k, row, hk, rfl, hmem⟩
    rcases hrow k row hk with ⟨rfl, rfl⟩ | ⟨-, hk⟩
    · rcases hmem with rfl | hmem
      · exact Or.inr hnew
      · obtain ⟨token, htoken, rfl⟩ := List.mem_map.mp hmem
        exact Or.inl (hheld token htoken)
    · exact Or.inl ⟨k, row, hk, rfl, hmem⟩
  · intro o
    by_cases howner : o = owner
    · subst howner
      refine Or.inr (Or.inr ⟨⟨newHash, htidy.current_eq hfiled, hdraws⟩, fun k hk => ?_⟩)
      obtain ⟨before, hlast⟩ := hlast k hk
      exact ⟨newHash, before, [], by rw [hfiled, hlast], rfl⟩
    · exact Or.inl (hother o howner)
  · intro o tokenHash expiresAt later hretired
    obtain ⟨k, before, after, hcurrent, hk, hlater⟩ := hretired.current h
    by_cases howner : o = owner
    · subst howner
      have hne : newHash ≠ k := by
        rintro rfl
        exact absurd (hnew.current.symm.trans hk) (by simp)
      have hmoved : m.current o ≠
          current (ExtTreeMap.insert rest newHash (o, superseded) : Holdings K) o := by
        rw [hcurrent, htidy.current_eq hfiled]
        exact fun heq => hne (Option.some.inj heq).symm
      rcases hstays tokenHash expiresAt later hretired with
        ⟨before', after', hsplit, hlength⟩ | hgone
      · refine Or.inl ⟨expiresAt, after'.length, ⟨newHash, before', after', ?_, rfl⟩, le_rfl, ?_⟩
        · rw [hfiled, hsplit]
        · rwa [if_neg hmoved]
      · exact Or.inr (Or.inr ⟨hmoved, hgone⟩)
    · refine Or.inl ⟨expiresAt, later, ⟨k, before, after, hkept k _ hk howner, hlater⟩, le_rfl, ?_⟩
      rw [hother o howner, if_pos rfl]
      exact le_rfl

theorem Edited.enrol (h : Tidy m) (hnew : Free m newHash) (hdraws : i.draws newHash)
    (howner : m.current owner = none) :
    Edited i m (ExtTreeMap.insert m newHash (owner, [])) := by
  have howner' := current_eq_none.mp howner
  apply Edited.insert h _ hnew hdraws
  · exact h.insert hnew (Nat.zero_le _) List.nodup_nil (by simp) howner'
  · simp
  · simp
  · simp [howner]
  · rintro tokenHash expiresAt later ⟨k, before, after, hk, -⟩
    exact absurd rfl (howner' k _ hk)
  · intro k row
    exact ⟨fun hk => ⟨hk, howner' k row hk⟩, And.left⟩

/-- A rotation: the record goes on under a new token, the old one last among the retired. -/
theorem Edited.rotate (h : Tidy m) {k : String} (hk : m[k]? = some (owner, superseded))
    (hrest : ∀ (l : String) row, rest[l]? = some row ↔ m[l]? = some row ∧ row.1 ≠ owner)
    (hnew : Free m newHash) (hdraws : i.draws newHash) :
    Edited i m (ExtTreeMap.insert rest newHash
      (owner, carrySuperseded superseded k i.now i.graceSecs)) := by
  have hne : k ≠ newHash := by
    rintro rfl
    exact absurd (hnew.current.symm.trans hk) (by simp)
  have hrestTidy : Tidy rest := h.of_rows fun l row hl =>
    ⟨row, ((hrest l row).mp hl).1, rfl, rfl⟩
  have hrestNone : ∀ l : String, m[l]? = none → rest[l]? = none := by
    intro l hl
    rw [Option.eq_none_iff_forall_ne_some]
    intro row hrow
    exact absurd (hl.symm.trans ((hrest l row).mp hrow).1) (by simp)
  apply Edited.insert h hrest hnew hdraws
  · apply hrestTidy.insert
    · exact ⟨hrestNone _ hnew.current, fun l row hl => hnew.listed l row ((hrest l row).mp hl).1⟩
    · exact carrySuperseded_length
    · exact carrySuperseded_nodup (h.nodup k _ hk)
    · intro token htoken
      rcases mem_carrySuperseded htoken with hold | rfl
      · refine ⟨hnew.listed k _ hk token hold, hrestNone _ (h.retired k _ hk token hold), ?_⟩
        intro l row hl token' htoken' hsame
        obtain ⟨hl, howner⟩ := (hrest l row).mp hl
        have hlk := h.apart l k row _ token' token hl hk htoken' hold hsame
        rw [hlk, hk] at hl
        exact howner (congrArg Prod.fst (Option.some.inj hl).symm)
      · refine ⟨hne, ?_, ?_⟩
        · rw [Option.eq_none_iff_forall_ne_some]
          intro row hrow
          obtain ⟨hrow, howner⟩ := (hrest k row).mp hrow
          exact howner (congrArg Prod.fst (Option.some.inj (hrow.symm.trans hk)))
        · intro l row hl token' htoken' hsame
          have hnone := h.retired l row ((hrest l row).mp hl).1 token' htoken'
          rw [hsame, hk] at hnone
          exact absurd hnone (by simp)
    · exact fun l row hl => ((hrest l row).mp hl).2
  · intro token htoken
    rcases mem_carrySuperseded htoken with hold | rfl
    · exact Or.inl ⟨k, _, hk, hold⟩
    · exact Or.inr ⟨by rw [hk]; rfl, rfl⟩
  · intro token htoken
    refine ⟨k, _, hk, rfl, ?_⟩
    rcases mem_carrySuperseded htoken with hold | rfl
    · exact Or.inr (List.mem_map_of_mem hold)
    · exact Or.inl rfl
  · intro l hl
    rw [h.current_eq hk, Option.mem_some_iff] at hl
    subst hl
    exact carrySuperseded_last superseded k i.now i.graceSecs
  · rintro tokenHash expiresAt later ⟨l, before, after, hl, hlater⟩
    have hlk := h.owner_key hl hk rfl
    subst hlk
    have hsplit := congrArg Prod.snd (Option.some.inj (hk.symm.trans hl))
    simp only at hsplit
    subst hsplit
    by_cases hvalid : i.now < expiresAt
    · by_cases hroom : after.length + 1 < maxSupersededTokens
      · have hother : tokenHash ≠ l := by
          rintro rfl
          have hnone := h.retired tokenHash _ hk ⟨tokenHash, expiresAt⟩ (by simp)
          exact absurd (hnone.symm.trans hk) (by simp)
        obtain ⟨before', after', hcarry, hlength⟩ := carrySuperseded_split before after
          ⟨tokenHash, expiresAt⟩ i.graceSecs hvalid hother hroom
        exact Or.inl ⟨before', after', hcarry, hlater ▸ hlength⟩
      · exact Or.inr (Or.inr (by omega))
    · exact Or.inr (Or.inl (by omega))

end replace

theorem Tidy.current_renewed (h : Tidy m) (k hash : String) (now graceSecs : Nat) (owner : K) :
    (m.renewed k hash now graceSecs).current owner = m.current owner := by
  cases hcurrent : m.current owner with
  | none =>
    rw [current_eq_none] at hcurrent ⊢
    intro l row hl
    rw [getElem?_renewed, Option.map_eq_some_iff] at hl
    obtain ⟨row', hl', rfl⟩ := hl
    exact hcurrent l row' hl'
  | some l =>
    obtain ⟨superseded, hl⟩ := current_filed hcurrent
    have hl' := getElem?_renewed m k hash now graceSecs l
    rw [hl, Option.map_some] at hl'
    exact (h.renewed k hash now graceSecs).current_eq hl'

structure Turns (i : Intent) (m n : Holdings K) : Prop where
  tidy : Tidy n
  keys : ∀ k : String, (n[k]?).isSome → (m[k]?).isSome ∨ i.draws k
  listed : ∀ tokenHash expiresAt, Listed n tokenHash expiresAt →
    Listed m tokenHash expiresAt ∨
    (m[tokenHash]?).isSome ∧ expiresAt = saturatingAdd i.now i.graceSecs ∨
    ∃ old, Listed m tokenHash old ∧ i.uses tokenHash ∧ i.authNow < old ∧ old < expiresAt
  held : ∀ owner tokenHash, Held n owner tokenHash → Held m owner tokenHash ∨ Free m tokenHash
  rotates : Rotates i m n
  stays : Stays i.now m n

theorem Edited.turns (h : Edited i m n) : Turns i m n where
  tidy := h.tidy
  keys := h.keys
  listed tokenHash expiresAt hlisted := (h.listed tokenHash expiresAt hlisted).imp id Or.inl
  held := h.held
  rotates := h.rotates
  stays := h.stays

theorem Edited.afterRenewal (hm : Tidy m) {k hash : String} (huses : i.uses hash)
    (h : Edited i (m.renewed k hash i.authNow i.graceSecs) n) : Turns i m n := by
  have hkeys : ∀ l : String,
      ((m.renewed k hash i.authNow i.graceSecs)[l]?).isSome = (m[l]?).isSome := by
    intro l
    rw [getElem?_renewed, Option.isSome_map]
  have hcurrent := hm.current_renewed k hash i.authNow i.graceSecs
  refine ⟨h.tidy, fun l hl => (h.keys l hl).imp (hkeys l ▸ ·) id, ?_, ?_, ?_, ?_⟩
  · intro tokenHash expiresAt hlisted
    rcases h.listed tokenHash expiresAt hlisted with hbefore | ⟨hfiled, hexpires⟩
    · rcases hbefore.of_renewed with hm | ⟨old, hold, rfl, hvalid, hlt⟩
      · exact Or.inl hm
      · exact Or.inr (Or.inr ⟨old, hold, huses, hvalid, hlt⟩)
    · exact Or.inr (Or.inl ⟨hkeys tokenHash ▸ hfiled, hexpires⟩)
  · intro owner tokenHash hheld
    exact (h.held owner tokenHash hheld).imp Held.of_renewed Free.of_renewed
  · intro owner
    rw [← hcurrent owner]
    exact h.rotates owner
  · intro owner tokenHash expiresAt later hretired
    obtain ⟨expiresAt', hretired', hle⟩ := hretired.renewed k hash i.authNow i.graceSecs
    have hcurrent := hcurrent owner
    rcases h.stays owner tokenHash expiresAt' later hretired' with
      ⟨last, later', hlast, hle', hlater⟩ | hgone | ⟨hrotated, hdropped⟩
    · exact Or.inl ⟨last, later', hlast, hle.trans hle', hcurrent ▸ hlater⟩
    · exact Or.inr (Or.inl hgone)
    · exact Or.inr (Or.inr ⟨hcurrent ▸ hrotated, hdropped.imp hle.trans id⟩)

theorem Turns.left (h : Turns i m n) (hm : Tidy m) (hheld : Held m owner tokenHash)
    (hgone : ¬ Held n owner tokenHash) (now : Nat) : ¬ Opens n tokenHash now := by
  intro hopens
  obtain ⟨other, hother⟩ := hopens.held
  rcases h.held other tokenHash hother with hbefore | hfree
  · exact hgone (hm.held_owner hheld hbefore ▸ hother)
  · exact hfree.not_held hheld

section run
variable {σ ω : Type} (step : σ → ω → σ) (view : σ → Holdings K) (intent : σ → ω → Intent)

/-- How often an owner's token changes in a run. -/
def rotations (owner : K) : σ → List ω → Nat
  | _, [] => 0
  | s, o :: os =>
    (if (view s).current owner = (view (step s o)).current owner then 0 else 1) +
      rotations owner (step s o) os

variable {step view intent} {s : σ} {ops : List ω}

/-- A retired token lasts through a run in which its record stays, it does not expire and not
too many tokens come to stand behind it. -/
theorem Retired.run
    (h : StepRun.Along step (fun s o => Turns (intent s o) (view s) (view (step s o))) s ops)
    (hretired : Retired (view s) owner tokenHash expiresAt later)
    (hroom : later + rotations step view owner s ops < maxSupersededTokens)
    (hkept : StepRun.Always step (fun s => (view s).current owner ≠ none) s ops)
    (hnow : StepRun.Along step (fun s o => (intent s o).now < expiresAt) s ops) :
    ∃ expiresAt' later',
      Retired (view (StepRun.run step s ops)) owner tokenHash expiresAt' later' ∧
        expiresAt ≤ expiresAt' := by
  induction ops generalizing s expiresAt later with
  | nil => exact ⟨expiresAt, later, hretired, le_rfl⟩
  | cons o os ih =>
    simp only [rotations] at hroom
    rcases h.1.stays owner tokenHash expiresAt later hretired with
      ⟨expiresAt', later', hretired', hle, hlater⟩ | hgone | ⟨hrotated, hexpired | hfull⟩
    · obtain ⟨last, later'', hlast, hle'⟩ := ih h.2 hretired' (by omega) hkept.2
        (hnow.2.mono fun s o ho => ho.trans_le hle)
      exact ⟨last, later'', hlast, hle.trans hle'⟩
    · exact absurd hgone hkept.2.head
    · exact absurd hnow.1 (by omega)
    · rw [if_neg hrotated] at hroom
      omega

/-- A token that no longer lets anybody in does not do so again, unless it is drawn anew. -/
theorem Turns.closed (h : Turns i m n) (hclosed : ¬ Opens m tokenHash now)
    (hnow : now ≤ i.authNow) (hdraws : ¬ i.draws tokenHash) :
    ¬ Opens n tokenHash now := by
  rintro (hfiled | ⟨expiresAt, hlisted, hvalid⟩)
  · rcases h.keys tokenHash hfiled with hbefore | hdrawn
    · exact hclosed (Or.inl hbefore)
    · exact hdraws hdrawn
  · rcases h.listed tokenHash expiresAt hlisted with hbefore | ⟨hfiled, -⟩ |
      ⟨old, hold, -, hauth, -⟩
    · exact hclosed (Or.inr ⟨expiresAt, hbefore, hvalid⟩)
    · exact hclosed (Or.inl hfiled)
    · exact hclosed (Or.inr ⟨old, hold, hnow.trans_lt hauth⟩)

theorem closed_run
    (h : StepRun.Along step (fun s o => Turns (intent s o) (view s) (view (step s o))) s ops)
    (hclosed : ¬ Opens (view s) tokenHash now)
    (hops : StepRun.Along step
      (fun s o => now ≤ (intent s o).authNow ∧ ¬ (intent s o).draws tokenHash) s ops) :
    ¬ Opens (view (StepRun.run step s ops)) tokenHash now := by
  induction ops generalizing s with
  | nil => exact hclosed
  | cons o os ih => exact ih h.2 (h.1.closed hclosed hops.1.1 hops.1.2) hops.2

end run

end Holdings

end AgentRelay.Control
