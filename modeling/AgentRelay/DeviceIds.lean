import AgentRelay.DevicePairing
import Mathlib

/-! Ids of remote devices. The words of an id, its runs of letters and digits, are joined by
dashes, and what is longer than 48 characters is cut. -/
namespace AgentRelay.Relay
open Text

def isIdSeparator (character : Char) : Bool := character ∈ ['-', '_', ' ', '.']

/-- The words between separators; characters that are neither do not count. -/
def splitIdWords (input : List Char) : List (List Char) :=
  ((input.filter fun c => c.isAlphanum || isIdSeparator c).splitOnP isIdSeparator)

def idWords (value : String) : List (List Char) :=
  (splitIdWords (toAsciiLowercase (trim value)).toList).filter (· ≠ [])

def dashed (words : List (List Char)) : List Char := words.flatMap fun word => '-' :: word

def joinIdWords : List (List Char) → List Char
  | [] => []
  | word :: words => word ++ dashed words

/-- The first words take up 47 characters, so that the cut is right behind the next dash. -/
def CutAtDash (value : String) : Prop :=
  ∃ first rest, idWords value = first ++ rest ∧ first ≠ [] ∧ rest ≠ [] ∧
    (joinIdWords first).length = 47

/-- At most 48 characters, all of them small letters, digits or dashes, with no dash in front, at
the end or next to another. -/
structure IsDeviceId (id : String) : Prop where
  short : id.length ≤ 48
  characters : ∀ c ∈ id.toList, c.isLower ∨ c.isDigit ∨ c = '-'
  front : id.toList.head? ≠ some '-'
  back : id.toList.getLast? ≠ some '-'
  single : id.toList.IsChain fun c d => ¬(c = '-' ∧ d = '-')

section characters

theorem not_separator_of_alphanum {c : Char} (h : c.isAlphanum) : ¬isIdSeparator c := by
  intro hseparator
  simp only [isIdSeparator, decide_eq_true_eq, List.mem_cons, List.not_mem_nil, or_false]
    at hseparator
  obtain rfl | rfl | rfl | rfl := hseparator <;> exact absurd h (by decide)

theorem ne_dash_of_alphanum {c : Char} (h : c.isAlphanum) : c ≠ '-' := by
  rintro rfl
  exact absurd h (by decide)

theorem splitIdWords_alphanum {c : Char} (h : c.isAlphanum) (input : List Char) :
    splitIdWords (c :: input) = (splitIdWords input).modifyHead (c :: ·) := by
  rw [splitIdWords, List.filter_cons_of_pos (by simp [h]), List.splitOnP_cons_eq_if_modifyHead,
    if_neg (not_separator_of_alphanum h)]
  rfl

theorem splitIdWords_separator {c : Char} (h : isIdSeparator c) (input : List Char) :
    splitIdWords (c :: input) = [] :: splitIdWords input := by
  rw [splitIdWords, List.filter_cons_of_pos (by simp [h]), List.splitOnP_cons_eq_if_modifyHead,
    if_pos h]
  rfl

theorem splitIdWords_other {c : Char} (h : ¬c.isAlphanum) (hseparator : ¬isIdSeparator c)
    (input : List Char) : splitIdWords (c :: input) = splitIdWords input := by
  rw [splitIdWords, List.filter_cons_of_neg (by simp [h, hseparator])]
  rfl

theorem splitIdWords_ne_nil (input : List Char) : splitIdWords input ≠ [] :=
  List.splitOnP_ne_nil _ _

theorem alphanum_of_mem_splitIdWords {input word : List Char} (h : word ∈ splitIdWords input) :
    ∀ c ∈ word, c ∈ input ∧ c.isAlphanum := by
  intro c hc
  induction input generalizing word with
  | nil =>
    rw [List.mem_singleton.mp h] at hc
    cases hc
  | cons x input ih =>
    have hlater : ∀ {next}, next ∈ splitIdWords input → c ∈ next →
        c ∈ x :: input ∧ c.isAlphanum := by
      intro next hnext hmem
      obtain ⟨hinput, halphanum⟩ := ih hnext hmem
      exact ⟨List.mem_cons_of_mem x hinput, halphanum⟩
    by_cases halphanum : x.isAlphanum
    · rw [splitIdWords_alphanum halphanum] at h
      obtain ⟨next, rest, hnext⟩ := List.exists_cons_of_ne_nil (splitIdWords_ne_nil input)
      rw [hnext, List.modifyHead_cons, List.mem_cons] at h
      rw [hnext] at hlater
      obtain rfl | hrest := h
      · obtain rfl | hmem := List.mem_cons.mp hc
        · exact ⟨List.mem_cons_self, halphanum⟩
        · exact hlater List.mem_cons_self hmem
      · exact hlater (List.mem_cons_of_mem next hrest) hc
    · by_cases hseparator : isIdSeparator x
      · rw [splitIdWords_separator hseparator, List.mem_cons] at h
        obtain rfl | hrest := h
        · cases hc
        · exact hlater hrest hc
      · rw [splitIdWords_other halphanum hseparator] at h
        exact hlater h hc

theorem normalizeIdChar_alphanum {c : Char} (h : c.isAlphanum) (acc : List Char × Bool) :
    normalizeIdChar acc c = (acc.1 ++ [c], false) := by
  rw [normalizeIdChar, if_pos h]

theorem normalizeIdChar_separator {c : Char} (h : isIdSeparator c) (acc : List Char × Bool) :
    normalizeIdChar acc c = if ¬acc.2 ∧ acc.1 ≠ [] then (acc.1 ++ ['-'], true) else acc := by
  rw [isIdSeparator, decide_eq_true_eq] at h
  rw [normalizeIdChar, if_neg fun halphanum => not_separator_of_alphanum halphanum (by simpa
    [isIdSeparator] using h)]
  simp only [h, true_and]

theorem normalizeIdChar_other {c : Char} (h : ¬c.isAlphanum) (hseparator : ¬isIdSeparator c)
    (acc : List Char × Bool) : normalizeIdChar acc c = acc := by
  rw [isIdSeparator, decide_eq_true_eq] at hseparator
  rw [normalizeIdChar, if_neg h, if_neg fun hc => hseparator hc.1]

theorem rdropWhile_alphanum (out : List Char) {c : Char} (h : c.isAlphanum) :
    (out ++ [c]).rdropWhile (· = '-') = out ++ [c] :=
  List.rdropWhile_concat_neg _ _ _ (by simpa using ne_dash_of_alphanum h)

theorem dashed_cons_nil (words : List (List Char)) :
    dashed (([] :: words).filter (· ≠ [])) = dashed (words.filter (· ≠ [])) := rfl

theorem dashed_cons_cons (c : Char) (word : List Char) (words : List (List Char)) :
    dashed (((c :: word) :: words).filter (· ≠ [])) =
      '-' :: c :: word ++ dashed (words.filter (· ≠ [])) := rfl

/-- The fold joins the words by dashes: behind a letter it goes on with a word, behind a dash it
waits for one. -/
theorem foldl_normalizeIdChar (input : List Char) {word : List Char} {words : List (List Char)}
    (hwords : splitIdWords input = word :: words) {out : List Char} (hout : out ≠ [])
    (hend : out.rdropWhile (· = '-') = out) :
    (input.foldl normalizeIdChar (out, false)).1.rdropWhile (· = '-') =
        out ++ word ++ dashed (words.filter (· ≠ [])) ∧
      (input.foldl normalizeIdChar (out ++ ['-'], true)).1.rdropWhile (· = '-') =
        out ++ dashed ((word :: words).filter (· ≠ [])) := by
  induction input generalizing word words out with
  | nil =>
    obtain ⟨rfl, rfl⟩ := List.cons.inj hwords
    constructor
    · rw [List.foldl_nil, hend]
      simp [dashed]
    · rw [List.foldl_nil, List.rdropWhile_concat_pos _ _ _ (by simp), hend]
      simp [dashed]
  | cons c input ih =>
    rw [List.foldl_cons, List.foldl_cons]
    obtain ⟨next, rest, hnext⟩ := List.exists_cons_of_ne_nil (splitIdWords_ne_nil input)
    by_cases halphanum : c.isAlphanum
    · rw [splitIdWords_alphanum halphanum, hnext, List.modifyHead_cons] at hwords
      obtain ⟨rfl, rfl⟩ := List.cons.inj hwords
      rw [normalizeIdChar_alphanum halphanum, normalizeIdChar_alphanum halphanum]
      have hgoes := (ih hnext (List.concat_ne_nil c out) (rdropWhile_alphanum out halphanum)).1
      have hstarts := (ih hnext (List.concat_ne_nil c (out ++ ['-']))
        (rdropWhile_alphanum (out ++ ['-']) halphanum)).1
      refine ⟨by simpa using hgoes, ?_⟩
      rw [dashed_cons_cons]
      simpa using hstarts
    · by_cases hseparator : isIdSeparator c
      · rw [splitIdWords_separator hseparator, hnext] at hwords
        obtain ⟨rfl, rfl⟩ := List.cons.inj hwords
        rw [normalizeIdChar_separator hseparator, normalizeIdChar_separator hseparator,
          if_pos ⟨Bool.false_ne_true, hout⟩, if_neg (by simp), dashed_cons_nil, List.append_nil]
        have hwaits := (ih hnext hout hend).2
        exact ⟨hwaits, hwaits⟩
      · rw [splitIdWords_other halphanum hseparator] at hwords
        rw [normalizeIdChar_other halphanum hseparator, normalizeIdChar_other halphanum hseparator]
        exact ih hwords hout hend

theorem foldl_normalizeIdChar_nil (input : List Char) :
    (input.foldl normalizeIdChar ([], false)).1.rdropWhile (· = '-') =
      joinIdWords ((splitIdWords input).filter (· ≠ [])) := by
  induction input with
  | nil => rfl
  | cons c input ih =>
    rw [List.foldl_cons]
    by_cases halphanum : c.isAlphanum
    · obtain ⟨next, rest, hnext⟩ := List.exists_cons_of_ne_nil (splitIdWords_ne_nil input)
      rw [normalizeIdChar_alphanum halphanum, splitIdWords_alphanum halphanum, hnext]
      exact (foldl_normalizeIdChar input hnext (List.concat_ne_nil c [])
        (rdropWhile_alphanum [] halphanum)).1
    · by_cases hseparator : isIdSeparator c
      · rw [normalizeIdChar_separator hseparator, splitIdWords_separator hseparator,
          if_neg (by simp), ih]
        rfl
      · rw [normalizeIdChar_other halphanum hseparator, splitIdWords_other halphanum hseparator, ih]

end characters

theorem normalizeRemoteDeviceId_eq (value : String) :
    normalizeRemoteDeviceId (some value) =
      if idWords value = [] then none
      else some (String.ofList ((joinIdWords (idWords value)).take 48)) := by
  have hnil : joinIdWords (idWords value) = [] ↔ idWords value = [] := by
    constructor
    · intro h
      cases hwords : idWords value with
      | nil => rfl
      | cons word words =>
        have hword : word ∈ idWords value := hwords ▸ List.mem_cons_self
        rw [hwords, joinIdWords, List.append_eq_nil_iff] at h
        have := (List.mem_filter.mp hword).2
        simp [h.1] at this
    · intro h
      rw [h, joinIdWords]
  simp only [normalizeRemoteDeviceId, Option.bind_some, foldl_normalizeIdChar_nil]
  exact if_congr hnil rfl rfl

section words
variable {words : List (List Char)}

theorem dashed_append (first rest : List (List Char)) :
    dashed (first ++ rest) = dashed first ++ dashed rest := List.flatMap_append

theorem getElem?_dashed (hwords : ∀ word ∈ words, word ≠ [] ∧ ∀ c ∈ word, c ≠ '-') (n : ℕ) :
    (dashed words)[n]? = some '-' ↔
      ∃ first rest, words = first ++ rest ∧ rest ≠ [] ∧ (dashed first).length = n := by
  induction words generalizing n with
  | nil => simp [dashed]
  | cons word words ih =>
    obtain ⟨-, hword⟩ := hwords word List.mem_cons_self
    have hrest := fun n => ih (fun w hw => hwords w (List.mem_cons_of_mem word hw)) n
    have hdashed : dashed (word :: words) = '-' :: word ++ dashed words := rfl
    constructor
    · intro h
      obtain rfl | hpos := Nat.eq_zero_or_pos n
      · exact ⟨[], word :: words, rfl, List.cons_ne_nil word words, rfl⟩
      obtain hinside | hbehind := Nat.lt_or_ge n ('-' :: word).length
      · -- inside the word there is no dash
        rw [hdashed, List.getElem?_append_left hinside, List.getElem?_cons, if_neg hpos.ne'] at h
        exact absurd rfl (hword '-' (List.mem_of_getElem? h))
      · rw [hdashed, List.getElem?_append_right hbehind, hrest] at h
        obtain ⟨first, rest, rfl, hne, hlength⟩ := h
        refine ⟨word :: first, rest, rfl, hne, ?_⟩
        rw [show dashed (word :: first) = '-' :: word ++ dashed first from rfl, List.length_append,
          hlength]
        omega
    · rintro ⟨first, rest, heq, hne, rfl⟩
      cases first with
      | nil => rfl
      | cons first firsts =>
        obtain ⟨rfl, rfl⟩ := List.cons.inj heq
        rw [hdashed, show dashed (word :: firsts) = '-' :: word ++ dashed firsts from rfl,
          List.length_append, List.getElem?_append_right (Nat.le_add_right _ _),
          Nat.add_sub_cancel_left, hrest]
        exact ⟨firsts, rest, rfl, hne, rfl⟩

theorem getElem?_joinIdWords (hwords : ∀ word ∈ words, word ≠ [] ∧ ∀ c ∈ word, c ≠ '-') (n : ℕ) :
    (joinIdWords words)[n]? = some '-' ↔
      ∃ first rest, words = first ++ rest ∧ first ≠ [] ∧ rest ≠ [] ∧
        (joinIdWords first).length = n := by
  cases words with
  | nil => simp [joinIdWords]
  | cons word words =>
    obtain ⟨-, hword⟩ := hwords word List.mem_cons_self
    have hrest := getElem?_dashed fun w hw => hwords w (List.mem_cons_of_mem word hw)
    rw [joinIdWords]
    constructor
    · intro h
      obtain hinside | hbehind := Nat.lt_or_ge n word.length
      · rw [List.getElem?_append_left hinside] at h
        exact absurd rfl (hword '-' (List.mem_of_getElem? h))
      · rw [List.getElem?_append_right hbehind, hrest] at h
        obtain ⟨first, rest, rfl, hne, hlength⟩ := h
        refine ⟨word :: first, rest, rfl, List.cons_ne_nil word first, hne, ?_⟩
        rw [joinIdWords, List.length_append, hlength]
        omega
    · rintro ⟨first, rest, heq, hfirst, hne, rfl⟩
      cases first with
      | nil => exact absurd rfl hfirst
      | cons first firsts =>
        obtain ⟨rfl, rfl⟩ := List.cons.inj heq
        rw [joinIdWords, List.length_append, List.getElem?_append_right (Nat.le_add_right _ _),
          Nat.add_sub_cancel_left, hrest]
        exact ⟨firsts, rest, rfl, hne, rfl⟩

theorem isChain_dashed (hwords : ∀ word ∈ words, word ≠ [] ∧ ∀ c ∈ word, c ≠ '-') :
    (dashed words).IsChain fun c d => ¬(c = '-' ∧ d = '-') := by
  induction words with
  | nil => exact .nil
  | cons word words ih =>
    obtain ⟨hne, hword⟩ := hwords word List.mem_cons_self
    have hrest := ih fun w hw => hwords w (List.mem_cons_of_mem word hw)
    change ('-' :: (word ++ dashed words)).IsChain _
    rw [List.isChain_cons, List.isChain_append, List.head?_append_of_ne_nil _ hne]
    refine ⟨fun c hc h => hword c (List.mem_of_head? hc) h.2, ?_, hrest, ?_⟩
    · have hpairs : word.Pairwise fun c d => ¬(c = '-' ∧ d = '-') :=
        List.pairwise_of_forall_mem_list fun c hc d _ h => hword c hc h.1
      exact hpairs.isChain
    · exact fun c hc d _ h => hword c (List.mem_of_getLast? hc) h.1

theorem isChain_joinIdWords (hwords : ∀ word ∈ words, word ≠ [] ∧ ∀ c ∈ word, c ≠ '-') :
    (joinIdWords words).IsChain fun c d => ¬(c = '-' ∧ d = '-') := by
  cases words with
  | nil => exact .nil
  | cons word words =>
    -- one dash less than where every word has one
    exact (isChain_dashed hwords).tail

theorem head?_joinIdWords (hwords : ∀ word ∈ words, word ≠ [] ∧ ∀ c ∈ word, c ≠ '-') :
    (joinIdWords words).head? ≠ some '-' := by
  cases words with
  | nil => exact fun h => nomatch h
  | cons word words =>
    obtain ⟨hne, hword⟩ := hwords word List.mem_cons_self
    rw [joinIdWords, List.head?_append_of_ne_nil _ hne]
    exact fun h => hword '-' (List.mem_of_head? h) rfl

theorem getLast?_joinIdWords (hwords : ∀ word ∈ words, word ≠ [] ∧ ∀ c ∈ word, c ≠ '-') :
    (joinIdWords words).getLast? ≠ some '-' := by
  rw [List.getLast?_eq_getElem?]
  intro h
  obtain ⟨first, rest, rfl, hfirst, hrest, hlength⟩ := (getElem?_joinIdWords hwords _).mp h
  obtain ⟨word, first, rfl⟩ := List.exists_cons_of_ne_nil hfirst
  obtain ⟨next, rest, rfl⟩ := List.exists_cons_of_ne_nil hrest
  obtain ⟨hnext, -⟩ := hwords next (by simp)
  have := List.length_pos_iff.mpr hnext
  simp only [List.cons_append, joinIdWords, dashed_append, List.length_append] at hlength
  simp only [dashed, List.flatMap_cons, List.length_append, List.length_cons] at hlength
  omega

theorem mem_joinIdWords {c : Char} (hc : c ∈ joinIdWords words) :
    c = '-' ∨ ∃ word ∈ words, c ∈ word := by
  cases words with
  | nil => cases hc
  | cons word words =>
    rw [joinIdWords, List.mem_append, dashed, List.mem_flatMap] at hc
    obtain hc | ⟨next, hnext, hc⟩ := hc
    · exact .inr ⟨word, List.mem_cons_self, hc⟩
    · obtain rfl | hc := List.mem_cons.mp hc
      · exact .inl rfl
      · exact .inr ⟨next, List.mem_cons_of_mem word hnext, hc⟩

end words

section ids
variable {value id : String}

theorem isAlphanum_toLower {c : Char} (h : c.isAlphanum) : c.toLower.isAlphanum := by
  simp only [Char.toLower]
  split
  · next hupper =>
    simp only [ge_iff_le, UInt32.le_iff_toNat_le] at hupper
    have hlower : 97 ≤ (c.val.toNat + 32) % 2 ^ 32 ∧ (c.val.toNat + 32) % 2 ^ 32 ≤ 122 := by
      have : ('A'.val).toNat = 65 := rfl
      have : ('Z'.val).toNat = 90 := rfl
      omega
    simp only [Char.isAlphanum, Char.isAlpha, Char.isLower, Bool.or_eq_true, Bool.and_eq_true,
      decide_eq_true_eq, ge_iff_le, UInt32.le_iff_toNat_le, UInt32.toNat_add]
    exact .inl (.inr hlower)
  · exact h

theorem isLower_or_isDigit {c : Char} (h : c.toLower.isAlphanum) :
    c.toLower.isLower ∨ c.toLower.isDigit := by
  simpa [Char.isAlphanum, Char.isAlpha] using h

theorem toLower_eq_self {c : Char} (h : c.isLower ∨ c.isDigit ∨ c = '-') : c.toLower = c := by
  have hupper : ¬(c.val ≥ 'A'.val ∧ c.val ≤ 'Z'.val) := by
    obtain h | h | rfl := h
    · grind [Char.isLower]
    · grind [Char.isDigit]
    · decide
  rw [Char.toLower, dif_neg hupper]

theorem idWords_spec {word : List Char} (hword : word ∈ idWords value) :
    word ≠ [] ∧ ∀ c ∈ word, c.isLower ∨ c.isDigit := by
  obtain ⟨hsplit, hne⟩ := List.mem_filter.mp hword
  refine ⟨of_decide_eq_true hne, ?_⟩
  intro c hc
  obtain ⟨hinput, halphanum⟩ := alphanum_of_mem_splitIdWords hsplit c hc
  rw [toAsciiLowercase, String.toList_ofList, List.mem_map] at hinput
  obtain ⟨upper, -, rfl⟩ := hinput
  exact isLower_or_isDigit halphanum

theorem ne_dash_of_idWord {c : Char} (h : c.isLower ∨ c.isDigit) : c ≠ '-' := by
  rintro rfl
  exact absurd h (by decide)

theorem idWords_plain : ∀ word ∈ idWords value, word ≠ [] ∧ ∀ c ∈ word, c ≠ '-' := by
  intro word hword
  obtain ⟨hne, hchars⟩ := idWords_spec hword
  exact ⟨hne, fun c hc => ne_dash_of_idWord (hchars c hc)⟩

theorem getLast?_take_iff (words : List (List Char))
    (hwords : ∀ word ∈ words, word ≠ [] ∧ ∀ c ∈ word, c ≠ '-') :
    ((joinIdWords words).take 48).getLast? = some '-' ↔ (joinIdWords words)[47]? = some '-' := by
  obtain hshort | hlong := Nat.lt_or_ge 48 (joinIdWords words).length
  · rw [List.getLast?_eq_getElem?, List.length_take, min_eq_left hshort.le,
      List.getElem?_take_of_lt (by decide)]
  · rw [List.take_of_length_le hlong]
    refine iff_of_false (getLast?_joinIdWords hwords) fun h => getLast?_joinIdWords hwords ?_
    have hlength : (joinIdWords words).length = 48 :=
      Nat.le_antisymm hlong (List.getElem?_eq_some_iff.mp h).1
    rw [List.getLast?_eq_getElem?, hlength]
    exact h

/-- Joined words are an id once they are cut, unless the cut is behind a dash. -/
theorem isDeviceId_take_iff {words : List (List Char)}
    (hwords : ∀ word ∈ words, word ≠ [] ∧ ∀ c ∈ word, c.isLower ∨ c.isDigit) :
    IsDeviceId (String.ofList ((joinIdWords words).take 48)) ↔
      (joinIdWords words)[47]? ≠ some '-' := by
  have hplain : ∀ word ∈ words, word ≠ [] ∧ ∀ c ∈ word, c ≠ '-' := fun word hword =>
    ⟨(hwords word hword).1, fun c hc => ne_dash_of_idWord ((hwords word hword).2 c hc)⟩
  rw [Ne, ← getLast?_take_iff words hplain]
  constructor
  · intro hid
    simpa only [String.toList_ofList] using hid.back
  · intro hback
    constructor
    · rw [String.length_ofList]
      exact List.length_take_le 48 _
    · intro c hc
      rw [String.toList_ofList] at hc
      obtain rfl | ⟨word, hword, hmem⟩ := mem_joinIdWords (List.mem_of_mem_take hc)
      · exact .inr (.inr rfl)
      · exact ((hwords word hword).2 c hmem).imp_right .inl
    · rw [String.toList_ofList, List.head?_take, if_neg (by decide)]
      exact head?_joinIdWords hplain
    · rwa [String.toList_ofList]
    · rw [String.toList_ofList]
      exact (isChain_joinIdWords hplain).take 48

theorem isDeviceId_iff (h : normalizeRemoteDeviceId (some value) = some id) :
    IsDeviceId id ↔ ¬CutAtDash value := by
  rw [normalizeRemoteDeviceId_eq] at h
  split_ifs at h with hnil
  obtain rfl := Option.some.inj h
  rw [isDeviceId_take_iff fun word hword => idWords_spec hword, Ne,
    getElem?_joinIdWords idWords_plain]
  rfl

theorem foldl_copies {input : List Char} (hchars : ∀ c ∈ input, c.isAlphanum ∨ c = '-')
    (hfront : input.head? ≠ some '-') (hsingle : input.IsChain fun c d => ¬(c = '-' ∧ d = '-')) :
    input.foldl normalizeIdChar ([], false) = (input, decide (input.getLast? = some '-')) := by
  induction input using List.reverseRecOn with
  | nil => rfl
  | append_singleton input c ih =>
    rw [List.isChain_append] at hsingle
    obtain ⟨hchain, -, hpair⟩ := hsingle
    have hinput := fun d hd => hchars d (List.mem_append_left [c] hd)
    have hhead : input.head? ≠ some '-' := by
      cases input with
      | nil => exact fun h => nomatch h
      | cons d input => exact hfront
    rw [List.foldl_append, ih hinput hhead hchain, List.foldl_cons, List.foldl_nil,
      List.getLast?_concat]
    obtain halphanum | rfl := hchars c (List.mem_append_right input (List.mem_singleton_self c))
    · rw [normalizeIdChar_alphanum halphanum,
        decide_eq_false fun h => ne_dash_of_alphanum halphanum (Option.some.inj h)]
    · have hne : input ≠ [] := by
        rintro rfl
        exact hfront rfl
      have hlast : input.getLast? ≠ some '-' := fun h => hpair '-' h '-' rfl ⟨rfl, rfl⟩
      rw [normalizeIdChar_separator (by decide), if_pos ⟨by simpa using hlast, hne⟩]
      rfl

theorem isWhitespace_of_idChar {c : Char} (h : c.isLower ∨ c.isDigit ∨ c = '-') :
    isWhitespace c = false := by
  have hrange : 33 ≤ c.toNat ∧ c.toNat ≤ 122 := by
    obtain h | h | rfl := h
    · simp [Char.isLower, UInt32.le_iff_toNat_le] at h
      grind
    · simp [Char.isDigit, UInt32.le_iff_toNat_le] at h
      grind
    · decide
  simp [isWhitespace]
  omega

theorem trim_eq_self {text : String} (h : ∀ c ∈ text.toList, isWhitespace c = false) :
    trim text = text := by
  rw [trim, List.dropWhile_eq_self_iff.mpr, List.rdropWhile_eq_self_iff.mpr, String.ofList_toList]
  · exact fun hne => by simpa using h _ (List.getLast_mem hne)
  · exact fun hne => by simpa using h _ (List.getElem_mem hne)

theorem IsDeviceId.normalized (hid : IsDeviceId id) (hne : id ≠ "") :
    normalizeRemoteDeviceId (some id) = some id := by
  have hlower : toAsciiLowercase id = id := by
    rw [toAsciiLowercase, List.map_congr_left fun c hc => toLower_eq_self (hid.characters c hc)]
    simp
  have hchars : ∀ c ∈ id.toList, c.isAlphanum ∨ c = '-' := by
    intro c hc
    obtain h | h | rfl := hid.characters c hc
    · exact .inl (by simp [Char.isAlphanum, Char.isAlpha, h])
    · exact .inl (by simp [Char.isAlphanum, h])
    · exact .inr rfl
  have hend : id.toList.rdropWhile (· = '-') = id.toList := by
    rw [List.rdropWhile_eq_self_iff]
    intro hne hdash
    exact hid.back (by rw [List.getLast?_eq_some_getLast hne, of_decide_eq_true hdash])
  simp only [normalizeRemoteDeviceId, Option.bind_some]
  rw [trim_eq_self fun c hc => isWhitespace_of_idChar (hid.characters c hc), hlower,
    foldl_copies hchars hid.front hid.single, hend, if_neg (by simpa using hne),
    List.take_of_length_le (by rw [String.length_toList]; exact hid.short), String.ofList_toList]

theorem length_foldl_normalizeIdChar (input : List Char) (acc : List Char × Bool) :
    (input.foldl normalizeIdChar acc).1.length ≤ acc.1.length + input.length := by
  induction input generalizing acc with
  | nil => exact Nat.le_refl _
  | cons c input ih =>
    have hstep : (normalizeIdChar acc c).1.length ≤ acc.1.length + 1 := by
      rw [normalizeIdChar]
      split_ifs <;> simp
    have := ih (normalizeIdChar acc c)
    rw [List.foldl_cons, List.length_cons]
    omega

theorem length_joinIdWords (value : String) :
    (joinIdWords (idWords value)).length ≤ value.length := by
  rw [idWords, ← foldl_normalizeIdChar_nil]
  have hdrop := (List.rdropWhile_prefix (fun c => decide (c = '-'))
    ((toAsciiLowercase (trim value)).toList.foldl normalizeIdChar ([], false)).1).length_le
  have hfold := length_foldl_normalizeIdChar (toAsciiLowercase (trim value)).toList ([], false)
  have htrim : (toAsciiLowercase (trim value)).toList.length ≤ value.length := by
    have hleft := (List.dropWhile_suffix (l := value.toList) isWhitespace).length_le
    have hright := (List.rdropWhile_prefix isWhitespace
      (value.toList.dropWhile isWhitespace)).length_le
    rw [String.length_toList] at hleft
    rw [toAsciiLowercase, String.toList_ofList, List.length_map, trim, String.toList_ofList]
    omega
  rw [List.length_nil] at hfold
  omega

theorem normalizeRemoteDeviceId_ne_empty (h : normalizeRemoteDeviceId (some value) = some id) :
    id ≠ "" := by
  rintro rfl
  simp only [normalizeRemoteDeviceId, Option.bind_some] at h
  split_ifs at h with hnil
  have := congrArg String.toList (Option.some.inj h)
  rw [String.toList_ofList] at this
  simp [hnil] at this

theorem normalized_again_iff (h : normalizeRemoteDeviceId (some value) = some id) :
    normalizeRemoteDeviceId (some id) = some id ↔ ¬CutAtDash value := by
  have hwords := normalizeRemoteDeviceId_eq value
  rw [h] at hwords
  rw [← isDeviceId_iff h]
  constructor
  · intro hagain
    -- What is not longer than 48 characters is not cut.
    have hshort : id.length ≤ 48 := by
      split_ifs at hwords with hnil
      rw [Option.some.inj hwords, String.length_ofList]
      exact List.length_take_le 48 _
    rw [isDeviceId_iff hagain]
    rintro ⟨first, rest, heq, hfirst, hrest, hlength⟩
    have hdash : (joinIdWords (idWords id))[47]? = some '-' :=
      (getElem?_joinIdWords idWords_plain 47).mpr ⟨first, rest, heq, hfirst, hrest, hlength⟩
    refine getLast?_joinIdWords (idWords_plain : ∀ word ∈ idWords id, _) ?_
    have hjoined := length_joinIdWords id
    rw [← List.take_of_length_le (hjoined.trans hshort)]
    exact (getLast?_take_iff _ idWords_plain).mpr hdash
  · exact fun hid => hid.normalized (normalizeRemoteDeviceId_ne_empty h)

structure IsIdToken (idToken : String) : Prop where
  length : idToken.length = 8
  alphanum : ∀ c ∈ idToken.toList, c.isAlphanum

theorem IsIdToken.isDeviceId {idToken : String} (htoken : IsIdToken idToken) :
    IsDeviceId (SurfaceState.freshDeviceId idToken) := by
  let token := idToken.toList.map Char.toLower
  have hlength : token.length = 8 := by
    rw [List.length_map, String.length_toList, htoken.length]
  have hwords : ∀ word ∈ ["device".toList, token],
      word ≠ [] ∧ ∀ c ∈ word, c.isLower ∨ c.isDigit := by
    intro word hword
    rw [List.mem_cons, List.mem_singleton] at hword
    obtain rfl | rfl := hword
    · exact ⟨by decide, by simp⟩
    · refine ⟨List.ne_nil_of_length_pos (by omega), ?_⟩
      intro c hc
      obtain ⟨upper, hupper, rfl⟩ := List.mem_map.mp hc
      exact isLower_or_isDigit (isAlphanum_toLower (htoken.alphanum upper hupper))
  have hjoined : (joinIdWords ["device".toList, token]).length = 15 := by
    rw [show joinIdWords ["device".toList, token] = "device-".toList ++ token by
      simp [joinIdWords, dashed], List.length_append, hlength]
    rfl
  have hid := (isDeviceId_take_iff hwords).mpr (by
    rw [List.getElem?_eq_none (by omega)]
    exact fun h => nomatch h)
  rw [List.take_of_length_le (by omega)] at hid
  convert hid using 1
  rw [SurfaceState.freshDeviceId, toAsciiLowercase, ← String.toList_inj]
  simp [joinIdWords, dashed, token]

end ids

end AgentRelay.Relay
