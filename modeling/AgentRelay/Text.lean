import Mathlib.Data.List.Infix
import Mathlib.Data.List.DropRight
import Mathlib.Tactic
import Std.Data.ExtTreeMap
import Std.Data.ExtTreeMap.Lemmas

/-! Strings as the two runtimes see them: Rust strings are sequences of Unicode
scalar values, JavaScript strings are sequences of UTF-16 code units. Tables and
sets keyed by strings stand for the hash and tree maps of the source, whose
iteration order no result depends on. -/
namespace AgentRelay

abbrev Table (V : Type) := Std.ExtTreeMap String V compare

abbrev StringSet := Table Unit

theorem Table.getElem?_filter {V : Type} (m : Table V) (f : String → V → Bool) (k : String) :
    (m.filter f)[k]? = m[k]?.filter (f k) := by
  simp [Std.ExtTreeMap.getElem?_filter]

theorem Table.getElem?_insert_of {V : Type} (m : Table V) (k a : String) (v : V) :
    (m.insert k v)[a]? = if a = k then some v else m[a]? := by
  simp only [Std.ExtTreeMap.getElem?_insert, Std.compare_eq_iff_eq, eq_comm (a := a)]

theorem Table.getElem?_erase_of {V : Type} (m : Table V) (k a : String) :
    (m.erase k)[a]? = if a = k then none else m[a]? := by
  simp only [Std.ExtTreeMap.getElem?_erase, Std.compare_eq_iff_eq, eq_comm (a := a)]

theorem Table.getElem?_insertIfNew_of {V : Type} (m : Table V) (k a : String) (v : V) :
    (m.insertIfNew k v)[a]? = if a = k then m[a]?.or (some v) else m[a]? := by
  simp only [Std.ExtTreeMap.getElem?_insertIfNew, Std.compare_eq_iff_eq,
    Std.ExtTreeMap.mem_iff_isSome_getElem?]
  by_cases h : a = k
  · subst h
    cases m[a]? <;> simp
  · rw [if_neg (fun hk => h hk.1.symm), if_neg h]

theorem Table.getElem?_modify_of {V : Type} (m : Table V) (k a : String) (f : V → V) :
    (m.modify k f)[a]? = if a = k then m[a]?.map f else m[a]? := by
  simp only [Std.ExtTreeMap.getElem?_modify, Std.compare_eq_iff_eq]
  by_cases h : k = a
  · subst h
    simp
  · rw [if_neg h, if_neg (Ne.symm h)]

theorem Table.values_eq {V : Type} (m : Table V) : m.values = m.toList.map (·.2) := by
  obtain ⟨⟨q⟩⟩ := m
  induction q using Quotient.ind with
  | _ t =>
    change t.inner.values = (Std.DTreeMap.Internal.Impl.Const.toList t.inner).map (·.2)
    rw [Std.DTreeMap.Internal.Impl.values_eq_map_snd,
      Std.DTreeMap.Internal.Impl.Const.toList_eq_toListModel_map]
    simp

theorem Table.mem_values {V : Type} {m : Table V} {v : V} :
    v ∈ m.values ↔ ∃ k : String, m[k]? = some v := by
  rw [Table.values_eq, List.mem_map]
  constructor
  · rintro ⟨⟨k, w⟩, hmem, rfl⟩
    exact ⟨k, Std.ExtTreeMap.mem_toList_iff_getElem?_eq_some.mp hmem⟩
  · rintro ⟨k, hk⟩
    exact ⟨(k, v), Std.ExtTreeMap.mem_toList_iff_getElem?_eq_some.mpr hk, rfl⟩

namespace Text

/-- The Unicode `White_Space` property, which Rust's `trim` uses. -/
def isWhitespace (c : Char) : Bool :=
  (9 ≤ c.toNat && c.toNat ≤ 13) || c.toNat = 0x20 || c.toNat = 0x85 || c.toNat = 0xA0
    || c.toNat = 0x1680 || (0x2000 ≤ c.toNat && c.toNat ≤ 0x200A) || c.toNat = 0x2028
    || c.toNat = 0x2029 || c.toNat = 0x202F || c.toNat = 0x205F || c.toNat = 0x3000

/-- `str::trim`. -/
def trim (s : String) : String :=
  String.ofList ((s.toList.dropWhile isWhitespace).rdropWhile isWhitespace)

/-- `str::to_ascii_lowercase`. -/
def toAsciiLowercase (s : String) : String := String.ofList (s.toList.map Char.toLower)

/-- `str::eq_ignore_ascii_case`. -/
def eqIgnoreAsciiCase (s t : String) : Bool := toAsciiLowercase s == toAsciiLowercase t

/-- `str::contains` with a string pattern. -/
def contains (s pattern : String) : Bool := decide (pattern.toList <:+: s.toList)

/-- `str::starts_with` with a string pattern. -/
def startsWith (s pattern : String) : Bool := decide (pattern.toList <+: s.toList)

/-- A JavaScript string: its UTF-16 code units. -/
abbrev JsString := List UInt16

/-- The one or two code units of a scalar value. -/
def utf16Char (c : Char) : JsString :=
  if c.toNat < 0x10000 then [c.toNat.toUInt16]
  else [(0xD800 + (c.toNat - 0x10000) / 0x400).toUInt16,
    (0xDC00 + (c.toNat - 0x10000) % 0x400).toUInt16]

/-- `str::encode_utf16`, which is also the string a JavaScript reader decodes. -/
def utf16 (s : String) : JsString := s.toList.flatMap utf16Char

@[simp] theorem utf16_empty : utf16 "" = [] := by simp [utf16]

@[simp] theorem utf16_append (s t : String) : utf16 (s ++ t) = utf16 s ++ utf16 t := by
  simp [utf16]

theorem utf16_prefix {s t : String} (h : s.toList <+: t.toList) : utf16 s <+: utf16 t := by
  obtain ⟨rest, hr⟩ := h
  exact ⟨rest.flatMap utf16Char, by simp [utf16, ← hr]⟩

theorem not_mem_of_mem_splitOn {α : Type*} [DecidableEq α] {separator : α} {xs piece : List α}
    (h : piece ∈ xs.splitOn separator) : separator ∉ piece := by
  induction xs generalizing piece with
  | nil =>
    rw [List.splitOn_nil, List.mem_singleton] at h
    simp [h]
  | cons x xs ih =>
    rw [List.splitOn_cons_eq_if_modifyHead] at h
    split_ifs at h with hseparator
    · rcases List.mem_cons.mp h with rfl | hrest
      · simp
      · exact ih hrest
    · cases hsplit : xs.splitOn separator with
      | nil => exact absurd hsplit (List.splitOn_ne_nil separator xs)
      | cons head rest =>
        rw [hsplit, List.modifyHead_cons] at h
        rw [hsplit] at ih
        have hx : x ≠ separator := by simpa using hseparator
        rcases List.mem_cons.mp h with rfl | hrest
        · have hhead : separator ∉ head := ih List.mem_cons_self
          simp [hhead, hx.symm]
        · exact ih (List.mem_cons_of_mem _ hrest)

theorem dropWhile_rdropWhile_dropWhile {α : Type*} (p : α → Bool) (l : List α) :
    ((l.dropWhile p).rdropWhile p).dropWhile p = (l.dropWhile p).rdropWhile p := by
  cases h : l.dropWhile p with
  | nil => simp [List.rdropWhile]
  | cons a as =>
    have ha : p a = false := by
      have := List.head_dropWhile_not p (l := l) (by simp [h])
      simpa [h] using this
    have hne : (a :: as).rdropWhile p ≠ [] := by
      intro he
      have := List.rdropWhile_eq_nil_iff.mp he a (by simp)
      simp [ha] at this
    obtain ⟨b, bs, hb⟩ := List.exists_cons_of_ne_nil hne
    have hpre := List.rdropWhile_prefix p (a :: as)
    rw [hb] at hpre ⊢
    obtain ⟨rfl, _⟩ := List.cons_prefix_cons.mp hpre
    simp [ha]

@[simp] theorem trim_trim (s : String) : trim (trim s) = trim s := by
  simp only [trim, String.toList_ofList, dropWhile_rdropWhile_dropWhile,
    List.rdropWhile_idempotent]

end Text

end AgentRelay
