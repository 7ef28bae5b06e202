import Mathlib.Data.List.Induction
import Mathlib.Data.List.Nodup
import Mathlib.Data.Set.Basic
import Mathlib.Logic.Function.Basic
import Mathlib.Tactic

/-! JSON as a parser hands it to a decoder: the entries of an object in the order of the document,
repeated ones included. Records with a closed set of fields and literals with a closed vocabulary
are read from it, and a document is accepted exactly when it has their shape. -/
namespace AgentRelay.Wire

inductive Json
  | null
  | bool (value : Bool)
  /-- A number without fraction and exponent. -/
  | integer (value : ℤ)
  | real (mantissa exponent : ℤ)
  | string (text : String)
  | array (items : List Json)
  | object (entries : List (String × Json))

inductive DeError (ε : Type)
  | invalidType
  | invalidLength (index : Nat)
  | unknownField (field : String) (expected : List String)
  | unknownVariant (variant : String) (expected : List String)
  | duplicateField (field : String)
  | missingField (field : String)
  | custom (cause : ε)
  deriving DecidableEq, Repr

structure Visitor (ε α : Type) where
  visitUnit : Except (DeError ε) α := .error .invalidType
  visitBool : Bool → Except (DeError ε) α := fun _ => .error .invalidType
  visitI64 : ℤ → Except (DeError ε) α := fun _ => .error .invalidType
  visitU64 : UInt64 → Except (DeError ε) α := fun _ => .error .invalidType
  visitF64 : Except (DeError ε) α := .error .invalidType
  visitStr : String → Except (DeError ε) α := fun _ => .error .invalidType
  visitSeq : List Json → Except (DeError ε) α := fun _ => .error .invalidType
  visitMap : List (String × Json) → Except (DeError ε) α := fun _ => .error .invalidType

variable {ε α β : Type}

/-- An integer that fits neither `u64` nor `i64` is handed over as a float. -/
def deserializeAny (visitor : Visitor ε α) : Json → Except (DeError ε) α
  | .null => visitor.visitUnit
  | .bool value => visitor.visitBool value
  | .integer value =>
    if 0 ≤ value then
      if value < 2 ^ 64 then visitor.visitU64 (UInt64.ofNat value.toNat) else visitor.visitF64
    else if -2 ^ 63 ≤ value then visitor.visitI64 value
    else visitor.visitF64
  | .real _ _ => visitor.visitF64
  | .string text => visitor.visitStr text
  | .array items => visitor.visitSeq items
  | .object entries => visitor.visitMap entries

def Accepts (result : Except (DeError ε) α) : Prop := ∃ value, result = .ok value

@[simp] theorem accepts_ok (value : α) : Accepts (.ok value : Except (DeError ε) α) := ⟨value, rfl⟩

@[simp] theorem accepts_pure (value : α) : Accepts (pure value : Except (DeError ε) α) := ⟨value, rfl⟩

@[simp] theorem not_accepts_error (e : DeError ε) : ¬ Accepts (.error e : Except (DeError ε) α) := by
  rintro ⟨value, h⟩
  exact absurd h (by simp)

theorem bind_eq_ok {result : Except (DeError ε) α} {next : α → Except (DeError ε) β} {value : β} :
    (result >>= next) = .ok value ↔ ∃ mid, result = .ok mid ∧ next mid = .ok value := by
  cases result with
  | error e => simp [bind, Except.bind]
  | ok mid => simp [bind, Except.bind]

theorem accepts_bind {result : Except (DeError ε) α} {next : α → Except (DeError ε) β} :
    Accepts (result >>= next) ↔ ∃ mid, result = .ok mid ∧ Accepts (next mid) := by
  unfold Accepts
  simp only [bind_eq_ok]
  constructor
  · rintro ⟨value, mid, hmid, hvalue⟩
    exact ⟨mid, hmid, value, hvalue⟩
  · rintro ⟨mid, hmid, value, hvalue⟩
    exact ⟨value, mid, hmid, hvalue⟩

theorem accepts_map {result : Except (DeError ε) α} {f : α → β} :
    Accepts (f <$> result) ↔ Accepts result := by
  cases result with
  | error e => simp [Functor.map, Except.map]
  | ok value => simp [Functor.map, Except.map]

/-- A type with a closed vocabulary: each value has a text of its own. -/
class Literals (α : Type) where
  values : List α
  text : α → String
  complete : ∀ a, a ∈ values
  distinct : (values.map text).Nodup

def vocabulary (α : Type) [Literals α] : List String :=
  (Literals.values (α := α)).map Literals.text

/-- The value with this text. -/
def readVariant (α : Type) [Literals α] (variant : String) : Except (DeError ε) α :=
  match (Literals.values (α := α)).find? (Literals.text · = variant) with
  | some value => .ok value
  | none => .error (.unknownVariant variant (vocabulary α))

/-- An enumeration without data is written as its text, or as an object from it to null. -/
def readEnum (α : Type) [Literals α] : Json → Except (DeError ε) α
  | .string variant => readVariant α variant
  | .object [(variant, value)] => do
    let found ← readVariant α variant
    match value with
    | .null => return found
    | _ => .error .invalidType
  | _ => .error .invalidType

def readBool : Json → Except (DeError ε) Bool
  | .bool value => .ok value
  | _ => .error .invalidType

def readUnsigned (bound : ℕ) (ofNat : ℕ → α) : Json → Except (DeError ε) α
  | .integer value =>
    if 0 ≤ value ∧ value < bound then .ok (ofNat value.toNat) else .error .invalidType
  | _ => .error .invalidType

def readU64 : Json → Except (DeError ε) UInt64 := readUnsigned (2 ^ 64) UInt64.ofNat

def readU32 : Json → Except (DeError ε) UInt32 := readUnsigned (2 ^ 32) UInt32.ofNat

def readOption (read : Json → Except (DeError ε) α) : Json → Except (DeError ε) (Option α)
  | .null => .ok none
  | json => some <$> read json

section Closed

variable [Literals α]

theorem text_injective : Function.Injective (Literals.text (α := α)) := by
  intro a b h
  exact List.inj_on_of_nodup_map (Literals.distinct (α := α)) (Literals.complete a)
    (Literals.complete b) h

theorem readVariant_eq {variant : String} {a : α} :
    (readVariant α variant : Except (DeError ε) α) = .ok a ↔ Literals.text a = variant := by
  unfold readVariant
  cases hfind : (Literals.values (α := α)).find? (Literals.text · = variant) with
  | none =>
    have hnone := List.find?_eq_none.mp hfind a (Literals.complete a)
    simp only [reduceCtorEq, false_iff]
    exact fun h => hnone (by simpa using h)
  | some found =>
    have htext : Literals.text found = variant := by simpa using List.find?_some hfind
    simp only [Except.ok.injEq]
    constructor
    · rintro rfl
      exact htext
    · intro h
      exact text_injective (htext.trans h.symm)

theorem accepts_readVariant {variant : String} :
    Accepts (readVariant α variant : Except (DeError ε) α) ↔ variant ∈ vocabulary α := by
  simp only [Accepts, readVariant_eq, vocabulary, List.mem_map]
  constructor
  · rintro ⟨a, rfl⟩
    exact ⟨a, Literals.complete a, rfl⟩
  · rintro ⟨a, -, rfl⟩
    exact ⟨a, rfl⟩

@[simp] theorem readVariant_text (a : α) :
    (readVariant α (Literals.text a) : Except (DeError ε) α) = .ok a :=
  readVariant_eq.mpr rfl

@[simp] theorem readEnum_text (a : α) :
    (readEnum α (.string (Literals.text a)) : Except (DeError ε) α) = .ok a :=
  readVariant_text a

def IsLiteral (literals : List String) (json : Json) : Prop :=
  ∃ literal ∈ literals, json = .string literal ∨ json = .object [(literal, .null)]

theorem accepts_readEnum {json : Json} :
    Accepts (readEnum α json : Except (DeError ε) α) ↔ IsLiteral (vocabulary α) json := by
  unfold readEnum IsLiteral
  split
  · simp [accepts_readVariant]
  · rename_i variant value
    rw [accepts_bind]
    constructor
    · rintro ⟨found, hfound, hvalue⟩
      refine ⟨variant, accepts_readVariant.mp ⟨found, hfound⟩, Or.inr ?_⟩
      cases value <;> first | rfl | exact absurd hvalue (not_accepts_error _)
    · rintro ⟨literal, hmem, hstring | hobject⟩
      · exact absurd hstring (by simp)
      · obtain ⟨rfl, rfl⟩ : variant = literal ∧ value = .null := by simpa using hobject
        obtain ⟨found, hfound⟩ := accepts_readVariant.mpr hmem
        exact ⟨found, hfound, accepts_ok found⟩
  · rename_i hstring hobject
    simp only [not_accepts_error, false_iff]
    rintro ⟨literal, -, rfl | rfl⟩
    · exact hstring literal rfl
    · exact hobject literal .null rfl

end Closed

def IsBool (json : Json) : Prop := ∃ value, json = .bool value

def IsUnsigned (bound : ℕ) (json : Json) : Prop :=
  ∃ value : ℤ, json = .integer value ∧ 0 ≤ value ∧ value < bound

theorem accepts_readBool {json : Json} :
    Accepts (readBool json : Except (DeError ε) Bool) ↔ IsBool json := by
  cases json <;> simp [readBool, IsBool]

theorem accepts_readUnsigned {bound : ℕ} {ofNat : ℕ → α} {json : Json} :
    Accepts (readUnsigned bound ofNat json : Except (DeError ε) α) ↔ IsUnsigned bound json := by
  cases json with
  | integer value =>
    simp only [readUnsigned]
    split_ifs with h
    · simp only [accepts_ok, true_iff]
      exact ⟨value, rfl, h⟩
    · simp only [not_accepts_error, false_iff]
      rintro ⟨other, heq, hother⟩
      exact h (Json.integer.inj heq ▸ hother)
  | _ => simp [readUnsigned, IsUnsigned]

theorem accepts_readU64 {json : Json} :
    Accepts (readU64 json : Except (DeError ε) UInt64) ↔ IsUnsigned (2 ^ 64) json :=
  accepts_readUnsigned

theorem accepts_readU32 {json : Json} :
    Accepts (readU32 json : Except (DeError ε) UInt32) ↔ IsUnsigned (2 ^ 32) json :=
  accepts_readUnsigned

theorem accepts_readOption {read : Json → Except (DeError ε) α} {json : Json} :
    Accepts (readOption read json) ↔ json = .null ∨ Accepts (read json) := by
  cases json <;> simp [readOption, accepts_map]

/-- How the numbers and flags of a message are written. -/
def ofU64 (value : UInt64) : Json := .integer value.toNat

def ofU32 (value : UInt32) : Json := .integer value.toNat

def ofOption (encode : α → Json) : Option α → Json
  | none => .null
  | some value => encode value

@[simp] theorem readBool_bool (value : Bool) :
    (readBool (.bool value) : Except (DeError ε) Bool) = .ok value := rfl

theorem readUnsigned_integer {bound : ℕ} {ofNat : ℕ → α} {value : ℕ} (h : value < bound) :
    (readUnsigned bound ofNat (.integer value) : Except (DeError ε) α) = .ok (ofNat value) := by
  have hbounds : 0 ≤ (value : ℤ) ∧ (value : ℤ) < bound := ⟨by omega, by exact_mod_cast h⟩
  simp only [readUnsigned]
  rw [if_pos hbounds, Int.toNat_natCast]

@[simp] theorem readU64_ofU64 (value : UInt64) :
    (readU64 (ofU64 value) : Except (DeError ε) UInt64) = .ok value :=
  (readUnsigned_integer value.toNat_lt).trans (by simp)

@[simp] theorem readU32_ofU32 (value : UInt32) :
    (readU32 (ofU32 value) : Except (DeError ε) UInt32) = .ok value :=
  (readUnsigned_integer value.toNat_lt).trans (by simp)

theorem readOption_ofOption {read : Json → Except (DeError ε) α} {encode : α → Json}
    (hread : ∀ value, read (encode value) = .ok value) (hnull : ∀ value, encode value ≠ .null)
    (value : Option α) : readOption read (ofOption encode value) = .ok value := by
  cases value with
  | none => rfl
  | some value =>
    have hmap : some <$> read (encode value) = .ok (some value) := by rw [hread]; rfl
    unfold ofOption readOption
    split
    · rename_i heq
      exact absurd heq (hnull value)
    · exact hmap

structure Record (ε : Type) (F : Type) (T : F → Type) where
  fields : List F
  name : F → String
  read : (f : F) → Json → Except (DeError ε) (T f)
  complete : ∀ f, f ∈ fields
  distinct : (fields.map name).Nodup

/-- What was read so far, field by field. -/
abbrev Slots {F : Type} (T : F → Type) := (f : F) → Option (T f)

namespace Record

variable {F : Type} {T : F → Type} [DecidableEq F] (r : Record ε F T)

def field (key : String) : Option F := r.fields.find? (r.name · = key)

def readField (s : Slots T) (f : F) (value : Json) : Except (DeError ε) (Slots T) :=
  if (s f).isSome then .error (.duplicateField (r.name f))
  else do
    let found ← r.read f value
    return Function.update s f (some found)

/-- One entry; `guard` may refuse its field before the value is looked at. -/
def readEntry (guard : Slots T → F → Except (DeError ε) Unit) (s : Slots T) (entry : String × Json) :
    Except (DeError ε) (Slots T) :=
  match r.field entry.1 with
  | none => .error (.unknownField entry.1 (r.fields.map r.name))
  | some f => do
    guard s f
    r.readField s f entry.2

def readEntries (guard : Slots T → F → Except (DeError ε) Unit) (entries : List (String × Json)) :
    Except (DeError ε) (Slots T) :=
  entries.foldlM (r.readEntry guard) fun _ => none

def unguarded (_ : Slots T) (_ : F) : Except (DeError ε) Unit := .ok ()

/-- A list gives the fields in order; those at the end that have a default may be left out. -/
def readItems (hasDefault : F → Bool) : List F → List Json → Slots T → Except (DeError ε) (Slots T)
  | [], [], s => .ok s
  | [], _ :: _, _ => .error (.invalidLength r.fields.length)
  | f :: fields, item :: items, s => do
    let found ← r.read f item
    readItems hasDefault fields items (Function.update s f (some found))
  | f :: fields, [], s =>
    if hasDefault f then readItems hasDefault fields [] s
    else .error (.invalidLength (r.fields.length - (f :: fields).length))

/-- A record is written as an object, and read from a list as well. -/
def readStruct (hasDefault : F → Bool) : Json → Except (DeError ε) (Slots T)
  | .array items => r.readItems hasDefault r.fields items fun _ => none
  | .object entries => r.readEntries unguarded entries
  | _ => .error .invalidType

def required (s : Slots T) (f : F) : Except (DeError ε) (T f) :=
  match s f with
  | some value => .ok value
  | none => .error (.missingField (r.name f))

variable {r} {entries : List (String × Json)} {s s' : Slots T} {f : F} {key : String}

omit [DecidableEq F] in
theorem name_injective : Function.Injective r.name := by
  intro f g h
  exact List.inj_on_of_nodup_map r.distinct (r.complete f) (r.complete g) h

omit [DecidableEq F] in
theorem field_eq : r.field key = some f ↔ r.name f = key := by
  unfold field
  constructor
  · intro h
    simpa using List.find?_some h
  · rintro rfl
    cases hfind : r.fields.find? (r.name · = r.name f) with
    | none =>
      have hnone := List.find?_eq_none.mp hfind f (r.complete f)
      simp at hnone
    | some g =>
      have hname : r.name g = r.name f := by simpa using List.find?_some hfind
      rw [r.name_injective hname]

theorem readField_eq {value : Json} : r.readField s f value = .ok s' ↔
    s f = none ∧ ∃ found, r.read f value = .ok found ∧ s' = Function.update s f (some found) := by
  unfold readField
  cases hslot : s f with
  | some old => simp
  | none =>
    simp only [Option.isSome_none, Bool.false_eq_true, if_false, true_and, bind_eq_ok]
    refine exists_congr fun found => and_congr_right fun _ => ?_
    exact ⟨fun h => (Except.ok.inj h).symm, fun h => h ▸ rfl⟩

theorem readEntry_eq {guard : Slots T → F → Except (DeError ε) Unit} {entry : String × Json} :
    r.readEntry guard s entry = .ok s' ↔ ∃ f, r.name f = entry.1 ∧ guard s f = .ok () ∧
      s f = none ∧ ∃ found, r.read f entry.2 = .ok found ∧
        s' = Function.update s f (some found) := by
  unfold readEntry
  cases hfield : r.field entry.1 with
  | none =>
    simp only [reduceCtorEq, false_iff]
    rintro ⟨f, hname, -⟩
    rw [field_eq.mpr hname] at hfield
    exact absurd hfield (by simp)
  | some f =>
    have hname := field_eq.mp hfield
    simp only [bind_eq_ok]
    constructor
    · rintro ⟨⟨⟩, hguard, hread⟩
      exact ⟨f, hname, hguard, readField_eq.mp hread⟩
    · rintro ⟨g, hg, hguard, hread⟩
      obtain rfl := r.name_injective (hname.trans hg.symm)
      exact ⟨(), hguard, readField_eq.mpr hread⟩

theorem readEntries_append {guard : Slots T → F → Except (DeError ε) Unit} {entry : String × Json} :
    r.readEntries guard (entries ++ [entry]) = .ok s' ↔
      ∃ s, r.readEntries guard entries = .ok s ∧ r.readEntry guard s entry = .ok s' := by
  unfold readEntries
  rw [List.foldlM_append, bind_eq_ok]
  refine exists_congr fun s => and_congr_right fun _ => ?_
  simp [List.foldlM]

variable (r) in
structure Holds (entries : List (String × Json)) (s : Slots T) : Prop where
  distinct : (entries.map Prod.fst).Nodup
  held : ∀ entry ∈ entries, ∃ f found, r.name f = entry.1 ∧ r.read f entry.2 = .ok found ∧
    s f = some found
  said : ∀ f, (s f).isSome → r.name f ∈ entries.map Prod.fst

/-- The run rule of the reader. -/
theorem readEntries_eq : r.readEntries unguarded entries = .ok s ↔ r.Holds entries s := by
  induction entries using List.reverseRecOn generalizing s with
  | nil =>
    constructor
    · intro h
      obtain rfl := Except.ok.inj h
      exact ⟨by simp, by simp, by simp⟩
    · intro h
      have hnone : s = fun _ => none := by
        funext f
        by_contra hne
        exact absurd (h.said f (Option.isSome_iff_ne_none.mpr hne)) (by simp)
      rw [hnone]
      rfl
  | append_singleton entries entry ih =>
    rw [readEntries_append]
    simp only [readEntry_eq]
    constructor
    · rintro ⟨s, hs, f, hname, -, hslot, found, hread, rfl⟩
      have hholds := ih.mp hs
      have hnew : entry.1 ∉ entries.map Prod.fst := by
        intro hmem
        obtain ⟨old, hold, hkey⟩ := List.mem_map.mp hmem
        obtain ⟨g, value, hg, -, hslot'⟩ := hholds.held old hold
        obtain rfl : g = f := r.name_injective (hg.trans (hkey.trans hname.symm))
        rw [hslot] at hslot'
        exact absurd hslot' (by simp)
      refine ⟨?_, ?_, ?_⟩
      · rw [List.map_append, List.map_cons, List.map_nil]
        exact hholds.distinct.append (List.nodup_singleton _) (by simpa using hnew)
      · intro old hold
        rcases List.mem_append.mp hold with hold | hlast
        · obtain ⟨g, value, hg, hvalue, hslot'⟩ := hholds.held old hold
          have hne : g ≠ f := by
            rintro rfl
            rw [hslot] at hslot'
            exact absurd hslot' (by simp)
          exact ⟨g, value, hg, hvalue, by rw [Function.update_of_ne hne, hslot']⟩
        · obtain rfl := List.mem_singleton.mp hlast
          exact ⟨f, found, hname, hread, by rw [Function.update_self]⟩
      · intro g hsome
        rw [List.map_append, List.mem_append]
        by_cases hne : g = f
        · rw [hne, hname]
          exact Or.inr (by simp)
        · rw [Function.update_of_ne hne] at hsome
          exact Or.inl (hholds.said g hsome)
    · intro hholds
      obtain ⟨f, found, hname, hread, hslot⟩ := hholds.held entry (by simp)
      have hdistinct := hholds.distinct
      rw [List.map_append, List.map_cons, List.map_nil, List.nodup_append] at hdistinct
      have hnew : entry.1 ∉ entries.map Prod.fst := fun hmem =>
        hdistinct.2.2 _ hmem _ (List.mem_singleton.mpr rfl) rfl
      refine ⟨Function.update s f none, ih.mpr ⟨hdistinct.1, ?_, ?_⟩, f, hname, rfl,
        Function.update_self .., found, hread, ?_⟩
      · intro old hold
        obtain ⟨g, value, hg, hvalue, hslot'⟩ := hholds.held old (List.mem_append_left _ hold)
        have hne : g ≠ f := by
          rintro rfl
          exact hnew (List.mem_map.mpr ⟨old, hold, by rw [← hg, hname]⟩)
        exact ⟨g, value, hg, hvalue, by rw [Function.update_of_ne hne, hslot']⟩
      · intro g hsome
        have hne : g ≠ f := by
          rintro rfl
          rw [Function.update_self] at hsome
          exact absurd hsome (by simp)
        rw [Function.update_of_ne hne] at hsome
        have hmem := hholds.said g hsome
        rw [List.map_append, List.mem_append] at hmem
        rcases hmem with hmem | hlast
        · exact hmem
        · have hkey : r.name g = entry.1 := by simpa using hlast
          exact absurd (r.name_injective (hkey.trans hname.symm)) hne
      · rw [Function.update_idem, ← hslot, Function.update_eq_self]

theorem readEntries_unguarded {guard : Slots T → F → Except (DeError ε) Unit}
    (h : r.readEntries guard entries = .ok s) : r.readEntries unguarded entries = .ok s := by
  induction entries using List.reverseRecOn generalizing s with
  | nil => exact h
  | append_singleton entries entry ih =>
    obtain ⟨mid, hmid, hentry⟩ := readEntries_append.mp h
    obtain ⟨f, hname, -, hread⟩ := readEntry_eq.mp hentry
    exact readEntries_append.mpr ⟨mid, ih hmid, readEntry_eq.mpr ⟨f, hname, rfl, hread⟩⟩

theorem readEntries_guarded {guard : Slots T → F → Except (DeError ε) Unit}
    (h : ∀ s' : Slots T, (∀ g value, s' g = some value → s g = some value) →
      ∀ f, (s f).isSome → guard s' f = .ok ()) (hread : r.readEntries unguarded entries = .ok s) :
    r.readEntries guard entries = .ok s := by
  induction entries using List.reverseRecOn generalizing s with
  | nil => exact hread
  | append_singleton entries entry ih =>
    obtain ⟨mid, hmid, hentry⟩ := readEntries_append.mp hread
    obtain ⟨f, hname, -, hslot, found, hfound, rfl⟩ := readEntry_eq.mp hentry
    have hbelow : ∀ g value, mid g = some value →
        Function.update mid f (some found) g = some value := by
      intro g value hvalue
      have hne : g ≠ f := by
        rintro rfl
        rw [hslot] at hvalue
        exact absurd hvalue (by simp)
      rw [Function.update_of_ne hne, hvalue]
    have hsome : ∀ g, (mid g).isSome → (Function.update mid f (some found) g).isSome := by
      intro g hg
      obtain ⟨value, hvalue⟩ := Option.isSome_iff_exists.mp hg
      rw [hbelow g value hvalue]
      rfl
    have hprefix : r.readEntries guard entries = .ok mid := ih
      (fun s' hs' g hg => h s' (fun g value hvalue => hbelow g value (hs' g value hvalue)) g
        (hsome g hg)) hmid
    have hguard : guard mid f = .ok () := h mid hbelow f (by rw [Function.update_self]; rfl)
    exact readEntries_append.mpr ⟨mid, hprefix,
      readEntry_eq.mpr ⟨f, hname, hguard, hslot, found, hfound, rfl⟩⟩

variable (r) in
structure Fits (Typed : F → Json → Prop) (entries : List (String × Json)) : Prop where
  distinct : (entries.map Prod.fst).Nodup
  typed : ∀ entry ∈ entries, ∃ f, r.name f = entry.1 ∧ Typed f entry.2

omit [DecidableEq F] in
theorem Holds.isSome_iff (h : r.Holds entries s) (f : F) :
    (s f).isSome ↔ r.name f ∈ entries.map Prod.fst := by
  refine ⟨h.said f, fun hmem => ?_⟩
  obtain ⟨entry, hentry, hkey⟩ := List.mem_map.mp hmem
  obtain ⟨g, found, hg, -, hslot⟩ := h.held entry hentry
  rw [← r.name_injective (hg.trans hkey), hslot]
  rfl

omit [DecidableEq F] in
theorem Holds.fits {Typed : F → Json → Prop}
    (htyped : ∀ f json, Accepts (r.read f json) ↔ Typed f json) (h : r.Holds entries s) :
    r.Fits Typed entries where
  distinct := h.distinct
  typed entry hmem := by
    obtain ⟨f, found, hname, hread, -⟩ := h.held entry hmem
    exact ⟨f, hname, (htyped f _).mp ⟨found, hread⟩⟩

theorem accepts_readEntries {Typed : F → Json → Prop}
    (htyped : ∀ f json, Accepts (r.read f json) ↔ Typed f json) :
    Accepts (r.readEntries unguarded entries) ↔ r.Fits Typed entries := by
  constructor
  · rintro ⟨s, hs⟩
    exact (readEntries_eq.mp hs).fits htyped
  · intro h
    induction entries using List.reverseRecOn with
    | nil => exact ⟨_, rfl⟩
    | append_singleton entries entry ih =>
      obtain ⟨hdistinct, htypes⟩ := h
      rw [List.map_append, List.map_cons, List.map_nil, List.nodup_append] at hdistinct
      obtain ⟨s, hs⟩ := ih ⟨hdistinct.1, fun old hold => htypes old (List.mem_append_left _ hold)⟩
      obtain ⟨f, hname, hjson⟩ := htypes entry (by simp)
      obtain ⟨found, hread⟩ := (htyped f _).mpr hjson
      have hslot : s f = none := by
        by_contra hne
        have hsaid := (readEntries_eq.mp hs).said f (Option.isSome_iff_ne_none.mpr hne)
        exact hdistinct.2.2 _ hsaid _ (List.mem_singleton.mpr rfl) hname
      exact ⟨_, readEntries_append.mpr ⟨s, hs,
        readEntry_eq.mpr ⟨f, hname, rfl, hslot, found, hread, rfl⟩⟩⟩

def FitsItems (hasDefault : F → Bool) (Typed : F → Json → Prop) (fields : List F)
    (items : List Json) : Prop :=
  items.length ≤ fields.length ∧ (∀ f ∈ fields.drop items.length, hasDefault f = true) ∧
    ∀ pair ∈ fields.zip items, Typed pair.1 pair.2

theorem readItems_spec (hasDefault : F → Bool) {Typed : F → Json → Prop}
    (htyped : ∀ f json, Accepts (r.read f json) ↔ Typed f json) (fields : List F)
    (items : List Json) (s : Slots T) :
    (Accepts (r.readItems hasDefault fields items s) ↔
      FitsItems hasDefault Typed fields items) ∧
    ∀ s', r.readItems hasDefault fields items s = .ok s' → ∀ f, hasDefault f = false →
      f ∈ fields ∨ (s f).isSome → (s' f).isSome := by
  induction fields generalizing items s with
  | nil =>
    cases items with
    | nil =>
      refine ⟨by simp [readItems, FitsItems], ?_⟩
      rintro s' ⟨⟩ f - (hmem | hsome)
      · exact absurd hmem (by simp)
      · exact hsome
    | cons item items => simp [readItems, FitsItems]
  | cons f fields ih =>
    cases items with
    | nil =>
      rw [readItems]
      split_ifs with hdefault
      · obtain ⟨haccepts, hfilled⟩ := ih [] s
        constructor
        · rw [haccepts]
          simp [FitsItems, hdefault]
        · rintro s' hs' g hg (hmem | hsome)
          · rcases List.mem_cons.mp hmem with rfl | hmem
            · rw [hdefault] at hg
              exact absurd hg (by simp)
            · exact hfilled s' hs' g hg (Or.inl hmem)
          · exact hfilled s' hs' g hg (Or.inr hsome)
      · constructor
        · simp only [not_accepts_error, FitsItems, false_iff]
          rintro ⟨-, hall, -⟩
          exact hdefault (hall f (by simp))
        · intro s' hs'
          exact absurd hs' (by simp)
    | cons item items =>
      rw [readItems]
      constructor
      · rw [accepts_bind]
        have hrest : ∀ found, Accepts (r.readItems hasDefault fields items
            (Function.update s f (some found))) ↔ FitsItems hasDefault Typed fields items :=
          fun found => (ih items _).1
        simp only [hrest, exists_and_right]
        rw [show (∃ found, r.read f item = .ok found) ↔ Typed f item from htyped f item]
        unfold FitsItems
        simp only [List.length_cons, Nat.add_le_add_iff_right, List.drop_succ_cons,
          List.zip_cons_cons, List.forall_mem_cons]
        exact ⟨fun ⟨hf, hlen, hdefault, hzip⟩ => ⟨hlen, hdefault, hf, hzip⟩,
          fun ⟨hlen, hdefault, hf, hzip⟩ => ⟨hf, hlen, hdefault, hzip⟩⟩
      · intro s' hs' g hg hor
        obtain ⟨found, -, hs'⟩ := bind_eq_ok.mp hs'
        apply (ih items _).2 s' hs' g hg
        by_cases heq : g = f
        · rw [heq, Function.update_self]
          exact Or.inr rfl
        · rw [Function.update_of_ne heq]
          exact hor.imp_left fun hmem => (List.mem_cons.mp hmem).resolve_left heq

variable (r) in
/-- The shape of a record: an object that fits and leaves out only fields with a default, or the
list of its values. -/
def Shape (hasDefault : F → Bool) (Typed : F → Json → Prop) : Json → Prop
  | .object entries => r.Fits Typed entries ∧
    ∀ f, hasDefault f = false → r.name f ∈ entries.map Prod.fst
  | .array items => FitsItems hasDefault Typed r.fields items
  | _ => False

/-- A record that is built from any slots that have the fields without default is read exactly
from the documents of its shape. -/
theorem accepts_struct {hasDefault : F → Bool} {Typed : F → Json → Prop}
    (htyped : ∀ f json, Accepts (r.read f json) ↔ Typed f json) {α : Type}
    {finish : Slots T → Except (DeError ε) α}
    (hfinish : ∀ s, Accepts (finish s) ↔ ∀ f, hasDefault f = false → (s f).isSome) {json : Json} :
    Accepts (r.readStruct hasDefault json >>= finish) ↔ r.Shape hasDefault Typed json := by
  rw [accepts_bind]
  simp only [hfinish]
  cases json with
  | object entries =>
    simp only [readStruct, Shape, ← accepts_readEntries htyped]
    constructor
    · rintro ⟨s, hs, hfull⟩
      exact ⟨⟨s, hs⟩, fun f hf => ((readEntries_eq.mp hs).isSome_iff f).mp (hfull f hf)⟩
    · rintro ⟨⟨s, hs⟩, hfull⟩
      exact ⟨s, hs, fun f hf => ((readEntries_eq.mp hs).isSome_iff f).mpr (hfull f hf)⟩
  | array items =>
    obtain ⟨haccepts, hfilled⟩ := readItems_spec hasDefault htyped r.fields items
      fun _ => none
    simp only [readStruct, Shape, ← haccepts]
    constructor
    · rintro ⟨s, hs, -⟩
      exact ⟨s, hs⟩
    · rintro ⟨s, hs⟩
      exact ⟨s, hs, fun f hf => hfilled s hs f hf (Or.inl (r.complete f))⟩
  | _ => simp [readStruct, Shape]

theorem accepts_guarded {guard : Slots T → F → Except (DeError ε) Unit} {α : Type}
    {finish : Slots T → Except (DeError ε) α}
    (hguard : ∀ s s' : Slots T, Accepts (finish s) →
      (∀ g value, s' g = some value → s g = some value) →
      ∀ f, (s f).isSome → guard s' f = .ok ()) :
    Accepts (r.readEntries guard entries >>= finish) ↔
      ∃ s, r.Holds entries s ∧ Accepts (finish s) := by
  rw [accepts_bind]
  constructor
  · rintro ⟨s, hs, hfinish⟩
    exact ⟨s, readEntries_eq.mp (readEntries_unguarded hs), hfinish⟩
  · rintro ⟨s, hs, hfinish⟩
    exact ⟨s, readEntries_guarded (fun s' => hguard s s' hfinish) (readEntries_eq.mpr hs), hfinish⟩

omit [DecidableEq F] in
theorem required_eq {value : T f} : r.required s f = .ok value ↔ s f = some value := by
  unfold required
  cases s f <;> simp

omit [DecidableEq F] in
theorem accepts_required : Accepts (r.required s f) ↔ ∃ value, s f = some value := by
  simp only [Accepts, required_eq]

omit [DecidableEq F] in
theorem accepts_required_bind {α : Type} {next : T f → Except (DeError ε) α} :
    Accepts (r.required s f >>= next) ↔ ∃ value, s f = some value ∧ Accepts (next value) := by
  simp only [accepts_bind, required_eq]

theorem Fits.holds {Typed : F → Json → Prop}
    (htyped : ∀ f json, Accepts (r.read f json) ↔ Typed f json) (h : r.Fits Typed entries) :
    ∃ s, r.Holds entries s := by
  obtain ⟨s, hs⟩ := (accepts_readEntries htyped).mpr h
  exact ⟨s, readEntries_eq.mp hs⟩

omit [DecidableEq F] in
theorem Holds.slot_eq (h : r.Holds entries s) {found : T f} :
    s f = some found ↔ ∃ json, (r.name f, json) ∈ entries ∧ r.read f json = .ok found := by
  constructor
  · intro hslot
    have hsaid := h.said f (by rw [hslot]; rfl)
    obtain ⟨⟨key, json⟩, hentry, hkey⟩ := List.mem_map.mp hsaid
    obtain ⟨g, value, hg, hread, hvalue⟩ := h.held _ hentry
    obtain rfl : g = f := r.name_injective (hg.trans hkey)
    rw [hslot] at hvalue
    obtain rfl := Option.some.inj hvalue
    exact ⟨json, hg ▸ hentry, hread⟩
  · rintro ⟨json, hentry, hread⟩
    obtain ⟨g, value, hg, hread', hvalue⟩ := h.held _ hentry
    obtain rfl := r.name_injective hg
    rw [hvalue]
    exact congrArg some (Except.ok.inj (hread'.symm.trans hread))

variable (r) in
def written (encodeField : (f : F) → T f → Json) (order : List F) (s : Slots T) :
    List (String × Json) :=
  order.filterMap fun f => (s f).map fun value => (r.name f, encodeField f value)

omit [DecidableEq F] in
theorem holds_written {encodeField : (f : F) → T f → Json} {order : List F}
    (hread : ∀ f value, s f = some value → r.read f (encodeField f value) = .ok value)
    (hnodup : order.Nodup) (hall : ∀ f, (s f).isSome → f ∈ order) :
    r.Holds (r.written encodeField order s) s := by
  have hmem : ∀ entry, entry ∈ r.written encodeField order s ↔
      ∃ f ∈ order, ∃ value, s f = some value ∧ (r.name f, encodeField f value) = entry := by
    intro entry
    simp [written, List.mem_filterMap, Option.map_eq_some_iff]
  refine ⟨?_, ?_, ?_⟩
  · have hkeys : (r.written encodeField order s).map Prod.fst =
        (order.filter fun f => (s f).isSome).map r.name := by
      clear hnodup hall hmem
      induction order with
      | nil => rfl
      | cons f order ih =>
        unfold written at ih ⊢
        rw [List.filterMap_cons, List.filter_cons]
        cases s f with
        | none => simpa using ih
        | some value => simpa using ih
    rw [hkeys]
    exact (hnodup.filter _).map r.name_injective
  · intro entry hentry
    obtain ⟨f, -, value, hslot, rfl⟩ := (hmem entry).mp hentry
    exact ⟨f, value, rfl, hread f value hslot, hslot⟩
  · intro f hsome
    obtain ⟨value, hslot⟩ := Option.isSome_iff_exists.mp hsome
    exact List.mem_map_of_mem ((hmem _).mpr ⟨f, hall f hsome, value, hslot, rfl⟩)

omit [DecidableEq F] in
theorem Holds.of_perm {entries' : List (String × Json)} (h : r.Holds entries s)
    (hperm : entries.Perm entries') : r.Holds entries' s where
  distinct := (hperm.map Prod.fst).nodup_iff.mp h.distinct
  held entry hmem := h.held entry (hperm.mem_iff.mpr hmem)
  said f hsome := (hperm.map Prod.fst).mem_iff.mp (h.said f hsome)

omit [DecidableEq F] in
theorem Holds.perm_written {encodeField : (f : F) → T f → Json} {order : List F}
    (h : r.Holds entries s) (hnodup : order.Nodup) (hall : ∀ f, (s f).isSome → f ∈ order)
    (hread : ∀ f value, s f = some value → r.read f (encodeField f value) = .ok value)
    (hone : ∀ f json value, r.read f json = .ok value → json = encodeField f value) :
    entries.Perm (r.written encodeField order s) := by
  have hwritten := holds_written hread hnodup hall
  rw [List.perm_ext_iff_of_nodup h.distinct.of_map hwritten.distinct.of_map]
  -- either side holds an entry exactly when its value is in the slots
  have hsame : ∀ {left right : List (String × Json)}, r.Holds left s → r.Holds right s →
      ∀ entry ∈ left, entry ∈ right := by
    intro left right hleft hright entry hentry
    obtain ⟨f, found, hname, hfound, hslot⟩ := hleft.held entry hentry
    obtain ⟨json, hmem, hjson⟩ := hright.slot_eq.mp hslot
    have hvalue : entry.2 = json := (hone f _ found hfound).trans (hone f _ found hjson).symm
    have heq : entry = (r.name f, json) := Prod.ext hname.symm hvalue
    exact heq ▸ hmem
  intro entry
  exact ⟨hsame h hwritten entry, hsame hwritten h entry⟩

end Record

end AgentRelay.Wire
