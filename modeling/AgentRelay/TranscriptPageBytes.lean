import AgentRelay.TranscriptPaging
import Mathlib.Data.Nat.Digits.Defs

/-! The bytes of a transcript page. A page is packed by an estimate: the lengths of its entries, the
commas between them and a bound on everything else. -/
namespace AgentRelay

namespace Text

/-- A character inside a JSON string, as `serde_json` writes it. -/
def jsonEscape (c : Char) : String :=
  if c = '\"' then "\\\""
  else if c = '\\' then "\\\\"
  else if c = '\x08' then "\\b"
  else if c = '\x0c' then "\\f"
  else if c = '\n' then "\\n"
  else if c = '\r' then "\\r"
  else if c = '\t' then "\\t"
  else if c.toNat < 32 then
    "\\u00" ++ String.ofList [Nat.digitChar (c.toNat / 16), Nat.digitChar (c.toNat % 16)]
  else String.singleton c

def jsonString (text : String) : String :=
  "\"" ++ text.toList.foldr (fun c rest => jsonEscape c ++ rest) "" ++ "\""

def jsonOption (value : Option Nat) : String := (value.map toString).getD "null"

def jsonArray (items : List String) : String := "[" ++ String.intercalate "," items ++ "]"

def JsonPlain (text : String) : Prop := ∀ c ∈ text.toList, jsonEscape c = String.singleton c

instance (text : String) : Decidable (JsonPlain text) :=
  List.decidableBAll (fun c => jsonEscape c = String.singleton c) text.toList

theorem jsonString_of_plain {text : String} (h : JsonPlain text) :
    jsonString text = "\"" ++ text ++ "\"" := by
  have hchars : ∀ chars : List Char, (∀ c ∈ chars, jsonEscape c = String.singleton c) →
      chars.foldr (fun c rest => jsonEscape c ++ rest) "" = String.ofList chars := by
    intro chars hplain
    induction chars with
    | nil => rfl
    | cons c chars ih =>
      rw [List.forall_mem_cons] at hplain
      rw [List.foldr_cons, ih hplain.2, hplain.1]
      apply String.toList_injective
      simp
  rw [jsonString, hchars text.toList h, String.ofList_toList]

theorem size_jsonString {text : String} (h : JsonPlain text) :
    (jsonString text).utf8ByteSize = text.utf8ByteSize + 2 := by
  have hquote : "\"".utf8ByteSize = 1 := by decide
  rw [jsonString_of_plain h, String.utf8ByteSize_append, String.utf8ByteSize_append, hquote]
  omega

theorem size_ofList_digits (digits : List Char) (h : ∀ c ∈ digits, c.isDigit) :
    (String.ofList digits).utf8ByteSize = digits.length := by
  induction digits with
  | nil => rfl
  | cons c digits ih =>
    rw [List.forall_mem_cons] at h
    have hcons : String.ofList (c :: digits) = String.singleton c ++ String.ofList digits := by
      apply String.toList_injective
      simp
    have hsize : c.utf8Size = 1 := by
      have hdigit := h.1
      simp only [Char.isDigit, Bool.and_eq_true, decide_eq_true_eq] at hdigit
      have hnine : c.val ≤ 57 := hdigit.2
      have hle : c.val ≤ 0x7f := by
        have hnine' : c.val.toNat ≤ 57 := hnine
        have hgoal : c.val.toNat ≤ 127 := by omega
        exact hgoal
      simp [Char.utf8Size, hle]
    rw [hcons, String.utf8ByteSize_append, ih h.2, String.utf8ByteSize_singleton, hsize,
      List.length_cons]
    omega

theorem size_toString_le {n : Nat} (h : n < 2 ^ 64) : (toString n).utf8ByteSize ≤ 20 := by
  have hrepr : toString n = String.ofList (Nat.toDigits 10 n) := Nat.repr_eq_ofList_toDigits
  have hdigits : ∀ c ∈ Nat.toDigits 10 n, c.isDigit := fun c hc =>
    Nat.isDigit_of_mem_toDigits (by decide) (by decide) hc
  rw [hrepr, size_ofList_digits _ hdigits]
  exact Nat.toDigits_length 10 n 20 (by decide) (by omega)

theorem size_jsonOption_le {value : Option Nat} (h : ∀ n ∈ value, n < 2 ^ 64) :
    (jsonOption value).utf8ByteSize ≤ 20 := by
  cases value with
  | none => decide
  | some n => exact size_toString_le (h n rfl)

theorem size_jsonArray (items : List String) :
    (jsonArray items).utf8ByteSize =
      (items.map String.utf8ByteSize).sum + (items.length - 1) + 2 := by
  have hitems : (String.intercalate "," items).utf8ByteSize =
      (items.map String.utf8ByteSize).sum + (items.length - 1) := by
    induction items with
    | nil => simp
    | cons item rest ih =>
      cases rest with
      | nil => simp
      | cons next rest =>
        have hcomma : ",".utf8ByteSize = 1 := by decide
        rw [String.intercalate_cons_cons, String.utf8ByteSize_append, String.utf8ByteSize_append,
          ih, hcomma]
        simp only [List.map_cons, List.sum_cons, List.length_cons]
        omega
  have hopen : "[".utf8ByteSize = 1 := by decide
  have hclose : "]".utf8ByteSize = 1 := by decide
  rw [jsonArray, String.utf8ByteSize_append, String.utf8ByteSize_append, hitems, hopen, hclose]
  omega

end Text

namespace Relay
open Text

/-- A page as it is sent; `entryJson` writes one entry. -/
def ThreadTranscriptResponse.toJson (entryJson : TranscriptEntryView → String) (serverTime : Nat)
    (page : ThreadTranscriptResponse) : String :=
  "\x7b\"thread_id\":" ++ jsonString page.threadId ++
    ",\"revision\":" ++ toString page.revision ++
    ",\"server_time\":" ++ toString serverTime ++
    ",\"entry_seq_start\":" ++ jsonOption page.entrySeqStart ++
    ",\"entry_seq_end\":" ++ jsonOption page.entrySeqEnd ++
    ",\"entries\":" ++ jsonArray (page.entries.map entryJson) ++
    ",\"next_cursor\":" ++ jsonOption page.nextCursor ++
    ",\"prev_cursor\":" ++ jsonOption page.prevCursor ++ "\x7d"

theorem size_toJson_le (entryJson : TranscriptEntryView → String) {serverTime : Nat}
    (page : ThreadTranscriptResponse) (hid : JsonPlain page.threadId)
    (hrevision : page.revision < 2 ^ 64) (htime : serverTime < 2 ^ 64)
    (hstart : ∀ n ∈ page.entrySeqStart, n < 2 ^ 64) (hend : ∀ n ∈ page.entrySeqEnd, n < 2 ^ 64)
    (hnext : ∀ n ∈ page.nextCursor, n < 2 ^ 64) (hprev : ∀ n ∈ page.prevCursor, n < 2 ^ 64) :
    (page.toJson entryJson serverTime).utf8ByteSize ≤
      242 + page.threadId.utf8ByteSize +
        (page.entries.map fun entry => (entryJson entry).utf8ByteSize).sum +
          (page.entries.length - 1) := by
  have hlabels : "\x7b\"thread_id\":".utf8ByteSize = 13 ∧ ",\"revision\":".utf8ByteSize = 12 ∧
      ",\"server_time\":".utf8ByteSize = 15 ∧ ",\"entry_seq_start\":".utf8ByteSize = 19 ∧
      ",\"entry_seq_end\":".utf8ByteSize = 17 ∧ ",\"entries\":".utf8ByteSize = 11 ∧
      ",\"next_cursor\":".utf8ByteSize = 15 ∧ ",\"prev_cursor\":".utf8ByteSize = 15 ∧
      "\x7d".utf8ByteSize = 1 := by decide
  obtain ⟨h1, h2, h3, h4, h5, h6, h7, h8, h9⟩ := hlabels
  have hentries := size_jsonArray (page.entries.map entryJson)
  rw [List.map_map, List.length_map] at hentries
  have hsum : (page.entries.map (String.utf8ByteSize ∘ entryJson)).sum =
      (page.entries.map fun entry => (entryJson entry).utf8ByteSize).sum := rfl
  rw [hsum] at hentries
  have hid' := size_jsonString hid
  have hrevision' := size_toString_le hrevision
  have htime' := size_toString_le htime
  have hstart' := size_jsonOption_le hstart
  have hend' := size_jsonOption_le hend
  have hnext' := size_jsonOption_le hnext
  have hprev' := size_jsonOption_le hprev
  unfold ThreadTranscriptResponse.toJson
  simp only [String.utf8ByteSize_append, h1, h2, h3, h4, h5, h6, h7, h8, h9, hid', hentries]
  omega

section Packing

variable (serializedLen : TranscriptEntryView → Nat) (envelope : Nat)

/-- The estimate for what was taken is within the budget, and with the next entry it is not; a
single entry is taken whatever its length. -/
theorem packBackwards_budget (newestFirst : List TranscriptEntryView) (sum : Nat)
    (selected : List TranscriptEntryView) (hsum : (selected.map serializedLen).sum = sum)
    (hselected : 1 < selected.length →
      envelope + sum + (selected.length - 1) ≤ threadTranscriptResponseTargetBytes) :
    (1 < (packBackwards serializedLen envelope newestFirst sum selected).2.length →
        envelope +
          ((packBackwards serializedLen envelope newestFirst sum selected).2.map serializedLen).sum +
            ((packBackwards serializedLen envelope newestFirst sum selected).2.length - 1) ≤
              threadTranscriptResponseTargetBytes) ∧
      ∀ next ∈ newestFirst[newestFirst.length -
          (packBackwards serializedLen envelope newestFirst sum selected).1]?,
        threadTranscriptResponseTargetBytes <
          envelope +
            ((packBackwards serializedLen envelope newestFirst sum selected).2.map
              serializedLen).sum + serializedLen (stripFileChangeDiffs next) +
                (packBackwards serializedLen envelope newestFirst sum selected).2.length := by
  induction newestFirst generalizing sum selected with
  | nil =>
    unfold packBackwards
    rw [hsum]
    exact ⟨hselected, by simp⟩
  | cons newest older ih =>
    unfold packBackwards
    dsimp only
    split_ifs with hbreak
    · dsimp only
      rw [hsum, List.length_cons, Nat.sub_self]
      refine ⟨hselected, ?_⟩
      intro next hnext
      obtain rfl : newest = next := by simpa using hnext
      omega
    · obtain ⟨taken, htaken, heq, -⟩ := packBackwards_eq serializedLen envelope older
        (sum + serializedLen (stripFileChangeDiffs newest))
        (stripFileChangeDiffs newest :: selected)
      have hsum' : ((stripFileChangeDiffs newest :: selected).map serializedLen).sum =
          sum + serializedLen (stripFileChangeDiffs newest) := by
        rw [List.map_cons, List.sum_cons, hsum, Nat.add_comm]
      have hroom : 1 < (stripFileChangeDiffs newest :: selected).length →
          envelope + (sum + serializedLen (stripFileChangeDiffs newest)) +
            ((stripFileChangeDiffs newest :: selected).length - 1) ≤
              threadTranscriptResponseTargetBytes := by
        intro hmore
        have hne : selected ≠ [] := by
          rintro rfl
          simp at hmore
        have hin := Nat.not_lt.mp fun hover => hbreak ⟨hover, hne⟩
        rw [List.length_cons]
        omega
      obtain ⟨hbudget, hmaximal⟩ := ih _ _ hsum' hroom
      refine ⟨hbudget, ?_⟩
      have hindex : older.length + 1 - (packBackwards serializedLen envelope older
          (sum + serializedLen (stripFileChangeDiffs newest))
          (stripFileChangeDiffs newest :: selected)).1 =
          older.length - (packBackwards serializedLen envelope older
            (sum + serializedLen (stripFileChangeDiffs newest))
            (stripFileChangeDiffs newest :: selected)).1 + 1 := by
        rw [heq]
        dsimp only
        omega
      rw [List.length_cons, hindex, List.getElem?_cons_succ]
      exact hmaximal

end Packing

/-- A page of a transcript is the longest run before the bound that the estimate allows, and with
more than one entry its bytes are within the budget. -/
theorem reverse_page_in_budget (entryJson : TranscriptEntryView → String) (threadId : String)
    (hid : JsonPlain threadId) (views : List TranscriptEntryView) (hviews : views.length < 2 ^ 64)
    (before : Option Nat) {revision serverTime : Nat} (hrevision : revision < 2 ^ 64)
    (htime : serverTime < 2 ^ 64) :
    let serializedLen := fun entry => (entryJson entry).utf8ByteSize
    let bound := min (before.getD views.length) views.length
    let page := ThreadTranscriptResponse.fromTranscriptSource serializedLen threadId views before
      revision
    ∃ index ≤ bound, (0 < bound → index < bound) ∧
      page.entries = ((views.take bound).drop index).map stripFileChangeDiffs ∧
      page.prevCursor = (if 0 < index then some index else none) ∧
      page.nextCursor = (if bound < views.length then some bound else none) ∧
      page.entrySeqStart = (if index < bound then some (index + 1) else none) ∧
      page.entrySeqEnd = (if index < bound then some bound else none) ∧
      (∀ older ∈ views[index - 1]?, 0 < index →
        threadTranscriptResponseTargetBytes <
          threadTranscriptEnvelopeUpperBoundBytes + threadId.utf8ByteSize +
            (page.entries.map serializedLen).sum + serializedLen (stripFileChangeDiffs older) +
              page.entries.length) ∧
      (1 < page.entries.length →
        (page.toJson entryJson serverTime).utf8ByteSize ≤ threadTranscriptResponseTargetBytes) := by
  intro serializedLen bound page
  have hbound : bound ≤ views.length := Nat.min_le_right _ _
  obtain ⟨index, hindex, hless, hpacked, hpage⟩ :=
    reversePage_eq serializedLen threadId views hbound revision
  have hpage' : page = buildThreadTranscriptPage threadId
      (((views.take bound).drop index).map stripFileChangeDiffs)
      (if bound < views.length then some bound else none)
      (if 0 < index then some index else none) revision index := hpage
  obtain ⟨hbudget, hmaximal⟩ := packBackwards_budget serializedLen
    (threadTranscriptEnvelopeUpperBoundBytes + threadId.utf8ByteSize)
    (views.take bound).reverse 0 [] rfl (by simp)
  rw [hpacked] at hbudget hmaximal
  have hlength : (((views.take bound).drop index).map stripFileChangeDiffs).length =
      bound - index := by
    rw [List.length_map, List.length_drop, List.length_take, Nat.min_eq_left hbound]
  have hempty : ((views.take bound).drop index).map stripFileChangeDiffs = [] ↔
      ¬ index < bound := by
    rw [← List.length_eq_zero_iff, hlength]
    omega
  have hstart : page.entrySeqStart = if index < bound then some (index + 1) else none := by
    rw [hpage']
    unfold buildThreadTranscriptPage
    dsimp only
    split_ifs with hnone hrun hrun
    · exact absurd hrun (hempty.mp hnone)
    · rfl
    · rfl
    · exact absurd (hempty.mpr hrun) hnone
  have hend : page.entrySeqEnd = if index < bound then some bound else none := by
    rw [hpage']
    unfold buildThreadTranscriptPage
    dsimp only
    rw [hlength]
    split_ifs with hnone hrun hrun
    · exact absurd hrun (hempty.mp hnone)
    · rfl
    · rw [Nat.add_sub_cancel' hrun.le]
    · exact absurd (hempty.mpr hrun) hnone
  have hprev : page.prevCursor = if 0 < index then some index else none := by rw [hpage']; rfl
  have hnext : page.nextCursor = if bound < views.length then some bound else none := by
    rw [hpage']
    rfl
  have hentries : page.entries = ((views.take bound).drop index).map stripFileChangeDiffs := by
    rw [hpage']
    rfl
  refine ⟨index, hindex, hless, hentries, hprev, hnext, hstart, hend, ?_, ?_⟩
  · intro older holder hpos
    rw [hentries]
    apply hmaximal older
    have hreverse : (views.take bound).reverse.length - index = bound - index := by
      rw [List.length_reverse, List.length_take, Nat.min_eq_left hbound]
    have hplace : (views.take bound).length - 1 - (bound - index) = index - 1 := by
      rw [List.length_take, Nat.min_eq_left hbound]
      omega
    have hinside : bound - index < (views.take bound).length := by
      rw [List.length_take, Nat.min_eq_left hbound]
      omega
    rw [hreverse, List.getElem?_reverse hinside, hplace, List.getElem?_take_of_lt (by omega)]
    exact holder
  · intro hmore
    have hthread : page.threadId = threadId := by rw [hpage']; rfl
    have hrevision' : page.revision = revision := by rw [hpage']; rfl
    have hsmall : ∀ {c : Prop} [Decidable c] {m : Nat}, m < 2 ^ 64 →
        ∀ n ∈ (if c then some m else none), n < 2 ^ 64 := by
      intro c _ m hm n hn
      split_ifs at hn
      · rw [← Option.some.inj hn]
        exact hm
      · cases hn
    have hsmallStart : ∀ n ∈ (if index < bound then some (index + 1) else none), n < 2 ^ 64 := by
      intro n hn
      split_ifs at hn
      · rw [← Option.some.inj hn]
        omega
      · cases hn
    have hsize := size_toJson_le entryJson page (by rw [hthread]; exact hid)
      (by rw [hrevision']; exact hrevision) htime
      (by rw [hstart]; exact hsmallStart)
      (by rw [hend]; exact hsmall (by omega)) (by rw [hnext]; exact hsmall (by omega))
      (by rw [hprev]; exact hsmall (by omega))
    rw [hentries] at hmore hsize
    have hin : 320 + threadId.utf8ByteSize +
        ((((views.take bound).drop index).map stripFileChangeDiffs).map fun entry =>
          (entryJson entry).utf8ByteSize).sum +
            ((((views.take bound).drop index).map stripFileChangeDiffs).length - 1) ≤
              threadTranscriptResponseTargetBytes := hbudget hmore
    rw [hthread] at hsize
    omega

def shortThread : List TranscriptEntryView :=
  [{ itemId := some "item-1", kind := .userText, text := some "hello", status := "completed"
     turnId := none, tool := none },
    { itemId := some "item-2", kind := .agentText, text := some "hi", status := "completed"
      turnId := none, tool := none }]

theorem reverse_page_in_budget_short_thread :
    let page := ThreadTranscriptResponse.fromTranscriptSource
      (fun entry => (jsonString (entry.text.getD "")).utf8ByteSize) "thread-1" shortThread none 7
    1 < page.entries.length ∧
      (page.toJson (fun entry => jsonString (entry.text.getD "")) 1700000000).utf8ByteSize ≤
        threadTranscriptResponseTargetBytes := by
  obtain ⟨index, -, -, -, -, -, -, -, -, hsize⟩ := reverse_page_in_budget
    (fun entry => jsonString (entry.text.getD "")) "thread-1" (by decide) shortThread
    (by decide) none (show 7 < 2 ^ 64 by decide) (show 1700000000 < 2 ^ 64 by decide)
  have hmore : 1 < (ThreadTranscriptResponse.fromTranscriptSource
      (fun entry => (jsonString (entry.text.getD "")).utf8ByteSize) "thread-1" shortThread none
        7).entries.length := by decide +kernel
  exact ⟨hmore, hsize hmore⟩

end Relay

end AgentRelay
