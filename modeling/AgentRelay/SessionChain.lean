import AgentRelay.SessionSearch
import AgentRelay.ChainWalk

/-! The chain of parents of a session file, and one page on it: where no record on the chain is taken
for another, a page goes up the chain as far as its records show their own uuids, until it is full. -/
namespace AgentRelay.SessionPage
open Tabs (Js)
open ChainWalk (Path Walk Cycle Functional)

structure SessionFile where
  decode : Bytes → List Char
  jsonParse : List Char → Option Js
  messageBytes : SessionMessage → Nat
  limits : Limits
  file : Bytes

namespace SessionFile

variable (session : SessionFile)

def HasLine (line : Line) : Prop := IsLine session.file line

def recordOf (line : Line) : Js := parseRecord session.decode session.jsonParse line.bytes

def uuidOf (line : Line) : Js := (session.recordOf line).get "uuid"

def parentOf (line : Line) : Js := (session.recordOf line).get "parentUuid"

structure IsParent (line parent : Line) : Prop where
  hasLine : session.HasLine parent
  named : session.parentOf line = session.uuidOf parent
  uuid : ∃ uuid, uuid ≠ "" ∧ session.uuidOf parent = .string uuid

def ShowsItself (line : Line) : Prop := Shows session.decode line (session.uuidOf line)

def Finds (line parent : Line) : Prop := session.IsParent line parent ∧ session.ShowsItself parent

/-- The chain ends at a record without a parent, or at one whose parent there is no way to. -/
def Stops (next : Line → Line → Prop) : Ending → Line → Prop
  | .complete, line => (session.parentOf line).isTruthy = false
  | .failed, line => (session.parentOf line).isTruthy = true ∧ ∀ parent, ¬ next line parent

def Chain (line : Line) (lines : List Line) : Prop :=
  Walk session.IsParent (session.Stops session.IsParent) .complete line lines

def messagesOf (lines : List Line) : List SessionMessage :=
  (lines.filter fun line => isConversationMessage (session.recordOf line)).map fun line =>
    toSessionMessage (session.recordOf line)

def isFull (messages : List SessionMessage) : Bool :=
  pageIsFull session.messageBytes session.limits messages

def readPage (beforeByte : Option Nat) : Option (Except PageError Page) :=
  readSessionMessagePage session.decode session.jsonParse session.messageBytes session.limits
    session.file beforeByte

def ReadPages (cursor : Option Nat) (pages : List Page) (ending : Ending) : Prop :=
  Pages session.decode session.jsonParse session.messageBytes session.limits session.file cursor
    pages ending

def IsNewest (line : Line) : Prop := Newest session.decode session.jsonParse session.file line

def DistinctUuids : Prop :=
  ∀ line other uuid, session.HasLine line → session.HasLine other →
    session.uuidOf line = .string uuid → session.uuidOf other = .string uuid → line = other

/-- The pages are the whole chain of the newest record, oldest first, and end in an error when the
chain has no root. -/
structure PagesWholeChain : Prop where
  empty : (∀ line, ¬ session.IsNewest line) →
    ∃ pages, session.ReadPages none pages .complete ∧
      pages.reverse.flatMap (·.messages) = []
  chain : ∀ newest lines, session.IsNewest newest → session.Chain newest lines →
    ∃ pages, session.ReadPages none pages .complete ∧
      pages.reverse.flatMap (·.messages) = (session.messagesOf lines).reverse
  rootless : ∀ newest, session.IsNewest newest → (∀ lines, ¬ session.Chain newest lines) →
    ∃ pages, session.ReadPages none pages .failed

/-- No record on the chain is taken for another: what shows the uuid of a parent is the parent,
and a parent that is the newest record shows it. -/
structure KeysApart (newest : Line) : Prop where
  others : ∀ lines line other, Path session.IsParent newest lines line → session.HasLine other →
    Shows session.decode other (session.parentOf line) →
    session.uuidOf other = session.parentOf line
  newest : ∀ lines line, Path session.IsParent newest lines line → session.IsParent line newest →
    session.ShowsItself newest

/-- Every parent on a chain with a root shows its own uuid, and a chain that comes back does so
before a page is full. -/
structure Readable (newest : Line) : Prop where
  uuid : ∀ lines, session.Chain newest lines → session.uuidOf newest ≠ .string ""
  shown : ∀ lines, session.Chain newest lines → ∀ line ∈ lines.tail, session.ShowsItself line
  cycle : session.uuidOf newest ≠ .string "" → ∀ tail first cycle,
    Path session.Finds newest tail first → Cycle session.Finds first cycle →
    session.isFull (session.messagesOf cycle) = false

end SessionFile

section chain

variable {session : SessionFile} {line parent newest : Line}

open SessionFile

theorem isParent_functional (hdistinct : session.DistinctUuids) : Functional session.IsParent := by
  intro line left right hleft hright
  obtain ⟨uuid, -, huuid⟩ := hleft.uuid
  refine hdistinct left right uuid hleft.hasLine hright.hasLine huuid ?_
  rw [← hright.named, hleft.named, huuid]

theorem finds_functional (hdistinct : session.DistinctUuids) : Functional session.Finds := by
  intro line left right hleft hright
  exact isParent_functional hdistinct line left right hleft.1 hright.1

theorem SessionFile.IsParent.isTruthy (h : session.IsParent line parent) :
    (session.parentOf line).isTruthy = true := by
  obtain ⟨uuid, hne, huuid⟩ := h.uuid
  rw [h.named, huuid]
  simp [Js.isTruthy, hne]

theorem stops_not_next {next : Line → Line → Prop}
    (hnext : ∀ line parent, next line parent → session.IsParent line parent) (ending : Ending)
    (line parent : Line) (hstops : session.Stops next ending line) : ¬ next line parent := by
  intro h
  cases ending with
  | complete =>
    have htruthy := (hnext line parent h).isTruthy
    rw [show (session.parentOf line).isTruthy = false from hstops] at htruthy
    cases htruthy
  | failed => exact hstops.2 parent h

theorem stops_or_moves (next : Line → Line → Prop) (line : Line) :
    (∃ ending, session.Stops next ending line) ∨ ∃ parent, next line parent := by
  by_cases hmoves : ∃ parent, next line parent
  · exact Or.inr hmoves
  · rw [not_exists] at hmoves
    cases htruthy : (session.parentOf line).isTruthy with
    | false => exact Or.inl ⟨.complete, htruthy⟩
    | true => exact Or.inl ⟨.failed, htruthy, hmoves⟩

theorem messagesOf_append (left right : List Line) :
    session.messagesOf (left ++ right) = session.messagesOf left ++ session.messagesOf right := by
  unfold messagesOf
  rw [List.filter_append, List.map_append]

theorem messagesOf_subperm {left right : List Line} (h : left.Subperm right) :
    (session.messagesOf left).Subperm (session.messagesOf right) := by
  obtain ⟨middle, hperm, hsublist⟩ := h
  unfold messagesOf
  exact ⟨_, (hperm.filter _).map _, (hsublist.filter _).map _⟩

theorem isFull_of_subperm {left right : List SessionMessage} (h : left.Subperm right)
    (hfull : session.isFull left = true) : session.isFull right = true := by
  have hlength := h.length_le
  have hbytes : (left.map session.messageBytes).sum ≤ (right.map session.messageBytes).sum := by
    obtain ⟨middle, hperm, hsublist⟩ := h
    rw [← (hperm.map session.messageBytes).sum_eq]
    exact (hsublist.map session.messageBytes).sum_le_sum (by simp)
  unfold isFull pageIsFull pageBytes at hfull ⊢
  simp only [Bool.or_eq_true, Bool.and_eq_true, decide_eq_true_eq] at hfull ⊢
  omega

end chain

section reached

variable {session : SessionFile} {line parent newest : Line}

open SessionFile

structure Reached (session : SessionFile) (newest line : Line) : Prop where
  hasLine : session.HasLine line
  uuid : ∃ uuid, uuid ≠ "" ∧ session.uuidOf line = .string uuid
  onChain : ∃ lines, Path session.IsParent newest lines line
  shown : line = newest ∨ session.ShowsItself line

def Remembered (session : SessionFile) (newest : Line) (entry : Js × Nat) : Prop :=
  ∃ line, session.HasLine line ∧ entry.2 = line.start ∧
    (Shows session.decode line entry.1 ∨
      Reached session newest line ∧ entry.1 = session.uuidOf line)

theorem Reached.follow (h : Reached session newest line) (hfinds : session.Finds line parent) :
    Reached session newest parent := by
  obtain ⟨lines, hpath⟩ := h.onChain
  exact ⟨hfinds.1.hasLine, hfinds.1.uuid, ⟨lines ++ [line], hpath.concat hfinds.1⟩,
    Or.inr hfinds.2⟩

theorem Reached.start_lt (hdecode : session.decode [] = []) (h : Reached session newest line) :
    line.start < session.file.length := by
  have hbytes : line.bytes ≠ [] := by
    intro hempty
    obtain ⟨uuid, -, huuid⟩ := h.uuid
    unfold uuidOf recordOf at huuid
    rw [hempty, parseRecord_nil hdecode] at huuid
    cases huuid
  have hlt := Piece.start_lt h.hasLine hbytes
  have hhigh := h.hasLine.to_high
  omega

theorem Reached.finds_of_shows (hkeys : session.KeysApart newest) (h : Reached session newest line)
    (htruthy : (session.parentOf line).isTruthy = true) {other : Line}
    (hother : session.HasLine other) (hshows : Shows session.decode other (session.parentOf line)) :
    session.Finds line other := by
  obtain ⟨lines, hpath⟩ := h.onChain
  have huuid := hkeys.others lines line other hpath hother hshows
  obtain ⟨text, hraw, htext⟩ := hshows
  have hne : text ≠ "" := by
    intro hempty
    rw [htext, hempty] at htruthy
    cases htruthy
  refine ⟨⟨hother, huuid.symm, text, hne, huuid.trans htext⟩, text, hraw, huuid.trans htext⟩

theorem Reached.finds_of_uuid (hkeys : session.KeysApart newest) (h : Reached session newest line)
    {other : Line} (hother : Reached session newest other)
    (huuid : session.uuidOf other = session.parentOf line) : session.Finds line other := by
  obtain ⟨lines, hpath⟩ := h.onChain
  have hparent : session.IsParent line other := ⟨hother.hasLine, huuid.symm, hother.uuid⟩
  refine ⟨hparent, ?_⟩
  rcases hother.shown with rfl | hshown
  · exact hkeys.newest lines line hpath hparent
  · exact hshown

/-- The lookup finds the parent if it shows its uuid, and nothing else. -/
theorem lookup_spec (hdecode : session.decode [] = [])
    (hkeys : session.KeysApart newest) (h : Reached session newest line)
    (htruthy : (session.parentOf line).isTruthy = true) {offsets : Offsets}
    (hoffsets : ∀ entry ∈ offsets, Remembered session newest entry) :
    let out := findRecordOffsetByUuid session.decode session.file (session.parentOf line) line.start
      line.stop ((session.uuidOf line, line.start) :: offsets)
    (∀ start, out.1 = some start → ∃ parent, session.Finds line parent ∧ parent.start = start) ∧
    (out.1 = none → ∀ parent, ¬ session.Finds line parent) ∧
    ∀ entry ∈ out.2, Remembered session newest entry := by
  have hentries : ∀ entry ∈ (session.uuidOf line, line.start) :: offsets,
      Remembered session newest entry := by
    intro entry hmem
    rcases List.mem_cons.mp hmem with rfl | hold
    · exact ⟨line, h.hasLine, rfl, Or.inr ⟨h, rfl⟩⟩
    · exact hoffsets entry hold
  obtain ⟨hsome, hnone, hafter⟩ := findRecordOffsetByUuid_spec hdecode h.hasLine
    (session.parentOf line) ((session.uuidOf line, line.start) :: offsets)
  refine ⟨?_, ?_, ?_⟩
  · intro start hfound
    rcases hsome start hfound with ⟨entry, hmem, hsame, rfl⟩ | ⟨other, hother, hshows, hstart⟩
    · obtain ⟨other, hother, hstart, hkey⟩ := hentries entry hmem
      refine ⟨other, ?_, hstart.symm⟩
      rcases hkey with hshows | ⟨hreached, huuid⟩
      · obtain ⟨text, hraw, htext⟩ := hshows
        rw [htext, strictEq_string] at hsame
        exact h.finds_of_shows hkeys htruthy hother ⟨text, hraw, hsame⟩
      · obtain ⟨text, hne, htext⟩ := hreached.uuid
        rw [huuid, htext, strictEq_string] at hsame
        exact h.finds_of_uuid hkeys hreached (htext.trans hsame.symm)
    · exact ⟨other, h.finds_of_shows hkeys htruthy hother hshows, hstart⟩
  · intro hmissed parent hfinds
    obtain ⟨hforgotten, hlines⟩ := hnone hmissed
    obtain ⟨uuid, hne, huuid⟩ := hfinds.1.uuid
    have hparent : session.parentOf line = .string uuid := hfinds.1.named.trans huuid
    by_cases hself : parent = line
    · subst hself
      have hsame := hforgotten _ List.mem_cons_self
      rw [huuid, hparent, strictEq_string.mpr rfl] at hsame
      cases hsame
    · apply hlines parent hfinds.1.hasLine hself
      obtain ⟨text, hraw, htext⟩ := hfinds.2
      exact ⟨text, hraw, hfinds.1.named.trans htext⟩
  · intro entry hmem
    rcases hafter entry hmem with hold | ⟨other, hother, hshows, hstart⟩
    · exact hentries entry hold
    · exact ⟨other, hother, hstart, Or.inl hshows⟩

end reached

section page

variable {session : SessionFile} {line parent newest : Line} {seen : List Line} {s : PageState}

open SessionFile

structure PageAt (session : SessionFile) (newest : Line) (seen : List Line) (s : PageState)
    (line : Line) : Prop where
  reached : Reached session newest line
  earlier : ∀ other ∈ seen, Reached session newest other
  offset : s.nextOffset = line.start
  expected : s.nextExpectedUuid = session.uuidOf line
  selected : s.selectedNewestFirst = session.messagesOf seen
  visited : s.visited = (seen.map session.uuidOf).reverse
  offsets : ∀ entry ∈ s.offsets, Remembered session newest entry

def stepOf (session : SessionFile) (s : PageState) : Except PageError Progress :=
  pageStep session.decode session.jsonParse session.messageBytes session.limits session.file s

def loopOf (session : SessionFile) (rounds : Nat) (s : PageState) : Option (Except PageError Page) :=
  pageLoop session.decode session.jsonParse session.messageBytes session.limits session.file rounds s

theorem PageAt.visited_iff (hdistinct : session.DistinctUuids)
    (hat : PageAt session newest seen s line) :
    s.visited.any (strictEq s.nextExpectedUuid) = true ↔ line ∈ seen := by
  obtain ⟨uuid, -, huuid⟩ := hat.reached.uuid
  rw [hat.visited, hat.expected, huuid, List.any_eq_true]
  constructor
  · rintro ⟨other, hmem, hsame⟩
    obtain ⟨seenLine, hseen, rfl⟩ := List.mem_map.mp (List.mem_reverse.mp hmem)
    have hline := (hat.earlier seenLine hseen).hasLine
    rw [hdistinct line seenLine uuid hat.reached.hasLine hline huuid (strictEq_string.mp hsame)]
    exact hseen
  · intro hmem
    refine ⟨session.uuidOf line, ?_, strictEq_string.mpr huuid⟩
    exact List.mem_reverse.mpr (List.mem_map.mpr ⟨line, hmem, rfl⟩)

theorem PageAt.step_seen (hdistinct : session.DistinctUuids)
    (hat : PageAt session newest seen s line) (hmem : line ∈ seen) :
    ∃ error, stepOf session s = .error error := by
  unfold stepOf pageStep
  rw [if_pos ((hat.visited_iff hdistinct).mpr hmem)]
  exact ⟨_, rfl⟩

theorem messagesOf_singleton : session.messagesOf [line] =
    if isConversationMessage (session.recordOf line) then [toSessionMessage (session.recordOf line)]
    else [] := by
  unfold messagesOf
  rw [List.filter_singleton]
  cases isConversationMessage (session.recordOf line) <;> rfl

theorem PageAt.step_new (hdecode : session.decode [] = []) (hdistinct : session.DistinctUuids)
    (hat : PageAt session newest seen s line) (hnew : line ∉ seen) :
    stepOf session s =
      let selected := session.messagesOf (seen ++ [line])
      if ¬ (session.parentOf line).isTruthy then
        .ok (.finished ⟨selected.reverse, none, .null, s.parsedLineCount + 1⟩)
      else
        let found := findRecordOffsetByUuid session.decode session.file (session.parentOf line)
          line.start line.stop ((session.uuidOf line, line.start) :: s.offsets)
        match found.1 with
        | none => .error (.parentNotFound (session.parentOf line))
        | some nextOffset =>
          if session.isFull selected then
            .ok (.finished ⟨selected.reverse, some nextOffset, session.parentOf line,
              s.parsedLineCount + 1⟩)
          else
            .ok (.more ⟨nextOffset, session.parentOf line, selected,
              session.uuidOf line :: s.visited, s.parsedLineCount + 1, found.2⟩) := by
  have hvisited : ¬ s.visited.any (strictEq s.nextExpectedUuid) = true := by
    rw [hat.visited_iff hdistinct]
    exact hnew
  have hread : readLineAtStart session.file s.nextOffset = some line := by
    rw [hat.offset]
    exact readLineAtStart_of_isLine hat.reached.hasLine (hat.reached.start_lt hdecode)
  have huuid : strictEq ((parseRecord session.decode session.jsonParse line.bytes).get "uuid")
      s.nextExpectedUuid = true := by
    obtain ⟨uuid, -, huuid⟩ := hat.reached.uuid
    rw [hat.expected, huuid]
    exact strictEq_string_right.mpr huuid
  have hselected : (if isConversationMessage (session.recordOf line)
      then s.selectedNewestFirst ++ [toSessionMessage (session.recordOf line)]
      else s.selectedNewestFirst) = session.messagesOf (seen ++ [line]) := by
    rw [messagesOf_append, messagesOf_singleton, hat.selected]
    split_ifs
    · rfl
    · rw [List.append_nil]
  unfold stepOf pageStep
  rw [if_neg hvisited, hread]
  dsimp only
  rw [if_neg (not_not.mpr huuid)]
  rw [show parseRecord session.decode session.jsonParse line.bytes = session.recordOf line from rfl,
    hselected, hat.expected]
  rfl

theorem loopOf_succ (rounds : Nat) :
    loopOf session (rounds + 1) s =
      match stepOf session s with
      | .error error => some (.error error)
      | .ok (.finished page) => some (.ok page)
      | .ok (.more next) => loopOf session rounds next := rfl

def PageOf (session : SessionFile) (lines : List Line) (cursor : Option Nat)
    (out : Option (Except PageError Page)) : Prop :=
  ∃ page, out = some (.ok page) ∧ page.messages = (session.messagesOf lines).reverse ∧
    page.nextCursor = cursor

theorem PageAt.loop_root (hdecode : session.decode [] = []) (hdistinct : session.DistinctUuids)
    (hat : PageAt session newest seen s line) (hnew : line ∉ seen)
    (hroot : (session.parentOf line).isTruthy = false) (rounds : Nat) :
    PageOf session (seen ++ [line]) none (loopOf session (rounds + 1) s) := by
  have hstep := hat.step_new hdecode hdistinct hnew
  dsimp only at hstep
  rw [if_pos (by rw [hroot]; simp)] at hstep
  rw [loopOf_succ, hstep]
  exact ⟨_, rfl, rfl, rfl⟩

theorem PageAt.loop_lost (hdecode : session.decode [] = []) (hdistinct : session.DistinctUuids)
    (hkeys : session.KeysApart newest) (hat : PageAt session newest seen s line)
    (hnew : line ∉ seen) (hlost : session.Stops session.Finds .failed line) (rounds : Nat) :
    ∃ error, loopOf session (rounds + 1) s = some (.error error) := by
  obtain ⟨htruthy, hnone⟩ := hlost
  obtain ⟨hsome, -, -⟩ := lookup_spec hdecode hkeys hat.reached htruthy hat.offsets
  have hstep := hat.step_new hdecode hdistinct hnew
  dsimp only at hstep
  rw [if_neg (not_not.mpr htruthy)] at hstep
  generalize findRecordOffsetByUuid session.decode session.file (session.parentOf line) line.start
    line.stop ((session.uuidOf line, line.start) :: s.offsets) = found at hsome hstep
  obtain ⟨start, offsets⟩ := found
  cases start with
  | none =>
    rw [loopOf_succ, hstep]
    exact ⟨_, rfl⟩
  | some start =>
    obtain ⟨parent, hfinds, -⟩ := hsome start rfl
    exact absurd hfinds (hnone parent)

theorem PageAt.loop_parent (hdecode : session.decode [] = []) (hdistinct : session.DistinctUuids)
    (hkeys : session.KeysApart newest) (hat : PageAt session newest seen s line)
    (hnew : line ∉ seen) (hfinds : session.Finds line parent) (rounds : Nat) :
    (session.isFull (session.messagesOf (seen ++ [line])) = true ∧
      PageOf session (seen ++ [line]) (some parent.start) (loopOf session (rounds + 1) s)) ∨
    (session.isFull (session.messagesOf (seen ++ [line])) = false ∧
      ∃ next, PageAt session newest (seen ++ [line]) next parent ∧
        loopOf session (rounds + 1) s = loopOf session rounds next) := by
  obtain ⟨hsome, hnone, hafter⟩ :=
    lookup_spec hdecode hkeys hat.reached hfinds.1.isTruthy hat.offsets
  have hstep := hat.step_new hdecode hdistinct hnew
  dsimp only at hstep
  rw [if_neg (not_not.mpr hfinds.1.isTruthy)] at hstep
  generalize findRecordOffsetByUuid session.decode session.file (session.parentOf line) line.start
    line.stop ((session.uuidOf line, line.start) :: s.offsets) = found at hsome hnone hafter hstep
  obtain ⟨start, offsets⟩ := found
  cases start with
  | none => exact absurd hfinds (hnone rfl parent)
  | some start =>
    obtain ⟨other, hother, rfl⟩ := hsome start rfl
    obtain rfl := finds_functional hdistinct line _ _ hfinds hother
    dsimp only at hstep
    rw [loopOf_succ]
    cases hfull : session.isFull (session.messagesOf (seen ++ [line])) with
    | true =>
      rw [if_pos hfull] at hstep
      rw [hstep]
      exact Or.inl ⟨rfl, _, rfl, rfl, rfl⟩
    | false =>
      rw [if_neg (by rw [hfull]; simp)] at hstep
      rw [hstep]
      refine Or.inr ⟨rfl, _, ⟨hat.reached.follow hfinds, ?_, rfl,
        hfinds.1.named, rfl, ?_, hafter⟩, rfl⟩
      · intro other hmem
        rcases List.mem_append.mp hmem with hold | hlast
        · exact hat.earlier other hold
        · rw [List.mem_singleton.mp hlast]
          exact hat.reached
      · rw [List.map_append, List.reverse_append, hat.visited]
        rfl

/-- A page goes up the chain until it is full. -/
theorem PageAt.loop_path (hdecode : session.decode [] = []) (hdistinct : session.DistinctUuids)
    (hkeys : session.KeysApart newest) {rest : List Line} {last : Line}
    (hpath : Path session.Finds line rest last) (hat : PageAt session newest seen s line)
    (hnodup : (seen ++ rest).Nodup) (rounds : Nat) :
    (∃ next, PageAt session newest (seen ++ rest) next last ∧
      (rest ≠ [] → session.isFull (session.messagesOf (seen ++ rest)) = false) ∧
      loopOf session (rest.length + rounds) s = loopOf session rounds next) ∨
    ∃ taken left next, rest = taken ++ left ∧ taken ≠ [] ∧ Path session.Finds line taken next ∧
      Path session.Finds next left last ∧ Reached session newest next ∧
      session.isFull (session.messagesOf (seen ++ taken)) = true ∧
      PageOf session (seen ++ taken) (some next.start)
        (loopOf session (rest.length + rounds) s) := by
  induction hpath generalizing seen s with
  | nil line =>
    refine Or.inl ⟨s, ?_, ?_, ?_⟩
    · rw [List.append_nil]
      exact hat
    · intro h
      exact absurd rfl h
    · rw [List.length_nil, Nat.zero_add]
  | @cons line parent last rest hfinds hrest ih =>
    have hsplit : seen ++ line :: rest = (seen ++ [line]) ++ rest := by simp
    have hnew : line ∉ seen := by
      intro hmem
      exact (List.nodup_append.mp hnodup).2.2 line hmem line List.mem_cons_self rfl
    have hlength : (line :: rest).length + rounds = rest.length + rounds + 1 := by
      rw [List.length_cons]
      omega
    rw [hlength]
    rcases hat.loop_parent hdecode hdistinct hkeys hnew hfinds (rest.length + rounds) with
      ⟨hfull, hpage⟩ | ⟨hopen, next, hnext, hloop⟩
    · exact Or.inr ⟨[line], rest, parent, rfl, by simp, Path.cons hfinds (Path.nil parent), hrest,
        hat.reached.follow hfinds, hfull, hpage⟩
    · rw [hloop, hsplit]
      rw [hsplit] at hnodup
      rcases ih hnext hnodup with ⟨final, hfinal, hleft, hend⟩ |
        ⟨taken, left, after, hrest', -, htaken, hleft, hafter, hfull, hpage⟩
      · refine Or.inl ⟨final, hfinal, ?_, hend⟩
        intro _
        by_cases hnil : rest = []
        · rw [hnil, List.append_nil]
          exact hopen
        · exact hleft hnil
      · rw [List.append_assoc] at hfull hpage
        exact Or.inr ⟨line :: taken, left, after, by rw [hrest', List.cons_append], by simp,
          Path.cons hfinds htaken, hleft, hafter, hfull, hpage⟩

end page

end AgentRelay.SessionPage
