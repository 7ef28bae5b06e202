import AgentRelay.RelayState

/-! A reply that is too large for one frame. The relay splits its text between characters until
every frame is small enough, and the client puts the pieces together by their index, in whatever
order and however often they come. -/
namespace AgentRelay.Replies
open Std Text Relay

def maxBrokerTextFrameBytes : Nat := 65536

def remoteActionResultChunkTargetChars : Nat := 32768

def remoteActionResultChunkMinChars : Nat := 1024

/-- The loop over the characters; `piece` is the piece in hand, reversed, of `charsInPiece`
characters. -/
def splitFrom (maxChars : Nat) : List Char → List Char → Nat → List String
  | [], piece, _ => [String.ofList piece.reverse]
  | c :: rest, piece, charsInPiece =>
    if charsInPiece = maxChars then
      String.ofList piece.reverse :: splitFrom maxChars rest [c] 1
    else splitFrom maxChars rest (c :: piece) (charsInPiece + 1)

def splitOnCharBoundaries (value : String) (maxChars : Nat) : List String :=
  splitFrom (max maxChars 1) value.toList [] 0

section Relay

variable (serialized : String) (frameBytes : String → Nat → Nat → Nat)

/-- Every piece is measured at the last index, which is the widest. -/
def largestFrame (pieces : List String) : Nat :=
  (pieces.map fun piece => frameBytes piece (pieces.length - 1) pieces.length).foldl max 0

/-- Halve the pieces until the largest frame fits. -/
def fitFrom (chunkChars : Nat) : Option (List String) :=
  let pieces := splitOnCharBoundaries serialized chunkChars
  if largestFrame frameBytes pieces ≤ maxBrokerTextFrameBytes then some pieces
  else if chunkChars ≤ remoteActionResultChunkMinChars then none
  else fitFrom (max (chunkChars / 2) remoteActionResultChunkMinChars)
termination_by chunkChars
decreasing_by
  simp only [remoteActionResultChunkMinChars] at *
  omega

def fitChunks (targetChars : Nat) : Option (List String) :=
  fitFrom serialized frameBytes (max (min serialized.length targetChars) 1)

end Relay

structure ResultChunk where
  action : Option String
  chunkIndex : Option Int
  chunkCount : Option Int
  data : Option JsString
  deriving DecidableEq, Repr

structure PendingChunks where
  action : Option String
  chunkCount : Nat
  chunks : List (Option JsString)
  receivedCount : Nat
  deriving DecidableEq, Repr

/-- What the text of a reply parses to: an object, with these fields among others. -/
structure ActionResult (V : Type) where
  ok : Bool
  error : Option String := none
  fields : V
  deriving DecidableEq, Repr

inductive Settlement (V : Type)
  | resolved (result : ActionResult V)
  | rejected (error : String)
  deriving DecidableEq, Repr

def ActionResult.settlement {V : Type} (result : ActionResult V) (actionType : String) :
    Settlement V :=
  if result.ok then .resolved result
  else .rejected ((result.error.filter (· ≠ "")).getD (actionType ++ " failed"))

/-- A pending action is kept with its type. -/
structure Client (V : Type) where
  pendingActions : Table String := ∅
  pendingActionChunks : Table PendingChunks := ∅
  settled : List (String × Settlement V) := []

namespace Client

variable {V : Type} (parse : JsString → Except String (ActionResult V))

def clearPendingActionChunks (client : Client V) (actionId : String) : Client V :=
  if actionId = "" then client
  else { client with pendingActionChunks := client.pendingActionChunks.erase actionId }

/-- Both ends of a pending action: it is taken out and its promise settled, once. -/
def settle (client : Client V) (actionId : String) (settlement : String → Settlement V) :
    Client V :=
  if actionId = "" then client
  else
    let cleared := client.clearPendingActionChunks actionId
    match client.pendingActions[actionId]? with
    | some actionType =>
      { cleared with
        pendingActions := cleared.pendingActions.erase actionId
        settled := cleared.settled ++ [(actionId, settlement actionType)] }
    | none => cleared

def rejectPendingAction (client : Client V) (actionId error : String) : Client V :=
  client.settle actionId fun _ => .rejected error

def handleRemoteActionResult (client : Client V) (actionId : String) (result : ActionResult V) :
    Client V :=
  (client.clearPendingActionChunks actionId).settle actionId result.settlement

/-- The numbers and the text of a chunk that is not malformed. -/
def wellFormed (chunk : ResultChunk) : Option (Nat × Nat × JsString) := do
  let chunkIndex ← chunk.chunkIndex
  let chunkCount ← chunk.chunkCount
  let data ← chunk.data
  if chunkIndex < 0 ∨ chunkCount ≤ 0 ∨ chunkCount ≤ chunkIndex then none
  else some (chunkIndex.toNat, chunkCount.toNat, data)

def reassemble (chunks : List (Option JsString)) : Except String JsString :=
  match chunks.findIdx? (·.isNone) with
  | some index => .error ("remote action result chunk " ++ toString (index + 1) ++ " is missing")
  | none => .ok (chunks.flatMap (·.getD []))

def reassembleRemoteActionResultChunks (chunks : List (Option JsString)) :
    Except String (ActionResult V) := do
  parse (← reassemble chunks)

def handleRemoteActionResultChunk (client : Client V) (actionId : String) (chunk : ResultChunk) :
    Client V :=
  if actionId = "" ∨ ¬ client.pendingActions.contains actionId then
    client.clearPendingActionChunks actionId
  else
    match wellFormed chunk with
    | none => client.rejectPendingAction actionId "remote action chunk is malformed"
    | some (chunkIndex, chunkCount, data) =>
      let pendingChunks := client.pendingActionChunks[actionId]?.getD
        { action := chunk.action, chunkCount, chunks := List.replicate chunkCount none
          receivedCount := 0 }
      if pendingChunks.chunkCount ≠ chunkCount then
        client.rejectPendingAction actionId "remote action chunk count changed mid-stream"
      else
        let advancedTransfer := (pendingChunks.chunks[chunkIndex]?.join).isNone
        let pendingChunks := { pendingChunks with
          receivedCount := pendingChunks.receivedCount + if advancedTransfer then 1 else 0
          chunks := pendingChunks.chunks.set chunkIndex (some data) }
        if pendingChunks.receivedCount ≠ chunkCount then
          { client with
            pendingActionChunks := client.pendingActionChunks.insert actionId pendingChunks }
        else
          let client := client.clearPendingActionChunks actionId
          match reassembleRemoteActionResultChunks parse pendingChunks.chunks with
          | .ok result => client.handleRemoteActionResult actionId result
          | .error error => client.rejectPendingAction actionId error

def receive (client : Client V) (events : List (String × ResultChunk)) : Client V :=
  events.foldl (fun client event => client.handleRemoteActionResultChunk parse event.1 event.2)
    client

def settledFor (client : Client V) (actionId : String) : List (Settlement V) :=
  (client.settled.filter (·.1 = actionId)).map (·.2)

end Client

def chunkFrame (action : String) (pieces : List String) (index : Nat) : ResultChunk where
  action := some action
  chunkIndex := some index
  chunkCount := some pieces.length
  data := pieces[index]?.map utf16

def joined (pieces : List String) : String := pieces.foldr (· ++ ·) ""

theorem utf16_joined (pieces : List String) : utf16 (joined pieces) = pieces.flatMap utf16 := by
  induction pieces with
  | nil => simp [joined]
  | cons piece pieces ih =>
    rw [List.flatMap_cons, ← ih, ← utf16_append]
    rfl

theorem splitFrom_joined (maxChars : Nat) (rest piece : List Char) (charsInPiece : Nat) :
    joined (splitFrom maxChars rest piece charsInPiece) =
      String.ofList (piece.reverse ++ rest) := by
  induction rest generalizing piece charsInPiece with
  | nil => simp [splitFrom, joined]
  | cons c rest ih =>
    unfold splitFrom
    split_ifs with hfull
    · have hrest := ih [c] 1
      unfold joined at hrest ⊢
      rw [List.foldr_cons, hrest]
      simp [String.ofList_append]
    · rw [ih]
      simp

theorem splitFrom_nonempty {maxChars : Nat} (hmax : 0 < maxChars) (rest piece : List Char)
    (h : piece ≠ [] ∨ rest ≠ []) :
    ∀ text ∈ splitFrom maxChars rest piece piece.length, text ≠ "" := by
  induction rest generalizing piece with
  | nil =>
    have hpiece := h.resolve_right (by simp)
    intro text hmem
    rw [splitFrom, List.mem_singleton] at hmem
    rw [hmem]
    simpa using hpiece
  | cons c rest ih =>
    intro text hmem
    unfold splitFrom at hmem
    split_ifs at hmem with hfull
    · rcases List.mem_cons.mp hmem with rfl | hrest
      · have hpiece : piece ≠ [] := by
          rintro rfl
          rw [List.length_nil] at hfull
          omega
        simpa using hpiece
      · exact ih [c] (Or.inl (by simp)) text hrest
    · exact ih (c :: piece) (Or.inl (by simp)) text hmem

theorem split_joined (value : String) (maxChars : Nat) :
    joined (splitOnCharBoundaries value maxChars) = value := by
  unfold splitOnCharBoundaries
  rw [splitFrom_joined]
  simp

theorem split_nonempty {value : String} (hvalue : value ≠ "") (maxChars : Nat) :
    ∀ piece ∈ splitOnCharBoundaries value maxChars, piece ≠ "" := by
  apply splitFrom_nonempty (by omega)
  right
  intro hnil
  exact hvalue (String.toList_inj.mp hnil)

theorem splitFrom_length_pos (maxChars : Nat) (rest piece : List Char) (charsInPiece : Nat) :
    0 < (splitFrom maxChars rest piece charsInPiece).length := by
  induction rest generalizing piece charsInPiece with
  | nil => simp [splitFrom]
  | cons c rest ih =>
    unfold splitFrom
    split_ifs
    · simp
    · exact ih (c :: piece) (charsInPiece + 1)

theorem split_length_pos (value : String) (maxChars : Nat) :
    0 < (splitOnCharBoundaries value maxChars).length := splitFrom_length_pos _ _ _ _

theorem le_foldl_max (l : List Nat) (start : Nat) :
    start ≤ l.foldl max start ∧ ∀ n ∈ l, n ≤ l.foldl max start := by
  induction l generalizing start with
  | nil => simp
  | cons m l ih =>
    obtain ⟨hstart, hall⟩ := ih (max start m)
    rw [List.foldl_cons, List.forall_mem_cons]
    exact ⟨by omega, by omega, hall⟩

def decimalWidth (n : Nat) : Nat := Nat.log 10 n + 1

section Relay

variable {serialized : String} {frameBytes : String → Nat → Nat → Nat}

theorem fitFrom_eq {chunkChars : Nat} {pieces : List String}
    (h : fitFrom serialized frameBytes chunkChars = some pieces) :
    (∃ maxChars, pieces = splitOnCharBoundaries serialized maxChars) ∧
      largestFrame frameBytes pieces ≤ maxBrokerTextFrameBytes := by
  induction chunkChars using fitFrom.induct serialized frameBytes with
  | case1 chunkChars _ hfits =>
    unfold fitFrom at h
    rw [if_pos hfits] at h
    obtain rfl := Option.some.inj h
    exact ⟨⟨chunkChars, rfl⟩, hfits⟩
  | case2 chunkChars _ hfits hmin =>
    unfold fitFrom at h
    rw [if_neg hfits, if_pos hmin] at h
    exact absurd h (by simp)
  | case3 chunkChars _ hfits hmin ih =>
    unfold fitFrom at h
    rw [if_neg hfits, if_neg hmin] at h
    exact ih h

theorem frame_fits (hdigits : ∀ piece i j count, decimalWidth i ≤ decimalWidth j →
      frameBytes piece i count ≤ frameBytes piece j count) {pieces : List String}
    (hfits : largestFrame frameBytes pieces ≤ maxBrokerTextFrameBytes) (index : Nat)
    (hindex : index < pieces.length) :
    frameBytes pieces[index] index pieces.length ≤ maxBrokerTextFrameBytes := by
  have hwidth : decimalWidth index ≤ decimalWidth (pieces.length - 1) := by
    unfold decimalWidth
    have := Nat.log_mono_right (b := 10) (show index ≤ pieces.length - 1 by omega)
    omega
  have hlast := hdigits pieces[index] index (pieces.length - 1) pieces.length hwidth
  have hmax : frameBytes pieces[index] (pieces.length - 1) pieces.length ≤
      largestFrame frameBytes pieces :=
    (le_foldl_max _ 0).2 _ (List.mem_map_of_mem (List.getElem_mem hindex))
  omega

end Relay

namespace Client

variable {V : Type} {parse : JsString → Except String V}

/-- The slots of a reply of which these indices were received. -/
def held (pieces : List String) (seen : List Nat) : List (Option JsString) :=
  (List.range pieces.length).map fun index =>
    if index ∈ seen then pieces[index]?.map utf16 else none

theorem held_length (pieces : List String) (seen : List Nat) :
    (held pieces seen).length = pieces.length := by simp [held]

theorem held_nil (pieces : List String) :
    held pieces [] = List.replicate pieces.length none := by
  simp [held, List.map_const']

theorem held_getElem {pieces : List String} (seen : List Nat) {index : Nat}
    (h : index < pieces.length) :
    (held pieces seen)[index]? =
      some (if index ∈ seen then some (utf16 pieces[index]) else none) := by
  simp [held, h]

theorem held_set {pieces : List String} {seen : List Nat} {index : Nat}
    (h : index < pieces.length) :
    (held pieces seen).set index (some (utf16 pieces[index])) = held pieces (index :: seen) := by
  apply List.ext_getElem?
  intro other
  by_cases hother : other < pieces.length
  · rw [List.getElem?_set, held_getElem _ hother, held_length]
    by_cases heq : index = other
    · subst heq
      rw [if_pos rfl, if_pos h, held_getElem _ h]
      simp
    · rw [if_neg heq, held_getElem _ hother]
      have hne : other ≠ index := fun h => heq h.symm
      simp [hne]
  · rw [List.getElem?_eq_none (by rw [List.length_set, held_length]; omega),
      List.getElem?_eq_none (by rw [held_length]; omega)]

theorem held_full (pieces : List String) (seen : List Nat) :
    (held pieces seen).countP (·.isSome) = pieces.length ↔
      ∀ index < pieces.length, index ∈ seen := by
  rw [← held_length pieces seen, List.countP_eq_length, held_length]
  simp only [held, List.mem_map, List.mem_range, forall_exists_index, and_imp,
    forall_apply_eq_imp_iff₂]
  constructor
  · intro hall index hindex
    have hsome := hall index hindex
    by_contra hmem
    rw [if_neg hmem] at hsome
    exact absurd hsome (by simp)
  · intro hall index hindex
    rw [if_pos (hall index hindex)]
    simp [hindex]

theorem reassemble_held {pieces : List String} {seen : List Nat}
    (h : ∀ index < pieces.length, index ∈ seen) :
    reassemble (held pieces seen) = .ok (utf16 (joined pieces)) := by
  have hheld : held pieces seen = pieces.map fun piece => some (utf16 piece) := by
    apply List.ext_getElem?
    intro index
    by_cases hindex : index < pieces.length
    · rw [held_getElem _ hindex, if_pos (h index hindex)]
      simp [hindex]
    · rw [List.getElem?_eq_none (by rw [held_length]; omega),
        List.getElem?_eq_none (by rw [List.length_map]; omega)]
  have hnone : (held pieces seen).findIdx? (·.isNone) = none := by
    rw [hheld]
    simp
  unfold reassemble
  rw [hnone, hheld, utf16_joined]
  simp [List.flatMap_map]

structure Holding (pieces : List String) (actionId actionType : String) (seen : List Nat)
    (client : Client V) : Prop where
  pending : client.pendingActions[actionId]? = some actionType
  chunks : ∀ action, ∃ kept, client.pendingActionChunks[actionId]?.getD
    { action, chunkCount := pieces.length, chunks := List.replicate pieces.length none
      receivedCount := 0 } =
    { action := kept, chunkCount := pieces.length, chunks := held pieces seen
      receivedCount := (held pieces seen).countP (·.isSome) }

theorem holding_start (pieces : List String) {actionId actionType : String} {client : Client V}
    (hpending : client.pendingActions[actionId]? = some actionType)
    (hchunks : client.pendingActionChunks[actionId]? = none) :
    Holding pieces actionId actionType [] client := by
  refine ⟨hpending, fun action => ⟨action, ?_⟩⟩
  rw [hchunks, Option.getD_none, held_nil]
  simp [List.countP_replicate]

theorem wellFormed_chunkFrame (action : String) {pieces : List String} {index : Nat}
    (h : index < pieces.length) :
    wellFormed (chunkFrame action pieces index) =
      some (index, pieces.length, utf16 pieces[index]) := by
  have hne : pieces ≠ [] := by
    rintro rfl
    exact absurd h (by simp)
  simp [wellFormed, chunkFrame, h, hne]

theorem receivedCount_eq {pieces : List String} (seen : List Nat) {index : Nat}
    (h : index < pieces.length) :
    (held pieces seen).countP (·.isSome) +
        (if ((held pieces seen)[index]?.join).isNone then 1 else 0) =
      (held pieces (index :: seen)).countP (·.isSome) := by
  have hlen : index < (held pieces seen).length := by
    rw [held_length]
    exact h
  have hslot := held_getElem seen h
  have hget : (held pieces seen)[index] =
      if index ∈ seen then some (utf16 pieces[index]) else none := by
    rw [List.getElem?_eq_getElem hlen] at hslot
    exact Option.some.inj hslot
  rw [← held_set h, List.countP_set hlen, hslot, hget]
  by_cases hmem : index ∈ seen
  · have hpos : 0 < (held pieces seen).countP (·.isSome) := by
      rw [List.countP_pos_iff]
      exact ⟨_, List.getElem_mem hlen, by rw [hget, if_pos hmem]; rfl⟩
    simp only [hmem, if_true, Option.join_some, Option.isNone_some, Bool.false_eq_true, if_false,
      Option.isSome_some]
    omega
  · simp [hmem]

/-- How a whole reply ends: with what its text parses to. -/
def settlementOf (parse : JsString → Except String (ActionResult V)) (text actionType : String) :
    Settlement V :=
  match parse (utf16 text) with
  | .ok result => result.settlement actionType
  | .error error => .rejected error

theorem clear_pending (client : Client V) (actionId : String) :
    (client.clearPendingActionChunks actionId).pendingActions = client.pendingActions ∧
      (client.clearPendingActionChunks actionId).settled = client.settled := by
  unfold clearPendingActionChunks
  split_ifs <;> exact ⟨rfl, rfl⟩

theorem contains_pending {client : Client V} {actionId actionType : String}
    (h : client.pendingActions[actionId]? = some actionType) :
    client.pendingActions.contains actionId := by
  rw [ExtTreeMap.contains_eq_isSome_getElem?, h]
  rfl

theorem settle_pending {client : Client V} {actionId actionType : String} (hid : actionId ≠ "")
    (hpending : client.pendingActions[actionId]? = some actionType)
    (settlement : String → Settlement V) :
    ¬ (client.settle actionId settlement).pendingActions.contains actionId ∧
      (client.settle actionId settlement).settled =
        client.settled ++ [(actionId, settlement actionType)] := by
  unfold settle
  dsimp only
  rw [if_neg hid, hpending]
  exact ⟨by simp, by rw [(clear_pending client actionId).2]⟩

/-- The step lemma: a chunk of the reply is kept until the last missing one comes, and that one
settles the action. -/
theorem step_own (parse : JsString → Except String (ActionResult V)) {pieces : List String}
    {actionId actionType : String} (hid : actionId ≠ "") {seen : List Nat} {client : Client V}
    (h : client.Holding pieces actionId actionType seen) (action : String) {index : Nat}
    (hindex : index < pieces.length) :
    ((∃ missing < pieces.length, missing ∉ index :: seen) →
      (client.handleRemoteActionResultChunk parse actionId
        (chunkFrame action pieces index)).Holding pieces actionId actionType (index :: seen) ∧
      (client.handleRemoteActionResultChunk parse actionId
        (chunkFrame action pieces index)).settled = client.settled) ∧
    ((∀ index' < pieces.length, index' ∈ index :: seen) →
      ¬ (client.handleRemoteActionResultChunk parse actionId
        (chunkFrame action pieces index)).pendingActions.contains actionId ∧
      (client.handleRemoteActionResultChunk parse actionId
        (chunkFrame action pieces index)).settled =
          client.settled ++ [(actionId, settlementOf parse (joined pieces) actionType)]) := by
  obtain ⟨kept, hkept⟩ := h.chunks (some action)
  have hcount := receivedCount_eq seen hindex
  have hfull := held_full pieces (index :: seen)
  have hopen : ¬ (actionId = "" ∨ ¬ client.pendingActions.contains actionId) := by
    simp [hid, contains_pending h.pending]
  have hstep : client.handleRemoteActionResultChunk parse actionId
      (chunkFrame action pieces index) =
      if ¬ ∀ index' < pieces.length, index' ∈ index :: seen then
        { client with
          pendingActionChunks := client.pendingActionChunks.insert actionId
            { action := kept, chunkCount := pieces.length, chunks := held pieces (index :: seen)
              receivedCount := (held pieces (index :: seen)).countP (·.isSome) } }
      else
        match reassembleRemoteActionResultChunks parse (held pieces (index :: seen)) with
        | .ok result =>
          (client.clearPendingActionChunks actionId).handleRemoteActionResult actionId result
        | .error error =>
          (client.clearPendingActionChunks actionId).rejectPendingAction actionId error := by
    unfold handleRemoteActionResultChunk
    rw [if_neg hopen, wellFormed_chunkFrame action hindex]
    dsimp only
    rw [show (chunkFrame action pieces index).action = some action from rfl, hkept]
    simp only [ne_eq, not_true_eq_false, if_false, hcount, held_set hindex, hfull]
  constructor
  · rintro ⟨missing, hlt, hmissing⟩
    have hnot : ¬ ∀ index' < pieces.length, index' ∈ index :: seen :=
      fun hall => hmissing (hall missing hlt)
    rw [hstep, if_pos hnot]
    refine ⟨⟨h.pending, fun other => ⟨kept, ?_⟩⟩, rfl⟩
    simp
  · intro hall
    obtain ⟨hpending, hsettled⟩ := clear_pending client actionId
    obtain ⟨hpending', hsettled'⟩ :=
      clear_pending (client.clearPendingActionChunks actionId) actionId
    have hreassembled : reassembleRemoteActionResultChunks parse (held pieces (index :: seen)) =
        parse (utf16 (joined pieces)) := by
      unfold reassembleRemoteActionResultChunks
      rw [reassemble_held hall]
      rfl
    rw [hstep, if_neg (not_not_intro hall), hreassembled]
    unfold settlementOf
    cases parse (utf16 (joined pieces)) with
    | ok result =>
      obtain ⟨hgone, hlist⟩ := settle_pending hid
        (by rw [hpending', hpending]; exact h.pending) result.settlement
      exact ⟨hgone, hlist.trans (by rw [hsettled', hsettled])⟩
    | error error =>
      obtain ⟨hgone, hlist⟩ := settle_pending hid (by rw [hpending]; exact h.pending)
        fun _ => .rejected error
      exact ⟨hgone, hlist.trans (by rw [hsettled])⟩

structure SameFor (actionId : String) (client client' : Client V) : Prop where
  pending : client'.pendingActions[actionId]? = client.pendingActions[actionId]?
  chunks : client'.pendingActionChunks[actionId]? = client.pendingActionChunks[actionId]?
  settled : client'.settledFor actionId = client.settledFor actionId

theorem SameFor.refl (actionId : String) (client : Client V) : SameFor actionId client client :=
  ⟨rfl, rfl, rfl⟩

theorem SameFor.trans {actionId : String} {a b c : Client V} (hab : SameFor actionId a b)
    (hbc : SameFor actionId b c) : SameFor actionId a c :=
  ⟨hbc.pending.trans hab.pending, hbc.chunks.trans hab.chunks, hbc.settled.trans hab.settled⟩

theorem clear_other (client : Client V) {actionId other : String} (h : actionId ≠ other) :
    SameFor actionId client (client.clearPendingActionChunks other) := by
  unfold clearPendingActionChunks
  split_ifs
  · exact .refl actionId client
  · exact ⟨rfl, by rw [Table.getElem?_erase_of, if_neg h], rfl⟩

theorem settle_other {client : Client V} {actionId other : String} (h : actionId ≠ other)
    (settlement : String → Settlement V) :
    SameFor actionId client (client.settle other settlement) := by
  unfold settle
  dsimp only
  have hcleared := clear_other client h
  split_ifs
  · exact .refl actionId client
  split
  · refine ⟨?_, hcleared.chunks, ?_⟩
    · rw [Table.getElem?_erase_of, if_neg h]
      exact hcleared.pending
    · have hne : ¬ other = actionId := fun heq => h heq.symm
      rw [← hcleared.settled]
      simp [settledFor, List.filter_append, hne]
  · exact hcleared

theorem step_other (parse : JsString → Except String (ActionResult V)) (client : Client V)
    {actionId other : String} (h : actionId ≠ other)
    (chunk : ResultChunk) :
    SameFor actionId client (client.handleRemoteActionResultChunk parse other chunk) := by
  unfold handleRemoteActionResultChunk
  split_ifs
  · exact clear_other client h
  · split
    · exact settle_other h _
    · dsimp only
      split_ifs
      · exact settle_other h _
      all_goals first
        | exact ⟨rfl, by rw [Table.getElem?_insert_of, if_neg h], rfl⟩
        | split
          · exact ((clear_other client h).trans (clear_other _ h)).trans (settle_other h _)
          · exact (clear_other client h).trans (settle_other h _)

theorem contains_of_same {actionId : String} {client client' : Client V}
    (h : SameFor actionId client client') :
    client'.pendingActions.contains actionId = client.pendingActions.contains actionId := by
  rw [ExtTreeMap.contains_eq_isSome_getElem?, ExtTreeMap.contains_eq_isSome_getElem?, h.pending]

theorem Holding.of_same {pieces : List String} {actionId actionType : String} {seen : List Nat}
    {client client' : Client V} (h : client.Holding pieces actionId actionType seen)
    (hsame : SameFor actionId client client') :
    client'.Holding pieces actionId actionType seen := by
  refine ⟨hsame.pending.trans h.pending, fun action => ?_⟩
  rw [hsame.chunks]
  exact h.chunks action

theorem receive_gone (parse : JsString → Except String (ActionResult V)) {actionId : String}
    (events : List (String × ResultChunk))
    {client : Client V} (hgone : ¬ client.pendingActions.contains actionId) :
    (client.receive parse events).settledFor actionId = client.settledFor actionId := by
  induction events generalizing client with
  | nil => rfl
  | cons event events ih =>
    have hsame : SameFor actionId client
        (client.handleRemoteActionResultChunk parse event.1 event.2) ∨
        client.handleRemoteActionResultChunk parse event.1 event.2 =
          client.clearPendingActionChunks actionId := by
      by_cases heq : actionId = event.1
      · right
        unfold handleRemoteActionResultChunk
        rw [← heq, if_pos (Or.inr hgone)]
      · exact Or.inl (step_other parse client heq event.2)
    have hkeeps : ¬ (client.handleRemoteActionResultChunk parse event.1
        event.2).pendingActions.contains actionId ∧
        (client.handleRemoteActionResultChunk parse event.1 event.2).settledFor actionId =
          client.settledFor actionId := by
      rcases hsame with hsame | hcleared
      · exact ⟨by rw [contains_of_same hsame]; exact hgone, hsame.settled⟩
      · rw [hcleared]
        unfold clearPendingActionChunks
        split_ifs <;> exact ⟨hgone, rfl⟩
    unfold receive at ih ⊢
    rw [List.foldl_cons, ih hkeeps.1, hkeeps.2]

/-- The chunk of this index is among the events. -/
def Arrives (action : String) (pieces : List String) (actionId : String)
    (events : List (String × ResultChunk)) (index : Nat) : Prop :=
  (actionId, chunkFrame action pieces index) ∈ events

theorem chunkFrame_injective {action : String} {pieces : List String} {i j : Nat}
    (h : chunkFrame action pieces i = chunkFrame action pieces j) : i = j := by
  have hindex := congrArg ResultChunk.chunkIndex h
  simpa [chunkFrame] using hindex

/-- The run lemma: as long as an index is missing nothing is settled, and with the last one the
action is, once. -/
theorem receive_own (parse : JsString → Except String (ActionResult V)) {action : String}
    {pieces : List String} {actionId actionType : String} (hid : actionId ≠ "")
    (events : List (String × ResultChunk))
    (hframes : ∀ event ∈ events, event.1 = actionId →
      ∃ index < pieces.length, event.2 = chunkFrame action pieces index)
    {seen : List Nat} {client : Client V} (h : client.Holding pieces actionId actionType seen)
    (hmissing : ∃ missing < pieces.length, missing ∉ seen) :
    ((∃ missing < pieces.length, missing ∉ seen ∧
        ¬ Arrives action pieces actionId events missing) →
      (client.receive parse events).pendingActions.contains actionId ∧
      (client.receive parse events).settledFor actionId = client.settledFor actionId) ∧
    ((∀ index < pieces.length, index ∈ seen ∨ Arrives action pieces actionId events index) →
      (client.receive parse events).settledFor actionId =
        client.settledFor actionId ++ [settlementOf parse (joined pieces) actionType]) := by
  induction events generalizing client seen with
  | nil =>
    refine ⟨fun _ => ⟨contains_pending h.pending, rfl⟩, fun hall => ?_⟩
    obtain ⟨missing, hlt, hnot⟩ := hmissing
    rcases hall missing hlt with hseen | harrives
    · exact absurd hseen hnot
    · exact absurd harrives (by simp [Arrives])
  | cons event events ih =>
    rw [List.forall_mem_cons] at hframes
    unfold receive at ih ⊢
    rw [List.foldl_cons]
    by_cases hown : event.1 = actionId
    · obtain ⟨index, hindex, hchunk⟩ := hframes.1 hown
      have hevent : event = (actionId, chunkFrame action pieces index) := Prod.ext hown hchunk
      subst hevent
      have harrives : ∀ other, Arrives action pieces actionId
          ((actionId, chunkFrame action pieces index) :: events) other ↔
            other = index ∨ Arrives action pieces actionId events other := by
        intro other
        unfold Arrives
        rw [List.mem_cons, Prod.mk.injEq]
        constructor
        · rintro (⟨-, heq⟩ | hmem)
          · exact Or.inl (chunkFrame_injective heq)
          · exact Or.inr hmem
        · rintro (rfl | hmem)
          · exact Or.inl ⟨rfl, rfl⟩
          · exact Or.inr hmem
      obtain ⟨hkeep, hlast⟩ := step_own parse hid h action hindex
      by_cases hmore : ∃ missing < pieces.length, missing ∉ index :: seen
      · obtain ⟨hholding, hsettled⟩ := hkeep hmore
        obtain ⟨hwaits, hends⟩ := ih hframes.2 hholding hmore
        have hsame : (client.handleRemoteActionResultChunk parse actionId
            (chunkFrame action pieces index)).settledFor actionId = client.settledFor actionId := by
          unfold settledFor
          rw [hsettled]
        rw [hsame] at hwaits hends
        constructor
        · rintro ⟨missing, hlt, hnot, hnever⟩
          rw [harrives, not_or] at hnever
          exact hwaits ⟨missing, hlt, by simp [hnever.1, hnot], hnever.2⟩
        · intro hall
          apply hends
          intro other hlt
          rcases hall other hlt with hseen | hcomes
          · exact Or.inl (List.mem_cons_of_mem index hseen)
          · rcases (harrives other).mp hcomes with rfl | hlater
            · exact Or.inl List.mem_cons_self
            · exact Or.inr hlater
      · have hfull : ∀ other < pieces.length, other ∈ index :: seen := by
          intro other hlt
          by_contra hnot
          exact hmore ⟨other, hlt, hnot⟩
        obtain ⟨hgone, hsettled⟩ := hlast hfull
        have hlist := receive_gone parse events hgone
        unfold receive at hlist
        constructor
        · rintro ⟨missing, hlt, hnot, hnever⟩
          rw [harrives, not_or] at hnever
          rcases List.mem_cons.mp (hfull missing hlt) with heq | hseen
          · exact absurd heq hnever.1
          · exact absurd hseen hnot
        · intro _
          rw [hlist]
          unfold settledFor
          rw [hsettled]
          simp [List.filter_append]
    · have hsame := step_other parse client
        (fun heq : actionId = event.1 => hown heq.symm) event.2
      obtain ⟨hwaits, hends⟩ := ih hframes.2 (h.of_same hsame) hmissing
      rw [hsame.settled] at hwaits hends
      have harrives : ∀ other, Arrives action pieces actionId (event :: events) other ↔
          Arrives action pieces actionId events other := by
        intro other
        unfold Arrives
        rw [List.mem_cons]
        exact ⟨fun hmem => hmem.resolve_left fun heq => hown (heq ▸ rfl), Or.inr⟩
      simp only [harrives]
      exact ⟨hwaits, hends⟩

end Client

/-- For every text and every frame size that grows with the digits of the index: the pieces are
the text, none is empty unless the text is, and every frame fits; and in whatever order the frames
come, repeated ones and those of other actions among them, the client settles the action once,
with the parsed text, when no index is missing any more, and not before. -/
theorem chunked_reply_arrives (serialized : String) (frameBytes : String → Nat → Nat → Nat)
    (hdigits : ∀ piece i j count, decimalWidth i ≤ decimalWidth j →
      frameBytes piece i count ≤ frameBytes piece j count)
    (targetChars : Nat) (pieces : List String)
    (hfit : fitChunks serialized frameBytes targetChars = some pieces) :
    joined pieces = serialized ∧ (serialized ≠ "" → ∀ piece ∈ pieces, piece ≠ "") ∧
    (∀ index (h : index < pieces.length),
      frameBytes pieces[index] index pieces.length ≤ maxBrokerTextFrameBytes) ∧
    ∀ {V : Type} (parse : JsString → Except String (ActionResult V)) (client : Client V)
      (actionId actionType action : String) (events : List (String × ResultChunk)),
      actionId ≠ "" → client.pendingActions[actionId]? = some actionType →
      client.pendingActionChunks[actionId]? = none →
      (∀ event ∈ events, event.1 = actionId →
        ∃ index < pieces.length, event.2 = chunkFrame action pieces index) →
      ((∃ missing < pieces.length, ¬ Client.Arrives action pieces actionId events missing) →
        (client.receive parse events).pendingActions.contains actionId ∧
        (client.receive parse events).settledFor actionId = client.settledFor actionId) ∧
      ((∀ index < pieces.length, Client.Arrives action pieces actionId events index) →
        (client.receive parse events).settledFor actionId =
          client.settledFor actionId ++ [Client.settlementOf parse serialized actionType]) := by
  obtain ⟨⟨maxChars, hpieces⟩, hlargest⟩ := fitFrom_eq hfit
  have hjoined : joined pieces = serialized := by rw [hpieces, split_joined]
  have hlength : 0 < pieces.length := by
    rw [hpieces]
    exact split_length_pos serialized maxChars
  refine ⟨hjoined, ?_, frame_fits hdigits hlargest, ?_⟩
  · intro hne
    rw [hpieces]
    exact split_nonempty hne maxChars
  · intro V parse client actionId actionType action events hid hpending hchunks hframes
    have hstart := Client.holding_start pieces hpending hchunks
    have hrun := Client.receive_own parse hid events hframes hstart
      ⟨0, hlength, List.not_mem_nil⟩
    rw [hjoined] at hrun
    constructor
    · rintro ⟨missing, hlt, hnever⟩
      exact hrun.1 ⟨missing, hlt, List.not_mem_nil, hnever⟩
    · intro hall
      exact hrun.2 fun index hlt => Or.inr (hall index hlt)

def waiting : Client Unit := { pendingActions := (∅ : Table String).insert "a1" "list_threads" }

/-- Two pieces, the second first and one of them twice, with a chunk of another action between. -/
theorem chunked_reply_arrives_shuffled :
    (waiting.receive
      (fun text => if text = utf16 "true" then .ok ⟨true, none, ()⟩ else .error "syntax")
      [("a1", chunkFrame "list_threads" ["tr", "ue"] 1), ("a2", ⟨none, none, none, none⟩),
        ("a1", chunkFrame "list_threads" ["tr", "ue"] 1),
        ("a1", chunkFrame "list_threads" ["tr", "ue"] 0)]).settledFor "a1" =
          [.resolved ⟨true, none, ()⟩] := by
  have hpieces : splitOnCharBoundaries "true" 2 = ["tr", "ue"] := by
    simp [splitOnCharBoundaries, splitFrom]
  have hfit :
      fitChunks "true" (fun piece index _ => 150 + piece.utf8ByteSize + decimalWidth index) 2 =
        some ["tr", "ue"] := by
    have hstart : max (min "true".length 2) 1 = 2 := by decide
    unfold fitChunks fitFrom
    have htr : "tr".utf8ByteSize = 2 := by decide
    have hue : "ue".utf8ByteSize = 2 := by decide
    rw [hstart, hpieces]
    simp [largestFrame, decimalWidth, maxBrokerTextFrameBytes, htr, hue]
  have htheorem := chunked_reply_arrives "true" _ (fun _ i j _ hwidth => by omega) 2 _ hfit
  have hframes : ∀ event ∈ [("a1", chunkFrame "list_threads" ["tr", "ue"] 1),
      ("a2", (⟨none, none, none, none⟩ : ResultChunk)),
      ("a1", chunkFrame "list_threads" ["tr", "ue"] 1),
      ("a1", chunkFrame "list_threads" ["tr", "ue"] 0)], event.1 = "a1" →
      ∃ index < ["tr", "ue"].length, event.2 = chunkFrame "list_threads" ["tr", "ue"] index := by
    intro event hmem hown
    simp only [List.mem_cons, List.not_mem_nil, or_false] at hmem
    rcases hmem with rfl | rfl | rfl | rfl
    · exact ⟨1, by simp, rfl⟩
    · exact absurd hown (by decide)
    · exact ⟨1, by simp, rfl⟩
    · exact ⟨0, by simp, rfl⟩
  have harrives : ∀ index < ["tr", "ue"].length,
      Client.Arrives "list_threads" ["tr", "ue"] "a1"
        [("a1", chunkFrame "list_threads" ["tr", "ue"] 1), ("a2", ⟨none, none, none, none⟩),
          ("a1", chunkFrame "list_threads" ["tr", "ue"] 1),
          ("a1", chunkFrame "list_threads" ["tr", "ue"] 0)] index := by
    intro index hlt
    have hcases : index = 0 ∨ index = 1 := by
      simp only [List.length_cons, List.length_nil] at hlt
      omega
    rcases hcases with rfl | rfl <;> simp [Client.Arrives]
  have hrun := (htheorem.2.2.2
    (fun text => if text = utf16 "true" then .ok ⟨true, none, ()⟩ else .error "syntax")
    waiting "a1" "list_threads" "list_threads" _ (by decide) (by simp [waiting])
    (by simp [waiting]) hframes).2 harrives
  rw [hrun]
  simp [Client.settlementOf, ActionResult.settlement, Client.settledFor, waiting]

end AgentRelay.Replies
