import AgentRelay.ThreadAttention

/-! What one snapshot says about each thread, stated once, and that the relay's table and
the page's map both hold exactly that. The two differ in one thing only: the words each
takes for a settled status. -/
namespace AgentRelay.Attention
open Text Relay

def requestOwner (active : Option String) (threadId : String) : Option String :=
  if threadId = "" then active else some threadId

def threadState (isWorking : String → Bool) (s : SessionSnapshot) (id : String) : ThreadState :=
  { working :=
      (decide (s.activeThreadId = some id)
          && (s.activeTurnId.isSome || isWorking s.currentStatus))
        || (decide (id ≠ "") && decide (id ∈ s.threadActivity))
    needsInput :=
      decide (some id ∈ (s.pendingApprovals ++ s.pendingAskUserQuestions).map
          (requestOwner s.activeThreadId))
        || (decide (s.activeThreadId = some id) && s.activeFlags.any isWaitingFlag) }

def entryOf (st : ThreadState) : Option ThreadState :=
  if st.working || st.needsInput then some st else none

@[simp] theorem getD_entryOf (st : ThreadState) : (entryOf st).getD {} = st := by
  obtain ⟨w, n⟩ := st
  cases w <;> cases n <;> rfl

theorem entryOf_injective {st st' : ThreadState} (h : entryOf st = entryOf st') : st = st' := by
  rw [← getD_entryOf st, h, getD_entryOf]

@[simp] theorem entryOf_setWorking (st : ThreadState) :
    entryOf st.setWorking = some st.setWorking := by
  simp [entryOf, ThreadState.setWorking]

@[simp] theorem entryOf_setNeedsInput (st : ThreadState) :
    entryOf st.setNeedsInput = some st.setNeedsInput := by
  simp [entryOf, ThreadState.setNeedsInput]

def Reads (look : String → Option ThreadState) (st : String → ThreadState) : Prop :=
  ∀ id, look id = entryOf (st id)

section mark
variable {f : ThreadState → ThreadState}

/-- The states after the threads of `targets` were marked. -/
def markAll (f : ThreadState → ThreadState) (targets : List (Option String))
    (st : String → ThreadState) (id : String) : ThreadState :=
  if some id ∈ targets then f (st id) else st id

theorem markAll_cons (hidem : ∀ st, f (f st) = f st) (target : Option String)
    (targets : List (Option String)) (st : String → ThreadState) :
    markAll f targets (markAll f [target] st) = markAll f (target :: targets) st := by
  funext id
  by_cases h₁ : some id = target <;> by_cases h₂ : some id ∈ targets <;>
    simp [markAll, h₁, h₂, hidem]

/-- Marking the thread `target`, if it is one, and no other. -/
def Marks (f : ThreadState → ThreadState) (target : Option String)
    (look look' : String → Option ThreadState) : Prop :=
  ∀ id, look' id = if target = some id then some (f ((look id).getD {})) else look id

theorem Reads.mark {look look' : String → Option ThreadState} {st : String → ThreadState}
    {target : Option String} (h : Reads look st) (hf : ∀ st, entryOf (f st) = some (f st))
    (hm : Marks f target look look') : Reads look' (markAll f [target] st) := by
  intro id
  rw [hm id, h id]
  by_cases ht : target = some id
  · simp [markAll, ht, hf]
  · have hne : some id ≠ target := Ne.symm ht
    simp [markAll, ht, hne]

theorem Reads.foldl {M ι : Type} {look : M → String → Option ThreadState} {g : M → ι → M}
    {target : ι → Option String} (hf : ∀ st, entryOf (f st) = some (f st))
    (hidem : ∀ st, f (f st) = f st) (hg : ∀ m i, Marks f (target i) (look m) (look (g m i)))
    {m : M} {st : String → ThreadState} (h : Reads (look m) st) (l : List ι) :
    Reads (look (l.foldl g m)) (markAll f (l.map target) st) := by
  induction l generalizing m st with
  | nil =>
    intro id
    simpa [markAll] using h id
  | cons i is ih =>
    have hstep := ih (h.mark hf (hg m i))
    rw [markAll_cons hidem] at hstep
    exact hstep

end mark

def staged (isWorking : String → Bool) (s : SessionSnapshot) : String → ThreadState :=
  let busy := s.activeTurnId.isSome || isWorking s.currentStatus
  let owner := requestOwner s.activeThreadId
  let st := markAll .setWorking [if busy then s.activeThreadId else none] fun _ => {}
  let st := markAll .setWorking (s.threadActivity.map fun id => if id = "" then none else some id) st
  let st := markAll .setNeedsInput (s.pendingApprovals.map owner) st
  let st := markAll .setNeedsInput (s.pendingAskUserQuestions.map owner) st
  markAll .setNeedsInput [if s.activeFlags.any isWaitingFlag then s.activeThreadId else none] st

@[simp] theorem working_markAll_setWorking (targets : List (Option String))
    (st : String → ThreadState) (id : String) :
    (markAll .setWorking targets st id).working =
      (decide (some id ∈ targets) || (st id).working) := by
  by_cases h : some id ∈ targets <;> simp [markAll, h, ThreadState.setWorking]

@[simp] theorem needsInput_markAll_setWorking (targets : List (Option String))
    (st : String → ThreadState) (id : String) :
    (markAll .setWorking targets st id).needsInput = (st id).needsInput := by
  by_cases h : some id ∈ targets <;> simp [markAll, h, ThreadState.setWorking]

@[simp] theorem working_markAll_setNeedsInput (targets : List (Option String))
    (st : String → ThreadState) (id : String) :
    (markAll .setNeedsInput targets st id).working = (st id).working := by
  by_cases h : some id ∈ targets <;> simp [markAll, h, ThreadState.setNeedsInput]

@[simp] theorem needsInput_markAll_setNeedsInput (targets : List (Option String))
    (st : String → ThreadState) (id : String) :
    (markAll .setNeedsInput targets st id).needsInput =
      (decide (some id ∈ targets) || (st id).needsInput) := by
  by_cases h : some id ∈ targets <;> simp [markAll, h, ThreadState.setNeedsInput]

theorem mem_map_nonempty {id : String} {ids : List String} :
    some id ∈ ids.map (fun i => if i = "" then none else some i) ↔ id ≠ "" ∧ id ∈ ids := by
  rw [List.mem_map]
  constructor
  · rintro ⟨i, hi, he⟩
    split at he
    · cases he
    · rename_i hne
      obtain rfl := Option.some.inj he
      exact ⟨hne, hi⟩
  · rintro ⟨hne, hi⟩
    exact ⟨id, hi, if_neg hne⟩

theorem staged_eq (isWorking : String → Bool) (s : SessionSnapshot) (id : String) :
    staged isWorking s id = threadState isWorking s id := by
  apply ThreadState.ext
  · simp only [staged, threadState, working_markAll_setNeedsInput, working_markAll_setWorking,
      mem_map_nonempty, List.mem_singleton, Bool.or_false]
    generalize (s.activeTurnId.isSome || isWorking s.currentStatus) = busy
    cases busy <;> simp [eq_comm, Bool.or_comm]
  · simp only [staged, threadState, needsInput_markAll_setNeedsInput,
      needsInput_markAll_setWorking, List.mem_singleton, List.map_append, List.mem_append,
      Bool.or_false]
    generalize s.activeFlags.any isWaitingFlag = waiting
    cases waiting <;> simp [eq_comm, Bool.or_comm]

namespace Push

theorem marks_mark (f : ThreadState → ThreadState) (states : Table ThreadState) (id : String) :
    Marks f (some id) (fun a => states[a]?) (fun a => (mark f states id)[a]?) := by
  intro a
  simp only [mark, Table.getElem?_insert_of, Option.some.injEq, eq_comm (a := a)]
  split
  · rename_i h
    rw [h]
  · rfl

theorem marks_owner (f : ThreadState → ThreadState) (states : Table ThreadState)
    (owner : Option String) : Marks f owner (fun a => states[a]?)
      (fun a => (match owner with | some id => mark f states id | none => states)[a]?) := by
  cases owner with
  | some id => exact marks_mark f states id
  | none =>
    intro a
    simp

theorem marks_markRequest (active : Option String) (states : Table ThreadState)
    (threadId : String) :
    Marks .setNeedsInput (requestOwner active threadId) (fun a => states[a]?)
      (fun a => (markRequest active states threadId)[a]?) := by
  have howner : (if threadId.isEmpty then active else some threadId)
      = requestOwner active threadId := by
    simp [requestOwner]
  rw [← howner]
  exact marks_owner _ _ _

theorem marks_active (f : ThreadState → ThreadState) (states : Table ThreadState)
    (active : Option String) (cond : Bool) :
    Marks f (if cond then active else none) (fun a => states[a]?) (fun a =>
      (match active with
        | some id => if cond then mark f states id else states
        | none => states)[a]?) := by
  cases cond with
  | true => exact marks_owner f states active
  | false =>
    intro a
    cases active <;> simp

theorem marks_activity (states : Table ThreadState) (id : String) :
    Marks .setWorking (if id = "" then none else some id) (fun a => states[a]?)
      (fun a => (if id.isEmpty then states else mark .setWorking states id)[a]?) := by
  simp only [String.isEmpty_iff]
  split
  · intro a
    simp
  · exact marks_mark _ _ _

theorem reads_computeThreadStates (s : SessionSnapshot) :
    Reads (fun id => (computeThreadStates s)[id]?) (staged threadStatusIsWorking s) := by
  have hfirst : Reads (fun id => (∅ : Table ThreadState)[id]?) fun _ => {} := by
    intro id
    simp [entryOf]
  have hactive := hfirst.mark entryOf_setWorking (marks_active .setWorking ∅ s.activeThreadId
    (s.activeTurnId.isSome || threadStatusIsWorking s.currentStatus))
  have hbusy := Reads.foldl entryOf_setWorking (fun _ => rfl) marks_activity hactive
    s.threadActivity
  have happrovals := Reads.foldl entryOf_setNeedsInput (fun _ => rfl)
    (marks_markRequest s.activeThreadId) hbusy s.pendingApprovals
  have hquestions := Reads.foldl entryOf_setNeedsInput (fun _ => rfl)
    (marks_markRequest s.activeThreadId) happrovals s.pendingAskUserQuestions
  exact hquestions.mark entryOf_setNeedsInput
    (marks_active .setNeedsInput _ s.activeThreadId (s.activeFlags.any isWaitingFlag))

theorem getElem?_computeThreadStates (s : SessionSnapshot) (id : String) :
    (computeThreadStates s)[id]? = entryOf (threadState threadStatusIsWorking s id) := by
  rw [← staged_eq]
  exact reads_computeThreadStates s id

end Push

namespace Client

@[simp] theorem truthy_empty : truthy (some "") = none := rfl

theorem truthy_of_ne {active : Option String} (h : active ≠ some "") : truthy active = active := by
  cases active with
  | none => rfl
  | some id =>
    have hid : id ≠ "" := fun he => h (congrArg some he)
    simp [truthy, hid]

theorem marks_ensure (f : ThreadState → ThreadState)
    (states : InsertionMap String ThreadState) {owner : Option String} (h : owner ≠ some "") :
    Marks f owner states.get (ensure f states owner).get := by
  intro a
  rw [ensure, truthy_of_ne h]
  cases owner with
  | none => simp
  | some id =>
    simp only [InsertionMap.get_set, Option.some.injEq, eq_comm (a := a)]
    split
    · rename_i ha
      rw [ha]
    · rfl

theorem marks_active (f : ThreadState → ThreadState)
    (states : InsertionMap String ThreadState) {active : Option String} (h : active ≠ some "")
    (cond : Bool) : Marks f (if cond then active else none) states.get
      (if active.isSome && cond then ensure f states active else states).get := by
  cases cond with
  | true =>
    cases active with
    | none =>
      intro a
      simp
    | some id => exact marks_ensure f states h
  | false =>
    intro a
    simp

theorem marks_activity (states : InsertionMap String ThreadState) (id : String) :
    Marks .setWorking (if id = "" then none else some id) states.get
      (ensure .setWorking states (some id)).get := by
  by_cases hid : id = ""
  · intro a
    simp [hid, ensure]
  · rw [if_neg hid]
    exact marks_ensure _ states (by simpa using hid)

theorem marks_request {active : Option String} (h : active ≠ some "")
    (states : InsertionMap String ThreadState) (id : String) :
    Marks .setNeedsInput (requestOwner active id) states.get
      (ensure .setNeedsInput states ((truthy (some id)).or active)).get := by
  have howner : (truthy (some id)).or active = requestOwner active id := by
    by_cases hid : id = ""
    · simp [requestOwner, hid]
    · simp [truthy, requestOwner, hid]
  have hne : requestOwner active id ≠ some "" := by
    by_cases hid : id = "" <;> simp [requestOwner, hid, h]
  rw [howner]
  exact marks_ensure _ states hne

theorem reads_computeThreadStates {s : SessionSnapshot} (h : s.activeThreadId ≠ some "") :
    Reads (computeThreadStates s).get (staged isWorkingThreadStatus s) := by
  have hfirst : Reads (InsertionMap.empty : InsertionMap String ThreadState).get fun _ => {} :=
    fun _ => rfl
  have hactive := hfirst.mark entryOf_setWorking
    (marks_active .setWorking _ h (sessionIsWorking s))
  have hbusy := Reads.foldl entryOf_setWorking (fun _ => rfl) marks_activity hactive
    s.threadActivity
  have happrovals := Reads.foldl entryOf_setNeedsInput (fun _ => rfl) (marks_request h) hbusy
    s.pendingApprovals
  have hquestions := Reads.foldl entryOf_setNeedsInput (fun _ => rfl) (marks_request h)
    happrovals s.pendingAskUserQuestions
  rw [computeThreadStates, truthy_of_ne h]
  exact hquestions.mark entryOf_setNeedsInput
    (marks_active .setNeedsInput _ h (s.activeFlags.any isWaitingFlag))

theorem get_computeThreadStates {s : SessionSnapshot} (h : s.activeThreadId ≠ some "")
    (id : String) :
    (computeThreadStates s).get id = entryOf (threadState isWorkingThreadStatus s id) := by
  rw [← staged_eq]
  exact reads_computeThreadStates h id

theorem stateFor_computeThreadStates {s : SessionSnapshot} (h : s.activeThreadId ≠ some "")
    (id : String) :
    stateFor (computeThreadStates s) id = threadState isWorkingThreadStatus s id := by
  rw [stateFor, get_computeThreadStates h, getD_entryOf]

end Client

theorem threadState_empty {isWorking : String → Bool} {s : SessionSnapshot}
    (h : s.activeThreadId ≠ some "") : threadState isWorking s "" = {} := by
  have howner : some "" ∉ (s.pendingApprovals ++ s.pendingAskUserQuestions).map
      (requestOwner s.activeThreadId) := by
    rw [List.mem_map]
    rintro ⟨id, -, hid⟩
    rw [requestOwner] at hid
    split at hid
    · exact h hid
    · rename_i hne
      exact hne (Option.some.inj hid)
  simp only [threadState, decide_eq_false howner, decide_eq_false h]
  rfl

def StatusReadAlike (s : SessionSnapshot) : Prop :=
  ∀ id, s.activeThreadId = some id → s.activeTurnId = none → id ∉ s.threadActivity →
    threadStatusIsWorking s.currentStatus = Client.isWorkingThreadStatus s.currentStatus

def SameStates (s : SessionSnapshot) : Prop :=
  ∀ id : String, (Push.computeThreadStates s)[id]? = (Client.computeThreadStates s).get id

theorem sameStates_iff {s : SessionSnapshot} (h : s.activeThreadId ≠ some "") :
    SameStates s ↔ StatusReadAlike s := by
  constructor
  · intro hsame id hactive hturn hbusy
    have he := hsame id
    rw [Push.getElem?_computeThreadStates, Client.get_computeThreadStates h] at he
    have hworking := congrArg ThreadState.working (entryOf_injective he)
    simpa [threadState, hactive, hturn, hbusy] using hworking
  · intro halike id
    rw [Push.getElem?_computeThreadStates, Client.get_computeThreadStates h]
    apply congrArg
    apply ThreadState.ext
    · simp only [threadState]
      by_cases hactive : s.activeThreadId = some id
      · by_cases hturn : s.activeTurnId = none
        · by_cases hbusy : id ∈ s.threadActivity
          · have hid : id ≠ "" := fun he => h (he ▸ hactive)
            simp [hbusy, hid]
          · rw [halike id hactive hturn hbusy]
        · have hsome : s.activeTurnId.isSome := Option.isSome_iff_ne_none.mpr hturn
          simp [hactive, hsome]
      · simp [hactive]
    · simp only [threadState]

/-- The characters the two readings of a status treat differently: the next-line control,
the byte order mark and the Kelvin sign. -/
def isContestedChar (c : Char) : Bool := c.toNat = 0x85 || c.toNat = 0xFEFF || c.toNat = 0x212A

theorem dropWhile_congr {α : Type} {p q : α → Bool} {l : List α} (h : ∀ a ∈ l, p a = q a) :
    l.dropWhile p = l.dropWhile q := by
  induction l with
  | nil => rfl
  | cons a l ih =>
    have htail := ih fun b hb => h b (List.mem_cons_of_mem a hb)
    rw [List.dropWhile_cons, List.dropWhile_cons, h a (by simp), htail]

theorem rdropWhile_congr {α : Type} {p q : α → Bool} {l : List α} (h : ∀ a ∈ l, p a = q a) :
    l.rdropWhile p = l.rdropWhile q := by
  rw [List.rdropWhile, List.rdropWhile, dropWhile_congr]
  intro a ha
  exact h a (List.mem_reverse.mp ha)

theorem statuses_alike_of_plain {status : String}
    (h : status.toList.any isContestedChar = false) :
    threadStatusIsWorking status = Client.isWorkingThreadStatus status := by
  have hplain : ∀ c ∈ status.toList, ¬(c.toNat = 0x85 ∨ c.toNat = 0xFEFF ∨ c.toNat = 0x212A) := by
    intro c hc
    simpa [isContestedChar, or_assoc] using List.any_eq_false.mp h c hc
  have hspace : ∀ c ∈ status.toList, Client.isJsWhitespace c = isWhitespace c := by
    intro c hc
    have hc := hplain c hc
    rw [not_or, not_or] at hc
    simp [Client.isJsWhitespace, hc]
  have hlower : ∀ c ∈ status.toList, Client.jsToLower c = c.toLower := by
    intro c hc
    have hc := hplain c hc
    rw [not_or, not_or] at hc
    simp [Client.jsToLower, hc]
  have hword : Client.normalizeThreadStatus status = toAsciiLowercase (trim status) := by
    have hleft := dropWhile_congr hspace
    have hmiddle : ∀ c ∈ status.toList.dropWhile isWhitespace, c ∈ status.toList :=
      fun c hc => (List.dropWhile_suffix _).subset hc
    have hright := rdropWhile_congr fun c hc => hspace c (hmiddle c hc)
    have hpre := List.rdropWhile_prefix isWhitespace (status.toList.dropWhile isWhitespace)
    have hmap := List.map_congr_left fun c hc => hlower c (hmiddle c (hpre.subset hc))
    rw [Client.normalizeThreadStatus, hleft, hright, hmap, toAsciiLowercase, trim,
      String.toList_ofList]
  simp only [threadStatusIsWorking, Client.isWorkingThreadStatus, hword]

end AgentRelay.Attention
