import Ethersex.CronCatchUp

/-!
# Walking over jobs that are removed meanwhile

A walk survives every change of the list that leaves the jobs it still points to: the job that
is executed, the pointer `current`, the rest of the table and the job of a listing.  Then it
dereferences members of the list only, and every due job is executed once when its turn comes.
-/

namespace Ethersex.Cron

open DoublyLinked GuardedRuns

variable {Condition : Type}

theorem cronWalk_readsNext {heap : CronHeap} {job : Ptr} {jobs : List Ptr}
    (reads : ReadsNext heap.nodes null job jobs) {fuel : Nat} (enough : jobs.length < fuel) :
    cronWalk heap fuel job = some jobs := by
  induction reads generalizing fuel with
  | null =>
      obtain ⟨fuel, rfl⟩ : ∃ rest, fuel = rest + 1 := ⟨fuel - 1, by omega⟩
      simp [cronWalk]
  | @cell job node jobs notNull load rest ih =>
      rw [List.length_cons] at enough
      obtain ⟨fuel, rfl⟩ : ∃ rest, fuel = rest + 1 := ⟨fuel - 1, by omega⟩
      rw [cronWalk, if_neg notNull, CronHeap.load_of_nodes notNull, load]
      simp [ih (show jobs.length < fuel by omega)]

namespace Linked

variable {heap : CronHeap} {jobs : List Ptr} {job : Ptr}

theorem listedJobs_eq (linked : Linked heap jobs) : listedJobs heap = some jobs :=
  cronWalk_readsNext linked.readsNext linked.length_lt

theorem inList_iff (linked : Linked heap jobs) : InList heap job ↔ job ∈ jobs := by
  simp [InList, linked.listedJobs_eq]

theorem ne_null (linked : Linked heap jobs) (member : job ∈ jobs) : job ≠ null :=
  fun jobEq => linked.not_null (jobEq ▸ member)

theorem load_split {front rest : List Ptr} (linked : Linked heap (front ++ job :: rest)) :
    heap.load job = some ⟨rest.headD null, front.getLastD null⟩ := by
  rw [CronHeap.load_of_nodes (linked.ne_null (by simp))]
  exact (segment_append.mp linked.segment).2.1

theorem headD_cases (rest : List Ptr) : rest.headD null = null ∨ rest.headD null ∈ rest := by
  cases rest with
  | nil => exact Or.inl rfl
  | cons first rest => exact Or.inr List.mem_cons_self

/-- A member of the list can be dereferenced, and its successor is a member as well. -/
theorem load_mem (linked : Linked heap jobs) (member : job ∈ jobs) :
    ∃ node, heap.load job = some node ∧ (node.next = null ∨ node.next ∈ jobs) := by
  obtain ⟨front, rest, rfl⟩ := List.append_of_mem member
  refine ⟨_, linked.load_split, (headD_cases rest).imp_right fun next => ?_⟩
  exact List.mem_append_right _ (List.mem_cons_of_mem _ next)

theorem head_cases (linked : Linked heap jobs) : heap.head = null ∨ heap.head ∈ jobs := by
  rw [linked.head_eq]
  exact headD_cases jobs

/-- `cron_insert` appends when the position is not positive or the list is empty. -/
theorem insert {newone : Ptr} {position : Int8} (linked : Linked heap jobs)
    (content : CronNode) (notNull : newone ≠ null) (fresh : newone ∉ jobs)
    (appends : ¬0 < position ∨ jobs = []) :
    ∃ after, cronStep heap (.insert newone content position) = some after ∧
      Linked after (jobs ++ [newone]) := by
  by_cases empty : jobs = []
  · subst empty
    obtain ⟨after, ss, inserted, linkedAfter⟩ :=
      (linked.malloc fresh).insert_empty notNull position
        (show (heap.malloc newone content).nodes newone = some content from
          Function.update_self ..)
    refine ⟨after, ?_, linkedAfter⟩
    rw [cronStep, inserted]
    rfl
  · exact cronInsert_append content linked notNull fresh empty (appends.resolve_right empty)

theorem jobrm (linked : Linked heap jobs) (member : job ∈ jobs) :
    ∃ after, cronJobrm heap job = some after ∧ Linked after (jobs.erase job) :=
  linked.step (show CronCall.Legal jobs (.jobrm job) from member) trivial

end Linked

def Phase.pointers : Phase → List Ptr
  | .anacron tab => tab
  | .loop _ current => [current]

/-- The jobs that `cron_periodic` goes on with. -/
def Mode.held : Mode → List Ptr
  | .idle => []
  | .walking _ phase => phase.pointers
  | .executing _ exec phase => exec :: phase.pointers

/-- `cron_anacron` has executed jobs, or is about to. -/
def Phase.CatchesUp : Phase → Prop
  | .anacron _ => True
  | .loop skipAnacron _ => skipAnacron = true

def Mode.CatchesUp : Mode → Prop
  | .idle => False
  | .walking _ phase => phase.CatchesUp
  | .executing _ _ phase => phase.CatchesUp

/-- A listing has not come further than this job. -/
def HeldByList (state : CronState Condition) (job : Ptr) : Prop :=
  ∃ connection, (state.lists connection).magic = 23 ∧ (state.lists connection).pos = job

/-- The action does not take away a job that a walk still points to.  Insertions append a node
that is not in the list; there are at most 255 anacron jobs; a command line does not pretend
to be a listing; a command changes no flags after `cron_anacron` has read them. -/
def Harmless (state : CronState Condition) : CronAction Condition → Prop
  | .periodic _ =>
      (((listedJobs state.heap).getD []).filter fun job => (state.events job).anacron).length < 256
  | .commandReturns => ∀ minute exec phase, state.mode = .executing minute exec phase →
      (state.events exec).repeats = 1 → ¬HeldByList state exec
  | .insert newone _ position _ _ =>
      newone ≠ null ∧ ¬InList state.heap newone ∧ (¬0 < position ∨ state.heap.head = null)
  | .jobrm job => InList state.heap job ∧ job ∉ state.mode.held ∧ ¬HeldByList state job
  | .configure job _ _ => InList state.heap job ∧ ¬state.mode.CatchesUp
  | .receive _ cmd => cmd.magic = 23 → cmd.pos = null ∨ InList state.heap cmd.pos
  | _ => True

section Invariant

variable (due : Condition → UInt32 → Bool) (state : CronState Condition) (jobs : List Ptr)

def CronState.serial (job : Ptr) : Nat := (state.events job).serial

/-- The jobs whose turn has come. -/
def CronState.visited : List Nat := state.turns.map Prod.fst

structure TabRight (minute : UInt32) (tab : List Ptr) : Prop where
  nodup : tab.Nodup
  listed : ∀ job ∈ tab, job ∈ jobs
  anacron : ∀ job ∈ tab, (state.events job).anacron = true
  waiting : ∀ job ∈ tab, state.serial job ∉ state.executed
  noTurns : state.turns = []
  executedAnacron : ∀ job ∈ jobs, state.serial job ∈ state.executed →
    (state.events job).anacron = true
  dueCovered : ∀ job ∈ jobs, (state.events job).anacron = true →
    due (state.events job).condition minute = true →
      job ∈ tab ∨ state.serial job ∈ state.executed

/-- The loop has come to the end of `front` and goes on with `rest`. -/
structure LoopAt (current : Ptr) (front rest : List Ptr) : Prop where
  split : jobs = front ++ rest
  passed : ∀ job ∈ front, state.serial job ∈ state.visited
  ahead : ∀ job ∈ rest, state.serial job ∉ state.visited
  -- a job that is appended while the last one is executed is not visited
  current : current = rest.headD null ∨
    current = null ∧ ∀ job ∈ rest, state.serial job ∉ state.started

structure LoopRight (minute : UInt32) (skipAnacron : Bool) (current : Ptr) : Prop where
  place : ∃ front rest, LoopAt state jobs current front rest
  executedTurn : ∀ job ∈ jobs, state.serial job ∈ state.executed →
    state.serial job ∈ state.visited ∨ skipAnacron = true ∧ (state.events job).anacron = true
  caughtUp : skipAnacron = true → ∀ job ∈ jobs, (state.events job).anacron = true →
    due (state.events job).condition minute = true → state.serial job ∈ state.executed

def PhaseRight (minute : UInt32) : Phase → Prop
  | .anacron tab => TabRight due state jobs minute tab
  | .loop skipAnacron current => LoopRight due state jobs minute skipAnacron current

def ModeRight : Mode → Prop
  | .idle => ∀ job ∈ jobs, state.serial job ∈ state.started → state.serial job ∈ state.visited
  | .walking minute phase => minute.toNat % 60 = 0 ∧ PhaseRight due state jobs minute phase
  | .executing minute exec phase => minute.toNat % 60 = 0 ∧ PhaseRight due state jobs minute phase ∧
      exec ∈ jobs ∧ exec ∉ phase.pointers

/-- What does not depend on the mode. -/
structure RecordsRight : Prop where
  linked : Linked state.heap jobs
  serials_nodup : (jobs.map state.serial).Nodup
  serials_lt : ∀ job ∈ jobs, state.serial job < state.serials
  lists : ∀ connection, (state.lists connection).magic = 23 →
    (state.lists connection).pos = null ∨ (state.lists connection).pos ∈ jobs
  lastCheck : state.lastCheck.toNat % 60 = 0
  started_lt : ∀ serial ∈ state.started, serial < state.serials
  visited_nodup : state.visited.Nodup
  visited_lt : ∀ serial ∈ state.visited, serial < state.serials
  executed_nodup : state.executed.Nodup
  executed_lt : ∀ serial ∈ state.executed, serial < state.serials
  dueExecuted : ∀ serial, (serial, true) ∈ state.turns → serial ∈ state.executed

structure Walks : Prop where
  records : RecordsRight state jobs
  mode : ModeRight due state jobs state.mode

end Invariant

section Changes

variable {due : Condition → UInt32 → Bool} {state state' : CronState Condition}
  {jobs : List Ptr} {job newone : Ptr} {minute : UInt32} {phase : Phase}

structure SameRecords (state state' : CronState Condition) : Prop where
  started : state'.started = state.started
  turns : state'.turns = state.turns
  executed : state'.executed = state.executed

theorem SameRecords.visited (same : SameRecords state state') :
    state'.visited = state.visited := by
  rw [CronState.visited, CronState.visited, same.turns]

/-- Only the numbers of the jobs matter, and their flags once `cron_anacron` has read them. -/
theorem PhaseRight.congr (right : PhaseRight due state jobs minute phase)
    (same : SameRecords state state')
    (serial : ∀ job ∈ jobs, state'.serial job = state.serial job)
    (flags : phase.CatchesUp → ∀ job ∈ jobs,
      (state'.events job).anacron = (state.events job).anacron ∧
        (state'.events job).condition = (state.events job).condition) :
    PhaseRight due state' jobs minute phase := by
  cases phase with
  | anacron tab =>
      have flags := flags trivial
      have right : TabRight due state jobs minute tab := right
      refine ⟨right.nodup, right.listed, ?_, ?_, same.turns.trans right.noTurns, ?_, ?_⟩
      · intro job member
        rw [(flags job (right.listed job member)).1]
        exact right.anacron job member
      · intro job member
        rw [serial job (right.listed job member), same.executed]
        exact right.waiting job member
      · intro job member
        rw [serial job member, same.executed, (flags job member).1]
        exact right.executedAnacron job member
      · intro job member
        rw [serial job member, same.executed, (flags job member).1, (flags job member).2]
        exact right.dueCovered job member
  | loop skipAnacron current =>
      have right : LoopRight due state jobs minute skipAnacron current := right
      obtain ⟨front, rest, place⟩ := right.place
      have inFront {job : Ptr} (member : job ∈ front) : job ∈ jobs :=
        place.split ▸ List.mem_append_left _ member
      have inRest {job : Ptr} (member : job ∈ rest) : job ∈ jobs :=
        place.split ▸ List.mem_append_right _ member
      refine ⟨⟨front, rest, place.split, ?_, ?_, place.current.imp_right ?_⟩, ?_, ?_⟩
      · intro job member
        rw [serial job (inFront member), same.visited]
        exact place.passed job member
      · intro job member
        rw [serial job (inRest member), same.visited]
        exact place.ahead job member
      · rintro ⟨atEnd, later⟩
        refine ⟨atEnd, fun job member => ?_⟩
        rw [serial job (inRest member), same.started]
        exact later job member
      · intro job member executed
        rw [serial job member, same.executed] at executed
        rw [serial job member, same.visited]
        refine (right.executedTurn job member executed).imp_right ?_
        rintro ⟨skip, anacron⟩
        exact ⟨skip, (flags skip job member).1.trans anacron⟩
      · intro skip job member
        rw [serial job member, same.executed, (flags skip job member).1, (flags skip job member).2]
        exact right.caughtUp skip job member

/-- A new job at the end of the list. -/
theorem PhaseRight.append (right : PhaseRight due state jobs minute phase)
    (notStarted : state.serial newone ∉ state.started)
    (notVisited : state.serial newone ∉ state.visited)
    (notExecuted : state.serial newone ∉ state.executed)
    (noAnacron : (state.events newone).anacron = false) :
    PhaseRight due state (jobs ++ [newone]) minute phase := by
  have old {job : Ptr} (member : job ∈ jobs ++ [newone]) : job ∈ jobs ∨ job = newone := by
    simpa using member
  cases phase with
  | anacron tab =>
      have right : TabRight due state jobs minute tab := right
      refine ⟨right.nodup, fun job member => List.mem_append_left _ (right.listed job member),
        right.anacron, right.waiting, right.noTurns, ?_, ?_⟩
      · intro job member executed
        rcases old member with listed | rfl
        · exact right.executedAnacron job listed executed
        · exact absurd executed notExecuted
      · intro job member anacron isDue
        rcases old member with listed | rfl
        · exact right.dueCovered job listed anacron isDue
        · rw [noAnacron] at anacron
          cases anacron
  | loop skipAnacron current =>
      have right : LoopRight due state jobs minute skipAnacron current := right
      obtain ⟨front, rest, place⟩ := right.place
      refine ⟨⟨front, rest ++ [newone], ?_, place.passed, ?_, ?_⟩, ?_, ?_⟩
      · rw [place.split, List.append_assoc]
      · intro job member
        rcases List.mem_append.1 member with earlier | last
        · exact place.ahead job earlier
        · rw [List.mem_singleton.1 last]
          exact notVisited
      · rcases place.current with next | ⟨atEnd, later⟩
        · cases rest with
          | nil =>
              refine Or.inr ⟨next, fun job member => ?_⟩
              rw [List.mem_singleton.1 member]
              exact notStarted
          | cons first rest => exact Or.inl next
        · refine Or.inr ⟨atEnd, fun job member => ?_⟩
          rcases List.mem_append.1 member with earlier | last
          · exact later job earlier
          · rw [List.mem_singleton.1 last]
            exact notStarted
      · intro job member executed
        rcases old member with listed | rfl
        · exact right.executedTurn job listed executed
        · exact absurd executed notExecuted
      · intro skip job member anacron isDue
        rcases old member with listed | rfl
        · exact right.caughtUp skip job listed anacron isDue
        · rw [noAnacron] at anacron
          cases anacron

theorem LoopAt.erase {current : Ptr} {front rest : List Ptr}
    (place : LoopAt state jobs current front rest) (other : job ≠ current) :
    ∃ front rest, LoopAt state (jobs.erase job) current front rest := by
  by_cases member : job ∈ front
  · refine ⟨front.erase job, rest, ?_, ?_, place.ahead, place.current⟩
    · rw [place.split, List.erase_append_left _ member]
    · intro other inside
      exact place.passed other (List.mem_of_mem_erase inside)
  · refine ⟨front, rest.erase job, ?_, place.passed, ?_, ?_⟩
    · rw [place.split, List.erase_append_right _ member]
    · intro other inside
      exact place.ahead other (List.mem_of_mem_erase inside)
    · rcases place.current with next | ⟨atEnd, later⟩
      · cases rest with
        | nil => exact Or.inl next
        | cons first rest =>
            have different : first ≠ job := fun same => other (same.symm.trans next.symm)
            rw [List.erase_cons_tail (by simpa using different)]
            exact Or.inl next
      · exact Or.inr ⟨atEnd, fun other inside => later other (List.mem_of_mem_erase inside)⟩

/-- A job that the walk does not point to leaves the list. -/
theorem PhaseRight.erase (right : PhaseRight due state jobs minute phase)
    (other : job ∉ phase.pointers) : PhaseRight due state (jobs.erase job) minute phase := by
  have old {other : Ptr} (member : other ∈ jobs.erase job) : other ∈ jobs :=
    List.mem_of_mem_erase member
  cases phase with
  | anacron tab =>
      have right : TabRight due state jobs minute tab := right
      refine ⟨right.nodup, ?_, right.anacron, right.waiting, right.noTurns,
        fun job member => right.executedAnacron job (old member),
        fun job member => right.dueCovered job (old member)⟩
      intro entry member
      have different : entry ≠ job := fun same => other (same ▸ member)
      exact (List.mem_erase_of_ne different).2 (right.listed entry member)
  | loop skipAnacron current =>
      have right : LoopRight due state jobs minute skipAnacron current := right
      obtain ⟨front, rest, place⟩ := right.place
      exact ⟨place.erase fun same => other (List.mem_singleton.2 same),
        fun job member => right.executedTurn job (old member),
        fun skip job member => right.caughtUp skip job (old member)⟩

theorem ModeRight.congr {mode : Mode} (right : ModeRight due state jobs mode)
    (same : SameRecords state state')
    (serial : ∀ job ∈ jobs, state'.serial job = state.serial job)
    (flags : mode.CatchesUp → ∀ job ∈ jobs,
      (state'.events job).anacron = (state.events job).anacron ∧
        (state'.events job).condition = (state.events job).condition) :
    ModeRight due state' jobs mode := by
  cases mode with
  | idle =>
      intro job member started
      rw [serial job member, same.started] at started
      rw [serial job member, same.visited]
      exact right job member started
  | walking minute phase => exact ⟨right.1, right.2.congr same serial flags⟩
  | executing minute exec phase => exact ⟨right.1, right.2.1.congr same serial flags, right.2.2⟩

theorem ModeRight.append {mode : Mode} (right : ModeRight due state jobs mode)
    (notStarted : state.serial newone ∉ state.started)
    (notVisited : state.serial newone ∉ state.visited)
    (notExecuted : state.serial newone ∉ state.executed)
    (noAnacron : (state.events newone).anacron = false) :
    ModeRight due state (jobs ++ [newone]) mode := by
  cases mode with
  | idle =>
      intro job member started
      rcases List.mem_append.1 member with listed | last
      · exact right job listed started
      · rw [List.mem_singleton.1 last] at started
        exact absurd started notStarted
  | walking minute phase =>
      exact ⟨right.1, right.2.append notStarted notVisited notExecuted noAnacron⟩
  | executing minute exec phase =>
      exact ⟨right.1, right.2.1.append notStarted notVisited notExecuted noAnacron,
        List.mem_append_left _ right.2.2.1, right.2.2.2⟩

theorem ModeRight.erase {mode : Mode} (right : ModeRight due state jobs mode)
    (other : job ∉ mode.held) : ModeRight due state (jobs.erase job) mode := by
  cases mode with
  | idle => exact fun other member => right other (List.mem_of_mem_erase member)
  | walking minute phase => exact ⟨right.1, right.2.erase other⟩
  | executing minute exec phase =>
      rw [Mode.held, List.mem_cons, not_or] at other
      exact ⟨right.1, right.2.1.erase other.2,
        (List.mem_erase_of_ne (Ne.symm other.1)).2 right.2.2.1, right.2.2.2⟩

theorem RecordsRight.erase {heap : CronHeap} (records : RecordsRight state jobs)
    (linked : Linked heap (jobs.erase job)) (notHeld : ¬HeldByList state job) :
    RecordsRight { state with heap := heap } (jobs.erase job) where
  linked := linked
  serials_nodup := records.serials_nodup.sublist (List.erase_sublist.map _)
  serials_lt := fun other member => records.serials_lt other (List.mem_of_mem_erase member)
  lists := by
    intro connection listing
    refine (records.lists connection listing).imp_right fun member => ?_
    have different : (state.lists connection).pos ≠ job :=
      fun same => notHeld ⟨connection, listing, same⟩
    exact (List.mem_erase_of_ne different).2 member
  lastCheck := records.lastCheck
  started_lt := records.started_lt
  visited_nodup := records.visited_nodup
  visited_lt := records.visited_lt
  executed_nodup := records.executed_nodup
  executed_lt := records.executed_lt
  dueExecuted := records.dueExecuted

/-- Events that keep the numbers of the jobs. -/
theorem RecordsRight.withEvents {events : Ptr → CronEvent Condition}
    (records : RecordsRight state jobs)
    (serial : ∀ job, (events job).serial = state.serial job) :
    RecordsRight { state with events := events } jobs := by
  have same : ({ state with events := events } : CronState Condition).serial = state.serial :=
    funext serial
  refine { records with serials_nodup := ?_, serials_lt := ?_ }
  · rw [same]
    exact records.serials_nodup
  · rw [same]
    exact records.serials_lt

end Changes

section Steps

variable {due : Condition → UInt32 → Bool} {state : CronState Condition} {jobs : List Ptr}

theorem Walks.jobrm {job : Ptr} (walks : Walks due state jobs)
    (harmless : Harmless state (.jobrm job)) :
    ∃ next jobs', changeStep state (.jobrm job) = some next ∧ Walks due next jobs' := by
  obtain ⟨inList, notHeld, notListed⟩ := harmless
  have member := walks.records.linked.inList_iff.1 inList
  obtain ⟨heap, removed, linked⟩ := walks.records.linked.jobrm member
  refine ⟨{ state with heap := heap }, jobs.erase job, ?_, walks.records.erase linked notListed,
    (walks.mode.erase notHeld).congr ⟨rfl, rfl, rfl⟩ (fun _ _ => rfl) fun _ _ _ => ⟨rfl, rfl⟩⟩
  rw [changeStep, removed, Option.map_some]

theorem Walks.configure {job : Ptr} {condition : Condition} {anacron : Bool}
    (walks : Walks due state jobs) (harmless : Harmless state (.configure job condition anacron)) :
    ∃ next jobs', changeStep state (.configure job condition anacron) = some next ∧
      Walks due next jobs' := by
  have serial : ∀ other,
      (configured state job condition anacron).serial other = state.serial other := by
    intro other
    simp only [CronState.serial, configured]
    by_cases same : other = job
    · rw [same, Function.update_self]
    · rw [Function.update_of_ne same]
  exact ⟨_, jobs, rfl, walks.records.withEvents serial,
    walks.mode.congr ⟨rfl, rfl, rfl⟩ (fun other _ => serial other)
      fun catching => absurd catching harmless.2⟩

section Insert

variable {heap : CronHeap} {newone : Ptr} (condition : Condition) (repeats : UInt8)

theorem events_jobAdded (fresh : newone ∉ jobs) :
    ∀ job ∈ jobs,
      (jobAdded state heap newone condition repeats).events job = state.events job := by
  intro job member
  have different : job ≠ newone := fun same => fresh (same ▸ member)
  exact Function.update_of_ne different ..

theorem serial_jobAdded (fresh : newone ∉ jobs) :
    ∀ job ∈ jobs, (jobAdded state heap newone condition repeats).serial job = state.serial job :=
  fun job member => congrArg CronEvent.serial (events_jobAdded condition repeats fresh job member)

theorem events_jobAdded_self :
    (jobAdded state heap newone condition repeats).events newone =
      { condition := condition, repeats := repeats, anacron := false, serial := state.serials } :=
  Function.update_self ..

theorem serial_jobAdded_self :
    (jobAdded state heap newone condition repeats).serial newone = state.serials :=
  congrArg CronEvent.serial (events_jobAdded_self condition repeats)

theorem RecordsRight.jobAdded (records : RecordsRight state jobs) (fresh : newone ∉ jobs)
    (linked : Linked heap (jobs ++ [newone])) :
    RecordsRight (jobAdded state heap newone condition repeats) (jobs ++ [newone]) where
  linked := linked
  serials_nodup := by
    rw [List.map_append, List.map_congr_left (serial_jobAdded condition repeats fresh),
      List.nodup_append]
    refine ⟨records.serials_nodup, List.nodup_singleton _, ?_⟩
    rintro number member other last rfl
    rw [List.map_singleton, List.mem_singleton, serial_jobAdded_self] at last
    obtain ⟨job, listed, numbered⟩ := List.mem_map.1 member
    have less := records.serials_lt job listed
    omega
  serials_lt := by
    intro job member
    rcases List.mem_append.1 member with listed | last
    · rw [serial_jobAdded condition repeats fresh job listed]
      exact Nat.lt_succ_of_lt (records.serials_lt job listed)
    · rw [List.mem_singleton.1 last, serial_jobAdded_self]
      exact Nat.lt_succ_self _
  lists := fun connection listing =>
    (records.lists connection listing).imp_right (List.mem_append_left _)
  lastCheck := records.lastCheck
  started_lt := fun number member => Nat.lt_succ_of_lt (records.started_lt number member)
  visited_nodup := records.visited_nodup
  visited_lt := fun number member => Nat.lt_succ_of_lt (records.visited_lt number member)
  executed_nodup := records.executed_nodup
  executed_lt := fun number member => Nat.lt_succ_of_lt (records.executed_lt number member)
  dueExecuted := records.dueExecuted

theorem ModeRight.jobAdded {mode : Mode} (right : ModeRight due state jobs mode)
    (records : RecordsRight state jobs) (fresh : newone ∉ jobs) :
    ModeRight due (jobAdded state heap newone condition repeats) (jobs ++ [newone]) mode := by
  have kept : ModeRight due (Cron.jobAdded state heap newone condition repeats) jobs mode := by
    refine right.congr ⟨rfl, rfl, rfl⟩ (serial_jobAdded condition repeats fresh) ?_
    intro _ job member
    rw [events_jobAdded condition repeats fresh job member]
    exact ⟨rfl, rfl⟩
  have unknown {numbers : List Nat} (bounded : ∀ number ∈ numbers, number < state.serials) :
      (Cron.jobAdded state heap newone condition repeats).serial newone ∉ numbers := by
    rw [serial_jobAdded_self]
    exact fun member => Nat.lt_irrefl _ (bounded _ member)
  exact kept.append (unknown records.started_lt) (unknown records.visited_lt)
    (unknown records.executed_lt) (by rw [events_jobAdded_self])

theorem Walks.insert {content : CronNode} {position : Int8} (walks : Walks due state jobs)
    (harmless : Harmless state (.insert newone content position condition repeats)) :
    ∃ next jobs',
      changeStep state (.insert newone content position condition repeats) = some next ∧
      Walks due next jobs' := by
  obtain ⟨notNull, notInList, appends⟩ := harmless
  have records := walks.records
  have fresh : newone ∉ jobs := fun member => notInList (records.linked.inList_iff.2 member)
  obtain ⟨heap, inserted, linked⟩ := records.linked.insert content notNull fresh
    (appends.imp_right records.linked.head_null.1)
  refine ⟨jobAdded state heap newone condition repeats, jobs ++ [newone], ?_,
    records.jobAdded condition repeats fresh linked,
    walks.mode.jobAdded condition repeats records fresh⟩
  rw [changeStep, cronJobinsert, inserted, Option.map_some]

end Insert

/-- Another state for the listing of a connection. -/
theorem Walks.withList {connection : Nat} {cmd : ListState} (walks : Walks due state jobs)
    (listed : cmd.magic = 23 → cmd.pos = null ∨ cmd.pos ∈ jobs) :
    Walks due { state with lists := Function.update state.lists connection cmd } jobs := by
  refine ⟨{ walks.records with lists := ?_ }, walks.mode.congr ⟨rfl, rfl, rfl⟩ (fun _ _ => rfl)
    fun _ _ _ => ⟨rfl, rfl⟩⟩
  intro other
  show ((Function.update state.lists connection cmd) other).magic = 23 → _
  by_cases same : other = connection
  · subst same
    simp only [Function.update_self]
    exact listed
  · simp only [Function.update_of_ne same]
    exact walks.records.lists other

/-- The job that a listing comes to is a member of the list. -/
theorem RecordsRight.continued_pos (records : RecordsRight state jobs) (connection : Nat) :
    (continued state.heap (state.lists connection)).pos = null ∨
      (continued state.heap (state.lists connection)).pos ∈ jobs := by
  by_cases listing : (state.lists connection).magic = 23
  · rw [continued, if_pos listing]
    exact records.lists connection listing
  · rw [continued, if_neg listing]
    exact records.linked.head_cases

theorem Walks.list {connection : Nat} (walks : Walks due state jobs) :
    ∃ next jobs', changeStep state (.list connection) = some next ∧ Walks due next jobs' := by
  have place := walks.records.continued_pos connection
  rw [changeStep, parseCmdCronList]
  by_cases atEnd : (continued state.heap (state.lists connection)).pos = null
  · rw [if_pos atEnd, Option.map_some]
    exact ⟨_, jobs, rfl, walks.withList fun _ => Or.inl atEnd⟩
  · obtain ⟨node, load, next⟩ := walks.records.linked.load_mem (place.resolve_left atEnd)
    rw [if_neg atEnd, load]
    simp only [Option.bind_eq_bind, Option.bind_some]
    split
    · exact ⟨_, jobs, rfl, walks.withList fun _ => place⟩
    · exact ⟨_, jobs, rfl, walks.withList fun _ => next⟩

theorem Walks.receive {connection : Nat} {cmd : ListState} (walks : Walks due state jobs)
    (harmless : Harmless state (.receive connection cmd)) :
    ∃ next jobs', changeStep state (.receive connection cmd) = some next ∧
      Walks due next jobs' :=
  ⟨_, jobs, rfl, walks.withList fun listing =>
    (harmless listing).imp_right walks.records.linked.inList_iff.1⟩

theorem RecordsRight.serial_inj (records : RecordsRight state jobs) {job other : Ptr}
    (member : job ∈ jobs) (member' : other ∈ jobs) (same : state.serial job = state.serial other) :
    job = other :=
  List.inj_on_of_nodup_map records.serials_nodup member member' same

/-- The command has returned; the job may have another repeat counter. -/
theorem Walks.returned {minute : UInt32} {exec : Ptr} {phase : Phase}
    {events : Ptr → CronEvent Condition} (walks : Walks due state jobs)
    (mode : state.mode = .executing minute exec phase)
    (same : ∀ job, (events job).serial = state.serial job ∧
      (events job).anacron = (state.events job).anacron ∧
      (events job).condition = (state.events job).condition) :
    Walks due { state with mode := .walking minute phase, events := events } jobs := by
  have right := walks.mode
  rw [mode] at right
  have records := walks.records.withEvents fun job => (same job).1
  exact ⟨{ records with }, right.1, right.2.1.congr ⟨rfl, rfl, rfl⟩ (fun job _ => (same job).1)
    fun _ job _ => (same job).2⟩

theorem Walks.commandReturns {minute : UInt32} {exec : Ptr} {phase : Phase}
    (walks : Walks due state jobs) (mode : state.mode = .executing minute exec phase)
    (harmless : Harmless state .commandReturns) :
    ∃ next jobs', executeReturns state minute exec phase = some next ∧ Walks due next jobs' := by
  have right := walks.mode
  rw [mode] at right
  obtain ⟨_, _, member, other⟩ := right
  obtain ⟨node, load, _⟩ := walks.records.linked.load_mem member
  have counted : ∀ job,
      (Function.update state.events exec
        { state.events exec with repeats := (state.events exec).repeats - 1 } job).serial =
          state.serial job ∧
      (Function.update state.events exec
        { state.events exec with repeats := (state.events exec).repeats - 1 } job).anacron =
          (state.events job).anacron ∧
      (Function.update state.events exec
        { state.events exec with repeats := (state.events exec).repeats - 1 } job).condition =
          (state.events job).condition := by
    intro job
    by_cases same : job = exec
    · rw [same, Function.update_self]
      exact ⟨rfl, rfl, rfl⟩
    · rw [Function.update_of_ne same]
      exact ⟨rfl, rfl, rfl⟩
  rw [executeReturns, load]
  simp only [Option.bind_eq_bind, Option.bind_some]
  by_cases limited : 0 < (state.events exec).repeats
  · rw [if_pos limited]
    by_cases expires : (state.events exec).repeats - 1 = 0
    · rw [if_pos expires]
      obtain ⟨heap, removed, linked⟩ := walks.records.linked.jobrm member
      have last : (state.events exec).repeats = 1 := by
        rw [← sub_eq_zero]
        exact expires
      have notHeld := harmless minute exec phase mode last
      have returned := walks.returned mode counted
      refine ⟨_, jobs.erase exec, by rw [removed]; rfl, returned.records.erase linked notHeld,
        returned.mode.1, ?_⟩
      exact (returned.mode.2.erase other).congr ⟨rfl, rfl, rfl⟩ (fun _ _ => rfl)
        fun _ _ _ => ⟨rfl, rfl⟩
    · rw [if_neg expires]
      exact ⟨_, jobs, rfl, walks.returned mode counted⟩
  · rw [if_neg limited]
    exact ⟨_, jobs, rfl, walks.returned mode fun _ => ⟨rfl, rfl, rfl⟩⟩

theorem cronExecute_eq {minute : UInt32} {exec : Ptr} {phase : Phase} {node : CronNode}
    (load : state.heap.load exec = some node) :
    cronExecute state minute exec phase = some { state with
      mode := .executing minute exec phase
      executed := state.executed ++ [state.serial exec] } := by
  rw [cronExecute, load]
  rfl

/-- `cron_execute` starts with a job that has not been executed. -/
theorem RecordsRight.executing {minute : UInt32} {exec : Ptr} {phase : Phase}
    (records : RecordsRight state jobs) (member : exec ∈ jobs)
    (fresh : state.serial exec ∉ state.executed) :
    RecordsRight { state with
      mode := .executing minute exec phase
      executed := state.executed ++ [state.serial exec] } jobs := by
  refine { records with executed_nodup := ?_, executed_lt := ?_, dueExecuted := ?_ }
  · rw [List.nodup_append]
    refine ⟨records.executed_nodup, List.nodup_singleton _, ?_⟩
    rintro number earlier other last rfl
    rw [List.mem_singleton.1 last] at earlier
    exact fresh earlier
  · intro number inside
    rcases List.mem_append.1 inside with earlier | last
    · exact records.executed_lt number earlier
    · rw [List.mem_singleton.1 last]
      exact records.serials_lt exec member
  · exact fun number turn => List.mem_append_left _ (records.dueExecuted number turn)

/-- The next entry of the table. -/
theorem Walks.nextEntry {minute : UInt32} {tab : List Ptr} {exec : Ptr}
    (walks : Walks due state jobs)
    (mode : state.mode = .walking minute (.anacron (tab ++ [exec]))) :
    ∃ next, cronExecute state minute exec (.anacron tab) = some next ∧ Walks due next jobs := by
  have right := walks.mode
  rw [mode] at right
  obtain ⟨whole, right⟩ := right
  have right : TabRight due state jobs minute (tab ++ [exec]) := right
  have records := walks.records
  have inTab : exec ∈ tab ++ [exec] := List.mem_append_right _ List.mem_cons_self
  have member := right.listed exec inTab
  have notTab : exec ∉ tab := fun earlier =>
    (List.nodup_append.1 right.nodup).2.2 exec earlier exec List.mem_cons_self rfl
  obtain ⟨node, load, _⟩ := records.linked.load_mem member
  have executedNow {job : Ptr} (listed : job ∈ jobs)
      (executed : state.serial job ∈ state.executed ++ [state.serial exec]) :
      state.serial job ∈ state.executed ∨ job = exec := by
    refine (List.mem_append.1 executed).imp_right fun last => ?_
    exact records.serial_inj listed member (List.mem_singleton.1 last)
  refine ⟨_, cronExecute_eq load, records.executing member (right.waiting exec inTab), whole, ?_,
    member, notTab⟩
  refine ⟨(List.nodup_append.1 right.nodup).1,
    fun job inside => right.listed job (List.mem_append_left _ inside),
    fun job inside => right.anacron job (List.mem_append_left _ inside), ?_, right.noTurns, ?_, ?_⟩
  · intro job inside executed
    have earlier := List.mem_append_left [exec] inside
    rcases executedNow (right.listed job earlier) executed with before | rfl
    · exact right.waiting job earlier before
    · exact notTab inside
  · intro job listed executed
    rcases executedNow listed executed with before | rfl
    · exact right.executedAnacron job listed before
    · exact right.anacron job inTab
  · intro job listed anacron isDue
    rcases right.dueCovered job listed anacron isDue with inside | executed
    · rcases List.mem_append.1 inside with earlier | last
      · exact Or.inl earlier
      · rw [List.mem_singleton.1 last]
        exact Or.inr (List.mem_append_right _ List.mem_cons_self)
    · exact Or.inr (List.mem_append_left _ executed)

/-- After the table has been worked off the loop starts with the first job. -/
theorem Walks.tabDone {minute : UInt32} (walks : Walks due state jobs)
    (mode : state.mode = .walking minute (.anacron [])) :
    Walks due { state with mode := .walking minute (.loop true state.heap.head) } jobs := by
  have right := walks.mode
  rw [mode] at right
  obtain ⟨whole, right⟩ := right
  have right : TabRight due state jobs minute [] := right
  refine ⟨{ walks.records with }, whole, ⟨[], jobs, rfl, ?_, ?_, ?_⟩, ?_, ?_⟩
  · intro job member
    cases member
  · intro job _ visited
    have visited : state.serial job ∈ state.turns.map Prod.fst := visited
    rw [right.noTurns] at visited
    cases visited
  · exact Or.inl walks.records.linked.head_eq
  · exact fun job member executed =>
      Or.inr ⟨rfl, right.executedAnacron job member executed⟩
  · intro _ job member anacron isDue
    exact (right.dueCovered job member anacron isDue).resolve_left List.not_mem_nil

/-- The end of the loop: no job of the beginning was passed over. -/
theorem Walks.loopDone {minute : UInt32} {skipAnacron : Bool} (walks : Walks due state jobs)
    (mode : state.mode = .walking minute (.loop skipAnacron null)) :
    Walks due { state with mode := .idle, lastCheck := minute } jobs := by
  have right := walks.mode
  rw [mode] at right
  obtain ⟨whole, right⟩ := right
  have right : LoopRight due state jobs minute skipAnacron null := right
  obtain ⟨front, rest, place⟩ := right.place
  refine ⟨{ walks.records with lastCheck := whole }, ?_⟩
  intro job member started
  rw [place.split] at member
  rcases List.mem_append.1 member with passed | ahead
  · exact place.passed job passed
  · rcases place.current with next | ⟨_, later⟩
    · cases rest with
      | nil => cases ahead
      | cons first rest =>
          have inList : first ∈ jobs := place.split ▸ by simp
          exact absurd next.symm (walks.records.linked.ne_null inList)
    · exact absurd started (later job ahead)

/-- The loop has come to a job: its turn is recorded and the pointer is advanced. -/
def turned (due : Condition → UInt32 → Bool) (state : CronState Condition) (minute : UInt32)
    (job : Ptr) : CronState Condition :=
  { state with
    turns := state.turns ++ [(state.serial job, due (state.events job).condition minute)] }

theorem visited_turned {minute : UInt32} {job : Ptr} :
    (turned due state minute job).visited = state.visited ++ [state.serial job] := by
  rw [CronState.visited, turned, List.map_append]
  rfl

theorem LoopAt.turned {minute : UInt32} {job : Ptr} {front rest : List Ptr}
    (place : LoopAt state jobs job front (job :: rest)) (records : RecordsRight state jobs) :
    LoopAt (turned due state minute job) jobs (rest.headD null) (front ++ [job]) rest where
  split := by rw [place.split, List.append_assoc, List.singleton_append]
  passed := by
    intro other member
    rw [visited_turned]
    rcases List.mem_append.1 member with earlier | last
    · exact List.mem_append_left _ (place.passed other earlier)
    · rw [List.mem_singleton.1 last]
      exact List.mem_append_right _ List.mem_cons_self
  ahead := by
    intro other member visited
    rw [visited_turned] at visited
    rcases List.mem_append.1 visited with earlier | same
    · exact place.ahead other (List.mem_cons_of_mem _ member) earlier
    · have inList {other : Ptr} (later : other ∈ job :: rest) : other ∈ jobs :=
        place.split ▸ List.mem_append_right _ later
      have equal := records.serial_inj (inList (List.mem_cons_of_mem _ member))
        (inList List.mem_cons_self) (List.mem_singleton.1 same)
      have nodup := records.linked.nodup
      rw [place.split, List.nodup_append, List.nodup_cons] at nodup
      exact nodup.2.1.1 (equal ▸ member)
  current := Or.inl rfl

theorem RecordsRight.turned {minute : UInt32} {job : Ptr} (records : RecordsRight state jobs)
    (member : job ∈ jobs) (fresh : state.serial job ∉ state.visited)
    (ran : due (state.events job).condition minute = true → state.serial job ∈ state.executed) :
    RecordsRight (turned due state minute job) jobs := by
  refine { records with visited_nodup := ?_, visited_lt := ?_, dueExecuted := ?_ }
  · rw [visited_turned, List.nodup_append]
    refine ⟨records.visited_nodup, List.nodup_singleton _, ?_⟩
    rintro number earlier other last rfl
    rw [List.mem_singleton.1 last] at earlier
    exact fresh earlier
  · intro number inside
    rw [visited_turned] at inside
    rcases List.mem_append.1 inside with earlier | last
    · exact records.visited_lt number earlier
    · rw [List.mem_singleton.1 last]
      exact records.serials_lt job member
  · intro number turn
    rcases List.mem_append.1 turn with earlier | last
    · exact records.dueExecuted number earlier
    · rw [List.mem_singleton, Prod.mk.injEq] at last
      rw [last.1]
      exact ran last.2.symm

theorem LoopRight.turned {minute : UInt32} {job : Ptr} {skipAnacron : Bool} {rest : List Ptr}
    {executed : List Nat} {mode : Mode} (right : LoopRight due state jobs minute skipAnacron job)
    (place : ∃ front, LoopAt (turned due state minute job) jobs (rest.headD null) front rest)
    (earlier : ∀ number ∈ state.executed, number ∈ executed)
    (new : ∀ number ∈ executed, number ∈ state.executed ∨ number = state.serial job) :
    LoopRight due { turned due state minute job with mode := mode, executed := executed } jobs
      minute skipAnacron (rest.headD null) := by
  obtain ⟨front, place⟩ := place
  refine ⟨⟨front, rest, place.split, place.passed, place.ahead, place.current⟩, ?_, ?_⟩
  · intro other member inside
    show state.serial other ∈ (Cron.turned due state minute job).visited ∨ _
    rw [visited_turned]
    rcases new _ inside with before | same
    · exact (right.executedTurn other member before).imp_left (List.mem_append_left _)
    · exact Or.inl (List.mem_append_right _ (List.mem_singleton.2 same))
  · exact fun skip other member anacron isDue =>
      earlier _ (right.caughtUp skip other member anacron isDue)

/-- One round of the loop: the job is skipped, or executed for the first time. -/
theorem Walks.nextTurn {minute : UInt32} {skipAnacron : Bool} {current : Ptr}
    (walks : Walks due state jobs)
    (mode : state.mode = .walking minute (.loop skipAnacron current)) (notNull : current ≠ null) :
    ∃ next, nextJob due state minute (.loop skipAnacron current) = some next ∧
      Walks due next jobs := by
  have right := walks.mode
  rw [mode] at right
  obtain ⟨whole, right⟩ := right
  have right : LoopRight due state jobs minute skipAnacron current := right
  have records := walks.records
  obtain ⟨front, rest, place⟩ := right.place
  obtain ⟨rest, rfl⟩ : ∃ later, rest = current :: later := by
    rcases place.current with next | ⟨atEnd, _⟩
    · cases rest with
      | nil => exact absurd next notNull
      | cons first rest => exact ⟨rest, by rw [next]; rfl⟩
    · exact absurd atEnd notNull
  have member : current ∈ jobs := place.split ▸ by simp
  have fresh := place.ahead current List.mem_cons_self
  have later : ∃ front, LoopAt (Cron.turned due state minute current) jobs (rest.headD null) front
      rest := ⟨_, place.turned records⟩
  have load : state.heap.load current = some ⟨rest.headD null, front.getLastD null⟩ := by
    have linked := records.linked
    rw [place.split] at linked
    exact linked.load_split
  rw [nextJob, if_neg notNull, load]
  simp only [Option.bind_eq_bind, Option.bind_some]
  by_cases skipped :
      (skipAnacron && (state.events current).anacron ||
        !due (state.events current).condition minute) = true
  · rw [if_pos skipped]
    refine ⟨_, rfl, { records.turned member fresh ?_ with }, whole,
      right.turned later (fun _ inside => inside) fun _ inside => Or.inl inside⟩
    intro isDue
    rw [isDue, Bool.not_true, Bool.or_false, Bool.and_eq_true] at skipped
    exact right.caughtUp skipped.1 current member skipped.2 isDue
  · rw [if_neg skipped]
    rw [Bool.not_eq_true, Bool.or_eq_false_iff] at skipped
    have notExecuted : state.serial current ∉ state.executed := by
      intro executed
      rcases right.executedTurn current member executed with visited | ⟨skip, anacron⟩
      · exact fresh visited
      · rw [skip, anacron] at skipped
        exact Bool.noConfusion skipped.1
    have next : current ∉ Phase.pointers (.loop skipAnacron (rest.headD null)) := by
      rw [Phase.pointers, List.mem_singleton]
      intro same
      rcases Linked.headD_cases rest with atEnd | inside
      · exact notNull (same.trans atEnd)
      · have nodup := records.linked.nodup
        rw [place.split, List.nodup_append, List.nodup_cons] at nodup
        exact nodup.2.1.1 (same ▸ inside)
    refine ⟨_, cronExecute_eq load, ?_, whole, ?_, member, next⟩
    · exact (records.executing member notExecuted).turned member fresh
        fun _ => List.mem_append_right _ List.mem_cons_self
    · refine right.turned later (fun _ inside => List.mem_append_left _ inside) ?_
      intro number inside
      exact (List.mem_append.1 inside).imp_right List.mem_singleton.1

theorem toNat_minute (timestamp : UInt32) :
    (timestamp - timestamp % 60).toNat = timestamp.toNat - timestamp.toNat % 60 := by
  have below : timestamp % 60 ≤ timestamp := by
    rw [UInt32.le_iff_toNat_le, UInt32.toNat_mod]
    exact Nat.mod_le _ _
  rw [UInt32.toNat_sub_of_le _ _ below, UInt32.toNat_mod]
  rfl

theorem RecordsRight.tickBegun {mode : Mode} (records : RecordsRight state jobs) :
    RecordsRight { beginTick state with mode := mode } jobs := by
  refine { records with
    started_lt := ?_
    visited_nodup := List.nodup_nil
    visited_lt := fun _ inside => (List.not_mem_nil inside).elim
    executed_nodup := List.nodup_nil
    executed_lt := fun _ inside => (List.not_mem_nil inside).elim
    dueExecuted := fun _ inside => (List.not_mem_nil inside).elim }
  intro number inside
  have inside : number ∈ ((listedJobs state.heap).getD []).map state.serial := inside
  rw [records.linked.listedJobs_eq, Option.getD_some] at inside
  obtain ⟨job, member, rfl⟩ := List.mem_map.1 inside
  exact records.serials_lt job member

/-- Without a table the loop starts with the first job. -/
theorem RecordsRight.startLoop {minute : UInt32} (records : RecordsRight state jobs)
    (whole : minute.toNat % 60 = 0) :
    Walks due { beginTick state with mode := .walking minute (.loop false state.heap.head) }
      jobs := by
  refine ⟨records.tickBegun, whole, ⟨[], jobs, rfl, ?_, ?_, Or.inl records.linked.head_eq⟩, ?_, ?_⟩
  · intro job member
    cases member
  · exact fun job _ visited => (List.not_mem_nil visited).elim
  · exact fun job _ executed => (List.not_mem_nil executed).elim
  · intro skip
    cases skip

/-- The two cases of `cron_anacron`. -/
theorem RecordsRight.cronAnacron_cases {starttime endtime : UInt32}
    (records : RecordsRight state jobs) (whole : endtime.toNat % 60 = 0)
    (wholeStart : starttime.toNat % 60 = 0) (later : starttime < endtime)
    (few : (jobs.filter fun job => (state.events job).anacron).length ≤ 256) :
    cronAnacron due state starttime endtime = some none ∨
      ∃ tab, cronAnacron due state starttime endtime = some (some tab) ∧
        Walks due { beginTick state with mode := .walking endtime (.anacron tab) } jobs := by
  have before := UInt32.lt_iff_toNat_lt.1 later
  have ordered : starttime ≤ endtime := UInt32.le_of_lt later
  have found {job : Ptr} := @mem_foundJobs Condition due state.events jobs starttime endtime whole
    wholeStart ordered job
  rw [cronAnacron_eq due records.linked.listedJobs_eq whole ordered few]
  split
  · exact Or.inl rfl
  · refine Or.inr ⟨_, rfl, records.tickBegun, whole, foundJobs_nodup records.linked.nodup,
      fun job inside => (found.1 inside).1, fun job inside => (found.1 inside).2.1,
      fun job _ executed => (List.not_mem_nil executed).elim,
      rfl, fun job _ executed => (List.not_mem_nil executed).elim, ?_⟩
    intro job member anacron isDue
    refine Or.inl (found.2 ⟨member, anacron, endtime, ⟨?_, UInt32.le_refl _, whole⟩, isDue⟩)
    rw [UInt32.lt_iff_toNat_lt, toNat_anacronStart ordered]
    omega

theorem Walks.periodic {anacronSupport : Bool} {timestamp : UInt32}
    (walks : Walks due state jobs) (mode : state.mode = .idle)
    (few : anacronSupport = true → 60 < timestamp - timestamp % 60 - state.lastCheck →
      (jobs.filter fun job => (state.events job).anacron).length ≤ 256) :
    ∃ next, cronPeriodic due anacronSupport state timestamp = some next ∧
      Walks due next jobs := by
  have records := walks.records
  have checked := records.lastCheck
  have minute := toNat_minute timestamp
  have right := walks.mode
  rw [mode] at right
  rw [cronPeriodic]
  by_cases back : timestamp < state.lastCheck
  · rw [if_pos back]
    refine ⟨_, rfl, { records with lastCheck := ?_ }, ?_⟩
    · show (timestamp - timestamp % 60).toNat % 60 = 0
      omega
    · show ModeRight due _ jobs state.mode
      rw [mode]
      exact right
  rw [if_neg back]
  by_cases early : state.heap.head = null ∨ timestamp - state.lastCheck < 60
  · rw [if_pos early]
    exact ⟨state, rfl, walks⟩
  rw [if_neg early]
  have whole : (timestamp - timestamp % 60).toNat % 60 = 0 := by omega
  simp only
  by_cases late : anacronSupport = true ∧ 60 < timestamp - timestamp % 60 - state.lastCheck
  · rw [if_pos late]
    rw [UInt32.lt_iff_toNat_lt] at back
    have later : state.lastCheck < timestamp - timestamp % 60 := by
      have notBefore : state.lastCheck ≤ timestamp - timestamp % 60 := by
        rw [UInt32.le_iff_toNat_le]
        omega
      have age := UInt32.lt_iff_toNat_lt.1 late.2
      rw [UInt32.toNat_sub_of_le _ _ notBefore] at age
      rw [UInt32.lt_iff_toNat_lt]
      exact Nat.lt_of_sub_pos (Nat.lt_of_le_of_lt (Nat.zero_le _) age)
    rcases records.cronAnacron_cases whole checked later (few late.1 late.2) with
      none | ⟨tab, some, walks'⟩
    · rw [none]
      exact ⟨_, rfl, records.startLoop whole⟩
    · rw [some]
      exact ⟨_, rfl, walks'⟩
  · rw [if_neg late]
    exact ⟨_, rfl, records.startLoop whole⟩

theorem Walks.change {action : CronAction Condition} (walks : Walks due state jobs)
    (harmless : Harmless state action) :
    ∃ next jobs', changeStep state action = some next ∧ Walks due next jobs' := by
  cases action with
  | periodic timestamp => exact ⟨state, jobs, rfl, walks⟩
  | next => exact ⟨state, jobs, rfl, walks⟩
  | commandReturns => exact ⟨state, jobs, rfl, walks⟩
  | insert newone content position condition repeats =>
      exact walks.insert condition repeats harmless
  | jobrm job => exact walks.jobrm harmless
  | configure job condition anacron => exact walks.configure harmless
  | receive connection cmd => exact walks.receive harmless
  | list connection => exact walks.list

theorem Walks.nextJob {minute : UInt32} {phase : Phase} (walks : Walks due state jobs)
    (mode : state.mode = .walking minute phase) :
    ∃ next jobs', nextJob due state minute phase = some next ∧ Walks due next jobs' := by
  cases phase with
  | anacron tab =>
      cases tab using List.reverseRecOn with
      | nil => exact ⟨_, jobs, rfl, walks.tabDone mode⟩
      | append_singleton tab exec =>
          obtain ⟨next, executed, walks'⟩ := walks.nextEntry mode
          refine ⟨next, jobs, ?_, walks'⟩
          rw [Cron.nextJob, List.getLast?_concat, List.dropLast_concat]
          exact executed
  | loop skipAnacron current =>
      by_cases atEnd : current = null
      · subst atEnd
        exact ⟨_, jobs, rfl, walks.loopDone mode⟩
      · obtain ⟨next, executed, walks'⟩ := walks.nextTurn mode atEnd
        exact ⟨next, jobs, executed, walks'⟩

/-- A harmless action has a result and keeps the invariant. -/
theorem Walks.step {anacronSupport : Bool} {action : CronAction Condition}
    (walks : Walks due state jobs) (harmless : Harmless state action) :
    ∃ next jobs', cronSystemStep due anacronSupport state action = some next ∧
      Walks due next jobs' := by
  unfold cronSystemStep
  split
  case h_1 timestamp mode =>
      have few : (jobs.filter fun job => (state.events job).anacron).length < 256 := by
        have few := harmless
        rw [Harmless, walks.records.linked.listedJobs_eq, Option.getD_some] at few
        exact few
      obtain ⟨next, result, walks'⟩ := walks.periodic mode fun _ _ => few.le
      exact ⟨next, jobs, result, walks'⟩
  case h_2 minute phase mode => exact walks.nextJob mode
  case h_3 minute exec phase mode => exact walks.commandReturns mode harmless
  case h_4 => exact ⟨state, jobs, rfl, walks⟩
  case h_5 => exact walks.change harmless

end Steps

/-- What the walks over the jobs promise: in the next step they dereference members of the list
only; a job whose turn has come is executed once when it is due; and when `cron_periodic` has
ended, every job of its beginning that is still in the list had its turn, once. -/
structure WalksRight (state : CronState Condition) : Prop where
  members : ∀ action, ∀ job ∈ dereferenced state action, InList state.heap job
  executedOnce : state.executed.Nodup
  turnsOnce : (state.turns.map Prod.fst).Nodup
  dueExecuted : ∀ serial, (serial, true) ∈ state.turns → serial ∈ state.executed
  everyTurn : state.mode = .idle → ∀ job, InList state.heap job →
    (state.events job).serial ∈ state.started →
      (state.events job).serial ∈ state.turns.map Prod.fst

theorem Walks.members {due : Condition → UInt32 → Bool} {state : CronState Condition}
    {jobs : List Ptr} (walks : Walks due state jobs) (action : CronAction Condition) :
    ∀ job ∈ dereferenced state action, InList state.heap job := by
  have linked := walks.records.linked
  have right := walks.mode
  have listing {connection : Nat} {job : Ptr}
      (inside : job ∈ if (continued state.heap (state.lists connection)).pos = null then []
        else [(continued state.heap (state.lists connection)).pos]) : job ∈ jobs := by
    split at inside
    · cases inside
    · next other =>
        rw [List.mem_singleton.1 inside]
        exact (walks.records.continued_pos connection).resolve_left other
  intro job inside
  rw [linked.inList_iff]
  unfold dereferenced at inside
  split at inside
  case h_1 => rwa [linked.listedJobs_eq, Option.getD_some] at inside
  case h_2 minute tab mode =>
      rw [mode] at right
      exact right.2.listed job (List.mem_of_getLast? (Option.mem_toList.1 inside))
  case h_3 minute skipAnacron current mode =>
      rw [mode] at right
      obtain ⟨front, rest, place⟩ := right.2.place
      split at inside
      · cases inside
      · next other =>
          rw [List.mem_singleton.1 inside]
          rcases place.current with next | ⟨atEnd, _⟩
          · rw [place.split, next]
            rcases Linked.headD_cases rest with atEnd | member
            · exact absurd (next.trans atEnd) other
            · exact List.mem_append_right _ member
          · exact absurd atEnd other
  case h_4 minute exec phase mode =>
      rw [mode] at right
      rw [List.mem_singleton.1 inside]
      exact right.2.2.1
  case h_5 => cases inside
  case h_6 => exact listing inside
  case h_7 => cases inside

theorem Walks.right {due : Condition → UInt32 → Bool} {state : CronState Condition}
    {jobs : List Ptr} (walks : Walks due state jobs) : WalksRight state where
  members := walks.members
  executedOnce := walks.records.executed_nodup
  turnsOnce := walks.records.visited_nodup
  dueExecuted := walks.records.dueExecuted
  everyTurn := by
    intro idle job inList started
    have right := walks.mode
    rw [idle] at right
    exact right job (walks.records.linked.inList_iff.1 inList) started

theorem walks_cronInit (due : Condition → UInt32 → Bool) (events : Ptr → CronEvent Condition) :
    Walks due (cronInit events) [] := by
  refine ⟨⟨linked_init, List.nodup_nil, ?_, ?_, rfl, ?_, List.nodup_nil, ?_,
    List.nodup_nil, ?_, ?_⟩, ?_⟩
  · exact fun job member => (List.not_mem_nil member).elim
  · exact fun connection _ => Or.inl rfl
  · exact fun number inside => (List.not_mem_nil inside).elim
  · exact fun number inside => (List.not_mem_nil inside).elim
  · exact fun number inside => (List.not_mem_nil inside).elim
  · exact fun number inside => (List.not_mem_nil inside).elim
  · exact fun job member => (List.not_mem_nil member).elim

/-- In every run of harmless actions the walks over the jobs keep what they promise. -/
theorem walksRight_of_guarded_run (due : Condition → UInt32 → Bool) (anacronSupport : Bool)
    (events : Ptr → CronEvent Condition) {actions : List (CronAction Condition)}
    (guarded : Guarded (cronSystemStep due anacronSupport) Harmless (cronInit events) actions) :
    ∃ last, run (cronSystemStep due anacronSupport) (cronInit events) actions = some last ∧
      WalksRight last := by
  have progress : ∀ state action, (∃ jobs, Walks due state jobs) → Harmless state action →
      ∃ next, cronSystemStep due anacronSupport state action = some next ∧
        ∃ jobs, Walks due next jobs := by
    rintro state action ⟨jobs, walks⟩ harmless
    obtain ⟨next, jobs', result, walks'⟩ := walks.step harmless
    exact ⟨next, result, jobs', walks'⟩
  obtain ⟨last, reached, jobs, walks⟩ :=
    guarded.exists_run progress ⟨[], walks_cronInit due events⟩
  exact ⟨last, reached, walks.right⟩

/-- All jobs are due.  The command of the first one removes the last one, which the loop does
not point to yet. -/
theorem walksRight_of_later_removal :
    ∃ last, run (cronSystemStep (fun (_ : Unit) _ => true) false)
        (cronInit fun _ => ⟨(), 0, false, 0⟩)
        [.insert 0x200 ⟨0, 0⟩ (-1) () 0, .insert 0x240 ⟨0, 0⟩ (-1) () 0,
          .insert 0x280 ⟨0, 0⟩ (-1) () 0, .periodic 60, .next, .jobrm 0x280, .commandReturns,
          .next, .commandReturns, .next] = some last ∧
      WalksRight last := by
  apply walksRight_of_guarded_run
  refine .cons rfl ⟨by decide, ?_, Or.inl (by decide)⟩ <|
    .cons rfl ⟨by decide, ?_, Or.inl (by decide)⟩ <|
    .cons rfl ⟨by decide, ?_, Or.inl (by decide)⟩ <| .cons rfl ?_ <| .cons rfl trivial <|
    .cons rfl ⟨⟨_, rfl, ?_⟩, ?_, ?_⟩ <| .cons rfl ?_ <| .cons rfl trivial <| .cons rfl ?_ <|
    .cons rfl trivial trivial
  · rintro ⟨jobs, listed, member⟩
    cases listed
    cases member
  · rintro ⟨jobs, listed, member⟩
    cases listed
    revert member
    decide
  · rintro ⟨jobs, listed, member⟩
    cases listed
    revert member
    decide
  · show List.length _ < 256
    decide
  · decide
  · decide
  · rintro ⟨connection, listing, _⟩
    cases listing
  · intro minute exec phase mode last
    cases mode
    cases last
  · intro minute exec phase mode last
    cases mode
    cases last

/-- Two due jobs; the command of the first one removes the second one, as `cron rm 1` does.
The loop goes on with the pointer it has read before. -/
theorem removed_job_is_dereferenced :
    ∃ last, run (cronSystemStep (fun (_ : Unit) _ => true) false)
        (cronInit fun _ => ⟨(), 0, false, 0⟩)
        [.insert 0x200 ⟨0, 0⟩ (-1) () 0, .insert 0x240 ⟨0, 0⟩ (-1) () 0, .periodic 60, .next,
          .jobrm 0x240, .commandReturns] = some last ∧
      dereferenced last .next = [0x240] ∧ ¬InList last.heap 0x240 ∧ ¬WalksRight last := by
  have notListed : ∀ heap : CronHeap, listedJobs heap = some [0x200] → ¬InList heap 0x240 := by
    rintro heap only ⟨jobs, listed, member⟩
    cases only.symm.trans listed
    revert member
    decide
  refine ⟨_, rfl, rfl, notListed _ rfl, fun right => ?_⟩
  exact notListed _ rfl (right.members .next 0x240 List.mem_cons_self)

end Ethersex.Cron
