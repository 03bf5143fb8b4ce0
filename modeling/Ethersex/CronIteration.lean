import Ethersex.CronJobListRuns
import Ethersex.GuardedRuns

/-!
# The code that walks over the cron jobs

`cron_periodic` and `cron_anacron` keep pointers to jobs while the command of another job
runs, and `cron list` keeps one from call to call.  The commands insert and remove jobs.
This file embeds the four functions as a transition system: a step ends where `cron_execute`
hands over to a command and goes on when the command returns, so that a run interleaves the
walks with the changes.  `cron_check_event` is a parameter.  Dereferencing `NULL` or a freed
node has no result; an action that cannot happen in a state changes nothing.
-/

namespace Ethersex.Cron

/-- `struct cron_event`, with `cond` and `use_utc` as one condition.  The source has no
`serial`: it numbers the jobs in the order they are inserted. -/
structure CronEvent (Condition : Type) where
  condition : Condition
  repeats : UInt8
  anacron : Bool
  serial : Nat

/-- `cron_list_state_t`, which `cron list` keeps in the bytes of its command line. -/
structure ListState where
  magic : UInt8
  jobposition : UInt8
  pos : Ptr
  lineno : UInt8

/-- The local variables that the caller of `cron_execute` goes on with: the entries of `tab`
below `pos`, or the pointer `current`. -/
inductive Phase
  | anacron (tab : List Ptr)
  | loop (skipAnacron : Bool) (current : Ptr)

/-- Where `cron_periodic` is; `minute` is its `timestamp` without the seconds. -/
inductive Mode
  | idle
  | walking (minute : UInt32) (phase : Phase)
  | executing (minute : UInt32) (exec : Ptr) (phase : Phase)

/-- The last four fields record what a call of `cron_periodic` does: the jobs it finds when it
starts, the jobs the loop comes to and whether they are due, and the jobs it executes. -/
structure CronState (Condition : Type) where
  heap : CronHeap
  events : Ptr → CronEvent Condition
  lastCheck : UInt32
  mode : Mode
  lists : Nat → ListState
  serials : Nat
  started : List Nat
  turns : List (Nat × Bool)
  executed : List Nat

/-- What a call of `cron list` writes. -/
inductive ListReply (Condition : Type)
  | finalOk
  | attributes (jobposition : UInt8) (event : CronEvent Condition)
  | job (event : CronEvent Condition)

variable {Condition : Type}

/-- A walk from a node to the end of the list. -/
def cronWalk (heap : CronHeap) : Nat → Ptr → Option (List Ptr)
  | 0, _ => none
  | fuel + 1, job =>
      if job = null then
        some []
      else do
        let node ← heap.load job
        let rest ← cronWalk heap fuel node.next
        return job :: rest

/-- The jobs that a loop over the whole list visits. -/
def listedJobs (heap : CronHeap) : Option (List Ptr) :=
  cronWalk heap walkLimit heap.head

/-- `CRON_ANACRON_MAXAGE` -/
def cronAnacronMaxage : UInt32 := 86400

section Due

variable (due : Condition → UInt32 → Bool)

/-- The loop of `cron_anacron` that fills its table.  `pending` holds the jobs with the flag
`anacron_pending`. -/
def anacronTab (events : Ptr → CronEvent Condition) (starttime : UInt32) (count : UInt8) :
    Nat → UInt32 → List Ptr → List Ptr → Option (List Ptr)
  | 0, _, _, _ => none
  | fuel + 1, timestamp, tab, pending =>
      if starttime < timestamp ∧ UInt8.ofNat tab.length < count then
        let found := pending.filter fun job => due (events job).condition timestamp
        -- the table has room for `count` pointers
        if count.toNat < tab.length + found.length then
          none
        else
          anacronTab events starttime count fuel (timestamp - 60) (tab ++ found)
            (pending.filter fun job => !due (events job).condition timestamp)
      else
        some tab

/-- `cron_anacron` up to its last loop.  Without anacron jobs there is no table. -/
def cronAnacron (state : CronState Condition) (starttime endtime : UInt32) :
    Option (Option (List Ptr)) := do
  let jobs ← listedJobs state.heap
  let pending := jobs.filter fun job => (state.events job).anacron
  let count := UInt8.ofNat pending.length
  if count = 0 then
    return none
  else
    let starttime :=
      if cronAnacronMaxage < endtime - starttime then endtime - cronAnacronMaxage else starttime
    let tab ← anacronTab due state.events starttime count 1442 endtime [] pending
    return some tab

def beginTick (state : CronState Condition) : CronState Condition :=
  { state with
    started := ((listedJobs state.heap).getD []).map fun job => (state.events job).serial
    turns := []
    executed := [] }

/-- `cron_periodic` up to its loop, or up to the last loop of `cron_anacron`. -/
def cronPeriodic (anacronSupport : Bool) (state : CronState Condition) (timestamp : UInt32) :
    Option (CronState Condition) :=
  if timestamp < state.lastCheck then
    some { state with lastCheck := timestamp - timestamp % 60 }
  else if state.heap.head = null ∨ timestamp - state.lastCheck < 60 then
    some state
  else
    let minute := timestamp - timestamp % 60
    if anacronSupport ∧ 60 < minute - state.lastCheck then do
      let tab ← cronAnacron due state state.lastCheck minute
      match tab with
      | none =>
          return { beginTick state with mode := .walking minute (.loop false state.heap.head) }
      | some tab => return { beginTick state with mode := .walking minute (.anacron tab) }
    else
      some { beginTick state with mode := .walking minute (.loop false state.heap.head) }

/-- `cron_execute` up to the call of the handler or of the parser. -/
def cronExecute (state : CronState Condition) (minute : UInt32) (exec : Ptr) (phase : Phase) :
    Option (CronState Condition) := do
  let _ ← state.heap.load exec
  return { state with
    mode := .executing minute exec phase
    executed := state.executed ++ [(state.events exec).serial] }

/-- The rest of `cron_execute`. -/
def executeReturns (state : CronState Condition) (minute : UInt32) (exec : Ptr) (phase : Phase) :
    Option (CronState Condition) := do
  let _ ← state.heap.load exec
  let event := state.events exec
  let state := { state with mode := .walking minute phase }
  if 0 < event.repeats then
    let state := { state with
      events := Function.update state.events exec { event with repeats := event.repeats - 1 } }
    if event.repeats - 1 = 0 then do
      let heap ← cronJobrm state.heap exec
      return { state with heap := heap }
    else
      return state
  else
    return state

/-- One round of the loop in `cron_periodic`, or of the last loop in `cron_anacron`. -/
def nextJob (state : CronState Condition) (minute : UInt32) : Phase → Option (CronState Condition)
  | .anacron tab =>
      match tab.getLast? with
      | none => some { state with mode := .walking minute (.loop true state.heap.head) }
      | some exec => cronExecute state minute exec (.anacron tab.dropLast)
  | .loop skipAnacron current =>
      if current = null then
        some { state with mode := .idle, lastCheck := minute }
      else do
        let node ← state.heap.load current
        let event := state.events current
        let state := { state with
          turns := state.turns ++ [(event.serial, due event.condition minute)] }
        if (skipAnacron && event.anacron) || !due event.condition minute then
          return { state with mode := .walking minute (.loop skipAnacron node.next) }
        else
          cronExecute state minute current (.loop skipAnacron node.next)

end Due

/-- The state of a listing in which it looks at its job. -/
def continued (heap : CronHeap) (state : ListState) : ListState :=
  if state.magic = 23 then state
  else { magic := 23, jobposition := 0, pos := heap.head, lineno := 0 }

def parseCmdCronList (heap : CronHeap) (events : Ptr → CronEvent Condition) (cmd : ListState) :
    Option (ListReply Condition × ListState) :=
  let state := continued heap cmd
  if state.pos = null then
    some (.finalOk, state)
  else do
    let node ← heap.load state.pos
    let event := events state.pos
    if state.lineno = 0 then
      return (.attributes state.jobposition event, { state with lineno := state.lineno + 1 })
    else
      return (.job event, { state with
        jobposition := state.jobposition + 1
        pos := node.next
        lineno := 0 })

/-- The main loop calls `cron_periodic`; the loops and the command that runs take a step; a
command or another connection changes the list or a job, receives a command line or calls
`cron list`. -/
inductive CronAction (Condition : Type)
  | periodic (timestamp : UInt32)
  | next
  | commandReturns
  | insert (newone : Ptr) (content : CronNode) (position : Int8) (condition : Condition)
      (repeats : UInt8)
  | jobrm (job : Ptr)
  | configure (job : Ptr) (condition : Condition) (anacron : Bool)
  | receive (connection : Nat) (cmd : ListState)
  | list (connection : Nat)

/-- The flags of a new job are cleared. -/
def jobAdded (state : CronState Condition) (heap : CronHeap) (newone : Ptr)
    (condition : Condition) (repeats : UInt8) : CronState Condition :=
  { state with
    heap := heap
    events := Function.update state.events newone
      { condition := condition, repeats := repeats, anacron := false, serial := state.serials }
    serials := state.serials + 1 }

/-- `cron_jobinsert_ecmd` and `cron_jobinsert_callback` -/
def cronJobinsert (state : CronState Condition) (newone : Ptr) (content : CronNode)
    (position : Int8) (condition : Condition) (repeats : UInt8) :
    Option (CronState Condition) :=
  (cronStep state.heap (.insert newone content position)).map fun heap =>
    jobAdded state heap newone condition repeats

/-- The commands `cron utc` and `cron anacron`. -/
def configured (state : CronState Condition) (job : Ptr) (condition : Condition) (anacron : Bool) :
    CronState Condition :=
  { state with
    events := Function.update state.events job
      { state.events job with condition := condition, anacron := anacron } }

/-- What happens outside of the loops. -/
def changeStep (state : CronState Condition) :
    CronAction Condition → Option (CronState Condition)
  | .insert newone content position condition repeats =>
      cronJobinsert state newone content position condition repeats
  | .jobrm job => (cronJobrm state.heap job).map fun heap => { state with heap := heap }
  | .configure job condition anacron => some (configured state job condition anacron)
  | .receive connection cmd =>
      some { state with lists := Function.update state.lists connection cmd }
  | .list connection =>
      (parseCmdCronList state.heap state.events (state.lists connection)).map fun reply =>
        { state with lists := Function.update state.lists connection reply.2 }
  | _ => some state

/-- The loops are not interrupted except by the command that `cron_execute` calls. -/
def cronSystemStep (due : Condition → UInt32 → Bool) (anacronSupport : Bool)
    (state : CronState Condition) (action : CronAction Condition) :
    Option (CronState Condition) :=
  match state.mode, action with
  | .idle, .periodic timestamp => cronPeriodic due anacronSupport state timestamp
  | .walking minute phase, .next => nextJob due state minute phase
  | .executing minute exec phase, .commandReturns => executeReturns state minute exec phase
  | .walking _ _, _ => some state
  | _, action => changeStep state action

/-- `cron_init`; the memory of jobs is not initialised. -/
def cronInit (events : Ptr → CronEvent Condition) : CronState Condition where
  heap := CronHeap.init
  events := events
  lastCheck := 0
  mode := .idle
  lists := fun _ => ⟨0, 0, null, 0⟩
  serials := 0
  started := []
  turns := []
  executed := []

/-- The job is in the list: it is found by following the links from `head`. -/
def InList (heap : CronHeap) (job : Ptr) : Prop :=
  ∃ jobs, listedJobs heap = some jobs ∧ job ∈ jobs

/-- The job nodes that the walking functions dereference in a step. -/
def dereferenced (state : CronState Condition) (action : CronAction Condition) : List Ptr :=
  match state.mode, action with
  | .idle, .periodic _ => (listedJobs state.heap).getD []
  | .walking _ (.anacron tab), .next => tab.getLast?.toList
  | .walking _ (.loop _ current), .next => if current = null then [] else [current]
  | .executing _ exec _, .commandReturns => [exec]
  | .walking _ _, _ => []
  | _, .list connection =>
      if (continued state.heap (state.lists connection)).pos = null then []
      else [(continued state.heap (state.lists connection)).pos]
  | _, _ => []

end Ethersex.Cron
