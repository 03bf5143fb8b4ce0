import Ethersex.DoublyLinkedSegments
import Mathlib.Data.Fintype.Card
import Mathlib.Data.UInt

/-!
# The cron job list

`services/cron/cron.c` keeps its jobs in a hand-written doubly linked list with
the global pointers `head` and `tail`.  This file embeds `cron_insert`,
`cron_jobrm`, `cron_jobs` and `cron_getjob` over an explicit heap of list nodes.
Dereferencing `NULL` or a freed node has no result.
-/

namespace Ethersex.Cron

open DoublyLinked

/-- Data addresses of the target are 16 bits wide. -/
abbrev Ptr := UInt16

abbrev null : Ptr := 0

/-- The links of `struct cron_event_linkedlist`. -/
abbrev CronNode := Links Ptr

/-- The allocated list nodes together with the globals `head` and `tail`. -/
structure CronHeap where
  nodes : Ptr → Option CronNode
  head : Ptr
  tail : Ptr

namespace CronHeap

/-- `cron_init`: no node is allocated and both ends are `NULL`. -/
def init : CronHeap where
  nodes := fun _ => none
  head := null
  tail := null

def load (heap : CronHeap) (job : Ptr) : Option CronNode :=
  if job = null then none else heap.nodes job

def store (heap : CronHeap) (job : Ptr) (node : CronNode) : CronHeap :=
  { heap with nodes := Function.update heap.nodes job (some node) }

/-- The assignment `job->next = target`. -/
def setNext (heap : CronHeap) (job target : Ptr) : Option CronHeap := do
  let node ← heap.load job
  return heap.store job { node with next := target }

/-- The assignment `job->prev = target`. -/
def setPrev (heap : CronHeap) (job target : Ptr) : Option CronHeap := do
  let node ← heap.load job
  return heap.store job { node with prev := target }

/-- A freshly allocated node holds arbitrary links. -/
def malloc (heap : CronHeap) (job : Ptr) (content : CronNode) : CronHeap :=
  heap.store job content

def free (heap : CronHeap) (job : Ptr) : CronHeap :=
  { heap with nodes := Function.update heap.nodes job none }

end CronHeap

/-- A walk over more nodes than there are addresses never ends. -/
def walkLimit : Nat := 65536

/-- The counting loop of `cron_jobs`. -/
def cronJobsLoop (heap : CronHeap) : Nat → Ptr → UInt8 → Option UInt8
  | 0, _, _ => none
  | fuel + 1, job, ss =>
      if job = null then
        some ss
      else do
        let node ← heap.load job
        cronJobsLoop heap fuel node.next (ss + 1)

def cronJobs (heap : CronHeap) : Option UInt8 :=
  cronJobsLoop heap walkLimit heap.head 0

/-- The loop of `cron_getjob`, with the remaining position. -/
def cronGetjobLoop (heap : CronHeap) : Nat → Ptr → UInt8 → Option Ptr
  | 0, _, _ => none
  | fuel + 1, job, jobposition =>
      if job = null then
        some null
      else if jobposition = 0 then
        some job
      else do
        let node ← heap.load job
        cronGetjobLoop heap fuel node.next (jobposition - 1)

def cronGetjob (heap : CronHeap) (jobposition : UInt8) : Option Ptr :=
  cronGetjobLoop heap walkLimit heap.head jobposition

/-- The loop of `cron_insert` that jumps to a positive position. -/
def jumpToPosition (heap : CronHeap) (position : Int8) :
    Nat → Ptr → UInt8 → Option (Ptr × UInt8)
  | 0, _, _ => none
  | fuel + 1, job, ss =>
      if job = null then
        some (null, ss)
      else if (ss.toNat : Int) = position.toInt then
        some (job, ss + 1)
      else do
        let node ← heap.load job
        jumpToPosition heap position fuel node.next (ss + 1)

/-- The branch of `cron_insert` for a positive position.  The reference to
`newone` from the preceding node is not written. -/
def insertAtPosition (heap : CronHeap) (newone : Ptr) (position : Int8) :
    Option (CronHeap × UInt8) := do
  let (job, ss) ← jumpToPosition heap position walkLimit heap.head 0
  -- past the end of the list `job` is `NULL` and the next line reads `job->prev`
  let node ← heap.load job
  let heap ← heap.setPrev newone node.prev
  let heap ← heap.setPrev job newone
  let heap ← heap.setNext newone job
  let heap := if job = heap.head then { heap with head := newone } else heap
  return (heap, ss)

/-- The last branch of `cron_insert`, which appends. -/
def insertLast (heap : CronHeap) (newone : Ptr) : Option (CronHeap × UInt8) := do
  let heap ← heap.setNext newone null
  let heap ← heap.setPrev newone heap.tail
  let heap ← heap.setNext heap.tail newone
  let heap := { heap with tail := newone }
  let jobs ← cronJobs heap
  return (heap, jobs - 1)

def cronInsert (heap : CronHeap) (newone : Ptr) (position : Int8) :
    Option (CronHeap × UInt8) :=
  if heap.head = null then do
    let heap ← heap.setPrev newone null
    let heap ← heap.setNext newone null
    return ({ heap with head := newone, tail := newone }, 0)
  else if 0 < position then
    insertAtPosition heap newone position
  else
    insertLast heap newone

/-- The statement `if (job) job->next = target;`. -/
def setNextUnlessNull (heap : CronHeap) (job target : Ptr) : Option CronHeap :=
  if job = null then some heap else heap.setNext job target

/-- The statement `if (job) job->prev = target;`. -/
def setPrevUnlessNull (heap : CronHeap) (job target : Ptr) : Option CronHeap :=
  if job = null then some heap else heap.setPrev job target

def cronJobrm (heap : CronHeap) (job : Ptr) : Option CronHeap :=
  if job = null then
    some heap
  else do
    -- remove link from element before this
    let node ← heap.load job
    let heap := if job = heap.head then { heap with head := node.next } else heap
    let heap ← setNextUnlessNull heap node.prev node.next
    -- remove link from element after this
    let node ← heap.load job
    let heap := if job = heap.tail then { heap with tail := node.prev } else heap
    let heap ← setPrevUnlessNull heap node.next node.prev
    return heap.free job

/-- The heap stores exactly the jobs of `jobs`, linked in both directions. -/
structure Linked (heap : CronHeap) (jobs : List Ptr) : Prop where
  segment : Segment heap.nodes null jobs null
  head_eq : heap.head = jobs.headD null
  tail_eq : heap.tail = jobs.getLastD null
  nodup : jobs.Nodup
  not_null : null ∉ jobs

theorem linked_init : Linked CronHeap.init [] :=
  ⟨trivial, rfl, rfl, List.nodup_nil, List.not_mem_nil⟩

namespace Linked

variable {heap : CronHeap} {jobs : List Ptr}

theorem readsNext (linked : Linked heap jobs) :
    ReadsNext heap.nodes null heap.head jobs :=
  linked.segment.readsNext linked.not_null linked.head_eq

theorem readsPrev (linked : Linked heap jobs) :
    ReadsPrev heap.nodes null heap.tail jobs.reverse :=
  linked.segment.readsPrev linked.not_null linked.tail_eq

theorem head_null (linked : Linked heap jobs) :
    heap.head = null ↔ jobs = [] := by
  rw [linked.head_eq]
  cases jobs with
  | nil => simp
  | cons job jobs =>
      have jobNe : job ≠ null := fun jobEq =>
        linked.not_null (jobEq ▸ List.mem_cons_self)
      simpa using jobNe

theorem tail_null (linked : Linked heap jobs) :
    heap.tail = null ↔ jobs = [] := by
  rw [linked.tail_eq]
  cases jobs using List.reverseRecOn with
  | nil => simp
  | append_singleton front last =>
      have lastNe : last ≠ null := fun lastEq =>
        linked.not_null (lastEq ▸ by simp)
      simpa using lastNe

/-- The jobs fit into the address space, so every walk ends in time. -/
theorem length_lt (linked : Linked heap jobs) : jobs.length < walkLimit := by
  have nodup : (null :: jobs).Nodup :=
    List.nodup_cons.mpr ⟨linked.not_null, linked.nodup⟩
  have injective : Function.Injective UInt16.toFin := fun _ _ => UInt16.toFin_inj.mp
  have bound := (nodup.map injective).length_le_card
  rw [List.length_map, Fintype.card_fin, List.length_cons, UInt16.size] at bound
  rw [walkLimit]
  omega

end Linked

theorem cronJobsLoop_readsNext {heap : CronHeap} {job : Ptr}
    {jobs : List Ptr} (reads : ReadsNext heap.nodes null job jobs)
    {fuel : Nat} (enough : jobs.length < fuel) (ss : UInt8) :
    cronJobsLoop heap fuel job ss = some (ss + UInt8.ofNat jobs.length) := by
  induction reads generalizing fuel ss with
  | null =>
      obtain ⟨fuel, rfl⟩ : ∃ rest, fuel = rest + 1 := ⟨fuel - 1, by omega⟩
      simp [cronJobsLoop]
  | @cell job node jobs notNull load rest ih =>
      rw [List.length_cons] at enough
      obtain ⟨fuel, rfl⟩ : ∃ rest, fuel = rest + 1 := ⟨fuel - 1, by omega⟩
      rw [cronJobsLoop, if_neg notNull]
      simp only [CronHeap.load, if_neg notNull, load, Option.bind_eq_bind, Option.bind_some]
      rw [ih (by omega), List.length_cons, add_comm jobs.length 1, UInt8.ofNat_add, add_assoc]
      rfl

/-- `cron_jobs` counts the jobs modulo 256. -/
theorem cronJobs_linked {heap : CronHeap} {jobs : List Ptr}
    (linked : Linked heap jobs) :
    cronJobs heap = some (UInt8.ofNat jobs.length) := by
  rw [cronJobs, cronJobsLoop_readsNext linked.readsNext linked.length_lt, zero_add]

theorem cronGetjobLoop_readsNext {heap : CronHeap} {job : Ptr}
    {jobs : List Ptr} (reads : ReadsNext heap.nodes null job jobs)
    {fuel : Nat} (enough : jobs.length < fuel) (jobposition : UInt8) :
    cronGetjobLoop heap fuel job jobposition =
      some (jobs[jobposition.toNat]?.getD null) := by
  induction reads generalizing fuel jobposition with
  | null =>
      obtain ⟨fuel, rfl⟩ : ∃ rest, fuel = rest + 1 := ⟨fuel - 1, by omega⟩
      simp [cronGetjobLoop]
  | @cell job node jobs notNull load rest ih =>
      rw [List.length_cons] at enough
      obtain ⟨fuel, rfl⟩ : ∃ rest, fuel = rest + 1 := ⟨fuel - 1, by omega⟩
      rw [cronGetjobLoop, if_neg notNull]
      by_cases atJob : jobposition = 0
      · simp [atJob]
      · rw [if_neg atJob]
        simp only [CronHeap.load, if_neg notNull, load, Option.bind_eq_bind, Option.bind_some]
        rw [ih (by omega)]
        have positive : jobposition.toNat ≠ 0 := fun zero =>
          atJob (UInt8.toNat_inj.mp zero)
        have before : (jobposition - 1).toNat + 1 = jobposition.toNat := by
          have below := jobposition.toNat_lt
          rw [UInt8.toNat_sub]
          simp
          omega
        rw [← before, List.getElem?_cons_succ]

/-- `cron_getjob` returns the job at the given position, or `NULL` past the
end. -/
theorem cronGetjob_linked {heap : CronHeap} {jobs : List Ptr}
    (linked : Linked heap jobs) (jobposition : UInt8) :
    cronGetjob heap jobposition = some (jobs[jobposition.toNat]?.getD null) :=
  cronGetjobLoop_readsNext linked.readsNext linked.length_lt jobposition

/-- From index `ss` the jump of `cron_insert` stops at the node with index
`position`, or at `NULL` behind the last node. -/
theorem jumpToPosition_readsNext {heap : CronHeap} {job : Ptr}
    {jobs : List Ptr} (reads : ReadsNext heap.nodes null job jobs)
    {position : Int8} {index fuel : Nat}
    (indexLe : (index : Int) ≤ position.toInt) (enough : jobs.length < fuel) :
    ∃ ss, jumpToPosition heap position fuel job (UInt8.ofNat index) =
      some (jobs[position.toInt.toNat - index]?.getD null, ss) := by
  have positionLt : position.toInt < 128 := position.toInt_lt
  induction reads generalizing fuel index with
  | null =>
      obtain ⟨fuel, rfl⟩ : ∃ rest, fuel = rest + 1 := ⟨fuel - 1, by omega⟩
      refine ⟨UInt8.ofNat index, ?_⟩
      simp only [jumpToPosition, if_true, List.getElem?_nil, Option.getD_none]
  | @cell job node jobs notNull load rest ih =>
      rw [List.length_cons] at enough
      obtain ⟨fuel, rfl⟩ : ∃ rest, fuel = rest + 1 := ⟨fuel - 1, by omega⟩
      have indexValue : (UInt8.ofNat index).toNat = index := by
        rw [UInt8.toNat_ofNat']
        omega
      rw [jumpToPosition, if_neg notNull, indexValue]
      by_cases atPosition : (index : Int) = position.toInt
      · have distance : position.toInt.toNat - index = 0 := by omega
        exact ⟨_, by rw [if_pos atPosition, distance]; rfl⟩
      · have distance : position.toInt.toNat - index =
            (position.toInt.toNat - (index + 1)) + 1 := by omega
        rw [if_neg atPosition, distance]
        simp only [CronHeap.load, if_neg notNull, load, Option.bind_eq_bind, Option.bind_some,
          List.getElem?_cons_succ]
        have nextLe : ((index + 1 : Nat) : Int) ≤ position.toInt := by omega
        obtain ⟨ss, jumped⟩ := ih nextLe (show jobs.length < fuel by omega)
        refine ⟨ss, ?_⟩
        rw [← jumped, UInt8.ofNat_add]
        rfl

end Ethersex.Cron
