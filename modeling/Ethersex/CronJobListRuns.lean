import Ethersex.CronJobList

/-!
# Runs of the cron job list against a reference list

The reference model of a sequence of `cron_insert` and `cron_jobrm` calls is an
ordinary list.  The heap follows it exactly as long as every insertion into a
non-empty list appends.
-/

namespace Ethersex.Cron

open DoublyLinked

namespace CronHeap

variable {heap : CronHeap} {job other : Ptr} {node : CronNode}

theorem load_of_nodes (notNull : job ≠ null) : heap.load job = heap.nodes job :=
  if_neg notNull

@[simp]
theorem store_nodes : (heap.store job node).nodes =
    Function.update heap.nodes job (some node) := rfl

@[simp]
theorem store_tail : (heap.store job node).tail = heap.tail := rfl

theorem setNext_eq {target : Ptr} (notNull : job ≠ null)
    (stored : heap.nodes job = some node) :
    heap.setNext job target = some (heap.store job { node with next := target }) := by
  simp [setNext, load_of_nodes notNull, stored]

theorem setPrev_eq {target : Ptr} (notNull : job ≠ null)
    (stored : heap.nodes job = some node) :
    heap.setPrev job target = some (heap.store job { node with prev := target }) := by
  simp [setPrev, load_of_nodes notNull, stored]

theorem setNext_store {target : Ptr} (notNull : job ≠ null) :
    (heap.store job node).setNext job target =
      some (heap.store job { node with next := target }) := by
  rw [setNext_eq notNull (Function.update_self ..)]
  simp [store]

theorem setPrev_store {target : Ptr} (notNull : job ≠ null) :
    (heap.store job node).setPrev job target =
      some (heap.store job { node with prev := target }) := by
  rw [setPrev_eq notNull (Function.update_self ..)]
  simp [store]

end CronHeap

namespace Linked

variable {heap : CronHeap} {jobs : List Ptr} {newone : Ptr} {content : CronNode}

/-- Allocating a node outside the list leaves the list alone. -/
theorem malloc (linked : Linked heap jobs) (fresh : newone ∉ jobs) :
    Linked (heap.malloc newone content) jobs :=
  { linked with segment := linked.segment.update fresh }

/-- `cron_insert` into the empty list. -/
theorem insert_empty (linked : Linked heap []) (notNull : newone ≠ null)
    (position : Int8) (stored : heap.nodes newone = some content) :
    ∃ after ss, cronInsert heap newone position = some (after, ss) ∧
      Linked after [newone] := by
  have headNull : heap.head = null := linked.head_null.mpr rfl
  let nodes := Function.update heap.nodes newone (some ⟨null, null⟩)
  refine ⟨⟨nodes, newone, newone⟩, 0, ?_, ?_⟩
  · rw [cronInsert, if_pos headNull, CronHeap.setPrev_eq notNull stored]
    simp only [Option.bind_eq_bind, Option.bind_some]
    rw [CronHeap.setNext_store notNull]
    rfl
  · refine ⟨⟨by simp [nodes], trivial⟩, rfl, rfl, List.nodup_singleton newone, ?_⟩
    simpa using Ne.symm notNull

/-- The appending branch of `cron_insert` on a non-empty list. -/
theorem insert_last {last : Ptr} {front : List Ptr}
    (linked : Linked heap (front ++ [last])) (notNull : newone ≠ null)
    (fresh : newone ∉ front ++ [last])
    (stored : heap.nodes newone = some content) :
    ∃ after ss, insertLast heap newone = some (after, ss) ∧
      Linked after (front ++ [last] ++ [newone]) := by
  have tailEq : heap.tail = last := by simpa using linked.tail_eq
  have lastNotNull : last ≠ null := fun lastEq =>
    linked.not_null (lastEq ▸ by simp)
  have lastNe : last ≠ newone := fun lastEq => fresh (lastEq ▸ by simp)
  have lastStored : heap.nodes last = some ⟨null, front.getLastD null⟩ :=
    (segment_append.mp linked.segment).2.1
  -- the three assignments change only `newone` and the old tail
  let nodes := Function.update (Function.update heap.nodes newone (some ⟨null, last⟩))
    last (some ⟨newone, front.getLastD null⟩)
  have segment : Segment nodes null (front ++ [last] ++ [newone]) null := by
    rw [segment_append]
    have outside : Segment (Function.update heap.nodes newone (some ⟨null, last⟩))
        null (front ++ [last]) null := linked.segment.update fresh
    refine ⟨outside.setLast linked.nodup, ?_, trivial⟩
    have newNe : newone ≠ last := Ne.symm lastNe
    simp [nodes, Function.update_of_ne newNe]
  have appended : Linked ⟨nodes, heap.head, newone⟩ (front ++ [last] ++ [newone]) := by
    refine ⟨segment, ?_, by simp, ?_, ?_⟩
    · rw [linked.head_eq]
      cases front <;> rfl
    · rw [List.nodup_append]
      refine ⟨linked.nodup, List.nodup_singleton newone, ?_⟩
      intro job member other otherMember
      rw [List.mem_singleton] at otherMember
      subst otherMember
      rintro rfl
      exact fresh member
    · rw [List.mem_append, List.mem_singleton, not_or]
      exact ⟨linked.not_null, Ne.symm notNull⟩
  refine ⟨⟨nodes, heap.head, newone⟩,
    UInt8.ofNat (front ++ [last] ++ [newone]).length - 1, ?_, appended⟩
  rw [insertLast, CronHeap.setNext_eq notNull stored]
  simp only [Option.bind_eq_bind, Option.bind_some]
  simp only [CronHeap.store_tail, tailEq]
  rw [CronHeap.setPrev_store notNull]
  simp only [Option.bind_some, CronHeap.store_tail, tailEq]
  have lastKept : (heap.store newone ⟨null, last⟩).nodes last =
      some ⟨null, front.getLastD null⟩ := by
    rw [CronHeap.store_nodes, Function.update_of_ne lastNe, lastStored]
  rw [CronHeap.setNext_eq lastNotNull lastKept]
  simp only [Option.bind_some]
  change (cronJobs ⟨nodes, heap.head, newone⟩).bind _ = _
  rw [cronJobs_linked appended]
  rfl

end Linked

/-- Redirecting `job->prev->next` moves the end of the part of the list in
front of a job. -/
theorem unlink_before {heap : CronHeap} {front : List Ptr} {after : Ptr}
    (segment : Segment heap.nodes null front after) (nodup : front.Nodup)
    (notNull : null ∉ front) (target : Ptr) :
    ∃ result : CronHeap,
      setNextUnlessNull heap (front.getLastD null) target = some result ∧
      Segment result.nodes null front target ∧
      (∀ other ∉ front, result.nodes other = heap.nodes other) ∧
      result.head = heap.head ∧ result.tail = heap.tail := by
  cases front using List.reverseRecOn with
  | nil => exact ⟨heap, rfl, trivial, fun _ _ => rfl, rfl, rfl⟩
  | append_singleton front last =>
      have lastNe : last ≠ null := fun lastEq => notNull (lastEq ▸ by simp)
      have stored := (segment_append.mp segment).2.1
      refine ⟨heap.store last ⟨target, front.getLastD null⟩, ?_,
        segment.setLast nodup, ?_, rfl, rfl⟩
      · rw [setNextUnlessNull, List.getLastD_concat, if_neg lastNe]
        exact CronHeap.setNext_eq lastNe stored
      · intro other outside
        apply Function.update_of_ne
        rintro rfl
        exact outside (by simp)

/-- Redirecting `job->next->prev` moves the start of the part of the list
behind a job. -/
theorem unlink_after {heap : CronHeap} {back : List Ptr} {before : Ptr}
    (segment : Segment heap.nodes before back null) (nodup : back.Nodup)
    (notNull : null ∉ back) (source : Ptr) :
    ∃ result : CronHeap,
      setPrevUnlessNull heap (back.headD null) source = some result ∧
      Segment result.nodes source back null ∧
      (∀ other ∉ back, result.nodes other = heap.nodes other) ∧
      result.head = heap.head ∧ result.tail = heap.tail := by
  cases back with
  | nil => exact ⟨heap, rfl, trivial, fun _ _ => rfl, rfl, rfl⟩
  | cons first back =>
      have firstNe : first ≠ null := fun firstEq =>
        notNull (firstEq ▸ List.mem_cons_self)
      refine ⟨heap.store first ⟨back.headD null, source⟩, ?_,
        segment.setFirst nodup, ?_, rfl, rfl⟩
      · rw [setPrevUnlessNull, List.headD_cons, if_neg firstNe]
        exact CronHeap.setPrev_eq firstNe segment.1
      · intro other outside
        apply Function.update_of_ne
        rintro rfl
        exact outside List.mem_cons_self

namespace Linked

variable {heap : CronHeap} {front back : List Ptr} {job : Ptr}

theorem head_after_remove (linked : Linked heap (front ++ job :: back)) :
    (if job = heap.head then back.headD null else heap.head) =
      (front ++ back).headD null := by
  rw [linked.head_eq]
  cases front with
  | nil => simp
  | cons first front =>
      have firstNe : job ≠ first := by
        rintro rfl
        simpa using linked.nodup
      simp [firstNe]

theorem tail_after_remove (linked : Linked heap (front ++ job :: back)) :
    (if job = heap.tail then front.getLastD null else heap.tail) =
      (front ++ back).getLastD null := by
  rw [linked.tail_eq]
  cases back using List.reverseRecOn with
  | nil => simp
  | append_singleton back last =>
      have lastNe : job ≠ last := by
        rintro rfl
        have nodup := linked.nodup
        rw [List.nodup_append, List.nodup_cons] at nodup
        exact nodup.2.1.1 (by simp)
      have lastEq : (front ++ job :: (back ++ [last])).getLastD null = last := by
        rw [← List.cons_append, ← List.append_assoc, List.getLastD_concat]
      have lastEq' : (front ++ (back ++ [last])).getLastD null = last := by
        rw [← List.append_assoc, List.getLastD_concat]
      rw [lastEq, lastEq', if_neg lastNe]

/-- `cron_jobrm` deletes exactly the given job. -/
theorem remove (linked : Linked heap (front ++ job :: back)) :
    ∃ after, cronJobrm heap job = some after ∧ Linked after (front ++ back) := by
  have jobNe : job ≠ null := fun jobEq => linked.not_null (jobEq ▸ by simp)
  have nodup := linked.nodup
  rw [List.nodup_append, List.nodup_cons] at nodup
  obtain ⟨frontNodup, ⟨jobNotBack, backNodup⟩, disjoint⟩ := nodup
  have jobNotFront : job ∉ front := fun member =>
    disjoint job member job List.mem_cons_self rfl
  have notNull := linked.not_null
  rw [List.mem_append, List.mem_cons, not_or, not_or] at notNull
  obtain ⟨frontSegment, stored, backSegment⟩ := segment_append.mp linked.segment
  have headEq := linked.head_after_remove
  have tailEq := linked.tail_after_remove
  let unhooked : CronHeap :=
    if job = heap.head then { heap with head := back.headD null } else heap
  have unhookedNodes : unhooked.nodes = heap.nodes := by
    unfold unhooked
    split <;> rfl
  have unhookedHead : unhooked.head = (front ++ back).headD null := by
    rw [← headEq]
    unfold unhooked
    split <;> rfl
  have unhookedTail : unhooked.tail = heap.tail := by
    unfold unhooked
    split <;> rfl
  obtain ⟨first, firstStep, firstSegment, firstOutside, firstHead, firstTail⟩ :=
    unlink_before (unhookedNodes.symm ▸ frontSegment) frontNodup notNull.1
      (back.headD null)
  have firstStored : first.nodes job = some ⟨back.headD null, front.getLastD null⟩ := by
    rw [firstOutside job jobNotFront, unhookedNodes, stored]
  have firstBack : Segment first.nodes job back null := by
    apply backSegment.congr
    intro other member
    rw [firstOutside other fun inFront =>
      disjoint other inFront other (List.mem_cons_of_mem job member) rfl, unhookedNodes]
  let trimmed : CronHeap :=
    if job = first.tail then { first with tail := front.getLastD null } else first
  have trimmedNodes : trimmed.nodes = first.nodes := by
    unfold trimmed
    split <;> rfl
  have trimmedHead : trimmed.head = first.head := by
    unfold trimmed
    split <;> rfl
  have trimmedTail : trimmed.tail = (front ++ back).getLastD null := by
    rw [← tailEq, ← unhookedTail, ← firstTail]
    unfold trimmed
    split <;> rfl
  obtain ⟨second, secondStep, secondSegment, secondOutside, secondHead, secondTail⟩ :=
    unlink_after (trimmedNodes.symm ▸ firstBack) backNodup notNull.2.2
      (front.getLastD null)
  refine ⟨second.free job, ?_, ?_, ?_, ?_, ?_, ?_⟩
  · rw [cronJobrm, if_neg jobNe, CronHeap.load_of_nodes jobNe, stored]
    simp only [Option.bind_eq_bind, Option.bind_some]
    change (setNextUnlessNull unhooked _ _).bind _ = _
    rw [firstStep, Option.bind_some, CronHeap.load_of_nodes jobNe, firstStored, Option.bind_some]
    change (setPrevUnlessNull trimmed _ _).bind _ = _
    rw [secondStep]
    rfl
  · have frontKept : Segment second.nodes null front (back.headD null) := by
      apply firstSegment.congr
      intro other member
      rw [secondOutside other fun inBack =>
        disjoint other member other (List.mem_cons_of_mem job inBack) rfl, trimmedNodes]
    change Segment (Function.update second.nodes job none) null (front ++ back) null
    rw [segment_append]
    exact ⟨frontKept.update jobNotFront, secondSegment.update jobNotBack⟩
  · exact (secondHead.trans trimmedHead).trans (firstHead.trans unhookedHead)
  · exact secondTail.trans trimmedTail
  · rw [List.nodup_append]
    exact ⟨frontNodup, backNodup, fun x member y inBack =>
      disjoint x member y (List.mem_cons_of_mem job inBack)⟩
  · rw [List.mem_append, not_or]
    exact ⟨notNull.1, notNull.2.2⟩

end Linked

/-- A call of the job list.  `insert` carries the links that happen to be
stored in the freshly allocated node. -/
inductive CronCall where
  | insert (newone : Ptr) (content : CronNode) (position : Int8)
  | jobrm (job : Ptr)

/-- Execute one call on the heap. -/
def cronStep (heap : CronHeap) : CronCall → Option CronHeap
  | .insert newone content position =>
      (cronInsert (heap.malloc newone content) newone position).map Prod.fst
  | .jobrm job => cronJobrm heap job

/-- The documented effect of a call on the list of jobs: a position counts from
zero, anything past the end and every negative position appends. -/
def CronCall.apply (jobs : List Ptr) : CronCall → List Ptr
  | .insert newone _ position =>
      if position < 0 then jobs ++ [newone]
      else jobs.insertIdx (min position.toInt.toNat jobs.length) newone
  | .jobrm job => jobs.erase job

/-- Callers insert a fresh node and remove a listed one. -/
def CronCall.Legal (jobs : List Ptr) : CronCall → Prop
  | .insert newone _ _ => newone ≠ null ∧ newone ∉ jobs
  | .jobrm job => job ∈ jobs

def LegalCalls : List Ptr → List CronCall → Prop
  | _, [] => True
  | jobs, call :: calls => call.Legal jobs ∧ LegalCalls (call.apply jobs) calls

/-- The heap shows the list `jobs` in both directions, each job once. -/
structure CronRepresents (heap : CronHeap) (jobs : List Ptr) : Prop where
  forward : ReadsNext heap.nodes null heap.head jobs
  backward : ReadsPrev heap.nodes null heap.tail jobs.reverse
  head_null : heap.head = null ↔ jobs = []
  tail_null : heap.tail = null ↔ jobs = []
  once : jobs.Nodup

/-- Every state of a run represents the reference list of that moment. -/
def TracksReference : CronHeap → List Ptr → List CronCall → Prop
  | heap, jobs, [] => CronRepresents heap jobs
  | heap, jobs, call :: calls =>
      CronRepresents heap jobs ∧ ∃ after, cronStep heap call = some after ∧
        TracksReference after (call.apply jobs) calls

/-- An insertion into a non-empty list asks for a negative position. -/
def CronCall.Appends (jobs : List Ptr) : CronCall → Prop
  | .insert _ _ position => position < 0 ∨ jobs = []
  | .jobrm _ => True

def AppendingCalls : List Ptr → List CronCall → Prop
  | _, [] => True
  | jobs, call :: calls => call.Appends jobs ∧ AppendingCalls (call.apply jobs) calls

theorem Linked.represents {heap : CronHeap} {jobs : List Ptr}
    (linked : Linked heap jobs) : CronRepresents heap jobs :=
  ⟨linked.readsNext, linked.readsPrev, linked.head_null, linked.tail_null, linked.nodup⟩

theorem TracksReference.represents {heap : CronHeap} {jobs : List Ptr}
    {calls : List CronCall} (tracks : TracksReference heap jobs calls) :
    CronRepresents heap jobs := by
  cases calls with
  | nil => exact tracks
  | cons call calls => exact tracks.1

theorem cronInsert_append {heap : CronHeap} {jobs : List Ptr} {newone : Ptr}
    {position : Int8} (content : CronNode) (linked : Linked heap jobs)
    (notNull : newone ≠ null) (fresh : newone ∉ jobs) (nonempty : jobs ≠ [])
    (notPositive : ¬ 0 < position) :
    ∃ after, cronStep heap (.insert newone content position) = some after ∧
      Linked after (jobs ++ [newone]) := by
  obtain ⟨front, last, rfl⟩ := List.eq_nil_or_concat' jobs |>.resolve_left nonempty
  have allocated : Linked (heap.malloc newone content) _ := linked.malloc fresh
  have headNe : ¬ (heap.malloc newone content).head = null := fun headNull =>
    nonempty (allocated.head_null.mp headNull)
  obtain ⟨after, ss, inserted, linkedAfter⟩ :=
    allocated.insert_last notNull fresh (Function.update_self ..)
  refine ⟨after, ?_, linkedAfter⟩
  rw [cronStep, cronInsert, if_neg headNe, if_neg notPositive, inserted]
  rfl

/-- One call that appends takes the heap to the next reference list. -/
theorem Linked.step {heap : CronHeap} {jobs : List Ptr} {call : CronCall}
    (linked : Linked heap jobs) (legal : call.Legal jobs)
    (appends : call.Appends jobs) :
    ∃ after, cronStep heap call = some after ∧ Linked after (call.apply jobs) := by
  cases call with
  | insert newone content position =>
      obtain ⟨notNull, fresh⟩ := legal
      by_cases empty : jobs = []
      · subst empty
        have applied : CronCall.apply [] (.insert newone content position) = [newone] := by
          simp [CronCall.apply]
        obtain ⟨after, ss, inserted, linkedAfter⟩ :=
          (linked.malloc fresh).insert_empty notNull position
            (show (heap.malloc newone content).nodes newone = some content from
              Function.update_self ..)
        refine ⟨after, ?_, applied ▸ linkedAfter⟩
        rw [cronStep, inserted]
        rfl
      · have negative : position < 0 := appends.resolve_right empty
        have notPositive : ¬ 0 < position := by
          rw [Int8.lt_iff_toInt_lt] at negative ⊢
          omega
        obtain ⟨after, stepped, linkedAfter⟩ :=
          cronInsert_append content linked notNull fresh empty notPositive
        refine ⟨after, stepped, ?_⟩
        rw [CronCall.apply, if_pos negative]
        exact linkedAfter
  | jobrm job =>
      obtain ⟨front, back, rfl⟩ := List.append_of_mem legal
      obtain ⟨after, removed, linkedAfter⟩ := linked.remove
      refine ⟨after, removed, ?_⟩
      have jobNotFront : job ∉ front := fun member =>
        (List.nodup_append.mp linked.nodup).2.2 job member job List.mem_cons_self rfl
      rw [CronCall.apply, List.erase_append_right _ jobNotFront, List.erase_cons_head]
      exact linkedAfter

/-- Inserting at a positive index inside the list leaves the forward links of
the old list as they were. -/
theorem insertAtPosition_readsNext {heap after : CronHeap} {jobs : List Ptr}
    {newone : Ptr} {content : CronNode} {position : Int8} {ss : UInt8}
    (linked : Linked heap jobs) (notNull : newone ≠ null) (fresh : newone ∉ jobs)
    (stored : heap.nodes newone = some content) (positive : 0 < position)
    (inserted : insertAtPosition heap newone position = some (after, ss)) :
    ReadsNext after.nodes null after.head jobs := by
  rw [Int8.lt_iff_toInt_lt, Int8.toInt_zero] at positive
  obtain ⟨count, jumped⟩ := jumpToPosition_readsNext linked.readsNext
    (show ((0 : Nat) : Int) ≤ position.toInt by omega) linked.length_lt
  rw [Nat.sub_zero] at jumped
  change jumpToPosition heap position walkLimit heap.head 0 = _ at jumped
  rw [insertAtPosition, jumped] at inserted
  simp only [Option.bind_eq_bind, Option.bind_some] at inserted
  cases located : jobs[position.toInt.toNat]? with
  | none =>
      rw [located] at inserted
      simp [CronHeap.load] at inserted
  | some job =>
      rw [located, Option.getD_some] at inserted
      have member : job ∈ jobs := List.mem_of_getElem? located
      have jobNe : job ≠ null := fun jobEq => linked.not_null (jobEq ▸ member)
      have jobNotNew : job ≠ newone := fun jobEq => fresh (jobEq ▸ member)
      obtain ⟨front, back, jobsEq⟩ := List.append_of_mem member
      have segment := linked.segment
      rw [jobsEq, segment_append] at segment
      have jobStored := segment.2.1
      -- the index is positive, so the located job is not the head of the list
      have jobNotHead : job ≠ heap.head := by
        intro jobHead
        have atZero : jobs[0]? = some job := by
          rw [jobHead, linked.head_eq]
          cases jobs with
          | nil => simp at member
          | cons first rest => rfl
        have lengthPos : 0 < jobs.length := List.length_pos_of_mem member
        have indexEq := linked.nodup.getElem_inj_iff.mp
          ((List.getElem?_eq_some_iff.mp located).2.trans
            (List.getElem?_eq_some_iff.mp atZero).2.symm)
        omega
      rw [CronHeap.load_of_nodes jobNe, jobStored] at inserted
      simp only [Option.bind_some] at inserted
      rw [CronHeap.setPrev_eq notNull stored, Option.bind_some] at inserted
      have jobKept : (heap.store newone ⟨content.next, front.getLastD null⟩).nodes job =
          some ⟨back.headD null, front.getLastD null⟩ := by
        rw [CronHeap.store_nodes, Function.update_of_ne jobNotNew, jobStored]
      rw [CronHeap.setPrev_eq jobNe jobKept, Option.bind_some] at inserted
      have newKept : ((heap.store newone ⟨content.next, front.getLastD null⟩).store job
          ⟨back.headD null, newone⟩).nodes newone =
            some ⟨content.next, front.getLastD null⟩ := by
        rw [CronHeap.store_nodes, Function.update_of_ne (Ne.symm jobNotNew),
          CronHeap.store_nodes, Function.update_self]
      rw [CronHeap.setNext_eq notNull newKept, Option.bind_some] at inserted
      rw [if_neg (by exact jobNotHead)] at inserted
      cases Option.some.inj inserted
      apply linked.readsNext.congr
      intro cell cellMember links load
      have cellNotNew : cell ≠ newone := fun cellEq => fresh (cellEq ▸ cellMember)
      by_cases cellEq : cell = job
      · subst cellEq
        rw [jobStored] at load
        cases load
        exact ⟨⟨back.headD null, newone⟩, by simp [cellNotNew], rfl⟩
      · exact ⟨links, by simp [cellNotNew, cellEq, load], rfl⟩

/-- A call that does not append leaves the reference list: at index zero the
job lands at the wrong end, inside the list it is not reachable forward, and
past the end there is no result at all. -/
theorem not_represents_of_not_appends {heap after : CronHeap} {jobs : List Ptr}
    {call : CronCall} (linked : Linked heap jobs) (legal : call.Legal jobs)
    (notAppends : ¬ call.Appends jobs) (stepped : cronStep heap call = some after) :
    ¬ CronRepresents after (call.apply jobs) := by
  intro represents
  cases call with
  | jobrm job => exact notAppends trivial
  | insert newone content position =>
      obtain ⟨notNull, fresh⟩ := legal
      obtain ⟨notNegative, nonempty⟩ := not_or.mp notAppends
      have forward := represents.forward
      rw [CronCall.apply, if_neg notNegative] at forward
      by_cases positive : 0 < position
      · have allocated : Linked (heap.malloc newone content) jobs := linked.malloc fresh
        have headNe : ¬ (heap.malloc newone content).head = null := fun headNull =>
          nonempty (allocated.head_null.mp headNull)
        rw [cronStep, cronInsert, if_neg headNe, if_pos positive,
          Option.map_eq_some_iff] at stepped
        obtain ⟨⟨result, ss⟩, inserted, rfl⟩ := stepped
        have unchanged := insertAtPosition_readsNext allocated notNull fresh
          (Function.update_self ..) positive inserted
        have lengths := congrArg List.length (unchanged.unique forward)
        rw [List.length_insertIdx_of_le_length (Nat.min_le_right ..)] at lengths
        omega
      · obtain ⟨result, appended, linkedAfter⟩ :=
          cronInsert_append content linked notNull fresh nonempty positive
        cases stepped.symm.trans appended
        have zero : position.toInt.toNat = 0 := by
          rw [Int8.lt_iff_toInt_lt] at positive
          simp only [Int8.toInt_zero] at positive
          omega
        have lists := linkedAfter.readsNext.unique forward
        rw [zero, Nat.zero_min, List.insertIdx_zero] at lists
        cases jobs with
        | nil => exact nonempty rfl
        | cons first rest =>
            rw [List.cons_append, List.cons.injEq] at lists
            exact fresh (lists.1 ▸ List.mem_cons_self)

theorem tracksReference_iff {heap : CronHeap} {jobs : List Ptr}
    (calls : List CronCall) (linked : Linked heap jobs)
    (legal : LegalCalls jobs calls) :
    TracksReference heap jobs calls ↔ AppendingCalls jobs calls := by
  induction calls generalizing heap jobs with
  | nil => exact ⟨fun _ => trivial, fun _ => linked.represents⟩
  | cons call calls ih =>
      constructor
      · rintro ⟨_, after, stepped, tracks⟩
        by_cases appends : call.Appends jobs
        · obtain ⟨result, resultEq, linkedAfter⟩ := linked.step legal.1 appends
          cases stepped.symm.trans resultEq
          exact ⟨appends, (ih linkedAfter legal.2).mp tracks⟩
        · exact absurd tracks.represents
            (not_represents_of_not_appends linked legal.1 appends stepped)
      · rintro ⟨appends, rest⟩
        obtain ⟨after, stepped, linkedAfter⟩ := linked.step legal.1 appends
        exact ⟨linked.represents, after, stepped, (ih linkedAfter legal.2).mpr rest⟩

/-- The job list follows its reference list along a whole run exactly when no
call inserts at a non-negative position of a non-empty list. -/
theorem cron_list_follows_reference_iff (calls : List CronCall)
    (legal : LegalCalls [] calls) :
    TracksReference CronHeap.init [] calls ↔ AppendingCalls [] calls :=
  tracksReference_iff calls linked_init legal

/-- Two appended jobs and a removal. -/
theorem cron_list_follows_reference_append_remove :
    TracksReference CronHeap.init []
      [.insert 0x200 ⟨0, 0⟩ (-1), .insert 0x240 ⟨0, 0⟩ (-1), .jobrm 0x200] :=
  (cron_list_follows_reference_iff _
    (by simp [LegalCalls, CronCall.Legal, CronCall.apply, null])).mpr
    (by simp [AppendingCalls, CronCall.Appends, CronCall.apply])

/-- A third job inserted at index one of a two-element list is not reachable
from `head`. -/
theorem cron_insert_inside_loses_job :
    LegalCalls [] [.insert 0x200 ⟨0, 0⟩ (-1), .insert 0x240 ⟨0, 0⟩ (-1),
        .insert 0x280 ⟨0, 0⟩ 1] ∧
      ¬ TracksReference CronHeap.init [] [.insert 0x200 ⟨0, 0⟩ (-1),
        .insert 0x240 ⟨0, 0⟩ (-1), .insert 0x280 ⟨0, 0⟩ 1] := by
  have legal : LegalCalls [] [.insert 0x200 ⟨0, 0⟩ (-1), .insert 0x240 ⟨0, 0⟩ (-1),
      .insert 0x280 ⟨0, 0⟩ 1] := by
    simp [LegalCalls, CronCall.Legal, CronCall.apply, null]
  refine ⟨legal, ?_⟩
  rw [tracksReference_iff _ linked_init legal]
  simp [AppendingCalls, CronCall.Appends, CronCall.apply]

end Ethersex.Cron
