import Ethersex.GuardedRuns
import Ethersex.LinkedSegments
import Mathlib.Logic.Function.Basic

/-!
# The core queue

`core/queue/queue.c` keeps a queue as linked nodes.  The abstract layer is a bounded FIFO; memory
for a new node may be missing at any push.
-/

namespace Ethersex.CoreQueue

open LinkedSegments

/-- What a queue is for.  The items are in the order of their arrival. -/
structure BoundedFifo (Item : Type*) where
  capacity : Nat
  items : List Item
  bounded : items.length ≤ capacity

namespace BoundedFifo

variable {Item : Type*}

def empty (capacity : Nat) : BoundedFifo Item :=
  ⟨capacity, [], Nat.zero_le capacity⟩

/-- An item is appended when there is memory for it and the limit is not reached. -/
def push (fifo : BoundedFifo Item) (available : Bool) (item : Item) : Bool × BoundedFifo Item :=
  if room : fifo.items.length < fifo.capacity ∧ available = true then
    (true, ⟨fifo.capacity, fifo.items ++ [item], by
      rw [List.length_append]
      exact room.1⟩)
  else (false, fifo)

/-- The oldest item is removed. -/
def pop (fifo : BoundedFifo Item) : Option Item × BoundedFifo Item :=
  (fifo.items.head?, ⟨fifo.capacity, fifo.items.tail, by
    rw [List.length_tail]
    exact Nat.le_trans (Nat.sub_le _ 1) fifo.bounded⟩)

def peek (fifo : BoundedFifo Item) : Option Item :=
  fifo.items.head?

end BoundedFifo

/-- `Node`.  The data are a pointer, which may be null. -/
structure Node (Ptr Data : Type*) where
  next : Option Ptr
  data : Option Data

/-- `Queue`. -/
structure Queue (Ptr : Type*) where
  startNode : Option Ptr
  endNode : Option Ptr
  limit : UInt16
  count : UInt16

/-- The nodes that are allocated, and a queue. -/
structure State (Ptr Data : Type*) where
  heap : Ptr → Option (Node Ptr Data)
  queue : Queue Ptr

section Operations

variable {Ptr Data : Type*} [DecidableEq Ptr]

def queueIsEmpty (queue : Queue Ptr) : Bool :=
  queue.endNode.isNone

/-- `queue_push`, when `malloc` returns `node`.  There is no result when the code follows a pointer
to a node that is not allocated. -/
def queuePush (node : Option Ptr) (data : Option Data) (state : State Ptr Data) :
    Option (Bool × State Ptr Data) :=
  let queue := state.queue
  if queue.limit ≠ 0 ∧ queue.limit ≤ queue.count then some (false, state)
  else if queue.count = 65535 then some (false, state)
  else
    match node with
    | none => some (false, state)
    | some node =>
        let heap := Function.update state.heap node (some ⟨none, data⟩)
        if queueIsEmpty queue then
          some (true, ⟨heap, { queue with
            startNode := some node, endNode := some node, count := queue.count + 1 }⟩)
        else
          queue.startNode.bind fun start =>
            (heap start).map fun startNode =>
              (true, ⟨Function.update heap start (some { startNode with next := some node }),
                { queue with startNode := some node, count := queue.count + 1 }⟩)

/-- `queue_pop`. -/
def queuePop (state : State Ptr Data) : Option (Option Data × State Ptr Data) :=
  match state.queue.endNode with
  | none => some (none, state)
  | some node =>
      (state.heap node).map fun cell =>
        (cell.data, ⟨Function.update state.heap node none, { state.queue with
          endNode := cell.next, count := state.queue.count - 1 }⟩)

/-- `queue_peek`. -/
def queuePeek (state : State Ptr Data) : Option (Option Data) :=
  match state.queue.endNode with
  | none => some none
  | some node => (state.heap node).map Node.data

/-- A call, and what `malloc` returns in it. -/
inductive Call (Ptr Data : Type*)
  | push (node : Option Ptr) (data : Option Data)
  | pop
  | peek

inductive Result (Data : Type*)
  | pushed (success : Bool)
  | read (data : Option Data)

/-- A state, and the results so far. -/
structure Traced (State Data : Type*) where
  state : State
  results : List (Result Data)

def step (traced : Traced (State Ptr Data) Data) (call : Call Ptr Data) :
    Option (Traced (State Ptr Data) Data) :=
  match call with
  | .push node data => (queuePush node data traced.state).map fun (success, state) =>
      ⟨state, traced.results ++ [.pushed success]⟩
  | .pop => (queuePop traced.state).map fun (data, state) =>
      ⟨state, traced.results ++ [.read data]⟩
  | .peek => (queuePeek traced.state).map fun data =>
      ⟨traced.state, traced.results ++ [.read data]⟩

/-- The same call of a bounded FIFO. -/
def fifoStep (traced : Traced (BoundedFifo (Option Data)) Data) (call : Call Ptr Data) :
    Traced (BoundedFifo (Option Data)) Data :=
  match call with
  | .push node data =>
      let (success, fifo) := traced.state.push node.isSome data
      ⟨fifo, traced.results ++ [.pushed success]⟩
  | .pop =>
      let (data, fifo) := traced.state.pop
      ⟨fifo, traced.results ++ [.read data.join]⟩
  | .peek => ⟨traced.state, traced.results ++ [.read traced.state.peek.join]⟩

/-- `malloc` returns a null pointer, or memory that is not in use. -/
def MallocContract (traced : Traced (State Ptr Data) Data) : Call Ptr Data → Prop
  | .push (some node) _ => (traced.state.heap node).isNone
  | _ => True

instance (traced : Traced (State Ptr Data) Data) :
    (call : Call Ptr Data) → Decidable (MallocContract traced call)
  | .push (some node) _ => inferInstanceAs (Decidable ((traced.state.heap node).isNone = true))
  | .push none _ => isTrue trivial
  | .pop => isTrue trivial
  | .peek => isTrue trivial

/-- The calls of an empty FIFO. -/
def fifoRun (capacity : Nat) (calls : List (Call Ptr Data)) :
    Traced (BoundedFifo (Option Data)) Data :=
  calls.foldl fifoStep ⟨.empty capacity, []⟩

/-- A limit of zero leaves the count its 16 bits. -/
def capacity (limit : UInt16) : Nat :=
  if limit = 0 then 65535 else limit.toNat

/-- A queue as its users define it. -/
def initial (heap : Ptr → Option (Node Ptr Data)) (limit : UInt16) :
    Traced (State Ptr Data) Data :=
  ⟨⟨heap, ⟨none, none, limit, 0⟩⟩, []⟩

end Operations

section Linked

variable {Ptr Data : Type*}

/-- The link behind a link. -/
def follow (heap : Ptr → Option (Node Ptr Data)) (link : Option Ptr) : Option Ptr :=
  link.bind fun node => (heap node).bind Node.next

/-- These nodes are linked from the end to the start, and hold the items. -/
structure Linked (heap : Ptr → Option (Node Ptr Data)) (queue : Queue Ptr) (nodes : List Ptr)
    (items : List (Option Data)) : Prop where
  segment : Segment (follow heap) queue.endNode (nodes.map some) none
  data : nodes.map (fun node => (heap node).map Node.data) = items.map some
  nodup : nodes.Nodup
  start : nodes ≠ [] → queue.startNode = nodes.getLast?
  count : queue.count.toNat = nodes.length

/-- A queue in memory stands for a bounded FIFO. -/
structure Simulates (traced : Traced (State Ptr Data) Data)
    (abstract : Traced (BoundedFifo (Option Data)) Data) : Prop where
  linked : ∃ nodes, Linked traced.state.heap traced.state.queue nodes abstract.state.items
  capacity : abstract.state.capacity = capacity traced.state.queue.limit
  results : traced.results = abstract.results

variable {heap : Ptr → Option (Node Ptr Data)} {queue : Queue Ptr} {nodes : List Ptr}
  {items : List (Option Data)}

theorem Linked.length_eq (linked : Linked heap queue nodes items) :
    items.length = nodes.length := by
  have lengths := congrArg List.length linked.data
  rw [List.length_map, List.length_map] at lengths
  exact lengths.symm

theorem Linked.allocated (linked : Linked heap queue nodes items) {node : Ptr}
    (member : node ∈ nodes) : heap node ≠ none := by
  intro free
  have image : (heap node).map Node.data ∈ items.map some := by
    rw [← linked.data]
    exact List.mem_map_of_mem member
  rw [free] at image
  simp at image

theorem Linked.empty_iff (linked : Linked heap queue nodes items) :
    queueIsEmpty queue = true ↔ nodes = [] := by
  have segment := linked.segment
  cases nodes with
  | nil =>
      have ended : queue.endNode = none := segment
      rw [queueIsEmpty, ended]
      exact ⟨fun _ => rfl, fun _ => rfl⟩
  | cons node nodes =>
      have first : queue.endNode = some node := segment.1
      rw [queueIsEmpty, first]
      exact ⟨nofun, nofun⟩

/-- No more nodes are counted when the limit is reached. -/
theorem limit_reached_iff (queue : Queue Ptr) :
    (queue.limit ≠ 0 ∧ queue.limit ≤ queue.count) ∨ queue.count = 65535 ↔
      capacity queue.limit ≤ queue.count.toNat := by
  have counted := queue.count.toNat_lt
  have all : queue.count = 65535 ↔ queue.count.toNat = 65535 := UInt16.toNat_inj.symm
  rw [capacity, all, UInt16.le_iff_toNat_le]
  by_cases unlimited : queue.limit = 0
  · rw [if_pos unlimited]
    simp only [unlimited, ne_eq, not_true_eq_false, false_and, false_or]
    omega
  · rw [if_neg unlimited]
    simp only [ne_eq, unlimited, not_false_eq_true, true_and]
    have limited := queue.limit.toNat_lt
    omega

variable [DecidableEq Ptr] {node : Ptr} {data : Option Data}

/-- The first node of an empty queue. -/
theorem Linked.push_first (linked : Linked heap queue [] items) :
    Linked (Function.update heap node (some ⟨none, data⟩))
      { queue with startNode := some node, endNode := some node, count := queue.count + 1 }
      [node] (items ++ [data]) := by
  have none : items = [] := List.eq_nil_of_length_eq_zero linked.length_eq
  have zero := linked.count
  rw [none]
  constructor
  · refine ⟨rfl, ?_⟩
    change follow _ (some node) = _
    rw [follow, Option.bind_some, Function.update_self]
    rfl
  · rw [List.map_singleton, Function.update_self]
    rfl
  · exact List.pairwise_singleton _ node
  · intro _
    rfl
  · change (queue.count + 1).toNat = 1
    rw [UInt16.toNat_add, zero]
    rfl

/-- A node behind the others. -/
theorem Linked.push {front : List Ptr} {last : Ptr} {startNode : Node Ptr Data}
    (linked : Linked heap queue (front ++ [last]) items) (free : heap node = none)
    (found : heap last = some startNode) (room : queue.count.toNat < 65535) :
    Linked
      (Function.update (Function.update heap node (some ⟨none, data⟩)) last
        (some { startNode with next := some node }))
      { queue with startNode := some node, count := queue.count + 1 }
      (front ++ [last, node]) (items ++ [data]) := by
  have fresh : ∀ other ∈ front ++ [last], other ≠ node := by
    rintro other member rfl
    exact linked.allocated member free
  have lastFresh : last ≠ node := fresh last (by simp)
  have apart : ∀ other ∈ front, other ≠ last := by
    have nodup := linked.nodup
    rw [List.nodup_append] at nodup
    intro other member
    exact nodup.2.2 other member last List.mem_cons_self
  have kept : ∀ other ∈ front,
      Function.update (Function.update heap node (some ⟨none, data⟩)) last
        (some { startNode with next := some node }) other = heap other := by
    intro other member
    rw [Function.update_of_ne (apart other member),
      Function.update_of_ne (fresh other (List.mem_append_left _ member))]
  constructor
  · have segment := linked.segment
    rw [List.map_append] at segment ⊢
    apply segment.snoc
    · rintro _ member
      obtain ⟨other, inFront, rfl⟩ := List.mem_map.mp member
      rw [follow, follow, Option.bind_some, Option.bind_some, kept other inFront]
    · rw [follow, Option.bind_some, Function.update_self]
      rfl
    · rw [follow, Option.bind_some, Function.update_of_ne lastFresh.symm, Function.update_self]
      rfl
  · have before := linked.data
    rw [List.map_append] at before ⊢
    rw [List.map_append, ← before, List.append_assoc]
    congr 1
    · apply List.map_congr_left
      intro other member
      rw [kept other member]
    · rw [List.map_cons, List.map_singleton, List.map_singleton, Function.update_self,
        Function.update_of_ne lastFresh.symm, Function.update_self, found]
      rfl
  · rw [List.append_cons, List.nodup_append]
    refine ⟨linked.nodup, List.pairwise_singleton _ node, ?_⟩
    intro other member new isNode
    rw [List.mem_singleton.mp isNode]
    exact fresh other member
  · intro _
    rw [List.append_cons, List.getLast?_concat]
  · have counted := linked.count
    rw [List.append_cons, List.length_append, List.length_singleton, ← counted]
    change (queue.count + 1).toNat = _
    rw [UInt16.toNat_add, show (1 : UInt16).toNat = 1 from rfl]
    omega

/-- The node in front is removed. -/
theorem Linked.pop {first : Ptr} {cell : Node Ptr Data} {item : Option Data}
    (linked : Linked heap queue (first :: nodes) (item :: items)) (found : heap first = some cell) :
    cell.data = item ∧
      Linked (Function.update heap first none)
        { queue with endNode := cell.next, count := queue.count - 1 } nodes items := by
  obtain ⟨notMember, nodup⟩ := List.nodup_cons.mp linked.nodup
  have kept : ∀ other ∈ nodes, Function.update heap first none other = heap other := by
    intro other member
    apply Function.update_of_ne
    rintro rfl
    exact notMember member
  have both := linked.data
  rw [List.map_cons, List.map_cons, List.cons.injEq, found] at both
  refine ⟨Option.some.inj both.1, ?_, ?_, nodup, ?_, ?_⟩
  · have rest := linked.segment.2
    rw [follow, Option.bind_some, found, Option.bind_some] at rest
    apply rest.congr
    rintro _ member
    obtain ⟨other, inNodes, rfl⟩ := List.mem_map.mp member
    rw [follow, follow, Option.bind_some, Option.bind_some, kept other inNodes]
  · rw [← both.2]
    apply List.map_congr_left
    intro other member
    rw [kept other member]
  · intro nonempty
    rw [← List.getLast?_cons_of_ne_nil nonempty]
    exact linked.start (List.cons_ne_nil first nodes)
  · have counted := linked.count
    rw [List.length_cons] at counted
    have positive : (1 : UInt16) ≤ queue.count := by
      rw [UInt16.le_iff_toNat_le, counted]
      exact Nat.le_add_left 1 nodes.length
    change (queue.count - 1).toNat = nodes.length
    rw [UInt16.toNat_sub_of_le _ _ positive, counted]
    rfl

end Linked

section Refinement

variable {Ptr Data : Type*} [DecidableEq Ptr] {traced : Traced (State Ptr Data) Data}
  {abstract : Traced (BoundedFifo (Option Data)) Data}

theorem queuePush_full (node : Option Ptr) (data : Option Data) {state : State Ptr Data}
    (full : capacity state.queue.limit ≤ state.queue.count.toNat) :
    queuePush node data state = some (false, state) := by
  simp only [queuePush]
  rcases (limit_reached_iff state.queue).mpr full with reached | all
  · rw [if_pos reached]
  · rw [if_pos all, ite_self]

theorem queuePush_none (data : Option Data) (state : State Ptr Data) :
    queuePush none data state = some (false, state) := by
  simp only [queuePush, ite_self]

theorem queuePush_some (node : Ptr) (data : Option Data) {state : State Ptr Data}
    (room : state.queue.count.toNat < capacity state.queue.limit) :
    queuePush (some node) data state =
      if queueIsEmpty state.queue then
        some (true, ⟨Function.update state.heap node (some ⟨none, data⟩), { state.queue with
          startNode := some node, endNode := some node, count := state.queue.count + 1 }⟩)
      else
        state.queue.startNode.bind fun start =>
          (Function.update state.heap node (some ⟨none, data⟩) start).map fun startNode =>
            (true, ⟨Function.update (Function.update state.heap node (some ⟨none, data⟩)) start
                (some { startNode with next := some node }),
              { state.queue with startNode := some node, count := state.queue.count + 1 }⟩) := by
  have notFull := mt (limit_reached_iff state.queue).mp (Nat.not_le.mpr room)
  rw [not_or] at notFull
  simp only [queuePush]
  rw [if_neg notFull.1, if_neg notFull.2]

/-- A push that is refused changes nothing. -/
theorem queuePush_refused {node : Option Ptr} {data : Option Data} {state after : State Ptr Data}
    (refused : queuePush node data state = some (false, after)) : after = state := by
  by_cases full : capacity state.queue.limit ≤ state.queue.count.toNat
  · rw [queuePush_full node data full, Option.some.injEq, Prod.mk.injEq] at refused
    exact refused.2.symm
  · cases node with
    | none =>
        rw [queuePush_none, Option.some.injEq, Prod.mk.injEq] at refused
        exact refused.2.symm
    | some node =>
        rw [queuePush_some node data (Nat.not_le.mp full)] at refused
        split_ifs at refused
        · cases refused
        · obtain ⟨start, -, found⟩ := Option.bind_eq_some_iff.mp refused
          obtain ⟨startNode, -, same⟩ := Option.map_eq_some_iff.mp found
          cases same

omit [DecidableEq Ptr] in
/-- There is room in the queue when there is room in the FIFO. -/
theorem Simulates.room_iff (simulates : Simulates traced abstract) :
    abstract.state.items.length < abstract.state.capacity ↔
      traced.state.queue.count.toNat < CoreQueue.capacity traced.state.queue.limit := by
  obtain ⟨nodes, linked⟩ := simulates.linked
  rw [linked.length_eq, simulates.capacity, linked.count]

/-- The node where the next one is linked is allocated. -/
theorem exists_push {node : Ptr} {data : Option Data} {state : State Ptr Data} {nodes : List Ptr}
    {items : List (Option Data)} (linked : Linked state.heap state.queue nodes items)
    (free : state.heap node = none)
    (room : state.queue.count.toNat < capacity state.queue.limit) :
    ∃ after, queuePush (some node) data state = some (true, after) ∧
      after.queue.limit = state.queue.limit ∧
        ∃ nodes', Linked after.heap after.queue nodes' (items ++ [data]) := by
  have inside : capacity state.queue.limit ≤ 65535 := by
    have limited := state.queue.limit.toNat_lt
    rw [capacity]
    split_ifs <;> omega
  rw [queuePush_some node data room]
  rcases List.eq_nil_or_concat' nodes with rfl | ⟨front, last, rfl⟩
  · rw [if_pos (linked.empty_iff.mpr rfl)]
    exact ⟨_, rfl, rfl, _, linked.push_first⟩
  · have nonempty : front ++ [last] ≠ [] := by simp
    have member : last ∈ front ++ [last] := by simp
    have lastFresh : last ≠ node := by
      rintro rfl
      exact linked.allocated member free
    obtain ⟨startNode, found⟩ := Option.ne_none_iff_exists'.mp (linked.allocated member)
    have start := linked.start nonempty
    rw [List.getLast?_concat] at start
    rw [if_neg (mt linked.empty_iff.mp nonempty), start, Option.bind_some,
      Function.update_of_ne lastFresh, found, Option.map_some]
    exact ⟨_, rfl, rfl, _, linked.push free found (Nat.lt_of_lt_of_le room inside)⟩

/-- The oldest item is in the node that is removed. -/
theorem exists_pop {state : State Ptr Data} {nodes : List Ptr} {items : List (Option Data)}
    (linked : Linked state.heap state.queue nodes items) :
    ∃ after, queuePop state = some (items.head?.join, after) ∧
      after.queue.limit = state.queue.limit ∧
        ∃ nodes', Linked after.heap after.queue nodes' items.tail := by
  rw [queuePop]
  cases nodes with
  | nil =>
      have ended : state.queue.endNode = none := linked.segment
      obtain rfl : items = [] := List.eq_nil_of_length_eq_zero linked.length_eq
      rw [ended]
      exact ⟨state, rfl, rfl, [], linked⟩
  | cons first nodes =>
      have begins : state.queue.endNode = some first := linked.segment.1
      obtain ⟨cell, found⟩ := Option.ne_none_iff_exists'.mp (linked.allocated List.mem_cons_self)
      cases items with
      | nil => exact absurd linked.length_eq nofun
      | cons item items =>
          obtain ⟨same, linked'⟩ := linked.pop found
          rw [begins]
          simp only [found, Option.map_some, same]
          exact ⟨_, rfl, rfl, nodes, linked'⟩

omit [DecidableEq Ptr] in
theorem queuePeek_eq {state : State Ptr Data} {nodes : List Ptr} {items : List (Option Data)}
    (linked : Linked state.heap state.queue nodes items) :
    queuePeek state = some items.head?.join := by
  rw [queuePeek]
  cases nodes with
  | nil =>
      have ended : state.queue.endNode = none := linked.segment
      obtain rfl : items = [] := List.eq_nil_of_length_eq_zero linked.length_eq
      rw [ended]
      rfl
  | cons first nodes =>
      have begins : state.queue.endNode = some first := linked.segment.1
      have data := linked.data
      cases items with
      | nil => exact absurd linked.length_eq nofun
      | cons item items =>
          rw [List.map_cons, List.map_cons, List.cons.injEq] at data
          rw [begins]
          exact data.1

/-- A call has a result in memory, which is that of the FIFO. -/
theorem Simulates.progress (simulates : Simulates traced abstract) {call : Call Ptr Data}
    (contract : MallocContract traced call) :
    ∃ next, step traced call = some next ∧ Simulates next (fifoStep abstract call) := by
  obtain ⟨nodes, linked⟩ := simulates.linked
  have results := simulates.results
  cases call with
  | push node data =>
      rw [step, fifoStep, BoundedFifo.push]
      by_cases accepted :
          abstract.state.items.length < abstract.state.capacity ∧ node.isSome = true
      · obtain ⟨node, rfl⟩ := Option.isSome_iff_exists.mp accepted.2
        obtain ⟨after, pushed, limit, linked'⟩ :=
          exists_push linked (Option.isNone_iff_eq_none.mp contract)
            (simulates.room_iff.mp accepted.1)
        rw [pushed, dif_pos accepted]
        refine ⟨_, rfl, linked', ?_, congrArg (· ++ [.pushed true]) results⟩
        exact simulates.capacity.trans (congrArg CoreQueue.capacity limit.symm)
      · have refused : queuePush node data traced.state = some (false, traced.state) := by
          cases node with
          | none => exact queuePush_none data traced.state
          | some node =>
              apply queuePush_full
              apply Nat.not_lt.mp
              intro room
              exact accepted ⟨simulates.room_iff.mpr room, rfl⟩
        rw [refused, dif_neg accepted]
        exact ⟨_, rfl, simulates.linked, simulates.capacity,
          congrArg (· ++ [.pushed false]) results⟩
  | pop =>
      obtain ⟨after, popped, limit, linked'⟩ := exists_pop linked
      rw [step, fifoStep, BoundedFifo.pop, popped]
      refine ⟨_, rfl, linked', ?_, congrArg (· ++ [.read abstract.state.peek.join]) results⟩
      exact simulates.capacity.trans (congrArg CoreQueue.capacity limit.symm)
  | peek =>
      rw [step, fifoStep, queuePeek_eq linked]
      exact ⟨_, rfl, simulates.linked, simulates.capacity,
        congrArg (· ++ [.read abstract.state.peek.join]) results⟩

omit [DecidableEq Ptr] in
theorem simulates_initial (heap : Ptr → Option (Node Ptr Data)) (limit : UInt16) :
    Simulates (initial heap limit) ⟨.empty (capacity limit), []⟩ where
  linked := ⟨[], rfl, rfl, List.nodup_nil, fun nonempty => absurd rfl nonempty, rfl⟩
  capacity := rfl
  results := rfl

/-- The calls of a queue have the results of a bounded FIFO, also when memory is missing.  The nodes
from the end on hold its items, and are as many as counted. -/
theorem queue_refines_fifo (heap : Ptr → Option (Node Ptr Data)) (limit : UInt16)
    (calls : List (Call Ptr Data))
    (contract : GuardedRuns.Guarded step MallocContract (initial heap limit) calls) :
    ∃ last, GuardedRuns.run step (initial heap limit) calls = some last ∧
      last.results = (fifoRun (capacity limit) calls).results ∧
      (∃ nodes, Linked last.state.heap last.state.queue nodes
        (fifoRun (capacity limit) calls).state.items) ∧
      ∀ node data after, queuePush node data last.state = some (false, after) →
        after = last.state := by
  have progress : ∀ (traced : Traced (State Ptr Data) Data) (call : Call Ptr Data)
      (abstract : Traced (BoundedFifo (Option Data)) Data), Simulates traced abstract →
        MallocContract traced call → ∃ next abstract', step traced call = some next ∧
          abstract' = fifoStep abstract call ∧ Simulates next abstract' := by
    intro traced call abstract simulates contract
    obtain ⟨next, stepped, simulates'⟩ := simulates.progress contract
    exact ⟨next, _, stepped, rfl, simulates'⟩
  obtain ⟨last, abstract, reached, follows, simulates⟩ :=
    contract.exists_follows progress (simulates_initial heap limit)
  rw [fifoRun, ← follows.eq_foldl]
  exact ⟨last, reached, simulates.results, simulates.linked,
    fun node data after => queuePush_refused⟩

end Refinement

/-- A second push behind the limit, and one without memory. -/
def someCalls : List (Call Nat Nat) :=
  [.push (some 0) (some 7), .push (some 1) (some 8), .push (some 2) (some 9), .pop, .pop,
    .push none (some 9), .push (some 0) (some 6), .peek]

theorem queue_refines_fifo_someCalls :
    ∃ last, GuardedRuns.run step (initial (fun _ => none) 2) someCalls = some last ∧
      last.results = (fifoRun (capacity 2) someCalls).results ∧
      (∃ nodes, Linked last.state.heap last.state.queue nodes
        (fifoRun (capacity 2) someCalls).state.items) ∧
      ∀ node data after, queuePush node data last.state = some (false, after) →
        after = last.state :=
  queue_refines_fifo (fun _ => none) 2 someCalls (by decide)

end Ethersex.CoreQueue
