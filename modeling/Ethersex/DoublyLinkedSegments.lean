import Mathlib.Data.List.Basic
import Mathlib.Data.List.Nodup
import Mathlib.Data.Fintype.Basic
import Mathlib.Logic.Function.Basic

/-!
# Doubly linked segments in a pointer memory

A memory maps an address to the pair of its forward and its backward link.
`Segment memory before cells after` says that `cells` are the addresses of one
run of the list, entered from `before` and left towards `after`.  Segments
concatenate, survive writes outside their cells, and are read back uniquely by
following either link.
-/

namespace DoublyLinked

/-- The two links stored in a cell. -/
structure Links (α : Type*) where
  next : α
  prev : α
deriving DecidableEq, Repr

variable {α : Type*}

/-- `cells` form a doubly linked run between the addresses `before` and
`after`. -/
def Segment (memory : α → Option (Links α)) : α → List α → α → Prop
  | _, [], _ => True
  | before, cell :: cells, after =>
      memory cell = some ⟨cells.headD after, before⟩ ∧
        Segment memory cell cells after

/-- Following the forward links from an address visits the listed cells and
ends at `null`. -/
inductive ReadsNext (memory : α → Option (Links α)) (null : α) :
    α → List α → Prop
  | null : ReadsNext memory null null []
  | cell {cell : α} {links : Links α} {cells : List α}
      (notNull : cell ≠ null) (load : memory cell = some links)
      (rest : ReadsNext memory null links.next cells) :
      ReadsNext memory null cell (cell :: cells)

/-- Following the backward links from an address visits the listed cells and
ends at `null`. -/
inductive ReadsPrev (memory : α → Option (Links α)) (null : α) :
    α → List α → Prop
  | null : ReadsPrev memory null null []
  | cell {cell : α} {links : Links α} {cells : List α}
      (notNull : cell ≠ null) (load : memory cell = some links)
      (rest : ReadsPrev memory null links.prev cells) :
      ReadsPrev memory null cell (cell :: cells)

section Reading

variable {memory : α → Option (Links α)} {null : α}

theorem ReadsNext.unique {start : α} {first second : List α}
    (readsFirst : ReadsNext memory null start first)
    (readsSecond : ReadsNext memory null start second) :
    first = second := by
  induction readsFirst generalizing second with
  | null =>
      cases readsSecond with
      | null => rfl
      | cell notNull _ _ => exact absurd rfl notNull
  | cell notNull load _ ih =>
      cases readsSecond with
      | null => exact absurd rfl notNull
      | cell _ loadSecond restSecond =>
          rw [load] at loadSecond
          cases Option.some.inj loadSecond
          rw [ih restSecond]

/-- Only the forward links of the visited cells matter for reading forward. -/
theorem ReadsNext.congr {memory' : α → Option (Links α)} {start : α}
    {cells : List α} (reads : ReadsNext memory null start cells)
    (agree : ∀ cell ∈ cells, ∀ links, memory cell = some links →
      ∃ links', memory' cell = some links' ∧ links'.next = links.next) :
    ReadsNext memory' null start cells := by
  induction reads with
  | null => exact ReadsNext.null
  | @cell cell links cells notNull load _ ih =>
      obtain ⟨links', load', nextEq⟩ := agree cell List.mem_cons_self links load
      refine ReadsNext.cell notNull load' (nextEq ▸ ih fun other member => ?_)
      exact agree other (List.mem_cons_of_mem cell member)

theorem Segment.readsNext {before start : α} {cells : List α}
    (segment : Segment memory before cells null)
    (notNull : null ∉ cells) (starts : start = cells.headD null) :
    ReadsNext memory null start cells := by
  induction cells generalizing before start with
  | nil =>
      subst starts
      exact ReadsNext.null
  | cons cell cells ih =>
      subst starts
      rw [List.mem_cons, not_or] at notNull
      exact ReadsNext.cell (Ne.symm notNull.1) segment.1
        (ih segment.2 notNull.2 rfl)

end Reading

section Segments

variable {memory : α → Option (Links α)}

theorem segment_append {before after : α} {front back : List α} :
    Segment memory before (front ++ back) after ↔
      Segment memory before front (back.headD after) ∧
        Segment memory (front.getLastD before) back after := by
  induction front generalizing before with
  | nil => simp [Segment]
  | cons cell front ih =>
      have headEq : (front ++ back).headD after =
          front.headD (back.headD after) := by
        cases front <;> rfl
      have lastEq : (cell :: front).getLastD before = front.getLastD cell := by
        cases front <;> rfl
      rw [List.cons_append, Segment, Segment, ih, headEq, lastEq, and_assoc]

theorem Segment.congr {memory' : α → Option (Links α)} {before after : α}
    {cells : List α} (segment : Segment memory before cells after)
    (agree : ∀ cell ∈ cells, memory' cell = memory cell) :
    Segment memory' before cells after := by
  induction cells generalizing before with
  | nil => trivial
  | cons cell cells ih =>
      refine ⟨?_, ih segment.2 fun other member =>
        agree other (List.mem_cons_of_mem cell member)⟩
      rw [agree cell List.mem_cons_self]
      exact segment.1

/-- A write outside the cells of a segment does not disturb it. -/
theorem Segment.update [DecidableEq α] {before after cell : α}
    {cells : List α} {value : Option (Links α)}
    (segment : Segment memory before cells after) (outside : cell ∉ cells) :
    Segment (Function.update memory cell value) before cells after := by
  apply segment.congr
  intro other member
  apply Function.update_of_ne
  rintro rfl
  exact outside member

/-- Redirecting the forward link of the last cell moves the end of a
segment. -/
theorem Segment.setLast [DecidableEq α] {before after target last : α}
    {front : List α} (nodup : (front ++ [last]).Nodup)
    (segment : Segment memory before (front ++ [last]) after) :
    Segment (Function.update memory last
      (some ⟨target, front.getLastD before⟩)) before (front ++ [last]) target := by
  rw [segment_append] at segment ⊢
  have lastNotMem : last ∉ front := by
    intro member
    exact (List.nodup_append.mp nodup).2.2 last member last
      (List.mem_singleton_self last) rfl
  refine ⟨segment.1.update lastNotMem, ?_, trivial⟩
  simp

/-- Redirecting the backward link of the first cell moves the start of a
segment. -/
theorem Segment.setFirst [DecidableEq α] {before after source first : α}
    {rest : List α} (nodup : (first :: rest).Nodup)
    (segment : Segment memory before (first :: rest) after) :
    Segment (Function.update memory first
      (some ⟨rest.headD after, source⟩)) source (first :: rest) after := by
  refine ⟨by simp, segment.2.update (List.nodup_cons.mp nodup).1⟩

theorem Segment.readsPrev {null finish after : α} {cells : List α}
    (segment : Segment memory null cells after)
    (notNull : null ∉ cells) (finishes : finish = cells.getLastD null) :
    ReadsPrev memory null finish cells.reverse := by
  induction cells using List.reverseRecOn generalizing finish after with
  | nil =>
      subst finishes
      exact ReadsPrev.null
  | append_singleton front last ih =>
      rw [segment_append] at segment
      have finishLast : finish = last := by simpa using finishes
      subst finishLast
      rw [List.mem_append, not_or, List.mem_singleton] at notNull
      rw [List.reverse_append, List.reverse_singleton, List.singleton_append]
      exact ReadsPrev.cell (Ne.symm notNull.2) segment.2.1
        (ih segment.1 notNull.1 rfl)

end Segments

end DoublyLinked
