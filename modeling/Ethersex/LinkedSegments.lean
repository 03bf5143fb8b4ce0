import Mathlib.Data.List.Basic
import Mathlib.Tactic.Common

/-!
# Singly linked segments

The cells of a linked list are given by a successor function.  A segment runs
from its first cell through the listed cells to a target, which is the null
value for a complete list.  A list whose anchor has a link field of its own is
treated as a segment that begins with the anchor.
-/

namespace LinkedSegments

variable {Cell : Type*} {next next' : Cell → Cell} {first last target : Cell}
  {cells front back : List Cell}

def Segment (next : Cell → Cell) : Cell → List Cell → Cell → Prop
  | first, [], target => first = target
  | first, cell :: cells, target => first = cell ∧ Segment next (next cell) cells target

theorem segment_append :
    Segment next first (front ++ back) target ↔
      ∃ middle, Segment next first front middle ∧ Segment next middle back target := by
  induction front generalizing first with
  | nil =>
      constructor
      · intro segment
        exact ⟨first, rfl, segment⟩
      · rintro ⟨middle, rfl, segment⟩
        exact segment
  | cons cell front ih =>
      constructor
      · rintro ⟨firstEq, rest⟩
        obtain ⟨middle, frontSegment, backSegment⟩ := ih.mp rest
        exact ⟨middle, ⟨firstEq, frontSegment⟩, backSegment⟩
      · rintro ⟨middle, ⟨firstEq, frontSegment⟩, backSegment⟩
        exact ⟨firstEq, ih.mpr ⟨middle, frontSegment, backSegment⟩⟩

theorem Segment.congr (segment : Segment next first cells target)
    (agree : ∀ cell ∈ cells, next' cell = next cell) : Segment next' first cells target := by
  induction cells generalizing first with
  | nil => exact segment
  | cons cell cells ih =>
      obtain ⟨firstEq, rest⟩ := segment
      constructor
      · exact firstEq
      · rw [agree cell List.mem_cons_self]
        exact ih rest fun other member => agree other (List.mem_cons_of_mem _ member)

theorem Segment.next_mem {cell : Cell} (segment : Segment next first cells target)
    (member : cell ∈ cells) : next cell ∈ target :: cells := by
  induction cells generalizing first with
  | nil => cases member
  | cons head cells ih =>
      obtain ⟨_, rest⟩ := segment
      rcases List.mem_cons.mp member with rfl | inRest
      · cases cells with
        | nil =>
            rw [show next cell = target from rest]
            exact List.mem_cons_self
        | cons second cells =>
            rw [show next cell = second from rest.1]
            exact List.mem_cons_of_mem _ (List.mem_cons_of_mem _ List.mem_cons_self)
      · rcases List.mem_cons.mp (ih rest inRest) with isTarget | inCells
        · rw [isTarget]
          exact List.mem_cons_self
        · exact List.mem_cons_of_mem _ (List.mem_cons_of_mem _ inCells)

/-- Link a new cell behind the last one. -/
theorem Segment.snoc {new : Cell} (segment : Segment next first (front ++ [last]) target)
    (agree : ∀ cell ∈ front, next' cell = next cell) (lastNext : next' last = new)
    (newNext : next' new = target) : Segment next' first (front ++ [last, new]) target := by
  obtain ⟨middle, frontSegment, middleEq, _⟩ := segment_append.mp segment
  rw [segment_append]
  refine ⟨middle, frontSegment.congr agree, middleEq, lastNext, newNext⟩

/-- Let the last cell point somewhere else. -/
theorem Segment.retarget {target' : Cell} (segment : Segment next first (front ++ [last]) target)
    (agree : ∀ cell ∈ front, next' cell = next cell) (lastNext : next' last = target') :
    Segment next' first (front ++ [last]) target' := by
  obtain ⟨middle, frontSegment, middleEq, _⟩ := segment_append.mp segment
  rw [segment_append]
  exact ⟨middle, frontSegment.congr agree, middleEq, lastNext⟩

/-- Link a new cell behind one of the cells. -/
theorem Segment.link {previous new : Cell}
    (segment : Segment next first (front ++ previous :: back) target)
    (agreeFront : ∀ cell ∈ front, next' cell = next cell)
    (agreeBack : ∀ cell ∈ back, next' cell = next cell) (previousNext : next' previous = new)
    (newNext : next' new = next previous) :
    Segment next' first (front ++ previous :: new :: back) target := by
  obtain ⟨middle, frontSegment, middleEq, rest⟩ := segment_append.mp segment
  rw [segment_append]
  refine ⟨middle, frontSegment.congr agreeFront, middleEq, previousNext, ?_⟩
  rw [newNext]
  exact rest.congr agreeBack

/-- Let the predecessor of a cell point behind it. -/
theorem Segment.unlink {previous cell : Cell}
    (segment : Segment next first (front ++ previous :: cell :: back) target)
    (agreeFront : ∀ other ∈ front, next' other = next other)
    (agreeBack : ∀ other ∈ back, next' other = next other)
    (previousNext : next' previous = next cell) :
    Segment next' first (front ++ previous :: back) target := by
  obtain ⟨middle, frontSegment, middleEq, _, rest⟩ := segment_append.mp segment
  rw [segment_append]
  refine ⟨middle, frontSegment.congr agreeFront, middleEq, ?_⟩
  rw [previousNext]
  exact rest.congr agreeBack

/-- An anchored list ends with its last cell, or with the anchor. -/
theorem cons_eq_dropLast_append (anchor : Cell) (cells : List Cell) :
    anchor :: cells = (anchor :: cells).dropLast ++ [cells.getLastD anchor] := by
  rw [← List.getLast_eq_getLastD (List.cons_ne_nil anchor cells), List.dropLast_append_getLast]

end LinkedSegments
