import Mathlib.Data.List.Basic
import Mathlib.Data.List.Infix
import Mathlib.Tactic.Common

/-!
# Streams of frames that are not prefixes of one another

A stream begins with some frames, and what is left does not begin with a further one.  When no frame
is a prefix of another there is one way to read the stream so, and whoever reads some of its
frames has read the first of these.
-/

namespace PrefixFrames

variable {Symbol : Type*} {IsFrame : List Symbol → Prop} {rest rest' : List Symbol}
  {frames frames' : List (List Symbol)}

/-- No frame is a prefix of another one. -/
def PrefixFree (IsFrame : List Symbol → Prop) : Prop :=
  ∀ frame other, IsFrame frame → IsFrame other → frame <+: other → frame = other

/-- The rest does not begin with a frame. -/
def Stuck (IsFrame : List Symbol → Prop) (rest : List Symbol) : Prop :=
  ∀ frame, IsFrame frame → ¬frame <+: rest

theorem prefix_of_stuck (free : PrefixFree IsFrame) (read : ∀ frame ∈ frames, IsFrame frame)
    (read' : ∀ frame ∈ frames', IsFrame frame) (stuck : Stuck IsFrame rest')
    (same : frames.flatten ++ rest = frames'.flatten ++ rest') : frames <+: frames' := by
  induction frames generalizing frames' with
  | nil => exact List.nil_prefix
  | cons frame frames ih =>
      rw [List.forall_mem_cons] at read
      rw [List.flatten_cons, List.append_assoc] at same
      cases frames' with
      | nil =>
          refine absurd ?_ (stuck frame read.1)
          exact ⟨frames.flatten ++ rest, same⟩
      | cons other frames' =>
          rw [List.forall_mem_cons] at read'
          rw [List.flatten_cons, List.append_assoc] at same
          have equal : frame = other := by
            rcases List.append_eq_append_iff.mp same with ⟨more, longer, -⟩ | ⟨more, longer, -⟩
            · exact free frame other read.1 read'.1 ⟨more, longer.symm⟩
            · exact (free other frame read'.1 read.1 ⟨more, longer.symm⟩).symm
          subst equal
          rw [List.prefix_cons_inj]
          exact ih read.2 read'.2 (List.append_cancel_left same)

end PrefixFrames
