import Mathlib.Data.List.Basic
import Mathlib.Data.List.Nodup

/-!
# Sweeping a list in rounds

In every round the entries that satisfy a test are taken out of the list, in their
order.  The result holds the entries that satisfy the test in some round, sorted by
the first round in which they do.
-/

namespace Sweep

variable {Entry Round : Type*} (test : Entry → Round → Bool)

def sweep : List Round → List Entry → List Entry
  | [], _ => []
  | round :: rounds, entries =>
      (entries.filter fun entry => test entry round) ++
        sweep rounds (entries.filter fun entry => !test entry round)

variable {test}

@[simp]
theorem sweep_nil_entries (rounds : List Round) : sweep test rounds [] = [] := by
  induction rounds with
  | nil => rfl
  | cons round rounds ih => simp [sweep, ih]

theorem mem_sweep {rounds : List Round} {entries : List Entry} {entry : Entry} :
    entry ∈ sweep test rounds entries ↔
      entry ∈ entries ∧ ∃ round ∈ rounds, test entry round = true := by
  induction rounds generalizing entries with
  | nil => simp [sweep]
  | cons round rounds ih =>
      simp only [sweep, List.mem_append, List.mem_filter, ih, List.exists_mem_cons_iff]
      cases taken : test entry round <;> simp

theorem sweep_nodup {rounds : List Round} {entries : List Entry} (nodup : entries.Nodup) :
    (sweep test rounds entries).Nodup := by
  induction rounds generalizing entries with
  | nil => exact List.nodup_nil
  | cons round rounds ih =>
      refine List.nodup_append.2 ⟨nodup.filter _, ih (nodup.filter _), ?_⟩
      rintro entry taken other left rfl
      have isTaken := (List.mem_filter.1 taken).2
      have isLeft := (List.mem_filter.1 (mem_sweep.1 left).1).2
      simp [isTaken] at isLeft

/-- When the times of the rounds go down, an entry satisfies the test at no later time than
the entries in front of it. -/
theorem sweep_pairwise {time : Round → Nat} {rounds : List Round} {entries : List Entry}
    (descending : rounds.Pairwise fun first second => time second < time first) :
    (sweep test rounds entries).Pairwise fun first second =>
      ∀ round ∈ rounds, test second round = true →
        ∃ later ∈ rounds, time round ≤ time later ∧ test first later = true := by
  induction rounds generalizing entries with
  | nil => exact List.Pairwise.nil
  | cons round rounds ih =>
      obtain ⟨highest, descending⟩ := List.pairwise_cons.1 descending
      have top {first : Entry} (isTaken : test first round = true) {second : Entry} :
          ∀ other ∈ round :: rounds, test second other = true →
            ∃ later ∈ round :: rounds, time other ≤ time later ∧ test first later = true := by
        intro other member _
        refine ⟨round, List.mem_cons_self, ?_, isTaken⟩
        rcases List.mem_cons.1 member with rfl | member
        · exact Nat.le_refl _
        · exact Nat.le_of_lt (highest other member)
      refine List.pairwise_append.2 ⟨?_, ?_, ?_⟩
      · apply List.pairwise_of_forall_mem_list
        intro first taken second _
        exact top (List.mem_filter.1 taken).2
      · refine (ih descending).imp_of_mem ?_
        intro first second _ left order other member isDue
        have notTaken := (List.mem_filter.1 (mem_sweep.1 left).1).2
        rcases List.mem_cons.1 member with rfl | member
        · simp [isDue] at notTaken
        · obtain ⟨later, inside, bound, isTaken⟩ := order other member isDue
          exact ⟨later, List.mem_cons_of_mem _ inside, bound, isTaken⟩
      · intro first taken second _
        exact top (List.mem_filter.1 taken).2

end Sweep
