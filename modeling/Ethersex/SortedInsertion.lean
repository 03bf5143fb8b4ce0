import Mathlib.Order.Lattice

/-!
# Insertion into a sorted list with joining

An item is inserted before the first one with a larger key, or is joined into an item of its own
key that it fits to.  The keys of the items with some property then change only for the properties
that the new item has.
-/

namespace SortedInsertion

variable {Item Key : Type*}

/-- The keys of the items with a property. -/
def keysOf (key : Item → Key) (has : Item → Bool) (items : List Item) : List Key :=
  (items.filter has).map key

variable {key : Item → Key} {has : Item → Bool} {new item : Item} {items : List Item}

theorem keysOf_cons_of_pos (holds : has item = true) :
    keysOf key has (item :: items) = key item :: keysOf key has items := by
  rw [keysOf, List.filter_cons_of_pos holds, List.map_cons, keysOf]

theorem keysOf_cons_of_neg (fails : has item = false) :
    keysOf key has (item :: items) = keysOf key has items := by
  rw [keysOf, List.filter_cons_of_neg (by simp [fails]), keysOf]

variable [LinearOrder Key] {fits : Item → Item → Prop} [DecidableRel fits]
  {join : Item → Item → Item}

variable (key fits join) in
def insert (new : Item) : List Item → List Item
  | [] => [new]
  | item :: items =>
      if key item = key new ∧ fits item new then join item new :: items
      else if key new < key item then new :: item :: items
      else item :: insert new items

section Joined

variable (keeps : ∀ item new, key (join item new) = key item)
include keeps

/-- The keys of the items behind are at least a bound that the new one meets. -/
theorem le_of_mem_insert {bound : Key} (newBound : bound ≤ key new)
    (bounds : ∀ item ∈ items, bound ≤ key item) :
    ∀ item ∈ insert key fits join new items, bound ≤ key item := by
  induction items with
  | nil =>
      intro item member
      rwa [List.mem_singleton.mp member]
  | cons first items ih =>
      rw [List.forall_mem_cons] at bounds
      rw [insert]
      split_ifs with same before
      · rw [List.forall_mem_cons, keeps]
        exact bounds
      · rw [List.forall_mem_cons, List.forall_mem_cons]
        exact ⟨newBound, bounds⟩
      · rw [List.forall_mem_cons]
        exact ⟨bounds.1, ih bounds.2⟩

theorem pairwise_insert (sorted : items.Pairwise fun first second => key first ≤ key second) :
    (insert key fits join new items).Pairwise fun first second => key first ≤ key second := by
  induction items with
  | nil => exact List.pairwise_singleton _ _
  | cons first items ih =>
      rw [List.pairwise_cons] at sorted
      rw [insert]
      split_ifs with same before
      · rw [List.pairwise_cons, keeps]
        exact sorted
      · rw [List.pairwise_cons, List.forall_mem_cons]
        have below := le_of_lt before
        refine ⟨⟨below, fun item member => ?_⟩, List.pairwise_cons.mpr sorted⟩
        exact le_trans below (sorted.1 item member)
      · rw [List.pairwise_cons]
        exact ⟨le_of_mem_insert keeps (not_lt.mp before) sorted.1, ih sorted.2⟩

variable (joined : ∀ item new, fits item new → has (join item new) = (has item || has new))
include joined

/-- Without the property the new item leaves the keys as they are. -/
theorem keysOf_insert_of_neg (fails : has new = false) :
    keysOf key has (insert key fits join new items) = keysOf key has items := by
  induction items with
  | nil => exact keysOf_cons_of_neg fails
  | cons first items ih =>
      rw [insert]
      split_ifs with same before
      · have holds := joined first new same.2
        rw [fails, Bool.or_false] at holds
        cases found : has first with
        | true => rw [keysOf_cons_of_pos (holds.trans found), keysOf_cons_of_pos found, keeps]
        | false => rw [keysOf_cons_of_neg (holds.trans found), keysOf_cons_of_neg found]
      · rw [keysOf_cons_of_neg fails]
      · cases found : has first with
        | true => rw [keysOf_cons_of_pos found, keysOf_cons_of_pos found, ih]
        | false => rw [keysOf_cons_of_neg found, keysOf_cons_of_neg found, ih]

/-- A property that no item had before is that of the new item only. -/
theorem keysOf_insert_of_pos (holds : has new = true) (none : keysOf key has items = []) :
    keysOf key has (insert key fits join new items) = [key new] := by
  induction items with
  | nil => exact keysOf_cons_of_pos holds
  | cons first items ih =>
      cases found : has first with
      | true => rw [keysOf_cons_of_pos found] at none; cases none
      | false =>
          rw [keysOf_cons_of_neg found] at none
          rw [insert]
          split_ifs with same before
          · have joins := joined first new same.2
            rw [holds, Bool.or_true] at joins
            rw [keysOf_cons_of_pos joins, none, keeps, same.1]
          · rw [keysOf_cons_of_pos holds, keysOf_cons_of_neg found, none]
          · rw [keysOf_cons_of_neg found, ih none]

end Joined

end SortedInsertion
