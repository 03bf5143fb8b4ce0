import Mathlib.Data.List.Chain
import Mathlib.Data.List.Nodup
import Mathlib.Data.List.Perm.Basic
import Mathlib.Tactic.Common

/-!
# Walks through a set of words of bits

The words of one length that a list holds are the leaves of a binary tree.  A walk from the root
visits one leaf; where both bits are possible it repeats the turns of the walk before up to the last
one that went to zero, goes to one there, and to zero from there on.  Repeated walks visit the
leaves
from left to right.
-/

namespace BitTrie

variable {depth : Nat} {words : List (List Bool)}

/-- The rests of the words that begin with a bit. -/
def branch (bit : Bool) (words : List (List Bool)) : List (List Bool) :=
  words.filterMap fun
    | first :: rest => if first = bit then some rest else none
    | [] => none

/-- The words from left to right. -/
def enumerate : Nat → List (List Bool) → List (List Bool)
  | 0, words => if words = [] then [] else [[]]
  | depth + 1, words =>
      (enumerate depth (branch false words)).map (List.cons false) ++
        (enumerate depth (branch true words)).map (List.cons true)

/-- The next bit of a walk, and whether it leaves out a word with a one.  The number says how
many turns are repeated. -/
def choose (zeros ones : List (List Bool)) (last : List Bool) (turn : Option Nat) : Bool × Bool :=
  if ones = [] then (false, false)
  else if zeros = [] then (true, false)
  else
    match turn with
    | some 0 => (true, false)
    | none => (false, true)
    | some (_ + 1) => (last.headD false, !last.headD false)

/-- The number of turns behind the first bit. -/
def later : Option Nat → Option Nat
  | some (turn + 1) => some turn
  | _ => none

/-- The last turn to zero, seen from one bit before. -/
def mark (left : Bool) : Option Nat → Option Nat
  | some turn => some (turn + 1)
  | none => if left then some 0 else none

/-- A walk after the one to `last`: the word that it visits, and its last turn to zero. -/
def walk : Nat → List (List Bool) → List Bool → Option Nat → List Bool × Option Nat
  | 0, _, _, _ => ([], none)
  | depth + 1, words, last, turn =>
      let choice := choose (branch false words) (branch true words) last turn
      let rest := walk depth (branch choice.1 words) last.tail (later turn)
      (choice.1 :: rest.1, mark choice.2 rest.2)

/-- The last bit of a word at which a word with a one is left out. -/
def turning : Nat → List (List Bool) → List Bool → Option Nat
  | depth + 1, words, bit :: rest =>
      mark (!bit && branch true words ≠ []) (turning depth (branch bit words) rest)
  | _, _, _ => none

@[simp]
theorem branch_nil (bit : Bool) : branch bit [] = [] :=
  rfl

@[simp]
theorem mem_branch {bit : Bool} {rest : List Bool} :
    rest ∈ branch bit words ↔ bit :: rest ∈ words := by
  rw [branch, List.mem_filterMap]
  constructor
  · rintro ⟨word, member, found⟩
    match word with
    | first :: tail =>
        simp only at found
        split_ifs at found with same
        cases Option.some.inj found
        rwa [← same]
  · intro member
    exact ⟨bit :: rest, member, by simp⟩

theorem length_of_mem_branch {bit : Bool} {depth : Nat} {words : List (List Bool)}
    (lengths : ∀ word ∈ words, word.length = depth + 1) :
    ∀ rest ∈ branch bit words, rest.length = depth := by
  intro rest member
  have length := lengths _ (mem_branch.mp member)
  exact Nat.succ.inj length

/-- A word begins with one of the bits. -/
theorem branch_ne_nil (lengths : ∀ word ∈ words, word.length = depth + 1) (nonempty : words ≠ []) :
    branch false words ≠ [] ∨ branch true words ≠ [] := by
  obtain ⟨word, member⟩ := List.exists_mem_of_ne_nil words nonempty
  match word, lengths word member with
  | false :: rest, _ => exact Or.inl (List.ne_nil_of_mem (mem_branch.mpr member))
  | true :: rest, _ => exact Or.inr (List.ne_nil_of_mem (mem_branch.mpr member))

theorem mem_enumerate (lengths : ∀ word ∈ words, word.length = depth) {word : List Bool} :
    word ∈ enumerate depth words ↔ word ∈ words := by
  induction depth generalizing words word with
  | zero =>
      rw [enumerate]
      split_ifs with empty
      · rw [empty]
      · obtain ⟨first, member⟩ := List.exists_mem_of_ne_nil words empty
        have nil := List.length_eq_zero_iff.mp (lengths first member)
        constructor
        · intro same
          rw [List.mem_singleton.mp same, ← nil]
          exact member
        · intro other
          exact List.mem_singleton.mpr (List.length_eq_zero_iff.mp (lengths word other))
  | succ depth ih =>
      have inBranch : ∀ bit rest,
          rest ∈ enumerate depth (branch bit words) ↔ bit :: rest ∈ words := fun bit rest =>
        (ih (length_of_mem_branch lengths)).trans mem_branch
      rw [enumerate, List.mem_append, List.mem_map, List.mem_map]
      constructor
      · rintro (⟨rest, member, rfl⟩ | ⟨rest, member, rfl⟩)
        · exact (inBranch false rest).mp member
        · exact (inBranch true rest).mp member
      · intro member
        match word, lengths word member with
        | false :: rest, _ => exact Or.inl ⟨rest, (inBranch false rest).mpr member, rfl⟩
        | true :: rest, _ => exact Or.inr ⟨rest, (inBranch true rest).mpr member, rfl⟩

theorem nodup_enumerate (depth : Nat) (words : List (List Bool)) :
    (enumerate depth words).Nodup := by
  induction depth generalizing words with
  | zero =>
      rw [enumerate]
      split_ifs
      · exact List.nodup_nil
      · exact List.nodup_singleton _
  | succ depth ih =>
      rw [enumerate]
      apply List.Nodup.append
      · exact (ih _).map (List.cons_injective)
      · exact (ih _).map (List.cons_injective)
      · intro word inZeros inOnes
        obtain ⟨zero, -, rfl⟩ := List.mem_map.mp inZeros
        obtain ⟨one, -, same⟩ := List.mem_map.mp inOnes
        cases same

theorem enumerate_eq_nil_iff (lengths : ∀ word ∈ words, word.length = depth) :
    enumerate depth words = [] ↔ words = [] := by
  simp only [List.eq_nil_iff_forall_not_mem, mem_enumerate lengths]

/-- The enumeration has every word once. -/
theorem perm_enumerate (lengths : ∀ word ∈ words, word.length = depth) (distinct : words.Nodup) :
    (enumerate depth words).Perm words :=
  (List.perm_ext_iff_of_nodup (nodup_enumerate depth words) distinct).mpr
    fun _ => mem_enumerate lengths

theorem enumerate_nil (depth : Nat) : enumerate depth [] = [] := by
  induction depth with
  | zero => rfl
  | succ depth ih => rw [enumerate, branch_nil, branch_nil, ih, List.map_nil, List.map_nil,
      List.append_nil]

section Step

/-- A walk that begins with a bit and is right from there on. -/
theorem walk_cons {last : List Bool} {turn : Option Nat} {bit : Bool} {rest : List Bool}
    (chosen : choose (branch false words) (branch true words) last turn =
      (bit, !bit && decide (branch true words ≠ [])))
    (walked : walk depth (branch bit words) last.tail (later turn) =
      (rest, turning depth (branch bit words) rest)) :
    walk (depth + 1) words last turn =
      (bit :: rest, turning (depth + 1) words (bit :: rest)) := by
  simp only [walk, turning, chosen, walked]

theorem choose_of_no_ones (zeros : List (List Bool)) (last : List Bool) (turn : Option Nat) :
    choose zeros [] last turn = (false, false) :=
  rfl

theorem choose_of_no_zeros {ones : List (List Bool)} (someOne : ones ≠ []) (last : List Bool)
    (turn : Option Nat) : choose [] ones last turn = (true, false) := by
  simp [choose, someOne]

/-- The chosen bit is possible. -/
theorem branch_choose_ne_nil (either : branch false words ≠ [] ∨ branch true words ≠ [])
    (last : List Bool) (turn : Option Nat) :
    branch (choose (branch false words) (branch true words) last turn).1 words ≠ [] := by
  by_cases noOnes : branch true words = []
  · rw [noOnes, choose_of_no_ones]
    exact either.resolve_right (not_not.mpr noOnes)
  · by_cases noZeros : branch false words = []
    · rw [noZeros, choose_of_no_zeros noOnes]
      exact noOnes
    · cases (choose (branch false words) (branch true words) last turn).1 with
      | false => exact noZeros
      | true => exact noOnes

theorem exists_first (lengths : ∀ word ∈ words, word.length = depth) (nonempty : words ≠ []) :
    ∃ first, (enumerate depth words).head? = some first :=
  ⟨_, List.head?_eq_some_head fun empty =>
    nonempty ((enumerate_eq_nil_iff lengths).mp empty)⟩

theorem exists_last (lengths : ∀ word ∈ words, word.length = depth) (nonempty : words ≠ []) :
    ∃ last, (enumerate depth words).getLast? = some last :=
  ⟨_, List.getLast?_eq_some_getLast fun empty =>
    nonempty ((enumerate_eq_nil_iff lengths).mp empty)⟩

end Step

/-- A walk without turns to repeat visits the first word. -/
theorem walk_first (lengths : ∀ word ∈ words, word.length = depth) (last : List Bool) :
    ∀ first ∈ (enumerate depth words).head?,
      walk depth words last none = (first, turning depth words first) := by
  induction depth generalizing words last with
  | zero =>
      intro first member
      rw [enumerate] at member
      split_ifs at member
      · cases member
      · cases Option.some.inj member
        rfl
  | succ depth ih =>
      intro first member
      have lengthsBelow := fun bit => @length_of_mem_branch bit depth words lengths
      have below := fun bit => ih (lengthsBelow bit) last.tail
      rw [enumerate, List.head?_append, List.head?_map, List.head?_map] at member
      by_cases noZeros : branch false words = []
      · rw [noZeros, enumerate_nil, List.head?_nil, Option.map_none, Option.none_or] at member
        obtain ⟨rest, found, rfl⟩ := Option.map_eq_some_iff.mp member
        have someOne : branch true words ≠ [] := by
          intro noOnes
          rw [noOnes, enumerate_nil] at found
          cases found
        apply walk_cons _ (below true rest found)
        rw [noZeros]
        exact choose_of_no_zeros someOne last none
      · obtain ⟨rest, found⟩ := exists_first (lengthsBelow false) noZeros
        rw [found, Option.map_some, Option.some_or] at member
        cases Option.some.inj member
        apply walk_cons _ (below false rest found)
        by_cases noOnes : branch true words = []
        · simp [noOnes, choose_of_no_ones]
        · simp [choose, noOnes, noZeros]

/-- The last word leaves out no one. -/
theorem turning_last (lengths : ∀ word ∈ words, word.length = depth) :
    ∀ last ∈ (enumerate depth words).getLast?, turning depth words last = none := by
  induction depth generalizing words with
  | zero =>
      intro last _
      rfl
  | succ depth ih =>
      intro last member
      have lengthsBelow := fun bit => @length_of_mem_branch bit depth words lengths
      have below := fun bit => ih (lengthsBelow bit)
      rw [enumerate, List.getLast?_append, List.getLast?_map, List.getLast?_map] at member
      by_cases noOnes : branch true words = []
      · rw [noOnes, enumerate_nil, List.getLast?_nil, Option.map_none, Option.none_or] at member
        obtain ⟨rest, found, rfl⟩ := Option.map_eq_some_iff.mp member
        rw [turning, below false rest found, noOnes]
        rfl
      · obtain ⟨rest, found⟩ := exists_last (lengthsBelow true) noOnes
        rw [found, Option.map_some, Option.some_or] at member
        cases Option.some.inj member
        rw [turning, below true rest found]
        rfl

theorem walk_turn_lt {last : List Bool}
    {turn : Option Nat} : ∀ next ∈ (walk depth words last turn).2, next < depth := by
  induction depth generalizing words last turn with
  | zero =>
      intro next member
      cases member
  | succ depth ih =>
      intro next member
      rw [walk] at member
      have below := @ih (branch (choose (branch false words) (branch true words) last turn).1 words)
        last.tail (later turn)
      generalize walk depth _ _ _ = rest at member below
      generalize choose _ _ _ _ = choice at member
      cases found : rest.2 with
      | some deeper =>
          have deeperLt := below deeper found
          simp only [found, mark, Option.mem_def, Option.some.injEq] at member
          omega
      | none =>
          simp only [found, mark, Option.mem_def] at member
          split_ifs at member
          cases Option.some.inj member
          omega

/-- A walk after one of the words visits the next one. -/
def Next (depth : Nat) (words : List (List Bool)) (word next : List Bool) : Prop :=
  (∃ turn, turning depth words word = some turn) ∧
    walk depth words word (turning depth words word) = (next, turning depth words next)

/-- Below a bit the walk goes on as before. -/
theorem Next.cons {bit : Bool} {word next : List Bool}
    (below : Next depth (branch bit words) word next)
    (nonempty : branch bit words ≠ []) : Next (depth + 1) words (bit :: word) (bit :: next) := by
  obtain ⟨⟨turn, turns⟩, walked⟩ := below
  have turnsAbove : turning (depth + 1) words (bit :: word) = some (turn + 1) := by
    rw [turning, turns, mark]
  refine ⟨⟨turn + 1, turnsAbove⟩, ?_⟩
  rw [turnsAbove]
  rw [turns] at walked
  apply walk_cons _ walked
  cases bit with
  | false =>
      by_cases noOnes : branch true words = []
      · simp [noOnes, choose_of_no_ones]
      · simp [choose, noOnes, nonempty]
  | true =>
      by_cases noZeros : branch false words = []
      · simp [noZeros, choose_of_no_zeros nonempty]
      · simp [choose, nonempty, noZeros]

theorem isChain_enumerate (lengths : ∀ word ∈ words, word.length = depth) :
    (enumerate depth words).IsChain (Next depth words) := by
  induction depth generalizing words with
  | zero =>
      rw [enumerate]
      split_ifs
      · exact List.isChain_nil
      · exact List.isChain_singleton []
  | succ depth ih =>
      have lengthsBelow := fun bit => @length_of_mem_branch bit depth words lengths
      have chainBelow : ∀ bit, ((enumerate depth (branch bit words)).map (List.cons bit)).IsChain
          (Next (depth + 1) words) := by
        intro bit
        by_cases empty : branch bit words = []
        · rw [empty, enumerate_nil]
          exact List.isChain_nil
        · rw [List.isChain_map]
          exact (ih (lengthsBelow bit)).imp fun _ _ below => below.cons empty
      rw [enumerate, List.isChain_append]
      refine ⟨chainBelow false, chainBelow true, ?_⟩
      -- Behind the last word with a zero comes the first one with a one.
      intro word isLast next isFirst
      rw [List.getLast?_map] at isLast
      rw [List.head?_map] at isFirst
      obtain ⟨zero, lastZero, rfl⟩ := Option.map_eq_some_iff.mp isLast
      obtain ⟨one, firstOne, rfl⟩ := Option.map_eq_some_iff.mp isFirst
      have someZero : branch false words ≠ [] := by
        intro empty
        rw [empty, enumerate_nil] at lastZero
        cases lastZero
      have someOne : branch true words ≠ [] := by
        intro empty
        rw [empty, enumerate_nil] at firstOne
        cases firstOne
      have turns : turning (depth + 1) words (false :: zero) = some 0 := by
        rw [turning, turning_last (lengthsBelow false) zero lastZero]
        simp [mark, someOne]
      refine ⟨⟨0, turns⟩, ?_⟩
      rw [turns]
      apply walk_cons _ (walk_first (lengthsBelow true) zero one firstOne)
      simp [choose, someOne, someZero]

end BitTrie
