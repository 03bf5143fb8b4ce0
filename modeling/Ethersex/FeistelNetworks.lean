import Mathlib.Data.List.Basic
import Mathlib.Logic.Function.Basic

/-!
# Feistel networks

A network runs two halves through a list of round functions; whatever these are,
the network with the round functions in reverse order undoes it, with the halves
exchanged before and after.
-/

namespace FeistelNetworks

variable {Half : Type*} (combine : Half → Half → Half)

def round (halves : Half × Half) (function : Half → Half) : Half × Half :=
  (halves.2, combine halves.1 (function halves.2))

def network (functions : List (Half → Half)) (halves : Half × Half) : Half × Half :=
  functions.foldl (round combine) halves

/-- The network with its halves exchanged at the end. -/
def cipher (functions : List (Half → Half)) (halves : Half × Half) : Half × Half :=
  (network combine functions halves).swap

variable {combine}

theorem round_swap_round (cancel : ∀ first second, combine (combine first second) second = first)
    (function : Half → Half) (halves : Half × Half) :
    round combine (round combine halves function).swap function = halves.swap := by
  rw [round, round]
  dsimp only [Prod.swap]
  rw [cancel]

theorem network_reverse (cancel : ∀ first second, combine (combine first second) second = first)
    (functions : List (Half → Half)) (halves : Half × Half) :
    network combine functions.reverse (network combine functions halves).swap = halves.swap := by
  induction functions generalizing halves with
  | nil => rfl
  | cons function functions ih =>
      have rest := ih (round combine halves function)
      have last : network combine (function :: functions).reverse
          (network combine (function :: functions) halves).swap =
          round combine (network combine functions.reverse
            (network combine functions (round combine halves function)).swap) function := by
        rw [network, List.reverse_cons, List.foldl_append]
        rfl
      rw [last, rest, round_swap_round cancel]

/-- The cipher with its rounds reversed is the inverse. -/
theorem cipher_reverse (cancel : ∀ first second, combine (combine first second) second = first)
    (functions : List (Half → Half)) :
    Function.LeftInverse (cipher combine functions.reverse) (cipher combine functions) := by
  intro halves
  rw [cipher, cipher, network_reverse cancel, Prod.swap_swap]

end FeistelNetworks
