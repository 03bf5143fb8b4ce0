import Mathlib.Data.List.Lex
import Mathlib.Data.UInt
import Mathlib.Order.Basic

/-!
# Object identifiers

An object identifier is a list of sub-identifiers, ordered lexicographically.  In the basic
encoding rules a sub-identifier is written in base 128, the highest digit first, with the high bit
set in every byte but the last; so no encoding begins another one, and the encodings
of two identifiers have a common beginning as far as the identifiers have.
-/

namespace ObjectIdentifiers

/-- One list begins with the other. -/
def Compatible {α : Type*} (first second : List α) : Prop :=
  first <+: second ∨ second <+: first

theorem Compatible.symm {α : Type*} {first second : List α}
    (compatible : Compatible first second) : Compatible second first :=
  Or.symm compatible

instance {α : Type*} [DecidableEq α] (first second : List α) :
    Decidable (Compatible first second) :=
  inferInstanceAs (Decidable (_ ∨ _))

section Order

variable {α : Type*} [LinearOrder α]

/-- Where two lists differ decides their order, whatever follows. -/
theorem append_lt_append_of_not_compatible {first second : List α}
    (different : ¬ Compatible first second) (lower : first < second) (left right : List α) :
    first ++ left < second ++ right := by
  induction first generalizing second with
  | nil => exact absurd (Or.inl (List.nil_prefix)) different
  | cons a first ih =>
      cases second with
      | nil => exact absurd (Or.inr (List.nil_prefix)) different
      | cons b second =>
          rw [List.cons_lt_cons_iff] at lower
          rw [List.cons_append, List.cons_append, List.cons_lt_cons_iff]
          rcases lower with head | ⟨rfl, tail⟩
          · exact Or.inl head
          · refine Or.inr ⟨rfl, ih (fun compatible => different ?_) tail⟩
            rcases compatible with starts | starts
            · exact Or.inl ((List.prefix_cons_inj a).2 starts)
            · exact Or.inr ((List.prefix_cons_inj a).2 starts)

theorem lt_append_of_ne_nil (first : List α) {rest : List α} (nonempty : rest ≠ []) :
    first < first ++ rest := by
  induction first with
  | nil =>
      cases rest with
      | nil => exact absurd rfl nonempty
      | cons a rest => exact List.nil_lt_cons a rest
  | cons a first ih => exact List.cons_lt_cons_iff.2 (Or.inr ⟨rfl, ih⟩)

theorem le_append (first rest : List α) : first ≤ first ++ rest := by
  by_cases empty : rest = []
  · rw [empty, List.append_nil]
  · exact le_of_lt (lt_append_of_ne_nil first empty)

theorem append_lt_append_iff (first : List α) {left right : List α} :
    first ++ left < first ++ right ↔ left < right := by
  induction first with
  | nil => rfl
  | cons a first ih =>
      rw [List.cons_append, List.cons_append, List.cons_lt_cons_iff]
      simp [ih]

/-- A name before the one an identifier belongs to is below the identifier. -/
theorem append_lt_of_before {before name oid : List α} (lower : before < name)
    (different : ¬ Compatible before name) (belongs : Compatible name oid)
    (other : ¬ Compatible before oid) (rest : List α) : before ++ rest < oid := by
  rcases belongs with ⟨more, rfl⟩ | ⟨more, rfl⟩
  · exact append_lt_append_of_not_compatible different lower rest more
  · rcases lt_trichotomy before oid with below | rfl | above
    · simpa using append_lt_append_of_not_compatible other below rest []
    · exact absurd (Or.inl (List.prefix_rfl)) other
    · have contradiction := append_lt_append_of_not_compatible (fun compatible =>
        other compatible.symm) above more []
      rw [List.append_nil] at contradiction
      exact absurd lower (not_lt_of_gt contradiction)

/-- A name behind the one an identifier belongs to is above the identifier. -/
theorem lt_append_of_after {name after oid : List α} (lower : name < after)
    (different : ¬ Compatible name after) (belongs : Compatible name oid) (rest : List α) :
    oid < after ++ rest := by
  rcases belongs with ⟨more, rfl⟩ | ⟨more, rfl⟩
  · exact append_lt_append_of_not_compatible different lower more rest
  · exact lt_of_le_of_lt (le_append oid more) (lt_of_lt_of_le lower (le_append after rest))

end Order

/-- The digits before the last one. -/
def encodeHigh (value : Nat) : List UInt8 :=
  if value = 0 then [] else encodeHigh (value / 128) ++ [UInt8.ofNat (128 + value % 128)]
termination_by value
decreasing_by omega

def encodeId (value : Nat) : List UInt8 :=
  encodeHigh (value / 128) ++ [UInt8.ofNat (value % 128)]

def encodeOid (ids : List Nat) : List UInt8 :=
  ids.flatMap encodeId

/-- The number a list of digits stands for. -/
def digitsValue (bytes : List UInt8) : Nat :=
  bytes.foldl (fun value byte => value * 128 + byte.toNat % 128) 0

theorem encodeHigh_zero : encodeHigh 0 = [] := by
  rw [encodeHigh, if_pos rfl]

theorem encodeHigh_of_ne_zero {value : Nat} (nonzero : value ≠ 0) :
    encodeHigh value = encodeHigh (value / 128) ++ [UInt8.ofNat (128 + value % 128)] := by
  rw [encodeHigh, if_neg nonzero]

theorem digitsValue_snoc (bytes : List UInt8) (byte : UInt8) :
    digitsValue (bytes ++ [byte]) = digitsValue bytes * 128 + byte.toNat % 128 := by
  simp [digitsValue]

theorem digitsValue_encodeHigh (value : Nat) : digitsValue (encodeHigh value) = value := by
  induction value using Nat.strong_induction_on with
  | _ value ih =>
      by_cases zero : value = 0
      · rw [zero, encodeHigh_zero]
        rfl
      · rw [encodeHigh_of_ne_zero zero, digitsValue_snoc, ih (value / 128) (by omega),
          UInt8.toNat_ofNat']
        omega

theorem digitsValue_encodeId (value : Nat) : digitsValue (encodeId value) = value := by
  rw [encodeId, digitsValue_snoc, digitsValue_encodeHigh, UInt8.toNat_ofNat']
  omega

theorem le_of_mem_encodeHigh {value : Nat} {byte : UInt8} (member : byte ∈ encodeHigh value) :
    128 ≤ byte.toNat := by
  induction value using Nat.strong_induction_on with
  | _ value ih =>
      by_cases zero : value = 0
      · rw [zero, encodeHigh_zero] at member
        cases member
      · rw [encodeHigh_of_ne_zero zero, List.mem_append, List.mem_singleton] at member
        rcases member with earlier | rfl
        · exact ih (value / 128) (by omega) earlier
        · rw [UInt8.toNat_ofNat']
          omega

/-- The last byte of an encoding is the first one without the high bit. -/
theorem append_cons_inj {first second left right : List UInt8} {a b : UInt8}
    (firstHigh : ∀ byte ∈ first, 128 ≤ byte.toNat) (secondHigh : ∀ byte ∈ second, 128 ≤ byte.toNat)
    (aLow : a.toNat < 128) (bLow : b.toNat < 128)
    (same : first ++ a :: left = second ++ b :: right) : first = second ∧ a = b ∧ left = right := by
  induction first generalizing second with
  | nil =>
      cases second with
      | nil =>
          obtain ⟨head, tail⟩ := List.cons.inj same
          exact ⟨rfl, head, tail⟩
      | cons c second =>
          obtain ⟨head, -⟩ := List.cons.inj same
          have high := secondHigh c (by simp)
          rw [← head] at high
          omega
  | cons c first ih =>
      cases second with
      | nil =>
          obtain ⟨head, -⟩ := List.cons.inj same
          have high := firstHigh c (by simp)
          rw [head] at high
          omega
      | cons d second =>
          obtain ⟨rfl, tail⟩ := List.cons.inj same
          obtain ⟨rfl, rest⟩ := ih (fun byte member => firstHigh byte (by simp [member]))
            (fun byte member => secondHigh byte (by simp [member])) tail
          exact ⟨rfl, rest⟩

/-- No encoding begins another one. -/
theorem encodeId_append_inj {first second : Nat} {left right : List UInt8}
    (same : encodeId first ++ left = encodeId second ++ right) : first = second ∧ left = right := by
  have low : ∀ value : Nat, (UInt8.ofNat (value % 128)).toNat < 128 := by
    intro value
    rw [UInt8.toNat_ofNat']
    omega
  simp only [encodeId, List.append_assoc, List.singleton_append] at same
  obtain ⟨high, last, rest⟩ := append_cons_inj (fun _ => le_of_mem_encodeHigh)
    (fun _ => le_of_mem_encodeHigh) (low first) (low second) same
  refine ⟨?_, rest⟩
  rw [← digitsValue_encodeId first, ← digitsValue_encodeId second, encodeId, encodeId, high, last]

theorem encodeId_ne_nil (value : Nat) : encodeId value ≠ [] := by
  simp [encodeId]

theorem encodeId_of_lt {value : Nat} (small : value < 128) :
    encodeId value = [UInt8.ofNat value] := by
  rw [encodeId, Nat.div_eq_of_lt small, encodeHigh_zero, Nat.mod_eq_of_lt small, List.nil_append]

theorem two_le_encodeId_length {value : Nat} (large : 128 ≤ value) :
    2 ≤ (encodeId value).length := by
  have nonzero : value / 128 ≠ 0 := by omega
  rw [encodeId, encodeHigh_of_ne_zero nonzero]
  simp

@[simp]
theorem encodeOid_nil : encodeOid [] = [] :=
  rfl

theorem encodeOid_cons (id : Nat) (ids : List Nat) :
    encodeOid (id :: ids) = encodeId id ++ encodeOid ids :=
  rfl

theorem encodeOid_append (first second : List Nat) :
    encodeOid (first ++ second) = encodeOid first ++ encodeOid second :=
  List.flatMap_append

@[simp]
theorem encodeOid_eq_nil {ids : List Nat} : encodeOid ids = [] ↔ ids = [] := by
  cases ids with
  | nil => simp
  | cons id ids => simp [encodeOid_cons, encodeId_ne_nil]

/-- The encodings have a common beginning as the identifiers have. -/
theorem encodeOid_prefix_iff {first second : List Nat} :
    encodeOid first <+: encodeOid second ↔ first <+: second := by
  constructor
  · intro starts
    induction first generalizing second with
    | nil => exact List.nil_prefix
    | cons id first ih =>
        obtain ⟨rest, same⟩ := starts
        cases second with
        | nil =>
            rw [encodeOid_cons, encodeOid_nil,
              List.append_eq_nil_iff, List.append_eq_nil_iff] at same
            exact absurd same.1.1 (encodeId_ne_nil id)
        | cons other second =>
            rw [encodeOid_cons, encodeOid_cons, List.append_assoc] at same
            obtain ⟨rfl, tail⟩ := encodeId_append_inj same
            exact (List.prefix_cons_inj id).2 (ih ⟨rest, tail⟩)
  · rintro ⟨rest, rfl⟩
    exact ⟨encodeOid rest, (encodeOid_append first rest).symm⟩

theorem encodeOid_injective {first second : List Nat} (same : encodeOid first = encodeOid second) :
    first = second := by
  have forward : first <+: second := encodeOid_prefix_iff.1 (same ▸ List.prefix_rfl)
  have backward : second <+: first := encodeOid_prefix_iff.1 (same ▸ List.prefix_rfl)
  exact forward.eq_of_length (le_antisymm forward.length_le backward.length_le)

end ObjectIdentifiers
