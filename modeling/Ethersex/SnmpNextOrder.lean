import Ethersex.SnmpNext
import Ethersex.SnmpReactions

/-!
# When a GetNextRequest is answered with the next instance

Every instance of an entry is below every instance of a later one, and an identifier is above the
instances of all entries before the one it belongs to.  So what is above the identifier
is the upper part of its entry and all entries behind it.  The agent looks at the
entry and at the first entry behind it.
-/

namespace Ethersex.Snmp

open ByteMemory ObjectIdentifiers

namespace Entry

theorem serves_firstRest (entry : Entry) : entry.Serves entry.firstRest ↔ entry.HasInstance := by
  unfold Serves firstRest HasInstance
  cases entry.kind with
  | scalar value => simp
  | column count value sized => simp

theorem firstRest_le {entry : Entry} {rest : List Nat} (serves : entry.Serves rest) :
    entry.firstRest ≤ rest := by
  unfold Serves at serves
  unfold firstRest
  cases kind : entry.kind with
  | scalar value => exact le_append [] rest
  | column count value sized =>
      simp only [kind] at serves
      obtain ⟨index, rfl, -, -⟩ := serves
      rcases Nat.eq_zero_or_pos index with rfl | positive
      · exact le_rfl
      · exact le_of_lt (List.cons_lt_cons_iff.2 (Or.inl positive))

theorem Serves.hasInstance {entry : Entry} {rest : List Nat} (serves : entry.Serves rest) :
    entry.HasInstance := by
  unfold Serves at serves
  unfold HasInstance
  cases kind : entry.kind with
  | scalar value =>
      simp only [kind, HasInstance] at serves
      exact serves.2
  | column count value sized =>
      simp only [kind] at serves
      obtain ⟨index, -, bound, -⟩ := serves
      exact Nat.zero_lt_of_lt bound

theorem firstRest_short (entry : Entry) : (encodeOid entry.firstRest).length ≤ 1 := by
  unfold firstRest
  cases entry.kind with
  | scalar value => simp
  | column count value sized => simp [encodeOid_index]

/-- All instances of the entry are at most the identifier. -/
def NoneAbove (entry : Entry) (ids : List Nat) : Prop :=
  ∀ rest, entry.Serves rest → ¬ ids < entry.name ++ rest

end Entry

/-- The entries have no instance. -/
def Empty (entries : List Entry) : Prop :=
  ∀ entry ∈ entries, ¬ entry.HasInstance

/-- The first of the entries has an instance, or none of them. -/
def FirstHasInstance (entries : List Entry) : Prop :=
  (∀ entry ∈ entries.head?, entry.HasInstance) ∨ Empty entries

/-- The condition for an identifier that belongs to the entry: what the identifier has behind the
name of the entry decides whether the agent looks for the next instance in the entry, in the
next entry or not at all. -/
def Entry.NextHolds (entry : Entry) (later : List Entry) (ids : List Nat) : Prop :=
  match entry.kind, ids.drop entry.name.length with
  | .scalar _, [] => (ids = entry.name ∨ ¬ entry.HasInstance) ∧ FirstHasInstance later
  | .scalar _, _ :: _ => Empty later
  | .column count _ _, [] => 0 < count ∨ Empty later
  | .column count _ _, index :: more =>
      if more = [] ∧ index < 128 ∧ index + 1 < count % 256 then index + 1 < 128
      else ¬ index + 1 < min count 128 ∧ FirstHasInstance later

/-- The condition for an identifier.  Without sub-identifiers the length in the uninitialised
binding decides. -/
def NextHolds (entries : List Entry) (stack : Varbinding) (ids : List Nat) : Prop :=
  if ids = [] then
    if stack.len = 0 then
      (∀ first ∈ entries.head?, ¬ first.HasInstance) ∧ FirstHasInstance entries.tail
    else Empty entries
  else
    match findEntry ids entries with
    | none => ∀ entry ∈ entries, entry.HasInstance → ¬ ids < entry.name
    | some (entry, later) => entry.NextHolds later ids

theorem Names.unique {result : Memory × UInt8} {vb : Nat} {first second : List UInt8}
    (firstNamed : Names result vb first) (secondNamed : Names result vb second)
    (firstShort : first.length < 256) (secondShort : second.length < 256) : first = second := by
  have header : ∀ oid, Names result vb oid → oid.length < 256 →
      result.1 (vb + 3) = UInt8.ofNat oid.length := by
    intro oid named short
    have bytes := named.2
    rw [show 2 + oid.length = oid.length + 1 + 1 by omega, readBlock_succ,
      readBlock_succ, tlv] at bytes
    simp only [List.cons_append, List.nil_append, List.cons.injEq] at bytes
    exact bytes.2.1
  have same : first.length = second.length := by
    have lengths := (header first firstNamed firstShort).symm.trans
      (header second secondNamed secondShort)
    have numbers := congrArg UInt8.toNat lengths
    rwa [toNat_ofNat_of_lt firstShort, toNat_ofNat_of_lt secondShort] at numbers
  have bytes := firstNamed.2.symm.trans ((congrArg _ (congrArg _ same)).trans secondNamed.2)
  rw [tlv, tlv] at bytes
  simpa [same] using bytes

section Result

variable {agent : Agent} {stack : Varbinding} {packet : Memory} {vb : Nat} {ids next : List Nat}

theorem nextRight_of_names (named : Names (snmpProcBind agent stack typeGetNextReq (encodeOid ids)
      packet vb) vb (encodeOid next)) (short : (encodeOid next).length < 256) :
    NextRight agent stack packet vb ids ↔ IsNext agent ids next := by
  constructor
  · rintro (⟨other, isNext, otherNamed⟩ | ⟨-, unanswered⟩)
    · rw [← encodeOid_injective (otherNamed.unique named isNext.served.1 short)]
      exact isNext
    · exact absurd unanswered named.1
  · exact fun isNext => Or.inl ⟨next, isNext, named⟩

theorem nextRight_of_zero
    (unanswered : (snmpProcBind agent stack typeGetNextReq (encodeOid ids) packet vb).2 = 0) :
    NextRight agent stack packet vb ids ↔ ∀ other, Served agent other → ¬ ids < other := by
  constructor
  · rintro (⟨other, -, named⟩ | ⟨none, -⟩)
    · exact absurd unanswered named.1
    · exact none
  · exact fun none => Or.inr ⟨none, unanswered⟩

end Result

section Above

variable {agent : Agent} {entries : List Entry} (represents : Represents agent entries)
  (ordered : Ordered entries) {before : List Entry} {entry : Entry} {later : List Entry}
  {ids : List Nat} (split : entries = before ++ entry :: later)
  (compatible : Compatible entry.name ids) (others : ∀ other ∈ before, ¬ Compatible other.name ids)

include represents ordered split compatible others

theorem served_above_iff (other : List Nat) :
    (Served agent other ∧ ids < other) ↔
      (∃ rest, other = entry.name ++ rest ∧ entry.Serves rest ∧ ids < other) ∨
      ∃ next ∈ later, ∃ rest, other = next.name ++ rest ∧ next.Serves rest := by
  rw [served_iff represents ordered]
  subst split
  rw [Ordered, List.pairwise_append, List.pairwise_cons] at ordered
  obtain ⟨-, ⟨behind, -⟩, across⟩ := ordered
  constructor
  · rintro ⟨⟨owner, member, rest, rfl, serves⟩, above⟩
    rw [List.mem_append, List.mem_cons] at member
    rcases member with early | rfl | late
    · obtain ⟨lower, different⟩ := across owner early entry (List.mem_cons_self ..)
      have below := append_lt_of_before lower different compatible (others owner early) rest
      exact absurd above (not_lt_of_gt below)
    · exact Or.inl ⟨rest, rfl, serves, above⟩
    · exact Or.inr ⟨owner, late, rest, rfl, serves⟩
  · rintro (⟨rest, rfl, serves, above⟩ | ⟨next, late, rest, rfl, serves⟩)
    · exact ⟨⟨entry, by simp, rest, rfl, serves⟩, above⟩
    · obtain ⟨lower, different⟩ := behind next late
      exact ⟨⟨next, by simp [late], rest, rfl, serves⟩,
        lt_append_of_after lower different compatible rest⟩

theorem noneServed_iff :
    (∀ other, Served agent other → ¬ ids < other) ↔ entry.NoneAbove ids ∧ Empty later := by
  have above := served_above_iff represents ordered split compatible others
  constructor
  · intro none
    refine ⟨fun rest serves less => ?_, fun next late inhabited => ?_⟩
    · obtain ⟨served, -⟩ := (above _).2 (Or.inl ⟨rest, rfl, serves, less⟩)
      exact none _ served less
    · obtain ⟨served, less⟩ := (above _).2
        (Or.inr ⟨next, late, next.firstRest, rfl, next.serves_firstRest.2 inhabited⟩)
      exact none _ served less
  · rintro ⟨noneAbove, empty⟩ other served less
    rcases (above other).1 ⟨served, less⟩ with ⟨rest, rfl, serves, -⟩ |
      ⟨next, late, rest, -, serves⟩
    · exact noneAbove rest serves less
    · exact empty next late serves.hasInstance

/-- The next instance is in the entry of the identifier. -/
theorem isNext_own {rest : List Nat} (serves : entry.Serves rest) (above : ids < entry.name ++ rest)
    (smallest : ∀ other, entry.Serves other → ids < entry.name ++ other → rest ≤ other) :
    IsNext agent ids (entry.name ++ rest) := by
  have aboveIff := served_above_iff represents ordered split compatible others
  refine ⟨((aboveIff _).2 (Or.inl ⟨rest, rfl, serves, above⟩)).1, above,
    fun other served less => ?_⟩
  rcases (aboveIff other).1 ⟨served, less⟩ with
    ⟨otherRest, rfl, otherServes, -⟩ | ⟨next, late, otherRest, rfl, -⟩
  · rw [← not_lt, append_lt_append_iff, not_lt]
    exact smallest otherRest otherServes less
  · subst split
    obtain ⟨lower, different⟩ :=
      (List.pairwise_cons.1 (List.pairwise_append.1 ordered).2.1).1 next late
    exact le_of_lt (append_lt_append_of_not_compatible different lower rest otherRest)

/-- The next instance is the first one of the next entry when nothing else is in between. -/
theorem isNext_next_iff {next : Entry} {more : List Entry} (starts : later = next :: more)
    (inhabited : next.HasInstance) :
    IsNext agent ids (next.name ++ next.firstRest) ↔ entry.NoneAbove ids := by
  have aboveIff := served_above_iff represents ordered split compatible others
  subst split starts
  rw [Ordered, List.pairwise_append, List.pairwise_cons, List.pairwise_cons] at ordered
  obtain ⟨-, ⟨behind, behindNext, -⟩, -⟩ := ordered
  constructor
  · intro isNext rest serves less
    obtain ⟨lower, different⟩ := behind next (List.mem_cons_self ..)
    have below := append_lt_append_of_not_compatible different lower rest next.firstRest
    have served := ((aboveIff _).2 (Or.inl ⟨rest, rfl, serves, less⟩)).1
    exact absurd (isNext.smallest _ served less) (not_le_of_gt below)
  · intro noneAbove
    obtain ⟨served, above⟩ := (aboveIff _).2
      (Or.inr ⟨next, List.mem_cons_self .., next.firstRest, rfl,
      next.serves_firstRest.2 inhabited⟩)
    refine ⟨served, above, fun other otherServed less => ?_⟩
    rcases (aboveIff other).1 ⟨otherServed, less⟩ with
      ⟨rest, rfl, serves, -⟩ | ⟨owner, late, rest, rfl, serves⟩
    · exact absurd less (noneAbove rest serves)
    · rw [List.mem_cons] at late
      rcases late with rfl | late
      · rw [← not_lt, append_lt_append_iff, not_lt]
        exact Entry.firstRest_le serves
      · obtain ⟨lower, different⟩ := behindNext owner late
        exact le_of_lt (append_lt_append_of_not_compatible different lower _ rest)

end Above

namespace Entry

theorem noneAbove_scalar {entry : Entry} {value : List UInt8} (kind : entry.kind = .scalar value)
    (ids : List Nat) : entry.NoneAbove ids ↔ (entry.HasInstance → ¬ ids < entry.name) := by
  have serves : ∀ rest, entry.Serves rest ↔ rest = [] ∧ entry.HasInstance := by
    intro rest
    simp only [Serves, kind]
  constructor
  · intro noneAbove inhabited
    simpa using noneAbove [] ((serves []).2 ⟨rfl, inhabited⟩)
  · intro notAbove rest served
    obtain ⟨rfl, inhabited⟩ := (serves rest).1 served
    simpa using notAbove inhabited

theorem serves_column {entry : Entry} {count : Nat} {value : UInt8 → List UInt8}
    {sized : ∀ index, 2 ≤ (value index).length ∧ (value index).length ≤ 40}
    (kind : entry.kind = .column count value sized) (rest : List Nat) :
    entry.Serves rest ↔ ∃ index, rest = [index] ∧ index < count ∧ index < 128 := by
  simp only [Serves, kind]

/-- The sub-identifiers of a column above a list. -/
theorem cons_lt_singleton {index other : Nat} {more : List Nat} :
    index :: more < [other] ↔ index < other := by
  rw [List.cons_lt_cons_iff]
  simp

theorem noneAbove_column {entry : Entry} {count : Nat} {value : UInt8 → List UInt8}
    {sized : ∀ index, 2 ≤ (value index).length ∧ (value index).length ≤ 40}
    (kind : entry.kind = .column count value sized) (index : Nat) (more : List Nat) :
    entry.NoneAbove (entry.name ++ index :: more) ↔ ¬ index + 1 < min count 128 := by
  constructor
  · intro noneAbove inside
    have serves : entry.Serves [index + 1] :=
      (serves_column kind _).2 ⟨index + 1, rfl, by omega, by omega⟩
    refine noneAbove _ serves ?_
    rw [append_lt_append_iff, cons_lt_singleton]
    exact Nat.lt_succ_self index
  · intro outside rest serves less
    obtain ⟨other, rfl, bound, small⟩ := (serves_column kind _).1 serves
    rw [append_lt_append_iff, cons_lt_singleton] at less
    omega

end Entry

theorem prefix_of_drop_eq_nil {name ids : List Nat} (compatible : Compatible name ids)
    (empty : ids.drop name.length = []) : ids <+: name := by
  rcases compatible with ⟨rest, rfl⟩ | starts
  · rw [List.drop_left] at empty
    rw [empty, List.append_nil]
  · exact starts

theorem eq_append_of_drop {name ids rest : List Nat} (compatible : Compatible name ids)
    (dropped : ids.drop name.length = rest) (more : rest ≠ []) : ids = name ++ rest := by
  rcases compatible with ⟨other, rfl⟩ | starts
  · rw [List.drop_left] at dropped
    rw [dropped]
  · rw [List.drop_eq_nil_of_le starts.length_le] at dropped
    exact absurd dropped.symm more

theorem prefix_lt_iff_ne {first second : List Nat} (starts : first <+: second) :
    first < second ↔ first ≠ second := by
  obtain ⟨rest, rfl⟩ := starts
  constructor
  · exact ne_of_lt
  · intro different
    apply lt_append_of_ne_nil
    rintro rfl
    exact different (List.append_nil first).symm

/-- The sub-identifier after an index of a column. -/
theorem onelevelNext_index {count index : Nat} (small : index < 128)
    (inside : index + 1 < count % 256) :
    onelevelNext (UInt8.ofNat count) (encodeOid [index]) = [UInt8.ofNat (index + 1)] := by
  have less : ((UInt8.ofNat index).toNat : Int) < (UInt8.ofNat count).toNat - 1 := by
    rw [toNat_ofNat_of_lt (by omega), UInt8.toNat_ofNat']
    omega
  rw [encodeOid_index small, onelevelNext, if_pos less, UInt8.ofNat_add]
  rfl

theorem onelevelNext_exhausted {count index : Nat} {more : List Nat}
    (outside : ¬ (more = [] ∧ index < 128 ∧ index + 1 < count % 256)) :
    onelevelNext (UInt8.ofNat count) (encodeOid (index :: more)) = [] := by
  by_cases long : 128 ≤ index ∨ more ≠ []
  · match encodeOid (index :: more), two_le_encodeOid_length long with
    | _ :: _ :: _, _ => rfl
  · obtain ⟨small, rfl⟩ : index < 128 ∧ more = [] := by
      simpa [not_or, ne_eq] using long
    have notInside : ¬ index + 1 < count % 256 := fun inside => outside ⟨rfl, small, inside⟩
    have notLess : ¬ ((UInt8.ofNat index).toNat : Int) < (UInt8.ofNat count).toNat - 1 := by
      rw [toNat_ofNat_of_lt (by omega), UInt8.toNat_ofNat']
      omega
    rw [encodeOid_index small, onelevelNext, if_neg notLess]

/-- An identifier does not end in a byte with the high bit. -/
theorem encodeOid_ne_append_high (ids : List Nat) (bytes : List UInt8) :
    encodeOid ids ≠ bytes ++ [128] := by
  intro same
  rcases List.eq_nil_or_concat ids with rfl | ⟨initial, last, rfl⟩
  · simp at same
  · rw [List.concat_eq_append, encodeOid_append, encodeOid_cons, encodeOid_nil, List.append_nil,
      encodeId, ← List.append_assoc] at same
    have lastByte := List.append_inj_right' same rfl
    rw [List.singleton_inj] at lastByte
    have number := congrArg UInt8.toNat lastByte
    simp only [UInt8.toNat_ofNat', UInt8.reduceToNat] at number
    omega

section Cases

variable {agent : Agent} {entries : List Entry} (represents : Represents agent entries)
  (ordered : Ordered entries) {before : List Entry} {entry : Entry} {later : List Entry}
  {ids : List Nat} (split : entries = before ++ entry :: later)
  (compatible : Compatible entry.name ids) (others : ∀ other ∈ before, ¬ Compatible other.name ids)

include represents ordered split compatible others

theorem nextRight_silent {stack : Varbinding} {packet : Memory} {vb : Nat}
    (unanswered : (snmpProcBind agent stack typeGetNextReq (encodeOid ids) packet vb).2 = 0) :
    NextRight agent stack packet vb ids ↔ entry.NoneAbove ids ∧ Empty later := by
  rw [nextRight_of_zero unanswered, noneServed_iff represents ordered split compatible others]

variable {stack bind : Varbinding}
  (found : (if encodeOid ids = [] then some (stack, agent.first, agent.more)
    else snmpFindReaction (encodeOid ids) (agent.first :: agent.more)) =
      some (bind, entry.reaction, later.map Entry.reaction))

include found

/-- The agent leaves the entry: the answer is right when nothing is left in the entry and the
next one is not empty. -/
theorem nextRight_exhausted (exhausted : Exhausted bind entry.reaction) (packet : Memory)
    (vb : Nat) :
    NextRight agent stack packet vb ids ↔ entry.NoneAbove ids ∧ FirstHasInstance later := by
  cases later with
  | nil =>
      have unanswered := snmpProcBind_exhausted found exhausted rfl packet vb
      rw [nextRight_silent represents ordered split compatible others unanswered]
      simp [FirstHasInstance, Empty]
  | cons next more =>
      have landed := snmpProcBind_landed found (lands_next exhausted next _) next.firstRest_short
        packet vb
      rw [next.serves_firstRest] at landed
      have nameShort := next.short
      have restShort := next.firstRest_short
      by_cases inhabited : next.HasInstance
      · have short : (encodeOid (next.name ++ next.firstRest)).length < 256 := by
          rw [encodeOid_append, List.length_append]
          omega
        rw [nextRight_of_names (landed.1 inhabited) short,
          isNext_next_iff represents ordered split compatible others rfl inhabited]
        simp [FirstHasInstance, inhabited]
      · rw [nextRight_silent represents ordered split compatible others (landed.2 inhabited)]
        simp [FirstHasInstance, inhabited]

/-- The agent answers with an instance of the entry. -/
theorem nextRight_landed {rest : List Nat}
    (lands : Lands bind entry.reaction (later.map Entry.reaction) entry.reaction (encodeOid rest))
    (restShort : (encodeOid rest).length ≤ 1) (serves : entry.Serves rest)
    (above : ids < entry.name ++ rest)
    (smallest : ∀ other, entry.Serves other → ids < entry.name ++ other → rest ≤ other)
    (packet : Memory) (vb : Nat) : NextRight agent stack packet vb ids := by
  have nameShort := entry.short
  have short : (encodeOid (entry.name ++ rest)).length < 256 := by
    rw [encodeOid_append, List.length_append]
    omega
  rw [nextRight_of_names ((snmpProcBind_landed found lands restShort packet vb).1 serves) short]
  exact isNext_own represents ordered split compatible others serves above smallest

theorem nextRight_scalar {value : List UInt8} (kind : entry.kind = .scalar value)
    (short : (encodeOid ids).length < 256)
    (binding : bind = ⟨UInt8.ofNat (encodeOid entry.name).length,
      encodeOid (ids.drop entry.name.length)⟩) (packet : Memory) (vb : Nat) :
    NextRight agent stack packet vb ids ↔ entry.NextHolds later ids := by
  unfold Entry.NextHolds
  rw [kind]
  cases dropped : ids.drop entry.name.length with
  | nil =>
      have exhausted : Exhausted bind entry.reaction := by
        rw [binding, dropped, Exhausted, Entry.reaction, kind]
        rfl
      rw [nextRight_exhausted represents ordered split compatible others found exhausted,
        Entry.noneAbove_scalar kind, prefix_lt_iff_ne (prefix_of_drop_eq_nil compatible dropped),
        not_not, imp_iff_or_not]
  | cons index more =>
      have extended := eq_append_of_drop compatible dropped (List.cons_ne_nil _ _)
      have someLen : bind.len ≠ 0 := by
        have total := congrArg (fun list => (encodeOid list).length) extended
        simp only [encodeOid_append, List.length_append] at total
        have positive : 0 < (encodeOid (index :: more)).length := by
          rw [List.length_pos_iff, ne_eq, encodeOid_eq_nil]
          exact List.cons_ne_nil _ _
        intro zero
        rw [binding, dropped] at zero
        have number := congrArg UInt8.toNat zero
        rw [Varbinding.len, toNat_ofNat_of_lt (by dsimp only; omega)] at number
        simp only [UInt8.reduceToNat] at number
        omega
      have noneAbove : entry.NoneAbove ids := by
        rw [Entry.noneAbove_scalar kind, extended]
        exact fun _ => not_lt_of_ge (le_append _ _)
      rw [nextRight_silent represents ordered split compatible others
        (snmpProcBind_scalar found kind rfl someLen packet vb)]
      exact and_iff_right noneAbove

section Column

variable {count : Nat} {value : UInt8 → List UInt8}
  {sized : ∀ index, 2 ≤ (value index).length ∧ (value index).length ≤ 40}
  (kind : entry.kind = .column count value sized)

include kind

/-- An identifier that does not go behind the name of the column. -/
theorem nextRight_column_nil (dropped : ids.drop entry.name.length = [])
    (binding : bind = ⟨UInt8.ofNat (encodeOid entry.name).length, []⟩)
    (packet : Memory) (vb : Nat) :
    NextRight agent stack packet vb ids ↔ 0 < count ∨ Empty later := by
  have lands : Lands bind entry.reaction (later.map Entry.reaction) entry.reaction
      (encodeOid [0]) := by
    rw [binding, encodeOid_index (by omega)]
    exact lands_column kind rfl _
  have restShort : (encodeOid [0]).length ≤ 1 := by
    rw [encodeOid_index (by omega)]
    rfl
  obtain ⟨rest, name⟩ := prefix_of_drop_eq_nil compatible dropped
  by_cases inhabited : 0 < count
  · have above : ids < entry.name ++ [0] := by
      rw [← name, List.append_assoc]
      exact lt_append_of_ne_nil _ (by simp)
    have serves : entry.Serves [0] := (Entry.serves_column kind _).2 ⟨0, rfl, inhabited, by omega⟩
    have first : entry.firstRest = [0] := by
      rw [Entry.firstRest, kind]
    simp only [inhabited, true_or, iff_true]
    refine nextRight_landed represents ordered split compatible others found lands restShort serves
      above (fun other otherServes _ => ?_) packet vb
    rw [← first]
    exact Entry.firstRest_le otherServes
  · have unserved : ∀ other, ¬ entry.Serves other := by
      intro other serves
      obtain ⟨index, -, bound, -⟩ := (Entry.serves_column kind _).1 serves
      omega
    have noneAbove : entry.NoneAbove ids := fun other serves => absurd serves (unserved other)
    rw [nextRight_silent represents ordered split compatible others
      ((snmpProcBind_landed found lands restShort packet vb).2 (unserved _))]
    simp only [inhabited, false_or, noneAbove, true_and]

omit represents ordered split compatible others in
/-- The sub-identifier 128 is answered with a byte that is no encoding. -/
theorem not_nextRight_high (binding : bind = ⟨UInt8.ofNat (encodeOid entry.name).length,
      encodeOid [127]⟩) (inside : 128 < count % 256) (packet : Memory) (vb : Nat) :
    ¬ NextRight agent stack packet vb ids := by
  have nameShort := entry.short
  have lands : Lands bind entry.reaction (later.map Entry.reaction) entry.reaction [128] := by
    rw [binding]
    exact lands_column kind (onelevelNext_index (by omega) (by omega)) _
  have valued : entry.reaction.cb [128] = value 128 := by
    have inRange : ¬ count ≤ (128 : UInt8).toNat := by
      simp only [UInt8.reduceToNat]
      omega
    rw [Entry.reaction, kind]
    simp only [columnReaction, if_neg inRange]
  have named := (snmpProcBind_of_lands found lands
    (by rw [entry.reaction_objName]; simp; omega) packet vb).1 (by
      rw [valued, entry.reaction_objName]
      exact finishAnswer_isSome (by simp; omega) (sized 128))
  rintro (⟨next, isNext, nextNamed⟩ | ⟨-, unanswered⟩)
  · have same := nextNamed.unique named isNext.served.1 (by
      rw [entry.reaction_objName]; simp; omega)
    exact encodeOid_ne_append_high _ _ same
  · exact named.1 unanswered

theorem nextRight_column (binding : bind = ⟨UInt8.ofNat (encodeOid entry.name).length,
      encodeOid (ids.drop entry.name.length)⟩) (packet : Memory) (vb : Nat) :
    NextRight agent stack packet vb ids ↔ entry.NextHolds later ids := by
  unfold Entry.NextHolds
  rw [kind]
  cases dropped : ids.drop entry.name.length with
  | nil =>
      rw [dropped] at binding
      exact nextRight_column_nil represents ordered split compatible others found kind dropped
        binding packet vb
  | cons index more =>
      rw [dropped] at binding
      have extended := eq_append_of_drop compatible dropped (List.cons_ne_nil _ _)
      simp only
      split_ifs with step
      · obtain ⟨rfl, small, inside⟩ := step
        by_cases high : index + 1 < 128
        · have restOid : encodeOid [index + 1] = [UInt8.ofNat (index + 1)] := encodeOid_index high
          have lands : Lands bind entry.reaction (later.map Entry.reaction) entry.reaction
              (encodeOid [index + 1]) := by
            rw [binding, restOid]
            exact lands_column kind (onelevelNext_index small inside) _
          have countLe : count % 256 ≤ count := Nat.mod_le _ _
          have above : ids < entry.name ++ [index + 1] := by
            rw [extended, append_lt_append_iff, Entry.cons_lt_singleton]
            exact Nat.lt_succ_self index
          simp only [high, iff_true]
          refine nextRight_landed represents ordered split compatible others found lands
            (by rw [restOid]; rfl)
            ((Entry.serves_column kind _).2 ⟨index + 1, rfl, by omega, high⟩)
            above (fun other serves less => ?_) packet vb
          obtain ⟨otherIndex, rfl, -, -⟩ := (Entry.serves_column kind _).1 serves
          rw [extended, append_lt_append_iff, Entry.cons_lt_singleton] at less
          rw [← not_lt, Entry.cons_lt_singleton]
          omega
        · obtain rfl : index = 127 := by omega
          simp only [high, iff_false]
          exact not_nextRight_high found kind binding inside packet vb
      · have exhausted : Exhausted bind entry.reaction := by
          rw [binding, Exhausted, Entry.reaction, kind]
          exact onelevelNext_exhausted step
        rw [nextRight_exhausted represents ordered split compatible others found exhausted,
          extended, Entry.noneAbove_column kind]

end Column

end Cases

section All

variable {agent : Agent} {entries : List Entry} (represents : Represents agent entries)
  (ordered : Ordered entries) {stack : Varbinding} {ids : List Nat}

include represents ordered

/-- An identifier that belongs to no entry is not answered. -/
theorem nextRight_unknown (someIds : ids ≠ []) (short : (encodeOid ids).length < 256)
    (unknown : findEntry ids entries = none) (packet : Memory) (vb : Nat) :
    NextRight agent stack packet vb ids ↔
      ∀ entry ∈ entries, entry.HasInstance → ¬ ids < entry.name := by
  have unanswered : (snmpProcBind agent stack typeGetNextReq (encodeOid ids) packet vb).2 = 0 := by
    by_contra answered
    rw [← ne_eq, snmpProcBind_ne_zero_iff] at answered
    have missing := snmpFindReaction_entries short entries
    rw [← represents, unknown, Option.map_none] at missing
    simp [bindingAnswer, selectAnswer, someIds, missing] at answered
  have order : ∀ entry ∈ entries, ∀ rest, ids < entry.name ++ rest ↔ ids < entry.name := by
    intro entry member rest
    have different := findEntry_none unknown entry member
    constructor
    · intro above
      rcases lt_trichotomy ids entry.name with below | rfl | greater
      · exact below
      · exact absurd (Or.inl List.prefix_rfl) different
      · have contradiction := append_lt_append_of_not_compatible different greater rest []
        rw [List.append_nil] at contradiction
        exact absurd above (not_lt_of_gt contradiction)
    · exact fun below => lt_of_lt_of_le below (le_append _ _)
  rw [nextRight_of_zero unanswered]
  simp only [served_iff represents ordered]
  constructor
  · intro none entry member inhabited below
    refine none _ ⟨entry, member, entry.firstRest, rfl, entry.serves_firstRest.2 inhabited⟩ ?_
    exact (order entry member _).2 below
  · rintro none other ⟨entry, member, rest, rfl, serves⟩ above
    exact none entry member serves.hasInstance ((order entry member rest).1 above)

/-- The identifier without sub-identifiers.  The first entry is taken with whatever length is on
the stack. -/
theorem nextRight_nil {first : Entry} {later : List Entry} {value : List UInt8}
    (starts : entries = first :: later) (kind : first.kind = .scalar value)
    (named : first.name ≠ []) (packet : Memory) (vb : Nat) :
    NextRight agent stack packet vb [] ↔ NextHolds entries stack [] := by
  have compatible : Compatible first.name [] := Or.inr List.nil_prefix
  have split : entries = [] ++ first :: later := starts
  have found : (if encodeOid [] = [] then some (stack, agent.first, agent.more)
      else snmpFindReaction (encodeOid []) (agent.first :: agent.more)) =
        some (stack, first.reaction, later.map Entry.reaction) := by
    unfold Represents at represents
    rw [starts, List.map_cons, List.cons.injEq] at represents
    rw [if_pos encodeOid_nil, represents.1, represents.2]
  have below : [] < first.name := by
    rw [prefix_lt_iff_ne List.nil_prefix]
    exact named.symm
  have noneAbove : first.NoneAbove [] ↔ ¬ first.HasInstance := by
    rw [Entry.noneAbove_scalar kind]
    simp only [below, not_true_eq_false]
  unfold NextHolds
  rw [if_pos rfl, starts]
  split_ifs with zero
  · have exhausted : Exhausted stack first.reaction := by
      rw [Exhausted, Entry.reaction, kind]
      exact zero
    rw [nextRight_exhausted represents ordered split compatible (by simp) found exhausted,
      noneAbove]
    simp
  · rw [nextRight_silent represents ordered split compatible (by simp)
      (snmpProcBind_scalar found kind rfl zero packet vb), noneAbove]
    simp [Empty]

theorem nextRight_iff_nextHolds {first : Entry} {later : List Entry} {value : List UInt8}
    (starts : entries = first :: later) (kind : first.kind = .scalar value)
    (named : first.name ≠ []) (short : (encodeOid ids).length < 256) (packet : Memory) (vb : Nat) :
    NextRight agent stack packet vb ids ↔ NextHolds entries stack ids := by
  by_cases someIds : ids = []
  · rw [someIds]
    exact nextRight_nil represents ordered starts kind named packet vb
  · rw [NextHolds, if_neg someIds]
    cases search : findEntry ids entries with
    | none => exact nextRight_unknown represents ordered someIds short search packet vb
    | some result =>
        obtain ⟨entry, behind⟩ := result
        obtain ⟨before, split, compatible, others⟩ := findEntry_some search
        have found : (if encodeOid ids = [] then some (stack, agent.first, agent.more)
            else snmpFindReaction (encodeOid ids) (agent.first :: agent.more)) =
              some (⟨UInt8.ofNat (encodeOid entry.name).length,
                encodeOid (ids.drop entry.name.length)⟩, entry.reaction,
                behind.map Entry.reaction) := by
          rw [if_neg (by rwa [encodeOid_eq_nil]), represents,
            snmpFindReaction_entries short, search]
          rfl
        cases entryKind : entry.kind with
        | scalar entryValue =>
            exact nextRight_scalar represents ordered split compatible others found entryKind short
              rfl packet vb
        | column count values sized =>
            exact nextRight_column represents ordered split compatible others found entryKind rfl
              packet vb

end All

end Ethersex.Snmp
