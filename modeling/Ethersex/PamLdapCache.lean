import Ethersex.GuardedRuns
import Ethersex.PamLdapBinds
import Mathlib.Data.List.TakeWhile

/-!
# The LDAP authentication cache

A success from the cache stands for a bind that the server has accepted a few ticks ago.  The
entries are filled from fields of 16 bytes and compared over 16 bytes, so this holds for strings
that fit with their zero byte; and it rests on every answer belonging to the pending request.
-/

namespace Ethersex.PamLdap

open Ecmd (pamUnknown pamPending pamDenied pamSuccess)
open GuardedRuns

/-- The string at a pointer. -/
def cText (text : List UInt8) : List UInt8 := text.takeWhile fun byte => byte != 0

/-- What `sprintf` reads from a field: a full one has no zero byte, and the text goes on behind
it. -/
def fieldText (field behind : List UInt8) : List UInt8 :=
  if field.length < credentialSize then field else field ++ behind

/-- A bind the server has accepted, with the credentials it has seen and the tick count then. -/
structure Acceptance where
  username : List UInt8
  password : List UInt8
  tick : Nat
deriving DecidableEq, Repr

/-- In `struct ldap_auth_connection_state_t` the password stands behind the user name. -/
def WireBind.acceptance (bind : WireBind) (behind : List UInt8) (tick : Nat) : Acceptance where
  username := fieldText bind.username (fieldText bind.password behind)
  password := fieldText bind.password behind
  tick := tick

/-- A step, whether an answer in it accepts the bind, and the bytes behind the password field when
that bind was sent. -/
structure LdapAction where
  step : LdapStep
  accepts : Bool := false
  behind : List UInt8 := []
deriving DecidableEq, Repr

/-- The system with the ticks that have passed and the binds that have been accepted. -/
structure Ledger where
  system : LdapSystem
  ticks : Nat
  accepted : List Acceptance

def LdapAction.ticks (action : LdapAction) : Nat :=
  match action.step with
  | .periodic _ => 1
  | _ => 0

def LdapAction.accepted (ledger : Ledger) (action : LdapAction) : List Acceptance :=
  match action.step with
  | .callback connection event =>
      if event.newdata.isSome ∧ action.accepts then
        ((ledger.system.wires connection).head?.map
          (·.acceptance action.behind ledger.ticks)).toList
      else []
  | _ => []

def ledgerStep (ledger : Ledger) (action : LdapAction) : Option Ledger :=
  (ldapStep ledger.system action.step).map fun system =>
    ⟨system, ledger.ticks + action.ticks, ledger.accepted ++ action.accepted ledger⟩

def startLedger (stale : Option LdapState) : Ledger := ⟨pamLdapInit powerOn stale, 0, []⟩

/-- The condition on a step, in the state before it: callbacks are those the code can handle and
an answer with a zero at the place of the result code is an acceptance; credentials found in the
cache are shorter than the fields. -/
def LdapStep.Orderly (system : LdapSystem) (accepts : Bool) : LdapStep → Prop
  | .callback connection event =>
      SafeCallback system connection event ∧
        (event.newdata.any (fun data => data.1 == 0) = true → accepts = true)
  | .submit _ username password _ =>
      cacheHit system.cache username password = true →
        (cText username).length < credentialSize ∧ (cText password).length < credentialSize
  | _ => True

instance (system : LdapSystem) (accepts : Bool) :
    ∀ step : LdapStep, Decidable (step.Orderly system accepts)
  | .openSlot _ => inferInstanceAs (Decidable True)
  | .closeSlot _ => inferInstanceAs (Decidable True)
  | .submit _ _ _ _ => inferInstanceAs (Decidable (_ → _ ∧ _))
  | .periodic _ => inferInstanceAs (Decidable True)
  | .callback _ _ => inferInstanceAs (Decidable (_ ∧ (_ → _)))

def LdapAction.Allowed (ledger : Ledger) (action : LdapAction) : Prop :=
  action.step.Legal ledger.system ∧ action.step.Orderly ledger.system action.accepts

instance (ledger : Ledger) (action : LdapAction) : Decidable (action.Allowed ledger) :=
  inferInstanceAs (Decidable (_ ∧ _))

/-- The text fits into a field and has no zero byte. -/
def IsField (text : List UInt8) : Prop := strncpy text = text

theorem isField_strncpy (text : List UInt8) : IsField (strncpy text) := by
  have nonzero : ∀ byte ∈ strncpy text, (byte != 0) = true := by
    intro byte member
    have inside : byte ∈ text.takeWhile fun byte => byte != 0 := List.mem_of_mem_take member
    have imp := List.mem_takeWhile_imp inside
    exact imp
  rw [IsField]
  conv_lhs => rw [strncpy, List.takeWhile_eq_self_iff.2 nonzero]
  exact List.take_of_length_le (List.length_take_le _ _)

theorem strncpy_of_short {text : List UInt8} (short : (cText text).length < credentialSize) :
    strncpy text = cText text :=
  List.take_of_length_le (Nat.le_of_lt short)

theorem IsField.eq_of_sameText {field text : List UInt8} (isField : IsField field)
    (same : sameText field text = true) (short : (cText text).length < credentialSize) :
    field = cText text := by
  have copies : strncpy field = strncpy text := beq_iff_eq.1 same
  rw [isField, strncpy_of_short short] at copies
  exact copies

/-- The entry was filled from an accepted bind, and its time-out counts the ticks since. -/
structure Backed (ticks : Nat) (accepted : List Acceptance) (entry : CacheEntry) : Prop where
  isField : IsField entry.username ∧ IsField entry.password
  accepted : ∃ acceptance ∈ accepted,
    (entry.username.length < credentialSize → entry.password.length < credentialSize →
      acceptance.username = entry.username ∧ acceptance.password = entry.password) ∧
    ticks + entry.timeout.toNat ≤ acceptance.tick + cacheTime.toNat

structure Cached (ledger : Ledger) : Prop where
  exclusive : Exclusive ledger.system
  fields : ∀ connection, ledger.system.ldapAuthConn = some connection →
    (ledger.system.states connection).pending = true →
      IsField (ledger.system.states connection).username ∧
        IsField (ledger.system.states connection).password
  backed : ∀ entry ∈ ledger.system.cache, entry.timeout ≠ 0 →
    Backed ledger.ticks ledger.accepted entry

variable {ledger : Ledger} {next : LdapSystem}

theorem Backed.append {ticks : Nat} {accepted : List Acceptance} {entry : CacheEntry}
    (backed : Backed ticks accepted entry) (more : List Acceptance) :
    Backed ticks (accepted ++ more) entry := by
  obtain ⟨isField, acceptance, member, same, recent⟩ := backed
  exact ⟨isField, acceptance, List.mem_append_left _ member, same, recent⟩

/-- A step without a tick, after which nothing new is pending and nothing new is cached. -/
theorem Cached.of_kept (cached : Cached ledger) (exclusive : Exclusive next)
    (kept : Kept ledger.system next) (more : List Acceptance) :
    Cached ⟨next, ledger.ticks, ledger.accepted ++ more⟩ := by
  refine ⟨exclusive, fun connection isCurrent pending => ?_, fun entry member timeout => ?_⟩
  · obtain ⟨current, pendingBefore, -, -, username, password⟩ :=
      kept.request connection isCurrent pending
    rw [username, password]
    exact cached.fields connection current pendingBefore
  · rw [kept.cache] at member
    exact (cached.backed entry member timeout).append more

theorem Backed.acceptance (ticks : Nat) (accepted : List Acceptance) (bind : WireBind)
    (behind : List UInt8) (username : IsField bind.username) (password : IsField bind.password) :
    Backed ticks (accepted ++ [bind.acceptance behind ticks])
      ⟨strncpy bind.username, strncpy bind.password, cacheTime⟩ := by
  refine ⟨⟨isField_strncpy _, isField_strncpy _⟩, bind.acceptance behind ticks,
    List.mem_append_right _ (List.mem_singleton_self _), ?_, Nat.le_refl _⟩
  dsimp only
  rw [username, password]
  intro shortName shortPassword
  exact ⟨if_pos shortName, if_pos shortPassword⟩

/-- An answer fills an entry only when it accepts the pending request. -/
theorem Cached.of_answered (cached : Cached ledger) (exclusive : Exclusive next)
    {connection : ConnId} {code : UInt8} {bind : WireBind} {slot : Slot}
    (answered : Answered ledger.system next connection code bind slot) (behind : List UInt8)
    (accepts : Bool) (honest : code = 0 → accepts = true) :
    Cached ⟨next, ledger.ticks, ledger.accepted ++
      if accepts then [bind.acceptance behind ledger.ticks] else []⟩ := by
  obtain ⟨username, password⟩ := cached.fields connection answered.current answered.pending
  rw [← answered.carries.1] at username
  rw [← answered.carries.2.1] at password
  refine ⟨exclusive, fun other isCurrent pending => ?_, fun entry member timeout => ?_⟩
  · rw [answered.idle other isCurrent] at pending
    cases pending
  · dsimp only at member
    rw [answered.cache] at member
    by_cases success : code = 0
    · rw [if_pos success] at member
      rcases List.mem_or_eq_of_mem_set member with before | rfl
      · exact (cached.backed entry before timeout).append _
      · rw [honest success]
        exact Backed.acceptance ledger.ticks ledger.accepted bind behind username password
    · rw [if_neg success] at member
      exact (cached.backed entry member timeout).append _

/-- A tick takes one from every time-out that is not zero. -/
theorem Cached.tick (cached : Cached ledger) :
    Cached ⟨{ ledger.system with cache := ageCache ledger.system.cache }, ledger.ticks + 1,
      ledger.accepted⟩ := by
  have exclusive := cached.exclusive
  refine ⟨⟨exclusive.current, exclusive.quiet, exclusive.pointed, exclusive.single⟩,
    cached.fields, ?_⟩
  intro entry member timeout
  obtain ⟨before, beforeMem, rfl⟩ := List.mem_map.1 member
  split_ifs at timeout ⊢ with running
  · obtain ⟨isField, acceptance, accepted, same, recent⟩ := cached.backed before beforeMem running
    have positive : before.timeout.toNat ≠ 0 := fun zero => running (UInt8.toNat_inj.1 zero)
    have decremented : (before.timeout - 1).toNat = before.timeout.toNat - 1 := by
      rw [UInt8.toNat_sub_of_le]
      · rfl
      · exact UInt8.le_iff_toNat_le.2 (Nat.pos_of_ne_zero positive)
    refine ⟨isField, acceptance, accepted, same, ?_⟩
    dsimp only
    rw [decremented]
    omega
  · exact absurd timeout running

/-- A new request holds copies of its strings. -/
theorem Cached.requestBind (cached : Cached ledger) (slot : Slot) (username password : List UInt8) :
    Cached { ledger with system := requestBind ledger.system slot username password } := by
  have exclusive := cached.exclusive.requestBind slot username password
  have denied : Cached { ledger with system := ledger.system.setPamState slot pamDenied } :=
    ⟨cached.exclusive.setPamState slot pamDenied, cached.fields, cached.backed⟩
  rw [PamLdap.requestBind] at exclusive ⊢
  split at exclusive
  · exact denied
  next connection isCurrent =>
    by_cases busy : (ledger.system.states connection).pending = true
    · rw [if_pos busy]
      exact denied
    · rw [if_neg busy] at exclusive ⊢
      refine ⟨exclusive, fun other nowCurrent pending => ?_, cached.backed⟩
      by_cases same : other = connection
      · subst same
        simp only [acceptRequest, Function.update_self]
        exact ⟨isField_strncpy _, isField_strncpy _⟩
      · simp only [acceptRequest, Function.update_of_ne same] at pending ⊢
        exact cached.fields other nowCurrent pending

theorem Cached.initIfNeeded (cached : Cached ledger) (stale : Option LdapState) :
    Cached { ledger with system := initIfNeeded ledger.system stale } := by
  have started := cached.of_kept (cached.exclusive.initIfNeeded stale)
    (initIfNeeded_kept ledger.system stale) []
  rw [List.append_nil] at started
  exact started

theorem Cached.pamAuth (cached : Cached ledger) (slot : Slot) (username password : List UInt8)
    (stale : Option LdapState) :
    Cached { ledger with system := pamAuth ledger.system slot username password stale } := by
  have started := cached.initIfNeeded stale
  rw [PamLdap.pamAuth]
  split_ifs
  · exact ⟨started.exclusive.setPamState slot pamSuccess, started.fields, started.backed⟩
  · exact started.requestBind slot username password

/-- Every step that the condition allows has a result and keeps the cache sound. -/
theorem ledgerStep_cached (ledger : Ledger) (action : LdapAction) (cached : Cached ledger)
    (allowed : action.Allowed ledger) :
    ∃ next, ledgerStep ledger action = some next ∧ Cached next := by
  obtain ⟨step, accepts, behind⟩ := action
  obtain ⟨legal, orderly⟩ := allowed
  have exclusive := cached.exclusive
  cases step with
  | openSlot slot =>
      refine ⟨_, rfl, ?_⟩
      rw [LdapAction.accepted, List.append_nil]
      exact ⟨exclusive.openSlot slot, cached.fields, cached.backed⟩
  | closeSlot slot =>
      refine ⟨_, rfl, ?_⟩
      rw [LdapAction.accepted, List.append_nil]
      exact ⟨⟨exclusive.current, exclusive.quiet, exclusive.pointed, exclusive.single⟩,
        cached.fields, cached.backed⟩
  | submit slot username password stale =>
      refine ⟨_, rfl, ?_⟩
      rw [LdapAction.accepted, List.append_nil]
      exact cached.pamAuth slot username password stale
  | periodic stale =>
      refine ⟨_, rfl, ?_⟩
      rw [LdapAction.accepted, List.append_nil]
      exact (cached.initIfNeeded stale).tick
  | callback connection event =>
      obtain ⟨next, stepped, nextExclusive, effect⟩ := exclusive.callback legal orderly.1
      refine ⟨_, by rw [ledgerStep, stepped, Option.map_some], ?_⟩
      rcases effect with ⟨noData, kept⟩ | ⟨code, last, bind, slot, arrived, answered⟩
      · exact cached.of_kept nextExclusive kept _
      · have honest : code = 0 → accepts = true := by
          intro success
          apply orderly.2
          rw [arrived, success]
          rfl
        have entered := cached.of_answered nextExclusive answered behind accepts honest
        have recorded : LdapAction.accepted ledger ⟨.callback connection event, accepts, behind⟩ =
            if accepts then [bind.acceptance behind ledger.ticks] else [] := by
          simp only [LdapAction.accepted, arrived, Option.isSome_some, true_and, answered.onWire]
          rfl
        rw [recorded]
        exact entered

theorem cached_startLedger (stale : Option LdapState) : Cached (startLedger stale) := by
  have empty : ∀ entry ∈ powerOn.cache, entry.timeout = 0 := by decide
  have started : Cached ⟨powerOn, 0, []⟩ :=
    ⟨exclusive_powerOn, fun _ isCurrent => (by cases isCurrent),
      fun entry member timeout => absurd (empty entry member) timeout⟩
  exact started.initIfNeeded stale

/-- A success from the cache, for credentials that fit into the fields. -/
theorem Cached.acceptance_of_hit (cached : Cached ledger) {username password : List UInt8}
    (hit : cacheHit ledger.system.cache username password = true)
    (shortName : (cText username).length < credentialSize)
    (shortPassword : (cText password).length < credentialSize) :
    ∃ acceptance ∈ ledger.accepted, acceptance.username = cText username ∧
      acceptance.password = cText password ∧ ledger.ticks ≤ acceptance.tick + cacheTime.toNat := by
  obtain ⟨entry, member, found⟩ := List.any_eq_true.1 hit
  rw [Bool.and_eq_true, Bool.and_eq_true, bne_iff_ne] at found
  obtain ⟨⟨sameName, samePassword⟩, running⟩ := found
  obtain ⟨isField, acceptance, accepted, same, recent⟩ := cached.backed entry member running
  have name := isField.1.eq_of_sameText sameName shortName
  have secret := isField.2.eq_of_sameText samePassword shortPassword
  rw [name, secret] at same
  obtain ⟨acceptedName, acceptedPassword⟩ := same shortName shortPassword
  exact ⟨acceptance, accepted, acceptedName, acceptedPassword, by omega⟩

/-- `pam_auth` reports success at once only from the cache. -/
theorem cacheHit_of_success {system : LdapSystem} {slot : Slot} {username password : List UInt8}
    {stale : Option LdapState}
    (success : (pamAuth system slot username password stale).pamState slot = pamSuccess) :
    cacheHit system.cache username password = true := by
  have same : (initIfNeeded system stale).cache = system.cache :=
    (initIfNeeded_kept system stale).cache
  rw [pamAuth, same] at success
  by_contra miss
  rw [if_neg miss, requestBind] at success
  split at success
  · simp [LdapSystem.setPamState, pamDenied, pamSuccess] at success
  · split_ifs at success
    · simp [LdapSystem.setPamState, pamDenied, pamSuccess] at success
    · simp [acceptRequest, LdapSystem.setPamState, pamPending, pamSuccess] at success

/-- Along every run of requests, answers and ticks whose steps meet the condition, `pam_auth`
reports
success at once only for a user name and a password that the server has accepted within the
last `CACHE_TIME` ticks. -/
theorem cache_success_accepted (start : Option LdapState) (actions : List LdapAction)
    (allowed : Guarded ledgerStep (fun ledger action => action.Allowed ledger) (startLedger start)
      actions)
    (before after : List LdapAction) (slot : Slot) (username password : List UInt8)
    (stale : Option LdapState) (accepts : Bool) (behind : List UInt8)
    (split : actions = before ++ ⟨.submit slot username password stale, accepts, behind⟩ :: after) :
    ∃ ledger, run ledgerStep (startLedger start) before = some ledger ∧
      ((pamAuth ledger.system slot username password stale).pamState slot = pamSuccess →
        ∃ acceptance ∈ ledger.accepted, acceptance.username = cText username ∧
          acceptance.password = cText password ∧
          ledger.ticks ≤ acceptance.tick + cacheTime.toNat) := by
  rw [split] at allowed
  obtain ⟨ledger, reached, cached⟩ :=
    allowed.of_append.exists_run ledgerStep_cached (cached_startLedger start)
  refine ⟨ledger, reached, fun success => ?_⟩
  have hit := cacheHit_of_success success
  obtain ⟨shortName, shortPassword⟩ := (allowed.drop reached).1.2 hit
  exact cached.acceptance_of_hit hit shortName shortPassword

def ownState : LdapState := ⟨true, 7, [], [], some 2, 0⟩

/-- A request with the given credentials and its accepted bind. -/
def acceptedDialogue (slot : Slot) (username password : List UInt8) : List LdapAction :=
  [⟨.openSlot slot, false, []⟩, ⟨.submit slot username password none, false, []⟩,
    ⟨.callback 0 { poll := true }, false, []⟩,
    ⟨.callback 0 { acked := true, newdata := some (0, true) }, true, []⟩]

/-- The same credentials twice, with a tick in between. -/
def repeatedLogin : List LdapAction :=
  acceptedDialogue 0 [97] [112] ++ [⟨.periodic none, false, []⟩, ⟨.openSlot 1, false, []⟩,
    ⟨.submit 1 [97] [112] none, false, []⟩]

theorem cache_success_repeatedLogin :
    ∃ ledger, run ledgerStep (startLedger (some ownState)) (repeatedLogin.take 6) = some ledger ∧
      ((pamAuth ledger.system 1 [97] [112] none).pamState 1 = pamSuccess →
        ∃ acceptance ∈ ledger.accepted, acceptance.username = cText [97] ∧
          acceptance.password = cText [112] ∧
          ledger.ticks ≤ acceptance.tick + cacheTime.toNat) :=
  cache_success_accepted (some ownState) repeatedLogin (by decide +kernel)
    (repeatedLogin.take 6) [] 1
    [97] [112] none false [] (by decide)

/-- `"abcdefghijklmnop"` -/
def longName : List UInt8 := [97, 98, 99, 100, 101, 102, 103, 104, 105, 106, 107, 108, 109,
    110, 111, 112]

/-- Behind a full user name the bind goes on with the password, so the server sees and accepts the
user
`"abcdefghijklmnopq"` with the password `"q"`. -/
def longLogin : List LdapAction :=
  acceptedDialogue 0 (longName ++ [113]) [113] ++ [⟨.openSlot 1, false, []⟩]

/-- Another user with the same first 16 bytes is let in from the cache. -/
theorem cache_success_truncated :
    ∃ ledger, Guarded ledgerStep (fun ledger action => action.Allowed ledger)
        (startLedger (some ownState)) longLogin ∧
      run ledgerStep (startLedger (some ownState)) longLogin = some ledger ∧
      ledger.accepted = [⟨longName ++ [113], [113], 0⟩] ∧
      (pamAuth ledger.system 1 (longName ++ [122]) [113] none).pamState 1 = pamSuccess ∧
      ¬ ∃ acceptance ∈ ledger.accepted, acceptance.username = cText (longName ++ [122]) ∧
        acceptance.password = cText [113] := by
  have allowed : Guarded ledgerStep (fun ledger action => action.Allowed ledger)
      (startLedger (some ownState)) longLogin := by
    decide +kernel
  have ended : (run ledgerStep (startLedger (some ownState)) longLogin).map (fun ledger =>
      (ledger.accepted, (pamAuth ledger.system 1 (longName ++ [122]) [113] none).pamState 1)) =
        some ([⟨longName ++ [113], [113], 0⟩], pamSuccess) := by
    decide +kernel
  obtain ⟨ledger, reached, view⟩ := Option.map_eq_some_iff.mp ended
  obtain ⟨accepted, success⟩ := Prod.mk.inj view
  refine ⟨ledger, allowed, reached, accepted, success, ?_⟩
  rw [accepted]
  decide

end Ethersex.PamLdap
