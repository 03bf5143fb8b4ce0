import Ethersex.GuardedRuns
import Ethersex.PamLdapBinds

/-!
# Attribution of LDAP results

A bind result belongs to the connection instance whose credentials were sent.
The code keeps a pointer into the slot of that connection and one pending flag,
so the result can reach a stranger: the slot is reused before the answer, a
second bind goes out while the first is unanswered, an answer arrives in
pieces, or a late callback of an old LDAP connection takes away the new one.
Apart from these events every result reaches its submitter.
-/

namespace Ethersex.PamLdap

open Ecmd (pamUnknown pamPending pamDenied pamSuccess)
open GuardedRuns

/-- The events that the code does not handle, ruled out in the state before
the step. -/
def LdapStep.Safe (system : LdapSystem) : LdapStep → Prop
  | .openSlot slot =>
      ∀ current ∈ system.ldapAuthConn, (system.states current).pending = true →
        (system.states current).authState ≠ some slot
  | .callback connection event =>
      (event.poll = true → ∀ current ∈ system.ldapAuthConn,
        (system.states current).pending = true → system.wires connection = []) ∧
      (event.closing = true →
        (system.ldapAuthConn = none ∨ system.ldapAuthConn = some connection) ∧
          event.acked = false ∧ event.newdata = none) ∧
      (event.newdata.all Prod.snd = true)
  | _ => True

instance (system : LdapSystem) : ∀ step : LdapStep, Decidable (step.Safe system)
  | .openSlot _ => inferInstanceAs (Decidable (∀ current ∈ system.ldapAuthConn, _ → _))
  | .closeSlot _ => inferInstanceAs (Decidable True)
  | .submit _ _ _ _ => inferInstanceAs (Decidable True)
  | .periodic _ => inferInstanceAs (Decidable True)
  | .callback connection event => inferInstanceAs (Decidable (
      (event.poll = true → ∀ current ∈ system.ldapAuthConn,
        (system.states current).pending = true → system.wires connection = []) ∧
      (_ → (_ ∨ _) ∧ _ ∧ _) ∧ _))

/-- Every stored result reached the submitter of the answered bind. -/
def AllAttributed (writes : List ResultWrite) : Prop :=
  ∀ write ∈ writes, write.submitter = some write.owner

/-- The pending request belongs to the owner of the slot it points to, and every stored result has
reached its submitter. -/
structure Attributed (system : LdapSystem) : Prop where
  exclusive : Exclusive system
  owned : ∀ connection slot, system.ldapAuthConn = some connection →
    (system.states connection).pending = true →
    (system.states connection).authState = some slot →
      system.owner slot = (system.states connection).submitter
  written : AllAttributed system.writes

section Steps

variable {system next : LdapSystem}

/-- A step that stores no result keeps the attribution. -/
theorem Attributed.of_kept (attributed : Attributed system) (exclusive : Exclusive next)
    (kept : Kept system next) : Attributed next := by
  refine ⟨exclusive, fun connection slot isCurrent pending pointer => ?_,
    kept.writes ▸ attributed.written⟩
  obtain ⟨current, pendingBefore, samePointer, sameSubmitter, -⟩ :=
    kept.request connection isCurrent pending
  rw [samePointer] at pointer
  rw [kept.owner, sameSubmitter]
  exact attributed.owned connection slot current pendingBefore pointer

theorem Attributed.openSlot (attributed : Attributed system) {slot : Slot}
    (safe : (LdapStep.openSlot slot).Safe system) : Attributed (openSlot system slot) := by
  refine ⟨attributed.exclusive.openSlot slot, ?_, attributed.written⟩
  intro connection target isCurrent pending pointer
  have targetNe : target ≠ slot := by
    rintro rfl
    exact safe connection isCurrent pending pointer
  exact (Function.update_of_ne targetNe _ _).trans
    (attributed.owned connection target isCurrent pending pointer)

theorem Attributed.acceptRequest (attributed : Attributed system) {connection : ConnId}
    (notPending : (system.states connection).pending = false) (slot : Slot)
    (username password : List UInt8) :
    Attributed (acceptRequest system connection slot username password) := by
  refine ⟨attributed.exclusive.acceptRequest notPending slot username password, ?_,
    attributed.written⟩
  intro other target isCurrent pending pointer
  by_cases same : other = connection
  · subst same
    simp only [PamLdap.acceptRequest, Function.update_self, Option.some.injEq] at pointer
    subst pointer
    simp [PamLdap.acceptRequest, LdapSystem.setPamState]
  · simp only [PamLdap.acceptRequest, Function.update_of_ne same] at pending pointer ⊢
    exact attributed.owned other target isCurrent pending pointer

theorem Attributed.setPamState (attributed : Attributed system) (slot : Slot) (result : UInt8) :
    Attributed (system.setPamState slot result) :=
  ⟨attributed.exclusive.setPamState slot result, attributed.owned, attributed.written⟩

theorem Attributed.pamAuth (attributed : Attributed system) (slot : Slot)
    (username password : List UInt8) (stale : Option LdapState) :
    Attributed (pamAuth system slot username password stale) := by
  have started : Attributed (initIfNeeded system stale) :=
    attributed.of_kept (attributed.exclusive.initIfNeeded stale) (initIfNeeded_kept system stale)
  rw [PamLdap.pamAuth]
  generalize PamLdap.initIfNeeded system stale = system at started ⊢
  split
  · exact started.setPamState slot pamSuccess
  · rw [requestBind]
    split
    · exact started.setPamState slot pamDenied
    · split
      · exact started.setPamState slot pamDenied
      next notPending =>
        exact started.acceptRequest (Bool.not_eq_true _ ▸ notPending) slot username password

theorem Attributed.pamLdapPeriodic (attributed : Attributed system) (stale : Option LdapState) :
    Attributed (pamLdapPeriodic system stale) := by
  have exclusive := attributed.exclusive.initIfNeeded stale
  have started : Attributed (initIfNeeded system stale) :=
    attributed.of_kept exclusive (initIfNeeded_kept system stale)
  exact ⟨⟨exclusive.current, exclusive.quiet, exclusive.pointed, exclusive.single⟩, started.owned,
    started.written⟩

/-- A complete answer to the unanswered bind reaches the submitter. -/
theorem Attributed.of_answered (attributed : Attributed system) (exclusive : Exclusive next)
    {connection : ConnId} {code : UInt8} {bind : WireBind} {slot : Slot}
    (answered : Answered system next connection code bind slot) : Attributed next := by
  refine ⟨exclusive, fun other _ isCurrent pending => ?_, ?_⟩
  · rw [answered.idle other isCurrent] at pending
    cases pending
  · intro write member
    rw [answered.writes] at member
    rcases List.mem_append.mp member with member | member
    · exact attributed.written write member
    · rw [List.mem_singleton] at member
      have owner := attributed.owned connection slot answered.current answered.pending
        answered.pointer
      rw [member]
      exact congrArg some (answered.carries.2.2.trans owner.symm)

theorem Attributed.callback (attributed : Attributed system) {connection : ConnId}
    {event : LdapEvent} (legal : (LdapStep.callback connection event).Legal system)
    (safe : (LdapStep.callback connection event).Safe system) :
    ∃ next, ldapStep system (.callback connection event) = some next ∧ Attributed next := by
  obtain ⟨next, stepped, exclusive, ⟨-, kept⟩ | ⟨code, last, bind, slot, -, answered⟩⟩ :=
    attributed.exclusive.callback legal safe
  · exact ⟨next, stepped, attributed.of_kept exclusive kept⟩
  · exact ⟨next, stepped, attributed.of_answered exclusive answered⟩

end Steps

theorem attributed_pamLdapInit (stale : Option LdapState) :
    Attributed (pamLdapInit powerOn stale) := by
  have started : Attributed powerOn :=
    ⟨exclusive_powerOn, fun _ _ isCurrent => (by cases isCurrent),
      fun _ member => (by cases member)⟩
  exact started.of_kept (exclusive_powerOn.pamLdapInit rfl stale) (initIfNeeded_kept powerOn stale)

def LdapStep.LegalAndSafe (system : LdapSystem) (step : LdapStep) : Prop :=
  step.Legal system ∧ step.Safe system

instance (system : LdapSystem) (step : LdapStep) : Decidable (step.LegalAndSafe system) :=
  inferInstanceAs (Decidable (_ ∧ _))

theorem ldapStep_attributed (system : LdapSystem) (step : LdapStep)
    (attributed : Attributed system) (allowed : step.LegalAndSafe system) :
    ∃ next, ldapStep system step = some next ∧ Attributed next := by
  cases step with
  | openSlot slot => exact ⟨_, rfl, attributed.openSlot allowed.2⟩
  | closeSlot slot =>
      have exclusive := attributed.exclusive
      exact ⟨_, rfl, ⟨exclusive.current, exclusive.quiet, exclusive.pointed, exclusive.single⟩,
        attributed.owned, attributed.written⟩
  | submit slot username password stale =>
      exact ⟨_, rfl, attributed.pamAuth slot username password stale⟩
  | periodic stale => exact ⟨_, rfl, attributed.pamLdapPeriodic stale⟩
  | callback connection event => exact attributed.callback allowed.1 allowed.2

/-- Along every sequence of openings, closings, submissions, timer ticks and
LDAP callbacks without the events the code does not handle, `NULL` is never
dereferenced and every result is stored in the authentication state of the
instance whose credentials the answered bind carried. -/
theorem ldap_results_attributed_of_safe (stale : Option LdapState) (steps : List LdapStep)
    (allowed : Guarded ldapStep (fun system step => step.LegalAndSafe system)
      (pamLdapInit powerOn stale) steps) :
    ∃ last, run ldapStep (pamLdapInit powerOn stale) steps = some last ∧
      ∀ write ∈ last.writes, write.submitter = some write.owner := by
  obtain ⟨last, reached, attributed⟩ :=
    allowed.exists_run ldapStep_attributed (attributed_pamLdapInit stale)
  exact ⟨last, reached, attributed.written⟩

def staleState : LdapState := ⟨true, 7, [], [], some 2, 0⟩

/-- Two clients in different slots; the first is answered after the second was
turned away. -/
def orderlyRun : List LdapStep :=
  [.openSlot 0, .openSlot 1, .submit 0 [97] [112] none,
    .callback 0 { poll := true }, .submit 1 [98] [113] none,
    .callback 0 { acked := true, newdata := some (0, true) }]

/-- A client submits its credentials and leaves; the next one gets its slot
before the server answers. -/
def reusedSlotRun : List LdapStep :=
  [.openSlot 0, .submit 0 [97] [112] none, .callback 0 { poll := true }, .closeSlot 0,
    .openSlot 0, .callback 0 { acked := true, newdata := some (0, true) }]

theorem ldap_results_attributed_orderlyRun :
    ∃ last, run ldapStep (pamLdapInit powerOn (some staleState)) orderlyRun = some last ∧
      ∀ write ∈ last.writes, write.submitter = some write.owner :=
  ldap_results_attributed_of_safe (some staleState) orderlyRun (by decide +kernel)

/-- The late answer authenticates the client that reuses the slot. -/
theorem ldap_result_reaches_reused_slot :
    ∃ last, Guarded ldapStep (fun system step => step.Legal system)
        (pamLdapInit powerOn (some staleState)) reusedSlotRun ∧
      run ldapStep (pamLdapInit powerOn (some staleState)) reusedSlotRun = some last ∧
      last.writes = [⟨0, 2, some 1, pamSuccess⟩] ∧
      last.isOpen 0 = true ∧ last.owner 0 = 2 ∧ last.pamState 0 = pamSuccess := by
  have legal : Guarded ldapStep (fun system step => step.Legal system)
      (pamLdapInit powerOn (some staleState)) reusedSlotRun := by
    decide +kernel
  have ended : (run ldapStep (pamLdapInit powerOn (some staleState)) reusedSlotRun).map
      (fun last => (last.writes, last.isOpen 0, last.owner 0, last.pamState 0)) =
        some ([⟨0, 2, some 1, pamSuccess⟩], true, 2, pamSuccess) := by
    decide +kernel
  obtain ⟨last, reached, view⟩ := Option.map_eq_some_iff.mp ended
  simp only [Prod.mk.injEq] at view
  exact ⟨last, legal, reached, view⟩

end Ethersex.PamLdap
