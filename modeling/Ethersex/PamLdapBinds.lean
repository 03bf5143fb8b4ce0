import Ethersex.PamLdapSession

/-!
# One bind at a time

As long as no second bind goes out while the first is unanswered, every answer arrives in one
piece and no late callback of an old LDAP connection takes away the new one, the answer that arrives
is the one to the pending request.  What a callback does is then one of two things: it stores no
result, or it stores the result of exactly that bind.
-/

namespace Ethersex.PamLdap

open Ecmd (pamUnknown pamPending pamDenied pamSuccess)

/-- The callbacks the code can handle, in the state before the step. -/
def SafeCallback (system : LdapSystem) (connection : ConnId) (event : LdapEvent) : Prop :=
  (event.poll = true → ∀ current ∈ system.ldapAuthConn,
    (system.states current).pending = true → system.wires connection = []) ∧
  (event.closing = true →
    (system.ldapAuthConn = none ∨ system.ldapAuthConn = some connection) ∧
      event.acked = false ∧ event.newdata = none) ∧
  (event.newdata.all Prod.snd = true)

instance (system : LdapSystem) (connection : ConnId) (event : LdapEvent) :
    Decidable (SafeCallback system connection event) :=
  inferInstanceAs (Decidable (
    (event.poll = true → ∀ current ∈ system.ldapAuthConn,
      (system.states current).pending = true → system.wires connection = []) ∧
    (_ → (_ ∨ _) ∧ _ ∧ _) ∧ _))

/-- The bind was sent for the request in the state. -/
def WireBind.Carries (bind : WireBind) (state : LdapState) : Prop :=
  bind.username = state.username ∧ bind.password = state.password ∧
    bind.submitter = state.submitter

/-- The only connection in use is the one `ldap_auth_conn` points to; its pending request has a
slot, and at most one bind is unanswered, which carries the credentials of that request. -/
structure Exclusive (system : LdapSystem) : Prop where
  current : ∀ connection, system.phases connection = .established →
    system.ldapAuthConn = some connection
  quiet : ∀ connection, system.phases connection ≠ .established →
    system.wires connection = []
  pointed : ∀ connection, system.ldapAuthConn = some connection →
    (system.states connection).pending = true →
      ∃ slot, (system.states connection).authState = some slot
  single : ∀ connection bind rest, system.wires connection = bind :: rest →
    rest = [] ∧ (system.states connection).pending = true ∧
      bind.Carries (system.states connection)

/-- The step has stored no result; what is pending was pending before. -/
structure Kept (system next : LdapSystem) : Prop where
  owner : next.owner = system.owner
  cache : next.cache = system.cache
  writes : next.writes = system.writes
  request : ∀ connection, next.ldapAuthConn = some connection →
    (next.states connection).pending = true →
      system.ldapAuthConn = some connection ∧ (system.states connection).pending = true ∧
        (next.states connection).authState = (system.states connection).authState ∧
        (next.states connection).submitter = (system.states connection).submitter ∧
        (next.states connection).username = (system.states connection).username ∧
        (next.states connection).password = (system.states connection).password

/-- The step has stored the result of the bind on the wire. -/
structure Answered (system next : LdapSystem) (connection : ConnId) (code : UInt8)
    (bind : WireBind) (slot : Slot) : Prop where
  owner : next.owner = system.owner
  current : system.ldapAuthConn = some connection
  pending : (system.states connection).pending = true
  pointer : (system.states connection).authState = some slot
  onWire : system.wires connection = [bind]
  carries : bind.Carries (system.states connection)
  cache : next.cache = if code = 0 then cacheInsert system.cache bind.username bind.password
    else system.cache
  writes : next.writes = system.writes ++
    [⟨slot, system.owner slot, some bind.submitter, bindResult code⟩]
  idle : ∀ other, next.ldapAuthConn = some other → (next.states other).pending = false

/-- What a callback does to the request and the cache. -/
def CallbackEffect (system next : LdapSystem) (connection : ConnId) (event : LdapEvent) : Prop :=
  (event.newdata = none ∧ Kept system next) ∨
    ∃ code last bind slot, event.newdata = some (code, last) ∧
      Answered system next connection code bind slot

section Steps

variable {system : LdapSystem}

theorem exclusive_powerOn : Exclusive powerOn := by
  constructor
  · intro connection established
    cases established
  · intro connection _
    rfl
  · intro connection isCurrent
    cases isCurrent
  · intro connection bind rest onWire
    cases onWire

theorem Kept.refl (system : LdapSystem) : Kept system system :=
  ⟨rfl, rfl, rfl, fun _ isCurrent pending => ⟨isCurrent, pending, rfl, rfl, rfl, rfl⟩⟩

theorem Exclusive.openSlot (exclusive : Exclusive system) (slot : Slot) :
    Exclusive (openSlot system slot) :=
  ⟨exclusive.current, exclusive.quiet, exclusive.pointed, exclusive.single⟩

/-- Replacing the authentication state of a slot concerns none of the clauses. -/
theorem Exclusive.setPamState (exclusive : Exclusive system) (slot : Slot) (result : UInt8) :
    Exclusive (system.setPamState slot result) :=
  ⟨exclusive.current, exclusive.quiet, exclusive.pointed, exclusive.single⟩

theorem Exclusive.pamLdapInit (exclusive : Exclusive system)
    (idle : system.ldapAuthConn = none) (stale : Option LdapState) :
    Exclusive (pamLdapInit system stale) := by
  have noneEstablished : ∀ connection, system.phases connection ≠ .established := by
    intro connection established
    have isCurrent := exclusive.current connection established
    rw [idle] at isCurrent
    cases isCurrent
  have silent : ∀ connection, system.wires connection = [] :=
    fun connection => exclusive.quiet connection (noneEstablished connection)
  cases stale with
  | none =>
      constructor
      · intro connection established
        exact absurd established (noneEstablished connection)
      · exact exclusive.quiet
      · intro connection isCurrent
        cases isCurrent
      · exact exclusive.single
  | some stale =>
      have wiresEmpty : ∀ connection,
          Function.update system.wires system.nextConn [] connection = [] := by
        intro connection
        by_cases isNew : connection = system.nextConn
        · rw [isNew, Function.update_self]
        · rw [Function.update_of_ne isNew, silent]
      constructor
      · intro connection established
        by_cases isNew : connection = system.nextConn
        · rw [isNew]
          rfl
        · exact absurd ((Function.update_of_ne isNew _ _).symm.trans established)
            (noneEstablished connection)
      · intro connection _
        exact wiresEmpty connection
      · intro connection isCurrent pending
        cases Option.some.inj isCurrent
        simp [PamLdap.pamLdapInit] at pending
      · intro connection bind rest onWire
        exact absurd ((wiresEmpty connection).symm.trans onWire) (List.cons_ne_nil _ _).symm

theorem Exclusive.initIfNeeded (exclusive : Exclusive system) (stale : Option LdapState) :
    Exclusive (initIfNeeded system stale) := by
  rw [PamLdap.initIfNeeded]
  split
  next idle => exact exclusive.pamLdapInit idle stale
  next => exact exclusive

/-- A new connection has no request. -/
theorem initIfNeeded_kept (system : LdapSystem) (stale : Option LdapState) :
    Kept system (initIfNeeded system stale) := by
  rw [PamLdap.initIfNeeded]
  split
  next idle =>
    cases stale with
    | none => exact ⟨rfl, rfl, rfl, fun connection isCurrent => by cases isCurrent⟩
    | some stale =>
        refine ⟨rfl, rfl, rfl, fun connection isCurrent pending => ?_⟩
        cases Option.some.inj isCurrent
        simp [PamLdap.pamLdapInit] at pending
  next => exact Kept.refl system

theorem Exclusive.acceptRequest (exclusive : Exclusive system) {connection : ConnId}
    (notPending : (system.states connection).pending = false) (slot : Slot)
    (username password : List UInt8) :
    Exclusive (acceptRequest system connection slot username password) := by
  constructor
  · exact exclusive.current
  · exact exclusive.quiet
  · intro other isCurrent pending
    by_cases same : other = connection
    · subst same
      exact ⟨slot, by simp [PamLdap.acceptRequest]⟩
    · simp only [PamLdap.acceptRequest, Function.update_of_ne same] at pending ⊢
      exact exclusive.pointed other isCurrent pending
  · intro other bind rest onWire
    have before := exclusive.single other bind rest onWire
    by_cases same : other = connection
    · subst same
      rw [notPending] at before
      cases before.2.1
    · simp only [PamLdap.acceptRequest, Function.update_of_ne same]
      exact before

theorem Exclusive.requestBind (exclusive : Exclusive system) (slot : Slot)
    (username password : List UInt8) :
    Exclusive (requestBind system slot username password) := by
  rw [PamLdap.requestBind]
  split
  · exact exclusive.setPamState slot pamDenied
  · split
    · exact exclusive.setPamState slot pamDenied
    next notPending =>
      exact exclusive.acceptRequest (Bool.not_eq_true _ ▸ notPending) slot username password

/-- A closing callback ends the connection it belongs to. -/
theorem Exclusive.close (exclusive : Exclusive system) {connection : ConnId}
    {event : LdapEvent} (closing : event.closing = true)
    (notNewer : system.ldapAuthConn = none ∨ system.ldapAuthConn = some connection) :
    Exclusive (settleConnection { system with ldapAuthConn := none } connection event) ∧
      Kept system (settleConnection { system with ldapAuthConn := none } connection event) := by
  have othersClosed : ∀ other, other ≠ connection → system.phases other ≠ .established := by
    intro other different established
    have isCurrent := exclusive.current other established
    rcases notNewer with idle | mine
    · rw [idle] at isCurrent
      cases isCurrent
    · rw [mine] at isCurrent
      exact different (Option.some.inj isCurrent).symm
  rw [settleConnection, if_pos closing]
  refine ⟨?_, rfl, rfl, rfl, fun other isCurrent => by cases isCurrent⟩
  constructor
  · intro other established
    by_cases same : other = connection
    · subst same
      simp only [Function.update_self] at established
      split at established <;> cases established
    · simp only [Function.update_of_ne same] at established
      exact absurd established (othersClosed other same)
  · intro other _
    by_cases same : other = connection
    · simp [same]
    · simp only [Function.update_of_ne same]
      exact exclusive.quiet other (othersClosed other same)
  · intro other isCurrent
    cases isCurrent
  · intro other bind rest onWire
    by_cases same : other = connection
    · simp [same] at onWire
    · simp only [Function.update_of_ne same] at onWire
      exact exclusive.single other bind rest onWire

/-- In an established connection the callback works on its own state. -/
structure InUse (system : LdapSystem) (connection : ConnId) : Prop where
  exclusive : Exclusive system
  current : system.ldapAuthConn = some connection
  established : system.phases connection = .established

variable {connection : ConnId} {event : LdapEvent}

theorem InUse.sendBind (inUse : InUse system connection)
    (pending : (system.states connection).pending = true)
    (unanswered : system.wires connection = []) :
    InUse (pamLdapSendBind system connection (system.states connection)) connection := by
  have exclusive := inUse.exclusive
  refine ⟨?_, inUse.current, inUse.established⟩
  constructor
  · exact exclusive.current
  · intro other notEstablished
    have different : other ≠ connection := by
      rintro rfl
      exact notEstablished inUse.established
    exact (Function.update_of_ne different _ _).trans (exclusive.quiet other notEstablished)
  · exact exclusive.pointed
  · intro other bind rest onWire
    by_cases same : other = connection
    · subst same
      simp only [pamLdapSendBind, Function.update_self, unanswered, List.nil_append,
        List.cons.injEq] at onWire
      obtain ⟨rfl, rfl⟩ := onWire
      exact ⟨rfl, pending, rfl, rfl, rfl⟩
    · simp only [pamLdapSendBind, Function.update_of_ne same] at onWire
      exact exclusive.single other bind rest onWire

/-- A poll sends nothing when a bind is under way. -/
theorem InUse.pollStep (inUse : InUse system connection)
    (unanswered : event.poll = true → (system.states connection).pending = true →
      system.wires connection = []) :
    ∃ next, pollStep system connection event = some next ∧ InUse next connection ∧
      Kept system next ∧ (system.wires connection ≠ [] → next = system) := by
  rw [PamLdap.pollStep]
  split
  · rw [inUse.current, Option.map_some]
    refine ⟨_, rfl, ?_⟩
    split
    next polled =>
      have empty := unanswered polled.2 polled.1
      exact ⟨inUse.sendBind polled.1 empty,
        ⟨rfl, rfl, rfl, fun _ isCurrent pending => ⟨isCurrent, pending, rfl, rfl, rfl, rfl⟩⟩,
        fun underWay => absurd empty underWay⟩
    next => exact ⟨inUse, Kept.refl system, fun _ => rfl⟩
  · exact ⟨system, rfl, inUse, Kept.refl system, fun _ => rfl⟩

theorem countMessage_state (system : LdapSystem) (connection other : ConnId) :
    let next := (countMessage system connection).states other
    next.pending = (system.states other).pending ∧
      next.authState = (system.states other).authState ∧
      next.submitter = (system.states other).submitter ∧
      next.username = (system.states other).username ∧
      next.password = (system.states other).password := by
  by_cases same : other = connection
  · subst same
    simp only [PamLdap.countMessage, Function.update_self, and_self]
  · simp only [PamLdap.countMessage, Function.update_of_ne same, and_self]

theorem Exclusive.countMessage (exclusive : Exclusive system) (connection : ConnId) :
    Exclusive (countMessage system connection) := by
  constructor
  · exact exclusive.current
  · exact exclusive.quiet
  · intro other isCurrent pending
    obtain ⟨samePending, samePointer, -⟩ := countMessage_state system connection other
    rw [samePending] at pending
    rw [samePointer]
    exact exclusive.pointed other isCurrent pending
  · intro other bind rest onWire
    obtain ⟨samePending, -, sameSubmitter, sameName, samePassword⟩ :=
      countMessage_state system connection other
    rw [samePending, WireBind.Carries, sameSubmitter, sameName, samePassword]
    exact exclusive.single other bind rest onWire

theorem InUse.ackStep (inUse : InUse system connection) (event : LdapEvent) :
    ∃ next, ackStep system event = some next ∧ InUse next connection ∧ Kept system next ∧
      next.wires = system.wires := by
  rw [PamLdap.ackStep]
  split
  · rw [inUse.current, Option.map_some]
    refine ⟨_, rfl, ⟨inUse.exclusive.countMessage connection, inUse.current, inUse.established⟩,
      ⟨rfl, rfl, rfl, fun other isCurrent pending => ?_⟩, rfl⟩
    obtain ⟨samePending, same⟩ := countMessage_state system connection other
    rw [samePending] at pending
    exact ⟨isCurrent, pending, same⟩
  · exact ⟨system, rfl, inUse, Kept.refl system, rfl⟩

/-- A complete answer belongs to the unanswered bind. -/
theorem InUse.storeResult (inUse : InUse system connection) (notClosing : event.closing = false)
    (complete : event.newdata.any Prod.snd = true) (answered : system.wires connection ≠ [])
    (code : UInt8) :
    ∃ next bind slot, storeResult system connection connection code = some next ∧
      Exclusive (settleConnection next connection event) ∧
        Answered system (settleConnection next connection event) connection code bind slot := by
  have exclusive := inUse.exclusive
  cases onWire : system.wires connection with
  | nil => exact absurd onWire answered
  | cons bind rest =>
      obtain ⟨rfl, pending, carries⟩ := exclusive.single connection bind rest onWire
      obtain ⟨slot, pointer⟩ := exclusive.pointed connection inUse.current pending
      have idle : ∀ other, system.ldapAuthConn = some other →
          (Function.update system.states connection
            { system.states connection with pending := false, authState := none } other).pending =
              false := by
        intro other isCurrent
        have same : connection = other := Option.some.inj (inUse.current.symm.trans isCurrent)
        rw [← same, Function.update_self]
      rw [PamLdap.storeResult]
      dsimp only
      rw [pointer, Option.map_some]
      refine ⟨_, bind, slot, rfl, ?_⟩
      rw [settleConnection, if_neg (by rw [notClosing]; decide), if_pos complete]
      refine ⟨?_, ⟨rfl, inUse.current, pending, pointer, onWire, carries, ?_, ?_, idle⟩⟩
      · constructor
        · exact exclusive.current
        · intro other notEstablished
          have different : other ≠ connection := by
            rintro rfl
            exact notEstablished inUse.established
          exact (Function.update_of_ne different _ _).trans (exclusive.quiet other notEstablished)
        · intro other isCurrent stillPending
          exact absurd ((idle other isCurrent).symm.trans stillPending) Bool.false_ne_true
        · intro other otherBind otherRest stillOnWire
          by_cases same : other = connection
          · subst same
            simp [LdapSystem.setPamState, onWire] at stillOnWire
          · simp only [LdapSystem.setPamState, Function.update_of_ne same] at stillOnWire ⊢
            exact exclusive.single other otherBind otherRest stillOnWire
      · rw [carries.1, carries.2.1]
      · rw [onWire]
        rfl

/-- Acknowledging what was sent before does not change whose answer it is. -/
theorem Kept.answered {middle next : LdapSystem} {code : UInt8} {bind : WireBind} {slot : Slot}
    (kept : Kept system middle) (exclusive : Exclusive system) (wires : middle.wires = system.wires)
    (answered : Answered middle next connection code bind slot) :
    Answered system next connection code bind slot := by
  obtain ⟨current, pending, pointer, -⟩ := kept.request connection answered.current answered.pending
  have onWire : system.wires connection = [bind] := by
    rw [← wires]
    exact answered.onWire
  refine ⟨answered.owner.trans kept.owner, current, pending, pointer ▸ answered.pointer, onWire,
    (exclusive.single connection bind [] onWire).2.2, ?_, ?_, answered.idle⟩
  · rw [answered.cache, kept.cache]
  · rw [answered.writes, kept.writes, kept.owner]

theorem Kept.trans {middle next : LdapSystem} (first : Kept system middle)
    (second : Kept middle next) : Kept system next := by
  refine ⟨second.owner.trans first.owner, second.cache.trans first.cache,
    second.writes.trans first.writes, fun connection isCurrent pending => ?_⟩
  obtain ⟨current, stillPending, pointer, submitter, username, password⟩ :=
    second.request connection isCurrent pending
  rw [pointer, submitter, username, password]
  exact first.request connection current stillPending

theorem InUse.newdataStep (inUse : InUse system connection) (notClosing : event.closing = false)
    (complete : event.newdata.all Prod.snd = true)
    (answered : event.newdata ≠ none → system.wires connection ≠ []) :
    ∃ next, newdataStep system connection event = some next ∧
      Exclusive (settleConnection next connection event) ∧
        CallbackEffect system (settleConnection next connection event) connection event := by
  rw [PamLdap.newdataStep]
  cases arrived : event.newdata with
  | none =>
      refine ⟨system, rfl, ?_⟩
      rw [settleConnection, if_neg (by rw [notClosing]; decide), arrived]
      exact ⟨inUse.exclusive, Or.inl ⟨arrived, Kept.refl system⟩⟩
  | some segment =>
      obtain ⟨code, isLast⟩ := segment
      rw [arrived] at complete answered
      dsimp only
      rw [inUse.current, Option.bind_some]
      have isComplete : event.newdata.any Prod.snd = true := by
        rw [arrived]
        exact complete
      obtain ⟨next, bind, slot, stored, exclusive, effect⟩ :=
        inUse.storeResult notClosing isComplete (answered (by simp)) code
      exact ⟨next, stored, exclusive, Or.inr ⟨code, isLast, bind, slot, arrived, effect⟩⟩

/-- What a callback does. -/
theorem Exclusive.callback (exclusive : Exclusive system)
    (legal : (LdapStep.callback connection event).Legal system)
    (safe : SafeCallback system connection event) :
    ∃ next, ldapStep system (.callback connection event) = some next ∧ Exclusive next ∧
      CallbackEffect system next connection event := by
  obtain ⟨phase, alone, answered⟩ := legal
  obtain ⟨unanswered, closes, complete⟩ := safe
  by_cases closing : event.closing = true
  · obtain ⟨notNewer, notAcked, noData⟩ := closes closing
    obtain ⟨noPoll, noRexmit⟩ := alone closing
    obtain ⟨closed, kept⟩ := exclusive.close closing notNewer
    refine ⟨_, ?_, closed, Or.inl ⟨noData, kept⟩⟩
    simp [ldapStep, pamLdapMain, dropConnection, PamLdap.pollStep, PamLdap.ackStep,
      PamLdap.newdataStep, closing, noPoll, noRexmit, notAcked, noData]
  · have established : system.phases connection = .established :=
      phase.resolve_right fun last => closing last.2.1
    have inUse : InUse system connection :=
      ⟨exclusive, exclusive.current connection established, established⟩
    obtain ⟨polled, polledEq, polledInUse, polledKept, polledSame⟩ := inUse.pollStep
      (fun poll pending => unanswered poll connection inUse.current pending)
    obtain ⟨acked, ackedEq, ackedInUse, ackedKept, ackedWires⟩ := polledInUse.ackStep event
    have underWay : event.newdata ≠ none → polled = system := fun arrived =>
      polledSame (answered arrived)
    obtain ⟨next, nextEq, nextExclusive, effect⟩ := ackedInUse.newdataStep
      (Bool.not_eq_true _ ▸ closing) complete (fun arrived => by
        rw [ackedWires, underWay arrived]
        exact answered arrived)
    refine ⟨settleConnection next connection event, ?_, nextExclusive, ?_⟩
    · rw [ldapStep, pamLdapMain, dropConnection, if_neg closing, polledEq, Option.bind_some,
        ackedEq, Option.bind_some, nextEq, Option.map_some]
    · rcases effect with ⟨noData, kept⟩ | ⟨code, last, bind, slot, arrived, result⟩
      · exact Or.inl ⟨noData, (polledKept.trans ackedKept).trans kept⟩
      · have same := underWay (by rw [arrived]; simp)
        rw [same] at ackedKept ackedWires
        exact Or.inr ⟨code, last, bind, slot, arrived, ackedKept.answered exclusive
          ackedWires result⟩

end Steps

end Ethersex.PamLdap
