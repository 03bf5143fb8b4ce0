import Ethersex.EcmdTcpConnection

/-!
# LDAP authentication

`services/pam/pam_ldap.c` checks credentials with one bind request at a time on
a TCP connection to the LDAP server, and stores the result through a pointer to
the `pam_state` of the connection that asked.  The pointer is modelled by the
uIP slot of that connection.  Every opening of a slot gets an instance number,
and the binds under way remember the instance whose credentials they carry;
both are bookkeeping that the code does not have.
-/

namespace Ethersex.PamLdap

open Ecmd (pamUnknown pamPending pamDenied pamSuccess)

abbrev Slot := Nat
abbrev Instance := Nat
abbrev ConnId := Nat

def cacheSize : Nat := 3
def cacheTime : UInt8 := 6
def credentialSize : Nat := 16

/-- `strncpy` into a field of `credentialSize` bytes. -/
def strncpy (text : List UInt8) : List UInt8 :=
  (text.takeWhile fun byte => byte != 0).take credentialSize

/-- `strncmp(.., .., credentialSize) == 0` -/
def sameText (first second : List UInt8) : Bool :=
  strncpy first == strncpy second

/-- `struct ldap_auth_connection_state_t`, with the instance behind
`auth_state`. -/
structure LdapState where
  pending : Bool
  msgid : UInt16
  username : List UInt8
  password : List UInt8
  authState : Option Slot
  submitter : Instance
deriving DecidableEq, Repr

structure CacheEntry where
  username : List UInt8
  password : List UInt8
  timeout : UInt8
deriving DecidableEq, Repr

/-- A bind request that the server has not answered yet. -/
structure WireBind where
  msgid : UInt16
  username : List UInt8
  password : List UInt8
  submitter : Instance
deriving DecidableEq, Repr

/-- A result stored by `pam_ldap_main`: the slot written to, the instance the
slot belongs to at that moment, and the instance whose credentials the answered
bind carried. -/
structure ResultWrite where
  slot : Slot
  owner : Instance
  submitter : Option Instance
  result : UInt8
deriving DecidableEq, Repr

/-- The part of the TCP states that decides which callbacks can follow. -/
inductive ConnPhase where
  | unused
  | established
  | lastAck
  | closed
deriving DecidableEq, Repr

structure LdapSystem where
  owner : Slot → Instance
  isOpen : Slot → Bool
  pamState : Slot → UInt8
  nextInstance : Instance
  ldapAuthConn : Option ConnId
  states : ConnId → LdapState
  phases : ConnId → ConnPhase
  wires : ConnId → List WireBind
  nextConn : ConnId
  cache : List CacheEntry
  writes : List ResultWrite

/-- The flags of a callback of `pam_ldap_main`.  New data is a piece of an
answer: the byte found at the place of the result code, and whether the answer
ends with it. -/
structure LdapEvent where
  aborted : Bool := false
  timedout : Bool := false
  closed : Bool := false
  poll : Bool := false
  rexmit : Bool := false
  acked : Bool := false
  newdata : Option (UInt8 × Bool) := none
deriving DecidableEq, Repr

def LdapEvent.closing (event : LdapEvent) : Bool :=
  event.aborted || event.timedout || event.closed

inductive LdapStep where
  | openSlot (slot : Slot)
  | closeSlot (slot : Slot)
  | submit (slot : Slot) (username password : List UInt8) (stale : Option LdapState)
  | periodic (stale : Option LdapState)
  | callback (connection : ConnId) (event : LdapEvent)
deriving DecidableEq, Repr

/-- The result of `uip_connect` is either no connection or one whose
application state holds stale values, of which `pam_ldap_init` sets two. -/
def pamLdapInit (system : LdapSystem) : Option LdapState → LdapSystem
  | none => { system with ldapAuthConn := none }
  | some stale =>
      { system with
        ldapAuthConn := some system.nextConn
        states := Function.update system.states system.nextConn
          { stale with pending := false, msgid := 1 }
        phases := Function.update system.phases system.nextConn .established
        wires := Function.update system.wires system.nextConn []
        nextConn := system.nextConn + 1 }

def initIfNeeded (system : LdapSystem) (stale : Option LdapState) : LdapSystem :=
  if system.ldapAuthConn = none then pamLdapInit system stale else system

def ageCache (cache : List CacheEntry) : List CacheEntry :=
  cache.map fun entry =>
    if entry.timeout ≠ 0 then { entry with timeout := entry.timeout - 1 } else entry

def pamLdapPeriodic (system : LdapSystem) (stale : Option LdapState) : LdapSystem :=
  let system := initIfNeeded system stale
  { system with cache := ageCache system.cache }

def cacheHit (cache : List CacheEntry) (username password : List UInt8) : Bool :=
  cache.any fun entry =>
    sameText entry.username username && sameText entry.password password && entry.timeout != 0

def LdapSystem.setPamState (system : LdapSystem) (slot : Slot) (result : UInt8) : LdapSystem :=
  { system with pamState := Function.update system.pamState slot result }

/-- Take the request of a slot as the pending one of a connection. -/
def acceptRequest (system : LdapSystem) (connection : ConnId) (slot : Slot)
    (username password : List UInt8) : LdapSystem :=
  { system.setPamState slot pamPending with
    states := Function.update system.states connection
      { system.states connection with
        pending := true
        username := strncpy username
        password := strncpy password
        authState := some slot
        submitter := system.owner slot } }

def requestBind (system : LdapSystem) (slot : Slot) (username password : List UInt8) :
    LdapSystem :=
  match system.ldapAuthConn with
  | none => system.setPamState slot pamDenied
  | some connection =>
      if (system.states connection).pending then
        system.setPamState slot pamDenied
      else
        acceptRequest system connection slot username password

def pamAuth (system : LdapSystem) (slot : Slot) (username password : List UInt8)
    (stale : Option LdapState) : LdapSystem :=
  let system := initIfNeeded system stale
  if cacheHit system.cache username password then
    system.setPamState slot pamSuccess
  else
    requestBind system slot username password

def dropConnection (system : LdapSystem) (event : LdapEvent) : LdapSystem :=
  if event.closing then { system with ldapAuthConn := none } else system

/-- `pam_ldap_send_bind` on the connection of the callback, with the data of
the connection `ldap_auth_conn` points to. -/
def pamLdapSendBind (system : LdapSystem) (connection : ConnId) (state : LdapState) :
    LdapSystem :=
  { system with
    wires := Function.update system.wires connection (system.wires connection ++
      [⟨state.msgid, state.username, state.password, state.submitter⟩]) }

/-- A poll sends the pending bind.  A retransmission repeats a segment that is
under way already.  There is no result when `ldap_auth_conn` is `NULL`. -/
def pollStep (system : LdapSystem) (connection : ConnId) (event : LdapEvent) :
    Option LdapSystem :=
  if event.poll ∨ event.rexmit then
    system.ldapAuthConn.map fun current =>
      if (system.states current).pending ∧ event.poll then
        pamLdapSendBind system connection (system.states current)
      else
        system
  else
    some system

def countMessage (system : LdapSystem) (current : ConnId) : LdapSystem :=
  { system with
    states := Function.update system.states current
      { system.states current with msgid := (system.states current).msgid + 1 } }

def ackStep (system : LdapSystem) (event : LdapEvent) : Option LdapSystem :=
  if event.acked then system.ldapAuthConn.map (countMessage system) else some system

/-- The index of the entry with the least time-out below `least`. -/
def oldestEntry : List CacheEntry → Nat → UInt8 → Nat → Nat
  | [], _, _, oldest => oldest
  | entry :: rest, index, least, oldest =>
      if entry.timeout < least then oldestEntry rest (index + 1) entry.timeout index
      else oldestEntry rest (index + 1) least oldest

def cacheInsert (cache : List CacheEntry) (username password : List UInt8) : List CacheEntry :=
  cache.set (oldestEntry cache 0 255 0) ⟨strncpy username, strncpy password, cacheTime⟩

def bindResult (code : UInt8) : UInt8 :=
  if code = 0 then pamSuccess else pamDenied

/-- Store the result of a bind through `auth_state`; there is no result when
that is `NULL`. -/
def storeResult (system : LdapSystem) (connection current : ConnId) (code : UInt8) :
    Option LdapSystem :=
  let state := system.states current
  state.authState.map fun slot =>
    { system.setPamState slot (bindResult code) with
      states := Function.update system.states current
        { state with pending := false, authState := none }
      cache := if code = 0 then cacheInsert system.cache state.username state.password
        else system.cache
      writes := system.writes ++ [⟨slot, system.owner slot,
        (system.wires connection).head?.map WireBind.submitter, bindResult code⟩] }

def newdataStep (system : LdapSystem) (connection : ConnId) (event : LdapEvent) :
    Option LdapSystem :=
  match event.newdata with
  | none => some system
  | some (code, _) =>
      system.ldapAuthConn.bind fun current => storeResult system connection current code

def pamLdapMain (system : LdapSystem) (connection : ConnId) (event : LdapEvent) :
    Option LdapSystem :=
  (pollStep (dropConnection system event) connection event).bind fun system =>
    (ackStep system event).bind fun system => newdataStep system connection event

/-- What the connection of a callback is afterwards: a complete answer takes its
bind off the wire, and a closed connection answers nothing any more. -/
def settleConnection (system : LdapSystem) (connection : ConnId) (event : LdapEvent) :
    LdapSystem :=
  if event.closing then
    { system with
      wires := Function.update system.wires connection []
      phases := Function.update system.phases connection
        (if event.closed ∧ system.phases connection = .established then .lastAck else .closed) }
  else if event.newdata.any Prod.snd then
    { system with
      wires := Function.update system.wires connection (system.wires connection).tail }
  else
    system

def openSlot (system : LdapSystem) (slot : Slot) : LdapSystem :=
  { system with
    owner := Function.update system.owner slot system.nextInstance
    isOpen := Function.update system.isOpen slot true
    pamState := Function.update system.pamState slot pamUnknown
    nextInstance := system.nextInstance + 1 }

def ldapStep (system : LdapSystem) : LdapStep → Option LdapSystem
  | .openSlot slot => some (openSlot system slot)
  | .closeSlot slot =>
      some { system with isOpen := Function.update system.isOpen slot false }
  | .submit slot username password stale =>
      some (pamAuth system slot username password stale)
  | .periodic stale => some (pamLdapPeriodic system stale)
  | .callback connection event =>
      (pamLdapMain system connection event).map fun system =>
        settleConnection system connection event

/-- What uIP and the server keep to: slots are opened when free and used when
open, callbacks stop with the connection, a closing callback is neither a poll
nor a retransmission, and only binds are answered. -/
def LdapStep.Legal (system : LdapSystem) : LdapStep → Prop
  | .openSlot slot => system.isOpen slot = false
  | .closeSlot slot => system.isOpen slot = true
  | .submit slot _ _ _ => system.isOpen slot = true
  | .periodic _ => True
  | .callback connection event =>
      (system.phases connection = .established ∨
        (system.phases connection = .lastAck ∧ event.closing = true ∧ event.acked = false ∧
          event.newdata = none)) ∧
      (event.closing = true → event.poll = false ∧ event.rexmit = false) ∧
      (event.newdata ≠ none → system.wires connection ≠ [])

instance (system : LdapSystem) : ∀ step : LdapStep, Decidable (step.Legal system)
  | .openSlot _ => inferInstanceAs (Decidable (_ = _))
  | .closeSlot _ => inferInstanceAs (Decidable (_ = _))
  | .submit _ _ _ _ => inferInstanceAs (Decidable (_ = _))
  | .periodic _ => inferInstanceAs (Decidable True)
  | .callback _ _ => inferInstanceAs (Decidable ((_ ∨ _) ∧ (_ → _) ∧ (_ → _)))

/-- No connection and no authentication yet, with an empty cache. -/
def powerOn : LdapSystem where
  owner := fun _ => 0
  isOpen := fun _ => false
  pamState := fun _ => pamUnknown
  nextInstance := 1
  ldapAuthConn := none
  states := fun _ => ⟨false, 0, [], [], none, 0⟩
  phases := fun _ => .unused
  wires := fun _ => []
  nextConn := 0
  cache := List.replicate cacheSize ⟨[], [], 0⟩
  writes := []

end Ethersex.PamLdap
