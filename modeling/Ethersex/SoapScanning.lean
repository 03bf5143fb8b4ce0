import Ethersex.SoapRequests

/-!
# What the SOAP parser keeps of a tag

Inside of a tag the parser collects the bytes that it needs and takes some of them back.  Here its
buffer is a list in two parts, what is saved and what a backtrack drops; as long as the buffer
has room, the parser does the same.
-/

namespace Ethersex.Soap

open ByteMemory CStrings

/-- Where in a tag the scanner is; a string is copied or ignored. -/
inductive Within where
  | ignored
  | string (copy : Bool)
  | white
  | element

def Within.parserState : Within → ParserState
  | .ignored => .ignoreString
  | .string _ => .waitStringEnd
  | .white => .elementWhite
  | .element => .element

structure Scan where
  state : Within
  kept : List UInt8
  tail : List UInt8

namespace Scan

def content (scan : Scan) : List UInt8 := scan.kept ++ scan.tail

def put (scan : Scan) (byte : UInt8) : Scan := { scan with tail := scan.tail ++ [byte] }

def save (scan : Scan) : Scan := { scan with kept := scan.content, tail := [] }

def backtrack (scan : Scan) : Scan := { scan with tail := [] }

/-- Nothing is scanned behind the `>` of the tag. -/
def elementByte (scan : Scan) (byte : UInt8) : Option Scan :=
  if byte = 32 then some { (scan.put byte).save with state := .white }
  else if (byte = equals ∨ byte = colon) ∧ xmlnsText <:+ scan.content then
    some { scan.backtrack with state := .ignored }
  else if byte = colon then some scan.backtrack
  else if byte = greater then none
  else
    let scan := if byte = quote then { scan with state := .string true } else scan
    let scan := scan.put byte
    some (if byte = slash then scan.save else scan)

def byte (scan : Scan) (byte : UInt8) : Option Scan :=
  match scan.state with
  | .ignored => some (if byte = quote then { scan with state := .string false } else scan)
  | .string copy =>
      let scan := if copy then scan.put byte else scan
      some (if byte = quote then { scan with state := .white } else scan)
  | .white => if isblank byte then some scan else elementByte { scan with state := .element } byte
  | .element => scan.elementByte byte

def bytes (scan : Scan) (text : List UInt8) : Option Scan := text.foldlM byte scan

/-- What is handed over at the `>`. -/
def closed (scan : Scan) : List UInt8 :=
  (if scan.content.getLast?.any isblank then scan.content.dropLast else scan.content) ++ [greater]

end Scan

/-- What has been read of the document so far. -/
structure Settled where
  error : Bool
  envelope : Bool
  body : Bool
  funcname : Bool
  complete : Bool
  args : Nat → SoapData
  argslen : Nat

def Context.settled (ctx : Context) : Settled where
  error := ctx.error
  envelope := ctx.foundEnvelope
  body := ctx.foundBody
  funcname := ctx.foundFuncname
  complete := ctx.parsingComplete
  args := ctx.args
  argslen := ctx.argslen

/-- The context is the scanner inside of a tag. -/
structure Holds (scan : Scan) (settled : Settled) (ctx : Context) : Prop where
  state : ctx.parserState = scan.state.parserState
  copy : ∀ copy, scan.state = .string copy → ctx.copyString = copy
  buflen : ctx.buflen = scan.content.length
  saved : ctx.bufBacktrackPos = scan.kept.length
  stored : readBlock ctx.buf 0 scan.content.length = scan.content
  settled : ctx.settled = settled

/-- The buffer has the text of a tag up to its `>`. -/
structure Closed (text : List UInt8) (settled : Settled) (ctx : Context) : Prop where
  fits : text.length ≤ 68
  buflen : ctx.buflen = text.length
  stored : readBlock ctx.buf 0 text.length = text
  settled : ctx.settled = settled

section Scanner

variable {env : SoapEnv} {ctx : Context} {scan next : Scan} {settled : Settled}

theorem stored_append {memory : Memory} {text : List UInt8}
    (stored : readBlock memory 0 text.length = text) (byte : UInt8) :
    readBlock (Function.update memory text.length byte) 0 (text ++ [byte]).length =
      text ++ [byte] := by
  rw [readBlock_append_iff]
  constructor
  · rw [readBlock_update byte (Or.inr (by omega))]
    exact stored
  · rw [List.length_singleton, readBlock_succ, Nat.zero_add, Function.update_self]
    rfl

theorem Holds.putchar (holds : Holds scan settled ctx) (room : scan.content.length < 68)
    (byte : UInt8) : Holds (scan.put byte) settled (soapBufPutchar ctx byte) := by
  have size : bufSize = 69 := rfl
  have free : ¬bufSize - 1 ≤ ctx.buflen := by
    rw [holds.buflen]
    omega
  have content : (scan.put byte).content = scan.content ++ [byte] :=
    (List.append_assoc ..).symm
  rw [soapBufPutchar, if_neg free]
  refine ⟨holds.state, holds.copy, ?_, holds.saved, ?_, holds.settled⟩
  · rw [content, List.length_append, ← holds.buflen]
    rfl
  · rw [content, holds.buflen]
    exact stored_append holds.stored byte

theorem Holds.savepos (holds : Holds scan settled ctx) :
    Holds scan.save settled (soapBufBacktrackSavepos ctx) := by
  have content : scan.save.content = scan.content := List.append_nil _
  refine ⟨holds.state, holds.copy, ?_, holds.buflen, ?_, holds.settled⟩
  · rw [content]
    exact holds.buflen
  · rw [content]
    exact holds.stored

theorem Holds.backtrack (holds : Holds scan settled ctx) :
    Holds scan.backtrack settled (soapBufBacktrack ctx) := by
  have content : scan.backtrack.content = scan.kept := List.append_nil _
  have both := holds.stored
  rw [Scan.content, readBlock_append_iff] at both
  refine ⟨holds.state, holds.copy, ?_, holds.saved, ?_, holds.settled⟩
  · rw [content]
    exact holds.saved
  · rw [content]
    exact both.1

theorem Within.white_outside (copy : Bool) : Within.white ≠ .string copy := by
  intro same
  cases same

theorem Within.ignored_outside (copy : Bool) : Within.ignored ≠ .string copy := by
  intro same
  cases same

theorem Within.element_outside (copy : Bool) : Within.element ≠ .string copy := by
  intro same
  cases same

/-- The states of the scanner have no part in the buffer. -/
theorem Holds.moved (holds : Holds scan settled ctx) (state : Within)
    (outside : ∀ copy, state ≠ .string copy) :
    Holds { scan with state } settled { ctx with parserState := state.parserState } :=
  ⟨rfl, fun copy quoted => absurd quoted (outside copy), holds.buflen, holds.saved, holds.stored,
    holds.settled⟩

theorem Holds.quoted (holds : Holds scan settled ctx) (copy : Bool) :
    Holds { scan with state := .string copy } settled
      { ctx with copyString := copy, parserState := .waitStringEnd } :=
  ⟨rfl, fun _ same => Within.string.inj same, holds.buflen, holds.saved, holds.stored,
    holds.settled⟩

theorem Holds.behindXmlns (holds : Holds scan settled ctx) :
    behindXmlns ctx = true ↔ xmlnsText <:+ scan.content := by
  rw [Soap.behindXmlns, Bool.and_eq_true, decide_eq_true_eq, beq_iff_eq, holds.buflen]
  constructor
  · rintro ⟨long, ends⟩
    have split := readBlock_append ctx.buf 0 (scan.content.length - 5) 5
    rw [Nat.sub_add_cancel long, Nat.zero_add, holds.stored, ends] at split
    exact ⟨_, split.symm⟩
  · rintro ⟨front, whole⟩
    have stored := holds.stored
    rw [← whole, readBlock_append_iff, Nat.zero_add] at stored
    have length : scan.content.length = front.length + 5 := by
      rw [← whole, List.length_append]
      rfl
    refine ⟨by omega, ?_⟩
    rw [length, Nat.add_sub_cancel]
    exact stored.2

/-- The state `SOAP_PARSER_ELEMENT`, in front of the `>`. -/
theorem Holds.elementByte (holds : Holds scan settled ctx) (room : scan.content.length < 68)
    {byte : UInt8} (goes : scan.elementByte byte = some next) :
    Holds next settled (elementByte env ctx byte) := by
  rw [Scan.elementByte] at goes
  rw [Soap.elementByte]
  by_cases space : byte = 32
  · rw [if_pos space, Option.some.injEq] at goes
    rw [if_pos space, ← goes]
    exact (holds.putchar room byte).savepos.moved .white Within.white_outside
  rw [if_neg space] at goes ⊢
  by_cases declared : (byte = equals ∨ byte = colon) ∧ xmlnsText <:+ scan.content
  · rw [if_pos declared, Option.some.injEq] at goes
    rw [if_pos (declared.imp_right holds.behindXmlns.mpr), ← goes]
    exact holds.backtrack.moved .ignored Within.ignored_outside
  rw [if_neg declared] at goes
  rw [if_neg fun same => declared (same.imp_right holds.behindXmlns.mp)]
  by_cases namespaced : byte = colon
  · rw [if_pos namespaced, Option.some.injEq] at goes
    rw [if_pos namespaced, ← goes]
    exact holds.backtrack
  rw [if_neg namespaced] at goes ⊢
  by_cases ends : byte = greater
  · rw [if_pos ends] at goes
    cases goes
  rw [if_neg ends, Option.some.injEq] at goes
  rw [if_neg ends, ← goes]
  by_cases quoted : byte = quote
  · have notSlash : byte ≠ slash := by
      rw [quoted]
      decide
    rw [if_pos quoted, if_pos quoted, if_neg notSlash, if_neg notSlash]
    exact (holds.quoted true).putchar room byte
  · rw [if_neg quoted, if_neg quoted]
    by_cases separated : byte = slash
    · rw [if_pos separated, if_pos separated]
      exact (holds.putchar room byte).savepos
    · rw [if_neg separated, if_neg separated]
      exact holds.putchar room byte

/-- A step of the scanner is a turn of the loop. -/
theorem Holds.byte (holds : Holds scan settled ctx) (env : SoapEnv)
    (room : scan.content.length < 68) {byte : UInt8} (goes : scan.byte byte = some next) :
    isStray ctx byte = false ∧ Holds next settled (soapByte env ctx byte) := by
  rw [Scan.byte] at goes
  rw [isStray, soapByte, holds.state]
  cases state : scan.state with
  | ignored =>
      rw [state] at goes
      refine ⟨rfl, ?_⟩
      rw [← Option.some.inj goes]
      dsimp only [Within.parserState]
      split_ifs
      · exact holds.quoted false
      · exact holds
  | string copy =>
      rw [state] at goes
      refine ⟨rfl, ?_⟩
      rw [← Option.some.inj goes]
      dsimp only [Within.parserState]
      rw [holds.copy copy state]
      split_ifs
      · exact (holds.putchar room byte).moved .white Within.white_outside
      · exact holds.moved .white Within.white_outside
      · exact holds.putchar room byte
      · exact holds
  | white =>
      rw [state] at goes
      refine ⟨rfl, ?_⟩
      dsimp only [Within.parserState] at goes ⊢
      split_ifs at goes ⊢ with blank
      · rw [← Option.some.inj goes]
        exact holds
      · exact (holds.moved .element Within.element_outside).elementByte room goes
  | element =>
      rw [state] at goes
      exact ⟨rfl, holds.elementByte room goes⟩

theorem Scan.content_put (scan : Scan) (byte : UInt8) :
    (scan.put byte).content = scan.content ++ [byte] :=
  (List.append_assoc ..).symm

theorem Scan.content_save (scan : Scan) : scan.save.content = scan.content := List.append_nil _

theorem Scan.length_backtrack (scan : Scan) :
    scan.backtrack.content.length ≤ scan.content.length := by
  rw [Scan.content, Scan.content, List.length_append, List.length_append]
  exact Nat.add_le_add_left (Nat.zero_le _) _

/-- No byte adds more than itself. -/
theorem Scan.length_elementByte (scan : Scan) {byte : UInt8}
    (goes : scan.elementByte byte = some next) :
    next.content.length ≤ scan.content.length + 1 := by
  have put := congrArg List.length (scan.content_put byte)
  rw [List.length_append, List.length_singleton] at put
  have save := congrArg List.length (scan.put byte).content_save
  have backtrack := scan.length_backtrack
  rw [Scan.elementByte] at goes
  split_ifs at goes
  all_goals
    cases goes
    simp only [Scan.content, Scan.put, Scan.save, Scan.backtrack] at put save backtrack ⊢
    omega

theorem Scan.length_byte (scan : Scan) {byte : UInt8} (goes : scan.byte byte = some next) :
    next.content.length ≤ scan.content.length + 1 := by
  have put := congrArg List.length (scan.content_put byte)
  rw [List.length_append, List.length_singleton] at put
  rw [Scan.byte] at goes
  split at goes
  · cases goes
    split_ifs <;> exact Nat.le_succ _
  · cases goes
    split_ifs
    · exact Nat.le_of_eq put
    · exact Nat.le_succ _
    · exact Nat.le_of_eq put
    · exact Nat.le_succ _
  · split_ifs at goes
    · cases goes
      exact Nat.le_succ _
    · exact Scan.length_elementByte { scan with state := .element } goes
  · exact Scan.length_elementByte scan goes

/-- The scanner goes through a text, and so does the parser. -/
theorem Holds.bytes {text : List UInt8} (holds : Holds scan settled ctx) (env : SoapEnv)
    (goes : scan.bytes text = some next) (room : scan.content.length + text.length ≤ 68) :
    Holds next settled (soapBytes env ctx text) ∧
      next.content.length ≤ scan.content.length + text.length := by
  induction text generalizing scan ctx with
  | nil =>
      cases goes
      exact ⟨holds, Nat.le_refl _⟩
  | cons byte text ih =>
      rw [List.length_cons] at room ⊢
      obtain ⟨middle, first, rest⟩ := Option.bind_eq_some_iff.mp goes
      have longer := Scan.length_byte scan first
      obtain ⟨inElement, step⟩ := holds.byte env (by omega) first
      obtain ⟨later, bound⟩ := ih step rest (by omega)
      rw [soapBytes, if_neg (ne_true_of_eq_false inElement)]
      exact ⟨later, by omega⟩

end Scanner

namespace Scan

variable {state : Within} {kept tail text : List UInt8} {byte : UInt8}

/-- The scanner is not in a string. -/
def InTag (state : Within) : Prop := state = .element ∨ state = .white

end Scan

end Ethersex.Soap
