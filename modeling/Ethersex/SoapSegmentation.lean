import Ethersex.SoapServer

/-!
# SOAP requests cut into segments

The parser keeps its state between the segments of a request, so a request should
be answered in the same way however it is cut.  This fails in two places: the end
of the header is looked for in each segment alone, and the function is called at
the end of the segment with `</Body>`, although bytes behind it still report errors
and add arguments.  Away from both, every way to cut a request gives the outcome of
the request in one segment.
-/

namespace Ethersex.Soap

open ByteMemory CStrings

/-- The context in which the text behind the header is parsed. -/
def begun : Context := { soapInitializeContext with parsing := true }

/-- Where the parser is started, counted from the beginning of the stream. -/
def parsingStart : List (List UInt8) → Option Nat
  | [] => none
  | segment :: segments =>
      match headerEnd segment with
      | some start => some start
      | none => (parsingStart segments).map (segment.length + ·)

/-- The byte ends a text that is taken for an argument. -/
def endsText (ctx : Context) (byte : UInt8) : Bool :=
  ctx.parserState == .data && byte == less && ctx.buflen != 0 && decide (ctx.argslen < soapMaxargs)

/-- The bytes neither report an error between two elements nor add an argument. -/
def Quiet (env : SoapEnv) : Context → List UInt8 → Prop
  | _, [] => True
  | ctx, byte :: bytes =>
      isStray ctx byte = false ∧ endsText ctx byte = false ∧ Quiet env (soapByte env ctx byte) bytes

/-- The context at the end of these segments, parsed from `start` on. -/
def parsed (env : SoapEnv) (segments : List (List UInt8)) (start : Nat) : Context :=
  soapBytes env begun (segments.flatten.drop start)

/-- What arrives in later segments than the end of `</Body>` is quiet. -/
def QuietBehindBody (env : SoapEnv) (segments : List (List UInt8)) : Prop :=
  ∀ first second, segments = first ++ second → ∀ start, parsingStart first = some start →
    (parsed env first start).parsingComplete = true → (parsed env first start).error = false →
      Quiet env (parsed env first start) second.flatten

/-- The same calls, and the same response. -/
structure SameOutcome (left right : Connection) : Prop where
  calls : left.calls = right.calls
  answered : left.responses = [] ↔ right.responses = []
  responses : ∀ first ∈ left.responses, ∀ second ∈ right.responses, first = second

structure Advances (before after : Context) : Prop where
  error : before.error = true → after.error = true
  complete : before.parsingComplete = true → after.parsingComplete = true
  reported : after.error = true → before.error = true ∨ after.parsingComplete = true
  evaluated : after.evaluated = before.evaluated
  parsing : after.parsing = before.parsing

section Advancing

variable {first second third : Context}

theorem Advances.refl (ctx : Context) : Advances ctx ctx :=
  ⟨id, id, .inl, rfl, rfl⟩

theorem Advances.trans (earlier : Advances first second) (later : Advances second third) :
    Advances first third where
  error failed := later.error (earlier.error failed)
  complete ended := later.complete (earlier.complete ended)
  reported failed := by
    rcases later.reported failed with failedBefore | ended
    · rcases earlier.reported failedBefore with failedFirst | endedBefore
      · exact .inl failedFirst
      · exact .inr (later.complete endedBefore)
    · exact .inr ended
  evaluated := later.evaluated.trans earlier.evaluated
  parsing := later.parsing.trans earlier.parsing

/-- A change of nothing but the parser's own variables. -/
theorem Advances.of_same (error : second.error = first.error)
    (complete : second.parsingComplete = first.parsingComplete)
    (evaluated : second.evaluated = first.evaluated) (parsing : second.parsing = first.parsing) :
    Advances first second := by
  refine ⟨?_, ?_, ?_, evaluated, parsing⟩
  · rw [error]
    exact id
  · rw [complete]
    exact id
  · rw [error]
    exact .inl

theorem advances_streamError (ctx : Context) : Advances ctx (streamError ctx) :=
  ⟨fun _ => rfl, fun _ => rfl, fun _ => .inr rfl, rfl, rfl⟩

theorem advances_putchar (ctx : Context) (byte : UInt8) :
    Advances ctx (soapBufPutchar ctx byte) := by
  rw [soapBufPutchar]
  split
  · exact .refl ctx
  · exact .of_same rfl rfl rfl rfl

theorem advances_lookupFuncname (env : SoapEnv) (ctx : Context) :
    Advances ctx (soapLookupFuncname env ctx) := by
  rw [soapLookupFuncname]
  dsimp only
  split
  · apply Advances.trans _ (advances_streamError _)
    exact .of_same rfl rfl rfl rfl
  · exact .of_same rfl rfl rfl rfl

theorem advances_parseType (ctx : Context) : Advances ctx (soapParseType ctx) := by
  rw [soapParseType]
  split
  · exact advances_streamError ctx
  · dsimp only
    split
    · exact advances_streamError ctx
    · split
      · exact advances_streamError ctx
      · split
        · exact .of_same rfl rfl rfl rfl
        · split
          · exact .of_same rfl rfl rfl rfl
          · apply Advances.trans _ (advances_streamError _)
            exact .of_same rfl rfl rfl rfl

theorem advances_parseTag (env : SoapEnv) (ctx : Context) :
    Advances ctx (soapParseTag env ctx) := by
  rw [soapParseTag]
  split
  · split
    · exact .of_same rfl rfl rfl rfl
    · exact advances_streamError ctx
  · split
    · split
      · exact .of_same rfl rfl rfl rfl
      · exact .refl ctx
    · split
      · exact (advances_lookupFuncname env ctx).trans (.of_same rfl rfl rfl rfl)
      · split
        · exact ⟨id, fun _ => rfl, .inl, rfl, rfl⟩
        · split
          · exact advances_parseType ctx
          · exact .refl ctx

theorem advances_parseElement (env : SoapEnv) (ctx : Context) :
    Advances ctx (soapParseElement env ctx) := by
  rw [soapParseElement]
  split
  · exact advances_streamError ctx
  · split
    · exact .refl ctx
    · split
      · exact .refl ctx
      · apply Advances.trans _ (advances_parseTag env _)
        exact .of_same rfl rfl rfl rfl

theorem advances_parseData (env : SoapEnv) (ctx : Context) :
    Advances ctx (soapParseData env ctx) := by
  rw [soapParseData]
  split
  · exact .refl ctx
  · dsimp only
    split
    · exact .of_same rfl rfl rfl rfl
    · split
      · exact .of_same rfl rfl rfl rfl
      · exact .of_same rfl rfl rfl rfl
    · exact .of_same rfl rfl rfl rfl

theorem advances_endElement (env : SoapEnv) (ctx : Context) :
    Advances ctx (endElement env ctx) := by
  have stripped : Advances ctx (stripBlank ctx) := by
    rw [stripBlank]
    split
    · exact .of_same rfl rfl rfl rfl
    · exact .refl ctx
  have read := (stripped.trans (advances_putchar _ greater)).trans (advances_parseElement env _)
  rw [endElement]
  generalize soapParseElement env (soapBufPutchar (stripBlank ctx) greater) = parsed at read ⊢
  apply read.trans
  exact .of_same rfl rfl rfl rfl

theorem advances_elementByte (env : SoapEnv) (ctx : Context) (byte : UInt8) :
    Advances ctx (elementByte env ctx byte) := by
  rw [elementByte]
  split
  · exact (advances_putchar ctx byte).trans (.of_same rfl rfl rfl rfl)
  · split
    · exact .of_same rfl rfl rfl rfl
    · split
      · exact .of_same rfl rfl rfl rfl
      · split
        · exact advances_endElement env ctx
        · have opened : Advances ctx (if byte = quote then
              { ctx with copyString := true, parserState := .waitStringEnd } else ctx) := by
            split
            · exact .of_same rfl rfl rfl rfl
            · exact .refl ctx
          dsimp only
          split
          · exact (opened.trans (advances_putchar _ byte)).trans (.of_same rfl rfl rfl rfl)
          · exact opened.trans (advances_putchar _ byte)

theorem advances_dataByte (env : SoapEnv) (ctx : Context) (byte : UInt8) :
    Advances ctx (dataByte env ctx byte) := by
  have opened : Advances ctx (if byte = less then
      { soapBufClear (if ctx.buflen ≠ 0 then soapParseData env ctx else ctx) with
        parserState := .element } else ctx) := by
    split
    · split
      · exact (advances_parseData env ctx).trans (.of_same rfl rfl rfl rfl)
      · exact .of_same rfl rfl rfl rfl
    · exact .refl ctx
  apply (opened.trans (advances_putchar _ byte)).trans
  exact .of_same rfl rfl rfl rfl

theorem advances_soapByte (env : SoapEnv) (ctx : Context) (byte : UInt8) :
    Advances ctx (soapByte env ctx byte) := by
  rw [soapByte]
  split
  · split
    · exact .refl ctx
    · exact (advances_putchar ctx byte).trans (.of_same rfl rfl rfl rfl)
  · split
    · exact .of_same rfl rfl rfl rfl
    · exact .refl ctx
  · dsimp only
    have copied : Advances ctx (if ctx.copyString then soapBufPutchar ctx byte else ctx) := by
      split
      · exact advances_putchar ctx byte
      · exact .refl ctx
    split
    · exact copied.trans (.of_same rfl rfl rfl rfl)
    · exact copied
  · split
    · exact .refl ctx
    · apply Advances.trans _ (advances_elementByte env _ byte)
      exact .of_same rfl rfl rfl rfl
  · exact advances_elementByte env ctx byte
  · exact advances_dataByte env ctx byte

theorem advances_soapBytes (env : SoapEnv) (ctx : Context) (bytes : List UInt8) :
    Advances ctx (soapBytes env ctx bytes) := by
  induction bytes generalizing ctx with
  | nil => exact .refl ctx
  | cons byte bytes ih =>
      rw [soapBytes]
      split
      · exact advances_streamError ctx
      · exact (advances_soapByte env ctx byte).trans (ih _)

end Advancing

section Cutting

variable {env : SoapEnv} {ctx : Context} {first second : List UInt8}

/-- Without an error, parsing goes on where it has stopped. -/
theorem soapBytes_append (fine : (soapBytes env ctx first).error = false) :
    soapBytes env ctx (first ++ second) = soapBytes env (soapBytes env ctx first) second := by
  induction first generalizing ctx with
  | nil => rfl
  | cons byte first ih =>
      rw [soapBytes] at fine
      rw [List.cons_append, soapBytes, soapBytes]
      split at fine
      · cases fine
      · rename_i inElement
        rw [if_neg inElement, if_neg inElement]
        exact ih fine

theorem error_append (failed : (soapBytes env ctx first).error = true) (second : List UInt8) :
    (soapBytes env ctx (first ++ second)).error = true := by
  induction first generalizing ctx with
  | nil => exact (advances_soapBytes env ctx second).error failed
  | cons byte first ih =>
      rw [soapBytes] at failed
      rw [List.cons_append, soapBytes]
      split
      · rfl
      · rename_i inElement
        rw [if_neg inElement] at failed
        exact ih failed

end Cutting

/-- The buffer begins with `<`, and it is never taken back. -/
structure Inside (ctx : Context) : Prop where
  front : ctx.buf 0 = less
  filled : 0 < ctx.buflen
  saved : 0 < ctx.bufBacktrackPos

/-- The buffer is empty between two elements, and begins with `<` inside of one. -/
structure Tagged (ctx : Context) : Prop where
  between : ctx.parserState = .white → ctx.buflen = 0
  inside : ctx.parserState ≠ .white → ctx.parserState ≠ .data → Inside ctx

/-- The context with what the function has returned. -/
def Context.withResult (ctx : Context) (args : Nat → SoapData) : Context :=
  { ctx with args, evaluated := true }

/-- Nothing but the scanner has moved. -/
structure Rests (before after : Context) : Prop where
  error : after.error = before.error
  complete : after.parsingComplete = before.parsingComplete
  args : after.args = before.args
  argslen : after.argslen = before.argslen
  rpc : after.rpc = before.rpc

section Behind

variable {env : SoapEnv} {ctx first second third : Context} {byte : UInt8}
  {args : Nat → SoapData}

theorem Rests.refl (ctx : Context) : Rests ctx ctx := ⟨rfl, rfl, rfl, rfl, rfl⟩

theorem Rests.trans (earlier : Rests first second) (later : Rests second third) :
    Rests first third :=
  ⟨later.error.trans earlier.error, later.complete.trans earlier.complete,
    later.args.trans earlier.args, later.argslen.trans earlier.argslen,
    later.rpc.trans earlier.rpc⟩

theorem rests_putchar (ctx : Context) (byte : UInt8) : Rests ctx (soapBufPutchar ctx byte) := by
  rw [soapBufPutchar]
  split
  · exact .refl ctx
  · exact ⟨rfl, rfl, rfl, rfl, rfl⟩

theorem parserState_putchar (ctx : Context) (byte : UInt8) :
    (soapBufPutchar ctx byte).parserState = ctx.parserState := by
  rw [soapBufPutchar]
  split
  · rfl
  · rfl

theorem buflen_putchar (ctx : Context) (byte : UInt8) :
    ctx.buflen ≤ (soapBufPutchar ctx byte).buflen ∧
      (ctx.buflen = 0 → (soapBufPutchar ctx byte).buflen = 1 ∧
        (soapBufPutchar ctx byte).buf 0 = byte) := by
  have size : bufSize = 69 := rfl
  rw [soapBufPutchar]
  split
  · refine ⟨Nat.le_refl _, ?_⟩
    intro empty
    omega
  · refine ⟨Nat.le_succ _, ?_⟩
    intro empty
    dsimp only
    rw [empty]
    exact ⟨rfl, Function.update_self ..⟩

theorem front_putchar (ctx : Context) (byte : UInt8) (positive : 0 < ctx.buflen) :
    (soapBufPutchar ctx byte).buf 0 = ctx.buf 0 := by
  rw [soapBufPutchar]
  split
  · rfl
  · exact Function.update_of_ne (by omega) ..

theorem backtrack_putchar (ctx : Context) (byte : UInt8) :
    (soapBufPutchar ctx byte).bufBacktrackPos = ctx.bufBacktrackPos := by
  rw [soapBufPutchar]
  split
  · rfl
  · rfl

theorem putchar_withResult (ctx : Context) (byte : UInt8) (args : Nat → SoapData) :
    soapBufPutchar (ctx.withResult args) byte = (soapBufPutchar ctx byte).withResult args := by
  rw [soapBufPutchar, soapBufPutchar]
  split
  · rename_i full
    rw [if_pos (show bufSize - 1 ≤ ctx.buflen from full)]
  · rename_i free
    rw [if_neg (show ¬bufSize - 1 ≤ ctx.buflen from free)]
    rfl

theorem stripBlank_front (front : ctx.buf 0 = less) (positive : 0 < ctx.buflen) :
    (stripBlank ctx).buf 0 = less ∧ 0 < (stripBlank ctx).buflen := by
  rw [stripBlank]
  split
  · rename_i blank
    refine ⟨front, ?_⟩
    have notFirst : ctx.buflen - 1 ≠ 0 := by
      intro first
      rw [first, front] at blank
      exact absurd blank.2 (by decide)
    dsimp only
    omega
  · exact ⟨front, positive⟩

theorem stripBlank_withResult (ctx : Context) (args : Nat → SoapData) :
    stripBlank (ctx.withResult args) = (stripBlank ctx).withResult args := by
  rw [stripBlank, stripBlank]
  split
  · rename_i blank
    rw [if_pos (show ctx.buflen ≠ 0 ∧ isblank (ctx.buf (ctx.buflen - 1)) = true from blank)]
    rfl
  · rename_i solid
    rw [if_neg (show ¬(ctx.buflen ≠ 0 ∧ isblank (ctx.buf (ctx.buflen - 1)) = true) from solid)]

theorem rests_stripBlank (ctx : Context) : Rests ctx (stripBlank ctx) := by
  rw [stripBlank]
  split
  · exact ⟨rfl, rfl, rfl, rfl, rfl⟩
  · exact .refl ctx

/-- Behind the body an element is skipped. -/
theorem soapParseElement_complete (env : SoapEnv) (front : ctx.buf 0 = less)
    (complete : ctx.parsingComplete = true) : soapParseElement env ctx = ctx := by
  rw [soapParseElement, if_neg (not_not_intro front), if_pos complete, ite_self]

theorem endElement_complete (env : SoapEnv) (front : ctx.buf 0 = less)
    (positive : 0 < ctx.buflen) (complete : ctx.parsingComplete = true) :
    endElement env ctx = closeElement (soapBufPutchar (stripBlank ctx) greater) := by
  obtain ⟨frontStripped, positiveStripped⟩ := stripBlank_front front positive
  rw [endElement, soapParseElement_complete env]
  · rw [front_putchar _ _ positiveStripped]
    exact frontStripped
  · rw [(rests_putchar _ _).complete, (rests_stripBlank ctx).complete]
    exact complete

theorem rests_endElement (env : SoapEnv) (front : ctx.buf 0 = less) (positive : 0 < ctx.buflen)
    (complete : ctx.parsingComplete = true) : Rests ctx (endElement env ctx) := by
  rw [endElement_complete env front positive complete]
  apply ((rests_stripBlank ctx).trans (rests_putchar _ greater)).trans
  exact ⟨rfl, rfl, rfl, rfl, rfl⟩

theorem endElement_withResult (env : SoapEnv) (front : ctx.buf 0 = less)
    (positive : 0 < ctx.buflen) (complete : ctx.parsingComplete = true) :
    endElement env (ctx.withResult args) = (endElement env ctx).withResult args := by
  have complete' : (ctx.withResult args).parsingComplete = true := complete
  rw [endElement_complete env front positive complete,
    endElement_complete env (show (ctx.withResult args).buf 0 = less from front) positive complete',
    stripBlank_withResult, putchar_withResult]
  rfl

/-- The variables of the scanner that a byte inside of an element changes first. -/
def openString (ctx : Context) (byte : UInt8) : Context :=
  if byte = quote then { ctx with copyString := true, parserState := .waitStringEnd } else ctx

theorem rests_elementByte (env : SoapEnv) (ctx : Context) (front : ctx.buf 0 = less)
    (positive : 0 < ctx.buflen) (complete : ctx.parsingComplete = true) (byte : UInt8) :
    Rests ctx (elementByte env ctx byte) := by
  rw [elementByte]
  split
  · exact (rests_putchar ctx byte).trans ⟨rfl, rfl, rfl, rfl, rfl⟩
  · split
    · exact ⟨rfl, rfl, rfl, rfl, rfl⟩
    · split
      · exact ⟨rfl, rfl, rfl, rfl, rfl⟩
      · split
        · exact rests_endElement env front positive complete
        · have opened : Rests ctx (openString ctx byte) := by
            rw [openString]
            split
            · exact ⟨rfl, rfl, rfl, rfl, rfl⟩
            · exact .refl ctx
          have put := opened.trans (rests_putchar _ byte)
          dsimp only
          split
          · exact put.trans ⟨rfl, rfl, rfl, rfl, rfl⟩
          · exact put

theorem elementByte_withResult (env : SoapEnv) (ctx : Context) (front : ctx.buf 0 = less)
    (positive : 0 < ctx.buflen) (complete : ctx.parsingComplete = true) (byte : UInt8) :
    elementByte env (ctx.withResult args) byte = (elementByte env ctx byte).withResult args := by
  have xmlns : behindXmlns (ctx.withResult args) = behindXmlns ctx := rfl
  have opened : openString (ctx.withResult args) byte = (openString ctx byte).withResult args := by
    rw [openString, openString]
    split
    · rfl
    · rfl
  rw [elementByte, elementByte, xmlns]
  split
  · rw [putchar_withResult]
    rfl
  · split
    · rfl
    · split
      · rfl
      · split
        · exact endElement_withResult env front positive complete
        · rw [openString] at opened
          dsimp only
          rw [opened, putchar_withResult]
          rw [openString]
          split
          · rfl
          · rfl

/-- What follows an element in front of the next one. -/
def openElement (ctx : Context) (byte : UInt8) : Context :=
  if byte = less then { soapBufClear ctx with parserState := .element } else ctx

theorem dataByte_quiet (env : SoapEnv) (state : ctx.parserState = .data)
    (quiet : endsText ctx byte = false) :
    dataByte env ctx byte =
      soapBufBacktrackSavepos (soapBufPutchar (openElement ctx byte) byte) := by
  have skipped : byte = less → (if ctx.buflen ≠ 0 then soapParseData env ctx else ctx) = ctx := by
    intro opens
    rw [endsText, state, opens] at quiet
    split
    · rename_i text
      rw [soapParseData, if_pos]
      by_contra free
      simp [text, Nat.not_le.mp free] at quiet
    · rfl
  rw [dataByte, openElement]
  dsimp only
  split
  · rename_i opens
    rw [skipped opens]
  · rfl

theorem rests_dataByte (env : SoapEnv) (state : ctx.parserState = .data)
    (quiet : endsText ctx byte = false) : Rests ctx (dataByte env ctx byte) := by
  have opened : Rests ctx (openElement ctx byte) := by
    rw [openElement]
    split
    · exact ⟨rfl, rfl, rfl, rfl, rfl⟩
    · exact .refl ctx
  rw [dataByte_quiet env state quiet]
  apply (opened.trans (rests_putchar _ byte)).trans
  exact ⟨rfl, rfl, rfl, rfl, rfl⟩

theorem dataByte_withResult (env : SoapEnv) (state : ctx.parserState = .data)
    (quiet : endsText ctx byte = false) :
    dataByte env (ctx.withResult args) byte = (dataByte env ctx byte).withResult args := by
  have opened : openElement (ctx.withResult args) byte =
      (openElement ctx byte).withResult args := by
    rw [openElement, openElement]
    split
    · rfl
    · rfl
  rw [dataByte_quiet env state quiet,
    dataByte_quiet env (show (ctx.withResult args).parserState = .data from state) quiet, opened,
    putchar_withResult]
  rfl

theorem rests_soapByte (env : SoapEnv) (tagged : Tagged ctx)
    (complete : ctx.parsingComplete = true) (quiet : endsText ctx byte = false) :
    Rests ctx (soapByte env ctx byte) := by
  rw [soapByte]
  split
  · split
    · exact .refl ctx
    · exact (rests_putchar ctx byte).trans ⟨rfl, rfl, rfl, rfl, rfl⟩
  · split
    · exact ⟨rfl, rfl, rfl, rfl, rfl⟩
    · exact .refl ctx
  · have copied : Rests ctx (if ctx.copyString then soapBufPutchar ctx byte else ctx) := by
      split
      · exact rests_putchar ctx byte
      · exact .refl ctx
    dsimp only
    split
    · exact copied.trans ⟨rfl, rfl, rfl, rfl, rfl⟩
    · exact copied
  · rename_i state
    have inside := tagged.inside (by rw [state]; decide) (by rw [state]; decide)
    split
    · exact .refl ctx
    · have moved := rests_elementByte env { ctx with parserState := .element } inside.front
        inside.filled complete byte
      exact ⟨moved.error, moved.complete, moved.args, moved.argslen, moved.rpc⟩
  · rename_i state
    have inside := tagged.inside (by rw [state]; decide) (by rw [state]; decide)
    exact rests_elementByte env ctx inside.front inside.filled complete byte
  · rename_i state
    exact rests_dataByte env state quiet

theorem soapByte_withResult (env : SoapEnv) (tagged : Tagged ctx)
    (complete : ctx.parsingComplete = true) (quiet : endsText ctx byte = false) :
    soapByte env (ctx.withResult args) byte = (soapByte env ctx byte).withResult args := by
  have sameState : (ctx.withResult args).parserState = ctx.parserState := rfl
  rw [soapByte, soapByte, sameState]
  cases state : ctx.parserState with
  | white =>
      dsimp only
      split
      · rfl
      · rw [putchar_withResult]
        rfl
  | ignoreString =>
      dsimp only
      split
      · rfl
      · rfl
  | waitStringEnd =>
      have copied : (if (ctx.withResult args).copyString then
          soapBufPutchar (ctx.withResult args) byte else ctx.withResult args) =
            (if ctx.copyString then soapBufPutchar ctx byte else ctx).withResult args := by
        rw [putchar_withResult]
        change (if ctx.copyString = true then _ else _) = _
        split
        · rfl
        · rfl
      dsimp only
      rw [copied]
      split
      · rfl
      · rfl
  | elementWhite =>
      have inside := tagged.inside (by rw [state]; decide) (by rw [state]; decide)
      dsimp only
      split
      · rfl
      · exact elementByte_withResult env { ctx with parserState := .element } inside.front
          inside.filled complete byte
  | element =>
      have inside := tagged.inside (by rw [state]; decide) (by rw [state]; decide)
      exact elementByte_withResult env ctx inside.front inside.filled complete byte
  | data => exact dataByte_withResult env state quiet

theorem Inside.putchar (inside : Inside ctx) (byte : UInt8) : Inside (soapBufPutchar ctx byte) where
  front := (front_putchar ctx byte inside.filled).trans inside.front
  filled := Nat.lt_of_lt_of_le inside.filled (buflen_putchar ctx byte).1
  saved := by
    rw [backtrack_putchar]
    exact inside.saved

theorem Inside.savepos (inside : Inside ctx) : Inside (soapBufBacktrackSavepos ctx) :=
  ⟨inside.front, inside.filled, inside.filled⟩

theorem Inside.backtrack (inside : Inside ctx) : Inside (soapBufBacktrack ctx) :=
  ⟨inside.front, inside.saved, inside.saved⟩

/-- The `<` is put into the empty buffer. -/
theorem inside_opened (empty : ctx.buflen = 0) :
    Inside (soapBufBacktrackSavepos (soapBufPutchar ctx less)) := by
  obtain ⟨filled, front⟩ := (buflen_putchar ctx less).2 empty
  have positive : 0 < (soapBufPutchar ctx less).buflen := by omega
  exact ⟨front, positive, positive⟩

theorem Inside.tagged (inside : Inside ctx) (state : ctx.parserState ≠ .white) : Tagged ctx :=
  ⟨fun white => absurd white state, fun _ _ => inside⟩

theorem tagged_closeElement (ctx : Context) : Tagged (closeElement ctx) := by
  refine ⟨fun _ => rfl, fun notWhite notData => ?_⟩
  rw [closeElement, soapBufClear] at notWhite notData
  by_cases ends : 2 < ctx.buflen ∧ ctx.buf 1 = slash
  · exact absurd (if_pos ends) notWhite
  · exact absurd (if_neg ends) notData

theorem tagged_elementByte (env : SoapEnv) (ctx : Context) (inside : Inside ctx)
    (state : ctx.parserState = .element) (byte : UInt8) : Tagged (elementByte env ctx byte) := by
  rw [elementByte]
  split
  · have added := (inside.putchar byte).savepos
    exact Inside.tagged ⟨added.front, added.filled, added.saved⟩ nofun
  · split
    · exact Inside.tagged ⟨inside.front, inside.saved, inside.saved⟩ nofun
    · split
      · exact inside.backtrack.tagged (by rw [soapBufBacktrack, state]; decide)
      · split
        · exact tagged_closeElement _
        · have opened : Inside (openString ctx byte) ∧
              (openString ctx byte).parserState ≠ .white := by
            rw [openString]
            split
            · exact ⟨⟨inside.front, inside.filled, inside.saved⟩, nofun⟩
            · exact ⟨inside, by rw [state]; decide⟩
          have put := opened.1.putchar byte
          have putState : (soapBufPutchar (openString ctx byte) byte).parserState ≠ .white := by
            rw [parserState_putchar]
            exact opened.2
          dsimp only
          split
          · exact put.savepos.tagged putState
          · exact put.tagged putState

theorem tagged_dataByte (env : SoapEnv) (state : ctx.parserState = .data) (byte : UInt8) :
    Tagged (dataByte env ctx byte) := by
  rw [dataByte]
  dsimp only
  split
  · rename_i opens
    rw [opens]
    apply Inside.tagged (inside_opened rfl)
    rw [soapBufBacktrackSavepos, parserState_putchar]
    exact nofun
  · have same : (soapBufBacktrackSavepos (soapBufPutchar ctx byte)).parserState = .data := by
      rw [soapBufBacktrackSavepos, parserState_putchar]
      exact state
    refine ⟨fun white => ?_, fun _ notData => absurd same notData⟩
    rw [same] at white
    cases white

theorem tagged_soapByte (env : SoapEnv) (tagged : Tagged ctx)
    (inElement : isStray ctx byte = false) : Tagged (soapByte env ctx byte) := by
  rw [soapByte]
  split
  · rename_i state
    split
    · exact tagged
    · rename_i solid
      have opens : byte = less := by
        rw [isStray, state] at inElement
        simpa [solid] using inElement
      rw [opens]
      have opened := inside_opened (tagged.between state)
      exact Inside.tagged ⟨opened.front, opened.filled, opened.saved⟩ nofun
  · rename_i state
    have inside := tagged.inside (by rw [state]; decide) (by rw [state]; decide)
    split
    · exact Inside.tagged ⟨inside.front, inside.filled, inside.saved⟩ nofun
    · exact tagged
  · rename_i state
    have inside := tagged.inside (by rw [state]; decide) (by rw [state]; decide)
    have copied : Inside (if ctx.copyString then soapBufPutchar ctx byte else ctx) ∧
        (if ctx.copyString then soapBufPutchar ctx byte else ctx).parserState ≠ .white := by
      split
      · refine ⟨inside.putchar byte, ?_⟩
        rw [parserState_putchar, state]
        decide
      · exact ⟨inside, by rw [state]; decide⟩
    dsimp only
    split
    · exact Inside.tagged ⟨copied.1.front, copied.1.filled, copied.1.saved⟩ nofun
    · exact copied.1.tagged copied.2
  · rename_i state
    have inside := tagged.inside (by rw [state]; decide) (by rw [state]; decide)
    split
    · exact tagged
    · exact tagged_elementByte env { ctx with parserState := .element }
        ⟨inside.front, inside.filled, inside.saved⟩ rfl byte
  · rename_i state
    have inside := tagged.inside (by rw [state]; decide) (by rw [state]; decide)
    exact tagged_elementByte env ctx inside state byte
  · rename_i state
    exact tagged_dataByte env state byte

/-- Without an error the scanner is in order at the end. -/
theorem tagged_soapBytes (env : SoapEnv) {bytes : List UInt8} (tagged : Tagged ctx)
    (fine : (soapBytes env ctx bytes).error = false) : Tagged (soapBytes env ctx bytes) := by
  induction bytes generalizing ctx with
  | nil => exact tagged
  | cons byte bytes ih =>
      rw [soapBytes] at fine ⊢
      split
      · rename_i stray
        rw [if_pos stray] at fine
        cases fine
      · rename_i inElement
        rw [if_neg inElement] at fine
        exact ih (tagged_soapByte env tagged (by simpa using inElement)) fine

theorem tagged_begun : Tagged begun :=
  ⟨fun _ => rfl, fun notWhite => absurd rfl notWhite⟩

/-- Quiet bytes behind the body change nothing but the scanner, also when the function has been
called. -/
theorem soapBytes_quiet (env : SoapEnv) {bytes : List UInt8} (tagged : Tagged ctx)
    (complete : ctx.parsingComplete = true) (quiet : Quiet env ctx bytes) :
    Rests ctx (soapBytes env ctx bytes) ∧
      ∀ args, soapBytes env (ctx.withResult args) bytes =
        (soapBytes env ctx bytes).withResult args := by
  induction bytes generalizing ctx with
  | nil => exact ⟨.refl ctx, fun _ => rfl⟩
  | cons byte bytes ih =>
      obtain ⟨inElement, noText, rest⟩ := quiet
      have rests := rests_soapByte env tagged complete noText
      obtain ⟨restsRest, resultRest⟩ := ih (tagged_soapByte env tagged inElement)
        (rests.complete.trans complete) rest
      have notStray : ¬isStray ctx byte = true := by simpa using inElement
      constructor
      · rw [soapBytes, if_neg notStray]
        exact rests.trans restsRest
      · intro args
        have sameStray : isStray (ctx.withResult args) byte = isStray ctx byte := rfl
        rw [soapBytes, soapBytes, sameStray, if_neg notStray, if_neg notStray,
          soapByte_withResult env tagged complete noText]
        exact resultRest args

theorem Quiet.left {env : SoapEnv} {first second : List UInt8}
    (quiet : Quiet env ctx (first ++ second)) : Quiet env ctx first := by
  induction first generalizing ctx with
  | nil => trivial
  | cons byte first ih => exact ⟨quiet.1, quiet.2.1, ih quiet.2.2⟩

end Behind

/-- The connection has done what the text so far, parsed in one go, asks for. -/
inductive Follows (env : SoapEnv) (text : Context) (connection : Connection) : Prop
  | reading (soap : connection.soap = text) (unfinished : text.parsingComplete = false)
      (fine : text.error = false) (calls : connection.calls = [])
      (responses : connection.responses = []) (notClosed : connection.closed = false)
  | failed (error : text.error = true) (calls : connection.calls = [])
      (answered : connection.responses ≠ [])
      (faults : ∀ answer ∈ connection.responses, answer = .fault)
      (goesOn : connection.closed = false → connection.soap.error = true ∧
        connection.soap.parsingComplete = true ∧ connection.soap.parsing = true)
  | served (complete : text.parsingComplete = true) (fine : text.error = false)
      (calls : connection.calls = [rpcCall text]) (answered : connection.responses ≠ [])
      (same : ∀ answer ∈ connection.responses, answer = response (soapEvaluate env text))
      (goesOn : connection.closed = false → connection.soap.parsingComplete = true ∧
        connection.soap.evaluated = true ∧ connection.soap.parsing = true ∧
        response connection.soap = response (soapEvaluate env text) ∧
        (connection.soap.error = true ∨
          connection.soap = text.withResult (soapEvaluate env text).args))

section Following

variable {env : SoapEnv} {text next : Context} {connection : Connection} {acked : Bool}

theorem Rests.rpcCall_eq (rests : Rests text next) : rpcCall next = rpcCall text := by
  rw [rpcCall, rpcCall, rests.rpc, rests.argslen, rests.args]

theorem Rests.evaluate (env : SoapEnv) (rests : Rests text next) :
    (soapEvaluate env next).args = (soapEvaluate env text).args ∧
      response (soapEvaluate env next) = response (soapEvaluate env text) := by
  have args : (soapEvaluate env next).args = (soapEvaluate env text).args := by
    rw [soapEvaluate, soapEvaluate, rests.rpcCall_eq, rests.rpc, rests.args]
  have error : (soapEvaluate env next).error = (soapEvaluate env text).error := by
    rw [soapEvaluate, soapEvaluate, rests.rpcCall_eq, rests.rpc, rests.error]
  have rpc : (soapEvaluate env next).rpc = (soapEvaluate env text).rpc := rests.rpc
  refine ⟨args, ?_⟩
  rw [response, response, args, error, rpc]

theorem Rests.response_withResult (rests : Rests text next) (args : Nat → SoapData) :
    response (next.withResult args) = response (text.withResult args) := by
  have error : (next.withResult args).error = (text.withResult args).error := rests.error
  have rpc : (next.withResult args).rpc = (text.withResult args).rpc := rests.rpc
  rw [response, response, error, rpc]
  rfl

theorem soapEvaluate_fine (same : (soapEvaluate env text).error = text.error) :
    soapEvaluate env text = text.withResult (soapEvaluate env text).args := by
  calc
    soapEvaluate env text =
        { text with
          error := (soapEvaluate env text).error
          evaluated := true
          args := (soapEvaluate env text).args } := rfl
    _ = text.withResult (soapEvaluate env text).args := by
      rw [same]
      rfl

/-- The response is pasted again, or for the first time when there was an error. -/
theorem answerRequest_repeat (env : SoapEnv) (complete : connection.soap.parsingComplete = true)
    (decided : connection.soap.error = true ∨ connection.soap.evaluated = true) :
    answerRequest env connection false =
      { connection with responses := connection.responses ++ [response connection.soap] } := by
  have notFirst : ¬(!connection.soap.error && !connection.soap.evaluated) = true := by
    rcases decided with error | evaluated
    · simp [error]
    · simp [evaluated]
  rw [answerRequest, if_neg Bool.false_ne_true, if_pos complete, if_neg notFirst]

theorem answerRequest_first (env : SoapEnv) (complete : connection.soap.parsingComplete = true)
    (fine : connection.soap.error = false) (unevaluated : connection.soap.evaluated = false) :
    answerRequest env connection false =
      { connection with
        soap := soapEvaluate env connection.soap
        calls := connection.calls ++ [rpcCall connection.soap]
        responses := connection.responses ++ [response (soapEvaluate env connection.soap)] } := by
  have first : (!connection.soap.error && !connection.soap.evaluated) = true := by
    simp [fine, unevaluated]
  rw [answerRequest, if_neg Bool.false_ne_true, if_pos complete, if_pos first]

theorem mem_append_response {answer again wanted : Response} {responses : List Response}
    (same : ∀ answer ∈ responses, answer = wanted) (againEq : again = wanted)
    (member : answer ∈ responses ++ [again]) : answer = wanted := by
  rcases List.mem_append.mp member with earlier | last
  · exact same answer earlier
  · rw [List.mem_singleton] at last
    exact last.trans againEq

/-- The first answer. -/
theorem follows_answer (env : SoapEnv) (connection : Connection)
    (unevaluated : connection.soap.evaluated = false) (parsing : connection.soap.parsing = true)
    (reported : connection.soap.error = true → connection.soap.parsingComplete = true)
    (calls : connection.calls = []) (responses : connection.responses = [])
    (notClosed : connection.closed = false) :
    Follows env connection.soap (answerRequest env connection false) := by
  cases complete : connection.soap.parsingComplete with
  | false =>
      rw [answerRequest, if_neg Bool.false_ne_true, if_neg (by rw [complete]; decide)]
      have fine : connection.soap.error = false := by
        rw [Bool.eq_false_iff]
        intro error
        rw [reported error] at complete
        cases complete
      exact .reading rfl complete fine calls responses notClosed
  | true =>
      cases error : connection.soap.error with
      | true =>
          rw [answerRequest_repeat env complete (.inl error)]
          refine .failed error calls (List.append_ne_nil_of_right_ne_nil _ (List.cons_ne_nil _ _))
            ?_ (fun _ => ⟨error, complete, parsing⟩)
          intro answer member
          apply mem_append_response _ _ member
          · rw [responses]
            exact fun _ none => absurd none List.not_mem_nil
          · rw [response, if_pos error]
      | false =>
          rw [answerRequest_first env complete error unevaluated]
          refine .served complete error ?_
            (List.append_ne_nil_of_right_ne_nil _ (List.cons_ne_nil _ _)) ?_
            (fun _ => ⟨complete, rfl, parsing, rfl, ?_⟩)
          · dsimp only
            rw [calls, List.nil_append]
          · intro answer member
            apply mem_append_response _ rfl member
            rw [responses]
            exact fun _ none => absurd none List.not_mem_nil
          · cases failed : (soapEvaluate env connection.soap).error with
            | true => exact .inl rfl
            | false => exact .inr (soapEvaluate_fine (failed.trans error.symm))

/-- A response is pasted again, or it has arrived. -/
theorem Follows.answer (follows : Follows env text connection)
    (notClosed : connection.closed = false)
    (inFlight : acked = true → connection.responses ≠ []) :
    Follows env text (answerRequest env connection acked) := by
  have more : connection.responses ++ [response connection.soap] ≠ [] :=
    List.append_ne_nil_of_right_ne_nil _ (List.cons_ne_nil _ _)
  cases acked with
  | true =>
      rw [answerRequest, if_pos rfl]
      cases follows with
      | reading soap unfinished fine calls responses => exact absurd responses (inFlight rfl)
      | failed error calls answered faults =>
          exact .failed error calls answered faults nofun
      | served complete fine calls answered same =>
          exact .served complete fine calls answered same nofun
  | false =>
      cases follows with
      | reading soap unfinished fine calls responses =>
          rw [answerRequest, if_neg Bool.false_ne_true, soap,
            if_neg (by rw [unfinished]; decide)]
          exact .reading soap unfinished fine calls responses notClosed
      | failed error calls answered faults goesOn =>
          obtain ⟨failed, ended, parsing⟩ := goesOn notClosed
          rw [answerRequest_repeat env ended (.inl failed)]
          refine .failed error calls more ?_ (fun _ => ⟨failed, ended, parsing⟩)
          intro answer member
          apply mem_append_response faults _ member
          rw [response, if_pos failed]
      | served complete fine calls answered same goesOn =>
          obtain ⟨ended, evaluated, parsing, again, context⟩ := goesOn notClosed
          rw [answerRequest_repeat env ended (.inr evaluated)]
          refine .served complete fine calls more ?_
            (fun _ => ⟨ended, evaluated, parsing, again, context⟩)
          intro answer member
          exact mem_append_response same again member

theorem readSegment_failed (env : SoapEnv) (parsing : text.parsing = true)
    (failed : text.error = true) (segment : List UInt8) :
    readSegment env text segment = some text := by
  rw [readSegment, if_pos parsing, soapParse, if_pos failed]

theorem readSegment_fine (env : SoapEnv) (parsing : text.parsing = true)
    (fine : text.error = false) (segment : List UInt8) :
    readSegment env text segment = some (soapBytes env text segment) := by
  rw [readSegment, if_pos parsing, soapParse, if_neg (by rw [fine]; decide)]

theorem complete_of_error (env : SoapEnv) (bytes : List UInt8)
    (error : (soapBytes env begun bytes).error = true) :
    (soapBytes env begun bytes).parsingComplete = true := by
  rcases (advances_soapBytes env begun bytes).reported error with before | ended
  · cases before
  · exact ended

/-- A further segment of the text. -/
theorem Follows.segment {start segment : List UInt8}
    (follows : Follows env (soapBytes env begun start) connection)
    (notClosed : connection.closed = false)
    (quiet : (soapBytes env begun start).parsingComplete = true →
      (soapBytes env begun start).error = false → Quiet env (soapBytes env begun start) segment)
    (inFlight : acked = true → connection.responses ≠ []) :
    ∃ soap, readSegment env connection.soap segment = some soap ∧
      Follows env (soapBytes env begun (start ++ segment))
        (answerRequest env { connection with soap } acked) := by
  have advanced := advances_soapBytes env begun start
  cases follows with
  | reading soap unfinished fine calls responses =>
      have unacked : acked = false := by
        rw [Bool.eq_false_iff]
        exact fun isAcked => inFlight isAcked responses
      rw [soap, readSegment_fine env advanced.parsing fine, ← soapBytes_append fine, unacked]
      have advancedNext := advances_soapBytes env begun (start ++ segment)
      have reported := complete_of_error env (start ++ segment)
      exact ⟨_, rfl, follows_answer env
        { connection with soap := soapBytes env begun (start ++ segment) } advancedNext.evaluated
        advancedNext.parsing reported calls responses notClosed⟩
  | failed error calls answered faults goesOn =>
      obtain ⟨failed, ended, parsing⟩ := goesOn notClosed
      rw [readSegment_failed env parsing failed]
      have follows : Follows env (soapBytes env begun (start ++ segment)) connection :=
        .failed (error_append error segment) calls answered faults goesOn
      exact ⟨_, rfl, follows.answer notClosed inFlight⟩
  | served complete fine calls answered same goesOn =>
      obtain ⟨ended, evaluated, parsing, again, context⟩ := goesOn notClosed
      have tagged := tagged_soapBytes env tagged_begun fine
      obtain ⟨rests, result⟩ := soapBytes_quiet env tagged complete (quiet complete fine)
      have sameResponse := (rests.evaluate env).2
      rw [soapBytes_append fine]
      rw [← rests.rpcCall_eq] at calls
      rw [← sameResponse] at same
      rcases context with failed | context
      · rw [readSegment_failed env parsing failed]
        have follows : Follows env (soapBytes env (soapBytes env begun start) segment)
            connection := by
          refine .served (rests.complete.trans complete) (rests.error.trans fine) calls answered
            same (fun _ => ⟨ended, evaluated, parsing, ?_, .inl failed⟩)
          rw [sameResponse]
          exact again
        exact ⟨_, rfl, follows.answer notClosed inFlight⟩
      · have fineContext : connection.soap.error = false := by
          rw [context]
          exact fine
        rw [readSegment_fine env parsing fineContext, context, result]
        have follows : Follows env (soapBytes env (soapBytes env begun start) segment)
            { connection with
              soap := (soapBytes env (soapBytes env begun start) segment).withResult
                (soapEvaluate env (soapBytes env begun start)).args } := by
          refine .served (rests.complete.trans complete) (rests.error.trans fine) calls answered
            same (fun _ => ⟨rests.complete.trans complete, rfl, ?_, ?_, .inr ?_⟩)
          · exact (advances_soapBytes env _ segment).parsing.trans advanced.parsing
          · rw [sameResponse, ← again, context]
            exact rests.response_withResult _
          · rw [(rests.evaluate env).1]
        exact ⟨_, rfl, follows.answer notClosed inFlight⟩

/-- A further segment that is not delivered any more. -/
theorem Follows.undelivered {start segment : List UInt8}
    (follows : Follows env (soapBytes env begun start) connection)
    (closed : connection.closed = true)
    (quiet : (soapBytes env begun start).parsingComplete = true →
      (soapBytes env begun start).error = false → Quiet env (soapBytes env begun start) segment) :
    Follows env (soapBytes env begun (start ++ segment)) connection := by
  have notOpen : connection.closed = false → False := by
    rw [closed]
    exact nofun
  cases follows with
  | reading soap unfinished fine calls responses notClosed => exact (notOpen notClosed).elim
  | failed error calls answered faults =>
      exact .failed (error_append error segment) calls answered faults
        (fun open_ => (notOpen open_).elim)
  | served complete fine calls answered same =>
      have tagged := tagged_soapBytes env tagged_begun fine
      have rests := (soapBytes_quiet env tagged complete (quiet complete fine)).1
      rw [soapBytes_append fine]
      refine .served (rests.complete.trans complete) (rests.error.trans fine) ?_ answered ?_
        (fun open_ => (notOpen open_).elim)
      · rw [rests.rpcCall_eq]
        exact calls
      · rw [(rests.evaluate env).2]
        exact same

/-- Two connections that follow the same text. -/
theorem Follows.sameOutcome {other : Connection} (follows : Follows env text connection)
    (followsOther : Follows env text other) : SameOutcome connection other := by
  cases follows with
  | reading soap unfinished fine calls responses =>
      cases followsOther with
      | reading soapOther unfinishedOther fineOther callsOther responsesOther =>
          refine ⟨calls.trans callsOther.symm, by rw [responses, responsesOther], ?_⟩
          rw [responses]
          exact fun _ none => absurd none List.not_mem_nil
      | failed error =>
          rw [fine] at error
          cases error
      | served complete =>
          rw [unfinished] at complete
          cases complete
  | failed error calls answered faults =>
      cases followsOther with
      | reading soapOther unfinishedOther fine =>
          rw [fine] at error
          cases error
      | failed errorOther callsOther answeredOther faultsOther =>
          refine ⟨calls.trans callsOther.symm, iff_of_false answered answeredOther, ?_⟩
          intro first memberFirst second memberSecond
          rw [faults first memberFirst, faultsOther second memberSecond]
      | served complete fine =>
          rw [error] at fine
          cases fine
  | served complete fine calls answered same =>
      cases followsOther with
      | reading soapOther unfinished =>
          rw [unfinished] at complete
          cases complete
      | failed error =>
          rw [error] at fine
          cases fine
      | served completeOther fineOther callsOther answeredOther sameOther =>
          refine ⟨calls.trans callsOther.symm, iff_of_false answered answeredOther, ?_⟩
          intro first memberFirst second memberSecond
          rw [same first memberFirst, sameOther second memberSecond]

end Following

/-- The connection once the request has begun. -/
def opened : Connection := { newConnection with installed := .soap }

/-- The connection after these segments. -/
structure Served (env : SoapEnv) (segments : List (List UInt8))
    (connection : Connection) : Prop where
  installed : connection.installed = .soap
  waits : parsingStart segments = none → connection.soap = soapInitializeContext ∧
    connection.calls = [] ∧ connection.responses = [] ∧ connection.closed = false
  follows : ∀ start, parsingStart segments = some start → start ≤ segments.flatten.length ∧
    Follows env (parsed env segments start) connection

section Stream

variable {env : SoapEnv} {segments : List (List UInt8)} {segment : List UInt8}
  {connection : Connection}

theorem headerEnd_le {start : Nat} (found : headerEnd segment = some start) :
    start ≤ segment.length := by
  obtain ⟨index, foundIndex, rfl⟩ := Option.map_eq_some_iff.mp found
  obtain ⟨before, rest, split, rfl⟩ := findInfix_split foundIndex
  have shorter : (segment.takeWhile (· != 0)).length ≤ segment.length :=
    (List.takeWhile_prefix _).length_le
  have four : (Httpd.crlf ++ Httpd.crlf).length = 4 := rfl
  rw [split, List.length_append, List.length_append] at shorter
  omega

theorem parsingStart_append (segments : List (List UInt8)) (segment : List UInt8) :
    parsingStart (segments ++ [segment]) =
      match parsingStart segments with
      | some start => some start
      | none => (headerEnd segment).map (segments.flatten.length + ·) := by
  induction segments with
  | nil =>
      rw [List.nil_append, parsingStart, parsingStart, parsingStart]
      cases headerEnd segment with
      | none => rfl
      | some start => simp
  | cons first segments ih =>
      rw [List.cons_append, parsingStart, parsingStart, ih]
      cases headerEnd first with
      | some start => rfl
      | none =>
          cases parsingStart segments with
          | some start => rfl
          | none =>
              cases headerEnd segment with
              | none => rfl
              | some start => simp [Nat.add_assoc]

theorem parsed_append {start : Nat} (inside : start ≤ segments.flatten.length) :
    parsed env (segments ++ [segment]) start =
      soapBytes env begun (segments.flatten.drop start ++ segment) := by
  rw [parsed, List.flatten_append, List.drop_append_of_le_length inside]
  simp

theorem acked_inFlight {arrival : Arrival} (acked : arrival.acked connection = true) :
    connection.responses ≠ [] := by
  rw [Arrival.acked, Bool.and_eq_true] at acked
  intro none
  rw [none] at acked
  exact absurd acked.2 (by decide)

theorem served_opened (env : SoapEnv) : Served env [] opened :=
  ⟨rfl, fun _ => ⟨rfl, rfl, rfl, rfl⟩, fun _ started => nomatch started⟩

theorem httpdMain_soap (env : SoapEnv) (arrival : Arrival)
    (installed : connection.installed = .soap)
    (notClosed : connection.closed = false) :
    httpdMain env connection arrival = httpdHandleSoap env connection arrival := by
  have known : ¬(arrival.newdata = true ∧ connection.installed = .none) := by
    rw [installed]
    exact fun unknown => nomatch unknown.2
  rw [httpdMain, if_neg (by rw [notClosed]; decide)]
  dsimp only
  rw [if_neg known, if_pos installed]

theorem installed_answerRequest (env : SoapEnv) (connection : Connection) (acked : Bool) :
    (answerRequest env connection acked).installed = connection.installed := by
  rw [answerRequest]
  split
  · rfl
  · split
    · split
      · rfl
      · rfl
    · rfl

theorem installed_httpdHandleSoap (env : SoapEnv) (connection : Connection) (arrival : Arrival) :
    (httpdHandleSoap env connection arrival).installed = connection.installed := by
  rw [httpdHandleSoap]
  split
  · split
    · rfl
    · exact installed_answerRequest env _ _
  · exact installed_answerRequest env _ _

/-- An arrival while the parser is running. -/
theorem Follows.arrival {start : List UInt8}
    (follows : Follows env (soapBytes env begun start) connection)
    (notClosed : connection.closed = false) (arrival : Arrival)
    (quiet : (soapBytes env begun start).parsingComplete = true →
      (soapBytes env begun start).error = false →
        Quiet env (soapBytes env begun start) arrival.data) :
    Follows env (soapBytes env begun (start ++ arrival.data))
      (httpdHandleSoap env connection arrival) := by
  rw [httpdHandleSoap]
  split
  · obtain ⟨soap, read, followsNext⟩ := follows.segment notClosed quiet acked_inFlight
    rw [read]
    exact followsNext
  · rename_i noData
    have empty : arrival.data = [] := by
      simpa [Arrival.newdata] using noData
    rw [empty, List.append_nil]
    exact follows.answer notClosed acked_inFlight

/-- An arrival while the header is read. -/
theorem httpdHandleSoap_header (env : SoapEnv) (arrival : Arrival)
    (soap : connection.soap = soapInitializeContext) (calls : connection.calls = [])
    (responses : connection.responses = []) (notClosed : connection.closed = false) :
    (headerEnd arrival.data = none → httpdHandleSoap env connection arrival = connection) ∧
      ∀ start, headerEnd arrival.data = some start →
        Follows env (soapBytes env begun (arrival.data.drop start))
          (httpdHandleSoap env connection arrival) := by
  have unacked : arrival.acked connection = false := by
    rw [Bool.eq_false_iff]
    exact fun acked => acked_inFlight acked responses
  have read : readSegment env connection.soap arrival.data =
      (headerEnd arrival.data).map fun start =>
        soapBytes env begun (arrival.data.drop start) := by
    rw [soap]
    rfl
  constructor
  · intro notEnded
    rw [httpdHandleSoap, read, notEnded, unacked]
    split
    · rfl
    · rw [answerRequest, if_neg Bool.false_ne_true, soap]
      rfl
  · intro start ended
    have newdata : arrival.newdata = true := by
      cases empty : arrival.data with
      | nil =>
          rw [empty] at ended
          cases ended
      | cons byte bytes =>
          rw [Arrival.newdata, empty]
          rfl
    rw [httpdHandleSoap, if_pos newdata, read, ended, unacked]
    have advanced := advances_soapBytes env begun (arrival.data.drop start)
    exact follows_answer env
      { connection with soap := soapBytes env begun (arrival.data.drop start) }
      advanced.evaluated advanced.parsing (complete_of_error env _) calls responses notClosed

/-- One arrival. -/
theorem Served.step (served : Served env segments connection) (arrival : Arrival)
    (quiet : ∀ start, parsingStart segments = some start →
      (parsed env segments start).parsingComplete = true →
      (parsed env segments start).error = false →
        Quiet env (parsed env segments start) arrival.data) :
    Served env (segments ++ [arrival.data]) (httpdMain env connection arrival) := by
  cases started : parsingStart segments with
  | none =>
      obtain ⟨soap, calls, responses, notClosed⟩ := served.waits started
      obtain ⟨notEnded, ended⟩ := httpdHandleSoap_header env arrival soap calls responses notClosed
      rw [httpdMain_soap env arrival served.installed notClosed]
      refine ⟨?_, ?_, ?_⟩
      · rw [installed_httpdHandleSoap]
        exact served.installed
      · intro still
        rw [parsingStart_append, started, Option.map_eq_none_iff] at still
        rw [notEnded still]
        exact ⟨soap, calls, responses, notClosed⟩
      · intro start startedNow
        rw [parsingStart_append, started] at startedNow
        obtain ⟨offset, found, rfl⟩ := Option.map_eq_some_iff.mp startedNow
        have bound := headerEnd_le found
        have flattenEq : (segments ++ [arrival.data]).flatten =
            segments.flatten ++ arrival.data := by
          simp
        constructor
        · rw [flattenEq, List.length_append]
          omega
        · rw [parsed, flattenEq, List.drop_append, List.drop_eq_nil_of_le (by omega),
            List.nil_append, Nat.add_sub_cancel_left]
          exact ended offset found
  | some start =>
      obtain ⟨inside, follows⟩ := served.follows start started
      have startedNext : parsingStart (segments ++ [arrival.data]) = some start := by
        rw [parsingStart_append, started]
      have quietData := quiet start started
      have outcome : Follows env (parsed env (segments ++ [arrival.data]) start)
          (httpdMain env connection arrival) ∧
            (httpdMain env connection arrival).installed = .soap := by
        rw [parsed_append inside]
        cases closed : connection.closed with
        | true =>
            rw [httpdMain, if_pos closed]
            exact ⟨follows.undelivered closed quietData, served.installed⟩
        | false =>
            rw [httpdMain_soap env arrival served.installed closed, installed_httpdHandleSoap]
            exact ⟨follows.arrival closed arrival quietData, served.installed⟩
      refine ⟨outcome.2, ?_, ?_⟩
      · rw [startedNext]
        exact nofun
      · intro other startedOther
        rw [startedNext] at startedOther
        cases startedOther
        refine ⟨?_, outcome.1⟩
        rw [List.flatten_append, List.length_append]
        omega

theorem Served.run (served : Served env segments connection) (arrivals : List Arrival)
    (quiet : QuietBehindBody env (segments ++ arrivals.map Arrival.data)) :
    Served env (segments ++ arrivals.map Arrival.data)
      (arrivals.foldl (httpdMain env) connection) := by
  induction arrivals generalizing segments connection with
  | nil =>
      rw [List.map_nil, List.append_nil]
      exact served
  | cons arrival arrivals ih =>
      have splitEq : segments ++ (arrival :: arrivals).map Arrival.data =
          (segments ++ [arrival.data]) ++ arrivals.map Arrival.data := by
        simp
      have stepped := served.step arrival (by
        intro start started complete fine
        have behind := quiet segments _ rfl start started complete fine
        rw [List.map_cons, List.flatten_cons] at behind
        exact behind.left)
      rw [splitEq] at quiet ⊢
      exact ih stepped quiet

/-- The request begins with the first segment that carries data. -/
theorem serve_opened (env : SoapEnv) (arrivals : List Arrival)
    (request : ∀ first ∈ (arrivals.map Arrival.data).find? (!·.isEmpty),
      isSoapRequest first = true) :
    (serve env arrivals).calls = (arrivals.foldl (httpdMain env) opened).calls ∧
      (serve env arrivals).responses = (arrivals.foldl (httpdMain env) opened).responses := by
  rw [serve]
  induction arrivals with
  | nil => exact ⟨rfl, rfl⟩
  | cons arrival arrivals ih =>
      rw [List.foldl_cons, List.foldl_cons]
      rw [List.map_cons, List.find?_cons] at request
      cases data : arrival.data with
      | nil =>
          have noData : arrival.newdata = false := by
            rw [Arrival.newdata, data]
            rfl
          have timerOpened : httpdMain env opened arrival = opened := by
            rw [httpdMain_soap env arrival rfl rfl]
            apply (httpdHandleSoap_header env arrival rfl rfl rfl rfl).1
            rw [data]
            rfl
          have timerNew : httpdMain env newConnection arrival = newConnection := by
            rw [httpdMain, noData]
            rfl
          rw [timerOpened, timerNew]
          rw [data] at request
          exact ih request
      | cons byte bytes =>
          have newdata : arrival.newdata = true := by
            rw [Arrival.newdata, data]
            rfl
          have isRequest : isSoapRequest arrival.data = true := by
            apply request
            rw [data]
            rfl
          have sameFirst : httpdMain env newConnection arrival = httpdMain env opened arrival := by
            have openedStep : httpdMain env opened arrival = httpdHandleSoap env opened arrival :=
              httpdMain_soap env arrival rfl rfl
            rw [openedStep, httpdMain]
            dsimp only
            rw [if_pos (show arrival.newdata = true ∧ newConnection.installed = .none from
              ⟨newdata, rfl⟩), httpdHandleInput, if_pos isRequest]
            rfl
          rw [sameFirst]
          exact ⟨rfl, rfl⟩

theorem isSoapRequest_append {first : List UInt8} (request : isSoapRequest first = true)
    (rest : List UInt8) : isSoapRequest (first ++ rest) = true := by
  rw [isSoapRequest, Bool.and_eq_true, decide_eq_true_iff] at request ⊢
  rw [List.take_append_of_le_length request.1, List.length_append]
  exact ⟨by omega, request.2⟩

/-- The whole stream begins with the request, too. -/
theorem request_flatten
    (request : ∀ first ∈ segments.find? (!·.isEmpty), isSoapRequest first = true) :
    ∀ first ∈ [segments.flatten].find? (!·.isEmpty), isSoapRequest first = true := by
  induction segments with
  | nil => exact fun first found => nomatch found
  | cons segment segments ih =>
      rw [List.find?_cons] at request
      cases segment with
      | nil => exact ih request
      | cons byte bytes =>
          intro first found
          cases found
          rw [List.flatten_cons]
          exact isSoapRequest_append (request _ rfl) _

theorem quietBehindBody_singleton (env : SoapEnv) (stream : List UInt8) :
    QuietBehindBody env [stream] := by
  intro first second split start started complete fine
  cases first with
  | nil => cases started
  | cons segment first =>
      have empty : second = [] := by
        have lengths := congrArg List.length split
        rw [List.length_singleton, List.length_append, List.length_cons] at lengths
        exact List.eq_nil_of_length_eq_zero (by omega)
      rw [empty]
      trivial

end Stream

/-- For every way to cut a request, timers and acknowledgements included: when the parser is
started where it would be started in the whole request, and what arrives in later segments than
the end of the body is quiet, the outcome is the one of the request in one segment. -/
theorem sameOutcome_of_quiet (env : SoapEnv) (arrivals : List Arrival)
    (request : ∀ first ∈ (arrivals.map Arrival.data).find? (!·.isEmpty),
      isSoapRequest first = true)
    (header : parsingStart (arrivals.map Arrival.data) =
      headerEnd (arrivals.map Arrival.data).flatten)
    (quiet : QuietBehindBody env (arrivals.map Arrival.data)) :
    SameOutcome (serve env arrivals)
      (serve env [⟨(arrivals.map Arrival.data).flatten, false⟩]) := by
  have cut : Served env (arrivals.map Arrival.data) (arrivals.foldl (httpdMain env) opened) :=
    (served_opened env).run arrivals quiet
  have whole : Served env [(arrivals.map Arrival.data).flatten]
      (httpdMain env opened ⟨(arrivals.map Arrival.data).flatten, false⟩) :=
    (served_opened env).run [⟨(arrivals.map Arrival.data).flatten, false⟩]
      (quietBehindBody_singleton env _)
  have wholeStart : parsingStart [(arrivals.map Arrival.data).flatten] =
      headerEnd (arrivals.map Arrival.data).flatten := by
    rw [parsingStart]
    cases headerEnd (arrivals.map Arrival.data).flatten with
    | none => rfl
    | some start => rfl
  have same : SameOutcome (arrivals.foldl (httpdMain env) opened)
      (httpdMain env opened ⟨(arrivals.map Arrival.data).flatten, false⟩) := by
    cases started : headerEnd (arrivals.map Arrival.data).flatten with
    | none =>
        obtain ⟨-, callsCut, responsesCut, -⟩ := cut.waits (header.trans started)
        obtain ⟨-, callsWhole, responsesWhole, -⟩ := whole.waits (wholeStart.trans started)
        refine ⟨callsCut.trans callsWhole.symm, by rw [responsesCut, responsesWhole], ?_⟩
        rw [responsesCut]
        exact fun _ none => absurd none List.not_mem_nil
    | some start =>
        have followsCut := (cut.follows start (header.trans started)).2
        have followsWhole := (whole.follows start (wholeStart.trans started)).2
        rw [parsed, List.flatten_singleton] at followsWhole
        exact followsCut.sameOutcome followsWhole
  obtain ⟨callsCut, responsesCut⟩ := serve_opened env arrivals request
  obtain ⟨callsWhole, responsesWhole⟩ := serve_opened env
    [⟨(arrivals.map Arrival.data).flatten, false⟩] (request_flatten request)
  constructor
  · rw [callsCut, callsWhole]
    exact same.calls
  · rw [responsesCut, responsesWhole]
    exact same.answered
  · rw [responsesCut, responsesWhole]
    exact same.responses

/-- One function, with the name `f`, that returns its first argument. -/
def echoEnv : SoapEnv where
  commands := [[102]]
  handler := fun _ args => (false, args.getD 0 zeroData)
  malloc := fun _ => true

/-- `"POST /soap\r\n"` -/
def requestLine : List UInt8 := Httpd.postText ++ Httpd.crlf

/-- `"<Envelope><Bo"` and `"dy><f></Body>"` -/
def envelope : List UInt8 × List UInt8 :=
  ([60, 69, 110, 118, 101, 108, 111, 112, 101, 62, 60, 66, 111],
    [100, 121, 62, 60, 102, 62, 60, 47, 66, 111, 100, 121, 62])

/-- The cut is inside of a tag. -/
def cutInTag : List Arrival :=
  [⟨requestLine ++ Httpd.crlf ++ envelope.1, false⟩, ⟨envelope.2, false⟩]

/-- The cut is inside of the empty line. -/
def cutInHeader : List Arrival :=
  [⟨requestLine, false⟩, ⟨Httpd.crlf ++ envelope.1 ++ envelope.2, false⟩]

theorem quiet_cutInTag : QuietBehindBody echoEnv (cutInTag.map Arrival.data) := by
  intro first second split start started complete fine
  match first with
  | [] => cases started
  | [segment] =>
      -- The first segment ends inside of a tag, in front of the end of the body.
      obtain ⟨rfl, -⟩ := List.cons.inj split
      have startEq : parsingStart [requestLine ++ Httpd.crlf ++ envelope.1] = some 14 := by decide
      have unfinished : (parsed echoEnv [requestLine ++ Httpd.crlf ++ envelope.1]
          14).parsingComplete = false := by
        decide +kernel
      rw [Option.some.inj (started.symm.trans startEq), unfinished] at complete
      cases complete
  | segment :: other :: rest =>
      have lengths := congrArg List.length split
      have empty : second = [] := by
        rw [List.length_append, List.length_cons, List.length_cons] at lengths
        apply List.eq_nil_of_length_eq_zero
        change 2 = _ at lengths
        omega
      rw [empty]
      trivial

theorem sameOutcome_cutInTag :
    SameOutcome (serve echoEnv cutInTag)
      (serve echoEnv [⟨(cutInTag.map Arrival.data).flatten, false⟩]) :=
  sameOutcome_of_quiet echoEnv cutInTag (by decide) (by decide) quiet_cutInTag

/-- The empty line is in neither segment, so the request is never parsed. -/
theorem outcome_differs_in_header :
    ¬∀ (env : SoapEnv) (arrivals : List Arrival),
      (∀ first ∈ (arrivals.map Arrival.data).find? (!·.isEmpty), isSoapRequest first = true) →
        SameOutcome (serve env arrivals)
          (serve env [⟨(arrivals.map Arrival.data).flatten, false⟩]) := by
  intro same
  have outcome := (same echoEnv cutInHeader (by decide)).calls
  have cut : (serve echoEnv cutInHeader).calls = [] := by decide +kernel
  have whole : (serve echoEnv [⟨(cutInHeader.map Arrival.data).flatten, false⟩]).calls =
      [⟨some 0, []⟩] := by
    decide +kernel
  rw [cut, whole] at outcome
  cases outcome

end Ethersex.Soap
