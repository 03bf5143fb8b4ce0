import Ethersex.SoapSegmentation

/-!
# The buffers of the SOAP parser

Which places of the element buffer and of the argument table the functions of
`protocols/soap/soap.c` touch, byte by byte.  A string function may read up to the end of the
string it is given.  All stay inside of the two arrays, except when the buffer is full and ends
in `type=`.
-/

namespace Ethersex.Soap

open ByteMemory CStrings

/-- A place of `ctx->buf`, or of `ctx->args`. -/
inductive Access where
  | buf (index : Int)
  | arg (index : Nat)
  deriving DecidableEq

def InBounds : Access → Prop
  | .buf index => 0 ≤ index ∧ index < bufSize
  | .arg index => index < soapMaxargs

instance (access : Access) : Decidable (InBounds access) := by
  cases access <;> unfold InBounds <;> infer_instance

/-- So many bytes of the buffer, one after the other. -/
def blockAccesses (start count : Nat) : List Access :=
  (List.range count).map fun index => Access.buf (start + index : Nat)

/-- A string with its terminating zero. -/
def stringAccesses (memory : Memory) (start : Nat) : List Access :=
  blockAccesses start ((cString memory start).length + 1)

/-- A string up to a length, as `strncmp` reads it. -/
def strncmpAccesses (memory : Memory) (start count : Nat) : List Access :=
  blockAccesses start (min count ((cString memory start).length + 1))

def putcharAccesses (ctx : Context) : List Access :=
  if bufSize - 1 ≤ ctx.buflen then [] else [Access.buf ctx.buflen]

/-- The `>` is stripped, the name is scanned up to a blank, which is overwritten, and compared with
the names of the table. -/
def lookupFuncnameAccesses (env : SoapEnv) (ctx : Context) : List Access :=
  let stripped := Function.update ctx.buf (ctx.buflen - 1) 0
  let text := cString stripped 1
  let funcname := text.takeWhile fun byte => !isblank byte
  let blank :=
    if funcname.length < text.length then [Access.buf (1 + funcname.length : Nat)] else []
  let buf := if funcname.length < text.length then Function.update stripped (1 + funcname.length) 0
    else stripped
  [Access.buf ((ctx.buflen : Int) - 1)] ++ stringAccesses stripped 1 ++ blank ++
    env.commands.flatMap fun _ => stringAccesses buf 1

/-- Behind `type="` the quote is looked for, overwritten, and the colon is looked for in front of
it.  Where the buffer ends in front of that, the first byte that is read stands behind it. -/
def parseTypeAccesses (ctx : Context) : List Access :=
  stringAccesses ctx.buf 1 ++
    match strstr ctx.buf 1 typeText with
    | none => []
    | some found =>
        let ptr := found + 6
        if bufSize ≤ ptr then [Access.buf ptr]
        else
          stringAccesses ctx.buf ptr ++
            match strchr ctx.buf ptr quote with
            | none => []
            | some stop =>
                let buf := Function.update ctx.buf stop 0
                let start :=
                  match strchr buf ptr colon with
                  | some position => position + 1
                  | none => ptr
                [Access.buf stop] ++ stringAccesses buf ptr ++ stringAccesses buf start ++
                  if cString buf start = intText ∨ cString buf start = stringText then
                    [Access.arg ctx.argslen]
                  else []

def parseTagAccesses (env : SoapEnv) (ctx : Context) : List Access :=
  if !ctx.foundEnvelope then
    strncmpAccesses ctx.buf 1 8
  else if !ctx.foundBody then
    strncmpAccesses ctx.buf 1 4
  else if !ctx.foundFuncname then
    lookupFuncnameAccesses env ctx
  else
    strncmpAccesses ctx.buf 1 5 ++
      if sameStart ctx.buf 1 bodyEndText 5 then []
      else
        Access.buf 1 ::
          if ctx.buf 1 ≠ slash ∧ ctx.argslen < soapMaxargs then parseTypeAccesses ctx else []

def parseElementAccesses (env : SoapEnv) (ctx : Context) : List Access :=
  Access.buf 0 ::
    if ctx.buf 0 ≠ less then []
    else
      Access.buf 1 ::
        if ctx.buf 1 = questionMark then []
        else if ctx.parsingComplete then []
        else
          Access.buf ctx.buflen ::
            parseTagAccesses env { ctx with buf := Function.update ctx.buf ctx.buflen 0 }

/-- An argument is read as a number, or measured and copied. -/
def parseDataAccesses (ctx : Context) : List Access :=
  if soapMaxargs ≤ ctx.argslen then []
  else
    let buf := Function.update ctx.buf ctx.buflen 0
    [Access.buf ctx.buflen, Access.arg ctx.argslen] ++
      match (ctx.args ctx.argslen).type with
      | .int => stringAccesses buf 0
      | .string => stringAccesses buf 0 ++ stringAccesses buf 0
      | .uint32 => []

def endElementAccesses (env : SoapEnv) (ctx : Context) : List Access :=
  let closing := soapBufPutchar (stripBlank ctx) greater
  let parsed := soapParseElement env closing
  (if ctx.buflen ≠ 0 then [Access.buf ((ctx.buflen : Int) - 1)] else []) ++
    putcharAccesses (stripBlank ctx) ++ parseElementAccesses env closing ++
      if 2 < parsed.buflen then [Access.buf 1] else []

/-- The five bytes in front of `=` or `:` are compared with `xmlns`. -/
def xmlnsAccesses (ctx : Context) : List Access :=
  if 5 ≤ ctx.buflen then strncmpAccesses ctx.buf (ctx.buflen - 5) 5 else []

def elementByteAccesses (env : SoapEnv) (ctx : Context) (byte : UInt8) : List Access :=
  if byte = 32 then
    putcharAccesses ctx
  else if byte = equals ∨ byte = colon then
    xmlnsAccesses ctx ++
      if behindXmlns ctx ∨ byte = colon then [] else putcharAccesses ctx
  else if byte = greater then
    endElementAccesses env ctx
  else
    putcharAccesses ctx

def dataByteAccesses (ctx : Context) (byte : UInt8) : List Access :=
  if byte = less then
    (if ctx.buflen ≠ 0 then parseDataAccesses ctx else []) ++ putcharAccesses (soapBufClear ctx)
  else
    putcharAccesses ctx

/-- The accesses of `soap_parse` for one byte. -/
def soapByteAccesses (env : SoapEnv) (ctx : Context) (byte : UInt8) : List Access :=
  match ctx.parserState with
  | .white => if byte = less then putcharAccesses ctx else []
  | .ignoreString => []
  | .waitStringEnd => if ctx.copyString then putcharAccesses ctx else []
  | .elementWhite => if isblank byte then [] else elementByteAccesses env ctx byte
  | .element => elementByteAccesses env ctx byte
  | .data => dataByteAccesses ctx byte

def Contained (accesses : List Access) : Prop := ∀ access ∈ accesses, InBounds access

/-- `buf_backtrack_pos <= buflen <= 68` -/
structure Bounded (ctx : Context) : Prop where
  saved : ctx.bufBacktrackPos ≤ ctx.buflen
  filled : ctx.buflen ≤ 68

/-- The context behind a byte. -/
def nextContext (env : SoapEnv) (ctx : Context) (byte : UInt8) : Context :=
  if isStray ctx byte then streamError ctx else soapByte env ctx byte

def ByteSafe (env : SoapEnv) (ctx : Context) (byte : UInt8) : Prop :=
  Contained (soapByteAccesses env ctx byte) ∧ Bounded (nextContext env ctx byte)

/-- Of every byte that a call of `soap_parse` processes. -/
def EveryByte (env : SoapEnv) (property : Context → UInt8 → Prop) : Context → List UInt8 → Prop
  | _, [] => True
  | ctx, byte :: bytes =>
      property ctx byte ∧
        (isStray ctx byte = false → EveryByte env property (soapByte env ctx byte) bytes)

/-- Of every byte that some calls process one after the other. -/
def EveryCall (env : SoapEnv) (property : Context → UInt8 → Prop) :
    Context → List (List UInt8) → Prop
  | _, [] => True
  | ctx, bytes :: calls =>
      (ctx.error = false → EveryByte env property ctx bytes) ∧
        EveryCall env property (soapParse env ctx bytes) calls

/-- The element in the buffer stands where an argument is expected. -/
def ArgumentElement (ctx : Context) : Prop :=
  ctx.buf 1 ≠ questionMark ∧ ctx.buf 1 ≠ slash ∧ ctx.parsingComplete = false ∧
    ctx.foundEnvelope = true ∧ ctx.foundBody = true ∧ ctx.foundFuncname = true ∧
    ctx.argslen < soapMaxargs

/-- The buffer is full, its first `type=` ends there, and the element ends. -/
def TypeEndsBuffer (ctx : Context) (byte : UInt8) : Prop :=
  (ctx.parserState = .element ∨ ctx.parserState = .elementWhite) ∧ byte = greater ∧
    ArgumentElement ctx ∧ ctx.buflen = 68 ∧
    strstr (Function.update ctx.buf 68 0) 1 typeText = some 63

section Containing

variable {env : SoapEnv} {ctx : Context} {memory : Memory} {start last : Nat}

@[simp]
theorem contained_nil : Contained [] := fun _ none => absurd none List.not_mem_nil

@[simp]
theorem contained_cons {access : Access} {accesses : List Access} :
    Contained (access :: accesses) ↔ InBounds access ∧ Contained accesses :=
  List.forall_mem_cons

@[simp]
theorem contained_append {first second : List Access} :
    Contained (first ++ second) ↔ Contained first ∧ Contained second :=
  List.forall_mem_append

theorem contained_ite {condition : Prop} [Decidable condition] {accesses : List Access}
    (inside : condition → Contained accesses) : Contained (if condition then accesses else []) := by
  split_ifs with holds
  · exact inside holds
  · exact contained_nil

theorem inBounds_buf {index : Nat} (below : index ≤ 68) : InBounds (Access.buf index) := by
  have size : bufSize = 69 := rfl
  rw [InBounds]
  omega

theorem contained_block {count : Nat} (fits : start + count ≤ 69) :
    Contained (blockAccesses start count) := by
  intro access member
  obtain ⟨index, below, rfl⟩ := List.mem_map.mp member
  have inside := List.mem_range.mp below
  exact inBounds_buf (by omega)

theorem contained_string (terminated : memory last = 0) (above : start ≤ last)
    (inside : last ≤ 68) : Contained (stringAccesses memory start) := by
  have length := cString_length_le terminated above
  exact contained_block (by omega)

theorem contained_strncmp (count : Nat) (terminated : memory last = 0) (above : start ≤ last)
    (inside : last ≤ 68) : Contained (strncmpAccesses memory start count) := by
  have length := cString_length_le terminated above
  exact contained_block (by omega)

theorem contained_putchar (ctx : Context) : Contained (putcharAccesses ctx) := by
  have size : bufSize = 69 := rfl
  rw [putcharAccesses]
  split_ifs with full
  · exact contained_nil
  · rw [contained_cons]
    exact ⟨inBounds_buf (by omega), contained_nil⟩

theorem contained_lookupFuncname (terminated : ctx.buf ctx.buflen = 0) (filled : 1 ≤ ctx.buflen)
    (inside : ctx.buflen ≤ 68) : Contained (lookupFuncnameAccesses env ctx) := by
  have stripped : Function.update ctx.buf (ctx.buflen - 1) 0 ctx.buflen = 0 := by
    rw [Function.update_of_ne (by omega), terminated]
  have length := cString_length_le stripped filled
  rw [lookupFuncnameAccesses, contained_append, contained_append, contained_append, contained_cons]
  refine ⟨⟨⟨⟨?_, contained_nil⟩, contained_string stripped filled inside⟩, contained_ite ?_⟩, ?_⟩
  · rw [show (ctx.buflen : Int) - 1 = (ctx.buflen - 1 : Nat) by omega]
    exact inBounds_buf (by omega)
  · intro cut
    rw [contained_cons]
    exact ⟨inBounds_buf (by omega), contained_nil⟩
  · intro access member
    obtain ⟨name, -, read⟩ := List.mem_flatMap.mp member
    refine contained_string ?_ filled inside access read
    split_ifs with cut
    · rw [Function.update_apply, stripped, ite_self]
    · exact stripped

/-- The type stands in front of the last byte, which is the `>` if it has found room. -/
theorem contained_parseType (terminated : ctx.buf ctx.buflen = 0) (filled : 1 ≤ ctx.buflen)
    (inside : ctx.buflen ≤ 68) (room : ctx.argslen < soapMaxargs)
    (closed : ctx.buflen < 68 → ctx.buf (ctx.buflen - 1) ≠ equals) :
    Contained (parseTypeAccesses ctx) ↔ strstr ctx.buf 1 typeText ≠ some 63 := by
  have size : bufSize = 69 := rfl
  have length := cString_length_le terminated filled
  rw [parseTypeAccesses, contained_append, and_iff_right
    (contained_string terminated filled inside)]
  cases search : strstr ctx.buf 1 typeText with
  | none => exact iff_of_true contained_nil nofun
  | some found =>
      obtain ⟨-, fits, stored⟩ := strstr_some search
      have fits : found + 5 ≤ 1 + (cString ctx.buf 1).length := fits
      rw [Ne, Option.some.injEq]
      dsimp only
      by_cases atEnd : found = 63
      · subst atEnd
        refine iff_of_false ?_ (fun other => other rfl)
        rw [if_pos (by omega), contained_cons]
        exact fun outside => absurd outside.1 (by decide)
      · refine iff_of_true ?_ atEnd
        -- the last byte of `type=` is not the last of the buffer
        have last : ctx.buf (found + 4) = equals := by
          have five := congrArg (fun text => text.getD 4 0) stored
          rwa [getD_readBlock (by decide)] at five
        have ptrLe : found + 6 ≤ ctx.buflen := by
          by_contra beyond
          have short : ctx.buflen < 68 := by omega
          rw [show found + 4 = ctx.buflen - 1 by omega] at last
          exact closed short last
        rw [if_neg (by omega), contained_append]
        refine ⟨contained_string terminated ptrLe inside, ?_⟩
        cases quoted : strchr ctx.buf (found + 6) quote with
        | none => exact contained_nil
        | some stop =>
            have below := cString_length_le terminated ptrLe
            obtain ⟨above, before⟩ := strchr_some quoted
            have ended : Function.update ctx.buf stop 0 stop = 0 := Function.update_self ..
            have stopLe : stop ≤ 68 := by omega
            simp only [contained_append, contained_cons]
            refine ⟨⟨⟨⟨inBounds_buf stopLe, contained_nil⟩,
              contained_string ended above stopLe⟩, ?_⟩,
              contained_ite fun _ => contained_cons.mpr ⟨room, contained_nil⟩⟩
            cases namespaced : strchr (Function.update ctx.buf stop 0) (found + 6) colon with
            | none => exact contained_string ended above stopLe
            | some position =>
                have short := cString_length_le ended above
                obtain ⟨_, inFront⟩ := strchr_some namespaced
                have behind : position + 1 ≤ stop := by omega
                exact contained_string ended behind stopLe

/-- `soap_parse_element` behind its first checks. -/
theorem contained_parseTag (env : SoapEnv) (ctx : Context) (terminated : ctx.buf ctx.buflen = 0)
    (filled : 1 ≤ ctx.buflen)
    (inside : ctx.buflen ≤ 68)
    (closed : ctx.buflen < 68 → ctx.buf (ctx.buflen - 1) ≠ equals) :
    Contained (parseTagAccesses env ctx) ↔
      ¬(ctx.buf 1 ≠ slash ∧ ctx.foundEnvelope = true ∧ ctx.foundBody = true ∧
        ctx.foundFuncname = true ∧ ctx.argslen < soapMaxargs ∧
        strstr ctx.buf 1 typeText = some 63) := by
  have compares (count : Nat) := contained_strncmp count terminated filled inside
  rw [parseTagAccesses]
  cases envelope : ctx.foundEnvelope with
  | false => exact iff_of_true (compares 8) (fun argument => absurd argument.2.1 nofun)
  | true =>
    cases body : ctx.foundBody with
    | false => exact iff_of_true (compares 4) (fun argument => absurd argument.2.2.1 nofun)
    | true =>
      cases funcname : ctx.foundFuncname with
      | false =>
          exact iff_of_true (contained_lookupFuncname terminated filled inside)
            (fun argument => absurd argument.2.2.2.1 nofun)
      | true =>
          rw [Bool.not_true, if_neg Bool.false_ne_true, if_neg Bool.false_ne_true,
            if_neg Bool.false_ne_true, contained_append, and_iff_right (compares 5)]
          by_cases ends : sameStart ctx.buf 1 bodyEndText 5
          · rw [if_pos ends]
            refine iff_of_true contained_nil fun argument => argument.1 ?_
            obtain ⟨rest, whole⟩ := sameStart_iff.mp ends
            have stored := readBlock_cString ctx.buf 1
            rw [← whole, List.length_append, readBlock_append] at stored
            have five := (List.append_inj stored (length_readBlock ..)).1
            have first := congrArg (fun text => text.getD 0 0) five
            rwa [getD_readBlock (by decide)] at first
          · rw [if_neg ends, contained_cons, and_iff_right (by decide : InBounds (Access.buf 1))]
            by_cases argument : ctx.buf 1 ≠ slash ∧ ctx.argslen < soapMaxargs
            · rw [if_pos argument,
                contained_parseType terminated filled inside argument.2 closed]
              simp only [argument.1, argument.2, ne_eq, not_false_eq_true, true_and]
            · rw [if_neg argument]
              exact iff_of_true contained_nil fun all => argument ⟨all.1, all.2.2.2.2.1⟩

theorem contained_parseElement (front : ctx.buf 0 = less) (filled : 1 ≤ ctx.buflen)
    (inside : ctx.buflen ≤ 68)
    (closed : ctx.buflen < 68 → ctx.buf (ctx.buflen - 1) ≠ equals) (long : 2 ≤ ctx.buflen) :
    Contained (parseElementAccesses env ctx) ↔
      ¬(ArgumentElement ctx ∧
        strstr (Function.update ctx.buf ctx.buflen 0) 1 typeText = some 63) := by
  rw [parseElementAccesses, contained_cons, and_iff_right (by decide : InBounds (Access.buf 0)),
    if_neg (not_not.mpr front), contained_cons, and_iff_right (by decide : InBounds (Access.buf 1)),
    ArgumentElement]
  by_cases instruction : ctx.buf 1 = questionMark
  · rw [if_pos instruction]
    exact iff_of_true contained_nil fun argument => argument.1.1 instruction
  · rw [if_neg instruction]
    by_cases complete : ctx.parsingComplete = true
    · rw [if_pos complete]
      refine iff_of_true contained_nil fun argument => ?_
      rw [complete] at argument
      exact absurd argument.1.2.2.1 nofun
    · have same (index : Nat) (different : index ≠ ctx.buflen) :
          Function.update ctx.buf ctx.buflen 0 index = ctx.buf index :=
        Function.update_of_ne different ..
      have tag := contained_parseTag env
        { ctx with buf := Function.update ctx.buf ctx.buflen 0 }
        (Function.update_self ..) filled inside
        (fun short => (same _ (by dsimp only; omega)).trans_ne (closed short))
      rw [if_neg complete, contained_cons, and_iff_right (inBounds_buf inside), tag]
      dsimp only
      rw [same 1 (by omega), eq_false_of_ne_true complete]
      simp only [ne_eq, instruction, not_false_eq_true, true_and, and_assoc]

/-- What is in the buffer when an element is handed over: the `>` at its end, or no room. -/
theorem closing_cases (front : ctx.buf 0 = less) (filled : 0 < ctx.buflen)
    (inside : ctx.buflen ≤ 68) :
    2 ≤ (soapBufPutchar (stripBlank ctx) greater).buflen ∧
      (soapBufPutchar (stripBlank ctx) greater).buflen ≤ 68 ∧
      ((soapBufPutchar (stripBlank ctx) greater).buf
          ((soapBufPutchar (stripBlank ctx) greater).buflen - 1) = greater ∨
        ctx.buflen = 68 ∧ stripBlank ctx = ctx ∧
          soapBufPutchar (stripBlank ctx) greater = ctx) := by
  have size : bufSize = 69 := rfl
  have stripped := stripBlank_front front filled
  have short : (stripBlank ctx).buflen ≤ ctx.buflen := by
    rw [stripBlank]
    split_ifs
    · exact Nat.sub_le _ 1
    · exact Nat.le_refl _
  by_cases full : bufSize - 1 ≤ (stripBlank ctx).buflen
  · have same : stripBlank ctx = ctx := by
      rw [stripBlank] at full ⊢
      split_ifs at full ⊢ with blank
      · dsimp only at full
        omega
      · rfl
    rw [soapBufPutchar, if_pos full, same]
    rw [same] at full
    exact ⟨by omega, inside, Or.inr ⟨by omega, rfl, rfl⟩⟩
  · rw [soapBufPutchar, if_neg full]
    refine ⟨by dsimp only; omega, by dsimp only; omega, Or.inl ?_⟩
    exact Function.update_self ..

/-- Only the full buffer that ends in `type=` is left behind. -/
theorem contained_endElement (env : SoapEnv) (front : ctx.buf 0 = less) (filled : 0 < ctx.buflen)
    (inside : ctx.buflen ≤ 68) :
    Contained (endElementAccesses env ctx) ↔
      ¬(ArgumentElement ctx ∧ ctx.buflen = 68 ∧
        strstr (Function.update ctx.buf 68 0) 1 typeText = some 63) := by
  obtain ⟨long, fits, ends⟩ := closing_cases front filled inside
  have stripped := stripBlank_front front filled
  have first : (soapBufPutchar (stripBlank ctx) greater).buf 0 = less :=
    (front_putchar _ _ stripped.2).trans stripped.1
  have last : Contained (if ctx.buflen ≠ 0 then [Access.buf ((ctx.buflen : Int) - 1)] else []) := by
    refine contained_ite fun _ => contained_cons.mpr ⟨?_, contained_nil⟩
    rw [show (ctx.buflen : Int) - 1 = (ctx.buflen - 1 : Nat) by omega]
    exact inBounds_buf (by omega)
  have second : Contained (if 2 < (soapParseElement env
      (soapBufPutchar (stripBlank ctx) greater)).buflen then [Access.buf 1] else []) :=
    contained_ite fun _ => contained_cons.mpr ⟨by decide, contained_nil⟩
  rw [endElementAccesses, contained_append, and_iff_left second, contained_append, contained_append,
    and_iff_right ⟨last, contained_putchar _⟩]
  -- `type=` at the end of the full buffer leaves no room for the `>`
  have behindType {buf : Memory} (search : strstr (Function.update buf 68 0) 1 typeText = some 63) :
      buf 67 = equals := by
    have five := congrArg (fun text => text.getD 4 0) (strstr_some search).2.2
    rw [getD_readBlock (by decide)] at five
    exact five
  rcases ends with closed | ⟨full, -, same⟩
  · rw [contained_parseElement first (by omega) fits (fun _ => by rw [closed]; decide) long]
    refine iff_of_true (fun argument => ?_) (fun argument => ?_)
    · have whole := cString_length_le (Function.update_self (soapBufPutchar (stripBlank ctx)
        greater).buflen 0 (soapBufPutchar (stripBlank ctx) greater).buf) (Nat.le_of_succ_le long)
      have five : typeText.length = 5 := rfl
      have reaches := (strstr_some argument.2).2.1
      have full : (soapBufPutchar (stripBlank ctx) greater).buflen = 68 := by omega
      rw [full] at argument closed
      have equal := behindType argument.2
      rw [closed] at equal
      exact absurd equal (by decide)
    · obtain ⟨-, full, search⟩ := argument
      have equal := behindType search
      have notBlank : ¬(ctx.buflen ≠ 0 ∧ isblank (ctx.buf (ctx.buflen - 1))) := by
        rw [full, equal]
        decide
      have kept : stripBlank ctx = ctx := by rw [stripBlank, if_neg notBlank]
      have unchanged : soapBufPutchar ctx greater = ctx := by
        rw [soapBufPutchar, if_pos]
        rw [full]
        decide
      rw [kept, unchanged, full, equal] at closed
      exact absurd closed (by decide)
  · rw [same, contained_parseElement front filled inside (fun short => by omega) (by omega), full]
    simp only [true_and]

theorem contained_elementByte (env : SoapEnv) (front : ctx.buf 0 = less) (filled : 0 < ctx.buflen)
    (inside : ctx.buflen ≤ 68) (byte : UInt8) :
    Contained (elementByteAccesses env ctx byte) ↔
      ¬(byte = greater ∧ ArgumentElement ctx ∧ ctx.buflen = 68 ∧
        strstr (Function.update ctx.buf 68 0) 1 typeText = some 63) := by
  have compared : Contained (xmlnsAccesses ctx) :=
    contained_ite fun _ => contained_block (by omega)
  rw [elementByteAccesses]
  split_ifs with blank separator _ closes
  · refine iff_of_true (contained_putchar ctx) fun all => ?_
    rw [blank] at all
    exact absurd all.1 (by decide)
  · refine iff_of_true ?_ fun all => ?_
    · rw [List.append_nil]
      exact compared
    · rw [all.1] at separator
      exact absurd separator (by decide)
  · refine iff_of_true (contained_append.mpr ⟨compared, contained_putchar ctx⟩) fun all => ?_
    rw [all.1] at separator
    exact absurd separator (by decide)
  · rw [contained_endElement env front filled inside, and_iff_right closes]
  · exact iff_of_true (contained_putchar ctx) fun all => closes all.1

theorem contained_parseData (inside : ctx.buflen ≤ 68) : Contained (parseDataAccesses ctx) := by
  have terminated : Function.update ctx.buf ctx.buflen 0 ctx.buflen = 0 := Function.update_self ..
  have text := contained_string terminated (Nat.zero_le _) inside
  rw [parseDataAccesses]
  split_ifs with full
  · exact contained_nil
  · have place : InBounds (Access.arg ctx.argslen) := Nat.lt_of_not_le full
    simp only [contained_append, contained_cons]
    refine ⟨⟨inBounds_buf inside, place, contained_nil⟩, ?_⟩
    cases (ctx.args ctx.argslen).type with
    | int => exact text
    | string => exact contained_append.mpr ⟨text, text⟩
    | uint32 => exact contained_nil

theorem contained_dataByte (inside : ctx.buflen ≤ 68) (byte : UInt8) :
    Contained (dataByteAccesses ctx byte) := by
  rw [dataByteAccesses]
  split_ifs with opens some_
  · exact contained_append.mpr ⟨contained_parseData inside, contained_putchar _⟩
  · exact contained_append.mpr ⟨contained_nil, contained_putchar _⟩
  · exact contained_putchar ctx

end Containing

/-- The arguments so far stay. -/
structure KeepsArguments (before after : Context) : Prop where
  argslen : after.argslen = before.argslen
  args : ∀ index < before.argslen, after.args index = before.args index

section Keeping

variable {env : SoapEnv} {ctx first second third : Context}

theorem KeepsArguments.refl (ctx : Context) : KeepsArguments ctx ctx := ⟨rfl, fun _ _ => rfl⟩

theorem KeepsArguments.trans (earlier : KeepsArguments first second)
    (later : KeepsArguments second third) : KeepsArguments first third where
  argslen := later.argslen.trans earlier.argslen
  args index inside := by
    have inside' : index < second.argslen := by
      rw [earlier.argslen]
      exact inside
    exact (later.args index inside').trans (earlier.args index inside)

theorem KeepsArguments.of_same (argslen : second.argslen = first.argslen)
    (args : second.args = first.args) : KeepsArguments first second :=
  ⟨argslen, fun index _ => congrFun args index⟩

theorem keeps_putchar (ctx : Context) (byte : UInt8) :
    KeepsArguments ctx (soapBufPutchar ctx byte) :=
  .of_same (rests_putchar ctx byte).argslen (rests_putchar ctx byte).args

theorem keeps_setType (ctx : Context) (type : SoapType) : KeepsArguments ctx (setType ctx type) :=
  ⟨rfl, fun _ inside => Function.update_of_ne (Nat.ne_of_lt inside) ..⟩

theorem keeps_parseType (ctx : Context) : KeepsArguments ctx (soapParseType ctx) := by
  rw [soapParseType]
  split
  · exact .of_same rfl rfl
  · dsimp only
    split
    · exact .of_same rfl rfl
    · split
      · exact .of_same rfl rfl
      · split
        · apply KeepsArguments.trans _ (keeps_setType _ _)
          exact .of_same rfl rfl
        · split
          · apply KeepsArguments.trans _ (keeps_setType _ _)
            exact .of_same rfl rfl
          · exact .of_same rfl rfl

theorem keeps_lookupFuncname (env : SoapEnv) (ctx : Context) :
    KeepsArguments ctx (soapLookupFuncname env ctx) := by
  rw [soapLookupFuncname]
  dsimp only
  split
  · exact .of_same rfl rfl
  · exact .of_same rfl rfl

theorem keeps_parseTag (env : SoapEnv) (ctx : Context) :
    KeepsArguments ctx (soapParseTag env ctx) := by
  rw [soapParseTag]
  split
  · split
    · exact .of_same rfl rfl
    · exact .of_same rfl rfl
  · split
    · split
      · exact .of_same rfl rfl
      · exact .refl ctx
    · split
      · exact (keeps_lookupFuncname env ctx).trans (.of_same rfl rfl)
      · split
        · exact .of_same rfl rfl
        · split
          · exact keeps_parseType ctx
          · exact .refl ctx

theorem keeps_parseElement (env : SoapEnv) (ctx : Context) :
    KeepsArguments ctx (soapParseElement env ctx) := by
  rw [soapParseElement]
  split
  · exact .of_same rfl rfl
  · split
    · exact .refl ctx
    · split
      · exact .refl ctx
      · apply KeepsArguments.trans _ (keeps_parseTag env _)
        exact .of_same rfl rfl

theorem keeps_endElement (env : SoapEnv) (ctx : Context) :
    KeepsArguments ctx (endElement env ctx) := by
  have stripped : KeepsArguments ctx (stripBlank ctx) :=
    .of_same (rests_stripBlank ctx).argslen (rests_stripBlank ctx).args
  have closing := stripped.trans (keeps_putchar (stripBlank ctx) greater)
  have parsed := closing.trans (keeps_parseElement env _)
  exact ⟨parsed.argslen, parsed.args⟩

theorem keeps_elementByte (env : SoapEnv) (ctx : Context) (byte : UInt8) :
    KeepsArguments ctx (elementByte env ctx byte) := by
  have opened : KeepsArguments ctx (if byte = quote then
      { ctx with copyString := true, parserState := .waitStringEnd } else ctx) := by
    split
    · exact .of_same rfl rfl
    · exact .refl ctx
  have put := opened.trans (keeps_putchar _ byte)
  rw [elementByte]
  split
  · exact (keeps_putchar ctx byte).trans (.of_same rfl rfl)
  · split
    · exact .of_same rfl rfl
    · split
      · exact .of_same rfl rfl
      · split
        · exact keeps_endElement env ctx
        · dsimp only
          split
          · exact put.trans (.of_same rfl rfl)
          · exact put

end Keeping

/-- What holds between two bytes. -/
structure Scanning (ctx : Context) : Prop where
  tagged : Tagged ctx
  bounded : Bounded ctx
  args : ctx.argslen ≤ soapMaxargs

section Scanner

variable {env : SoapEnv} {ctx : Context} {byte : UInt8}

theorem Bounded.putchar (bounded : Bounded ctx) (byte : UInt8) :
    Bounded (soapBufPutchar ctx byte) := by
  have size : bufSize = 69 := rfl
  have saved := bounded.saved
  rw [soapBufPutchar]
  split_ifs with full
  · exact bounded
  · exact ⟨by dsimp only; omega, by dsimp only; omega⟩

theorem Bounded.savepos (bounded : Bounded ctx) : Bounded (soapBufBacktrackSavepos ctx) :=
  ⟨Nat.le_refl _, bounded.filled⟩

theorem Bounded.backtrack (bounded : Bounded ctx) : Bounded (soapBufBacktrack ctx) :=
  ⟨Nat.le_refl _, Nat.le_trans bounded.saved bounded.filled⟩

theorem bounded_clear (ctx : Context) : Bounded (soapBufClear ctx) :=
  ⟨Nat.le_refl 0, Nat.zero_le _⟩

/-- The states of the scanner have no part in it. -/
theorem Bounded.of_same {other : Context} (bounded : Bounded ctx)
    (buflen : other.buflen = ctx.buflen) (saved : other.bufBacktrackPos = ctx.bufBacktrackPos) :
    Bounded other :=
  ⟨by rw [buflen, saved]; exact bounded.saved, by rw [buflen]; exact bounded.filled⟩

theorem Bounded.elementByte (bounded : Bounded ctx) (env : SoapEnv) (byte : UInt8) :
    Bounded (elementByte env ctx byte) := by
  have opened : Bounded { ctx with copyString := true, parserState := .waitStringEnd } :=
    bounded.of_same rfl rfl
  rw [Soap.elementByte]
  split_ifs
  · exact (bounded.putchar byte).savepos.of_same rfl rfl
  · exact bounded.backtrack.of_same rfl rfl
  · exact bounded.backtrack
  · exact bounded_clear _
  · exact (opened.putchar byte).savepos
  · exact opened.putchar byte
  · exact (bounded.putchar byte).savepos
  · exact bounded.putchar byte

theorem Bounded.dataByte (bounded : Bounded ctx) (env : SoapEnv) (byte : UInt8) :
    Bounded (dataByte env ctx byte) := by
  rw [Soap.dataByte]
  apply Bounded.savepos
  apply Bounded.putchar
  split_ifs
  · exact (bounded_clear (soapParseData env ctx)).of_same rfl rfl
  · exact (bounded_clear ctx).of_same rfl rfl
  · exact bounded

theorem Bounded.soapByte (bounded : Bounded ctx) (env : SoapEnv) (byte : UInt8) :
    Bounded (soapByte env ctx byte) := by
  have element (state : ParserState) : Bounded { ctx with parserState := state } :=
    bounded.of_same rfl rfl
  rw [Soap.soapByte]
  cases ctx.parserState with
  | white =>
      dsimp only
      split_ifs
      · exact bounded
      · exact (bounded.putchar byte).savepos.of_same rfl rfl
  | ignoreString =>
      dsimp only
      split_ifs
      · exact bounded.of_same rfl rfl
      · exact bounded
  | waitStringEnd =>
      dsimp only
      split_ifs
      · exact (bounded.putchar byte).of_same rfl rfl
      · exact element .elementWhite
      · exact bounded.putchar byte
      · exact bounded
  | elementWhite =>
      dsimp only
      split_ifs
      · exact bounded
      · exact (element .element).elementByte env byte
  | element => exact bounded.elementByte env byte
  | data => exact bounded.dataByte env byte

/-- An argument is added only where the table has room. -/
theorem argslen_parseData (env : SoapEnv) (bound : ctx.argslen ≤ soapMaxargs) :
    (soapParseData env ctx).argslen ≤ soapMaxargs := by
  rw [soapParseData]
  split_ifs with full
  · exact bound
  · have room : ctx.argslen + 1 ≤ soapMaxargs := Nat.lt_of_not_le full
    dsimp only
    cases (ctx.args ctx.argslen).type with
    | int => exact room
    | string =>
        dsimp only
        split_ifs
        · exact room
        · exact bound
    | uint32 => exact room

theorem argslen_soapByte (env : SoapEnv) (bound : ctx.argslen ≤ soapMaxargs) (byte : UInt8) :
    (soapByte env ctx byte).argslen ≤ soapMaxargs := by
  have put : (soapBufPutchar ctx byte).argslen = ctx.argslen := (rests_putchar ctx byte).argslen
  rw [soapByte]
  cases ctx.parserState with
  | white =>
      dsimp only
      split_ifs
      · exact bound
      · exact Nat.le_trans (Nat.le_of_eq put) bound
  | ignoreString =>
      dsimp only
      split_ifs <;> exact bound
  | waitStringEnd =>
      dsimp only
      split_ifs
      · exact Nat.le_trans (Nat.le_of_eq put) bound
      · exact bound
      · exact Nat.le_trans (Nat.le_of_eq put) bound
      · exact bound
  | elementWhite =>
      dsimp only
      split_ifs
      · exact bound
      · exact Nat.le_trans (Nat.le_of_eq (keeps_elementByte env _ byte).argslen) bound
  | element => exact Nat.le_trans (Nat.le_of_eq (keeps_elementByte env ctx byte).argslen) bound
  | data =>
      refine Nat.le_trans (Nat.le_of_eq (rests_putchar _ byte).argslen) ?_
      dsimp only
      split_ifs
      · exact argslen_parseData env bound
      · exact bound
      · exact bound

theorem Scanning.soapByte (scanning : Scanning ctx) (inElement : isStray ctx byte = false) :
    Scanning (soapByte env ctx byte) :=
  ⟨tagged_soapByte env scanning.tagged inElement, scanning.bounded.soapByte env byte,
    argslen_soapByte env scanning.args byte⟩

theorem Scanning.streamError (scanning : Scanning ctx) : Scanning (streamError ctx) :=
  ⟨⟨scanning.tagged.between, fun notWhite notData =>
      have inside := scanning.tagged.inside notWhite notData
      ⟨inside.front, inside.filled, inside.saved⟩⟩,
    scanning.bounded.of_same rfl rfl, scanning.args⟩

theorem scanning_soapInitializeContext : Scanning soapInitializeContext :=
  ⟨⟨fun _ => rfl, fun notWhite => absurd rfl notWhite⟩, ⟨Nat.le_refl 0, Nat.zero_le _⟩,
    Nat.zero_le _⟩

theorem Scanning.soapBytes (scanning : Scanning ctx) (env : SoapEnv) (bytes : List UInt8) :
    Scanning (soapBytes env ctx bytes) := by
  induction bytes generalizing ctx with
  | nil => exact scanning
  | cons byte bytes ih =>
      rw [Soap.soapBytes]
      split_ifs with stray
      · exact scanning.streamError
      · exact ih (scanning.soapByte (eq_false_of_ne_true stray))

end Scanner

section Bounds

variable {env : SoapEnv} {ctx : Context}

/-- A byte is processed inside of the arrays unless it is read behind a `type=`. -/
theorem byteSafe_iff (scanning : Scanning ctx) (byte : UInt8) :
    ByteSafe env ctx byte ↔ ¬TypeEndsBuffer ctx byte := by
  have bounded : Bounded (nextContext env ctx byte) := by
    rw [nextContext]
    split_ifs
    · exact scanning.bounded.of_same rfl rfl
    · exact scanning.bounded.soapByte env byte
  have room := scanning.bounded.filled
  rw [ByteSafe, and_iff_left bounded, TypeEndsBuffer, soapByteAccesses]
  cases state : ctx.parserState with
  | white =>
      exact iff_of_true (contained_ite fun _ => contained_putchar ctx)
        fun ends => by simp at ends
  | ignoreString => exact iff_of_true contained_nil fun ends => by simp at ends
  | waitStringEnd =>
      exact iff_of_true (contained_ite fun _ => contained_putchar ctx)
        fun ends => by simp at ends
  | elementWhite =>
      have inside := scanning.tagged.inside (by rw [state]; decide) (by rw [state]; decide)
      dsimp only
      split_ifs with blank
      · refine iff_of_true contained_nil fun ends => ?_
        rw [ends.2.1] at blank
        exact absurd blank (by decide)
      · rw [contained_elementByte env inside.front inside.filled room]
        simp only [or_true, true_and]
  | element =>
      have inside := scanning.tagged.inside (by rw [state]; decide) (by rw [state]; decide)
      refine (contained_elementByte env inside.front inside.filled room byte).trans ?_
      simp only [true_or, true_and]
  | data =>
      exact iff_of_true (contained_dataByte room byte) fun ends => by simp at ends

theorem everyByte_safe_iff (scanning : Scanning ctx) (bytes : List UInt8) :
    EveryByte env (ByteSafe env) ctx bytes ↔
      EveryByte env (fun ctx byte => ¬TypeEndsBuffer ctx byte) ctx bytes := by
  induction bytes generalizing ctx with
  | nil => exact Iff.rfl
  | cons byte bytes ih =>
      rw [EveryByte, EveryByte, byteSafe_iff scanning]
      exact and_congr_right fun _ =>
        forall_congr' fun inElement => ih (scanning.soapByte inElement)

/-- The parser stays inside of its buffers in all calls if and only if no element for an argument
fills the buffer up to its first `type=`. -/
theorem soapParse_contained_iff (env : SoapEnv) (calls : List (List UInt8)) :
    EveryCall env (ByteSafe env) soapInitializeContext calls ↔
      EveryCall env (fun ctx byte => ¬TypeEndsBuffer ctx byte) soapInitializeContext calls := by
  suffices every : ∀ ctx, Scanning ctx →
      (EveryCall env (ByteSafe env) ctx calls ↔
        EveryCall env (fun ctx byte => ¬TypeEndsBuffer ctx byte) ctx calls) from
    every _ scanning_soapInitializeContext
  induction calls with
  | nil => exact fun _ _ => Iff.rfl
  | cons bytes calls ih =>
      intro ctx scanning
      have next : Scanning (soapParse env ctx bytes) := by
        rw [soapParse]
        split_ifs
        · exact scanning
        · exact scanning.soapBytes env bytes
      rw [EveryCall, EveryCall]
      exact and_congr (forall_congr' fun _ => everyByte_safe_iff scanning bytes) (ih _ next)

/-- What holds of every byte holds of a byte behind some others. -/
theorem EveryByte.behind {property : Context → UInt8 → Prop} {first rest : List UInt8}
    {byte : UInt8} (every : EveryByte env property ctx (first ++ byte :: rest))
    (fine : (soapBytes env ctx first).error = false) : property (soapBytes env ctx first) byte := by
  induction first generalizing ctx with
  | nil => exact every.1
  | cons other first ih =>
      rw [soapBytes] at fine ⊢
      split_ifs at fine ⊢ with stray
      · cases fine
      · exact ih (every.2 (eq_false_of_ne_true stray)) fine

/-- `"<Envelope><Body><f>"` and an argument with a name of 61 bytes, without its last byte. -/
def longArgument : List UInt8 :=
  [60, 69, 110, 118, 101, 108, 111, 112, 101, 62, 60, 66, 111, 100, 121, 62, 60, 102, 62, 60] ++
    List.replicate 61 97 ++ [32, 116, 121, 112, 101, 61, 34, 105, 110, 116, 34]

theorem longArgument_reads_behind :
    ¬∀ (env : SoapEnv) (calls : List (List UInt8)),
      EveryCall env (ByteSafe env) soapInitializeContext calls := by
  intro safe
  have every := (safe echoEnv [longArgument ++ [greater]]).1 rfl
  have last := EveryByte.behind every (by decide +kernel)
  have outside : Access.buf 69 ∈ soapByteAccesses echoEnv
      (soapBytes echoEnv soapInitializeContext longArgument) greater := by
    decide +kernel
  exact absurd (last.1 _ outside).2 (by decide)

end Bounds

end Ethersex.Soap
