import Ethersex.HttpdResolution
import Mathlib.Data.List.TakeWhile

/-!
# The credentials of a request

What `httpd_handle_input` makes of the first segment of a connection, from the text that stands in
the
packet buffer: the credentials in the first line with `"Authorization: "`, if they are Basic ones,
and the file that the name stands for.
-/

namespace Ethersex.Httpd

open ByteMemory CStrings
open Ecmd (pamUnknown)

/-- The credentials that `base64_str_decode` leaves in the place of a token. -/
def decoded (token : List UInt8) : List UInt8 :=
  (base64Decode token 256).2.takeWhile (· != 0)

def usernameOf (token : List UInt8) : List UInt8 :=
  (decoded token).takeWhile (· != colon)

def passwordOf (token : List UInt8) : List UInt8 :=
  ((decoded token).dropWhile (· != colon)).tail

theorem length_base64Decode (characters : List UInt8) (room : Nat) :
    (base64Decode characters room).2.length ≤ room := by
  fun_induction base64Decode characters room with
  | case1 => exact Nat.zero_le _
  | case2 => exact List.length_take_le _ _
  | case3 a b c d rest room _ output _ later ih =>
      have length : output.length ≤ room := List.length_take_le _ _
      have lengthLater : later.2.length ≤ room - output.length := ih
      rw [List.length_append]
      omega
  | case4 => exact Nat.zero_le _

theorem length_decoded (token : List UInt8) : (decoded token).length < addressSpace := by
  have room := length_base64Decode token 256
  have taken : (decoded token).length ≤ (base64Decode token 256).2.length :=
    (List.takeWhile_prefix (· != 0)).length_le
  unfold addressSpace
  omega

theorem zero_not_mem_decoded (token : List UInt8) : 0 ∉ decoded token := by
  intro member
  have nonzero := List.mem_takeWhile_imp member
  simp at nonzero

/-- The user name stands before the first colon, the password behind it. -/
theorem decoded_split {token : List UInt8} (colonMem : colon ∈ decoded token) :
    decoded token = usernameOf token ++ colon :: passwordOf token ∧ colon ∉ usernameOf token := by
  obtain ⟨username, password, whole, absent⟩ := List.eq_append_cons_of_mem colonMem
  have other : ∀ byte ∈ username, (byte != colon) = true := by
    intro byte member
    rw [bne_iff_ne]
    rintro rfl
    exact absent member
  have name : usernameOf token = username := by
    rw [usernameOf, whole, List.takeWhile_append_of_pos other]
    simp
  have secret : passwordOf token = password := by
    rw [passwordOf, whole, List.dropWhile_append_of_pos other]
    simp
  rw [name, secret]
  exact ⟨whole, absent⟩

variable {memory : Memory} {ptr : Nat}

/-- The token is replaced by what it stands for, and no byte before it changes. -/
theorem base64StrDecode_spec {token : List UInt8} (str : cString memory ptr = token) :
    cString (base64StrDecode memory ptr) ptr = decoded token ∧
      base64StrDecode memory ptr (ptr + (decoded token).length) = 0 ∧
        Agree ptr memory (base64StrDecode memory ptr) := by
  unfold base64StrDecode
  dsimp only
  rw [str]
  refine ⟨cString_strcpy (zero_not_mem_decoded token) (length_decoded token),
    strcpy_terminated _ _ _, ?_⟩
  intro index below
  rw [strcpy, writeBlock_outside (by omega), writeBlock_outside (by omega)]

/-- The credentials of a decoded token. -/
theorem splitCredentials {token : List UInt8} (colonMem : colon ∈ decoded token)
    (text : cString memory ptr = decoded token)
    (terminated : memory (ptr + (decoded token).length) = 0) :
    let password := ptr + (usernameOf token).length
    strchr memory ptr colon = some password ∧
      cString (Function.update memory password 0) ptr = usernameOf token ∧
        cString (Function.update memory password 0) (password + 1) = passwordOf token := by
  obtain ⟨whole, absent⟩ := decoded_split colonMem
  have nonzero := zero_not_mem_decoded token
  have length := length_decoded token
  have stored := readBlock_cString memory ptr
  rw [text, whole] at stored
  rw [whole] at nonzero length terminated
  rw [List.mem_append, List.mem_cons, not_or, not_or] at nonzero
  rw [List.length_append, List.length_cons] at length terminated
  obtain ⟨storedName, storedRest⟩ := readBlock_append_iff.1 stored
  rw [List.length_cons, readBlock_succ, List.cons.injEq] at storedRest
  have starts : usernameOf token ++ colon :: passwordOf token <+: cString memory ptr :=
    ⟨[], by rw [List.append_nil, text, whole]⟩
  refine ⟨strchr_of_leading absent starts, ?_, ?_⟩
  · apply cString_eq nonzero.1
    · rw [readBlock_update _ (Or.inr (Nat.le_refl _)), storedName]
    · exact Function.update_self ..
    · omega
  · apply cString_eq nonzero.2.2
    · rw [readBlock_update _ (Or.inl (Nat.lt_succ_self _)), storedRest.2]
    · rw [Function.update_of_ne (by omega), ← terminated]
      congr 1
      omega
    · omega

theorem parseCredentials_basic {token : List UInt8} (nonzero : 0 ∉ token)
    (lineEnds : lineFeed ∉ token) (colonMem : colon ∈ decoded token)
    (fits : token.length + 7 ≤ addressSpace)
    (stored : readBlock memory ptr (basicText ++ (token ++ [lineFeed])).length =
      basicText ++ (token ++ [lineFeed])) :
    ∃ changed, parseCredentials memory ptr =
        .credentials changed (usernameOf token) (passwordOf token) ∧ Agree ptr memory changed := by
  obtain ⟨storedBasic, storedLine⟩ := readBlock_append_iff.1 stored
  have storedToken := (readBlock_append_iff.1 storedLine).1
  have basic : sameStart memory ptr basicText 6 = true :=
    sameStart_iff.2 (prefix_cString (by decide) storedBasic (by decide))
  have newline : strchr memory (ptr + 6) lineFeed = some (ptr + 6 + token.length) := by
    have starts : token ++ [lineFeed] <+: cString memory (ptr + 6) := by
      apply prefix_cString _ storedLine
      · rw [List.length_append, List.length_singleton]
        omega
      · rw [List.mem_append, not_or]
        exact ⟨nonzero, by decide⟩
    exact strchr_of_leading lineEnds starts
  have text : cString (Function.update memory (ptr + 6 + token.length) 0) (ptr + 6) = token := by
    apply cString_eq nonzero
    · rw [readBlock_update _ (Or.inr (Nat.le_refl _))]
      exact storedToken
    · exact Function.update_self ..
    · omega
  obtain ⟨decodedText, terminated, agree⟩ := base64StrDecode_spec text
  obtain ⟨colonAt, name, secret⟩ := splitCredentials colonMem decodedText terminated
  refine ⟨Function.update (base64StrDecode (Function.update memory (ptr + 6 + token.length) 0)
    (ptr + 6)) (ptr + 6 + (usernameOf token).length) 0, ?_, ?_⟩
  · simp only [parseCredentials, basic, newline, colonAt, name, secret, Bool.not_true,
      Bool.false_eq_true, if_false]
  · intro index below
    rw [Function.update_of_ne (by omega), ← agree index (by omega),
      Function.update_of_ne (by omega)]

/-- Another method. -/
theorem parseCredentials_other (other : ¬ basicText <+: cString memory ptr) :
    parseCredentials memory ptr = .failed := by
  have different : sameStart memory ptr basicText 6 = false :=
    Bool.eq_false_iff.2 fun same => other (sameStart_iff.1 same)
  rw [parseCredentials, different]
  rfl

/-- A line that does not end in the buffer. -/
theorem parseCredentials_unfinished (unfinished : lineFeed ∉ cString memory (ptr + 6)) :
    parseCredentials memory ptr = .failed := by
  have newline : strchr memory (ptr + 6) lineFeed = none := by
    rw [strchr, Option.map_eq_none_iff, List.findIdx?_eq_none_iff]
    intro byte member
    rw [beq_eq_false_iff_ne]
    rintro rfl
    exact unfinished member
  simp only [parseCredentials, newline]
  split_ifs
  · rfl
  · rfl

variable {text before rest : List UInt8}

theorem findCredentials_of_found (config : Config) {offset : Nat}
    (found : findInfix authorizationText (cString memory ptr) = some offset) :
    findCredentials config memory ptr = parseCredentials memory (ptr + offset + 15) := by
  simp only [findCredentials, strstr, found, Option.map_some]

/-- A header text in a memory, with `"Authorization: "` in it. -/
structure StoredHeader (memory : Memory) (ptr : Nat) (before rest : List UInt8) : Prop where
  nonzero : 0 ∉ before ++ (authorizationText ++ rest)
  fits : (before ++ (authorizationText ++ rest)).length ≤ addressSpace
  stored : readBlock memory ptr (before ++ (authorizationText ++ rest)).length =
    before ++ (authorizationText ++ rest)
  found : findInfix authorizationText (before ++ (authorizationText ++ rest)) = some before.length

theorem StoredHeader.findCredentials_eq (header : StoredHeader memory ptr before rest)
    (config : Config) :
    findCredentials config memory ptr = parseCredentials memory (ptr + before.length + 15) := by
  obtain ⟨more, whole⟩ := prefix_cString header.nonzero header.stored header.fits
  apply findCredentials_of_found
  rw [← whole]
  exact findInfix_append_right (by decide) header.found more

theorem StoredHeader.storedRest (header : StoredHeader memory ptr before rest) :
    readBlock memory (ptr + before.length + 15) rest.length = rest :=
  (readBlock_append_iff.1 (readBlock_append_iff.1 header.stored).2).2

theorem StoredHeader.nonzeroRest (header : StoredHeader memory ptr before rest) : 0 ∉ rest :=
  fun zero => header.nonzero (List.mem_append_right _ (List.mem_append_right _ zero))

theorem StoredHeader.fitsRest (header : StoredHeader memory ptr before rest) :
    rest.length ≤ addressSpace := by
  have fits := header.fits
  rw [List.length_append, List.length_append] at fits
  omega

theorem findCredentials_basic (config : Config) {token after : List UInt8}
    (header : StoredHeader memory ptr before (basicText ++ (token ++ lineFeed :: after)))
    (lineEnds : lineFeed ∉ token) (colonMem : colon ∈ decoded token) :
    ∃ changed, findCredentials config memory ptr =
        .credentials changed (usernameOf token) (passwordOf token) ∧ Agree ptr memory changed := by
  have shape : basicText ++ (token ++ lineFeed :: after) =
      basicText ++ (token ++ [lineFeed]) ++ after := by simp
  have stored := header.storedRest
  have nonzero := header.nonzeroRest
  have fits := header.fitsRest
  rw [shape] at stored nonzero fits
  have tokenNonzero : 0 ∉ token := by
    intro zero
    exact nonzero (by simp [zero])
  have tokenFits : token.length + 7 ≤ addressSpace := by
    have basicLength : basicText.length = 6 := rfl
    simp only [List.length_append, List.length_singleton, basicLength] at fits
    omega
  obtain ⟨changed, parsed, agree⟩ := parseCredentials_basic tokenNonzero lineEnds colonMem tokenFits
    (readBlock_append_iff.1 stored).1
  rw [header.findCredentials_eq]
  exact ⟨changed, parsed, agree.mono (by omega)⟩

theorem findCredentials_other (config : Config) (header : StoredHeader memory ptr before rest)
    (other : ¬ basicText <+: rest) (differs : ¬ rest <+: basicText) :
    findCredentials config memory ptr = .failed := by
  rw [header.findCredentials_eq]
  apply parseCredentials_other
  intro basic
  have starts := prefix_cString header.nonzeroRest header.storedRest header.fitsRest
  rcases List.prefix_or_prefix_of_prefix basic starts with inside | covers
  · exact other inside
  · exact differs covers

/-- A header text that ends with the string, before the line of the credentials does. -/
theorem findCredentials_unfinished (config : Config) (header : StoredHeader memory ptr before rest)
    (unfinished : lineFeed ∉ rest)
    (terminated : memory (ptr + (before ++ (authorizationText ++ rest)).length) = 0)
    (fits : rest.length < addressSpace) : findCredentials config memory ptr = .failed := by
  have ends : memory (ptr + before.length + 15 + rest.length) = 0 := by
    rw [← terminated, List.length_append, List.length_append]
    congr 1
    have : authorizationText.length = 15 := rfl
    omega
  have tail := cString_eq header.nonzeroRest header.storedRest ends fits
  rw [header.findCredentials_eq]
  by_cases basic : basicText <+: rest
  · obtain ⟨token, rfl⟩ := basic
    rw [List.length_append, show basicText.length = 6 from rfl] at fits ends
    have nonzero : 0 ∉ token := fun zero => header.nonzeroRest (List.mem_append_right _ zero)
    have stored : readBlock memory (ptr + before.length + 15 + 6) token.length = token :=
      (readBlock_append_iff.1 header.storedRest).2
    rw [← Nat.add_assoc] at ends
    apply parseCredentials_unfinished
    rw [cString_eq nonzero stored ends (by omega)]
    exact fun member => unfinished (List.mem_append_right _ member)
  · apply parseCredentials_other
    rw [tail]
    exact basic

/-- The state after the event that opens the connection. -/
def freshConnection : Connection := ⟨false, false, false, pamUnknown, none⟩

/-- The buffer with nothing but the name. -/
def nameMemory (path : List UInt8) : Memory := writeBlock (fun _ => 0) 0 (getText ++ path)

/-- What the name stands for. -/
def target (config : Config) (environment : Environment) (path : List UInt8) :
    Handler × List Effect :=
  resolve config environment (nameMemory path) 5

theorem sameName_of_agree {path : List UInt8}
    (escapes : ∀ index, path[index]? = some 37 → index + 2 < path.length)
    (agree : Agree (getText ++ path).length (nameMemory path) memory)
    (terminated : memory (getText ++ path).length = 0) :
    SameName (nameMemory path) memory 5 (5 + path.length) := by
  have length : (getText ++ path).length = 5 + path.length := by
    rw [List.length_append]
    rfl
  rw [length] at agree terminated
  have zero : nameMemory path (5 + path.length) = 0 := writeBlock_outside (by omega)
  refine ⟨?_, zero, Nat.le_add_right _ _, ?_⟩
  · intro index below
    rcases Nat.lt_succ_iff_lt_or_eq.1 below with inside | rfl
    · exact agree index inside
    · rw [zero, terminated]
  · intro index above below percent
    rw [nameMemory, writeBlock_inside (Nat.zero_le _) (by omega), Nat.sub_zero,
      List.getD_append_right _ _ _ _ above, show getText.length = 5 from rfl,
      List.getD_eq_getElem _ _ (show index - 5 < path.length by omega)] at percent
    have complete := escapes (index - 5) (by
      rw [List.getElem?_eq_getElem (by omega), percent])
    omega

/-- `httpd_handle_input` gets to the authentication. -/
theorem httpdHandleInput_eq (config : Config) {event : UipEvent} {path : List UInt8}
    (nameEnds : 0 ∉ path ∧ space ∉ path) (long : 10 ≤ event.uipLen)
    (fits : (getText ++ (path ++ [space])).length ≤ addressSpace)
    (stored : readBlock event.buffer 0 (getText ++ (path ++ [space])).length =
      getText ++ (path ++ [space])) :
    httpdHandleInput config freshConnection event =
      authorize config event.environment freshConnection
        (Function.update event.buffer (5 + path.length) 0) (5 + path.length + 1) 5 := by
  obtain ⟨storedGet, storedName⟩ := readBlock_append_iff.1 stored
  rw [List.length_append] at fits
  obtain ⟨more, whole⟩ := prefix_cString (by decide) storedGet (by decide)
  have notPost : sameStartNoCase event.buffer 0 postText = false := by
    rw [sameStartNoCase, ← whole]
    rfl
  have get : sameStartNoCase event.buffer 0 getText = true := by
    rw [sameStartNoCase, ← whole, List.take_left, beq_self_eq_true]
  have name : path ++ [space] <+: cString event.buffer 5 := by
    apply prefix_cString _ storedName (by omega)
    rw [List.mem_append, not_or]
    exact ⟨nameEnds.1, by decide⟩
  have pointer := strchr_of_leading nameEnds.2 name
  rw [httpdHandleInput, if_neg (by decide), if_neg (by omega), if_neg (by simp [notPost]),
    if_neg (by simp [get]), pointer]

/-- The start of a request with a header text behind it in the buffer. -/
structure StoredRequest (event : UipEvent) (path text : List UInt8) : Prop where
  nameEnds : 0 ∉ path ∧ space ∉ path
  escapes : ∀ index, path[index]? = some 37 → index + 2 < path.length
  long : 10 ≤ event.uipLen
  nonzero : 0 ∉ text
  fits : (getText ++ (path ++ [space]) ++ text).length < addressSpace
  stored : readBlock event.buffer 0 (getText ++ (path ++ [space]) ++ text).length =
    getText ++ (path ++ [space]) ++ text

variable {event : UipEvent} {path : List UInt8}

/-- The buffer with the zero byte behind the name. -/
def namedBuffer (event : UipEvent) (path : List UInt8) : Memory :=
  Function.update event.buffer (5 + path.length) 0

theorem StoredRequest.storedText (request : StoredRequest event path text) :
    readBlock (namedBuffer event path) (5 + path.length + 1) text.length = text := by
  rw [namedBuffer, readBlock_update _ (Or.inl (Nat.lt_succ_self _))]
  have stored := (readBlock_append_iff.1 request.stored).2
  rw [List.length_append, List.length_append, List.length_singleton, Nat.zero_add,
    show getText.length = 5 from rfl, ← Nat.add_assoc] at stored
  exact stored

theorem StoredRequest.fitsText (request : StoredRequest event path text) :
    text.length + 6 < addressSpace := by
  have fits := request.fits
  simp only [List.length_append, List.length_singleton, show getText.length = 5 from rfl] at fits
  omega

theorem StoredRequest.storedHeader
    (request : StoredRequest event path (before ++ (authorizationText ++ rest)))
    (found : findInfix authorizationText (before ++ (authorizationText ++ rest)) =
      some before.length) :
    StoredHeader (namedBuffer event path) (5 + path.length + 1) before rest :=
  ⟨request.nonzero, Nat.le_of_add_right_le (Nat.le_of_lt request.fitsText),
    request.storedText, found⟩

theorem StoredRequest.input_eq (request : StoredRequest event path text) (config : Config) :
    httpdHandleInput config freshConnection event =
      authorize config event.environment freshConnection (namedBuffer event path)
        (5 + path.length + 1) 5 := by
  have fits := request.fits
  rw [List.length_append] at fits
  exact httpdHandleInput_eq config request.nameEnds request.long (by omega)
    (readBlock_append_iff.1 request.stored).1

theorem StoredRequest.sameName (request : StoredRequest event path text) {changed : Memory}
    (agree : Agree (5 + path.length + 1) (namedBuffer event path) changed) :
    SameName (nameMemory path) changed 5 (5 + path.length) := by
  have length : (getText ++ path).length = 5 + path.length := by
    rw [List.length_append]
    rfl
  have stored := (readBlock_append_iff.1 request.stored).1
  rw [← List.append_assoc] at stored
  have storedName := (readBlock_append_iff.1 stored).1
  refine sameName_of_agree request.escapes ?_ ?_
  · intro index below
    rw [length] at below
    rw [← agree index (by omega), namedBuffer, Function.update_of_ne (by omega), nameMemory,
      writeBlock_inside (Nat.zero_le _) (by omega), Nat.sub_zero, ← storedName,
      getD_readBlock (by omega), Nat.zero_add]
  · rw [length, ← agree _ (Nat.lt_succ_self _), namedBuffer, Function.update_self]

/-- The reaction to Basic credentials. -/
def accepted (config : Config) (environment : Environment) (path token : List UInt8) :
    Connection × List Effect :=
  let found := target config environment path
  ({ freshConnection with
      authState := (environment.pamAuth (usernameOf token) (passwordOf token)).code
      handler := some found.1 },
    .pamAuth (usernameOf token) (passwordOf token) :: found.2)

/-- The reaction to a request without them. -/
def refused : Connection × List Effect :=
  ({ freshConnection with handler := some .handle401 }, [])

theorem StoredRequest.input_accepted (config : Config) {token after : List UInt8}
    (request : StoredRequest event path
      (before ++ (authorizationText ++ (basicText ++ (token ++ lineFeed :: after)))))
    (found : findInfix authorizationText
      (before ++ (authorizationText ++ (basicText ++ (token ++ lineFeed :: after)))) =
        some before.length)
    (lineEnds : lineFeed ∉ token) (colonMem : colon ∈ decoded token) :
    httpdHandleInput config freshConnection event =
      accepted config event.environment path token := by
  obtain ⟨changed, parsed, agree⟩ := findCredentials_basic config
    (request.storedHeader found) lineEnds
    colonMem
  have named := resolve_same config event.environment (request.sameName agree)
  rw [request.input_eq, authorize, parsed]
  dsimp only
  rw [named]
  rfl

theorem StoredRequest.input_refused (config : Config) (request : StoredRequest event path text)
    (failed : findCredentials config (namedBuffer event path) (5 + path.length + 1) = .failed) :
    httpdHandleInput config freshConnection event = refused := by
  rw [request.input_eq, authorize, failed]
  rfl

end Ethersex.Httpd
