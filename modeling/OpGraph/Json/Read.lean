import OpGraph.Json.Write
import OpGraph.Text.Literal

namespace OpGraph

namespace Json

/-- What a typed read found where it expected something else. -/
inductive Found where
  | null
  | bool (b : Bool)
  | unsigned (n : Nat)
  | signed (i : Int)
  | float (bits : Nat)
  | string (s : String)
  | sequence
  | map
  deriving Repr

def Found.text : Found → String
  | .null => "null"
  | .bool b => "boolean " ++ tick (if b then "true" else "false")
  | .unsigned n => "integer " ++ tick (toString n)
  | .signed i => "integer " ++ tick (toString i)
  | .float b => "floating point " ++ tick (renderFloat b)
  | .string s => "string " ++ Text.literal s
  | .sequence => "sequence"
  | .map => "map"
where
  tick (s : String) : String := "\x60" ++ s ++ "\x60"

/-- The kinds of reading failure. -/
inductive ReadError where
  | eofInList
  | eofInObject
  | eofInString
  | eofInValue
  | expectedColon
  | expectedListCommaOrEnd
  | expectedObjectCommaOrEnd
  | expectedIdent
  | expectedValue
  | invalidEscape
  | invalidNumber
  | numberOutOfRange
  | controlCharacter
  | keyMustBeString
  | loneSurrogate
  | trailingComma
  | trailingCharacters
  | unexpectedEndOfHexEscape
  | recursionLimit
  | invalidType (found : Found) (expected : String)
  | missingField (name : String)
  | duplicateField (name : String)
  | invalidLength (length : Nat) (expected : String)
  deriving Repr

def ReadError.text : ReadError → String
  | .eofInList => "EOF while parsing a list"
  | .eofInObject => "EOF while parsing an object"
  | .eofInString => "EOF while parsing a string"
  | .eofInValue => "EOF while parsing a value"
  | .expectedColon => "expected \x60:\x60"
  | .expectedListCommaOrEnd => "expected \x60,\x60 or \x60]\x60"
  | .expectedObjectCommaOrEnd => "expected \x60,\x60 or \x60\x7d\x60"
  | .expectedIdent => "expected ident"
  | .expectedValue => "expected value"
  | .invalidEscape => "invalid escape"
  | .invalidNumber => "invalid number"
  | .numberOutOfRange => "number out of range"
  | .controlCharacter => "control character (\\u0000-\\u001F) found while parsing a string"
  | .keyMustBeString => "key must be a string"
  | .loneSurrogate => "lone leading surrogate in hex escape"
  | .trailingComma => "trailing comma"
  | .trailingCharacters => "trailing characters"
  | .unexpectedEndOfHexEscape => "unexpected end of hex escape"
  | .recursionLimit => "recursion limit exceeded"
  | .invalidType found expected => "invalid type: " ++ found.text ++ ", expected " ++ expected
  | .missingField name => "missing field \x60" ++ name ++ "\x60"
  | .duplicateField name => "duplicate field \x60" ++ name ++ "\x60"
  | .invalidLength n expected => "invalid length " ++ toString n ++ ", expected " ++ expected

/-- A failure with its place, a line and a byte column, once known. -/
structure ReadFailure where
  error : ReadError
  position : Option (Nat × Nat)
  deriving Repr

def ReadFailure.message (f : ReadFailure) : String :=
  match f.position with
  | some (line, column) =>
    f.error.text ++ " at line " ++ toString line ++ " column " ++ toString column
  | none => f.error.text

/-- The unread text, where it starts, and how many more containers may open. -/
structure Cursor where
  rest : List Char
  line : Nat
  column : Nat
  depth : Nat

/-- A reader consumes text and fails with a placed diagnostic; its state survives a failure so
that an enclosing container can still be closed. -/
abbrev Reader := ExceptT ReadFailure (StateM Cursor)

namespace Reader

/-- Take one character. -/
def Cursor.advance (c : Cursor) : Cursor :=
  match c.rest with
  | [] => c
  | ch :: rest =>
    if ch = '\n' then { c with rest, line := c.line + 1, column := 0 }
    else { c with rest, column := c.column + ch.utf8Size }

def peek : Reader (Option Char) := do
  return (← get).rest.head?

def bump : Reader Unit := modify Cursor.advance

def next : Reader (Option Char) := do
  let c ← peek
  bump
  return c

/-- Fail at the end of what was taken. -/
def fail (e : ReadError) : Reader α := do
  let c ← get
  throw ⟨e, some (c.line, c.column)⟩

/-- Fail just past the first byte of the next character. -/
def failAhead (e : ReadError) : Reader α := do
  let c ← get
  let position := match c.rest with
    | [] => (c.line, c.column)
    | '\n' :: _ => (c.line + 1, 0)
    | _ :: _ => (c.line, c.column + 1)
  throw ⟨e, some position⟩

/-- Give a failure that has no place yet the current one. -/
def placed (f : ReadFailure) : Reader α :=
  match f.position with
  | some _ => throw f
  | none => fail f.error

def isBlank (c : Char) : Bool := c = ' ' || c = '\t' || c = '\n' || c = '\r'

/-- The text past its leading blanks, with the line and column where it then starts. -/
def blanksFrom : List Char → Nat → Nat → List Char × Nat × Nat
  | ch :: rest, line, column =>
    if isBlank ch then
      if ch = '\n' then blanksFrom rest (line + 1) 0 else blanksFrom rest line (column + 1)
    else (ch :: rest, line, column)
  | [], line, column => ([], line, column)

/-- The cursor past the blanks at its start. -/
def Cursor.skipBlanks (c : Cursor) : Cursor :=
  let (rest, line, column) := blanksFrom c.rest c.line c.column
  { c with rest, line, column }

def skipBlanks : Reader Unit := modify Cursor.skipBlanks

/-- Take the given characters, failing at the first that differs. -/
def ident : List Char → Reader Unit
  | [] => pure ()
  | x :: xs => do
    match ← peek with
    | none => fail .eofInValue
    | some c => if c = x then do bump; ident xs else failAhead .expectedIdent

def isDigit (c : Char) : Bool := '0' ≤ c && c ≤ '9'

def digitValue (c : Char) : Nat := c.toNat - 48

/-- The largest unsigned 64-bit integer. -/
def maxUnsigned : Nat := Nat.pow 2 64 - 1

/-- The largest signed 32-bit integer, the bound on written exponents. -/
def maxExponent : Nat := Nat.pow 2 31 - 1

/-- Binary64 arithmetic on finite non-negative patterns. -/
def mulBits (a b : Nat) : Nat :=
  match BinaryFormat.binary64.decode a, BinaryFormat.binary64.decode b with
  | .finite na ma ea, .finite nb mb eb => BinaryFormat.binary64.mulFinite na ma ea nb mb eb
  | _, _ => BinaryFormat.binary64.infinityBits

def divBits (a b : Nat) : Nat :=
  match BinaryFormat.binary64.decode a, BinaryFormat.binary64.decode b with
  | .finite na ma ea, .finite nb mb eb => BinaryFormat.binary64.divFinite na ma ea nb mb eb
  | _, _ => BinaryFormat.binary64.infinityBits

/-- The rounded power of ten. -/
def powerOfTen (k : Nat) : Nat := BinaryFormat.binary64.ofNat (Nat.pow 10 k)

/-- Scale `f` by `10 ^ e`: one rounded step when `|e| ≤ 308`, else steps of `10 ^ 308` downwards;
`none` when the result overflows. -/
def scaleByTen : Nat → Nat → Int → Option Nat
  | 0, f, _ => some f
  | fuel + 1, f, e =>
    if e.natAbs ≤ 308 then
      if 0 ≤ e then
        let r := mulBits f (powerOfTen e.toNat)
        if BinaryFormat.binary64.isInfinite r then none else some r
      else some (divBits f (powerOfTen e.natAbs))
    else if f = 0 then some f
    else if 0 ≤ e then none
    else scaleByTen fuel (divBits f (powerOfTen 308)) (e + 308)

/-- The binary64 pattern of `±significand * 10 ^ exponent`. -/
def fromParts (positive : Bool) (significand : Nat) (exponent : Int) : Reader Nat :=
  match scaleByTen (exponent.natAbs / 308 + 2) (BinaryFormat.binary64.ofNat significand) exponent with
  | none => fail .numberOutOfRange
  | some bits => pure (if positive then bits else bits + BinaryFormat.binary64.signBit)

/-- Clamp to the signed 32-bit range. -/
def saturate (e : Int) : Int :=
  max (-(Int.pow 2 31)) (min e (Int.pow 2 31 - 1))

/-- Skip digits. -/
def skipDigits : Nat → Reader Unit
  | 0 => pure ()
  | fuel + 1 => do
    match ← peek with
    | some c => if isDigit c then do bump; skipDigits fuel else pure ()
    | none => pure ()

/-- The digits of a written exponent after its first. -/
def exponentDigits (positive : Bool) (significand : Nat) (start : Int) (positiveExp : Bool) :
    Nat → Nat → Reader Nat
  | 0, _ => fail .eofInValue
  | fuel + 1, exp => do
    match ← peek with
    | some c =>
      if isDigit c then do
        bump
        let exp' := exp * 10 + digitValue c
        if exp' > maxExponent then
          if significand ≠ 0 && positiveExp then fail .numberOutOfRange
          else do
            skipDigits fuel
            pure (if positive then 0 else BinaryFormat.binary64.signBit)
        else exponentDigits positive significand start positiveExp fuel exp'
      else finish exp
    | none => finish exp
where
  finish (exp : Nat) : Reader Nat :=
    fromParts positive significand (saturate (if positiveExp then start + exp else start - exp))

/-- The exponent part, at its `e`. -/
def exponentPart (fuel : Nat) (positive : Bool) (significand : Nat) (start : Int) : Reader Nat := do
  bump
  let positiveExp ← do
    match ← peek with
    | some '+' => do bump; pure true
    | some '-' => do bump; pure false
    | _ => pure true
  match ← peek with
  | none => fail .eofInValue
  | some c =>
    if isDigit c then do
      bump
      exponentDigits positive significand start positiveExp fuel (digitValue c)
    else failAhead .invalidNumber

/-- Digits after a point once the significand is full: they are dropped. -/
def fractionOverflow (fuel : Nat) (positive : Bool) (significand : Nat) (exponent : Int) :
    Reader Nat := do
  skipDigits fuel
  match ← peek with
  | some 'e' | some 'E' => exponentPart fuel positive significand exponent
  | _ => fromParts positive significand exponent

/-- The digits after a point; `after` counts them, negated. -/
def fractionDigits (positive : Bool) (before : Int) : Nat → Nat → Int → Reader Nat
  | 0, _, _ => fail .eofInValue
  | fuel + 1, significand, after => do
    match ← peek with
    | some c =>
      if isDigit c then
        let s := significand * 10 + digitValue c
        if s > maxUnsigned then fractionOverflow fuel positive significand (before + after)
        else do
          bump
          fractionDigits positive before fuel s (after - 1)
      else close fuel significand after
    | none => close fuel significand after
where
  close (fuel significand : Nat) (after : Int) : Reader Nat := do
    if after = 0 then
      match ← peek with
      | some _ => failAhead .invalidNumber
      | none => failAhead .eofInValue
    else
      match ← peek with
      | some 'e' | some 'E' => exponentPart fuel positive significand (before + after)
      | _ => fromParts positive significand (before + after)

/-- An integer part too long for 64 bits: its further digits only scale it. -/
def longInteger (positive : Bool) (significand : Nat) : Nat → Int → Reader Nat
  | 0, _ => fail .eofInValue
  | fuel + 1, extra => do
    match ← peek with
    | some c =>
      if isDigit c then do
        bump
        longInteger positive significand fuel (extra + 1)
      else if c = '.' then do
        bump
        fractionDigits positive extra fuel significand 0
      else if c = 'e' || c = 'E' then exponentPart fuel positive significand extra
      else fromParts positive significand extra
    | none => fromParts positive significand extra

/-- What follows the integer digits. -/
def numberTail (fuel : Nat) (positive : Bool) (significand : Nat) : Reader JsonNumber := do
  match ← peek with
  | some '.' => do
    bump
    return .float (← fractionDigits positive 0 fuel significand 0)
  | some 'e' | some 'E' => return .float (← exponentPart fuel positive significand 0)
  | _ =>
    if positive then return .nat significand
    else if significand = 0 || significand > Nat.pow 2 63 then
      return .float (BinaryFormat.binary64.ofNat significand + BinaryFormat.binary64.signBit)
    else return .negInt (-(significand : Int))

def integerDigits (positive : Bool) : Nat → Nat → Reader JsonNumber
  | 0, _ => fail .eofInValue
  | fuel + 1, significand => do
    match ← peek with
    | some c =>
      if isDigit c then
        let s := significand * 10 + digitValue c
        if s > maxUnsigned then return .float (← longInteger positive significand fuel 0)
        else do
          bump
          integerDigits positive fuel s
      else numberTail fuel positive significand
    | none => numberTail fuel positive significand

/-- A number, after its sign. -/
def number (fuel : Nat) (positive : Bool) : Reader JsonNumber := do
  match ← peek with
  | none => fail .eofInValue
  | some '0' =>
    bump
    match ← peek with
    | some c => if isDigit c then failAhead .invalidNumber else numberTail fuel positive 0
    | none => numberTail fuel positive 0
  | some c =>
    if '1' ≤ c && c ≤ '9' then do
      bump
      integerDigits positive fuel (digitValue c)
    else failAhead .invalidNumber

def hexValue (c : Char) : Option Nat :=
  if isDigit c then some (digitValue c)
  else if 'a' ≤ c && c ≤ 'f' then some (c.toNat - 87)
  else if 'A' ≤ c && c ≤ 'F' then some (c.toNat - 55)
  else none

/-- Take characters until at least `n` bytes are taken or the text ends. -/
def takeBytes : Nat → Nat → Reader Unit
  | 0, _ => pure ()
  | fuel + 1, n => do
    if n = 0 then pure ()
    else
      match ← next with
      | none => pure ()
      | some c => takeBytes fuel (n - min n c.utf8Size)

/-- The line and column `n` bytes further into the text; a character may be entered part way. -/
def bytesAhead : List Char → Nat → Nat → Nat → Nat × Nat
  | [], _, line, column => (line, column)
  | ch :: rest, n, line, column =>
    if n = 0 then (line, column)
    else if ch = '\n' then bytesAhead rest (n - 1) (line + 1) 0
    else if ch.utf8Size ≤ n then bytesAhead rest (n - ch.utf8Size) line (column + ch.utf8Size)
    else (line, column + n)

/-- Four hexadecimal digits of an escape: four bytes are taken whatever they are, so a bad one is
reported where those four bytes end. -/
def hexQuad : Reader Nat := do
  let c ← get
  let four := c.rest.take 4
  if (four.map Char.utf8Size).foldr (· + ·) 0 < 4 then do
    takeBytes (c.rest.length + 1) 4
    fail .eofInString
  else
    match four.mapM hexValue with
    | some [a, b, d, e] => do
      takeBytes 5 4
      pure (((a * 16 + b) * 16 + d) * 16 + e)
    | _ => throw ⟨.invalidEscape, some (bytesAhead c.rest 4 c.line c.column)⟩

/-- The character a one-letter escape stands for. -/
def shortEscape : Char → Option Char
  | '"' => some '"'
  | '\\' => some '\\'
  | '/' => some '/'
  | 'b' => some (Char.ofNat 8)
  | 'f' => some (Char.ofNat 12)
  | 'n' => some '\n'
  | 'r' => some '\r'
  | 't' => some '\t'
  | _ => none

/-- A `\u` escape, surrogate pairs joined. -/
def unicodeEscape : Reader Char := do
  let n ← hexQuad
  if 0xDC00 ≤ n && n ≤ 0xDFFF then fail .loneSurrogate
  else if n < 0xD800 || n > 0xDBFF then pure (Char.ofNat n)
  else
    match ← peek with
    | none => fail .eofInString
    | some c =>
      if c ≠ '\\' then failAhead .unexpectedEndOfHexEscape
      else do
        bump
        match ← peek with
        | none => fail .eofInString
        | some c =>
          if c ≠ 'u' then failAhead .unexpectedEndOfHexEscape
          else do
            bump
            let low ← hexQuad
            if low < 0xDC00 || low > 0xDFFF then fail .loneSurrogate
            else pure (Char.ofNat ((n - 0xD800) * 1024 + (low - 0xDC00) + 0x10000))

/-- The character an escape stands for, after its backslash. -/
def escape : Reader Char := do
  match ← peek with
  | none => fail .eofInString
  | some c =>
    match shortEscape c with
    | some e => do bump; pure e
    | none => if c = 'u' then do bump; unicodeEscape else failAhead .invalidEscape

/-- The rest of a string after its opening quote. -/
def stringBody : Nat → List Char → Reader String
  | 0, _ => fail .eofInString
  | fuel + 1, acc => do
    match ← peek with
    | none => fail .eofInString
    | some '"' => do
      bump
      pure (String.ofList acc.reverse)
    | some '\\' => do
      bump
      let c ← escape
      stringBody fuel (c :: acc)
    | some c =>
      bump
      if c.toNat < 32 then fail .controlCharacter else stringBody fuel (c :: acc)

/-- Open a container: one level of nesting fewer is left. -/
def enter : Reader Unit := do
  let c ← get
  if c.depth ≤ 1 then failAhead .recursionLimit
  else do
    set { c with depth := c.depth - 1 }
    bump

def leave : Reader Unit := modify fun c => { c with depth := c.depth + 1 }

/-- Close an array after its items. -/
def endArray : Reader Unit := do
  skipBlanks
  match ← peek with
  | some ']' => bump
  | some ',' => do
    bump
    skipBlanks
    match ← peek with
    | some ']' => failAhead .trailingComma
    | _ => failAhead .trailingCharacters
  | some _ => failAhead .trailingCharacters
  | none => failAhead .eofInList

/-- Close an object after its fields. -/
def endObject : Reader Unit := do
  skipBlanks
  match ← peek with
  | some '}' => bump
  | some ',' => failAhead .trailingComma
  | some _ => failAhead .trailingCharacters
  | none => failAhead .eofInObject

/-- The colon between a key and its value. -/
def colon : Reader Unit := do
  skipBlanks
  match ← peek with
  | some ':' => bump
  | some _ => failAhead .expectedColon
  | none => failAhead .eofInObject

/-- Run the body of a container that was just opened, then close it; a failure of the body wins
over one of closing, and a failure without a place gets the place where closing stopped. -/
def container (body : Reader α) (close : Reader Unit) : Reader α := do
  enter
  let r ← ExceptT.lift (ExceptT.run body)
  leave
  let e ← ExceptT.lift (ExceptT.run close)
  match r, e with
  | .ok v, .ok () => pure v
  | .error f, _ => placed f
  | .ok _, .error f => placed f

/-- The next key of an object, `none` at its end. `first` is whether no field was read yet. -/
def nextKey (fuel : Nat) (first : Bool) : Reader (Option String) := do
  skipBlanks
  match ← peek with
  | some '}' => pure none
  | none => failAhead .eofInObject
  | some c =>
    if c = ',' && !first then do
      bump
      skipBlanks
      key
    else if first then key
    else failAhead .expectedObjectCommaOrEnd
where
  key : Reader (Option String) := do
    match ← peek with
    | some '"' => do
      bump
      return some (← stringBody fuel [])
    | some '}' => failAhead .trailingComma
    | some _ => failAhead .keyMustBeString
    | none => failAhead .eofInValue

/-- The next item of an array read with `item`, `none` at its end. -/
def nextItem (first : Bool) (item : Reader α) : Reader (Option α) := do
  skipBlanks
  match ← peek with
  | some ']' => pure none
  | none => failAhead .eofInList
  | some c =>
    if c = ',' && !first then do
      bump
      skipBlanks
      match ← peek with
      | some ']' => failAhead .trailingComma
      | none => failAhead .eofInValue
      | some _ => some <$> item
    else if first then some <$> item
    else failAhead .expectedListCommaOrEnd

mutual
/-- Any value. -/
def value : Nat → Reader Json
  | 0 => fail .eofInValue
  | fuel + 1 => do
    skipBlanks
    match ← peek with
    | none => failAhead .eofInValue
    | some 'n' => do bump; ident ['u', 'l', 'l']; pure .null
    | some 't' => do bump; ident ['r', 'u', 'e']; pure (.bool true)
    | some 'f' => do bump; ident ['a', 'l', 's', 'e']; pure (.bool false)
    | some '-' => do bump; return .number (← number fuel false)
    | some '"' => do bump; return .string (← stringBody fuel [])
    | some '[' => return .array (← container (items fuel true []) endArray)
    | some '{' => return .object (← container (fields fuel true []) endObject)
    | some c =>
      if isDigit c then return .number (← number fuel true)
      else failAhead .expectedValue

def items : Nat → Bool → List Json → Reader (List Json)
  | 0, _, _ => fail .eofInList
  | fuel + 1, first, acc => do
    match ← nextItem first (value fuel) with
    | none => pure acc.reverse
    | some v => items fuel false (v :: acc)

def fields : Nat → Bool → List (String × Json) → Reader (List (String × Json))
  | 0, _, _ => fail .eofInObject
  | fuel + 1, first, acc => do
    match ← nextKey fuel first with
    | none => pure acc
    | some k =>
      colon
      let v ← value fuel
      fields fuel false (insertSorted k v acc)
end

/-- A number skipped without computing it, after its sign. -/
def skipNumber (fuel : Nat) : Reader Unit := do
  match ← peek with
  | some '0' =>
    bump
    match ← peek with
    | some c => if isDigit c then failAhead .invalidNumber else tail
    | none => tail
  | some c =>
    if '1' ≤ c && c ≤ '9' then do bump; skipDigits fuel; tail else failAhead .invalidNumber
  | none => fail .invalidNumber
where
  tail : Reader Unit := do
    match ← peek with
    | some '.' => do
      bump
      match ← peek with
      | some c =>
        if isDigit c then do
          skipDigits fuel
          exponent
        else failAhead .invalidNumber
      | none => failAhead .invalidNumber
    | some 'e' | some 'E' => exponent
    | _ => pure ()
  exponent : Reader Unit := do
    match ← peek with
    | some 'e' | some 'E' => do
      bump
      match ← peek with
      | some '+' | some '-' => bump
      | _ => pure ()
      match ← peek with
      | some c => if isDigit c then do bump; skipDigits fuel else failAhead .invalidNumber
      | none => fail .invalidNumber
    | _ => pure ()

/-- A string skipped after its opening quote; escapes are checked for form only. -/
def skipStringBody : Nat → Reader Unit
  | 0 => fail .eofInString
  | fuel + 1 => do
    match ← peek with
    | none => fail .eofInString
    | some '"' => bump
    | some '\\' => do
      bump
      match ← peek with
      | none => fail .eofInString
      | some c =>
        if c = 'u' then do
          bump
          let _ ← hexQuad
          skipStringBody fuel
        else if (shortEscape c).isSome then do
          bump
          skipStringBody fuel
        else failAhead .invalidEscape
    | some c => if c.toNat < 32 then fail .controlCharacter else do bump; skipStringBody fuel

mutual
/-- A value skipped: its form is checked, its numbers are not computed. -/
def skipValue : Nat → Reader Unit
  | 0 => fail .eofInValue
  | fuel + 1 => do
    skipBlanks
    match ← peek with
    | none => failAhead .eofInValue
    | some 'n' => do bump; ident ['u', 'l', 'l']
    | some 't' => do bump; ident ['r', 'u', 'e']
    | some 'f' => do bump; ident ['a', 'l', 's', 'e']
    | some '-' => do bump; skipNumber fuel
    | some '"' => do bump; skipStringBody fuel
    | some '[' => do bump; skipItems fuel true
    | some '{' => do bump; skipFields fuel true
    | some c => if isDigit c then skipNumber fuel else failAhead .expectedValue

def skipItems : Nat → Bool → Reader Unit
  | 0, _ => fail .eofInList
  | fuel + 1, first => do
    skipBlanks
    match ← peek with
    | none => failAhead .eofInList
    | some ']' => bump
    | some c =>
      if first then do skipValue fuel; skipItems fuel false
      else if c = ',' then do bump; skipValue fuel; skipItems fuel false
      else failAhead .expectedListCommaOrEnd

def skipFields : Nat → Bool → Reader Unit
  | 0, _ => fail .eofInObject
  | fuel + 1, first => do
    skipBlanks
    match ← peek with
    | none => failAhead .eofInObject
    | some '}' => bump
    | some c =>
      if first then entry fuel
      else if c = ',' then do bump; entry fuel
      else failAhead .expectedObjectCommaOrEnd
where
  entry (fuel : Nat) : Reader Unit := do
    skipBlanks
    match ← peek with
    | some '"' => do
      bump
      skipStringBody fuel
      colon
      skipValue fuel
      skipFields fuel false
    | some _ => failAhead .keyMustBeString
    | none => failAhead .eofInObject
end

/-- Report the value at the cursor as found where `expected` was wanted. Arrays and objects are
only looked at; other values are taken first. -/
def unexpected (fuel : Nat) (expected : String) : Reader α := do
  match ← peek with
  | some 'n' => do bump; ident ['u', 'l', 'l']; fail (.invalidType .null expected)
  | some 't' => do bump; ident ['r', 'u', 'e']; fail (.invalidType (.bool true) expected)
  | some 'f' => do bump; ident ['a', 'l', 's', 'e']; fail (.invalidType (.bool false) expected)
  | some '-' => do
    bump
    let n ← number fuel false
    fail (.invalidType (found n) expected)
  | some '"' => do
    bump
    let s ← stringBody fuel []
    fail (.invalidType (.string s) expected)
  | some '[' => fail (.invalidType .sequence expected)
  | some '{' => fail (.invalidType .map expected)
  | some c =>
    if isDigit c then do
      let n ← number fuel true
      fail (.invalidType (found n) expected)
    else failAhead .expectedValue
  | none => failAhead .expectedValue
where
  found : JsonNumber → Found
    | .nat n => .unsigned n
    | .negInt i => .signed i
    | .float b => .float b

/-- The next value, which must be a string. -/
def string (fuel : Nat) (expected : String) : Reader String := do
  skipBlanks
  match ← peek with
  | none => failAhead .eofInValue
  | some '"' => do bump; stringBody fuel []
  | some _ => unexpected fuel expected

/-- The next value, which must be a boolean. -/
def boolean (fuel : Nat) : Reader Bool := do
  skipBlanks
  match ← peek with
  | none => failAhead .eofInValue
  | some 't' => do bump; ident ['r', 'u', 'e']; pure true
  | some 'f' => do bump; ident ['a', 'l', 's', 'e']; pure false
  | some _ => unexpected fuel "a boolean"

/-- The next value, `none` if it is null. -/
def optional (read : Reader α) : Reader (Option α) := do
  skipBlanks
  match ← peek with
  | some 'n' => do bump; ident ['u', 'l', 'l']; pure none
  | _ => some <$> read

/-- The next value, which must be an object; `body` reads its fields. -/
def object (fuel : Nat) (expected : String) (body : Reader α) : Reader α := do
  skipBlanks
  match ← peek with
  | none => failAhead .eofInValue
  | some '{' => container body endObject
  | some _ => unexpected fuel expected

/-- The next value, which must be an array; `body` reads its items. -/
def array (fuel : Nat) (expected : String) (body : Reader α) : Reader α := do
  skipBlanks
  match ← peek with
  | none => failAhead .eofInValue
  | some '[' => container body endArray
  | some _ => unexpected fuel expected

/-- The next value, which must be an object or an array. -/
def record (fuel : Nat) (expected : String) (byFields : Reader α) (byItems : Reader α) :
    Reader α := do
  skipBlanks
  match ← peek with
  | none => failAhead .eofInValue
  | some '{' => container byFields endObject
  | some '[' => container byItems endArray
  | some _ => unexpected fuel expected

/-- Read the fields of an object into a state: `onField` gets each key and reads the rest of its
field, colon included. Stops before the closing brace. -/
def eachField (fuel : Nat) (onField : σ → String → Reader σ) : Nat → Bool → σ → Reader σ
  | 0, _, _ => fail .eofInObject
  | n + 1, first, s => do
    match ← nextKey fuel first with
    | none => pure s
    | some k => eachField fuel onField n false (← onField s k)

/-- Read the items of an array with `item` until its closing bracket. -/
def eachItem (item : Reader α) : Nat → Bool → List α → Reader (List α)
  | 0, _, _ => fail .eofInList
  | n + 1, first, acc => do
    match ← nextItem first item with
    | none => pure acc.reverse
    | some v => eachItem item n false (v :: acc)

/-- Fail with no place yet; the enclosing container supplies it. -/
def unplaced (e : ReadError) : Reader α := throw ⟨e, none⟩

/-- Read a whole text with `read`; only blanks may follow. -/
def run (read : Nat → Reader α) (text : String) : Except ReadFailure α :=
  let start : Cursor := ⟨text.toList, 1, 0, 128⟩
  let whole : Reader α := do
    let v ← read (text.length + 2)
    skipBlanks
    match ← peek with
    | some _ => failAhead .trailingCharacters
    | none => pure v
  (StateT.run (ExceptT.run whole) start).1

end Reader

/-- Read a JSON value from text. Object fields come out sorted, a repeated key keeping its last
value. -/
def parse (text : String) : Except ReadFailure Json :=
  Reader.run Reader.value text

end Json

end OpGraph
