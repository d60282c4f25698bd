namespace OpGraph

namespace Wire

/-- The six wire types. -/
inductive WireType where
  | varint
  | sixtyFourBit
  | lengthDelimited
  | startGroup
  | endGroup
  | thirtyTwoBit
  deriving DecidableEq, Repr

def WireType.code : WireType → Nat
  | .varint => 0
  | .sixtyFourBit => 1
  | .lengthDelimited => 2
  | .startGroup => 3
  | .endGroup => 4
  | .thirtyTwoBit => 5

def WireType.ofCode? : Nat → Option WireType
  | 0 => some .varint
  | 1 => some .sixtyFourBit
  | 2 => some .lengthDelimited
  | 3 => some .startGroup
  | 4 => some .endGroup
  | 5 => some .thirtyTwoBit
  | _ => none

def WireType.name : WireType → String
  | .varint => "Varint"
  | .sixtyFourBit => "SixtyFourBit"
  | .lengthDelimited => "LengthDelimited"
  | .startGroup => "StartGroup"
  | .endGroup => "EndGroup"
  | .thirtyTwoBit => "ThirtyTwoBit"

/-- What went wrong while reading. -/
inductive Fault where
  | invalidVarint
  | bufferUnderflow
  | delimitedLengthExceeded
  | invalidKey (key : Nat)
  | invalidWireTypeValue (value : Nat)
  | invalidTagZero
  | wrongWireType (actual expected : WireType)
  | invalidUtf8
  | unexpectedEndGroup
  | recursionLimit
  deriving DecidableEq, Repr

def Fault.text : Fault → String
  | .invalidVarint => "invalid varint"
  | .bufferUnderflow => "buffer underflow"
  | .delimitedLengthExceeded => "delimited length exceeded"
  | .invalidKey key => "invalid key value: " ++ toString key
  | .invalidWireTypeValue v => "invalid wire type value: " ++ toString v
  | .invalidTagZero => "invalid tag value: 0"
  | .wrongWireType actual expected =>
    "invalid wire type: " ++ actual.name ++ " (expected " ++ expected.name ++ ")"
  | .invalidUtf8 => "invalid string value: data is not UTF-8 encoded"
  | .unexpectedEndGroup => "unexpected end group tag"
  | .recursionLimit => "recursion limit reached"

/-- A reading failure and the `(message, field)` pairs it happened in, innermost first. -/
structure DecodeError where
  fault : Fault
  trail : List (String × String)
  deriving DecidableEq, Repr

def DecodeError.message (e : DecodeError) : String :=
  "failed to decode Protobuf message: " ++
    String.join (e.trail.map fun (m, f) => m ++ "." ++ f ++ ": ") ++ e.fault.text

/-- Bytes still to read. -/
abbrev Bytes := List UInt8

def failWith (f : Fault) : Except DecodeError α := .error ⟨f, []⟩

/-- Record the field a failure happened in. -/
def within (message field : String) (r : Except DecodeError α) : Except DecodeError α :=
  match r with
  | .error e => .error { e with trail := e.trail ++ [(message, field)] }
  | .ok v => .ok v

/-- The varint of a natural below `2 ^ 64`. -/
def varint (n : Nat) : Bytes :=
  if n < 128 then [n.toUInt8] else (n % 128 + 128).toUInt8 :: varint (n / 128)
termination_by n
decreasing_by omega

/-- The key of a field. -/
def key (tag : Nat) (w : WireType) : Bytes := varint (tag * 8 + w.code)

/-- A signed 64-bit integer as its two's complement word. -/
def word64 (i : Int) : Nat := if i < 0 then (i + Int.pow 2 64).toNat else i.toNat

/-- A length-delimited field. -/
def delimited (tag : Nat) (body : Bytes) : Bytes :=
  key tag .lengthDelimited ++ varint body.length ++ body

/-- A string field, written unless empty. -/
def stringField (tag : Nat) (s : String) : Bytes :=
  if s.isEmpty then [] else delimited tag s.toUTF8.toList

/-- A varint field holding a word, written unless zero. -/
def varintField (tag : Nat) (n : Nat) : Bytes :=
  if n = 0 then [] else key tag .varint ++ varint n

/-- The four little-endian bytes of a 32-bit word. -/
def fixed32 (n : Nat) : Bytes :=
  [(n % 256).toUInt8, (n / 256 % 256).toUInt8, (n / 65536 % 256).toUInt8,
    (n / 16777216 % 256).toUInt8]

/-- A packed field of varint words, written unless empty. -/
def packedVarints (tag : Nat) (ns : List Nat) : Bytes :=
  if ns.isEmpty then [] else delimited tag (ns.flatMap varint)

/-- A packed field of fixed32 words, written unless empty. -/
def packedFixed32 (tag : Nat) (ns : List Nat) : Bytes :=
  if ns.isEmpty then [] else delimited tag (ns.flatMap fixed32)

/-- A varint: up to ten bytes, the tenth at most 1; the value is taken modulo `2 ^ 64`. -/
def readVarint (bytes : Bytes) : Except DecodeError (Nat × Bytes) :=
  go 0 0 bytes
where
  go (count acc : Nat) : Bytes → Except DecodeError (Nat × Bytes)
    | [] => failWith .invalidVarint
    | b :: rest =>
      let acc := acc + (b.toNat % 128) * Nat.pow 128 count
      if b.toNat < 128 then
        if count = 9 && b.toNat ≥ 2 then failWith .invalidVarint else .ok (acc % Nat.pow 2 64, rest)
      else if count = 9 then failWith .invalidVarint
      else go (count + 1) acc rest

/-- A field key: the tag and the wire type. -/
def readKey (bytes : Bytes) : Except DecodeError ((Nat × WireType) × Bytes) := do
  let (k, rest) ← readVarint bytes
  if k ≥ Nat.pow 2 32 then failWith (.invalidKey k)
  else
    match WireType.ofCode? (k % 8) with
    | none => failWith (.invalidWireTypeValue (k % 8))
    | some w =>
      if k / 8 = 0 then failWith .invalidTagZero else .ok ((k / 8, w), rest)

def expect (expected actual : WireType) : Except DecodeError Unit :=
  if expected = actual then .ok () else failWith (.wrongWireType actual expected)

/-- The body of a length-delimited field: its declared length must be available. -/
def readLength (bytes : Bytes) : Except DecodeError (Nat × Bytes) := do
  let (n, rest) ← readVarint bytes
  if n > rest.length then failWith .bufferUnderflow else .ok (n, rest)

/-- A length-delimited byte string, replacing what the field held. -/
def readBytes (w : WireType) (bytes : Bytes) : Except DecodeError (Bytes × Bytes) := do
  expect .lengthDelimited w
  let (n, rest) ← readLength bytes
  .ok (rest.take n, rest.drop n)

/-- A length-delimited UTF-8 string. -/
def readString (w : WireType) (bytes : Bytes) : Except DecodeError (String × Bytes) := do
  let (raw, rest) ← readBytes w bytes
  match String.fromUTF8? (ByteArray.mk raw.toArray) with
  | some s => .ok (s, rest)
  | none => failWith .invalidUtf8

/-- A varint scalar. -/
def readVarintField (w : WireType) (bytes : Bytes) : Except DecodeError (Nat × Bytes) := do
  expect .varint w
  readVarint bytes

/-- A 32-bit word as a signed integer. -/
def signed32 (n : Nat) : Int :=
  let m : Nat := n % Nat.pow 2 32
  if m < Nat.pow 2 31 then (m : Int) else (m : Int) - Int.pow 2 32

/-- A 64-bit word as a signed integer. -/
def signed64 (n : Nat) : Int :=
  if n < Nat.pow 2 63 then (n : Int) else (n : Int) - Int.pow 2 64

/-- Four little-endian bytes. -/
def readFixed32 (bytes : Bytes) : Except DecodeError (Nat × Bytes) :=
  match bytes with
  | a :: b :: c :: d :: rest =>
    .ok (a.toNat + b.toNat * 256 + c.toNat * 65536 + d.toNat * 16777216, rest)
  | _ => failWith .bufferUnderflow

def readFixed32Field (w : WireType) (bytes : Bytes) : Except DecodeError (Nat × Bytes) := do
  expect .thirtyTwoBit w
  readFixed32 bytes

/-- Read fields until the stream is down to `limit` bytes: each step reads a key and lets `field`
take the value. Running past the limit is an error. -/
def fieldsUntil (limit : Nat) (field : σ → Nat → WireType → Bytes → Except DecodeError (σ × Bytes)) :
    Nat → σ → Bytes → Except DecodeError (σ × Bytes)
  | 0, s, bytes => .ok (s, bytes)
  | fuel + 1, s, bytes =>
    if bytes.length > limit then do
      let ((tag, w), rest) ← readKey bytes
      let (s', rest') ← field s tag w rest
      fieldsUntil limit field fuel s' rest'
    else if bytes.length = limit then .ok (s, bytes)
    else failWith .delimitedLengthExceeded

/-- A nested message, merged into `s`: its length, then its fields up to its end. -/
def readMessage (w : WireType) (field : σ → Nat → WireType → Bytes → Except DecodeError (σ × Bytes)) (s : σ)
    (bytes : Bytes) : Except DecodeError (σ × Bytes) := do
  expect .lengthDelimited w
  let (n, rest) ← readLength bytes
  fieldsUntil (rest.length - n) field (rest.length + 1) s rest

/-- A nested message at nesting budget `depth`: a message may open only while the budget is
positive, and its own fields are read with one less. -/
def readNested (depth : Nat) (w : WireType)
    (field : Nat → σ → Nat → WireType → Bytes → Except DecodeError (σ × Bytes)) (s : σ)
    (bytes : Bytes) : Except DecodeError (σ × Bytes) := do
  expect .lengthDelimited w
  if depth = 0 then failWith .recursionLimit else readMessage w (field (depth - 1)) s bytes

/-- Repeated varint values, packed or one at a time. -/
def readPackedVarints (w : WireType) (acc : List Nat) (bytes : Bytes) : Except DecodeError ((List Nat) × Bytes) :=
  if w = .lengthDelimited then do
    let (n, rest) ← readLength bytes
    let (vs, rest') ← values (rest.length - n) (rest.length + 1) [] rest
    .ok (acc ++ vs, rest')
  else do
    expect .varint w
    let (v, rest) ← readVarint bytes
    .ok (acc ++ [v], rest)
where
  values (limit : Nat) : Nat → List Nat → Bytes → Except DecodeError ((List Nat) × Bytes)
    | 0, vs, bytes => .ok (vs.reverse, bytes)
    | fuel + 1, vs, bytes =>
      if bytes.length > limit then do
        let (v, rest) ← readVarint bytes
        values limit fuel (v :: vs) rest
      else if bytes.length = limit then .ok (vs.reverse, bytes)
      else failWith .delimitedLengthExceeded

/-- Repeated fixed32 values, packed or one at a time. -/
def readPackedFixed32 (w : WireType) (acc : List Nat) (bytes : Bytes) : Except DecodeError ((List Nat) × Bytes) :=
  if w = .lengthDelimited then do
    let (n, rest) ← readLength bytes
    let (vs, rest') ← values (rest.length - n) (rest.length + 1) [] rest
    .ok (acc ++ vs, rest')
  else do
    expect .thirtyTwoBit w
    let (v, rest) ← readFixed32 bytes
    .ok (acc ++ [v], rest)
where
  values (limit : Nat) : Nat → List Nat → Bytes → Except DecodeError ((List Nat) × Bytes)
    | 0, vs, bytes => .ok (vs.reverse, bytes)
    | fuel + 1, vs, bytes =>
      if bytes.length > limit then do
        let (v, rest) ← readFixed32 bytes
        values limit fuel (v :: vs) rest
      else if bytes.length = limit then .ok (vs.reverse, bytes)
      else failWith .delimitedLengthExceeded

mutual
/-- Skip a field of an unknown tag. `depth` bounds the nesting of groups; `fuel` bounds the steps
and is never the limit, since every step takes a byte. -/
def skipField : Nat → Nat → Nat → WireType → Bytes → Except DecodeError Bytes
  | 0, _, _, _, _ => failWith .bufferUnderflow
  | fuel + 1, depth, tag, w, bytes =>
    if depth = 0 then failWith .recursionLimit
    else
      match w with
      | .varint => do
        let (_, rest) ← readVarint bytes
        .ok rest
      | .thirtyTwoBit => if 4 > bytes.length then failWith .bufferUnderflow else .ok (bytes.drop 4)
      | .sixtyFourBit => if 8 > bytes.length then failWith .bufferUnderflow else .ok (bytes.drop 8)
      | .lengthDelimited => do
        let (len, rest) ← readVarint bytes
        if len > rest.length then failWith .bufferUnderflow else .ok (rest.drop len)
      | .startGroup => skipGroup fuel (depth - 1) tag bytes
      | .endGroup => failWith .unexpectedEndGroup

/-- Skip the fields of a group up to its end marker, which must carry the group's tag. -/
def skipGroup : Nat → Nat → Nat → Bytes → Except DecodeError Bytes
  | 0, _, _, _ => failWith .bufferUnderflow
  | fuel + 1, depth, tag, bytes => do
    let ((inner, w), rest) ← readKey bytes
    if w = .endGroup then
      if inner = tag then .ok rest else failWith .unexpectedEndGroup
    else
      let rest' ← skipField fuel depth inner w rest
      skipGroup fuel depth tag rest'
end

/-- Skip the value of a field this reader does not know. Every second step of the skip takes a
byte, so twice the length and two more steps never run out before the bytes do. -/
def skipUnknown (depth tag : Nat) (w : WireType) (s : σ) (bytes : Bytes) :
    Except DecodeError (σ × Bytes) := do
  let rest ← skipField (2 * bytes.length + 2) depth tag w bytes
  pure (s, rest)

end Wire

end OpGraph
