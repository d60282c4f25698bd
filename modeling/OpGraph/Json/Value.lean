import OpGraph.Number.Binary

namespace OpGraph

/-- A JSON number. -/
inductive JsonNumber where
  | nat (n : Nat)
  | negInt (i : Int)
  | float (bits : Nat)
  deriving DecidableEq, Repr, Inhabited

/-- A JSON value. -/
inductive Json where
  | null
  | bool (b : Bool)
  | number (n : JsonNumber)
  | string (s : String)
  | array (items : List Json)
  | object (fields : List (String × Json))
  deriving Repr, Inhabited

namespace Json

/-- A natural number as a JSON value. -/
def nat (n : Nat) : Json := .number (.nat n)

/-- An integer as a JSON value, negative ones as such. -/
def int (i : Int) : Json := if i < 0 then .number (.negInt i) else .number (.nat i.toNat)

/-- Put a field into a sorted object, replacing the value of an equal key. -/
def insertSorted (key : String) (value : Json) : List (String × Json) → List (String × Json)
  | [] => [(key, value)]
  | (k, v) :: rest =>
    if key < k then (key, value) :: (k, v) :: rest
    else if key = k then (key, value) :: rest
    else (k, v) :: insertSorted key value rest

/-- The value of a field of an object. -/
def field? (j : Json) (key : String) : Option Json :=
  match j with
  | .object fields => (fields.find? (·.1 == key)).map (·.2)
  | _ => none

def asString? : Json → Option String
  | .string s => some s
  | _ => none

def asBool? : Json → Option Bool
  | .bool b => some b
  | _ => none

/-- An unsigned integer value. -/
def asNat? : Json → Option Nat
  | .number (.nat n) => some n
  | _ => none

/-- An integer value of either sign. -/
def asInt? : Json → Option Int
  | .number (.nat n) => some n
  | .number (.negInt i) => some i
  | _ => none

def asArray? : Json → Option (List Json)
  | .array xs => some xs
  | _ => none

/-- Every item of an array that holds only strings. -/
def asStrings? : Json → Option (List String)
  | .array xs => xs.mapM asString?
  | _ => none

/-- The binary64 pattern of a number, integers converted to the nearest value. -/
def asFloatBits? : Json → Option Nat
  | .number (.nat n) => some (BinaryFormat.binary64.ofNat n)
  | .number (.negInt i) => some (BinaryFormat.binary64.round true i.natAbs 1)
  | .number (.float b) => some b
  | _ => none

end Json

end OpGraph
