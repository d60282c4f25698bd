import OpGraph.Tensor.DType
import OpGraph.Tensor.Shape
import OpGraph.Number.Binary

namespace OpGraph

/-- The value of an attribute. Integers are 64-bit, floats are binary32 patterns. -/
inductive AttrValue where
  | bool (b : Bool)
  | int (i : Int)
  | float (bits : Nat)
  | str (s : String)
  | ints (is : List Int)
  | floats (bits : List Nat)
  | strs (ss : List String)
  | dtype (d : DType)
  | shape (s : Shape)
  deriving DecidableEq, Repr, Inhabited

namespace AttrValue

def asInt? : AttrValue → Option Int
  | int i => some i
  | _ => none

def asFloat? : AttrValue → Option Nat
  | float b => some b
  | _ => none

def asStr? : AttrValue → Option String
  | str s => some s
  | _ => none

def asInts? : AttrValue → Option (List Int)
  | ints is => some is
  | _ => none

/-- Numeric equality of binary32 lists. -/
def floatsEq : List Nat → List Nat → Bool
  | [], [] => true
  | a :: as, b :: bs => BinaryFormat.binary32.numEq a b && floatsEq as bs
  | _, _ => false

/-- Equality of values with floats compared numerically. -/
def sameAs : AttrValue → AttrValue → Bool
  | float a, float b => BinaryFormat.binary32.numEq a b
  | floats as, floats bs => floatsEq as bs
  | a, b => a == b

end AttrValue

/-- Attributes in insertion order, each key once. -/
abbrev Attrs := List (String × AttrValue)

namespace Attrs

/-- Set a key: an existing key keeps its place and takes the new value, a new key goes last. -/
def insert (attrs : Attrs) (key : String) (value : AttrValue) : Attrs :=
  if attrs.any (·.1 == key) then attrs.map fun (k, v) => if k == key then (k, value) else (k, v)
  else attrs ++ [(key, value)]

/-- Build attributes by setting the pairs one after another. -/
def ofPairs (pairs : List (String × AttrValue)) : Attrs :=
  pairs.foldl (fun acc (k, v) => acc.insert k v) []

def get? (attrs : Attrs) (key : String) : Option AttrValue :=
  (attrs.find? (·.1 == key)).map (·.2)

/-- Equality with floats compared numerically, order included. -/
def sameAs : Attrs → Attrs → Bool
  | [], [] => true
  | (k, v) :: as, (k', v') :: bs => k == k' && v.sameAs v' && sameAs as bs
  | _, _ => false

end Attrs

end OpGraph
