import OpGraph.Graph.Op
import OpGraph.Transform.Error

namespace OpGraph

/-- An operand permutation. -/
abbrev Permutation := List Nat

/-- The identity permutation of an arity. -/
def Permutation.identity (arity : Nat) : Permutation := List.range arity

/-- Whether no entry repeats an earlier one. -/
def noRepeats : List Nat → Bool
  | [] => true
  | x :: rest => !rest.contains x && noRepeats rest

/-- Whether `perm` is a permutation of `0 .. arity - 1`. -/
def Permutation.isValid (perm : Permutation) (arity : Nat) : Bool :=
  perm.length == arity && perm.all (· < arity) && noRepeats perm

/-- The equivalence tables. -/
structure Equivalences where
  /-- Op types with their permutations, in registration order. -/
  associations : List (String × List Permutation)
  /-- Interchangeable op types, each pair stored in both directions. -/
  compatible : List (String × String)

namespace Equivalences

def empty : Equivalences := ⟨[], []⟩

/-- Pair two op types in both directions. -/
def link (t : Equivalences) (a b : String) : Equivalences :=
  let add := fun (pairs : List (String × String)) (p : String × String) =>
    if pairs.contains p then pairs else pairs ++ [p]
  { t with compatible := add (add t.compatible (a, b)) (b, a) }

/-- Whether two op types were declared interchangeable. -/
def isCompatible (t : Equivalences) (a b : String) : Bool := t.compatible.contains (a, b)

/-- The built-in tables: `Add` and `Mul` are commutative, and each plain op type that has a
quantized variant is compatible with it. -/
def defaults : Equivalences :=
  let commutative : Equivalences :=
    ⟨[("Add", [[0, 1], [1, 0]]), ("Mul", [[0, 1], [1, 0]])], []⟩
  [("Conv2D", "QuantizedConv2D"), ("MatMul", "QuantizedMatMul"), ("Add", "QuantizedAdd"),
    ("Relu", "QuantizedRelu"), ("MaxPool", "QuantizedMaxPool"), ("Reshape", "QuantizedReshape")].foldl
    (fun t (a, b) => t.link a b) commutative

/-- Collect permutations: all must have the arity of the first one, and repeats collapse. -/
def collectPermutations (opType : String) : List Permutation → List Permutation →
    Except TransformError (List Permutation)
  | [], acc => .ok acc
  | perm :: rest, acc =>
    let arity := (acc.head?.map List.length).getD perm.length
    if perm.isValid arity then
      collectPermutations opType rest (if acc.contains perm then acc else acc ++ [perm])
    else .error (.invalidPermutation opType perm)

/-- Register the permutations of an op type, once per type; nothing is registered on failure. -/
def registerAssociation (t : Equivalences) (opType : String) (perms : List Permutation) :
    Except TransformError Equivalences := do
  if t.associations.any (·.1 == opType) then throw (.duplicateAssociation opType)
  let collected ← collectPermutations opType perms []
  if collected.isEmpty then throw (.invalidPermutation opType [])
  pure { t with associations := t.associations ++ [(opType, collected)] }

/-- Declare two distinct op types interchangeable, unless they already are. -/
def registerCompatibility (t : Equivalences) (a b : String) : Except TransformError Equivalences :=
  if a == b || t.isCompatible a b then .error (.duplicateCompatibility a b) else .ok (t.link a b)

/-- The permutations of an op type with a given arity; the identity for an unregistered type. -/
def permutations (t : Equivalences) (opType : String) (arity : Nat) : List Permutation :=
  match t.associations.find? (·.1 == opType) with
  | some (_, perms) => perms.filter (·.length == arity)
  | none => [Permutation.identity arity]

/-- The permutations an alignment predicate is asked about when `this` is compared with `other`,
in order. -/
def proposals (t : Equivalences) (this other : Op) : List Permutation :=
  if this.opType == other.opType then
    if this.inputs.length != other.inputs.length then []
    else t.permutations this.opType this.inputs.length
  else if t.isCompatible this.opType other.opType then
    [Permutation.identity (min this.inputs.length other.inputs.length)]
  else []

/-- Every permutation under which `this` may stand for `other`. -/
def admissible (t : Equivalences) (this other : Op) (align : Permutation → Bool) : List Permutation :=
  (t.proposals this other).filter align

/-- The first admissible permutation, if any. -/
def query (t : Equivalences) (this other : Op) (align : Permutation → Bool) : Option Permutation :=
  (t.admissible this other align).head?

end Equivalences

end OpGraph
