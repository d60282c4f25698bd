import OpGraph.Graph.Attr

namespace OpGraph

/-- A tensor produced by an op. -/
structure Tensor where
  name : String
  dtype : DType
  shape : Shape
  deriving DecidableEq, Repr, Inhabited

/-- An operation of a graph. -/
structure Op where
  name : String
  opType : String
  inputs : List String
  outputs : List Tensor
  attrs : Attrs
  deriving DecidableEq, Repr, Inhabited

/-- The conventional name of output `index` of op `op`. -/
def tensorName (op : String) (index : Nat) : String :=
  op ++ ":" ++ toString index

/-- Whether a text is a machine-word natural number: decimal digits after an optional plus
sign, below `2 ^ 64`. -/
def isWordNumeral (s : String) : Bool :=
  let digits := match s.toList with
    | '+' :: rest => rest
    | cs => cs
  !digits.isEmpty && digits.all Char.isDigit &&
    digits.foldl (fun n c => n * 10 + (c.toNat - 48)) 0 < Nat.pow 2 64

/-- The text before the last colon and the text after it. -/
def splitAtLastColon (s : String) : Option (String × String) :=
  let cs := s.toList
  match (cs.reverse.findIdx? (· = ':')) with
  | none => none
  | some j =>
    let i := cs.length - 1 - j
    some (String.ofList (cs.take i), String.ofList (cs.drop (i + 1)))

namespace Tensor

/-- The op a tensor's name points to: the text before the last colon when what follows it is an
output index, else the whole name. -/
def conventionalProducer (t : Tensor) : String :=
  match splitAtLastColon t.name with
  | some (op, index) => if isWordNumeral index then op else t.name
  | none => t.name

end Tensor

namespace Op

/-- Append an output named by the convention: the op's name and the output's index. -/
def withOutput (op : Op) (dtype : DType) (shape : Shape) : Op :=
  { op with outputs := op.outputs ++ [⟨tensorName op.name op.outputs.length, dtype, shape⟩] }

/-- Whether the op has the given type. -/
def isType (op : Op) (t : String) : Bool := op.opType == t

/-- Equality of records with attribute floats compared numerically. -/
def sameAs (a b : Op) : Bool :=
  a.name == b.name && a.opType == b.opType && a.inputs == b.inputs && a.outputs == b.outputs &&
    a.attrs.sameAs b.attrs

end Op

end OpGraph
