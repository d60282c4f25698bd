import OpGraph.Graph.Op
import OpGraph.Graph.Error

namespace OpGraph

/-- Where a tensor is produced: the producing op's arena id and its output slot. -/
structure TensorRef where
  op : Nat
  slot : Nat
  deriving DecidableEq, Repr, Inhabited

/-- Where a tensor is read: the consuming op's arena id and its input slot. -/
structure TensorUse where
  op : Nat
  slot : Nat
  deriving DecidableEq, Repr, Inhabited

/-- Op ids are 32-bit words, so a raw index names the op id it is congruent to modulo
`2 ^ 32`. -/
def opIdOfIndex (i : Nat) : Nat := i % Nat.pow 2 32

namespace Index

/-- Op names with their arena ids, counting from `start`; a name seen before is an error. -/
def opIndexFrom (seen : List (String × Nat)) (start : Nat) :
    List Op → Except ValidationError (List (String × Nat))
  | [] => .ok seen.reverse
  | op :: rest =>
    if seen.any (·.1 == op.name) then .error (.duplicateOp op.name)
    else opIndexFrom ((op.name, start) :: seen) (start + 1) rest

/-- Op names with their arena ids. -/
def opIndex (ops : List Op) : Except ValidationError (List (String × Nat)) :=
  opIndexFrom [] 0 ops

/-- Every output tensor with where it is produced, in arena then slot order. -/
def outputSlots (ops : List Op) : List (String × TensorRef) :=
  (ops.zipIdx.map fun (op, i) =>
    op.outputs.zipIdx.map fun (t, s) => (t.name, TensorRef.mk i s)).flatten

/-- The first entry whose name was already seen. -/
def firstRepeat : List (String × TensorRef) → List String → Option String
  | [], _ => none
  | (name, _) :: rest, seen =>
    if seen.contains name then some name else firstRepeat rest (name :: seen)

/-- Tensor names with their producing slots; a repeated tensor name is an error. -/
def producerMap (ops : List Op) : Except ValidationError (List (String × TensorRef)) :=
  let slots := outputSlots ops
  match firstRepeat slots [] with
  | some name => .error (.duplicateTensor name)
  | none => .ok slots

/-- Where a tensor is produced, by the table. -/
def lookup (producers : List (String × TensorRef)) (t : String) : Option TensorRef :=
  (producers.find? (·.1 == t)).map (·.2)

/-- Every input with the slot reading it, in arena then slot order. -/
def inputSlots (ops : List Op) : List (String × TensorUse) :=
  (ops.zipIdx.map fun (op, i) =>
    op.inputs.zipIdx.map fun (t, s) => (t, TensorUse.mk i s)).flatten

/-- The first input, in arena then slot order, that no op produces. -/
def firstDangling (ops : List Op) (producers : List (String × TensorRef)) :
    Option (String × String) :=
  (ops.flatMap fun op => op.inputs.map fun t => (op.name, t)).find?
    fun (_, t) => (lookup producers t).isNone

/-- Every reading of a tensor; an input that no op produces is an error. -/
def consumerMap (ops : List Op) (producers : List (String × TensorRef)) :
    Except ValidationError (List (String × TensorUse)) :=
  match firstDangling ops producers with
  | some (op, t) => .error (.danglingTensor op t)
  | none => .ok (inputSlots ops)

/-- How many input slots read a tensor. -/
def inputCount (ops : List Op) (t : String) : Nat :=
  (ops.map fun op => op.inputs.count t).foldr (· + ·) 0

end Index

end OpGraph
