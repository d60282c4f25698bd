import OpGraph.Graph.Topo
import OpGraph.Graph.Metadata

namespace OpGraph

/-- A computation graph. Ids are arena positions. -/
structure Graph where
  ops : Array Op
  topo : List Nat
  outputs : List Nat
  metadata : Metadata
  deriving Inhabited

namespace Graph

/-- Resolve output names to ids, dropping repeats; an unknown name is an error. -/
def resolveOutputs (index : List (String × Nat)) : List String → List Nat →
    Except ValidationError (List Nat)
  | [], acc => .ok acc.reverse
  | name :: rest, acc =>
    match (index.find? (·.1 == name)) with
    | none => .error (.unknownOutput name)
    | some (_, id) => resolveOutputs index rest (if acc.contains id then acc else id :: acc)

/-- Validate ops, output names and an optional stored order into a graph. -/
def build (ops : Array Op) (outputNames : List String) (stored : Option (List Nat))
    (metadata : Metadata) : Except ValidationError Graph := do
  let list := ops.toList
  let index ← Index.opIndex list
  let producers ← Index.producerMap list
  let _ ← Index.consumerMap list producers
  let topo ← Topo.orderOf list producers stored
  let outputs ← resolveOutputs index outputNames []
  pure { ops, topo, outputs, metadata }

/-- A graph from ops and output names, with its order computed and no metadata. -/
def make (ops : List Op) (outputNames : List String) : Except ValidationError Graph :=
  build ops.toArray outputNames none Metadata.empty

def opCount (g : Graph) : Nat := g.ops.size

/-- The op at an id. -/
def opAt (g : Graph) (id : Nat) : Op := g.ops.getD id default

/-- The id of the op with a name. -/
def opId? (g : Graph) (name : String) : Option Nat :=
  g.ops.findIdx? (·.name == name)

def op? (g : Graph) (name : String) : Option Op :=
  g.ops.find? (·.name == name)

def hasOp (g : Graph) (name : String) : Bool := g.ops.any (·.name == name)

/-- The op with a name, or the unknown-op error. -/
def requireOp (g : Graph) (name : String) : Except ValidationError Op :=
  match g.op? name with
  | some op => .ok op
  | none => .error (.unknownOp name)

def isOutput (g : Graph) (id : Nat) : Bool := g.outputs.contains id

/-- Names of the output ops. -/
def outputNames (g : Graph) : List String := g.outputs.map fun i => (g.opAt i).name

/-- Names in topological order. -/
def topoNames (g : Graph) : List String := g.topo.map fun i => (g.opAt i).name

/-- Where a tensor is produced. -/
def tensorRef? (g : Graph) (t : String) : Option TensorRef :=
  Index.lookup (Index.outputSlots g.ops.toList) t

def tensor? (g : Graph) (t : String) : Option Tensor := do
  let r ← g.tensorRef? t
  (g.opAt r.op).outputs[r.slot]?

def producer? (g : Graph) (t : String) : Option Op :=
  (g.tensorRef? t).map fun r => g.opAt r.op

/-- The number of tensors, one per output slot. -/
def tensorCount (g : Graph) : Nat := (g.ops.toList.map (·.outputs.length)).foldr (· + ·) 0

/-- Every slot that reads a tensor, in arena then slot order. -/
def tensorUses (g : Graph) (t : String) : List TensorUse :=
  ((Index.inputSlots g.ops.toList).filter (·.1 == t)).map (·.2)

/-- Distinct consumer ids of a tensor, in order of first use. -/
def consumerIds (g : Graph) (t : String) : List Nat :=
  (g.tensorUses t).foldl (fun acc u => if acc.contains u.op then acc else acc ++ [u.op]) []

def consumers (g : Graph) (t : String) : List Op := (g.consumerIds t).map g.opAt

/-- Producer ids of an op's inputs, in operand order, repeats kept. -/
def inputOpIds (g : Graph) (op : Op) : List Nat :=
  op.inputs.filterMap fun t => (g.tensorRef? t).map (·.op)

def inputOps (g : Graph) (op : Op) : List Op := (g.inputOpIds op).map g.opAt

/-- The tensors an op reads, in operand order. -/
def inputTensors (g : Graph) (op : Op) : List Tensor := op.inputs.filterMap g.tensor?

/-- Ids of the ops of one type, in arena order. -/
def idsOfType (g : Graph) (t : String) : List Nat :=
  (List.range g.opCount).filter fun i => (g.opAt i).opType == t

def opsOfType (g : Graph) (t : String) : List Op := g.ops.toList.filter (·.opType == t)

/-- The ops of one type, or the unknown-type error when there are none. -/
def requireOpsOfType (g : Graph) (t : String) : Except ValidationError (List Op) :=
  match g.opsOfType t with
  | [] => .error (.unknownOpType t)
  | ops => .ok ops

def opsOfTypes (g : Graph) (ts : List String) : List Op :=
  g.ops.toList.filter fun op => ts.contains op.opType

/-- Equality of graphs as values: the same ops in the same arena order (float attributes compared
as numbers), the same order, the same outputs and the same metadata. -/
def sameAs (a b : Graph) : Bool :=
  a.ops.size == b.ops.size && (a.ops.toList.zip b.ops.toList).all (fun (x, y) => x.sameAs y) &&
    a.topo == b.topo && a.outputs == b.outputs && a.metadata == b.metadata

/-- Equality of what two graphs are built from: the ops in arena order and the output names. -/
def sameDefinition (a b : Graph) : Bool :=
  a.ops.size == b.ops.size && (a.ops.toList.zip b.ops.toList).all (fun (x, y) => x.sameAs y) &&
    a.outputNames == b.outputNames

end Graph

end OpGraph
