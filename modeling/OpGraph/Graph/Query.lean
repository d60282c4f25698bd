import OpGraph.Graph.Basic

namespace OpGraph

/-- The op types that mark a quantized graph. -/
def quantizedOpTypes : List String :=
  ["Dequantize", "QuantizedMaxPool", "QuantizeV2", "QuantizedMatMul", "QuantizedRelu",
    "QuantizedAdd", "RequantizationRange", "Requantize", "QuantizedReshape", "QuantizedConv2D"]

/-- An op as a code generator sees it. -/
structure OpView where
  name : String
  opType : String
  inputs : List Tensor
  outputs : List Tensor
  attrs : Attrs
  metadata : List (String × MetaValue)

/-- The value under a rendered key. -/
def OpView.meta? (v : OpView) (key : String) : Option MetaValue :=
  (v.metadata.find? (·.1 == key)).map (·.2)

/-- The metadata of one op in one namespace. -/
structure Namespaced where
  entries : List MetaEntry
  ns : Namespace

namespace Namespaced

def get? (v : Namespaced) (kind : String) : Option MetaValue :=
  (v.entries.find? fun e => e.ns.name == v.ns.name && e.kind == kind).map (·.value)

def getOr (v : Namespaced) (kind : String) (fallback : MetaValue) : MetaValue :=
  (v.get? kind).getD fallback

def flag? (v : Namespaced) (kind : String) : Option Bool := (v.get? kind).bind MetaValue.asFlag?

def counts? (v : Namespaced) (kind : String) : Option (List Nat) :=
  (v.get? kind).bind MetaValue.asCounts?

/-- The kinds present in the namespace, in order. -/
def kinds (v : Namespaced) : List String :=
  (v.entries.filter (·.ns.name == v.ns.name)).map (·.kind)

end Namespaced

namespace Graph

def quantizedOps (g : Graph) : List Op := g.opsOfTypes quantizedOpTypes

def isQuantized (g : Graph) : Bool := g.ops.any fun op => quantizedOpTypes.contains op.opType

/-- Mark everything reachable backwards from the stack, for at most `fuel` pops. -/
def ancestorsLoop (g : Graph) : Nat → List Nat → List Nat → List Nat
  | 0, _, seen => seen
  | _ + 1, [], seen => seen
  | fuel + 1, id :: stack, seen =>
    if seen.contains id then g.ancestorsLoop fuel stack seen
    else
      let more := (g.inputOpIds (g.opAt id)).filter fun p => !(id :: seen).contains p
      g.ancestorsLoop fuel (more.reverse ++ stack) (id :: seen)

/-- The ops from which one of the roots can be reached along input edges, roots included, in
arena order. -/
def ancestorsOf (g : Graph) (roots : List Nat) : List Nat :=
  let inputs := (g.ops.toList.map (·.inputs.length)).foldr (· + ·) 0
  let seen := g.ancestorsLoop (roots.length + inputs + 1) roots []
  (List.range g.opCount).filter seen.contains

/-- The view of the op at an id. -/
def viewAt (g : Graph) (id : Nat) : OpView :=
  let op := g.opAt id
  { name := op.name
    opType := op.opType
    inputs := g.inputTensors op
    outputs := op.outputs
    attrs := op.attrs
    metadata := (g.metadata.forOp id).map fun e => (e.ns.key e.kind, e.value) }

/-- The view of an op, or the unknown-op error. -/
def view (g : Graph) (name : String) : Except ValidationError OpView :=
  match g.opId? name with
  | some id => .ok (g.viewAt id)
  | none => .error (.unknownOp name)

/-- Views of all ops in topological order. -/
def topoViews (g : Graph) : List OpView := g.topo.map g.viewAt

/-- The metadata of an op in a namespace, or the unknown-op error. -/
def namespaced (g : Graph) (name : String) (ns : Namespace) : Except ValidationError Namespaced :=
  match g.opId? name with
  | some id => .ok ⟨g.metadata.forOp id, ns⟩
  | none => .error (.unknownOp name)

end Graph

end OpGraph
