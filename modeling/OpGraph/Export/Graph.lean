import OpGraph.Graph.Query
import OpGraph.Json.Value

namespace OpGraph

namespace Export

def strings (ss : List String) : Json := .array (ss.map .string)

def nats (ns : List Nat) : Json := .array (ns.map Json.nat)

def ints (is : List Int) : Json := .array (is.map Json.int)

/-- A one-field object. -/
def tagged (key : String) (v : Json) : Json := .object [(key, v)]

def shape (s : Shape) : Json :=
  match s.dims with
  | none => .null
  | some ds => ints (ds.map Dim.signed)

def tensor (t : Tensor) : Json :=
  .object [("name", .string t.name), ("dtype", .string t.dtype.name), ("shape", shape t.shape)]

def attrValue : AttrValue → Json
  | .bool b => tagged "bool" (.bool b)
  | .int i => tagged "int" (Json.int i)
  | .float b => tagged "float_bits" (Json.nat b)
  | .str s => tagged "str" (.string s)
  | .ints is => tagged "ints" (ints is)
  | .floats bs => tagged "floats_bits" (nats bs)
  | .strs ss => tagged "strs" (strings ss)
  | .dtype d => tagged "dtype" (.string d.name)
  | .shape s => tagged "shape" (shape s)

def attrs (a : Attrs) : Json := .array (a.map fun (k, v) => .array [.string k, attrValue v])

def metaValue : MetaValue → Json
  | .flag b => tagged "flag" (.bool b)
  | .count n => tagged "count" (Json.nat n)
  | .counts ns => tagged "counts" (nats ns)
  | .int i => tagged "int" (Json.int i)
  | .text s => tagged "text" (.string s)

def op (o : Op) : Json :=
  .object [("name", .string o.name), ("type", .string o.opType), ("inputs", strings o.inputs),
    ("outputs", .array (o.outputs.map tensor)), ("attrs", attrs o.attrs)]

def metadata (g : Graph) : Json :=
  .array (g.metadata.entries.map fun e =>
    .array [.string (g.opAt e.op).name, .string e.ns.name, .string e.kind, metaValue e.value])

/-- The whole graph. -/
def graph (g : Graph) : Json :=
  .object [("ops", .array (g.ops.toList.map op)), ("topo", strings g.topoNames),
    ("outputs", strings g.outputNames), ("tensor_count", Json.nat g.tensorCount),
    ("metadata", metadata g), ("quantized", strings (g.quantizedOps.map (·.name))),
    ("is_quantized", .bool g.isQuantized)]

/-- A failure as a kind and a message. -/
def failure (kind message : String) : Json :=
  .object [("error", .string kind), ("message", .string message)]

def validationError (e : ValidationError) : Json :=
  failure ("ValidationError." ++ e.kind) e.message

def opView (v : OpView) : Json :=
  .object [("name", .string v.name), ("type", .string v.opType),
    ("inputs", .array (v.inputs.map tensor)), ("outputs", .array (v.outputs.map tensor)),
    ("attrs", attrs v.attrs),
    ("metadata", .array (v.metadata.map fun (k, m) => .array [.string k, metaValue m]))]

end Export

end OpGraph
