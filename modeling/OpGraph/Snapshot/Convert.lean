import OpGraph.Snapshot.Record
import OpGraph.Graph.Basic
import OpGraph.Transform.Error

namespace OpGraph

namespace Snapshot

open Wire

def shapeRecord (s : Shape) : ShapeRecord :=
  match s.dims with
  | some dims => ⟨true, dims.map Dim.signed⟩
  | none => .empty

def tensorRecord (t : Tensor) : TensorRecord := ⟨t.name, t.dtype.code, some (shapeRecord t.shape)⟩

def attrPayload : AttrValue → AttrPayload
  | .bool b => .bool b
  | .int i => .int i
  | .float bits => .float bits
  | .str s => .str s
  | .ints is => .ints is
  | .floats bits => .floats bits
  | .strs ss => .strs ss
  | .dtype d => .dtype d.code
  | .shape s => .shape (shapeRecord s)

def opRecord (op : Op) : OpRecord :=
  ⟨op.name, op.opType, op.inputs, op.outputs.map tensorRecord,
    op.attrs.map fun (k, v) => ⟨k, some (attrPayload v)⟩⟩

def metaPayload : MetaValue → MetaPayload
  | .flag b => .flag b
  | .count n => .count n
  | .counts ns => .counts ns
  | .int i => .int i
  | .text s => .text s

/-- The record of a graph. -/
def ofGraph (g : Graph) : GraphRecord :=
  ⟨g.ops.toList.map opRecord, g.outputNames, g.topoNames,
    g.metadata.entries.map fun e => ⟨(g.opAt e.op).name, e.ns.name, e.kind, some (metaPayload e.value)⟩⟩

/-- The snapshot bytes of a graph. -/
def graphBytes (g : Graph) : Bytes := (ofGraph g).encode

def shapeOf (r : ShapeRecord) : Shape := if r.known then Shape.ofInts r.dims else Shape.unknown

def tensorOf (r : TensorRecord) : Except TransformError Tensor := do
  let d ← DType.ofCode r.dtype
  pure ⟨r.name, d, (r.shape.map shapeOf).getD Shape.unknown⟩

def attrValueOf : AttrPayload → Except TransformError AttrValue
  | .bool b => pure (.bool b)
  | .int i => pure (.int i)
  | .float bits => pure (.float bits)
  | .str s => pure (.str s)
  | .ints is => pure (.ints is)
  | .floats bits => pure (.floats bits)
  | .strs ss => pure (.strs ss)
  | .dtype c => return .dtype (← DType.ofCode c)
  | .shape s => pure (.shape (shapeOf s))

/-- Decode an attribute of op `op` and set it after those decoded so far; it needs a value. -/
def attrInto (op : String) (acc : Attrs) (a : AttrRecord) : Except TransformError Attrs :=
  match a.value with
  | none => throw (.invalidSnapshot ("attribute '" ++ a.name ++ "' of op '" ++ op ++ "' has no value"))
  | some v => return acc.insert a.name (← attrValueOf v)

def opOf (r : OpRecord) : Except TransformError Op := do
  let outputs ← r.outputs.mapM tensorOf
  let attrs ← r.attrs.foldlM (attrInto r.name) []
  pure ⟨r.name, r.opType, r.inputs, outputs, attrs⟩

def metaValueOf : MetaPayload → MetaValue
  | .flag b => .flag b
  | .count n => .count n
  | .counts ns => .counts ns
  | .int i => .int i
  | .text s => .text s

/-- The id of the last op of a name. -/
def lastIdOf (ops : List Op) (name : String) : Option Nat :=
  (ops.zipIdx.foldl (fun acc (op, i) => if op.name == name then some i else acc) none)

/-- Admit a metadata entry into the table: it needs a known op, a valid namespace and a value. -/
def metaInto (ops : List Op) (table : Metadata) (r : MetadataRecord) :
    Except TransformError Metadata := do
  let some id := lastIdOf ops r.op | throw (.validation (.unknownOp r.op))
  let ns ← liftValidation (Namespace.make r.ns)
  match r.value with
  | none => throw (.invalidSnapshot ("metadata '" ++ r.kind ++ "' of op '" ++ r.op ++ "' has no value"))
  | some v => pure (table.insert id ns r.kind (metaValueOf v)).1

def metadataOf (ops : List Op) (entries : List MetadataRecord) : Except TransformError Metadata :=
  entries.foldlM (metaInto ops) Metadata.empty

/-- The id a name of the stored order stands for. -/
def idOfName (ops : List Op) (name : String) : Except TransformError Nat :=
  match lastIdOf ops name with
  | some id => pure id
  | none => throw (.validation (.invalidTopoOrder (.unknownName name)))

/-- The stored order as ids: nothing for an empty one, which is computed instead. -/
def storedOrderOf (ops : List Op) (names : List String) :
    Except TransformError (Option (List Nat)) :=
  if names.isEmpty then pure none else some <$> names.mapM (idOfName ops)

/-- The graph of a record. -/
def toGraph (r : GraphRecord) : Except TransformError Graph := do
  let ops ← r.ops.mapM opOf
  let order ← storedOrderOf ops r.topoOrder
  let table ← metadataOf ops r.metadata
  liftValidation (Graph.build ops.toArray r.outputNodes order table)

/-- The graph stored in snapshot bytes. -/
def graphOfBytes (bytes : Bytes) : Except TransformError Graph := do
  match GraphRecord.decode bytes with
  | .ok r => toGraph r
  | .error e => throw (.protoDecode e)

/-- What a snapshot holds, read from its record without checking it. -/
structure Info where
  opCount : Nat
  tensorCount : Nat
  outputNodes : List String
  metadataCount : Nat
  namespaces : List String
  deriving DecidableEq, Repr

/-- Insert into a sorted list without duplicates. -/
def insertName (s : String) : List String → List String
  | [] => [s]
  | t :: rest => if s < t then s :: t :: rest else if s = t then t :: rest else t :: insertName s rest

def Info.ofRecord (r : GraphRecord) : Info :=
  ⟨r.ops.length, (r.ops.map (·.outputs.length)).foldr (· + ·) 0, r.outputNodes, r.metadata.length,
    r.metadata.foldl (fun acc m => insertName m.ns acc) []⟩

/-- What saving a graph wrote. -/
structure SaveStats where
  sizeBytes : Nat
  opCount : Nat
  metadataCount : Nat
  deriving DecidableEq, Repr

end Snapshot

end OpGraph
