import OpGraph.Graph.Basic

namespace OpGraph

/-- What a graph derived from another shares with it: everything (`whole`), or the op records of
the named ops, carried over unchanged. -/
inductive Reuse where
  | whole
  | records (names : List String)
  deriving DecidableEq, Repr

namespace Reuse

/-- Nothing is shared. -/
def none : Reuse := .records []

/-- What the result of two derivations in a row shares with the first source. -/
def andThen : Reuse → Reuse → Reuse
  | r, .whole => r
  | .whole, .records later => .records later
  | .records earlier, .records later => .records (later.filter earlier.contains)

/-- Whether the op record named `name` of the derived graph is the source's. -/
def keeps (r : Reuse) (source : Graph) (name : String) : Bool :=
  source.hasOp name && match r with
    | .whole => true
    | .records names => names.contains name

end Reuse

/-- A slot of an edit: a source op carried over, a new op record, or nothing. -/
inductive EditSlot where
  | kept (op : Op)
  | fresh (op : Op)
  | removed
  deriving DecidableEq, Repr

namespace EditSlot

def op? : EditSlot → Option Op
  | kept op => some op
  | fresh op => some op
  | removed => none

end EditSlot

/-- An edit in progress. -/
structure Edit where
  source : Graph
  slots : Array EditSlot
  inserted : List (String × Nat)
  outputNames : Option (List String)
  metadata : Metadata
  removedAny : Bool
  rewired : Bool

namespace Edit

/-- An edit that changes nothing yet. -/
def start (g : Graph) : Edit :=
  { source := g, slots := g.ops.map EditSlot.kept, inserted := [], outputNames := none,
    metadata := g.metadata, removedAny := false, rewired := false }

/-- The slot of a name: the source's id first, else the id it was last inserted under; it must
hold an op. -/
def resolve (e : Edit) (name : String) : Except ValidationError Nat :=
  let id? : Option Nat := match e.source.opId? name with
    | some id => some id
    | none => (e.inserted.find? (fun (p : String × Nat) => p.1 == name)).map (fun (p : String × Nat) => p.2)
  match id? with
  | some id =>
    match e.slots[id]? with
    | some (.kept _) | some (.fresh _) => .ok id
    | _ => .error (.unknownOp name)
  | none => .error (.unknownOp name)

/-- Write a metadata value at a slot id; the previous value comes back. -/
def setMetaAt (e : Edit) (id : Nat) (ns : Namespace) (kind : String) (v : MetaValue) :
    Edit × Option MetaValue :=
  let (m, prev) := e.metadata.insert id ns kind v
  ({ e with metadata := m }, prev)

/-- Write a metadata value for a named op. -/
def setMeta (e : Edit) (name : String) (ns : Namespace) (kind : String) (v : MetaValue) :
    Except ValidationError (Edit × Option MetaValue) := do
  let id ← e.resolve name
  pure (e.setMetaAt id ns kind v)

/-- Remove a named op and its metadata; the removed op comes back. -/
def removeOp (e : Edit) (name : String) : Except ValidationError (Edit × Op) := do
  let id ← e.resolve name
  match (e.slots[id]?).bind EditSlot.op? with
  | some op =>
    let slots := e.slots.set! id EditSlot.removed
    let metadata := e.metadata.removeOp id
    pure ({ e with slots := slots, metadata := metadata, removedAny := true }, op)
  | none => throw (.unknownOp name)

/-- Put a new record in the slot of the op with the same name; the old op comes back. -/
def replaceOp (e : Edit) (op : Op) : Except ValidationError (Edit × Op) := do
  let id ← e.resolve op.name
  match (e.slots[id]?).bind EditSlot.op? with
  | some old =>
    let slots := e.slots.set! id (EditSlot.fresh op)
    pure ({ e with slots := slots, rewired := true }, old)
  | none => throw (.unknownOp op.name)

/-- Add an op in a new slot, unless its name resolves; the new slot id comes back. -/
def insertOp (e : Edit) (op : Op) : Except ValidationError (Edit × Nat) :=
  match e.resolve op.name with
  | .ok _ => .error (.duplicateOp op.name)
  | .error _ =>
    let id := e.slots.size
    let slots := e.slots.push (EditSlot.fresh op)
    let inserted := (op.name, id) :: e.inserted.filter (fun p => p.1 != op.name)
    .ok ({ e with slots := slots, inserted := inserted, rewired := true }, id)

/-- Name the output ops of the result. -/
def setOutputs (e : Edit) (names : List String) : Edit := { e with outputNames := some names }

/-- The new id of each slot after the removed ones are dropped. -/
def renumber (slots : List EditSlot) : List (Option Nat) :=
  (slots.foldl (fun (acc, next) s =>
    match s with
    | .removed => (none :: acc, next)
    | _ => (some next :: acc, next + 1)) ([], 0)).1.reverse

/-- Validate the edit into a graph, with what it shares with the source. -/
def finish (e : Edit) : Except ValidationError (Graph × Reuse) := do
  if !(e.removedAny || e.rewired || e.outputNames.isSome) then
    return ({ e.source with metadata := e.metadata }, .whole)
  let slots := e.slots.toList
  let newId := renumber slots
  let moved := fun (id : Nat) => (newId[id]?).getD none
  let ops := slots.filterMap EditSlot.op?
  let outputs := match e.outputNames with
    | some names => names
    | none => (e.source.outputs.filter fun id => (moved id).isSome).map fun id => (e.source.opAt id).name
  let order := if e.rewired then none else some (e.source.topo.filterMap moved)
  let g ← Graph.build ops.toArray outputs order (e.metadata.remap moved)
  let carried := slots.filterMap fun
    | .kept op => some op.name
    | _ => none
  pure (g, .records carried)

end Edit

end OpGraph
