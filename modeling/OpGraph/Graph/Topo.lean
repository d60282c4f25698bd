import OpGraph.Graph.Index

namespace OpGraph

namespace Topo

/-- For each op, in arena order, the producer ids of its inputs, one per input slot. An input
that no op produces is an error, the first in arena then slot order. -/
def producerIds (ops : List Op) (producers : List (String × TensorRef)) :
    Except ValidationError (List (List Nat)) :=
  ops.mapM fun op => op.inputs.mapM fun t =>
    match Index.lookup producers t with
    | some r => .ok r.op
    | none => .error (.danglingTensor op.name t)

/-- The smallest id not yet taken whose producers are all taken. -/
def nextReady (deps : Array (List Nat)) (taken : Array Bool) : Option Nat :=
  (List.range deps.size).find? fun i =>
    !(taken.getD i true) && (deps.getD i []).all fun p => taken.getD p false

/-- Take ready ops, least id first, for at most `fuel` steps; the order taken and the marks. -/
def takeReady (deps : Array (List Nat)) : Nat → Array Bool → List Nat → List Nat × Array Bool
  | 0, taken, order => (order.reverse, taken)
  | fuel + 1, taken, order =>
    match nextReady deps taken with
    | some i => takeReady deps fuel (taken.set! i true) (i :: order)
    | none => (order.reverse, taken)

/-- The least-first topological order of ops given their producer ids, and the ids left over
(in arena order) when a cycle stops it. -/
def readyOrder (deps : List (List Nat)) : List Nat × List Nat :=
  let d := deps.toArray
  let (order, taken) := takeReady d d.size (Array.replicate d.size false) []
  (order, (List.range d.size).filter fun i => !(taken.getD i true))

/-- The topological order of ops, least arena id first among the ready ones. -/
def sort (ops : List Op) (producers : List (String × TensorRef)) :
    Except ValidationError (List Nat) := do
  let deps ← producerIds ops producers
  let (order, left) := readyOrder deps
  if left.isEmpty then pure order
  else throw (.cycle (left.map fun i => (ops.getD i default).name))

/-- Positions of ids in a stored order, checking each id is in range and listed once. -/
def positions (ops : List Op) : List Nat → Nat → Array (Option Nat) →
    Except ValidationError (Array (Option Nat))
  | [], _, pos => .ok pos
  | id :: rest, p, pos =>
    match pos[id]? with
    | none => .error (.invalidTopoOrder (.outOfRange id))
    | some (some _) => .error (.invalidTopoOrder (.listedTwice (ops.getD id default).name))
    | some none => positions ops rest (p + 1) (pos.set! id (some p))

/-- Check a stored order: its length, each id, then each input edge in arena then slot order. -/
def check (ops : List Op) (producers : List (String × TensorRef)) (order : List Nat) :
    Except ValidationError Unit := do
  if order.length ≠ ops.length then
    throw (.invalidTopoOrder (.lengthMismatch order.length ops.length))
  let pos ← positions ops order 0 (Array.replicate ops.length none)
  let posOf := fun i => (pos.getD i none).getD 0
  for (op, i) in ops.zipIdx do
    for t in op.inputs do
      match Index.lookup producers t with
      | none => throw (.danglingTensor op.name t)
      | some r =>
        if posOf r.op ≥ posOf i then
          throw (.invalidTopoOrder (.notBefore (ops.getD r.op default).name op.name))
  pure ()

/-- The order a graph is built with: a stored order once checked, or else the computed one. -/
def orderOf (ops : List Op) (producers : List (String × TensorRef)) :
    Option (List Nat) → Except ValidationError (List Nat)
  | some order => do
    check ops producers order
    pure order
  | none => sort ops producers

end Topo

end OpGraph
