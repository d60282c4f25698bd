import OpGraph.Graph.Query
import OpGraph.Graph.Edit
import OpGraph.Log

namespace OpGraph

namespace Prune

/-- The live ops: ancestors of the outputs and of the ops of a kept type. -/
def live (keepTypes : List String) (g : Graph) : List Nat :=
  g.ancestorsOf (g.outputs ++ (List.range g.opCount).filter fun i =>
    keepTypes.contains (g.opAt i).opType)

/-- Remove the dead ops. -/
def run (keepTypes : List String) (g : Graph) : Logged (Except ValidationError (Graph × Reuse)) :=
  if g.outputs.isEmpty then pure (.ok (g, .whole))
  else
    let alive := live keepTypes g
    if alive.length = g.opCount then pure (.ok (g, .whole))
    else do
      let dead := (List.range g.opCount).filter fun i => !alive.contains i
      let mut e := Edit.start g
      for i in dead do
        let op := g.opAt i
        Logged.emit .debug "Pruning unreachable op" [("op", op.name), ("op_type", op.opType)]
        match e.removeOp op.name with
        | .ok (e', _) => e := e'
        | .error err => return .error err
      pure e.finish

end Prune

end OpGraph
