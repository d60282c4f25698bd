import OpGraph.Graph.Edit
import OpGraph.Graph.Query
import OpGraph.Transform.Error

namespace OpGraph

namespace RefCount

/-- The pass's namespace, `refcnt`. -/
def ns : Namespace := ⟨"refcnt", rfl⟩

def refCountsKind : String := "ref_counts"

def toEvalKind : String := "to_eval"

/-- Op types that are never evaluated. -/
def neverEvaluated : List String := ["Const", "Placeholder"]

/-- Whether the op at an id must be evaluated. -/
def toEval (g : Graph) (id : Nat) : Bool :=
  !(g.isOutput id || neverEvaluated.contains (g.opAt id).opType)

/-- How many input slots read each output of the op at an id. -/
def refCounts (g : Graph) (id : Nat) : List Nat :=
  (g.opAt id).outputs.map fun t => Index.inputCount g.ops.toList t.name

/-- Annotate every op, in reverse topological order. -/
def annotate (g : Graph) : Except ValidationError (Graph × Reuse) :=
  let e := g.topo.reverse.foldl (fun e id =>
    let e := (e.setMetaAt id ns toEvalKind (.flag (toEval g id))).1
    (e.setMetaAt id ns refCountsKind (.counts (refCounts g id))).1) (Edit.start g)
  e.finish

/-- The annotation of one op, as a later reader sees it. -/
structure Annotation where
  toEval : Bool
  refCounts : List Nat
  deriving DecidableEq, Repr

/-- The count of the first output, zero without outputs. -/
def Annotation.primaryCount (a : Annotation) : Nat := a.refCounts.headD 0

/-- Read an op's annotation: present when both entries are there with the right kinds. -/
def read (g : Graph) (name : String) : Except TransformError (Option Annotation) := do
  let v ← liftValidation (g.namespaced name ns)
  return match v.flag? toEvalKind, v.counts? refCountsKind with
    | some b, some cs => some ⟨b, cs⟩
    | _, _ => none

end RefCount

end OpGraph
