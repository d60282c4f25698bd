import OpGraph.Transform.RefCount
import OpGraph.Transform.Prune

namespace OpGraph

/-- A graph transformation: a built-in pass, a pipeline, or a transformer the caller supplies,
given by its name and what it does to a graph. -/
inductive Pass where
  | refCount
  | prune (keepTypes : List String)
  | pipeline (passes : List Pass)
  | custom (name : String) (transform : Graph → Except TransformError Graph)
  deriving Inhabited

/-- Counts around one pass. -/
structure PassReport where
  name : String
  opsBefore : Nat
  opsAfter : Nat
  metadataBefore : Nat
  metadataAfter : Nat
  deriving DecidableEq, Repr

/-- Ops removed by the pass; a pass that adds ops removes none. -/
def PassReport.opsRemoved (r : PassReport) : Nat := r.opsBefore - r.opsAfter

/-- Counts around every pass of a run. -/
structure PipelineReport where
  passes : List PassReport
  deriving DecidableEq, Repr

def PipelineReport.opsRemoved (r : PipelineReport) : Nat := (r.passes.map PassReport.opsRemoved).foldr (· + ·) 0

/-- What a run gives: the graph, what it shares with the input, and the report. -/
abbrev Outcome := Except TransformError (Graph × Reuse × PipelineReport)

namespace Pass

def name : Pass → String
  | refCount => "refcnt"
  | prune _ => "prune"
  | pipeline _ => "pipeline"
  | custom name _ => name

/-- Pass names joined by arrows. -/
def describe (ps : List Pass) : String := " -> ".intercalate (ps.map name)

mutual
/-- Transform a graph. -/
def apply : Pass → Graph → Logged (Except TransformError (Graph × Reuse))
  | refCount, g => pure (liftValidation (RefCount.annotate g))
  | prune ks, g => do
    let r ← Prune.run ks g
    pure (liftValidation r)
  | pipeline ps, g => do
    Logged.emit .info ("Transform pipeline: " ++ describe ps) []
    let r ← applyAll ps g []
    pure (r.map fun (g', reuse, _) => (g', reuse))
  | custom _ transform, g => pure ((transform g).map fun g' => (g', Reuse.none))

/-- Run passes in order, collecting reports. -/
def applyAll : List Pass → Graph → List PassReport → Logged Outcome
  | [], g, acc => pure (.ok (g, .whole, ⟨acc.reverse⟩))
  | p :: rest, g, acc => do
    Logged.emit .debug "Running pass" [("pass", p.name), ("ops", toString g.opCount)]
    match ← apply p g with
    | .error e => pure (.error (.passFailed p.name e))
    | .ok (g', reuse) =>
      let report : PassReport := ⟨p.name, g.opCount, g'.opCount, g.metadata.size, g'.metadata.size⟩
      match ← applyAll rest g' (report :: acc) with
      | .error e => pure (.error e)
      | .ok (g'', reuse', reports) => pure (.ok (g'', reuse.andThen reuse', reports))
end

/-- Run a pipeline of passes with its report. -/
def runWithReport (ps : List Pass) (g : Graph) : Logged Outcome := do
  Logged.emit .info ("Transform pipeline: " ++ describe ps) []
  applyAll ps g []

/-- The debug text of a pipeline. -/
def debugText (ps : List Pass) : String :=
  "Pipeline \x7b passes: " ++ Text.bracketed (ps.map fun p => Text.literal p.name) ++ " \x7d"

end Pass

end OpGraph
