import OpGraph.Export.Graph
import OpGraph.Optimize

namespace OpGraph

namespace Export

/-- A transformation failure; a failed pass also names the pass and gives the failure inside. -/
def transformError : TransformError → Json
  | .passFailed pass source =>
    .object [("error", .string "TransformError.PassFailed"),
      ("message", .string (TransformError.passFailed pass source).message),
      ("pass", .string pass), ("source", transformError source)]
  | e => failure ("TransformError." ++ e.kind) e.message

def passReport (r : PassReport) : Json :=
  .object [("name", .string r.name), ("ops_before", Json.nat r.opsBefore),
    ("ops_after", Json.nat r.opsAfter), ("metadata_before", Json.nat r.metadataBefore),
    ("metadata_after", Json.nat r.metadataAfter), ("ops_removed", Json.nat r.opsRemoved)]

def pipelineReport (r : PipelineReport) : Json :=
  .object [("passes", .array (r.passes.map passReport)), ("ops_removed", Json.nat r.opsRemoved)]

def saveStats (s : Snapshot.SaveStats) : Json :=
  .object [("size_bytes", Json.nat s.sizeBytes), ("op_count", Json.nat s.opCount),
    ("metadata_count", Json.nat s.metadataCount)]

/-- Optimization statistics; with `withSaved`, also what was saved, `null` when nothing was. -/
def optimizeStats (withSaved : Bool) (s : OptimizeStats) : Json :=
  .object ([("original_ops", Json.nat s.opsBefore), ("optimized_ops", Json.nat s.opsAfter),
    ("ops_removed", Json.nat s.opsRemoved), ("metadata_count", Json.nat s.metadataCount),
    ("quantized", .bool s.quantized), ("passes", pipelineReport s.passes),
    ("reduction_percent", .string s.reductionPercent)] ++
    if withSaved then [("saved", (s.saved.map saveStats).getD .null)] else [])

def snapshotInfo (i : Snapshot.Info) : Json :=
  .object [("op_count", Json.nat i.opCount), ("tensor_count", Json.nat i.tensorCount),
    ("output_nodes", strings i.outputNodes), ("metadata_count", Json.nat i.metadataCount),
    ("namespaces", strings i.namespaces)]

end Export

end OpGraph
