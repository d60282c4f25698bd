import OpGraph.Transform.Registry
import OpGraph.Snapshot.Storage

namespace OpGraph

/-- How to optimize. -/
structure OptimizeOptions where
  pipeline : PipelineConfig
  saveGraph : Option String
  warnQuantized : Bool

namespace OptimizeOptions

/-- The options when none are given. -/
def standard : OptimizeOptions := ⟨PipelineConfig.ofNames ["refcnt"], none, true⟩

end OptimizeOptions

namespace Json.Reader

/-- Optimization options, an object or an array of the three options in order; whatever is left
out keeps its standard value. -/
def optimizeOptions (fuel : Nat) : Reader OptimizeOptions :=
  record fuel "struct OptimizeOptions" byFields byItems
where
  byFields : Reader OptimizeOptions := do
    let (p, s, w) ← eachField fuel (fun (p, s, w) k =>
      match k with
      | "pipeline" =>
        if p.isSome then unplaced (.duplicateField "pipeline")
        else do
          colon
          return (some (← pipelineConfig fuel), s, w)
      | "save_graph" =>
        if s.isSome then unplaced (.duplicateField "save_graph")
        else do
          colon
          return (p, some (← optional (string fuel "path string")), w)
      | "warn_quantized" =>
        if w.isSome then unplaced (.duplicateField "warn_quantized")
        else do
          colon
          return (p, s, some (← boolean fuel))
      | _ => do
        colon
        skipValue fuel
        pure (p, s, w)) fuel true
        ((none : Option PipelineConfig), (none : Option (Option String)), (none : Option Bool))
    let d := OptimizeOptions.standard
    pure ⟨p.getD d.pipeline, s.getD d.saveGraph, w.getD d.warnQuantized⟩
  byItems : Reader OptimizeOptions := do
    let d := OptimizeOptions.standard
    let p ← nextItem true (pipelineConfig fuel)
    let s ← nextItem false (optional (string fuel "path string"))
    let w ← nextItem false (boolean fuel)
    pure ⟨p.getD d.pipeline, s.getD d.saveGraph, w.getD d.warnQuantized⟩

end Json.Reader

namespace OptimizeOptions

/-- Read options from JSON text. -/
def parse (text : String) : Except TransformError OptimizeOptions :=
  match Json.Reader.run Json.Reader.optimizeOptions text with
  | .ok o => .ok o
  | .error e => .error (.configParse e)

end OptimizeOptions

namespace PipelineConfig

/-- Read a pipeline configuration from a UTF-8 file. -/
def fromFile (store : FileStore) (path : String) : Except TransformError PipelineConfig :=
  match store.readText path with
  | .ok text => parse text
  | .error e => .error (.io e)

end PipelineConfig

/-- What an optimization did. -/
structure OptimizeStats where
  opsBefore : Nat
  opsAfter : Nat
  opsRemoved : Nat
  metadataCount : Nat
  quantized : Bool
  passes : PipelineReport
  saved : Option Snapshot.SaveStats

namespace OptimizeStats

/-- The share of ops removed in percent, computed in binary64 as `removed / before * 100` and
written with six decimals; zero for an empty graph. -/
def reductionPercent (s : OptimizeStats) : String :=
  let f := BinaryFormat.binary64
  let bits :=
    if s.opsBefore = 0 then 0
    else
      match f.decode (f.ofNat s.opsRemoved), f.decode (f.ofNat s.opsBefore) with
      | .finite na ma ea, .finite nb mb eb =>
        match f.decode (f.divFinite na ma ea nb mb eb), f.decode (f.ofNat 100) with
        | .finite nq mq eq, .finite nh mh eh => f.mulFinite nq mq eq nh mh eh
        | _, _ => 0
      | _, _ => 0
  f.fixedText bits 6

end OptimizeStats

/-- Optimize a valid graph with the passes of `registry`, saving into `store` when asked; the
result shares with the input what the pipeline kept. -/
def optimizeGraph (store : FileStore) (g : Graph) (options : OptimizeOptions) (registry : PassRegistry) :
    Logged (Except TransformError (Graph × Reuse × OptimizeStats × FileStore)) := do
  let quantized := g.isQuantized
  if quantized && options.warnQuantized then
    let qs := g.quantizedOps
    Logged.emit .warn "Graph contains quantized operators"
      [("count", toString qs.length), ("first", ((qs.head?.map (·.name)).getD ""))]
  match registry.pipeline options.pipeline with
  | .error e => pure (.error e)
  | .ok passes =>
    match ← Pass.runWithReport passes g with
    | .error e => pure (.error e)
    | .ok (optimized, reuse, report) =>
      let saved : Except TransformError (FileStore × Option Snapshot.SaveStats) :=
        match options.saveGraph with
        | none => .ok (store, none)
        | some path => (Snapshot.saveGraphWithStats store optimized path).map fun (s, st) => (s, some st)
      match saved with
      | .error e => pure (.error e)
      | .ok (store', stats?) =>
        match options.saveGraph, stats? with
        | some path, some st =>
          Logged.emit .info "Saved graph snapshot" [("path", path), ("bytes", toString st.sizeBytes)]
        | _, _ => pure ()
        let stats : OptimizeStats := ⟨g.opCount, optimized.opCount, report.opsRemoved,
          optimized.metadata.size, quantized, report, stats?⟩
        pure (.ok (optimized, reuse, stats, store'))

/-- Build a graph from ops and output names, then optimize it. -/
def optimizeOps (store : FileStore) (ops : List Op) (outputs : List String) (options : OptimizeOptions)
    (registry : PassRegistry) : Logged (Except TransformError (Graph × Reuse × OptimizeStats × FileStore)) :=
  match Graph.make ops outputs with
  | .error e => pure (.error (.validation e))
  | .ok g => optimizeGraph store g options registry

/-- Load a snapshot, optimize it with the standard passes, and save the result to `output`. -/
def optimizeFile (store : FileStore) (input output : String) (options : OptimizeOptions) :
    Logged (Except TransformError (OptimizeStats × FileStore)) :=
  match Snapshot.loadGraph store input with
  | .error e => pure (.error e)
  | .ok g => do
    let r ← optimizeGraph store g { options with saveGraph := some output } PassRegistry.defaults
    pure (r.map fun (_, _, stats, store') => (stats, store'))

end OpGraph
