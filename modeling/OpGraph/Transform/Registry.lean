import OpGraph.Transform.Pipeline
import OpGraph.Transform.Config

namespace OpGraph

/-- The pass factories: the built-in ones, and one the caller registers, which checks a
configuration and builds its pass. -/
inductive PassKind where
  | refCount
  | prune
  | custom (factory : PassConfig → Except TransformError Pass)

namespace PassKind

/-- Build a pass from its configuration: the reference-count pass takes no keywords, the prune
pass takes `keep_types`, a list of strings. -/
def create (k : PassKind) (c : PassConfig) : Except TransformError Pass :=
  match k with
  | .refCount => do
    c.denyUnknown "refcnt" []
    pure .refCount
  | .prune => do
    c.denyUnknown "prune" ["keep_types"]
    let ks ← c.getStrs "prune" "keep_types"
    pure (.prune (ks.getD []))
  | .custom factory => factory c

end PassKind

/-- Pass names bound to factories, in registration order. -/
structure PassRegistry where
  entries : List (String × PassKind)

namespace PassRegistry

def empty : PassRegistry := ⟨[]⟩

def defaults : PassRegistry := ⟨[("refcnt", .refCount), ("prune", .prune)]⟩

def contains (r : PassRegistry) (name : String) : Bool := r.entries.any (·.1 == name)

def names (r : PassRegistry) : List String := r.entries.map (·.1)

/-- Bind a name, unless it is bound already. -/
def register (r : PassRegistry) (name : String) (k : PassKind) :
    Except TransformError PassRegistry :=
  if r.contains name then .error (.duplicatePass name) else .ok ⟨r.entries ++ [(name, k)]⟩

/-- Build the pass bound to a name. -/
def create (r : PassRegistry) (name : String) (c : PassConfig) : Except TransformError Pass :=
  match r.entries.find? (·.1 == name) with
  | some (_, k) => k.create c
  | none => .error (.unknownPass name)

/-- Build every pass of a pipeline configuration; the first failure wins. -/
def pipeline (r : PassRegistry) (c : PipelineConfig) : Except TransformError (List Pass) :=
  c.passes.mapM fun spec => r.create spec.name spec.config

def debugText (r : PassRegistry) : String :=
  "PassRegistry \x7b passes: " ++ Text.bracketed (r.names.map Text.literal) ++ " \x7d"

end PassRegistry

end OpGraph
