import OpGraph.Snapshot.Convert
import OpGraph.Store.Files

namespace OpGraph

namespace Snapshot

open Wire

/-- The graph stored in a file. -/
def loadGraph (store : FileStore) (path : String) : Except TransformError Graph :=
  match store.read path with
  | .ok bytes => graphOfBytes bytes
  | .error e => .error (.io e)

/-- The summary of the snapshot stored in a file. -/
def infoAt (store : FileStore) (path : String) : Except TransformError Info :=
  match store.readAll path with
  | .error e => .error (.io e)
  | .ok bytes =>
    match GraphRecord.decode bytes with
    | .ok r => .ok (Info.ofRecord r)
    | .error e => .error (.protoDecode e)

/-- Write bytes to a file, creating or truncating it. -/
def writeBytes (store : FileStore) (path : String) (bytes : Bytes) : Except TransformError FileStore :=
  match store.write path bytes with
  | .ok s => .ok s
  | .error cause => .error (.io (.createFailed path cause))

/-- Save a graph's snapshot. -/
def saveGraph (store : FileStore) (g : Graph) (path : String) : Except TransformError FileStore :=
  writeBytes store path (graphBytes g)

/-- Save a graph's snapshot and tell what was written. -/
def saveGraphWithStats (store : FileStore) (g : Graph) (path : String) :
    Except TransformError (FileStore × SaveStats) := do
  let bytes := graphBytes g
  let store ← writeBytes store path bytes
  pure (store, ⟨bytes.length, g.opCount, g.metadata.size⟩)

end Snapshot

end OpGraph
