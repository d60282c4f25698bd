import OpGraph.Tensor.DType
import OpGraph.Tensor.Shape
import OpGraph.Number.Binary
import OpGraph.Number.Shortest
import OpGraph.Text.Unicode
import OpGraph.Text.Literal
import OpGraph.Json.Value
import OpGraph.Json.Write
import OpGraph.Json.Read
import OpGraph.Graph.Attr
import OpGraph.Graph.Op
import OpGraph.Graph.Error
import OpGraph.Graph.Metadata
import OpGraph.Graph.Index
import OpGraph.Graph.Topo
import OpGraph.Graph.Basic
import OpGraph.Graph.Query
import OpGraph.Export.Graph
import OpGraph.Store.Files
import OpGraph.Snapshot.Wire
import OpGraph.Transform.Error
import OpGraph.Log
import OpGraph.Graph.Edit
import OpGraph.Transform.RefCount
import OpGraph.Transform.Prune
import OpGraph.Transform.Config
import OpGraph.Transform.Pipeline
import OpGraph.Transform.Registry
import OpGraph.Snapshot.Record
import OpGraph.Snapshot.Convert
import OpGraph.Snapshot.Storage
import OpGraph.Optimize
import OpGraph.Pattern.Equivalence
import OpGraph.Pattern.Traversal
import OpGraph.Pattern.Binding
import OpGraph.Pattern.Matcher
import OpGraph.Export.Report
import OpGraph.Proofs.Graph.Tables
import OpGraph.Proofs.Graph.Order
import OpGraph.Proofs.Graph.Kahn
import OpGraph.Proofs.Graph.Build
import OpGraph.Proofs.Graph.MetaTable
import OpGraph.Proofs.Snapshot.RoundTrip
import OpGraph.Proofs.Graph.Edit
import OpGraph.Proofs.Graph.Ancestors
import OpGraph.Proofs.Graph.Restrict
import OpGraph.Proofs.Pattern.Traversal
import OpGraph.Proofs.Pattern.Binding
import OpGraph.Proofs.Pattern.Embedding
import OpGraph.Proofs.Pattern.Extension
import OpGraph.Proofs.Pattern.Search
import OpGraph.Proofs.Graph.LeastOrder
import OpGraph.Proofs.Transform.Pipeline
import OpGraph.Proofs.Transform.Prune
import OpGraph.Proofs.Transform.RefCount
import OpGraph.Proofs.Transform.ReadCounts
import OpGraph.Proofs.Graph.RemovalOrder
import OpGraph.Proofs.Graph.Resolve
import OpGraph.Proofs.Pattern.Registry
import OpGraph.Proofs.Pattern.Reach
import OpGraph.Proofs.Tensor.ElementCount
import OpGraph.Proofs.Graph.MetaKeys
import OpGraph.Proofs.Snapshot.Decode
import OpGraph.Proofs.Transform.Statistics
import OpGraph.Proofs.Graph.TensorNames
import OpGraph.Proofs.Pattern.Correspondence
import OpGraph.Pattern.SearchState
import OpGraph.Proofs.Pattern.SearchLoop
