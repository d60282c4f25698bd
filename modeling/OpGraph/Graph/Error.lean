namespace OpGraph

/-- What is wrong with a stored topological order. -/
inductive OrderFault where
  | lengthMismatch (entries ops : Nat)
  | outOfRange (index : Nat)
  | listedTwice (op : String)
  | notBefore (producer consumer : String)
  | unknownName (name : String)
  deriving DecidableEq, Repr

def OrderFault.message : OrderFault → String
  | .lengthMismatch entries ops => toString entries ++ " entries for " ++ toString ops ++ " ops"
  | .outOfRange index => "op index " ++ toString index ++ " out of range"
  | .listedTwice op => "op '" ++ op ++ "' listed twice"
  | .notBefore producer consumer => "'" ++ producer ++ "' must come before '" ++ consumer ++ "'"
  | .unknownName name => "unknown op '" ++ name ++ "'"

/-- A violated graph invariant. -/
inductive ValidationError where
  | cycle (ops : List String)
  | danglingTensor (op tensor : String)
  | duplicateOp (name : String)
  | duplicateTensor (name : String)
  | unknownOutput (name : String)
  | unknownOp (name : String)
  | unknownOpType (opType : String)
  | invalidTopoOrder (fault : OrderFault)
  | invalidNamespace (name : String)
  deriving DecidableEq, Repr

namespace ValidationError

def message : ValidationError → String
  | .cycle ops => "graph contains a cycle through: " ++ ", ".intercalate ops
  | .danglingTensor op tensor => "op '" ++ op ++ "' references unknown tensor '" ++ tensor ++ "'"
  | .duplicateOp name => "duplicate op name: " ++ name
  | .duplicateTensor name => "duplicate tensor name: " ++ name
  | .unknownOutput name => "output node '" ++ name ++ "' is not an op of the graph"
  | .unknownOp name => "unknown op: " ++ name
  | .unknownOpType t => "no op of type '" ++ t ++ "' in graph"
  | .invalidTopoOrder fault => "invalid topological order: " ++ fault.message
  | .invalidNamespace name => "invalid metadata namespace '" ++ name ++ "'"

/-- The name of the kind of failure. -/
def kind : ValidationError → String
  | .cycle _ => "Cycle"
  | .danglingTensor _ _ => "DanglingTensor"
  | .duplicateOp _ => "DuplicateOp"
  | .duplicateTensor _ => "DuplicateTensor"
  | .unknownOutput _ => "UnknownOutput"
  | .unknownOp _ => "UnknownOp"
  | .unknownOpType _ => "UnknownOpType"
  | .invalidTopoOrder _ => "InvalidTopoOrder"
  | .invalidNamespace _ => "InvalidNamespace"

end ValidationError

end OpGraph
