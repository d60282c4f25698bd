import OpGraph.Graph.Error
import OpGraph.Json.Read
import OpGraph.Snapshot.Wire
import OpGraph.Store.Files
import OpGraph.Text.Literal
import OpGraph.Tensor.DType

namespace OpGraph

/-- A failure of a transformation or of its inputs. -/
inductive TransformError where
  | validation (e : ValidationError)
  | unknownPass (name : String)
  | duplicatePass (name : String)
  | invalidConfig (pass reason : String)
  | passFailed (pass : String) (source : TransformError)
  | duplicateAssociation (opType : String)
  | duplicateCompatibility (a b : String)
  | invalidPermutation (opType : String) (perm : List Nat)
  | invalidPattern (reason : String)
  | invalidSnapshot (reason : String)
  | io (e : IoError)
  | protoDecode (e : Wire.DecodeError)
  | configParse (e : Json.ReadFailure)
  | internal (reason : String)
  deriving Repr

namespace TransformError

def message : TransformError → String
  | .validation e => "Validation failed: " ++ e.message
  | .unknownPass name => "Unknown pass: " ++ name
  | .duplicatePass name => "Duplicate pass registration: " ++ name
  | .invalidConfig pass reason => "Invalid config for pass '" ++ pass ++ "': " ++ reason
  | .passFailed pass source => "Pass '" ++ pass ++ "' failed: " ++ source.message
  | .duplicateAssociation t => "Duplicate associativity definition for " ++ t
  | .duplicateCompatibility a b => "Conflicting compatibility definition: " ++ a ++ " <-> " ++ b
  | .invalidPermutation t perm =>
    "Invalid permutation " ++ Text.bracketed (perm.map toString) ++ " for " ++ t
  | .invalidPattern reason => "Invalid pattern: " ++ reason
  | .invalidSnapshot reason => "Invalid snapshot: " ++ reason
  | .io e => "IO error: " ++ e.message
  | .protoDecode e => "Protobuf decode error: " ++ e.message
  | .configParse e => "Config parse error: " ++ e.message
  | .internal reason => "Internal error: " ++ reason

/-- The name of the kind of failure; a wrapped graph check adds its own kind. -/
def kind : TransformError → String
  | .validation e => "Validation." ++ e.kind
  | .unknownPass _ => "UnknownPass"
  | .duplicatePass _ => "DuplicatePass"
  | .invalidConfig _ _ => "InvalidConfig"
  | .passFailed _ _ => "PassFailed"
  | .duplicateAssociation _ => "DuplicateAssociation"
  | .duplicateCompatibility _ _ => "DuplicateCompatibility"
  | .invalidPermutation _ _ => "InvalidPermutation"
  | .invalidPattern _ => "InvalidPattern"
  | .invalidSnapshot _ => "InvalidSnapshot"
  | .io _ => "Io"
  | .protoDecode _ => "ProtoDecode"
  | .configParse _ => "ConfigParse"
  | .internal _ => "Internal"

end TransformError

/-- Lift a graph check into a transformation failure. -/
def liftValidation : Except ValidationError α → Except TransformError α
  | .ok v => .ok v
  | .error e => .error (.validation e)

namespace DType

/-- Bytes per element, or the internal error for types without a fixed width. -/
def size (d : DType) : Except TransformError Nat :=
  match d.size? with
  | some n => .ok n
  | none => .error (.internal (d.name ++ " has no fixed element size"))

/-- The type with a code, or the internal error naming the code. -/
def ofCode (c : Int) : Except TransformError DType :=
  match ofCode? c with
  | some d => .ok d
  | none => .error (.internal ("invalid data type: " ++ toString c))

end DType

end OpGraph
