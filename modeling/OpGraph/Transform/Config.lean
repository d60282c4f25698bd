import OpGraph.Json.Read
import OpGraph.Transform.Error

namespace OpGraph

/-- Keyword configuration of one pass. -/
structure PassConfig where
  entries : List (String × Json)
  deriving Inhabited

namespace PassConfig

def empty : PassConfig := ⟨[]⟩

/-- Set a keyword, replacing an earlier value. -/
def set (c : PassConfig) (key : String) (v : Json) : PassConfig :=
  ⟨Json.insertSorted key v c.entries⟩

def get? (c : PassConfig) (key : String) : Option Json :=
  (c.entries.find? (·.1 == key)).map (·.2)

/-- The keywords, sorted. -/
def keys (c : PassConfig) : List String := c.entries.map (·.1)

def isEmpty (c : PassConfig) : Bool := c.entries.isEmpty

/-- Reject the first keyword, in sorted order, that is not allowed. -/
def denyUnknown (c : PassConfig) (pass : String) (allowed : List String) :
    Except TransformError Unit :=
  match c.keys.find? (fun k => !allowed.contains k) with
  | some k => .error (.invalidConfig pass ("unknown keyword '" ++ k ++ "'"))
  | none => .ok ()

/-- A keyword's value converted, `none` when absent, an error naming what was expected when the
conversion fails. -/
def typed (c : PassConfig) (pass key expected : String) (convert : Json → Option α) :
    Except TransformError (Option α) :=
  match c.get? key with
  | none => .ok none
  | some v =>
    match convert v with
    | some a => .ok (some a)
    | none => .error (.invalidConfig pass
        ("'" ++ key ++ "' must be " ++ expected ++ ", got " ++ Json.render v))

def getBool (c : PassConfig) (pass key : String) : Except TransformError (Option Bool) :=
  c.typed pass key "a boolean" Json.asBool?

/-- A non-negative integer that fits a machine word. -/
def getCount (c : PassConfig) (pass key : String) : Except TransformError (Option Nat) :=
  c.typed pass key "a non-negative integer" Json.asNat?

def getStr (c : PassConfig) (pass key : String) : Except TransformError (Option String) :=
  c.typed pass key "a string" Json.asString?

def getStrs (c : PassConfig) (pass key : String) : Except TransformError (Option (List String)) :=
  c.typed pass key "a list of strings" Json.asStrings?

/-- As a JSON object. -/
def toJson (c : PassConfig) : Json := .object c.entries

end PassConfig

/-- One entry of a pipeline. -/
structure PassSpec where
  name : String
  config : PassConfig
  deriving Inhabited

/-- An ordered list of passes. -/
structure PipelineConfig where
  passes : List PassSpec
  deriving Inhabited

namespace PipelineConfig

/-- Unconfigured passes by name. -/
def ofNames (names : List String) : PipelineConfig := ⟨names.map fun n => ⟨n, .empty⟩⟩

def names (c : PipelineConfig) : List String := c.passes.map (·.name)

/-- As a JSON object: the passes, each with its name and, unless empty, its configuration. -/
def toJson (c : PipelineConfig) : Json :=
  .object [("passes", .array (c.passes.map fun p =>
    .object ([("name", .string p.name)] ++
      (if p.config.isEmpty then [] else [("config", p.config.toJson)]))))]

end PipelineConfig

namespace Json.Reader

/-- A pass configuration: an object of any values. -/
def passConfig (fuel : Nat) : Reader PassConfig := do
  return ⟨← object fuel "a map" (fields fuel true [])⟩

/-- A pass specification. -/
def passSpec (fuel : Nat) : Reader PassSpec :=
  record fuel "struct PassSpec" byFields byItems
where
  byFields : Reader PassSpec := do
    let (name, config) ← eachField fuel (fun (name, config) k =>
      match k with
      | "name" =>
        if name.isSome then unplaced (.duplicateField "name")
        else do
          colon
          return (some (← string fuel "a string"), config)
      | "config" =>
        if config.isSome then unplaced (.duplicateField "config")
        else do
          colon
          return (name, some (← passConfig fuel))
      | _ => do
        colon
        skipValue fuel
        pure (name, config)) fuel true ((none : Option String), (none : Option PassConfig))
    match name with
    | some n => pure ⟨n, config.getD .empty⟩
    | none => unplaced (.missingField "name")
  byItems : Reader PassSpec := do
    match ← nextItem true (string fuel "a string") with
    | none => unplaced (.invalidLength 0 "struct PassSpec with 2 elements")
    | some n =>
      match ← nextItem false (passConfig fuel) with
      | some c => pure ⟨n, c⟩
      | none => pure ⟨n, .empty⟩

/-- A list of pass specifications. -/
def passSpecs (fuel : Nat) : Reader (List PassSpec) :=
  array fuel "a sequence" (eachItem (passSpec fuel) fuel true [])

/-- A pipeline configuration; its passes default to none. -/
def pipelineConfig (fuel : Nat) : Reader PipelineConfig :=
  record fuel "struct PipelineConfig" byFields byItems
where
  byFields : Reader PipelineConfig := do
    let passes ← eachField fuel (fun passes k =>
      match k with
      | "passes" =>
        if passes.isSome then unplaced (.duplicateField "passes")
        else do
          colon
          return some (← passSpecs fuel)
      | _ => do
        colon
        skipValue fuel
        pure passes) fuel true (none : Option (List PassSpec))
    pure ⟨passes.getD []⟩
  byItems : Reader PipelineConfig := do
    match ← nextItem true (passSpecs fuel) with
    | some ps => pure ⟨ps⟩
    | none => pure ⟨[]⟩

end Json.Reader

namespace PipelineConfig

/-- Read a pipeline configuration from JSON text. -/
def parse (text : String) : Except TransformError PipelineConfig :=
  match Json.Reader.run Json.Reader.pipelineConfig text with
  | .ok c => .ok c
  | .error e => .error (.configParse e)

end PipelineConfig

namespace PassConfig

/-- Read a pass configuration from JSON text. -/
def parse (text : String) : Except TransformError PassConfig :=
  match Json.Reader.run Json.Reader.passConfig text with
  | .ok c => .ok c
  | .error e => .error (.configParse e)

end PassConfig

end OpGraph
