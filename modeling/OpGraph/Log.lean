namespace OpGraph

inductive LogLevel where
  | warn
  | info
  | debug
  deriving DecidableEq, Repr

def LogLevel.name : LogLevel → String
  | .warn => "WARN"
  | .info => "INFO"
  | .debug => "DEBUG"

/-- One log event. -/
structure LogEvent where
  level : LogLevel
  message : String
  fields : List (String × String)
  deriving DecidableEq, Repr

/-- A value with the events emitted while computing it. -/
structure Logged (α : Type) where
  value : α
  events : List LogEvent

instance : Monad Logged where
  pure a := ⟨a, []⟩
  bind m f := let r := f m.value; ⟨r.value, m.events ++ r.events⟩

namespace Logged

/-- Emit one event. -/
def emit (level : LogLevel) (message : String) (fields : List (String × String)) :
    Logged Unit :=
  ⟨(), [⟨level, message, fields⟩]⟩

end Logged

end OpGraph
