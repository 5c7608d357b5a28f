import SchemaBindings.Text.Casing

/-!
# Log levels

The levels at which events are logged, from the most talkative to silence.
-/

namespace SchemaBindings

inductive LogLevel where
  | trace
  | debug
  | info
  | warn
  | error
  | off
  deriving DecidableEq, Repr

namespace LogLevel

def name : LogLevel → String
  | trace => "trace"
  | debug => "debug"
  | info => "info"
  | warn => "warn"
  | error => "error"
  | off => "off"

def display (level : LogLevel) : String := Text.upper level.name

def rank : LogLevel → Nat
  | trace => 0
  | debug => 1
  | info => 2
  | warn => 3
  | error => 4
  | off => 5

/-- Whether events of level `event` pass a filter set to `level`. -/
def allows (level event : LogLevel) : Bool := level.rank ≤ event.rank

/-- The level of a name in any case, or the unknown name in lower case. -/
def parse (text : String) : Except String LogLevel :=
  let name := Text.lowerAscii text
  if name = "trace" then .ok trace
  else if name = "debug" then .ok debug
  else if name = "info" then .ok info
  else if name = "warn" ∨ name = "warning" then .ok warn
  else if name = "error" then .ok error
  else if name = "off" then .ok off
  else .error s!"unknown log level: {name}"

end LogLevel

end SchemaBindings
