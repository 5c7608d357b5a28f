import SchemaBindings.LogLevel

/-!
# Logged events

What a run logs is counted: warnings, errors and the message of the last error, each only when
the log level lets such events through.
-/

namespace SchemaBindings

structure EventCounts where
  warnings : Nat := 0
  errors : Nat := 0
  lastError : Option String := none
  deriving DecidableEq, Repr

namespace EventCounts

def recordWarning (counts : EventCounts) : EventCounts :=
  { counts with warnings := counts.warnings + 1 }

def recordError (counts : EventCounts) (message : String) : EventCounts :=
  { counts with errors := counts.errors + 1, lastError := some message }

/-- Counts an event unless its level is filtered out; only warnings and errors are counted. -/
def record (counts : EventCounts) (filter event : LogLevel) (message : String) : EventCounts :=
  if filter.allows event then
    match event with
    | .warn => counts.recordWarning
    | .error => counts.recordError message
    | _ => counts
  else counts

/-- The counts of a run that logged some warnings and then these errors. -/
def ofRun (filter : LogLevel) (warnings : Nat) (errors : List String) : EventCounts :=
  errors.foldl (fun counts message ↦ counts.record filter .error message)
    { warnings := if filter.allows .warn then warnings else 0 }

end EventCounts

end SchemaBindings
