import SchemaBindings.Failure

/-!
# Generation reports

What became of each document of a run, in the order of the run, with the notices about what was
left out.
-/

namespace SchemaBindings

/-- A notice about something that was left out, and its place. -/
structure Diagnostic where
  path : String
  message : String
  deriving DecidableEq, Repr

namespace Diagnostic

def ofFailure (failure : Failure) : Diagnostic :=
  ⟨failure.path?.getD "#", failure.message⟩

def line (d : Diagnostic) : String := s!"{d.path}: {d.message}"

end Diagnostic

inductive Status where
  | generated
  | failed (failure : Failure)
  | skipped
  deriving DecidableEq, Repr

def Status.failure? : Status → Option Failure
  | failed failure => some failure
  | _ => none

structure Outcome where
  title : String
  status : Status
  diagnostics : List Diagnostic

structure Report where
  outcomes : List Outcome := []

namespace Report

def push (report : Report) (outcome : Outcome) : Report :=
  ⟨report.outcomes ++ [outcome]⟩

def failures (report : Report) : List (String × Failure) :=
  report.outcomes.filterMap fun o ↦ o.status.failure?.map (o.title, ·)

def hasFailures (report : Report) : Bool := !report.failures.isEmpty

def generatedCount (report : Report) : Nat :=
  report.outcomes.countP (·.status = .generated)

def warningCount (report : Report) : Nat :=
  (report.outcomes.flatMap (·.diagnostics)).length

end Report

end SchemaBindings
