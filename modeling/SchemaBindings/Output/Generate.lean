import SchemaBindings.Api.Emit
import SchemaBindings.Log
import SchemaBindings.Output.Files
import SchemaBindings.Output.Keep

/-!
# Generation

A run generates every selected document of a library on its own. The definitions of a document
are mapped first, unless they are unions or unused, then its methods are emitted, and the output
is written to files. A document that fails has no files and does not concern the others.
-/

namespace SchemaBindings

open Emission

namespace Generate

/-- Nested mappings that are waited for; a schema that needs more is taken not to end. -/
def budget : Nat := 4000

def mapDefinition (mappers : Mappers) (document : Document) (name : String) : Emission Unit := do
  let reference := document.definitionRef name
  let path := document.schemaPath reference
  let result ← attempt
    (mapValue mappers document (.ofKind (.reference reference)) ⟨name, "", path⟩)
  match result with
  | .ok _ => pure ()
  | .error failure =>
    if failure.isRecoverable then
      StateT.lift Mapping.warn
      addDiagnostic (.ofFailure failure)
    else fail failure

/-- Names of the definitions that are mapped as types of their own. -/
def standalone (library : Library) (settings : Settings) (document : Document) : List String :=
  let named := document.definitions.filter fun entry ↦ !entry.2.kind.isUnion
  if settings.pruneUnused && document.family == .schema then
    let kept := keptDefinitions library document
    (Table.keys named).filter kept.contains
  else Table.keys named

def addMethod (mappers : Mappers) (runtime : Runtime) (m : MethodPlace) : Emission Unit := do
  let emitted ← StateT.lift (m.emit mappers runtime)
  let output ← get
  set (← Emission.ofExcept (output.merge emitted m.path).toExcept)

def addMethods (mappers : Mappers) (runtime : Runtime) (document : Document) (position : Nat) :
    List Method → Emission Unit
  | [] => pure ()
  | method :: rest => do
    addMethod mappers runtime ⟨document, position, method⟩
    addMethods mappers runtime document (position + 1) rest

def emitDocument (mappers : Mappers) (library : Library) (settings : Settings)
    (document : Document) : Emission Unit := do
  (standalone library settings document).forM (mapDefinition mappers document)
  addMethods mappers settings.runtime document 0 document.methods

/-- The output of a document, in which the document itself is no other one. -/
def documentOutput (mappers : Mappers) (library : Library) (settings : Settings)
    (document : Document) : Mapping Output := do
  let ((), output) ← (emitDocument mappers library settings document).run {}
  pure { output with externals := output.externals.filter (· ≠ document.title) }

end Generate

structure GeneratedDocument where
  artifacts : Artifacts
  diagnostics : List Diagnostic

/-- What came of one document, and the warnings logged on the way. -/
structure DocumentRun where
  title : String
  status : Status
  generated : Option GeneratedDocument
  warnings : Nat

def DocumentRun.outcome (run : DocumentRun) : Outcome :=
  ⟨run.title, run.status, (run.generated.map (·.diagnostics)).getD []⟩

/-- Generates one document; there is no result when the budget is exhausted. -/
def Library.generateDocument (library : Library) (settings : Settings) (document : Document) :
    Option DocumentRun :=
  let mappers := Mappers.ofBudget ⟨library, settings.runtime⟩ Generate.budget
  match (Generate.documentOutput mappers library settings document).run {} with
  | none => none
  | some (.ok output, session) =>
    some ⟨document.title, .generated,
      some ⟨Files.assemble settings.runtime settings.headerText document output,
        output.diagnostics⟩,
      session.warnings⟩
  | some (.error failure, session) =>
    some ⟨document.title, .failed failure, none, session.warnings⟩

structure Generation where
  runs : List DocumentRun

namespace Generation

def report (generation : Generation) : Report := ⟨generation.runs.map DocumentRun.outcome⟩

def artifacts (generation : Generation) : List Artifacts :=
  generation.runs.filterMap fun run ↦ run.generated.map (·.artifacts)

def warnings (generation : Generation) : Nat :=
  generation.runs.foldl (fun total run ↦ total + run.warnings) 0

/-- Messages of the errors logged, one for each document that failed. -/
def errors (generation : Generation) : List String :=
  generation.report.failures.map fun failure ↦ "generation failed: " ++ failure.2.message

def counts (generation : Generation) (filter : LogLevel) : EventCounts :=
  .ofRun filter generation.warnings generation.errors

end Generation

/-- Runs over all documents of the library, in its order; those not accepted are skipped. -/
def Library.generate (library : Library) (accepts : Document → Bool) (settings : Settings) :
    Option Generation :=
  (library.documents.mapM fun document ↦
    if accepts document then library.generateDocument settings document
    else some ⟨document.title, .skipped, none, 0⟩).map .mk

end SchemaBindings
