import SchemaBindings.Code.Fragments
import SchemaBindings.Distinct
import SchemaBindings.Report

/-!
# Output

All that is generated for a type, a method or a document before it is written to files: seven
sections of fragments, the notices about what was left out, the titles of the other documents
referred to, and whether calls are reported to the metrics module. Outputs are merged section by
section, and a collision in one section stops the merge.
-/

namespace SchemaBindings

/-- The places of an output that code goes to, in the order in which they are merged. -/
inductive Section where
  | enums
  | declarations
  | definitions
  | conversions
  | containers
  | prototypes
  | implementations
  deriving DecidableEq, Repr

def Section.all : List Section :=
  [enums, declarations, definitions, conversions, containers, prototypes, implementations]

structure Output where
  enums : Fragments := {}
  declarations : Fragments := {}
  definitions : Fragments := {}
  conversions : Fragments := {}
  containers : Fragments := {}
  prototypes : Fragments := {}
  implementations : Fragments := {}
  diagnostics : List Diagnostic := []
  externals : List String := []
  usesMetrics : Bool := false

namespace Output

def get (output : Output) : Section → Fragments
  | .enums => output.enums
  | .declarations => output.declarations
  | .definitions => output.definitions
  | .conversions => output.conversions
  | .containers => output.containers
  | .prototypes => output.prototypes
  | .implementations => output.implementations

def set (output : Output) (place : Section) (fragments : Fragments) : Output :=
  match place with
  | .enums => { output with enums := fragments }
  | .declarations => { output with declarations := fragments }
  | .definitions => { output with definitions := fragments }
  | .conversions => { output with conversions := fragments }
  | .containers => { output with containers := fragments }
  | .prototypes => { output with prototypes := fragments }
  | .implementations => { output with implementations := fragments }

def change (output : Output) (place : Section) (attempt : Attempt Fragments) : Attempt Output :=
  ⟨output.set place attempt.value, attempt.failure⟩

def insert (output : Output) (place : Section) (symbol : String) (pieces : List Code.Piece)
    (path : String) : Attempt Output :=
  output.change place ((output.get place).insert symbol (.ofPieces pieces) path)

def mergeSections (other : Output) (path : String) : List Section → Output → Attempt Output
  | [], output => .success output
  | place :: rest, output =>
    (output.change place ((output.get place).merge (other.get place) path)).andThen
      (mergeSections other path rest)

def addDiagnostic (output : Output) (diagnostic : Diagnostic) : Output :=
  { output with diagnostics := addNew output.diagnostics diagnostic }

/-- Adds everything of another output, keeping the order in which things were first seen. -/
def merge (output other : Output) (path : String) : Attempt Output :=
  (mergeSections other path Section.all output).andThen fun merged ↦ .success
    { merged with
      diagnostics := addAllNew merged.diagnostics other.diagnostics
      externals := addAllNew merged.externals other.externals
      usesMetrics := merged.usesMetrics || other.usesMetrics }

def ofDiagnostic (diagnostic : Diagnostic) : Output := { diagnostics := [diagnostic] }

@[simp]
theorem get_set_self (output : Output) (place : Section) (fragments : Fragments) :
    (output.set place fragments).get place = fragments := by
  cases place <;> rfl

theorem get_set_of_ne (output : Output) {place other : Section} (h : other ≠ place)
    (fragments : Fragments) : (output.set place fragments).get other = output.get other := by
  cases place <;> cases other <;> simp_all [get, set]

end Output

end SchemaBindings
