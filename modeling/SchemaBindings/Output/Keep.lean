import SchemaBindings.Distinct
import SchemaBindings.Schema.Library
import SchemaBindings.Schema.References

/-!
# Definitions to keep

The definitions of a document that other documents need: those that another document refers to,
and those that a needed definition refers to in turn.
-/

namespace SchemaBindings

namespace Keep

/-- The fragment of this document that a reference means, where `isHome` says whether the
reference is written in the document itself. -/
def fragment? (document : Document) (isHome : Bool) (reference : String) : Option String :=
  match Text.cut '#' reference with
  | some (uri, fragment) =>
    if (uri = "" ∧ isHome) ∨ uri = document.uri then some ("#" ++ fragment) else none
  | none => none

/-- The definition that a reference names. -/
def definition? (document : Document) (isHome : Bool) (reference : String) :
    Option (String × Node) :=
  (fragment? document isHome reference).bind fun fragment ↦
    document.definitions.find? fun (name, _) ↦ document.definitionRef name = fragment

/-- All schemas that a document declares. -/
def schemas (document : Document) : List Node :=
  document.definitions.map (·.2) ++ document.methods.flatMap fun method ↦
    method.params.map (·.schema) ++ (method.result.map (·.schema)).toList

/-- Names that the references of some schemas mean. -/
def named (document : Document) (isHome : Bool) (nodes : List Node) : List String :=
  (nodes.flatMap Node.references).filterMap fun reference ↦
    (definition? document isHome reference).map (·.1)

def seeds (library : Library) (document : Document) : List String :=
  let others := library.documents.filter (·.uri ≠ document.uri)
  named document false (others.flatMap schemas)

def successors (document : Document) (name : String) : List String :=
  match Table.get? name document.definitions with
  | some node => named document true [node]
  | none => []

/-- Adds what the kept definitions refer to, round by round, until nothing new comes in. -/
def grow (document : Document) : Nat → List String → List String
  | 0, kept => kept
  | rounds + 1, kept =>
    let next := addAllNew kept (kept.flatMap (successors document))
    if next.length = kept.length then kept else grow document rounds next

end Keep

/-- The names of the definitions that the other documents of the library need. -/
def keptDefinitions (library : Library) (document : Document) : List String :=
  Keep.grow document document.definitions.length (addAllNew [] (Keep.seeds library document))

end SchemaBindings
