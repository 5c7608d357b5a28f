import SchemaBindings.Schema.Library
import SchemaBindings.Schema.References

/-!
# Resolving references

One hop of a reference: from the document it is written in to the document that owns its target
and the schema found there. A reference without a URI, or with the URI of the document it is
written in, is local. What it leads to is identified by the owner's URI and the fragment.
-/

namespace SchemaBindings

/-- What a reference leads to. -/
structure Target where
  owner : Document
  node : Node
  title : String
  isExternal : Bool
  key : String
  path : String

/-- URI and fragment of a reference; a reference without a fragment means the whole document. -/
def splitReference (reference : String) : String × String :=
  match Text.cut '#' reference with
  | some (uri, fragment) => (uri, "#" ++ fragment)
  | none => (reference, "#")

def Library.owner? (library : Library) (current : Document) (uri : String) : Option Document :=
  if uri = "" ∨ uri = current.uri then some current else library.get? uri

/-- The target of `reference` as seen from `current`, where `path` is the place it is used at. -/
def Library.resolve (library : Library) (current : Document) (reference path : String) :
    Except Failure Target :=
  let (uri, fragment) := splitReference reference
  match library.owner? current uri with
  | none => .error (.unknownDocument reference path)
  | some owner =>
    match owner.fragment? fragment with
    | none => .error (.unresolvedReference reference path)
    | some value =>
      (Node.read (owner.schemaPath fragment) value).map fun node ↦ {
        owner := owner
        node := node
        title := node.title.getD (Pointer.lastStep fragment)
        isExternal := owner.uri ≠ current.uri
        key := owner.uri ++ fragment
        path := owner.schemaPath fragment }

end SchemaBindings
