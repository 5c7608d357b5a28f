import SchemaBindings.Schema.Node
import SchemaBindings.Text.Pieces

/-!
# References inside schemas

The references anywhere under a schema, in document order, and the same schema with its local
references qualified by the document that owns it. Both walk over a schema in the same way, so
qualifying changes each listed reference in its place.
-/

namespace SchemaBindings

mutual

def Node.references : Node → List String
  | .mk _ _ kind => kind.references
  termination_by structural x => x

def Kind.references : Kind → List String
  | .reference target => [target]
  | .object (.mk properties _ additional _) =>
    (match properties with
      | some properties => propertyReferences properties
      | none => []) ++
    (match additional with
      | some additional => additional.references
      | none => [])
  | .array (.single item) => item.references
  | .array (.tuple items) => listReferences items
  | .allOf members => listReferences members
  | .oneOf members => listReferences members
  | .anyOf members => listReferences members
  | .constant .. => []
  | .enumeration _ => []
  | .primitive .. => []
  | .unconstrained => []
  termination_by structural x => x

def listReferences : List Node → List String
  | [] => []
  | node :: rest => node.references ++ listReferences rest
  termination_by structural x => x

def propertyReferences : List (String × Node) → List String
  | [] => []
  | (_, node) :: rest => node.references ++ propertyReferences rest
  termination_by structural x => x

end

def isLocal (reference : String) : Bool := Text.startsWith "#" reference

/-- A local reference as it is written outside the document with the given URI. -/
def qualifyReference (uri reference : String) : String :=
  if isLocal reference then uri ++ reference else reference

mutual

def Node.qualify (uri : String) : Node → Node
  | .mk title description kind => .mk title description (kind.qualify uri)
  termination_by structural x => x

def Kind.qualify (uri : String) : Kind → Kind
  | .reference target => .reference (qualifyReference uri target)
  | .object (.mk properties required additional pattern) =>
    .object (.mk
      (match properties with
        | some properties => some (qualifyProperties uri properties)
        | none => none)
      required
      (match additional with
        | some additional => some (additional.qualify uri)
        | none => none)
      pattern)
  | .array (.single item) => .array (.single (item.qualify uri))
  | .array (.tuple items) => .array (.tuple (qualifyList uri items))
  | .allOf members => .allOf (qualifyList uri members)
  | .oneOf members => .oneOf (qualifyList uri members)
  | .anyOf members => .anyOf (qualifyList uri members)
  | .constant value minimum => .constant value minimum
  | .enumeration values => .enumeration values
  | .primitive type minimum => .primitive type minimum
  | .unconstrained => .unconstrained
  termination_by structural x => x

def qualifyList (uri : String) : List Node → List Node
  | [] => []
  | node :: rest => node.qualify uri :: qualifyList uri rest
  termination_by structural x => x

def qualifyProperties (uri : String) : List (String × Node) → List (String × Node)
  | [] => []
  | (name, node) :: rest => (name, node.qualify uri) :: qualifyProperties uri rest
  termination_by structural x => x

end

end SchemaBindings
