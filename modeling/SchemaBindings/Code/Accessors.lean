import SchemaBindings.Code.Routine
import SchemaBindings.Text.Casing

/-!
# Accessor groups

The functions that give access to the value behind a handle come in groups: the life of the
handle, one property, the elements of an array, the entries of a map. A group writes the
prototypes of its functions for the header and their bodies for the implementation.
-/

namespace SchemaBindings

/-- How a value is represented on the native side. -/
inductive Shape where
  | string
  | float
  | integer
  | boolean
  | enumeration
  | object
  | array
  | map
  deriving DecidableEq, Repr

/-- Objects, arrays and maps cross the boundary as handles. -/
def Shape.isHandle : Shape → Bool
  | object => true
  | array => true
  | map => true
  | _ => false

/-- Native and wire type of a value that crosses the boundary. -/
structure ValueType where
  native : String
  wire : String
  shape : Shape
  deriving DecidableEq, Repr

namespace Code

/-- What the functions of a group give access to. -/
inductive Subject where
  | lifecycle (handle : String)
  | property (name : String) (value : ValueType)
  | elements (property : Option String) (element : ValueType)
  | entries (value : ValueType)
  deriving DecidableEq, Repr

structure AccessorGroup where
  subject : Subject
  routines : List Routine
  deriving DecidableEq, Repr

namespace AccessorGroup

def handleType : Subject → String
  | .lifecycle handle => "typedef void* " ++ handle ++ ";\n"
  | _ => ""

def declaration (g : AccessorGroup) : String :=
  handleType g.subject ++ String.join (g.routines.map (·.signature.prototype))

def definition (g : AccessorGroup) : String :=
  String.join (g.routines.map Routine.render)

/-- The property of an object that the group is about. -/
def property? (g : AccessorGroup) : Option String :=
  match g.subject with
  | .property name _ => some name
  | .elements property _ => property
  | _ => none

end AccessorGroup

end Code

end SchemaBindings
