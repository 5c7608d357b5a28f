import SchemaBindings.Binding.Session

/-!
# Type requests

What a type is asked for under: a name, the stem of the schema around it and the place of the
schema. A type without a requested name is named after the title of its schema.
-/

namespace SchemaBindings

structure Request where
  name : String
  scope : String
  path : String

namespace Request

def label (request : Request) (node : Node) : Except Failure String :=
  if request.name ≠ "" then .ok request.name
  else match node.givenTitle? with
    | some title => .ok title
    | none => .error (.undeterminedType request.path)

/-- The request for the target of a reference, which is named and placed by itself. -/
def ofTarget (target : Target) : Request := ⟨target.title, "", target.path⟩

/-- The name that an element is mapped under: its own title, else the label of the array. -/
def elementLabel (item : Node) (label : String) : String :=
  if item.isReference then label else item.givenTitle?.getD label

def element (request : Request) (item : Node) (label : String) : Request :=
  ⟨elementLabel item label, request.scope, Pointer.child request.path "items"⟩

/-- The request for the values of a map with the given stem. -/
def mapValue (request : Request) (stem : String) : Request :=
  ⟨"value", stem, Pointer.child request.path "additionalProperties"⟩

/-- The request for a property of an object with the given stem. -/
def property (request : Request) (stem name : String) : Request :=
  ⟨name, stem, Pointer.child (Pointer.child request.path "properties") name⟩

def claim (request : Request) (library : Library) (document : Document) (kind : SymbolKind)
    (label : String) : Mapping String :=
  Mapping.claim library document request.path kind (Names.nested request.scope label)

end Request

end SchemaBindings
