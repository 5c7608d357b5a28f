import SchemaBindings.Failure
import SchemaBindings.Schema.Node

/-!
# Array elements

The one schema that stands for all elements of an array. A list of item schemas has one only if
their coarse shapes agree, and then it is the first.
-/

namespace SchemaBindings

namespace Json

/-- The type of a value, whole numbers and doubles apart. -/
inductive Category where
  | null
  | boolean
  | integer
  | number
  | string
  | array
  | object
  deriving DecidableEq, Repr

def category : Json → Category
  | null => .null
  | bool _ => .boolean
  | number (.whole _) => .integer
  | number (.double _) => .number
  | string _ => .string
  | array _ => .array
  | object _ => .object

end Json

/-- What item schemas have to agree in. -/
inductive ItemShape where
  | primitive (type : Primitive)
  | enumeration
  | constant (type : Json.Category)
  | object
  | array
  | reference (target : String)
  | composite
  deriving DecidableEq, Repr

def Node.itemShape (node : Node) : ItemShape :=
  match node.kind with
  | .primitive type _ => .primitive type
  | .enumeration _ => .enumeration
  | .constant value _ => .constant value.category
  | .object _ => .object
  | .array _ => .array
  | .reference target => .reference target
  | .allOf _ => .composite
  | .oneOf _ => .composite
  | .anyOf _ => .composite
  | .unconstrained => .composite

def Items.element (items : Items) (path : String) : Except Failure Node :=
  match items with
  | .single item => .ok item
  | .tuple [] => .error (.undeterminedType path)
  | .tuple (first :: rest) =>
    if rest.all fun item ↦ item.itemShape = first.itemShape then .ok first
    else .error (.heterogeneousItems path)

end SchemaBindings
