import SchemaBindings.Names
import SchemaBindings.Schema.Node
import SchemaBindings.Settings

/-!
# Wire type names

The types of the runtime that carry values on the wire. Whole numbers are unsigned only where
the schema bounds them below by zero or more.
-/

namespace SchemaBindings

def isUnsigned (minimum : Option Double) : Bool := minimum.any Double.isNonnegative

/-- The type of a constant, which only texts, truth values and numbers have. -/
def constantType? : Json → Option Primitive
  | .string _ => some .string
  | .bool _ => some .boolean
  | .number (.whole _) => some .integer
  | .number (.double _) => some .number
  | _ => none

namespace Runtime

def jsonType (runtime : Runtime) (wrapper : String) : String :=
  runtime.jsonNamespace ++ "::" ++ wrapper

def wireString (runtime : Runtime) : String := runtime.sdkNamespace ++ "::JSON::String"

def wireInteger (runtime : Runtime) (minimum : Option Double) : String :=
  runtime.jsonType (if isUnsigned minimum then "DecUInt32" else "DecSInt32")

def wirePrimitive (runtime : Runtime) (type : Primitive) (minimum : Option Double) : String :=
  match type with
  | .string => runtime.wireString
  | .number => runtime.jsonType "Float"
  | .integer => runtime.wireInteger minimum
  | .boolean => runtime.jsonType "Boolean"

def wireEnum (runtime : Runtime) (typeName : String) : String :=
  runtime.jsonType "EnumType" ++ "<" ++ typeName ++ ">"

def wireArray (runtime : Runtime) (element : String) : String :=
  runtime.jsonType "ArrayType" ++ "<" ++ element ++ ">"

def wireMap (runtime : Runtime) : String := runtime.jsonType "VariantContainer"

/-- The container class of the object with this stem, in the namespace of its document. -/
def wireContainer (runtime : Runtime) (title stem : String) : String :=
  runtime.sdkNamespace ++ "::" ++ Text.capitalize title ++ "::" ++ Names.containerClass stem

/-- Smart pointer that a handle points to. -/
def proxy (runtime : Runtime) (container : String) : String :=
  runtime.coreNamespace ++ "::ProxyType<" ++ container ++ ">"

end Runtime

end SchemaBindings
