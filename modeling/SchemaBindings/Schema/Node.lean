import SchemaBindings.Json.Value

/-!
# Schemas

One schema is a title, a description and exactly one kind. Two schemas are the same when they
differ at most in the order in which properties are declared and in what does not distinguish
document values.
-/

namespace SchemaBindings

inductive Primitive where
  | string
  | number
  | integer
  | boolean
  deriving DecidableEq, Repr

namespace Primitive

def keyword : Primitive → String
  | string => "string"
  | number => "number"
  | integer => "integer"
  | boolean => "boolean"

def ofKeyword? (keyword : String) : Option Primitive :=
  if keyword = "string" then some string
  else if keyword = "number" then some number
  else if keyword = "integer" then some integer
  else if keyword = "boolean" then some boolean
  else none

end Primitive

mutual

inductive Node where
  | mk (title description : Option String) (kind : Kind)

inductive Kind where
  | reference (target : String)
  | constant (value : Json) (minimum : Option Double)
  | enumeration (values : List String)
  | object (object : ObjectSchema)
  | array (items : Items)
  | allOf (members : List Node)
  | oneOf (members : List Node)
  | anyOf (members : List Node)
  | primitive (type : Primitive) (minimum : Option Double)
  | unconstrained

/-- Without a list of properties or of required names the schema says nothing about them. -/
inductive ObjectSchema where
  | mk (properties : Option (List (String × Node))) (required : Option (List String))
      (additional : Option Node) (pattern : Bool)

inductive Items where
  | single (item : Node)
  | tuple (items : List Node)

end

instance : Inhabited Node := ⟨.mk none none .unconstrained⟩

namespace Node

def title : Node → Option String
  | mk title _ _ => title

def description : Node → Option String
  | mk _ description _ => description

def kind : Node → Kind
  | mk _ _ kind => kind

def ofKind (kind : Kind) : Node := mk none none kind

/-- The title, unless it is missing or empty. -/
def givenTitle? (node : Node) : Option String := node.title.filter (· ≠ "")

@[simp]
theorem title_mk (title description : Option String) (kind : Kind) :
    (mk title description kind).title = title := rfl

@[simp]
theorem description_mk (title description : Option String) (kind : Kind) :
    (mk title description kind).description = description := rfl

@[simp]
theorem kind_mk (title description : Option String) (kind : Kind) :
    (mk title description kind).kind = kind := rfl

end Node

namespace ObjectSchema

def properties : ObjectSchema → Option (List (String × Node))
  | mk properties _ _ _ => properties

def required : ObjectSchema → Option (List String)
  | mk _ required _ _ => required

def additional : ObjectSchema → Option Node
  | mk _ _ additional _ => additional

def pattern : ObjectSchema → Bool
  | mk _ _ _ pattern => pattern

def members (object : ObjectSchema) : List (String × Node) := object.properties.getD []

def hasProperties (object : ObjectSchema) : Bool := !object.members.isEmpty

/-- A property is optional only where a list of required names leaves it out. -/
def isOptional (object : ObjectSchema) (property : String) : Bool :=
  object.required.any fun names ↦ !names.contains property

end ObjectSchema

namespace Kind

def isReference : Kind → Bool
  | reference _ => true
  | _ => false

def isConstant : Kind → Bool
  | constant .. => true
  | _ => false

def isUnion : Kind → Bool
  | oneOf _ => true
  | anyOf _ => true
  | _ => false

end Kind

def Node.isReference (node : Node) : Bool := node.kind.isReference

def sameMinimum : Option Double → Option Double → Bool
  | some a, some b => a.same b
  | none, none => true
  | _, _ => false

mutual

def Node.same : Node → Node → Bool
  | .mk title description kind, other =>
    title == other.title && description == other.description && kind.same other.kind
  termination_by structural x => x

def Kind.same : Kind → Kind → Bool
  | .reference a, .reference b => a == b
  | .constant a m, .constant b n => a.same b && sameMinimum m n
  | .enumeration a, .enumeration b => a == b
  | .object a, .object b => a.same b
  | .array a, .array b => a.same b
  | .allOf a, .allOf b => sameNodes a b
  | .oneOf a, .oneOf b => sameNodes a b
  | .anyOf a, .anyOf b => sameNodes a b
  | .primitive a m, .primitive b n => a == b && sameMinimum m n
  | .unconstrained, .unconstrained => true
  | _, _ => false
  termination_by structural x => x

def ObjectSchema.same : ObjectSchema → ObjectSchema → Bool
  | .mk properties required additional pattern, other =>
    (match properties, other.properties with
      | some a, some b => a.length == b.length && sameProperties a b
      | none, none => true
      | _, _ => false) &&
    required == other.required &&
    (match additional, other.additional with
      | some a, some b => a.same b
      | none, none => true
      | _, _ => false) &&
    pattern == other.pattern
  termination_by structural x => x

def Items.same : Items → Items → Bool
  | .single a, .single b => a.same b
  | .tuple a, .tuple b => sameNodes a b
  | _, _ => false
  termination_by structural x => x

def sameNodes : List Node → List Node → Bool
  | [], [] => true
  | a :: as, b :: bs => a.same b && sameNodes as bs
  | _, _ => false
  termination_by structural x => x

/-- Whether every property has the same schema among the others. -/
def sameProperties : List (String × Node) → List (String × Node) → Bool
  | [], _ => true
  | (name, a) :: rest, others =>
    (match Table.get? name others with
      | some b => a.same b
      | none => false) && sameProperties rest others
  termination_by structural x => x

end

end SchemaBindings
