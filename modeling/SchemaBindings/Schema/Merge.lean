import SchemaBindings.Distinct
import SchemaBindings.Failure
import SchemaBindings.Json.Pointer
import SchemaBindings.Json.Printer
import SchemaBindings.Schema.Node

/-!
# Merging schemas

Two schemas that hold at once are merged into one. A schema without constraints changes nothing,
objects are merged property by property, enumerations are united, and scalar keywords have to
agree. Everything else is a conflict, reported at the place of the merge.
-/

namespace SchemaBindings

inductive Conflict where
  | types (left right : Primitive)
  | minimums (left right : Double)
  | constants (left right : Json)
  | tuples
  | references (left right : String)
  | kinds (left right : String)

def Conflict.message : Conflict → String
  | types left right => s!"type '{left.keyword}' conflicts with type '{right.keyword}'"
  | minimums left right =>
    "minimum " ++ NumberLayout.plain.write left ++ " conflicts with minimum " ++
      NumberLayout.plain.write right
  | constants left right => "const " ++ left.compact ++ " conflicts with const " ++ right.compact
  | tuples => "tuple items differ"
  | references left right => s!"$ref '{left}' conflicts with $ref '{right}'"
  | kinds left right => s!"{left} cannot be merged with {right}"

def Conflict.at (conflict : Conflict) (path : String) : Failure :=
  .conflictingMerge conflict.message path

/-- How a kind is called in the message of a conflict. -/
def Kind.describe : Kind → String
  | .reference target => s!"$ref '{target}'"
  | .constant .. => "const"
  | .enumeration _ => "enum"
  | .object _ => "object"
  | .array _ => "array"
  | .allOf _ => "allOf"
  | .oneOf _ => "oneOf"
  | .anyOf _ => "anyOf"
  | .primitive type _ => s!"type '{type.keyword}'"
  | .unconstrained => "unconstrained schema"

def mergeMinimums (path : String) : Option Double → Option Double → Except Failure (Option Double)
  | some a, some b => if a.same b then .ok (some a) else .error ((Conflict.minimums a b).at path)
  | some a, none => .ok (some a)
  | none, b => .ok b

def mergePrimitives (path : String) (left right : Primitive)
    (leftMinimum rightMinimum : Option Double) : Except Failure Kind :=
  if left = right then (mergeMinimums path leftMinimum rightMinimum).map (.primitive left)
  else .error ((Conflict.types left right).at path)

def mergeRequired : Option (List String) → Option (List String) → Option (List String)
  | some a, some b => some (addAllNew a b)
  | some a, none => some a
  | none, b => b

/-- Two kinds of which neither is an object nor both are arrays of one item schema. -/
def mergeScalars (path : String) : Kind → Kind → Except Failure Kind
  | .unconstrained, right => .ok right
  | left, .unconstrained => .ok left
  | .enumeration a, .enumeration b => .ok (.enumeration (addAllNew a b))
  | .enumeration a, .primitive .string _ => .ok (.enumeration a)
  | .primitive .string _, .enumeration b => .ok (.enumeration b)
  | .primitive a m, .primitive b n => mergePrimitives path a b m n
  | .constant a m, .constant b _ =>
    if a.same b then .ok (.constant a m) else .error ((Conflict.constants a b).at path)
  | .array a, .array b => if a.same b then .ok (.array a) else .error (Conflict.tuples.at path)
  | .reference a, .reference b =>
    if a = b then .ok (.reference a) else .error ((Conflict.references a b).at path)
  | left, right =>
    if left.isUnion || right.isUnion then .error (.unsupportedUnion path)
    else .error ((Conflict.kinds left.describe right.describe).at path)

mutual

def Node.merge (path : String) (left : Node) : Node → Except Failure Node
  | .mk title description kind =>
    if left.same (.mk title description kind) then .ok left
    else (Kind.merge path left.kind kind).map
      (.mk (left.title.or title) (left.description.or description))
  termination_by structural x => x

def Kind.merge (path : String) (left : Kind) : Kind → Except Failure Kind
  | .object right =>
    match left with
    | .object left => (ObjectSchema.merge path left right).map .object
    | left => mergeScalars path left (.object right)
  | .array (.single right) =>
    match left with
    | .array (.single left) =>
      (Node.merge (Pointer.child path "items") left right).map fun item ↦ .array (.single item)
    | left => mergeScalars path left (.array (.single right))
  | right => mergeScalars path left right
  termination_by structural x => x

def ObjectSchema.merge (path : String) (left : ObjectSchema) :
    ObjectSchema → Except Failure ObjectSchema
  | .mk properties required additional pattern => do
    let properties ← mergeMembers (Pointer.child path "properties") left.properties properties
    let additional ←
      mergeAdditional (Pointer.child path "additionalProperties") left.additional additional
    pure (.mk properties (mergeRequired left.required required) additional
      (left.pattern || pattern))
  termination_by structural x => x

def mergeMembers (path : String) (left : Option (List (String × Node))) :
    Option (List (String × Node)) → Except Failure (Option (List (String × Node)))
  | some right => (mergeProperties path (left.getD []) right).map some
  | none => .ok left
  termination_by structural x => x

def mergeAdditional (path : String) (left : Option Node) :
    Option Node → Except Failure (Option Node)
  | some right =>
    match left with
    | some left => (Node.merge path left right).map some
    | none => .ok (some right)
  | none => .ok left
  termination_by structural x => x

/-- The properties of the first object, each merged with the second's, and the second's others. -/
def mergeProperties (path : String) (left : List (String × Node)) :
    List (String × Node) → Except Failure (List (String × Node))
  | [] => .ok left
  | (name, node) :: rest =>
    match Table.get? name left with
    | some existing =>
      match Node.merge (Pointer.child path name) existing node with
      | .ok merged => mergeProperties path (Table.put name merged left) rest
      | .error failure => .error failure
    | none => mergeProperties path (Table.put name node left) rest
  termination_by structural x => x

end

/-- An object is merged with another one part by part, and with anything else as a whole. -/
theorem Kind.merge_object (path : String) (left : Kind) (right : ObjectSchema) :
    (∃ schema, left = .object schema ∧
      Kind.merge path left (.object right) = (ObjectSchema.merge path schema right).map .object) ∨
    Kind.merge path left (.object right) = mergeScalars path left (.object right) := by
  cases left with
  | object schema => exact .inl ⟨schema, rfl, rfl⟩
  | _ => exact .inr rfl

/-- Arrays of one item schema each are merged by their items, and one with anything else as a
whole. -/
theorem Kind.merge_single (path : String) (left : Kind) (right : Node) :
    (∃ item, left = .array (.single item) ∧ Kind.merge path left (.array (.single right)) =
      (Node.merge (Pointer.child path "items") item right).map fun item ↦ .array (.single item)) ∨
    Kind.merge path left (.array (.single right)) =
      mergeScalars path left (.array (.single right)) := by
  cases left with
  | array items =>
    cases items with
    | single item => exact .inl ⟨item, rfl, rfl⟩
    | tuple items => exact .inr rfl
  | _ => exact .inr rfl

/-- All kinds merged from the left, starting without constraints. -/
def mergeKinds (path : String) (kinds : List Kind) : Except Failure Kind :=
  kinds.foldlM (Kind.merge path) .unconstrained

/-- The kind without its list of required names. -/
def Kind.withoutRequired : Kind → Kind
  | .object (.mk properties _ additional pattern) =>
    .object (.mk properties none additional pattern)
  | kind => kind

end SchemaBindings
