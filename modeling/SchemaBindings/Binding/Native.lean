import SchemaBindings.Binding.Access
import SchemaBindings.Binding.Flatten
import SchemaBindings.Binding.Request
import SchemaBindings.Output.Basic

/-!
# Native types

The C type that represents a schema, with all that has to be declared for it. Texts, numbers and
truth values are passed by value or as the text handle of the runtime, enumerations by value, and
objects, arrays and maps as handles with accessors. A property whose type cannot be determined is
left out of its object.
-/

namespace SchemaBindings

structure NativeType where
  name : String
  shape : Shape
  /-- Wire type of the same value. -/
  wire : String
  /-- The name that the type was generated under. -/
  label : String
  output : Output

namespace NativeType

def valueType (type : NativeType) : ValueType := ⟨type.name, type.wire, type.shape⟩

def ofString (runtime : Runtime) (label : String) : NativeType :=
  ⟨runtime.stringHandle, .string, runtime.wireString, label, {}⟩

def ofPrimitive (runtime : Runtime) (type : Primitive) (minimum : Option Double)
    (label : String) : NativeType :=
  let wire := runtime.wirePrimitive type minimum
  match type with
  | .string => ofString runtime label
  | .number => ⟨"float", .float, wire, label, {}⟩
  | .integer => ⟨if isUnsigned minimum then "uint32_t" else "int32_t", .integer, wire, label, {}⟩
  | .boolean => ⟨"bool", .boolean, wire, label, {}⟩

/-- The type as another document refers to it: what it consists of is declared by its owner. -/
def external (type : NativeType) (owner : String) : NativeType :=
  { type with output := { externals := addNew type.output.externals owner } }

def absorb (output : Output) (type : NativeType) (path : String) : Except Failure Output :=
  (output.merge type.output path).toExcept

end NativeType

namespace Native

open Code

/-- Adds the declaration and definition of a handle. -/
def addHandle (output : Output) (handle : String) (groups : List AccessorGroup) (path : String) :
    Except Failure Output :=
  ((output.insert .declarations handle [.declared groups] path).andThen
    (·.insert .definitions handle [.defined groups] path)).toExcept

def enumeration (cx : Context) (document : Document) (node : Node) (values : List String)
    (label : String) (request : Request) : Mapping NativeType := do
  let stem ← request.claim cx.library document .enumeration label
  let name := Names.qualified document.title stem
  let e : Enumeration := ⟨name, label, node.description, values⟩
  let output : Output := {
    enums := .single name (.ofPieces [.enumeration e])
    conversions := .single name (.ofPieces [.conversion e]) }
  pure ⟨name, .enumeration, cx.runtime.wireEnum name, label, output⟩

def constant (cx : Context) (value : Json) (minimum : Option Double) (label path : String) :
    Mapping NativeType :=
  match constantType? value with
  | some type => pure (.ofPrimitive cx.runtime type minimum label)
  | none => Mapping.fail (.undeterminedType path)

/-- A mapper of schemas to native types, as the parts of a type are mapped with. -/
abbrev Mapper := Document → Node → Request → Mapping NativeType

def array (cx : Context) (map : Mapper) (document : Document) (items : Items) (label : String)
    (request : Request) : Mapping NativeType := do
  let item ← Mapping.ofExcept (items.element request.path)
  let element ← map document item (request.element item label)
  let stem ← request.claim cx.library document .array
    (if item.isReference then element.label else label)
  let base := Names.qualified document.title stem ++ "Array"
  let handle := base ++ "Handle"
  let container := cx.runtime.wireArray element.wire
  let groups := [
    Access.lifecycle cx.runtime handle container,
    Access.elements cx.runtime base handle container none element.valueType]
  let output ← Mapping.ofExcept (NativeType.absorb {} element request.path)
  let output ← Mapping.ofExcept (addHandle output handle groups request.path)
  pure ⟨handle, .array, container, label, output⟩

/-- The object that a property belongs to. -/
structure Parent where
  base : String
  handle : String
  container : String
  stem : String

/-- The type of a property's value and the access to it. An array that is declared in place has
no handle of its own; its elements are accessed through the object. -/
def property (cx : Context) (map : Mapper) (document : Document) (parent : Parent)
    (isOptional : Bool) (name : String) (node : Node) (request : Request) :
    Mapping (NativeType × AccessorGroup) :=
  match node.kind with
  | .array items => do
    let item ← Mapping.ofExcept (items.element request.path)
    let element ← map document item (request.element item name)
    let member := Text.capitalize name
    pure (element, Access.elements cx.runtime (parent.base ++ "_" ++ member ++ "Array")
      parent.handle parent.container (some (name, member)) element.valueType)
  | kind => do
    let value ← map document node request
    pure (value, Access.property cx.runtime parent.base parent.container name value.valueType
      ⟨kind.isConstant, isOptional⟩)

/-- What the properties mapped so far amount to. -/
structure Gathered where
  output : Output
  groups : List AccessorGroup

def addProperty (cx : Context) (map : Mapper) (document : Document) (parent : Parent)
    (object : ObjectSchema) (request : Request) (soFar : Gathered) (entry : String × Node) :
    Mapping Gathered := do
  let (name, node) := entry
  let request := request.property parent.stem name
  let mapped ← Mapping.attempt
    (property cx map document parent (object.isOptional name) name node request)
  match mapped with
  | .ok (value, group) =>
    let output ← Mapping.ofExcept (NativeType.absorb soFar.output value request.path)
    pure ⟨output, soFar.groups ++ [group]⟩
  | .error failure =>
    if failure.isRecoverable then
      Mapping.warn
      pure { soFar with output := soFar.output.addDiagnostic (.ofFailure failure) }
    else Mapping.fail failure

def object (cx : Context) (map : Mapper) (document : Document) (object : ObjectSchema)
    (label : String) (request : Request) : Mapping NativeType := do
  let stem ← request.claim cx.library document .object label
  let base := Names.qualified document.title stem
  let parent : Parent :=
    ⟨base, base ++ "Handle", cx.runtime.wireContainer document.title stem, stem⟩
  let gathered ← object.members.foldlM
    (addProperty cx map document parent object request)
    ⟨{}, [Access.lifecycle cx.runtime parent.handle parent.container]⟩
  let output ← Mapping.ofExcept
    (addHandle gathered.output parent.handle gathered.groups request.path)
  pure ⟨parent.handle, .object, parent.container, label, output⟩

def dictionary (cx : Context) (map : Mapper) (document : Document) (additional : Node)
    (label : String) (request : Request) : Mapping NativeType := do
  let stem ← request.claim cx.library document .map label
  let base := Names.qualified document.title stem
  let handle := base ++ "Handle"
  let container := cx.runtime.wireMap
  let value ← map document additional (request.mapValue stem)
  let groups := [
    Access.lifecycle cx.runtime handle container,
    Access.entries cx.runtime base container value.valueType]
  let output ← Mapping.ofExcept (NativeType.absorb {} value request.path)
  let output ← Mapping.ofExcept (addHandle output handle groups request.path)
  pure ⟨handle, .map, container, label, output⟩

/-- The target of a reference; one in another document is only referred to. -/
def reference (cx : Context) (map : Mapper) (document : Document) (reference : String)
    (request : Request) : Mapping NativeType := do
  let target ← Mapping.ofExcept (cx.library.resolve document reference request.path)
  let mapped ← Mapping.following target.key request.path
    (map target.owner target.node (.ofTarget target))
  pure (if target.isExternal then mapped.external target.owner.title else mapped)

/-- An object is mapped by its properties, else as a map, else as serialised text. -/
def objectLike (cx : Context) (map : Mapper) (document : Document) (schema : ObjectSchema)
    (label : String) (request : Request) : Mapping NativeType :=
  if schema.hasProperties then object cx map document schema label request
  else match schema.additional with
    | some additional => dictionary cx map document additional label request
    | none =>
      if schema.pattern then Mapping.fail (.unsupportedPattern request.path)
      else pure (.ofString cx.runtime label)

/-- Maps a schema, given how compositions are merged and how other schemas are mapped. -/
def step (cx : Context) (merge : Document → Node → List Node → String → Mapping Node)
    (map : Mapper) (document : Document) (node : Node) (request : Request) :
    Mapping NativeType :=
  match node.kind with
  | .reference target => reference cx map document target request
  | kind => do
    let label ← Mapping.ofExcept (request.label node)
    match kind with
    | .constant value minimum => constant cx value minimum label request.path
    | .enumeration values => enumeration cx document node values label request
    | .array items => array cx map document items label request
    | .allOf members => do
      let merged ← merge document node members request.path
      map document (.mk (node.title.or (some label)) merged.description merged.kind) request
    | .object schema => objectLike cx map document schema label request
    | .primitive type minimum => pure (.ofPrimitive cx.runtime type minimum label)
    | .oneOf _ => Mapping.fail (.unsupportedUnion request.path)
    | .anyOf _ => Mapping.fail (.unsupportedUnion request.path)
    | .reference _ => Mapping.fail (.undeterminedType request.path)
    | .unconstrained => Mapping.fail (.undeterminedType request.path)

/-- The native type of a schema, with a budget for nested mappings. -/
def map (cx : Context) : Nat → Mapper
  | 0, _, _, _ => Mapping.exhausted
  | budget + 1, document, node, request =>
    step cx (mergeAllOf cx.library budget) (map cx budget) document node request

end Native

end SchemaBindings
