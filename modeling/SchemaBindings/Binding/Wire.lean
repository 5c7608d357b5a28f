import SchemaBindings.Binding.Flatten
import SchemaBindings.Binding.Request
import SchemaBindings.Binding.WireNames
import SchemaBindings.Output.Basic

/-!
# Wire types

The type that carries a schema's values on the wire. Objects with properties have container
classes of their own; everything else is carried by types of the runtime. Names are claimed for
the same schemas as on the native side, so both sides speak of the same types.
-/

namespace SchemaBindings

structure WireType where
  name : String
  output : Output

namespace WireType

def named (name : String) : WireType := ⟨name, {}⟩

/-- The type as another document refers to it. -/
def external (type : WireType) (owner : String) : WireType :=
  { type with output := { externals := addNew type.output.externals owner } }

def absorb (output : Output) (type : WireType) (path : String) : Except Failure Output :=
  (output.merge type.output path).toExcept

end WireType

namespace Wire

open Code

abbrev Mapper := Document → Node → Request → Mapping WireType

def constant (cx : Context) (value : Json) (minimum : Option Double) (path : String) :
    Mapping WireType :=
  match constantType? value with
  | some type => pure (.named (cx.runtime.wirePrimitive type minimum))
  | none => Mapping.fail (.undeterminedType path)

def enumeration (cx : Context) (document : Document) (label : String) (request : Request) :
    Mapping WireType := do
  let stem ← request.claim cx.library document .enumeration label
  pure (.named (cx.runtime.wireEnum (Names.qualified document.title stem)))

def array (cx : Context) (map : Mapper) (document : Document) (items : Items) (label : String)
    (request : Request) : Mapping WireType := do
  let item ← Mapping.ofExcept (items.element request.path)
  let element ← map document item (request.element item label)
  let output ← Mapping.ofExcept (WireType.absorb {} element request.path)
  pure ⟨cx.runtime.wireArray element.name, output⟩

/-- What the properties mapped so far amount to. -/
structure Gathered where
  output : Output
  members : List Member

def addMember (map : Mapper) (document : Document) (stem : String) (request : Request)
    (soFar : Gathered) (entry : String × Node) : Mapping Gathered := do
  let (name, node) := entry
  let request := request.property stem name
  let mapped ← Mapping.attempt (map document node request)
  match mapped with
  | .ok value =>
    let output ← Mapping.ofExcept (WireType.absorb soFar.output value request.path)
    pure ⟨output, soFar.members ++ [⟨name, value.name⟩]⟩
  | .error failure =>
    if failure.isRecoverable then
      Mapping.warn
      pure { soFar with output := soFar.output.addDiagnostic (.ofFailure failure) }
    else Mapping.fail failure

def object (cx : Context) (map : Mapper) (document : Document) (object : ObjectSchema)
    (label : String) (request : Request) : Mapping WireType := do
  let stem ← request.claim cx.library document .object label
  let gathered ← object.members.foldlM (addMember map document stem request) ⟨{}, []⟩
  let container : Container :=
    ⟨Names.containerClass stem, cx.runtime.jsonType "Container", gathered.members⟩
  let output ← Mapping.ofExcept (gathered.output.insert .containers container.name
    [.container container] request.path).toExcept
  pure ⟨cx.runtime.wireContainer document.title stem, output⟩

def dictionary (cx : Context) (map : Mapper) (document : Document) (additional : Node)
    (label : String) (request : Request) : Mapping WireType := do
  let stem ← request.claim cx.library document .map label
  let value ← map document additional (request.mapValue stem)
  let output ← Mapping.ofExcept (WireType.absorb {} value request.path)
  pure ⟨cx.runtime.wireMap, output⟩

def reference (cx : Context) (map : Mapper) (document : Document) (reference : String)
    (request : Request) : Mapping WireType := do
  let target ← Mapping.ofExcept (cx.library.resolve document reference request.path)
  let mapped ← Mapping.following target.key request.path
    (map target.owner target.node (.ofTarget target))
  pure (if target.isExternal then mapped.external target.owner.title else mapped)

def objectLike (cx : Context) (map : Mapper) (document : Document) (schema : ObjectSchema)
    (label : String) (request : Request) : Mapping WireType :=
  if schema.hasProperties then object cx map document schema label request
  else match schema.additional with
    | some additional => dictionary cx map document additional label request
    | none =>
      if schema.pattern then Mapping.fail (.unsupportedPattern request.path)
      else pure (.named cx.runtime.wireString)

/-- Maps a schema, given how compositions are merged and how other schemas are mapped. -/
def step (cx : Context) (merge : Document → Node → List Node → String → Mapping Node)
    (map : Mapper) (document : Document) (node : Node) (request : Request) : Mapping WireType :=
  match node.kind with
  | .reference target => reference cx map document target request
  | kind => do
    let label ← Mapping.ofExcept (request.label node)
    match kind with
    | .constant value minimum => constant cx value minimum request.path
    | .enumeration _ => enumeration cx document label request
    | .array items => array cx map document items label request
    | .allOf members => do
      let merged ← merge document node members request.path
      map document (.mk (node.title.or (some label)) merged.description merged.kind) request
    | .object schema => objectLike cx map document schema label request
    | .primitive type minimum => pure (.named (cx.runtime.wirePrimitive type minimum))
    | .oneOf _ => Mapping.fail (.unsupportedUnion request.path)
    | .anyOf _ => Mapping.fail (.unsupportedUnion request.path)
    | .reference _ => Mapping.fail (.undeterminedType request.path)
    | .unconstrained => Mapping.fail (.undeterminedType request.path)

/-- The wire type of a schema, with a budget for nested mappings. -/
def map (cx : Context) : Nat → Mapper
  | 0, _, _, _ => Mapping.exhausted
  | budget + 1, document, node, request =>
    step cx (mergeAllOf cx.library budget) (map cx budget) document node request

end Wire

end SchemaBindings
