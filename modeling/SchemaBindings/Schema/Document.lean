import SchemaBindings.Json.Reader
import SchemaBindings.Schema.Reading

/-!
# Documents

A document is a library of named schemas or an API with methods. It is known by its URI and
called by its title. Its definitions stand under one of two roots, and the content it was read
from is kept, since references may point anywhere into it.
-/

namespace SchemaBindings

/-- Whether a document only defines schemas or describes an API. -/
inductive Family where
  | schema
  | api
  deriving DecidableEq, Repr

structure Param where
  name : String
  required : Bool
  summary : Option String
  schema : Node

structure MethodResult where
  name : String
  schema : Node

structure Method where
  name : String
  summary : Option String
  params : List Param
  result : Option MethodResult
  tags : List String

namespace Method

def hasTag (method : Method) (tag : String) : Bool := method.tags.contains tag

def param? (method : Method) (name : String) : Option Param :=
  method.params.find? (·.name = name)

end Method

structure Document where
  uri : String
  title : String
  family : Family
  definitionsRoot : String
  definitions : List (String × Node)
  methods : List Method
  content : Json

namespace Document

def invalid (detail path : String) : Failure := .invalidSchema detail path

def schemaOr (path : String) (value : Json) : Except Failure Node :=
  match value.get? "schema" with
  | some schema => Node.read path schema
  | none => .ok (.ofKind .unconstrained)

def text? (value : Json) (key : String) : Option String := (value.get? key).bind Json.asString?

/-- The parameters of a method, counted from `position`. -/
def readParams (path : String) (position : Nat) : List Json → Except Failure (List Param)
  | [] => .ok []
  | value :: rest =>
    match text? value "name" with
    | none => .error (invalid "param has no name" path)
    | some name => do
      let schema ← schemaOr s!"{path}/params/{position}/schema" value
      let params ← readParams path (position + 1) rest
      let required := ((value.get? "required").bind Json.asBool?).getD false
      pure (⟨name, required, text? value "summary", schema⟩ :: params)

def readResult (path name : String) (value : Json) : Except Failure (Option MethodResult) :=
  match value.get? "result" with
  | none => .ok none
  | some result => do
    let schema ← schemaOr s!"{path}/result/schema" result
    pure (some ⟨(text? result "name").getD name, schema⟩)

/-- The elements of a list under a key; there are none under a key that holds no list. -/
def elements (value : Json) (key : String) : List Json :=
  match value.get? key with
  | some (.array items) => items
  | _ => []

def tags (value : Json) : List String :=
  (elements value "tags").filterMap (text? · "name")

def readMethod (path : String) (value : Json) : Except Failure Method :=
  match text? value "name" with
  | none => .error (invalid "method has no name" path)
  | some name => do
    let params ← readParams path 0 (elements value "params")
    let result ← readResult path name value
    pure ⟨name, text? value "summary", params, result, tags value⟩

def readMethods (title : String) (position : Nat) : List Json → Except Failure (List Method)
  | [] => .ok []
  | value :: rest => do
    let method ← readMethod s!"{title}#/methods/{position}" value
    let methods ← readMethods title (position + 1) rest
    pure (method :: methods)

/-- The title of the API, else of the document; a title that is no text hides the other. -/
def title? (content : Json) : Option String :=
  match content.at? "/info/title" with
  | some title => title.asString?
  | none => text? content "title"

def familyOf (content : Json) : Family :=
  if (content.get? "openrpc").isSome || (content.get? "methods").isSome then .api else .schema

/-- The root of the definitions and their values. -/
def rawDefinitions (content : Json) : String × List (String × Json) :=
  match content.get? "definitions" with
  | some (.object definitions) => ("#/definitions", definitions)
  | _ =>
    match content.at? "/components/schemas" with
    | some (.object definitions) => ("#/components/schemas", definitions)
    | _ =>
      match familyOf content with
      | .api => ("#/components/schemas", [])
      | .schema => ("#/definitions", [])

def read (content : Json) : Except Failure Document :=
  match title? content with
  | none => .error (invalid "document has neither info.title nor title" "#")
  | some title => do
    let (root, raw) := rawDefinitions content
    let definitions ← readEntries (title ++ root) raw
    let methods ← readMethods title 0 (elements content "methods")
    pure {
      uri := (text? content "$id").getD title
      title := title
      family := familyOf content
      definitionsRoot := root
      definitions := definitions
      methods := methods
      content := content }

/-- Why a text is no document: it is no JSON at all, or what it says is refused. -/
inductive TextFailure where
  | malformed
  | refused (failure : Failure)

def readText (text : String) : Except TextFailure Document :=
  match Json.read? (some Json.depthLimit) text with
  | none => .error .malformed
  | some content => (read content).mapError .refused

/-- Local reference to a definition. -/
def definitionRef (document : Document) (name : String) : String :=
  Pointer.child document.definitionsRoot name

/-- The value at a fragment, with or without its number sign. -/
def fragment? (document : Document) (fragment : String) : Option Json :=
  match fragment.toList with
  | '#' :: pointer => document.content.at? (String.ofList pointer)
  | _ => document.content.at? fragment

/-- Where a fragment is, as failures and symbol owners name it. -/
def schemaPath (document : Document) (fragment : String) : String :=
  document.title ++ fragment

end Document

end SchemaBindings
