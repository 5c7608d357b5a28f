import SchemaBindings.Binding.Native
import SchemaBindings.Binding.Wire

/-!
# Arguments and results of methods

How the mapped parameters and the result of a method travel. An optional argument that is passed
by value travels by pointer, so that it can be absent. Arguments are set in a parameter object
under their names, and a result is copied to where the caller's pointer points.
-/

namespace SchemaBindings

open Code

structure Argument where
  name : String
  required : Bool
  type : NativeType

/-- Handles and texts are pointers already. -/
def Shape.isReference (shape : Shape) : Bool := shape.isHandle || shape = .string

namespace Argument

def isByPointer (a : Argument) : Bool := !a.required && !a.type.shape.isReference

def parameter (a : Argument) : Parameter :=
  ⟨if a.isByPointer then a.type.name ++ "*" else a.type.name, a.name⟩

/-- Declares the wire value of the argument under the capitalised name. -/
def wireValue (runtime : Runtime) (a : Argument) : Lines :=
  let member := Text.capitalize a.name
  let wire := a.type.wire
  if a.type.shape.isHandle then
    line s!"{wire}& {member} = *(*(static_cast<{runtime.proxy wire}*>({a.name})));"
  else if a.type.shape = .string then
    line s!"{wire}& {member} = *(static_cast<{wire}*>({a.name}));"
  else if a.isByPointer then line s!"{wire} {member} = *({a.name});"
  else line s!"{wire} {member} = {a.name};"

def marshal (runtime : Runtime) (a : Argument) : Lines :=
  let setting := a.wireValue runtime ++
    line s!"jsonParameters.Set(_T(\"{a.name}\"), &{Text.capitalize a.name});"
  if a.required then setting else block s!"if ({a.name} != nullptr)" setting

/-- The variable that the trampoline decodes the argument into. -/
def localVariable (a : Argument) : Local :=
  { type := a.type.name
    name := a.name
    isHandle := a.type.shape.isReference
    pointer := if a.isByPointer then some (a.name ++ "Ptr") else none }

/-- Steps that decode the argument from a context entry, and the value decoded. -/
def decode (runtime : Runtime) (a : Argument) : Lines × String :=
  let native := a.type.name
  let wire := a.type.wire
  let proxy := runtime.proxy wire
  match a.type.shape with
  | .string => (lines [
      s!"{wire}* {a.name}Value = new {wire}();",
      s!"*{a.name}Value = params.Current().Value().c_str();"],
      s!"static_cast<{native}>({a.name}Value)")
  | .boolean => ([], "params.Current().Boolean()")
  | .float => ([], s!"static_cast<{native}>(params.Current().Float())")
  | .integer => ([], s!"static_cast<{native}>(params.Current().Number())")
  | .enumeration => (lines [
      s!"{wire} {a.name}Value;",
      s!"{a.name}Value.FromString(params.Current().String());"],
      s!"{a.name}Value.Value()")
  | .object | .array | .map => (lines [
      s!"string {a.name}Str;",
      s!"params.Current().ToString({a.name}Str);",
      s!"{proxy}* {a.name}Proxy = new {proxy}();",
      s!"*{a.name}Proxy = {proxy}::Create();",
      s!"(*{a.name}Proxy)->FromString({a.name}Str);"],
      s!"static_cast<{native}>({a.name}Proxy)")

def contextBranch (runtime : Runtime) (a : Argument) : ContextBranch :=
  { key := a.name
    steps := (a.decode runtime).1
    target := a.name
    value := (a.decode runtime).2
    pointer := a.localVariable.pointer }

/-- How the trampoline passes the argument on. -/
def passed (a : Argument) : String := if a.isByPointer then a.name ++ "Ptr" else a.name

end Argument

structure ResultValue where
  name : String
  type : NativeType
  /-- The result only says whether the call succeeded, which the returned status says too. -/
  isSuccess : Bool

namespace ResultValue

def isSuccessSchema (name : String) (schema : Node) : Bool :=
  name == "success" && match schema.kind with
    | .primitive .boolean _ => true
    | .constant .. => true
    | _ => false

/-- The parameter that the caller receives the result through. -/
def outParameter (r : ResultValue) : Parameter := ⟨r.type.name ++ "*", r.name⟩

def parameter (r : ResultValue) : Parameter := ⟨r.type.name, r.name⟩

def unmarshal (runtime : Runtime) (r : ResultValue) : Lines :=
  let native := r.type.name
  let wire := r.type.wire
  let proxy := runtime.proxy wire
  block s!"if ({r.name} != nullptr)" (
    if r.type.shape.isHandle then lines [
      s!"{proxy}* resultPtr = new {proxy}();",
      s!"*resultPtr = {proxy}::Create();",
      "*(*resultPtr) = jsonResult;",
      s!"*{r.name} = static_cast<{native}>(resultPtr);"]
    else if r.type.shape = .string then lines [
      s!"{wire}* resultPtr = new {wire}(jsonResult);",
      s!"*{r.name} = static_cast<{native}>(resultPtr);"]
    else line s!"*{r.name} = jsonResult.Value();")

/-- Lines that ready a received value for the callback, and the argument it is passed as. -/
def delivery (r : ResultValue) : Lines × String :=
  let native := r.type.name
  let wire := r.type.wire
  if r.type.shape.isHandle then ([], s!"static_cast<{native}>(jsonResponse)")
  else if r.type.shape = .string then (lines [
    s!"{wire}* jsonStrResponse = new {wire}();",
    "*jsonStrResponse = *(*jsonResponse);"], s!"static_cast<{native}>(jsonStrResponse)")
  else ([], "(*jsonResponse)->Value()")

end ResultValue

end SchemaBindings
