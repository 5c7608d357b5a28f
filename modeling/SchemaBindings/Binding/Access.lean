import SchemaBindings.Binding.WireNames
import SchemaBindings.Code.Accessors

/-!
# Access to values behind handles

A handle points to a proxy of the wire type. Objects, arrays and maps are copied into a fresh
proxy when they are read, texts into a fresh wire text, and all other values are passed as they
are.
-/

namespace SchemaBindings

open Code

namespace Access

def boundHandle (runtime : Runtime) (container : String) : Lines :=
  let proxy := runtime.proxy container
  lines [
    "ASSERT(handle != NULL);",
    s!"{proxy}* var = static_cast<{proxy}*>(handle);",
    "ASSERT(var->IsValid());"]

def handleParameter (handle : String) : Parameter := ⟨handle, "handle"⟩

/-- Copies a wire value into a fresh proxy or text called `name`, and tells what to return. -/
def copyOut (runtime : Runtime) (name : String) (value : ValueType) (source : String) :
    Lines × String :=
  let proxy := runtime.proxy value.wire
  if value.shape.isHandle then
    (lines [
      s!"{proxy}* {name} = new {proxy}();",
      s!"*{name} = {proxy}::Create();",
      s!"*(*{name}) = {source};"], name)
  else if value.shape = .string then
    (lines [
      s!"{value.wire}* {name} = new {value.wire}();",
      s!"*{name} = {source};"], name)
  else ([], s!"{source}.Value()")

def returnValue (runtime : Runtime) (name : String) (value : ValueType) (source : String) :
    Lines :=
  let (copied, result) := copyOut runtime name value source
  copied ++ line s!"return (static_cast<{value.native}>({result}));"

/-- The wire `element` made from the argument `value`. -/
def elementOfArgument (runtime : Runtime) (value : ValueType) : Lines :=
  if value.shape.isHandle then
    line s!"{value.wire}& element = *(*(static_cast<{runtime.proxy value.wire}*>(value)));"
  else if value.shape = .string then
    line s!"{value.wire}& element = *(static_cast<{value.wire}*>(value));"
  else line s!"{value.wire} element(value);"

/-- Creation, reference counting and validity of a handle. -/
def lifecycle (runtime : Runtime) (handle container : String) : AccessorGroup :=
  let proxy := runtime.proxy container
  let self := [handleParameter handle]
  { subject := .lifecycle handle
    routines := [
      ⟨⟨handle, handle ++ "_Create", []⟩, lines [
        s!"{proxy}* type = new {proxy}();",
        s!"*type = {proxy}::Create();",
        s!"return (static_cast<{handle}>(type));"]⟩,
      ⟨⟨"void", handle ++ "_Addref", self⟩,
        boundHandle runtime container ++ blank ++ line "var->AddRef();"⟩,
      ⟨⟨"void", handle ++ "_Release", self⟩, lines [
        "ASSERT(handle != NULL);",
        s!"{proxy}* var = static_cast<{proxy}*>(handle);",
        "var->Release();"] ++
        block "if (var->IsValid() != true)" (line "delete var;")⟩,
      ⟨⟨"bool", handle ++ "_IsValid", self⟩,
        boundHandle runtime container ++ line "return var->IsValid();"⟩] }

structure PropertyOptions where
  /-- Without a setter. -/
  isReadOnly : Bool
  /-- With functions to ask for a value and to clear it. -/
  isOptional : Bool

def assignProperty (runtime : Runtime) (member : String) (value : ValueType) : Lines :=
  let proxy := runtime.proxy value.wire
  if value.shape.isHandle then
    lines [
      s!"{proxy}* object = static_cast<{proxy}*>(value);",
      s!"(*var)->{member} = *(*object);"]
  else if value.shape = .string then
    lines [
      s!"{value.wire}* element = static_cast<{value.wire}*>(value);",
      s!"(*var)->{member} = *element;"]
  else line s!"(*var)->{member} = value;"

/-- Access to a property of the object `object`. -/
def property (runtime : Runtime) (object container name : String) (value : ValueType)
    (options : PropertyOptions) : AccessorGroup :=
  let member := Text.capitalize name
  let self := handleParameter (object ++ "Handle")
  let bound := boundHandle runtime container ++ blank
  let getter : Routine := ⟨⟨value.native, s!"{object}_Get_{member}", [self]⟩,
    bound ++ returnValue runtime "element" value s!"(*var)->{member}"⟩
  let setter : Routine := ⟨⟨"void", s!"{object}_Set_{member}", [self, ⟨value.native, "value"⟩]⟩,
    bound ++ assignProperty runtime member value⟩
  let presence : List Routine := [
    ⟨⟨"bool", s!"{object}_Has_{member}", [self]⟩,
      bound ++ line s!"return ((*var)->{member}.IsSet());"⟩,
    ⟨⟨"void", s!"{object}_Clear_{member}", [self]⟩,
      bound ++ line s!"((*var)->{member}.Clear());"⟩]
  { subject := .property name value
    routines := getter :: (if options.isReadOnly then [] else [setter]) ++
      if options.isOptional then presence else [] }

/-- Access to the elements of an array: of a property of the object behind the handle, or of the
array behind the handle itself. `property` and `member` name the property and its member. -/
def elements (runtime : Runtime) (base handle container : String)
    (property : Option (String × String)) (element : ValueType) : AccessorGroup :=
  let target := match property with
    | some (_, member) => s!"(*var)->{member}"
    | none => "(*(*var))"
  let self := handleParameter handle
  let bound := boundHandle runtime container ++ blank
  { subject := .elements (property.map (·.1)) element
    routines := [
      ⟨⟨"uint32_t", base ++ "_Size", [self]⟩, bound ++ line s!"return ({target}.Length());"⟩,
      ⟨⟨element.native, base ++ "_Get", [self, ⟨"uint32_t", "index"⟩]⟩,
        bound ++
        block s!"if (index >= {target}.Length())"
          (line s!"{runtime.boundsCheck}(index, {target}.Length());") ++
        blank ++
        returnValue runtime (if element.shape.isHandle then "object" else "element") element
          s!"{target}.Get(index)"⟩,
      ⟨⟨"void", base ++ "_Add", [self, ⟨element.native, "value"⟩]⟩,
        bound ++ elementOfArgument runtime element ++ blank ++ line s!"{target}.Add(element);"⟩,
      ⟨⟨"void", base ++ "_Clear", [self]⟩, bound ++ line s!"{target}.Clear();"⟩] }

/-- Copies the map entry at `key` to where `value` points. -/
def findEntry (runtime : Runtime) (value : ValueType) : Lines :=
  let proxy := runtime.proxy value.wire
  let native := value.native
  let wire := value.wire
  match value.shape with
  | .object | .map => lines [
      "string objectStr;",
      "(*var)->Get(key).Object().ToString(objectStr);",
      s!"{wire} objectMap;",
      "objectMap.FromString(objectStr);",
      "",
      s!"{proxy}* element = new {proxy}();",
      s!"*element = {proxy}::Create();",
      "*(*element) = objectMap;",
      s!"*value = static_cast<{native}>(element);"]
  | .array => lines [
      s!"{proxy}* element = new {proxy}();",
      s!"*element = {proxy}::Create();",
      "*(*element) = (*var)->Get(key).Array();",
      s!"*value = static_cast<{native}>(element);"]
  | .string => lines [
      s!"{wire}* element = new {wire}();",
      "*element = (*var)->Get(key).String();",
      s!"*value = static_cast<{native}>(element);"]
  | .enumeration => lines [
      s!"{wire} element;",
      "element.FromString((*var)->Get(key).String());",
      "*value = element.Value();"]
  | .boolean => line "*value = (*var)->Get(key).Boolean();"
  | .float => line s!"*value = static_cast<{native}>((*var)->Get(key).Float());"
  | .integer => line s!"*value = static_cast<{native}>((*var)->Get(key).Number());"

/-- Access to the entries of the map `base`. A key that is not found leaves the value alone. -/
def entries (runtime : Runtime) (base container : String) (value : ValueType) : AccessorGroup :=
  let self := handleParameter (base ++ "Handle")
  let key : Parameter := ⟨"const char*", "key"⟩
  let bound := boundHandle runtime container
  { subject := .entries value
    routines := [
      ⟨⟨"uint32_t", base ++ "_KeysCount", [self]⟩,
        bound ++
        lines [
          s!"{container}::Iterator elements = (*var)->Variants();",
          "uint32_t count = 0;"] ++
        block "while (elements.Next())" (line "count++;") ++
        line "return (count);"⟩,
      ⟨⟨"void", base ++ "_AddKey", [self, key, ⟨value.native, "value"⟩]⟩,
        bound ++ blank ++ elementOfArgument runtime value ++ line "(*var)->Set(key, &element);"⟩,
      ⟨⟨"void", base ++ "_RemoveKey", [self, key]⟩,
        bound ++ blank ++ line "(*var)->Remove(key);"⟩,
      ⟨⟨"bool", base ++ "_FindKey", [self, key, ⟨value.native ++ "*", "value"⟩]⟩,
        bound ++ blank ++ line "bool found = false;" ++
        block "if ((value != nullptr) && ((*var)->HasLabel(key) == true))"
          (findEntry runtime value ++ line "found = true;") ++
        line "return found;"⟩] }

end Access

end SchemaBindings
