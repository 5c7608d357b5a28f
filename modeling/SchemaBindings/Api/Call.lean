import SchemaBindings.Api.Emission

/-!
# Functions that call

The function of a plain method and the getter and setter of a property. Each sets its arguments
in a parameter object, calls through the runtime, and on success copies the result out.
-/

namespace SchemaBindings

open Code Emission

namespace Call

/-- Adds the prototype and the body of a function, both under the method's comment. -/
def addFunction (m : MethodPlace) (signature : Signature) (body : Lines) : Emission Unit := do
  insert .implementations signature.name [m.comment, .routine ⟨signature, body⟩] m.path

def addPrototype (m : MethodPlace) (signature : Signature) : Emission Unit :=
  insert .prototypes signature.name [m.comment, .prototype signature] m.path

def outParameters : Option ResultValue → List Parameter
  | some result => if result.isSuccess then [] else [result.outParameter]
  | none => []

/-- What a successful call does with its result. -/
def useResult (runtime : Runtime) : Option ResultValue → Lines
  | some result =>
    if result.isSuccess then
      line (s!"status = (jsonResult.Value() == true) ? {runtime.statusOk} : " ++
        s!"{runtime.statusNotSupported};")
    else result.unmarshal runtime
  | none => []

def plainSignature (m : MethodPlace) (arguments : List Argument) (result : Option ResultValue) :
    Signature :=
  ⟨"uint32_t", m.moduleName ++ "_" ++ m.methodName,
    arguments.map Argument.parameter ++ outParameters result⟩

def plain (mappers : Mappers) (runtime : Runtime) (m : MethodPlace) : Emission Unit := do
  let arguments ← mapParams mappers m 0 m.method.params
  let result ← mapResult mappers m
  let signature := plainSignature m arguments result
  addPrototype m signature
  let wire := match result with
    | some result => result.type.wire
    | none => runtime.wireMap
  let metrics ← metricsJob runtime m
  addFunction m signature (withTransport runtime m (
    line "JsonObject jsonParameters;" ++
    arguments.flatMap (Argument.marshal runtime) ++
    blank ++
    lines [
      s!"{wire} jsonResult;",
      "status = transport->Invoke(method, jsonParameters, jsonResult);"] ++
    block s!"if (status == {runtime.statusOk})" (
      logCall runtime runtime.logInfo s!"\"{m.rpcName} is successfully invoked\"" ++
      useResult runtime result ++
      metrics)))

def getterSignature (m : MethodPlace) (arguments : List Argument) (result : ResultValue) :
    Signature :=
  ⟨"uint32_t", m.moduleName ++ "_Get" ++ m.methodName,
    arguments.map Argument.parameter ++ [result.outParameter]⟩

/-- The lines of a getter that ask for the value; parameters are sent only if there are any. -/
def askValue (runtime : Runtime) (arguments : List Argument) : Lines :=
  let get := s!"uint32_t status = {runtime.sdkNamespace}::Properties::Get"
  if arguments.isEmpty then blank ++ line (get ++ "(method, jsonResult);")
  else
    line "JsonObject jsonParameters;" ++
    arguments.flatMap (Argument.marshal runtime) ++
    blank ++
    line (get ++ "(method, jsonParameters, jsonResult);")

def getter (runtime : Runtime) (m : MethodPlace) (arguments : List Argument)
    (result : ResultValue) : Emission Unit := do
  let signature := getterSignature m arguments result
  addPrototype m signature
  let metrics ← metricsJob runtime m
  addFunction m signature (
    lines [
      s!"const string method = _T(\"{m.rpcName}\");",
      s!"{result.type.wire} jsonResult;"] ++
    askValue runtime arguments ++
    block s!"if (status == {runtime.statusOk})" (result.unmarshal runtime ++ metrics) ++
    line "return status;")

/-- The argument of a setter that carries the new value. -/
def newValue (result : ResultValue) : Argument := ⟨"value", true, result.type⟩

def setterSignature (m : MethodPlace) (arguments : List Argument) (result : ResultValue) :
    Signature :=
  ⟨"uint32_t", m.moduleName ++ "_Set" ++ m.methodName,
    arguments.map Argument.parameter ++ [(newValue result).parameter]⟩

def setter (runtime : Runtime) (m : MethodPlace) (arguments : List Argument)
    (result : ResultValue) : Emission Unit := do
  let signature := setterSignature m arguments result
  addPrototype m signature
  let metrics ← metricsJob runtime m
  addFunction m signature (
    lines [
      s!"const string method = _T(\"{m.rpcName}\");",
      "JsonObject jsonParameters;"] ++
    (arguments ++ [newValue result]).flatMap (Argument.marshal runtime) ++
    blank ++
    line s!"uint32_t status = {runtime.sdkNamespace}::Properties::Set(method, jsonParameters);" ++
    block s!"if (status == {runtime.statusOk})" (
      logCall runtime runtime.logInfo s!"\"{m.rpcName} is successfully set\"" ++
      metrics) ++
    line "return status;")

end Call

end SchemaBindings
