import SchemaBindings.Api.Notification

/-!
# Pulled results

A method whose result is pulled from the user: one function pushes a result, and a callback is
registered for requests. Both types are definitions named after the method.
-/

namespace SchemaBindings

open Code Emission

namespace Pull

/-- The type of the definition that is called after the method with an ending. -/
def federated (mappers : Mappers) (m : MethodPlace) (ending : String) : Emission NativeType :=
  let name := m.methodName ++ ending
  mapValue mappers m.document (.ofKind (.reference (m.document.definitionRef name)))
    ⟨name, "", m.path⟩

def pushSignature (m : MethodPlace) (response : NativeType) : Signature :=
  ⟨"uint32_t", m.moduleName ++ "_Push" ++ m.methodName, [⟨response.name, "result"⟩]⟩

def push (runtime : Runtime) (m : MethodPlace) (response : NativeType) (metrics : Lines) : Lines :=
  let proxy := runtime.proxy response.wire
  withTransport runtime m (
    lines [
      s!"{response.wire} jsonParameters = *(*(static_cast<{proxy}*>(result)));",
      s!"{runtime.jsonNamespace}::Boolean jsonResult;",
      "status = transport->Invoke(method, jsonParameters, jsonResult);"] ++
    block s!"if (status == {runtime.statusOk})" (
      logCall runtime runtime.logInfo
        s!"\"{m.rpcName} is successfully pushed with status as %d\", jsonResult.Value()" ++
      metrics))

def callbackName (m : MethodPlace) : String :=
  "OnPull" ++ m.moduleName ++ m.methodName ++ "Callback"

def callback (m : MethodPlace) (request : NativeType) : Callback :=
  ⟨callbackName m, [Notification.userData, ⟨request.name, "request"⟩]⟩

def registerSignature (m : MethodPlace) : Signature :=
  ⟨"uint32_t", m.moduleName ++ "_Register_" ++ m.methodName ++ "Pull",
    [⟨callbackName m, "userCB"⟩, Notification.userData]⟩

def unregisterSignature (m : MethodPlace) : Signature :=
  ⟨"uint32_t", m.moduleName ++ "_Unregister_" ++ m.methodName ++ "Pull",
    [⟨callbackName m, "userCB"⟩]⟩

/-- The static function that hands a request on to the user's callback. -/
def trampoline (runtime : Runtime) (m : MethodPlace) (request : NativeType) : Routine :=
  let proxy := runtime.proxy request.wire
  let name := callbackName m
  ⟨⟨"void", Notification.trampolineName m,
      [⟨"const void*", "userCB"⟩, Notification.userData, ⟨"void*", "response"⟩]⟩,
    lines [
      s!"{proxy}& jsonResponse = *(static_cast<{proxy}*>(response));",
      "",
      "ASSERT(jsonResponse.IsValid() == true);"] ++
    block "if (jsonResponse.IsValid() == true)" (lines [
      s!"{name} callback = reinterpret_cast<{name}>(userCB);",
      s!"callback(userData, static_cast<{request.name}>(response));"])⟩

def register (runtime : Runtime) (m : MethodPlace) (request : NativeType) : Lines :=
  lines [
    s!"const string eventName = _T(\"{m.rpcName}\");",
    s!"uint32_t status = {runtime.statusOk};"] ++
  block "if (userCB != nullptr)" (
    line (s!"status = {runtime.sdkNamespace}::Event::Instance().Subscribe<{request.wire}>(" ++
      s!"eventName, {Notification.trampolineName m}, " ++
      "reinterpret_cast<const void*>(userCB), userData);")) ++
  line "return status;"

def missingResult (m : MethodPlace) : Diagnostic :=
  ⟨m.path, s!"polymorphic-pull method '{m.method.name}' has no 'result' parameter"⟩

def emitFunctions (runtime : Runtime) (m : MethodPlace) (response request : NativeType) :
    Emission Unit := do
  Call.addPrototype m (pushSignature m response)
  let metrics ← metricsJob runtime m
  Call.addFunction m (pushSignature m response) (push runtime m response metrics)
  insert .prototypes (callbackName m) [.callback (callback m request)] m.path
  let comment := m.commentWith "Listen to pull requests"
  insert .prototypes (registerSignature m).name
    [comment, .prototype (registerSignature m), .prototype (unregisterSignature m)] m.path
  insert .implementations (Notification.trampolineName m)
    [.hidden (trampoline runtime m request)] m.path
  insert .implementations (registerSignature m).name [
    comment,
    .routine ⟨registerSignature m, register runtime m request⟩,
    .routine ⟨unregisterSignature m,
      Notification.unsubscribe (Notification.interface runtime .event) m⟩] m.path

def emit (mappers : Mappers) (runtime : Runtime) (m : MethodPlace) : Emission Unit :=
  match m.method.param? "result" with
  | none => do
    StateT.lift Mapping.warn
    addDiagnostic (missingResult m)
  | some _ => do
    let response ← federated mappers m "FederatedResponse"
    let request ← federated mappers m "FederatedRequest"
    emitFunctions runtime m response request

end Pull

end SchemaBindings
