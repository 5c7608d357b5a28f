import SchemaBindings.Api.Call

/-!
# Notifications

Callbacks for events and for changes of properties: the type of the callback, the trampoline that
decodes a notification for it, and the functions that register and unregister it.
-/

namespace SchemaBindings

open Code Emission

/-- Where callbacks are registered. -/
inductive NotificationKind where
  | propertyChanged
  | event
  deriving DecidableEq, Repr

namespace Notification

def callbackName (m : MethodPlace) : NotificationKind → String
  | .propertyChanged => "On" ++ m.moduleName ++ m.methodName ++ "Changed"
  | .event => m.moduleName ++ m.methodName ++ "Callback"

/-- The start of a call to the interface that callbacks are registered with. -/
def interface (runtime : Runtime) : NotificationKind → String
  | .propertyChanged => runtime.sdkNamespace ++ "::Properties::"
  | .event => runtime.sdkNamespace ++ "::Event::Instance()."

def userData : Parameter := ⟨"const void*", "userData"⟩

def callback (m : MethodPlace) (kind : NotificationKind) (arguments : List Argument)
    (result : ResultValue) : Callback :=
  ⟨callbackName m kind, userData :: arguments.map Argument.parameter ++ [result.parameter]⟩

def trampolineName (m : MethodPlace) : String := m.moduleName ++ m.methodName ++ "InnerCallback"

def trampoline (runtime : Runtime) (m : MethodPlace) (kind : NotificationKind)
    (arguments : List Argument) (result : ResultValue) : Trampoline :=
  { name := trampolineName m
    callback := callbackName m kind
    carrier := runtime.proxy result.type.wire
    envelope := runtime.proxy runtime.wireMap
    iterator := runtime.wireMap ++ "::Iterator"
    locals := arguments.map Argument.localVariable
    branches := arguments.map (Argument.contextBranch runtime)
    delivery := result.delivery.1
    arguments := "userData" :: arguments.map Argument.passed ++ [result.delivery.2] }

def registerSignature (m : MethodPlace) (kind : NotificationKind) (arguments : List Argument) :
    Signature :=
  ⟨"uint32_t", m.moduleName ++ "_Register_" ++ m.methodName ++ "Update",
    arguments.map Argument.parameter ++ [⟨callbackName m kind, "userCB"⟩, userData]⟩

def unregisterSignature (m : MethodPlace) (kind : NotificationKind) : Signature :=
  ⟨"uint32_t", m.moduleName ++ "_Unregister_" ++ m.methodName ++ "Update",
    [⟨callbackName m kind, "userCB"⟩]⟩

def unsubscribe (interface : String) (m : MethodPlace) : Lines :=
  line (s!"return {interface}Unsubscribe(_T(\"{m.rpcName}\"), " ++
    "reinterpret_cast<const void*>(userCB));")

def register (runtime : Runtime) (m : MethodPlace) (kind : NotificationKind)
    (arguments : List Argument) (result : ResultValue) : Lines :=
  lines [
    s!"const string eventName = _T(\"{m.rpcName}\");",
    s!"uint32_t status = {runtime.statusOk};"] ++
  block "if (userCB != nullptr)" (
    line "JsonObject jsonParameters;" ++
    arguments.flatMap (Argument.marshal runtime) ++
    blank ++
    line (s!"status = {interface runtime kind}Subscribe<{result.type.wire}>(eventName, " ++
      s!"jsonParameters, {trampolineName m}, reinterpret_cast<const void*>(userCB), userData);")) ++
  line "return status;"

def emit (runtime : Runtime) (m : MethodPlace) (kind : NotificationKind)
    (arguments : List Argument) (result : ResultValue) : Emission Unit := do
  let registering := registerSignature m kind arguments
  let unregistering := unregisterSignature m kind
  let comment := m.commentWith "Listen to updates"
  insert .prototypes (callbackName m kind) [.callback (callback m kind arguments result)] m.path
  insert .prototypes registering.name
    [comment, .prototype registering, .prototype unregistering] m.path
  insert .implementations (trampolineName m)
    [.trampoline (trampoline runtime m kind arguments result)] m.path
  insert .implementations registering.name [
    comment,
    .routine ⟨registering, register runtime m kind arguments result⟩,
    .routine ⟨unregistering, unsubscribe (interface runtime kind) m⟩] m.path

end Notification

end SchemaBindings
