import SchemaBindings.Api.MethodClass
import SchemaBindings.Api.Pull

/-!
# Output of methods

The output of one method, by its class. A method whose signature cannot be determined is left
out, and its output is then nothing but a notice.
-/

namespace SchemaBindings

open Emission

namespace MethodPlace

def property (mappers : Mappers) (runtime : Runtime) (m : MethodPlace)
    (isSettable notifies : Bool) : Emission Unit := do
  let arguments ← mapParams mappers m 0 m.method.params
  let result ← requireResult mappers m
  Call.getter runtime m arguments result
  if isSettable then Call.setter runtime m arguments result
  if notifies then Notification.emit runtime m .propertyChanged arguments result

def event (mappers : Mappers) (runtime : Runtime) (m : MethodPlace) : Emission Unit := do
  let arguments ← mapParams mappers m 0 m.method.params
  let result ← requireResult mappers m
  Notification.emit runtime m .event arguments result

def notSupported (m : MethodPlace) : Diagnostic :=
  ⟨m.path, s!"temporal-set method '{m.method.name}' is not supported"⟩

def body (mappers : Mappers) (runtime : Runtime) (m : MethodPlace) : Emission Unit :=
  match MethodClass.of m.method with
  | .property isSettable notifies => m.property mappers runtime isSettable notifies
  | .event => m.event mappers runtime
  | .polymorphicPull => Pull.emit mappers runtime m
  | .polymorphicReducer => Call.plain mappers runtime { m with method := m.method.reduced }
  | .temporalSet => do
    StateT.lift Mapping.warn
    addDiagnostic m.notSupported
  | .plain => Call.plain mappers runtime m

/-- Everything generated for the method. -/
def emit (mappers : Mappers) (runtime : Runtime) (m : MethodPlace) : Mapping Output := do
  match ← Mapping.attempt ((m.body mappers runtime).run {}) with
  | .ok ((), output) => pure output
  | .error failure =>
    if failure.isRecoverable then
      Mapping.warn
      pure (.ofDiagnostic (.ofFailure failure))
    else Mapping.fail failure

end MethodPlace

end SchemaBindings
