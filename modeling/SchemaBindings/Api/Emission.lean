import SchemaBindings.Api.Argument

/-!
# Emitting methods

What is common to the functions of all methods: the names derived from a method, the mapping of
its parameters and its result into the output under construction, and pieces of code that every
body needs. A parameter whose type cannot be determined is left out of the signature.
-/

namespace SchemaBindings

open Code

/-- A method at its position in the document. -/
structure MethodPlace where
  document : Document
  position : Nat
  method : Method

namespace MethodPlace

def moduleName (m : MethodPlace) : String := Text.capitalize m.document.title

def methodName (m : MethodPlace) : String := Text.capitalize m.method.name

def rpcName (m : MethodPlace) : String := Names.rpcMethod m.document.title m.method.name

def path (m : MethodPlace) : String := s!"{m.document.title}#/methods/{m.position}"

def comment (m : MethodPlace) : Piece := .comment (Code.comment m.method.name m.method.summary)

def commentWith (m : MethodPlace) (text : String) : Piece :=
  .comment (Code.comment m.method.name (some text))

end MethodPlace

/-- Mapping while an output is being put together. After a failure the output is of no use. -/
abbrev Emission (α : Type) := StateT Output Mapping α

/-- How schemas are mapped to types on both sides. -/
structure Mappers where
  native : Native.Mapper
  wire : Wire.Mapper

def Mappers.ofBudget (cx : Context) (budget : Nat) : Mappers :=
  ⟨Native.map cx budget, Wire.map cx budget⟩

namespace Emission

def fail {α : Type} (failure : Failure) : Emission α := StateT.lift (Mapping.fail failure)

def ofExcept {α : Type} (result : Except Failure α) : Emission α :=
  StateT.lift (Mapping.ofExcept result)

def insert (place : Section) (symbol : String) (pieces : List Piece) (path : String) :
    Emission Unit := do
  let output ← get
  set (← ofExcept (output.insert place symbol pieces path).toExcept)

def addDiagnostic (diagnostic : Diagnostic) : Emission Unit :=
  modify (·.addDiagnostic diagnostic)

/-- Maps a schema on both sides and takes in what it needs. -/
def mapValue (mappers : Mappers) (document : Document) (node : Node) (request : Request) :
    Emission NativeType := do
  let native ← StateT.lift (mappers.native document node request)
  let wire ← StateT.lift (mappers.wire document node request)
  let output ← get
  let output ← ofExcept (NativeType.absorb output native request.path)
  let output ← ofExcept (WireType.absorb output wire request.path)
  set output
  pure native

/-- The value of an emission or its failure, with the output as it was before a failure. -/
def attempt {α : Type} (emission : Emission α) : Emission (Except Failure α) :=
  fun output ↦ do
    match ← Mapping.attempt (emission output) with
    | .ok (value, output) => pure (.ok value, output)
    | .error failure => pure (.error failure, output)

/-- The arguments of the parameters, counted from `position`. -/
def mapParams (mappers : Mappers) (m : MethodPlace) (position : Nat) :
    List Param → Emission (List Argument)
  | [] => pure []
  | param :: rest => do
    let path := s!"{m.path}/params/{position}/schema"
    let request : Request := ⟨param.name, m.methodName, path⟩
    match ← attempt (mapValue mappers m.document param.schema request) with
    | .ok type =>
      let others ← mapParams mappers m (position + 1) rest
      pure (⟨param.name, param.required, type⟩ :: others)
    | .error failure =>
      if failure.isRecoverable then
        StateT.lift Mapping.warn
        addDiagnostic (.ofFailure failure)
        mapParams mappers m (position + 1) rest
      else fail failure

def mapResult (mappers : Mappers) (m : MethodPlace) : Emission (Option ResultValue) :=
  match m.method.result with
  | none => pure none
  | some result => do
    let request : Request := ⟨result.name, m.methodName, s!"{m.path}/result/schema"⟩
    let type ← mapValue mappers m.document result.schema request
    pure (some ⟨result.name, type, ResultValue.isSuccessSchema result.name result.schema⟩)

/-- The result that a property or an event cannot do without. -/
def requireResult (mappers : Mappers) (m : MethodPlace) : Emission ResultValue := do
  match ← mapResult mappers m with
  | some result => pure result
  | none => fail (.undeterminedType (m.path ++ "/result"))

def logCall (runtime : Runtime) (level message : String) : Lines :=
  let sdk := runtime.sdkNamespace
  line (s!"{level}({sdk}::Logger::Category::OpenRPC, {sdk}::Logger::Module<{sdk}::Accessor>(), " ++
    message ++ ");")

def transport (runtime : Runtime) : Lines :=
  let sdk := runtime.sdkNamespace
  line (s!"{sdk}::Transport<{runtime.jsonNamespace}::IElement>* transport = " ++
    s!"{sdk}::Accessor::Instance().GetTransport();")

/-- A body that works through the transport, if there is one, and returns the status. -/
def withTransport (runtime : Runtime) (m : MethodPlace) (body : Lines) : Lines :=
  lines [
    s!"const string method = _T(\"{m.rpcName}\");",
    s!"uint32_t status = {runtime.statusUnavailable};"] ++
  transport runtime ++
  ifElse "transport != nullptr" body
    (logCall runtime runtime.logError "\"Error in getting Transport err = %d\", status") ++
  blank ++
  line "return status;"

/-- The report of a successful call to the metrics module, for methods that ask for it. -/
def metricsJob (runtime : Runtime) (m : MethodPlace) : Emission Lines := do
  if m.method.hasTag "calls-metrics" then
    let report := Text.capitalize runtime.metricsModule ++ "_" ++ m.methodName
    let dispatcher := report ++ "Dispatcher"
    modify fun output ↦ { output with usesMetrics := true }
    insert .implementations dispatcher [.dispatcher dispatcher report] m.path
    let core := runtime.coreNamespace
    let job := s!"{core}::ProxyType<{core}::IDispatch>"
    let worker := s!"{core}::ProxyType<{runtime.sdkNamespace}::Worker>"
    pure (lines [
      s!"{job} job = {job}({worker}::Create({dispatcher}, nullptr));",
      s!"{core}::IWorkerPool::Instance().Submit(job);"])
  else pure []

end Emission

end SchemaBindings
