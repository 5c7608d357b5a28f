import SchemaBindings.Failure
import SchemaBindings.LogLevel
import SchemaBindings.Text.Pieces

/-!
# Settings

The names of the runtime that generated code is written against, the choice of documents, and
the other settings of a run. Settings are valid when every runtime name can stand in code.
-/

namespace SchemaBindings

structure Runtime where
  sdkNamespace : String := "FireboltSDK"
  coreNamespace : String := "WPEFramework::Core"
  jsonNamespace : String := "WPEFramework::Core::JSON"
  stringHandle : String := "FireboltTypes_StringHandle"
  typesHeader : String := "Firebolt.h"
  runtimeHeader : String := "FireboltSDK.h"
  enumConversionNamespace : String := "WPEFramework"
  statusOk : String := "FireboltSDKErrorNone"
  statusUnavailable : String := "FireboltSDKErrorUnavailable"
  statusNotSupported : String := "FireboltSDKErrorNotSupported"
  boundsCheck : String := "FIREBOLT_BOUNDS_CHECK_FAILED"
  logInfo : String := "FIREBOLT_LOG_INFO"
  logError : String := "FIREBOLT_LOG_ERROR"
  metricsModule : String := "Metrics"

/-- Titles to generate, all if none are given, and titles never to generate. -/
structure Selection where
  included : List String := []
  excluded : List String := []

def Selection.allows (selection : Selection) (title : String) : Bool :=
  !selection.excluded.contains title &&
    (selection.included.isEmpty || selection.included.contains title)

structure Settings where
  runtime : Runtime := {}
  selection : Selection := {}
  pruneUnused : Bool := true
  logLevel : String := "info"
  headerText : Option String := none

namespace Settings

def isIdentifierStart (c : Char) : Bool := c.isAlpha || c == '_'

def isIdentifier : List Char → Bool
  | [] => false
  | c :: rest => isIdentifierStart c && rest.all fun d ↦ d.isAlphanum || d == '_'

/-- The parts of a text between double colons. -/
def scopes : List Char → List (List Char)
  | ':' :: ':' :: rest => [] :: scopes rest
  | c :: rest => match scopes rest with
    | [] => [[c]]
    | part :: parts => (c :: part) :: parts
  | [] => [[]]

/-- Identifiers joined by double colons. -/
def isScopedName (text : String) : Bool := (scopes text.toList).all isIdentifier

/-- The runtime names that stand in code as they are, under the names of their settings. -/
def codeNames (runtime : Runtime) : List (String × String) := [
  ("runtime.sdk_namespace", runtime.sdkNamespace),
  ("runtime.core_namespace", runtime.coreNamespace),
  ("runtime.json_namespace", runtime.jsonNamespace),
  ("runtime.string_handle", runtime.stringHandle),
  ("runtime.enum_conversion_namespace", runtime.enumConversionNamespace),
  ("runtime.status_ok", runtime.statusOk),
  ("runtime.status_unavailable", runtime.statusUnavailable),
  ("runtime.status_not_supported", runtime.statusNotSupported),
  ("runtime.bounds_check", runtime.boundsCheck),
  ("runtime.log_info", runtime.logInfo),
  ("runtime.log_error", runtime.logError),
  ("runtime.metrics_module", runtime.metricsModule)]

def nameFault? (key value : String) : Option String :=
  if value = "" then some s!"{key} cannot be empty"
  else if isScopedName value then none
  else some s!"{key} is not a valid identifier: {value}"

def fault? (settings : Settings) : Option String :=
  match (codeNames settings.runtime).findSome? fun (key, value) ↦ nameFault? key value with
  | some fault => some fault
  | none =>
    if settings.runtime.typesHeader = "" ∨ settings.runtime.runtimeHeader = "" then
      some "runtime header names cannot be empty"
    else match settings.selection.included.find? settings.selection.excluded.contains with
      | some title => some s!"module '{title}' is both included and excluded"
      | none => match LogLevel.parse settings.logLevel with
        | .ok _ => none
        | .error _ => some s!"invalid log level: {settings.logLevel}"

/-- The first fault of the settings, if they have one. -/
def validate (settings : Settings) : Except Failure Unit :=
  match settings.fault? with
  | some fault => .error (.settings fault)
  | none => .ok ()

end Settings

end SchemaBindings
