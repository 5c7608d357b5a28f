import SchemaBindings.Settings
import SchemaBindings.Toml.Value

/-!
# Settings in configuration values

Settings read from a table, and the records in them from tables, or from lists in the order of
their keys. A key that is missing leaves its default, a key that is unknown is ignored, and a
value of the wrong type makes the whole table unusable.
-/

namespace SchemaBindings

def Runtime.keys : List String := [
  "sdk_namespace", "core_namespace", "json_namespace", "string_handle", "types_header",
  "runtime_header", "enum_conversion_namespace", "status_ok", "status_unavailable",
  "status_not_supported", "bounds_check", "log_info", "log_error", "metrics_module"]

def Runtime.ofToml? (value : Toml) : Option Runtime := do
  let fields ← value.record? Runtime.keys
  let name (key default : String) : Option String :=
    Toml.field? Toml.asString? fields key default
  let base : Runtime := {}
  pure {
    sdkNamespace := ← name "sdk_namespace" base.sdkNamespace
    coreNamespace := ← name "core_namespace" base.coreNamespace
    jsonNamespace := ← name "json_namespace" base.jsonNamespace
    stringHandle := ← name "string_handle" base.stringHandle
    typesHeader := ← name "types_header" base.typesHeader
    runtimeHeader := ← name "runtime_header" base.runtimeHeader
    enumConversionNamespace :=
      ← name "enum_conversion_namespace" base.enumConversionNamespace
    statusOk := ← name "status_ok" base.statusOk
    statusUnavailable := ← name "status_unavailable" base.statusUnavailable
    statusNotSupported := ← name "status_not_supported" base.statusNotSupported
    boundsCheck := ← name "bounds_check" base.boundsCheck
    logInfo := ← name "log_info" base.logInfo
    logError := ← name "log_error" base.logError
    metricsModule := ← name "metrics_module" base.metricsModule }

def Selection.ofToml? (value : Toml) : Option Selection := do
  let fields ← value.record? ["include", "exclude"]
  pure {
    included := ← Toml.field? Toml.asStrings? fields "include" []
    excluded := ← Toml.field? Toml.asStrings? fields "exclude" [] }

def Settings.keys : List String :=
  ["runtime", "modules", "prune_unused_definitions", "log_level", "header_text"]

def Settings.ofToml? (value : Toml) : Option Settings := do
  let fields ← value.record? Settings.keys
  let base : Settings := {}
  pure {
    runtime := ← Toml.field? Runtime.ofToml? fields "runtime" {}
    selection := ← Toml.field? Selection.ofToml? fields "modules" {}
    pruneUnused := ← Toml.field? Toml.asBool? fields "prune_unused_definitions" base.pruneUnused
    logLevel := ← Toml.field? Toml.asString? fields "log_level" base.logLevel
    headerText := ← Toml.field? (fun v ↦ v.asString?.map some) fields "header_text" none }

end SchemaBindings
