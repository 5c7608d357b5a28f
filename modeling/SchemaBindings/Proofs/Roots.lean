import SchemaBindings.Output.Generate
import SchemaBindings.Proofs.Visits

/-!
# Where a run starts

The schemas that the generation of a document maps: its definitions, unless they are unions or
unused, and the parameters and results of its methods. What else is generated for a method are
functions, and types of callbacks, whose names are made from the names of the document and of the
method.
-/

namespace SchemaBindings

namespace MethodPlace

/-- A method of the document at its position. -/
def Of (document : Document) (m : MethodPlace) : Prop :=
  m.document = document ∧ document.methods[m.position]? = some m.method

/-- The parameters as they are mapped, unless the method has no signature that is. -/
def params? (m : MethodPlace) : Option (List Param) :=
  match MethodClass.of m.method with
  | .polymorphicReducer => some m.method.reduced.params
  | .polymorphicPull => none
  | .temporalSet => none
  | _ => some m.method.params

/-- Schemas that are mapped for the method. -/
inductive Schemas (m : MethodPlace) : Visit → Prop
  | param {params : List Param} {position : Nat} {param : Param} (hparams : m.params? = some params)
      (h : params[position]? = some param) :
      Schemas m ⟨m.document, param.schema, param.name,
        s!"{m.path}/params/{position}/schema"⟩
  | result {params : List Param} {result : MethodResult} (hparams : m.params? = some params)
      (h : m.method.result = some result) :
      Schemas m ⟨m.document, result.schema, result.name, s!"{m.path}/result/schema"⟩
  | federated {ending : String} (hclass : MethodClass.of m.method = .polymorphicPull)
      (h : ending ∈ ["FederatedResponse", "FederatedRequest"]) :
      Schemas m ⟨m.document,
        .ofKind (.reference (m.document.definitionRef (m.methodName ++ ending))),
        m.methodName ++ ending, m.path⟩

theorem Schemas.document_eq {m : MethodPlace} {v : Visit} (h : m.Schemas v) :
    v.document = m.document := by
  cases h <;> rfl

/-- The stem that is around the types of the method. Definitions that are called after it are asked
for under their own names. -/
def scope (m : MethodPlace) : String :=
  match MethodClass.of m.method with
  | .polymorphicPull => ""
  | _ => m.methodName

theorem scope_of_pull {m : MethodPlace} (h : MethodClass.of m.method = .polymorphicPull) :
    m.scope = "" := by
  unfold scope
  rw [h]

theorem scope_eq {m : MethodPlace} {params : List Param} (h : m.params? = some params) :
    m.scope = m.methodName := by
  unfold params? at h
  unfold scope
  cases hclass : MethodClass.of m.method with
  | polymorphicPull =>
    rw [hclass] at h
    cases h
  | _ => rfl

/-- Names of functions and of types of callbacks that may be generated for the method. -/
def functions (runtime : Runtime) (m : MethodPlace) : List String := [
  m.moduleName ++ "_" ++ m.methodName,
  m.moduleName ++ "_Get" ++ m.methodName,
  m.moduleName ++ "_Set" ++ m.methodName,
  m.moduleName ++ "_Push" ++ m.methodName,
  m.moduleName ++ "_Register_" ++ m.methodName ++ "Update",
  m.moduleName ++ "_Register_" ++ m.methodName ++ "Pull",
  Notification.callbackName m .propertyChanged,
  Notification.callbackName m .event,
  Notification.trampolineName m,
  Pull.callbackName m,
  Text.capitalize runtime.metricsModule ++ "_" ++ m.methodName ++ "Dispatcher"]

end MethodPlace

namespace Generate

/-- Schemas that are mapped for a document. -/
inductive Root (library : Library) (settings : Settings) (document : Document) : Visit → Prop
  | definition {name : String} (h : name ∈ standalone library settings document) :
      Root library settings document
        ⟨document, .ofKind (.reference (document.definitionRef name)), name,
          document.schemaPath (document.definitionRef name)⟩
  | method {m : MethodPlace} {v : Visit} (hm : m.Of document) (h : m.Schemas v) :
      Root library settings document v

theorem Root.document_eq {library : Library} {settings : Settings} {document : Document} {v : Visit}
    (h : Root library settings document v) : v.document = document := by
  cases h with
  | definition _ => rfl
  | method hm h => exact h.document_eq.trans hm.1

/-- Functions that may be generated for the methods of a document. -/
def IsFunction (runtime : Runtime) (document : Document) (symbol : String) : Prop :=
  ∃ m : MethodPlace, m.Of document ∧ symbol ∈ m.functions runtime

end Generate

end SchemaBindings
