import SchemaBindings.Schema.Document

/-!
# Method classes

The tags of a method decide which functions are generated for it; the first tag that is known
counts. A reducer is a plain method whose parameters are gathered into one list of objects.
-/

namespace SchemaBindings

inductive MethodClass where
  | property (isSettable notifies : Bool)
  | event
  | polymorphicPull
  | polymorphicReducer
  | temporalSet
  | plain
  deriving DecidableEq, Repr

namespace MethodClass

/-- Classes in the order in which their tags are looked for. -/
def byTag : List (String × MethodClass) := [
  ("property", property true true),
  ("property:readonly", property false true),
  ("property:immutable", property false false),
  ("event", event),
  ("polymorphic-pull", polymorphicPull),
  ("polymorphic-reducer", polymorphicReducer),
  ("temporal-set", temporalSet)]

def of (method : Method) : MethodClass :=
  match byTag.find? fun entry ↦ method.hasTag entry.1 with
  | some (_, found) => found
  | none => plain

end MethodClass

namespace Method

/-- The object of which a reducer takes a list: one property for each parameter. -/
def reducedItem (method : Method) : Node :=
  .mk (some (method.name ++ "Param")) none (.object (.mk
    (some (Table.ofList (method.params.map fun p ↦ (p.name, p.schema))))
    (some ((method.params.filter (·.required)).map (·.name)))
    none false))

def reduced (method : Method) : Method :=
  { method with params := [{
      name := method.name ++ "Params"
      required := true
      summary := none
      schema := .ofKind (.array (.single method.reducedItem)) }] }

end Method

end SchemaBindings
