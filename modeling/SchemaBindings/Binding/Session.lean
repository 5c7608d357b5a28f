import SchemaBindings.Binding.Registry
import SchemaBindings.Settings

/-!
# Sessions

What mapping schemas to types goes on in: the chain of references being followed, innermost
first, the symbol registry, and the number of warnings logged. A mapping ends in a value or in a
failure, and the session goes on after either. It may also not end at all: recursion through
references is bounded by a budget, and a mapping that exhausts it has no result.
-/

namespace SchemaBindings

structure Session where
  chain : List String := []
  registry : Registry := {}
  warnings : Nat := 0

abbrev Mapping (α : Type) := ExceptT Failure (StateT Session Option) α

/-- Documents and runtime names that a mapping works with. -/
structure Context where
  library : Library
  runtime : Runtime

namespace Mapping

variable {α : Type}

/-- The end of the budget. -/
def exhausted : Mapping α := fun _ ↦ none

def fail (failure : Failure) : Mapping α := throw failure

def ofExcept : Except Failure α → Mapping α
  | .ok value => pure value
  | .error failure => fail failure

/-- The value or the failure of a mapping. -/
def attempt (mapping : Mapping α) : Mapping (Except Failure α) :=
  fun session ↦ (mapping session).map fun (result, session) ↦ (.ok result, session)

def warn : Mapping Unit :=
  modify fun session ↦ { session with warnings := session.warnings + 1 }

/-- Puts a key on the chain; one that is on it already closes a cycle. -/
def enter (key path : String) : Mapping Unit := do
  let session ← get
  if session.chain.contains key then
    fail (.cyclicReference (key :: session.chain).reverse path)
  else set { session with chain := key :: session.chain }

def leave : Mapping Unit :=
  modify fun session ↦ { session with chain := session.chain.tail }

/-- Runs a mapping with a key on the chain, and takes the key off again however it ends. -/
def following (key path : String) (body : Mapping α) : Mapping α := do
  enter key path
  let result ← attempt body
  leave
  ofExcept result

/-- The stem of the schema at `path`. -/
def claim (library : Library) (document : Document) (path : String) (kind : SymbolKind)
    (stem : String) : Mapping String :=
  modifyGet fun session ↦
    let (claimed, registry) := session.registry.claim library document path kind stem
    (claimed, { session with registry := registry })

end Mapping

end SchemaBindings
