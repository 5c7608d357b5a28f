import SchemaBindings.Code.Fragment
import SchemaBindings.Failure
import SchemaBindings.Table

/-!
# Fragment sets

Fragments by symbol, in the order in which the symbols were first added. Adding the same code
again changes nothing; adding other code under a taken symbol is a collision, which stops the
addition of further fragments and leaves those already added in place.
-/

namespace SchemaBindings

open Code

/-- What an operation left behind, and the failure that stopped it, if one did. -/
structure Attempt (α : Type) where
  value : α
  failure : Option Failure

namespace Attempt

variable {α : Type}

def success (value : α) : Attempt α := ⟨value, none⟩

/-- Goes on from a value unless the attempt has failed. -/
def andThen (attempt : Attempt α) (next : α → Attempt α) : Attempt α :=
  match attempt.failure with
  | none => next attempt.value
  | some _ => attempt

def toExcept (attempt : Attempt α) : Except Failure α :=
  match attempt.failure with
  | none => .ok attempt.value
  | some failure => .error failure

end Attempt

structure Fragments where
  entries : List (String × Fragment) := []

namespace Fragments

def get? (set : Fragments) (symbol : String) : Option Fragment := Table.get? symbol set.entries

def contains (set : Fragments) (symbol : String) : Bool := (set.get? symbol).isSome

def symbols (set : Fragments) : List String := Table.keys set.entries

def size (set : Fragments) : Nat := set.entries.length

def isEmpty (set : Fragments) : Bool := set.entries.isEmpty

def insert (set : Fragments) (symbol : String) (code : Fragment) (path : String) :
    Attempt Fragments :=
  match set.get? symbol with
  | some existing =>
    if existing.text = code.text then .success set else ⟨set, some (.nameCollision symbol path)⟩
  | none => .success ⟨set.entries ++ [(symbol, code)]⟩

def insertAll (set : Fragments) (path : String) : List (String × Fragment) → Attempt Fragments
  | [] => .success set
  | (symbol, code) :: rest =>
    (set.insert symbol code path).andThen fun set ↦ set.insertAll path rest

/-- Adds the fragments of another set in their order. -/
def merge (set other : Fragments) (path : String) : Attempt Fragments :=
  set.insertAll path other.entries

def single (symbol : String) (code : Fragment) : Fragments := ⟨[(symbol, code)]⟩

def texts (set : Fragments) : List String := set.entries.map (·.2.text)

def render (set : Fragments) (separator : String) : String :=
  String.intercalate separator set.texts

/-- Whether two sets bind the same symbols to the same code, in whatever order. -/
def same (set other : Fragments) : Bool :=
  set.size == other.size && set.entries.all fun (symbol, code) ↦
    match other.get? symbol with
    | some found => found.text == code.text
    | none => false

end Fragments

end SchemaBindings
