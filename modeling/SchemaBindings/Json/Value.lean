import SchemaBindings.Number.Double
import SchemaBindings.Table

/-!
# Document values

JSON values with objects in declaration order. Two values are the same when they differ at most
in the order of object entries and in the sign of a zero; a whole number and a double are never
the same.
-/

namespace SchemaBindings

namespace Json

inductive Number where
  | whole (value : Int)
  | double (value : Double)
  deriving DecidableEq, Repr

def Number.toDouble : Number → Double
  | whole n => Double.ofInt n
  | double x => x

def Number.same : Number → Number → Bool
  | whole m, whole n => m == n
  | double x, double y => x.same y
  | _, _ => false

end Json

inductive Json where
  | null
  | bool (value : Bool)
  | number (value : Json.Number)
  | string (value : String)
  | array (items : List Json)
  | object (entries : List (String × Json))
  deriving Inhabited

namespace Json

/-- The entry of an object under a name; other values have no entries. -/
def get? (name : String) : Json → Option Json
  | object entries => Table.get? name entries
  | _ => none

def asString? : Json → Option String
  | string text => some text
  | _ => none

def asBool? : Json → Option Bool
  | bool value => some value
  | _ => none

def asArray? : Json → Option (List Json)
  | array items => some items
  | _ => none

def asObject? : Json → Option (List (String × Json))
  | object entries => some entries
  | _ => none

def asDouble? : Json → Option Double
  | number n => some n.toDouble
  | _ => none

def isString (value : Json) : Bool := value.asString?.isSome

mutual

def same : Json → Json → Bool
  | null, null => true
  | bool a, bool b => a == b
  | number a, number b => a.same b
  | string a, string b => a == b
  | array a, array b => sameItems a b
  | object a, object b => a.length == b.length && sameEntries a b
  | _, _ => false

def sameItems : List Json → List Json → Bool
  | [], [] => true
  | a :: as, b :: bs => same a b && sameItems as bs
  | _, _ => false

/-- Whether every entry is bound to the same value in the other object. -/
def sameEntries : List (String × Json) → List (String × Json) → Bool
  | [], _ => true
  | (name, a) :: rest, entries =>
    (match Table.get? name entries with
      | some b => same a b
      | none => false) && sameEntries rest entries

end

end Json

end SchemaBindings
