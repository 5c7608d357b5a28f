import SchemaBindings.Code.Lexical
import SchemaBindings.Names

/-!
# Enumerations

An enumeration type with its cases in declared order, and the table that maps each case to the
value it has on the wire.
-/

namespace SchemaBindings.Code

structure Enumeration where
  typeName : String
  label : String
  description : Option String
  values : List String
  deriving DecidableEq, Repr

namespace Enumeration

/-- Each case with its value, in declared order. -/
def cases (e : Enumeration) : List (String × String) :=
  e.values.map fun value ↦ (Names.enumCase value e.typeName, value)

def declaration (e : Enumeration) : String :=
  comment e.label e.description ++ "\ntypedef enum \x7b\n" ++
    String.intercalate ",\n" (e.cases.map fun c ↦ "    " ++ c.1) ++
    "\n\x7d " ++ e.typeName ++ ";\n"

def conversionRow (entry : String × String) : String :=
  "    \x7b " ++ entry.1 ++ ", _T(\"" ++ escape entry.2 ++ "\") \x7d,\n"

def conversion (e : Enumeration) : String :=
  "ENUM_CONVERSION_BEGIN(" ++ e.typeName ++ ")\n" ++ String.join (e.cases.map conversionRow) ++
    "ENUM_CONVERSION_END(" ++ e.typeName ++ ")\n"

end Enumeration

end SchemaBindings.Code
