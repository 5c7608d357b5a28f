import SchemaBindings.Code.Lines

/-!
# Routines

Parameters, signatures and bodies of generated functions. A prototype and the body that belongs
to it are both written from one signature.
-/

namespace SchemaBindings.Code

structure Parameter where
  type : String
  name : String
  deriving DecidableEq, Repr

def Parameter.render (p : Parameter) : String := p.type ++ " " ++ p.name

def parameterList (parameters : List Parameter) : String :=
  String.intercalate ", " (parameters.map Parameter.render)

structure Signature where
  result : String
  name : String
  parameters : List Parameter
  deriving DecidableEq, Repr

def Signature.render (s : Signature) : String :=
  let parameters := if s.parameters.isEmpty then "void" else parameterList s.parameters
  s.result ++ " " ++ s.name ++ "(" ++ parameters ++ ")"

def Signature.prototype (s : Signature) : String := s.render ++ ";\n"

structure Routine where
  signature : Signature
  body : Lines
  deriving DecidableEq, Repr

def Routine.render (r : Routine) : String :=
  r.signature.render ++ "\n" ++ Code.render (braced r.body)

/-- The type of a callback: a pointer to a function without a result. -/
structure Callback where
  name : String
  parameters : List Parameter
  deriving DecidableEq, Repr

def Callback.render (c : Callback) : String :=
  "typedef void (*" ++ c.name ++ ")(" ++ parameterList c.parameters ++ ");\n"

end SchemaBindings.Code
