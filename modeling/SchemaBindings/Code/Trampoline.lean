import SchemaBindings.Code.Routine

/-!
# Trampolines

The static function that receives a notification and calls the user's callback. Without
parameters the notification is the value itself. With parameters it is an envelope, whose value
and whose context are decoded into one local variable for each parameter before the call.
-/

namespace SchemaBindings.Code

/-- A local variable of a parameter, and the pointer to it that stays null when it is absent. -/
structure Local where
  type : String
  name : String
  isHandle : Bool
  pointer : Option String
  deriving DecidableEq, Repr

def Local.lines (l : Local) : Lines :=
  line (s!"{l.type} {l.name}" ++ if l.isHandle then " = nullptr;" else "\x7b\x7d;") ++
  match l.pointer with
  | some pointer => line s!"{l.type}* {pointer} = nullptr;"
  | none => []

/-- What is done with the context entry `key`: `target` is assigned after some `steps`. -/
structure ContextBranch where
  key : String
  steps : Lines
  target : String
  value : String
  pointer : Option String
  deriving DecidableEq, Repr

def ContextBranch.lines (b : ContextBranch) : Lines :=
  b.steps ++ line s!"{b.target} = {b.value};" ++
  match b.pointer with
  | some pointer => line s!"{pointer} = &{b.target};"
  | none => []

structure Trampoline where
  name : String
  callback : String
  /-- Types of the pointer to a value, of an envelope, and of the iterator over its entries. -/
  carrier : String
  envelope : String
  iterator : String
  locals : List Local
  branches : List ContextBranch
  /-- Lines before the call, and the arguments of the call. -/
  delivery : Lines
  arguments : List String
  deriving DecidableEq, Repr

namespace Trampoline

def valueBranch (t : Trampoline) : Lines := lines [
  s!"jsonResponse = new {t.carrier}();",
  s!"*jsonResponse = {t.carrier}::Create();",
  "string valueStr;",
  "elements.Current().ToString(valueStr);",
  "(*jsonResponse)->FromString(valueStr);"]

def contextBranch (t : Trampoline) : Lines :=
  line s!"{t.iterator} params = elements.Current().Object().Variants();" ++
  block "while (params.Next())" (Code.branches (t.branches.map fun b ↦
    (s!"strcmp(params.Label(), \"{b.key}\") == 0", b.lines)))

def opening (t : Trampoline) : Lines :=
  if t.branches.isEmpty then
    line s!"{t.carrier}* jsonResponse = static_cast<{t.carrier}*>(response);"
  else
    t.locals.flatMap Local.lines ++
    lines [
      s!"{t.carrier}* jsonResponse = nullptr;",
      s!"{t.envelope}& var = *(static_cast<{t.envelope}*>(response));",
      "",
      "ASSERT(var.IsValid() == true);"] ++
    block "if (var.IsValid() == true)" (
      line s!"{t.iterator} elements = var->Variants();" ++
      blank ++
      block "while (elements.Next())" (Code.branches [
        ("strcmp(elements.Label(), \"value\") == 0", t.valueBranch),
        ("strcmp(elements.Label(), \"context\") == 0", t.contextBranch)]))

def call (t : Trampoline) : Lines :=
  block "if ((jsonResponse != nullptr) && (jsonResponse->IsValid() == true))" (
    t.delivery ++
    line s!"{t.callback} callback = reinterpret_cast<{t.callback}>(userCB);" ++
    line ("callback(" ++ String.intercalate ", " t.arguments ++ ");"))

def signature (t : Trampoline) : Signature :=
  ⟨"void", t.name,
    [⟨"const void*", "userCB"⟩, ⟨"const void*", "userData"⟩, ⟨"void*", "response"⟩]⟩

def render (t : Trampoline) : String :=
  "static " ++ Routine.render ⟨t.signature, t.opening ++ blank ++ t.call⟩

end Trampoline

end SchemaBindings.Code
