import SchemaBindings.Api.Notification
import SchemaBindings.Proofs.Scopes

/-!
# Texts of trampolines

A trampoline is given as a procedure, statement by statement, and the type of its callback as a
text. What is generated for a notification has just these texts, for any arguments and any result.
-/

namespace SchemaBindings

open Code

/-- Truth values, numbers and enumerations are passed as they are. Texts and handles are pointers,
which have a null to say that there is no value. -/
def Shape.isScalar : Shape → Bool
  | .boolean | .float | .integer | .enumeration => true
  | .string | .object | .array | .map => false

/-! ## Arguments -/

namespace Argument

/-- The argument can be absent, and its type has no null to say so. -/
def isNullable (a : Argument) : Bool := !a.required && a.type.shape.isScalar

/-- The variable that the argument is decoded into. -/
def target (a : Argument) : Variable := ⟨1, a.type.name, a.name⟩

/-- The pointer that stays null unless the argument has been decoded. -/
def pointer (a : Argument) : Variable := ⟨1, a.type.name ++ "*", a.name ++ "Ptr"⟩

def own (a : Argument) : List Variable :=
  a.target :: if a.isNullable then [a.pointer] else []

/-- What the callback is called with for the argument. -/
def sent (a : Argument) : Variable := if a.isNullable then a.pointer else a.target

def declarations (a : Argument) : List Act :=
  .declare a.type.name a.name (if a.type.shape.isScalar then "\x7b\x7d" else " = nullptr") ::
    if a.isNullable then [.declare (a.type.name ++ "*") (a.name ++ "Ptr") " = nullptr"] else []

/-- What is done with an entry before there is a value for the argument. -/
def preparation (runtime : Runtime) (a : Argument) : List Act :=
  let wire := a.type.wire
  let proxy := runtime.proxy wire
  match a.type.shape with
  | .boolean | .float | .integer => []
  | .string => [
    .declare (wire ++ "*") (a.name ++ "Value") (" = new " ++ wire ++ "()"),
    .store (a.name ++ "Value") "params.Current().Value().c_str()"]
  | .enumeration => [
    .declare wire (a.name ++ "Value") "",
    .other (a.name ++ "Value.FromString(params.Current().String());")]
  | .object | .array | .map => [
    .declare "string" (a.name ++ "Str") "",
    .other ("params.Current().ToString(" ++ a.name ++ "Str);"),
    .declare (proxy ++ "*") (a.name ++ "Proxy") (" = new " ++ proxy ++ "()"),
    .store (a.name ++ "Proxy") (proxy ++ "::Create()"),
    .other ("(*" ++ a.name ++ "Proxy)->FromString(" ++ a.name ++ "Str);")]

def decoded (a : Argument) : String :=
  match a.type.shape with
  | .boolean => "params.Current().Boolean()"
  | .float => "static_cast<" ++ a.type.name ++ ">(params.Current().Float())"
  | .integer => "static_cast<" ++ a.type.name ++ ">(params.Current().Number())"
  | .string => "static_cast<" ++ a.type.name ++ ">(" ++ a.name ++ "Value)"
  | .enumeration => a.name ++ "Value.Value()"
  | .object | .array | .map => "static_cast<" ++ a.type.name ++ ">(" ++ a.name ++ "Proxy)"

def settings (a : Argument) : List Act :=
  .assign a.name a.decoded ::
    if a.isNullable then [.assign (a.name ++ "Ptr") ("&" ++ a.name)] else []

end Argument

/-! ## Results -/

namespace ResultValue

/-- What is done with a received value before it can be passed on. -/
def preparation (r : ResultValue) : List Act :=
  match r.type.shape with
  | .string => [
    .declare (r.type.wire ++ "*") "jsonStrResponse" (" = new " ++ r.type.wire ++ "()"),
    .store "jsonStrResponse" "*(*jsonResponse)"]
  | _ => []

def sent (r : ResultValue) : String :=
  match r.type.shape with
  | .boolean | .float | .integer | .enumeration => "(*jsonResponse)->Value()"
  | .string => "static_cast<" ++ r.type.name ++ ">(jsonStrResponse)"
  | .object | .array | .map => "static_cast<" ++ r.type.name ++ ">(jsonResponse)"

end ResultValue

/-! ## Trampolines -/

namespace Notification

/-- A branch for each argument, on the entries of the context. -/
def contextBranches (runtime : Runtime) : Bool → List Argument → List Statement
  | _, [] => []
  | isFirst, a :: rest =>
    ⟨5, .branch "params" a.name isFirst⟩ ::
      (level 6 (a.preparation runtime ++ a.settings) ++ contextBranches runtime false rest)

/-- The loop over the entries of an envelope, up to the loop over the entries of its context. -/
def entering (runtime : Runtime) (result : ResultValue) : List Statement :=
  let carrier := runtime.proxy result.type.wire
  let iterator := runtime.wireMap ++ "::Iterator"
  level 2 [
    .declare iterator "elements" " = var->Variants()",
    .other "",
    .other "while (elements.Next()) \x7b"] ++
  level 3 [.branch "elements" "value" true] ++
  level 4 [
    .assign "jsonResponse" ("new " ++ carrier ++ "()"),
    .store "jsonResponse" (carrier ++ "::Create()"),
    .declare "string" "valueStr" "",
    .other "elements.Current().ToString(valueStr);",
    .other "(*jsonResponse)->FromString(valueStr);"] ++
  level 3 [.branch "elements" "context" false] ++
  level 4 [
    .declare iterator "params" " = elements.Current().Object().Variants()",
    .other "while (params.Next()) \x7b"]

def leaving : List Statement :=
  level 5 [.other "\x7d"] ++ level 4 [.other "\x7d"] ++ level 3 [.other "\x7d"] ++
  level 2 [.other "\x7d"]

def entries (runtime : Runtime) (arguments : List Argument) (result : ResultValue) :
    List Statement :=
  entering runtime result ++ (contextBranches runtime true arguments ++ leaving)

/-- What is declared for the arguments and for the envelope, up to the loop over its entries. -/
def unwrapping (runtime : Runtime) (arguments : List Argument) (result : ResultValue) : List Act :=
  let carrier := runtime.proxy result.type.wire
  let envelope := runtime.proxy runtime.wireMap
  arguments.flatMap Argument.declarations ++ [
    .declare (carrier ++ "*") "jsonResponse" " = nullptr",
    .declare (envelope ++ "&") "var" (" = *(static_cast<" ++ envelope ++ "*>(response))"),
    .other "",
    .other "ASSERT(var.IsValid() == true);",
    .other "if (var.IsValid() == true) \x7b"]

/-- The value is received alone, or in an envelope if there are arguments. -/
def reception (runtime : Runtime) (arguments : List Argument) (result : ResultValue) :
    List Statement :=
  let carrier := runtime.proxy result.type.wire
  if arguments.isEmpty then
    level 1 [
      .declare (carrier ++ "*") "jsonResponse" (" = static_cast<" ++ carrier ++ "*>(response)")]
  else
    level 1 (unwrapping runtime arguments result) ++
      (entries runtime arguments result ++ level 1 [.other "\x7d"])

def handover (callback : String) (arguments : List Argument) (result : ResultValue) :
    List Statement :=
  level 1 [
    .other "",
    .other "if ((jsonResponse != nullptr) && (jsonResponse->IsValid() == true)) \x7b"] ++
  level 2 (result.preparation ++ [
    .declare callback "callback" (" = reinterpret_cast<" ++ callback ++ ">(userCB)"),
    .call "callback" ("userData" :: arguments.map (·.sent.name)) result.sent]) ++
  level 1 [.other "\x7d"]

def parameters : List Variable := [
  ⟨1, "const void*", "userCB"⟩, ⟨1, "const void*", "userData"⟩, ⟨1, "void*", "response"⟩]

def procedure (runtime : Runtime) (m : MethodPlace) (kind : NotificationKind)
    (arguments : List Argument) (result : ResultValue) : Procedure where
  name := trampolineName m
  parameters := parameters
  body := reception runtime arguments result ++ handover (callbackName m kind) arguments result

/-- The callback takes the user's data, each argument as it is sent, and the value. -/
def callbackText (m : MethodPlace) (kind : NotificationKind) (arguments : List Argument)
    (result : ResultValue) : String :=
  "typedef void (*" ++ callbackName m kind ++ ")(" ++
    String.intercalate ", " ("const void* userData" ::
      arguments.map (fun a ↦ a.sent.type ++ " " ++ a.name) ++
      [result.type.name ++ " " ++ result.name]) ++ ");\n"

end Notification

/-! ## Lines of statements -/

namespace Code

def Statement.line (s : Statement) : Line := ⟨s.depth, s.act.text⟩

@[simp]
theorem indent_nil : indent [] = [] := rfl

@[simp]
theorem indent_cons (depth : Nat) (text : String) (body : Lines) :
    indent (⟨depth, text⟩ :: body) = ⟨depth + 1, text⟩ :: indent body := rfl

@[simp]
theorem indent_append (body body' : Lines) : indent (body ++ body') = indent body ++ indent body' :=
  List.map_append

theorem indent_flatMap {α : Type} (xs : List α) (f : α → Lines) :
    indent (xs.flatMap f) = xs.flatMap fun x ↦ indent (f x) :=
  List.map_flatMap

@[simp]
theorem indent_level (depth : Nat) (acts : List Act) :
    indent ((level depth acts).map Statement.line) =
      (level (depth + 1) acts).map Statement.line := by
  simp [indent, level, Statement.line]

theorem Routine.render_eq {body : Lines} {statements : List Statement} (signature : Signature)
    (h : indent body = statements.map Statement.line) :
    Routine.render ⟨signature, body⟩ =
      signature.render ++ "\n\x7b\n" ++ String.join (statements.map Statement.text) ++
        "\x7d\n" := by
  have htexts : Line.render ∘ Statement.line = Statement.text := rfl
  have hopen : Line.render ⟨0, "\x7b"⟩ = "\x7b\n" := by decide
  have hclose : Line.render ⟨0, "\x7d"⟩ = "\x7d\n" := by decide
  unfold Routine.render braced
  rw [h]
  simp [Code.render, line, htexts, hopen, hclose, ← String.toList_inj]

/-- Branches one below another: each but the first closes the one before. -/
theorem branches_cons (condition : String) (body : Lines) (others : List (String × Lines)) :
    branches ((condition, body) :: others) =
      line ("if (" ++ condition ++ ") \x7b") ++ indent body ++
        others.flatMap (fun b ↦ line ("\x7d else if (" ++ b.1 ++ ") \x7b") ++ indent b.2) ++
        line "\x7d" := by
  induction others generalizing condition body with
  | nil => simp [branches, block, toString, String.append_assoc]
  | cons second others ih =>
    obtain ⟨condition', body'⟩ := second
    rw [branches, ih]
    · simp [line, toString, ← String.toList_inj]
    · nofun

end Code

theorem Shape.isReference_eq (shape : Shape) : shape.isReference = !shape.isScalar := by
  cases shape <;> rfl

namespace Argument

theorem isByPointer_eq (a : Argument) : a.isByPointer = a.isNullable := by
  unfold isByPointer isNullable
  rw [Shape.isReference_eq, Bool.not_not]

theorem localVariable_lines (a : Argument) :
    a.localVariable.lines = (level 0 a.declarations).map Statement.line := by
  unfold Local.lines localVariable declarations
  rw [isByPointer_eq, Shape.isReference_eq]
  cases a.type.shape.isScalar <;> cases a.isNullable <;>
    simp [line, level, Statement.line, Act.text, toString, ← String.toList_inj]

theorem decode_eq (runtime : Runtime) (a : Argument) :
    a.decode runtime =
      ((level 0 (a.preparation runtime)).map Statement.line, a.decoded) := by
  unfold decode preparation decoded
  cases a.type.shape <;>
    simp [lines, level, Statement.line, Act.text, toString, ← String.toList_inj]

theorem contextBranch_lines (runtime : Runtime) (a : Argument) :
    (a.contextBranch runtime).lines =
      (level 0 (a.preparation runtime ++ a.settings)).map Statement.line := by
  unfold ContextBranch.lines contextBranch localVariable settings
  rw [isByPointer_eq, decode_eq]
  cases a.isNullable <;>
    simp [line, level, Statement.line, Act.text, toString, ← String.toList_inj]

end Argument

theorem ResultValue.delivery_eq (r : ResultValue) :
    r.delivery = ((level 0 r.preparation).map Statement.line, r.sent) := by
  unfold delivery preparation sent
  cases r.type.shape <;>
    simp [Shape.isHandle, lines, level, Statement.line, Act.text, toString, ← String.toList_inj]

namespace Notification

variable (runtime : Runtime) (m : MethodPlace) (kind : NotificationKind)
  (arguments : List Argument) (result : ResultValue)

theorem contextBranches_lines (isFirst : Bool) (a : Argument) :
    (contextBranches runtime isFirst (a :: arguments)).map Statement.line =
      ⟨5, (if isFirst then "" else "\x7d else ") ++
        ("if (strcmp(params.Label(), \"" ++ a.name ++ "\") == 0) \x7b")⟩ ::
        (level 6 (a.preparation runtime ++ a.settings)).map Statement.line ++
      arguments.flatMap fun a ↦
        ⟨5, "\x7d else if (" ++ ("strcmp(params.Label(), \"" ++ a.name ++ "\") == 0") ++
          ") \x7b"⟩ ::
          (level 6 (a.preparation runtime ++ a.settings)).map Statement.line := by
  induction arguments generalizing isFirst a with
  | nil => simp [contextBranches, Statement.line, Act.text]
  | cons a' rest ih =>
    rw [contextBranches, List.map_cons, List.map_append, ih]
    simp [Statement.line, Act.text, ← String.toList_inj]

theorem locals_lines :
    indent ((trampoline runtime m kind arguments result).locals.flatMap Local.lines) =
      (level 1 (arguments.flatMap Argument.declarations)).map Statement.line := by
  change indent ((arguments.map Argument.localVariable).flatMap Local.lines) = _
  induction arguments with
  | nil => rfl
  | cons a rest ih => simp [ih, Argument.localVariable_lines]

theorem context_lines (h : arguments ≠ []) :
    indent (indent (indent (indent (trampoline runtime m kind arguments result).contextBranch))) =
      (level 4 [
        .declare (runtime.wireMap ++ "::Iterator") "params"
          " = elements.Current().Object().Variants()",
        .other "while (params.Next()) \x7b"] ++
      contextBranches runtime true arguments ++
      level 5 [.other "\x7d"] ++ level 4 [.other "\x7d"]).map Statement.line := by
  obtain ⟨a, rest, rfl⟩ := List.exists_cons_of_ne_nil h
  have hbody (a : Argument) : (a.contextBranch runtime).key = a.name := rfl
  unfold Trampoline.contextBranch trampoline
  simp only [List.map_append, contextBranches_lines, List.map_cons, branches_cons]
  simp [block, line, Statement.line, Act.text, Argument.contextBranch_lines, indent_flatMap,
    List.flatMap_map, hbody, toString, ← String.toList_inj]

theorem opening_lines :
    indent (trampoline runtime m kind arguments result).opening =
      (reception runtime arguments result).map Statement.line := by
  unfold Trampoline.opening reception
  cases arguments with
  | nil =>
    simp [trampoline, line, Statement.line, Act.text, toString, ← String.toList_inj]
  | cons a rest =>
    have hlocals := locals_lines runtime m kind (a :: rest) result
    have hcontext := context_lines runtime m kind (a :: rest) result (List.cons_ne_nil _ _)
    generalize (trampoline runtime m kind (a :: rest) result).contextBranch = context at hcontext ⊢
    generalize (trampoline runtime m kind (a :: rest) result).locals.flatMap Local.lines = locals
      at hlocals ⊢
    have hempty : (trampoline runtime m kind (a :: rest) result).branches.isEmpty = false := rfl
    rw [hempty, List.isEmpty_cons, if_neg Bool.false_ne_true, if_neg Bool.false_ne_true]
    simp only [block, branches_cons, List.flatMap_cons, List.flatMap_nil, indent_append,
      List.append_assoc, hlocals, hcontext, unwrapping, entries, entering, leaving,
      List.map_append, level_append]
    simp [Trampoline.valueBranch, trampoline, line, lines, blank, Statement.line, Act.text,
      toString, ← String.toList_inj]

theorem call_lines :
    indent (blank ++ (trampoline runtime m kind arguments result).call) =
      (handover (callbackName m kind) arguments result).map Statement.line := by
  have hpassed : arguments.map Argument.passed = arguments.map (·.sent.name) :=
    List.map_congr_left fun a _ ↦ by
      unfold Argument.passed Argument.sent
      rw [Argument.isByPointer_eq]
      split <;> rfl
  unfold Trampoline.call trampoline handover
  rw [hpassed, ResultValue.delivery_eq]
  simp [block, blank, line, Statement.line, Act.text, toString, ← String.toList_inj]

theorem render_eq :
    (trampoline runtime m kind arguments result).render =
      (procedure runtime m kind arguments result).text := by
  let t := trampoline runtime m kind arguments result
  have hbody : indent (t.opening ++ blank ++ t.call) =
      (procedure runtime m kind arguments result).body.map Statement.line := by
    rw [List.append_assoc, indent_append, opening_lines, call_lines, ← List.map_append]
    rfl
  unfold Trampoline.render Procedure.text
  rw [Routine.render_eq _ hbody]
  simp [Trampoline.signature, Signature.render, parameterList, Parameter.render, trampoline,
    procedure, parameters, ← String.toList_inj]

theorem callback_text :
    (callback m kind arguments result).render = callbackText m kind arguments result := by
  have hparameters : arguments.map (fun a ↦ a.parameter.render) =
      arguments.map fun a ↦ a.sent.type ++ " " ++ a.name :=
    List.map_congr_left fun a _ ↦ by
      unfold Argument.parameter Argument.sent Parameter.render
      rw [Argument.isByPointer_eq]
      split <;> rfl
  unfold Callback.render callback callbackText parameterList
  simp [← hparameters, userData, ResultValue.parameter, Parameter.render, Function.comp_def]

end Notification

end SchemaBindings
