import SchemaBindings.Failure
import SchemaBindings.Json.Pointer
import SchemaBindings.Json.Printer
import SchemaBindings.Schema.Node
import SchemaBindings.Text.Quoted

/-!
# Reading schemas

The keywords of a schema object decide its kind, the first of the following that applies: a
reference, a constant, an enumeration of texts, an array, a composition, an object, a primitive
type. What the deciding keyword holds is then read in turn. A fault is reported at the place of
the schema that has it, or of the composition keyword that is not a list.
-/

namespace SchemaBindings

namespace Schema

inductive Fault where
  | notAnObject (found : Json)
  | referenceNotText
  | caseNotText (found : Json)
  | severalTypes (keywords : List String)
  | typeNotKeyword (found : Json)
  | compositionNotList

def Fault.message : Fault → String
  | notAnObject found => "expected a schema object, found " ++ found.compact
  | referenceNotText => "$ref must be a string"
  | caseNotText found => "non-string value " ++ found.compact ++ " in string enum"
  | severalTypes keywords => "multiple types " ++ Text.quoteAll keywords ++ " are not supported"
  | typeNotKeyword found => "invalid type keyword " ++ found.compact
  | compositionNotList => "composition keyword must be an array"

def Fault.at (fault : Fault) (path : String) : Failure := .invalidSchema fault.message path

inductive Composition where
  | allOf
  | oneOf
  | anyOf
  deriving DecidableEq

def Composition.keyword : Composition → String
  | allOf => "allOf"
  | oneOf => "oneOf"
  | anyOf => "anyOf"

def Composition.kind : Composition → List Node → Kind
  | allOf => .allOf
  | oneOf => .oneOf
  | anyOf => .anyOf

/-- What decides the kind of a schema, with the schemas inside it not read yet. -/
inductive Form where
  | reference (target : String)
  | constant (value : Json) (minimum : Option Double)
  | enumeration (values : List String)
  | tuple (items : List Json)
  | single (item : Json)
  | composed (composition : Composition) (members : List Json)
  | object (properties : Option (List (String × Json))) (required : Option (List String))
      (additional : Option Json) (pattern : Bool)
  | primitive (type : Primitive) (minimum : Option Double)
  | unconstrained

abbrev Entries := List (String × Json)

def text? (key : String) (entries : Entries) : Option String :=
  (Table.get? key entries).bind Json.asString?

def minimum? (entries : Entries) : Option Double :=
  (Table.get? "minimum" entries).bind Json.asDouble?

/-- The one type keyword beside `null`, if there is any. -/
def typeKeyword (path : String) (entries : Entries) : Except Failure (Option String) :=
  match Table.get? "type" entries with
  | none => .ok none
  | some (.string keyword) => .ok (some keyword)
  | some (.array keywords) =>
    match (keywords.filterMap Json.asString?).filter (· ≠ "null") with
    | [] => .ok none
    | [keyword] => .ok (some keyword)
    | several => .error ((Fault.severalTypes several).at path)
  | some other => .error ((Fault.typeNotKeyword other).at path)

/-- The cases of an enumeration, where the type is or can only be a text. -/
def cases? (type : Option String) (entries : Entries) : Option (List Json) :=
  match Table.get? "enum" entries with
  | some (.array values) =>
    if type = some "string" ∨ (type = none ∧ values.all Json.isString) then some values else none
  | _ => none

def textCases (path : String) : List Json → Except Failure (List String)
  | [] => .ok []
  | .string value :: rest => (textCases path rest).map (value :: ·)
  | other :: _ => .error ((Fault.caseNotText other).at path)

def itemsForm (entries : Entries) : Form :=
  match Table.get? "items" entries with
  | some (.array items) => .tuple items
  | some item => .single item
  | none => .unconstrained

def composition? (entries : Entries) : Option (Composition × Json) :=
  [Composition.allOf, .oneOf, .anyOf].findSome? fun c ↦
    (Table.get? c.keyword entries).map (c, ·)

def hasKeyword (key : String) (entries : Entries) : Bool := (Table.get? key entries).isSome

def isObjectLike (type : Option String) (entries : Entries) : Bool :=
  type == some "object" || hasKeyword "properties" entries ||
    hasKeyword "additionalProperties" entries || hasKeyword "patternProperties" entries

def additional? (entries : Entries) : Option Json :=
  match Table.get? "additionalProperties" entries with
  | some (.object additional) => some (.object additional)
  | _ => none

def hasPattern (entries : Entries) : Bool :=
  match Table.get? "patternProperties" entries with
  | some (.object patterns) => !patterns.isEmpty
  | _ => false

def objectForm (entries : Entries) : Form :=
  .object ((Table.get? "properties" entries).bind Json.asObject?)
    (((Table.get? "required" entries).bind Json.asArray?).map fun names ↦
      names.filterMap Json.asString?)
    (additional? entries) (hasPattern entries)

def primitiveForm (type : Option String) (entries : Entries) : Form :=
  match type.bind Primitive.ofKeyword? with
  | some type => .primitive type (minimum? entries)
  | none => .unconstrained

/-- The form of a schema that is no reference, constant or enumeration. -/
def shapeForm (path : String) (type : Option String) (entries : Entries) : Except Failure Form :=
  if type = some "array" then .ok (itemsForm entries)
  else match composition? entries with
    | some (composition, .array members) => .ok (.composed composition members)
    | some (composition, _) =>
      .error (Fault.compositionNotList.at (Pointer.child path composition.keyword))
    | none =>
      if isObjectLike type entries then .ok (objectForm entries)
      else .ok (primitiveForm type entries)

def typedForm (path : String) (type : Option String) (entries : Entries) : Except Failure Form :=
  match cases? type entries with
  | some values => (textCases path values).map .enumeration
  | none => shapeForm path type entries

def form (path : String) (entries : Entries) : Except Failure Form :=
  match Table.get? "$ref" entries with
  | some (.string target) => .ok (.reference target)
  | some _ => .error (Fault.referenceNotText.at path)
  | none =>
    match Table.get? "const" entries with
    | some value => .ok (.constant value (minimum? entries))
    | none =>
      match typeKeyword path entries with
      | .ok type => typedForm path type entries
      | .error failure => .error failure

/-- Size of the largest part that is left to read. -/
noncomputable def Form.size : Form → Nat
  | tuple items => sizeOf items
  | single item => sizeOf item
  | composed _ members => sizeOf members
  | object properties _ additional _ =>
    max ((properties.map sizeOf).getD 0) ((additional.map sizeOf).getD 0)
  | _ => 0

theorem sizeOf_pos (entries : Entries) : 0 < sizeOf entries := by
  cases entries with
  | nil => simp
  | cons => simp only [List.cons.sizeOf_spec]; omega

theorem size_itemsForm_lt (entries : Entries) : (itemsForm entries).size < sizeOf entries := by
  unfold itemsForm
  split
  case h_1 items h =>
    have := Table.sizeOf_lt_of_get?_eq_some h
    simp only [Form.size, Json.array.sizeOf_spec] at *
    omega
  case h_2 item _ h => exact Table.sizeOf_lt_of_get?_eq_some h
  case h_3 => exact sizeOf_pos entries

theorem sizeOf_asObject?_lt {key : String} {entries properties : Entries}
    (h : (Table.get? key entries).bind Json.asObject? = some properties) :
    sizeOf properties < sizeOf entries := by
  obtain ⟨value, hvalue, hproperties⟩ := Option.bind_eq_some_iff.1 h
  have hlt := Table.sizeOf_lt_of_get?_eq_some hvalue
  cases value <;> simp only [Json.asObject?, Option.some.injEq, reduceCtorEq] at hproperties
  subst hproperties
  simp only [Json.object.sizeOf_spec] at hlt
  omega

theorem sizeOf_additional?_lt {entries : Entries} {value : Json}
    (h : additional? entries = some value) : sizeOf value < sizeOf entries := by
  unfold additional? at h
  split at h
  case h_1 hget =>
    cases h
    exact Table.sizeOf_lt_of_get?_eq_some hget
  case h_2 => cases h

theorem size_objectForm_lt (entries : Entries) : (objectForm entries).size < sizeOf entries := by
  have hpos := sizeOf_pos entries
  have hadditional : ((additional? entries).map sizeOf).getD 0 < sizeOf entries := by
    cases h : additional? entries with
    | none => simpa using hpos
    | some value => simpa using sizeOf_additional?_lt h
  have hproperties :
      ((((Table.get? "properties" entries).bind Json.asObject?).map sizeOf).getD 0) <
        sizeOf entries := by
    cases h : (Table.get? "properties" entries).bind Json.asObject? with
    | none => simpa using hpos
    | some value => simpa using sizeOf_asObject?_lt h
  exact Nat.max_lt.2 ⟨hproperties, hadditional⟩

theorem sizeOf_composition?_lt {entries : Entries} {composition : Composition} {value : Json}
    (h : composition? entries = some (composition, value)) : sizeOf value < sizeOf entries := by
  obtain ⟨c, _, hc⟩ := List.exists_of_findSome?_eq_some h
  obtain ⟨found, hfound, hpair⟩ := Option.map_eq_some_iff.1 hc
  cases hpair
  exact Table.sizeOf_lt_of_get?_eq_some hfound

theorem size_primitiveForm (type : Option String) (entries : Entries) :
    (primitiveForm type entries).size = 0 := by
  unfold primitiveForm
  split <;> rfl

theorem size_shapeForm_lt {path : String} {type : Option String} {entries : Entries} {f : Form}
    (h : shapeForm path type entries = .ok f) : f.size < sizeOf entries := by
  unfold shapeForm at h
  split at h
  · cases h
    exact size_itemsForm_lt entries
  · split at h
    case h_1 members hcomposition =>
      cases h
      have := sizeOf_composition?_lt hcomposition
      simp only [Form.size, Json.array.sizeOf_spec] at *
      omega
    case h_2 => cases h
    case h_3 =>
      split at h <;> cases h
      · exact size_objectForm_lt entries
      · simpa [size_primitiveForm] using sizeOf_pos entries

theorem size_form_lt {path : String} {entries : Entries} {f : Form}
    (h : form path entries = .ok f) : f.size < sizeOf entries := by
  have hpos := sizeOf_pos entries
  unfold form at h
  split at h
  case h_1 => cases h; exact hpos
  case h_2 => cases h
  case h_3 =>
    split at h
    case h_1 => cases h; exact hpos
    case h_2 =>
      split at h
      case h_1 type _ =>
        unfold typedForm at h
        split at h
        case h_1 values _ =>
          cases hcases : textCases path values <;> rw [hcases] at h <;> cases h
          exact hpos
        case h_2 => exact size_shapeForm_lt h
      case h_2 => cases h

end Schema

open Schema

mutual

/-- The schema of a value at a place that is named in failures. -/
def Node.read (path : String) (value : Json) : Except Failure Node :=
  match value with
  | .object entries =>
    match _hform : form path entries with
    | .error failure => .error failure
    | .ok f => (Kind.ofForm path f).map (.mk (text? "title" entries) (text? "description" entries))
  | .bool _ => .ok (.ofKind .unconstrained)
  | other => .error ((Fault.notAnObject other).at path)
  termination_by 3 * sizeOf value
  decreasing_by
    have := size_form_lt _hform
    simp only [Json.object.sizeOf_spec]
    omega

def Kind.ofForm (path : String) (f : Form) : Except Failure Kind :=
  match f with
  | .reference target => .ok (.reference target)
  | .constant value minimum => .ok (.constant value minimum)
  | .enumeration values => .ok (.enumeration values)
  | .tuple items => do
    let items ← readList (Pointer.child path "items") 0 items
    pure (.array (.tuple items))
  | .single item => do
    let item ← Node.read (Pointer.child path "items") item
    pure (.array (.single item))
  | .composed composition members => do
    let members ← readList (Pointer.child path composition.keyword) 0 members
    pure (composition.kind members)
  | .object properties required additional pattern => do
    let properties ← readProperties (Pointer.child path "properties") properties
    let additional ← readAdditional (Pointer.child path "additionalProperties") additional
    pure (.object (.mk properties required additional pattern))
  | .primitive type minimum => .ok (.primitive type minimum)
  | .unconstrained => .ok .unconstrained
  termination_by 3 * f.size + 2
  decreasing_by
    all_goals
      simp only [Form.size]
      omega

def readProperties (path : String) (properties : Option Entries) :
    Except Failure (Option (List (String × Node))) :=
  match properties with
  | none => .ok none
  | some entries => (readEntries path entries).map some
  termination_by 3 * (properties.map sizeOf).getD 0 + 1
  decreasing_by exact Nat.lt_succ_self _

def readAdditional (path : String) (additional : Option Json) : Except Failure (Option Node) :=
  match additional with
  | none => .ok none
  | some value => (Node.read path value).map some
  termination_by 3 * (additional.map sizeOf).getD 0 + 1
  decreasing_by exact Nat.lt_succ_self _

/-- The schemas of a list, each placed by its position, counted from `position`. -/
def readList (path : String) (position : Nat) (items : List Json) : Except Failure (List Node) :=
  match items with
  | [] => .ok []
  | item :: rest => do
    let node ← Node.read (Pointer.child path (toString position)) item
    let nodes ← readList path (position + 1) rest
    pure (node :: nodes)
  termination_by 3 * sizeOf items
  decreasing_by
    · simp only [List.cons.sizeOf_spec]; omega
    · simp only [List.cons.sizeOf_spec]; omega

def readEntries (path : String) (entries : List (String × Json)) :
    Except Failure (List (String × Node)) :=
  match entries with
  | [] => .ok []
  | (name, value) :: rest => do
    let node ← Node.read (Pointer.child path name) value
    let nodes ← readEntries path rest
    pure ((name, node) :: nodes)
  termination_by 3 * sizeOf entries
  decreasing_by
    · simp only [List.cons.sizeOf_spec, Prod.mk.sizeOf_spec]; omega
    · simp only [List.cons.sizeOf_spec]; omega

end

end SchemaBindings
