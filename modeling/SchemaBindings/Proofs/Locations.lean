import SchemaBindings.Proofs.Faults
import SchemaBindings.Proofs.Pointers

/-!
# Where reading fails

A schema that cannot be read is named by its place. The place is put together step by step while
schemas are read inside of each other, by entries with any names and by positions, and it resolves
to the value that is at fault: read on its own at that place, the value fails in the same way. Only
where a composition keyword holds no list, it is the keyword that is named.
-/

namespace SchemaBindings

open Schema

/-! ## Pointers made of steps -/

namespace Pointer

/-- The place that steps lead to from the one at `path`. -/
def under (path : String) (steps : List String) : String := steps.foldl child path

@[simp]
theorem under_nil (path : String) : under path [] = path := rfl

theorem under_append (path : String) (steps others : List String) :
    under path (steps ++ others) = under (under path steps) others :=
  List.foldl_append

theorem child_append (path pointer step : String) :
    child (path ++ pointer) step = path ++ child pointer step := by
  simp only [child, String.append_assoc]

theorem append_under (path pointer : String) (steps : List String) :
    under (path ++ pointer) steps = path ++ under pointer steps := by
  induction steps generalizing pointer with
  | nil => rfl
  | cons step rest ih =>
    change under (child (path ++ pointer) step) rest = _
    rw [child_append]
    exact ih _

theorem toList_under (path : String) (steps : List String) : (under path steps).toList =
    path.toList ++ slashed (steps.map fun step ↦ escapeStep step.toList) := by
  induction steps generalizing path with
  | nil => simp [slashed]
  | cons step rest ih =>
    change (under (child path step) rest).toList = _
    rw [ih]
    simp [child, slashed]

theorem steps?_under (steps : List String) : steps? (under "" steps) = some steps := by
  cases steps with
  | nil => rfl
  | cons first rest =>
    have htext : under "" (first :: rest) = String.ofList ('/' :: (escapeStep first.toList ++
        slashed (rest.map fun step ↦ escapeStep step.toList))) := by
      refine String.toList_injective ?_
      rw [toList_under, String.toList_ofList, List.map_cons]
      simp [slashed]
    have hfirst := Folder.splitChars_of_notMem (slash_notMem_escapeStep first.toList)
    have hrest : ∀ part ∈ rest.map fun step ↦ escapeStep step.toList, '/' ∉ part := by
      intro part hpart
      obtain ⟨step, -, rfl⟩ := List.mem_map.1 hpart
      exact slash_notMem_escapeStep _
    rw [htext, steps?_slashed hfirst hrest, List.map_cons, List.map_map]
    simp [Function.comp_def, unescapeStep_escapeStep]

/-- Decimal digits have no zero in front, unless they are the one of zero. -/
theorem head?_toDigits_ne_zero {n : Nat} (h : 0 < n) :
    (Nat.toDigits 10 n).head? ≠ some '0' := by
  induction n using Nat.strong_induction_on with
  | _ n ih =>
    rw [Nat.toDigits_eq_if (by decide)]
    split
    case isTrue hsmall =>
      have hdigit : ∀ digit < 10, 0 < digit → [Nat.digitChar digit].head? ≠ some '0' := by decide
      exact hdigit n hsmall h
    case isFalse hlarge =>
      have hhead := ih (n / 10) (by omega) (by omega)
      have hdigits : Nat.toDigits 10 (n / 10) ≠ [] := Nat.toDigits_ne_nil
      rwa [List.head?_append_of_ne_nil _ hdigits]

theorem position?_toString (n : Nat) : position? (toString n) = some n := by
  have htext : (toString n).toList = Nat.toDigits 10 n := by simp
  have hdigits : (Nat.toDigits 10 n).all Char.isDigit := List.all_eq_true.2 fun c hc ↦
    Nat.isDigit_of_mem_toDigits (by decide) (by decide) hc
  have hvalue : (Nat.toDigits 10 n).foldl (fun n c ↦ n * 10 + (c.toNat - '0'.toNat)) 0 = n := by
    have hfold := Nat.ofDigitChars_toDigits (n := n) (b := 10) (by decide) (by decide)
    rw [Nat.ofDigitChars_eq_foldl] at hfold
    simpa only [Nat.mul_comm] using hfold
  unfold position?
  rw [htext]
  split
  case h_1 hnil => exact absurd hnil Nat.toDigits_ne_nil
  case h_2 second rest hzero =>
    have hpositive : 0 < n := by
      refine Nat.pos_of_ne_zero ?_
      rintro rfl
      cases hzero
    exact absurd (congrArg List.head? hzero) (head?_toDigits_ne_zero hpositive)
  case h_3 => rw [if_pos hdigits, hvalue]

end Pointer

namespace Json

variable {content value : Json} {steps others : List String}

theorem at?_under (content : Json) (steps : List String) :
    content.at? (Pointer.under "" steps) = steps.foldlM step? content := by
  unfold at?
  rw [Pointer.steps?_under]
  rfl

theorem foldlM_step?_append (h : steps.foldlM step? content = some value) :
    (steps ++ others).foldlM step? content = others.foldlM step? value := by
  rw [List.foldlM_append, h]
  rfl

theorem step?_position {items : List Json} (position : Nat) :
    (Json.array items).step? (toString position) = items[position]? := by
  change (Pointer.position? (toString position)).bind _ = _
  rw [Pointer.position?_toString]
  rfl

end Json

/-! ## Schemas inside of schemas -/

theorem Failure.bind_eq_error {α β : Type} {result : Except Failure α}
    {next : α → Except Failure β} {failure : Failure} (h : result >>= next = .error failure) :
    result = .error failure ∨ ∃ value, result = .ok value ∧ next value = .error failure := by
  cases result with
  | ok value => exact .inr ⟨value, rfl, h⟩
  | error other =>
    cases h
    exact .inl rfl

theorem Failure.map_eq_error {α β : Type} {result : Except Failure α} {f : α → β}
    {failure : Failure} (h : result.map f = .error failure) : result = .error failure := by
  cases result with
  | ok value => cases h
  | error other =>
    cases h
    rfl

section Inside

variable {path : String} {entries : Entries} {f : Form} {steps : List String} {value : Json}
  {failure : Failure}

/-- What is read as a schema inside of a schema of some form, with the steps that lead to it. -/
inductive Schema.Form.Inside : Form → List String → Json → Prop
  | tuple {items : List Json} {position : Nat} {value : Json}
      (h : items[position]? = some value) :
      Inside (.tuple items) ["items", toString position] value
  | single (item : Json) : Inside (.single item) ["items"] item
  | composed {composition : Composition} {members : List Json} {position : Nat} {value : Json}
      (h : members[position]? = some value) :
      Inside (.composed composition members) [composition.keyword, toString position] value
  | property {properties : Entries} {required : Option (List String)} {additional : Option Json}
      {pattern : Bool} {name : String} {value : Json}
      (h : Table.get? name properties = some value) :
      Inside (.object (some properties) required additional pattern) ["properties", name] value
  | additional {properties : Option Entries} {required : Option (List String)} {value : Json}
      {pattern : Bool} :
      Inside (.object properties required (some value) pattern) ["additionalProperties"] value

theorem Schema.Form.Inside.holds (h : f.Inside steps value) : f.Holds value := by
  cases h with
  | tuple h => exact .tuple (List.mem_of_getElem? h)
  | single => exact .single _
  | composed h => exact .composed (List.mem_of_getElem? h)
  | property h => exact .property (Table.mem_of_get?_eq_some h)
  | additional => exact .additional

theorem Json.foldlM_step?_entry {name : String} (h : Table.get? name entries = some value) :
    [name].foldlM Json.step? (.object entries) = some value := by
  rw [List.foldlM_cons]
  exact Option.bind_eq_some_iff.2 ⟨value, h, rfl⟩

theorem Json.foldlM_step?_item {name : String} {items : List Json} {position : Nat}
    (h : Table.get? name entries = some (.array items)) (hitem : items[position]? = some value) :
    [name, toString position].foldlM Json.step? (.object entries) = some value := by
  have hlast : (Json.array items).step? (toString position) = some value :=
    (Json.step?_position position).trans hitem
  rw [← List.singleton_append, foldlM_step?_append (foldlM_step?_entry h), List.foldlM_cons, hlast]
  rfl

/-- The steps lead there from the schema. -/
theorem Schema.foldlM_step?_of_shapeForm {type : Option String}
    (hform : shapeForm path type entries = .ok f) (h : f.Inside steps value) :
    steps.foldlM Json.step? (.object entries) = some value := by
  unfold shapeForm at hform
  split at hform
  · cases hform
    unfold itemsForm at h
    split at h
    case h_1 hitems =>
      cases h with
      | tuple hitem => exact Json.foldlM_step?_item hitems hitem
    case h_2 hitem =>
      cases h
      exact Json.foldlM_step?_entry hitem
    case h_3 => cases h
  · split at hform
    case h_1 hcomposition =>
      cases hform
      cases h with
      | composed hmember =>
        obtain ⟨keyword, -, hkeyword⟩ := List.exists_of_findSome?_eq_some hcomposition
        obtain ⟨found, hfound, hpair⟩ := Option.map_eq_some_iff.1 hkeyword
        cases hpair
        exact Json.foldlM_step?_item hfound hmember
    case h_2 => cases hform
    case h_3 =>
      split at hform <;> cases hform
      · unfold objectForm at h
        generalize hproperties : (Table.get? "properties" entries).bind Json.asObject? = properties
          at h
        generalize hadditional : additional? entries = additional at h
        cases h with
        | property hname =>
          obtain ⟨found, hfound, hobject⟩ := Option.bind_eq_some_iff.1 hproperties
          cases found <;> cases hobject
          rw [← List.singleton_append, Json.foldlM_step?_append (Json.foldlM_step?_entry hfound)]
          exact Json.foldlM_step?_entry hname
        | additional =>
          unfold additional? at hadditional
          split at hadditional <;> cases hadditional
          exact Json.foldlM_step?_entry ‹_›
      · unfold primitiveForm at h
        split at h <;> cases h

theorem Schema.foldlM_step?_of_form (hform : form path entries = .ok f)
    (h : f.Inside steps value) : steps.foldlM Json.step? (.object entries) = some value := by
  unfold form at hform
  split at hform
  case h_1 => cases hform; cases h
  case h_2 => cases hform
  case h_3 =>
    split at hform
    case h_1 => cases hform; cases h
    case h_2 =>
      split at hform
      case h_2 => cases hform
      case h_1 =>
        unfold typedForm at hform
        split at hform
        case h_1 =>
          obtain ⟨_, -, rfl⟩ := Failure.map_eq_ok.1 hform
          cases h
        case h_2 => exact foldlM_step?_of_shapeForm hform h

theorem exists_item_of_readList {position : Nat} {items : List Json}
    (h : readList path position items = .error failure) : ∃ before value,
      items[before]? = some value ∧
        Node.read (Pointer.child path (toString (position + before))) value = .error failure := by
  induction items generalizing position with
  | nil =>
    rw [readList] at h
    cases h
  | cons item rest ih =>
    rw [readList] at h
    obtain hfirst | ⟨node, -, hothers⟩ := Failure.bind_eq_error h
    · exact ⟨0, item, rfl, hfirst⟩
    · obtain hrest | ⟨nodes, -, hpure⟩ := Failure.bind_eq_error hothers
      · obtain ⟨before, value, hvalue, hread⟩ := ih hrest
        refine ⟨before + 1, value, hvalue, ?_⟩
        rwa [Nat.add_right_comm] at hread
      · cases hpure

theorem exists_entry_of_readEntries (hnames : (Table.keys entries).Nodup)
    (h : readEntries path entries = .error failure) : ∃ name value,
      Table.get? name entries = some value ∧
        Node.read (Pointer.child path name) value = .error failure := by
  induction entries with
  | nil =>
    rw [readEntries] at h
    cases h
  | cons entry rest ih =>
    obtain ⟨first, value⟩ := entry
    obtain ⟨hfirst, hrest⟩ := List.nodup_cons.1 hnames
    rw [readEntries] at h
    obtain hread | ⟨node, -, hothers⟩ := Failure.bind_eq_error h
    · exact ⟨first, value, if_pos rfl, hread⟩
    · obtain hlater | ⟨nodes, -, hpure⟩ := Failure.bind_eq_error hothers
      · obtain ⟨name, found, hfound, hread⟩ := ih hrest hlater
        have hname : first ≠ name := by
          rintro rfl
          exact hfirst (List.mem_map.2 ⟨_, Table.mem_of_get?_eq_some hfound, rfl⟩)
        exact ⟨name, found, (if_neg hname).trans hfound, hread⟩
      · cases hpure

/-- If the schemas inside cannot be read, one of them cannot be read at its place. -/
theorem Kind.exists_inside_of_error (hf : f.Distinct) (h : Kind.ofForm path f = .error failure) :
    ∃ steps value, f.Inside steps value ∧
      Node.read (Pointer.under path steps) value = .error failure := by
  cases f with
  | tuple items =>
    rw [Kind.ofForm] at h
    obtain hlist | ⟨_, -, hpure⟩ := Failure.bind_eq_error h
    · obtain ⟨position, value, hvalue, hread⟩ := exists_item_of_readList hlist
      rw [Nat.zero_add] at hread
      exact ⟨_, value, .tuple hvalue, hread⟩
    · cases hpure
  | single item =>
    rw [Kind.ofForm] at h
    obtain hread | ⟨_, -, hpure⟩ := Failure.bind_eq_error h
    · exact ⟨_, item, .single item, hread⟩
    · cases hpure
  | composed composition members =>
    rw [Kind.ofForm] at h
    obtain hlist | ⟨_, -, hpure⟩ := Failure.bind_eq_error h
    · obtain ⟨position, value, hvalue, hread⟩ := exists_item_of_readList hlist
      rw [Nat.zero_add] at hread
      exact ⟨_, value, .composed hvalue, hread⟩
    · cases hpure
  | object properties required additional pattern =>
    rw [Kind.ofForm] at h
    obtain hproperties | ⟨_, -, hrest⟩ := Failure.bind_eq_error h
    · cases properties with
      | none =>
        rw [readProperties] at hproperties
        cases hproperties
      | some properties =>
        rw [readProperties] at hproperties
        obtain ⟨name, value, hvalue, hread⟩ := exists_entry_of_readEntries
          (hf.names properties required additional pattern rfl) (Failure.map_eq_error hproperties)
        exact ⟨_, value, .property hvalue, hread⟩
    · obtain hadditional | ⟨_, -, hpure⟩ := Failure.bind_eq_error hrest
      · cases additional with
        | none =>
          rw [readAdditional] at hadditional
          cases hadditional
        | some value =>
          rw [readAdditional] at hadditional
          exact ⟨_, value, .additional, Failure.map_eq_error hadditional⟩
      · cases hpure
  | _ =>
    rw [Kind.ofForm] at h
    cases h

/-! ## Values at fault -/

/-- A value cannot be read as a schema at this place by itself: for what it is or says there, or for
a composition keyword that holds no list. -/
inductive Faulty (path : String) : Json → Failure → Prop
  | here {value : Json} {fault : Fault} (h : fault ≠ .compositionNotList) :
      Faulty path value (fault.at path)
  | keyword {entries : Entries} {composition : Composition} {other : Json}
      (h : Table.get? composition.keyword entries = some other)
      (hlist : ∀ items, other ≠ .array items) :
      Faulty path (.object entries)
        (Fault.compositionNotList.at (Pointer.child path composition.keyword))

theorem faulty_of_typeKeyword (h : typeKeyword path entries = .error failure) :
    Faulty path value failure := by
  unfold typeKeyword at h
  repeat' split at h
  all_goals cases h
  all_goals exact .here nofun

theorem faulty_of_textCases {values : List Json} (h : textCases path values = .error failure) :
    Faulty path value failure := by
  induction values with
  | nil => cases h
  | cons first rest ih =>
    cases first with
    | string text =>
      rw [textCases] at h
      exact ih (Failure.map_eq_error h)
    | _ =>
      rw [textCases] at h
      · cases h
        exact .here nofun
      · nofun

theorem faulty_of_shapeForm {type : Option String}
    (h : shapeForm path type entries = .error failure) :
    Faulty path (.object entries) failure := by
  unfold shapeForm at h
  split at h
  · cases h
  · split at h
    case h_1 => cases h
    case h_2 composition other hlist hcomposition =>
      cases h
      obtain ⟨keyword, -, hkeyword⟩ := List.exists_of_findSome?_eq_some hcomposition
      obtain ⟨found, hfound, hpair⟩ := Option.map_eq_some_iff.1 hkeyword
      cases hpair
      exact .keyword hfound fun items heq ↦ hlist items heq
    case h_3 => split at h <;> cases h

theorem faulty_of_form (h : form path entries = .error failure) :
    Faulty path (.object entries) failure := by
  unfold form at h
  split at h
  case h_1 => cases h
  case h_2 => cases h; exact .here nofun
  case h_3 =>
    split at h
    case h_1 => cases h
    case h_2 =>
      split at h
      case h_1 type _ =>
        unfold typedForm at h
        split at h
        case h_1 => exact faulty_of_textCases (Failure.map_eq_error h)
        case h_2 => exact faulty_of_shapeForm h
      case h_2 htype =>
        cases h
        exact faulty_of_typeKeyword htype

/-- If a schema cannot be read, one of the values in it is at fault, and read at its place it fails
in the same way. -/
theorem Node.exists_faulty_of_read (h : Node.read path value = .error failure)
    (hvalue : value.Distinct) : ∃ steps found, steps.foldlM Json.step? value = some found ∧
      Node.read (Pointer.under path steps) found = .error failure ∧
      Faulty (Pointer.under path steps) found failure := by
  induction hsize : sizeOf value using Nat.strong_induction_on generalizing path value with
  | _ size ih =>
    cases value with
    | object entries =>
      cases hform : form path entries with
      | error other =>
        rw [Node.read_object_error hform] at h
        cases h
        exact ⟨[], _, rfl, Node.read_object_error hform, faulty_of_form hform⟩
      | ok f =>
        have hread := h
        rw [Node.read_object hform] at hread
        have hdistinct := distinct_form hvalue hform
        obtain ⟨steps, inner, hinside, hinner⟩ :=
          Kind.exists_inside_of_error hdistinct (Failure.map_eq_error hread)
        have hsmaller : sizeOf inner < size := by
          have hle := hinside.holds.sizeOf_le
          have hlt := size_form_lt hform
          simp only [Json.object.sizeOf_spec] at hsize
          omega
        obtain ⟨others, found, hfound, hreadFound, hfaulty⟩ :=
          ih _ hsmaller hinner (hdistinct.holds inner hinside.holds) rfl
        have hsteps := foldlM_step?_of_form hform hinside
        refine ⟨steps ++ others, found, (Json.foldlM_step?_append hsteps).trans hfound, ?_, ?_⟩
        · rwa [Pointer.under_append]
        · rwa [Pointer.under_append]
    | bool =>
      rw [Node.read] at h
      cases h
    | _ =>
      have hread := h
      unfold Node.read at hread
      cases hread
      exact ⟨[], _, rfl, h, .here nofun⟩

end Inside

/-! ## Documents -/

namespace Pointer

/-- Positions are written as they are. -/
theorem escapeStep_toString (n : Nat) : escapeStep (toString n).toList = (toString n).toList := by
  have hdigit : ∀ c ∈ (toString n).toList, escapeChar c = [c] := by
    intro c hc
    have hmem : c ∈ Nat.toDigits 10 n := by simpa using hc
    have hisDigit := Nat.isDigit_of_mem_toDigits (by decide) (by decide) hmem
    obtain ⟨rfl, -⟩ | ⟨rfl, -⟩ | ⟨-, -, heq⟩ := escapeChar_eq c
    · exact absurd hisDigit (by decide)
    · exact absurd hisDigit (by decide)
    · exact heq
  calc
    escapeStep (toString n).toList = (toString n).toList.flatMap fun c ↦ [c] :=
      List.flatMap_congr hdigit
    _ = (toString n).toList := by simp

theorem under_methods (title : String) (method : Nat) :
    under (title ++ "#") ["methods", toString method] = s!"{title}#/methods/{method}" := by
  have htext : ∀ text : String, toString text = text := fun _ ↦ rfl
  have hword : escapeStep "methods".toList = "methods".toList := rfl
  refine String.toList_injective ?_
  rw [toList_under]
  simp only [List.map_cons, List.map_nil, hword, escapeStep_toString]
  simp [slashed, htext]

theorem under_params (path : String) (position : Nat) :
    under path ["params", toString position, "schema"] = s!"{path}/params/{position}/schema" := by
  have htext : ∀ text : String, toString text = text := fun _ ↦ rfl
  have hword : escapeStep "params".toList = "params".toList := rfl
  have hschema : escapeStep "schema".toList = "schema".toList := rfl
  refine String.toList_injective ?_
  rw [toList_under]
  simp only [List.map_cons, List.map_nil, hword, hschema, escapeStep_toString]
  simp [slashed, htext]

theorem under_result (path : String) :
    under path ["result", "schema"] = s!"{path}/result/schema" := by
  have htext : ∀ text : String, toString text = text := fun _ ↦ rfl
  refine String.toList_injective ?_
  rw [toList_under]
  simp [slashed, htext, escapeStep, escapeChar]

theorem under_definition (title : String) (root : DefinitionsRoot) (name : String) :
    under (title ++ "#") (root.steps ++ [name]) = child (title ++ root.pointer) name := by
  refine String.toList_injective ?_
  rw [toList_under]
  cases root <;>
    simp [slashed, DefinitionsRoot.steps, DefinitionsRoot.pointer, child, escapeStep, escapeChar]

end Pointer

namespace Document

variable {content : Json} {title : String} {failure : Failure}

/-- A value of the content that is read as a schema of the document, with the steps that lead to it:
a definition, or the schema of a parameter or of a result. -/
inductive Declares (content : Json) : List String → Json → Prop
  | definition {root : DefinitionsRoot} {name : String} {value : Json}
      (hroot : (rawDefinitions content).1 = root.pointer)
      (hvalue : Table.get? name (rawDefinitions content).2 = some value) :
      Declares content (root.steps ++ [name]) value
  | param {i j : Nat} {method param schema : Json}
      (hmethod : (elements content "methods")[i]? = some method)
      (hparam : (elements method "params")[j]? = some param)
      (hschema : param.get? "schema" = some schema) :
      Declares content ["methods", toString i, "params", toString j, "schema"] schema
  | result {i : Nat} {method result schema : Json}
      (hmethod : (elements content "methods")[i]? = some method)
      (hresult : method.get? "result" = some result)
      (hschema : result.get? "schema" = some schema) :
      Declares content ["methods", toString i, "result", "schema"] schema

/-- A document is refused for what is not in a schema: it has no title, or one of its methods or
their parameters has no name. -/
inductive Nameless (content : Json) : Failure → Prop
  | document (h : title? content = none) :
      Nameless content (invalid "document has neither info.title nor title" "#")
  | method {title : String} {i : Nat} {method : Json} (htitle : title? content = some title)
      (hmethod : (elements content "methods")[i]? = some method)
      (hname : text? method "name" = none) :
      Nameless content (invalid "method has no name" s!"{title}#/methods/{i}")
  | param {title : String} {i j : Nat} {method param : Json}
      (htitle : title? content = some title)
      (hmethod : (elements content "methods")[i]? = some method)
      (hparam : (elements method "params")[j]? = some param)
      (hname : text? param "name" = none) :
      Nameless content (invalid "param has no name" s!"{title}#/methods/{i}")

theorem foldlM_step?_element {value element : Json} {key : String} {position : Nat}
    (h : (elements value key)[position]? = some element) :
    [key, toString position].foldlM Json.step? value = some element := by
  unfold elements at h
  split at h
  case h_1 items hitems =>
    have hlist := step?_of_get? hitems
    have hitem := (Json.step?_position position).trans h
    exact Option.bind_eq_some_iff.2 ⟨_, hlist, Option.bind_eq_some_iff.2 ⟨_, hitem, rfl⟩⟩
  case h_2 => cases h

theorem foldlM_step?_get {value found : Json} {key : String} (h : value.get? key = some found) :
    [key].foldlM Json.step? value = some found :=
  Option.bind_eq_some_iff.2 ⟨_, step?_of_get? h, rfl⟩

/-- The steps to a schema lead there. -/
theorem Declares.leads {steps : List String} {value : Json} (h : Declares content steps value) :
    steps.foldlM Json.step? content = some value := by
  cases h with
  | @definition root name _ hroot hvalue =>
    obtain ⟨root', hroot', hsteps⟩ := exists_root_of_rawDefinitions hvalue
    have hsame : root = root' := by
      have hpointer := hroot.symm.trans hroot'
      cases root <;> cases root' <;> first | rfl | exact absurd hpointer (by decide)
    rw [hsame]
    exact hsteps
  | @param i j method param _ hmethod hparam hschema =>
    change ([_, _] ++ ([_, _] ++ [_])).foldlM Json.step? content = _
    rw [Json.foldlM_step?_append (foldlM_step?_element hmethod),
      Json.foldlM_step?_append (foldlM_step?_element hparam)]
    exact foldlM_step?_get hschema
  | @result i method result _ hmethod hresult hschema =>
    change ([_, _] ++ ([_] ++ [_])).foldlM Json.step? content = _
    rw [Json.foldlM_step?_append (foldlM_step?_element hmethod),
      Json.foldlM_step?_append (foldlM_step?_get hresult)]
    exact foldlM_step?_get hschema

/-! The parts of a document are read in turn, and the first that cannot be read is a schema or has
no name. -/

theorem get?_schema_of_schemaOr {path : String} {value : Json}
    (h : schemaOr path value = .error failure) : ∃ schema, value.get? "schema" = some schema ∧
      Node.read path schema = .error failure := by
  unfold schemaOr at h
  split at h
  case h_1 schema hschema => exact ⟨schema, hschema, h⟩
  case h_2 => cases h

theorem exists_param_of_readParams {path : String} {position : Nat} {values : List Json}
    (h : readParams path position values = .error failure) : ∃ before param,
      values[before]? = some param ∧
        (text? param "name" = none ∧ failure = invalid "param has no name" path ∨
          ∃ schema, param.get? "schema" = some schema ∧
            Node.read (Pointer.under path ["params", toString (position + before), "schema"])
              schema = .error failure) := by
  induction values generalizing position with
  | nil => cases h
  | cons value rest ih =>
    rw [readParams] at h
    split at h
    case h_1 hname =>
      cases h
      exact ⟨0, value, rfl, .inl ⟨hname, rfl⟩⟩
    case h_2 name _ =>
      obtain hschema | ⟨node, -, hothers⟩ := Failure.bind_eq_error h
      · obtain ⟨schema, hfound, hread⟩ := get?_schema_of_schemaOr hschema
        rw [← Pointer.under_params] at hread
        exact ⟨0, value, rfl, .inr ⟨schema, hfound, hread⟩⟩
      · obtain hrest | ⟨params, -, hpure⟩ := Failure.bind_eq_error hothers
        · obtain ⟨before, param, hparam, hcase⟩ := ih hrest
          rw [Nat.add_right_comm] at hcase
          exact ⟨before + 1, param, hparam, hcase⟩
        · cases hpure

theorem exists_method_of_readMethods {position : Nat} {values : List Json}
    (h : readMethods title position values = .error failure) : ∃ before method,
      values[before]? = some method ∧
        readMethod (Pointer.under (title ++ "#") ["methods", toString (position + before)]) method =
          .error failure := by
  induction values generalizing position with
  | nil => cases h
  | cons value rest ih =>
    rw [readMethods] at h
    obtain hmethod | ⟨method, -, hothers⟩ := Failure.bind_eq_error h
    · rw [← Pointer.under_methods] at hmethod
      exact ⟨0, value, rfl, hmethod⟩
    · obtain hrest | ⟨methods, -, hpure⟩ := Failure.bind_eq_error hothers
      · obtain ⟨before, method, hfound, hread⟩ := ih hrest
        rw [Nat.add_right_comm] at hread
        exact ⟨before + 1, method, hfound, hread⟩
      · cases hpure

/-- A method that cannot be read lacks a name, or one of its schemas cannot be read. -/
theorem nameless_or_declares_of_readMethod {i : Nat} {method : Json}
    (htitle : title? content = some title)
    (hmethod : (elements content "methods")[i]? = some method)
    (h : readMethod (Pointer.under (title ++ "#") ["methods", toString i]) method =
      .error failure) :
    Nameless content failure ∨ ∃ steps value, Declares content steps value ∧
      Node.read (Pointer.under (title ++ "#") steps) value = .error failure := by
  unfold readMethod at h
  split at h
  case h_1 hname =>
    cases h
    rw [Pointer.under_methods]
    exact .inl (.method htitle hmethod hname)
  case h_2 name _ =>
    obtain hparams | ⟨params, -, hrest⟩ := Failure.bind_eq_error h
    · obtain ⟨j, param, hparam, ⟨hname, rfl⟩ | ⟨schema, hschema, hread⟩⟩ :=
        exists_param_of_readParams hparams
      · rw [Pointer.under_methods]
        exact .inl (.param htitle hmethod hparam hname)
      · rw [← Pointer.under_append, Nat.zero_add] at hread
        exact .inr ⟨_, schema, .param hmethod hparam hschema, hread⟩
    · obtain hresult | ⟨result, -, hpure⟩ := Failure.bind_eq_error hrest
      · unfold readResult at hresult
        split at hresult
        case h_1 => cases hresult
        case h_2 result hfound =>
          obtain hschema | ⟨node, -, hpure⟩ := Failure.bind_eq_error hresult
          · obtain ⟨schema, hvalue, hread⟩ := get?_schema_of_schemaOr hschema
            rw [← Pointer.under_result, ← Pointer.under_append] at hread
            exact .inr ⟨_, schema, .result hmethod hfound hvalue, hread⟩
          · cases hpure
      · cases hpure

theorem nameless_or_declares_of_read (hcontent : content.Distinct)
    (h : read content = .error failure) : Nameless content failure ∨
      ∃ title steps value, title? content = some title ∧ Declares content steps value ∧
        Node.read (Pointer.under (title ++ "#") steps) value = .error failure := by
  unfold read at h
  split at h
  case h_1 htitle =>
    cases h
    exact .inl (.document htitle)
  case h_2 title htitle =>
    dsimp only at h
    obtain hdefinitions | ⟨definitions, -, hrest⟩ := Failure.bind_eq_error h
    · obtain ⟨name, value, hvalue, hread⟩ :=
        exists_entry_of_readEntries (nodup_rawDefinitions hcontent) hdefinitions
      obtain ⟨root, hroot, -⟩ := exists_root_of_rawDefinitions hvalue
      rw [hroot, ← Pointer.under_definition] at hread
      exact .inr ⟨title, _, value, htitle, .definition hroot hvalue, hread⟩
    · obtain hmethods | ⟨methods, -, hpure⟩ := Failure.bind_eq_error hrest
      · obtain ⟨i, method, hmethod, hread⟩ := exists_method_of_readMethods hmethods
        rw [Nat.zero_add] at hread
        obtain hnameless | ⟨steps, value, hvalue, hfails⟩ :=
          nameless_or_declares_of_readMethod htitle hmethod hread
        · exact .inl hnameless
        · exact .inr ⟨title, steps, value, htitle, hvalue, hfails⟩
      · cases hpure

end Document

/-- The failure is a fault in a value of the content, and it names the place of the value below the
title. Read at this place, the value fails in the same way; only a composition keyword that holds no
list is named in place of the schema that has it. -/
inductive Json.PointsAt (content : Json) (title : String) : Failure → Prop
  | schema {pointer : String} {value : Json} {fault : Fault} (hfault : fault ≠ .compositionNotList)
      (hvalue : content.at? pointer = some value)
      (hread : Node.read (title ++ "#" ++ pointer) value =
        .error (fault.at (title ++ "#" ++ pointer))) :
      PointsAt content title (fault.at (title ++ "#" ++ pointer))
  | keyword {place pointer : String} {schema value : Json} {composition : Composition}
      (hpointer : pointer = Pointer.child place composition.keyword)
      (hvalue : content.at? pointer = some value) (hlist : ∀ items, value ≠ .array items)
      (hschema : content.at? place = some schema)
      (hkeyword : schema.get? composition.keyword = some value)
      (hread : Node.read (title ++ "#" ++ place) schema =
        .error (Fault.compositionNotList.at (title ++ "#" ++ pointer))) :
      PointsAt content title (Fault.compositionNotList.at (title ++ "#" ++ pointer))

theorem Json.pointsAt_of_read {content value : Json} {title : String} {steps : List String}
    {failure : Failure} (hcontent : content.Distinct)
    (hvalue : steps.foldlM step? content = some value)
    (h : Node.read (Pointer.under (title ++ "#") steps) value = .error failure) :
    content.PointsAt title failure := by
  have hdistinct : value.Distinct := hcontent.at? ((at?_under content steps).trans hvalue)
  obtain ⟨others, found, hfound, hread, hfaulty⟩ := Node.exists_faulty_of_read h hdistinct
  have hat : content.at? (Pointer.under "" (steps ++ others)) = some found := by
    rw [at?_under, foldlM_step?_append hvalue, hfound]
  have hplace : Pointer.under (Pointer.under (title ++ "#") steps) others =
      title ++ "#" ++ Pointer.under "" (steps ++ others) := by
    rw [← Pointer.under_append, ← Pointer.append_under, String.append_empty]
  rw [hplace] at hread hfaulty
  cases hfaulty with
  | here hfault => exact .schema hfault hat hread
  | @keyword entries composition other hkeyword hlist =>
    rw [Pointer.child_append] at hread ⊢
    refine .keyword rfl ?_ hlist hat hkeyword hread
    have hchild : Pointer.child (Pointer.under "" (steps ++ others)) composition.keyword =
        Pointer.under "" (steps ++ others ++ [composition.keyword]) :=
      (Pointer.under_append "" (steps ++ others) [composition.keyword]).symm
    rw [at?_under] at hat
    rw [hchild, at?_under, foldlM_step?_append hat]
    exact foldlM_step?_entry hkeyword

/-- A document that cannot be read has something without a name, or one of its schemas cannot be
read, and the failure points at what is at fault there. -/
theorem Document.read_fails_at_value {content : Json} {failure : Failure}
    (hcontent : content.Distinct) (h : Document.read content = .error failure) :
    Nameless content failure ∨ ∃ title steps value, title? content = some title ∧
      Declares content steps value ∧
      Node.read (Pointer.under (title ++ "#") steps) value = .error failure ∧
      content.PointsAt title failure := by
  obtain hnameless | ⟨title, steps, value, htitle, hdeclares, hread⟩ :=
    nameless_or_declares_of_read hcontent h
  · exact .inl hnameless
  · exact .inr ⟨title, steps, value, htitle, hdeclares, hread,
      Json.pointsAt_of_read hcontent hdeclares.leads hread⟩

/-! A definition with a property whose type is a number. Both have names with marks of pointers. -/

namespace Gauge

def content : Json := .object [("title", .string "Gauge"), ("definitions", .object [
  ("min/max", .object [("properties", .object [
    ("~", .object [("type", .string "integer")]),
    ("a~b", .object [("type", .number (.whole 5))])])])])]

def failure : Failure :=
  .invalidSchema "invalid type keyword 5" "Gauge#/definitions/min~1max/properties/a~0b"

def failure? (content : Json) : Option Failure :=
  match Document.read content with
  | .error failure => some failure
  | .ok _ => none

theorem failure?_content : failure? content = some failure := by decide +kernel

theorem read_content : Document.read content = .error failure := by
  have hfailure := failure?_content
  unfold failure? at hfailure
  split at hfailure
  · rename_i found hfound
    rw [hfound, Option.some.inj hfailure]
  · cases hfailure

theorem not_nameless : ¬Document.Nameless content failure := by
  intro h
  generalize hfailure : failure = found at h
  cases h <;> simp [failure, Document.invalid] at hfailure

/-- The type is what cannot be read, and it is found where the failure says. -/
theorem failure_points_at_type : ∃ title steps value, Document.title? content = some title ∧
    Document.Declares content steps value ∧
    Node.read (Pointer.under (title ++ "#") steps) value = .error failure ∧
    content.PointsAt title failure := by
  have hfive : (Json.number (.whole 5)).Distinct := .number _
  have hdistinct : content.Distinct := by simp [content, Table.keys, hfive]
  exact (Document.read_fails_at_value hdistinct read_content).resolve_left not_nameless

end Gauge

end SchemaBindings
