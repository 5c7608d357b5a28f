import SchemaBindings.Proofs.Stability
import SchemaBindings.Proofs.Units

/-!
# Lists of item schemas

An array whose items are a list of schemas is mapped by the first of them, and all that the others
count for is their coarse shape. The first one stands for all of them if the order of the list does
not matter, and this is so exactly if every schema of the list gives the array the same type. Coarse
shapes do not see to that: whole numbers with and without a sign have the same one, and so have all
objects and all enumerations.
-/

namespace SchemaBindings

open Mapping

/-! ## The item that counts -/

namespace Items

variable {items items' : List Node} {item : Node} {path : String}

theorem element_tuple_eq_ok :
    (tuple items).element path = .ok item ↔
      items.head? = some item ∧ ∀ other ∈ items, other.itemShape = item.itemShape := by
  cases items with
  | nil => simp [element]
  | cons first rest =>
    rw [element, List.head?_cons, Option.some_inj, List.forall_mem_cons]
    split
    · rename_i hshapes
      simp only [List.all_eq_true, decide_eq_true_eq] at hshapes
      constructor
      · intro h
        cases h
        exact ⟨rfl, rfl, hshapes⟩
      · rintro ⟨rfl, -⟩
        rfl
    · rename_i hshapes
      refine ⟨nofun, ?_⟩
      rintro ⟨rfl, -, hrest⟩
      exact absurd (by simpa using hrest) hshapes

/-- In another order the list is accepted as well, and another one of its schemas counts. -/
theorem exists_element_of_perm (h : (tuple items).element path = .ok item)
    (hperm : items.Perm items') :
    ∃ item' ∈ items, (tuple items').element path = .ok item' := by
  obtain ⟨hhead, hshapes⟩ := element_tuple_eq_ok.1 h
  cases items' with
  | nil =>
    rw [hperm.eq_nil] at hhead
    cases hhead
  | cons first rest =>
    have hfirst : first ∈ items := hperm.mem_iff.2 List.mem_cons_self
    refine ⟨first, hfirst, element_tuple_eq_ok.2 ⟨rfl, fun other hother ↦ ?_⟩⟩
    rw [hshapes other (hperm.mem_iff.2 hother), hshapes first hfirst]

/-- Every schema of the list counts in some order. -/
theorem exists_perm_of_mem (h : (tuple items).element path = .ok item) {other : Node}
    (hother : other ∈ items) :
    ∃ items', items.Perm items' ∧ (tuple items').element path = .ok other := by
  obtain ⟨-, hshapes⟩ := element_tuple_eq_ok.1 h
  obtain ⟨before, after, rfl⟩ := List.append_of_mem hother
  refine ⟨other :: (before ++ after), List.perm_middle,
    element_tuple_eq_ok.2 ⟨rfl, fun found hfound ↦ ?_⟩⟩
  rw [hshapes found (List.perm_middle.mem_iff.2 hfound), hshapes other hother]

end Items

/-! ## Names and titles -/

theorem Node.givenTitle?_ne_empty {node : Node} {title : String}
    (h : node.givenTitle? = some title) : title ≠ "" := by
  unfold givenTitle? at h
  exact of_decide_eq_true (Option.filter_eq_some_iff.1 h).2

theorem Request.label_ne_empty {request : Request} {node : Node} {label : String}
    (h : request.label node = .ok label) : label ≠ "" := by
  unfold Request.label at h
  split at h
  · rename_i hname
    cases h
    exact hname
  · split at h
    · rename_i htitle
      cases h
      exact Node.givenTitle?_ne_empty htitle
    · cases h

theorem Request.elementLabel_ne_empty (item : Node) {label : String} (h : label ≠ "") :
    elementLabel item label ≠ "" := by
  unfold elementLabel
  split
  · exact h
  · cases htitle : item.givenTitle? with
    | none => exact h
    | some title => exact Node.givenTitle?_ne_empty htitle

theorem Request.label_of_name {request : Request} (h : request.name ≠ "") (node : Node) :
    request.label node = .ok request.name :=
  if_pos h

section Congruence

variable {cx : Context} {document : Document} {title title' description : Option String}
  {kind : Kind} {request : Request} {items items' : Items}

/-- A composition is merged in the same way whatever its title is. -/
theorem mergeAllOf_bind_congr {α : Type} (library : Library) (budget : Nat) (members : List Node)
    (path : String) {next next' : Node → Mapping α}
    (h : ∀ kind, next (.mk title description kind) = next' (.mk title' description kind)) :
    mergeAllOf library budget document (.mk title description kind) members path >>= next =
      mergeAllOf library budget document (.mk title' description kind) members path >>= next' := by
  simp only [mergeAllOf, bind_assoc, pure_bind, Node.title_mk, Node.description_mk, h]

/-- Types that are asked for under a name have nothing of the title of their schema. -/
theorem Native.map_title (budget : Nat) (hname : request.name ≠ "") (title title' : Option String) :
    map cx budget document (.mk title description kind) request =
      map cx budget document (.mk title' description kind) request := by
  induction budget generalizing document description kind title title' with
  | zero => rfl
  | succ budget ih =>
    have hlabel : ∀ title : Option String,
        request.label (.mk title description kind) = .ok request.name :=
      fun _ ↦ Request.label_of_name hname _
    unfold map step
    cases kind with
    | reference target => rfl
    | allOf members =>
      dsimp only [Node.kind_mk]
      rw [hlabel, hlabel]
      exact congrArg _ (funext fun label ↦ mergeAllOf_bind_congr _ _ _ _ fun kind ↦ ih _ _)
    | enumeration values =>
      dsimp only [Node.kind_mk]
      rw [hlabel, hlabel]
      rfl
    | _ =>
      dsimp only [Node.kind_mk]
      rw [hlabel, hlabel]

theorem Wire.map_title (budget : Nat) (hname : request.name ≠ "") (title title' : Option String) :
    map cx budget document (.mk title description kind) request =
      map cx budget document (.mk title' description kind) request := by
  induction budget generalizing document description kind title title' with
  | zero => rfl
  | succ budget ih =>
    have hlabel : ∀ title : Option String,
        request.label (.mk title description kind) = .ok request.name :=
      fun _ ↦ Request.label_of_name hname _
    unfold map step
    cases kind with
    | reference target => rfl
    | allOf members =>
      dsimp only [Node.kind_mk]
      rw [hlabel, hlabel]
      exact congrArg _ (funext fun label ↦ mergeAllOf_bind_congr _ _ _ _ fun kind ↦ ih _ _)
    | _ =>
      dsimp only [Node.kind_mk]
      rw [hlabel, hlabel]

/-! ## Arrays by their elements -/

theorem Native.map_array_congr (budget : Nat)
    (h : ∀ budget label, label ≠ "" →
      array cx (map cx budget) document items label request =
        array cx (map cx budget) document items' label request) :
    map cx budget document (.mk title description (.array items)) request =
      map cx budget document (.mk title description (.array items')) request := by
  cases budget with
  | zero => rfl
  | succ budget =>
    change (Mapping.ofExcept (request.label (.mk title description (.array items))) >>= _) =
      Mapping.ofExcept (request.label (.mk title description (.array items))) >>= _
    cases hlabel : request.label (.mk title description (.array items)) with
    | error failure => rfl
    | ok label => exact h budget label (Request.label_ne_empty hlabel)

theorem Wire.map_array_congr (budget : Nat)
    (h : ∀ budget label, label ≠ "" →
      array cx (map cx budget) document items label request =
        array cx (map cx budget) document items' label request) :
    map cx budget document (.mk title description (.array items)) request =
      map cx budget document (.mk title description (.array items')) request := by
  cases budget with
  | zero => rfl
  | succ budget =>
    change (Mapping.ofExcept (request.label (.mk title description (.array items))) >>= _) =
      Mapping.ofExcept (request.label (.mk title description (.array items))) >>= _
    cases hlabel : request.label (.mk title description (.array items)) with
    | error failure => rfl
    | ok label => exact h budget label (Request.label_ne_empty hlabel)

end Congruence

/-! ## Scalars -/

/-- The type of a text, of a number or of a truth value, with the bound that is written next to
it. -/
def Node.primitive? (node : Node) : Option (Primitive × Option Double) :=
  match node.kind with
  | .primitive type minimum => some (type, minimum)
  | .constant value minimum => (constantType? value).map (·, minimum)
  | _ => none

/-- The representation of a scalar: its type, and whether it is a whole number without a sign. -/
def Node.scalar? (node : Node) : Option (Primitive × Bool) :=
  node.primitive?.map fun (type, minimum) ↦ (type, type = .integer ∧ isUnsigned minimum)

section Scalars

variable {cx : Context} {document : Document} {item other : Node} {request : Request}
  {label : String} {type : Primitive} {minimum minimum' : Option Double}

theorem Native.map_primitive (budget : Nat) (h : item.primitive? = some (type, minimum))
    (hlabel : request.label item = .ok label) :
    map cx (budget + 1) document item request =
      pure (.ofPrimitive cx.runtime type minimum label) := by
  obtain ⟨title, description, kind⟩ := item
  unfold Node.primitive? at h
  unfold map step
  cases kind with
  | primitive found bound =>
    cases h
    dsimp only [Node.kind_mk]
    rw [hlabel]
    rfl
  | constant value bound =>
    obtain ⟨found, hfound, heq⟩ := Option.map_eq_some_iff.1 h
    cases heq
    dsimp only [Node.kind_mk]
    rw [hlabel]
    change constant cx value minimum label request.path = _
    unfold constant
    rw [hfound]
  | _ => cases h

theorem Wire.map_primitive (budget : Nat) (h : item.primitive? = some (type, minimum))
    (hlabel : request.label item = .ok label) :
    map cx (budget + 1) document item request =
      pure (.named (cx.runtime.wirePrimitive type minimum)) := by
  obtain ⟨title, description, kind⟩ := item
  unfold Node.primitive? at h
  unfold map step
  cases kind with
  | primitive found bound =>
    cases h
    dsimp only [Node.kind_mk]
    rw [hlabel]
    rfl
  | constant value bound =>
    obtain ⟨found, hfound, heq⟩ := Option.map_eq_some_iff.1 h
    cases heq
    dsimp only [Node.kind_mk]
    rw [hlabel]
    change constant cx value minimum request.path = _
    unfold constant
    rw [hfound]
  | _ => cases h

theorem Runtime.wirePrimitive_eq_iff (runtime : Runtime) :
    runtime.wirePrimitive type minimum = runtime.wirePrimitive type minimum' ↔
      (type = .integer → isUnsigned minimum = isUnsigned minimum') := by
  cases type with
  | integer =>
    simp only [wirePrimitive, wireInteger, jsonType, String.append_right_inj, true_imp_iff]
    cases isUnsigned minimum <;> cases isUnsigned minimum' <;> simp
  | _ => simp [wirePrimitive]

theorem Node.exists_primitive {scalar : Primitive × Bool} (h : item.scalar? = some scalar) :
    ∃ minimum, item.primitive? = some (scalar.1, minimum) ∧
      scalar.2 = decide (scalar.1 = .integer ∧ isUnsigned minimum) := by
  obtain ⟨⟨type, minimum⟩, hprimitive, rfl⟩ := Option.map_eq_some_iff.1 h
  exact ⟨minimum, hprimitive, rfl⟩

theorem Node.isReference_of_primitive? (h : item.primitive? = some (type, minimum)) :
    item.isReference = false := by
  obtain ⟨title, description, kind⟩ := item
  cases kind with
  | reference target => cases h
  | _ => rfl

/-- Scalars with one representation differ in nothing but their labels. -/
theorem NativeType.ofPrimitive_congr (runtime : Runtime) (label label' : String)
    (h : type = .integer → isUnsigned minimum = isUnsigned minimum') :
    ofPrimitive runtime type minimum label =
      { ofPrimitive runtime type minimum' label' with label := label } := by
  have hwire := (runtime.wirePrimitive_eq_iff).2 h
  cases type with
  | integer =>
    unfold ofPrimitive
    rw [hwire, h rfl]
  | _ => rfl

/-- What an array makes of the type of its elements. -/
def Native.arrayOf (cx : Context) (document : Document) (isReference : Bool) (label : String)
    (request : Request) (element : NativeType) : Mapping NativeType := do
  let stem ← request.claim cx.library document .array (if isReference then element.label else label)
  let base := Names.qualified document.title stem ++ "Array"
  let handle := base ++ "Handle"
  let container := cx.runtime.wireArray element.wire
  let groups := [
    Access.lifecycle cx.runtime handle container,
    Access.elements cx.runtime base handle container none element.valueType]
  let output ← Mapping.ofExcept (NativeType.absorb {} element request.path)
  let output ← Mapping.ofExcept (addHandle output handle groups request.path)
  pure ⟨handle, .array, container, label, output⟩

theorem Native.array_single (mapper : Mapper) :
    array cx mapper document (.single item) label request =
      mapper document item (request.element item label) >>=
        arrayOf cx document item.isReference label request :=
  pure_bind item _

theorem Native.array_scalar_congr (budget : Nat) (hlabel : label ≠ "")
    {scalar : Primitive × Bool} (h : item.scalar? = some scalar)
    (h' : other.scalar? = some scalar) :
    array cx (map cx budget) document (.single item) label request =
      array cx (map cx budget) document (.single other) label request := by
  obtain ⟨minimum, hitem, hscalar⟩ := Node.exists_primitive h
  obtain ⟨minimum', hother, hscalar'⟩ := Node.exists_primitive h'
  rw [array_single, array_single, Node.isReference_of_primitive? hitem,
    Node.isReference_of_primitive? hother]
  cases budget with
  | zero => rfl
  | succ budget =>
    have hunsigned : scalar.1 = .integer → isUnsigned minimum = isUnsigned minimum' := by
      intro hinteger
      simpa [hinteger] using hscalar.symm.trans hscalar'
    have hname := fun node ↦ Request.elementLabel_ne_empty node hlabel
    rw [map_primitive budget hitem (Request.label_of_name (hname item) item),
      map_primitive budget hother (Request.label_of_name (hname other) other), pure_bind, pure_bind,
      NativeType.ofPrimitive_congr cx.runtime _ (request.element other label).name hunsigned]
    rfl

theorem Wire.array_single (mapper : Mapper) :
    array cx mapper document (.single item) label request =
      (do
        let element ← mapper document item (request.element item label)
        let output ← Mapping.ofExcept (WireType.absorb {} element request.path)
        pure ⟨cx.runtime.wireArray element.name, output⟩) :=
  pure_bind item _

theorem Wire.array_scalar_congr (budget : Nat) (hlabel : label ≠ "")
    {scalar : Primitive × Bool} (h : item.scalar? = some scalar)
    (h' : other.scalar? = some scalar) :
    array cx (map cx budget) document (.single item) label request =
      array cx (map cx budget) document (.single other) label request := by
  obtain ⟨minimum, hitem, hscalar⟩ := Node.exists_primitive h
  obtain ⟨minimum', hother, hscalar'⟩ := Node.exists_primitive h'
  rw [array_single, array_single]
  cases budget with
  | zero => rfl
  | succ budget =>
    have hunsigned : scalar.1 = .integer → isUnsigned minimum = isUnsigned minimum' := by
      intro hinteger
      simpa [hinteger] using hscalar.symm.trans hscalar'
    have hname := fun node ↦ Request.elementLabel_ne_empty node hlabel
    rw [map_primitive budget hitem (Request.label_of_name (hname item) item),
      map_primitive budget hother (Request.label_of_name (hname other) other),
      (cx.runtime.wirePrimitive_eq_iff).2 hunsigned]

end Scalars

/-! ## Schemas that are written alike -/

/-- The schemas say the same, and give a type that is named after them the same name. References are
followed, so that what is written next to them does not matter. -/
structure Node.Alike (item other : Node) : Prop where
  kind_eq : item.kind = other.kind
  same : item.isReference = true ∨
    (item.description = other.description ∧ item.givenTitle? = other.givenTitle?)

section Alike

variable {cx : Context} {document : Document} {item other : Node} {request : Request}
  {label : String}

theorem Node.Alike.isReference_eq (h : item.Alike other) : item.isReference = other.isReference :=
  congrArg Kind.isReference h.kind_eq

theorem Node.Alike.element_eq (h : item.Alike other) :
    request.element item label = request.element other label := by
  have hlabels : Request.elementLabel item label = Request.elementLabel other label := by
    unfold Request.elementLabel
    rw [← h.isReference_eq]
    obtain hreference | ⟨-, htitle⟩ := h.same
    · rw [if_pos hreference, if_pos hreference]
    · rw [htitle]
  unfold Request.element
  rw [hlabels]

theorem Native.map_alike (h : item.Alike other) (budget : Nat) (hname : request.name ≠ "") :
    map cx budget document item request = map cx budget document other request := by
  obtain ⟨title, description, kind⟩ := item
  obtain ⟨title', description', kind'⟩ := other
  obtain ⟨hkind, hreference | ⟨hdescription, -⟩⟩ := h
  · obtain rfl : kind = kind' := hkind
    cases kind with
    | reference target => cases budget <;> rfl
    | _ => cases hreference
  · obtain rfl : kind = kind' := hkind
    obtain rfl : description = description' := hdescription
    exact map_title budget hname title title'

theorem Wire.map_alike (h : item.Alike other) (budget : Nat) (hname : request.name ≠ "") :
    map cx budget document item request = map cx budget document other request := by
  obtain ⟨title, description, kind⟩ := item
  obtain ⟨title', description', kind'⟩ := other
  obtain ⟨hkind, hreference | ⟨hdescription, -⟩⟩ := h
  · obtain rfl : kind = kind' := hkind
    cases kind with
    | reference target => cases budget <;> rfl
    | _ => cases hreference
  · obtain rfl : kind = kind' := hkind
    obtain rfl : description = description' := hdescription
    exact map_title budget hname title title'

theorem Native.array_alike_congr (budget : Nat) (hlabel : label ≠ "") (h : item.Alike other) :
    array cx (map cx budget) document (.single item) label request =
      array cx (map cx budget) document (.single other) label request := by
  rw [array_single, array_single, h.isReference_eq, h.element_eq,
    map_alike h budget (Request.elementLabel_ne_empty other hlabel)]

theorem Wire.array_alike_congr (budget : Nat) (hlabel : label ≠ "") (h : item.Alike other) :
    array cx (map cx budget) document (.single item) label request =
      array cx (map cx budget) document (.single other) label request := by
  rw [array_single, array_single, h.element_eq,
    map_alike h budget (Request.elementLabel_ne_empty other hlabel)]

end Alike

/-! ## The order of item schemas -/

namespace Answer

/-- The wire type, if the answer is a type. -/
def wire? : Answer → Option String
  | native (.ok type) => some type.wire
  | wire (.ok type) => some type.name
  | _ => none

end Answer

/-- In a fresh session the query is answered with this type. -/
def Query.Yields (cx : Context) (query : Query) (answer : Answer) : Prop :=
  answer.wire?.isSome ∧ ∃ later, query.Ends cx {} answer later

/-- An array schema without its items, as a mapper of one of the sides is asked for it. -/
structure ArrayQuery where
  side : Side
  document : Document
  title : Option String
  description : Option String
  request : Request

namespace ArrayQuery

def withItems (q : ArrayQuery) (items : Items) : Query :=
  ⟨q.side, q.document, .mk q.title q.description (.array items), q.request⟩

/-- The array gets the type with the item schemas in every order. -/
def YieldsInAnyOrder (cx : Context) (q : ArrayQuery) (items : List Node) (answer : Answer) : Prop :=
  ∀ items', items.Perm items' → (q.withItems (.tuple items')).Yields cx answer

variable {cx : Context} {q : ArrayQuery} {answer : Answer} {items items' : Items}

/-- Arrays are answered alike if they are mapped alike under every label. -/
theorem yields_congr
    (hnative : ∀ budget label, label ≠ "" →
      Native.array cx (Native.map cx budget) q.document items label q.request =
        Native.array cx (Native.map cx budget) q.document items' label q.request)
    (hwire : ∀ budget label, label ≠ "" →
      Wire.array cx (Wire.map cx budget) q.document items label q.request =
        Wire.array cx (Wire.map cx budget) q.document items' label q.request)
    (h : (q.withItems items).Yields cx answer) : (q.withItems items').Yields cx answer := by
  obtain ⟨side, document, title, description, request⟩ := q
  obtain ⟨htype, later, hends⟩ := h
  refine ⟨htype, later, ?_⟩
  cases hends with
  | native h =>
    obtain ⟨budget, hrun⟩ := h
    exact .native ⟨budget, (Native.map_array_congr budget hnative) ▸ hrun⟩
  | wire h =>
    obtain ⟨budget, hrun⟩ := h
    exact .wire ⟨budget, (Wire.map_array_congr budget hwire) ▸ hrun⟩

/-- Only the schema that counts matters. -/
theorem yields_of_element_eq
    (helement : items.element q.request.path = items'.element q.request.path)
    (h : (q.withItems items).Yields cx answer) : (q.withItems items').Yields cx answer := by
  refine yields_congr (fun budget label _ ↦ ?_) (fun budget label _ ↦ ?_) h
  · unfold Native.array
    rw [helement]
  · unfold Wire.array
    rw [helement]

end ArrayQuery

section Runs

variable {cx : Context} {document : Document} {title description : Option String} {items : Items}
  {item : Node} {request : Request} {label : String} {session session' : Session} {budget : Nat}
  {primitive : Primitive} {minimum : Option Double}

/-- An array with a type has a label and an item that counts. -/
theorem Native.exists_array_run {type : NativeType}
    (h : map cx budget document (.mk title description (.array items)) request session =
      some (.ok type, session')) :
    ∃ budget label, label ≠ "" ∧
      array cx (map cx budget) document items label request session = some (.ok type, session') ∧
      ∃ item, items.element request.path = .ok item := by
  cases budget with
  | zero => cases h
  | succ budget =>
    obtain ⟨label, between, hfound, harray⟩ := bind_eq_ok.1 h
    obtain ⟨hlabel, rfl⟩ := ofExcept_eq_ok.1 hfound
    obtain ⟨item, after, hitem, -⟩ := bind_eq_ok.1 harray
    exact ⟨budget, label, Request.label_ne_empty hlabel, harray, item, (ofExcept_eq_ok.1 hitem).1⟩

theorem Wire.exists_array_run {type : WireType}
    (h : map cx budget document (.mk title description (.array items)) request session =
      some (.ok type, session')) :
    ∃ budget label, label ≠ "" ∧
      array cx (map cx budget) document items label request session = some (.ok type, session') ∧
      ∃ item, items.element request.path = .ok item := by
  cases budget with
  | zero => cases h
  | succ budget =>
    obtain ⟨label, between, hfound, harray⟩ := bind_eq_ok.1 h
    obtain ⟨hlabel, rfl⟩ := ofExcept_eq_ok.1 hfound
    obtain ⟨item, after, hitem, -⟩ := bind_eq_ok.1 harray
    exact ⟨budget, label, Request.label_ne_empty hlabel, harray, item, (ofExcept_eq_ok.1 hitem).1⟩

theorem NativeType.wire_ofPrimitive (runtime : Runtime) (primitive : Primitive)
    (minimum : Option Double) (label : String) :
    (ofPrimitive runtime primitive minimum label).wire =
      runtime.wirePrimitive primitive minimum := by
  cases primitive <;> rfl

/-- The carrier of a list of scalars shows how they are represented. -/
theorem Native.wire_of_array_single {type : NativeType} (hlabel : label ≠ "")
    (hitem : item.primitive? = some (primitive, minimum))
    (h : array cx (map cx budget) document (.single item) label request session =
      some (.ok type, session')) :
    type.wire = cx.runtime.wireArray (cx.runtime.wirePrimitive primitive minimum) := by
  rw [array_single] at h
  cases budget with
  | zero => cases h
  | succ budget =>
    have hname := Request.elementLabel_ne_empty item hlabel
    rw [map_primitive budget hitem (Request.label_of_name hname item), pure_bind] at h
    obtain ⟨stem, claimed, -, habsorbed⟩ := bind_eq_ok.1 h
    obtain ⟨absorbed, after, -, hadded⟩ := bind_eq_ok.1 habsorbed
    obtain ⟨output, last, -, hpure⟩ := bind_eq_ok.1 hadded
    cases hpure
    exact congrArg cx.runtime.wireArray (NativeType.wire_ofPrimitive cx.runtime _ _ _)

theorem Wire.name_of_array_single {type : WireType} (hlabel : label ≠ "")
    (hitem : item.primitive? = some (primitive, minimum))
    (h : array cx (map cx budget) document (.single item) label request session =
      some (.ok type, session')) :
    type.name = cx.runtime.wireArray (cx.runtime.wirePrimitive primitive minimum) := by
  rw [array_single] at h
  cases budget with
  | zero => cases h
  | succ budget =>
    have hname := Request.elementLabel_ne_empty item hlabel
    rw [map_primitive budget hitem (Request.label_of_name hname item), pure_bind] at h
    obtain ⟨output, after, -, hpure⟩ := bind_eq_ok.1 h
    cases hpure
    rfl

end Runs

namespace ArrayQuery

variable {cx : Context} {q : ArrayQuery} {answer : Answer} {items : Items} {item : Node}

theorem exists_element (h : (q.withItems items).Yields cx answer) :
    ∃ item, items.element q.request.path = .ok item := by
  obtain ⟨side, document, title, description, request⟩ := q
  obtain ⟨htype, later, hends⟩ := h
  cases hends with
  | @native _ _ _ _ _ result h =>
    obtain ⟨budget, hrun⟩ := h
    cases result with
    | error failure => cases htype
    | ok type =>
      obtain ⟨-, -, -, -, helement⟩ := Native.exists_array_run hrun
      exact helement
  | @wire _ _ _ _ _ result h =>
    obtain ⟨budget, hrun⟩ := h
    cases result with
    | error failure => cases htype
    | ok type =>
      obtain ⟨-, -, -, -, helement⟩ := Wire.exists_array_run hrun
      exact helement

theorem wire?_of_primitive {primitive : Primitive} {minimum : Option Double}
    (hitem : item.primitive? = some (primitive, minimum))
    (h : (q.withItems (.single item)).Yields cx answer) :
    answer.wire? =
      some (cx.runtime.wireArray (cx.runtime.wirePrimitive primitive minimum)) := by
  obtain ⟨side, document, title, description, request⟩ := q
  obtain ⟨htype, later, hends⟩ := h
  cases hends with
  | @native _ _ _ _ _ result h =>
    obtain ⟨budget, hrun⟩ := h
    cases result with
    | error failure => cases htype
    | ok type =>
      obtain ⟨budget, label, hlabel, harray, -⟩ := Native.exists_array_run hrun
      exact congrArg some (Native.wire_of_array_single hlabel hitem harray)
  | @wire _ _ _ _ _ result h =>
    obtain ⟨budget, hrun⟩ := h
    cases result with
    | error failure => cases htype
    | ok type =>
      obtain ⟨budget, label, hlabel, harray, -⟩ := Wire.exists_array_run hrun
      exact congrArg some (Wire.name_of_array_single hlabel hitem harray)

/-- The item schemas count one after the other as the list is put in all orders. -/
theorem yieldsInAnyOrder_iff {items : List Node}
    (h : (q.withItems (.tuple items)).Yields cx answer) :
    q.YieldsInAnyOrder cx items answer ↔
      ∀ item ∈ items, (q.withItems (.single item)).Yields cx answer := by
  obtain ⟨first, hfirst⟩ := exists_element h
  constructor
  · intro hany item hitem
    obtain ⟨items', hperm, hcounts⟩ := Items.exists_perm_of_mem hfirst hitem
    exact yields_of_element_eq hcounts (hany items' hperm)
  · intro hall items' hperm
    obtain ⟨item, hitem, hcounts⟩ := Items.exists_element_of_perm hfirst hperm
    have helement : (Items.single item).element q.request.path =
        (Items.tuple items').element q.request.path := hcounts.symm
    exact yields_of_element_eq helement (hall item hitem)

theorem yields_of_alike {other : Node} (halike : item.Alike other)
    (h : (q.withItems (.single item)).Yields cx answer) :
    (q.withItems (.single other)).Yields cx answer :=
  yields_congr (fun budget _ hlabel ↦ Native.array_alike_congr budget hlabel halike)
    (fun budget _ hlabel ↦ Wire.array_alike_congr budget hlabel halike) h

theorem yields_of_scalar {other : Node} {scalar : Primitive × Bool}
    (hitem : item.scalar? = some scalar) (hother : other.scalar? = some scalar)
    (h : (q.withItems (.single item)).Yields cx answer) :
    (q.withItems (.single other)).Yields cx answer :=
  yields_congr (fun budget _ hlabel ↦ Native.array_scalar_congr budget hlabel hitem hother)
    (fun budget _ hlabel ↦ Wire.array_scalar_congr budget hlabel hitem hother) h

end ArrayQuery

/-- Constants of one category have one type. -/
theorem constantType?_eq_of_category_eq {value value' : Json}
    (h : value.category = value'.category) : constantType? value = constantType? value' := by
  cases value with
  | number n =>
    cases n <;> cases value' with
    | number n' => cases n' <;> first | rfl | cases h
    | _ => cases h
  | _ =>
    cases value' with
    | number n' => cases n' <;> cases h
    | _ => first | rfl | cases h

/-- All items of the coarse shape of a scalar are scalars of its type. -/
theorem Node.exists_primitive_of_itemShape_eq {item first : Node} {primitive : Primitive}
    {minimum : Option Double} (hfirst : first.primitive? = some (primitive, minimum))
    (hshape : item.itemShape = first.itemShape) :
    ∃ minimum, item.primitive? = some (primitive, minimum) := by
  obtain ⟨title, description, kind⟩ := first
  obtain ⟨title', description', kind'⟩ := item
  unfold itemShape at hshape
  cases kind with
  | primitive type bound =>
    cases hfirst
    cases kind' with
    | primitive type' bound' =>
      cases hshape
      exact ⟨bound', rfl⟩
    | _ => cases hshape
  | constant value bound =>
    obtain ⟨type, htype, heq⟩ := Option.map_eq_some_iff.1 hfirst
    cases heq
    cases kind' with
    | constant value' bound' =>
      have hcategory : value'.category = value.category := ItemShape.constant.inj hshape
      refine ⟨bound', ?_⟩
      change (constantType? value').map (·, bound') = _
      rw [constantType?_eq_of_category_eq hcategory, htype]
      rfl
    | _ => cases hshape
  | _ => cases hfirst

/-- Scalars of one type that are carried alike are represented alike. -/
theorem Node.scalar?_eq_of_wirePrimitive_eq {item first : Node} {primitive : Primitive}
    {minimum minimum' : Option Double} {runtime : Runtime}
    (hitem : item.primitive? = some (primitive, minimum))
    (hfirst : first.primitive? = some (primitive, minimum'))
    (hwire : runtime.wirePrimitive primitive minimum = runtime.wirePrimitive primitive minimum') :
    item.scalar? = first.scalar? := by
  have hunsigned := (runtime.wirePrimitive_eq_iff).1 hwire
  have hsign : (primitive = .integer ∧ isUnsigned minimum = true) ↔
      (primitive = .integer ∧ isUnsigned minimum' = true) := by
    constructor <;> rintro ⟨hinteger, h⟩ <;> simp_all
  unfold scalar?
  rw [hitem, hfirst]
  simp only [Option.map_some, hsign]

/-- Items with the coarse shape of a reference refer to the same. -/
theorem Node.alike_of_itemShape_eq {item first : Node} (hfirst : first.isReference = true)
    (hshape : item.itemShape = first.itemShape) : first.Alike item := by
  refine ⟨?_, .inl hfirst⟩
  obtain ⟨title, description, kind⟩ := first
  obtain ⟨title', description', kind'⟩ := item
  cases kind with
  | reference target =>
    cases kind' with
    | reference target' =>
      cases hshape
      rfl
    | _ => cases hshape
  | _ => cases hfirst

/-- The first of a list of item schemas stands for all of them, in the sense that the list may be
put in any order, exactly if each of them alone gives the array the same type. For scalars that is
so exactly if all of them are whole numbers with a sign, or all of them without, as far as they are
whole numbers at all. It is so for references, and for schemas that are written alike. -/
theorem first_item_is_representative_iff {cx : Context} {q : ArrayQuery} {items : List Node}
    {answer : Answer} (h : (q.withItems (.tuple items)).Yields cx answer) :
    (q.YieldsInAnyOrder cx items answer ↔
      ∀ item ∈ items, (q.withItems (.single item)).Yields cx answer) ∧
    (∀ first scalar, items.head? = some first → first.scalar? = some scalar →
      (q.YieldsInAnyOrder cx items answer ↔ ∀ item ∈ items, item.scalar? = some scalar)) ∧
    (∀ first, items.head? = some first → first.isReference = true →
      q.YieldsInAnyOrder cx items answer) ∧
    ((∀ item ∈ items, ∀ other ∈ items, item.Alike other) →
      q.YieldsInAnyOrder cx items answer) := by
  obtain ⟨first, hfirst⟩ := ArrayQuery.exists_element h
  obtain ⟨hhead, hshapes⟩ := Items.element_tuple_eq_ok.1 hfirst
  have hsingle : (q.withItems (.single first)).Yields cx answer :=
    ArrayQuery.yields_of_element_eq hfirst h
  have halike : (∀ item ∈ items, first.Alike item) → q.YieldsInAnyOrder cx items answer :=
    fun hall ↦ (ArrayQuery.yieldsInAnyOrder_iff h).2 fun item hitem ↦
      ArrayQuery.yields_of_alike (hall item hitem) hsingle
  refine ⟨ArrayQuery.yieldsInAnyOrder_iff h, fun found scalar hfound hscalar ↦ ?_,
    fun found hfound hreference ↦ ?_, fun hall ↦ ?_⟩
  · cases hhead.symm.trans hfound
    obtain ⟨minimum, hprimitive, -⟩ := Node.exists_primitive hscalar
    rw [ArrayQuery.yieldsInAnyOrder_iff h]
    constructor
    · intro hyields item hitem
      obtain ⟨minimum', hprimitive'⟩ :=
        Node.exists_primitive_of_itemShape_eq hprimitive (hshapes item hitem)
      have hwire := (ArrayQuery.wire?_of_primitive hprimitive' (hyields item hitem)).symm.trans
        (ArrayQuery.wire?_of_primitive hprimitive hsingle)
      rw [← hscalar]
      exact Node.scalar?_eq_of_wirePrimitive_eq hprimitive' hprimitive
        (Runtime.wireArray_injective (Option.some.inj hwire))
    · intro hscalars item hitem
      exact ArrayQuery.yields_of_scalar hscalar (hscalars item hitem) hsingle
  · cases hhead.symm.trans hfound
    exact halike fun item hitem ↦ Node.alike_of_itemShape_eq hreference (hshapes item hitem)
  · exact halike fun item hitem ↦ hall first (List.mem_of_head? hhead) item hitem

namespace MixedSigns

def document : Document := ⟨"Range", "Range", .schema, "#/definitions", [], [], .null⟩

def cx : Context := ⟨⟨[document]⟩, {}⟩

def query : ArrayQuery := ⟨.native, document, none, none, ⟨"bounds", "", "Range#/bounds"⟩⟩

/-- A whole number without a sign, which its title does not change. -/
def lower : Node := .mk (some "Lower") none (.primitive .integer (some (.zero false)))

def upper : Node := .mk none none (.primitive .integer (some (.zero true)))

/-- A whole number that may be negative. -/
def offset : Node := .mk none none (.primitive .integer none)

/-- The carrier of the array, once it is mapped. -/
def carrier? (items : List Node) : Option String :=
  ((Native.map cx 4 document (query.withItems (.tuple items)).node query.request {}).bind
    (·.1.toOption)).map (·.wire)

theorem exists_yields {items : List Node} {carrier : String} (h : carrier? items = some carrier) :
    ∃ answer, (query.withItems (.tuple items)).Yields cx answer ∧
      answer.wire? = some carrier := by
  obtain ⟨type, htype, rfl⟩ := Option.map_eq_some_iff.1 h
  obtain ⟨⟨result, session⟩, hrun, hresult⟩ := Option.bind_eq_some_iff.1 htype
  cases result with
  | error failure => cases hresult
  | ok found =>
    cases hresult
    exact ⟨.native (.ok type), ⟨rfl, session, .native ⟨4, hrun⟩⟩, rfl⟩

theorem carrier?_bounds : carrier? [lower, upper] =
    some "WPEFramework::Core::JSON::ArrayType<WPEFramework::Core::JSON::DecUInt32>" := by
  decide +kernel

/-- Bounds that are both without a sign may be listed in any order. -/
theorem bounds_in_any_order : ∃ answer,
    (query.withItems (.tuple [lower, upper])).Yields cx answer ∧
      query.YieldsInAnyOrder cx [lower, upper] answer := by
  obtain ⟨answer, hyields, -⟩ := exists_yields carrier?_bounds
  have hscalars : ∀ item ∈ [lower, upper], item.scalar? = some (.integer, true) := by decide +kernel
  exact ⟨answer, hyields, ((first_item_is_representative_iff hyields).2.1 lower _ rfl
    (hscalars lower (.head _))).2 hscalars⟩

theorem carrier?_unsigned : carrier? [lower, offset] =
    some "WPEFramework::Core::JSON::ArrayType<WPEFramework::Core::JSON::DecUInt32>" := by
  decide +kernel

theorem carrier?_signed : carrier? [offset, lower] =
    some "WPEFramework::Core::JSON::ArrayType<WPEFramework::Core::JSON::DecSInt32>" := by
  decide +kernel

/-- A list of a number without a sign and one with a sign is accepted in both orders, and the first
of them decides on the sign of both. -/
theorem first_sign_decides : ∃ answer,
    (query.withItems (.tuple [lower, offset])).Yields cx answer ∧
      ¬query.YieldsInAnyOrder cx [lower, offset] answer := by
  obtain ⟨answer, hyields, hunsigned⟩ := exists_yields carrier?_unsigned
  obtain ⟨answer', ⟨-, later', hends'⟩, hsigned⟩ := exists_yields carrier?_signed
  refine ⟨answer, hyields, fun hany ↦ ?_⟩
  obtain ⟨-, later, hends⟩ := hany [offset, lower] (.swap _ _ _)
  cases hends.unique hends'
  rw [hunsigned] at hsigned
  exact absurd hsigned (by decide)

end MixedSigns

end SchemaBindings
