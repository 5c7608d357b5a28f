import SchemaBindings.Proofs.Calls
import SchemaBindings.Proofs.Definitions
import SchemaBindings.Proofs.Roots

/-!
# Names of properties

The entries of every object that is read from a text have distinct names. So have the properties of
every schema that is read from a document, and qualifying and merging schemas keeps it that way. A
property is therefore known by its name wherever a mapper finds it.
-/

namespace SchemaBindings

/-- All objects in the value have entries with distinct names. -/
inductive Json.Distinct : Json → Prop
  | null : Distinct .null
  | bool (value : Bool) : Distinct (.bool value)
  | number (value : Number) : Distinct (.number value)
  | string (value : String) : Distinct (.string value)
  | array {items : List Json} (h : ∀ item ∈ items, Distinct item) : Distinct (.array items)
  | object {entries : List (String × Json)} (hnames : (Table.keys entries).Nodup)
      (h : ∀ entry ∈ entries, Distinct entry.2) : Distinct (.object entries)

@[simp]
theorem Json.distinct_string (value : String) : (Json.string value).Distinct := .string value

@[simp]
theorem Json.distinct_array_iff {items : List Json} :
    (Json.array items).Distinct ↔ ∀ item ∈ items, item.Distinct := by
  refine ⟨fun h ↦ ?_, .array⟩
  cases h with
  | array h => exact h

@[simp]
theorem Json.distinct_object_iff {entries : List (String × Json)} :
    (Json.object entries).Distinct ↔
      (Table.keys entries).Nodup ∧ ∀ entry ∈ entries, entry.2.Distinct := by
  refine ⟨fun h ↦ ?_, fun h ↦ .object h.1 h.2⟩
  cases h with
  | object hnames h => exact ⟨hnames, h⟩

theorem Json.Distinct.items {items : List Json} (h : (Json.array items).Distinct) :
    ∀ item ∈ items, item.Distinct :=
  Json.distinct_array_iff.1 h

theorem Json.Distinct.nodup {entries : List (String × Json)} (h : (Json.object entries).Distinct) :
    (Table.keys entries).Nodup :=
  (Json.distinct_object_iff.1 h).1

theorem Json.Distinct.entries {entries : List (String × Json)}
    (h : (Json.object entries).Distinct) : ∀ entry ∈ entries, entry.2.Distinct :=
  (Json.distinct_object_iff.1 h).2

theorem Json.Distinct.get? {entries : List (String × Json)} (h : (Json.object entries).Distinct)
    {name : String} {value : Json} (hvalue : Table.get? name entries = some value) :
    value.Distinct :=
  h.entries _ (Table.mem_of_get?_eq_some hvalue)

/-- What stands somewhere in a document. -/
theorem Json.Distinct.at? {value found : Json} (h : value.Distinct) {pointer : String}
    (hfound : value.at? pointer = some found) : found.Distinct := by
  obtain ⟨steps, -, hsteps⟩ := Option.bind_eq_some_iff.1 hfound
  clear hfound
  induction steps generalizing value with
  | nil =>
    cases hsteps
    exact h
  | cons step rest ih =>
    rw [List.foldlM_cons] at hsteps
    obtain ⟨next, hnext, hrest⟩ := Option.bind_eq_some_iff.1 hsteps
    refine ih ?_ hrest
    cases value with
    | object entries => exact h.get? hnext
    | array items =>
      obtain ⟨position, -, hitem⟩ := Option.bind_eq_some_iff.1 hnext
      exact h.items _ (List.mem_of_getElem? hitem)
    | _ => cases hnext

theorem Document.distinct_of_fragment? {document : Document} (h : document.content.Distinct)
    {fragment : String} {value : Json} (hvalue : document.fragment? fragment = some value) :
    value.Distinct := by
  unfold fragment? at hvalue
  split at hvalue
  · exact h.at? hvalue
  · exact h.at? hvalue

/-! ## Values of texts -/

namespace Json.Reader

/-- A value that the text spells out has distinct names. -/
def Token.Distinct : Token → Prop
  | .scalar value => value.Distinct
  | _ => True

/-- What an open array or object has so far has distinct names. -/
def Frame.Distinct : Frame → Prop
  | .items done => ∀ item ∈ done, item.Distinct
  | .entries done _ => (Json.object done).Distinct

/-- All that is open has distinct names, and so has the value that is finished. -/
structure Build.Distinct (build : Build) : Prop where
  stack : ∀ frame ∈ build.stack, frame.Distinct
  finished : ∀ value, build.expect = .finished value → value.Distinct

theorem distinct_of_word? {text : List Char} {value : Json} (h : word? text = some value) :
    value.Distinct := by
  unfold word? at h
  split at h
  · cases h
    exact .bool true
  · split at h
    · cases h
      exact .bool false
    · split at h
      · cases h
        exact .null
      · obtain ⟨_, -, hnumber⟩ := Option.bind_eq_some_iff.1 h
        obtain ⟨number, -, rfl⟩ := Option.map_eq_some_iff.1 hnumber
        exact .number number

theorem distinct_of_between? {c : Char} {next : Scan} {tokens : List Token}
    (h : between? c = some (next, tokens)) : ∀ token ∈ tokens, token.Distinct := by
  unfold between? at h
  split at h
  case h_12 =>
    split at h <;> cases h
    exact nofun
  all_goals
    cases h
    simp [Token.Distinct]

/-- A character ends at most one value, which is no array and no object. -/
theorem distinct_of_scan? {state next : Scan} {c : Char} {tokens : List Token}
    (h : scan? state c = some (next, tokens)) : ∀ token ∈ tokens, token.Distinct := by
  cases state with
  | between => exact distinct_of_between? h
  | word gathered =>
    rw [scan?] at h
    split at h
    · cases h
      exact nofun
    · obtain ⟨value, hvalue, hrest⟩ := Option.bind_eq_some_iff.1 h
      obtain ⟨⟨after, more⟩, hmore, hlast⟩ := Option.bind_eq_some_iff.1 hrest
      cases hlast
      exact List.forall_mem_cons.2 ⟨distinct_of_word? hvalue, distinct_of_between? hmore⟩
  | text gathered =>
    rw [scan?] at h
    split at h
    · cases h
      exact List.forall_mem_singleton.2 (.string _)
    · repeat' split at h
      all_goals cases h
      all_goals exact nofun
  | escape gathered =>
    rw [scan?] at h
    split at h
    · cases h
      exact nofun
    · obtain ⟨_, -, hnext⟩ := Option.map_eq_some_iff.1 h
      cases hnext
      exact nofun
  | code gathered high missing value =>
    obtain ⟨digit, -, hdigit⟩ := Option.bind_eq_some_iff.1 h
    split at hdigit
    · obtain ⟨_, -, hnext⟩ := Option.map_eq_some_iff.1 hdigit
      cases hnext
      exact nofun
    · cases hdigit
      exact nofun
  | pair gathered high =>
    rw [scan?] at h
    split at h <;> cases h
    exact nofun
  | pairCode gathered high =>
    rw [scan?] at h
    split at h <;> cases h
    exact nofun

theorem distinct_of_tokens? {state : Scan} {gathered tokens : List Token} {text : List Char}
    (hgathered : ∀ token ∈ gathered, token.Distinct)
    (h : tokens? state gathered text = some tokens) : ∀ token ∈ tokens, token.Distinct := by
  induction text generalizing state gathered with
  | nil =>
    unfold tokens? at h
    split at h
    · cases h
      exact fun token htoken ↦ hgathered token (List.mem_reverse.1 htoken)
    · obtain ⟨value, hvalue, rfl⟩ := Option.map_eq_some_iff.1 h
      intro token htoken
      obtain rfl | hold := List.mem_cons.1 (List.mem_reverse.1 htoken)
      · exact distinct_of_word? hvalue
      · exact hgathered token hold
    · cases h
  | cons c rest ih =>
    rw [tokens?] at h
    split at h
    · refine ih (fun token htoken ↦ ?_) h
      obtain hnew | hold := List.mem_append.1 htoken
      · exact distinct_of_scan? ‹_› token (List.mem_reverse.1 hnew)
      · exact hgathered token hold
    · cases h

variable {limit : Option Nat} {stack : List Frame} {state next : Build} {token : Token}

theorem Build.Distinct.of_stack {expect : Expect} (hstack : ∀ frame ∈ stack, frame.Distinct)
    (hexpect : ∀ value, expect ≠ .finished value) : Build.Distinct ⟨stack, expect⟩ :=
  ⟨hstack, fun value h ↦ absurd h (hexpect value)⟩

/-- A value goes to what is open around it; an entry takes the place of one of the same name. -/
theorem distinct_complete (hstack : ∀ frame ∈ stack, frame.Distinct) {value : Json}
    (hvalue : value.Distinct) : (complete stack value).Distinct := by
  unfold complete
  split
  case h_1 =>
    refine ⟨hstack, ?_⟩
    rintro _ ⟨⟩
    exact hvalue
  case h_2 =>
    obtain ⟨hdone, hrest⟩ := List.forall_mem_cons.1 hstack
    exact .of_stack (List.forall_mem_cons.2 ⟨List.forall_mem_cons.2 ⟨hvalue, hdone⟩, hrest⟩) nofun
  case h_3 name _ =>
    obtain ⟨hdone, hrest⟩ := List.forall_mem_cons.1 hstack
    have hentries := Json.Distinct.object
      (Table.nodup_keys_put (Json.Distinct.nodup hdone) name value)
      (fun entry hentry ↦ (Table.mem_put hentry).elim (fun heq ↦ heq ▸ hvalue)
        (Json.Distinct.entries hdone entry))
    exact .of_stack (List.forall_mem_cons.2 ⟨hentries, hrest⟩) nofun

theorem distinct_of_value? (hstack : ∀ frame ∈ stack, frame.Distinct) (htoken : token.Distinct)
    (h : value? limit stack token = some next) : next.Distinct := by
  have hbegin : ∀ frame expect, Frame.Distinct frame → (∀ value, expect ≠ .finished value) →
      begin? limit stack frame expect = some next → next.Distinct := by
    intro frame expect hframe hexpect h
    unfold begin? at h
    split at h <;> cases h
    exact .of_stack (List.forall_mem_cons.2 ⟨hframe, hstack⟩) hexpect
  unfold value? at h
  split at h
  case h_1 => exact hbegin (.items []) .firstItem nofun nofun h
  case h_2 => exact hbegin (.entries [] "") .firstName (.object List.nodup_nil nofun) nofun h
  case h_3 =>
    cases h
    exact distinct_complete hstack htoken
  case h_4 => cases h

theorem distinct_of_build? (hstate : state.Distinct) (htoken : token.Distinct)
    (h : build? limit state token = some next) : next.Distinct := by
  have hstack := hstate.stack
  unfold build? at h
  split at h
  case h_1 | h_3 => exact distinct_of_value? hstack htoken h
  case h_2 hopen =>
    cases h
    rw [hopen] at hstack
    exact distinct_complete (List.forall_mem_cons.1 hstack).2 (.array nofun)
  case h_4 hopen =>
    cases h
    rw [hopen] at hstack
    exact distinct_complete (List.forall_mem_cons.1 hstack).2 (.object List.nodup_nil nofun)
  case h_5 hopen | h_6 hopen =>
    cases h
    rw [hopen] at hstack
    obtain ⟨hdone, hrest⟩ := List.forall_mem_cons.1 hstack
    exact .of_stack (List.forall_mem_cons.2 ⟨hdone, hrest⟩) nofun
  case h_7 =>
    cases h
    exact .of_stack hstack nofun
  case h_8 hopen | h_10 hopen =>
    cases h
    rw [hopen] at hstack
    exact .of_stack hstack nofun
  case h_9 hopen =>
    cases h
    rw [hopen] at hstack
    obtain ⟨hdone, hrest⟩ := List.forall_mem_cons.1 hstack
    exact distinct_complete hrest (.array fun item hitem ↦ hdone item (List.mem_reverse.1 hitem))
  case h_11 hopen =>
    cases h
    rw [hopen] at hstack
    obtain ⟨hdone, hrest⟩ := List.forall_mem_cons.1 hstack
    exact distinct_complete hrest hdone
  case h_12 => cases h

theorem distinct_of_builds {tokens : List Token} (hstate : state.Distinct)
    (htokens : ∀ token ∈ tokens, token.Distinct)
    (h : tokens.foldlM (build? limit) state = some next) : next.Distinct := by
  induction tokens generalizing state with
  | nil =>
    cases h
    exact hstate
  | cons token rest ih =>
    obtain ⟨htoken, hrest⟩ := List.forall_mem_cons.1 htokens
    rw [List.foldlM_cons] at h
    obtain ⟨between, hbetween, hlast⟩ := Option.bind_eq_some_iff.1 h
    exact ih (distinct_of_build? hstate htoken hbetween) hrest hlast

end Json.Reader

/-- All objects in a value that was read from a text have entries with distinct names. -/
theorem Json.distinct_of_read? {limit : Option Nat} {text : String} {value : Json}
    (h : read? limit text = some value) : value.Distinct := by
  obtain ⟨tokens, htokens, hrest⟩ := Option.bind_eq_some_iff.1 h
  obtain ⟨final, hfinal, hlast⟩ := Option.bind_eq_some_iff.1 hrest
  have hstart : Reader.Build.Distinct ⟨[], .value⟩ := .of_stack nofun nofun
  have hdistinct := Reader.distinct_of_builds hstart
    (Reader.distinct_of_tokens? (List.forall_mem_nil _) htokens) hfinal
  split at hlast
  · cases hlast
    exact hdistinct.finished _ ‹_›
  · cases hlast

/-! ## Schemas inside of a schema -/

/-- The schema is a part of those that have the kind, or a member of these compositions. -/
inductive Kind.Holds : Kind → Node → Prop
  | item {items : Items} {node : Node} (h : node ∈ items.nodes) : Holds (.array items) node
  | property {schema : ObjectSchema} {entry : String × Node} (h : entry ∈ schema.members) :
      Holds (.object schema) entry.2
  | additional {schema : ObjectSchema} {node : Node} (h : schema.additional = some node) :
      Holds (.object schema) node
  | member {members : List Node} {node : Node} (h : node ∈ members) : Holds (.allOf members) node

theorem Kind.holds_iff {kind : Kind} {node : Node} :
    kind.Holds node ↔ kind.isUnion = false ∧ node ∈ kind.inner := by
  constructor
  · intro h
    cases h with
    | item h => exact ⟨rfl, h⟩
    | property h => exact ⟨rfl, ObjectSchema.property_mem_inner h⟩
    | additional h => exact ⟨rfl, ObjectSchema.additional_mem_inner h⟩
    | member h => exact ⟨rfl, h⟩
  · rintro ⟨hunion, h⟩
    cases kind with
    | object schema =>
      obtain ⟨entry, hentry, rfl⟩ | hadditional := ObjectSchema.mem_inner_iff.1 h
      · exact .property hentry
      · exact .additional hadditional
    | array items => exact .item h
    | allOf members => exact .member h
    | oneOf members => cases hunion
    | anyOf members => cases hunion
    | _ => cases h

theorem Kind.Holds.mem_inner {kind : Kind} {node : Node} (h : kind.Holds node) :
    node ∈ kind.inner :=
  (holds_iff.1 h).2

/-- A property of the kind and of the kinds of all schemas that it is made of, however deep. -/
inductive Kind.Throughout (property : Kind → Prop) : Kind → Prop
  | intro {kind : Kind} (here : property kind)
      (inside : ∀ node ∈ kind.inner, Throughout property node.kind) : Throughout property kind

namespace Kind.Throughout

variable {property : Kind → Prop} {kind : Kind}

theorem here (h : kind.Throughout property) : property kind := by
  cases h with
  | intro here _ => exact here

theorem inside (h : kind.Throughout property) {node : Node} (hnode : node ∈ kind.inner) :
    node.kind.Throughout property := by
  cases h with
  | intro _ inside => exact inside node hnode

theorem of_leaf (here : property kind) (h : kind.inner = []) : kind.Throughout property :=
  .intro here fun _ hnode ↦ absurd hnode (h ▸ List.not_mem_nil)

end Kind.Throughout

theorem Node.Part.holds {part whole : Node} (h : Part part whole) : whole.kind.Holds part := by
  refine Kind.holds_iff.2 ⟨?_, h.mem_inner⟩
  cases h with
  | item hkind | value hkind | child hkind =>
    rw [hkind]
    rfl

/-! ## Reading -/

section Reading

open Schema

variable {path : String}

theorem mem_of_readList {position : Nat} {items : List Json} {nodes : List Node}
    (h : readList path position items = .ok nodes) {node : Node} (hnode : node ∈ nodes) :
    ∃ item ∈ items, ∃ place, Node.read place item = .ok node := by
  induction items generalizing position nodes with
  | nil =>
    rw [readList] at h
    cases h
    cases hnode
  | cons item rest ih =>
    rw [readList] at h
    obtain ⟨first, hfirst, hothers⟩ := Failure.bind_eq_ok.1 h
    obtain ⟨others, hrest, hpure⟩ := Failure.bind_eq_ok.1 hothers
    cases hpure
    obtain rfl | hmem := List.mem_cons.1 hnode
    · exact ⟨item, .head rest, _, hfirst⟩
    · obtain ⟨found, hfound, hread⟩ := ih hrest hmem
      exact ⟨found, .tail item hfound, hread⟩

theorem keys_of_readEntries {entries : Entries} {nodes : List (String × Node)}
    (h : readEntries path entries = .ok nodes) : Table.keys nodes = Table.keys entries := by
  induction entries generalizing nodes with
  | nil =>
    rw [readEntries] at h
    cases h
    rfl
  | cons entry rest ih =>
    obtain ⟨name, value⟩ := entry
    rw [readEntries] at h
    obtain ⟨first, hfirst, hothers⟩ := Failure.bind_eq_ok.1 h
    obtain ⟨others, hrest, hpure⟩ := Failure.bind_eq_ok.1 hothers
    cases hpure
    exact congrArg (name :: ·) (ih hrest)

theorem mem_of_readEntries {entries : Entries} {nodes : List (String × Node)}
    (h : readEntries path entries = .ok nodes) {entry : String × Node} (hentry : entry ∈ nodes) :
    ∃ written ∈ entries, ∃ place, Node.read place written.2 = .ok entry.2 := by
  induction entries generalizing nodes with
  | nil =>
    rw [readEntries] at h
    cases h
    cases hentry
  | cons written rest ih =>
    obtain ⟨name, value⟩ := written
    rw [readEntries] at h
    obtain ⟨first, hfirst, hothers⟩ := Failure.bind_eq_ok.1 h
    obtain ⟨others, hrest, hpure⟩ := Failure.bind_eq_ok.1 hothers
    cases hpure
    obtain rfl | hmem := List.mem_cons.1 hentry
    · exact ⟨_, .head rest, _, hfirst⟩
    · obtain ⟨found, hfound, hread⟩ := ih hrest hmem
      exact ⟨found, .tail _ hfound, hread⟩

/-- What the form of a schema has inside stands in the entries of the schema. -/
inductive Schema.Form.Holds : Form → Json → Prop
  | tuple {items : List Json} {value : Json} (h : value ∈ items) : Holds (.tuple items) value
  | single (item : Json) : Holds (.single item) item
  | composed {composition : Composition} {members : List Json} {value : Json}
      (h : value ∈ members) : Holds (.composed composition members) value
  | property {properties : Entries} {required : Option (List String)} {additional : Option Json}
      {pattern : Bool} {entry : String × Json} (h : entry ∈ properties) :
      Holds (.object (some properties) required additional pattern) entry.2
  | additional {properties : Option Entries} {required : Option (List String)} {value : Json}
      {pattern : Bool} : Holds (.object properties required (some value) pattern) value

theorem Schema.Form.Holds.sizeOf_le {f : Form} {value : Json} (h : f.Holds value) :
    sizeOf value ≤ f.size := by
  cases h with
  | tuple h => exact Nat.le_of_lt (List.sizeOf_lt_of_mem h)
  | single item => exact Nat.le_refl _
  | composed h => exact Nat.le_of_lt (List.sizeOf_lt_of_mem h)
  | @property properties _ _ _ entry h =>
    have hpair : sizeOf entry = 1 + sizeOf entry.1 + sizeOf entry.2 := by
      obtain ⟨name, value⟩ := entry
      rfl
    have hmem := List.sizeOf_lt_of_mem h
    simp only [Form.size, Option.map_some, Option.getD_some]
    omega
  | additional => simp [Form.size]

/-- What is left to read of a schema has entries with distinct names. -/
structure Schema.Form.Distinct (f : Form) : Prop where
  holds : ∀ value, f.Holds value → value.Distinct
  names : ∀ properties required additional pattern,
    f = .object (some properties) required additional pattern → (Table.keys properties).Nodup

theorem Schema.Form.distinct_of_size_eq_zero {f : Form} (h : f.size = 0) : f.Distinct where
  holds value hvalue := by
    have hle := hvalue.sizeOf_le
    have hpos : 0 < sizeOf value := by cases value <;> simp +arith
    omega
  names properties required additional pattern heq := by
    subst heq
    have hpos := sizeOf_pos properties
    simp only [Form.size, Option.map_some, Option.getD_some] at h
    omega

variable {entries : Entries} (hentries : (Json.object entries).Distinct)
include hentries

theorem Schema.distinct_itemsForm : (itemsForm entries).Distinct := by
  unfold itemsForm
  split
  case h_1 items hitems =>
    refine ⟨fun value hvalue ↦ ?_, nofun⟩
    cases hvalue with
    | tuple h => exact (hentries.get? hitems).items value h
  case h_2 item _ hitem =>
    refine ⟨fun value hvalue ↦ ?_, nofun⟩
    cases hvalue with
    | single => exact hentries.get? hitem
  case h_3 => exact Form.distinct_of_size_eq_zero rfl

theorem Schema.distinct_objectForm : (objectForm entries).Distinct := by
  have hproperties : ∀ {properties},
      (Table.get? "properties" entries).bind Json.asObject? = some properties →
        (Json.object properties).Distinct := by
    intro properties h
    obtain ⟨value, hvalue, hobject⟩ := Option.bind_eq_some_iff.1 h
    cases value <;> cases hobject
    exact hentries.get? hvalue
  unfold objectForm
  constructor
  · intro value hvalue
    generalize hfound : (Table.get? "properties" entries).bind Json.asObject? = properties
      at hvalue
    generalize hvalues : additional? entries = additional at hvalue
    cases hvalue with
    | property h => exact (hproperties hfound).entries _ h
    | additional =>
      unfold additional? at hvalues
      split at hvalues <;> cases hvalues
      exact hentries.get? ‹_›
  · intro properties required additional pattern heq
    obtain ⟨hfound, -⟩ := Form.object.inj heq
    exact (hproperties hfound).nodup

theorem Schema.distinct_shapeForm {type : Option String} {f : Form}
    (h : shapeForm path type entries = .ok f) : f.Distinct := by
  unfold shapeForm at h
  split at h
  · cases h
    exact distinct_itemsForm hentries
  · split at h
    case h_1 composition members hcomposition =>
      cases h
      refine ⟨fun value hvalue ↦ ?_, nofun⟩
      cases hvalue with
      | composed hmember =>
        obtain ⟨keyword, -, hkeyword⟩ := List.exists_of_findSome?_eq_some hcomposition
        obtain ⟨found, hfound, hpair⟩ := Option.map_eq_some_iff.1 hkeyword
        cases hpair
        exact (hentries.get? hfound).items value hmember
    case h_2 => cases h
    case h_3 =>
      split at h <;> cases h
      · exact distinct_objectForm hentries
      · exact Form.distinct_of_size_eq_zero (size_primitiveForm type entries)

theorem Schema.distinct_form {f : Form} (h : form path entries = .ok f) : f.Distinct := by
  unfold form at h
  split at h
  case h_1 => cases h; exact Form.distinct_of_size_eq_zero rfl
  case h_2 => cases h
  case h_3 =>
    split at h
    case h_1 => cases h; exact Form.distinct_of_size_eq_zero rfl
    case h_2 =>
      split at h
      case h_1 type _ =>
        unfold typedForm at h
        split at h
        case h_1 values _ =>
          obtain ⟨cases, -, rfl⟩ := Failure.map_eq_ok.1 h
          exact Form.distinct_of_size_eq_zero rfl
        case h_2 => exact distinct_shapeForm hentries h
      case h_2 => cases h

omit hentries

/-- A schema is read as a constant only where it has the keyword. -/
theorem Schema.get?_const_of_form {value : Json} {minimum : Option Double}
    (h : form path entries = .ok (.constant value minimum)) :
    Table.get? "const" entries = some value := by
  unfold form at h
  split at h
  case h_1 => cases h
  case h_2 => cases h
  case h_3 =>
    split at h
    case h_1 => cases h; assumption
    case h_2 =>
      split at h
      case h_1 type _ =>
        unfold typedForm at h
        split at h
        case h_1 =>
          obtain ⟨cases, -, heq⟩ := Failure.map_eq_ok.1 h
          cases heq
        case h_2 =>
          unfold shapeForm itemsForm objectForm primitiveForm at h
          repeat' split at h
          all_goals cases h
      case h_2 => cases h

variable {f : Form} {kind : Kind}

/-- What a kind is made of was read from what its form has inside. -/
theorem Kind.exists_read_of_inner (h : Kind.ofForm path f = .ok kind) {node : Node}
    (hnode : node ∈ kind.inner) : ∃ value, f.Holds value ∧ ∃ place,
      Node.read place value = .ok node := by
  cases f with
  | tuple items =>
    rw [Kind.ofForm] at h
    obtain ⟨nodes, hnodes, hpure⟩ := Failure.bind_eq_ok.1 h
    cases hpure
    obtain ⟨value, hvalue, hread⟩ := mem_of_readList hnodes hnode
    exact ⟨value, .tuple hvalue, hread⟩
  | single item =>
    rw [Kind.ofForm] at h
    obtain ⟨found, hfound, hpure⟩ := Failure.bind_eq_ok.1 h
    cases hpure
    cases List.mem_singleton.1 hnode
    exact ⟨item, .single item, _, hfound⟩
  | composed composition members =>
    rw [Kind.ofForm] at h
    obtain ⟨nodes, hnodes, hpure⟩ := Failure.bind_eq_ok.1 h
    cases hpure
    have hmem : node ∈ nodes := by cases composition <;> exact hnode
    obtain ⟨value, hvalue, hread⟩ := mem_of_readList hnodes hmem
    exact ⟨value, .composed hvalue, hread⟩
  | object properties required additional pattern =>
    rw [Kind.ofForm] at h
    obtain ⟨members, hmembers, hrest⟩ := Failure.bind_eq_ok.1 h
    obtain ⟨values, hvalues, hpure⟩ := Failure.bind_eq_ok.1 hrest
    cases hpure
    obtain hproperty | hadditional := List.mem_append.1 hnode
    · obtain ⟨entry, hmem, rfl⟩ := List.mem_map.1 hproperty
      cases properties with
      | none =>
        rw [readProperties] at hmembers
        cases hmembers
        cases hmem
      | some properties =>
        rw [readProperties] at hmembers
        obtain ⟨nodes, hnodes, rfl⟩ := Failure.map_eq_ok.1 hmembers
        obtain ⟨written, hwritten, hread⟩ := mem_of_readEntries hnodes hmem
        exact ⟨written.2, .property hwritten, hread⟩
    · cases additional with
      | none =>
        rw [readAdditional] at hvalues
        cases hvalues
        cases hadditional
      | some value =>
        rw [readAdditional] at hvalues
        obtain ⟨read, hread, rfl⟩ := Failure.map_eq_ok.1 hvalues
        cases List.mem_singleton.1 hadditional
        exact ⟨value, .additional, _, hread⟩
  | _ =>
    rw [Kind.ofForm] at h
    cases h
    cases hnode

/-- The properties of a schema have distinct names, and so it is for all schemas inside. -/
inductive Kind.Distinct : Kind → Prop
  | intro {kind : Kind}
      (hnames : ∀ schema, kind = .object schema → (Table.keys schema.members).Nodup)
      (h : ∀ node, kind.Holds node → Distinct node.kind) : Distinct kind

theorem Kind.Distinct.inside (h : kind.Distinct) {node : Node} (hnode : kind.Holds node) :
    node.kind.Distinct := by
  cases h with
  | intro _ h => exact h node hnode

theorem Kind.Distinct.nodup {schema : ObjectSchema} (h : (Kind.object schema).Distinct) :
    (Table.keys schema.members).Nodup := by
  cases h with
  | intro hnames _ => exact hnames schema rfl

/-- A schema with nothing inside. -/
theorem Kind.distinct_of_plain (hobject : ∀ schema, kind ≠ .object schema)
    (h : ∀ node, ¬kind.Holds node) : kind.Distinct :=
  .intro (fun schema heq ↦ absurd heq (hobject schema)) fun node hnode ↦ absurd hnode (h node)

/-- The properties of an object, and the entries of a constant, have distinct names. -/
def Kind.HasNames : Kind → Prop
  | .object schema => (Table.keys schema.members).Nodup
  | .constant value _ => value.Distinct
  | _ => True

/-- All properties, and all entries of constants, have distinct names, however deep. -/
abbrev Kind.Regular : Kind → Prop := Kind.Throughout Kind.HasNames

theorem Kind.Regular.distinct {kind : Kind} (h : kind.Regular) : kind.Distinct := by
  induction h with
  | intro here _ ih =>
    refine .intro (fun schema heq ↦ ?_) fun node hnode ↦ ih node hnode.mem_inner
    subst heq
    exact here

theorem Kind.hasNames_of_ofForm (hf : f.Distinct)
    (hconstant : ∀ value minimum, f = .constant value minimum → value.Distinct)
    (h : Kind.ofForm path f = .ok kind) : kind.HasNames := by
  cases f with
  | constant value minimum =>
    rw [Kind.ofForm] at h
    cases h
    exact hconstant value minimum rfl
  | tuple items =>
    rw [Kind.ofForm] at h
    obtain ⟨nodes, -, hpure⟩ := Failure.bind_eq_ok.1 h
    cases hpure
    trivial
  | single item =>
    rw [Kind.ofForm] at h
    obtain ⟨found, -, hpure⟩ := Failure.bind_eq_ok.1 h
    cases hpure
    trivial
  | composed composition members =>
    rw [Kind.ofForm] at h
    obtain ⟨nodes, -, hpure⟩ := Failure.bind_eq_ok.1 h
    cases composition <;> cases hpure <;> trivial
  | object properties required additional pattern =>
    rw [Kind.ofForm] at h
    obtain ⟨members, hmembers, hrest⟩ := Failure.bind_eq_ok.1 h
    obtain ⟨values, -, hpure⟩ := Failure.bind_eq_ok.1 hrest
    cases hpure
    cases properties with
    | none =>
      rw [readProperties] at hmembers
      cases hmembers
      exact List.nodup_nil
    | some properties =>
      rw [readProperties] at hmembers
      obtain ⟨nodes, hnodes, rfl⟩ := Failure.map_eq_ok.1 hmembers
      change (Table.keys nodes).Nodup
      rw [keys_of_readEntries hnodes]
      exact hf.names properties required additional pattern rfl
  | _ =>
    rw [Kind.ofForm] at h
    cases h
    trivial

theorem Node.regular_of_read {value : Json} {node : Node} (h : Node.read path value = .ok node)
    (hvalue : value.Distinct) : node.kind.Regular := by
  induction hsize : sizeOf value using Nat.strong_induction_on generalizing path value node with
  | _ size ih =>
    cases value with
    | object entries =>
      obtain ⟨f, kind, hform, hkind, rfl⟩ := Node.read_object_eq_ok h
      have hf := Schema.distinct_form hvalue hform
      refine .intro (Kind.hasNames_of_ofForm hf (fun value minimum heq ↦ ?_) hkind)
        fun child hchild ↦ ?_
      · subst heq
        exact hvalue.get? (Schema.get?_const_of_form hform)
      · obtain ⟨inner, hinner, place, hread⟩ := Kind.exists_read_of_inner hkind hchild
        have hsmall := hinner.sizeOf_le
        have hsmaller := Schema.size_form_lt hform
        simp only [Json.object.sizeOf_spec] at hsize
        exact ih _ (by omega) hread (hf.holds inner hinner) rfl
    | bool =>
      rw [Node.read] at h
      cases h
      exact .of_leaf trivial rfl
    | _ =>
      rw [Node.read] at h
      · cases h
      all_goals nofun

theorem Node.distinct_of_read {value : Json} {node : Node} (h : Node.read path value = .ok node)
    (hvalue : value.Distinct) : node.kind.Distinct :=
  (Node.regular_of_read h hvalue).distinct

end Reading

/-! ## Documents -/

theorem Json.Distinct.value {value found : Json} (h : value.Distinct) {key : String}
    (hfound : value.get? key = some found) : found.Distinct := by
  cases value with
  | object entries => exact h.get? hfound
  | _ => cases hfound

/-- All schemas of the method have properties with distinct names. -/
structure Method.Distinct (method : Method) : Prop where
  params : ∀ param ∈ method.params, param.schema.kind.Distinct
  result : ∀ result, method.result = some result → result.schema.kind.Distinct

namespace Document

variable {content value : Json} {document : Document} {path : String}

theorem nodup_rawDefinitions (hcontent : content.Distinct) :
    (Table.keys (rawDefinitions content).2).Nodup := by
  unfold rawDefinitions
  split
  · exact (hcontent.value ‹_›).nodup
  · split
    · exact (hcontent.at? ‹_›).nodup
    · split <;> exact List.nodup_nil

/-- The definitions of a document have distinct names. -/
theorem nodup_definitions (h : read content = .ok document) (hcontent : content.Distinct) :
    (Table.keys document.definitions).Nodup := by
  obtain ⟨hdefinitions, -⟩ := read_eq_ok h
  rw [keys_of_readEntries hdefinitions]
  exact nodup_rawDefinitions hcontent

/-- A document that was read from a text is what is read in its content, which has distinct
names. -/
theorem readText_eq_ok {text : String} (h : readText text = .ok document) :
    read document.content = .ok document ∧ document.content.Distinct := by
  unfold readText at h
  split at h
  · cases h
  · rename_i content hcontent
    cases hread : read content with
    | error failure =>
      rw [hread] at h
      cases h
    | ok found =>
      rw [hread] at h
      cases h
      obtain ⟨-, -, -, rfl⟩ := read_eq_ok hread
      exact ⟨hread, Json.distinct_of_read? hcontent⟩

theorem distinct_of_elements (h : value.Distinct) {key : String} {element : Json}
    (helement : element ∈ elements value key) : element.Distinct := by
  unfold elements at helement
  split at helement
  · exact (h.value ‹_›).items element helement
  · cases helement

theorem distinct_of_schemaOr {node : Node} (h : schemaOr path value = .ok node)
    (hvalue : value.Distinct) : node.kind.Distinct := by
  unfold schemaOr at h
  split at h
  · exact Node.distinct_of_read h (hvalue.value ‹_›)
  · cases h
    exact Kind.distinct_of_plain nofun nofun

theorem distinct_of_readParams {position : Nat} {values : List Json} {params : List Param}
    (h : readParams path position values = .ok params)
    (hvalues : ∀ value ∈ values, value.Distinct) :
    ∀ param ∈ params, param.schema.kind.Distinct := by
  induction values generalizing position params with
  | nil =>
    cases h
    nofun
  | cons value rest ih =>
    obtain ⟨hvalue, hrest⟩ := List.forall_mem_cons.1 hvalues
    rw [readParams] at h
    split at h
    · cases h
    · obtain ⟨schema, hschema, hothers⟩ := Failure.bind_eq_ok.1 h
      obtain ⟨others, hread, hpure⟩ := Failure.bind_eq_ok.1 hothers
      cases hpure
      exact List.forall_mem_cons.2 ⟨distinct_of_schemaOr hschema hvalue, ih hread hrest⟩

theorem distinct_of_readResult {name : String} {result : MethodResult}
    (h : readResult path name value = .ok (some result)) (hvalue : value.Distinct) :
    result.schema.kind.Distinct := by
  unfold readResult at h
  split at h
  · cases h
  · obtain ⟨schema, hschema, hpure⟩ := Failure.bind_eq_ok.1 h
    cases hpure
    exact distinct_of_schemaOr hschema (hvalue.value ‹_›)

theorem distinct_of_readMethod {method : Method} (h : readMethod path value = .ok method)
    (hvalue : value.Distinct) : method.Distinct := by
  unfold readMethod at h
  split at h
  · cases h
  · obtain ⟨params, hparams, hrest⟩ := Failure.bind_eq_ok.1 h
    obtain ⟨result, hresult, hpure⟩ := Failure.bind_eq_ok.1 hrest
    cases hpure
    refine ⟨distinct_of_readParams hparams fun _ ↦ distinct_of_elements hvalue, ?_⟩
    rintro found rfl
    exact distinct_of_readResult hresult hvalue

theorem distinct_of_readMethods {title : String} {position : Nat} {values : List Json}
    {methods : List Method} (h : readMethods title position values = .ok methods)
    (hvalues : ∀ value ∈ values, value.Distinct) : ∀ method ∈ methods, method.Distinct := by
  induction values generalizing position methods with
  | nil =>
    cases h
    nofun
  | cons value rest ih =>
    obtain ⟨hvalue, hrest⟩ := List.forall_mem_cons.1 hvalues
    rw [readMethods] at h
    obtain ⟨method, hmethod, hothers⟩ := Failure.bind_eq_ok.1 h
    obtain ⟨others, hread, hpure⟩ := Failure.bind_eq_ok.1 hothers
    cases hpure
    exact List.forall_mem_cons.2 ⟨distinct_of_readMethod hmethod hvalue, ih hread hrest⟩

theorem distinct_methods (h : read content = .ok document) (hcontent : content.Distinct) :
    ∀ method ∈ document.methods, method.Distinct :=
  distinct_of_readMethods (read_eq_ok h).2.1 fun _ ↦ distinct_of_elements hcontent

end Document

end SchemaBindings
