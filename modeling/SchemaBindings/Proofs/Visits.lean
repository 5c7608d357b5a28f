import SchemaBindings.Proofs.Symbols

/-!
# Schemas that are come to

From some schemas a mapper comes to others: to what they refer to, to their parts, and to what
compositions merge into. A schema that is come to declares a type if it is an enumeration, an
object, a map or an array, and then claims a stem for its path. Schemas are come to by different
ways, and under different names; they are tidy if what is declared at a path is the same by all
ways to it, and a definition reserves the symbols that are declared at its path. In a registry
that only such schemas have claimed in, every declared type owns its symbols.
-/

namespace SchemaBindings

/-- A schema with the document it is read in, the name it is asked for under and its place. -/
structure Visit where
  document : Document
  node : Node
  name : String
  path : String

namespace Visit

def request (v : Visit) (scope : String) : Request := ⟨v.name, scope, v.path⟩

/-- The name of the type; the scope has no part in it. -/
def label (v : Visit) : Except Failure String := (v.request "").label v.node

def ofTarget (target : Target) : Visit :=
  ⟨target.owner, target.node, target.title, target.path⟩

/-- From one schema a mapper comes to another one. An array that is a property is also gone
through to its elements, which are then named after the property. -/
inductive Comes (library : Library) : Visit → Visit → Prop
  | target {v : Visit} {reference : String} {target : Target}
      (hkind : v.node.kind = .reference reference)
      (htarget : library.resolve v.document reference v.path = .ok target) :
      Comes library v (.ofTarget target)
  | element {v : Visit} {items : Items} {item : Node} {label : String}
      (hkind : v.node.kind = .array items) (hlabel : v.label = .ok label)
      (hitem : items.element v.path = .ok item) :
      Comes library v
        ⟨v.document, item, Request.elementLabel item label, Pointer.child v.path "items"⟩
  | value {v : Visit} {schema : ObjectSchema} {additional : Node}
      (hkind : v.node.kind = .object schema) (hplain : schema.hasProperties = false)
      (hadditional : schema.additional = some additional) :
      Comes library v
        ⟨v.document, additional, "value", Pointer.child v.path "additionalProperties"⟩
  | property {v : Visit} {schema : ObjectSchema} {name : String} {child : Node}
      (hkind : v.node.kind = .object schema) (hmember : (name, child) ∈ schema.members) :
      Comes library v
        ⟨v.document, child, name, Pointer.child (Pointer.child v.path "properties") name⟩
  | propertyElement {v : Visit} {schema : ObjectSchema} {name : String} {child item : Node}
      {items : Items} (hkind : v.node.kind = .object schema)
      (hmember : (name, child) ∈ schema.members) (hchild : child.kind = .array items)
      (hitem : items.element (Pointer.child (Pointer.child v.path "properties") name) =
        .ok item) :
      Comes library v
        ⟨v.document, item, Request.elementLabel item name,
          Pointer.child (Pointer.child (Pointer.child v.path "properties") name) "items"⟩
  | merged {v : Visit} {members : List Node} {label : String} {budget : Nat} {merged : Node}
      (hkind : v.node.kind = .allOf members) (hlabel : v.label = .ok label)
      (hmerge : mergeAllOf library budget v.document v.node members v.path {} =
        some (.ok merged, {})) :
      Comes library v
        { v with node := .mk (v.node.title.or (some label)) merged.description merged.kind }

/-- Only references, arrays, objects and compositions lead to other schemas. -/
theorem Comes.kind {library : Library} {v v' : Visit} (h : v.Comes library v') :
    (∃ reference, v.node.kind = .reference reference) ∨ (∃ items, v.node.kind = .array items) ∨
      (∃ schema, v.node.kind = .object schema) ∨ ∃ members, v.node.kind = .allOf members := by
  cases h with
  | target hkind => exact .inl ⟨_, hkind⟩
  | element hkind => exact .inr (.inl ⟨_, hkind⟩)
  | value hkind => exact .inr (.inr (.inl ⟨_, hkind⟩))
  | property hkind => exact .inr (.inr (.inl ⟨_, hkind⟩))
  | propertyElement hkind => exact .inr (.inr (.inl ⟨_, hkind⟩))
  | merged hkind => exact .inr (.inr (.inr ⟨_, hkind⟩))

end Visit

/-- A mapper that starts from the roots may come to the schema. -/
inductive Visited (library : Library) (roots : Visit → Prop) : Visit → Prop
  | root {v : Visit} (h : roots v) : Visited library roots v
  | step {v v' : Visit} (h : Visited library roots v) (hcomes : v.Comes library v') :
      Visited library roots v'

/-! ## Declared types -/

/-- What the code of a type is made from, apart from the stem. -/
inductive Declared where
  | enumeration (label : String) (description : Option String) (values : List String)
  | object (schema : ObjectSchema)
  | map (additional : Node)
  | array (item : Node) (name : String)

def Declared.kind : Declared → SymbolKind
  | enumeration .. => .enumeration
  | object _ => .object
  | map _ => .map
  | array .. => .array

/-- The type that a schema declares. -/
def Visit.declared? (v : Visit) : Option Declared :=
  match v.label with
  | .error _ => none
  | .ok label =>
    match v.node.kind with
    | .enumeration values => some (.enumeration label v.node.description values)
    | .object schema =>
      if schema.hasProperties then some (.object schema) else schema.additional.map .map
    | .array items =>
      match items.element v.path with
      | .ok item => some (.array item (Request.elementLabel item label))
      | .error _ => none
    | _ => none

section Declared

variable {v : Visit} {label : String}

theorem Visit.declared?_enumeration {values : List String} (hlabel : v.label = .ok label)
    (hkind : v.node.kind = .enumeration values) :
    v.declared? = some (.enumeration label v.node.description values) := by
  unfold declared?
  rw [hlabel, hkind]

theorem Visit.declared?_object {schema : ObjectSchema} (hlabel : v.label = .ok label)
    (hkind : v.node.kind = .object schema) (hproperties : schema.hasProperties = true) :
    v.declared? = some (.object schema) := by
  unfold declared?
  rw [hlabel, hkind]
  exact if_pos hproperties

theorem Visit.declared?_map {schema : ObjectSchema} {additional : Node}
    (hlabel : v.label = .ok label) (hkind : v.node.kind = .object schema)
    (hplain : schema.hasProperties = false) (hadditional : schema.additional = some additional) :
    v.declared? = some (.map additional) := by
  unfold declared?
  rw [hlabel, hkind]
  dsimp only
  rw [hplain, hadditional]
  rfl

theorem Visit.declared?_array {items : Items} {item : Node} (hlabel : v.label = .ok label)
    (hkind : v.node.kind = .array items) (hitem : items.element v.path = .ok item) :
    v.declared? = some (.array item (Request.elementLabel item label)) := by
  unfold declared?
  rw [hlabel, hkind]
  dsimp only
  rw [hitem]

/-- Only enumerations, objects, maps and arrays declare types. -/
theorem Visit.declared?_eq_some {d : Declared} (h : v.declared? = some d) :
    ∃ label, v.label = .ok label ∧
      ((∃ values, v.node.kind = .enumeration values ∧
        d = .enumeration label v.node.description values) ∨
      (∃ schema, v.node.kind = .object schema ∧ schema.hasProperties = true ∧ d = .object schema) ∨
      (∃ schema additional, v.node.kind = .object schema ∧ schema.hasProperties = false ∧
        schema.additional = some additional ∧ d = .map additional) ∨
      ∃ items item, v.node.kind = .array items ∧ items.element v.path = .ok item ∧
        d = .array item (Request.elementLabel item label)) := by
  unfold declared? at h
  split at h
  · cases h
  · rename_i label hlabel
    refine ⟨label, hlabel, ?_⟩
    split at h
    · cases h
      exact .inl ⟨_, ‹_›, rfl⟩
    · rename_i schema hkind
      split at h
      · cases h
        exact .inr (.inl ⟨schema, hkind, ‹_›, rfl⟩)
      · obtain ⟨additional, hadditional, rfl⟩ := Option.map_eq_some_iff.1 h
        exact .inr (.inr (.inl ⟨schema, additional, hkind, Bool.eq_false_iff.2 ‹_›, hadditional,
          rfl⟩))
    · rename_i items hkind
      split at h
      · cases h
        exact .inr (.inr (.inr ⟨items, _, hkind, ‹_›, rfl⟩))
      · cases h
    · cases h

end Declared

/-- Whichever way a mapper comes to a path, the same type is declared there, and a definition
reserves all symbols of the type that is declared at its path. -/
structure Tidy (library : Library) (roots : Visit → Prop) : Prop where
  alike : ∀ {v v' : Visit} {d d' : Declared}, Visited library roots v → Visited library roots v' →
    v.declared? = some d → v'.declared? = some d' → v.path = v'.path →
      v.document = v'.document ∧ d = d'
  reserved : ∀ {v home : Visit} {d : Declared} {claim : Registry.Claim},
    Visited library roots v → Visited library roots home → v.declared? = some d →
      claim ∈ Registry.definitionClaims library home.document → claim.path = v.path →
        ∀ stem, d.kind.symbols v.document.title stem ⊆
          claim.kind.symbols home.document.title stem

namespace Registry

/-! ## Registries of a run -/

/-- A path is claimed for a type that is declared there, or reserved for a definition. -/
inductive Claimant (library : Library) (roots : Visit → Prop) : String → String → SymbolKind → Prop
  | declared {v : Visit} {d : Declared} (h : Visited library roots v)
      (hdeclared : v.declared? = some d) :
      Claimant library roots v.document.title v.path d.kind
  | reserved {home : Visit} {claim : Claim} (h : Visited library roots home)
      (hclaim : claim ∈ definitionClaims library home.document) :
      Claimant library roots home.document.title claim.path claim.kind

/-- Every stem was assigned to a path of the run, which owns the symbols of the stem. -/
def Sound (library : Library) (roots : Visit → Prop) (registry : Registry) : Prop :=
  ∀ path stem, registry.stem? path = some stem →
    ∃ title kind, Claimant library roots title path kind ∧
      ∀ symbol ∈ kind.symbols title stem, registry.owner? symbol = some path

variable {library : Library} {roots : Visit → Prop} {registry : Registry}

theorem sound_empty : Sound library roots {} := by
  intro path stem h
  cases h

theorem Sound.assign (h : registry.Sound library roots) {title path : String} {kind : SymbolKind}
    (hclaimant : Claimant library roots title path kind) (preferred : String) :
    (registry.assign title path kind preferred).2.Sound library roots := by
  cases hpath : registry.stem? path with
  | some stem =>
    rw [assign_of_stem? hpath]
    exact h
  | none =>
    intro other stem hstem
    by_cases hother : path = other
    · subst hother
      refine ⟨title, kind, hclaimant, fun symbol hsymbol ↦ ?_⟩
      rw [stem?_assign] at hstem
      cases hstem
      rw [owner?_assign _ _ _ _ _ _ hpath, if_pos hsymbol]
    · rw [stem?_assign_of_ne hother] at hstem
      obtain ⟨title', kind', hclaimant', howner⟩ := h other stem hstem
      exact ⟨title', kind', hclaimant', fun symbol hsymbol ↦
        owner?_assign_of_owner? (howner symbol hsymbol) _ _ _ _⟩

theorem Sound.assignAll (h : registry.Sound library roots) {home : Visit}
    (hhome : Visited library roots home) {claims : List Claim}
    (hclaims : claims ⊆ definitionClaims library home.document) :
    (assignAll home.document.title claims registry).Sound library roots := by
  induction claims generalizing registry with
  | nil => exact h
  | cons claim rest ih =>
    obtain ⟨hclaim, hrest⟩ := List.cons_subset.1 hclaims
    exact ih (h.assign (.reserved hhome hclaim) claim.stem) hrest

/-- A type that is declared keeps a registry sound when it claims its stem. -/
theorem Sound.claim (h : registry.Sound library roots) {v : Visit} {d : Declared}
    (hv : Visited library roots v) (hdeclared : v.declared? = some d) (preferred : String) :
    (registry.claim library v.document v.path d.kind preferred).2.Sound library roots := by
  have hreserved : (registry.reserveDefinitions library v.document).Sound library roots := by
    unfold reserveDefinitions
    split
    · exact h
    · have hsame : Sound library roots
          { registry with reserved := v.document.uri :: registry.reserved } := h
      exact hsame.assignAll hv (List.Subset.refl _)
  exact hreserved.assign (.declared hv hdeclared) preferred

/-- With a stem, a type that is declared owns all of its symbols. -/
theorem Sound.owner? (h : registry.Sound library roots) (htidy : Tidy library roots) {v : Visit}
    {d : Declared} (hv : Visited library roots v) (hdeclared : v.declared? = some d)
    {stem symbol : String} (hstem : registry.stem? v.path = some stem)
    (hsymbol : symbol ∈ d.kind.symbols v.document.title stem) :
    registry.owner? symbol = some v.path := by
  obtain ⟨title, kind, hclaimant, howner⟩ := h v.path stem hstem
  apply howner
  generalize hpath : v.path = path at hclaimant
  cases hclaimant with
  | @declared v' d' hv' hdeclared' =>
    obtain ⟨hdocument, rfl⟩ := htidy.alike hv hv' hdeclared hdeclared' hpath
    rw [← hdocument]
    exact hsymbol
  | reserved hhome hclaim => exact htidy.reserved hv hhome hdeclared hclaim hpath.symm stem hsymbol

end Registry

end SchemaBindings
