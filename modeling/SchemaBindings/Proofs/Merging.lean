import SchemaBindings.Schema.Element
import SchemaBindings.Schema.Merge

/-!
# Merging part by part

A merge of two kinds goes down into the parts that two objects or two arrays have in common. Apart
from these it is one of the two kinds, or it unites two enumerations. What is known of both kinds is
therefore known of what they merge into, if it is kept by each of these steps.
-/

namespace SchemaBindings

/-! ## Schemas inside of a schema -/

def Items.nodes : Items → List Node
  | single item => [item]
  | tuple items => items

theorem Items.mem_nodes_of_element {items : Items} {path : String} {item : Node}
    (h : items.element path = .ok item) : item ∈ items.nodes := by
  unfold element at h
  split at h
  · cases h
    exact List.mem_singleton_self _
  · cases h
  · split at h
    · cases h
      exact .head _
    · cases h

/-- The schemas that a kind is made of. -/
def Kind.inner : Kind → List Node
  | .object schema => schema.members.map (·.2) ++ schema.additional.toList
  | .array items => items.nodes
  | .allOf members => members
  | .oneOf members => members
  | .anyOf members => members
  | _ => []

namespace ObjectSchema

variable {schema : ObjectSchema} {node : Node}

theorem mem_inner_iff : node ∈ (Kind.object schema).inner ↔
    (∃ entry ∈ schema.members, entry.2 = node) ∨ schema.additional = some node := by
  simp only [Kind.inner, List.mem_append, List.mem_map, Option.mem_toList]

theorem property_mem_inner {entry : String × Node} (h : entry ∈ schema.members) :
    entry.2 ∈ (Kind.object schema).inner :=
  mem_inner_iff.2 (.inl ⟨entry, h, rfl⟩)

theorem additional_mem_inner (h : schema.additional = some node) :
    node ∈ (Kind.object schema).inner :=
  mem_inner_iff.2 (.inr h)

theorem hasProperties_of_mem {entry : String × Node} (h : entry ∈ schema.members) :
    schema.hasProperties = true := by
  unfold hasProperties
  cases hmembers : schema.members with
  | nil =>
    rw [hmembers] at h
    cases h
  | cons first rest => rfl

theorem sizeOf_inner_lt (h : node ∈ (Kind.object schema).inner) : sizeOf node < sizeOf schema := by
  obtain ⟨properties, required, additional, pattern⟩ := schema
  obtain ⟨⟨name, node⟩, hmem, rfl⟩ | hadditional := mem_inner_iff.1 h
  · cases properties with
    | none => cases hmem
    | some properties =>
      have hlist := List.sizeOf_lt_of_mem (show (name, node) ∈ properties from hmem)
      simp only [Prod.mk.sizeOf_spec] at hlist
      simp only [ObjectSchema.mk.sizeOf_spec, Option.some.sizeOf_spec]
      omega
  · cases hadditional
    simp only [ObjectSchema.mk.sizeOf_spec, Option.some.sizeOf_spec]
    omega

end ObjectSchema

/-- A schema that a kind is made of is smaller than the kind. -/
theorem Kind.sizeOf_inner_lt {kind : Kind} {node : Node} (h : node ∈ kind.inner) :
    sizeOf node < sizeOf kind := by
  cases kind with
  | object schema =>
    have hschema := ObjectSchema.sizeOf_inner_lt h
    simp only [Kind.object.sizeOf_spec]
    omega
  | array items =>
    cases items with
    | single item =>
      cases List.mem_singleton.1 h
      simp only [Kind.array.sizeOf_spec, Items.single.sizeOf_spec]
      omega
    | tuple items =>
      have hlist := List.sizeOf_lt_of_mem (show node ∈ items from h)
      simp only [Kind.array.sizeOf_spec, Items.tuple.sizeOf_spec]
      omega
  | allOf members =>
    have hlist := List.sizeOf_lt_of_mem (show node ∈ members from h)
    simp only [Kind.allOf.sizeOf_spec]
    omega
  | oneOf members =>
    have hlist := List.sizeOf_lt_of_mem (show node ∈ members from h)
    simp only [Kind.oneOf.sizeOf_spec]
    omega
  | anyOf members =>
    have hlist := List.sizeOf_lt_of_mem (show node ∈ members from h)
    simp only [Kind.anyOf.sizeOf_spec]
    omega
  | _ => cases h

theorem Node.sizeOf_kind_lt (node : Node) : sizeOf node.kind < sizeOf node := by
  obtain ⟨title, description, kind⟩ := node
  simp only [Node.kind_mk, Node.mk.sizeOf_spec]
  omega

theorem Node.sizeOf_inner_lt {whole node : Node} (h : node ∈ whole.kind.inner) :
    sizeOf node < sizeOf whole :=
  Nat.lt_trans (Kind.sizeOf_inner_lt h) whole.sizeOf_kind_lt

variable {path name : String}

/-! ## Places of two objects -/

@[simp]
theorem mergeAdditional_none_left (node : Option Node) :
    mergeAdditional path none node = .ok node := by
  cases node <;> rfl

@[simp]
theorem mergeAdditional_none_right (node : Option Node) :
    mergeAdditional path node none = .ok node := by
  cases node <;> rfl

theorem mergeAdditional_some (left right : Node) :
    mergeAdditional path (some left) (some right) = (Node.merge path left right).map some := rfl

/-- What one place has after a merge is what one of the objects has there, or merges both. -/
theorem mergeAdditional_induction (property : Node → Prop) {left right merged : Option Node}
    (hleft : ∀ node, left = some node → property node)
    (hright : ∀ node, right = some node → property node)
    (hmerge : ∀ node, right = some node → ∀ path existing found, property existing →
      Node.merge path existing node = .ok found → property found)
    (h : mergeAdditional path left right = .ok merged) :
    ∀ node, merged = some node → property node := by
  cases left with
  | none =>
    rw [mergeAdditional_none_left] at h
    cases h
    exact hright
  | some existing =>
    cases right with
    | none =>
      cases h
      exact hleft
    | some other =>
      obtain ⟨found, hfound, rfl⟩ := Failure.map_eq_ok.1 h
      rintro _ ⟨⟩
      exact hmerge other rfl path existing found (hleft existing rfl) hfound

section Properties

variable {left right merged : List (String × Node)}

theorem mergeProperties_cons_eq_ok {node : Node} {rest : List (String × Node)} :
    mergeProperties path left ((name, node) :: rest) = .ok merged ↔ ∃ next,
      mergeAdditional (Pointer.child path name) (Table.get? name left) (some node) =
        .ok (some next) ∧ mergeProperties path (Table.put name next left) rest = .ok merged := by
  rw [mergeProperties]
  cases Table.get? name left with
  | none => simp
  | some existing =>
    rw [mergeAdditional_some]
    dsimp only
    cases Node.merge (Pointer.child path name) existing node with
    | error failure => simp [Except.map]
    | ok found => simp [Except.map]

theorem keys_mergeProperties (h : mergeProperties path left right = .ok merged) :
    Table.keys merged = addAllNew (Table.keys left) (Table.keys right) := by
  induction right generalizing left with
  | nil =>
    cases h
    rfl
  | cons entry rest ih =>
    obtain ⟨name, node⟩ := entry
    obtain ⟨next, -, hmerged⟩ := mergeProperties_cons_eq_ok.1 h
    calc
      Table.keys merged
        = addAllNew (Table.keys (Table.put name next left)) (Table.keys rest) := ih hmerged
      _ = addAllNew (addNew (Table.keys left) name) (Table.keys rest) := by
        rw [Table.keys_put]
        rfl

/-- Properties that are merged with others keep what holds of both, if merging two of them does. -/
theorem mergeProperties_induction (property : Node → Prop)
    (hleft : ∀ entry ∈ left, property entry.2) (hright : ∀ entry ∈ right, property entry.2)
    (hmerge : ∀ entry ∈ right, ∀ path existing found, property existing →
      Node.merge path existing entry.2 = .ok found → property found)
    (h : mergeProperties path left right = .ok merged) : ∀ entry ∈ merged, property entry.2 := by
  induction right generalizing left with
  | nil =>
    cases h
    exact hleft
  | cons entry rest ih =>
    obtain ⟨name, node⟩ := entry
    obtain ⟨hnode, hrest⟩ := List.forall_mem_cons.1 hright
    obtain ⟨hmergeNode, hmergeRest⟩ := List.forall_mem_cons.1 hmerge
    obtain ⟨next, hnext, hmerged⟩ := mergeProperties_cons_eq_ok.1 h
    have hproperty : property next := by
      refine mergeAdditional_induction property (fun existing hexisting ↦ ?_) ?_ ?_ hnext next rfl
      · exact hleft _ (Table.mem_of_get?_eq_some hexisting)
      · rintro _ ⟨⟩
        exact hnode
      · rintro _ ⟨⟩
        exact hmergeNode
    have hput : ∀ entry ∈ Table.put name next left, property entry.2 := fun entry hentry ↦
      (Table.mem_put hentry).elim (fun heq ↦ heq ▸ hproperty) (hleft entry)
    exact ih hput hrest hmergeRest hmerged

end Properties

namespace ObjectSchema

variable {left right merged : ObjectSchema}

theorem merge_eq_ok : ObjectSchema.merge path left right = .ok merged ↔
    ∃ properties additional,
      mergeMembers (Pointer.child path "properties") left.properties right.properties =
        .ok properties ∧
      mergeAdditional (Pointer.child path "additionalProperties") left.additional
        right.additional = .ok additional ∧
      merged = .mk properties (mergeRequired left.required right.required) additional
        (left.pattern || right.pattern) := by
  obtain ⟨properties, required, additional, pattern⟩ := right
  rw [ObjectSchema.merge]
  constructor
  · intro h
    obtain ⟨properties, hproperties, hrest⟩ := Failure.bind_eq_ok.1 h
    obtain ⟨additional, hadditional, hpure⟩ := Failure.bind_eq_ok.1 hrest
    cases hpure
    exact ⟨properties, additional, hproperties, hadditional, rfl⟩
  · rintro ⟨properties, additional, hproperties, hadditional, rfl⟩
    exact Failure.bind_eq_ok.2 ⟨properties, hproperties,
      Failure.bind_eq_ok.2 ⟨additional, hadditional, rfl⟩⟩

theorem members_of_merge (h : ObjectSchema.merge path left right = .ok merged) :
    mergeProperties (Pointer.child path "properties") left.members right.members =
      .ok merged.members := by
  obtain ⟨properties, additional, hproperties, -, rfl⟩ := merge_eq_ok.1 h
  unfold members
  cases hdeclared : right.properties with
  | none =>
    rw [hdeclared] at hproperties
    cases hproperties
    rfl
  | some declared =>
    rw [hdeclared, mergeMembers] at hproperties
    obtain ⟨found, hfound, rfl⟩ := Failure.map_eq_ok.1 hproperties
    exact hfound

theorem additional_of_merge (h : ObjectSchema.merge path left right = .ok merged) :
    mergeAdditional (Pointer.child path "additionalProperties") left.additional right.additional =
      .ok merged.additional := by
  obtain ⟨properties, additional, -, hadditional, rfl⟩ := merge_eq_ok.1 h
  exact hadditional

theorem keys_of_merge (h : ObjectSchema.merge path left right = .ok merged) :
    Table.keys merged.members = addAllNew (Table.keys left.members) (Table.keys right.members) :=
  keys_mergeProperties (members_of_merge h)

/-- What is known of all schemas that two objects are made of, and is kept when such schemas are
merged, is known of all that the merged object is made of. -/
theorem merge_induction (property : Node → Prop)
    (hleft : ∀ node ∈ (Kind.object left).inner, property node)
    (hright : ∀ node ∈ (Kind.object right).inner, property node)
    (hmerge : ∀ node ∈ (Kind.object right).inner, ∀ path existing found, property existing →
      Node.merge path existing node = .ok found → property found)
    (h : ObjectSchema.merge path left right = .ok merged) :
    ∀ node ∈ (Kind.object merged).inner, property node := by
  have hmembers := mergeProperties_induction property
    (fun entry hentry ↦ hleft _ (property_mem_inner hentry))
    (fun entry hentry ↦ hright _ (property_mem_inner hentry))
    (fun entry hentry ↦ hmerge _ (property_mem_inner hentry)) (members_of_merge h)
  have hadditional := mergeAdditional_induction property
    (fun node hnode ↦ hleft node (additional_mem_inner hnode))
    (fun node hnode ↦ hright node (additional_mem_inner hnode))
    (fun node hnode ↦ hmerge node (additional_mem_inner hnode)) (additional_of_merge h)
  intro node hnode
  obtain ⟨entry, hentry, rfl⟩ | hvalue := mem_inner_iff.1 hnode
  · exact hmembers entry hentry
  · exact hadditional node hvalue

end ObjectSchema

/-! ## Two kinds -/

section Kinds

variable {left right merged : Kind}

theorem mergePrimitives_eq_ok {first second : Primitive} {m n : Option Double}
    (h : mergePrimitives path first second m n = .ok merged) :
    merged = .primitive first m ∨ merged = .primitive second n := by
  unfold mergePrimitives at h
  split at h
  case isFalse => cases h
  case isTrue htype =>
    subst htype
    obtain ⟨minimum, hminimum, rfl⟩ := Failure.map_eq_ok.1 h
    unfold mergeMinimums at hminimum
    split at hminimum
    case h_1 =>
      split at hminimum <;> cases hminimum
      exact .inl rfl
    case h_2 =>
      cases hminimum
      exact .inl rfl
    case h_3 =>
      cases hminimum
      exact .inr rfl

/-- What neither an object nor an array of one item schema comes from is one of the two kinds, or
unites two enumerations. -/
theorem mergeScalars_eq_ok (h : mergeScalars path left right = .ok merged) :
    merged = left ∨ merged = right ∨ ∃ first second, left = .enumeration first ∧
      right = .enumeration second ∧ merged = .enumeration (addAllNew first second) := by
  unfold mergeScalars at h
  split at h
  case h_1 => cases h; exact .inr (.inl rfl)
  case h_2 => cases h; exact .inl rfl
  case h_3 first second => cases h; exact .inr (.inr ⟨first, second, rfl, rfl, rfl⟩)
  case h_4 => cases h; exact .inl rfl
  case h_5 => cases h; exact .inr (.inl rfl)
  case h_6 => exact (mergePrimitives_eq_ok h).imp id .inl
  case h_10 => split at h <;> cases h
  all_goals
    split at h
    · cases h
      exact .inl rfl
    · cases h

theorem Node.merge_eq (left right : Node) : Node.merge path left right =
    if left.same right then .ok left
    else (Kind.merge path left.kind right.kind).map
      (.mk (left.title.or right.title) (left.description.or right.description)) := by
  obtain ⟨title, description, kind⟩ := right
  rw [Node.merge]
  rfl

/-- Merging two kinds merges two objects, or the schemas of all elements of two arrays. Everything
else is merged as a whole. -/
theorem Kind.merge_eq_ok (h : Kind.merge path left right = .ok merged) :
    (∃ first second schema, left = .object first ∧ right = .object second ∧
      ObjectSchema.merge path first second = .ok schema ∧ merged = .object schema) ∨
    (∃ first second item, left = .array (.single first) ∧ right = .array (.single second) ∧
      Node.merge (Pointer.child path "items") first second = .ok item ∧
      merged = .array (.single item)) ∨
    mergeScalars path left right = .ok merged := by
  cases right with
  | object second =>
    obtain ⟨first, rfl, hobjects⟩ | hscalars := Kind.merge_object path left second
    · rw [hobjects] at h
      obtain ⟨schema, hschema, rfl⟩ := Failure.map_eq_ok.1 h
      exact .inl ⟨first, second, schema, rfl, rfl, hschema, rfl⟩
    · exact .inr (.inr (hscalars.symm.trans h))
  | array items =>
    cases items with
    | single second =>
      obtain ⟨first, rfl, hitems⟩ | hscalars := Kind.merge_single path left second
      · rw [hitems] at h
        obtain ⟨item, hitem, rfl⟩ := Failure.map_eq_ok.1 h
        exact .inr (.inl ⟨first, second, item, rfl, rfl, hitem, rfl⟩)
      · exact .inr (.inr (hscalars.symm.trans h))
    | tuple => exact .inr (.inr h)
  | _ => exact .inr (.inr h)

/-- What holds of equal schemas and of kinds that are merged as a whole holds of all merges, if it
goes up from the schemas inside of two arrays or two objects. The induction is on the second kind,
since the first one takes in what was merged before. -/
theorem Kind.merge_induction {P : Kind → Kind → Kind → Prop}
    (same : ∀ {left right : Node}, left.same right → P left.kind right.kind left.kind)
    (scalars : ∀ {path left right merged}, mergeScalars path left right = .ok merged →
      P left right merged)
    (single : ∀ {first second item : Node}, P first.kind second.kind item.kind →
      P (.array (.single first)) (.array (.single second)) (.array (.single item)))
    (object : ∀ {path first second schema}, ObjectSchema.merge path first second = .ok schema →
      (∀ node ∈ (Kind.object second).inner, ∀ path existing found,
        Node.merge path existing node = .ok found → P existing.kind node.kind found.kind) →
      P (.object first) (.object second) (.object schema))
    (h : Kind.merge path left right = .ok merged) : P left right merged := by
  induction hsize : sizeOf right using Nat.strongRecOn generalizing path left right merged with
  | ind size ih =>
    have hinner : ∀ node ∈ right.inner, ∀ path existing found,
        Node.merge path existing node = .ok found → P existing.kind node.kind found.kind := by
      intro node hnode path existing found hmerge
      rw [Node.merge_eq] at hmerge
      split at hmerge
      case isTrue hsame =>
        cases hmerge
        exact same hsame
      case isFalse =>
        obtain ⟨kind, hkind, rfl⟩ := Failure.map_eq_ok.1 hmerge
        have hsmaller := Nat.lt_trans node.sizeOf_kind_lt (Kind.sizeOf_inner_lt hnode)
        exact ih _ (hsize ▸ hsmaller) hkind rfl
    obtain ⟨first, second, schema, rfl, rfl, hschema, rfl⟩ |
      ⟨first, second, item, rfl, rfl, hitem, rfl⟩ | hscalars := Kind.merge_eq_ok h
    · exact object hschema hinner
    · exact single (hinner second (.head _) _ _ _ hitem)
    · exact scalars hscalars

end Kinds

end SchemaBindings
